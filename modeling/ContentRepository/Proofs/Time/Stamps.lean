import ContentRepository.Proofs.Text.Digits
import ContentRepository.Proofs.Time.Calendar
import ContentRepository.Time.Stamp

/-!
# Time stamps are read back

Each field of a stamp ends where the next character is no digit, so the reader takes from it the
number that was written; and the fields show the instant that they were made from.

* **`Stamp.readLenient?_write`** — the stamp of any instant is read as this instant.
-/

namespace ContentRepository

open Text (EndsRun IsNumeral)
open Instant (padded writeYear writeFraction perSecond)

namespace Stamp

/-! ## Steps of the reader -/

theorem bind_eq {α β : Type} {reader : Reader α} {next : α → Reader β} {text rest : List Char}
    {a : α} (h : reader text = .ok (a, rest)) : (reader >>= next) text = next a rest := by
  show (reader text).bind _ = _
  rw [h]
  rfl

theorem get_eq (text : List Char) : (get : Reader (List Char)) text = .ok (text, text) := rfl

section Steps

variable {run rest : List Char} {c : Char} {most : Nat}

theorem blanks_of_head (hc : Text.isBlank c = false) (text : List Char) :
    blanks (c :: text) = .ok ((), c :: text) := by
  show Except.ok ((), (c :: text).dropWhile Text.isBlank) = _
  rw [List.dropWhile_cons_of_neg (by simp [hc])]

theorem leadingDigits_run (hrun : IsNumeral run) (hmost : run.length ≤ most)
    (hend : EndsRun Char.isDigit rest) : leadingDigits most (run ++ rest) = run := by
  have hend' : EndsRun Char.isDigit (rest.take (most - run.length)) := by
    intro c hc
    rw [List.head?_take] at hc
    split at hc
    · cases hc
    · exact hend c hc
  rw [leadingDigits, List.take_append, List.take_of_length_le hmost,
    Text.takeWhile_run hrun.2 hend']

theorem blanks_run (hrun : IsNumeral run) (rest : List Char) :
    blanks (run ++ rest) = .ok ((), run ++ rest) := by
  obtain ⟨c, cs, rfl⟩ := List.exists_cons_of_ne_nil hrun.1
  exact blanks_of_head (Text.isBlank_of_isDigit (hrun.2 c List.mem_cons_self)) _

theorem number_run (hrun : IsNumeral run) (hmost : run.length ≤ most)
    (hend : EndsRun Char.isDigit rest) :
    number most (run ++ rest) = .ok (digitsValue run, rest) := by
  have hne : run.isEmpty = false := by simpa using hrun.1
  rw [number, bind_eq (blanks_run hrun rest), bind_eq (get_eq _)]
  simp only [leadingDigits_run hrun hmost hend, hne, List.drop_left]
  rfl

theorem fraction_run (hrun : IsNumeral run) (hmost : run.length ≤ 9)
    (hend : EndsRun Char.isDigit rest) :
    fraction (run ++ rest) = .ok (digitsValue run * Nat.pow 10 (9 - run.length), rest) := by
  have hne : run.isEmpty = false := by simpa using hrun.1
  rw [fraction]
  simp only [leadingDigits_run hrun hmost hend, hne, List.drop_left, Text.dropWhile_of_endsRun hend]
  rfl

theorem spaced_of_head (hc : Text.isBlank c = false) (text : List Char) :
    spaced c (c :: text) = .ok ((), text) := by
  rw [spaced, bind_eq (blanks_of_head hc text), mark, if_pos rfl]

theorem oneOf_of_head {allowed : List Char} (hc : c ∈ allowed) (text : List Char) :
    oneOf allowed (c :: text) = .ok ((), text) := by
  rw [oneOf, if_pos hc]

end Steps

/-! ## The fields -/

section Fields

variable {rest : List Char}

theorem number_padded {n : Nat} (width : Nat) (hwidth : 0 < width) (hn : n < Nat.pow 10 width)
    (hend : EndsRun Char.isDigit rest) : number width (padded width n ++ rest) = .ok (n, rest) := by
  have h := number_run (Instant.isNumeral_padded width n)
    (Nat.le_of_eq (Instant.length_padded hwidth hn)) hend
  rw [Instant.digitsValue_padded] at h
  exact h

theorem signed_run {run : List Char} (hrun : IsNumeral run) (hend : EndsRun Char.isDigit rest)
    (text : List Char) : year.signed (run ++ rest) text = .ok (digitsValue run, rest) := by
  have hne : run.isEmpty = false := by simpa using hrun.1
  rw [year.signed, Text.takeWhile_run hrun.2 hend]
  simp only [hne, List.drop_left]
  rfl

/-- A year of four digits, or a sign and the digits of any year. -/
theorem year_writeYear (written : Int) (hend : EndsRun Char.isDigit rest) :
    year (writeYear written ++ rest) = .ok (written, rest) := by
  rw [writeYear]
  split
  · next hfour =>
    have hfits : written.toNat < 10000 := by omega
    have hnumber := number_padded 4 (by omega) hfits hend
    have hrun := Instant.isNumeral_padded 4 written.toNat
    obtain ⟨c, cs, hdigits⟩ := List.exists_cons_of_ne_nil hrun.1
    have hc := hrun.2 c (hdigits ▸ List.mem_cons_self)
    -- a digit is no sign, so the year is read as a plain number
    have hminus : ¬ c = '-' := by rintro rfl; cases hc
    have hplus : ¬ c = '+' := by rintro rfl; cases hc
    rw [hdigits, List.cons_append] at hnumber ⊢
    rw [year, bind_eq (blanks_of_head (Text.isBlank_of_isDigit hc) _),
      bind_eq (get_eq _)]
    simp only [List.cons.injEq, hminus, hplus, false_and, imp_self, implies_true]
    rw [bind_eq hnumber, Int.toNat_of_nonneg hfour.1]
    rfl
  · have hsigned := signed_run (Instant.isNumeral_padded 4 written.natAbs) hend
    rw [Instant.digitsValue_padded] at hsigned
    have hset (text : List Char) : (set (padded 4 written.natAbs ++ rest) : Reader Unit) text =
        .ok ((), padded 4 written.natAbs ++ rest) := rfl
    split
    · next hnegative =>
      rw [List.cons_append, year, bind_eq (blanks_of_head (by decide) _),
        bind_eq (get_eq _)]
      simp only
      rw [bind_eq (hset _), bind_eq (hsigned _)]
      show Except.ok (-(written.natAbs : Int), rest) = _
      rw [Int.ofNat_natAbs_of_nonpos (by omega), Int.neg_neg]
    · next hpositive =>
      rw [List.cons_append, year, bind_eq (blanks_of_head (by decide) _),
        bind_eq (get_eq _)]
      simp only
      rw [bind_eq (hset _), bind_eq (hsigned _)]
      show Except.ok ((written.natAbs : Int), rest) = _
      rw [Int.natAbs_of_nonneg (by omega)]

/-- A group of digits after the point. -/
theorem optionalFraction_padded {groups n : Nat} (hgroups : 0 < groups) (hgroups' : groups ≤ 9)
    (hn : n < Nat.pow 10 groups) (hend : EndsRun Char.isDigit rest) :
    optionalFraction ('.' :: padded groups n ++ rest) = .ok (n * Nat.pow 10 (9 - groups), rest) := by
  have hlength := Instant.length_padded hgroups hn
  have h := fraction_run (Instant.isNumeral_padded groups n) (by omega) hend
  rw [Instant.digitsValue_padded, hlength] at h
  exact h

/-- However many groups of digits are left out, the fraction is the same. -/
theorem optionalFraction_writeFraction {nanos : Nat} (hn : nanos < perSecond)
    (hend : EndsRun (fun c => c.isDigit || c == '.') rest) :
    optionalFraction (writeFraction nanos ++ rest) = .ok (nanos, rest) := by
  have hdigit : EndsRun Char.isDigit rest := hend.mono fun c hc => by rw [hc, Bool.true_or]
  have hsecond : perSecond = 1000000000 := rfl
  rw [writeFraction]
  split
  · next hzero =>
    -- no fraction is written: what follows must not begin like one
    rw [List.nil_append, optionalFraction, hzero]
    rintro tail rfl
    cases hend '.' rfl
  · split
    · next hmillis =>
      have hfits : nanos / 1000000 < 1000 := by omega
      have hback : nanos / 1000000 * 1000000 = nanos := by omega
      rw [optionalFraction_padded (by omega) (by omega) hfits hdigit]
      exact congrArg (fun n => Except.ok (n, rest)) hback
    · split
      · next hmicros =>
        have hfits : nanos / 1000 < 1000000 := by omega
        have hback : nanos / 1000 * 1000 = nanos := by omega
        rw [optionalFraction_padded (by omega) (by omega) hfits hdigit]
        exact congrArg (fun n => Except.ok (n, rest)) hback
      · have hback : nanos * 1 = nanos := Nat.mul_one nanos
        rw [optionalFraction_padded (by omega) (by omega) hn hdigit]
        exact congrArg (fun n => Except.ok (n, rest)) hback

theorem zone_utc : zone ['Z'] = .ok (0, []) := by
  decide

end Fields

end Stamp

/-! ## Whole stamps -/

namespace Instant

theorem of?_self (t : Instant) : of? t.seconds t.nanos = some t := dif_pos t.fits

/-- An instant lies in a year that can be represented. -/
theorem year_bounds (t : Instant) :
    firstYear ≤ (Time.dateOfDay (t.seconds / Time.secondsPerDay)).year ∧
      (Time.dateOfDay (t.seconds / Time.secondsPerDay)).year ≤ lastYear := by
  have hday := Time.dayOfDate_dateOfDay (t.seconds / Time.secondsPerDay)
  have hvalid := Time.isValid_dateOfDay (t.seconds / Time.secondsPerDay)
  have hfits := t.fits
  have hseconds : (Time.secondsPerDay : Int) = 86400 := rfl
  rw [Fits, firstSecond, lastSecond, hseconds] at hfits
  rw [hseconds] at hday hvalid ⊢
  constructor
  · refine Int.not_lt.1 fun hbefore => ?_
    have hlt := Time.dayOfDate_lt_of_year_lt (b := ⟨firstYear, 1, 1⟩) hvalid (by decide) hbefore
    omega
  · refine Int.not_lt.1 fun hafter => ?_
    have hlt := Time.dayOfDate_lt_of_year_lt (a := ⟨lastYear, 12, 31⟩) (by decide) hvalid hafter
    omega

/-- The days since the epoch and the seconds of the last one make up the seconds of an instant. -/
theorem day_add_clock (t : Instant) : (t.seconds % Time.secondsPerDay).toNat < 86400 ∧
    t.seconds / Time.secondsPerDay * Time.secondsPerDay + (t.seconds % Time.secondsPerDay).toNat =
      t.seconds := by
  have hseconds : (Time.secondsPerDay : Int) = 86400 := rfl
  rw [hseconds]
  omega

/-- The second shown by a clock and the nanoseconds in it; a leap second is second 60. -/
def shownSecond (t : Instant) : Nat × Nat :=
  let clock := (t.seconds % Time.secondsPerDay).toNat
  if t.nanos < perSecond then (clock % 60, t.nanos) else (clock % 60 + 1, t.nanos - perSecond)

theorem shownSecond_bounds (t : Instant) : t.shownSecond.1 < 100 ∧ t.shownSecond.2 < perSecond := by
  have hfits := t.fits.2.2
  have hminute := Nat.mod_lt (t.seconds % Time.secondsPerDay).toNat (y := 60) (by omega)
  rw [shownSecond]
  split
  · next hlt => exact ⟨by omega, hlt⟩
  · exact ⟨by omega, by omega⟩

/-- The leap second is counted with the second before it. -/
theorem counted_shownSecond (t : Instant) :
    (if t.shownSecond.1 = 60 then (59, t.shownSecond.2 + perSecond) else t.shownSecond) =
      ((t.seconds % Time.secondsPerDay).toNat % 60, t.nanos) := by
  have hfits := t.fits.2.2
  have hseconds : (Time.secondsPerDay : Int) = 86400 := rfl
  rw [shownSecond, hseconds]
  split
  · have hminute : (t.seconds % 86400).toNat % 60 ≠ 60 := by omega
    simp only [if_neg hminute]
  · have hminute : (t.seconds % 86400).toNat % 60 = 59 := by omega
    have hnanos : t.nanos - perSecond + perSecond = t.nanos := by omega
    simp only [hminute, hnanos, if_true]

/-- **Clocks in UTC show the instant.** -/
theorem ofLocal_utc (t : Instant) :
    ofLocal (Time.dateOfDay (t.seconds / Time.secondsPerDay))
      ((t.seconds % Time.secondsPerDay).toNat / 3600)
      ((t.seconds % Time.secondsPerDay).toNat / 60 % 60) t.shownSecond.1 t.shownSecond.2 0 =
        some t := by
  have hvalid := Time.isValid_dateOfDay (t.seconds / Time.secondsPerDay)
  obtain ⟨hfirst, hlast⟩ := t.year_bounds
  obtain ⟨hclock, hsum⟩ := t.day_add_clock
  have hhour : (t.seconds % Time.secondsPerDay).toNat / 3600 < 24 := by omega
  have hminute : (t.seconds % Time.secondsPerDay).toNat / 60 % 60 < 60 := by omega
  have hsecond : (t.seconds % Time.secondsPerDay).toNat % 60 < 60 := by omega
  have hoffset : (0 : Int).natAbs < Time.secondsPerDay := by decide
  have hcount : (t.seconds / Time.secondsPerDay) * Time.secondsPerDay +
      (((t.seconds % Time.secondsPerDay).toNat / 3600 * 3600 +
        (t.seconds % Time.secondsPerDay).toNat / 60 % 60 * 60 +
        (t.seconds % Time.secondsPerDay).toNat % 60 : Nat) : Int) - 0 = t.seconds := by omega
  rw [ofLocal, counted_shownSecond]
  simp only [hvalid, hfirst, hlast, hhour, hminute, hsecond, hoffset, decide_true, Bool.and_self,
    if_true, Time.dayOfDate_dateOfDay, hcount, of?_self]

end Instant

namespace Stamp

/-- The characters of a stamp, from its date, the time of day and the nanoseconds. -/
def written (date : Time.Date) (hour minute second nanos : Nat) : List Char :=
  writeYear date.year ++ '-' :: (padded 2 date.month ++ '-' :: (padded 2 date.day ++
    'T' :: (padded 2 hour ++ ':' :: (padded 2 minute ++ ':' :: (padded 2 second ++
    (writeFraction nanos ++ ['Z']))))))

theorem endsRun_writeFraction (nanos : Nat) (rest : List Char) :
    EndsRun Char.isDigit (writeFraction nanos ++ 'Z' :: rest) := by
  rw [writeFraction]
  split
  · exact Text.endsRun_cons rfl
  · split
    · exact Text.endsRun_cons rfl
    · split <;> exact Text.endsRun_cons rfl

/-- The reader takes the fields that were written. -/
theorem lenient_written {date : Time.Date} {hour minute second nanos : Nat} {t : Instant}
    (hmonth : date.month < 100) (hday : date.day < 100) (hhour : hour < 100)
    (hminute : minute < 100) (hsecond : second < 100) (hnanos : nanos < perSecond)
    (hlocal : Instant.ofLocal date hour minute second nanos 0 = some t) :
    lenient (written date hour minute second nanos) = .ok (t, []) := by
  have hend {c : Char} (hc : c.isDigit = false) (text : List Char) :
      EndsRun Char.isDigit (c :: text) := Text.endsRun_cons hc
  have hfraction : optionalFraction (writeFraction nanos ++ ['Z']) = .ok (nanos, ['Z']) :=
    optionalFraction_writeFraction hnanos (Text.endsRun_cons rfl)
  have hblanks : blanks [] = .ok ((), []) := rfl
  rw [lenient, written, bind_eq (year_writeYear _ (hend rfl _)),
    bind_eq (spaced_of_head (by decide) _),
    bind_eq (number_padded 2 (by omega) hmonth (hend rfl _)),
    bind_eq (spaced_of_head (by decide) _),
    bind_eq (number_padded 2 (by omega) hday (hend rfl _)),
    bind_eq (oneOf_of_head (by decide) _),
    bind_eq (number_padded 2 (by omega) hhour (hend rfl _)),
    bind_eq (spaced_of_head (by decide) _),
    bind_eq (number_padded 2 (by omega) hminute (hend rfl _)),
    bind_eq (spaced_of_head (by decide) _),
    bind_eq (number_padded 2 (by omega) hsecond (endsRun_writeFraction _ _)),
    bind_eq hfraction, bind_eq zone_utc, bind_eq hblanks, bind_eq (get_eq _)]
  simp only [hlocal]
  rfl

theorem toList_write (t : Instant) : t.write.toList =
    written (Time.dateOfDay (t.seconds / Time.secondsPerDay))
      ((t.seconds % Time.secondsPerDay).toNat / 3600)
      ((t.seconds % Time.secondsPerDay).toNat / 60 % 60) t.shownSecond.1 t.shownSecond.2 := by
  simp only [Instant.write, String.toList_ofList, written, Instant.shownSecond, List.append_assoc,
    List.cons_append]

/-- **The stamp of an instant is read as this instant.** -/
theorem readLenient?_write (t : Instant) : readLenient? t.write = some t := by
  obtain ⟨⟨-, hmonth⟩, -, hday, -⟩ :=
    Time.month_day_le (Time.isValid_dateOfDay (t.seconds / Time.secondsPerDay))
  obtain ⟨hclock, -⟩ := t.day_add_clock
  obtain ⟨hsecond, hnanos⟩ := t.shownSecond_bounds
  have hrun := lenient_written (by omega) (by omega) (by omega) (by omega) (by omega) hnanos
    t.ofLocal_utc
  rw [readLenient?, toList_write]
  show ((lenient _).map _).toOption = _
  rw [hrun]
  rfl

end Stamp

end ContentRepository
