import ContentRepository.Time.Instant
import ContentRepository.Text.Blank

/-!
# Time stamps

The text forms of an `Instant`, after RFC 3339.

* **`Instant.write`** gives the one form that is written: in UTC, with as many groups of three
  fraction digits as are needed, `2024-01-01T00:00:00.5Z` being written with three.
* **`Stamp.read`** is the strict reader. Fields stand at fixed places, and a fault is reported as
  the first of its kind met from left to right.
* **`Stamp.readLenient?`** reads what people write: blanks around fields, short fields, signed
  years, and a zone given as `UTC` or as an offset with any separator.
-/

namespace ContentRepository

namespace Instant

/-- A number with leading zeros up to a width. -/
def padded (width n : Nat) : List Char :=
  let digits := Nat.toDigits 10 n
  List.replicate (width - digits.length) '0' ++ digits

/-- Years outside the four-digit ones carry a sign. -/
def writeYear (year : Int) : List Char :=
  if 0 ≤ year ∧ year ≤ 9999 then padded 4 year.toNat
  else (if year < 0 then '-' else '+') :: padded 4 year.natAbs

/-- The fraction of a second: none, or the fewest groups of three digits that lose nothing. -/
def writeFraction (nanos : Nat) : List Char :=
  if nanos = 0 then []
  else if nanos % 1000000 = 0 then '.' :: padded 3 (nanos / 1000000)
  else if nanos % 1000 = 0 then '.' :: padded 6 (nanos / 1000)
  else '.' :: padded 9 nanos

/-- The stamp of an instant, in UTC. -/
def write (t : Instant) : String :=
  let date := Time.dateOfDay (t.seconds / Time.secondsPerDay)
  let clock := (t.seconds % Time.secondsPerDay).toNat
  -- a leap second is second 60
  let (second, nanos) :=
    if t.nanos < perSecond then (clock % 60, t.nanos) else (clock % 60 + 1, t.nanos - perSecond)
  String.ofList <|
    writeYear date.year ++ '-' :: padded 2 date.month ++ '-' :: padded 2 date.day ++
    'T' :: padded 2 (clock / 3600) ++ ':' :: padded 2 (clock / 60 % 60) ++
    ':' :: padded 2 second ++ writeFraction nanos ++ ['Z']

end Instant

/-- What is wrong with a time stamp. -/
inductive StampFault where
  /-- The text ends too early. -/
  | cutShort
  /-- A character stands where another was needed. -/
  | malformed
  /-- The fields are well formed but no clock or calendar shows them. -/
  | outOfRange
  /-- Text is left after the stamp. -/
  | leftover
deriving DecidableEq

/-- The wording of a fault. -/
def StampFault.message : StampFault → String
  | .cutShort => "premature end of input"
  | .malformed => "input contains invalid characters"
  | .outOfRange => "input is out of range"
  | .leftover => "trailing input"

namespace Stamp

/-- A reader takes characters from the front of the text, or finds a fault. -/
abbrev Reader := StateT (List Char) (Except StampFault)

/-- The digits of a number, most significant first. -/
def digitsValue (digits : List Char) : Nat :=
  digits.foldl (fun n c => n * 10 + (c.toNat - '0'.toNat)) 0

/-- The digits at the front of a text, at most `most` of them. -/
def leadingDigits (most : Nat) (text : List Char) : List Char :=
  (text.take most).takeWhile Char.isDigit

/-- Exactly `count` digits. -/
def fixedDigits (count : Nat) : Reader Nat := fun text =>
  let digits := leadingDigits count text
  if digits.length = count then .ok (digitsValue digits, text.drop count) else .error .malformed

/-- One of the given characters. -/
def oneOf (allowed : List Char) : Reader Unit := fun
  | c :: rest => if c ∈ allowed then .ok ((), rest) else .error .malformed
  | [] => .error .malformed

/-- The one given character; the text may have ended before it. -/
def mark (c : Char) : Reader Unit := fun
  | d :: rest => if d = c then .ok ((), rest) else .error .malformed
  | [] => .error .cutShort

/-- Two digits. The text is too short for them when it has fewer than two bytes. -/
def digitPair : Reader (Nat × Nat) := fun
  | a :: b :: rest =>
    if a.isDigit && b.isDigit then .ok ((a.toNat - '0'.toNat, b.toNat - '0'.toNat), rest)
    else .error .malformed
  | [a] => .error (if a.utf8Size < 2 then .cutShort else .malformed)
  | [] => .error .cutShort

/-- The fraction after the point, in nanoseconds. Digits after the ninth are dropped. -/
def fraction : Reader Nat := fun text =>
  let digits := leadingDigits 9 text
  if digits.isEmpty then .error (if text.isEmpty then .cutShort else .malformed)
  else .ok (digitsValue digits * Nat.pow 10 (9 - digits.length),
    (text.drop digits.length).dropWhile Char.isDigit)

/-- The fraction, if a point announces one. -/
def optionalFraction : Reader Nat := fun
  | '.' :: rest => fraction rest
  | text => .ok (0, text)

/-- The offset from UTC in seconds. `separator` reads what stands between hours and minutes. -/
def offset (separator : Reader Unit) : Reader Int := fun
  | [] => .error .cutShort
  | c :: rest =>
    if c = 'Z' ∨ c = 'z' then .ok (0, rest)
    else if c = '+' ∨ c = '-' ∨ c = '−' then StateT.run (s := rest) do
      let (h, h') ← digitPair
      separator
      let (m, m') ← digitPair
      if 6 ≤ m then throw .outOfRange
      let seconds : Int := ((h * 10 + h') * 3600 + (m * 10 + m') * 60 : Nat)
      return if c = '+' then seconds else -seconds
    else .error .malformed

/-- The fixed fields of the strict form, in their order. -/
def strict : Reader Instant := do
  if (String.ofList (← get)).utf8ByteSize < 19 then throw .cutShort
  let year ← fixedDigits 4
  oneOf ['-']
  let month ← fixedDigits 2
  oneOf ['-']
  let day ← fixedDigits 2
  let date : Time.Date := ⟨year, month, day⟩
  if !date.isValid then throw .outOfRange
  oneOf ['t', 'T', ' ']
  let hour ← fixedDigits 2
  oneOf [':']
  let minute ← fixedDigits 2
  oneOf [':']
  let second ← fixedDigits 2
  let nanos ← optionalFraction
  if 24 ≤ hour ∨ 60 ≤ minute ∨ 61 ≤ second then throw .outOfRange
  let ahead ← offset (mark ':')
  if !(← get).isEmpty then throw .leftover
  match Instant.ofLocal date hour minute second nanos ahead with
  | some t => return t
  | none => throw .outOfRange

/-- Reads a stamp in the strict form. -/
def read (text : String) : Except StampFault Instant := (strict.run text.toList).map (·.1)

/-- Skips white space. -/
def blanks : Reader Unit := modify (List.dropWhile Text.isBlank)

/-- A number of at most `width` digits after optional white space. -/
def number (width : Nat) : Reader Nat := do
  blanks
  let text ← get
  let digits := leadingDigits width text
  if digits.isEmpty then throw .malformed
  set (text.drop digits.length)
  return digitsValue digits

/-- A year: up to four digits, or a sign and any number of them. -/
def year : Reader Int := do
  blanks
  match ← get with
  | '-' :: rest => set rest; return -(← signed rest)
  | '+' :: rest => set rest; return ← signed rest
  | _ => return ← number 4
where
  /-- The digits after a sign, which must follow at once. -/
  signed (rest : List Char) : Reader Nat := do
    let digits := rest.takeWhile Char.isDigit
    if digits.isEmpty then throw .malformed
    set (rest.drop digits.length)
    return digitsValue digits

/-- A separator that may have white space before it. -/
def spaced (c : Char) : Reader Unit := do
  blanks
  mark c

/-- The zone of the lenient form. -/
def zone : Reader Int := do
  blanks
  match ← get with
  | u :: t :: c :: rest =>
    if [u, t, c].map Char.toUpper = ['U', 'T', 'C'] then
      set rest
      return 0
    else offset between
  | _ => offset between
where
  /-- Colons and white space between hours and minutes. -/
  between : Reader Unit := modify (List.dropWhile fun c => c == ':' || Text.isBlank c)

/-- The fields of the lenient form. -/
def lenient : Reader Instant := do
  let year ← year
  spaced '-'
  let month ← number 2
  spaced '-'
  let day ← number 2
  oneOf ['t', 'T', ' ']
  let hour ← number 2
  spaced ':'
  let minute ← number 2
  spaced ':'
  let second ← number 2
  let nanos ← optionalFraction
  let ahead ← zone
  blanks
  if !(← get).isEmpty then throw .leftover
  match Instant.ofLocal ⟨year, month, day⟩ hour minute second nanos ahead with
  | some t => return t
  | none => throw .outOfRange

/-- Reads a stamp in the lenient form. -/
def readLenient? (text : String) : Option Instant :=
  ((lenient.run text.toList).map (·.1)).toOption

end Stamp

end ContentRepository
