import ContentRepository.Query.Like
import Mathlib.Data.List.Forall2

/-!
# What a wildcard pattern matches

A pattern fits a text if the text can be split along it: a `%` takes a run, a `_` one character, and
any other character itself (`Fits`). In `IsLike` a `%` takes any run. The search is less free: where
a `%` meets a `%` of the text, it takes just that one character (`Verbatim`). It never looks for a
longer or shorter run there, so it misses matches, but only in texts that hold a `%`.

* **`Fits`**, **`IsLike`** — the meaning of a pattern, apart from any search.
* **`LikeSearch.Hopeful`** — what can still be found from a point of the search: a fit of what is
  left, or one that the latest `%` reaches by taking more. Earlier `%`s need not be tried again
  (`exists_suffix_fits`), and no step gains or loses hope (`LikeSearch.hopeful_of_step`).
* **`LikeSearch.weight`** — each step makes it smaller, so the steps granted to `like` suffice.
* **`like_iff`** — the texts `like` finds.
-/

namespace ContentRepository.Query

/-- The pattern (second) fits the text (first), where `free taken rest` says which runs a `%` may
take before what is left of the text. -/
inductive Fits (free : List Char → List Char → Prop) : List Char → List Char → Prop
  | nil : Fits free [] []
  | run {taken rest text pattern : List Char} (htext : taken ++ rest = text)
      (hfree : free taken rest) (hrest : Fits free rest pattern) : Fits free text ('%' :: pattern)
  | any {c : Char} {rest pattern : List Char} (hrest : Fits free rest pattern) :
      Fits free (c :: rest) ('_' :: pattern)
  | same {c : Char} {rest pattern : List Char} (hrun : c ≠ '%') (hany : c ≠ '_')
      (hrest : Fits free rest pattern) : Fits free (c :: rest) (c :: pattern)

/-- The text is like the pattern: a `%` takes any run of characters. -/
def IsLike (text pattern : List Char) : Prop := Fits (fun _ _ => True) text pattern

/-- A `%` that meets a `%` of the text takes it and nothing else. -/
def Verbatim (taken text : List Char) : Prop := (taken ++ text).head? = some '%' → taken = ['%']

theorem Fits.isLike {free : List Char → List Char → Prop} {text pattern : List Char}
    (h : Fits free text pattern) : IsLike text pattern := by
  induction h with
  | nil => exact .nil
  | run htext _ _ ih => exact .run htext trivial ih
  | any _ ih => exact .any ih
  | same hrun hany _ ih => exact .same hrun hany ih

/-- Without a `%` in the text nothing sets the two meanings apart. -/
theorem IsLike.verbatim {text pattern : List Char} (h : IsLike text pattern) (htext : '%' ∉ text) :
    Fits Verbatim text pattern := by
  induction h with
  | nil => exact .nil
  | run hsplit _ _ ih =>
    subst hsplit
    refine .run rfl (fun hhead => absurd (List.mem_of_mem_head? hhead) htext) (ih ?_)
    exact fun hmem => htext (List.mem_append_right _ hmem)
  | any _ ih => exact .any (ih fun hmem => htext (List.mem_cons_of_mem _ hmem))
  | same hrun hany _ ih => exact .same hrun hany (ih fun hmem => htext (List.mem_cons_of_mem _ hmem))

/-! ## What the first pattern character takes -/

section First

variable {free : List Char → List Char → Prop} {c p : Char} {text pattern : List Char}

theorem not_fits_cons_nil : ¬ Fits free (c :: text) [] := by
  intro h
  cases h

theorem Fits.all_of_nil (h : Fits free [] pattern) : pattern.all (· == '%') = true := by
  generalize htext : ([] : List Char) = text at h
  induction h with
  | nil => rfl
  | run hsplit _ _ ih =>
    obtain ⟨-, hrest⟩ := List.append_eq_nil_iff.1 (hsplit.trans htext.symm)
    simpa using ih hrest.symm
  | any => cases htext
  | same => cases htext

theorem fits_nil_iff : Fits Verbatim [] pattern ↔ pattern.all (· == '%') = true := by
  refine ⟨Fits.all_of_nil, fun h => ?_⟩
  induction pattern with
  | nil => exact .nil
  | cons p pattern ih =>
    simp only [List.all_cons, Bool.and_eq_true, beq_iff_eq] at h
    obtain ⟨rfl, hrest⟩ := h
    exact .run (List.nil_append []) (by simp [Verbatim]) (ih hrest)

/-- Whatever the first pattern character takes, the rest of the pattern fits what is left. -/
theorem Fits.exists_suffix (h : Fits free text (p :: pattern)) :
    ∃ rest, rest <:+ text ∧ Fits free rest pattern := by
  cases h with
  | run htext _ hrest => exact ⟨_, ⟨_, htext⟩, hrest⟩
  | any hrest => exact ⟨_, List.suffix_cons _ _, hrest⟩
  | same _ _ hrest => exact ⟨_, List.suffix_cons _ _, hrest⟩

/-- A step of the search takes the character with this pattern character, and nothing more. -/
def Passes (p c : Char) : Prop := p = '_' ∨ p = c

theorem fits_passes (h : Passes p c) :
    Fits Verbatim (c :: text) (p :: pattern) ↔ Fits Verbatim text pattern := by
  constructor
  · intro hfits
    cases hfits with
    | run htext hfree hrest =>
      obtain hany | rfl := h
      · cases hany
      · -- a `%` that meets a `%` takes that one
        obtain rfl := hfree (by rw [htext]; rfl)
        cases htext
        exact hrest
    | any hrest => exact hrest
    | same _ _ hrest => exact hrest
  · intro hrest
    obtain rfl | rfl := h
    · exact .any hrest
    · by_cases hrun : p = '%'
      · subst hrun
        exact .run (List.singleton_append) (fun _ => rfl) hrest
      · by_cases hany : p = '_'
        · subst hany
          exact .any hrest
        · exact .same hrun hany hrest

theorem fits_run (hc : c ≠ '%') :
    Fits Verbatim (c :: text) ('%' :: pattern) ↔
      ∃ rest, rest <:+ c :: text ∧ Fits Verbatim rest pattern := by
  refine ⟨Fits.exists_suffix, fun ⟨rest, ⟨taken, htext⟩, hrest⟩ => ?_⟩
  refine .run htext (fun hhead => absurd ?_ hc) hrest
  rw [htext] at hhead
  exact Option.some.inj hhead

theorem not_fits_of_ne (hpass : ¬ Passes p c) (hrun : p ≠ '%') :
    ¬ Fits free (c :: text) (p :: pattern) := by
  intro h
  cases h with
  | run => exact hrun rfl
  | any => exact hpass (.inl rfl)
  | same => exact hpass (.inr rfl)

end First

/-- Only the latest `%` need be tried again. Where the pattern up to there was taken one for one
(`taken` by `passed`), a fit of the pattern from an earlier point, or from further on, leaves a fit
of what follows in what is left. -/
theorem exists_suffix_fits {taken passed text pattern : List Char}
    (htaken : List.Forall₂ Passes taken passed) {start : List Char}
    (hstart : start <:+ passed ++ text) (hfits : Fits Verbatim start (taken ++ pattern)) :
    ∃ rest, rest <:+ text ∧ Fits Verbatim rest pattern := by
  induction htaken generalizing start with
  | nil => exact ⟨start, hstart, hfits⟩
  | cons hpass _ ih =>
    obtain rfl | hlater := List.suffix_cons_iff.1 hstart
    · exact ih (List.suffix_refl _) ((fits_passes hpass).1 hfits)
    · obtain ⟨next, hnext, hrest⟩ := hfits.exists_suffix
      exact ih (hnext.trans hlater) hrest

namespace LikeSearch

/-! ## The steps of a search -/

/-- A step that does not end the search. -/
inductive Move : LikeSearch → LikeSearch → Prop
  | pass {c p : Char} {text pattern : List Char} {retry : Option (List Char × List Char)}
      (hpass : Passes p c) : Move ⟨c :: text, p :: pattern, retry⟩ ⟨text, pattern, retry⟩
  | start {c : Char} {text pattern : List Char} {retry : Option (List Char × List Char)}
      (hc : c ≠ '%') :
      Move ⟨c :: text, '%' :: pattern, retry⟩ ⟨c :: text, pattern, some (pattern, c :: text)⟩
  | again {c d : Char} {text pattern later rest : List Char}
      (hstuck : ¬ Fits Verbatim (c :: text) pattern) :
      Move ⟨c :: text, pattern, some (later, d :: rest)⟩ ⟨rest, later, some (later, rest)⟩

/-- The search ends with this answer. -/
inductive Ends : LikeSearch → Bool → Prop
  | text {pattern : List Char} {retry : Option (List Char × List Char)} :
      Ends ⟨[], pattern, retry⟩ (pattern.all (· == '%'))
  | stuck {s : LikeSearch} (hstuck : ¬ Fits Verbatim s.text s.pattern)
      (hretry : ∀ later text, s.retry = some (later, text) → text = []) (htext : s.text ≠ []) :
      Ends s false

/-- What a step can do, said once for all that is proved about steps. -/
theorem step_spec (s : LikeSearch) :
    (∃ next, s.step = .inl next ∧ Move s next) ∨ ∃ found, s.step = .inr found ∧ Ends s found := by
  -- starting over from the latest run, if there is one and it can take a character more
  have hagain {c : Char} {text : List Char} (htext : s.text = c :: text)
      (hstuck : ¬ Fits Verbatim s.text s.pattern) :
      (∃ next, step.again s = .inl next ∧ Move s next) ∨
        ∃ found, step.again s = .inr found ∧ Ends s found := by
    obtain ⟨_, pattern, retry⟩ := s
    subst htext
    match retry with
    | none => exact .inr ⟨false, rfl, .stuck hstuck (by simp) (by simp)⟩
    | some (later, []) => exact .inr ⟨false, rfl, .stuck hstuck (by simp) (by simp)⟩
    | some (later, d :: rest) => exact .inl ⟨_, rfl, .again hstuck⟩
  obtain ⟨text, pattern, retry⟩ := s
  match text, pattern with
  -- the text is used up
  | [], pattern => exact .inr ⟨_, rfl, .text⟩
  -- the pattern is used up, but the text is not
  | c :: text, [] => exact hagain rfl not_fits_cons_nil
  | c :: text, p :: pattern =>
    -- a character is passed before anything is made of a wildcard
    by_cases hpass : p = '_' ∨ p = c
    · exact .inl ⟨⟨text, pattern, retry⟩, if_pos hpass, .pass hpass⟩
    by_cases hrun : p = '%'
    · subst hrun
      refine .inl ⟨_, (if_neg hpass).trans (if_pos rfl), .start fun hc => hpass (.inr hc.symm)⟩
    · have hstep : step ⟨c :: text, p :: pattern, retry⟩ =
          step.again ⟨c :: text, p :: pattern, retry⟩ :=
        (if_neg hpass).trans (if_neg hrun)
      rw [hstep]
      exact hagain rfl (not_fits_of_ne hpass hrun)

/-! ## Nothing is missed -/

/-- Since the latest `%` the pattern was taken one for one. -/
def Straight (s : LikeSearch) : Prop :=
  ∀ later start, s.retry = some (later, start) →
    ∃ taken passed, later = taken ++ s.pattern ∧ start = passed ++ s.text ∧
      List.Forall₂ Passes taken passed

/-- A fit is still to be found: of what is left, or with the latest `%` taking more. -/
def Hopeful (s : LikeSearch) : Prop :=
  Fits Verbatim s.text s.pattern ∨
    ∃ later start rest, s.retry = some (later, start) ∧ rest <:+ start.tail ∧
      Fits Verbatim rest later

variable {s next : LikeSearch}

theorem Straight.of_move (h : s.Straight) (hmove : Move s next) : next.Straight := by
  intro later start hretry
  cases hmove with
  | pass hpass =>
    obtain ⟨taken, passed, hlater, hstart, htaken⟩ := h later start hretry
    rename_i c p text pattern retry
    exact ⟨taken ++ [p], passed ++ [c], by simpa using hlater, by simpa using hstart,
      List.rel_append htaken (.cons hpass .nil)⟩
  | start | again =>
    cases hretry
    exact ⟨[], [], rfl, rfl, .nil⟩

/-- What the latest `%` can reach fits from where the search is now. -/
theorem Straight.exists_suffix (h : s.Straight) {later start rest : List Char}
    (hretry : s.retry = some (later, start)) (hrest : rest <:+ start.tail)
    (hfits : Fits Verbatim rest later) : ∃ rest, rest <:+ s.text ∧ Fits Verbatim rest s.pattern := by
  obtain ⟨taken, passed, rfl, rfl, htaken⟩ := h later start hretry
  exact exists_suffix_fits htaken (hrest.trans (List.tail_suffix _)) hfits

theorem suffix_iff_eq_or_tail {rest text : List Char} :
    rest <:+ text ↔ rest = text ∨ rest <:+ text.tail := by
  cases text with
  | nil => simp
  | cons c text => exact List.suffix_cons_iff

/-- **No step gains or loses hope.** -/
theorem hopeful_of_move (h : s.Straight) (hmove : Move s next) : next.Hopeful ↔ s.Hopeful := by
  cases hmove with
  -- the two matched characters do not change what fits
  | pass hpass => exact or_congr_left (fits_passes hpass).symm
  | start hc =>
    rename_i c text pattern retry
    constructor
    · rintro (hfits | ⟨later, start, rest, hretry, hrest, hfits⟩)
      · exact .inl ((fits_run hc).2 ⟨_, List.suffix_refl _, hfits⟩)
      · cases hretry
        exact .inl ((fits_run hc).2 ⟨rest, hrest.trans (List.tail_suffix _), hfits⟩)
    · intro hhope
      -- what an earlier `%` could reach, the new one can
      have hfits : ∃ rest, rest <:+ c :: text ∧ Fits Verbatim rest pattern := by
        obtain hfits | ⟨later, start, rest, hretry, hrest, hfits⟩ := hhope
        · exact (fits_run hc).1 hfits
        · obtain ⟨rest, hrest, hfits⟩ := h.exists_suffix hretry hrest hfits
          obtain ⟨rest', hrest', hfits'⟩ := hfits.exists_suffix
          exact ⟨rest', hrest'.trans hrest, hfits'⟩
      obtain ⟨rest, hrest, hfits⟩ := hfits
      obtain rfl | hlater := suffix_iff_eq_or_tail.1 hrest
      · exact .inl hfits
      · exact .inr ⟨_, _, rest, rfl, hlater, hfits⟩
  | again hstuck =>
    constructor
    · -- a retry is one more character taken by the run
      rintro (hfits | ⟨later, start, rest, hretry, hrest, hfits⟩)
      · exact .inr ⟨_, _, _, rfl, List.suffix_refl _, hfits⟩
      · cases hretry
        exact .inr ⟨_, _, rest, rfl, hrest.trans (List.tail_suffix _), hfits⟩
    · rintro (hfits | ⟨later, start, rest, hretry, hrest, hfits⟩)
      · -- it was stuck, so only the retry is left to hope for
        exact absurd hfits hstuck
      · cases hretry
        obtain rfl | hlater := suffix_iff_eq_or_tail.1 hrest
        · exact .inl hfits
        · exact .inr ⟨_, _, rest, rfl, hlater, hfits⟩

theorem hopeful_of_ends (h : s.Straight) {found : Bool} (hends : Ends s found) :
    found = true ↔ s.Hopeful := by
  cases hends with
  | text =>
    refine ⟨fun hall => .inl (fits_nil_iff.2 hall), ?_⟩
    rintro (hfits | ⟨later, start, rest, hretry, hrest, hfits⟩)
    · exact fits_nil_iff.1 hfits
    · obtain ⟨rest, hrest, hfits⟩ := h.exists_suffix hretry hrest hfits
      obtain rfl := List.suffix_nil.1 hrest
      exact fits_nil_iff.1 hfits
  | stuck hstuck hretry htext =>
    refine iff_of_false Bool.false_ne_true ?_
    rintro (hfits | ⟨later, start, rest, hlatest, -, -⟩)
    · exact hstuck hfits
    · obtain ⟨taken, passed, -, hstart, -⟩ := h later start hlatest
      obtain rfl := hretry later start hlatest
      exact htext (List.append_eq_nil_iff.1 hstart.symm).2

/-! ## The steps suffice -/

/-- The texts and patterns of a search stay as short as those it began with. -/
structure Within (bound : Nat) (s : LikeSearch) : Prop where
  now : s.text.length + s.pattern.length ≤ bound
  latest : ∀ later start, s.retry = some (later, start) →
    start.length + later.length ≤ bound ∧ s.text.length ≤ start.length

/-- How often the latest `%` can still take more, and between two such moves what is left. -/
def weight (bound : Nat) (s : LikeSearch) : Nat :=
  (s.retry.elim s.text.length fun latest => latest.2.length) * (bound + 1) +
    (s.text.length + s.pattern.length)

theorem Within.of_move {bound : Nat} (h : s.Within bound) (hmove : Move s next) :
    next.Within bound := by
  cases hmove with
  | pass =>
    -- both get shorter, and the latest run stays where it is
    have hnow := h.now
    refine ⟨by simp_all only [List.length_cons]; omega, fun later start hretry => ?_⟩
    obtain ⟨hbound, hlength⟩ := h.latest later start hretry
    exact ⟨hbound, by simp_all only [List.length_cons]; omega⟩
  | start =>
    -- the run begins here, so it is the latest from now on
    have hnow := h.now
    simp only [List.length_cons] at hnow
    refine ⟨by simp only [List.length_cons]; omega, fun later start hretry => ?_⟩
    cases hretry
    exact ⟨by simp only [List.length_cons]; omega, Nat.le_refl _⟩
  | again =>
    -- the run takes one character more, so it begins later
    obtain ⟨hbound, -⟩ := h.latest _ _ rfl
    simp only [List.length_cons] at hbound
    refine ⟨by simp only; omega, fun later start hretry => ?_⟩
    cases hretry
    exact ⟨by omega, Nat.le_refl _⟩

/-- Each step makes the weight smaller. -/
theorem weight_of_move {bound : Nat} (h : s.Within bound) (hmove : Move s next) :
    next.weight bound < s.weight bound := by
  cases hmove with
  | @pass c p text pattern retry =>
    -- with a latest run only the text of that counts, and the pattern got shorter
    cases retry with
    | none =>
      simp only [weight, Option.elim, List.length_cons, Nat.succ_mul]
      omega
    | some latest =>
      simp only [weight, Option.elim, List.length_cons]
      omega
  | @start c text pattern retry =>
    -- the new run begins no earlier than the one before
    have hmoves : (c :: text).length ≤
        retry.elim (c :: text).length fun latest => latest.2.length := by
      cases retry with
      | none => exact Nat.le_refl _
      | some latest => exact (h.latest latest.1 latest.2 rfl).2
    have hmul := Nat.mul_le_mul_right (bound + 1) hmoves
    simp only [weight, Option.elim, List.length_cons] at hmul ⊢
    omega
  | again =>
    -- the latest run has less text before it, which outweighs the whole pattern
    obtain ⟨hbound, -⟩ := h.latest _ _ rfl
    simp only [weight, Option.elim, List.length_cons, Nat.succ_mul] at hbound ⊢
    omega

/-- The run: with more steps than the weight, a search finds exactly what is to be found. -/
theorem answer_iff {bound steps : Nat} (hstraight : s.Straight) (hwithin : s.Within bound)
    (hsteps : s.weight bound < steps) : s.answer steps = true ↔ s.Hopeful := by
  induction steps generalizing s with
  | zero => exact absurd hsteps (Nat.not_lt_zero _)
  | succ steps ih =>
    obtain ⟨next, hstep, hmove⟩ | ⟨found, hstep, hends⟩ := s.step_spec
    · have hanswer : s.answer (steps + 1) = next.answer steps := by
        rw [answer, hstep]
      have hlighter := weight_of_move hwithin hmove
      rw [hanswer, ih (hstraight.of_move hmove) (hwithin.of_move hmove) (by omega),
        hopeful_of_move hstraight hmove]
    · have hanswer : s.answer (steps + 1) = found := by
        rw [answer, hstep]
      rw [hanswer, hopeful_of_ends hstraight hends]

end LikeSearch

/-- `like` finds exactly the texts the pattern fits, a `%` that meets a `%` taking just that one. -/
theorem like_iff_fits (text pattern : String) :
    like text pattern = true ↔ Fits Verbatim text.toList pattern.toList := by
  have hstraight : LikeSearch.Straight ⟨text.toList, pattern.toList, none⟩ := by
    intro later start hretry
    cases hretry
  have hwithin : LikeSearch.Within (text.toList.length + pattern.toList.length)
      ⟨text.toList, pattern.toList, none⟩ :=
    ⟨Nat.le_refl _, fun later start hretry => by cases hretry⟩
  have hsteps : LikeSearch.weight (text.toList.length + pattern.toList.length)
      ⟨text.toList, pattern.toList, none⟩ <
        (text.toList.length + 1) * (text.toList.length + pattern.toList.length + 2) := by
    simp only [LikeSearch.weight, Option.elim, Nat.succ_mul, Nat.mul_add]
    omega
  rw [like, LikeSearch.answer_iff hstraight hwithin hsteps]
  refine ⟨fun hhope => ?_, .inl⟩
  obtain hfits | ⟨_, _, _, hretry, -, -⟩ := hhope
  · exact hfits
  · cases hretry

/-- **What `like` finds.** It finds exactly the texts the pattern fits when a `%` that meets a `%`
of the text takes just that one character. So what it finds is like the pattern, and of the texts
without a `%` it finds all that are. -/
theorem like_iff (text pattern : String) :
    (like text pattern = true ↔ Fits Verbatim text.toList pattern.toList) ∧
    (like text pattern = true → IsLike text.toList pattern.toList) ∧
    ('%' ∉ text.toList → (like text pattern = true ↔ IsLike text.toList pattern.toList)) := by
  have hfound := like_iff_fits text pattern
  refine ⟨hfound, fun h => (hfound.1 h).isLike, fun htext => ?_⟩
  exact ⟨fun h => (hfound.1 h).isLike, fun h => hfound.2 (h.verbatim htext)⟩

/-- The `%` of the pattern could take the `%` of the text and the `a`; it stops at the `%`. -/
theorem like_misses_past_percent :
    ¬ (like "%ab" "%b" = true ↔ IsLike "%ab".toList "%b".toList) := by
  have hlike : IsLike "%ab".toList "%b".toList :=
    .run (rfl : ['%', 'a'] ++ ['b'] = _) trivial (.same (by decide) (by decide) .nil)
  have hmissed : ¬ like "%ab" "%b" = true := by decide
  exact fun h => hmissed (h.2 hlike)

example : like "Annual report" "A_nual%rep_rt" = true := by decide

end ContentRepository.Query
