import ContentRepository.Proofs.Query.Wildcards

/-!
# The positions of a wildcard search

A search can be told by positions: how far it is in the text and in the pattern, where the latest
`%` stands, and from where in the text it was last tried. Told so, it is not plain that a search
ends, or that it stays inside: a mismatch after a `%` sets both positions back, and what is left of
the pattern can be asked for only from a position that is not beyond its end.

* **`LikeCursor.step`** — one turn by positions, which fails where it asks for more than there is.
* **`LikeCursor.InRange`** — what holds of the positions at every turn, as each turn keeps it
  (`LikeCursor.InRange.of_turn`).
* **`LikeCursor.map_step`** — a turn is a step of the search for what is left at the positions, so
  by positions the search goes the same way (`LikeCursor.map_after`).
* **`LikeSearch.weight_of_after`** — how many steps a search can take.
* **`like_in_range`** — every search, turn by turn, to its end.
-/

namespace ContentRepository.Query

/-- The positions of a search. -/
structure LikeCursor where
  /-- How much of the text is behind. -/
  inText : Nat
  /-- How much of the pattern is behind. -/
  inPattern : Nat
  /-- Where the latest `%` stands in the pattern, and where in the text it was last tried. -/
  retry : Option (Nat × Nat)
deriving DecidableEq

/-- Where a search is after some steps, or its answer if it has ended by then. -/
def LikeSearch.after (s : LikeSearch) : Nat → LikeSearch ⊕ Bool
  | 0 => .inl s
  | steps + 1 => (s.after steps).elim step .inr

namespace LikeCursor

/-- What is left of the pattern from a position, which must not be beyond its end. -/
def rest? (pattern : List Char) (position : Nat) : Option (List Char) :=
  if position ≤ pattern.length then some (pattern.drop position) else none

/-- One turn of the search: its next positions, or the answer. -/
def step (text pattern : List Char) (c : LikeCursor) : Option (LikeCursor ⊕ Bool) :=
  match text[c.inText]?, pattern[c.inPattern]? with
  | none, _ => (rest? pattern c.inPattern).map fun rest => .inr (rest.all (· == '%'))
  | some t, some p =>
    if p = '_' ∨ p = t then some (.inl ⟨c.inText + 1, c.inPattern + 1, c.retry⟩)
    else if p = '%' then
      some (.inl ⟨c.inText, c.inPattern + 1, some (c.inPattern, c.inText)⟩)
    else some again
  | some _, none => some again
where
  /-- The latest `%` takes one character more. -/
  again : LikeCursor ⊕ Bool :=
    match c.retry with
    | some (star, start) => .inl ⟨start + 1, star + 1, some (star, start + 1)⟩
    | none => .inr false

/-- The positions after some turns, or the answer if the search has ended by then; none if it looked
beyond the end of the pattern. -/
def after (text pattern : List Char) : Nat → Option (LikeCursor ⊕ Bool)
  | 0 => some (.inl ⟨0, 0, none⟩)
  | turns + 1 =>
    (after text pattern turns).bind fun now => now.elim (step text pattern) (some ∘ .inr)

/-- The positions lie inside the text and the pattern. The latest `%` is one, and was last tried
from no later than where the search now is. -/
structure InRange (text pattern : List Char) (c : LikeCursor) : Prop where
  inText : c.inText ≤ text.length
  inPattern : c.inPattern ≤ pattern.length
  latest : ∀ star start, c.retry = some (star, start) →
    pattern[star]? = some '%' ∧ start ≤ c.inText

/-- What is left at these positions. -/
def search (text pattern : List Char) (c : LikeCursor) : LikeSearch where
  text := text.drop c.inText
  pattern := pattern.drop c.inPattern
  retry := c.retry.map fun latest => (pattern.drop (latest.1 + 1), text.drop latest.2)

variable {text pattern : List Char} {c next : LikeCursor} {t : Char}

/-! ## One turn -/

theorem drop_of_getElem? {l : List Char} {i : Nat} {a : Char} (h : l[i]? = some a) :
    l.drop i = a :: l.drop (i + 1) := by
  obtain ⟨hi, rfl⟩ := List.getElem?_eq_some_iff.1 h
  exact List.drop_eq_getElem_cons hi

theorem drop_of_getElem?_none {l : List Char} {i : Nat} (h : l[i]? = none) : l.drop i = [] :=
  List.drop_eq_nil_of_le (List.getElem?_eq_none_iff.1 h)

/-- What one turn can do to the positions, said once for all that is proved about turns. -/
inductive Turn (text pattern : List Char) : LikeCursor → LikeCursor → Prop
  | pass {t p : Char} {c : LikeCursor} (ht : text[c.inText]? = some t)
      (hp : pattern[c.inPattern]? = some p) (hpass : Passes p t) :
      Turn text pattern c ⟨c.inText + 1, c.inPattern + 1, c.retry⟩
  | start {c : LikeCursor} (hp : pattern[c.inPattern]? = some '%') :
      Turn text pattern c ⟨c.inText, c.inPattern + 1, some (c.inPattern, c.inText)⟩
  | again {t : Char} {c : LikeCursor} {star start : Nat} (ht : text[c.inText]? = some t)
      (hretry : c.retry = some (star, start)) :
      Turn text pattern c ⟨start + 1, star + 1, some (star, start + 1)⟩

theorem turn_of_step (hstep : c.step text pattern = some (.inl next)) :
    Turn text pattern c next := by
  have hagain {t : Char} (ht : text[c.inText]? = some t) (hnext : step.again c = .inl next) :
      Turn text pattern c next := by
    -- starting over is only a turn if there is a latest wildcard to start from
    cases hretry : c.retry with
    | none => simp [step.again, hretry] at hnext
    | some latest =>
      obtain ⟨star, start⟩ := latest
      simp only [step.again, hretry, Sum.inl.injEq] at hnext
      subst hnext
      exact .again ht hretry
  unfold step at hstep
  split at hstep
  · -- the whole text was matched: that is the end
    simp at hstep
  · next t p ht hp =>
    split at hstep
    · next hpass =>
      cases hstep
      exact .pass ht hp hpass
    · -- the pattern character is neither passed nor a wildcard, or it is a run to begin
      split at hstep
      · next hrun =>
        cases hstep
        exact .start (hrun ▸ hp)
      · exact hagain ht (Option.some.inj hstep)
  · -- the pattern is used up, but the text is not
    next t ht hp => exact hagain ht (Option.some.inj hstep)

/-- **Every turn keeps the positions in range**, also one that sets them back. -/
theorem InRange.of_turn (h : c.InRange text pattern) (hturn : Turn text pattern c next) :
    next.InRange text pattern := by
  cases hturn with
  | pass ht hp hpass =>
    refine ⟨(List.getElem?_eq_some_iff.1 ht).1, (List.getElem?_eq_some_iff.1 hp).1, ?_⟩
    intro star start hretry
    obtain ⟨hstar, hstart⟩ := h.latest star start hretry
    exact ⟨hstar, Nat.le_succ_of_le hstart⟩
  | start hp =>
    refine ⟨h.inText, (List.getElem?_eq_some_iff.1 hp).1, ?_⟩
    intro star start hretry
    cases hretry
    exact ⟨hp, Nat.le_refl _⟩
  | again ht hretry =>
    -- back to behind the `%`, and in the text no further than behind the position now
    obtain ⟨hstar, hstart⟩ := h.latest _ _ hretry
    have hinside : c.inText < text.length := (List.getElem?_eq_some_iff.1 ht).1
    refine ⟨by simp only; omega, (List.getElem?_eq_some_iff.1 hstar).1, ?_⟩
    intro star start hretry
    cases hretry
    exact ⟨hstar, Nat.le_refl _⟩

/-- When the latest `%` takes one character more, there is one: it was last tried from no later than
a character that is there. -/
theorem map_again (h : c.InRange text pattern) (ht : text[c.inText]? = some t) :
    Sum.map (·.search text pattern) id (step.again c) =
      LikeSearch.step.again (c.search text pattern) := by
  obtain ⟨inText, inPattern, retry⟩ := c
  match retry with
  | none => rfl
  | some (star, start) =>
    have hstart : start ≤ inText := (h.latest star start rfl).2
    have hinside : start < text.length :=
      Nat.lt_of_le_of_lt hstart (List.getElem?_eq_some_iff.1 ht).1
    have hdrop : text.drop start = text[start] :: text.drop (start + 1) :=
      List.drop_eq_getElem_cons hinside
    simp only [step.again, LikeSearch.step.again, search, Sum.map_inl, Option.map_some, hdrop]

/-- **A turn by positions is a step of the search there**, and does not look beyond the end. -/
theorem map_step (h : c.InRange text pattern) :
    (c.step text pattern).map (Sum.map (·.search text pattern) id) =
      some (c.search text pattern).step := by
  cases ht : text[c.inText]? with
  | none =>
    -- the text is used up, and what is left of the pattern settles the answer on both sides
    have htext := drop_of_getElem?_none ht
    simp [step, ht, rest?, h.inPattern, LikeSearch.step, search, htext]
  | some t =>
    have htext := drop_of_getElem? ht
    have hagain := map_again h ht
    cases hp : pattern[c.inPattern]? with
    | none =>
      -- the pattern is used up: both start over
      have hpattern := drop_of_getElem?_none hp
      have hstep : (c.search text pattern).step = LikeSearch.step.again (c.search text pattern) := by
        simp [LikeSearch.step, search, htext, hpattern]
      simp [step, ht, hp, hstep, hagain]
    | some p =>
      have hpattern := drop_of_getElem? hp
      -- both compare the same two characters
      have hstep : (c.search text pattern).step =
          if p = '_' ∨ p = t then .inl (search text pattern ⟨c.inText + 1, c.inPattern + 1, c.retry⟩)
          else if p = '%' then
            .inl (search text pattern
              ⟨c.inText, c.inPattern + 1, some (c.inPattern, c.inText)⟩)
          else LikeSearch.step.again (c.search text pattern) := by
        simp [LikeSearch.step, search, htext, hpattern]
      rw [hstep, ← hagain]
      simp only [step, ht, hp]
      split
      · rfl
      · split <;> rfl

/-! ## All turns -/

theorem inRange_of_after {turns : Nat} (h : after text pattern turns = some (.inl c)) :
    c.InRange text pattern := by
  induction turns generalizing c with
  | zero =>
    cases h
    exact ⟨Nat.zero_le _, Nat.zero_le _, by simp⟩
  | succ turns ih =>
    rw [after, Option.bind_eq_some_iff] at h
    obtain ⟨now | found, hnow, hstep⟩ := h
    · exact (ih hnow).of_turn (turn_of_step hstep)
    · cases hstep

/-- **By positions the search goes through the same points**, and never looks beyond the end. -/
theorem map_after (text pattern : List Char) (turns : Nat) :
    (after text pattern turns).map (Sum.map (·.search text pattern) id) =
      some (LikeSearch.after ⟨text, pattern, none⟩ turns) := by
  induction turns with
  | zero => rfl
  | succ turns ih =>
    rw [LikeSearch.after, after]
    cases hnow : after text pattern turns with
    | none => simp [hnow] at ih
    | some now =>
      rw [hnow, Option.map_some, Option.some.injEq] at ih
      rw [← ih]
      cases now with
      | inl c => exact map_step (inRange_of_after hnow)
      | inr found => rfl

/-- When the search has ended, so it has by positions. -/
theorem after_of_search {turns : Nat} {found : Bool}
    (hended : LikeSearch.after ⟨text, pattern, none⟩ turns = .inr found) :
    after text pattern turns = some (.inr found) := by
  have hmap := map_after text pattern turns
  rw [hended] at hmap
  obtain ⟨now, hnow, hfound⟩ := Option.map_eq_some_iff.1 hmap
  rw [hnow]
  cases now with
  | inl c => cases hfound
  | inr answered =>
    obtain rfl : answered = found := Sum.inr.inj hfound
    rfl

end LikeCursor

namespace LikeSearch

variable {s later : LikeSearch} {bound steps : Nat}

/-- Each step takes at least one from the weight. -/
theorem weight_of_after (h : s.Within bound) (hafter : s.after steps = .inl later) :
    later.Within bound ∧ later.weight bound + steps ≤ s.weight bound := by
  induction steps generalizing later with
  | zero =>
    -- no steps: nothing is lost
    cases hafter
    exact ⟨h, Nat.le_refl _⟩
  | succ steps ih =>
    rw [after] at hafter
    cases hnow : s.after steps with
    | inr found =>
      -- it has ended before, so there is no later state
      rw [hnow] at hafter
      cases hafter
    | inl now =>
      rw [hnow, Sum.elim_inl] at hafter
      obtain ⟨hwithin, hweight⟩ := ih hnow
      obtain ⟨next, hstep, hmove⟩ | ⟨found, hstep, -⟩ := now.step_spec
      · -- a step that goes on costs weight
        cases hstep.symm.trans hafter
        have hlighter := weight_of_move hwithin hmove
        exact ⟨hwithin.of_move hmove, by omega⟩
      · cases hstep.symm.trans hafter

/-- The steps to an answer can be made in two goes. -/
theorem answer_add (s : LikeSearch) (steps more : Nat) :
    s.answer (steps + more) = (s.after steps).elim (answer more) id := by
  induction steps generalizing more with
  | zero => rw [Nat.zero_add]; rfl
  | succ steps ih =>
    rw [Nat.add_right_comm, Nat.add_assoc, ih, after]
    cases s.after steps with
    | inr found => rfl
    | inl now =>
      rw [Sum.elim_inl, Sum.elim_inl, answer]
      cases now.step <;> rfl

/-- With more steps than the weight the search has ended. -/
theorem exists_after_eq (h : s.Within bound) (hsteps : s.weight bound < steps) :
    ∃ found, s.after steps = .inr found := by
  cases hafter : s.after steps with
  | inr found => exact ⟨found, rfl⟩
  | inl later =>
    have hweight := (weight_of_after h hafter).2
    omega

end LikeSearch

/-- **Every wildcard search ends, and stays in range until then.** Its turns by positions are the
steps of the search, and none of them looks beyond the end of the pattern. After each of them the
positions lie inside the text and the pattern, and the latest `%`, if there was one, is a `%` of the
pattern that was last tried from no later than the position in the text. After the given number of
turns there is an answer, and this is what `like` finds. -/
theorem like_in_range (text pattern : String) :
    let t := text.toList
    let p := pattern.toList
    let turns := (t.length + 1) * (t.length + p.length + 1)
    (∀ n, (LikeCursor.after t p n).map (Sum.map (·.search t p) id) =
      some (LikeSearch.after ⟨t, p, none⟩ n)) ∧
    (∀ n c, LikeCursor.after t p n = some (.inl c) → n < turns ∧ c.InRange t p) ∧
    LikeCursor.after t p turns = some (.inr (like text pattern)) := by
  intro t p turns
  have hwithin : LikeSearch.Within (t.length + p.length) ⟨t, p, none⟩ :=
    ⟨Nat.le_refl _, fun later start hretry => by cases hretry⟩
  have hweight : LikeSearch.weight (t.length + p.length) ⟨t, p, none⟩ < turns := by
    simp only [LikeSearch.weight, Option.elim, turns, Nat.succ_mul]
    omega
  refine ⟨LikeCursor.map_after t p, fun n c hafter => ⟨?_, LikeCursor.inRange_of_after hafter⟩, ?_⟩
  · have hsearch := LikeCursor.map_after t p n
    rw [hafter, Option.map_some, Option.some.injEq] at hsearch
    have hspent := (LikeSearch.weight_of_after hwithin hsearch.symm).2
    omega
  · obtain ⟨found, hended⟩ := LikeSearch.exists_after_eq hwithin hweight
    have hlike : like text pattern = found := by
      -- the steps granted to `like` are more than these turns
      have hgranted : (t.length + 1) * (t.length + p.length + 2) = turns + (t.length + 1) := rfl
      show LikeSearch.answer ((t.length + 1) * (t.length + p.length + 2)) ⟨t, p, none⟩ = found
      rw [hgranted, LikeSearch.answer_add, hended]
      rfl
    rw [hlike, LikeCursor.after_of_search hended]

/-- A mismatch after a `%` sets both positions back. -/
example : LikeCursor.after "aaab".toList "%aab".toList 3 = some (.inl ⟨2, 3, some (0, 0)⟩) ∧
    LikeCursor.after "aaab".toList "%aab".toList 4 = some (.inl ⟨1, 1, some (0, 1)⟩) := by decide

end ContentRepository.Query
