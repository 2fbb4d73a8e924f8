/-!
# Wildcard patterns

In a pattern `_` stands for any one character and `%` for a run of characters. The text is matched
from left to right. A `%` first takes nothing, and whenever the rest cannot go on, the latest `%`
takes one character more. A pattern character that equals the next character of the text always
takes just that character, also where both are `%`.

The loop of `like` is a run of `LikeSearch.step` from the whole text and the whole pattern.
-/

namespace ContentRepository.Query

/-- A point of the search: what is left of the text and of the pattern, and where to take up again
after a mismatch. -/
structure LikeSearch where
  text : List Char
  pattern : List Char
  /-- The pattern after the latest `%`, and the text from which it was last tried. -/
  retry : Option (List Char × List Char)
deriving DecidableEq

namespace LikeSearch

/-- One step of the search: its next point, or the answer. -/
def step (s : LikeSearch) : LikeSearch ⊕ Bool :=
  match s.text, s.pattern with
  | [], pattern => .inr (pattern.all (· == '%'))
  | c :: text, p :: pattern =>
    if p = '_' ∨ p = c then .inl { s with text, pattern }
    else if p = '%' then .inl { s with pattern, retry := some (pattern, c :: text) }
    else again
  | _ :: _, [] => again
where
  /-- The latest `%` takes one character more. -/
  again : LikeSearch ⊕ Bool :=
    match s.retry with
    | some (pattern, _ :: text) => .inl { text, pattern, retry := some (pattern, text) }
    | _ => .inr false

/-- The answer after at most `steps` steps; false if there is none yet. -/
def answer : Nat → LikeSearch → Bool
  | 0, _ => false
  | steps + 1, s =>
    match s.step with
    | .inl next => answer steps next
    | .inr found => found

end LikeSearch

/-- Whether the text matches the pattern. Between two moves of the latest `%` each step shortens the
text or the pattern, and the `%` moves at most once for each character of the text. -/
def like (text pattern : String) : Bool :=
  let text := text.toList
  let pattern := pattern.toList
  LikeSearch.answer ((text.length + 1) * (text.length + pattern.length + 2)) ⟨text, pattern, none⟩

end ContentRepository.Query
