import ContentRepository.Query.Fault
import ContentRepository.Text.Words

/-!
# The order of results

Results are ordered by a list of keys (`OrderBy` with its `OrderByItem`s), earlier keys counting
more. A document without the field of a key stands before those with it; a descending key reverses
this as well.

* **`SortKeys.compare`** compares two documents.
* **`SortKeys.parse`** reads keys written as `field [ASC|DESC], ...`.
-/

namespace ContentRepository.Query

/-- One key: a field, and whether it counts backwards. -/
structure SortKey where
  field : String
  descending : Bool
deriving DecidableEq

/-- The keys of an ordering, the most important first. -/
abbrev SortKeys := List SortKey

/-- Compares two values that may be absent; an absent one comes first. -/
def comparePresence : Option Value → Option Value → Ordering
  | some a, some b => a.compareTotal b
  | some _, none => .gt
  | none, some _ => .lt
  | none, none => .eq

/-- Compares two documents by one key. -/
def SortKey.compare (key : SortKey) (a b : Document) : Ordering :=
  let order := comparePresence (a.get? key.field) (b.get? key.field)
  if key.descending then order.swap else order

namespace SortKeys

/-- Compares two documents key by key. -/
def compare (keys : SortKeys) (a b : Document) : Ordering :=
  keys.foldr (fun key rest => (key.compare a b).then rest) .eq

/-- The documents in order; where the keys do not decide, the order stays. -/
def sort (keys : SortKeys) (documents : List Document) : List Document :=
  documents.mergeSort fun a b => (keys.compare a b).isLE

/-- The key written as some words. -/
def keyOfWords : List (List Char) → Except Fault SortKey
  | [] => .error .emptyKey
  | [field] => .ok ⟨String.ofList field, false⟩
  | field :: direction :: more =>
    let direction := String.ofList (direction.map Char.toUpper)
    if direction = "ASC" ∨ direction = "DESC" then
      match more with
      | [] => .ok ⟨String.ofList field, direction = "DESC"⟩
      | extra :: _ => .error (.unexpectedWord (String.ofList extra))
    else .error (.unknownDirection direction)

/-- Reads the keys of an ordering; a text of white space has none. -/
def parse (text : String) : Except Fault SortKeys :=
  if Text.allBlank text.toList then .ok []
  else (Text.pieces (· == ',') text.toList).mapM fun clause => keyOfWords (Text.words clause)

end SortKeys

end ContentRepository.Query
