import ContentRepository.Value.Basic

/-!
# The order of values

* **`Value.compareTotal`** (`cmp_total`) orders all values: first by kind (booleans, numbers,
  strings, references, dates, arrays, objects), then by content. Integers and doubles share a kind
  and compare as doubles, an integer standing before the double it rounds to. Arrays compare item by
  item and objects field by field; of two that agree as far as the shorter goes, the shorter comes
  first.
* **`Value.compareScalar?`** (`partial_cmp_scalar`) compares two scalars of one kind and answers
  nothing for others. Here an integer and the double it rounds to are equal.
-/

namespace ContentRepository.Value

mutual

/-- The total order of values. -/
def compareTotal : Value → Value → Ordering
  | .boolean a, .boolean b => compare a b
  | .long a, .long b => compare a.toInt b.toInt
  | .double a, .double b => a.compareTotal b
  | .long a, .double b => ((Binary64.ofInt a.toInt).compareTotal b).then .lt
  | .double a, .long b => (a.compareTotal (Binary64.ofInt b.toInt)).then .gt
  | .string a, .string b => compare a b
  | .reference a, .reference b => compare a b
  | .date a, .date b => a.compareTotal b
  | .array a, .array b => compareItems a b
  | .object a, .object b => compareFields a b
  | a, b => compare a.rank b.rank
termination_by structural a => a

/-- Arrays compare like words in a dictionary. -/
def compareItems : List Value → List Value → Ordering
  | [], [] => .eq
  | [], _ :: _ => .lt
  | _ :: _, [] => .gt
  | a :: as, b :: bs => (compareTotal a b).then (compareItems as bs)
termination_by structural as => as

/-- A field compares by its key and then by its value. -/
def compareFields : List (String × Value) → List (String × Value) → Ordering
  | [], [] => .eq
  | [], _ :: _ => .lt
  | _ :: _, [] => .gt
  | (k, a) :: as, (l, b) :: bs =>
    (compare k l).then ((compareTotal a b).then (compareFields as bs))
termination_by structural as => as

end

/-- The order of two scalars of one kind; nothing for arrays, objects and different kinds. -/
def compareScalar? (a b : Value) : Option Ordering :=
  if a.isScalar && b.isScalar && a.rank == b.rank then
    match a, b with
    | .long a, .long b => some (compare a.toInt b.toInt)
    | a, b =>
      match a.double?, b.double? with
      | some a, some b => some (a.compareTotal b)
      | _, _ => some (a.compareTotal b)
  else none

/-- The values in order; of equal ones the former stays before the latter. -/
def sort (values : List Value) : List Value :=
  values.mergeSort fun a b => (compareTotal a b).isLE

end ContentRepository.Value
