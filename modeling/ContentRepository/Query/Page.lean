/-!
# Pages of results

A query may ask for a window of its results and may bound how far they are counted.

* **`window`** (`paginate`) cuts a page out of a list.
* **`Counting.total`** says what is reported of the number of results: how a `CountMode` leads to a
  `TotalSize`.
-/

namespace ContentRepository.Query

/-- How many results are counted. -/
inductive Counting where
  | exact
  | skip
  /-- Exactly up to the bound, and no further. -/
  | upTo (bound : Nat)
deriving DecidableEq

/-- The reported number of results. -/
inductive Total where
  | exact (n : Nat)
  | notCounted
  /-- There are more results than were to be counted. -/
  | truncated
deriving DecidableEq

/-- Unless something else is asked for, results are counted. -/
instance : Inhabited Counting := ⟨.exact⟩

/-- The counting asked for by an integer: none for zero, a bound for a positive one, and an exact
count for a negative one. -/
def Counting.ofBound (bound : Int) : Counting :=
  if bound = 0 then .skip else if 0 < bound then .upTo bound.toNat else .exact

/-- What is reported when there are `matched` results. -/
def Counting.total (counting : Counting) (matched : Nat) : Total :=
  match counting with
  | .exact => .exact matched
  | .skip => .notCounted
  | .upTo bound => if bound < matched then .truncated else .exact matched

/-- The report as a signed 64-bit integer: the number, or -1 if not counted, or -2 if truncated. -/
def Total.toInt : Total → Int
  | .exact n => min n Int64.maxValue.toInt
  | .notCounted => -1
  | .truncated => -2

/-- Some of the results, with the report on all of them. -/
structure Page (α : Type u) where
  items : List α
  total : Total

/-- Each item transformed; the report stays. -/
def Page.map {α : Type u} {β : Type v} (f : α → β) (page : Page α) : Page β :=
  ⟨page.items.map f, page.total⟩

/-- The `limit` results after the first `offset` ones. With a limit of zero nothing is cut off, at
the front either. -/
def window {α : Type u} (limit offset : Nat) (items : List α) : List α :=
  if limit = 0 then items else (items.drop offset).take limit

end ContentRepository.Query
