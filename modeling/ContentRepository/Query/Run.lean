import ContentRepository.Query.Ordering
import ContentRepository.Query.Page
import ContentRepository.Query.Parse

/-!
# Running a query

A query filters documents, orders them, counts them and cuts out a page, in this sequence
(`execute`). It is refused as a whole, before any document is looked at, if its predicate cannot be
evaluated.
-/

namespace ContentRepository

/-- A query against a collection of documents. -/
structure Query where
  predicate : Query.Expression
  order : Query.SortKeys := []
  /-- The size of a page; zero for no bound. -/
  limit : Nat := 0
  /-- The number of results before the page. -/
  offset : Nat := 0
  counting : Query.Counting := .exact

namespace Query

/-- The query written as a predicate and an ordering. The predicate is read first. -/
def parse (predicate order : String) : Except Fault Query := do
  let predicate ← Expression.parse predicate
  let order ← SortKeys.parse order
  return { predicate, order }

/-- The documents that satisfy the predicate, ordered. -/
def results (q : Query) (candidates : List Document) : List Document :=
  q.order.sort (candidates.filter (q.predicate.holds ·))

/-- Runs a query over documents given in their scan order. -/
def run (q : Query) (candidates : List Document) : Except Fault (Page Document) :=
  match q.predicate.unorderable? with
  | some field => .error (.unorderable field)
  | none =>
    let results := q.results candidates
    .ok ⟨window q.limit q.offset results, q.counting.total results.length⟩

end Query

end ContentRepository
