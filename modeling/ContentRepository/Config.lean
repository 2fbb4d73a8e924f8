import ContentRepository.Ids

/-!
# Configuration of a repository

A `Config` is a `RepositoryConfig`, with its `IdStrategy`.
-/

namespace ContentRepository

/-- How ids for new documents are made. -/
inductive IdStrategy where
  | random
  | sequential
deriving DecidableEq

/-- A fresh source of ids; the seed tells random sources apart. -/
def IdStrategy.source (strategy : IdStrategy) (seed : UInt64) : IdSource :=
  match strategy with
  | .random => .random seed
  | .sequential => .sequential

/-- What is laid down when a repository is opened. -/
structure Config where
  /-- The name of the repository; indexing jobs carry it. -/
  name : String := "default"
  ids : IdStrategy := .random
  /-- Whether a commit hands documents to indexing. -/
  fulltext : Bool := true
  /-- How many indexing jobs may wait before submitting blocks. -/
  capacity : Nat := 1024
  /-- Whether queries answer with copies. Documents are values here, so a copy is no different. -/
  copyResults : Bool := true

end ContentRepository
