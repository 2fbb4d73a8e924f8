import ContentRepository.Store.Shelf

/-!
# Stores

A `Store` is an `InMemoryStore`: a shelf that can be shut down. Shutting down discards the shelf,
and from then on every call that needs it is refused; a document without id is refused before that.

Some operations can be had from others: reading several documents from reading one, editing in
place from reading and updating, the question whether any document has a value from looking for all
that have it. A store either offers these operations itself, or has them derived (`Provision`): the
interface `DocumentStore` provides `read_states`, `update_state_with` and `query_key_value_presence`
to stores that have nothing better.
-/

namespace ContentRepository

/-- Where a store has its dispensable operations from. -/
inductive Provision where
  /-- The store offers them itself. -/
  | own
  /-- They are derived from the indispensable ones. -/
  | derived
deriving DecidableEq

/-- A keyed collection of documents. -/
structure Store where
  /-- The documents; none once the store is shut down. -/
  shelf? : Option Shelf
  provision : Provision

namespace Store

/-- A store with nothing in it. -/
def empty (provision : Provision) : Store := ⟨some Table.empty, provision⟩

/-- The shelf of a store that is not shut down. -/
def shelf (s : Store) : Except StoreError Shelf := s.shelf?.elim (.error .shutDown) .ok

/-- The store with another shelf. -/
def withShelf (s : Store) (shelf : Shelf) : Store := { s with shelf? := some shelf }

/-- The id under which a document is written. -/
def idToWrite (d : Document) : Except StoreError String := d.id?.elim (.error .missingId) .ok

/-! ## Indispensable operations -/

/-- The document stored under an id. -/
def find? (s : Store) (id : String) : Except StoreError (Option Document) :=
  return (← s.shelf).get? id

/-- Stores a new document. -/
def create (s : Store) (d : Document) : Except StoreError Store := do
  let id ← idToWrite d
  return s.withShelf (← (← s.shelf).create id d)

/-- Replaces a stored document as a whole. -/
def update (s : Store) (d : Document) : Except StoreError Store := do
  let id ← idToWrite d
  return s.withShelf (← (← s.shelf).update id d)

/-- Removes a stored document. -/
def delete (s : Store) (id : String) : Except StoreError Store :=
  return s.withShelf (← (← s.shelf).delete id)

/-- The first child of this name under a parent. -/
def child? (s : Store) (parent name : String) (ignored : List String) :
    Except StoreError (Option Document) :=
  return (← s.shelf).child? parent name ignored

/-- The documents in which a field holds exactly this value. -/
def having (s : Store) (key : String) (value : Value) (ignored : List String) :
    Except StoreError (List Document) :=
  return (← s.shelf).having key value ignored

/-- Finds out about the documents in which a field holds an array with this item. -/
def listing (s : Store) (key : String) (item : Value) (ignored : List String)
    (wantTargets wantProxies : Bool) : Except StoreError Listing :=
  return (← s.shelf).listing key item ignored wantTargets wantProxies

/-- Whether a parent has a child of this name. -/
def hasChild (s : Store) (parent name : String) (ignored : List String) : Except StoreError Bool :=
  return (← s.child? parent name ignored).isSome

/-- Runs a query. -/
def fetch (s : Store) (query : Query) (ignored : List String) :
    Except StoreError (Query.Page Document) := do
  (← s.shelf).fetch query ignored

/-! ## Derived operations -/

/-- Several documents, looked up one after another. -/
def derivedFindEach (s : Store) (ids : List String) : Except StoreError (List (Option Document)) :=
  ids.mapM s.find?

/-- An edit made by reading and updating. -/
def derivedEdit (s : Store) (id : String) (change : Document → Option Document) :
    Except StoreError (Bool × Store) := do
  match ← s.find? id with
  | none => throw (.notFound id)
  | some d =>
    match change d with
    | none => return (false, s)
    | some d => return (true, ← s.update (d.set Field.id (.string id)))

/-! ## Operations by provision -/

/-- Several documents, one place for each id. -/
def findEach (s : Store) (ids : List String) : Except StoreError (List (Option Document)) :=
  match s.provision with
  | .own => return ids.map ((← s.shelf).get? ·)
  | .derived => s.derivedFindEach ids

/-- Edits a stored document in place, unless the edit declines; whether it was edited. -/
def edit (s : Store) (id : String) (change : Document → Option Document) :
    Except StoreError (Bool × Store) :=
  match s.provision with
  | .own => do
    let (edited, shelf) ← (← s.shelf).edit id change
    return (edited, s.withShelf shelf)
  | .derived => s.derivedEdit id change

/-- Whether there is a document in which a field holds exactly this value. -/
def anyHaving (s : Store) (key : String) (value : Value) (ignored : List String) :
    Except StoreError Bool :=
  match s.provision with
  | .own => return (← s.shelf).visible ignored |>.any (·.holds key value)
  | .derived => return !(← s.having key value ignored).isEmpty

/-! ## The store as a whole -/

/-- The number of stored documents. -/
def size (s : Store) : Except StoreError Nat := return (← s.shelf).size

/-- Whether nothing is stored. -/
def isEmpty (s : Store) : Except StoreError Bool := return (← s.size) == 0

/-- Discards all content for good. -/
def shutDown (s : Store) : Store := { s with shelf? := none }

end Store

end ContentRepository
