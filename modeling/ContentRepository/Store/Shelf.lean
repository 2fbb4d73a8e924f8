import ContentRepository.Query.Run
import ContentRepository.Store.Error

/-!
# Shelves: the documents of a store

A `Shelf` holds documents under their ids. Every search goes through the whole shelf in ascending
order of the ids, so the first match is definite. A search may be told to pass over some ids. A
`Listing` is what `query_key_value_array` finds, its `ArrayMatches`.

Reading never fails. Writing takes the whole new document; the id under which it goes is the one in
its own id field, except that an edit in place keeps the id it was addressed to.
-/

namespace ContentRepository

/-- Documents by id. -/
abbrev Shelf := Table Document

/-- What is found out about the documents with a given item in an array field. -/
structure Listing where
  /-- The ids of these documents. -/
  ids : TextSet
  /-- The targets of those that are proxies, if asked for. -/
  targets : Table String
  /-- The proxies of those that have some, if asked for. -/
  proxies : Table (List String)

namespace Listing

def empty : Listing := ⟨Table.empty, Table.empty, Table.empty⟩

/-- Adds one document that has the item. A document without id cannot be listed. -/
def add (wantTargets wantProxies : Bool) (listing : Listing) (d : Document) : Listing :=
  match d.id? with
  | none => listing
  | some id =>
    { ids := listing.ids.add id
      targets := match d.target? with
        | some target =>
          if wantTargets && d.isProxy then listing.targets.insert id target else listing.targets
        | none => listing.targets
      proxies := if wantProxies && !d.proxies.isEmpty then listing.proxies.insert id d.proxies
        else listing.proxies }

end Listing

namespace Shelf

/-- The documents that are not passed over, in ascending order of their ids. -/
def visible (shelf : Shelf) (ignored : List String) : List Document :=
  (Table.filter shelf fun id _ => !ignored.contains id).values

/-- Puts a new document on the shelf. -/
def create (shelf : Shelf) (id : String) (d : Document) : Except StoreError Shelf :=
  if Table.contains shelf id then .error (.alreadyExists id) else .ok (Table.insert shelf id d)

/-- Replaces a document. -/
def update (shelf : Shelf) (id : String) (d : Document) : Except StoreError Shelf :=
  if Table.contains shelf id then .ok (Table.insert shelf id d) else .error (.notFound id)

/-- Edits a document in place, unless the edit declines. The document keeps its id whatever the edit
makes of it. The answer is whether it was edited. -/
def edit (shelf : Shelf) (id : String) (change : Document → Option Document) :
    Except StoreError (Bool × Shelf) :=
  match Table.get? shelf id with
  | none => .error (.notFound id)
  | some d =>
    match change d with
    | none => .ok (false, shelf)
    | some d => .ok (true, Table.insert shelf id (d.set Field.id (.string id)))

/-- Takes a document off the shelf. -/
def delete (shelf : Shelf) (id : String) : Except StoreError Shelf :=
  if Table.contains shelf id then .ok (Table.erase shelf id) else .error (.notFound id)

/-- The first child of this name under a parent. -/
def child? (shelf : Shelf) (parent name : String) (ignored : List String) : Option Document :=
  (shelf.visible ignored).find? fun d => d.parent? == some parent && d.name? == some name

/-- The documents in which a field holds exactly this value. -/
def having (shelf : Shelf) (key : String) (value : Value) (ignored : List String) :
    List Document :=
  (shelf.visible ignored).filter (·.holds key value)

/-- Finds out about the documents in which a field holds an array with this item. -/
def listing (shelf : Shelf) (key : String) (item : Value) (ignored : List String)
    (wantTargets wantProxies : Bool) : Listing :=
  ((shelf.visible ignored).filter (·.listed key item)).foldl
    (Listing.add wantTargets wantProxies) Listing.empty

/-- Runs a query over the shelf. -/
def fetch (shelf : Shelf) (query : Query) (ignored : List String) :
    Except StoreError (Query.Page Document) :=
  (query.run (shelf.visible ignored)).mapError .ofFault

end Shelf

end ContentRepository
