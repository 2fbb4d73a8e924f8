import ContentRepository.Store.Basic

/-!
# Calls of a store as data

A `Store.Call` is one call of the interface `DocumentStore` with its arguments, a `Store.Answer`
what it returns. `Store.perform` makes the call; one that fails leaves the store as it is.
-/

namespace ContentRepository.Store

/-- A call of a store. -/
inductive Call where
  | read (id : String)
  | readEach (ids : List String)
  | create (d : Document)
  | update (d : Document)
  | edit (id : String) (change : Document → Option Document)
  | delete (id : String)
  | child (parent name : String) (ignored : List String)
  | hasChild (parent name : String) (ignored : List String)
  | having (key : String) (value : Value) (ignored : List String)
  | anyHaving (key : String) (value : Value) (ignored : List String)
  | listing (key : String) (item : Value) (ignored : List String) (wantTargets wantProxies : Bool)
  | fetch (query : Query) (ignored : List String)
  | size
  | isEmpty
  | shutDown

/-- What a call returns. -/
inductive Answer where
  /-- Nothing but that the call succeeded. -/
  | done
  | flag (b : Bool)
  | count (n : Nat)
  /-- A document, if there is one. -/
  | document (d : Option Document)
  | documents (ds : List Document)
  /-- A place for each requested id. -/
  | places (ds : List (Option Document))
  | page (p : Query.Page Document)
  | listing (l : Listing)

/-- A call that reads. -/
def reading {α : Type} (s : Store) (answer : α → Answer) (result : Except StoreError α) :
    Except StoreError Answer × Store :=
  (result.map answer, s)

/-- A call that writes. -/
def writing {α : Type} (s : Store) (answer : α → Answer) (result : Except StoreError (α × Store)) :
    Except StoreError Answer × Store :=
  match result with
  | .ok (a, s) => (.ok (answer a), s)
  | .error e => (.error e, s)

/-- Makes a call. -/
def perform (s : Store) : Call → Except StoreError Answer × Store
  | .read id => s.reading .document (s.find? id)
  | .readEach ids => s.reading .places (s.findEach ids)
  | .create d => s.writing (fun () => .done) ((s.create d).map ((), ·))
  | .update d => s.writing (fun () => .done) ((s.update d).map ((), ·))
  | .edit id change => s.writing .flag (s.edit id change)
  | .delete id => s.writing (fun () => .done) ((s.delete id).map ((), ·))
  | .child parent name ignored => s.reading .document (s.child? parent name ignored)
  | .hasChild parent name ignored => s.reading .flag (s.hasChild parent name ignored)
  | .having key value ignored => s.reading .documents (s.having key value ignored)
  | .anyHaving key value ignored => s.reading .flag (s.anyHaving key value ignored)
  | .listing key item ignored wantTargets wantProxies =>
    s.reading .listing (s.listing key item ignored wantTargets wantProxies)
  | .fetch query ignored => s.reading .page (s.fetch query ignored)
  | .size => s.reading .count s.size
  | .isEmpty => s.reading .flag s.isEmpty
  | .shutDown => (.ok .done, s.shutDown)

end ContentRepository.Store
