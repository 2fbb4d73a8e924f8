import ContentRepository.Session.Access
import ContentRepository.Session.Commit
import ContentRepository.Session.Proxy
import ContentRepository.Session.Version
import ContentRepository.Store.Call

/-!
# Calls of a session as data

A `Session.Call` is one call of the interface `Session` with its arguments, a `Session.Answer` what
it returns, and **`Workspace.perform`** makes the call. Besides the tree, the versions, the proxies
and the policies a session offers the calls of the store. All of them are refused by a closed
session.

`exists_child` is `hasChild` with nothing passed over, and `save` is `commit`; so neither has a call
of its own. `revise` is what callers do who read a document, change it and write it back.
-/

namespace ContentRepository

namespace Session

/-- A call of a session. -/
inductive Call where
  | root
  | read (id : String)
  | readEach (ids : List String)
  | create (d : Document)
  | update (d : Document)
  | delete (id : String)
  | child (parent name : String) (ignored : List String)
  | hasChild (parent name : String) (ignored : List String)
  | having (key : String) (value : Value) (ignored : List String)
  | anyHaving (key : String) (value : Value) (ignored : List String)
  | listing (key : String) (item : Value) (ignored : List String) (wantTargets wantProxies : Bool)
  | fetch (query : Query) (ignored : List String)
  /-- A query given by its texts and its window. -/
  | query (predicate order : String) (limit offset : Nat) (counting : Query.Counting)
  /-- Sets some fields of a document and then clears others. -/
  | revise (id : String) (fields : List (String × Value)) (cleared : List String)
  | children (parent : String)
  | addChild (parent name type : String)
  | remove (id : String)
  | move (id dest : String) (name? : Option String)
  | copy (id dest : String) (name? : Option String)
  | checkIn (id : String) (increment : Increment)
  | checkOut (id : String)
  | versions (id : String)
  | proxies (target : String) (parent? : Option String)
  | addProxy (target parent name : String)
  | setPolicy (id : String) (policy : Policy) (overwrite : Bool)
  | policy (id : String)
  | commit

/-- What a call returns. -/
inductive Answer where
  /-- What a call of the store returns. -/
  | store (answer : Store.Answer)
  | text (s : String)
  | policy (p : Policy)

end Session

namespace Workspace

/-- Stores a new document, which is then pending. -/
def create (w : Workspace) (d : Document) : Except Error Unit × Workspace :=
  w.change do
    let _ ← w.liveSite
    return { writes := .create d :: d.id?.toList.map .mark }

/-- Replaces a document, which is then pending. -/
def update (w : Workspace) (d : Document) : Except Error Unit × Workspace :=
  w.change do
    let _ ← w.liveSite
    return { writes := .update d :: d.id?.toList.map .mark }

/-- Removes one document, whatever hangs on it. -/
def delete (w : Workspace) (id : String) : Except Error Unit × Workspace :=
  w.change do
    let _ ← w.liveSite
    return { writes := [.delete id] }

/-- Runs a query that is given by its texts. -/
def query (w : Workspace) (predicate order : String) (limit offset : Nat)
    (counting : Query.Counting) : Except Error (Query.Page Document) := do
  let _ ← w.liveSite
  let query ← (Query.parse predicate order).mapError fun fault => .store (.ofFault fault)
  w.ask (·.fetch { query with limit, offset, counting } [])

/-- The children of a document. The folder of versions does not count as one. -/
def children (w : Workspace) (parent : String) : Except Error (List Document) := do
  let children ← w.ask (·.having Field.parent (.reference parent) [])
  return children.filter fun d => d.id? != some w.site.versions

/-- Sets some fields of a document and then clears others; the document as it was written, or
nothing if it is not there. -/
def revise (w : Workspace) (id : String) (fields : List (String × Value))
    (cleared : List String) : Except Error (Option Document) × Workspace :=
  match w.ask (·.find? id) with
  | .error e => (.error e, w)
  | .ok none => (.ok none, w)
  | .ok (some d) =>
    let revised := (d.setAll fields).unsetAll cleared
    match w.update revised with
    | (.ok (), w) => (.ok (some revised), w)
    | (.error e, w) => (.error e, w)

/-- A call that reads. -/
def reading {α : Type} (w : Workspace) (answer : α → Session.Answer) (result : Except Error α) :
    Except Error Session.Answer × Workspace :=
  (result.map answer, w)

/-- A call that writes. -/
def writing {α : Type} (answer : α → Session.Answer) (outcome : Except Error α × Workspace) :
    Except Error Session.Answer × Workspace :=
  (outcome.1.map answer, outcome.2)

/-- A call that reads what a store answers. -/
def asking {α : Type} (w : Workspace) (answer : α → Store.Answer)
    (call : Store → Except StoreError α) : Except Error Session.Answer × Workspace :=
  w.reading (fun a => .store (answer a)) (w.ask call)

/-- The answer of a call that only succeeds. -/
def done (_ : Unit) : Session.Answer := .store .done

/-- The answer of a call that makes a document. -/
def made (d : Document) : Session.Answer := .store (.document (some d))

/-- Makes a call. -/
def perform (w : Workspace) : Session.Call → Except Error Session.Answer × Workspace
  | .root => w.reading .text (w.liveSite.map (·.root))
  | .read id => w.asking .document (·.find? id)
  | .readEach ids => w.asking .places (·.findEach ids)
  | .create d => writing done (w.create d)
  | .update d => writing done (w.update d)
  | .delete id => writing done (w.delete id)
  | .child parent name ignored => w.asking .document (·.child? parent name ignored)
  | .hasChild parent name ignored => w.asking .flag (·.hasChild parent name ignored)
  | .having key value ignored => w.asking .documents (·.having key value ignored)
  | .anyHaving key value ignored => w.asking .flag (·.anyHaving key value ignored)
  | .listing key item ignored wantTargets wantProxies =>
    w.asking .listing (·.listing key item ignored wantTargets wantProxies)
  | .fetch query ignored => w.asking .page (·.fetch query ignored)
  | .query predicate order limit offset counting =>
    w.reading (fun page => .store (.page page)) (w.query predicate order limit offset counting)
  | .revise id fields cleared =>
    writing (fun d => .store (.document d)) (w.revise id fields cleared)
  | .children parent => w.reading (fun ds => .store (.documents ds)) (w.children parent)
  | .addChild parent name type => writing made (w.addChild parent name type)
  | .remove id => writing done (w.remove id)
  | .move id dest name? => writing made (w.move id dest name?)
  | .copy id dest name? => writing made (w.copy id dest name?)
  | .checkIn id increment => writing made (w.checkIn id increment)
  | .checkOut id => writing done (w.checkOut id)
  | .versions id => w.reading (fun ds => .store (.documents ds)) (w.versionsOf id)
  | .proxies target parent? =>
    w.reading (fun ds => .store (.documents ds)) (w.proxiesOf target parent?)
  | .addProxy target parent name => writing made (w.addProxy target parent name)
  | .setPolicy id policy overwrite => writing done (w.setPolicy id policy overwrite)
  | .policy id => w.reading .policy (w.policyOf id)
  | .commit => writing done w.commit

end Workspace

end ContentRepository
