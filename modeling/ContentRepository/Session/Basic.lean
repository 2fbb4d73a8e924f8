import ContentRepository.Fulltext.Queue
import ContentRepository.Ids
import ContentRepository.Policy.Value

/-!
# Sites, sessions and workspaces

A `Site` is what all sessions of a repository share, its `SessionBackend`: the store, the source of
ids, the clock and the queue of indexing jobs. A `Session` has only an id, whether it is live, and
which documents its next commit hands to indexing. Sessions write to the store at once. A
`Workspace` is a session on its site, a whole `DocumentSession`; its operations are functions on
workspaces.

* Operations that only read are functions **`Workspace → Except Error α`**.
* Operations that write first make a **`Plan`** from the site as it is, and then carry it out with
  **`Workspace.execute`**, one write after another until one fails. Where the plan cannot be made,
  nothing is written; where a write fails, those before it stay.

`Site.found` is `bootstrap`. The checks that operations have in common are `require` with its name
unchanged, `check_container` (`Site.requireContainer`), `check_name_free` (`Site.requireFreeName`)
and `check_structural` (`Site.requireOrdinary`); `Site.below` is `subtree`, and `Workspace.mark` is
`mark_dirty`.
-/

namespace ContentRepository

/-- The name of the type of the root. -/
def rootType : String := "Root"

/-- The name of the type of the folder of versions. -/
def versionsType : String := "VersionStorage"

/-- The name of the folder of versions. -/
def versionsName : String := "versionStorage"

/-- What the sessions of one repository share. -/
structure Site where
  /-- The name of the repository. -/
  repository : String
  store : Store
  ids : IdSource
  /-- The time of the next change. -/
  clock : Instant
  /-- The queue of indexing jobs; none if documents are not indexed. -/
  queue : Option IndexQueue
  /-- The id of the root. -/
  root : String
  /-- The id of the folder of versions. -/
  versions : String

/-- The root of a new repository. -/
def rootDocument (id : String) : Document :=
  (Document.withId id).setAll
    [(Field.name, .string ""), (Field.type, .string rootType), (Field.ancestors, .array []),
     (Field.policy, Policy.rootDefault.toValue)]

/-- The folder of versions of a new repository. -/
def versionsDocument (id root : String) : Document :=
  (Document.withId id).setAll
    [(Field.parent, .reference root), (Field.name, .string versionsName),
     (Field.type, .string versionsType), (Field.ancestors, .references [root])]

namespace Site

/-- Founds a repository on a store by writing its root and its folder of versions. -/
def found (repository : String) (store : Store) (ids : IdSource) (clock : Instant)
    (queue : Option IndexQueue) : Except Error Site := do
  let root := ids.peek 0
  let versions := ids.peek 1
  let store ← (store.create (rootDocument root)).mapError .store
  let store ← (store.create (versionsDocument versions root)).mapError .store
  return { repository, store, ids := ids.skip 2, clock, queue, root, versions }

/-- A document that must be there. -/
def require (site : Site) (id : String) : Except Error Document := do
  match ← (site.store.find? id).mapError .store with
  | some d => return d
  | none => throw (.notFound id)

/-- The documents below one. -/
def below (site : Site) (id : String) (withProxies : Bool) : Except Error Listing :=
  (site.store.listing Field.ancestors (.reference id) [] withProxies withProxies).mapError .store

/-- Refuses to put children under a document that must not have any. -/
def requireContainer (site : Site) (parent : Document) : Except Error Unit :=
  if parent.isProxy then throw (.refused .proxyAsParent)
  else if parent.isVersion || parent.id? == some site.versions then
    throw (.refused .versionAsParent)
  else return ()

/-- Refuses a name that a child of the parent has already. -/
def requireFreeName (site : Site) (parent name : String) : Except Error Unit := do
  if ← (site.store.hasChild parent name []).mapError .store then throw (.nameConflict parent name)

/-- Refuses to do something to the folders that every repository has. -/
def requireOrdinary (site : Site) (id action : String) : Except Error Unit :=
  if id = site.root ∨ id = site.versions then throw (.refused (.repositoryFolder action))
  else return ()

end Site

/-- The ancestors of the children of a document: its own, and the document itself. -/
def Document.childAncestors (d : Document) : List String := d.ancestors ++ d.id?.toList

/-- A session. -/
structure Session where
  id : String
  live : Bool
  /-- The documents that the next commit hands to indexing. -/
  pending : TextSet

/-- A session that has just been opened. -/
def Session.fresh (id : String) : Session := ⟨id, true, Table.empty⟩

/-- A closed session. It forgets what was pending. -/
def Session.close (s : Session) : Session :=
  if s.live then { s with live := false, pending := Table.empty } else s

/-- A session on its site. -/
structure Workspace where
  site : Site
  session : Session

/-- One write of an operation. -/
inductive Write where
  | create (d : Document)
  | update (d : Document)
  /-- Removes a document, which then is no longer pending either. -/
  | delete (id : String)
  /-- Leaves a document to the next commit. -/
  | mark (id : String)

/-- What an operation is going to do. -/
structure Plan where
  /-- The writes, in their order. -/
  writes : List Write
  /-- How many ids it takes from the source. -/
  drawn : Nat := 0

namespace Workspace

/-- The site, as long as the session is live. -/
def liveSite (w : Workspace) : Except Error Site :=
  if w.session.live then .ok w.site else .error .sessionClosed

/-- A reading call to the store. -/
def ask {α : Type} (w : Workspace) (call : Store → Except StoreError α) : Except Error α := do
  (call (← w.liveSite).store).mapError .store

/-- A document that must be there, as long as the session is live. -/
def require (w : Workspace) (id : String) : Except Error Document := do
  (← w.liveSite).require id

/-- The workspace with another store. -/
def withStore (w : Workspace) (store : Store) : Workspace :=
  { w with site := { w.site with store } }

/-- Leaves a document to the next commit. -/
def mark (w : Workspace) (id : String) : Workspace :=
  { w with session := { w.session with pending := w.session.pending.add id } }

/-- Takes a document from the next commit. -/
def unmark (w : Workspace) (id : String) : Workspace :=
  { w with session := { w.session with pending := w.session.pending.erase id } }

/-- Makes one write. -/
def write (w : Workspace) : Write → Except StoreError Workspace
  | .create d => return w.withStore (← w.site.store.create d)
  | .update d => return w.withStore (← w.site.store.update d)
  | .delete id => return (w.withStore (← w.site.store.delete id)).unmark id
  | .mark id => return w.mark id

/-- Makes writes one after another, up to the first that fails. -/
def writeAll : List Write → Workspace → Except Error Unit × Workspace
  | [], w => (.ok (), w)
  | first :: rest, w =>
    match w.write first with
    | .ok w => writeAll rest w
    | .error e => (.error (.store e), w)

/-- Carries out a plan. The ids are taken and time passes whether the writes succeed or not. -/
def execute (w : Workspace) (plan : Plan) : Except Error Unit × Workspace :=
  let site := { w.site with ids := w.site.ids.skip plan.drawn, clock := w.site.clock.next }
  writeAll plan.writes { w with site }

/-- Carries out a plan if there is one. -/
def change (w : Workspace) (plan : Except Error Plan) : Except Error Unit × Workspace :=
  match plan with
  | .ok plan => w.execute plan
  | .error e => (.error e, w)

/-- Carries out a plan if there is one, and answers the document with the given id as it is then. -/
def produce (w : Workspace) (plan : Except Error (Plan × String)) :
    Except Error Document × Workspace :=
  match plan with
  | .error e => (.error e, w)
  | .ok (plan, id) =>
    match w.execute plan with
    | (.ok (), w) => (w.require id, w)
    | (.error e, w) => (.error e, w)

end Workspace

end ContentRepository
