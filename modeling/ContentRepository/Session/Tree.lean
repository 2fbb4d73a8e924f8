import ContentRepository.Session.Basic

/-!
# The document tree

Every document but the root names its parent, and lists all its ancestors from the root on. The
operations below add, remove, move and copy documents and keep what they touch coherent: the
ancestors of everything below a moved or copied document, and the links between proxies and the
documents they stand for.

* **`Site.planAdd`**, **`Site.planRemove`**, **`Site.planMove`** and **`Site.planCopy`** find out
  what has to be written.
* **`Workspace.addChild`**, **`Workspace.remove`**, **`Workspace.move`** and **`Workspace.copy`**
  write it.

These are `add_child`, `remove`, `move_document` and `copy`. New references between proxies and
their targets are put in place as `update_proxy_refs` does it (`Document.relinked`).
-/

namespace ContentRepository

/-- The document with some proxies taken out of its list and others put at its end. The others are
put there in the order given, unless they are in the list. A list that gets empty is left out. -/
def Document.relinked (d : Document) (add remove : List String) : Document :=
  let kept := d.proxies.filter fun id => !remove.contains id
  let proxies := add.foldl (fun ids id => if ids.contains id then ids else ids ++ [id]) kept
  if proxies.isEmpty then d.unset Field.proxies else d.set Field.proxies (.references proxies)

/-- A new document under a parent. -/
def Document.newChild (id : String) (parent : Document) (parentId name : String) : Document :=
  (Document.withId id).setAll
    [(Field.parent, .reference parentId), (Field.name, .string name),
     (Field.ancestors, .references parent.childAncestors)]

/-- Sorts links from one id to another by where they lead. -/
def gatherLinks (links : List (String × String)) : Table TextSet :=
  links.foldl
    (fun found (start, finish) =>
      found.insert finish (((found.get? finish).getD Table.empty).add start))
    Table.empty

namespace Site

/-! ## Adding -/

/-- The plan to add a child, and the id it gets. -/
def planAdd (site : Site) (parentId name type : String) : Except Error (Plan × String) := do
  let parent ← site.require parentId
  site.requireContainer parent
  site.requireFreeName parentId name
  let id := site.ids.peek 0
  let child := (Document.newChild id parent parentId name).set Field.type (.string type)
  return ({ writes := [.create child, .mark id], drawn := 1 }, id)

/-! ## Removing -/

/-- What goes with a removed document. -/
structure Removal where
  /-- The document and all below it. -/
  removed : TextSet
  /-- Proxies elsewhere that stand for removed documents. -/
  orphaned : TextSet
  /-- The documents that stay while proxies of theirs go, with these proxies. -/
  detached : Table TextSet

/-- Finds out what goes with a document. -/
def removal (site : Site) (id : String) : Except Error Removal := do
  let d ← site.require id
  let below ← site.below id true
  let removed := below.ids.add id
  let targets := match d.target? with
    | some target => below.targets.insert id target
    | none => below.targets
  let proxies := if d.proxies.isEmpty then below.proxies else below.proxies.insert id d.proxies
  return {
    removed
    orphaned := .ofTexts (proxies.values.flatten.filter fun proxy => !removed.contains proxy)
    detached := gatherLinks (targets.entries.filter fun link => !removed.contains link.2) }

/-- The updates of the documents that lose proxies. Those that are not there need none. -/
def detachments (site : Site) (detached : Table TextSet) : Except Error (List Write) := do
  let updates ← detached.entries.mapM fun (target, proxies) => do
    let d ← (site.store.find? target).mapError .store
    return d.map fun d => Write.update (d.relinked [] proxies.keys)
  return updates.filterMap fun update => update

/-- The plan to remove a document, all below it, and the proxies that would be left behind. -/
def planRemove (site : Site) (id : String) : Except Error Plan := do
  let removal ← site.removal id
  let updates ← site.detachments removal.detached
  return { writes := updates ++ (removal.removed.keys ++ removal.orphaned.keys).map .delete }

/-! ## Moving -/

/-- The document in its new place. -/
def relocated (d dest : Document) (destId name : String) : Document :=
  d.setAll
    [(Field.parent, .reference destId), (Field.name, .string name),
     (Field.ancestors, .references dest.childAncestors)]

/-- The ancestors of a document below `id`, when those of `id` and `id` itself are to be `front`. -/
def rebasedAncestors (id : String) (front ancestors : List String) : List String :=
  front ++ (ancestors.dropWhile (· ≠ id)).drop 1

/-- The updates of the documents below a moved one. -/
def rebasings (site : Site) (id : String) (front : List String) : Except Error (List Write) := do
  -- the moved document itself is written before those below are looked for
  let below := ((← site.below id false).ids.erase id).keys
  let updates ← below.mapM fun descendant => do
    let d ← (site.store.find? descendant).mapError .store
    return d.map fun d => Write.update
      (d.set Field.ancestors (.references (rebasedAncestors id front d.ancestors)))
  return updates.filterMap fun update => update

/-- Refuses a destination at or below the document itself. -/
def requireElsewhere (id destId action : String) (dest : Document) : Except Error Unit :=
  if destId = id ∨ id ∈ dest.ancestors then throw (.refused (.intoItself action)) else return ()

/-- The plan to move a document. Nothing is written if it is there already. -/
def planMove (site : Site) (id destId : String) (name? : Option String) :
    Except Error (Plan × String) := do
  let d ← site.require id
  if d.isVersion then throw (.refused (.versionInTree "move"))
  let dest ← site.require destId
  site.requireContainer dest
  requireElsewhere id destId "move" dest
  let name := (name?.or d.name?).getD ""
  if d.parent? = some destId ∧ d.name? = some name then return ({ writes := [] }, id)
  if let some present ← (site.store.child? destId name []).mapError .store then
    if present.id? ≠ some id then throw (.nameConflict destId name)
  let rebasings ← site.rebasings id (dest.childAncestors ++ [id])
  return ({ writes := .update (relocated d dest destId name) :: rebasings }, id)

/-! ## Copying -/

/-- The fields that a copy does not take over: those about its proxies and versions. -/
def uncopied : List String :=
  [Field.proxies, Field.isCheckedIn, Field.baseVersion, Field.majorVersion, Field.minorVersion,
   Field.versionLabel]

/-- The new id for an old one; ids of other documents stay. -/
def renamed (names : Table String) (id : String) : String := (names.get? id).getD id

/-- The copy of the document that was asked for. -/
def copiedTop (names : Table String) (d dest : Document) (destId name : String) : Document :=
  relocated (d.set Field.id (.string (renamed names (d.id?.getD "")))) dest destId name

/-- The copy of a document below that one. Of its ancestors the first `depth` are those of the
document that was asked for; `front` replaces them. -/
def copiedBelow (names : Table String) (d : Document) (front : List String) (depth : Nat) :
    Document :=
  let copy := d.set Field.id (.string (renamed names (d.id?.getD "")))
  let copy := match d.parent? with
    | some parent => copy.set Field.parent (.reference (renamed names parent))
    | none => copy
  copy.set Field.ancestors
    (.references (front ++ (d.ancestors.drop depth).map (renamed names)))

/-- The copy without what is not copied, and standing for the copy of its target if it is a proxy
and the target is copied too. -/
def copyOf (names : Table String) (d placed : Document) : Document :=
  let copy := placed.unsetAll uncopied
  match d.target? with
  | some target => copy.set Field.target (.reference (renamed names target))
  | none => copy

/-- The documents to copy: the one asked for and then those below it. -/
def copySources (site : Site) (id : String) (d : Document) : Except Error (List Document) := do
  let below ← (← site.below id false).ids.keys.mapM fun descendant =>
    (site.store.find? descendant).mapError .store
  return (d :: below.filterMap fun d => d).filter (·.id?.isSome)

/-- The updates of the targets that get new proxies. A target that is itself a new copy is not in
the store yet; it is found among the copies. -/
def attachments (site : Site) (copies : List Document) (links : Table TextSet) :
    Except Error (List Write) := do
  let updates ← links.entries.mapM fun (target, proxies) => do
    let d ← match copies.find? (·.id? = some target) with
      | some copy => pure (some copy)
      | none => (site.store.find? target).mapError .store
    return d.map fun d => Write.update (d.relinked proxies.keys [])
  return updates.filterMap fun update => update

/-- The plan to copy a document with all below it, and the id of the copy. -/
def planCopy (site : Site) (id destId : String) (name? : Option String) :
    Except Error (Plan × String) := do
  let d ← site.require id
  if d.isVersion then throw (.refused (.versionInTree "copy"))
  let dest ← site.require destId
  site.requireContainer dest
  requireElsewhere id destId "copy" dest
  let name := (name?.or d.name?).getD ""
  site.requireFreeName destId name
  let sources ← site.copySources id d
  let ids := sources.filterMap (·.id?)
  let names : Table String := .ofList (ids.zip (site.ids.take ids.length))
  let copies := sources.map fun source =>
    copyOf names source
      (if source.id? = some id then copiedTop names source dest destId name
       else copiedBelow names source dest.childAncestors d.ancestors.length)
  let links := gatherLinks (copies.filterMap fun copy => do
    return (← copy.id?, ← copy.target?))
  let attachments ← site.attachments copies links
  let creations := copies.flatMap fun copy => [.create copy, .mark (copy.id?.getD "")]
  return ({ writes := creations ++ attachments, drawn := ids.length }, renamed names id)

end Site

namespace Workspace

/-- Adds a child to a document. -/
def addChild (w : Workspace) (parent name type : String) : Except Error Document × Workspace :=
  w.produce do (← w.liveSite).planAdd parent name type

/-- Removes a document with all below it. -/
def remove (w : Workspace) (id : String) : Except Error Unit × Workspace :=
  w.change do
    w.site.requireOrdinary id "remove"
    (← w.liveSite).planRemove id

/-- Moves a document to another parent, another name, or both. -/
def move (w : Workspace) (id dest : String) (name? : Option String) :
    Except Error Document × Workspace :=
  w.produce do
    w.site.requireOrdinary id "move"
    (← w.liveSite).planMove id dest name?

/-- Copies a document with all below it. -/
def copy (w : Workspace) (id dest : String) (name? : Option String) :
    Except Error Document × Workspace :=
  w.produce do
    w.site.requireOrdinary id "copy"
    (← w.liveSite).planCopy id dest name?

end Workspace

end ContentRepository
