import ContentRepository.Session.Basic

/-!
# Versions

Checking a document in files a copy of it, a version, in the folder of versions, and marks the
document as checked in until it is checked out again. Versions of one document are numbered by a
major and a minor number, and each carries its number, its label and the time of the check-in.

* **`Workspace.checkIn`** (`checkin`, with its `VersionIncrement`) and **`Workspace.checkOut`**
  (`checkout`) change the document, **`Workspace.versionsOf`** (`get_versions`) lists what was
  checked in from it.
-/

namespace ContentRepository

/-- Which number a check-in raises. -/
inductive Increment where
  /-- The minor number. -/
  | minor
  /-- The major number; the minor one starts again from zero. -/
  | major
deriving DecidableEq

/-- The number of a version. -/
structure VersionNumber where
  major : Int64
  minor : Int64
deriving DecidableEq

namespace VersionNumber

/-- The number after an increment. -/
def next (n : VersionNumber) : Increment → VersionNumber
  | .minor => ⟨n.major, n.minor + 1⟩
  | .major => ⟨n.major + 1, 0⟩

/-- The number as people read it. -/
def label (n : VersionNumber) : String := toString n.major.toInt ++ "." ++ toString n.minor.toInt

/-- Whether a number comes before another or is the same. -/
def le (a b : VersionNumber) : Bool :=
  a.major.toInt < b.major.toInt || (a.major == b.major && a.minor.toInt ≤ b.minor.toInt)

/-- The fields that hold a number. -/
def fields (n : VersionNumber) : List (String × Value) :=
  [(Field.majorVersion, .long n.major), (Field.minorVersion, .long n.minor),
   (Field.versionLabel, .string n.label)]

end VersionNumber

/-- The number kept in a document; zeros if there is none. -/
def Document.versionNumber (d : Document) : VersionNumber :=
  ⟨d.count Field.majorVersion, d.count Field.minorVersion⟩

namespace Site

/-- The version that a check-in makes of a document. -/
def versionOf (site : Site) (folder d : Document) (id versionId : String) (n : VersionNumber) :
    Document :=
  (d.unsetAll [Field.proxies, Field.isCheckedIn, Field.baseVersion]).setAll <|
    [(Field.id, .string versionId), (Field.parent, .reference site.versions),
     (Field.name, .string versionId), (Field.ancestors, .references folder.childAncestors),
     (Field.isVersion, .boolean true), (Field.series, .reference id)] ++ n.fields ++
    [(Field.versionCreated, .date site.clock)]

/-- The document after a check-in. -/
def checkedIn (d : Document) (versionId : String) (n : VersionNumber) : Document :=
  d.setAll <|
    [(Field.isCheckedIn, .boolean true), (Field.baseVersion, .reference versionId)] ++ n.fields

/-- The plan to check a document in, and the id of the version. -/
def planCheckIn (site : Site) (id : String) (increment : Increment) :
    Except Error (Plan × String) := do
  let d ← site.require id
  if d.isProxy || d.isVersion then throw (.refused .checkInOfNonLive)
  if d.isCheckedIn then throw (.refused .alreadyCheckedIn)
  let n := d.versionNumber.next increment
  let folder ← site.require site.versions
  let versionId := site.ids.peek 0
  let writes :=
    [.create (site.versionOf folder d id versionId n), .mark versionId,
     .update (checkedIn d versionId n)]
  return ({ writes, drawn := 1 }, versionId)

/-- The plan to check a document out. -/
def planCheckOut (site : Site) (id : String) : Except Error Plan := do
  let d ← site.require id
  if !d.isCheckedIn then throw (.refused .notCheckedIn)
  return { writes := [.update (d.unset Field.isCheckedIn)] }

end Site

namespace Workspace

/-- Checks a document in; the version it makes. -/
def checkIn (w : Workspace) (id : String) (increment : Increment) :
    Except Error Document × Workspace :=
  w.produce do (← w.liveSite).planCheckIn id increment

/-- Checks a document out, so that it can be checked in again. -/
def checkOut (w : Workspace) (id : String) : Except Error Unit × Workspace :=
  w.change do (← w.liveSite).planCheckOut id

/-- The versions checked in from a document, in the order of their numbers; those with one number in
ascending order of their ids. -/
def versionsOf (w : Workspace) (id : String) : Except Error (List Document) := do
  let versions ← w.ask (·.having Field.series (.reference id) [])
  return versions.mergeSort fun a b => a.versionNumber.le b.versionNumber

end Workspace

end ContentRepository
