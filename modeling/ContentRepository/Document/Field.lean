/-!
# Reserved field names

The repository keeps the structure of the tree, the versions, the proxies and the indexed texts in
fields of the documents themselves, whose names are the constants `KEY_ID`, `KEY_PARENT_ID` and so
on. A store treats these fields like any others; whoever writes through the tree operations keeps
them coherent.
-/

namespace ContentRepository.Field

/-- The unique id, a string that never changes. -/
def id : String := "id"

/-- A reference to the parent; the root has none. -/
def parent : String := "parentId"

/-- The name, unique among the children of one parent. -/
def name : String := "name"

/-- The name of the document's type. -/
def type : String := "primaryType"

/-- References to all ancestors, the root first. -/
def ancestors : String := "ancestorIds"

/-- The access control policy. -/
def policy : String := "acp"

/-- Whether the document is a proxy. -/
def isProxy : String := "isProxy"

/-- A reference to the document that a proxy stands for. -/
def target : String := "proxyTargetId"

/-- References to the proxies that stand for the document. -/
def proxies : String := "proxyIds"

/-- Whether the document is a version. -/
def isVersion : String := "isVersion"

/-- A reference to the document that a version was checked in from. -/
def series : String := "versionSeriesId"

/-- The version number as people read it: major, point, minor. -/
def versionLabel : String := "versionLabel"

def majorVersion : String := "majorVersion"

def minorVersion : String := "minorVersion"

/-- When a version was checked in. -/
def versionCreated : String := "versionCreated"

/-- Whether the document is checked in at present. -/
def isCheckedIn : String := "isCheckedIn"

/-- A reference to the version last checked in. -/
def baseVersion : String := "baseVersionId"

/-- Indexed text taken from the fields of the document. -/
def simpleText : String := "fulltextSimple"

/-- Indexed text taken from binary contents. -/
def binaryText : String := "fulltextBinary"

/-- The indexing job that the document waits for together with others. -/
def textJob : String := "fulltextJobId"

/-- The fields that only the repository writes. -/
def reserved : List String :=
  [id, parent, name, type, ancestors, policy, isProxy, target, proxies, isVersion, series,
   majorVersion, minorVersion, versionLabel, versionCreated, isCheckedIn, baseVersion, simpleText,
   binaryText, textJob]

/-- Whether only the repository writes this field. -/
def isReserved (key : String) : Bool := reserved.contains key

end ContentRepository.Field
