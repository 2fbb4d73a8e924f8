import ContentRepository.Document.Field
import ContentRepository.Value.Basic

/-!
# Documents

A `Document`, called `State` in a store, is a table of fields. It has no fixed shape: the accessors
below read the reserved fields and find nothing (or `false`, or no references) where a field is
absent or holds a value of another kind.
-/

namespace ContentRepository

/-- A document: its fields, by name. -/
abbrev Document := Table Value

namespace Document

/-- The document with a field set. -/
abbrev set (d : Document) (key : String) (value : Value) : Document := Table.insert d key value

/-- The document without a field. -/
abbrev unset (d : Document) (key : String) : Document := Table.erase d key

/-- The document that has an id and nothing else. -/
def withId (id : String) : Document := set Table.empty Field.id (.string id)

/-- Whether two documents have the same fields with equal contents. -/
def equals (a b : Document) : Bool := Value.equalFields a.entries b.entries

/-- The content of a field that holds a text. -/
def string? (d : Document) (key : String) : Option String := (d.get? key).bind Value.string?

/-- The id in a field that holds a reference. -/
def reference? (d : Document) (key : String) : Option String := (d.get? key).bind Value.reference?

/-- Whether a field holds the truth value true. -/
def flag (d : Document) (key : String) : Bool := (d.get? key).bind Value.boolean? == some true

/-- The ids referred to by the items of a field that holds an array. -/
def references (d : Document) (key : String) : List String :=
  (((d.get? key).bind Value.array?).getD []).filterMap Value.reference?

def id? (d : Document) : Option String := d.string? Field.id

def parent? (d : Document) : Option String := d.reference? Field.parent

def name? (d : Document) : Option String := d.string? Field.name

def type? (d : Document) : Option String := d.string? Field.type

def isProxy (d : Document) : Bool := d.flag Field.isProxy

def target? (d : Document) : Option String := d.reference? Field.target

def proxies (d : Document) : List String := d.references Field.proxies

def ancestors (d : Document) : List String := d.references Field.ancestors

def isVersion (d : Document) : Bool := d.flag Field.isVersion

def isCheckedIn (d : Document) : Bool := d.flag Field.isCheckedIn

/-- Whether a field holds exactly this value. -/
def holds (d : Document) (key : String) (value : Value) : Bool :=
  (d.get? key).any (·.equals value)

/-- Whether a field holds an array with this item. -/
def listed (d : Document) (key : String) (item : Value) : Bool :=
  (((d.get? key).bind Value.array?).getD []).any (·.equals item)

/-- A number kept in an integer field; zero if there is none. -/
def count (d : Document) (key : String) : Int64 := ((d.get? key).bind Value.long?).getD 0

/-- The document without the given fields. -/
def unsetAll (d : Document) (keys : List String) : Document := keys.foldl unset d

/-- The document with the given fields set one after another. -/
def setAll (d : Document) (fields : List (String × Value)) : Document :=
  fields.foldl (fun d field => d.set field.1 field.2) d

end Document

end ContentRepository
