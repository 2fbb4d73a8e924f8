import ContentRepository.Document.Basic
import ContentRepository.Value.Json

/-!
# The JSON forms of documents

* **`Document.toJson`** and **`Document.ofJson?`** use the form in which every value names its
  kind, as the members of one object. Of two members with one key the later counts.
* **`Document.ofPlainJson?`** takes any JSON object for a document: its strings become texts, and
  its numbers integers where they are written so and fit, doubles otherwise. Members that are null
  are left out at every depth.
-/

namespace ContentRepository.Document

/-- The JSON form of a document. -/
def toJson (d : Document) : Json := .object (Value.fieldsToJson d.entries)

/-- The document with the given members, nested to the given depth. -/
def ofJsonWithin? (room : Nat) : Json → Option Document
  | .object members => (Value.fieldsOfJson? room false members).map Table.ofList
  | _ => none

/-- Reads the JSON form of a document. -/
def ofJson? (json : Json) : Option Document := ofJsonWithin? Json.maxNesting json

/-- The document written by a text. -/
def read? (text : String) : Option Document := (Json.read? text).bind ofJson?

/-- The text of a document. -/
def write (d : Document) : String := d.toJson.write

/-- The JSON form of a list of documents. -/
def listToJson (documents : List Document) : Json := .array (documents.map toJson)

/-- Reads a list of documents. -/
def listOfJson? : Json → Option (List Document)
  | .array documents => documents.mapM (ofJsonWithin? (Json.maxNesting - 1))
  | _ => none

/-- The documents written by a text. -/
def readList? (text : String) : Option (List Document) := (Json.read? text).bind listOfJson?

/-- The text of a list of documents. -/
def writeList (documents : List Document) : String := (listToJson documents).write

/-- The fields that have a value; of those with one name only the last counts. -/
def present (members : List (String × Option Value)) : List (String × Value) :=
  (Table.ofList members).entries.filterMap fun (key, value) => value.map (key, ·)

mutual

/-- The value of a plain JSON tree; null has none. -/
def plainValue? : Json → Option Value
  | .null => none
  | .bool b => some (.boolean b)
  | .number literal =>
    match Json.long? literal with
    | some n => some (.long n)
    | none => (Json.double? literal).map .double
  | .string content => content.map .string
  | .array items => some (.array (plainItems items))
  | .object members => some (.object (present (plainMembers members)))

/-- The items that are not null. -/
def plainItems : List Json → List Value
  | [] => []
  | item :: rest => (plainValue? item).toList ++ plainItems rest

/-- The values of the members, in their order. -/
def plainMembers : List (Option String × Json) → List (String × Option Value)
  | [] => []
  | (key, json) :: rest => (key.getD "", plainValue? json) :: plainMembers rest

end

/-- The document that a plain JSON tree describes; only an object describes one. -/
def ofPlainJson? : Json → Option Document
  | .object members => some (Table.ofList (present (plainMembers members)))
  | _ => none

/-- Reads a text as plain JSON. The whole text must be readable; what it holds need not be an
object. -/
def readPlain? (text : String) : Option (Option Document) := do
  let json ← Json.read? text
  guard (json.isReadable Json.maxNesting)
  return ofPlainJson? json

end ContentRepository.Document
