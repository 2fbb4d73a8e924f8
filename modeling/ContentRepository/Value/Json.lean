import ContentRepository.Json.Number
import ContentRepository.Json.Read
import ContentRepository.Json.Write
import ContentRepository.Number.Layout
import ContentRepository.Time.Stamp
import ContentRepository.Value.Basic

/-!
# The JSON form of values

A value is written as an object with its kind under `type` and its content under `value`; the items
of an array and the fields of an object are values in the same form.

* **`Value.toJson`** writes a value. A double that is no number is written as `null`.
* **`Value.ofJson?`** reads a value. It looks for the two members and passes over all others, which
  may then hold anything that is JSON. Instead of an object there may be an array of the kind and
  the content.

Arrays and objects may be nested to `maxNesting`. Only what is passed over may be deeper, and only
there may numbers be out of range and strings stand for no text. Where the content comes before the
kind it has to be kept until the kind is known; so nothing in it is passed over unread
(`Json.isReadable`), while a kind in it that stands first in an array may also be given by its
number.
-/

namespace ContentRepository

namespace Json

/-- How deep arrays and objects may be nested. -/
def maxNesting : Nat := 127

mutual

/-- Whether a tree nests its arrays and objects no deeper than `room`, every string in it stands for
a text and every number for a number. -/
def isReadable (room : Nat) : Json → Bool
  | .null | .bool _ => true
  | .number literal => (number? literal).isSome
  | .string content => content.isSome
  | .array items => 0 < room && areReadable (room - 1) items
  | .object members => 0 < room && areReadableMembers (room - 1) members

def areReadable (room : Nat) : List Json → Bool
  | [] => true
  | item :: rest => isReadable room item && areReadable room rest

def areReadableMembers (room : Nat) : List (Option String × Json) → Bool
  | [] => true
  | (key, value) :: rest =>
    key.isSome && isReadable room value && areReadableMembers room rest

end

end Json

namespace Value

/-- Doubles in JSON: positional for exponents from -5 to 15; a tie goes to the even digit. -/
def jsonDoubles : Layout :=
  { tie := .toEven
    leastPositional := -5
    greatestPositional := 15
    signedExponent := true
    nanText := "null"
    infinityText := "null"
    negativeInfinityText := "null" }

/-- The kinds of values as they are named in JSON. -/
inductive Kind where
  | string
  | long
  | double
  | boolean
  | date
  | reference
  | array
  | object
deriving DecidableEq

namespace Kind

/-- The kinds in the order of their numbers, from zero. -/
def every : List Kind := [.string, .long, .double, .boolean, .date, .reference, .array, .object]

def title : Kind → String
  | .string => "string"
  | .long => "long"
  | .double => "double"
  | .boolean => "boolean"
  | .date => "date"
  | .reference => "reference"
  | .array => "array"
  | .object => "object"

def ofTitle? (title : String) : Option Kind := every.find? fun k => k.title == title

/-- The kind given in the first place of an array: by its name or, in content that was kept, by its
number. -/
def ofItem? (kept : Bool) : Json → Option Kind
  | .string (some title) => ofTitle? title
  | .number literal =>
    match Json.number? literal with
    | some (.integer n) => if kept && 0 ≤ n then every[n.toNat]? else none
    | _ => none
  | _ => none

/-- The kind given by a member of an object: by its name, or by an object with the name as its only
key, to which nothing is attached. -/
def ofMember? (kept : Bool) : Json → Option Kind
  | .string (some title) => ofTitle? title
  | .object [(some title, .null)] => ofTitle? title
  | .object [(some title, .object [])] => if kept then ofTitle? title else none
  | _ => none

end Kind

/-- The JSON form of a value with its kind. -/
def tagged (kind : Kind) (content : Json) : Json :=
  .ofMembers [("type", .text kind.title), ("value", content)]

mutual

/-- The JSON form of a value. -/
def toJson : Value → Json
  | .string text => tagged .string (.text text)
  | .long n => tagged .long (.ofInt n.toInt)
  | .double d => tagged .double (.number (jsonDoubles.write d))
  | .boolean b => tagged .boolean (.bool b)
  | .date t => tagged .date (.text t.write)
  | .reference id => tagged .reference (.text id)
  | .array items => tagged .array (.array (itemsToJson items))
  | .object fields => tagged .object (.object (fieldsToJson fields))

def itemsToJson : List Value → List Json
  | [] => []
  | item :: rest => toJson item :: itemsToJson rest

/-- The members of an object of values, named by the fields. -/
def fieldsToJson : List (String × Value) → List (Option String × Json)
  | [] => []
  | (key, value) :: rest => (some key, toJson value) :: fieldsToJson rest

end

/-- Where the kind and the content of a value stand. -/
structure Tagging where
  kind : Kind
  content : Json
  /-- Whether the content was kept until the kind was known. -/
  kept : Bool

/-- Finds kind and content among the members of an object. Each must be there once, and every key
must stand for a text. -/
def Tagging.ofMembers? (kept : Bool) (room : Nat) (members : List (Option String × Json)) :
    Option Tagging :=
  if members.all (·.1.isSome) then
    match members.filter fun m => m.1 == some "type" || m.1 == some "value" with
    | [(some "type", kind), (some "value", content)] => do
      -- a kind given by an object takes a level of nesting itself
      if let .object _ := kind then guard (0 < room)
      return ⟨← Kind.ofMember? kept kind, content, kept⟩
    | [(some "value", content), (some "type", kind)] => do
      guard (content.isReadable room)
      if let .object _ := kind then guard (0 < room)
      return ⟨← Kind.ofMember? kept kind, content, true⟩
    | _ => none
  else none

/-- The kind and the content in one level of nesting. -/
def Tagging.find? (kept : Bool) (room : Nat) : Json → Option Tagging
  | .array [kind, content] => do return ⟨← Kind.ofItem? kept kind, content, kept⟩
  | .object members => Tagging.ofMembers? kept room members
  | _ => none

mutual

/-- Reads a value that may nest arrays and objects to the given depth. -/
def ofJsonWithin? (room : Nat) (kept : Bool) (json : Json) : Option Value :=
  match room with
  | 0 => none
  | room + 1 => do
    let tagging ← Tagging.find? kept room json
    match tagging.kind, tagging.content with
    | .string, .string content => return .string (← content)
    | .reference, .string content => return .reference (← content)
    | .date, .string content => return .date (← content.bind Stamp.readLenient?)
    | .boolean, .bool b => return .boolean b
    | .long, .number literal => return .long (← Json.long? literal)
    | .double, .number literal => return .double (← Json.double? literal)
    | .array, .array items => return .array (← itemsOfJson? room tagging.kept items)
    | .object, .object members => return .ofFields (← fieldsOfJson? room tagging.kept members)
    | _, _ => none

/-- Reads the items of an array. -/
def itemsOfJson? (room : Nat) (kept : Bool) (items : List Json) : Option (List Value) :=
  match room with
  | 0 => none
  | room + 1 => items.mapM (ofJsonWithin? room kept)

/-- Reads the members of an object whose values are values. -/
def fieldsOfJson? (room : Nat) (kept : Bool) (members : List (Option String × Json)) :
    Option (List (String × Value)) :=
  match room with
  | 0 => none
  | room + 1 => members.mapM fun (key, json) => do
    return (← key, ← ofJsonWithin? room kept json)

end

/-- Reads the JSON form of a value. -/
def ofJson? (json : Json) : Option Value := ofJsonWithin? Json.maxNesting false json

/-- The value written by a text. -/
def read? (text : String) : Option Value := (Json.read? text).bind ofJson?

/-- The text of a value. -/
def write (value : Value) : String := value.toJson.write

end Value

end ContentRepository
