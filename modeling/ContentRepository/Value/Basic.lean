import ContentRepository.Number.Binary64
import ContentRepository.Table
import ContentRepository.Time.Instant

/-!
# Field values

A `Value` is what one field of a document holds: a scalar of one of six kinds, an array of values,
or an object. The kinds are never mixed up: the integer one is not the double one, and a text is
not a reference to the document of that name.

* **`Value.equals`** is equality of content. It is exact in the kind, and numeric on doubles, so a
  NaN equals nothing and the two zeros are equal.
* **`Value.compareTotal`** (in `Value.Order`) orders all values, doubles by their words.

The fields of an object stand in ascending order of their keys, each key once (`Value.IsCanonical`);
`Value.ofFields` brings any fields into this form, and every reader of values produces it.
-/

namespace ContentRepository

/-- What a field of a document holds. -/
inductive Value where
  | boolean (b : Bool)
  /-- A signed 64-bit integer. -/
  | long (n : Int64)
  | double (d : Binary64)
  | string (text : String)
  /-- The id of another document. -/
  | reference (id : String)
  | date (t : Instant)
  | array (items : List Value)
  /-- Named values, in ascending order of their names. -/
  | object (fields : List (String × Value))
deriving Inhabited

namespace Value

/-- The array of references to the given ids. -/
def references (ids : List String) : Value := .array (ids.map .reference)

/-- The object with the given fields; of two with one key the later stays. -/
def ofFields (fields : List (String × Value)) : Value := .object (Table.ofList fields).entries

/-- Everything but arrays and objects. -/
def isScalar : Value → Bool
  | .array _ | .object _ => false
  | _ => true

/-- The kinds in their order; the two kinds of numbers count as one. -/
def rank : Value → Nat
  | .boolean _ => 0
  | .long _ | .double _ => 1
  | .string _ => 2
  | .reference _ => 3
  | .date _ => 4
  | .array _ => 5
  | .object _ => 6

def string? : Value → Option String
  | .string text => some text
  | _ => none

def reference? : Value → Option String
  | .reference id => some id
  | _ => none

def long? : Value → Option Int64
  | .long n => some n
  | _ => none

/-- The number as a double; integers are rounded to the nearest one. -/
def double? : Value → Option Binary64
  | .double d => some d
  | .long n => some (.ofInt n.toInt)
  | _ => none

def boolean? : Value → Option Bool
  | .boolean b => some b
  | _ => none

def date? : Value → Option Instant
  | .date t => some t
  | _ => none

def array? : Value → Option (List Value)
  | .array items => some items
  | _ => none

def object? : Value → Option (List (String × Value))
  | .object fields => some fields
  | _ => none

mutual

/-- Equality of content, exact in the kind. Doubles are compared as numbers. -/
def equals : Value → Value → Bool
  | .boolean a, .boolean b => a == b
  | .long a, .long b => a == b
  | .double a, .double b => a.sameNumber b
  | .string a, .string b => a == b
  | .reference a, .reference b => a == b
  | .date a, .date b => a == b
  | .array a, .array b => equalItems a b
  | .object a, .object b => equalFields a b
  | _, _ => false

def equalItems : List Value → List Value → Bool
  | [], [] => true
  | a :: as, b :: bs => equals a b && equalItems as bs
  | _, _ => false

def equalFields : List (String × Value) → List (String × Value) → Bool
  | [], [] => true
  | (k, a) :: as, (l, b) :: bs => k == l && equals a b && equalFields as bs
  | _, _ => false

end

mutual

/-- Whether the fields of every object, at every depth, stand in ascending order of their keys. -/
def IsCanonical : Value → Prop
  | .array items => CanonicalItems items
  | .object fields => CanonicalFields fields ∧ fields.Pairwise fun a b => a.1 < b.1
  | _ => True

def CanonicalItems : List Value → Prop
  | [] => True
  | v :: rest => IsCanonical v ∧ CanonicalItems rest

def CanonicalFields : List (String × Value) → Prop
  | [] => True
  | (_, v) :: rest => IsCanonical v ∧ CanonicalFields rest

end

end Value

end ContentRepository
