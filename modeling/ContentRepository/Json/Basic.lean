/-!
# JSON texts as trees

A `Json` is what a JSON text says, before anything is asked of it. It keeps what a later reader may
object to: the literal of a number whatever its size, string literals that stand for no text, every
member of an object in its place, and any depth.
-/

namespace ContentRepository

/-- The content of a JSON text. -/
inductive Json where
  | null
  | bool (b : Bool)
  /-- A number, as it is written. -/
  | number (literal : String)
  /-- A string literal. It has no content if an escape in it is half of a surrogate pair without its
  other half. -/
  | string (content : Option String)
  | array (items : List Json)
  /-- The members in the order in which they are written. -/
  | object (members : List (Option String × Json))
deriving Inhabited

namespace Json

/-- The string literal with the given content. -/
def text (content : String) : Json := .string (some content)

/-- The object with the given members. -/
def ofMembers (members : List (String × Json)) : Json :=
  .object (members.map fun (key, value) => (some key, value))

/-- The number that is an integer. -/
def ofInt (n : Int) : Json := .number (toString n)

end Json

end ContentRepository
