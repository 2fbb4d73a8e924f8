import ContentRepository.Json.Basic

/-!
# Writing JSON

The compact form: no white space, members in their order. In strings quotes, backslashes and
control characters are escaped, and nothing else is.
-/

namespace ContentRepository.Json

/-- How a character is written in a string literal. -/
def escape (c : Char) : List Char :=
  match c with
  | '"' => ['\\', '"']
  | '\\' => ['\\', '\\']
  | '\n' => ['\\', 'n']
  | '\r' => ['\\', 'r']
  | '\t' => ['\\', 't']
  | '\x08' => ['\\', 'b']
  | '\x0c' => ['\\', 'f']
  | _ =>
    if c.toNat < 0x20 then
      let digits := Nat.toDigits 16 c.toNat
      ['\\', 'u'] ++ List.replicate (4 - digits.length) '0' ++ digits
    else [c]

/-- The literal of a text. -/
def writeText (content : String) : String :=
  "\"" ++ String.ofList (content.toList.flatMap escape) ++ "\""

/-- A literal without content is written as the empty one. -/
def writeContent (content : Option String) : String := writeText (content.getD "")

mutual

/-- The text of a tree. -/
def write : Json → String
  | .null => "null"
  | .bool b => if b then "true" else "false"
  | .number literal => literal
  | .string content => writeContent content
  | .array items => "[" ++ writeItems items ++ "]"
  | .object members => "\x7b" ++ writeMembers members ++ "\x7d"

/-- Items with commas between them. -/
def writeItems : List Json → String
  | [] => ""
  | [item] => write item
  | item :: next :: rest => write item ++ "," ++ writeItems (next :: rest)

/-- Members with commas between them. -/
def writeMembers : List (Option String × Json) → String
  | [] => ""
  | [(key, value)] => writeContent key ++ ":" ++ write value
  | (key, value) :: next :: rest =>
    writeContent key ++ ":" ++ write value ++ "," ++ writeMembers (next :: rest)

end

end ContentRepository.Json
