import ContentRepository.Json.Basic

/-!
# Reading JSON

`Json.read?` reads a text by the grammar of JSON and nothing more: there is no bound on depth or on
the size of numbers, and `\u` escapes need not form characters.
-/

namespace ContentRepository.Json

/-- A reader takes characters from the front of the text, or fails. -/
abbrev Reader := StateT (List Char) Option

/-- The white space of JSON. -/
def isSpace (c : Char) : Bool := c ∈ [' ', '\n', '\r', '\t']

def skipSpace : Reader Unit := modify (List.dropWhile isSpace)

/-- Takes the given characters. -/
def word : List Char → Reader Unit
  | [] => return ()
  | c :: rest => fun
    | d :: text => if d = c then (word rest).run text else none
    | [] => none

/-- The next character, which stays. -/
def peek? : Reader (Option Char) := fun text => some (text.head?, text)

/-- The value of a hexadecimal digit. -/
def hexDigit? (c : Char) : Option Nat :=
  if c.isDigit then some (c.toNat - '0'.toNat)
  else if 'a' ≤ c ∧ c ≤ 'f' then some (c.toNat - 'a'.toNat + 10)
  else if 'A' ≤ c ∧ c ≤ 'F' then some (c.toNat - 'A'.toNat + 10)
  else none

/-- The number written by four hexadecimal digits. -/
def hexUnit? (a b c d : Char) : Option Nat := do
  let a ← hexDigit? a
  let b ← hexDigit? b
  let c ← hexDigit? c
  let d ← hexDigit? d
  return ((a * 16 + b) * 16 + c) * 16 + d

/-- The character of an escape with one letter. -/
def simpleEscape? (c : Char) : Option Char :=
  match c with
  | '"' => some '"'
  | '\\' => some '\\'
  | '/' => some '/'
  | 'b' => some '\x08'
  | 'f' => some '\x0c'
  | 'n' => some '\n'
  | 'r' => some '\r'
  | 't' => some '\t'
  | _ => none

/-- The rest of a string literal: its code points and surrogates, after those already found, which
are given in reverse; and the text after the closing quote. -/
def literalUnits (found : List Nat) : List Char → Option (List Nat × List Char)
  | '"' :: rest => some (found.reverse, rest)
  | '\\' :: 'u' :: a :: b :: c :: d :: rest =>
    (hexUnit? a b c d).bind fun unit => literalUnits (unit :: found) rest
  | '\\' :: c :: rest => (simpleEscape? c).bind fun c => literalUnits (c.toNat :: found) rest
  | c :: rest => if c.toNat < 0x20 ∨ c = '\\' then none else literalUnits (c.toNat :: found) rest
  | [] => none

/-- The characters of code points and surrogate pairs; none if a surrogate stands alone. -/
def joinSurrogates : List Nat → Option (List Char)
  | [] => some []
  | high :: rest =>
    if 0xD800 ≤ high ∧ high < 0xDC00 then
      match rest with
      | low :: rest =>
        if 0xDC00 ≤ low ∧ low < 0xE000 then
          (joinSurrogates rest).map
            (Char.ofNat (0x10000 + (high - 0xD800) * 0x400 + (low - 0xDC00)) :: ·)
        else none
      | [] => none
    else if 0xDC00 ≤ high ∧ high < 0xE000 then none
    else (joinSurrogates rest).map (Char.ofNat high :: ·)

/-- A string literal after its opening quote. -/
def stringLiteral : Reader (Option String) := fun text =>
  (literalUnits [] text).map fun (units, rest) => ((joinSurrogates units).map String.ofList, rest)

/-- A run of at least one digit. -/
def digits : Reader (List Char) := fun text =>
  match text.takeWhile Char.isDigit with
  | [] => none
  | run => some (run, text.dropWhile Char.isDigit)

/-- The digits before the point: a zero stands alone. -/
def wholeDigits : Reader (List Char) := fun
  | '0' :: rest => some (['0'], rest)
  | text => digits text

/-- The point and the digits after it, if there is a point. -/
def fractionDigits : Reader (List Char) := fun
  | '.' :: rest => (digits rest).map fun (run, rest) => ('.' :: run, rest)
  | text => some ([], text)

/-- The exponent with its letter and sign, if there is one. -/
def exponentDigits : Reader (List Char) := fun
  | c :: rest =>
    if c = 'e' ∨ c = 'E' then
      match rest with
      | s :: rest' =>
        if s = '+' ∨ s = '-' then (digits rest').map fun (run, rest) => (c :: s :: run, rest)
        else (digits rest).map fun (run, rest) => (c :: run, rest)
      | [] => none
    else some ([], c :: rest)
  | [] => some ([], [])

/-- The literal of a number. -/
def numberLiteral : Reader String := do
  let negative := (← peek?) = some '-'
  if negative then word ['-']
  let whole ← wholeDigits
  let fraction ← fractionDigits
  let exponent ← exponentDigits
  return String.ofList ((if negative then ['-'] else []) ++ whole ++ fraction ++ exponent)

mutual

/-- A value in at most `steps` nested or successive parts. -/
def value : Nat → Reader Json
  | 0 => failure
  | steps + 1 => do
    skipSpace
    match ← peek? with
    | some 'n' => do word "null".toList; return .null
    | some 't' => do word "true".toList; return .bool true
    | some 'f' => do word "false".toList; return .bool false
    | some '"' => do
      word ['"']
      return .string (← stringLiteral)
    | some '[' => do
      word ['[']
      skipSpace
      if (← peek?) = some ']' then
        word [']']
        return .array []
      return .array (← items steps)
    | some '\x7b' => do
      word ['\x7b']
      skipSpace
      if (← peek?) = some '\x7d' then
        word ['\x7d']
        return .object []
      return .object (← members steps)
    | _ => return .number (← numberLiteral)

/-- The items up to the closing bracket. -/
def items : Nat → Reader (List Json)
  | 0 => failure
  | steps + 1 => do
    let item ← value steps
    skipSpace
    if (← peek?) = some ',' then
      word [',']
      return item :: (← items steps)
    word [']']
    return [item]

/-- The members up to the closing brace. -/
def members : Nat → Reader (List (Option String × Json))
  | 0 => failure
  | steps + 1 => do
    skipSpace
    word ['"']
    let key ← stringLiteral
    skipSpace
    word [':']
    let item ← value steps
    skipSpace
    if (← peek?) = some ',' then
      word [',']
      return (key, item) :: (← members steps)
    word ['\x7d']
    return [(key, item)]

end

/-- Reads a whole text; white space may stand around the value. Every part takes a character, so
the length of the text bounds the parts. -/
def read? (text : String) : Option Json := do
  let chars := text.toList
  let (json, rest) ← (value (2 * chars.length + 2)).run chars
  if rest.all isSpace then some json else none

end ContentRepository.Json
