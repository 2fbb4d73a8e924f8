import ContentRepository.Query.Fault
import ContentRepository.Text.Alphabetic
import ContentRepository.Text.Blank
import ContentRepository.Text.Numeric

/-!
# From text to tokens

White space separates tokens and is otherwise without meaning. A text literal stands between single
quotes, a quote inside it being written twice. A number is a digit or minus sign with all digits and
points that follow; it is a double if it has a point. A name starts with a letter or underscore.

* **`scan`** (`tokenize`) reads a whole text. The first fault from the left is reported.
-/

namespace ContentRepository.Query

/-- Whether a field name or keyword can start with this character. -/
def startsName (c : Char) : Bool := Text.isAlphabetic c || c == '_'

/-- Whether a field name or keyword can go on with this character. -/
def continuesName (c : Char) : Bool :=
  Text.isAlphabetic c || Text.isNumeric c || c ∈ ['_', ':', '.', '/']

/-- Whether a number can go on with this character. -/
def continuesNumber (c : Char) : Bool := c.isDigit || c == '.'

/-- The content of a text literal after its opening quote, and what follows the closing quote. -/
def literalBody : List Char → Option (List Char × List Char)
  | [] => none
  | '\'' :: '\'' :: rest => (literalBody rest).map fun (body, after) => ('\'' :: body, after)
  | '\'' :: rest => some ([], rest)
  | c :: rest => (literalBody rest).map fun (body, after) => (c :: body, after)

/-- The number written by some digits. -/
def numeral (digits : List Char) : Nat := Stamp.digitsValue digits

/-- The double written with one point and at least one digit. -/
def doubleOf? (negative : Bool) (text : List Char) : Option Binary64 :=
  let whole := text.takeWhile Char.isDigit
  match text.dropWhile Char.isDigit with
  | '.' :: fraction =>
    if fraction.all Char.isDigit && !(whole.isEmpty && fraction.isEmpty) then
      some (.ofDecimal negative (numeral (whole ++ fraction)) (-(fraction.length : Int)))
    else none
  | _ => none

/-- The integer written with at least one digit, if it fits. -/
def longOf? (negative : Bool) (digits : List Char) : Option Int64 :=
  let size : Int := numeral digits
  let n := if negative then -size else size
  if !digits.isEmpty && digits.all Char.isDigit &&
      Int64.minValue.toInt ≤ n && n ≤ Int64.maxValue.toInt then
    some (Int64.ofInt n)
  else none

/-- The token of a number's characters. -/
def numberToken (text : List Char) : Except Fault Token :=
  let (negative, unsigned) := match text with
    | '-' :: rest => (true, rest)
    | _ => (false, text)
  let token := if text.contains '.' then (doubleOf? negative unsigned).map Token.double
    else (longOf? negative unsigned).map Token.long
  token.elim (.error (.invalidNumber (String.ofList text))) .ok

/-- The token of a name's characters: a keyword if it spells one. -/
def wordToken (word : List Char) : Token :=
  match Keyword.ofWord? word with
  | some k => .keyword k
  | none => .field (String.ofList word)

/-- The token that starts with the character `c`, which is not white space, and the text after it.
-/
def firstToken (c : Char) (rest : List Char) : Except Fault (Token × List Char) :=
  match c, rest with
  | '(', _ => .ok (.leftParen, rest)
  | ')', _ => .ok (.rightParen, rest)
  | ',', _ => .ok (.comma, rest)
  | '=', _ => .ok (.relation .eq, rest)
  | '!', '=' :: after => .ok (.relation .ne, after)
  | '!', _ => .error .loneExclamation
  | '<', '=' :: after => .ok (.relation .le, after)
  | '<', '>' :: after => .ok (.relation .ne, after)
  | '<', _ => .ok (.relation .lt, rest)
  | '>', '=' :: after => .ok (.relation .ge, after)
  | '>', _ => .ok (.relation .gt, rest)
  | '\'', _ =>
    match literalBody rest with
    | some (body, after) => .ok (.text (String.ofList body), after)
    | none => .error .unterminatedText
  | _, _ =>
    if c.isDigit || c == '-' then
      (numberToken (c :: rest.takeWhile continuesNumber)).map (·, rest.dropWhile continuesNumber)
    else if startsName c then
      .ok (wordToken (c :: rest.takeWhile continuesName), rest.dropWhile continuesName)
    else .error (.unexpectedCharacter c)

/-- The tokens of a text that is read in at most `steps` steps, after those already found, which are
given in reverse. -/
def scanFrom : Nat → List Token → List Char → Except Fault (List Token)
  | _, found, [] => .ok found.reverse
  | 0, found, _ :: _ => .ok found.reverse
  | steps + 1, found, c :: rest =>
    if Text.isBlank c then scanFrom steps found rest
    else match firstToken c rest with
      | .ok (token, after) => scanFrom steps (token :: found) after
      | .error fault => .error fault

/-- The tokens of a text. Each step takes at least one character, so the text's length bounds
them. -/
def scan (text : String) : Except Fault (List Token) :=
  let chars := text.toList
  scanFrom chars.length [] chars

end ContentRepository.Query
