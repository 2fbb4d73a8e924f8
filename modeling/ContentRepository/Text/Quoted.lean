import ContentRepository.Text.Extending
import ContentRepository.Text.Invisible

/-!
# Quoted text

A text inside messages is put between double quotes. Quotes, backslashes and the usual controls are
escaped with a backslash; characters that would not be seen, or would merge with the character
before them, are written by code point.
-/

namespace ContentRepository.Text

/-- How one character is written between double quotes. -/
def escape (c : Char) : List Char :=
  match c with
  | '\x00' => ['\\', '0']
  | '\t' => ['\\', 't']
  | '\n' => ['\\', 'n']
  | '\r' => ['\\', 'r']
  | '\\' => ['\\', '\\']
  | '"' => ['\\', '"']
  | _ =>
    if isExtending c || isInvisible c then
      ['\\', 'u', '\x7b'] ++ Nat.toDigits 16 c.toNat ++ ['\x7d']
    else [c]

/-- The text between double quotes. -/
def quoted (text : String) : String :=
  String.ofList ('"' :: text.toList.flatMap escape ++ ['"'])

end ContentRepository.Text
