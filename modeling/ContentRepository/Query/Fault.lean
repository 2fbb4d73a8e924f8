import ContentRepository.Query.Token
import ContentRepository.Time.Stamp

/-!
# What can be wrong with a query

A `Fault` is the reason why a predicate or an ordering cannot be read or evaluated.
-/

namespace ContentRepository.Query

/-- Why a query was refused. -/
inductive Fault where
  /-- An exclamation mark without an equals sign. -/
  | loneExclamation
  | unterminatedText
  | unexpectedCharacter (c : Char)
  | invalidNumber (text : String)
  /-- Something definite was needed and another token, or the end, was found. -/
  | expected (what : String) (found : Option Token)
  /-- The token after a field is no operator. -/
  | expectedOperator (field : String) (found : Option Token)
  | expectedInOrLike
  | likeNeedsText
  | dateNeedsText
  | refNeedsText
  | invalidDate (text : String) (cause : StampFault)
  /-- A token is left after the predicate. -/
  | trailing (token : Token)
  | nestedTooDeeply
  /-- An order comparison with an array or object. -/
  | unorderable (field : String)
  /-- A clause of an ordering has no field. -/
  | emptyKey
  | unknownDirection (word : String)
  /-- A clause of an ordering goes on after the direction. -/
  | unexpectedWord (word : String)
deriving DecidableEq

/-- The token that was found, or the end. -/
def describeFound : Option Token → String
  | some token => token.describe
  | none => "end of input"

/-- The wording of a fault. -/
def Fault.message : Fault → String
  | .loneExclamation => "expected '=' after '!'"
  | .unterminatedText => "unterminated string literal"
  | .unexpectedCharacter c => "unexpected character '" ++ c.toString ++ "'"
  | .invalidNumber text => "invalid number '" ++ text ++ "'"
  | .expected what found => "expected " ++ what ++ ", found " ++ describeFound found
  | .expectedOperator field found =>
    "expected an operator after " ++ field ++ ", found " ++
      match found with
      | some token => "Some(" ++ token.describe ++ ")"
      | none => "None"
  | .expectedInOrLike => "expected IN or LIKE after NOT"
  | .likeNeedsText => "LIKE needs a string pattern"
  | .dateNeedsText => "DATE needs a string"
  | .refNeedsText => "REF needs a string"
  | .invalidDate text cause => "invalid date '" ++ text ++ "': " ++ cause.message
  | .trailing token => "unexpected trailing " ++ token.describe
  | .nestedTooDeeply => "expression nested too deeply"
  | .unorderable field => "cannot order " ++ field ++ " against a non-scalar value"
  | .emptyKey => "empty ORDER BY key"
  | .unknownDirection word => "unknown sort direction '" ++ word ++ "'"
  | .unexpectedWord word => "unexpected '" ++ word ++ "' in ORDER BY"

end ContentRepository.Query
