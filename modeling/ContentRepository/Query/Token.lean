import ContentRepository.Number.Layout
import ContentRepository.Query.Expression
import ContentRepository.Text.Quoted

/-!
# Tokens of the predicate language

A predicate is read as a sequence of tokens. `Token.describe` is how messages name a token.
-/

namespace ContentRepository.Query

/-- The words with a meaning of their own, in any letter case. -/
inductive Keyword where
  | and
  | or
  | not
  | in
  | like
  | is
  | null
  | contains
  | true
  | false
  | date
  | ref
deriving DecidableEq

namespace Keyword

/-- The keyword as messages name it. -/
def title : Keyword → String
  | .and => "And"
  | .or => "Or"
  | .not => "Not"
  | .in => "In"
  | .like => "Like"
  | .is => "Is"
  | .null => "Null"
  | .contains => "Contains"
  | .true => "True"
  | .false => "False"
  | .date => "Date"
  | .ref => "Ref"

/-- The keyword in capitals, as it is written. -/
def spelling (k : Keyword) : List Char := k.title.toList.map Char.toUpper

def every : List Keyword :=
  [.and, .or, .not, .in, .like, .is, .null, .contains, .true, .false, .date, .ref]

/-- The keyword that a word spells. Only the case of the letters a to z is disregarded. -/
def ofWord? (word : List Char) : Option Keyword :=
  every.find? fun k => k.spelling == word.map Char.toUpper

end Keyword

/-- The relation as messages name it. -/
def Relation.title : Relation → String
  | .eq => "Eq"
  | .ne => "NotEq"
  | .lt => "Lt"
  | .le => "Le"
  | .gt => "Gt"
  | .ge => "Ge"

/-- A piece of a predicate. -/
inductive Token where
  /-- The name of a field. -/
  | field (name : String)
  | keyword (k : Keyword)
  | text (content : String)
  | long (n : Int64)
  | double (d : Binary64)
  | relation (r : Relation)
  | leftParen
  | rightParen
  | comma
deriving DecidableEq

namespace Token

/-- Doubles in messages: positional for exponents from -4 to 15; a tie goes up. -/
def doubles : Layout :=
  { tie := .up
    leastPositional := -4
    greatestPositional := 15
    signedExponent := false
    nanText := "NaN"
    infinityText := "inf"
    negativeInfinityText := "-inf" }

/-- The token as messages name it. -/
def describe : Token → String
  | .field name => "Ident(" ++ Text.quoted name ++ ")"
  | .keyword k => "Keyword(" ++ k.title ++ ")"
  | .text content => "Str(" ++ Text.quoted content ++ ")"
  | .long n => "Long(" ++ toString n.toInt ++ ")"
  | .double d => "Double(" ++ doubles.write d ++ ")"
  | .relation r => "Op(" ++ r.title ++ ")"
  | .leftParen => "LParen"
  | .rightParen => "RParen"
  | .comma => "Comma"

end Token

end ContentRepository.Query
