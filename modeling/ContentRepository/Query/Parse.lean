import ContentRepository.Query.Scan

/-!
# From tokens to expressions

```text
disjunction := conjunction ("OR" conjunction)*
conjunction := unary ("AND" unary)*
unary       := "NOT" unary | "(" disjunction ")" | "TRUE" | "FALSE" | predicate
predicate   := field relation literal
             | field "IS" ["NOT"] "NULL"
             | field ["NOT"] "IN" "(" literal ("," literal)* ")"
             | field ["NOT"] "LIKE" text
             | field "CONTAINS" literal
literal     := text | integer | double | "TRUE" | "FALSE" | "DATE" text | "REF" text
```

A chain of one operand is that operand; a longer one is a single node with all its operands. Groups
and prefix negations may be nested to `maxDepth`, which is also what the recursion of
`unary` descends on: each group and each negation has room for one less.
-/

namespace ContentRepository.Query

/-- A parser takes tokens from the front, or finds a fault. -/
abbrev Parser := StateT (List Token) (Except Fault)

namespace Parser

/-- The next token, if there is one. -/
def next? : Parser (Option Token) := fun
  | [] => .ok (none, [])
  | token :: rest => .ok (some token, rest)

/-- Takes the next token if it is the given one. -/
def take? (token : Token) : Parser Bool := fun
  | [] => .ok (false, [])
  | t :: rest => if t = token then .ok (true, rest) else .ok (false, t :: rest)

/-- Takes the given token, which must come next. -/
def demand (token : Token) (what : String) : Parser Unit := do
  let found ← next?
  if found = some token then return () else throw (.expected what found)

/-- The text that must follow, or else the fault. -/
def text (otherwise : Fault) : Parser String := do
  match ← next? with
  | some (.text content) => return content
  | _ => throw otherwise

def literal : Parser Value := do
  match ← next? with
  | some (.text content) => return .string content
  | some (.long n) => return .long n
  | some (.double d) => return .double d
  | some (.keyword .true) => return .boolean true
  | some (.keyword .false) => return .boolean false
  | some (.keyword .date) =>
    let stamp ← text .dateNeedsText
    match Stamp.read stamp with
    | .ok t => return .date t
    | .error cause => throw (.invalidDate stamp cause)
  | some (.keyword .ref) => return .reference (← text .refNeedsText)
  | found => throw (.expected "a literal" found)

/-- Operands read by `operand`, one and then another after each `separator`. There are at most
`more` of them after the first. -/
def chain {α : Type} (separator : Token) (operand : Parser α) : Nat → Parser (List α)
  | 0 => return [← operand]
  | more + 1 => do
    let first ← operand
    if ← take? separator then return first :: (← chain separator operand more)
    else return [first]

/-- All operands up to where no separator follows. As each separator is a token, there are no more
than there are tokens. -/
def separated {α : Type} (separator : Token) (operand : Parser α) : Parser (List α) := fun tokens =>
  chain separator operand tokens.length tokens

/-- The list of values after `IN`. -/
def values : Parser (List Value) := do
  demand .leftParen "'('"
  let values ← separated .comma literal
  demand .rightParen "')'"
  return values

/-- What is said of a field. -/
def predicate (field : String) : Parser Expression := do
  match ← next? with
  | some (.relation r) => return .compares field r (← literal)
  | some (.keyword .is) =>
    let negated ← take? (.keyword .not)
    demand (.keyword .null) "NULL"
    return if negated then .isNotNull field else .isNull field
  | some (.keyword .not) =>
    match ← next? with
    | some (.keyword .in) => return .not (.isOneOf field (← values))
    | some (.keyword .like) => return .not (.isLike field (← text .likeNeedsText))
    | _ => throw .expectedInOrLike
  | some (.keyword .in) => return .isOneOf field (← values)
  | some (.keyword .like) => return .isLike field (← text .likeNeedsText)
  | some (.keyword .contains) => return .lists field (← literal)
  | found => throw (.expectedOperator field found)

/-- A single operand stands for itself. -/
def joined (join : List Expression → Expression) : List Expression → Expression
  | [operand] => operand
  | operands => join operands

/-- Operands joined by `AND`. -/
def conjunction (operand : Parser Expression) : Parser Expression :=
  return joined .all (← separated (.keyword .and) operand)

/-- Conjunctions joined by `OR`. -/
def disjunction (operand : Parser Expression) : Parser Expression :=
  return joined .any (← separated (.keyword .or) (conjunction operand))

/-- A constant, a predicate, or a negation or group whose inside is read by `inner`. -/
def nesting (inner : Parser Expression) : Parser Expression := do
  match ← next? with
  | some (.keyword .not) => return .not (← inner)
  | some .leftParen =>
    let e ← disjunction inner
    demand .rightParen "')'"
    return e
  | some (.keyword .true) => return .constant true
  | some (.keyword .false) => return .constant false
  | some (.field name) => predicate name
  | found => throw (.expected "a predicate" found)

/-- An operand with room for `room` groups and prefix negations inside each other. -/
def unary : Nat → Parser Expression
  | 0 => nesting (throw .nestedTooDeeply)
  | room + 1 => nesting (unary room)

end Parser

/-- How many groups and prefix negations may stand inside each other. -/
def maxDepth : Nat := 256

/-- The expression of a whole sequence of tokens. -/
def Expression.ofTokens (tokens : List Token) : Except Fault Expression := do
  let (e, rest) ← (Parser.disjunction (Parser.unary maxDepth)).run tokens
  match rest with
  | [] => return e
  | token :: _ => throw (.trailing token)

/-- Reads an expression. The text is scanned as a whole before the tokens are looked at. -/
def Expression.parse (text : String) : Except Fault Expression := do
  Expression.ofTokens (← scan text)

end ContentRepository.Query
