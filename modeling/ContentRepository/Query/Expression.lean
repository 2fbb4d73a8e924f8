import ContentRepository.Document.Basic
import ContentRepository.Query.Like
import ContentRepository.Value.Order

/-!
# Predicates on documents

An `Expression` is a truth value of one document. Comparisons with an absent field are false, so
`NOT (a = 1)` holds of a document without `a` where `a <> 1` does not.

* **`Expression.holds`** evaluates an expression (`matches`).
* **`Expression.unorderable?`** finds what keeps an expression from being evaluated: an order
  comparison with an array or object (`validate`).
* **`Expression.both`**, **`Expression.either`** and **`Expression.negated`** combine expressions.
-/

namespace ContentRepository.Query

/-- How a field is compared with a value. -/
inductive Relation where
  | eq
  | ne
  | lt
  | le
  | gt
  | ge
deriving DecidableEq

/-- Whether the relation asks for an order. -/
def Relation.isOrder : Relation → Bool
  | .eq | .ne => false
  | _ => true

/-- Whether a comparison that comes out as given satisfies the relation. -/
def Relation.accepts : Relation → Ordering → Bool
  | .eq, o => o == .eq
  | .ne, o => o != .eq
  | .lt, o => o == .lt
  | .le, o => o != .gt
  | .gt, o => o == .gt
  | .ge, o => o != .lt

/-- A predicate on documents. -/
inductive Expression where
  | constant (b : Bool)
  /-- The field is present and stands in the relation to the value. -/
  | compares (field : String) (relation : Relation) (value : Value)
  /-- The field equals one of the values. -/
  | isOneOf (field : String) (values : List Value)
  /-- The field holds an array with this item. -/
  | lists (field : String) (item : Value)
  /-- The field holds a text that matches the pattern. -/
  | isLike (field : String) (pattern : String)
  | isNull (field : String)
  | isNotNull (field : String)
  /-- All operands hold. -/
  | all (operands : List Expression)
  /-- At least one operand holds. -/
  | any (operands : List Expression)
  | not (operand : Expression)
deriving Inhabited

namespace Expression

/-- The conjunction with one more expression. A conjunction takes it in as its last operand. -/
def both (a b : Expression) : Expression :=
  match a with
  | .all operands => .all (operands ++ [b])
  | _ => .all [a, b]

/-- The disjunction with one more expression. A disjunction takes it in as its last operand. -/
def either (a b : Expression) : Expression :=
  match a with
  | .any operands => .any (operands ++ [b])
  | _ => .any [a, b]

def negated (a : Expression) : Expression := .not a

/-- Whether a present value stands in the relation to another. Equality is exact in the kind;
order relations hold only between scalars of one kind. -/
def related (value : Value) (relation : Relation) (other : Value) : Bool :=
  match relation with
  | .eq => value.equals other
  | .ne => !value.equals other
  | order => (value.compareScalar? other).any order.accepts

mutual

/-- Whether the expression holds of a document. -/
def holds (d : Document) : Expression → Bool
  | .constant b => b
  | .compares field relation value => (d.get? field).any (related · relation value)
  | .isOneOf field values => (d.get? field).any fun v => values.any v.equals
  | .lists field item => d.listed field item
  | .isLike field pattern => (d.string? field).any (like · pattern)
  | .isNull field => !d.contains field
  | .isNotNull field => d.contains field
  | .all operands => allHold d operands
  | .any operands => anyHolds d operands
  | .not operand => !holds d operand

/-- Whether all of the expressions hold. -/
def allHold (d : Document) : List Expression → Bool
  | [] => true
  | e :: rest => holds d e && allHold d rest

/-- Whether one of the expressions holds. -/
def anyHolds (d : Document) : List Expression → Bool
  | [] => false
  | e :: rest => holds d e || anyHolds d rest

end

mutual

/-- The field of the first order comparison with an array or object. -/
def unorderable? : Expression → Option String
  | .compares field relation value =>
    if relation.isOrder && !value.isScalar then some field else none
  | .all operands | .any operands => firstUnorderable? operands
  | .not operand => unorderable? operand
  | _ => none

def firstUnorderable? : List Expression → Option String
  | [] => none
  | e :: rest => (unorderable? e).or (firstUnorderable? rest)

end

end Expression

end ContentRepository.Query
