import ContentRepository.Query.Parse

/-!
# The grammar of predicates

The rules by which sequences of tokens derive expressions, independently of how they are read. A
derivation records its depth: how many groups and prefix negations are open at once at most.

* **`Grammar.Literal`**, **`Grammar.Predicate`** — what stands at the leaves of a derivation.
* **`Grammar.Unary`** and **`Grammar.Joined`** — the rules that nest. Conjunctions and disjunctions
  follow one rule, with another connective and other operands.
* **`Grammar.Derives`** — a whole sequence of tokens is a disjunction.
-/

namespace ContentRepository.Query.Grammar

/-- The tokens of a constant, and its value. -/
inductive Literal : List Token → Value → Prop where
  | text (content : String) : Literal [.text content] (.string content)
  | long (n : Int64) : Literal [.long n] (.long n)
  | double (d : Binary64) : Literal [.double d] (.double d)
  | true : Literal [.keyword .true] (.boolean true)
  | false : Literal [.keyword .false] (.boolean false)
  | date {stamp : String} {t : Instant} (hread : Stamp.read stamp = .ok t) :
      Literal [.keyword .date, .text stamp] (.date t)
  | ref (id : String) : Literal [.keyword .ref, .text id] (.reference id)

/-- Items one after another, with separators between them. There is at least one. -/
inductive Listed {α : Type} (separator : Token) (Item : List Token → α → Prop) :
    List Token → List α → Prop where
  | last {ts : List Token} {a : α} (hitem : Item ts a) : Listed separator Item ts [a]
  | more {ts rest : List Token} {a : α} {as : List α} (hitem : Item ts a)
      (hrest : Listed separator Item rest as) :
      Listed separator Item (ts ++ separator :: rest) (a :: as)

/-- The list of values after `IN`. Its parentheses are no group. -/
inductive Values : List Token → List Value → Prop where
  | parenthesised {ts : List Token} {values : List Value} (hlist : Listed .comma Literal ts values) :
      Values (.leftParen :: ts ++ [.rightParen]) values

/-- What is said of a field. -/
inductive Predicate (field : String) : List Token → Expression → Prop where
  | compares (r : Relation) {ts : List Token} {value : Value} (hvalue : Literal ts value) :
      Predicate field (.relation r :: ts) (.compares field r value)
  | isNull : Predicate field [.keyword .is, .keyword .null] (.isNull field)
  | isNotNull : Predicate field [.keyword .is, .keyword .not, .keyword .null] (.isNotNull field)
  | isOneOf {ts : List Token} {values : List Value} (hvalues : Values ts values) :
      Predicate field (.keyword .in :: ts) (.isOneOf field values)
  | isNotOneOf {ts : List Token} {values : List Value} (hvalues : Values ts values) :
      Predicate field (.keyword .not :: .keyword .in :: ts) (.not (.isOneOf field values))
  | isLike (pattern : String) :
      Predicate field [.keyword .like, .text pattern] (.isLike field pattern)
  | isNotLike (pattern : String) :
      Predicate field [.keyword .not, .keyword .like, .text pattern] (.not (.isLike field pattern))
  | lists {ts : List Token} {item : Value} (hitem : Literal ts item) :
      Predicate field (.keyword .contains :: ts) (.lists field item)

/-- What joins operands. -/
inductive Connective where
  | and
  | or

/-- The token between operands. -/
def Connective.token : Connective → Token
  | .and => .keyword .and
  | .or => .keyword .or

/-- The node with all operands. -/
def Connective.node : Connective → List Expression → Expression
  | .and => .all
  | .or => .any

mutual

/-- A constant, a predicate, a negation or a group. -/
inductive Unary : List Token → Expression → Nat → Prop where
  | true : Unary [.keyword .true] (.constant true) 0
  | false : Unary [.keyword .false] (.constant false) 0
  | predicate {field : String} {ts : List Token} {e : Expression}
      (hpredicate : Predicate field ts e) : Unary (.field field :: ts) e 0
  | not {ts : List Token} {e : Expression} {depth : Nat} (hoperand : Unary ts e depth) :
      Unary (.keyword .not :: ts) (.not e) (depth + 1)
  | group {ts : List Token} {e : Expression} {depth : Nat} (hinner : Joined .or ts e depth) :
      Unary (.leftParen :: ts ++ [.rightParen]) e (depth + 1)

/-- Conjunctions are made of unary expressions, disjunctions of conjunctions. -/
inductive Operand : Connective → List Token → Expression → Nat → Prop where
  | unary {ts : List Token} {e : Expression} {depth : Nat} (hunary : Unary ts e depth) :
      Operand .and ts e depth
  | conjunction {ts : List Token} {e : Expression} {depth : Nat} (hjoined : Joined .and ts e depth) :
      Operand .or ts e depth

/-- Operands with the connective between them. -/
inductive Operands : Connective → List Token → List Expression → Nat → Prop where
  | last {c : Connective} {ts : List Token} {e : Expression} {depth : Nat}
      (hoperand : Operand c ts e depth) : Operands c ts [e] depth
  | more {c : Connective} {ts rest : List Token} {e : Expression} {es : List Expression}
      {depth depth' : Nat} (hoperand : Operand c ts e depth) (hrest : Operands c rest es depth') :
      Operands c (ts ++ c.token :: rest) (e :: es) (max depth depth')

/-- One operand stands for itself; more make a single node. -/
inductive Joined : Connective → List Token → Expression → Nat → Prop where
  | single {c : Connective} {ts : List Token} {e : Expression} {depth : Nat}
      (hoperands : Operands c ts [e] depth) : Joined c ts e depth
  | node {c : Connective} {ts : List Token} {es : List Expression} {depth : Nat}
      (hoperands : Operands c ts es depth) (hmany : 2 ≤ es.length) : Joined c ts (c.node es) depth

end

/-- The tokens derive the expression, with so many groups and prefix negations open at most. -/
abbrev Derives (tokens : List Token) (e : Expression) (depth : Nat) : Prop :=
  Joined .or tokens e depth

/-- A list of operands below a depth is a list of operands each below it. -/
theorem listed_operand_iff {c : Connective} {bound : Nat} {ts : List Token}
    {es : List Expression} :
    Listed c.token (fun ts e => ∃ depth < bound, Operand c ts e depth) ts es ↔
      ∃ depth < bound, Operands c ts es depth := by
  constructor
  · -- a list of operands has the depth of the deepest of them
    intro h
    induction h with
    | last hitem =>
      obtain ⟨depth, hlt, hoperand⟩ := hitem
      exact ⟨depth, hlt, .last hoperand⟩
    | more hitem _ ih =>
      obtain ⟨depth, hlt, hoperand⟩ := hitem
      obtain ⟨depth', hlt', hrest⟩ := ih
      exact ⟨max depth depth', Nat.max_lt.2 ⟨hlt, hlt'⟩, .more hoperand hrest⟩
  · rintro ⟨depth, hlt, h⟩
    induction es generalizing ts depth with
    | nil => cases h
    | cons e es ih =>
      -- and each of them is no deeper than the list
      cases h with
      | last hoperand => exact .last ⟨depth, hlt, hoperand⟩
      | more hoperand hrest =>
        obtain ⟨hfirst, hothers⟩ := Nat.max_lt.1 hlt
        exact .more ⟨_, hfirst, hoperand⟩ (ih _ hothers hrest)

end ContentRepository.Query.Grammar
