import ContentRepository.Proofs.Query.Parsing
import ContentRepository.Proofs.Query.Scanning

/-!
# Writing expressions out

An expression is written token by token with single blanks between. Where it is an operand of a
conjunction, disjunction or negation, the style says whether it stands in parentheses; an operand
that is a conjunction or disjunction always does.

* **`Expression.tokens`**, **`Expression.write`** — the written form.
* **`Expression.Writable`** — the expressions that have one: their fields are names, and their
  constants are texts, integers, truth values and references.
* **`derives_tokens`** — the tokens derive the expression.
* **`parse_write`** — what is written out is read back.
-/

namespace ContentRepository.Query

open Grammar

/-! ## The written form -/

/-- Conjunctions and disjunctions, whose keyword stands between their operands. -/
def Expression.isJoined : Expression → Bool
  | .all _ | .any _ => true
  | _ => false

/-- What can be chosen in writing an expression. -/
structure Style where
  /-- The symbol of inequality. -/
  unequal : String
  unequal_symbol : unequal = "<>" ∨ unequal = "!="
  /-- Whether the expression stands in parentheses where it is an operand. -/
  groups : Expression → Bool
  groups_joined : ∀ e, e.isJoined = true → groups e = true

/-- No parentheses but those that are needed. -/
def Style.sparing : Style where
  unequal := "<>"
  unequal_symbol := .inl rfl
  groups := Expression.isJoined
  groups_joined _ h := h

section Written

variable (style : Style)

/-- The token as it is written. -/
def Token.word : Token → String
  | .field name => name
  | .keyword k => String.ofList k.spelling
  | .text content => String.ofList (quotedChars content.toList)
  | .long n => toString n.toInt
  | .double d => doubles.write d
  | .relation .ne => style.unequal
  | .relation r => r.symbol
  | .leftParen => "("
  | .rightParen => ")"
  | .comma => ","

/-- The tokens of a constant. Arrays and objects have none. -/
def literalTokens : Value → List Token
  | .boolean b => [.keyword (if b then .true else .false)]
  | .long n => [.long n]
  | .double d => [.double d]
  | .string content => [.text content]
  | .reference id => [.keyword .ref, .text id]
  | .date t => [.keyword .date, .text t.write]
  | .array _ | .object _ => []

/-- An operand with the given tokens, in parentheses if the style asks for them. -/
def operandTokens (e : Expression) (tokens : List Token) : List Token :=
  if style.groups e then .leftParen :: tokens ++ [.rightParen] else tokens

/-- How many groups and negations are open at once in an operand that has `depth` by itself. -/
def operandDepth (e : Expression) (depth : Nat) : Nat := if style.groups e then depth + 1 else depth

namespace Expression

mutual

/-- The tokens of an expression. -/
def tokens : Expression → List Token
  | .constant b => [.keyword (if b then .true else .false)]
  | .compares field r value => .field field :: .relation r :: literalTokens value
  | .isOneOf field values =>
    .field field :: .keyword .in :: .leftParen ::
      [.comma].intercalate (values.map literalTokens) ++ [.rightParen]
  | .lists field item => .field field :: .keyword .contains :: literalTokens item
  | .isLike field pattern => [.field field, .keyword .like, .text pattern]
  | .isNull field => [.field field, .keyword .is, .keyword .null]
  | .isNotNull field => [.field field, .keyword .is, .keyword .not, .keyword .null]
  | .all operands => [.keyword .and].intercalate (eachTokens operands)
  | .any operands => [.keyword .or].intercalate (eachTokens operands)
  | .not operand => .keyword .not :: operandTokens style operand (tokens operand)

/-- The tokens of each operand. -/
def eachTokens : List Expression → List (List Token)
  | [] => []
  | e :: rest => operandTokens style e (tokens e) :: eachTokens rest

end

mutual

/-- How many groups and negations the written form has open at once at most. -/
def depth : Expression → Nat
  | .all operands | .any operands => mostDepth operands
  | .not operand => operandDepth style operand (depth operand) + 1
  | _ => 0

/-- The most of all operands. -/
def mostDepth : List Expression → Nat
  | [] => 0
  | e :: rest => max (operandDepth style e (depth e)) (mostDepth rest)

end

/-- The written form. -/
def write (e : Expression) : String := " ".intercalate ((e.tokens style).map (Token.word style))

end Expression

end Written

example : Expression.write .sparing
    (.all [.compares "a" .eq (.string "it's"), .not (.any [.isNull "b", .isLike "c" "%"])]) =
      "a = 'it''s' AND NOT ( b IS NULL OR c LIKE '%' )" := by
  decide +kernel

/-! ## What can be written -/

/-- What is scanned as a name, and is a keyword in no letter case. -/
structure IsFieldName (name : String) : Prop where
  scanned : ∃ c cs, name.toList = c :: cs ∧ startsName c = true ∧ ∀ d ∈ cs, continuesName d = true
  no_keyword : ∀ k : Keyword, name.toList.map Char.toUpper ≠ k.spelling

/-- The constants that are written without loss. -/
def isWritable : Value → Bool
  | .boolean _ | .long _ | .string _ | .reference _ => true
  | _ => false

namespace Expression

mutual

/-- Every field is a name, every constant can be written, and no operand or value is wanting. -/
def Writable : Expression → Prop
  | .constant _ => True
  | .compares field _ value => IsFieldName field ∧ isWritable value = true
  | .isOneOf field values =>
    IsFieldName field ∧ values ≠ [] ∧ ∀ v ∈ values, isWritable v = true
  | .lists field item => IsFieldName field ∧ isWritable item = true
  | .isLike field _ | .isNull field | .isNotNull field => IsFieldName field
  | .all operands | .any operands => 2 ≤ operands.length ∧ EachWritable operands
  | .not operand => Writable operand

def EachWritable : List Expression → Prop
  | [] => True
  | e :: rest => Writable e ∧ EachWritable rest

end

end Expression

/-! ## The tokens derive the expression -/

theorem literal_literalTokens {value : Value} (h : isWritable value = true) :
    Literal (literalTokens value) value := by
  cases value with
  | boolean b =>
    cases b with
    | true => exact .true
    | false => exact .false
  | long n => exact .long n
  | string content => exact .text content
  | reference id => exact .ref id
  | _ => cases h

theorem listed_literalTokens {values : List Value} (hsome : values ≠ [])
    (h : ∀ v ∈ values, isWritable v = true) :
    Listed .comma Literal ([.comma].intercalate (values.map literalTokens)) values := by
  induction values with
  | nil => exact absurd rfl hsome
  | cons v values ih =>
    have hfirst : Literal (literalTokens v) v := literal_literalTokens (h v List.mem_cons_self)
    cases values with
    | nil =>
      rw [List.map_singleton, List.intercalate_singleton]
      exact .last hfirst
    | cons v' values =>
      have hrest := ih (List.cons_ne_nil _ _) fun w hw => h w (List.mem_cons_of_mem v hw)
      rw [List.map_cons, List.map_cons, List.intercalate_cons_cons, List.append_assoc]
      exact .more hfirst hrest

theorem Grammar.Unary.operand {ts : List Token} {e : Expression} {depth : Nat}
    (h : Unary ts e depth) (c : Connective) : Operand c ts e depth := by
  cases c with
  | and => exact .unary h
  | or => exact .conjunction (.single (.last (.unary h)))

/-- The tokens derive the expression by itself, and with what the style adds to an operand. -/
structure Derived (style : Style) (ts : List Token) (e : Expression) (depth : Nat) : Prop where
  whole : Derives ts e depth
  operand : Unary (operandTokens style e ts) e (operandDepth style e depth)

namespace Derived

variable {style : Style} {ts : List Token} {depth : Nat}

/-- Parentheses may be put around any expression. -/
theorem grouped {e : Expression} (hgroups : style.groups e = true) (hwhole : Derives ts e depth) :
    Derived style ts e depth := by
  refine ⟨hwhole, ?_⟩
  rw [operandTokens, operandDepth, if_pos hgroups, if_pos hgroups]
  exact .group hwhole

theorem of_unary {e : Expression} (h : Unary ts e depth) : Derived style ts e depth := by
  have hwhole : Derives ts e depth := .single (.last (h.operand .or))
  by_cases hgroups : style.groups e = true
  · exact grouped hgroups hwhole
  · refine ⟨hwhole, ?_⟩
    rw [operandTokens, operandDepth, if_neg hgroups, if_neg hgroups]
    exact h

/-- Joined operands are no operand themselves, but in parentheses. -/
theorem of_operands {c : Connective} {es : List Expression} (h : Operands c ts es depth)
    (hmany : 2 ≤ es.length) : Derived style ts (c.node es) depth := by
  cases c with
  | or => exact grouped (style.groups_joined _ rfl) (.node h hmany)
  | and =>
    -- a conjunction is the one operand of a disjunction
    have hconjunction : Joined .and ts (.all es) depth := .node h hmany
    exact grouped (style.groups_joined _ rfl) (.single (.last (.conjunction hconjunction)))

end Derived

section Deriving

variable (style : Style)

mutual

/-- **The tokens of an expression derive it.** Induction on the expression and its operands. -/
theorem derived_tokens : ∀ e : Expression, e.Writable →
    Derived style (e.tokens style) e (e.depth style)
  | .constant true, _ => .of_unary .true
  | .constant false, _ => .of_unary .false
  | .compares _ r _, h =>
    .of_unary (.predicate (.compares r (literal_literalTokens h.2)))
  | .isOneOf _ _, h =>
    .of_unary (.predicate (.isOneOf (.parenthesised (listed_literalTokens h.2.1 h.2.2))))
  | .lists _ _, h => .of_unary (.predicate (.lists (literal_literalTokens h.2)))
  | .isLike _ pattern, _ => .of_unary (.predicate (.isLike pattern))
  | .isNull _, _ => .of_unary (.predicate .isNull)
  | .isNotNull _, _ => .of_unary (.predicate .isNotNull)
  | .all operands, h =>
    .of_operands (operands_eachTokens .and operands (Nat.le_of_succ_le h.1) h.2) h.1
  | .any operands, h =>
    .of_operands (operands_eachTokens .or operands (Nat.le_of_succ_le h.1) h.2) h.1
  | .not operand, h => .of_unary (.not (derived_tokens operand h).operand)

theorem operands_eachTokens (c : Connective) : ∀ es : List Expression, 1 ≤ es.length →
    Expression.EachWritable es →
    Operands c ([c.token].intercalate (Expression.eachTokens style es)) es
      (Expression.mostDepth style es)
  | [], hsome, _ => absurd hsome (by decide)
  | [e], _, h => by
    have hoperand := (derived_tokens e h.1).operand.operand c
    rw [Expression.eachTokens, Expression.eachTokens, List.intercalate_singleton,
      Expression.mostDepth, Expression.mostDepth, Nat.max_zero]
    exact .last hoperand
  | e :: e' :: es, _, h => by
    have hoperand := (derived_tokens e h.1).operand.operand c
    have hrest := operands_eachTokens c (e' :: es) (Nat.succ_pos _) h.2
    rw [Expression.eachTokens, Expression.eachTokens, List.intercalate_cons_cons,
      List.append_assoc, Expression.mostDepth]
    exact .more hoperand hrest

end

end Deriving

/-! ## Every token is written as one word -/

/-- What is written as it is read: names of fields, and everything else but doubles. -/
def Token.IsPlain : Token → Prop
  | .field name => IsFieldName name
  | .double _ => False
  | _ => True

theorem ofWord?_of_isFieldName {name : String} (h : IsFieldName name) :
    Keyword.ofWord? name.toList = none := by
  rw [Keyword.ofWord?, List.find?_eq_none]
  intro k _ hk
  exact h.no_keyword k (eq_of_beq hk).symm

/-- **A plain token is spelt by its word.** -/
theorem spells_word (style : Style) {t : Token} (h : t.IsPlain) :
    Spells (t.word style).toList t := by
  cases t with
  | field name =>
    -- a field name is scanned as a word and is no keyword
    obtain ⟨c, cs, hname, hc, hcs⟩ := h.scanned
    have htoken : wordToken (c :: cs) = .field name := by
      rw [← hname, wordToken, ofWord?_of_isFieldName h]
      simp
    rw [Token.word, hname, ← htoken]
    exact spells_name hc hcs
  | keyword k =>
    rw [Token.word, String.toList_ofList]
    exact spells_keyword k
  | text content =>
    rw [Token.word, String.toList_ofList]
    exact spells_text content
  | long n => exact spells_long n
  -- doubles are not written
  | double d => exact h.elim
  | relation r =>
    -- inequality may be written in two ways
    cases r with
    | ne =>
      obtain hsymbol | hsymbol := style.unequal_symbol
      · rw [Token.word, hsymbol]
        exact spells_symbol .ne
      · rw [Token.word, hsymbol]
        exact spells_bang_equals
    | _ => exact spells_symbol _
  | leftParen => exact spells_leftParen
  | rightParen => exact spells_rightParen
  | comma => exact spells_comma

/-- All tokens of the sequence are plain. -/
def Plain (ts : List Token) : Prop := ∀ t ∈ ts, t.IsPlain

@[simp] theorem plain_nil : Plain [] := by
  simp [Plain]

@[simp] theorem plain_cons {t : Token} {ts : List Token} :
    Plain (t :: ts) ↔ t.IsPlain ∧ Plain ts := List.forall_mem_cons

@[simp] theorem plain_append {ts ts' : List Token} : Plain (ts ++ ts') ↔ Plain ts ∧ Plain ts' :=
  List.forall_mem_append

theorem plain_intercalate {separator : Token} {tss : List (List Token)}
    (hseparator : separator.IsPlain) (h : ∀ ts ∈ tss, Plain ts) :
    Plain ([separator].intercalate tss) := by
  induction tss with
  | nil => exact plain_nil
  | cons ts tss ih =>
    obtain ⟨hts, htss⟩ := List.forall_mem_cons.1 h
    cases tss with
    | nil => rwa [List.intercalate_singleton]
    | cons ts' tss =>
      rw [List.intercalate_cons_cons]
      simp [hts, hseparator, ih htss]

theorem plain_literalTokens {value : Value} (h : isWritable value = true) :
    Plain (literalTokens value) := by
  cases value with
  | double => cases h
  | _ => simp [literalTokens, Token.IsPlain]

section Plain

variable (style : Style)

theorem plain_operandTokens (e : Expression) {ts : List Token} (h : Plain ts) :
    Plain (operandTokens style e ts) := by
  rw [operandTokens]
  split
  · simp [h, Token.IsPlain]
  · exact h

mutual

theorem plain_tokens : ∀ e : Expression, e.Writable → Plain (e.tokens style)
  | .constant b, _ => by simp [Expression.tokens, Token.IsPlain]
  | .compares field r value, h => by
    have hvalue := plain_literalTokens h.2
    simp [Expression.tokens, Token.IsPlain, h.1, hvalue]
  | .isOneOf field values, h => by
    -- the literals of a list stand between commas
    have hvalues : Plain ([.comma].intercalate (values.map literalTokens)) := by
      refine plain_intercalate trivial fun ts hts => ?_
      obtain ⟨v, hv, rfl⟩ := List.mem_map.1 hts
      exact plain_literalTokens (h.2.2 v hv)
    simp [Expression.tokens, Token.IsPlain, h.1, hvalues]
  | .lists field item, h => by
    have hitem := plain_literalTokens h.2
    simp [Expression.tokens, Token.IsPlain, h.1, hitem]
  | .isLike field pattern, h => by
    have hfield : IsFieldName field := h
    simp [Expression.tokens, Token.IsPlain, hfield]
  | .isNull field, h => by
    have hfield : IsFieldName field := h
    simp [Expression.tokens, Token.IsPlain, hfield]
  | .isNotNull field, h => by
    have hfield : IsFieldName field := h
    simp [Expression.tokens, Token.IsPlain, hfield]
  -- for operands see below
  | .all operands, h => plain_intercalate trivial (plain_eachTokens operands h.2)
  | .any operands, h => plain_intercalate trivial (plain_eachTokens operands h.2)
  | .not operand, h => by
    -- an operand is grouped where it has to be
    have hoperand := plain_operandTokens style operand (plain_tokens operand h)
    simp [Expression.tokens, Token.IsPlain, hoperand]

theorem plain_eachTokens : ∀ es : List Expression, Expression.EachWritable es →
    ∀ ts ∈ Expression.eachTokens style es, Plain ts
  | [], _ => by simp [Expression.eachTokens]
  | e :: es, h => by
    have hfirst := plain_operandTokens style e (plain_tokens e h.1)
    rw [Expression.eachTokens]
    exact List.forall_mem_cons.2 ⟨hfirst, plain_eachTokens es h.2⟩

end

end Plain

/-! ## Writing and reading -/

/-- The written form is scanned into the tokens it was made of. -/
theorem scan_write (style : Style) {e : Expression} (he : e.Writable) :
    scan (e.write style) = .ok (e.tokens style) := by
  refine scan_intercalate ?_
  rw [List.forall₂_map_left_iff, List.forall₂_same]
  intro t ht
  exact spells_word style (plain_tokens style e he t ht)

/-- **What is written out is read back**, whatever stands in its texts: every style of writing an
expression gives a text that is parsed to just that expression, provided that no more than 256
groups and negations are open at once. -/
theorem parse_write (style : Style) (e : Expression) (he : e.Writable)
    (hdepth : e.depth style ≤ 256) : Expression.parse (e.write style) = .ok e := by
  have hderives := (derived_tokens style e he).whole
  have htokens : Expression.ofTokens (e.tokens style) = .ok e :=
    ofTokens_eq_ok_iff.2 ⟨e.depth style, hdepth, hderives⟩
  rw [Expression.parse, scan_write style he]
  exact htokens

/-- The text of a comparison may look like the rest of a predicate, and have quotes in any place. -/
theorem parse_write_of_quotes :
    let e : Expression := .all
      [.compares "a" .ne (.string "' OR NOT (b = 'c"), .not (.any
        [.isLike "_b:c" "''", .isOneOf "d" [.long Int64.minValue, .reference "IN ('"]])]
    e.Writable ∧ e.depth .sparing ≤ 256 ∧ Expression.parse (e.write .sparing) = .ok e := by
  intro e
  have hname : ∀ name ∈ ["a", "_b:c", "d"], IsFieldName name := by
    simp only [List.forall_mem_cons]
    refine ⟨⟨⟨_, _, rfl, by decide +kernel, List.all_eq_true.1 (by decide +kernel)⟩, ?_⟩,
      ⟨⟨_, _, rfl, by decide +kernel, List.all_eq_true.1 (by decide +kernel)⟩, ?_⟩,
      ⟨⟨_, _, rfl, by decide +kernel, List.all_eq_true.1 (by decide +kernel)⟩, ?_⟩, by simp⟩ <;>
    · intro k
      cases k <;> decide
  have hwritable : e.Writable := by
    simp [e, Expression.Writable, Expression.EachWritable, isWritable, hname]
  have hdepth : e.depth .sparing ≤ 256 := by decide
  exact ⟨hwritable, hdepth, parse_write .sparing e hwritable hdepth⟩

end ContentRepository.Query
