import ContentRepository.Proofs.Query.Grammar
import ContentRepository.Store.Error

/-!
# The parser reads exactly what the grammar derives

Each parser is compared with one rule of the grammar. It takes from the front of the tokens a
sequence that the rule derives, and whenever such a sequence stands at the front, with nothing
after it that would go on, it takes just that.

* **`Parser.Reads`** — a parser and a rule agree in both directions.
* **`Parser.separated_eq`** — a list goes on until no separator follows; the bound on its length is
  never met.
* **`Parser.reads_separated`**, **`Parser.reads_unary`** and **`Parser.reads_joined`** — lists,
  unary expressions and joined operands.
* **`ofTokens_eq_ok_iff`** — whole predicates.
-/

namespace ContentRepository.Query

open Grammar

namespace Parser

variable {α β : Type} {tokens rest : List Token}

/-! ## Steps -/

/-- A parser that goes on after another succeeds when both do. -/
theorem bind_eq_ok_iff {p : Parser α} {f : α → Parser β} {b : β} :
    (p >>= f) tokens = .ok (b, rest) ↔
      ∃ a mid, p tokens = .ok (a, mid) ∧ f a mid = .ok (b, rest) := by
  show (p tokens >>= fun x => f x.1 x.2) = _ ↔ _
  cases p tokens with
  | error e => simp [bind, Except.bind]
  | ok x =>
    obtain ⟨a, mid⟩ := x
    constructor
    · intro h
      exact ⟨a, mid, rfl, h⟩
    · rintro ⟨_, _, heq, h⟩
      cases heq
      exact h

theorem pure_eq_ok_iff {a b : α} :
    (pure a : Parser α) tokens = .ok (b, rest) ↔ a = b ∧ tokens = rest := by
  show (Except.ok (a, tokens) : Except Fault _) = _ ↔ _
  simp

theorem throw_eq_ok_iff {fault : Fault} {a : α} :
    (throw fault : Parser α) tokens = .ok (a, rest) ↔ False := by
  show (Except.error fault : Except Fault (α × List Token)) = _ ↔ _
  simp

theorem map_eq_ok_iff {p : Parser α} {f : α → β} {b : β} :
    (f <$> p) tokens = .ok (b, rest) ↔ ∃ a, p tokens = .ok (a, rest) ∧ f a = b := by
  show (p tokens >>= fun x => pure (f x.1, x.2)) = _ ↔ _
  cases p tokens with
  | error e => simp [bind, Except.bind]
  | ok x =>
    obtain ⟨a, mid⟩ := x
    constructor
    · intro h
      cases h
      exact ⟨a, rfl, rfl⟩
    · rintro ⟨_, heq, rfl⟩
      cases heq
      rfl

theorem bind_next? (f : Option Token → Parser α) (tokens : List Token) :
    (next? >>= f) tokens = f tokens.head? tokens.tail := by
  cases tokens <;> rfl

theorem bind_take?_self (f : Bool → Parser α) (token : Token) (tokens : List Token) :
    (take? token >>= f) (token :: tokens) = f true tokens := by
  show (take? token (token :: tokens) >>= fun x => f x.1 x.2) = _
  rw [take?, if_pos rfl]
  rfl

theorem bind_take?_of_ne (f : Bool → Parser α) {token : Token}
    (hother : tokens.head? ≠ some token) : (take? token >>= f) tokens = f false tokens := by
  cases tokens with
  | nil => rfl
  | cons t tail =>
    have hne : t ≠ token := by simpa using hother
    show (take? token (t :: tail) >>= fun x => f x.1 x.2) = _
    rw [take?, if_neg hne]
    rfl

theorem demand_eq_ok_iff {token : Token} {what : String} {u : Unit} :
    demand token what tokens = .ok (u, rest) ↔ tokens = token :: rest := by
  rw [demand, bind_next?]
  cases tokens with
  | nil => simp [throw_eq_ok_iff]
  | cons t tail =>
    by_cases h : t = token
    · simp [h, pure_eq_ok_iff]
    · simp [h, throw_eq_ok_iff]

theorem text_eq_ok_iff {otherwise : Fault} {content : String} :
    text otherwise tokens = .ok (content, rest) ↔ tokens = .text content :: rest := by
  rw [text, bind_next?]
  cases tokens with
  | nil => simp [throw_eq_ok_iff]
  | cons t tail => cases t <;> simp [throw_eq_ok_iff, pure_eq_ok_iff]

/-! ## Parsers and rules -/

/-- The parser takes what the rule derives. It may need that the tokens after it do not go on. -/
structure Reads (p : Parser α) (Rule : List Token → α → Prop) (Ends : List Token → Prop) : Prop where
  sound : ∀ {tokens a rest}, p tokens = .ok (a, rest) → ∃ ts, tokens = ts ++ rest ∧ Rule ts a
  complete : ∀ {ts a rest}, Rule ts a → Ends rest → p (ts ++ rest) = .ok (a, rest)

/-- No token can go on what is complete in itself. -/
abbrev Anything (_ : List Token) : Prop := True

namespace Reads

variable {p : Parser α} {Rule : List Token → α → Prop} {Ends : List Token → Prop}

/-- What a parser leaves is no longer than what it was given. -/
theorem length_le (h : Reads p Rule Ends) {a : α} (hp : p tokens = .ok (a, rest)) :
    rest.length ≤ tokens.length := by
  obtain ⟨ts, rfl, -⟩ := h.sound hp
  rw [List.length_append]
  omega

/-- Where two parses could be had, they are the same. -/
theorem unique (h : Reads p Rule Ends) {ts : List Token} {a b : α} (hend : Ends []) (ha : Rule ts a)
    (hb : Rule ts b) : a = b := by
  have hsame := (h.complete ha hend).symm.trans (h.complete hb hend)
  cases hsame
  rfl

/-- A parser that only works on what another one reads. -/
theorem of_map (h : Reads p Rule Ends) {f : α → β} {b : β}
    (hread : (do return f (← p)) tokens = .ok (b, rest)) :
    ∃ ts a, tokens = ts ++ rest ∧ Rule ts a ∧ b = f a := by
  obtain ⟨a, mid, hp, hpure⟩ := bind_eq_ok_iff.1 hread
  obtain ⟨rfl, rfl⟩ := pure_eq_ok_iff.1 hpure
  obtain ⟨ts, rfl, ha⟩ := h.sound hp
  exact ⟨ts, a, rfl, ha, rfl⟩

theorem map_complete (h : Reads p Rule Ends) (f : α → β) {ts : List Token} {a : α}
    (ha : Rule ts a) (hend : Ends rest) :
    (do return f (← p) : Parser β) (ts ++ rest) = .ok (f a, rest) :=
  bind_eq_ok_iff.2 ⟨a, rest, h.complete ha hend, rfl⟩

end Reads

/-! ## Leaves -/

theorem reads_text (otherwise : Fault) :
    Reads (text otherwise) (fun ts content => ts = [.text content]) Anything where
  sound h := ⟨_, text_eq_ok_iff.1 h, rfl⟩
  complete := by
    rintro ts content rest rfl _
    exact text_eq_ok_iff.2 rfl

theorem reads_literal : Reads literal Literal Anything where
  sound := by
    intro tokens v rest h
    rw [literal, bind_next?] at h
    cases tokens with
    | nil => simp [throw_eq_ok_iff] at h
    | cons t tail =>
      -- the first token says which literal it is, if it is one
      cases t with
      | text content =>
        obtain ⟨rfl, rfl⟩ := pure_eq_ok_iff.1 h
        exact ⟨[.text content], rfl, .text content⟩
      | long n =>
        obtain ⟨rfl, rfl⟩ := pure_eq_ok_iff.1 h
        exact ⟨[.long n], rfl, .long n⟩
      | double d =>
        obtain ⟨rfl, rfl⟩ := pure_eq_ok_iff.1 h
        exact ⟨[.double d], rfl, .double d⟩
      | keyword k =>
        cases k with
        | true =>
          obtain ⟨rfl, rfl⟩ := pure_eq_ok_iff.1 h
          exact ⟨[.keyword .true], rfl, .true⟩
        | false =>
          obtain ⟨rfl, rfl⟩ := pure_eq_ok_iff.1 h
          exact ⟨[.keyword .false], rfl, .false⟩
        | date =>
          -- a date needs a text after it that can be read as one
          obtain ⟨stamp, mid, hstamp, hdate⟩ := bind_eq_ok_iff.1 h
          obtain rfl := text_eq_ok_iff.1 hstamp
          cases hread : Stamp.read stamp with
          | error cause => simp [hread, throw_eq_ok_iff] at hdate
          | ok t =>
            rw [hread] at hdate
            obtain ⟨rfl, rfl⟩ := pure_eq_ok_iff.1 hdate
            exact ⟨[.keyword .date, .text stamp], rfl, .date hread⟩
        | ref =>
          -- a reference needs a text after it, whatever it says
          obtain ⟨_, id, rfl, rfl, rfl⟩ := (reads_text _).of_map h
          exact ⟨[.keyword .ref, .text id], rfl, .ref id⟩
        | _ => simp [throw_eq_ok_iff] at h
      | _ => simp [throw_eq_ok_iff] at h
  -- conversely, each kind of literal is read by its own branch
  complete := by
    intro ts v rest h _
    cases h with
    | date hread =>
      rw [literal, bind_next?]
      refine bind_eq_ok_iff.2 ⟨_, rest, text_eq_ok_iff.2 rfl, ?_⟩
      rw [hread]
      rfl
    | ref id =>
      rw [literal, bind_next?]
      exact bind_eq_ok_iff.2 ⟨id, rest, text_eq_ok_iff.2 rfl, rfl⟩
    | _ => rfl

/-! ## Lists -/

/-- An operand, and after a separator what the other parser reads. -/
def listedWith (separator : Token) (operand : Parser α) (others : Parser (List α)) :
    Parser (List α) := do
  let first ← operand
  if ← take? separator then return first :: (← others) else return [first]

theorem listedWith_of_error {separator : Token} {operand : Parser α} {others : Parser (List α)}
    {fault : Fault} (hoperand : operand tokens = .error fault) :
    listedWith separator operand others tokens = .error fault := by
  show (operand tokens >>= _) = _
  rw [hoperand]
  rfl

theorem listedWith_of_separator {separator : Token} {operand : Parser α}
    {others : Parser (List α)} {first : α}
    (hoperand : operand tokens = .ok (first, separator :: rest)) :
    listedWith separator operand others tokens = ((first :: ·) <$> others) rest := by
  show (operand tokens >>= fun x => (take? separator >>= _) x.2) = _
  rw [hoperand]
  exact bind_take?_self (fun more => if more then (first :: ·) <$> others else pure [first])
    separator rest

theorem listedWith_of_end {separator : Token} {operand : Parser α} {others : Parser (List α)}
    {first : α} (hoperand : operand tokens = .ok (first, rest))
    (hend : rest.head? ≠ some separator) :
    listedWith separator operand others tokens = .ok ([first], rest) := by
  show (operand tokens >>= fun x => (take? separator >>= _) x.2) = _
  rw [hoperand]
  exact bind_take?_of_ne (fun more => if more then (first :: ·) <$> others else pure [first]) hend

section Separated

variable {separator : Token} {operand : Parser α} {Rule : List Token → α → Prop}
  {Ends : List Token → Prop}

/-- What follows the first operand is shorter than the whole. -/
theorem listedWith_congr (h : Reads operand Rule Ends) {others others' : Parser (List α)}
    (hsame : ∀ mid : List Token, mid.length < tokens.length → others mid = others' mid) :
    listedWith separator operand others tokens = listedWith separator operand others' tokens := by
  cases hoperand : operand tokens with
  | error fault => rw [listedWith_of_error hoperand, listedWith_of_error hoperand]
  | ok x =>
    obtain ⟨first, mid⟩ := x
    by_cases hend : mid.head? = some separator
    · obtain ⟨tail, rfl⟩ : ∃ tail, mid = separator :: tail := List.head?_eq_some_iff.1 hend
      have hshorter : tail.length < tokens.length := h.length_le hoperand
      rw [listedWith_of_separator hoperand, listedWith_of_separator hoperand]
      show (others tail >>= _) = (others' tail >>= _)
      rw [hsame tail hshorter]
    · rw [listedWith_of_end hoperand hend, listedWith_of_end hoperand hend]

/-- Without tokens there is no second operand to be kept from. -/
theorem chain_zero_nil (h : Reads operand Rule Ends) (others : Parser (List α)) :
    chain separator operand 0 [] = listedWith separator operand others [] := by
  cases hoperand : operand [] with
  | error fault =>
    rw [listedWith_of_error hoperand]
    show (operand [] >>= _) = _
    rw [hoperand]
    rfl
  | ok x =>
    obtain ⟨first, mid⟩ := x
    have hmid : mid = [] := List.length_eq_zero_iff.1 (Nat.le_zero.1 (h.length_le hoperand))
    subst hmid
    rw [listedWith_of_end hoperand (by simp)]
    show (operand [] >>= _) = _
    rw [hoperand]
    rfl

/-- A bound that covers all tokens is never met, so it does not matter which one it is. -/
theorem chain_eq_of_le (h : Reads operand Rule Ends) {m n : Nat} (hm : tokens.length ≤ m)
    (hn : tokens.length ≤ n) :
    chain separator operand m tokens = chain separator operand n tokens := by
  induction m generalizing n tokens with
  | zero =>
    obtain rfl : tokens = [] := List.length_eq_zero_iff.1 (Nat.le_zero.1 hm)
    cases n with
    | zero => rfl
    | succ n => exact chain_zero_nil h _
  | succ m ih =>
    cases n with
    | zero =>
      obtain rfl : tokens = [] := List.length_eq_zero_iff.1 (Nat.le_zero.1 hn)
      exact (chain_zero_nil h _).symm
    | succ n => exact listedWith_congr h fun mid hmid => ih (by omega) (by omega)

/-- **A list is an operand, and after a separator the rest of a list.** -/
theorem separated_eq (h : Reads operand Rule Ends) (tokens : List Token) :
    separated separator operand tokens =
      listedWith separator operand (separated separator operand) tokens := by
  have hlt : separated separator operand tokens =
      chain separator operand (tokens.length + 1) tokens :=
    chain_eq_of_le h (Nat.le_refl _) (Nat.le_succ _)
  rw [hlt]
  refine listedWith_congr h fun mid hmid => ?_
  exact chain_eq_of_le h (Nat.le_of_lt hmid) (Nat.le_refl _)

/-- **A list parser reads lists.** After the last operand no separator may follow. -/
theorem reads_separated (h : Reads operand Rule Ends)
    (hseparator : ∀ rest, Ends (separator :: rest)) :
    Reads (separated separator operand) (Listed separator Rule)
      fun rest => Ends rest ∧ rest.head? ≠ some separator where
  sound := by
    intro tokens as rest hlist
    -- induction on the number of tokens: those after a separator are fewer
    induction hn : tokens.length using Nat.strongRecOn generalizing tokens as with
    | _ n ih =>
      subst hn
      rw [separated_eq h] at hlist
      cases hoperand : operand tokens with
      | error fault =>
        rw [listedWith_of_error hoperand] at hlist
        cases hlist
      | ok x =>
        obtain ⟨first, mid⟩ := x
        obtain ⟨ts, rfl, hfirst⟩ := h.sound hoperand
        by_cases hend : mid.head? = some separator
        · -- a separator: another item has to follow
          obtain ⟨tail, rfl⟩ := List.head?_eq_some_iff.1 hend
          rw [listedWith_of_separator hoperand] at hlist
          obtain ⟨others, hothers, rfl⟩ := map_eq_ok_iff.1 hlist
          have hshorter : tail.length < (ts ++ separator :: tail).length := by
            rw [List.length_append, List.length_cons]
            omega
          obtain ⟨ts', rfl, hrest⟩ := ih tail.length hshorter hothers rfl
          exact ⟨ts ++ separator :: ts', by simp, .more hfirst hrest⟩
        · -- no separator: that was the last item
          rw [listedWith_of_end hoperand hend] at hlist
          cases hlist
          exact ⟨ts, rfl, .last hfirst⟩
  complete := by
    intro ts as rest hlist hend
    obtain ⟨hend, hstop⟩ := hend
    induction hlist with
    | last hitem =>
      -- after the last item the list ends, whatever comes next
      rw [separated_eq h]
      exact listedWith_of_end (h.complete hitem hend) hstop
    | @more ts others _ _ hitem _ ih =>
      rw [List.append_assoc, separated_eq h]
      have hfirst := h.complete hitem (hseparator (others ++ rest))
      rw [List.cons_append, listedWith_of_separator hfirst]
      exact map_eq_ok_iff.2 ⟨_, ih, rfl⟩

end Separated

/-! ## Predicates -/

theorem reads_values : Reads values Values Anything where
  sound := by
    intro tokens vs rest h
    obtain ⟨_, afterOpen, hopen, h⟩ := bind_eq_ok_iff.1 h
    obtain ⟨_, beforeClose, hlist, h⟩ := bind_eq_ok_iff.1 h
    obtain ⟨_, _, hclose, h⟩ := bind_eq_ok_iff.1 h
    obtain ⟨rfl, rfl⟩ := pure_eq_ok_iff.1 h
    rw [demand_eq_ok_iff] at hopen hclose
    obtain ⟨ts, hafter, hvalues⟩ := (reads_separated reads_literal fun _ => trivial).sound hlist
    refine ⟨.leftParen :: ts ++ [.rightParen], ?_, .parenthesised hvalues⟩
    rw [hopen, hafter, hclose]
    simp
  complete := by
    intro ts vs rest h _
    cases h with
    | @parenthesised ts _ hlist =>
      have hvalues : separated .comma literal (ts ++ .rightParen :: rest) =
          .ok (vs, .rightParen :: rest) :=
        (reads_separated reads_literal fun _ => trivial).complete hlist ⟨trivial, by simp⟩
      rw [List.append_assoc]
      refine bind_eq_ok_iff.2 ⟨(), ts ++ .rightParen :: rest, demand_eq_ok_iff.2 rfl, ?_⟩
      refine bind_eq_ok_iff.2 ⟨vs, _, hvalues, ?_⟩
      exact bind_eq_ok_iff.2 ⟨(), rest, demand_eq_ok_iff.2 rfl, rfl⟩

theorem of_predicate_is {field : String} {e : Expression}
    (h : predicate field (.keyword .is :: tokens) = .ok (e, rest)) :
    ∃ ts, .keyword .is :: tokens = ts ++ rest ∧ Predicate field ts e := by
  rw [predicate, bind_next?] at h
  change (take? (.keyword .not) >>= _) tokens = _ at h
  by_cases hnot : tokens.head? = some (.keyword .not)
  · obtain ⟨after, rfl⟩ := List.head?_eq_some_iff.1 hnot
    rw [bind_take?_self] at h
    obtain ⟨_, mid, hnull, hpure⟩ := bind_eq_ok_iff.1 h
    obtain ⟨rfl, rfl⟩ := pure_eq_ok_iff.1 hpure
    rw [demand_eq_ok_iff.1 hnull]
    exact ⟨_, rfl, .isNotNull⟩
  · rw [bind_take?_of_ne _ hnot] at h
    obtain ⟨_, mid, hnull, hpure⟩ := bind_eq_ok_iff.1 h
    obtain ⟨rfl, rfl⟩ := pure_eq_ok_iff.1 hpure
    rw [demand_eq_ok_iff.1 hnull]
    exact ⟨_, rfl, .isNull⟩

theorem of_predicate_not {field : String} {e : Expression}
    (h : predicate field (.keyword .not :: tokens) = .ok (e, rest)) :
    ∃ ts, .keyword .not :: tokens = ts ++ rest ∧ Predicate field ts e := by
  rw [predicate, bind_next?] at h
  change (next? >>= _) tokens = _ at h
  rw [bind_next?] at h
  -- after a negation only membership and patterns can follow
  cases tokens with
  | nil => simp [throw_eq_ok_iff] at h
  | cons t tail =>
    cases t with
    | keyword k =>
      cases k with
      | «in» =>
        have hin : (do return Expression.not (.isOneOf field (← values))) tail = .ok (e, rest) := h
        obtain ⟨ts, vs, htail, hvalues, rfl⟩ := reads_values.of_map hin
        refine ⟨.keyword .not :: .keyword .in :: ts, ?_, .isNotOneOf hvalues⟩
        rw [List.cons_append, List.cons_append, ← htail]
      | like =>
        have hlike : (do return Expression.not (.isLike field (← text .likeNeedsText))) tail =
            .ok (e, rest) := h
        obtain ⟨_, pattern, htail, rfl, rfl⟩ := (reads_text _).of_map hlike
        refine ⟨[.keyword .not, .keyword .like, .text pattern], ?_, .isNotLike pattern⟩
        exact congrArg (.keyword .not :: .keyword .like :: ·) htail
      | _ => simp [throw_eq_ok_iff] at h
    | _ => simp [throw_eq_ok_iff] at h

theorem reads_predicate (field : String) : Reads (predicate field) (Predicate field) Anything where
  sound := by
    intro tokens e rest h
    cases tokens with
    | nil => simp [predicate, bind_next?, throw_eq_ok_iff] at h
    | cons t tail =>
      -- the second token of a predicate says which one it is
      cases t with
      | relation r =>
        rw [predicate, bind_next?] at h
        -- what follows a relation is read as a literal, and so on for the others
        have hrest : (do return Expression.compares field r (← literal)) tail = .ok (e, rest) := h
        obtain ⟨ts, value, rfl, hvalue, rfl⟩ := reads_literal.of_map hrest
        exact ⟨.relation r :: ts, rfl, .compares r hvalue⟩
      | keyword k =>
        cases k with
        | is => exact of_predicate_is h
        | not => exact of_predicate_not h
        | «in» =>
          rw [predicate, bind_next?] at h
          have hrest : (do return Expression.isOneOf field (← values)) tail = .ok (e, rest) := h
          obtain ⟨ts, vs, rfl, hvalues, rfl⟩ := reads_values.of_map hrest
          exact ⟨.keyword .in :: ts, rfl, .isOneOf hvalues⟩
        | like =>
          rw [predicate, bind_next?] at h
          have hrest : (do return Expression.isLike field (← text .likeNeedsText)) tail =
              .ok (e, rest) := h
          obtain ⟨_, pattern, rfl, rfl, rfl⟩ := (reads_text _).of_map hrest
          exact ⟨[.keyword .like, .text pattern], rfl, .isLike pattern⟩
        | contains =>
          rw [predicate, bind_next?] at h
          have hrest : (do return Expression.lists field (← literal)) tail = .ok (e, rest) := h
          obtain ⟨ts, item, rfl, hitem, rfl⟩ := reads_literal.of_map hrest
          exact ⟨.keyword .contains :: ts, rfl, .lists hitem⟩
        | _ => simp [predicate, bind_next?, throw_eq_ok_iff] at h
      | _ => simp [predicate, bind_next?, throw_eq_ok_iff] at h
  -- conversely, each rule leads through its own branch
  complete := by
    intro ts e rest h _
    rw [predicate, bind_next?]
    cases h with
    | compares r hvalue =>
      exact reads_literal.map_complete (Expression.compares field r) hvalue trivial
    | isNull => rfl
    | isNotNull => rfl
    | isOneOf hvalues => exact reads_values.map_complete (Expression.isOneOf field) hvalues trivial
    | isNotOneOf hvalues =>
      show (next? >>= _) _ = _
      rw [bind_next?]
      exact reads_values.map_complete (fun vs => Expression.not (.isOneOf field vs)) hvalues trivial
    | isLike pattern => rfl
    | isNotLike pattern => rfl
    | lists hitem => exact reads_literal.map_complete (Expression.lists field) hitem trivial

/-! ## Nesting -/

theorem joined_of_two_le {join : List Expression → Expression} {es : List Expression}
    (hmany : 2 ≤ es.length) : joined join es = join es := by
  match es, hmany with
  | _ :: _ :: _, _ => rfl

section Below

variable (c : Connective) (bound : Nat) (ts : List Token) (e : Expression)

/-- A unary expression of a depth below the bound. -/
abbrev UnaryBelow : Prop := ∃ depth < bound, Unary ts e depth

/-- An operand of the connective of a depth below the bound. -/
abbrev OperandBelow : Prop := ∃ depth < bound, Operand c ts e depth

/-- Joined operands of a depth below the bound. -/
abbrev JoinedBelow : Prop := ∃ depth < bound, Joined c ts e depth

end Below

/-- No connective follows that would go on with the operands. Operands of `OR` go on with `AND`
too. -/
def Ended : Connective → List Token → Prop
  | .and, rest => rest.head? ≠ some (.keyword .and)
  | .or, rest => rest.head? ≠ some (.keyword .and) ∧ rest.head? ≠ some (.keyword .or)

section Nesting

variable {bound : Nat} {operand : Parser Expression}

/-- **Operands with a connective between them are read as joined by it.** -/
theorem reads_joined {c : Connective} {p : Parser Expression} {Ends : List Token → Prop}
    (h : Reads operand (OperandBelow c bound) Ends)
    (hconnective : ∀ rest, Ends (c.token :: rest))
    (hended : ∀ rest, Ended c rest → Ends rest ∧ rest.head? ≠ some c.token)
    (hp : p = do return joined c.node (← separated c.token operand)) :
    Reads p (JoinedBelow c bound) (Ended c) where
  sound := by
    intro tokens e rest hread
    rw [hp] at hread
    obtain ⟨es, mid, hlist, hpure⟩ := bind_eq_ok_iff.1 hread
    -- what was read is a list of operands, and the list is joined
    obtain ⟨rfl, rfl⟩ := pure_eq_ok_iff.1 hpure
    obtain ⟨ts, rfl, hlisted⟩ := (reads_separated h hconnective).sound hlist
    obtain ⟨depth, hlt, hoperands⟩ := listed_operand_iff.1 hlisted
    refine ⟨ts, rfl, depth, hlt, ?_⟩
    -- one operand is taken as it is, more than one are a node
    match es, hoperands with
    | [e], hoperands => exact .single hoperands
    | e :: e' :: es, hoperands => exact .node hoperands (by simp)
  complete := by
    rintro ts e rest ⟨depth, hlt, hjoined⟩ hend
    -- the list is read up to where the connective does not go on
    have hlist : ∀ es, Operands c ts es depth →
        separated c.token operand (ts ++ rest) = .ok (es, rest) := fun es hoperands =>
      (reads_separated h hconnective).complete (listed_operand_iff.2 ⟨depth, hlt, hoperands⟩)
        (hended rest hend)
    rw [hp]
    cases hjoined with
    | single hoperands => exact bind_eq_ok_iff.2 ⟨_, rest, hlist _ hoperands, rfl⟩
    | node hoperands hmany =>
      refine bind_eq_ok_iff.2 ⟨_, rest, hlist _ hoperands, ?_⟩
      rw [joined_of_two_le hmany]
      rfl

theorem reads_conjunction (h : Reads operand (UnaryBelow bound) Anything) :
    Reads (conjunction operand) (JoinedBelow .and bound) (Ended .and) := by
  have hoperand : Reads operand (OperandBelow .and bound) Anything := by
    refine ⟨fun hread => ?_, ?_⟩
    · obtain ⟨ts, htokens, depth, hlt, hunary⟩ := h.sound hread
      exact ⟨ts, htokens, depth, hlt, .unary hunary⟩
    · rintro ts e rest ⟨depth, hlt, hoperand⟩ hend
      cases hoperand with
      | unary hunary => exact h.complete ⟨depth, hlt, hunary⟩ hend
  exact reads_joined hoperand (fun _ => trivial) (fun _ hend => ⟨trivial, hend⟩) rfl

theorem reads_disjunction (h : Reads operand (UnaryBelow bound) Anything) :
    Reads (disjunction operand) (JoinedBelow .or bound) (Ended .or) := by
  have hconjunction := reads_conjunction h
  have hoperand : Reads (conjunction operand) (OperandBelow .or bound) (Ended .and) := by
    refine ⟨fun hread => ?_, ?_⟩
    · obtain ⟨ts, htokens, depth, hlt, hjoined⟩ := hconjunction.sound hread
      exact ⟨ts, htokens, depth, hlt, .conjunction hjoined⟩
    · rintro ts e rest ⟨depth, hlt, hoperand⟩ hend
      cases hoperand with
      | conjunction hjoined => exact hconjunction.complete ⟨depth, hlt, hjoined⟩ hend
  -- a conjunction also ends where `OR` follows
  exact reads_joined hoperand (fun _ => by simp [Ended, Connective.token]) (fun _ hend => hend) rfl

/-- What is inside a negation or group is less deep than the whole. -/
theorem reads_nesting (h : Reads operand (UnaryBelow bound) Anything) :
    Reads (nesting operand) (UnaryBelow (bound + 1)) Anything where
  sound := by
    intro tokens e rest hread
    rw [nesting, bind_next?] at hread
    cases tokens with
    | nil => simp [throw_eq_ok_iff] at hread
    | cons t tail =>
      -- the first token decides: a predicate, a negation, a constant or a group
      cases t with
      | field name =>
        obtain ⟨ts, htail, hpredicate⟩ := (reads_predicate name).sound hread
        refine ⟨.field name :: ts, ?_, 0, Nat.succ_pos bound, .predicate hpredicate⟩
        rw [List.cons_append, ← htail]
        rfl
      | keyword k =>
        cases k with
        | not =>
          -- a negation takes one level, and so does a group
          have hinner : (do return Expression.not (← operand)) tail = .ok (e, rest) := hread
          obtain ⟨ts, e, htail, ⟨depth, hlt, hunary⟩, rfl⟩ := h.of_map hinner
          refine ⟨.keyword .not :: ts, ?_, depth + 1, Nat.succ_lt_succ hlt, .not hunary⟩
          rw [List.cons_append, ← htail]
        | true =>
          obtain ⟨rfl, rfl⟩ := pure_eq_ok_iff.1 hread
          exact ⟨_, rfl, 0, Nat.succ_pos bound, .true⟩
        | false =>
          obtain ⟨rfl, rfl⟩ := pure_eq_ok_iff.1 hread
          exact ⟨_, rfl, 0, Nat.succ_pos bound, .false⟩
        | _ => simp [throw_eq_ok_iff] at hread
      | leftParen =>
        obtain ⟨e, mid, hinner, hread⟩ := bind_eq_ok_iff.1 hread
        obtain ⟨_, _, hclose, hpure⟩ := bind_eq_ok_iff.1 hread
        obtain ⟨rfl, rfl⟩ := pure_eq_ok_iff.1 hpure
        -- the group must be closed where the inner expression ends
        obtain ⟨ts, htail, depth, hlt, hjoined⟩ := (reads_disjunction h).sound hinner
        have hmid : tail = ts ++ .rightParen :: _ := htail.trans (by rw [demand_eq_ok_iff.1 hclose])
        refine ⟨.leftParen :: ts ++ [.rightParen], ?_, depth + 1, Nat.succ_lt_succ hlt,
          .group hjoined⟩
        rw [hmid]
        simp
      | _ => simp [throw_eq_ok_iff] at hread
  complete := by
    -- conversely, each rule leads through its own branch, with a level to spare for what is nested
    rintro ts e rest ⟨depth, hlt, hunary⟩ _
    cases hunary with
    | true => rfl
    | false => rfl
    | predicate hpredicate => exact (reads_predicate _).complete hpredicate trivial
    | not hoperand =>
      rw [nesting, bind_next?]
      exact h.map_complete Expression.not ⟨_, Nat.lt_of_succ_lt_succ hlt, hoperand⟩ trivial
    | @group ts _ _ hjoined =>
      -- the inner expression ends before the closing parenthesis, where no connective goes on
      have hinner : disjunction operand (ts ++ .rightParen :: rest) =
          .ok (e, .rightParen :: rest) :=
        (reads_disjunction h).complete ⟨_, Nat.lt_of_succ_lt_succ hlt, hjoined⟩ (by simp [Ended])
      rw [nesting, List.append_assoc, bind_next?]
      refine bind_eq_ok_iff.2 ⟨e, _, hinner, ?_⟩
      exact bind_eq_ok_iff.2 ⟨(), rest, demand_eq_ok_iff.2 rfl, rfl⟩

/-- **Unary expressions are read as deep as there is room.** Induction on the room. -/
theorem reads_unary (room : Nat) : Reads (unary room) (UnaryBelow (room + 1)) Anything := by
  induction room with
  | zero =>
    refine reads_nesting ⟨fun hread => ?_, ?_⟩
    · cases throw_eq_ok_iff.1 hread
    · rintro ts e rest ⟨depth, hlt, -⟩ _
      cases hlt
  | succ room ih => exact reads_nesting ih

end Nesting

end Parser

/-! ## Whole predicates -/

/-- **Exactly what the grammar derives is read**, unless it nests too deeply. -/
theorem ofTokens_eq_ok_iff {tokens : List Token} {e : Expression} :
    Expression.ofTokens tokens = .ok e ↔ ∃ depth ≤ maxDepth, Derives tokens e depth := by
  have hreads := Parser.reads_disjunction (Parser.reads_unary maxDepth)
  constructor
  · intro h
    change (Parser.disjunction (Parser.unary maxDepth) tokens >>= _) = _ at h
    cases hread : Parser.disjunction (Parser.unary maxDepth) tokens with
    | error fault =>
      rw [hread] at h
      cases h
    | ok x =>
      obtain ⟨e', rest⟩ := x
      rw [hread] at h
      obtain ⟨ts, htokens, depth, hlt, hjoined⟩ := hreads.sound hread
      -- the predicate ends where the tokens end
      cases rest with
      | cons t tail => cases h
      | nil =>
        cases h
        rw [htokens, List.append_nil]
        exact ⟨depth, Nat.le_of_lt_succ hlt, hjoined⟩
  · rintro ⟨depth, hle, hjoined⟩
    have hread : Parser.disjunction (Parser.unary maxDepth) (tokens ++ []) = .ok (e, []) :=
      hreads.complete ⟨depth, Nat.lt_succ_of_le hle, hjoined⟩ ⟨by simp, by simp⟩
    rw [List.append_nil] at hread
    show (Parser.disjunction (Parser.unary maxDepth) tokens >>= _) = _
    rw [hread]
    rfl

/-- Tokens derive one expression only, whatever its depth. -/
theorem Grammar.Derives.unique {tokens : List Token} {e e' : Expression} {depth depth' : Nat}
    (h : Derives tokens e depth) (h' : Derives tokens e' depth') : e = e' := by
  -- read with room for both
  have hreads := Parser.reads_disjunction (Parser.reads_unary (max depth depth'))
  have hlt : depth < max depth depth' + 1 := by omega
  have hlt' : depth' < max depth depth' + 1 := by omega
  exact hreads.unique ⟨by simp, by simp⟩ ⟨depth, hlt, h⟩ ⟨depth', hlt', h'⟩

/-- **The parser accepts exactly the documented grammar.** For every sequence of tokens:

* an expression is answered if and only if the tokens derive it with at most 256 groups and prefix
  negations open at once;
* the tokens derive no more than one expression;
* if they derive none within that depth, the answer is a fault, and a store reports every fault as
  an invalid expression. -/
theorem parser_accepts_grammar (tokens : List Token) :
    (∀ e, Expression.ofTokens tokens = .ok e ↔ ∃ depth ≤ 256, Derives tokens e depth) ∧
    (∀ e e' depth depth', Derives tokens e depth → Derives tokens e' depth' → e = e') ∧
    ((¬ ∃ e, ∃ depth ≤ 256, Derives tokens e depth) →
      ∃ fault, Expression.ofTokens tokens = .error fault ∧
        StoreError.ofFault fault = .invalidExpression fault.message) := by
  refine ⟨fun e => ofTokens_eq_ok_iff, fun e e' depth depth' h h' => h.unique h', fun hnone => ?_⟩
  cases hresult : Expression.ofTokens tokens with
  | error fault => exact ⟨fault, rfl, rfl⟩
  | ok e => exact absurd ⟨e, ofTokens_eq_ok_iff.1 hresult⟩ hnone

end ContentRepository.Query
