import ContentRepository.Proofs.Json.Literals
import ContentRepository.Proofs.Json.Strings

/-!
# Reading back what was written

A tree is well formed if all its numbers are literals and all its strings have content. Its text
says just this tree: the reader goes through the text of each part and stops where the next begins.

* **`Json.value_write`** — the text of a tree, with anything after it that no literal goes on with.
* **`Json.read?_write`** — whole texts.
-/

namespace ContentRepository.Json

open Text (EndsRun)

mutual

/-- All numbers are literals and all strings have content. -/
def WellFormed : Json → Prop
  | .null | .bool _ => True
  | .number literal => IsLiteral literal
  | .string content => content.isSome = true
  | .array items => WellFormedItems items
  | .object members => WellFormedMembers members

def WellFormedItems : List Json → Prop
  | [] => True
  | item :: rest => WellFormed item ∧ WellFormedItems rest

def WellFormedMembers : List (Option String × Json) → Prop
  | [] => True
  | (key, json) :: rest => key.isSome = true ∧ WellFormed json ∧ WellFormedMembers rest

end

/-! ## Steps of the reader -/

section Steps

variable {steps : Nat} {text rest : List Char} {c : Char}

theorem skipSpace_of_head (hc : isSpace c = false) (text : List Char) :
    skipSpace (c :: text) = some ((), c :: text) := by
  show some ((), (c :: text).dropWhile isSpace) = _
  rw [List.dropWhile_cons_of_neg (by simp [hc])]

theorem word_cons (c : Char) (text : List Char) : word [c] (c :: text) = some ((), text) := by
  rw [word]
  simp
  rfl

theorem value_string {content : Option String} (h : stringLiteral text = some (content, rest)) :
    value (steps + 1) ('"' :: text) = some (.string content, rest) := by
  rw [value, bind_eq (skipSpace_of_head rfl text), bind_eq (a := some '"') rfl]
  simp only
  rw [bind_eq (word_cons '"' text), bind_eq h]
  rfl

/-- The characters that white space and the values other than numbers start with. -/
def otherStarts : List Char := [' ', '\n', '\r', '\t', 'n', 't', 'f', '"', '[', '\x7b']

/-- Numbers start with a digit or a minus sign, and nothing else does. -/
theorem notMem_otherStarts (hc : c.isDigit = true ∨ c = '-') : c ∉ otherStarts := by
  have hother : otherStarts.all (fun d => ¬ (d.isDigit = true ∨ d = '-')) = true := by decide
  exact fun hmem => of_decide_eq_true (List.all_eq_true.1 hother c hmem) hc

theorem isSpace_of_numeric (hc : c.isDigit = true ∨ c = '-') : isSpace c = false := by
  have hstart := notMem_otherStarts hc
  simp only [otherStarts, List.mem_cons, not_or] at hstart
  simp [isSpace, hstart]

theorem value_number {literal : String} (hc : c.isDigit = true ∨ c = '-')
    (h : numberLiteral (c :: text) = some (literal, rest)) :
    value (steps + 1) (c :: text) = some (.number literal, rest) := by
  have hstart := notMem_otherStarts hc
  simp only [otherStarts, List.mem_cons, List.not_mem_nil, or_false, not_or] at hstart
  obtain ⟨-, -, -, -, hn, ht, hf, hquote, hbracket, hbrace⟩ := hstart
  rw [value, bind_eq (skipSpace_of_head (isSpace_of_numeric hc) text), bind_eq (a := some c) rfl]
  simp only [Option.some.injEq, hn, ht, hf, hquote, hbracket, hbrace, imp_self]
  rw [bind_eq h]
  rfl

theorem value_items {found : List Json} (hspace : isSpace c = false) (hclose : c ≠ ']')
    (h : items steps (c :: text) = some (found, rest)) :
    value (steps + 1) ('[' :: c :: text) = some (.array found, rest) := by
  rw [value, bind_eq (skipSpace_of_head rfl _), bind_eq (a := some '[') rfl]
  simp only
  rw [bind_eq (word_cons '[' _), bind_eq (skipSpace_of_head hspace text),
    bind_eq (a := some c) rfl]
  simp only [Option.some.injEq, if_neg hclose]
  rw [bind_eq h]
  rfl

theorem value_members {found : List (Option String × Json)}
    (h : members steps ('"' :: text) = some (found, rest)) :
    value (steps + 1) ('\x7b' :: '"' :: text) = some (.object found, rest) := by
  rw [value, bind_eq (skipSpace_of_head rfl _), bind_eq (a := some '\x7b') rfl]
  simp only
  rw [bind_eq (word_cons '\x7b' _), bind_eq (skipSpace_of_head rfl text),
    bind_eq (a := some '"') rfl]
  simp only [Option.some.injEq, Char.reduceEq, if_false]
  rw [bind_eq h]
  rfl

theorem items_last {item : Json} (h : value steps text = some (item, ']' :: rest)) :
    items (steps + 1) text = some ([item], rest) := by
  rw [items, bind_eq h]
  rfl

theorem items_comma {item : Json} {more : List Char} {found : List Json}
    (h : value steps text = some (item, ',' :: more))
    (hmore : items steps more = some (found, rest)) :
    items (steps + 1) text = some (item :: found, rest) := by
  rw [items, bind_eq h, bind_eq (skipSpace_of_head rfl more), bind_eq (a := some ',') rfl]
  simp only [if_true]
  rw [bind_eq (word_cons ',' more), bind_eq hmore]
  rfl

theorem members_last {key : Option String} {json : Json} {more : List Char}
    (hkey : stringLiteral text = some (key, ':' :: more))
    (h : value steps more = some (json, '\x7d' :: rest)) :
    members (steps + 1) ('"' :: text) = some ([(key, json)], rest) := by
  rw [members, bind_eq (skipSpace_of_head rfl text), bind_eq (word_cons '"' text), bind_eq hkey,
    bind_eq (skipSpace_of_head rfl more), bind_eq (word_cons ':' more), bind_eq h]
  rfl

theorem members_comma {key : Option String} {json : Json} {more others : List Char}
    {found : List (Option String × Json)} (hkey : stringLiteral text = some (key, ':' :: more))
    (h : value steps more = some (json, ',' :: others))
    (hmore : members steps others = some (found, rest)) :
    members (steps + 1) ('"' :: text) = some ((key, json) :: found, rest) := by
  rw [members, bind_eq (skipSpace_of_head rfl text), bind_eq (word_cons '"' text), bind_eq hkey,
    bind_eq (skipSpace_of_head rfl more), bind_eq (word_cons ':' more), bind_eq h,
    bind_eq (skipSpace_of_head rfl others), bind_eq (a := some ',') rfl]
  simp only [if_true]
  rw [bind_eq (word_cons ',' others), bind_eq hmore]
  rfl

end Steps

/-! ## Texts of trees -/

theorem toList_write_array (items : List Json) :
    (write (.array items)).toList = '[' :: ((writeItems items).toList ++ [']']) := by
  simp [write]

theorem toList_write_object (members : List (Option String × Json)) :
    (write (.object members)).toList = '\x7b' :: ((writeMembers members).toList ++ ['\x7d']) := by
  simp [write]

theorem head_literal {literal : String} (h : IsLiteral literal) :
    ∃ c cs, literal.toList = c :: cs ∧ (c.isDigit = true ∨ c = '-') := by
  obtain @⟨whole, fraction, exponent, negative, hwhole, -, -⟩ := h
  rw [String.toList_ofList]
  cases negative with
  | true => exact ⟨'-', _, rfl, .inr rfl⟩
  | false =>
    rcases hwhole with rfl | ⟨⟨hne, hdigit⟩, -⟩
    · exact ⟨'0', _, rfl, .inl rfl⟩
    · obtain ⟨c, cs, rfl⟩ := List.exists_cons_of_ne_nil hne
      exact ⟨c, _, rfl, .inl (hdigit c List.mem_cons_self)⟩

theorem toList_writeContent (content : String) (rest : List Char) :
    (writeContent (some content)).toList ++ rest =
      '"' :: (content.toList.flatMap escape ++ '"' :: rest) := by
  simp [writeContent, toList_writeText]

/-- What a value starts with is neither a space nor a closing bracket. -/
theorem head_write {json : Json} (h : json.WellFormed) :
    ∃ c cs, (write json).toList = c :: cs ∧ isSpace c = false ∧ c ≠ ']' := by
  cases json with
  | null => exact ⟨'n', _, rfl, rfl, by decide⟩
  | bool b =>
    cases b with
    | true => exact ⟨'t', _, rfl, rfl, by decide⟩
    | false => exact ⟨'f', _, rfl, rfl, by decide⟩
  | number literal =>
    obtain ⟨c, cs, hlist, hc⟩ := head_literal h
    refine ⟨c, cs, hlist, isSpace_of_numeric hc, ?_⟩
    rintro rfl
    revert hc
    decide
  | string content => exact ⟨'"', _, toList_writeText _, rfl, by decide⟩
  | array items => exact ⟨'[', _, toList_write_array items, rfl, by decide⟩
  | object members => exact ⟨'\x7b', _, toList_write_object members, rfl, by decide⟩

theorem length_write_pos {json : Json} (h : json.WellFormed) : 0 < (write json).toList.length := by
  obtain ⟨c, cs, hlist, -⟩ := head_write h
  rw [hlist]
  exact Nat.succ_pos _

theorem toList_writeItems_cons_cons (item next : Json) (more : List Json) :
    (writeItems (item :: next :: more)).toList =
      (write item).toList ++ ',' :: (writeItems (next :: more)).toList := by
  simp [writeItems]

theorem head_writeItems {item : Json} (h : item.WellFormed) (more : List Json) :
    ∃ c cs, (writeItems (item :: more)).toList = c :: cs ∧ isSpace c = false ∧ c ≠ ']' := by
  obtain ⟨c, cs, hlist, hc⟩ := head_write h
  cases more with
  | nil => exact ⟨c, cs, hlist, hc⟩
  | cons next more =>
    rw [toList_writeItems_cons_cons, hlist]
    exact ⟨c, _, rfl, hc⟩

theorem toList_writeMembers_singleton (key : String) (json : Json) (rest : List Char) :
    (writeMembers [(some key, json)]).toList ++ rest =
      '"' :: (key.toList.flatMap escape ++ '"' :: ':' :: ((write json).toList ++ rest)) := by
  simp [writeMembers, writeContent, toList_writeText]

theorem toList_writeMembers_cons_cons (key : String) (json : Json)
    (next : Option String × Json) (more : List (Option String × Json)) (rest : List Char) :
    (writeMembers ((some key, json) :: next :: more)).toList ++ rest =
      '"' :: (key.toList.flatMap escape ++ '"' :: ':' ::
        ((write json).toList ++ ',' :: ((writeMembers (next :: more)).toList ++ rest))) := by
  simp [writeMembers, writeContent, toList_writeText]

theorem length_writeMembers_singleton (key : String) (json : Json) :
    (write json).toList.length < (writeMembers [(some key, json)]).toList.length := by
  have hlength := congrArg List.length (toList_writeMembers_singleton key json [])
  simp only [List.append_nil, List.length_cons, List.length_append] at hlength
  omega

theorem length_writeMembers_cons_cons (key : String) (json : Json) (next : Option String × Json)
    (more : List (Option String × Json)) :
    (write json).toList.length + (writeMembers (next :: more)).toList.length <
      (writeMembers ((some key, json) :: next :: more)).toList.length := by
  have hlength := congrArg List.length (toList_writeMembers_cons_cons key json next more [])
  simp only [List.append_nil, List.length_cons, List.length_append] at hlength
  omega

theorem head_writeMembers {found : List (Option String × Json)} (h : WellFormedMembers found)
    (hne : found ≠ []) : ∃ cs, (writeMembers found).toList = '"' :: cs := by
  obtain ⟨⟨key, json⟩, more, rfl⟩ := List.exists_cons_of_ne_nil hne
  obtain ⟨key, rfl⟩ := Option.isSome_iff_exists.1 h.1
  cases more with
  | nil =>
    have hlist := toList_writeMembers_singleton key json []
    rw [List.append_nil] at hlist
    exact ⟨_, hlist⟩
  | cons next more =>
    have hlist := toList_writeMembers_cons_cons key json next more []
    rw [List.append_nil] at hlist
    exact ⟨_, hlist⟩

mutual

/-- **A value is read up to where its text ends.** -/
theorem value_write : ∀ json : Json, json.WellFormed → ∀ (steps : Nat) (rest : List Char),
    2 * (write json).toList.length ≤ steps + 2 → EndsRun continuesLiteral rest →
    value (steps + 1) ((write json).toList ++ rest) = some (json, rest)
  | .null => fun _ _ _ _ _ => rfl
  | .bool true => fun _ _ _ _ _ => rfl
  | .bool false => fun _ _ _ _ _ => rfl
  | .number literal => by
    intro h steps rest _ hend
    obtain ⟨c, cs, hlist, hc⟩ := head_literal h
    have hnumber := numberLiteral_run h hend
    rw [write, hlist, List.cons_append] at *
    exact value_number hc hnumber
  | .string content => by
    intro h steps rest _ _
    obtain ⟨content, rfl⟩ := Option.isSome_iff_exists.1 h
    rw [write, toList_writeContent]
    exact value_string (stringLiteral_writeText content rest)
  -- the empty array and the empty object have a case of their own in the reader
  | .array [] => fun _ _ _ _ _ => rfl
  | .array (item :: more) => by
    intro h steps rest hsteps _
    rw [toList_write_array, List.length_cons, List.length_append] at hsteps
    -- the brackets take two characters, so there are steps enough for the items
    have hitems := items_write (item :: more) h (List.cons_ne_nil _ _) steps rest (by omega)
    obtain ⟨c, cs, hlist, hspace, hclose⟩ := head_writeItems h.1 more
    rw [hlist] at hitems
    rw [toList_write_array, hlist, List.cons_append, List.append_assoc]
    exact value_items hspace hclose hitems
  | .object [] => fun _ _ _ _ _ => rfl
  | .object (member :: more) => by
    intro h steps rest hsteps _
    rw [toList_write_object, List.length_cons, List.length_append] at hsteps
    -- likewise for the members
    have hmembers := members_write (member :: more) h (List.cons_ne_nil _ _) steps rest (by omega)
    obtain ⟨cs, hlist⟩ := head_writeMembers h (List.cons_ne_nil _ _)
    rw [hlist] at hmembers
    rw [toList_write_object, hlist, List.cons_append, List.append_assoc]
    exact value_members hmembers

/-- The items are read up to the closing bracket. -/
theorem items_write : ∀ found : List Json, WellFormedItems found → found ≠ [] →
    ∀ (steps : Nat) (rest : List Char), 2 * (writeItems found).toList.length ≤ steps →
    items steps ((writeItems found).toList ++ ']' :: rest) = some (found, rest)
  | [] => fun _ hne => absurd rfl hne
  | [item] => by
    intro h _ steps rest hsteps
    rw [writeItems] at hsteps ⊢
    -- no text is empty: two steps for each character leave one for the list and one for the item
    have hpos := length_write_pos h.1
    obtain ⟨steps, rfl⟩ : ∃ n, steps = n + 2 := ⟨steps - 2, by omega⟩
    exact items_last (value_write item h.1 steps _ hsteps (Text.endsRun_cons rfl))
  | item :: next :: more => by
    intro h _ steps rest hsteps
    have hpos := length_write_pos h.1
    rw [toList_writeItems_cons_cons, List.length_append, List.length_cons] at hsteps
    obtain ⟨steps, rfl⟩ : ∃ n, steps = n + 2 := ⟨steps - 2, by omega⟩
    rw [toList_writeItems_cons_cons, List.append_assoc, List.cons_append]
    exact items_comma (value_write item h.1 steps _ (by omega) (Text.endsRun_cons rfl))
      (items_write (next :: more) h.2 (List.cons_ne_nil _ _) (steps + 1) rest (by omega))

/-- The members are read up to the closing brace. -/
theorem members_write : ∀ found : List (Option String × Json), WellFormedMembers found →
    found ≠ [] → ∀ (steps : Nat) (rest : List Char),
    2 * (writeMembers found).toList.length ≤ steps →
    members steps ((writeMembers found).toList ++ '\x7d' :: rest) = some (found, rest)
  | [] => fun _ hne => absurd rfl hne
  | [(key, json)] => by
    intro h _ steps rest hsteps
    -- the key of a member is a text, since the tree is well formed
    obtain ⟨key, rfl⟩ := Option.isSome_iff_exists.1 h.1
    have hpos := length_write_pos h.2.1
    have hlength := length_writeMembers_singleton key json
    obtain ⟨steps, rfl⟩ : ∃ n, steps = n + 2 := ⟨steps - 2, by omega⟩
    rw [toList_writeMembers_singleton]
    exact members_last (stringLiteral_writeText key _)
      (value_write json h.2.1 steps _ (by omega) (Text.endsRun_cons rfl))
  | (key, json) :: next :: more => by
    intro h _ steps rest hsteps
    obtain ⟨key, rfl⟩ := Option.isSome_iff_exists.1 h.1
    have hpos := length_write_pos h.2.1
    have hlength := length_writeMembers_cons_cons key json next more
    obtain ⟨steps, rfl⟩ : ∃ n, steps = n + 2 := ⟨steps - 2, by omega⟩
    -- the comma takes a step, which pays for going on with the other members
    rw [toList_writeMembers_cons_cons]
    exact members_comma (stringLiteral_writeText key _)
      (value_write json h.2.1 steps _ (by omega) (Text.endsRun_cons rfl))
      (members_write (next :: more) h.2.2 (List.cons_ne_nil _ _) (steps + 1) rest (by omega))

end

/-- **A text that was written is read back.** -/
theorem read?_write {json : Json} (h : json.WellFormed) : read? (write json) = some json := by
  have hvalue := value_write json h (2 * (write json).toList.length + 1) [] (by omega)
    Text.endsRun_nil
  rw [List.append_nil] at hvalue
  show (value _ _).bind _ = _
  rw [hvalue]
  rfl

/-- Different trees have different texts. -/
theorem eq_of_write_eq {a b : Json} (ha : a.WellFormed) (hb : b.WellFormed)
    (h : write a = write b) : a = b := by
  have hread := read?_write ha
  rw [h, read?_write hb] at hread
  exact (Option.some.inj hread).symm

end ContentRepository.Json
