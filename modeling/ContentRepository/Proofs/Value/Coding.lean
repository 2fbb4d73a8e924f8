import ContentRepository.Proofs.Json.Doubles
import ContentRepository.Proofs.Json.Trees
import ContentRepository.Proofs.Table.Building
import ContentRepository.Proofs.Time.Stamps
import ContentRepository.Value.Json

/-!
# The JSON form of values is read back

What is written of a value names its kind, so it is read as a value of that kind. Two things may
keep it from being the same value. An array or object takes two levels of the nesting that a reader
allows, one for itself and one for its items; and a double is read from its digits with more than
one rounding.

* **`Value.ofJsonWithin?_toJson`** — a value is read back just if it is no deeper than the reader
  allows and its doubles are read back.
* **`Value.read?_write`** — which values are read back from their texts.
-/

namespace ContentRepository

/-- A double is read back from its text. -/
def Binary64.ReadsBack (d : Binary64) : Prop := Json.double? (Value.jsonDoubles.write d) = some d

namespace Value

/-! ## What a value has inside -/

mutual

/-- The levels of nesting that the form of a value takes. -/
def levels : Value → Nat
  | .array items => 2 + levelsOfItems items
  | .object fields => 2 + levelsOfFields fields
  | _ => 1

def levelsOfItems : List Value → Nat
  | [] => 0
  | item :: rest => max (levels item) (levelsOfItems rest)

def levelsOfFields : List (String × Value) → Nat
  | [] => 0
  | (_, value) :: rest => max (levels value) (levelsOfFields rest)

end

mutual

/-- The doubles in a value. -/
def doubles : Value → List Binary64
  | .double d => [d]
  | .array items => doublesOfItems items
  | .object fields => doublesOfFields fields
  | _ => []

def doublesOfItems : List Value → List Binary64
  | [] => []
  | item :: rest => doubles item ++ doublesOfItems rest

def doublesOfFields : List (String × Value) → List Binary64
  | [] => []
  | (_, value) :: rest => doubles value ++ doublesOfFields rest

end

/-! ## Forms are well formed -/

theorem wellFormed_tagged (kind : Kind) {content : Json} (h : content.WellFormed) :
    (tagged kind content).WellFormed :=
  ⟨rfl, rfl, rfl, h, trivial⟩

mutual

theorem wellFormed_toJson : ∀ v : Value, (∀ d ∈ v.doubles, d.isFinite = true) → v.toJson.WellFormed
  | .string _ | .reference _ | .date _ => fun _ => wellFormed_tagged _ rfl
  | .boolean _ => fun _ => wellFormed_tagged _ trivial
  | .long n => fun _ => wellFormed_tagged _ (Json.isLiteral_toString n.toInt)
  | .double d => fun hfinite =>
    wellFormed_tagged _ (jsonDoubles.isLiteral_write (hfinite d List.mem_cons_self))
  | .array items => fun hfinite => wellFormed_tagged _ (wellFormed_itemsToJson items hfinite)
  | .object fields => fun hfinite => wellFormed_tagged _ (wellFormed_fieldsToJson fields hfinite)

theorem wellFormed_itemsToJson : ∀ items : List Value,
    (∀ d ∈ doublesOfItems items, d.isFinite = true) → Json.WellFormedItems (itemsToJson items)
  | [] => fun _ => trivial
  | item :: rest => fun hfinite =>
    ⟨wellFormed_toJson item fun d hd => hfinite d (List.mem_append_left _ hd),
      wellFormed_itemsToJson rest fun d hd => hfinite d (List.mem_append_right _ hd)⟩

theorem wellFormed_fieldsToJson : ∀ fields : List (String × Value),
    (∀ d ∈ doublesOfFields fields, d.isFinite = true) →
      Json.WellFormedMembers (fieldsToJson fields)
  | [] => fun _ => trivial
  | (_, value) :: rest => fun hfinite =>
    ⟨rfl, wellFormed_toJson value fun d hd => hfinite d (List.mem_append_left _ hd),
      wellFormed_fieldsToJson rest fun d hd => hfinite d (List.mem_append_right _ hd)⟩

end

/-! ## Reading one level -/

theorem find?_tagged (kept : Bool) (room : Nat) (kind : Kind) (content : Json) :
    Tagging.find? kept room (tagged kind content) = some ⟨kind, content, kept⟩ := by
  cases kind <;> rfl

section Levels

variable {room : Nat} {kept : Bool}

theorem ofJsonWithin?_zero (json : Json) : ofJsonWithin? 0 kept json = none := by
  rw [ofJsonWithin?]

theorem ofJsonWithin?_date (written : String) :
    ofJsonWithin? (room + 1) kept (tagged .date (.text written)) =
      (Stamp.readLenient? written).map .date := by
  rw [ofJsonWithin?, find?_tagged]
  show (Stamp.readLenient? written).bind _ = _
  cases Stamp.readLenient? written <;> rfl

theorem ofJsonWithin?_long (literal : String) :
    ofJsonWithin? (room + 1) kept (tagged .long (.number literal)) =
      (Json.long? literal).map .long := by
  rw [ofJsonWithin?, find?_tagged]
  show (Json.long? literal).bind _ = _
  cases Json.long? literal <;> rfl

theorem ofJsonWithin?_double (literal : String) :
    ofJsonWithin? (room + 1) kept (tagged .double (.number literal)) =
      (Json.double? literal).map .double := by
  rw [ofJsonWithin?, find?_tagged]
  show (Json.double? literal).bind _ = _
  cases Json.double? literal <;> rfl

theorem ofJsonWithin?_array (items : List Json) :
    ofJsonWithin? (room + 1) kept (tagged .array (.array items)) =
      (itemsOfJson? room kept items).map .array := by
  rw [ofJsonWithin?, find?_tagged]
  show (itemsOfJson? room kept items).bind _ = _
  cases itemsOfJson? room kept items <;> rfl

theorem ofJsonWithin?_object (members : List (Option String × Json)) :
    ofJsonWithin? (room + 1) kept (tagged .object (.object members)) =
      (fieldsOfJson? room kept members).map .ofFields := by
  rw [ofJsonWithin?, find?_tagged]
  show (fieldsOfJson? room kept members).bind _ = _
  cases fieldsOfJson? room kept members <;> rfl

/-- Within one level any scalar but a double is read back. -/
theorem ofJsonWithin?_scalar {v : Value} (hscalar : v.isScalar = true) (hdoubles : v.doubles = []) :
    ofJsonWithin? (room + 1) kept v.toJson = some v := by
  cases v with
  | string text => rw [toJson, ofJsonWithin?, find?_tagged]; rfl
  | reference id => rw [toJson, ofJsonWithin?, find?_tagged]; rfl
  | boolean b => rw [toJson, ofJsonWithin?, find?_tagged]; rfl
  | date t => rw [toJson, ofJsonWithin?_date, Stamp.readLenient?_write, Option.map_some]
  | long n => rw [toJson, Json.ofInt, ofJsonWithin?_long, Json.long?_toString, Option.map_some]
  | double d => cases hdoubles
  | array items => cases hscalar
  | object fields => cases hscalar

theorem ofJsonWithin?_scalar_iff {v : Value} (hscalar : v.isScalar = true)
    (hdoubles : v.doubles = []) (room : Nat) (kept : Bool) :
    ofJsonWithin? room kept v.toJson = some v ↔
      v.levels ≤ room ∧ ∀ d ∈ v.doubles, d.ReadsBack := by
  have hlevels : v.levels = 1 := by cases v <;> first | rfl | cases hscalar
  rw [hdoubles, hlevels]
  cases room with
  | zero => simp [ofJsonWithin?_zero]
  | succ room => simp [ofJsonWithin?_scalar hscalar hdoubles]

end Levels

/-! ## Reading back -/

theorem mapM_cons_eq_some_iff {α β : Type} {f : α → Option β} {x : α} {xs : List α} {y : β}
    {ys : List β} :
    (x :: xs).mapM f = some (y :: ys) ↔ f x = some y ∧ xs.mapM f = some ys := by
  rw [List.mapM_cons]
  simp only [Option.bind_eq_bind, Option.pure_def, Option.bind_eq_some_iff, Option.some.injEq,
    List.cons.injEq]
  constructor
  · rintro ⟨a, ha, as, has, rfl, rfl⟩
    exact ⟨ha, has⟩
  · rintro ⟨ha, has⟩
    exact ⟨y, ha, ys, has, rfl, rfl⟩

theorem itemsOfJson?_cons_iff {room : Nat} {kept : Bool} {json : Json} {more : List Json}
    {item : Value} {rest : List Value} :
    itemsOfJson? (room + 1) kept (json :: more) = some (item :: rest) ↔
      ofJsonWithin? room kept json = some item ∧ itemsOfJson? (room + 1) kept more = some rest := by
  rw [itemsOfJson?, itemsOfJson?]
  exact mapM_cons_eq_some_iff

theorem fieldsOfJson?_cons_iff {room : Nat} {kept : Bool} {key : String} {json : Json}
    {more : List (Option String × Json)} {value : Value} {rest : List (String × Value)} :
    fieldsOfJson? (room + 1) kept ((some key, json) :: more) = some ((key, value) :: rest) ↔
      ofJsonWithin? room kept json = some value ∧
        fieldsOfJson? (room + 1) kept more = some rest := by
  rw [fieldsOfJson?, fieldsOfJson?, mapM_cons_eq_some_iff]
  refine and_congr_left' ?_
  show (ofJsonWithin? room kept json).bind _ = _ ↔ _
  cases ofJsonWithin? room kept json <;> simp

/-- The names of the fields are read as they were written. -/
theorem keys_of_fieldsOfJson? {room : Nat} {kept : Bool} {fields found : List (String × Value)}
    (h : fieldsOfJson? (room + 1) kept (fieldsToJson fields) = some found) :
    found.map (·.1) = fields.map (·.1) := by
  induction fields generalizing found with
  | nil =>
    rw [fieldsToJson, fieldsOfJson?] at h
    cases h
    rfl
  | cons field fields ih =>
    obtain ⟨key, value⟩ := field
    rw [fieldsToJson, fieldsOfJson?, List.mapM_cons] at h
    simp only [Option.bind_eq_bind, Option.pure_def, Option.bind_eq_some_iff,
      Option.some.injEq] at h
    obtain ⟨⟨key', value'⟩, ⟨_, rfl, _, _, hpair⟩, rest, hrest, rfl⟩ := h
    cases hpair
    rw [List.map_cons, List.map_cons, ih (by rw [fieldsOfJson?]; exact hrest)]

theorem forall_mem_append_and_max_le {a b room : Nat} {as bs : List Binary64} :
    ((a ≤ room ∧ ∀ d ∈ as, d.ReadsBack) ∧ b ≤ room ∧ ∀ d ∈ bs, d.ReadsBack) ↔
      max a b ≤ room ∧ ∀ d ∈ as ++ bs, d.ReadsBack := by
  rw [Nat.max_le, List.forall_mem_append]
  tauto

mutual

/-- **A value is read back just if it is no deeper than the reader allows and its doubles are read
back.** -/
theorem ofJsonWithin?_toJson : ∀ v : Value, v.IsCanonical → ∀ (room : Nat) (kept : Bool),
    ofJsonWithin? room kept v.toJson = some v ↔ v.levels ≤ room ∧ ∀ d ∈ v.doubles, d.ReadsBack
  | .boolean b => fun _ => ofJsonWithin?_scalar_iff rfl rfl
  | .long n => fun _ => ofJsonWithin?_scalar_iff rfl rfl
  | .string text => fun _ => ofJsonWithin?_scalar_iff rfl rfl
  | .reference id => fun _ => ofJsonWithin?_scalar_iff rfl rfl
  | .date t => fun _ => ofJsonWithin?_scalar_iff rfl rfl
  | .double d => by
    intro _ room kept
    cases room with
    | zero => simp [ofJsonWithin?_zero, levels]
    | succ room => simp [toJson, ofJsonWithin?_double, levels, doubles, Binary64.ReadsBack]
  | .array items => by
    intro h room kept
    rw [levels, doubles]
    match room with
    | 0 => simp [ofJsonWithin?_zero]
    -- the list inside the tag takes a level of its own, also when it is empty
    | 1 =>
      have hdeep : ¬ 2 + levelsOfItems items ≤ 1 := by omega
      simp [toJson, ofJsonWithin?_array, itemsOfJson?, hdeep]
    | room + 2 =>
      rw [toJson, ofJsonWithin?_array, Option.map_eq_some_iff]
      simp only [array.injEq, exists_eq_right]
      rw [itemsOfJson?_toJson items h room kept, Nat.add_comm 2, Nat.add_le_add_iff_right]
  | .object fields => by
    intro h room kept
    rw [levels, doubles]
    match room with
    | 0 => simp [ofJsonWithin?_zero]
    | 1 =>
      have hdeep : ¬ 2 + levelsOfFields fields ≤ 1 := by omega
      simp [toJson, ofJsonWithin?_object, fieldsOfJson?, hdeep]
    | room + 2 =>
      rw [Nat.add_comm 2, Nat.add_le_add_iff_right, ← fieldsOfJson?_toJson fields h.1 room kept,
        toJson, ofJsonWithin?_object, Option.map_eq_some_iff]
      -- a table takes the fields in any order; these are in its own, so it keeps them as they are
      have hkeys : (fields.map (·.1)).Pairwise (· < ·) := List.pairwise_map.2 h.2
      constructor
      · rintro ⟨found, hfound, hfields⟩
        have hentries := Table.entries_ofList ((keys_of_fieldsOfJson? hfound).symm ▸ hkeys)
        rw [ofFields, hentries, object.injEq] at hfields
        rw [← hfields] at hfound ⊢
        exact hfound
      · intro hfields
        exact ⟨fields, hfields, by rw [ofFields, Table.entries_ofList hkeys]⟩

theorem itemsOfJson?_toJson : ∀ items : List Value, CanonicalItems items →
    ∀ (room : Nat) (kept : Bool), itemsOfJson? (room + 1) kept (itemsToJson items) = some items ↔
      levelsOfItems items ≤ room ∧ ∀ d ∈ doublesOfItems items, d.ReadsBack
  | [] => fun _ room kept => by simp [itemsToJson, itemsOfJson?, levelsOfItems, doublesOfItems]
  | item :: rest => by
    intro h room kept
    rw [itemsToJson, itemsOfJson?_cons_iff, ofJsonWithin?_toJson item h.1,
      itemsOfJson?_toJson rest h.2]
    exact forall_mem_append_and_max_le

theorem fieldsOfJson?_toJson : ∀ fields : List (String × Value), CanonicalFields fields →
    ∀ (room : Nat) (kept : Bool),
    fieldsOfJson? (room + 1) kept (fieldsToJson fields) = some fields ↔
      levelsOfFields fields ≤ room ∧ ∀ d ∈ doublesOfFields fields, d.ReadsBack
  | [] => fun _ room kept => by simp [fieldsToJson, fieldsOfJson?, levelsOfFields, doublesOfFields]
  | (key, value) :: rest => by
    intro h room kept
    rw [fieldsToJson, fieldsOfJson?_cons_iff, ofJsonWithin?_toJson value h.1,
      fieldsOfJson?_toJson rest h.2]
    exact forall_mem_append_and_max_le

end

/-- **A value is read back from its text** just if it is not nested too deeply and its doubles are
read back. -/
theorem read?_write {v : Value} (hcanonical : v.IsCanonical)
    (hfinite : ∀ d ∈ v.doubles, d.isFinite = true) :
    read? v.write = some v ↔ v.levels ≤ 127 ∧ ∀ d ∈ v.doubles, d.ReadsBack := by
  rw [read?, write, Json.read?_write (wellFormed_toJson v hfinite)]
  exact ofJsonWithin?_toJson v hcanonical 127 false

/-- Scalars other than doubles are read back, whatever they contain. -/
theorem read?_write_of_isScalar {v : Value} (hscalar : v.isScalar = true)
    (hdoubles : v.doubles = []) : read? v.write = some v := by
  have hcanonical : v.IsCanonical := by cases v <;> trivial
  have hlevels : v.levels = 1 := by cases v <;> first | rfl | cases hscalar
  have hnone : ∀ {P : Binary64 → Prop}, ∀ d ∈ v.doubles, P d := by simp [hdoubles]
  exact (read?_write hcanonical hnone).2 ⟨by rw [hlevels]; decide, hnone⟩

end Value

end ContentRepository
