import ContentRepository.Proofs.Query.Comparisons
import ContentRepository.Proofs.Query.Sorting

/-!
# Ranges are cut from the order

Results are ordered by one comparison of values, and ranges are asked for in terms of another. Both
round an integer that they compare with a double; but then the first tells apart what is rounded to
one double, and the second does not. Still, a range of a field begins or ends with the documents
that the field puts first or last. There is one thing in the way. Of two integers that are rounded
to one double the greater stands before the double in the order, and it is not "at most" the smaller
one, but the double is.

* **`Value.Blurs`** — two integers and the double they are rounded to.
* **`Value.outcomes_of_isLE`** — how two values that are in order compare with a third.
* **`Query.filter_prefix_iff`**, **`Query.filter_suffix_iff`** — when what is selected from a list
  is its beginning, or its end.
* **`Query.ranges_of_order`** — ranges keep to the order, and are pieces of the ordered documents.
-/

namespace ContentRepository

namespace Value

variable {a b v : Value} {m n : Int64} {d : Binary64}

/-- Whether two values are scalars of one kind; integers and doubles are of one. -/
def sameKind (a b : Value) : Bool := a.isScalar && b.isScalar && a.rank == b.rank

/-- The integer `v` and the greater integer `a` are both rounded to the double `b`. -/
def Blurs (v a b : Value) : Prop :=
  ∃ m n : Int64, v = .long m ∧ a = .long n ∧ m.toInt < n.toInt ∧
    b = .double (.ofInt m.toInt) ∧ b = .double (.ofInt n.toInt)

/-! ## Three values -/

/-- Of two outcomes of comparisons the first is not beyond the second. -/
def NotBeyond (o p : Ordering) : Prop := (p = .lt → o = .lt) ∧ (o = .gt → p = .gt)

/-- What comes first does not compare beyond what comes later. -/
theorem notBeyond_of_isLE {α : Type} {cmp : α → α → Ordering} [Std.TransCmp cmp] {x y : α} (z : α)
    (h : (cmp x y).isLE = true) : NotBeyond (cmp x z) (cmp y z) := by
  refine ⟨fun hlt => Std.TransCmp.lt_of_isLE_of_lt h hlt, fun hgt => ?_⟩
  have hlt : cmp z x = .lt := Std.OrientedCmp.lt_of_gt hgt
  exact Std.OrientedCmp.gt_of_lt (Std.TransCmp.lt_of_lt_of_isLE hlt h)

theorem notBeyond_compare {i j : Int} (k : Int) (h : i ≤ j) :
    NotBeyond (compare i k) (compare j k) :=
  notBeyond_of_isLE k (Int.isLE_compare.2 h)

/-- In the order no value stands at a place beyond that of a later one. -/
theorem place_le_of_isLE (hrank : a.rank = b.rank) (hle : (compareTotal a b).isLE = true) :
    a.place ≤ b.place := by
  rw [← Int.not_lt]
  intro hlt
  have hgt : compare a.place b.place = .gt := Int.compare_eq_gt.2 hlt
  simp [compareTotal_eq, compareOuter, compareLex, compareOn, hrank, hgt] at hle

/-- A double that stands before an integer stands before what that is rounded to. -/
theorem orderKey_lt_of_isLE
    (hle : (compareTotal (.double d) (.long n)).isLE = true) :
    d.orderKey < (Binary64.ofInt n.toInt).orderKey := by
  have hplace : (double d).place ≤ (long n).place := place_le_of_isLE rfl hle
  refine Int.lt_iff_le_and_ne.2 ⟨hplace, fun heq => ?_⟩
  rw [compareTotal, Binary64.compareTotal, heq, Std.ReflOrd.compare_self] at hle
  cases hle

/-- Apart from numbers, scalars of one kind are compared as all values are. -/
theorem compareScalar?_of_not_number (h : a.sameKind v = true) (hv : v.rank ≠ 1) :
    compareScalar? a v = some (compareTotal a v) := by
  cases a <;> cases v <;>
    first
    | rfl
    | exact absurd rfl hv
    | cases h

/-- Only scalars of one kind are compared. -/
theorem sameKind_of_compareScalar? {o : Ordering} (h : compareScalar? a v = some o) :
    a.sameKind v = true := by
  unfold compareScalar? at h
  split at h
  · next hkind => exact hkind
  · cases h

theorem number_of_sameKind (h : a.sameKind v = true) (hv : v.rank = 1) :
    (∃ n, a = .long n) ∨ ∃ d, a = .double d := by
  have hrank : a.rank = 1 := by
    simp only [sameKind, Bool.and_eq_true, beq_iff_eq] at h
    rw [h.2, hv]
  cases a with
  | long n => exact .inl ⟨n, rfl⟩
  | double d => exact .inr ⟨d, rfl⟩
  | _ => cases hrank

/-- What two values give that are in order, each compared with a third one. -/
inductive Outcomes (v a b : Value) : Prop
  | inOrder {o p : Ordering} (ho : compareScalar? a v = some o) (hp : compareScalar? b v = some p)
      (hnot : NotBeyond o p) (hsharp : ¬ Blurs v a b)
  | blurred (ho : compareScalar? a v = some .gt) (hp : compareScalar? b v = some .eq)
      (hblurs : Blurs v a b)

theorem not_blurs_long : ¬ Blurs v a (.long n) := by
  rintro ⟨_, _, -, -, -, heq, -⟩
  cases heq

theorem not_blurs_double : ¬ Blurs v (.double d) b := by
  rintro ⟨_, _, -, heq, -⟩
  cases heq

theorem outcomes_long_double
    (hle : (Binary64.ofInt n.toInt).orderKey ≤ d.orderKey) :
    Outcomes (.long m) (.long n) (.double d) := by
  by_cases hblurs : Blurs (.long m) (.long n) (.double d)
  · obtain ⟨m', n', hm, hn, hlt, hd, -⟩ := id hblurs
    cases hm
    cases hn
    cases hd
    refine .blurred ?_ ?_ hblurs
    · exact congrArg some (Int.compare_eq_gt.2 hlt)
    · exact congrArg some Std.ReflOrd.compare_self
  · refine .inOrder rfl rfl ⟨fun hlt => ?_, fun hgt => ?_⟩ hblurs
    · -- if the double is less than `m`, so is the number `n` is rounded to, and then `n` itself
      have hkeys : d.orderKey < (Binary64.ofInt m.toInt).orderKey := Int.compare_eq_lt.1 hlt
      exact Int.compare_eq_lt.2 (Binary64.lt_of_orderKey_ofInt_lt (Int.lt_of_le_of_lt hle hkeys))
    · have hlt : m.toInt < n.toInt := Int.compare_eq_gt.1 hgt
      have hrounded : (Binary64.ofInt m.toInt).orderKey ≤ (Binary64.ofInt n.toInt).orderKey :=
        Binary64.orderKey_ofInt_mono (Int.le_of_lt hlt)
      refine Int.compare_eq_gt.2 (Int.lt_iff_le_and_ne.2 ⟨Int.le_trans hrounded hle, fun heq => ?_⟩)
      -- with no room between them, both integers would be rounded to the double
      have hm : d = .ofInt m.toInt := Binary64.eq_of_orderKey_eq heq.symm
      have hn : d = .ofInt n.toInt := Binary64.eq_of_orderKey_eq (by omega)
      exact hblurs ⟨m, n, rfl, rfl, hlt, congrArg double hm, congrArg double hn⟩

theorem outcomes_double_long
    (hlt : d.orderKey < (Binary64.ofInt n.toInt).orderKey) :
    Outcomes (.long m) (.double d) (.long n) := by
  refine .inOrder rfl rfl ⟨fun hless => ?_, fun hgreater => ?_⟩ not_blurs_long
  · have hle : (Binary64.ofInt n.toInt).orderKey ≤ (Binary64.ofInt m.toInt).orderKey :=
      Binary64.orderKey_ofInt_mono (Int.le_of_lt (Int.compare_eq_lt.1 hless))
    exact Int.compare_eq_lt.2 (Int.lt_of_lt_of_le hlt hle)
  · have hkeys : (Binary64.ofInt m.toInt).orderKey < d.orderKey := Int.compare_eq_gt.1 hgreater
    exact Int.compare_eq_gt.2 (Binary64.lt_of_orderKey_ofInt_lt (Int.lt_trans hkeys hlt))

/-- Compared with a double, numbers go by their places. -/
theorem compareScalar?_double (ha : a.sameKind (.double d) = true) :
    compareScalar? a (.double d) = some (compare a.place d.orderKey) := by
  obtain ⟨n, rfl⟩ | ⟨c, rfl⟩ := number_of_sameKind ha rfl
  · rfl
  · rfl

/-- **What comes first compares no further than what comes later**, unless the later is a double that
blurs the two others. -/
theorem outcomes_of_isLE (ha : a.sameKind v = true) (hb : b.sameKind v = true)
    (hle : (compareTotal a b).isLE = true) : Outcomes v a b := by
  have hrank : a.rank = b.rank := by
    simp only [sameKind, Bool.and_eq_true, beq_iff_eq] at ha hb
    rw [ha.2, hb.2]
  cases v with
  | long m =>
    -- an integer `v` is the hard case: integers are compared with it as they are, doubles rounded
    obtain ⟨n, rfl⟩ | ⟨c, rfl⟩ := number_of_sameKind ha rfl <;>
      obtain ⟨k, rfl⟩ | ⟨d, rfl⟩ := number_of_sameKind hb rfl
    · exact .inOrder rfl rfl (notBeyond_of_isLE _ hle) not_blurs_long
    · exact outcomes_long_double (place_le_of_isLE hrank hle)
    · exact outcomes_double_long (orderKey_lt_of_isLE hle)
    · exact .inOrder rfl rfl (notBeyond_compare _ (place_le_of_isLE hrank hle)) not_blurs_double
  | double e =>
    -- all numbers are rounded to be compared with a double, so nothing is lost to the order
    refine .inOrder (compareScalar?_double ha) (compareScalar?_double hb)
      (notBeyond_compare _ (place_le_of_isLE hrank hle)) ?_
    rintro ⟨_, _, heq, -⟩
    cases heq
  | array | object => cases a <;> cases ha
  | _ =>
    refine .inOrder (compareScalar?_of_not_number ha (by simp [rank]))
      (compareScalar?_of_not_number hb (by simp [rank])) (notBeyond_of_isLE _ hle) ?_
    rintro ⟨_, _, heq, -⟩
    cases heq

/-- What is blurred stands in order. -/
theorem Blurs.compareTotal_eq_lt (h : Blurs v a b) : compareTotal a b = .lt := by
  obtain ⟨m, n, -, rfl, -, -, rfl⟩ := h
  rw [compareTotal, Binary64.compareTotal, Std.ReflOrd.compare_self]
  rfl

/-- Values in order are of kinds in order. -/
theorem rank_le_of_isLE (hle : (compareTotal a b).isLE = true) : a.rank ≤ b.rank := by
  by_cases hrank : a.rank = b.rank
  · exact Nat.le_of_eq hrank
  · rw [compareTotal_of_rank_ne hrank] at hle
    exact Nat.isLE_compare.1 hle

theorem isScalar_of_rank_eq (hrank : a.rank = v.rank) : a.isScalar = v.isScalar := by
  cases a <;> cases v <;>
    first
    | rfl
    | cases hrank

end Value

namespace Query

/-! ## Beginnings and ends of lists -/

section Lists

variable {α : Type} {p : α → Bool} {l : List α}

/-- What is selected from a list is its beginning exactly if nothing selected comes after something
else. Induction on the list. -/
theorem filter_prefix_iff :
    l.filter p <+: l ↔ l.Pairwise fun a b => p b = true → p a = true := by
  induction l with
  | nil => simp
  | cons a l ih =>
    rw [List.pairwise_cons]
    by_cases ha : p a = true
    · rw [List.filter_cons_of_pos ha, List.cons_prefix_cons, ih]
      simp [ha]
    · rw [List.filter_cons_of_neg ha]
      constructor
      · intro hstarts
        -- the head is not selected, so nothing is
        have hnil : l.filter p = [] := by
          refine List.eq_nil_iff_forall_not_mem.2 fun b hb => ?_
          obtain ⟨c, rest, heq⟩ := List.exists_cons_of_ne_nil (List.ne_nil_of_mem hb)
          rw [heq, List.cons_prefix_cons] at hstarts
          have hc : c ∈ l.filter p := heq ▸ List.mem_cons_self
          exact ha (hstarts.1 ▸ (List.mem_filter.1 hc).2)
        rw [List.filter_eq_nil_iff] at hnil
        exact ⟨fun b hb hpb => absurd hpb (hnil b hb), List.pairwise_of_forall_mem_list
          fun b _ c hc hpc => absurd hpc (hnil c hc)⟩
      · rintro ⟨hhead, -⟩
        rw [List.filter_eq_nil_iff.2 fun b hb hpb => ha (hhead b hb hpb)]
        exact List.nil_prefix

theorem filter_suffix_iff :
    l.filter p <:+ l ↔ l.Pairwise fun a b => p a = true → p b = true := by
  rw [← List.reverse_prefix, ← List.filter_reverse, filter_prefix_iff, List.pairwise_reverse]

/-- What lies at one height of a list that ascends is a piece of it. -/
theorem filter_infix_of_pairwise {g : α → Nat} (h : l.Pairwise fun a b => g a ≤ g b) (k : Nat) :
    (l.filter fun a => g a == k) <:+: l := by
  have hup : (l.filter fun a => k ≤ g a) <:+ l :=
    filter_suffix_iff.2 (h.imp fun hle => by simpa using fun hk => Nat.le_trans hk hle)
  have hdown : ((l.filter fun a => k ≤ g a).filter fun a => g a ≤ k) <+:
      l.filter fun a => k ≤ g a :=
    filter_prefix_iff.2 ((h.filter _).imp fun hle => by simpa using fun hk => Nat.le_trans hle hk)
  have hheight : (l.filter fun a => g a == k) =
      (l.filter fun a => k ≤ g a).filter fun a => g a ≤ k := by
    rw [List.filter_filter]
    refine List.filter_congr fun a _ => ?_
    rw [Bool.eq_iff_iff]
    simp only [beq_iff_eq, Bool.and_eq_true, decide_eq_true_eq]
    omega
  rw [hheight]
  exact hdown.isInfix.trans hup.isInfix

end Lists

/-! ## Documents ordered by a field -/

/-- The ascending order by one field. -/
def ascending (field : String) : SortKeys := [⟨field, false⟩]

/-- Whether the field holds a scalar of the kind of `v`. -/
def ofKind (field : String) (v : Value) (d : Document) : Bool := (d.get? field).any (·.sameKind v)

/-- The field of `b` holds a double that blurs `v` and what the field of `a` holds. -/
def Blurred (field : String) (v : Value) (a b : Document) : Prop :=
  ∃ x y, a.get? field = some x ∧ b.get? field = some y ∧ v.Blurs x y

/-- Two documents, the first of which does not come after the second, and the ranges that `v` bounds.
With the second a lower range has the first, and with the first an upper range the second. Where `v`
belongs to a lower range itself, or is all that an upper range lacks, this is so exactly if nothing
is blurred. -/
structure KeptBy (field : String) (v : Value) (a b : Document) : Prop where
  lt : (Expression.compares field .lt v).holds b = true →
    (Expression.compares field .lt v).holds a = true
  ge : (Expression.compares field .ge v).holds a = true →
    (Expression.compares field .ge v).holds b = true
  le_iff : ((Expression.compares field .le v).holds b = true →
    (Expression.compares field .le v).holds a = true) ↔ ¬ Blurred field v a b
  gt_iff : ((Expression.compares field .gt v).holds a = true →
    (Expression.compares field .gt v).holds b = true) ↔ ¬ Blurred field v a b

variable {field : String} {v : Value} {a b : Document}

theorem ofKind_iff {d : Document} :
    ofKind field v d = true ↔ ∃ x, d.get? field = some x ∧ x.sameKind v = true := by
  rw [ofKind, Option.any_eq_true]

theorem compare_ascending (a b : Document) :
    SortKeys.compare (ascending field) a b = comparePresence (a.get? field) (b.get? field) :=
  Ordering.then_eq

theorem holds_of_compareScalar? {d : Document} {x : Value} {o : Ordering} {relation : Relation}
    (hx : d.get? field = some x) (ho : x.compareScalar? v = some o)
    (horder : relation.isOrder = true) :
    (Expression.compares field relation v).holds d = relation.accepts o := by
  rw [Expression.holds_compares hx, Expression.related_of_isOrder horder, ho]
  rfl

/-- Lower ranges have all outcomes that are not beyond one they have, and upper ranges the others. -/
theorem accepts_of_notBeyond {o p : Ordering} (h : Value.NotBeyond o p) :
    (Relation.lt.accepts p = true → Relation.lt.accepts o = true) ∧
      (Relation.ge.accepts o = true → Relation.ge.accepts p = true) ∧
      (Relation.le.accepts p = true → Relation.le.accepts o = true) ∧
      (Relation.gt.accepts o = true → Relation.gt.accepts p = true) := by
  obtain ⟨hless, hgreater⟩ := h
  cases o <;> cases p <;>
    first
    | decide
    | cases hless rfl
    | cases hgreater rfl

/-- **A range keeps to the order of its field.** -/
theorem keptBy_of_isLE (ha : ofKind field v a = true) (hb : ofKind field v b = true)
    (hle : (SortKeys.compare (ascending field) a b).isLE = true) : KeptBy field v a b := by
  obtain ⟨x, hx, hxv⟩ := ofKind_iff.1 ha
  obtain ⟨y, hy, hyv⟩ := ofKind_iff.1 hb
  have hblurred : Blurred field v a b ↔ v.Blurs x y := by
    simp [Blurred, hx, hy]
  rw [compare_ascending, hx, hy] at hle
  cases Value.outcomes_of_isLE hxv hyv hle with
  | @inOrder o p ho hp hnot hsharp =>
    have hthere : ¬ Blurred field v a b := mt hblurred.1 hsharp
    obtain ⟨hlt, hge, hle, hgt⟩ := accepts_of_notBeyond hnot
    refine ⟨?_, ?_, iff_of_true ?_ hthere, iff_of_true ?_ hthere⟩ <;>
      rwa [holds_of_compareScalar? hx ho rfl, holds_of_compareScalar? hy hp rfl]
  | blurred ho hp hblurs =>
    have hthere : Blurred field v a b := hblurred.2 hblurs
    refine ⟨?_, ?_, iff_of_false ?_ (not_not_intro hthere),
      iff_of_false ?_ (not_not_intro hthere)⟩ <;>
      rw [holds_of_compareScalar? hx ho rfl, holds_of_compareScalar? hy hp rfl] <;>
      decide

/-- Ordered documents and the ranges that `v` bounds. The documents of its kind are a piece of them.
Of this the lower range without `v` is the beginning, and the upper range with `v` is the end. So are
the other two, exactly if nothing is blurred. -/
structure Pieces (field : String) (v : Value) (ordered : List Document) : Prop where
  kind : ordered.filter (ofKind field v) <:+: ordered
  lt : ordered.filter ((Expression.compares field .lt v).holds ·) <+:
    ordered.filter (ofKind field v)
  ge : ordered.filter ((Expression.compares field .ge v).holds ·) <:+
    ordered.filter (ofKind field v)
  le_iff : ordered.filter ((Expression.compares field .le v).holds ·) <+:
    ordered.filter (ofKind field v) ↔ ∀ a ∈ ordered, ∀ b ∈ ordered, ¬ Blurred field v a b
  gt_iff : ordered.filter ((Expression.compares field .gt v).holds ·) <:+
    ordered.filter (ofKind field v) ↔ ∀ a ∈ ordered, ∀ b ∈ ordered, ¬ Blurred field v a b

/-- Only documents of the kind are in a range. -/
theorem ofKind_of_holds {d : Document} {relation : Relation} (horder : relation.isOrder = true)
    (h : (Expression.compares field relation v).holds d = true) : ofKind field v d = true := by
  rw [Expression.holds, Option.any_eq_true] at h
  obtain ⟨x, hx, hrelated⟩ := h
  rw [Expression.related_of_isOrder horder, Option.any_eq_true] at hrelated
  obtain ⟨o, ho, -⟩ := hrelated
  exact ofKind_iff.2 ⟨x, hx, Value.sameKind_of_compareScalar? ho⟩

theorem filter_range {relation : Relation} (horder : relation.isOrder = true)
    (documents : List Document) :
    documents.filter ((Expression.compares field relation v).holds ·) =
      (documents.filter (ofKind field v)).filter
        ((Expression.compares field relation v).holds ·) := by
  rw [List.filter_filter]
  refine List.filter_congr fun d _ => ?_
  rw [Bool.eq_iff_iff, Bool.and_eq_true]
  exact ⟨fun h => ⟨h, ofKind_of_holds horder h⟩, fun h => h.1⟩

/-- Where a document stands that is ordered by a field: first those without it, then kind by kind. -/
def height (field : String) (d : Document) : Nat := (d.get? field).elim 0 (·.rank + 1)

theorem height_le_of_isLE (hle : (SortKeys.compare (ascending field) a b).isLE = true) :
    height field a ≤ height field b := by
  rw [compare_ascending] at hle
  rw [height, height]
  cases hx : a.get? field with
  | none => exact Nat.zero_le _
  | some x =>
    cases hy : b.get? field with
    | none =>
      rw [hx, hy] at hle
      cases hle
    | some y =>
      rw [hx, hy] at hle
      exact Nat.succ_le_succ (Value.rank_le_of_isLE hle)

theorem ofKind_eq_height (hv : v.isScalar = true) (d : Document) :
    ofKind field v d = (height field d == v.rank + 1) := by
  rw [ofKind, height]
  cases d.get? field with
  | none => rfl
  | some x =>
    rw [Bool.eq_iff_iff]
    simp only [Option.any_some, Option.elim_some, Value.sameKind, hv, Bool.and_true,
      Bool.and_eq_true, beq_iff_eq, Nat.add_right_cancel_iff]
    exact ⟨fun h => h.2, fun h => ⟨(Value.isScalar_of_rank_eq h).trans hv, h⟩⟩

namespace Blurred

theorem ofKind (h : Blurred field v a b) : ofKind field v a = true ∧ ofKind field v b = true := by
  obtain ⟨x, y, hx, hy, m, n, rfl, rfl, -, rfl, -⟩ := h
  exact ⟨ofKind_iff.2 ⟨_, hx, rfl⟩, ofKind_iff.2 ⟨_, hy, rfl⟩⟩

theorem compare_eq_lt (h : Blurred field v a b) :
    SortKeys.compare (ascending field) a b = .lt := by
  obtain ⟨x, y, hx, hy, hblurs⟩ := h
  rw [compare_ascending, hx, hy]
  exact hblurs.compareTotal_eq_lt

/-- What is blurred does not come after the double that blurs it. -/
theorem not_isLE (h : Blurred field v a b) :
    ¬ (SortKeys.compare (ascending field) b a).isLE = true := by
  rw [Std.OrientedCmp.gt_of_lt h.compare_eq_lt]
  decide

end Blurred

/-- Ordered documents among which nothing is blurred by what comes later have nothing blurred. -/
theorem pairwise_not_blurred_iff {ordered : List Document}
    (hordered : ordered.Pairwise fun a b => (SortKeys.compare (ascending field) a b).isLE = true) :
    (ordered.filter (ofKind field v)).Pairwise (fun a b => ¬ Blurred field v a b) ↔
      ∀ a ∈ ordered, ∀ b ∈ ordered, ¬ Blurred field v a b := by
  constructor
  · intro hlater a ha b hb hblurred
    have hself : ∀ d ∈ ordered.filter (ofKind field v), ¬ Blurred field v d d :=
      fun d _ h => h.not_isLE Std.ReflCmp.isLE_rfl
    have hearlier : (ordered.filter (ofKind field v)).Pairwise
        (flip fun a b => ¬ Blurred field v a b) :=
      (hordered.filter _).imp fun hle h => h.not_isLE hle
    obtain ⟨hkinda, hkindb⟩ := hblurred.ofKind
    exact hlater.forall_of_forall_of_flip hself hearlier (List.mem_filter.2 ⟨ha, hkinda⟩)
      (List.mem_filter.2 ⟨hb, hkindb⟩) hblurred
  · intro hnone
    exact List.pairwise_of_forall_mem_list fun a ha b hb =>
      hnone a (List.mem_filter.1 ha).1 b (List.mem_filter.1 hb).1

/-- **Ranges are pieces of documents that are ordered by their field.** -/
theorem pieces_of_pairwise {ordered : List Document}
    (hordered : ordered.Pairwise fun a b => (SortKeys.compare (ascending field) a b).isLE = true) :
    Pieces field v ordered := by
  -- among documents of the same kind, none that is kept comes after one that is not
  have hkept : (ordered.filter (ofKind field v)).Pairwise (KeptBy field v) :=
    (hordered.filter _).imp_of_mem fun ha hb hle =>
      keptBy_of_isLE (List.mem_filter.1 ha).2 (List.mem_filter.1 hb).2 hle
  refine ⟨?kind, ?lt, ?ge, ?le, ?gt⟩
  case kind =>
    by_cases hv : v.isScalar = true
    · -- the documents of one kind stand together, as kinds ascend
      have hascends : ordered.Pairwise fun a b => height field a ≤ height field b :=
        hordered.imp height_le_of_isLE
      rw [funext (ofKind_eq_height hv)]
      exact filter_infix_of_pairwise hascends _
    · -- no document is of the kind of a value that has no order
      have hnil : ordered.filter (ofKind field v) = [] := by
        refine List.filter_eq_nil_iff.2 fun d _ hd => ?_
        obtain ⟨x, -, hkind⟩ := ofKind_iff.1 hd
        simp only [Value.sameKind, Bool.and_eq_true] at hkind
        exact hv hkind.1.2
      rw [hnil]
      exact List.nil_infix
  case lt =>
    -- what is below comes first, what is not comes last
    rw [filter_range rfl, filter_prefix_iff]
    exact hkept.imp KeptBy.lt
  case ge =>
    rw [filter_range rfl, filter_suffix_iff]
    exact hkept.imp KeptBy.ge
  case le =>
    -- the two that blur need in addition that nothing is blurred
    rw [filter_range rfl, filter_prefix_iff, ← pairwise_not_blurred_iff hordered]
    exact ⟨hkept.imp₂ fun _ _ hk hle => hk.le_iff.1 hle, hkept.imp₂ fun _ _ hk => hk.le_iff.2⟩
  case gt =>
    rw [filter_range rfl, filter_suffix_iff, ← pairwise_not_blurred_iff hordered]
    exact ⟨hkept.imp₂ fun _ _ hk hgt => hk.gt_iff.1 hgt, hkept.imp₂ fun _ _ hk => hk.gt_iff.2⟩

/-- **Ranges and the order by a field.** Let `v` be a value.

* Of two documents with scalars of its kind in the field, in this order, a range has the one on its
  side with the other. The ranges "at most" and "greater" fail to do so in one case: the first has an
  integer greater than the integer `v`, and the second the double to which both are rounded.
* In documents ordered by the field those of the kind stand together. "Less" is the beginning of
  these, and "at least" is the end; and unless there are two documents of the said case, "at most" is
  a beginning too, and "greater" an end. -/
theorem ranges_of_order (field : String) (v : Value) :
    (∀ a b, ofKind field v a = true → ofKind field v b = true →
      (SortKeys.compare (ascending field) a b).isLE = true → KeptBy field v a b) ∧
    ∀ documents, Pieces field v (SortKeys.sort (ascending field) documents) :=
  ⟨fun _ _ => keptBy_of_isLE, fun _ => pieces_of_pairwise SortKeys.pairwise_isLE_sort⟩

/-- The document with this size. -/
def sized (size : Value) : Document := (Document.withId "a").set "size" size

theorem get?_sized (size : Value) : (sized size).get? "size" = some size := by
  rw [sized, Document.get?_set, if_pos rfl]

theorem ofKind_sized (size v : Value) : ofKind "size" v (sized size) = size.sameKind v := by
  rw [ofKind, get?_sized]
  rfl

theorem compare_sized (x y : Value) :
    SortKeys.compare (ascending "size") (sized x) (sized y) = x.compareTotal y := by
  rw [compare_ascending, get?_sized, get?_sized]
  rfl

/-- Beyond 2 ^ 53 there are integers that the order tells from a double to which they are rounded. -/
theorem keptBy_of_large :
    let v : Value := .long 9007199254740992
    let a := sized (.long 9007199254740993)
    let b := sized (.double (.ofInt 9007199254740992))
    ofKind "size" v a = true ∧ ofKind "size" v b = true ∧
      (SortKeys.compare (ascending "size") a b).isLE = true ∧ KeptBy "size" v a b := by
  intro v a b
  have ha : ofKind "size" v a = true := ofKind_sized _ _
  have hb : ofKind "size" v b = true := ofKind_sized _ _
  have hle : (SortKeys.compare (ascending "size") a b).isLE = true := by
    rw [compare_sized]
    decide
  exact ⟨ha, hb, hle, (ranges_of_order "size" v).1 a b ha hb hle⟩

/-- A lower range may have a document without having all that come before it. -/
theorem atMost_skips_rounded :
    ¬ ∀ (field : String) (v : Value) (a b : Document), ofKind field v a = true →
      ofKind field v b = true → (SortKeys.compare (ascending field) a b).isLE = true →
      (Expression.compares field .le v).holds b = true →
        (Expression.compares field .le v).holds a = true := by
  intro hkeeps
  have hle : (SortKeys.compare (ascending "size") (sized (.long 9007199254740993))
      (sized (.double (.ofInt 9007199254740992)))).isLE = true := by
    rw [compare_sized]
    decide
  have hb : (Expression.compares "size" .le (.long 9007199254740992)).holds
      (sized (.double (.ofInt 9007199254740992))) = true := by
    rw [Expression.holds_compares (get?_sized _)]
    decide
  have ha := hkeeps "size" (.long 9007199254740992) _ _ (ofKind_sized _ _) (ofKind_sized _ _) hle hb
  rw [Expression.holds_compares (get?_sized _)] at ha
  revert ha
  decide

end Query

end ContentRepository
