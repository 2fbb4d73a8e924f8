import ContentRepository.Proofs.Number.Rounding
import ContentRepository.Value.Order

/-!
# Values are totally ordered

Values are compared from the outside in: first by what a scalar, or the kind of an array or object,
shows by itself (`Value.compareOuter`), then by what an array or object has inside
(`Value.compareInner`). The outer comparison is one of numbers and texts in turn. That an integer is
compared with integers as it is, but with doubles after rounding, is no exception: rounding keeps
the order of integers.

* **`Value.compareTotal_eq`** — the two parts of a comparison.
* **`Value.eq_of_compareTotal`** — only a value itself is equal to it.
* The order is transitive and oriented, which the standard library's classes express.
* **`Value.compareTotal_totalOrder`** — all of it in one: a total order, on which sorting can rely.
-/

namespace ContentRepository

theorem Instant.ext {s t : Instant} (hseconds : s.seconds = t.seconds) (hnanos : s.nanos = t.nanos) :
    s = t := by
  cases s
  cases t
  cases hseconds
  cases hnanos
  rfl

namespace Value

/-! ## Outside and inside -/

/-- Where a scalar that is no text stands among those of its kind. -/
def place : Value → Int
  | .boolean b => b.toInt
  | .long n => (Binary64.ofInt n.toInt).orderKey
  | .double d => d.orderKey
  | .date t => t.seconds
  | _ => 0

/-- What decides at one place: integers stand before the double they round to. -/
def subplace : Value → Nat
  | .double _ => 1
  | .date t => t.nanos
  | _ => 0

/-- What decides between integers that round to one double. -/
def integer : Value → Int
  | .long n => n.toInt
  | _ => 0

def text : Value → String
  | .string text | .reference text => text
  | _ => ""

def compareOuter : Value → Value → Ordering :=
  compareLex (compareOn rank) <| compareLex (compareOn place) <| compareLex (compareOn subplace) <|
    compareLex (compareOn integer) (compareOn text)

instance : Std.TransCmp compareOuter :=
  inferInstanceAs (Std.TransCmp (compareLex _ _))

def compareInner : Value → Value → Ordering
  | .array a, .array b => compareItems a b
  | .object a, .object b => compareFields a b
  | _, _ => .eq

theorem compareTotal_of_rank_ne {a b : Value} (h : a.rank ≠ b.rank) :
    compareTotal a b = compare a.rank b.rank := by
  cases a <;> cases b <;> first | rfl | exact absurd rfl h

theorem compareOuter_of_rank_ne {a b : Value} (h : a.rank ≠ b.rank) :
    (compareOuter a b).then (compareInner a b) = compare a.rank b.rank := by
  have hne : compare a.rank b.rank ≠ .eq := by simpa using h
  cases hcompare : compare a.rank b.rank with
  | eq => exact absurd hcompare hne
  | _ => simp [compareOuter, compareLex, compareOn, hcompare]

/-- Rounding first, and comparing the integers themselves where that does not decide, comes to
comparing the integers. -/
theorem compare_ofInt_then (m n : Int) :
    (compare (Binary64.ofInt m).orderKey (Binary64.ofInt n).orderKey).then (compare m n) =
      compare m n := by
  cases hrounded : compare (Binary64.ofInt m).orderKey (Binary64.ofInt n).orderKey with
  | eq => rfl
  | lt =>
    have hlt : m < n := Binary64.lt_of_orderKey_ofInt_lt (Int.compare_eq_lt.1 hrounded)
    rw [Int.compare_eq_lt.2 hlt]
    rfl
  | gt =>
    have hlt : n < m := Binary64.lt_of_orderKey_ofInt_lt (Int.compare_eq_gt.1 hrounded)
    rw [Int.compare_eq_gt.2 hlt]
    rfl

/-- **A comparison goes from the outside in.** -/
theorem compareTotal_eq (a b : Value) :
    compareTotal a b = (compareOuter a b).then (compareInner a b) := by
  by_cases hrank : a.rank = b.rank
  · cases a <;> cases b <;>
      first
      | (simp [rank] at hrank; done)
      | simp [compareTotal, Binary64.compareTotal, Instant.compareTotal, compareOuter, compareInner,
          compareLex, compareOn, rank, place, subplace, integer, text, compare_ofInt_then]
    case boolean.boolean a b => cases a <;> cases b <;> rfl
    -- integers and doubles have one rank, and the subplace tells them apart
    case long.double => rfl
    case double.long => rfl
  · rw [compareTotal_of_rank_ne hrank, compareOuter_of_rank_ne hrank]

/-! ## Equality -/

theorem rank_eq_of_compareOuter {a b : Value} (h : compareOuter a b = .eq) : a.rank = b.rank := by
  have hrank : compare a.rank b.rank = .eq := (Ordering.then_eq_eq.1 h).1
  exact Nat.compare_eq_eq.1 hrank

/-- A scalar is told from all other values by what shows outside. -/
theorem eq_of_compareOuter {a b : Value} (ha : a.isScalar = true) (h : compareOuter a b = .eq) :
    a = b := by
  have hrank := rank_eq_of_compareOuter h
  simp only [compareOuter, compareLex, compareOn, Ordering.then_eq_eq, Std.compare_eq_iff_eq] at h
  obtain ⟨-, hplace, hsubplace, hinteger, htext⟩ := h
  cases a <;> cases b <;>
    first
    | (simp [rank] at hrank; done)
    | (simp [isScalar] at ha; done)
    | skip
  case boolean.boolean a b => cases a <;> cases b <;> simp_all [place]
  case long.long => exact congrArg long (Int64.toInt_inj.1 hinteger)
  case long.double => cases hsubplace
  case double.long => cases hsubplace
  case double.double => exact congrArg double (Binary64.eq_of_orderKey_eq hplace)
  case string.string => exact congrArg string htext
  case reference.reference => exact congrArg reference htext
  case date.date => exact congrArg date (Instant.ext hplace hsubplace)

mutual

/-- **Only a value itself is equal to it.** -/
theorem eq_of_compareTotal : ∀ a b : Value, compareTotal a b = .eq → a = b
  | .array as, b, h => by
    rw [compareTotal_eq, Ordering.then_eq_eq] at h
    have hrank := rank_eq_of_compareOuter h.1
    cases b with
    | array bs => exact congrArg array (eq_of_compareItems as bs h.2)
    | _ => simp [rank] at hrank
  | .object as, b, h => by
    rw [compareTotal_eq, Ordering.then_eq_eq] at h
    have hrank := rank_eq_of_compareOuter h.1
    cases b with
    | object bs => exact congrArg object (eq_of_compareFields as bs h.2)
    | _ => simp [rank] at hrank
  | .boolean _, _, h | .long _, _, h | .double _, _, h | .string _, _, h | .reference _, _, h
  | .date _, _, h => by
    rw [compareTotal_eq, Ordering.then_eq_eq] at h
    exact eq_of_compareOuter rfl h.1

theorem eq_of_compareItems : ∀ as bs : List Value, compareItems as bs = .eq → as = bs
  | [], [], _ => rfl
  | a :: as, b :: bs, h => by
    rw [compareItems, Ordering.then_eq_eq] at h
    rw [eq_of_compareTotal a b h.1, eq_of_compareItems as bs h.2]

theorem eq_of_compareFields :
    ∀ as bs : List (String × Value), compareFields as bs = .eq → as = bs
  | [], [], _ => rfl
  | (k, a) :: as, (l, b) :: bs, h => by
    rw [compareFields, Ordering.then_eq_eq, Ordering.then_eq_eq] at h
    obtain ⟨hkey, hvalue, hrest⟩ := h
    rw [Std.compare_eq_iff_eq.1 hkey, eq_of_compareTotal a b hvalue, eq_of_compareFields as bs hrest]

end

/-! ## Orientation -/

theorem swap_compareTotal_of_inner {a b : Value}
    (h : (compareInner a b).swap = compareInner b a) :
    (compareTotal a b).swap = compareTotal b a := by
  have houter : (compareOuter a b).swap = compareOuter b a := Std.OrientedCmp.eq_swap.symm
  rw [compareTotal_eq a b, compareTotal_eq b a, Ordering.swap_then, houter, h]

mutual

/-- **Comparing the other way round gives the opposite.** -/
theorem swap_compareTotal : ∀ a b : Value, (compareTotal a b).swap = compareTotal b a
  | .array as, b => swap_compareTotal_of_inner (by
    cases b with
    | array bs => exact swap_compareItems as bs
    | _ => rfl)
  | .object as, b => swap_compareTotal_of_inner (by
    cases b with
    | object bs => exact swap_compareFields as bs
    | _ => rfl)
  | .boolean _, b | .long _, b | .double _, b | .string _, b | .reference _, b | .date _, b =>
    swap_compareTotal_of_inner (by cases b <;> rfl)

theorem swap_compareItems : ∀ as bs : List Value, (compareItems as bs).swap = compareItems bs as
  | [], [] | [], _ :: _ | _ :: _, [] => rfl
  | a :: as, b :: bs => by
    rw [compareItems, compareItems, Ordering.swap_then, swap_compareTotal a b,
      swap_compareItems as bs]

theorem swap_compareFields :
    ∀ as bs : List (String × Value), (compareFields as bs).swap = compareFields bs as
  | [], [] | [], _ :: _ | _ :: _, [] => rfl
  | (k, a) :: as, (l, b) :: bs => by
    have hkey : (compare k l).swap = compare l k := Std.OrientedCmp.eq_swap.symm
    rw [compareFields, compareFields, Ordering.swap_then, Ordering.swap_then, hkey,
      swap_compareTotal a b, swap_compareFields as bs]

end

instance : Std.OrientedCmp compareTotal where
  eq_swap := (swap_compareTotal _ _).symm

instance : Std.LawfulEqCmp compareTotal where
  eq_of_compare := eq_of_compareTotal _ _

/-! ## Transitivity -/

/-- What is compared first decides, unless it is the same. -/
theorem then_lt_trans {α : Type} {cmp : α → α → Ordering} {a b c : α} {o p q : Ordering}
    (heq : ∀ {x y}, cmp x y = .eq → x = y)
    (hfirst : cmp a b = .lt → cmp b c = .lt → cmp a c = .lt)
    (hrest : o = .lt → p = .lt → q = .lt) (hab : (cmp a b).then o = .lt)
    (hbc : (cmp b c).then p = .lt) : (cmp a c).then q = .lt := by
  rw [Ordering.then_eq_lt] at hab hbc ⊢
  rcases hab with hab | ⟨hab, hab'⟩ <;> rcases hbc with hbc | ⟨hbc, hbc'⟩
  · exact .inl (hfirst hab hbc)
  · exact .inl (heq hbc ▸ hab)
  · exact .inl (heq hab ▸ hbc)
  · rw [heq hab]
    exact .inr ⟨hbc, hrest hab' hbc'⟩

theorem compareTotal_lt_trans_of_inner {a b c : Value}
    (h : compareInner a b = .lt → compareInner b c = .lt → compareInner a c = .lt)
    (hab : compareTotal a b = .lt) (hbc : compareTotal b c = .lt) : compareTotal a c = .lt := by
  rw [compareTotal_eq, Ordering.then_eq_lt] at hab hbc ⊢
  rcases hab with hab | ⟨hab, hab'⟩ <;> rcases hbc with hbc | ⟨hbc, hbc'⟩
  · exact .inl (Std.TransCmp.lt_trans hab hbc)
  · exact .inl (Std.TransCmp.lt_of_lt_of_eq hab hbc)
  · exact .inl (Std.TransCmp.lt_of_eq_of_lt hab hbc)
  · exact .inr ⟨Std.TransCmp.eq_trans hab hbc, h hab' hbc'⟩

mutual

/-- **The order is transitive.** As only a value itself is equal to it, strictly smaller values are
all that is left to be looked at. -/
theorem compareTotal_lt_trans : ∀ a b c : Value,
    compareTotal a b = .lt → compareTotal b c = .lt → compareTotal a c = .lt
  | .array as, b, c => compareTotal_lt_trans_of_inner (by
    cases b with
    | array bs => cases c with
      | array cs => exact compareItems_lt_trans as bs cs
      | _ => simp [compareInner]
    | _ => simp [compareInner])
  | .object as, b, c => compareTotal_lt_trans_of_inner (by
    cases b with
    | object bs => cases c with
      | object cs => exact compareFields_lt_trans as bs cs
      | _ => simp [compareInner]
    | _ => simp [compareInner])
  | .boolean _, b, c | .long _, b, c | .double _, b, c | .string _, b, c | .reference _, b, c
  | .date _, b, c => compareTotal_lt_trans_of_inner (by simp [compareInner])

theorem compareItems_lt_trans : ∀ as bs cs : List Value,
    compareItems as bs = .lt → compareItems bs cs = .lt → compareItems as cs = .lt
  | [], _ :: _, _ :: _, _, _ => rfl
  | a :: as, b :: bs, c :: cs, hab, hbc =>
    then_lt_trans (eq_of_compareTotal _ _) (compareTotal_lt_trans a b c)
      (compareItems_lt_trans as bs cs) hab hbc

theorem compareFields_lt_trans : ∀ as bs cs : List (String × Value),
    compareFields as bs = .lt → compareFields bs cs = .lt → compareFields as cs = .lt
  | [], _ :: _, _ :: _, _, _ => rfl
  | (_, a) :: as, (_, b) :: bs, (_, c) :: cs, hab, hbc =>
    then_lt_trans Std.LawfulEqCmp.eq_of_compare Std.TransCmp.lt_trans
      (then_lt_trans (eq_of_compareTotal _ _) (compareTotal_lt_trans a b c)
        (compareFields_lt_trans as bs cs)) hab hbc

end

instance : Std.TransCmp compareTotal where
  isLE_trans := by
    intro a b c hab hbc
    rw [Ordering.isLE_iff_eq_lt_or_eq_eq] at hab hbc ⊢
    rcases hab with hab | hab
    · rcases hbc with hbc | hbc
      · exact .inl (compareTotal_lt_trans a b c hab hbc)
      · exact .inl (eq_of_compareTotal b c hbc ▸ hab)
    · rwa [eq_of_compareTotal a b hab]

/-- **Values are totally ordered**, however deep they are nested: the other way round a comparison
gives the opposite, smaller-or-equal and smaller pass along, and only a value itself is equal. -/
theorem compareTotal_totalOrder (a b c : Value) :
    compareTotal a b = (compareTotal b a).swap ∧
    ((compareTotal a b).isLE → (compareTotal b c).isLE →
      (compareTotal a c).isLE ∧
      (compareTotal a b = .lt ∨ compareTotal b c = .lt → compareTotal a c = .lt)) ∧
    (compareTotal a b = .eq ↔ a = b) := by
  refine ⟨Std.OrientedCmp.eq_swap, fun hab hbc => ⟨Std.TransCmp.isLE_trans hab hbc, fun hlt => ?_⟩,
    Std.LawfulEqCmp.compare_eq_iff_eq⟩
  rcases hlt with hlt | hlt
  · exact Std.TransCmp.lt_of_lt_of_isLE hlt hbc
  · exact Std.TransCmp.lt_of_isLE_of_lt hab hlt

end Value

end ContentRepository
