import ContentRepository.Proofs.Value.Ordering
import ContentRepository.Query.Ordering

/-!
# Documents in the order of some keys

Comparing documents by a list of keys is a total preorder, as comparing values is a total order. So
sorting has one possible outcome: the documents in the order of the keys and, where these do not
decide, in the order in which they were given.

* **`SortKeys.filter_sort`** — documents that compare equal keep their order.
* **`SortKeys.Before`** — one document comes before another in results, those that compare equal
  going by their ids.
* **`SortKeys.pairwise_sort`** — documents in ascending order of their ids are sorted into that
  order.
-/

namespace ContentRepository.Query

instance : Std.TransCmp comparePresence where
  eq_swap := by
    intro a b
    cases a with
    | none => cases b <;> rfl
    | some v => cases b with
      | none => rfl
      | some w => exact (Value.swap_compareTotal w v).symm
  isLE_trans := by
    intro a b c hab hbc
    cases a with
    | none => cases c <;> rfl
    | some u => cases b with
      | none => cases hab
      | some v => cases c with
        | none => cases hbc
        | some w =>
          have hvalues : Std.TransCmp Value.compareTotal := inferInstance
          exact hvalues.isLE_trans hab hbc

instance (key : SortKey) : Std.TransCmp key.compare := by
  have hpresence : Std.TransCmp comparePresence := inferInstance
  have hfields : Std.TransCmp fun a b : Document =>
      comparePresence (a.get? key.field) (b.get? key.field) :=
    { eq_swap := hpresence.eq_swap
      isLE_trans := hpresence.isLE_trans }
  by_cases hdescending : key.descending = true
  · have hkey : key.compare = fun a b =>
        comparePresence (b.get? key.field) (a.get? key.field) := by
      funext a b
      rw [SortKey.compare, if_pos hdescending]
      exact hpresence.eq_swap.symm
    rw [hkey]
    exact hfields.opposite
  · have hkey : key.compare = fun a b =>
        comparePresence (a.get? key.field) (b.get? key.field) := by
      funext a b
      rw [SortKey.compare, if_neg hdescending]
    rw [hkey]
    exact hfields

namespace SortKeys

instance instTransCmp : ∀ keys : SortKeys, Std.TransCmp keys.compare
  | [] =>
    { eq_swap := rfl
      isLE_trans := fun _ _ => rfl }
  | key :: keys =>
    have := instTransCmp keys
    inferInstanceAs (Std.TransCmp (compareLex key.compare (compare keys)))

variable {keys : SortKeys} {documents : List Document}

theorem compare_isLE_trans (a b c : Document) (hab : (keys.compare a b).isLE = true)
    (hbc : (keys.compare b c).isLE = true) : (keys.compare a c).isLE = true :=
  (instTransCmp keys).isLE_trans hab hbc

theorem compare_isLE_total (a b : Document) :
    ((keys.compare a b).isLE || (keys.compare b a).isLE) = true := by
  have hswap : keys.compare b a = (keys.compare a b).swap := (instTransCmp keys).eq_swap
  rw [hswap]
  cases keys.compare a b <;> rfl

/-! ## Sorting -/

theorem perm_sort : (keys.sort documents).Perm documents := List.mergeSort_perm _ _

theorem pairwise_isLE_sort :
    (keys.sort documents).Pairwise fun a b => (keys.compare a b).isLE = true :=
  List.pairwise_mergeSort compare_isLE_trans compare_isLE_total documents

/-- Whether the keys do not decide between two documents. -/
def tied (keys : SortKeys) (a b : Document) : Bool := keys.compare a b == .eq

/-- **Documents that compare equal keep their order.** -/
theorem filter_sort (a : Document) :
    (keys.sort documents).filter (keys.tied a) = documents.filter (keys.tied a) := by
  have hequal : (documents.filter (keys.tied a)).Pairwise
      fun b c => (keys.compare b c).isLE = true := by
    refine List.pairwise_of_forall_mem_list fun b hb c hc => ?_
    have hab : keys.compare a b = .eq := eq_of_beq (List.mem_filter.1 hb).2
    have hac : keys.compare a c = .eq := eq_of_beq (List.mem_filter.1 hc).2
    have hba : keys.compare b a = .eq := Std.OrientedCmp.eq_symm hab
    rw [Std.TransCmp.eq_trans hba hac]
    rfl
  have hkept : (documents.filter (keys.tied a)).Sublist (keys.sort documents) :=
    List.sublist_mergeSort compare_isLE_trans compare_isLE_total hequal List.filter_sublist
  have hsublist := hkept.filter (keys.tied a)
  rw [List.filter_filter] at hsublist
  simp only [Bool.and_self] at hsublist
  have hperm : (keys.sort documents).Perm documents := perm_sort
  exact (hsublist.eq_of_length (hperm.filter _).length_eq.symm).symm

/-- The id of the first document comes before that of the second. -/
def IdBefore (a b : Document) : Prop := ∃ i j, a.id? = some i ∧ b.id? = some j ∧ i < j

/-- Where the keys do not decide, documents go by their ids. -/
def Before (keys : SortKeys) (a b : Document) : Prop :=
  keys.compare a b = .lt ∨ keys.compare a b = .eq ∧ IdBefore a b

theorem Before.asymm {a b : Document} (hab : keys.Before a b) : ¬ keys.Before b a := by
  have hswap : keys.compare b a = (keys.compare a b).swap := (instTransCmp keys).eq_swap
  rintro hba
  rcases hab with hlt | ⟨heq, i, j, hi, hj, hij⟩
  · rw [Before, hswap, hlt] at hba
    simp at hba
  · rw [Before, hswap, heq] at hba
    obtain hlt | ⟨-, j', i', hj', hi', hji⟩ := hba
    · cases hlt
    · cases hi.symm.trans hi'
      cases hj.symm.trans hj'
      exact String.lt_irrefl _ (String.lt_trans hij hji)

/-- **Documents in ascending order of their ids are sorted by the keys and then by their ids.** -/
theorem pairwise_sort (hids : documents.Pairwise IdBefore) :
    (keys.sort documents).Pairwise keys.Before := by
  rw [List.pairwise_iff_forall_sublist]
  intro a b hab
  have hle := List.pairwise_iff_forall_sublist.1 pairwise_isLE_sort hab
  rcases Ordering.isLE_iff_eq_lt_or_eq_eq.1 hle with hlt | heq
  · exact .inl hlt
  · refine .inr ⟨heq, ?_⟩
    -- both are among those that compare equal to the first, which kept their order
    have hself : keys.compare a a = .eq := Std.ReflCmp.compare_self
    have hequals := hab.filter (keys.tied a)
    rw [filter_sort, List.filter_cons_of_pos (by simp [tied, hself]),
      List.filter_cons_of_pos (by simp [tied, heq])] at hequals
    exact List.pairwise_iff_forall_sublist.1 hids (hequals.trans List.filter_sublist)

end SortKeys

end ContentRepository.Query
