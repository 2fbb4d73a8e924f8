import ContentRepository.Session.Version
import Mathlib.Data.Int.Order.Basic
import Mathlib.Data.List.Nodup
import Mathlib.Data.Prod.Lex

/-!
# The order of version numbers

Version numbers are compared by their major parts, and by their minor parts where the major ones are
equal. Unless it overflows, a number that is raised comes after the one it was raised from.

* **`VersionNumber.key`** — the number in the lexicographic order.
* **`VersionNumber.key_lt_key_next`** — raising a number.
* **`VersionNumber.mergeSort_eq_of_perm`** — what sorting by numbers makes of documents with
  different ones.
-/

namespace ContentRepository

namespace VersionNumber

/-- The two parts of a number, the major one counting first. -/
def key (n : VersionNumber) : Int ×ₗ Int := toLex (n.major.toInt, n.minor.toInt)

/-- The number can be raised without an overflow. -/
def HasNext (n : VersionNumber) : Increment → Prop
  | .minor => n.minor < Int64.maxValue
  | .major => n.major < Int64.maxValue

variable {a b n : VersionNumber}

theorem le_iff : a.le b = true ↔ a.key ≤ b.key := by
  rw [le, key, key, Prod.Lex.toLex_le_toLex]
  simp [Int64.toInt_inj]

theorem toInt_add_one {k : Int64} (hk : k < Int64.maxValue) : (k + 1).toInt = k.toInt + 1 := by
  have hlt : k.toInt < Int64.maxValue.toInt := Int64.lt_iff_toInt_lt.1 hk
  have hmax : Int64.maxValue.toInt = 9223372036854775807 := by decide
  have hlow : -9223372036854775808 ≤ k.toInt := Int64.le_toInt k
  have hone : (1 : Int64).toInt = 1 := by decide
  rw [Int64.toInt_add, hone]
  refine Int.bmod_eq_of_le ?_ ?_ <;> omega

/-- **A number that is raised comes after the one it was raised from.** -/
theorem key_lt_key_next {increment : Increment} (h : n.HasNext increment) :
    n.key < (n.next increment).key := by
  rw [key, key, Prod.Lex.toLex_lt_toLex]
  cases increment with
  | minor =>
    have hraised : (n.minor + 1).toInt = n.minor.toInt + 1 := toInt_add_one h
    refine .inr ⟨rfl, ?_⟩
    show n.minor.toInt < (n.minor + 1).toInt
    omega
  | major =>
    have hraised : (n.major + 1).toInt = n.major.toInt + 1 := toInt_add_one h
    refine .inl ?_
    show n.major.toInt < (n.major + 1).toInt
    omega

/-- **Documents with ascending numbers are what sorting makes of them**, whatever order they had. -/
theorem mergeSort_eq_of_perm {found ordered : List Document} (hperm : found.Perm ordered)
    (hascending : ordered.Pairwise fun d e => d.versionNumber.key < e.versionNumber.key) :
    (found.mergeSort fun d e => d.versionNumber.le e.versionNumber) = ordered := by
  have hsorted : (found.mergeSort fun d e => d.versionNumber.le e.versionNumber).Pairwise
      fun d e => d.versionNumber.le e.versionNumber := by
    refine List.pairwise_mergeSort (fun d e f hde hef => ?_) (fun d e => ?_) found
    · exact le_iff.2 ((le_iff.1 hde).trans (le_iff.1 hef))
    · rw [Bool.or_eq_true, le_iff, le_iff]
      exact le_total _ _
  have hsame : (found.mergeSort fun d e => d.versionNumber.le e.versionNumber).Perm ordered :=
    (List.mergeSort_perm _ _).trans hperm
  -- no two of the documents have the same number
  have hdistinct : (ordered.map fun d => d.versionNumber.key).Nodup :=
    List.pairwise_map.2 (hascending.imp fun hlt => hlt.ne)
  refine List.Perm.eq_of_pairwise (fun d e hd he hde hed => ?_) hsorted
    (hascending.imp fun hlt => le_iff.2 hlt.le) hsame
  have heq := (le_iff.1 hde).antisymm (le_iff.1 hed)
  exact List.inj_on_of_nodup_map hdistinct (hsame.mem_iff.1 hd) he heq

end VersionNumber

end ContentRepository
