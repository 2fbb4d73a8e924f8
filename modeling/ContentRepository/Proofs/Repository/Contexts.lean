import ContentRepository.Numbered.Lemmas
import ContentRepository.Repository.Basic
import Mathlib.Data.List.Nodup

/-!
# Flags and lists of handles

A `Context` notes twice which handles are open: each `SessionHandle` has a flag, and the
`TransactionContext` lists those that are still to be closed. Handles ask their flags only, and
`after_completion` only closes what is listed, so nothing is closed for good unless the two agree.

* **`Context.Agrees`** — they do.
* **`Agrees.start`**, **`Agrees.newHandle`**, **`Agrees.closeHandle`** and **`Agrees.complete`** —
  whatever happens to a context keeps it so.
-/

namespace ContentRepository.Context

/-- The handles that are listed are those whose flags are not set. -/
structure Agrees (c : Context) : Prop where
  isOpen_iff : ∀ k, c.isOpen k = true ↔ k ∈ c.handles
  nodup : c.handles.Nodup
  numbers : ∀ k ∈ c.handles, k < c.nextHandle

theorem isOpen_eq_true_iff {c : Context} {k : Nat} :
    c.isOpen k = true ↔ c.flags.get? k = some false := beq_iff_eq

/-! ## What stays as it is -/

@[simp] theorem transaction_closeHandle (c : Context) (k : Nat) :
    (c.closeHandle k).transaction = c.transaction := by
  rw [closeHandle]
  split <;> rfl

@[simp] theorem session_closeHandle (c : Context) (k : Nat) :
    (c.closeHandle k).session = c.session := by
  rw [closeHandle]
  split <;> rfl

@[simp] theorem nextHandle_closeHandle (c : Context) (k : Nat) :
    (c.closeHandle k).nextHandle = c.nextHandle := by
  rw [closeHandle]
  split <;> rfl

@[simp] theorem completed_closeHandle (c : Context) (k : Nat) :
    (c.closeHandle k).completed = c.completed := by
  rw [closeHandle]
  split <;> rfl

theorem handles_newHandle {c : Context} (hrunning : c.completed = false) :
    c.newHandle.2.handles = c.handles ++ [c.nextHandle] := by
  rw [newHandle, hrunning]
  rfl

theorem get?_setFlags (flags : Numbered Bool) (handles : List Nat) (k : Nat) :
    (setFlags flags handles).get? k = if k ∈ handles then some true else flags.get? k := by
  induction handles generalizing flags with
  | nil => rfl
  | cons handle rest ih =>
    show (setFlags (flags.put handle true) rest).get? k = _
    rw [ih, Numbered.get?_put]
    by_cases hhead : k = handle
    · simp [hhead]
    · simp [hhead]

/-! ## What keeps them in agreement -/

namespace Agrees

variable {c : Context}

theorem start (transaction session : Nat) : (Context.start transaction session).Agrees := by
  refine ⟨fun k => ?_, .nil, nofun⟩
  rw [isOpen_eq_true_iff, Context.start, Numbered.get?_empty]
  exact ⟨nofun, nofun⟩

theorem newHandle (h : c.Agrees) (hrunning : c.completed = false) : c.newHandle.2.Agrees := by
  have hfresh : c.nextHandle ∉ c.handles := fun hmem => Nat.lt_irrefl _ (h.numbers _ hmem)
  have hflag : ∀ k, c.newHandle.2.flags.get? k =
      if k = c.nextHandle then some false else c.flags.get? k := by
    intro k
    rw [Context.newHandle, hrunning]
    exact Numbered.get?_put _ _ _ _
  refine ⟨fun k => ?flags, ?nodup, fun k hmem => ?numbers⟩
  case flags =>
    rw [isOpen_eq_true_iff, hflag, handles_newHandle hrunning, List.mem_append,
      List.mem_singleton, ← h.isOpen_iff, isOpen_eq_true_iff]
    -- the number is one that was never given, so no old flag stands in its way
    by_cases hnew : k = c.nextHandle
    · simp [hnew]
    · simp [hnew]
  case nodup =>
    rw [handles_newHandle hrunning]
    refine List.nodup_append.2 ⟨h.nodup, List.nodup_singleton _, fun k hmem k' hmem' heq => ?_⟩
    rw [List.mem_singleton.1 hmem'] at heq
    exact hfresh (heq ▸ hmem)
  case numbers =>
    show k < c.nextHandle + 1
    rw [handles_newHandle hrunning] at hmem
    rcases List.mem_append.1 hmem with hmem | hmem
    · exact Nat.lt_succ_of_lt (h.numbers k hmem)
    · exact Nat.lt_succ_of_le (Nat.le_of_eq (List.mem_singleton.1 hmem))

/-- A handle that is closed is listed no longer, if it ever was. -/
theorem handles_closeHandle (h : c.Agrees) (k : Nat) :
    (c.closeHandle k).handles = c.handles.filter (· != k) := by
  rw [Context.closeHandle]
  split
  · rfl
  · next hclosed =>
    -- one whose flag is set is not listed, so there is nothing to take off the list
    rw [h.isOpen_iff] at hclosed
    refine (List.filter_eq_self.2 fun other hmem => ?_).symm
    rw [bne_iff_ne]
    rintro rfl
    exact hclosed hmem

theorem closeHandle (h : c.Agrees) (k : Nat) : (c.closeHandle k).Agrees := by
  refine ⟨fun other => ?flags, ?nodup, fun other hmem => ?numbers⟩
  case flags =>
    rw [h.handles_closeHandle, List.mem_filter, bne_iff_ne, ← h.isOpen_iff, Context.closeHandle]
    split
    · rw [isOpen_eq_true_iff, Numbered.get?_put, isOpen_eq_true_iff]
      by_cases heq : other = k
      · simp [heq]
      · simp [heq]
    · next hclosed =>
      -- it was closed before, so nothing changes
      refine ⟨fun hopen => ⟨hopen, ?_⟩, fun hopen => hopen.1⟩
      rintro rfl
      exact hclosed hopen
  case nodup =>
    rw [h.handles_closeHandle]
    exact h.nodup.filter _
  case numbers =>
    rw [h.handles_closeHandle] at hmem
    rw [nextHandle_closeHandle]
    exact h.numbers other (List.mem_filter.1 hmem).1

/-- The completion closes all handles, since those that are open are listed. -/
theorem isOpen_complete (h : c.Agrees) (k : Nat) : c.complete.isOpen k = false := by
  rw [← Bool.not_eq_true, isOpen_eq_true_iff]
  show ¬ (setFlags c.flags c.handles).get? k = some false
  rw [get?_setFlags]
  split
  · exact nofun
  · next hunlisted => rwa [← isOpen_eq_true_iff, h.isOpen_iff]

theorem complete (h : c.Agrees) : c.complete.Agrees := by
  refine ⟨fun k => ?_, .nil, nofun⟩
  rw [h.isOpen_complete k]
  exact ⟨nofun, nofun⟩

end Agrees

end ContentRepository.Context
