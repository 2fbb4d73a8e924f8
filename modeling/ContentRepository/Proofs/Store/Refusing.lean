import ContentRepository.Proofs.Store.Provisions

/-!
# A store that was shut down refuses

Shutting a store down is final. From then on the store stays as it is, whatever is called, and every
call is refused for the reason that the store is not available. But a document that has no id is
refused for that before the store is looked at, so the calls to write such a document, and only
those, are refused for another reason.

* **`Store.perform_of_shutDown`** — what is answered by a store that offers all operations itself.
* **`Store.refuses_after_shutDown`** — so it answers at any time after the shutdown.
-/

namespace ContentRepository.Store

variable {s : Store}

/-- Whether the call is to write a document that has no id. -/
def Call.lacksId : Call → Bool
  | .create d | .update d => d.id?.isNone
  | _ => false

/-- Why a store that was shut down refuses a call. -/
def Call.refusal (call : Call) : StoreError :=
  if call.lacksId then .missingId else .shutDown

/-- **A call to a store that was shut down is refused.** -/
theorem perform_of_shutDown (hshelf : s.shelf? = none) (hown : s.provision = .own) {call : Call}
    (hcall : call ≠ .shutDown) : s.perform call = (.error call.refusal, s) := by
  obtain ⟨shelf?, provision⟩ := s
  cases hshelf
  cases hown
  cases call with
  -- the id to write under is asked for first, and only then the shelf
  | create d =>
    rw [perform, create, idToWrite, Call.refusal, Call.lacksId]
    cases d.id? <;> rfl
  | update d =>
    rw [perform, update, idToWrite, Call.refusal, Call.lacksId]
    cases d.id? <;> rfl
  | shutDown => exact absurd rfl hcall
  | _ => rfl

/-- **Once a store was shut down, it refuses all calls.** Let any calls be made of a new store, then
the one to shut it down, and then any others. The next call is answered that the store is not
available, or that the document has no id if it is to write one that has none; and nothing
changes. -/
theorem refuses_after_shutDown (history later : List Call) {call : Call}
    (hcall : call ≠ .shutDown) :
    let s := (Store.empty .own).performAll (history ++ .shutDown :: later)
    s.perform call = (.error call.refusal, s) := by
  intro s
  have hshelf : s.shelf? = none :=
    (shelf?_performAll_eq_none_iff _ _).2 (.inr (List.mem_append_right _ List.mem_cons_self))
  have hown : s.provision = .own := provision_performAll _ _
  exact perform_of_shutDown hshelf hown hcall

/-- A document with an id cannot be written either. -/
theorem refuses_new_document :
    let s := (Store.empty .own).performAll ([] ++ .shutDown :: [.create (.withId "a")])
    Call.create (.withId "a") ≠ .shutDown ∧
      s.perform (.create (.withId "a")) =
        (.error (.unavailable "store has been shut down"), s) := by
  intro s
  have hcall : Call.create (.withId "a") ≠ .shutDown := by simp
  exact ⟨hcall, refuses_after_shutDown [] [.create (.withId "a")] hcall⟩

/-- So the calls to write a document without id do not find the store unavailable. -/
theorem refuses_for_missing_id :
    ¬ ∀ (history later : List Call) (call : Call), call ≠ .shutDown →
      ∃ message, (((Store.empty .own).performAll (history ++ .shutDown :: later)).perform call).1 =
        .error (.unavailable message) := by
  intro hunavailable
  obtain ⟨message, hanswer⟩ := hunavailable [] [] (.create Table.empty) (by simp)
  have hmissing : (((Store.empty .own).performAll [.shutDown]).perform (.create Table.empty)).1 =
      .error .missingId := rfl
  rw [List.nil_append, hmissing] at hanswer
  cases hanswer

end ContentRepository.Store
