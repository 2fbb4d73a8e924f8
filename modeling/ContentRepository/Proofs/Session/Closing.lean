import ContentRepository.Session.Call

/-!
# A closed session refuses

A session that was closed does nothing any more: whatever is called, it answers that it is closed,
and neither the site nor what is pending changes. There is one way to get another answer. The calls
to remove, move or copy a document check that it is not one of the repository's own folders before
anything else, so these folders are refused as such, also by a closed session.

* **`Site.refusal`** — why a closed session refuses a call.
* **`Workspace.perform_of_closed`** — it does refuse it, and nothing else happens.
* **`Workspace.refuses_of_close`** — so does every session that was closed, on a site in any state.
-/

namespace ContentRepository

/-- The document that a call is to remove, move or copy, and the word for that. -/
def Session.Call.uproots? : Session.Call → Option (String × String)
  | .remove id => some (id, "remove")
  | .move id _ _ => some (id, "move")
  | .copy id _ _ => some (id, "copy")
  | _ => none

/-- Why a closed session refuses a call. -/
def Site.refusal (site : Site) (call : Session.Call) : Error :=
  match call.uproots? with
  | some (id, action) =>
    if id = site.root ∨ id = site.versions then .refused (.repositoryFolder action)
    else .sessionClosed
  | none => .sessionClosed

theorem Session.live_close (s : Session) : s.close.live = false := by
  rw [close]
  split
  · rfl
  · next hlive => simpa using hlive

namespace Workspace

variable {w : Workspace}

theorem liveSite_of_closed (hclosed : w.session.live = false) :
    w.liveSite = .error .sessionClosed := by
  rw [liveSite, hclosed]
  rfl

/-- What checks for a folder first and then needs the session refuses folders first. -/
theorem requireOrdinary_of_closed {α : Type} (hclosed : w.session.live = false) (id action : String)
    (plan : Site → Except Error α) :
    (do
      w.site.requireOrdinary id action
      plan (← w.liveSite)) =
      .error (if id = w.site.root ∨ id = w.site.versions then .refused (.repositoryFolder action)
        else .sessionClosed) := by
  rw [liveSite_of_closed hclosed, Site.requireOrdinary]
  split <;> rfl

/-- **A closed session refuses every call, and nothing else happens.** -/
theorem perform_of_closed (hclosed : w.session.live = false) (call : Session.Call) :
    w.perform call = (.error (w.site.refusal call), w) := by
  cases call with
  -- three calls check for the folders before they ask whether the session is live
  | remove id =>
    rw [perform, remove, requireOrdinary_of_closed hclosed]
    rfl
  | move id dest name? =>
    rw [perform, move, requireOrdinary_of_closed hclosed]
    rfl
  | copy id dest name? =>
    rw [perform, copy, requireOrdinary_of_closed hclosed]
    rfl
  | _ =>
    obtain ⟨site, id, live, pending⟩ := w
    cases hclosed
    rfl

theorem awaitIndexing_of_closed (hclosed : w.session.live = false) (interrupted : Bool) :
    w.awaitIndexing interrupted = .error .sessionClosed := by
  rw [awaitIndexing, liveSite_of_closed hclosed]
  rfl

/-- **A session that was closed refuses every call, on any site, and nothing else happens.** Neither
does it wait for indexing. It says that it is closed, except that the repository's own folders are
refused as such to the calls that check for them first. -/
theorem refuses_of_close (site : Site) (s : Session) :
    let w : Workspace := ⟨site, s.close⟩
    (∀ call, w.perform call = (.error (site.refusal call), w)) ∧
      ∀ interrupted, w.awaitIndexing interrupted = .error .sessionClosed := by
  intro w
  have hclosed : w.session.live = false := s.live_close
  exact ⟨perform_of_closed hclosed, awaitIndexing_of_closed hclosed⟩

/-- Not every call of a closed session is answered with that it is closed: to remove the root is
refused because it is the root. -/
theorem root_hides_closing :
    ¬ ∀ (site : Site) (s : Session) (call : Session.Call),
      (⟨site, s.close⟩ : Workspace).perform call = (.error .sessionClosed, ⟨site, s.close⟩) := by
  intro h
  let site : Site :=
    { repository := "test", store := .empty .own, ids := .sequential
      clock := ⟨0, 0, by decide⟩, queue := none, root := "UUID_0", versions := "UUID_1" }
  have hfirst := congrArg Prod.fst (h site (.fresh "session") (.remove "UUID_0"))
  cases hfirst

end Workspace

end ContentRepository
