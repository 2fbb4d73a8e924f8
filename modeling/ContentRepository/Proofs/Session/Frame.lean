import ContentRepository.Proofs.Session.Writing
import ContentRepository.Session.Call

/-!
# What calls leave alone

A site remembers the ids of its root and of its folder of versions, and a session has an id and is
live or closed. Calls change none of this, whether they succeed or not: writes change the store and
what is pending, and a commit changes the queue.

* **`Workspace.snd_produce`** and **`Workspace.snd_revise`** — operations that differ from others
  only in their answers.
* **`Workspace.exists_writeAll_eq`** and **`Workspace.exists_site_commit`** — what writes and
  commits change at all.
* **`Workspace.exists_produce_eq`** — a plan that can be carried out to the end is.
* **`Workspace.frame_perform`** — a call leaves all of it alone.
* **`Workspace.folders_perform`** — so it does the two folders.
-/

namespace ContentRepository

/-- The ids of the root and of the folder of versions. -/
def Site.folders (site : Site) : String × String := (site.root, site.versions)

namespace Workspace

/-- An operation that answers a document does to the workspace what its plan does. -/
theorem snd_produce (w : Workspace) (plan : Plan) (id : String) :
    (w.produce (.ok (plan, id))).2 = (w.execute plan).2 := by
  rw [produce]
  split
  · next heq => rw [heq]
  · next heq => rw [heq]

/-- Revising a document that is there is an update. -/
theorem snd_revise_of_found {w : Workspace} {id : String} {d : Document}
    (hd : w.ask (·.find? id) = .ok (some d)) (fields : List (String × Value))
    (cleared : List String) :
    (w.revise id fields cleared).2 = (w.update ((d.setAll fields).unsetAll cleared)).2 := by
  rw [revise, hd]
  dsimp only
  split
  · next heq => rw [heq]
  · next heq => rw [heq]

/-- Revising a document is an update, if the document is there. -/
theorem snd_revise (w : Workspace) (id : String) (fields : List (String × Value))
    (cleared : List String) :
    (w.revise id fields cleared).2 = w ∨ ∃ d, w.ask (·.find? id) = .ok (some d) ∧
      (w.revise id fields cleared).2 = (w.update ((d.setAll fields).unsetAll cleared)).2 := by
  cases hfound : w.ask (·.find? id) with
  | error e => exact .inl (by rw [revise, hfound])
  | ok found =>
    cases found with
    | none => exact .inl (by rw [revise, hfound])
    | some d => exact .inr ⟨d, rfl, snd_revise_of_found hfound fields cleared⟩

/-- What calls leave alone. -/
def frame (w : Workspace) : (String × String) × String × Bool :=
  (w.site.folders, w.session.id, w.session.live)

variable {w : Workspace}

theorem exists_write_eq {after : Workspace} {write : Write} (hw : w.write write = .ok after) :
    ∃ store pending, after = ⟨{ w.site with store }, { w.session with pending }⟩ := by
  cases write with
  | mark id =>
    cases hw
    exact ⟨_, _, rfl⟩
  | _ =>
    obtain ⟨store, -, heq⟩ := bind_eq_ok_iff.1 hw
    cases heq
    exact ⟨store, _, rfl⟩

/-- Writes change a store and what is pending, however far they get. -/
theorem exists_writeAll_eq (writes : List Write) :
    ∃ store pending, (writeAll writes w).2 =
      ⟨{ w.site with store }, { w.session with pending }⟩ := by
  induction writes generalizing w with
  | nil => exact ⟨_, _, rfl⟩
  | cons first rest ih =>
    rw [writeAll]
    split
    · next after hw =>
      obtain ⟨store, pending, rfl⟩ := exists_write_eq hw
      exact ih
    · exact ⟨_, _, rfl⟩

theorem frame_execute (plan : Plan) : (w.execute plan).2.frame = w.frame := by
  obtain ⟨store, pending, heq⟩ := exists_writeAll_eq plan.writes
  rw [execute, heq]
  rfl

/-- A plan takes the ids it says, whether its writes succeed or not. -/
theorem ids_execute (plan : Plan) : (w.execute plan).2.site.ids = w.site.ids.skip plan.drawn := by
  obtain ⟨store, pending, heq⟩ := exists_writeAll_eq plan.writes
  rw [execute, heq]

theorem frame_change (plan : Except Error Plan) :
    (w.change plan).2.frame = w.frame := by
  cases plan with
  | error e => rfl
  | ok plan => exact frame_execute plan

theorem frame_produce (plan : Except Error (Plan × String)) :
    (w.produce plan).2.frame = w.frame := by
  cases plan with
  | error e => rfl
  | ok plan =>
    obtain ⟨plan, id⟩ := plan
    rw [snd_produce]
    exact frame_execute plan

theorem frame_revise (id : String) (fields : List (String × Value)) (cleared : List String) :
    (w.revise id fields cleared).2.frame = w.frame := by
  obtain hsame | ⟨d, -, hupdate⟩ := snd_revise w id fields cleared
  · rw [hsame]
  · rw [hupdate]
    exact frame_change _

/-- A commit changes nothing of its site but the queue. -/
theorem exists_site_commit : ∃ queue, w.commit.2.site = { w.site with queue } := by
  rw [commit]
  split
  · exact ⟨_, rfl⟩
  · next site hsite =>
    rw [(liveSite_eq_ok_iff.1 hsite).2]
    dsimp only
    split
    · exact ⟨_, rfl⟩
    · exact ⟨_, rfl⟩

theorem frame_commit : w.commit.2.frame = w.frame := by
  rw [commit]
  split
  · rfl
  · next site hsite =>
    rw [(liveSite_eq_ok_iff.1 hsite).2]
    dsimp only
    split
    · rfl
    · rfl

/-- A plan that can be carried out is, and a document that is there afterwards can be answered. -/
theorem exists_produce_eq {shelf t : Shelf} {plan : Plan} {answer : String} {d : Document}
    (hlive : w.session.live = true)
    (hstored : w.site.store.shelf? = some shelf) (hwrites : shelf.Writes plan.writes t)
    (hd : t.get? answer = some d) :
    ∃ session, w.produce (.ok (plan, answer)) =
      (.ok d, ⟨w.site.settled plan.drawn t, session⟩) := by
  obtain ⟨session, hexecute⟩ := execute_of_writes hwrites hstored
  have hstill : session.live = true := by
    have hframe := frame_execute (w := w) plan
    rw [hexecute] at hframe
    exact (congrArg (·.2.2) hframe).trans hlive
  have hrequire : require ⟨w.site.settled plan.drawn t, session⟩ answer = .ok d :=
    require_eq_ok hstill rfl hd
  refine ⟨session, ?_⟩
  rw [produce, hexecute, ← hrequire]

/-- **No call changes the folders of its site, the id of its session or whether that is live.** -/
theorem frame_perform (call : Session.Call) :
    (w.perform call).2.frame = w.frame := by
  cases call with
  | create | update | delete | remove | checkOut | setPolicy => exact frame_change _
  | addChild | move | copy | checkIn | addProxy => exact frame_produce _
  | revise id fields cleared => exact frame_revise id fields cleared
  | commit => exact frame_commit
  | _ => rfl

/-- No call changes which documents are the root and the folder of versions. -/
theorem folders_perform (call : Session.Call) :
    (w.perform call).2.site.folders = w.site.folders :=
  congrArg Prod.fst (frame_perform call)

/-- No call closes its session. -/
theorem live_perform (call : Session.Call) : (w.perform call).2.session.live = w.session.live :=
  congrArg (·.2.2) (frame_perform call)

theorem live_commit : w.commit.2.session.live = w.session.live :=
  congrArg (·.2.2) frame_commit

end Workspace

end ContentRepository
