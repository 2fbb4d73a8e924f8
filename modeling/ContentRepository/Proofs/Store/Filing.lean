import ContentRepository.Proofs.Store.Reading
import ContentRepository.Store.Call
import ContentRepository.Store.Lemmas

/-!
# Stores file documents under their own ids

A call of a store concerns one document at most: it files one under the id in its id field, or it
takes one off the shelf. So whatever calls were made, every document is found under its own id.

* **`Store.create_eq_ok_iff`**, **`Store.update_eq_ok_iff`**, **`Store.delete_eq_ok_iff`** and
  **`Store.edit_eq_ok`** — when a write succeeds, and what it does.
* **`Store.perform_cases`** — all that a call can do to the store.
* **`Store.exists_keyed_performAll`** — what is on the shelf after any calls.
-/

namespace ContentRepository.Store

variable {s t : Store} {shelf : Shelf} {d : Document} {id : String}

/-! ## Writes -/

theorem shelf_eq_ok_iff : s.shelf = .ok shelf ↔ s.shelf? = some shelf := by
  rw [Store.shelf]
  cases s.shelf? <;> simp

theorem idToWrite_eq_ok_iff : idToWrite d = .ok id ↔ d.id? = some id := by
  rw [idToWrite]
  cases d.id? <;> simp

/-- A document is written when it has an id, the store is not shut down, and the shelf takes it. -/
theorem filing_eq_ok_iff {file : Shelf → String → Except StoreError Shelf} :
    (do
      let id ← idToWrite d
      return s.withShelf (← file (← s.shelf) id)) = .ok t ↔
        ∃ id shelf after, d.id? = some id ∧ s.shelf? = some shelf ∧ file shelf id = .ok after ∧
          t = s.withShelf after := by
  simp only [bind_eq_ok_iff, idToWrite_eq_ok_iff, shelf_eq_ok_iff]
  constructor
  · rintro ⟨id, hid, shelf, hshelf, after, hfile, heq⟩
    cases heq
    exact ⟨id, shelf, after, hid, hshelf, hfile, rfl⟩
  · rintro ⟨id, shelf, after, hid, hshelf, hfile, rfl⟩
    exact ⟨id, hid, shelf, hshelf, after, hfile, rfl⟩

theorem create_eq_ok_iff : s.create d = .ok t ↔ ∃ id shelf, d.id? = some id ∧
    s.shelf? = some shelf ∧ shelf.get? id = none ∧ t = s.withShelf (Table.insert shelf id d) := by
  rw [create, filing_eq_ok_iff]
  simp [Shelf.create_eq_ok_iff]

theorem update_eq_ok_iff : s.update d = .ok t ↔ ∃ id shelf, d.id? = some id ∧
    s.shelf? = some shelf ∧ (shelf.get? id).isSome ∧
      t = s.withShelf (Table.insert shelf id d) := by
  rw [update, filing_eq_ok_iff]
  simp [Shelf.update_eq_ok_iff]

theorem delete_eq_ok_iff : s.delete id = .ok t ↔ ∃ shelf, s.shelf? = some shelf ∧
    (shelf.get? id).isSome ∧ t = s.withShelf (Table.erase shelf id) := by
  simp only [delete, bind_eq_ok_iff, shelf_eq_ok_iff, Shelf.delete_eq_ok_iff]
  constructor
  · rintro ⟨shelf, hshelf, _, ⟨hthere, rfl⟩, heq⟩
    cases heq
    exact ⟨shelf, hshelf, hthere, rfl⟩
  · rintro ⟨shelf, hshelf, hthere, rfl⟩
    exact ⟨shelf, hshelf, _, ⟨hthere, rfl⟩, rfl⟩

theorem withShelf_self (hshelf : s.shelf? = some shelf) : s.withShelf shelf = s := by
  rw [withShelf, ← hshelf]

theorem id?_set_id (d : Document) (id : String) :
    (d.set Field.id (.string id)).id? = some id := by
  rw [Document.id?, Document.string?_eq_some_iff, Document.get?_set, if_pos rfl]

/-- **An edit puts the edited document in the place of the one that is there**, whichever way the
store makes edits. -/
theorem edit_eq (hshelf : s.shelf? = some shelf) (id : String)
    (change : Document → Option Document) :
    s.edit id change = match shelf.get? id with
      | none => .error (.notFound id)
      | some d => match change d with
        | none => .ok (false, s)
        | some e => .ok (true, s.withShelf (Table.insert shelf id (e.set Field.id (.string id)))) := by
  have hs : s.shelf = .ok shelf := shelf_eq_ok_iff.2 hshelf
  have hsame : s.withShelf shelf = s := withShelf_self hshelf
  cases hprovision : s.provision with
  | own =>
    simp only [edit, hprovision, hs, Shelf.edit, bind, Except.bind, pure, Except.pure]
    cases shelf.get? id with
    | none => rfl
    | some d =>
      dsimp only
      cases change d with
      | none =>
        -- nothing is changed, but the shelf is put back all the same
        show Except.ok (false, s.withShelf shelf) = _
        rw [hsame]
      | some e => rfl
  | derived =>
    -- the derived form reads the document and updates it
    simp only [edit, hprovision, derivedEdit, find?_eq hshelf]
    cases hd : shelf.get? id with
    | none => rfl
    | some d =>
      cases hchange : change d with
      | none => simp [hchange, bind, Except.bind, pure, Except.pure]
      | some e =>
        -- it was just read, so the update finds it
        have hthere : (shelf.get? id).isSome := by simp [hd]
        have hupdate := update_eq_ok_iff.2 ⟨id, shelf, id?_set_id e id, hshelf, hthere, rfl⟩
        simp [hchange, hupdate, bind, Except.bind, pure, Except.pure]

theorem shelf_of_shutDown (hshelf : s.shelf? = none) : s.shelf = .error .shutDown := by
  rw [Store.shelf, hshelf]
  rfl

theorem edit_of_shutDown (hshelf : s.shelf? = none) (id : String)
    (change : Document → Option Document) : s.edit id change = .error .shutDown := by
  have hs : s.shelf = .error .shutDown := shelf_of_shutDown hshelf
  cases hprovision : s.provision with
  | own => simp [edit, hprovision, hs, bind, Except.bind]
  | derived => simp [edit, hprovision, derivedEdit, find?, hs, bind, Except.bind]

/-! ## Calls -/

/-- **A call concerns one document at most.** It leaves the store alone, files a document under its
own id, takes one off the shelf, or shuts the store down. -/
theorem perform_cases (s : Store) (call : Call) :
    (s.perform call).2 = s ∨
    (∃ shelf id d, s.shelf? = some shelf ∧ d.id? = some id ∧
      (s.perform call).2 = s.withShelf (Table.insert shelf id d)) ∨
    (∃ shelf id, s.shelf? = some shelf ∧ (s.perform call).2 = s.withShelf (Table.erase shelf id)) ∨
    (call = .shutDown ∧ (s.perform call).2.shelf? = none) := by
  cases call with
  | create d =>
    cases hcreate : s.create d with
    -- what is refused leaves the store as it is
    | error e => exact .inl (by simp [perform, hcreate, writing, Except.map])
    | ok t =>
      obtain ⟨id, shelf, hid, hshelf, -, rfl⟩ := create_eq_ok_iff.1 hcreate
      refine .inr (.inl ⟨shelf, id, d, hshelf, hid, ?_⟩)
      simp [perform, hcreate, writing, Except.map]
  | update d =>
    cases hupdate : s.update d with
    | error e => exact .inl (by simp [perform, hupdate, writing, Except.map])
    | ok t =>
      obtain ⟨id, shelf, hid, hshelf, -, rfl⟩ := update_eq_ok_iff.1 hupdate
      refine .inr (.inl ⟨shelf, id, d, hshelf, hid, ?_⟩)
      simp [perform, hupdate, writing, Except.map]
  | edit id change =>
    cases hshelf : s.shelf? with
    | none => exact .inl (by simp [perform, edit_of_shutDown hshelf, writing])
    | some shelf =>
      cases hd : shelf.get? id with
      | none => exact .inl (by simp [perform, edit_eq hshelf, hd, writing])
      | some d =>
        cases hchange : change d with
        | none => exact .inl (by simp [perform, edit_eq hshelf, hd, hchange, writing])
        | some e =>
          -- the document found is filed again under its id
          refine .inr (.inl ⟨shelf, id, _, rfl, id?_set_id e id, ?_⟩)
          simp [perform, edit_eq hshelf, hd, hchange, writing]
  | delete id =>
    cases hdelete : s.delete id with
    | error e => exact .inl (by simp [perform, hdelete, writing, Except.map])
    | ok t =>
      obtain ⟨shelf, hshelf, -, rfl⟩ := delete_eq_ok_iff.1 hdelete
      refine .inr (.inr (.inl ⟨shelf, id, hshelf, ?_⟩))
      simp [perform, hdelete, writing, Except.map]
  | shutDown => exact .inr (.inr (.inr ⟨rfl, rfl⟩))
  | _ => exact .inl rfl

/-- The store after some calls, made one after another whether they succeed or not. -/
def performAll (s : Store) (calls : List Call) : Store :=
  calls.foldl (fun s call => (s.perform call).2) s

/-- **Whatever calls are made, every document is filed under its own id**, until the store is shut
down. Induction on the calls. -/
theorem exists_keyed_performAll {calls : List Call} (hcalls : .shutDown ∉ calls)
    (hshelf : s.shelf? = some shelf) (hkeyed : shelf.Keyed) :
    ∃ after, (s.performAll calls).shelf? = some after ∧ after.Keyed := by
  induction calls generalizing s shelf with
  | nil => exact ⟨shelf, hshelf, hkeyed⟩
  | cons call calls ih =>
    rw [performAll, List.foldl_cons]
    obtain ⟨hcall, hcalls⟩ := not_or.1 (mt List.mem_cons.2 hcalls)
    obtain hsame | ⟨shelf', id, d, hshelf', hid, heq⟩ | ⟨shelf', id, hshelf', heq⟩ | ⟨hdown, -⟩ :=
      perform_cases s call
    · rw [hsame]
      exact ih hcalls hshelf hkeyed
    · cases hshelf.symm.trans hshelf'
      rw [heq]
      exact ih hcalls rfl (hkeyed.insert hid)
    · cases hshelf.symm.trans hshelf'
      rw [heq]
      exact ih hcalls rfl (hkeyed.erase id)
    · exact absurd hdown.symm hcall

end ContentRepository.Store
