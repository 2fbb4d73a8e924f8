import ContentRepository.Proofs.Store.Filing

/-!
# Stores that have their dispensable operations derived

A store that offers only the indispensable operations has the others derived. It is to be told from
a store that offers all of them by nothing but where its operations come from: whatever is called,
in any order, both hold the same documents and answer alike. There is one exception. To look up no
documents at all takes no look-up, so a store that derives this operation does not notice that it
was shut down.

* **`Store.reprovided`** — the same shelf with another provision.
* **`Store.perform_reprovided`** — one call.
* **`Store.performAll_reprovided`** — any number of calls.
* **`Store.answers_agree_iff`** — the answers are the same, except in that one case.
-/

namespace ContentRepository.Store

/-- The store with the same shelf and its dispensable operations from elsewhere. -/
def reprovided (s : Store) (provision : Provision) : Store := { s with provision }

variable {s : Store} {shelf : Shelf}

/-! ## Single operations -/

/-- Whether and how a document is filed does not depend on the provision. -/
theorem filing_reprovided (s : Store) (p : Provision) (d : Document)
    (file : Shelf → String → Except StoreError Shelf) :
    (do
      let id ← idToWrite d
      return (s.reprovided p).withShelf (← file (← (s.reprovided p).shelf) id)) =
      (do
        let id ← idToWrite d
        return s.withShelf (← file (← s.shelf) id)).map fun t => reprovided t p := by
  have hshelf : (s.reprovided p).shelf = s.shelf := rfl
  rw [hshelf]
  cases idToWrite d with
  | error e => rfl
  | ok id =>
    cases s.shelf with
    | error e => rfl
    | ok shelf =>
      simp only [bind, Except.bind]
      cases file shelf id <;> rfl

theorem create_reprovided (s : Store) (p : Provision) (d : Document) :
    (s.reprovided p).create d = (s.create d).map (·.reprovided p) :=
  filing_reprovided s p d fun shelf id => shelf.create id d

theorem update_reprovided (s : Store) (p : Provision) (d : Document) :
    (s.reprovided p).update d = (s.update d).map (·.reprovided p) :=
  filing_reprovided s p d fun shelf id => shelf.update id d

theorem delete_reprovided (s : Store) (p : Provision) (id : String) :
    (s.reprovided p).delete id = (s.delete id).map (·.reprovided p) := by
  have hshelf : (s.reprovided p).shelf = s.shelf := rfl
  rw [delete, delete, hshelf]
  cases s.shelf with
  | error e => rfl
  | ok shelf =>
    simp only [bind, Except.bind]
    cases shelf.delete id <;> rfl

/-- **An edit does the same in place and by reading and updating**, also where the edit tampers with
the id, where there is nothing to edit, and where the store is shut down. -/
theorem edit_reprovided (s : Store) (p : Provision) (id : String)
    (change : Document → Option Document) :
    (s.reprovided p).edit id change =
      (s.edit id change).map fun edited => (edited.1, edited.2.reprovided p) := by
  cases hshelf : s.shelf? with
  | none =>
    have hother : (s.reprovided p).shelf? = none := hshelf
    rw [edit_of_shutDown hshelf, edit_of_shutDown hother]
    rfl
  | some shelf =>
    have hother : (s.reprovided p).shelf? = some shelf := hshelf
    rw [edit_eq hshelf, edit_eq hother]
    cases shelf.get? id with
    | none => rfl
    | some d =>
      dsimp only
      cases change d <;> rfl

/-- Several documents are looked up alike while the store is not shut down. -/
theorem findEach_reprovided (p : Provision) (hshelf : s.shelf? = some shelf) (ids : List String) :
    (s.reprovided p).findEach ids = s.findEach ids := by
  have hother : (s.reprovided p).shelf? = some shelf := hshelf
  rw [findEach_eq hshelf, findEach_eq hother]

/-- A store that was shut down refuses to look up documents, if there is one to look up. -/
theorem findEach_cons_of_shutDown (hshelf : s.shelf? = none) (id : String) (ids : List String) :
    s.findEach (id :: ids) = .error .shutDown := by
  have hs : s.shelf = .error .shutDown := shelf_of_shutDown hshelf
  cases hprovision : s.provision with
  | own => simp [findEach, hprovision, hs, bind, Except.bind]
  | derived => simp [findEach, hprovision, derivedFindEach, find?, hs, bind, Except.bind]

/-- Whether any document has a value is whether looking for all that have it finds one. -/
theorem anyHaving_reprovided (s : Store) (p : Provision) (key : String) (value : Value)
    (ignored : List String) :
    (s.reprovided p).anyHaving key value ignored = s.anyHaving key value ignored := by
  rw [anyHaving_eq_map, anyHaving_eq_map]
  rfl

/-! ## Calls -/

/-- A call that writes answers the same and leaves the same shelf. -/
theorem writing_reprovided {α : Type} (s : Store) (p : Provision) (answer : α → Answer)
    (result : Except StoreError (α × Store)) :
    (s.reprovided p).writing answer (result.map fun r => (r.1, r.2.reprovided p)) =
      ((s.writing answer result).1, (s.writing answer result).2.reprovided p) := by
  cases result <;> rfl

/-- **A call does not depend on the provision**, unless it is to look up no documents in a store
that was shut down. -/
theorem perform_reprovided (p : Provision) {call : Call}
    (hcall : ¬ (call = .readEach [] ∧ s.shelf? = none)) :
    (s.reprovided p).perform call = ((s.perform call).1, (s.perform call).2.reprovided p) := by
  have hunit : ∀ result : Except StoreError Store,
      (result.map (·.reprovided p)).map (((), ·) : Store → Unit × Store) =
        (result.map ((), ·)).map fun r => (r.1, r.2.reprovided p) := by
    intro result
    cases result <;> rfl
  cases call with
  | create d =>
    rw [perform, create_reprovided, hunit, writing_reprovided]
    rfl
  | update d =>
    rw [perform, update_reprovided, hunit, writing_reprovided]
    rfl
  | delete id =>
    rw [perform, delete_reprovided, hunit, writing_reprovided]
    rfl
  | edit id change =>
    rw [perform, edit_reprovided, writing_reprovided]
    rfl
  | anyHaving key value ignored =>
    rw [perform, anyHaving_reprovided]
    rfl
  | readEach ids =>
    have hids : (s.reprovided p).findEach ids = s.findEach ids := by
      -- the one call that differs is the reading of no ids of a store that is shut down
      cases hshelf : s.shelf? with
      | some shelf => exact findEach_reprovided p hshelf ids
      | none =>
        have hother : (s.reprovided p).shelf? = none := hshelf
        cases ids with
        | nil => exact absurd ⟨rfl, hshelf⟩ hcall
        | cons id ids =>
          rw [findEach_cons_of_shutDown hshelf, findEach_cons_of_shutDown hother]
    rw [perform, hids]
    rfl
  | _ => rfl

/-- The store is left the same in any case. -/
theorem snd_perform_reprovided (s : Store) (p : Provision) (call : Call) :
    ((s.reprovided p).perform call).2 = (s.perform call).2.reprovided p := by
  by_cases hcall : call = .readEach [] ∧ s.shelf? = none
  · rw [hcall.1]
    rfl
  · rw [perform_reprovided p hcall]

/-- **Stores with the same documents have the same documents after any calls.** Induction on the
calls. -/
theorem performAll_reprovided (s : Store) (p : Provision) (calls : List Call) :
    (s.reprovided p).performAll calls = (s.performAll calls).reprovided p := by
  induction calls generalizing s with
  | nil => rfl
  | cons call calls ih =>
    rw [performAll, List.foldl_cons, snd_perform_reprovided]
    exact ih (s.perform call).2

theorem provision_performAll (s : Store) (calls : List Call) :
    (s.performAll calls).provision = s.provision := by
  have hsame : s.performAll calls = (s.performAll calls).reprovided s.provision :=
    performAll_reprovided s s.provision calls
  rw [hsame]
  rfl

/-! ## Runs -/

/-- A store is shut down by the call to do so alone. -/
theorem shelf?_perform_eq_none_iff (s : Store) (call : Call) :
    (s.perform call).2.shelf? = none ↔ s.shelf? = none ∨ call = .shutDown := by
  constructor
  · intro hnone
    obtain hsame | ⟨shelf, id, d, -, -, heq⟩ | ⟨shelf, id, -, heq⟩ | ⟨hdown, -⟩ :=
      perform_cases s call
    · exact .inl (hsame ▸ hnone)
    · -- a store with a shelf is not shut down
      rw [heq] at hnone
      cases hnone
    · rw [heq] at hnone
      cases hnone
    · exact .inr hdown
  · rintro (hnone | rfl)
    · obtain hsame | ⟨shelf, id, d, hshelf, -, -⟩ | ⟨shelf, id, hshelf, -⟩ | ⟨-, hdown⟩ :=
        perform_cases s call
      · rw [hsame, hnone]
      · -- nothing was filed in a store that is shut down
        rw [hnone] at hshelf
        cases hshelf
      · rw [hnone] at hshelf
        cases hshelf
      · exact hdown
    · rfl

/-- Once a store was shut down it stays so. Induction on the calls. -/
theorem shelf?_performAll_eq_none_iff (s : Store) (calls : List Call) :
    (s.performAll calls).shelf? = none ↔ s.shelf? = none ∨ .shutDown ∈ calls := by
  induction calls generalizing s with
  | nil => simp [performAll]
  | cons call calls ih =>
    have hrest := ih (s.perform call).2
    rw [shelf?_perform_eq_none_iff, or_assoc, eq_comm (b := Call.shutDown)] at hrest
    rw [performAll, List.foldl_cons, List.mem_cons]
    exact hrest

/-- **A store that derives its dispensable operations does what one does that offers them.** Both
begin with the same documents. After any calls they hold the same documents still, also after the
next call, and they answer the next call alike, unless it is to look up no documents and the store
was shut down before: then the one refuses, and the other answers that it found none. -/
theorem answers_agree_iff (shelf : Shelf) (calls : List Call) (call : Call) :
    let own := (⟨some shelf, .own⟩ : Store).performAll calls
    let derived := (⟨some shelf, .derived⟩ : Store).performAll calls
    derived.shelf? = own.shelf? ∧
      (derived.perform call).2.shelf? = (own.perform call).2.shelf? ∧
      ((derived.perform call).1 = (own.perform call).1 ↔
        ¬ (call = .readEach [] ∧ .shutDown ∈ calls)) := by
  intro own derived
  have hderived : derived = own.reprovided .derived :=
    performAll_reprovided ⟨some shelf, .own⟩ .derived calls
  have hown : own = own.reprovided .own := performAll_reprovided ⟨some shelf, .own⟩ .own calls
  have hdown : own.shelf? = none ↔ .shutDown ∈ calls := by
    rw [shelf?_performAll_eq_none_iff]
    simp
  rw [hderived, snd_perform_reprovided, ← hdown]
  refine ⟨rfl, rfl, ?_, fun hcall => by rw [perform_reprovided .derived hcall]⟩
  rintro hanswer ⟨rfl, hnone⟩
  -- the one answers an empty list, the other that the store was shut down
  have hrefused : own.findEach [] = .error .shutDown := by
    rw [hown, findEach, Store.shelf, reprovided, hnone]
    rfl
  rw [perform, perform, hrefused] at hanswer
  cases hanswer

/-- The two do differ, as soon as a store has been shut down. -/
theorem answers_differ_after_shutDown :
    ¬ ∀ (calls : List Call) (call : Call),
      (((Store.empty .derived).performAll calls).perform call).1 =
        (((Store.empty .own).performAll calls).perform call).1 := by
  intro hagree
  have hanswer : (Except.ok (.places []) : Except StoreError Answer) = .error .shutDown :=
    hagree [.shutDown] (.readEach [])
  cases hanswer

end ContentRepository.Store
