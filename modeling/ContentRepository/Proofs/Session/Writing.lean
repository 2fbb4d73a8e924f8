import ContentRepository.Proofs.Session.Checks
import ContentRepository.Proofs.Store.Filing

/-!
# Plans that are carried out to the end

A session carries a plan out write by write, and nothing is undone if one of them fails. So what a
plan does to the shelf is known only once all its writes are known to succeed. `Shelf.Writes` says
that, for the bare shelf; the workspace then does the same.

* **`Shelf.Writes`** — the writes succeed one after another and lead from one shelf to another.
* **`Shelf.Writes.updates`**, **`creations`**, **`deletions`** — the three kinds of batches plans
  are made of, with what they lead to: `Shelf.putAll` and `Shelf.eraseAll`.
* **`Workspace.writeAll_append`** — a workspace makes such writes like the bare shelf, whatever
  follows.
* **`Workspace.execute_of_writes`** — a workspace carries such a plan out, and only the store, the
  ids and the clock of its site are affected.
-/

namespace ContentRepository

namespace Store

variable {s : Store} {shelf : Shelf} {d : Document} {id : String}

theorem create_eq_ok (hstore : s.shelf? = some shelf) (hid : d.id? = some id)
    (hfree : shelf.get? id = none) : s.create d = .ok (s.withShelf (Table.insert shelf id d)) :=
  create_eq_ok_iff.2 ⟨id, shelf, hid, hstore, hfree, rfl⟩

theorem update_eq_ok (hstore : s.shelf? = some shelf) (hid : d.id? = some id)
    (hthere : (shelf.get? id).isSome) :
    s.update d = .ok (s.withShelf (Table.insert shelf id d)) :=
  update_eq_ok_iff.2 ⟨id, shelf, hid, hstore, hthere, rfl⟩

/-- Nothing can be updated that is not there. -/
theorem exists_update_eq_error (hstore : s.shelf? = some shelf)
    (habsent : ∀ id, d.id? = some id → shelf.get? id = none) : ∃ e, s.update d = .error e := by
  cases hupdate : s.update d with
  | error e => exact ⟨e, rfl⟩
  | ok t =>
    obtain ⟨id, other, hid, hother, hthere, -⟩ := update_eq_ok_iff.1 hupdate
    cases hstore.symm.trans hother
    rw [habsent id hid] at hthere
    cases hthere

theorem delete_eq_ok (hstore : s.shelf? = some shelf) (hthere : (shelf.get? id).isSome) :
    s.delete id = .ok (s.withShelf (Table.erase shelf id)) :=
  delete_eq_ok_iff.2 ⟨shelf, hstore, hthere, rfl⟩

end Store

namespace Shelf

/-! ## Batches -/

/-- The shelf with several documents put on it, each under its own id. -/
def putAll (shelf : Shelf) (ds : List Document) : Shelf :=
  ds.foldl (fun s d => match d.id? with
    | some id => Table.insert s id d
    | none => s) shelf

theorem putAll_cons {shelf : Shelf} {d : Document} {id : String} (hid : d.id? = some id)
    (ds : List Document) : shelf.putAll (d :: ds) = putAll (Table.insert shelf id d) ds := by
  simp [putAll, hid]

theorem putAll_concat {shelf : Shelf} {d : Document} (ds : List Document) :
    shelf.putAll (ds ++ [d]) = putAll (shelf.putAll ds) [d] := by
  simp [putAll]

/-- What lies under the ids of none of the documents stays. -/
theorem get?_putAll_of_forall_ne {shelf : Shelf} {ds : List Document} {id : String}
    (hne : ∀ d ∈ ds, d.id? ≠ some id) : (shelf.putAll ds).get? id = shelf.get? id := by
  induction ds using List.reverseRecOn with
  | nil => rfl
  | append_singleton ds d ih =>
    have hbefore := ih fun e he => hne e (List.mem_append_left _ he)
    have hd := hne d (by simp)
    rw [putAll_concat]
    cases hid : d.id? with
    | none => simpa [putAll, hid] using hbefore
    | some other =>
      rw [putAll_cons hid, putAll, List.foldl_nil, Table.get?_insert, if_neg, hbefore]
      rintro rfl
      exact hd hid

/-- **Each document is found under its id**, if no other of them has the same id. -/
theorem get?_putAll_of_mem {shelf : Shelf} {ds : List Document} {d : Document} {id : String}
    (hsingle : ∀ e ∈ ds, e.id? = some id → e = d) (hmem : d ∈ ds) (hid : d.id? = some id) :
    (shelf.putAll ds).get? id = some d := by
  induction ds using List.reverseRecOn with
  | nil => cases hmem
  | append_singleton ds last ih =>
    have hbefore := ih fun e he => hsingle e (List.mem_append_left _ he)
    rw [putAll_concat]
    by_cases hlast : last.id? = some id
    · -- the last document with the id is the document itself
      obtain rfl := hsingle last (by simp) hlast
      rw [putAll_cons hlast, putAll, List.foldl_nil, Table.get?_insert, if_pos rfl]
    · have hin : d ∈ ds := by
        rcases List.mem_append.1 hmem with hin | hin
        · exact hin
        · rw [List.mem_singleton.1 hin] at hid
          exact absurd hid hlast
      rw [get?_putAll_of_forall_ne (by simpa using hlast)]
      exact hbefore hin

/-- Documents that are put under their own ids lie under their own ids. -/
theorem Keyed.putAll {shelf : Shelf} (h : shelf.Keyed) (ds : List Document) :
    (shelf.putAll ds).Keyed := by
  induction ds using List.reverseRecOn with
  | nil => exact h
  | append_singleton ds d ih =>
    rw [putAll_concat]
    cases hid : d.id? with
    | none => simpa [Shelf.putAll, hid] using ih
    | some id =>
      rw [putAll_cons hid]
      exact ih.insert hid

/-- The shelf without the documents under the given ids. -/
def eraseAll (shelf : Shelf) (ids : List String) : Shelf :=
  Table.filter shelf fun id _ => !ids.contains id

theorem get?_eraseAll (shelf : Shelf) (ids : List String) (id : String) :
    (shelf.eraseAll ids).get? id = if id ∈ ids then none else shelf.get? id := by
  rw [eraseAll, Table.get?_filter]
  cases hd : shelf.get? id <;> by_cases hmem : id ∈ ids <;> simp [hmem, Option.filter]

/-! ## Writes that succeed -/

/-- The writes succeed one after another and lead from the first shelf to the second. -/
inductive Writes : List Write → Shelf → Shelf → Prop where
  | nil (s : Shelf) : Writes [] s s
  | create {d : Document} {id : String} {rest : List Write} {s t : Shelf} (hid : d.id? = some id)
      (hfree : s.get? id = none) (hrest : Writes rest (Table.insert s id d) t) :
      Writes (.create d :: rest) s t
  | update {d : Document} {id : String} {rest : List Write} {s t : Shelf} (hid : d.id? = some id)
      (hthere : (s.get? id).isSome) (hrest : Writes rest (Table.insert s id d) t) :
      Writes (.update d :: rest) s t
  | delete {id : String} {rest : List Write} {s t : Shelf}
      (hthere : (s.get? id).isSome) (hrest : Writes rest (Table.erase s id) t) :
      Writes (.delete id :: rest) s t
  | mark {id : String} {rest : List Write} {s t : Shelf} (hrest : Writes rest s t) :
      Writes (.mark id :: rest) s t

namespace Writes

section Inversion

variable {d : Document} {id : String} {rest : List Write} {s t : Shelf}

theorem eq_of_nil (h : Writes [] s t) : t = s := by
  cases h
  rfl

theorem rest_of_create (h : Writes (.create d :: rest) s t) (hid : d.id? = some id) :
    Writes rest (Table.insert s id d) t := by
  cases h with
  | create hother _ hrest =>
    cases hid.symm.trans hother
    exact hrest

theorem rest_of_update (h : Writes (.update d :: rest) s t) (hid : d.id? = some id) :
    Writes rest (Table.insert s id d) t := by
  cases h with
  | update hother _ hrest =>
    cases hid.symm.trans hother
    exact hrest

theorem rest_of_mark (h : Writes (.mark id :: rest) s t) : Writes rest s t := by
  cases h with
  | mark hrest => exact hrest

end Inversion

theorem append {first second : List Write} {s t u : Shelf} (hfirst : Writes first s t)
    (hsecond : Writes second t u) : Writes (first ++ second) s u := by
  induction hfirst with
  | nil s => exact hsecond
  | create hid hfree _ ih => exact .create hid hfree (ih hsecond)
  | update hid hthere _ ih => exact .update hid hthere (ih hsecond)
  | delete hthere _ ih => exact .delete hthere (ih hsecond)
  | mark _ ih => exact .mark (ih hsecond)

/-- Documents that are there can be updated. -/
theorem updates {ds : List Document} {s : Shelf}
    (hthere : ∀ d ∈ ds, ∃ id, d.id? = some id ∧ (s.get? id).isSome) :
    Writes (ds.map .update) s (s.putAll ds) := by
  induction ds generalizing s with
  | nil => exact .nil s
  | cons d rest ih =>
    obtain ⟨id, hid, hd⟩ := hthere d List.mem_cons_self
    rw [putAll_cons hid]
    refine .update hid hd (ih fun e he => ?_)
    obtain ⟨other, hother, he⟩ := hthere e (List.mem_cons_of_mem _ he)
    refine ⟨other, hother, ?_⟩
    rw [Table.get?_insert]
    split
    · rfl
    · exact he

/-- Documents with ids of their own, under which nothing lies yet, can be created. -/
theorem creations {ds : List Document} {s : Shelf}
    (hdistinct : ds.Pairwise fun d e => d.id? ≠ e.id?)
    (hfree : ∀ d ∈ ds, ∃ id, d.id? = some id ∧ s.get? id = none) :
    Writes (ds.flatMap fun d => [.create d, .mark (d.id?.getD "")]) s (s.putAll ds) := by
  induction ds generalizing s with
  | nil => exact .nil s
  | cons d rest ih =>
    obtain ⟨hne, hdistinct⟩ := List.pairwise_cons.1 hdistinct
    obtain ⟨id, hid, hd⟩ := hfree d List.mem_cons_self
    rw [putAll_cons hid]
    refine .create hid hd (.mark (ih hdistinct fun e he => ?_))
    obtain ⟨other, hother, hfree⟩ := hfree e (List.mem_cons_of_mem _ he)
    refine ⟨other, hother, ?_⟩
    rw [Table.get?_insert, if_neg, hfree]
    rintro rfl
    exact hne e he (hid.trans hother.symm)

/-- Documents that are there can be deleted, each once. -/
theorem deletions {ids : List String} {s : Shelf} (hnodup : ids.Nodup)
    (hthere : ∀ id ∈ ids, (s.get? id).isSome) :
    Writes (ids.map .delete) s (s.eraseAll ids) := by
  induction ids generalizing s with
  | nil =>
    have hsame : s.eraseAll [] = s := Table.ext fun id => by simp [get?_eraseAll]
    rw [hsame]
    exact .nil s
  | cons id rest ih =>
    obtain ⟨hnotin, hnodup⟩ := List.nodup_cons.1 hnodup
    -- erasing them all is erasing the first and then the others
    have hsplit : s.eraseAll (id :: rest) = eraseAll (Table.erase s id) rest := by
      refine Table.ext fun other => ?_
      rw [get?_eraseAll, get?_eraseAll, Table.get?_erase]
      by_cases heq : other = id <;> simp [heq]
    rw [hsplit]
    refine .delete (hthere id List.mem_cons_self) (ih hnodup fun other hother => ?_)
    rw [Table.get?_erase, if_neg]
    · exact hthere other (List.mem_cons_of_mem _ hother)
    · -- no document is deleted twice
      rintro rfl
      exact hnotin hother

end Writes

end Shelf

/-! ## Workspaces -/

/-- The site after a plan that drew ids was carried out. -/
def Site.settled (site : Site) (drawn : Nat) (shelf : Shelf) : Site :=
  { site with
    store := site.store.withShelf shelf, ids := site.ids.skip drawn, clock := site.clock.next }

/-- What is pending after a write. -/
def Write.leave (pending : TextSet) : Write → TextSet
  | .delete id => Table.erase pending id
  | .mark id => pending.add id
  | _ => pending

namespace Workspace

variable {w : Workspace} {shelf after : Shelf}

/-- **One write after another, a workspace does what the bare shelf does**, and then goes on with
the writes that follow. -/
theorem writeAll_append {first rest : List Write} (hw : shelf.Writes first after)
    (hstore : w.site.store.shelf? = some shelf) :
    writeAll (first ++ rest) w = writeAll rest
      ⟨{ w.site with store := w.site.store.withShelf after },
        { w.session with pending := first.foldl Write.leave w.session.pending }⟩ := by
  induction hw generalizing w with
  | nil s =>
    rw [Store.withShelf_self hstore]
    rfl
  | @create d id others s t hid hfree _ ih =>
    rw [List.cons_append, writeAll, write, Store.create_eq_ok hstore hid hfree]
    exact ih rfl
  | @update d id others s t hid hthere _ ih =>
    rw [List.cons_append, writeAll, write, Store.update_eq_ok hstore hid hthere]
    exact ih rfl
  | @delete id others s t hthere _ ih =>
    rw [List.cons_append, writeAll, write, Store.delete_eq_ok hstore hthere]
    exact ih rfl
  | @mark id others s t _ ih =>
    rw [List.cons_append, writeAll]
    exact ih hstore

/-- Writes that succeed are all there is to be done. -/
theorem writeAll_of_writes {writes : List Write} (hw : shelf.Writes writes after)
    (hstore : w.site.store.shelf? = some shelf) :
    ∃ session, writeAll writes w =
      (.ok (), ⟨{ w.site with store := w.site.store.withShelf after }, session⟩) := by
  have hall : writeAll (writes ++ []) w = _ := writeAll_append hw hstore
  rw [List.append_nil] at hall
  exact ⟨_, hall⟩

/-- **A plan whose writes succeed is carried out.** -/
theorem execute_of_writes {plan : Plan} (hw : shelf.Writes plan.writes after)
    (hstore : w.site.store.shelf? = some shelf) :
    ∃ session, w.execute plan = (.ok (), ⟨w.site.settled plan.drawn after, session⟩) := by
  let begun : Workspace := { w with site := { w.site with
    ids := w.site.ids.skip plan.drawn, clock := w.site.clock.next } }
  have hbegun : begun.site.store.shelf? = some shelf := hstore
  exact writeAll_of_writes hw hbegun

end Workspace

end ContentRepository
