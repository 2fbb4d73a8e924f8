import ContentRepository.Proofs.Repository.Books
import ContentRepository.Proofs.Tree.Additions
import ContentRepository.Proofs.Tree.Runs

/-!
# Additions through connections

Several callers add children to a repository, each through a connection of its own, be it a session
or a handle. Nothing of what they get depends on the connections, as long as these are live.

* **`Host.addAll`** makes additions one after another.
* **`Host.exists_addAll_eq`** — what it does to the repository.
* **`Host.serves_addAll`** — of the requests for a place just one succeeds, if the place is free.
* **`Host.exists_alike_addAll`** — another order of the same requests leads to the same documents up
  to a renaming of the new ids.
-/

namespace ContentRepository

open Addition

/-- Whether a connection is live is written in the books. -/
theorem Repository.isLive_congr {r r' : Repository} (hbooks : r'.books = r.books)
    (c : Connection) : r'.isLive c = r.isLive c := by
  have hcontext : ∀ n, r'.context n = r.context n := by
    intro n
    have hget : r'.contexts.get? n = r.contexts.get? n :=
      congrFun (congrArg Books.contexts hbooks) n
    rw [context, context, hget]
  have hlive : ∀ n, (r'.session n).live = (r.session n).live :=
    congrFun (congrArg Books.live hbooks)
  cases c with
  | session number => rw [isLive, isLive, isUsable, isUsable, sessionOf, sessionOf, hlive]
  | handle id context number =>
    rw [isLive, isLive, isUsable, isUsable, sessionOf, sessionOf, hcontext, hlive]

/-- How requests are answered that are made of a site: of those for a free place just one succeeds,
of those for another none, and the rest are told that the place is taken. -/
structure Site.Serves (site : Site) (requests : List Addition) (outcomes : List Answered) :
    Prop where
  asked : outcomes.map (·.1) = requests
  once : ∀ a ∈ requests, site.IsFree a.place →
    outcomes.countP (fun o => o.1.place = a.place ∧ o.2.isOk) = 1
  never : ∀ o ∈ outcomes, ¬ site.IsFree o.1.place → o.2.isOk = false
  conflict : ∀ o ∈ outcomes, o.2.isOk = false → o.2 = .error o.1.conflict

/-- **So are requests answered that are taken one after another.** -/
theorem Shelf.Takes.serves {site : Site} {s t : Shelf} {ids : IdSource} {outcomes : List Answered}
    (h : Takes outcomes ids s t) (hfresh : ids.FreshFor s) (hstored : site.store.shelf? = some s) :
    site.Serves (outcomes.map (·.1)) outcomes where
  asked := rfl
  once := by
    intro a ha hfree
    -- the successes of a place are counted among the places that were granted
    have hcount : outcomes.countP (fun o => o.1.place = a.place ∧ o.2.isOk) =
        ((Addition.granted outcomes).map Addition.place).count a.place := by
      rw [Addition.granted, List.map_map, List.count_eq_countP, List.countP_map, List.countP_filter]
      exact List.countP_congr fun o _ => by simp
    rw [hcount]
    refine List.count_eq_one_of_mem (h.nodup_granted hfresh) ((h.mem_granted_iff hfresh).2 ⟨?_, ?_⟩)
    · obtain ⟨o, ho, rfl⟩ := List.mem_map.1 ha
      exact List.mem_map.2 ⟨o, ho, rfl⟩
    · exact (Site.isFree_iff hstored).1 hfree
  never := by
    intro o ho htaken
    by_contra hok
    rw [Bool.not_eq_false] at hok
    have hmem : o.1.place ∈ (Addition.granted outcomes).map Addition.place :=
      List.mem_map_of_mem (List.mem_map_of_mem (List.mem_filter.2 ⟨ho, hok⟩))
    exact htaken ((Site.isFree_iff hstored).2 ((h.mem_granted_iff hfresh).1 hmem).2)
  conflict := by
    intro o ho hno
    obtain hok | hconflict := h.answered ho
    · rw [hok] at hno
      cases hno
    · exact hconflict

namespace Host

/-- Makes additions one after another, each through its connection. -/
def addAll : List (Connection × Addition) → Host → List Answered × Host
  | [], h => ([], h)
  | (c, a) :: rest, h =>
    let (answer, h) := h.perform c a.call
    let (outcomes, h) := addAll rest h
    ((a, answer) :: outcomes, h)

variable {h : Host} {shelf : Shelf} {run : List (Connection × Addition)}

/-! ## One addition -/

/-- A live connection gives its session to work with. -/
theorem perform_eq {c : Connection} (hlive : h.repository.isLive c = true) (call : Session.Call) :
    (h.repository.workspace (h.repository.sessionOf c)).session.live = true ∧
      h.perform c call =
        let (answer, w) := (h.repository.workspace (h.repository.sessionOf c)).perform call
        (answer.mapError (Repository.seenThrough c),
          { h with repository := h.repository.absorb (h.repository.sessionOf c) w }) := by
  rw [Repository.isLive, Bool.and_eq_true] at hlive
  refine ⟨hlive.2, ?_⟩
  rw [Host.perform, Repository.perform, Repository.through, if_pos hlive.1]

/-- What the first of several additions does: it is answered, and the others go on from there. -/
structure Added (h : Host) (s : Shelf) (a : Addition) (answer : Except Error Session.Answer)
    (h' : Host) (t : Shelf) : Prop where
  takes : ∀ {outcomes u}, t.Takes outcomes h'.repository.site.ids u →
    s.Takes ((a, answer) :: outcomes) h.repository.site.ids u
  coherent : h'.repository.site.Coherent t
  site : ∃ ids clock, h'.repository.site =
    { h.repository.site with store := h.repository.site.store.withShelf t, ids, clock }
  stays : ∀ id d, s.get? id = some d → t.get? id = some d

/-- **An addition under a container is taken through any live connection.** -/
theorem exists_perform_eq {c : Connection} {a : Addition} (hco : h.repository.site.Coherent shelf)
    (hlive : h.repository.isLive c = true) (hcontainer : h.repository.site.IsContainer a.parent) :
    ∃ answer h' t, h.perform c a.call = (answer, h') ∧ h.Added shelf a answer h' t := by
  obtain ⟨hsession, hperform⟩ := perform_eq hlive a.call
  obtain ⟨dp, hdp, hcontainer⟩ := hco.filed.isContainer_iff.1 hcontainer
  let w := h.repository.workspace (h.repository.sessionOf c)
  have hcow : w.site.Coherent shelf := hco
  obtain ⟨hfree, t, session, rfl, hmade, hcoherent⟩ | ⟨htaken, hrefused⟩ :=
    hcow.perform_addition hsession hdp hcontainer
  · rw [hmade] at hperform
    exact ⟨_, _, _, hperform, fun hrest => .granted hdp hfree hrest, hcoherent, ⟨_, _, rfl⟩,
      fun id d hd => Table.get?_insert_of_free (hco.get?_peek 0) hd⟩
  · -- a conflict is the same error through a handle
    have hseen : Repository.seenThrough c a.conflict = a.conflict := by
      cases c <;> rfl
    rw [hrefused] at hperform
    refine ⟨.error a.conflict, { h with
      repository := h.repository.absorb (h.repository.sessionOf c) w }, shelf, ?_,
      fun hrest => .refused htaken hrest, hco, ⟨h.repository.site.ids, h.repository.site.clock, ?_⟩,
      fun _ _ hd => hd⟩
    · rw [hperform]
      exact congrArg (fun e => (Except.error e, _)) hseen
    · rw [Store.withShelf_self hco.stored]
      rfl

/-- Containers stay such. -/
theorem Added.isContainer {a : Addition} {answer : Except Error Session.Answer} {h' : Host}
    {t : Shelf} (hadded : h.Added shelf a answer h' t) (hco : h.repository.site.Coherent shelf)
    {id : String} (hcontainer : h.repository.site.IsContainer id) :
    h'.repository.site.IsContainer id := by
  obtain ⟨d, hd, hchecks⟩ := hco.filed.isContainer_iff.1 hcontainer
  obtain ⟨ids, clock, hsite⟩ := hadded.site
  refine hadded.coherent.filed.isContainer_iff.2 ⟨d, hadded.stays id d hd, ?_⟩
  rw [hsite]
  exact hchecks

/-! ## All of them -/

/-- What additions through live connections to containers come to. -/
structure AddedAll (h : Host) (s : Shelf) (run : List (Connection × Addition))
    (outcomes : List Answered) (h' : Host) (t : Shelf) : Prop where
  asked : outcomes.map (·.1) = run.map (·.2)
  takes : s.Takes outcomes h.repository.site.ids t
  coherent : h'.repository.site.Coherent t
  site : ∃ ids clock, h'.repository.site =
    { h.repository.site with store := h.repository.site.store.withShelf t, ids, clock }
  books : h'.books = h.books
  manager : h'.manager = h.manager

/-- **Additions are taken one after another.** Induction on the run; what a connection needs to be
live and a document to be a container is not changed by additions. -/
theorem exists_addAll_eq (hco : h.repository.site.Coherent shelf)
    (hlive : ∀ x ∈ run, h.repository.isLive x.1 = true)
    (hcontainers : ∀ x ∈ run, h.repository.site.IsContainer x.2.parent) :
    ∃ outcomes h' t, h.addAll run = (outcomes, h') ∧ h.AddedAll shelf run outcomes h' t := by
  induction run generalizing h shelf with
  | nil =>
    refine ⟨[], h, shelf, rfl, rfl, .nil _ _, hco,
      ⟨h.repository.site.ids, h.repository.site.clock, ?_⟩, rfl, rfl⟩
    rw [Store.withShelf_self hco.stored]
  | cons x rest ih =>
    obtain ⟨c, a⟩ := x
    obtain ⟨answer, h', s, hperform, hadded⟩ := exists_perform_eq hco
      (hlive (c, a) List.mem_cons_self) (hcontainers (c, a) List.mem_cons_self)
    -- a call through the session leaves the books and the manager alone, so the rest is as usable
    have hframe : h'.books = h.books ∧ h'.repository.books = h.repository.books ∧
        h'.manager = h.manager := by
      have hafter : h' = (h.perform c a.call).2 := by rw [hperform]
      rw [hafter]
      exact ⟨books_perform h c a.call, Repository.books_perform c a.call, rfl⟩
    obtain ⟨outcomes, h'', t, hrun, hall⟩ := ih hadded.coherent
      (fun x hx => (Repository.isLive_congr hframe.2.1 x.1).trans
        (hlive x (List.mem_cons_of_mem _ hx)))
      fun x hx => hadded.isContainer hco (hcontainers x (List.mem_cons_of_mem _ hx))
    -- the first addition, then the others on what it left
    refine ⟨(a, answer) :: outcomes, h'', t, ?_, congrArg (a :: ·) hall.asked,
      hadded.takes hall.takes, hall.coherent, ?_, hall.books.trans hframe.1,
      hall.manager.trans hframe.2.2⟩
    · rw [addAll, hperform]
      dsimp only
      rw [hrun]
    · obtain ⟨ids, clock, hsite⟩ := hadded.site
      obtain ⟨ids', clock', hsite'⟩ := hall.site
      rw [hsite', hsite]
      exact ⟨ids', clock', rfl⟩

/-- **So are requests answered that are made through connections, in whatever order.** -/
theorem serves_addAll (hco : h.repository.site.Coherent shelf)
    (hlive : ∀ x ∈ run, h.repository.isLive x.1 = true)
    (hcontainers : ∀ x ∈ run, h.repository.site.IsContainer x.2.parent) :
    h.repository.site.Serves (run.map (·.2)) (h.addAll run).1 := by
  obtain ⟨outcomes, h', t, heq, hadded⟩ := exists_addAll_eq hco hlive hcontainers
  rw [heq, ← hadded.asked]
  exact hadded.takes.serves hco.freshFor hco.stored

/-- All that was answered was asked for. -/
theorem AddedAll.exists_of_mem {outcomes : List Answered} {h' : Host} {t : Shelf}
    (hadded : h.AddedAll shelf run outcomes h' t) {o : Answered} (ho : o ∈ outcomes) :
    ∃ x ∈ run, x.2 = o.1 := by
  have hmem : o.1 ∈ run.map (·.2) := hadded.asked ▸ List.mem_map_of_mem ho
  exact List.mem_map.1 hmem

/-- **The new documents are the children that were granted.** -/
theorem AddedAll.planted {outcomes : List Answered} {h' : Host} {t : Shelf}
    (hadded : h.AddedAll shelf run outcomes h' t) (hco : h.repository.site.Coherent shelf)
    (hcontainers : ∀ x ∈ run, h.repository.site.IsContainer x.2.parent) :
    shelf.Planted h.repository.site.ids (granted outcomes) t := by
  refine hadded.takes.planted hco.freshFor fun o ho => ?_
  obtain ⟨x, hx, hxo⟩ := hadded.exists_of_mem ho
  obtain ⟨d, hd, -⟩ := hco.filed.isContainer_iff.1 (hcontainers x hx)
  rw [← hxo, hd]
  rfl

/-- **If all ask for places of their own that are free, all of them succeed.** -/
theorem AddedAll.all_granted {outcomes : List Answered} {h' : Host} {t : Shelf}
    (hadded : h.AddedAll shelf run outcomes h' t) (hco : h.repository.site.Coherent shelf)
    (hnodup : (run.map (·.2.place)).Nodup)
    (hfree : ∀ x ∈ run, h.repository.site.IsFree x.2.place) :
    (granted outcomes).length = run.length ∧ outcomes.countP (·.2.isOk) = run.length ∧
      outcomes.countP (!·.2.isOk) = 0 := by
  have hasked : outcomes.map (·.1.place) = run.map (·.2.place) := by
    have hplaces := congrArg (List.map Addition.place) hadded.asked
    rw [List.map_map, List.map_map] at hplaces
    exact hplaces
  have hplaces : ((granted outcomes).map Addition.place).Perm (run.map (·.2.place)) := by
    refine (List.perm_ext_iff_of_nodup (hadded.takes.nodup_granted hco.freshFor) hnodup).2
      fun place => ?_
    rw [hadded.takes.mem_granted_iff hco.freshFor, hasked, and_iff_left_iff_imp]
    intro hmem
    obtain ⟨x, hx, rfl⟩ := List.mem_map.1 hmem
    exact (Site.isFree_iff hco.stored).1 (hfree x hx)
  have hlength : (granted outcomes).length = run.length := by simpa using hplaces.length_eq
  have hok : outcomes.countP (·.2.isOk) = (granted outcomes).length := by
    rw [List.countP_eq_length_filter, granted, List.length_map]
  have hall : outcomes.length = run.length := by simpa using congrArg List.length hadded.asked
  refine ⟨hlength, hok.trans hlength, ?_⟩
  -- so none is left to fail
  have hsplit := List.length_eq_countP_add_countP (fun o : Answered => o.2.isOk) (l := outcomes)
  rw [hok, hlength, hall, Nat.left_eq_add] at hsplit
  simpa using hsplit

/-- The documents that two runs of additions lead to, when both begin at the same host. -/
structure EndsAlike (h : Host) (first second : List (Connection × Addition)) (before : Shelf)
    (σ : Equiv.Perm String) (s t : Shelf) : Prop where
  stored : h.repository.site.store.shelf? = some before
  afterFirst : (h.addAll first).2.repository.site.store = h.repository.site.store.withShelf s
  afterSecond : (h.addAll second).2.repository.site.store = h.repository.site.store.withShelf t
  alike : before.Alike (granted (h.addAll first).1) (granted (h.addAll second).1) σ s t

/-- **Another order of the same requests leads to the same documents up to a renaming.** -/
theorem exists_alike_addAll {first second : List (Connection × Addition)}
    (hco : h.repository.site.Coherent shelf)
    (hlive : ∀ x ∈ first ++ second, h.repository.isLive x.1 = true)
    (hcontainers : ∀ x ∈ first ++ second, h.repository.site.IsContainer x.2.parent)
    (hsame : (first.map (·.2)).Perm (second.map (·.2))) :
    ∃ σ s t, h.EndsAlike first second shelf σ s t := by
  obtain ⟨outcomes, h', s, heq, hs⟩ := exists_addAll_eq hco
    (fun x hx => hlive x (List.mem_append_left _ hx))
    fun x hx => hcontainers x (List.mem_append_left _ hx)
  obtain ⟨outcomes', h'', t, heq', ht⟩ := exists_addAll_eq hco
    (fun x hx => hlive x (List.mem_append_right _ hx))
    fun x hx => hcontainers x (List.mem_append_right _ hx)
  have hfresh := hco.freshFor
  have hplanted := hs.planted hco fun x hx => hcontainers x (List.mem_append_left _ hx)
  have hplanted' := ht.planted hco fun x hx => hcontainers x (List.mem_append_right _ hx)
  -- the same places are granted, each once
  have hasked : (outcomes.map (·.1.place)).Perm (outcomes'.map (·.1.place)) := by
    have hplaces := (hs.asked ▸ ht.asked ▸ hsame).map Addition.place
    rw [List.map_map, List.map_map] at hplaces
    exact hplaces
  have hplaces : ((granted outcomes).map Addition.place).Perm
      ((granted outcomes').map Addition.place) := by
    refine (List.perm_ext_iff_of_nodup (hs.takes.nodup_granted hfresh)
      (ht.takes.nodup_granted hfresh)).2 fun place => ?_
    rw [hs.takes.mem_granted_iff hfresh, ht.takes.mem_granted_iff hfresh, hasked.mem_iff]
  obtain ⟨σ, halike⟩ := hplanted.exists_alike hfresh hplanted' hplaces
  refine ⟨σ, s, t, hco.stored, ?_, ?_, ?_⟩
  · obtain ⟨ids, clock, hsite⟩ := hs.site
    rw [heq, hsite]
  · obtain ⟨ids, clock, hsite⟩ := ht.site
    rw [heq', hsite]
  · rw [heq, heq']
    exact halike

end Host

end ContentRepository
