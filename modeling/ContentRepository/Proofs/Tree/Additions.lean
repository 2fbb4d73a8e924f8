import ContentRepository.Proofs.Query.Paging
import ContentRepository.Proofs.Versions.CheckIn
import Mathlib.GroupTheory.Perm.ViaEmbedding

/-!
# Additions one after another

Requests to add children to documents that are there already contend for names and for ids.
Whichever comes first gets the name, and the ids are dealt out in the order of the requests that
succeed. So another order deals the same names to maybe other requests, under other ids, and makes
no further difference.

* **`Shelf.Takes`** — what becomes of a shelf, and what is answered, as additions are made one after
  another. **`Site.Coherent.perform_addition`** shows that each one is a step of this.
* **`Shelf.Takes.answered`** and **`Shelf.Takes.mem_granted_iff`** — an addition succeeds or is in
  conflict, and just the names that are asked for and free are granted.
* **`Shelf.Takes.planted`** — the new documents are the children that were granted.
* **`Shelf.Planted.exists_alike`** — the same names, granted in another order, lead to a shelf that
  is the same up to a renaming of the new ids.
-/

namespace ContentRepository

/-- A request for a new child. -/
structure Addition where
  parent : String
  name : String
  type : String

namespace Addition

/-- What requests may contend for: a name under a parent. -/
def place (a : Addition) : String × String := (a.parent, a.name)

def call (a : Addition) : Session.Call := .addChild a.parent a.name a.type

/-- The error of a request for a place that is taken. -/
def conflict (a : Addition) : Error := .nameConflict a.parent a.name

/-- The child that is requested, under an id. -/
def child (a : Addition) (id : String) (parent : Document) : Document :=
  (Document.newChild id parent a.parent a.name).set Field.type (.string a.type)

theorem id?_child (a : Addition) (id : String) (parent : Document) :
    (a.child id parent).id? = some id := by
  simp +decide [child, Document.newChild, Document.withId, Document.setAll, Document.get?_set,
    Document.id?, Document.string?, Value.string?]

theorem get?_place_child (a : Addition) (id : String) (parent : Document) :
    (a.child id parent).get? Field.parent = some (.reference a.parent) ∧
      (a.child id parent).get? Field.name = some (.string a.name) := by
  simp +decide [child, Document.newChild, Document.withId, Document.setAll, Document.get?_set]

/-- A request with what was answered to it. -/
abbrev Answered := Addition × Except Error Session.Answer

/-- The requests that succeeded, in their order. -/
def granted (outcomes : List Answered) : List Addition :=
  (outcomes.filter (·.2.isOk)).map (·.1)

end Addition

namespace IdSource

theorem peek_skip (s : IdSource) (m n : Nat) : (s.skip m).peek n = s.peek (m + n) :=
  congrArg s.name (Nat.add_assoc s.drawn m n)

/-- The source repeats nothing, and draws no id that is in use on the shelf. -/
structure FreshFor (s : IdSource) (shelf : Shelf) : Prop where
  unrepeated : s.Unrepeated
  absent : ∀ n, shelf.get? (s.peek n) = none

theorem FreshFor.insert {s : IdSource} {shelf : Shelf} (h : s.FreshFor shelf) (d : Document) :
    (s.skip 1).FreshFor (Table.insert shelf (s.peek 0) d) where
  unrepeated := h.unrepeated
  absent := by
    intro n
    rw [peek_skip, Table.get?_insert, if_neg, h.absent]
    intro heq
    have := peek_injective h.unrepeated heq
    omega

end IdSource

namespace Shelf

open Addition

/-! ## Additions on a shelf -/

/-- The requests are answered one after another, and lead from the first shelf to the second. -/
inductive Takes : List Answered → IdSource → Shelf → Shelf → Prop where
  | nil (ids : IdSource) (s : Shelf) : Takes [] ids s s
  | granted {a : Addition} {dp : Document} {rest : List Answered} {ids : IdSource} {s t : Shelf}
      (hdp : s.get? a.parent = some dp) (hfree : s.child? a.parent a.name [] = none)
      (hrest : Takes rest (ids.skip 1) (Table.insert s (ids.peek 0) (a.child (ids.peek 0) dp)) t) :
      Takes ((a, .ok (Workspace.made (a.child (ids.peek 0) dp))) :: rest) ids s t
  | refused {a : Addition} {rest : List Answered} {ids : IdSource} {s t : Shelf}
      (htaken : s.child? a.parent a.name [] ≠ none) (hrest : Takes rest ids s t) :
      Takes ((a, .error a.conflict) :: rest) ids s t

/-- A new child takes its place, and leaves all others as they were. -/
theorem child?_insert_child {s : Shelf} {id : String} (habsent : s.get? id = none) (a : Addition)
    (dp : Document) (place : String × String) :
    child? (Table.insert s id (a.child id dp)) place.1 place.2 [] = none ↔
      place ≠ a.place ∧ s.child? place.1 place.2 [] = none := by
  obtain ⟨hparent, hname⟩ := a.get?_place_child id dp
  have hparent : (a.child id dp).parent? = some a.parent :=
    Document.reference?_eq_some_iff.2 hparent
  have hname : (a.child id dp).name? = some a.name := Document.string?_eq_some_iff.2 hname
  simp only [child?_eq_none_iff]
  constructor
  · intro hfree
    refine ⟨?_, fun other e he => hfree other e ?_⟩
    · -- the child itself takes its own place
      rintro rfl
      exact hfree id _ (by rw [Table.get?_insert, if_pos rfl]) hparent hname
    · rw [Table.get?_insert, if_neg, he]
      rintro rfl
      rw [habsent] at he
      cases he
  · rintro ⟨hne, hfree⟩ other e he hp hn
    -- only the child is new, and it is in no other place
    obtain ⟨-, rfl⟩ | ⟨-, he⟩ := Table.get?_insert_eq_some_iff.1 he
    · have hp := Option.some.inj (hparent.symm.trans hp)
      have hn := Option.some.inj (hname.symm.trans hn)
      exact hne (Prod.ext hp.symm hn.symm)
    · exact hfree other e he hp hn

namespace Takes

variable {outcomes : List Answered} {ids : IdSource} {s t : Shelf}

/-- **Every request succeeds or is in conflict.** -/
theorem answered (h : Takes outcomes ids s t) {o : Answered} (ho : o ∈ outcomes) :
    o.2.isOk = true ∨ o.2 = .error o.1.conflict := by
  induction h with
  | nil => cases ho
  | granted _ _ _ ih =>
    obtain rfl | ho := List.mem_cons.1 ho
    · exact .inl rfl
    · exact ih ho
  | refused _ _ ih =>
    obtain rfl | ho := List.mem_cons.1 ho
    · exact .inr rfl
    · exact ih ho

/-- **The places that are granted are those that are asked for and free.** -/
theorem mem_granted_iff (h : Takes outcomes ids s t) (hfresh : ids.FreshFor s)
    {place : String × String} :
    place ∈ (Addition.granted outcomes).map Addition.place ↔
      place ∈ outcomes.map (·.1.place) ∧ s.child? place.1 place.2 [] = none := by
  induction h with
  | nil => simp [Addition.granted]
  | @granted a dp rest ids s t hdp hfree hrest ih =>
    -- the first request is granted: its place was free, and is taken for those that follow
    have ih := ih (hfresh.insert _)
    rw [child?_insert_child (hfresh.absent 0)] at ih
    have hcons : (Addition.granted
        ((a, .ok (Workspace.made (a.child (ids.peek 0) dp))) :: rest)).map Addition.place =
          a.place :: (Addition.granted rest).map Addition.place := rfl
    rw [hcons, List.map_cons, List.mem_cons, List.mem_cons, ih]
    constructor
    · rintro (rfl | ⟨hmem, -, hplace⟩)
      · exact ⟨.inl rfl, hfree⟩
      · exact ⟨.inr hmem, hplace⟩
    · rintro ⟨rfl | hmem, hplace⟩
      · exact .inl rfl
      · -- a later request for the same place is refused, but the place is granted all the same
        by_cases heq : place = a.place
        · exact .inl heq
        · exact .inr ⟨hmem, heq, hplace⟩
  | @refused a rest ids s t htaken hrest ih =>
    -- the first request is refused: its place was taken, so it is not among the free ones
    have hcons : Addition.granted ((a, .error a.conflict) :: rest) = Addition.granted rest := rfl
    rw [hcons, List.map_cons, List.mem_cons, ih hfresh]
    constructor
    · rintro ⟨hmem, hplace⟩
      exact ⟨.inr hmem, hplace⟩
    · rintro ⟨rfl | hmem, hplace⟩
      · exact absurd hplace htaken
      · exact ⟨hmem, hplace⟩

/-- **No place is granted twice.** -/
theorem nodup_granted (h : Takes outcomes ids s t) (hfresh : ids.FreshFor s) :
    ((Addition.granted outcomes).map Addition.place).Nodup := by
  induction h with
  | nil => exact List.nodup_nil
  | @granted a dp rest ids s t hdp hfree hrest ih =>
    refine List.nodup_cons.2 ⟨fun hmem => ?_, ih (hfresh.insert _)⟩
    -- the place is taken by then
    obtain ⟨-, hplace⟩ := (hrest.mem_granted_iff (hfresh.insert _)).1 hmem
    exact ((child?_insert_child (hfresh.absent 0) a dp a.place).1 hplace).1 rfl
  | refused _ _ ih => exact ih hfresh

end Takes

/-! ## The new documents -/

/-- The second shelf is the first with the children that were requested, under the ids that come
next. -/
structure Planted (s : Shelf) (ids : IdSource) (as : List Addition) (t : Shelf) : Prop where
  new : ∀ i a, as[i]? = some a → ∃ dp, s.get? a.parent = some dp ∧
    t.get? (ids.peek i) = some (a.child (ids.peek i) dp)
  old : ∀ id, (∀ i < as.length, id ≠ ids.peek i) → t.get? id = s.get? id

namespace Planted

variable {s t u : Shelf} {ids : IdSource} {as bs : List Addition} {a : Addition}

/-- One more child, put there before the others. -/
theorem cons {dp : Document} (hfresh : ids.FreshFor s) (hdp : s.get? a.parent = some dp)
    (hparents : ∀ b ∈ as, (s.get? b.parent).isSome)
    (h : Planted (Table.insert s (ids.peek 0) (a.child (ids.peek 0) dp)) (ids.skip 1) as t) :
    Planted s ids (a :: as) t where
  new := by
    intro i b hb
    cases i with
    | zero =>
      obtain rfl : a = b := by simpa using hb
      refine ⟨dp, hdp, ?_⟩
      -- none of the later children gets this id
      rw [h.old _ fun i _ heq => ?_, Table.get?_insert, if_pos rfl]
      rw [IdSource.peek_skip] at heq
      have := IdSource.peek_injective hfresh.unrepeated heq
      omega
    | succ i =>
      have hb : as[i]? = some b := by simpa using hb
      obtain ⟨dq, hdq, hnew⟩ := h.new i b hb
      rw [IdSource.peek_skip, Nat.add_comm] at hnew
      refine ⟨dq, ?_, hnew⟩
      rw [Table.get?_insert, if_neg] at hdq
      · exact hdq
      · intro heq
        have hthere := hparents b (List.mem_of_getElem? hb)
        rw [heq, hfresh.absent] at hthere
        cases hthere
  old := by
    intro id hne
    rw [h.old id fun i hi => ?_, Table.get?_insert, if_neg (hne 0 (Nat.succ_pos _))]
    rw [IdSource.peek_skip, Nat.add_comm]
    exact hne (i + 1) (Nat.succ_lt_succ hi)

/-- What is there already stays. -/
theorem get?_of_some (h : Planted s ids as t) (hfresh : ids.FreshFor s) {id : String} {d : Document}
    (hd : s.get? id = some d) : t.get? id = some d := by
  rw [h.old id, hd]
  rintro i - rfl
  rw [hfresh.absent] at hd
  cases hd

/-- Nothing is new under an id that is not dealt out. -/
theorem get?_eq_none (h : Planted s ids as t) {id : String} (hd : s.get? id = none)
    (hne : ∀ i < as.length, id ≠ ids.peek i) : t.get? id = none :=
  (h.old id hne).trans hd

end Planted

/-- **What additions lead to:** the children that were granted, and nothing else that is new. -/
theorem Takes.planted {outcomes : List Answered} {ids : IdSource} {s t : Shelf}
    (h : Takes outcomes ids s t) (hfresh : ids.FreshFor s)
    (hparents : ∀ o ∈ outcomes, (s.get? o.1.parent).isSome) :
    Planted s ids (Addition.granted outcomes) t := by
  induction h with
  | nil => exact ⟨fun i a ha => by simp [Addition.granted] at ha, fun _ _ => rfl⟩
  | @granted a dp rest ids s t hdp hfree hrest ih =>
    have hthere : ∀ o ∈ rest, (s.get? o.1.parent).isSome :=
      fun o ho => hparents o (List.mem_cons_of_mem _ ho)
    refine .cons hfresh hdp (fun b hb => ?_) (ih (hfresh.insert _) fun o ho => ?_)
    · obtain ⟨o, ho, rfl⟩ := List.mem_map.1 hb
      exact hthere o (List.mem_of_mem_filter ho)
    · rw [Table.get?_insert]
      split
      · rfl
      · exact hthere o ho
  | refused _ _ ih => exact ih hfresh fun o ho => hparents o (List.mem_cons_of_mem _ ho)

/-! ## Children -/

/-- The children of a document; one document does not count as one. -/
def childrenOf (s : Shelf) (parent versions : String) : List Document :=
  (s.having Field.parent (.reference parent) []).filter fun d => d.id? != some versions

theorem mem_childrenOf {s : Shelf} {parent versions : String} {d : Document} :
    d ∈ s.childrenOf parent versions ↔ (∃ id, s.get? id = some d) ∧
      d.get? Field.parent = some (.reference parent) ∧ d.id? ≠ some versions := by
  simp [childrenOf, having, mem_visible, Document.holds_reference_iff, and_comm]

/-- Each child is listed once. -/
theorem nodup_ids_childrenOf {s : Shelf} (hkeyed : s.Keyed) (parent versions : String) :
    ((s.childrenOf parent versions).map (·.id?)).Nodup := by
  refine List.pairwise_map.2 ((((Query.pairwise_visible hkeyed []).filter _).filter _).imp ?_)
  rintro d e ⟨i, j, hi, hj, hij⟩ heq
  rw [hi, hj] at heq
  cases heq
  exact String.lt_irrefl _ hij

/-- **New children are added to those that there are.** -/
theorem Planted.children {s t : Shelf} {ids : IdSource} {as : List Addition} {p versions : String}
    (h : Planted s ids as t) (hfresh : ids.FreshFor s) (hs : s.Keyed) (ht : t.Keyed)
    (hparents : ∀ a ∈ as, a.parent = p) (hversions : (s.get? versions).isSome) :
    s.childrenOf p versions ⊆ t.childrenOf p versions ∧
      (t.childrenOf p versions).length = (s.childrenOf p versions).length + as.length := by
  -- the folder of the versions was there before, so its id is not dealt out
  have hne : ∀ i, ids.peek i ≠ versions := by
    rintro i rfl
    rw [hfresh.absent] at hversions
    cases hversions
  have hold : s.childrenOf p versions ⊆ t.childrenOf p versions := by
    -- an old child is still there
    intro d hd
    obtain ⟨⟨id, hid⟩, hchild⟩ := mem_childrenOf.1 hd
    exact mem_childrenOf.2 ⟨⟨id, h.get?_of_some hfresh hid⟩, hchild⟩
  refine ⟨hold, ?_⟩
  -- the ids of the children are those from before and those that were dealt out
  have hids : ((t.childrenOf p versions).map (·.id?)).Perm ((s.childrenOf p versions).map (·.id?) ++
      (List.range as.length).map fun i => some (ids.peek i)) := by
    refine (List.perm_ext_iff_of_nodup (nodup_ids_childrenOf ht p versions) ?_).2 fun k => ?_
    · refine List.nodup_append.2 ⟨nodup_ids_childrenOf hs p versions, ?_, ?_⟩
      · exact List.nodup_range.map fun i j heq =>
          IdSource.peek_injective hfresh.unrepeated (Option.some.inj heq)
      · -- an old child has no id that was dealt out
        intro k hk l hl heq
        obtain ⟨d, hd, rfl⟩ := List.mem_map.1 hk
        obtain ⟨i, -, rfl⟩ := List.mem_map.1 hl
        obtain ⟨⟨id, hid⟩, -⟩ := mem_childrenOf.1 hd
        rw [hs id d hid] at heq
        rw [Option.some.inj heq, hfresh.absent] at hid
        cases hid
    · rw [List.mem_append, List.mem_map, List.mem_map, List.mem_map]
      constructor
      · rintro ⟨d, hd, rfl⟩
        obtain ⟨⟨id, hid⟩, hchild⟩ := mem_childrenOf.1 hd
        -- a child now has an id that was dealt out, or it was there before
        by_cases hdealt : ∃ i, i < as.length ∧ id = ids.peek i
        · obtain ⟨i, hi, rfl⟩ := hdealt
          exact .inr ⟨i, List.mem_range.2 hi, (ht _ d hid).symm⟩
        · push Not at hdealt
          rw [h.old id hdealt] at hid
          exact .inl ⟨d, mem_childrenOf.2 ⟨⟨id, hid⟩, hchild⟩, rfl⟩
      · rintro (⟨d, hd, rfl⟩ | ⟨i, hi, rfl⟩)
        · exact ⟨d, hold hd, rfl⟩
        · -- what was added is a child of the same parent
          have hi : i < as.length := List.mem_range.1 hi
          obtain ⟨dp, -, hnew⟩ := h.new i as[i] (List.getElem?_eq_getElem hi)
          have hid := as[i].id?_child (ids.peek i) dp
          refine ⟨_, mem_childrenOf.2 ⟨⟨_, hnew⟩, ?_, ?_⟩, hid⟩
          · rw [← hparents as[i] (List.getElem_mem hi)]
            exact (as[i].get?_place_child (ids.peek i) dp).1
          · rw [hid]
            exact fun heq => hne i (Option.some.inj heq)
  simpa using hids.length_eq

/-! ## Another order -/

/-- The two shelves come of the first by new children in the same places. The ids of the new ones
are renamed, and so the new documents are the same but for their ids and maybe their types. -/
structure Alike (s : Shelf) (as bs : List Addition) (σ : Equiv.Perm String) (t u : Shelf) :
    Prop where
  old : ∀ id d, s.get? id = some d → σ id = id ∧ t.get? id = some d ∧ u.get? id = some d
  new : ∀ id, s.get? id = none →
    (t.get? id = none ∧ u.get? (σ id) = none) ∨
      ∃ a ∈ as, ∃ b ∈ bs, ∃ dp, a.place = b.place ∧ s.get? a.parent = some dp ∧
        t.get? id = some (a.child id dp) ∧ u.get? (σ id) = some (b.child (σ id) dp)

/-- Where the items of a list are after a rearrangement. -/
theorem exists_perm_getElem? {α : Type} {l m : List α} (h : l.Perm m) :
    ∃ e : Equiv.Perm Nat, ∀ i, l[i]? = m[e i]? := by
  induction h with
  | nil => exact ⟨1, fun _ => rfl⟩
  | cons a _ ih =>
    obtain ⟨e, he⟩ := ih
    -- the first item stays, and the others are moved like before
    refine ⟨⟨Nat.rec 0 fun i _ => e i + 1, Nat.rec 0 fun i _ => e.symm i + 1, ?_, ?_⟩, ?_⟩
    · rintro (_ | i) <;> simp
    · rintro (_ | i) <;> simp
    · rintro (_ | i)
      · rfl
      · exact he i
  | swap a b l =>
    refine ⟨Equiv.swap 0 1, ?_⟩
    rintro (_ | _ | i)
    · rw [Equiv.swap_apply_left]
      rfl
    · rw [Equiv.swap_apply_right]
      rfl
    · rw [Equiv.swap_apply_of_ne_of_ne (by omega) (by omega)]
      rfl
  | trans _ _ ih₁ ih₂ =>
    obtain ⟨e, he⟩ := ih₁
    obtain ⟨f, hf⟩ := ih₂
    exact ⟨f * e, fun i => (he i).trans (hf (e i))⟩

/-- **The same places, granted in another order, lead to the same shelf up to a renaming.** -/
theorem Planted.exists_alike {s t u : Shelf} {ids : IdSource} {as bs : List Addition}
    (hfresh : ids.FreshFor s) (ht : Planted s ids as t) (hu : Planted s ids bs u)
    (hplaces : (as.map Addition.place).Perm (bs.map Addition.place)) :
    ∃ σ, Alike s as bs σ t u := by
  obtain ⟨e, he⟩ := exists_perm_getElem? hplaces
  simp only [List.getElem?_map] at he
  have hlength : as.length = bs.length := by simpa using hplaces.length_eq
  let peek : Nat ↪ String := ⟨ids.peek, IdSource.peek_injective hfresh.unrepeated⟩
  -- the ids are moved as the requests are, and all others stay
  have hmoved : ∀ i, e.viaEmbedding peek (ids.peek i) = ids.peek (e i) :=
    fun i => e.viaEmbedding_apply peek i
  have hfixed : ∀ id, (∀ i, id ≠ ids.peek i) → e.viaEmbedding peek id = id := by
    intro id hid
    refine e.viaEmbedding_apply_of_notMem peek id ?_
    rintro ⟨i, hi⟩
    exact hid i hi.symm
  refine ⟨e.viaEmbedding peek, fun id d hd => ⟨hfixed id ?_, ht.get?_of_some hfresh hd,
    hu.get?_of_some hfresh hd⟩, fun id hd => ?_⟩
  · rintro i rfl
    rw [hfresh.absent] at hd
    cases hd
  -- an id that is not dealt out is nobody in either order
  by_cases hdrawn : ∀ i, id ≠ ids.peek i
  · rw [hfixed id hdrawn]
    exact .inl ⟨ht.get?_eq_none hd fun i _ => hdrawn i, hu.get?_eq_none hd fun i _ => hdrawn i⟩
  push Not at hdrawn
  obtain ⟨i, rfl⟩ := hdrawn
  rw [hmoved]
  have hi := he i
  cases ha : as[i]? with
  | none =>
    -- neither of the two ids was dealt out
    rw [ha] at hi
    have hb : bs[e i]? = none := by simpa using hi.symm
    rw [List.getElem?_eq_none_iff] at ha hb
    refine .inl ⟨ht.get?_eq_none hd fun j hj heq => ?_, hu.get?_eq_none (hfresh.absent _)
      fun j hj heq => ?_⟩
    · have := IdSource.peek_injective hfresh.unrepeated heq
      omega
    · have := IdSource.peek_injective hfresh.unrepeated heq
      omega
  | some a =>
    rw [ha] at hi
    obtain ⟨b, hb, hab⟩ := Option.map_eq_some_iff.1 hi.symm
    obtain ⟨dp, hdp, hnew⟩ := ht.new i a ha
    obtain ⟨dq, hdq, hnew'⟩ := hu.new (e i) b hb
    -- both orders find the same parent, as neither changes it
    obtain rfl : dp = dq := by
      have hparent : b.parent = a.parent := congrArg Prod.fst hab
      rw [hparent] at hdq
      exact Option.some.inj (hdp.symm.trans hdq)
    exact .inr ⟨a, List.mem_of_getElem? ha, b, List.mem_of_getElem? hb, dp, hab.symm, hdp, hnew,
      hnew'⟩

end Shelf

/-! ## Additions on a site -/

namespace Site

variable {site : Site} {shelf : Shelf}

theorem Coherent.freshFor (h : Coherent site shelf) : site.ids.FreshFor shelf :=
  ⟨h.unrepeated, h.get?_peek⟩

/-- The document is there, and it is neither a proxy, nor a version, nor the folder of versions. -/
def IsContainer (site : Site) (id : String) : Prop :=
  ∃ d, site.store.find? id = .ok (some d) ∧ d.isProxy = false ∧ d.isVersion = false ∧
    id ≠ site.versions

/-- No document has this name under this parent. -/
def IsFree (site : Site) (place : String × String) : Prop :=
  ∀ id d, site.store.find? id = .ok (some d) → d.parent? = some place.1 → d.name? ≠ some place.2

theorem isFree_iff (hstored : site.store.shelf? = some shelf) {place : String × String} :
    site.IsFree place ↔ shelf.child? place.1 place.2 [] = none := by
  rw [Shelf.child?_eq_none_iff, IsFree]
  simp only [Store.find?_eq hstored, Except.ok.injEq]

/-- What is checked of the parent of a new child. -/
theorem Filed.isContainer_iff (h : Filed site shelf) {id : String} :
    site.IsContainer id ↔ ∃ d, shelf.get? id = some d ∧ site.requireContainer d = .ok () := by
  simp only [IsContainer, Store.find?_eq h.stored, Except.ok.injEq, requireContainer_eq_ok_iff]
  refine exists_congr fun d => and_congr_right fun hd => ?_
  rw [h.keyed id d hd, ne_eq, ne_eq, Option.some.injEq]

/-- A plan for a new child of a container fails only for the name. -/
theorem planAdd_eq (hstored : site.store.shelf? = some shelf) {a : Addition} {dp : Document}
    (hdp : shelf.get? a.parent = some dp) (hcontainer : site.requireContainer dp = .ok ()) :
    site.planAdd a.parent a.name a.type =
      if shelf.child? a.parent a.name [] = none then
        .ok ({ writes := [.create (a.child (site.ids.peek 0) dp), .mark (site.ids.peek 0)]
               drawn := 1 }, site.ids.peek 0)
      else .error a.conflict := by
  have hrequire : site.require a.parent = .ok dp := (require_eq_ok_iff hstored).2 hdp
  simp only [planAdd, requireFreeName, Store.hasChild_eq hstored, bind, Except.bind, hrequire,
    hcontainer, Except.mapError]
  cases shelf.child? a.parent a.name [] with
  | none => rfl
  | some d => rfl

namespace Coherent

variable {w : Workspace} {a : Addition} {dp : Document}

/-- **An addition under a container makes the child, or it is in conflict and changes nothing.** -/
theorem perform_addition (h : Coherent w.site shelf) (hlive : w.session.live = true)
    (hdp : shelf.get? a.parent = some dp) (hcontainer : w.site.requireContainer dp = .ok ()) :
    (shelf.child? a.parent a.name [] = none ∧ ∃ t session,
      t = Table.insert shelf (w.site.ids.peek 0) (a.child (w.site.ids.peek 0) dp) ∧
      w.perform a.call = (.ok (Workspace.made (a.child (w.site.ids.peek 0) dp)),
        ⟨w.site.settled 1 t, session⟩) ∧ Coherent (w.site.settled 1 t) t) ∨
      (shelf.child? a.parent a.name [] ≠ none ∧ w.perform a.call = (.error a.conflict, w)) := by
  have hplan : w.liveSite >>= (·.planAdd a.parent a.name a.type) =
      w.site.planAdd a.parent a.name a.type := by
    rw [Workspace.liveSite, if_pos hlive]
    rfl
  have hperform : w.perform a.call = Workspace.writing Workspace.made
      (w.produce (w.site.planAdd a.parent a.name a.type)) := by
    rw [← hplan]
    rfl
  rw [planAdd_eq h.stored hdp hcontainer] at hperform
  by_cases hfree : shelf.child? a.parent a.name [] = none
  · rw [if_pos hfree] at hperform
    obtain ⟨t, hwrites, ht⟩ := h.of_planAdd
      ((planAdd_eq h.stored hdp hcontainer).trans (if_pos hfree))
    have hshelf : t = Table.insert shelf (w.site.ids.peek 0) (a.child (w.site.ids.peek 0) dp) :=
      ((hwrites.rest_of_create (a.id?_child _ dp)).rest_of_mark).eq_of_nil
    have hnew : t.get? (w.site.ids.peek 0) = some (a.child (w.site.ids.peek 0) dp) := by
      rw [hshelf, Table.get?_insert, if_pos rfl]
    obtain ⟨session, hproduce⟩ := Workspace.exists_produce_eq hlive h.stored hwrites hnew
    refine .inl ⟨hfree, t, session, hshelf, ?_, ht⟩
    rw [hperform, hproduce]
    rfl
  · rw [if_neg hfree] at hperform
    exact .inr ⟨hfree, hperform⟩

end Coherent

end Site

end ContentRepository
