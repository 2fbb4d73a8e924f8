import ContentRepository.Proofs.Fulltext.Queueing
import ContentRepository.Proofs.Query.Lookups
import Mathlib.Data.List.Basic

/-!
# What an indexing job does to a store

A job is for some documents (`IndexJob.Concerns`). It puts its texts into the fields of these that
indexing owns, and takes note that they do not wait for it any more. Nothing else changes: fields
for indexed texts are none of those that say which documents a job is for, and none of those that
the text of a document comes from.

* **`TextKind.field_injective`**, **`TextKind.field_ne`** — what the fields for indexed texts are
  not.
* **`IndexJob.apply_eq`** — a job edits the documents that it is for, each on its own.
* **`IndexJob.effect_of_apply`** — what the store holds after a job, and after the same job again.
-/

namespace ContentRepository

/-! ## Fields -/

namespace TextKind

/-- The names of the fields for indexed texts begin with those of the two kinds. -/
theorem isIndexed_field (kind : TextKind) (index : String) :
    Document.isIndexed (kind.field index) = true := by
  unfold Document.isIndexed TextKind.field
  cases kind <;> dsimp only <;> split <;> simp [String.toList_append]

theorem field_ne {key : String} (hkey : Document.isIndexed key = false) (kind : TextKind)
    (index : String) : kind.field index ≠ key := by
  rintro rfl
  rw [isIndexed_field] at hkey
  cases hkey

/-- Each index has a field of its own. -/
theorem field_injective (kind : TextKind) : Function.Injective kind.field := by
  obtain ⟨base, hfield⟩ : ∃ base, ∀ index,
      kind.field index = if index = defaultIndex then base else base ++ "_" ++ index := by
    cases kind <;> exact ⟨_, fun _ => rfl⟩
  -- a name with an index is longer than the bare name
  have hlonger : ∀ index, base ++ "_" ++ index ≠ base := by
    intro index heq
    have hlength := congrArg String.length heq
    have hmark : "_".length = 1 := rfl
    simp only [String.length_append] at hlength
    omega
  intro first second heq
  rw [hfield, hfield] at heq
  by_cases hfirst : first = defaultIndex
  · by_cases hsecond : second = defaultIndex
    · rw [hfirst, hsecond]
    · rw [if_pos hfirst, if_neg hsecond] at heq
      exact absurd heq.symm (hlonger second)
  · by_cases hsecond : second = defaultIndex
    · rw [if_neg hfirst, if_pos hsecond] at heq
      exact absurd heq (hlonger first)
    · rw [if_neg hfirst, if_neg hsecond] at heq
      exact (String.append_right_inj _).1 heq

end TextKind

/-! ## Jobs -/

namespace IndexJob

variable {job : IndexJob} {d e : Document} {shelf : Shelf} {s : Store}

/-- The text that the job has for an index. Of several the last counts. -/
def textFor? (job : IndexJob) (index : String) : Option String :=
  (job.texts.reverse.find? fun text => text.1 == index).map (·.2)

/-- The job is for this document: no proxy, and the one that the job names or one that waits for
it. -/
def Concerns (job : IndexJob) (d : Document) : Prop :=
  d.isProxy = false ∧
    match job.target with
    | .document id => d.id? = some id
    | .waiting id => d.string? Field.textJob = some id

instance (job : IndexJob) (d : Document) : Decidable (job.Concerns d) := by
  unfold Concerns
  cases job.target <;> exact instDecidableAnd

/-- The document has the texts of the job, does not wait for it, and is otherwise as before. -/
structure Filled (job : IndexJob) (d e : Document) : Prop where
  texts : ∀ index text, job.textFor? index = some text →
    e.get? (job.kind.field index) = some (.string text)
  freed : ∀ id, job.target = .waiting id → e.get? Field.textJob = none
  others : ∀ key, (∀ index, key = job.kind.field index → job.textFor? index = none) →
    (∀ id, job.target = .waiting id → key ≠ Field.textJob) → e.get? key = d.get? key

/-- What the job makes of a document that it is for. -/
def outcome (job : IndexJob) (d : Document) : Document :=
  match job.target with
  | .document _ => job.fill d
  | .waiting _ => (job.fill d).unset Field.textJob

/-- What the job makes of any document. -/
def effect (job : IndexJob) (d : Document) : Document :=
  if job.Concerns d then job.outcome d else d

/-- A field for an indexed text has the text of the job for its index, if there is one. -/
theorem get?_fill (job : IndexJob) (d : Document) (index : String) :
    (job.fill d).get? (job.kind.field index) =
      ((job.textFor? index).map .string).or (d.get? (job.kind.field index)) := by
  have hsame : ((fun field : String × Value => field.1 == job.kind.field index) ∘
      fun text : String × String => (job.kind.field text.1, Value.string text.2)) =
        fun text => text.1 == index := by
    funext text
    rw [Bool.eq_iff_iff]
    simp [job.kind.field_injective.eq_iff]
  rw [fill, Document.get?_setAll, ← List.map_reverse, List.find?_map, hsame, textFor?,
    Option.map_map, Option.map_map]
  rfl

/-- A field stays as it is if it is not for an index that the job has a text for. -/
theorem get?_fill_of_ne {key : String}
    (hkey : ∀ index, key = job.kind.field index → job.textFor? index = none) (d : Document) :
    (job.fill d).get? key = d.get? key := by
  by_cases hfield : ∃ index, key = job.kind.field index
  · obtain ⟨index, rfl⟩ := hfield
    rw [get?_fill, hkey index rfl]
    rfl
  · rw [fill, Document.get?_setAll_of_notMem]
    intro hmem
    obtain ⟨field, hfield', rfl⟩ := List.mem_map.1 hmem
    obtain ⟨text, -, rfl⟩ := List.mem_map.1 hfield'
    exact hfield ⟨text.1, rfl⟩

theorem filled_outcome (job : IndexJob) (d : Document) : job.Filled d (job.outcome d) := by
  unfold outcome
  split
  · next id htarget =>
    refine ⟨fun index text htext => ?_, fun id' hwaiting => ?_, fun key hkey _ => ?_⟩
    · rw [get?_fill, htext]
      rfl
    · cases htarget.symm.trans hwaiting
    · exact get?_fill_of_ne hkey d
  · next id htarget =>
    refine ⟨fun index text htext => ?_, fun _ _ => ?_, fun key hkey hfreed => ?_⟩
    · rw [Document.get?_unset, if_neg (TextKind.field_ne (by decide) job.kind index), get?_fill,
        htext]
      rfl
    · rw [Document.get?_unset, if_pos rfl]
    · rw [Document.get?_unset, if_neg (hfreed id htarget)]
      exact get?_fill_of_ne hkey d

namespace Filled

/-- Filling in the same texts again changes nothing. -/
theorem eq_of_filled {f : Document} (hfirst : job.Filled d e) (hagain : job.Filled e f) :
    f = e := by
  refine Table.ext fun key => ?_
  by_cases htext : ∃ index text, key = job.kind.field index ∧ job.textFor? index = some text
  · obtain ⟨index, text, rfl, htext⟩ := htext
    exact (hagain.texts index text htext).trans (hfirst.texts index text htext).symm
  · by_cases hfreed : key = Field.textJob ∧ ∃ id, job.target = .waiting id
    · obtain ⟨rfl, id, hwaiting⟩ := hfreed
      exact (hagain.freed id hwaiting).trans (hfirst.freed id hwaiting).symm
    · refine hagain.others key (fun index hkey => ?_) fun id hwaiting hkey =>
        hfreed ⟨hkey, id, hwaiting⟩
      exact Option.eq_none_iff_forall_ne_some.2 fun text h => htext ⟨index, text, hkey, h⟩

/-- Fields that have nothing to do with indexing stay as they are. -/
theorem get?_of_plain (h : job.Filled d e) {key : String}
    (hplain : Document.isIndexed key = false) (hne : key ≠ Field.textJob) :
    e.get? key = d.get? key :=
  h.others key (fun index hkey => absurd hkey.symm (TextKind.field_ne hplain job.kind index))
    fun _ _ => hne

theorem id? (h : job.Filled d e) : e.id? = d.id? := by
  rw [Document.id?, Document.id?, Document.string?, Document.string?,
    h.get?_of_plain (by decide) (by decide)]

/-- **Indexing does not change the text that is indexed.** -/
theorem simpleText (h : job.Filled d e) : e.simpleText = d.simpleText := by
  refine Document.simpleText_congr fun key hcontent => ?_
  simp only [Document.isContent, Bool.and_eq_true, Bool.not_eq_true'] at hcontent
  refine h.get?_of_plain hcontent.2 ?_
  rintro rfl
  exact Bool.false_ne_true (hcontent.1.symm.trans rfl)

end Filled

/-! ## Carrying out -/

theorem effect_of_not_concerns (h : ¬ job.Concerns d) : job.effect d = d := if_neg h

/-- A job changes nothing that it has changed before. -/
theorem effect_effect (job : IndexJob) (d : Document) :
    job.effect (job.effect d) = job.effect d := by
  by_cases hfirst : job.Concerns d
  · have houtcome : job.effect d = job.outcome d := if_pos hfirst
    rw [houtcome]
    by_cases hagain : job.Concerns (job.outcome d)
    · rw [effect, if_pos hagain]
      exact (job.filled_outcome d).eq_of_filled (job.filled_outcome _)
    · exact effect_of_not_concerns hagain
  · rw [effect_of_not_concerns hfirst, effect_of_not_concerns hfirst]

/-- No document waits for a job that was carried out. -/
theorem not_concerns_effect {id : String} (hwaiting : job.target = .waiting id) (d : Document) :
    ¬ job.Concerns (job.effect d) := by
  by_cases h : job.Concerns d
  · rw [effect, if_pos h]
    rintro ⟨-, hwaits⟩
    rw [hwaiting] at hwaits
    dsimp only at hwaits
    rw [Document.string?_eq_some_iff, (job.filled_outcome d).freed id hwaiting] at hwaits
    cases hwaits
  · rwa [effect_of_not_concerns h]

/-- The documents of a shelf that the job is for. -/
def concerned (job : IndexJob) (shelf : Shelf) : Shelf :=
  Table.filter shelf fun _ d => job.Concerns d

theorem get?_concerned_eq_some_iff {id : String} :
    (job.concerned shelf).get? id = some d ↔ shelf.get? id = some d ∧ job.Concerns d := by
  rw [concerned, Table.get?_filter, Option.filter_eq_some_iff, decide_eq_true_eq]

/-- A job that is for no document changes nothing. -/
theorem map_effect_of_none (hnone : ∀ id d, shelf.get? id = some d → ¬ job.Concerns d) :
    Table.map shelf job.effect = shelf ∧ job.concerned shelf = Table.empty := by
  constructor
  · refine Table.ext fun id => ?_
    rw [Table.get?_map]
    cases hd : shelf.get? id with
    | none => rfl
    | some d => rw [Option.map_some, effect_of_not_concerns (hnone id d hd)]
  · refine Table.ext fun id => ?_
    refine Option.eq_none_iff_forall_ne_some.2 fun d hd => ?_
    obtain ⟨hd, hconcerns⟩ := get?_concerned_eq_some_iff.1 hd
    exact hnone id d hd hconcerns

/-- A job that is for one document changes this one. -/
theorem map_effect_of_single {id : String} (hd : shelf.get? id = some d) (hconcerns : job.Concerns d)
    (hsingle : ∀ k e, shelf.get? k = some e → job.Concerns e → k = id) :
    Table.map shelf job.effect = Table.insert shelf id (job.outcome d) ∧
      job.concerned shelf = Table.insert Table.empty id d := by
  constructor
  · refine Table.ext fun k => ?_
    rw [Table.get?_map, Table.get?_insert]
    split
    · -- at the id itself the job has its effect
      next heq => rw [heq, hd, Option.map_some, effect, if_pos hconcerns]
    · next hne =>
      -- everywhere else there is nothing that the job is for
      cases he : shelf.get? k with
      | none => rfl
      | some e =>
        rw [Option.map_some, effect_of_not_concerns fun h => hne (hsingle k e he h)]
  · refine Table.ext fun k => Option.ext fun e => ?_
    rw [get?_concerned_eq_some_iff, Table.get?_insert_eq_some_iff]
    constructor
    · -- among the documents concerned there is just this one
      rintro ⟨he, h⟩
      obtain rfl := hsingle k e he h
      exact .inl ⟨rfl, Option.some.inj (he.symm.trans hd)⟩
    · rintro (⟨rfl, rfl⟩ | ⟨-, habsent⟩)
      · exact ⟨hd, hconcerns⟩
      · cases habsent

/-- The documents that wait for a job are listed by their ids. -/
theorem waitingIds_eq {id : String} (hwaiting : job.target = .waiting id)
    (hshelf : s.shelf? = some shelf) (hkeyed : shelf.Keyed) :
    waitingIds s id = .ok (job.concerned shelf).keys := by
  rw [waitingIds, Store.having_eq hshelf]
  refine congrArg Except.ok ?_
  have hall : (Table.filter shelf fun id _ => !([] : List String).contains id) = shelf := by
    refine Table.ext fun k => ?_
    rw [Table.get?_filter]
    cases shelf.get? k <;> rfl
  rw [Shelf.having, Shelf.visible, hall, Table.values, List.filterMap_filter, List.filterMap_map]
  show _ = (shelf.entries.filter fun entry => job.Concerns entry.2).map (·.1)
  rw [← List.filterMap_eq_map, List.filterMap_filter]
  refine List.filterMap_congr fun entry hentry => ?_
  obtain ⟨k, d⟩ := entry
  have hid : d.id? = some k := hkeyed k d (Table.mem_entries.1 hentry)
  have hholds : d.holds Field.textJob (.string id) = true ↔ d.string? Field.textJob = some id := by
    rw [Document.string?_eq_some_iff]
    simp [Document.holds, Option.any_eq_true, Value.equals_string_iff]
  have hconcerns : job.Concerns d ↔ d.isProxy = false ∧ d.string? Field.textJob = some id := by
    rw [Concerns, hwaiting]
  cases hproxy : d.isProxy <;> simp [hconcerns, hholds, hproxy, hid]

/-- Documents that take the edit are edited one after another, each on its own. -/
theorem exists_editEach_eq {change : Document → Option Document} {edited : Document → Document}
    {ids : List String} (hnodup : ids.Nodup) (hshelf : s.shelf? = some shelf)
    (hthere : ∀ id ∈ ids, ∃ d, shelf.get? id = some d ∧ change d = some (edited d) ∧
      (edited d).id? = some id) :
    ∃ t, editEach unobstructed change ids s = (ids.length, s.withShelf t) ∧
      ∀ k, t.get? k = if k ∈ ids then (shelf.get? k).map edited else shelf.get? k := by
  induction ids generalizing s shelf with
  | nil => exact ⟨shelf, by rw [editEach, Store.withShelf_self hshelf]; rfl, fun k => by simp⟩
  | cons id rest ih =>
    obtain ⟨hid, hnodup⟩ := List.nodup_cons.1 hnodup
    obtain ⟨d, hd, hchange, hkept⟩ := hthere id List.mem_cons_self
    have hset : (edited d).set Field.id (.string id) = edited d :=
      Document.set_of_get? (Document.string?_eq_some_iff.1 hkept)
    have hedit : editUnless unobstructed s id change =
        .ok (true, s.withShelf (Table.insert shelf id (edited d))) := by
      show s.edit id change = _
      rw [Store.edit_eq hshelf, hd]
      simp only [hchange, hset]
    -- the other documents are as before the first edit
    have hrest : ∀ k ∈ rest, ∃ e, Table.get? (Table.insert shelf id (edited d)) k = some e ∧
        change e = some (edited e) ∧ (edited e).id? = some k := by
      intro k hk
      obtain ⟨e, he, h⟩ := hthere k (List.mem_cons_of_mem _ hk)
      refine ⟨e, Table.get?_insert_eq_some_iff.2 (.inr ⟨?_, he⟩), h⟩
      rintro rfl
      exact hid hk
    obtain ⟨t, ht, hget⟩ := ih (s := s.withShelf (Table.insert shelf id (edited d))) hnodup rfl hrest
    refine ⟨t, by rw [editEach, hedit]; simp only [ht]; rfl, fun k => ?_⟩
    rw [hget, Table.get?_insert]
    by_cases hk : k = id
    · simp [hk, hid, hd]
    · simp [hk]

/-- **A job edits the documents that it is for, each on its own.** -/
theorem apply_eq (job : IndexJob) (hshelf : s.shelf? = some shelf) (hkeyed : shelf.Keyed) :
    job.apply unobstructed s =
      (.ok (job.concerned shelf).size, s.withShelf (Table.map shelf job.effect)) := by
  cases htarget : job.target with
  | document id =>
    have hconcerns : ∀ d, job.Concerns d ↔ d.isProxy = false ∧ d.id? = some id := by
      intro d
      rw [Concerns, htarget]
    have hsingle : ∀ k e, shelf.get? k = some e → job.Concerns e → k = id := fun k e he h =>
      Option.some.inj ((hkeyed k e he).symm.trans ((hconcerns e).1 h).2)
    have hedit := Store.edit_eq hshelf id job.fillOne
    by_cases hconcerned : ∃ d, shelf.get? id = some d ∧ d.isProxy = false
    · obtain ⟨d, hd, hproxy⟩ := hconcerned
      have hoccurs : job.Concerns d := (hconcerns d).2 ⟨hproxy, hkeyed id d hd⟩
      obtain ⟨hmap, hcount⟩ := map_effect_of_single hd hoccurs hsingle
      have houtcome : job.outcome d = job.fill d := by rw [outcome, htarget]
      have hfill : job.fillOne d = some (job.outcome d) := by simp [fillOne, hproxy, houtcome]
      have hset : (job.outcome d).set Field.id (.string id) = job.outcome d := by
        refine Document.set_of_get? (Document.string?_eq_some_iff.1 ?_)
        exact (job.filled_outcome d).id?.trans (hkeyed id d hd)
      simp only [hd, hfill, hset] at hedit
      rw [apply_of_edit htarget hedit, hmap, hcount]
      rfl
    · -- the document is absent or a proxy
      have hnone : ∀ k e, shelf.get? k = some e → ¬ job.Concerns e := by
        intro k e he h
        obtain rfl := hsingle k e he h
        exact hconcerned ⟨e, he, h.1⟩
      obtain ⟨hmap, hcount⟩ := map_effect_of_none hnone
      rw [hmap, hcount, Store.withShelf_self hshelf]
      cases hd : shelf.get? id with
      | none =>
        rw [hd] at hedit
        exact apply_of_absent htarget hedit
      | some d =>
        have hproxy : d.isProxy = true := by
          cases hproxy : d.isProxy with
          | true => rfl
          | false => exact absurd ⟨d, hd, hproxy⟩ hconcerned
        have hfill : job.fillOne d = none := by simp [fillOne, hproxy]
        simp only [hd, hfill] at hedit
        exact apply_of_edit htarget hedit
  | waiting id =>
    have hthere : ∀ k ∈ (job.concerned shelf).keys, ∃ d, shelf.get? k = some d ∧
        job.fillWaiting id d = some (job.outcome d) ∧ (job.outcome d).id? = some k := by
      intro k hk
      obtain ⟨d, hd⟩ := Option.isSome_iff_exists.1 (Table.mem_keys.1 hk)
      obtain ⟨hd, hproxy, hwaits⟩ := get?_concerned_eq_some_iff.1 hd
      rw [htarget] at hwaits
      have hholds : d.holds Field.textJob (.string id) = true := by
        simp [Document.holds, Document.string?_eq_some_iff.1 hwaits, Value.equals_string_iff]
      have houtcome : job.outcome d = (job.fill d).unset Field.textJob := by rw [outcome, htarget]
      refine ⟨d, hd, by simp [fillWaiting, hproxy, hholds, houtcome], ?_⟩
      exact (job.filled_outcome d).id?.trans (hkeyed k d hd)
    obtain ⟨t, ht, hget⟩ := exists_editEach_eq (Table.nodup_keys _) hshelf hthere
    have hmap : t = Table.map shelf job.effect := by
      refine Table.ext fun k => ?_
      rw [hget, Table.get?_map]
      split
      · next hk =>
        obtain ⟨d, hd⟩ := Option.isSome_iff_exists.1 (Table.mem_keys.1 hk)
        obtain ⟨hd, hconcerns⟩ := get?_concerned_eq_some_iff.1 hd
        rw [hd, Option.map_some, Option.map_some, effect, if_pos hconcerns]
      · next hk =>
        cases hd : shelf.get? k with
        | none => rfl
        | some d =>
          rw [Option.map_some, effect_of_not_concerns]
          intro hconcerns
          refine hk (Table.mem_keys.2 (Option.isSome_iff_exists.2 ⟨d, ?_⟩))
          exact get?_concerned_eq_some_iff.2 ⟨hd, hconcerns⟩
    rw [apply, htarget]
    simp only [waitingIds_eq htarget hshelf hkeyed, ht, hmap]
    rw [Table.keys, List.length_map]
    rfl

/-- A job that was carried out changes nothing when it is carried out again. -/
theorem map_effect_effect (job : IndexJob) (shelf : Shelf) :
    Table.map (Table.map shelf job.effect) job.effect = Table.map shelf job.effect := by
  refine Table.ext fun id => ?_
  rw [Table.get?_map, Table.get?_map, Option.map_map]
  cases shelf.get? id with
  | none => rfl
  | some d => exact congrArg some (job.effect_effect d)

theorem keyed_map_effect (job : IndexJob) (hkeyed : shelf.Keyed) :
    Shelf.Keyed (Table.map shelf job.effect) := by
  intro id e he
  rw [Table.get?_map] at he
  obtain ⟨d, hd, rfl⟩ := Option.map_eq_some_iff.1 he
  unfold effect
  split
  · exact (job.filled_outcome d).id?.trans (hkeyed id d hd)
  · exact hkeyed id d hd

/-- **What a store holds after a job.** Let any calls but the one to shut it down be made of a new
store. Then a job can be carried out, and answers the number of the documents that it is for. These
have its texts, and do not wait for it any more; all other fields and all other documents are as
before, and every document has the text for indexing that it had. The same job changes nothing when
it is carried out again, and no document waits for it then. -/
theorem effect_of_apply (provision : Provision) {calls : List Store.Call}
    (hcalls : .shutDown ∉ calls) (job : IndexJob) :
    let s := (Store.empty provision).performAll calls
    ∃ shelf after : Shelf, s.shelf? = some shelf ∧ shelf.Keyed ∧
      job.apply unobstructed s = (.ok (job.concerned shelf).size, s.withShelf after) ∧
      (∀ id, shelf.get? id = none → after.get? id = none) ∧
      (∀ id d, shelf.get? id = some d → ∃ e, after.get? id = some e ∧
        (job.Concerns d → job.Filled d e) ∧ (¬ job.Concerns d → e = d) ∧
        e.simpleText = d.simpleText) ∧
      ∃ count, job.apply unobstructed (s.withShelf after) = (.ok count, s.withShelf after) ∧
        ∀ id, job.target = .waiting id → count = 0 := by
  intro s
  have hempty : (Store.empty provision).shelf? = some Table.empty := rfl
  obtain ⟨shelf, hshelf, hkeyed⟩ :=
    Store.exists_keyed_performAll hcalls hempty fun _ _ h => nomatch h
  let after : Shelf := Table.map shelf job.effect
  -- the second time it finds what it has made the first time
  have hagain : job.apply unobstructed (s.withShelf after) =
      (.ok (job.concerned after).size, s.withShelf after) := by
    have happly := apply_eq job (s := s.withShelf after) rfl (keyed_map_effect job hkeyed)
    rwa [show Table.map after job.effect = after from map_effect_effect job shelf] at happly
  refine ⟨shelf, after, hshelf, hkeyed, apply_eq job hshelf hkeyed, fun id hnone => ?_,
    fun id d hd => ⟨job.effect d, ?_, fun h => ?_, effect_of_not_concerns, ?_⟩, _, hagain, ?_⟩
  · rw [Table.get?_map, hnone]
    rfl
  · rw [Table.get?_map, hd]
    rfl
  · rw [effect, if_pos h]
    exact job.filled_outcome d
  · by_cases h : job.Concerns d
    · rw [effect, if_pos h]
      exact (job.filled_outcome d).simpleText
    · rw [effect_of_not_concerns h]
  · -- a job for those that wait finds nobody waiting the second time
    intro id hwaiting
    have hnone : ∀ k e, after.get? k = some e → ¬ job.Concerns e := by
      intro k e he
      rw [Table.get?_map] at he
      obtain ⟨d, -, rfl⟩ := Option.map_eq_some_iff.1 he
      exact not_concerns_effect hwaiting d
    rw [(map_effect_of_none hnone).2]
    rfl

/-- A document that waits for a job. -/
def waiting (id : String) : Document :=
  (Document.withId id).set Field.textJob (.string "j")

/-- A proxy that waits for the same job. -/
def waitingProxy : Document := (waiting "p").set Field.isProxy (.boolean true)

/-- The job that they wait for, with two texts for one index. -/
def shared : IndexJob := ⟨"test", .waiting "j", .binary, [("title", "x"), ("title", "y")]⟩

/-- The document gets the later of the two texts, and the proxy gets none. -/
theorem effect_of_shared :
    let calls : List Store.Call := [.create (waiting "a"), .create waitingProxy]
    let s := (Store.empty .own).performAll calls
    .shutDown ∉ calls ∧ ∃ after : Shelf, ∃ e,
      shared.apply unobstructed s = (.ok 1, s.withShelf after) ∧ after.get? "a" = some e ∧
      e.get? "fulltextBinary_title" = some (.string "y") ∧ e.get? Field.textJob = none ∧
      after.get? "p" = some waitingProxy := by
  have hcalls : Store.Call.shutDown ∉ [.create (waiting "a"), .create waitingProxy] := by simp
  obtain ⟨shelf, after, hshelf, -, happly, -, hsome, -⟩ := effect_of_apply .own hcalls shared
  have hget : ∀ id, ((Store.empty .own).performAll
      [.create (waiting "a"), .create waitingProxy]).shelf?.bind (·.get? id) = shelf.get? id := by
    intro id
    rw [hshelf]
    rfl
  have ha : shelf.get? "a" = some (waiting "a") := (hget "a").symm.trans rfl
  have hp : shelf.get? "p" = some waitingProxy := (hget "p").symm.trans rfl
  obtain ⟨e, he, hfilled, -, -⟩ := hsome "a" _ ha
  obtain ⟨f, hf, -, hsame, -⟩ := hsome "p" _ hp
  have hconcerns : shared.Concerns (waiting "a") := ⟨rfl, rfl⟩
  have hspared : ¬ shared.Concerns waitingProxy := fun h => Bool.false_ne_true h.1.symm
  have hcount : (shared.apply unobstructed ((Store.empty .own).performAll
      [.create (waiting "a"), .create waitingProxy])).1 = .ok 1 := rfl
  rw [happly] at hcount
  refine ⟨hcalls, after, e, ?_, he, (hfilled hconcerns).texts "title" "y" rfl,
    (hfilled hconcerns).freed "j" rfl, by rw [hf, hsame hspared]⟩
  exact happly.trans (Prod.ext hcount rfl)

end IndexJob

end ContentRepository
