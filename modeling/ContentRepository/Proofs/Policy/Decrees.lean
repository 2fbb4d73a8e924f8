import ContentRepository.Proofs.Policy.Merging
import ContentRepository.Proofs.Versions.Snapshots

/-!
# Where the policy of a document comes from

Besides the call that puts a policy on a document, no event touches the policies of the documents
that are there. A new document has no policy, or that of the document it was made from. So the
policy of a document is the one that it was created with, revised by one call after another.

* **`Decree`** and **`Site.decrees`** — the calls that put a policy on a document.
* **`Document.Holds`** — how a document holds a policy.
* **`Site.Event.Bestows`** — the policies of new documents.
* **`Site.Governed.next`** — what an event does to policies.
* **`Site.Tenure`** and **`Site.Tenure.holds`** — the decrees on a document since it was created,
  and what its policy is then.
* **`Site.policy_of_tenure`** — the laws of merging, and the policies of all documents.
-/

namespace ContentRepository

/-- A policy that was put on a document. -/
structure Decree where
  subject : String
  policy : Policy
  /-- Whether it took the place of the policy that was there, or was merged into it. -/
  overwrite : Bool

/-- What comes of a policy by a decree. -/
def Decree.revise (p : Policy) (decree : Decree) : Policy :=
  Site.revisedPolicy p decree.policy decree.overwrite

/-- The decree that an event is: the call that puts a policy on a document, if it succeeds. -/
def Site.decree? (site : Site) : Event → Option Decree
  | .call session (.setPolicy id policy overwrite) =>
    (Workspace.setPolicy ⟨site, session⟩ id policy overwrite).1.toOption.map fun _ =>
      ⟨id, policy, overwrite⟩
  | _ => none

/-- The same for one document, as a list of at most one. -/
def Site.decrees (site : Site) (id : String) (event : Event) : List Decree :=
  (site.decree? event).toList.filter (·.subject = id)

/-! ## Documents and their policies -/

namespace Document

/-- The document holds the policy: in its field or, if the policy is empty, by having no such
field. -/
structure Holds (d : Document) (p : Policy) : Prop where
  distinct : p.Distinct
  stored : d.get? Field.policy = if p.isEmpty then none else some p.toValue

variable {d e : Document} {p : Policy}

theorem Holds.policy_eq (h : d.Holds p) : d.policy = .ok p := by
  have hread : Policy.ofValue? p.toValue = some p := (Policy.ofValue?_toValue_iff p).2 h.distinct
  rw [policy, h.stored]
  by_cases hempty : p.isEmpty = true
  · obtain ⟨lists⟩ := p
    obtain rfl := List.isEmpty_iff.1 hempty
    rfl
  · rw [if_neg hempty]
    simp only [hread, Option.elim]

theorem Holds.congr (h : d.Holds p) (hde : AgreesOn [Field.policy] d e) : e.Holds p :=
  ⟨h.distinct, (hde _ (List.mem_singleton_self _)).trans h.stored⟩

theorem holds_empty (hnone : d.get? Field.policy = none) : d.Holds .empty :=
  ⟨Policy.distinct_empty, hnone⟩

theorem holds_withPolicy (hp : p.Distinct) (d : Document) : (d.withPolicy p).Holds p := by
  refine ⟨hp, ?_⟩
  rw [withPolicy]
  split
  · rw [get?_unset, if_pos rfl]
  · rw [get?_set, if_pos rfl]

/-- Putting a policy on a document changes nothing else. -/
theorem agreesUnless_withPolicy (d : Document) (p : Policy) :
    AgreesUnless (· = Field.policy) d (d.withPolicy p) := by
  rw [withPolicy]
  split
  · exact agreesUnless_unset d _
  · exact agreesUnless_set d _ _

end Document

namespace Site

theorem distinct_revisedPolicy {p policy : Policy} (hp : p.Distinct) (hpolicy : policy.Distinct)
    (overwrite : Bool) : (revisedPolicy p policy overwrite).Distinct := by
  cases overwrite with
  | true => exact hpolicy
  | false => exact Policy.distinct_merge hp policy

/-- The policies that are put on documents have lists of distinct names, as those that are built
have. -/
def Event.Orderly : Event → Prop
  | .call _ (.setPolicy _ policy _) => policy.Distinct
  | _ => True

/-- What policy a new document has. -/
inductive Event.Bestows (event : Event) (shelf : Shelf) (e : Document) : Prop where
  /-- A child that is added has none. -/
  | child {session : Session} {parent name type : String}
      (hevent : event = .call session (.addChild parent name type))
      (hnone : e.get? Field.policy = none)
  /-- Nor has a proxy. -/
  | proxy {session : Session} {target parent name : String}
      (hevent : event = .call session (.addProxy target parent name))
      (hnone : e.get? Field.policy = none)
  /-- A copy has that of the document it is a copy of. -/
  | copy {session : Session} {id dest k : String} {name? : Option String} {c : Document}
      (hevent : event = .call session (.copy id dest name?)) (hc : shelf.get? k = some c)
      (hcopied : k = id ∨ id ∈ c.ancestors) (hsame : Document.AgreesOn [Field.policy] c e)
  /-- A version has that of the document that is checked in. -/
  | version {session : Session} {id : String} {increment : Increment} {d : Document}
      (hevent : event = .call session (.checkIn id increment)) (hd : shelf.get? id = some d)
      (hsame : Document.AgreesOn [Field.policy] d e)

/-! ## Events that decree nothing -/

/-- **An event that puts no policy on a document leaves the policies that are there, and gives a new
document that of the document it is made from, or none.** -/
theorem Event.Derives.policy_cases {event : Event} {site : Site} {shelf : Shelf} {id : String}
    {e : Document} (h : event.Derives site shelf id e)
    (hevent : ∀ session policy overwrite,
      event ≠ .call session (.setPolicy id policy overwrite)) :
    (∃ d, shelf.get? id = some d ∧ Document.AgreesOn [Field.policy] d e) ∨
      (¬ site.ids.Drew id ∧ event.Bestows shelf e) := by
  cases h with
  | same he => exact .inl ⟨e, he, .refl _ e⟩
  | indexed hd hagree =>
    -- texts, links, places and check-ins leave the field for the policy alone
    exact .inl ⟨_, hd, hagree.agreesOn (Field.not_ofIndexing (by decide))⟩
  | relinked hd hagree | placed hd _ hagree | checkedIn _ hd _ hagree | checkedOut _ hd _ hagree =>
    exact .inl ⟨_, hd, hagree.agreesOn (by decide)⟩
  | content hd _ hagree => exact .inl ⟨_, hd, hagree.mono (by decide)⟩
  | policy hdecree => exact absurd hdecree (hevent _ _ _)
  -- new documents have no policy, but for copies and versions, which have that of their original
  | child hnew hchild hblank => exact .inr ⟨hnew, .child hchild (hblank _ (by decide))⟩
  | proxy hnew hproxy hblank => exact .inr ⟨hnew, .proxy hproxy (hblank _ (by decide))⟩
  | copy hnew hcopy hc hcopied _ hagree _ =>
    exact .inr ⟨hnew, .copy hcopy hc hcopied (hagree.agreesOn (by decide))⟩
  | version hnew hversion hd he =>
    subst he
    exact .inr ⟨hnew, .version hversion hd
      ((agreesUnless_nextVersion _ _ _ _ _).agreesOn (by decide))⟩

/-! ## The call that puts a policy on a document -/

/-- **A policy is refused, or it is put on the document, and nothing else changes.** -/
theorem Coherent.setPolicy_cases {w : Workspace} {shelf : Shelf} (h : Coherent w.site shelf)
    (id : String) (policy : Policy) (overwrite : Bool) :
    (∃ e, w.setPolicy id policy overwrite = (.error e, w)) ∨
      ∃ d p session, shelf.get? id = some d ∧ (overwrite = false → d.policy = .ok p) ∧
        w.setPolicy id policy overwrite = (.ok (), ⟨w.site.settled 0 (Table.insert shelf id
          (d.withPolicy (revisedPolicy p policy overwrite))), session⟩) ∧
        Coherent (w.site.settled 0 (Table.insert shelf id
          (d.withPolicy (revisedPolicy p policy overwrite))))
          (Table.insert shelf id (d.withPolicy (revisedPolicy p policy overwrite))) := by
  rw [Workspace.setPolicy]
  cases hplan : w.liveSite >>= (·.planPolicy id policy overwrite) with
  | error e => exact .inl ⟨e, rfl⟩
  | ok plan =>
    obtain ⟨-, hplan⟩ := Workspace.of_liveSite_bind hplan
    obtain ⟨t, hwrites, ht⟩ := h.of_planPolicy hplan
    obtain ⟨d, p, hd, hpolicy, rfl⟩ := planPolicy_revises h.stored hplan
    have hshelf : t = Table.insert shelf id
        (d.withPolicy (revisedPolicy p policy overwrite)) := by
      have hsame : Document.AgreesOn [Field.id] d
          (d.withPolicy (revisedPolicy p policy overwrite)) :=
        (Document.agreesUnless_withPolicy d _).agreesOn (by decide)
      have hid := (hsame.string? (by decide)).trans (h.keyed _ _ hd)
      exact (hwrites.rest_of_update hid).eq_of_nil
    subst hshelf
    obtain ⟨session, hexecute⟩ := Workspace.execute_of_writes hwrites h.stored
    exact .inr ⟨d, p, session, hd, hpolicy, hexecute, ht⟩

/-! ## One event -/

section Decrees

variable {site : Site} {event : Event} {id : String} {session : Session} {policy : Policy}
  {overwrite : Bool}

theorem decrees_eq_nil (hevent : ∀ session policy overwrite,
    event ≠ .call session (.setPolicy id policy overwrite)) : site.decrees id event = [] := by
  rw [decrees, List.filter_eq_nil_iff]
  intro decree hdecree hsubject
  rw [Option.mem_toList] at hdecree
  cases event with
  | index => cases hdecree
  | call session call =>
    cases call with
    | setPolicy k policy overwrite =>
      obtain ⟨-, -, rfl⟩ := Option.map_eq_some_iff.1 hdecree
      exact hevent session policy overwrite (by rw [← of_decide_eq_true hsubject])
    | _ => cases hdecree

theorem decrees_of_refused {e : Error} {after : Workspace}
    (h : Workspace.setPolicy ⟨site, session⟩ id policy overwrite = (.error e, after)) :
    site.decrees id (.call session (.setPolicy id policy overwrite)) = [] := by
  rw [decrees, decree?, h]
  rfl

theorem decrees_of_done {after : Workspace}
    (h : Workspace.setPolicy ⟨site, session⟩ id policy overwrite = (.ok (), after)) :
    site.decrees id (.call session (.setPolicy id policy overwrite)) =
      [⟨id, policy, overwrite⟩] := by
  rw [decrees, decree?, h]
  exact List.filter_cons_of_pos (decide_eq_true rfl)

end Decrees

/-- A coherent site whose documents hold policies. -/
structure Governed (site : Site) (shelf : Shelf) : Prop where
  coherent : Coherent site shelf
  policies : ∀ id d, shelf.get? id = some d → ∃ p, d.Holds p

namespace Governed

variable {site : Site} {shelf : Shelf} {event : Event} {id : String} {e : Document}

theorem exists_holds_of_bestows (h : Governed site shelf) (hbestows : event.Bestows shelf e) :
    ∃ p, e.Holds p := by
  cases hbestows with
  | child _ hnone | proxy _ hnone => exact ⟨_, Document.holds_empty hnone⟩
  | copy _ hd _ hsame | version _ hd hsame =>
    obtain ⟨p, hp⟩ := h.policies _ _ hd
    exact ⟨p, hp.congr hsame⟩

/-- What the call makes of the policy of its document. -/
theorem holds_of_setPolicy (h : Governed site shelf) {session : Session} {policy : Policy}
    {overwrite : Bool} (hpolicy : policy.Distinct) {t : Shelf}
    (ht : (site.next (.call session (.setPolicy id policy overwrite))).store.shelf? = some t)
    (he : t.get? id = some e) :
    ∃ d, shelf.get? id = some d ∧ ∀ p, d.Holds p → e.Holds
      ((site.decrees id (.call session (.setPolicy id policy overwrite))).foldl
        Decree.revise p) := by
  have hnext : site.next (.call session (.setPolicy id policy overwrite)) =
      (Workspace.setPolicy ⟨site, session⟩ id policy overwrite).2.site := rfl
  obtain ⟨error, hrefused⟩ | ⟨d, p, after, hd, hp, hdone, hcoherent⟩ :=
    h.coherent.setPolicy_cases (w := ⟨site, session⟩) id policy overwrite
  · -- a call that is refused is no decree
    rw [hnext, hrefused] at ht
    cases h.coherent.stored.symm.trans ht
    rw [decrees_of_refused hrefused]
    exact ⟨e, he, fun p hp => hp⟩
  · rw [hnext, hdone] at ht
    cases hcoherent.stored.symm.trans ht
    rw [Table.get?_insert, if_pos rfl] at he
    cases he
    rw [decrees_of_done hdone]
    refine ⟨d, hd, fun q hq => ?_⟩
    -- the policy that was found is the one the document holds
    have hsame : revisedPolicy p policy overwrite = revisedPolicy q policy overwrite := by
      cases overwrite with
      | true => rfl
      | false => rw [Except.ok.inj ((hp rfl).symm.trans hq.policy_eq)]
    rw [hsame]
    exact Document.holds_withPolicy (distinct_revisedPolicy hq.distinct hpolicy overwrite) d

/-- **What an event does to policies.** A document that was there holds its policy as the event has
revised it, a new one has the policy of a new document, and all documents still hold policies. -/
theorem next (h : Governed site shelf) (hadmits : site.Admits event) (horderly : event.Orderly) :
    ∃ t, Governed (site.next event) t ∧ ∀ id e, t.get? id = some e →
      (∃ d, shelf.get? id = some d ∧
          ∀ p, d.Holds p → e.Holds ((site.decrees id event).foldl Decree.revise p)) ∨
        (¬ site.ids.Drew id ∧ event.Bestows shelf e) := by
  obtain ⟨t, ht, hderives⟩ := h.coherent.exists_derives hadmits
  have hrevises : ∀ id e, t.get? id = some e →
      (∃ d, shelf.get? id = some d ∧
          ∀ p, d.Holds p → e.Holds ((site.decrees id event).foldl Decree.revise p)) ∨
        (¬ site.ids.Drew id ∧ event.Bestows shelf e) := by
    intro id e he
    by_cases hevent : ∃ session policy overwrite,
        event = .call session (.setPolicy id policy overwrite)
    · -- the event is a decree on this very document
      obtain ⟨session, policy, overwrite, rfl⟩ := hevent
      exact .inl (h.holds_of_setPolicy horderly ht.stored he)
    · -- any other event leaves its policy alone, or makes the document
      have hother : ∀ session policy overwrite,
          event ≠ .call session (.setPolicy id policy overwrite) :=
        fun session policy overwrite heq => hevent ⟨session, policy, overwrite, heq⟩
      rw [decrees_eq_nil hother]
      refine ((hderives id e he).policy_cases hother).imp_left ?_
      rintro ⟨d, hd, hsame⟩
      exact ⟨d, hd, fun p hp => hp.congr hsame⟩
  -- in either case there is a policy that it holds
  refine ⟨t, ⟨ht, fun id e he => ?_⟩, hrevises⟩
  obtain ⟨d, hd, hholds⟩ | ⟨-, hbestows⟩ := hrevises id e he
  · obtain ⟨p, hp⟩ := h.policies id d hd
    exact ⟨_, hholds p hp⟩
  · exact h.exists_holds_of_bestows hbestows

end Governed

/-! ## Runs -/

/-- The second site comes about from the first by a run in which the policies that are put on
documents have lists of distinct names. -/
inductive ReachesOrderly (start : Site) : Site → Prop where
  | refl : ReachesOrderly start start
  | step {site : Site} (event : Event) (hrun : ReachesOrderly start site)
      (hadmits : site.Admits event) (horderly : event.Orderly) :
      ReachesOrderly start (site.next event)

/-- The site comes about by a run in which the document was created with the policy, and from then on
these were the decrees on it, the oldest first. It is there all the time. -/
inductive Tenure (start : Site) (id : String) : Site → Policy → List Decree → Prop where
  /-- It was there from the beginning. -/
  | found {d : Document} {p : Policy} (hd : start.store.find? id = .ok (some d))
      (hpolicy : d.policy = .ok p) : Tenure start id start p []
  /-- It was created. -/
  | created {site : Site} {event : Event} {d : Document} {p : Policy}
      (hrun : ReachesOrderly start site) (hadmits : site.Admits event) (horderly : event.Orderly)
      (hnew : site.store.find? id = .ok none)
      (hd : (site.next event).store.find? id = .ok (some d)) (hpolicy : d.policy = .ok p) :
      Tenure start id (site.next event) p []
  /-- It stayed. -/
  | kept {site : Site} {event : Event} {d : Document} {p : Policy} {decrees : List Decree}
      (htenure : Tenure start id site p decrees) (hadmits : site.Admits event)
      (horderly : event.Orderly) (hd : (site.next event).store.find? id = .ok (some d)) :
      Tenure start id (site.next event) p (decrees ++ site.decrees id event)

section Runs

variable {start site : Site} {shelf : Shelf} {id : String} {p : Policy} {decrees : List Decree}

/-- **A run leaves a site governed.** Induction on the run. -/
theorem ReachesOrderly.exists_governed (hrun : ReachesOrderly start site)
    (h : Governed start shelf) : ∃ t, Governed site t := by
  induction hrun with
  | refl => exact ⟨shelf, h⟩
  | step event _ hadmits horderly ih =>
    obtain ⟨t, ht⟩ := ih
    obtain ⟨u, hu, -⟩ := ht.next hadmits horderly
    exact ⟨u, hu⟩

theorem Tenure.reaches (htenure : Tenure start id site p decrees) : ReachesOrderly start site := by
  induction htenure with
  | found => exact .refl
  | created hrun hadmits horderly => exact .step _ hrun hadmits horderly
  | kept _ hadmits horderly _ ih => exact .step _ ih hadmits horderly

theorem Governed.find?_eq (h : Governed site shelf) (id : String) :
    site.store.find? id = .ok (shelf.get? id) :=
  Store.find?_eq h.coherent.stored id

theorem Governed.get?_of_find? (h : Governed site shelf) {found : Option Document}
    (hfind : site.store.find? id = .ok found) : shelf.get? id = found := by
  rw [h.find?_eq] at hfind
  exact Except.ok.inj hfind

/-- **Every document was created at some time.** Induction on the run. -/
theorem ReachesOrderly.exists_tenure (hrun : ReachesOrderly start site) (h : Governed start shelf)
    {d : Document} (hd : site.store.find? id = .ok (some d)) :
    ∃ p decrees, Tenure start id site p decrees := by
  induction hrun generalizing d with
  | refl =>
    obtain ⟨p, hp⟩ := h.policies id d (h.get?_of_find? hd)
    exact ⟨p, [], .found hd hp.policy_eq⟩
  | @step site event hrun hadmits horderly ih =>
    obtain ⟨t, ht⟩ := hrun.exists_governed h
    obtain ⟨u, hu, -⟩ := ht.next hadmits horderly
    cases hbefore : t.get? id with
    | some c =>
      obtain ⟨p, decrees, htenure⟩ := ih ((ht.find?_eq id).trans (congrArg Except.ok hbefore))
      exact ⟨p, _, .kept htenure hadmits horderly hd⟩
    | none =>
      obtain ⟨p, hp⟩ := hu.policies id d (hu.get?_of_find? hd)
      exact ⟨p, [], .created hrun hadmits horderly
        ((ht.find?_eq id).trans (congrArg Except.ok hbefore)) hd hp.policy_eq⟩

theorem Governed.holds_of_policy (h : Governed site shelf) {d : Document}
    (hd : shelf.get? id = some d) (hpolicy : d.policy = .ok p) : d.Holds p := by
  obtain ⟨q, hq⟩ := h.policies id d hd
  obtain rfl := Except.ok.inj (hq.policy_eq.symm.trans hpolicy)
  exact hq

/-- **The policy of a document is the one that it was created with, revised by the decrees since.**
Induction on what happened. -/
theorem Tenure.holds (htenure : Tenure start id site p decrees) (h : Governed start shelf) :
    ∃ t, Governed site t ∧ ∃ d, t.get? id = some d ∧ d.Holds (decrees.foldl Decree.revise p) := by
  induction htenure with
  | found hd hpolicy =>
    exact ⟨shelf, h, _, h.get?_of_find? hd, h.holds_of_policy (h.get?_of_find? hd) hpolicy⟩
  | created hrun hadmits horderly _ hd hpolicy =>
    obtain ⟨t, ht⟩ := (hrun.step _ hadmits horderly).exists_governed h
    exact ⟨t, ht, _, ht.get?_of_find? hd, ht.holds_of_policy (ht.get?_of_find? hd) hpolicy⟩
  | kept _ hadmits horderly hd ih =>
    obtain ⟨t, ht, c, hc, hholds⟩ := ih
    obtain ⟨u, hu, hrevises⟩ := ht.next hadmits horderly
    refine ⟨u, hu, _, hu.get?_of_find? hd, ?_⟩
    obtain ⟨c', hc', hrevised⟩ | ⟨hnew, -⟩ := hrevises id _ (hu.get?_of_find? hd)
    · cases hc.symm.trans hc'
      rw [List.foldl_append]
      exact hrevised _ hholds
    · -- a document that is there has an id that was drawn
      exact absurd (ht.coherent.drawn id c hc) hnew

end Runs

section Founded

variable {repository : String} {provision : Provision} {ids : IdSource} {clock : Instant}
  {queue : Option IndexQueue} {start : Site}

/-- The documents of a new repository hold policies: the root that of a new repository, the folder of
versions none. -/
theorem Governed.of_found (hids : ids.Unrepeated)
    (hfound : Site.found repository (Store.empty provision) ids clock queue = .ok start) :
    Governed start (Coherent.foundShelf (ids.peek 0) (ids.peek 1)) ∧
      ∀ id d, (Coherent.foundShelf (ids.peek 0) (ids.peek 1)).get? id = some d →
        d.Holds (if id = start.root then .rootDefault else .empty) := by
  have hcoherent := Coherent.of_found hids hfound
  have hroot : start.root = ids.peek 0 := by
    rw [Coherent.found_eq_ok hids] at hfound
    cases hfound
    rfl
  have hholds : ∀ id d, (Coherent.foundShelf (ids.peek 0) (ids.peek 1)).get? id = some d →
      d.Holds (if id = start.root then .rootDefault else .empty) := by
    intro id d hd
    rw [hroot]
    obtain ⟨rfl, rfl⟩ | ⟨-, rfl, rfl⟩ := Coherent.get?_foundShelf hd
    · have hne : ids.peek 1 ≠ ids.peek 0 := fun heq => by cases IdSource.peek_injective hids heq
      rw [if_neg hne]
      refine Document.holds_empty ?_
      simp +decide [versionsDocument, Document.withId, Document.setAll, Document.get?_set]
    · rw [if_pos rfl]
      refine ⟨Policy.Built.rootDefault.distinct, ?_⟩
      simp +decide [rootDocument, Document.withId, Document.setAll, Document.get?_set]
  exact ⟨⟨hcoherent, fun id d hd => ⟨_, hholds id d hd⟩⟩, hholds⟩

/-- **Merging policies is an idempotent monoid, and policies of documents are merged accordingly.**
For policies with lists of distinct names, the empty policy changes nothing when it is merged into
another or another into it, nor does a policy that is merged into itself; and merging is associative.
Whatever happens to a new repository, every document was created at some time, and its policy is the
one that it was created with, revised by one decree after another: each of them took its place or was
merged into it. An empty policy is stored by leaving out the field. A new repository has a policy on
its root alone. A document that is created later has none if it is a child or a proxy, that of the
original if it is a copy, and that of the document that is checked in if it is a version. -/
theorem policy_of_tenure (hids : ids.Unrepeated)
    (hfound : Site.found repository (Store.empty provision) ids clock queue = .ok start) :
    (∀ a b c : Policy, a.Distinct → b.Distinct → c.Distinct →
      Policy.empty.merge a = a ∧ a.merge .empty = a ∧ a.merge a = a ∧
        (a.merge b).merge c = a.merge (b.merge c)) ∧
    (∀ site id d, start.ReachesOrderly site → site.store.find? id = .ok (some d) →
      (∃ p decrees, Tenure start id site p decrees) ∧
        ∀ p decrees, Tenure start id site p decrees →
          d.get? Field.policy =
            (if (decrees.foldl Decree.revise p).isEmpty then none
              else some (decrees.foldl Decree.revise p).toValue) ∧
          ∀ session : Session, session.live = true →
            Workspace.policyOf ⟨site, session⟩ id = .ok (decrees.foldl Decree.revise p)) ∧
    (∀ id d, start.store.find? id = .ok (some d) →
      d.policy = .ok (if id = start.root then .rootDefault else .empty)) ∧
    ∀ site event id d, start.ReachesOrderly site → site.Admits event → event.Orderly →
      site.store.find? id = .ok none → (site.next event).store.find? id = .ok (some d) →
        ∃ shelf, site.store.shelf? = some shelf ∧ event.Bestows shelf d := by
  obtain ⟨h, hfirst⟩ := Governed.of_found hids hfound
  refine ⟨fun a b c ha hb hc => ⟨Policy.empty_merge ha, Policy.merge_empty a,
    Policy.merge_self ha, Policy.merge_assoc ha hb hc⟩, fun site id d hrun hd =>
      ⟨hrun.exists_tenure h hd, fun p decrees htenure => ?later⟩, fun id d hd => ?first,
    fun site event id d hrun hadmits horderly hnew hd => ?new⟩
  case later =>
    obtain ⟨t, ht, e, he, hholds⟩ := htenure.holds h
    cases he.symm.trans (ht.get?_of_find? hd)
    -- the tenure says which policy is held, and that is what is stored and answered
    refine ⟨hholds.stored, fun session hlive => ?_⟩
    rw [Workspace.policyOf, Workspace.require_eq_ok hlive ht.coherent.stored he]
    exact hholds.policy_eq
  case first => exact (hfirst id d (h.get?_of_find? hd)).policy_eq
  case new =>
    obtain ⟨t, ht⟩ := hrun.exists_governed h
    obtain ⟨u, hu, hrevises⟩ := ht.next hadmits horderly
    refine ⟨t, ht.coherent.stored, ?_⟩
    obtain ⟨c, hc, -⟩ | ⟨-, hbestows⟩ := hrevises id d (hu.get?_of_find? hd)
    · -- it was not there before, so it is not one of those that were
      cases hc.symm.trans (ht.get?_of_find? hnew)
    · exact hbestows

/-- For instance two policies are merged into that of a document that was added, the second with a
list of a name that the first one has, and then an empty one takes their place. -/
theorem policy_after_merges :
    ∃ start, Site.found "test" (Store.empty .own) .sequential ⟨0, 0, by decide⟩ none = .ok start ∧
      let alice : Policy := ⟨[⟨"local", [⟨"alice", "Read", true⟩]⟩, ⟨"inherited", []⟩]⟩
      let bob : Policy := ⟨[⟨"workflow", []⟩, ⟨"local", [⟨"bob", "Read", false⟩]⟩]⟩
      let added := start.next (.call (.fresh "s") (.addChild start.root "a" "File"))
      let merged := (added.next (.call (.fresh "s") (.setPolicy "UUID_2" alice false))).next
        (.call (.fresh "s") (.setPolicy "UUID_2" bob false))
      let cleared := merged.next (.call (.fresh "s") (.setPolicy "UUID_2" .empty true))
      Workspace.policyOf ⟨merged, .fresh "s"⟩ "UUID_2" = .ok ⟨[⟨"local", [⟨"bob", "Read", false⟩]⟩,
        ⟨"inherited", []⟩, ⟨"workflow", []⟩]⟩ ∧
      Workspace.policyOf ⟨cleared, .fresh "s"⟩ "UUID_2" = .ok .empty := by
  have hfound : Site.found "test" (Store.empty .own) .sequential ⟨0, 0, by decide⟩ none = .ok _ :=
    Coherent.found_eq_ok IdSource.unrepeated_sequential
  refine ⟨_, hfound, ?_⟩
  intro alice bob added merged cleared
  obtain ⟨-, hlater, -, -⟩ := policy_of_tenure IdSource.unrepeated_sequential hfound
  -- what is there after each event
  have hadded : (added.store.find? "UUID_2").toOption.join.map (·.policy.toOption) =
      some (some .empty) := by
    decide +kernel
  have hfirst : ((added.next (.call (.fresh "s") (.setPolicy "UUID_2" alice false))).store.find?
      "UUID_2").toOption.join.map (·.name?) = some (some "a") := by
    decide +kernel
  have hmerged : (merged.store.find? "UUID_2").toOption.join.map (·.name?) = some (some "a") := by
    decide +kernel
  have hcleared : (cleared.store.find? "UUID_2").toOption.join.map (·.name?) =
      some (some "a") := by
    decide +kernel
  obtain ⟨d, hd, hpolicy⟩ := Store.exists_find?_eq hadded
  obtain ⟨d₁, hd₁, -⟩ := Store.exists_find?_eq hfirst
  obtain ⟨d₂, hd₂, -⟩ := Store.exists_find?_eq hmerged
  obtain ⟨d₃, hd₃, -⟩ := Store.exists_find?_eq hcleared
  have hempty : d.policy = .ok .empty := by
    cases hd : d.policy with
    | error e =>
      rw [hd] at hpolicy
      cases hpolicy
    | ok p =>
      rw [hd] at hpolicy
      cases hpolicy
      rfl
  have halice : alice.Distinct := by decide
  have hbob : bob.Distinct := by decide
  have hborn : Tenure _ "UUID_2" (Site.next _ (.call (.fresh "s") (.addChild _ "a" "File")))
      .empty [] :=
    .created .refl trivial trivial rfl hd hempty
  have htwice : Tenure _ "UUID_2" merged .empty _ :=
    .kept (.kept hborn trivial halice hd₁) trivial hbob hd₂
  have hthrice : Tenure _ "UUID_2" cleared .empty _ :=
    .kept htwice trivial Policy.distinct_empty hd₃
  refine ⟨(((hlater merged _ d₂ htwice.reaches hd₂).2 _ _ htwice).2 (.fresh "s") rfl).trans ?_,
    (((hlater cleared _ d₃ hthrice.reaches hd₃).2 _ _ hthrice).2 (.fresh "s") rfl).trans ?_⟩
  · decide +kernel
  · decide +kernel

end Founded

end Site

end ContentRepository
