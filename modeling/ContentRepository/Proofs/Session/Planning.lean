import ContentRepository.Proofs.Session.Frame

/-!
# Calls as plans

Every call other than a commit either leaves its workspace as it is or carries out one plan. Which
plan that is depends on the site alone.

* **`Site.Plans`** — the plan that a call makes on a site, if it makes one.
* **`Workspace.perform_cases`** — all that a call can do.
-/

namespace ContentRepository

/-- The plan to write a document and to leave it to the next commit. -/
def Plan.ofWrite (first : Write) (d : Document) : Plan :=
  { writes := first :: d.id?.toList.map .mark }

/-- The plan is the one that a call makes on the site. -/
def Site.Plans (site : Site) (plan : Plan) : Session.Call → Prop
  | .create d => plan = .ofWrite (.create d) d
  | .update d => plan = .ofWrite (.update d) d
  | .delete id => plan = { writes := [.delete id] }
  | .revise id fields cleared => ∃ d, site.store.find? id = .ok (some d) ∧
      plan = .ofWrite (.update ((d.setAll fields).unsetAll cleared))
        ((d.setAll fields).unsetAll cleared)
  | .addChild parent name type => ∃ answer, site.planAdd parent name type = .ok (plan, answer)
  | .addProxy target parent name =>
    ∃ answer, site.planProxy target parent name = .ok (plan, answer)
  | .remove id => (id ≠ site.root ∧ id ≠ site.versions) ∧ site.planRemove id = .ok plan
  | .move id dest name? => (id ≠ site.root ∧ id ≠ site.versions) ∧
      ∃ answer, site.planMove id dest name? = .ok (plan, answer)
  | .copy id dest name? => (id ≠ site.root ∧ id ≠ site.versions) ∧
      ∃ answer, site.planCopy id dest name? = .ok (plan, answer)
  | .checkIn id increment => ∃ answer, site.planCheckIn id increment = .ok (plan, answer)
  | .checkOut id => site.planCheckOut id = .ok plan
  | .setPolicy id policy overwrite => site.planPolicy id policy overwrite = .ok plan
  | _ => False

namespace Workspace

variable {w : Workspace}

theorem change_cases (plan : Except Error Plan) :
    (w.change plan).2 = w ∨ ∃ p, plan = .ok p ∧ (w.change plan).2 = (w.execute p).2 := by
  cases plan with
  | error e => exact .inl rfl
  | ok p => exact .inr ⟨p, rfl, rfl⟩

theorem produce_cases (plan : Except Error (Plan × String)) :
    (w.produce plan).2 = w ∨
      ∃ p answer, plan = .ok (p, answer) ∧ (w.produce plan).2 = (w.execute p).2 := by
  cases plan with
  | error e => exact .inl rfl
  | ok plan => exact .inr ⟨plan.1, plan.2, rfl, snd_produce w plan.1 plan.2⟩

/-- The workspace is left as it is, or a plan of the call is carried out in it. -/
def CarriesOut (w : Workspace) (call : Session.Call) (after : Workspace) : Prop :=
  after = w ∨ (w.session.live = true ∧ ∃ plan, w.site.Plans plan call ∧
    after = (w.execute plan).2)

theorem carriesOut_change {call : Session.Call} {plan : Except Error Plan}
    (hplan : ∀ p, plan = .ok p → w.session.live = true ∧ w.site.Plans p call) :
    w.CarriesOut call (w.change plan).2 := by
  obtain hsame | ⟨p, hp, hexecute⟩ := change_cases plan
  · exact .inl hsame
  · obtain ⟨hlive, hplans⟩ := hplan p hp
    exact .inr ⟨hlive, p, hplans, hexecute⟩

theorem carriesOut_produce {call : Session.Call} {plan : Except Error (Plan × String)}
    (hplan : ∀ p answer, plan = .ok (p, answer) → w.session.live = true ∧ w.site.Plans p call) :
    w.CarriesOut call (w.produce plan).2 := by
  obtain hsame | ⟨p, answer, hp, hexecute⟩ := produce_cases plan
  · exact .inl hsame
  · obtain ⟨hlive, hplans⟩ := hplan p answer hp
    exact .inr ⟨hlive, p, hplans, hexecute⟩

theorem carriesOut_revise (id : String) (fields : List (String × Value)) (cleared : List String) :
    w.CarriesOut (.revise id fields cleared) (w.revise id fields cleared).2 := by
  obtain hsame | ⟨d, hd, hupdate⟩ := snd_revise w id fields cleared
  · exact .inl hsame
  rw [hupdate, update]
  refine carriesOut_change fun p hp => ?_
  obtain ⟨hlive, heq⟩ := of_liveSite_bind hp
  refine ⟨hlive, d, ?_, (Except.ok.inj heq).symm⟩
  have hfind : (w.site.store.find? id).mapError Error.store = .ok (some d) :=
    (of_liveSite_bind hd).2
  cases hstore : w.site.store.find? id with
  | error e =>
    rw [hstore] at hfind
    cases hfind
  | ok found =>
    rw [hstore] at hfind
    cases hfind
    rfl

/-- **A call other than a commit leaves a workspace as it is, or carries out its plan.** -/
theorem perform_cases {call : Session.Call} (hcall : call ≠ .commit) :
    w.CarriesOut call (w.perform call).2 := by
  cases call with
  | create | update | delete =>
    -- these plan their writes from the site as it is
    refine carriesOut_change fun p hp => ?_
    obtain ⟨hlive, heq⟩ := of_liveSite_bind hp
    exact ⟨hlive, (Except.ok.inj heq).symm⟩
  | revise id fields cleared => exact carriesOut_revise id fields cleared
  | checkOut | setPolicy => exact carriesOut_change fun p hp => of_liveSite_bind hp
  | addChild | addProxy | checkIn =>
    -- these answer with a document besides
    exact carriesOut_produce fun p answer hp =>
      (of_liveSite_bind hp).imp_right fun hplan => ⟨answer, hplan⟩
  | remove =>
    -- a structural call refuses what is no ordinary document before it looks at the session
    refine carriesOut_change fun p hp => ?_
    obtain ⟨hordinary, hlive, hplan⟩ := of_requireOrdinary_bind hp
    exact ⟨hlive, hordinary, hplan⟩
  | move | copy =>
    refine carriesOut_produce fun p answer hp => ?_
    obtain ⟨hordinary, hlive, hplan⟩ := of_requireOrdinary_bind hp
    exact ⟨hlive, hordinary, answer, hplan⟩
  | commit => exact absurd rfl hcall
  | _ => exact .inl rfl

end Workspace

end ContentRepository
