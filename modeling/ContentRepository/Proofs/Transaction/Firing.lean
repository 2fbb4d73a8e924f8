import ContentRepository.Numbered.Lemmas
import ContentRepository.Transaction.Manager
import Mathlib.Data.List.Nodup

/-!
# What a completion does to the participants

The manager calls participants through a protocol. To say which calls were made, each registration
is given a number and a protocol is made to record every call (`Protocol.recorded`).

* **`Firing`** — one call, by the number of the registration.
* **`Settlement`** — what is to be expected of a completion: who is asked, who is told, and how that
  fits what the completing call returns.
* **`Protocol.settle_recorded`** — every completion keeps to it, however participants answer.
* **`Protocol.settle_bare`** — the record changes nothing.
-/

namespace ContentRepository

/-- A call to a participant, by the number of its registration. -/
inductive Firing where
  /-- It was asked before a commit, and agreed or objected. -/
  | asked (registration : Nat) (agreed : Bool)
  /-- It was told the outcome. -/
  | told (registration : Nat) (outcome : Outcome)
deriving DecidableEq

/-- Which registration was called, and whether the outcome was settled by then. -/
def Firing.callback : Firing → Nat × Bool
  | .asked registration _ => (registration, false)
  | .told registration _ => (registration, true)

/-- All participants of a transaction are told an outcome, in the order of their registration. -/
def Transaction.tellings {κ : Type} (t : Transaction (Nat × κ)) (outcome : Outcome) :
    List Firing :=
  t.participants.map fun k => .told k.1 outcome

/-- The transaction without the numbers of registrations. -/
def Transaction.bare {κ : Type} (t : Transaction (Nat × κ)) : Transaction κ :=
  ⟨t.rollbackOnly, t.participants.map (·.2)⟩

/-- A completion as it should be, which asks some participants and then tells all the outcome. -/
structure Settlement {κ : Type} (commit : Bool) (t : Transaction (Nat × κ))
    (result : Except Error Unit) (asked : List Firing) (outcome : Outcome) : Prop where
  /-- Nobody is asked about a rollback, nor about a commit that is ruled out. -/
  spared : commit = false ∨ t.rollbackOnly = true → asked = []
  /-- About any other commit participants are asked once each in the order of their registration. If
  all agree it succeeds; the first that objects ends it. -/
  consulted : commit = true → t.rollbackOnly = false →
    (asked = t.participants.map (fun k => .asked k.1 true) ∧ result = .ok ()) ∨
      ∃ agreeing objector rest, t.participants = agreeing ++ objector :: rest ∧
        asked = agreeing.map (fun k => .asked k.1 true) ++ [.asked objector.1 false] ∧
        result ≠ .ok ()
  /-- The outcome is that of a commit exactly for a commit that succeeds. -/
  settled : outcome = .committed ↔ commit = true ∧ result = .ok ()
  /-- A commit that does not succeed is aborted, and so is one that is ruled out. -/
  aborted : commit = true → result ≠ .ok () → ∃ reason, result = .error (.transactionAborted reason)
  ruledOut : commit = true → t.rollbackOnly = true → result ≠ .ok ()
  /-- A rollback succeeds. -/
  rolledBack : commit = false → result = .ok ()

/-- The callbacks called to ask are those of the first participants, in their order. -/
theorem Settlement.callbacks_asked_prefix {κ : Type} {commit : Bool}
    {t : Transaction (Nat × κ)} {result : Except Error Unit} {asked : List Firing}
    {outcome : Outcome} (hs : Settlement commit t result asked outcome) :
    asked.map Firing.callback <+: t.participants.map fun k => (k.1, false) := by
  by_cases hspared : commit = false ∨ t.rollbackOnly = true
  · rw [hs.spared hspared]
    exact List.nil_prefix
  · rw [not_or, Bool.not_eq_false, Bool.not_eq_true] at hspared
    rcases hs.consulted hspared.1 hspared.2 with
      ⟨rfl, -⟩ | ⟨agreeing, objector, rest, hsplit, rfl, -⟩
    · rw [List.map_map]
      exact List.prefix_refl _
    · refine ⟨rest.map fun k => (k.1, false), ?_⟩
      rw [hsplit]
      simp [Function.comp_def, Firing.callback]

theorem Transaction.callbacks_tellings {κ : Type} (t : Transaction (Nat × κ)) (outcome : Outcome) :
    (t.tellings outcome).map Firing.callback = t.participants.map fun k => (k.1, true) := by
  simp [tellings, Function.comp_def, Firing.callback]

/-- A completion calls no callback twice, for participants with different numbers. -/
theorem Settlement.callbacks_nodup {κ : Type} {commit : Bool} {t : Transaction (Nat × κ)}
    {result : Except Error Unit} {asked : List Firing} {outcome : Outcome}
    (hs : Settlement commit t result asked outcome)
    (hnodup : (t.participants.map (·.1)).Nodup) :
    ((asked ++ t.tellings outcome).map Firing.callback).Nodup := by
  have hlate : ∀ late : Bool, (t.participants.map fun k => (k.1, late)).Nodup := by
    intro late
    have := hnodup.map (f := fun n => (n, late)) fun _ _ heq => congrArg Prod.fst heq
    rwa [List.map_map] at this
  rw [List.map_append, t.callbacks_tellings, List.nodup_append]
  refine ⟨(hlate false).sublist hs.callbacks_asked_prefix.sublist, hlate true, ?_⟩
  -- those who are told are told when the outcome is settled, and nobody is asked then
  intro a ha b hb heq
  obtain ⟨k, -, rfl⟩ := List.mem_map.1 (hs.callbacks_asked_prefix.subset ha)
  obtain ⟨k', -, rfl⟩ := List.mem_map.1 hb
  exact Bool.false_ne_true (congrArg Prod.snd heq)

namespace Protocol

variable {κ σ : Type} (p : Protocol κ σ)

/-- The protocol for numbered registrations, with a record of the calls that are made. -/
def recorded : Protocol (Nat × κ) (List Firing × σ) where
  before k s :=
    match p.before k.2 s.2 with
    | (.ok (), world) => (.ok (), s.1 ++ [.asked k.1 true], world)
    | (.error e, world) => (.error e, s.1 ++ [.asked k.1 false], world)
  after k outcome s := (s.1 ++ [.told k.1 outcome], p.after k.2 outcome s.2)

/-- Participants are asked up to the first that objects. -/
theorem askAll_recorded (ks : List (Nat × κ)) (fired : List Firing) (world : σ) :
    ∃ objection asked world', p.recorded.askAll ks (fired, world) =
        (objection, fired ++ asked, world') ∧
      ((objection = none ∧ asked = ks.map fun k => .asked k.1 true) ∨
        ∃ reason agreeing objector rest, objection = some reason ∧
          ks = agreeing ++ objector :: rest ∧
          asked = agreeing.map (fun k => .asked k.1 true) ++ [.asked objector.1 false]) := by
  induction ks generalizing fired world with
  | nil => exact ⟨none, [], world, by simp [askAll], .inl ⟨rfl, rfl⟩⟩
  | cons k rest ih =>
    rw [askAll]
    simp only [recorded]
    cases hbefore : p.before k.2 world with
    | mk result world' =>
      cases result with
      | error e =>
        -- it objects, and nobody else is asked
        refine ⟨some e.message, [.asked k.1 false], world', rfl, .inr ?_⟩
        exact ⟨e.message, [], k, rest, rfl, rfl, rfl⟩
      | ok u =>
        -- it agrees, and the others are asked
        obtain ⟨objection, asked, world'', hask, hcases⟩ := ih (fired ++ [.asked k.1 true]) world'
        refine ⟨objection, .asked k.1 true :: asked, world'', ?_, ?_⟩
        · show p.recorded.askAll rest (fired ++ [.asked k.1 true], world') = _
          rw [hask, List.append_assoc]
          rfl
        · rcases hcases with ⟨hnone, rfl⟩ | ⟨reason, agreeing, objector, after, hsome, rfl, rfl⟩
          · exact .inl ⟨hnone, rfl⟩
          · exact .inr ⟨reason, k :: agreeing, objector, after, hsome, rfl, rfl⟩

/-- All participants are told. -/
theorem tellAll_recorded (outcome : Outcome) (t : Transaction (Nat × κ)) (fired : List Firing)
    (world : σ) : ∃ world', p.recorded.tellAll outcome t.participants (fired, world) =
      (fired ++ t.tellings outcome, world') := by
  rw [Transaction.tellings]
  induction t.participants generalizing fired world with
  | nil => exact ⟨world, by simp [tellAll]⟩
  | cons k rest ih =>
    obtain ⟨world', htell⟩ := ih (fired ++ [.told k.1 outcome]) (p.after k.2 outcome world)
    refine ⟨world', ?_⟩
    show p.recorded.tellAll outcome rest (fired ++ [.told k.1 outcome], _) = _
    rw [htell, List.append_assoc]
    rfl

/-! ## The record changes nothing -/

theorem askAll_bare (ks : List (Nat × κ)) (fired : List Firing) (world : σ) :
    p.askAll (ks.map (·.2)) world =
      ((p.recorded.askAll ks (fired, world)).1, (p.recorded.askAll ks (fired, world)).2.2) := by
  induction ks generalizing fired world with
  | nil => rfl
  | cons k rest ih =>
    rw [List.map_cons, askAll, askAll]
    simp only [recorded]
    cases p.before k.2 world with
    | mk result world' =>
      cases result with
      | error e => rfl
      | ok u => exact ih (fired ++ [.asked k.1 true]) world'

theorem tellAll_bare (outcome : Outcome) (ks : List (Nat × κ)) (fired : List Firing)
    (world : σ) : p.tellAll outcome (ks.map (·.2)) world =
      (p.recorded.tellAll outcome ks (fired, world)).2 := by
  induction ks generalizing fired world with
  | nil => rfl
  | cons k rest ih => exact ih (fired ++ [.told k.1 outcome]) (p.after k.2 outcome world)

/-- Calls with a record come to the same as calls without. -/
theorem settle_bare (commit : Bool) (t : Transaction (Nat × κ)) (fired : List Firing)
    (world : σ) : p.settle commit t.bare world =
      ((p.recorded.settle commit t (fired, world)).1,
        (p.recorded.settle commit t (fired, world)).2.2) := by
  cases commit with
  | false =>
    -- a rollback asks nobody
    rw [settle, settle, if_neg Bool.false_ne_true, if_neg Bool.false_ne_true]
    rw [Transaction.bare, p.tellAll_bare .rolledBack t.participants fired world]
  | true =>
    rw [settle, settle, if_pos rfl, if_pos rfl, objection, objection, Transaction.bare]
    cases t.rollbackOnly with
    | true =>
      -- marked rollback-only: nobody is asked either
      simp only [if_true]
      rw [p.tellAll_bare .rolledBack t.participants fired world]
    | false =>
      simp only [Bool.false_eq_true, if_false]
      rw [p.askAll_bare t.participants fired world]
      rcases p.recorded.askAll t.participants (fired, world) with ⟨_ | reason, fired', world'⟩
      · -- all agreed
        simp only [p.tellAll_bare .committed t.participants fired' world']
      · -- one of them objected
        simp only [p.tellAll_bare .rolledBack t.participants fired' world']

/-! ## Completions -/

/-- **A completion calls participants as it should.** -/
theorem settle_recorded (commit : Bool) (t : Transaction (Nat × κ)) (fired : List Firing)
    (world : σ) : ∃ result asked outcome world',
      p.recorded.settle commit t (fired, world) =
          (result, fired ++ asked ++ t.tellings outcome, world') ∧
        Settlement commit t result asked outcome := by
  cases commit with
  | false =>
    -- a rollback asks nobody, and all are told
    obtain ⟨world', htell⟩ := p.tellAll_recorded .rolledBack t fired world
    refine ⟨.ok (), [], .rolledBack, world', ?_, ?_⟩
    · rw [settle, if_neg Bool.false_ne_true, htell, List.append_nil]
    · exact ⟨fun _ => rfl, nofun, by simp, nofun, nofun, fun _ => rfl⟩
  | true =>
    rw [settle, if_pos rfl, objection]
    cases honly : t.rollbackOnly with
    | true =>
      -- marked rollback-only: nobody is asked, and all are told of the rollback
      obtain ⟨world', htell⟩ := p.tellAll_recorded .rolledBack t fired world
      refine ⟨.error (.transactionAborted "transaction marked rollback-only"), [], .rolledBack,
        world', ?_, ?_⟩
      · rw [if_pos rfl, List.append_nil]
        simp only
        rw [htell]
      · exact ⟨fun _ => rfl, fun _ h => by simp [honly] at h, by simp,
          fun _ _ => ⟨_, rfl⟩, fun _ _ => by simp, nofun⟩
    | false =>
      rw [if_neg Bool.false_ne_true]
      obtain ⟨objection, asked, world', hask, hcases⟩ :=
        p.askAll_recorded t.participants fired world
      rw [hask]
      have hspared : (true = false ∨ t.rollbackOnly = true) → asked = [] := by
        rw [honly]
        simp
      have hruledOut : ∀ result : Except Error Unit,
          true = true → t.rollbackOnly = true → result ≠ .ok () := by
        rw [honly]
        simp
      rcases hcases with ⟨rfl, hasked⟩ | ⟨reason, agreeing, objector, rest, rfl, hsplit, hasked⟩
      · -- all agreed, and are told of the commit
        obtain ⟨world'', htell⟩ := p.tellAll_recorded .committed t (fired ++ asked) world'
        refine ⟨.ok (), asked, .committed, world'', by simp only [htell], ?_⟩
        exact ⟨hspared, fun _ _ => .inl ⟨hasked, rfl⟩, by simp, fun _ h => absurd rfl h,
          hruledOut _, nofun⟩
      · -- one of them objected: those after it are not asked, and all are told of the rollback
        obtain ⟨world'', htell⟩ := p.tellAll_recorded .rolledBack t (fired ++ asked) world'
        refine ⟨.error (.transactionAborted reason), asked, .rolledBack, world'',
          by simp only [htell], ?_⟩
        exact ⟨hspared, fun _ _ => .inr ⟨agreeing, objector, rest, hsplit, hasked, by simp⟩,
          by simp, fun _ _ => ⟨reason, rfl⟩, hruledOut _, nofun⟩

end Protocol

end ContentRepository
