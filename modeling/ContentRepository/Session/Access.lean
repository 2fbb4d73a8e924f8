import ContentRepository.Session.Basic

/-!
# The policies of documents

A document without the policy field has the empty policy, and the empty policy is stored by leaving
the field out. `Workspace.setPolicy` is `set_acp`, and `Workspace.policyOf` is `get_acp`.
-/

namespace ContentRepository

/-- The policy of a document; an error if the field holds something else. -/
def Document.policy (d : Document) : Except Error Policy :=
  match d.get? Field.policy with
  | none => .ok .empty
  | some value => (Policy.ofValue? value).elim (.error (.refused .malformedPolicy)) .ok

/-- The document with a policy. -/
def Document.withPolicy (d : Document) (policy : Policy) : Document :=
  if policy.isEmpty then d.unset Field.policy else d.set Field.policy policy.toValue

/-- The plan to put a policy on a document: in place of the one it has, or merged into it. A policy
that is replaced need not be well formed. -/
def Site.planPolicy (site : Site) (id : String) (policy : Policy) (overwrite : Bool) :
    Except Error Plan := do
  let d ← site.require id
  let merged ← if overwrite then pure policy else d.policy.map (·.merge policy)
  return { writes := [.update (d.withPolicy merged)] }

namespace Workspace

/-- Puts a policy on a document. -/
def setPolicy (w : Workspace) (id : String) (policy : Policy) (overwrite : Bool) :
    Except Error Unit × Workspace :=
  w.change do (← w.liveSite).planPolicy id policy overwrite

/-- The policy of a document. -/
def policyOf (w : Workspace) (id : String) : Except Error Policy := do
  (← w.require id).policy

end Workspace

end ContentRepository
