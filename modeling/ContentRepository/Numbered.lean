/-!
# Things by number

A `Numbered α` holds things under numbers, one under each. It says nothing of their order.
-/

namespace ContentRepository

/-- Things by number. -/
structure Numbered (α : Type u) where
  entries : List (Nat × α)

namespace Numbered

variable {α : Type u}

def empty : Numbered α := ⟨[]⟩

/-- What is held under a number. -/
def get? (m : Numbered α) (n : Nat) : Option α :=
  (m.entries.find? fun e => e.1 == n).map (·.2)

/-- Whether something is held under a number. -/
def contains (m : Numbered α) (n : Nat) : Bool := (m.get? n).isSome

/-- Holds something under a number, in place of what was there. -/
def put (m : Numbered α) (n : Nat) (a : α) : Numbered α :=
  ⟨(n, a) :: m.entries.filter fun e => e.1 != n⟩

/-- Holds nothing under a number any more. -/
def remove (m : Numbered α) (n : Nat) : Numbered α := ⟨m.entries.filter fun e => e.1 != n⟩

/-- Keeps what satisfies a condition. -/
def keep (m : Numbered α) (condition : α → Bool) : Numbered α :=
  ⟨m.entries.filter fun e => condition e.2⟩

def size (m : Numbered α) : Nat := m.entries.length

end Numbered

end ContentRepository
