import ContentRepository.Store.Basic
import ContentRepository.Table.Lemmas

/-!
# When the writes of a shelf succeed

A write that succeeds concerns one document; one that fails leaves nothing behind, as it answers no
shelf at all.
-/

namespace ContentRepository.Shelf

/-- **A new document never takes the place of another.** -/
theorem create_eq_ok_iff {shelf after : Shelf} {id : String} {d : Document} :
    shelf.create id d = .ok after ↔
      shelf.get? id = none ∧ after = Table.insert shelf id d := by
  rw [create, Table.contains_eq_isSome]
  cases shelf.get? id <;> simp [eq_comm]

/-- **Replacing needs something to replace.** -/
theorem update_eq_ok_iff {shelf after : Shelf} {id : String} {d : Document} :
    shelf.update id d = .ok after ↔
      (shelf.get? id).isSome ∧ after = Table.insert shelf id d := by
  rw [update, Table.contains_eq_isSome]
  cases shelf.get? id <;> simp [eq_comm]

theorem delete_eq_ok_iff {shelf after : Shelf} {id : String} :
    shelf.delete id = .ok after ↔ (shelf.get? id).isSome ∧ after = Table.erase shelf id := by
  rw [delete, Table.contains_eq_isSome]
  cases shelf.get? id <;> simp [eq_comm]

end ContentRepository.Shelf
