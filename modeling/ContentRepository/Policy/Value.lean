import ContentRepository.Policy.Basic
import ContentRepository.Value.Basic

/-!
# Policies as field values

A policy is stored in a field as an array of objects, one for each list, with its name and the array
of its entries.

* **`Policy.toValue`** writes a policy, **`Policy.ofValue?`** reads one. Reading passes over fields
  it does not know, and of two lists with one name the later takes the place of the former.
-/

namespace ContentRepository

/-- The entry as an object. -/
def AccessEntry.toValue (e : AccessEntry) : Value :=
  .ofFields [("principal", .string e.principal), ("permission", .string e.permission),
    ("granted", .boolean e.granted)]

/-- The list as an object. -/
def AccessList.toValue (l : AccessList) : Value :=
  .ofFields [("name", .string l.name), ("aces", .array (l.entries.map AccessEntry.toValue))]

/-- The policy as an array. -/
def Policy.toValue (p : Policy) : Value := .array (p.lists.map AccessList.toValue)

/-- The field of an object. -/
def Value.field? (v : Value) (key : String) : Option Value := do
  let fields ← v.object?
  return (← fields.find? fun e => e.1 == key).2

def AccessEntry.ofValue? (v : Value) : Option AccessEntry := do
  let principal ← (← v.field? "principal").string?
  let permission ← (← v.field? "permission").string?
  let granted ← (← v.field? "granted").boolean?
  return ⟨principal, permission, granted⟩

def AccessList.ofValue? (v : Value) : Option AccessList := do
  let name ← (← v.field? "name").string?
  let entries ← (← v.field? "aces").array?
  return ⟨name, ← entries.mapM AccessEntry.ofValue?⟩

/-- Reads a policy; nothing if the value is not of the form described above. -/
def Policy.ofValue? (v : Value) : Option Policy := do
  let lists ← (← v.array?).mapM AccessList.ofValue?
  return lists.foldl add empty

end ContentRepository
