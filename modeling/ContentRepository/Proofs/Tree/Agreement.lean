import ContentRepository.Proofs.Session.Writing

/-!
# Documents and shelves that agree on some fields

What the tree keeps track of lies in a few fields, and most writes leave these alone. So facts about
the tree are carried from one shelf to another that agrees with it on the fields they are about.

* **`Document.AgreesOn`** and **`Shelf.AgreesOn`** — the same content in the given fields.
* **`Document.agreesOn_setAll`** and its companions — edits of other fields.
* **`Document.AgreesUnless`** — the same said the other way round: by the fields that may differ.
-/

namespace ContentRepository

/-- The fields that place a document in the tree. -/
def Field.ofTree : List String :=
  [Field.id, Field.parent, Field.name, Field.ancestors, Field.isProxy, Field.isVersion]

/-- The fields that tie proxies and their targets together. -/
def Field.ofLinks : List String := [Field.isProxy, Field.target, Field.proxies]

/-- All fields that the repository keeps coherent. -/
def Field.structural : List String := Field.ofTree ++ Field.ofLinks

namespace Document

/-- The second document holds in the given fields what the first one does. -/
def AgreesOn (keys : List String) (d e : Document) : Prop := ∀ key ∈ keys, e.get? key = d.get? key

namespace AgreesOn

variable {keys : List String} {d e f : Document}

theorem refl (keys : List String) (d : Document) : AgreesOn keys d d := fun _ _ => rfl

theorem trans (hde : AgreesOn keys d e) (hef : AgreesOn keys e f) : AgreesOn keys d f :=
  fun key hkey => (hef key hkey).trans (hde key hkey)

theorem mono {fewer : List String} (hsub : fewer ⊆ keys) (hde : AgreesOn keys d e) :
    AgreesOn fewer d e := fun key hkey => hde key (hsub hkey)

theorem string? (hde : AgreesOn keys d e) {key : String} (hkey : key ∈ keys) :
    e.string? key = d.string? key := by
  rw [Document.string?, Document.string?, hde key hkey]

theorem flag (hde : AgreesOn keys d e) {key : String} (hkey : key ∈ keys) :
    e.flag key = d.flag key := by
  rw [Document.flag, Document.flag, hde key hkey]

theorem references (hde : AgreesOn keys d e) {key : String} (hkey : key ∈ keys) :
    e.references key = d.references key := by
  rw [Document.references, Document.references, hde key hkey]

end AgreesOn

theorem agreesOn_set {keys : List String} {key : String} (hkey : key ∉ keys) (d : Document)
    (value : Value) : AgreesOn keys d (d.set key value) := by
  intro other hother
  rw [get?_set, if_neg]
  rintro rfl
  exact hkey hother

theorem agreesOn_setAll {keys : List String} {fields : List (String × Value)}
    (hfields : ∀ field ∈ fields, field.1 ∉ keys) (d : Document) :
    AgreesOn keys d (d.setAll fields) := by
  intro other hother
  refine get?_setAll_of_notMem fun hmem => ?_
  obtain ⟨field, hfield, rfl⟩ := List.mem_map.1 hmem
  exact hfields field hfield hother

theorem agreesOn_unset {keys : List String} {key : String} (hkey : key ∉ keys) (d : Document) :
    AgreesOn keys d (d.unset key) := by
  intro other hother
  rw [get?_unset, if_neg]
  rintro rfl
  exact hkey hother

theorem agreesOn_unsetAll {keys gone : List String} (hgone : ∀ key ∈ gone, key ∉ keys)
    (d : Document) : AgreesOn keys d (d.unsetAll gone) := by
  intro other hother
  rw [get?_unsetAll, if_neg]
  exact fun hmem => hgone other hmem hother

/-! ## Agreement with exceptions -/

/-- The second document holds what the first one does, except perhaps in the fields that may
differ. -/
def AgreesUnless (may : String → Prop) (d e : Document) : Prop :=
  ∀ key, ¬ may key → e.get? key = d.get? key

namespace AgreesUnless

variable {may also : String → Prop} {d e f : Document}

theorem refl (may : String → Prop) (d : Document) : AgreesUnless may d d := fun _ _ => rfl

theorem trans (hde : AgreesUnless may d e) (hef : AgreesUnless may e f) : AgreesUnless may d f :=
  fun key hkey => (hef key hkey).trans (hde key hkey)

theorem mono (hmay : ∀ key, may key → also key) (hde : AgreesUnless may d e) :
    AgreesUnless also d e := fun key hkey => hde key fun h => hkey (hmay key h)

theorem agreesOn {keys : List String} (hde : AgreesUnless may d e)
    (hkeys : ∀ key ∈ keys, ¬ may key) : AgreesOn keys d e := fun key hkey => hde key (hkeys key hkey)

end AgreesUnless

theorem agreesUnless_set (d : Document) (key : String) (value : Value) :
    AgreesUnless (· = key) d (d.set key value) := by
  intro other hother
  rw [get?_set, if_neg hother]

theorem agreesUnless_set_of_mem {keys : List String} {key : String} (hkey : key ∈ keys)
    (d : Document) (value : Value) : AgreesUnless (· ∈ keys) d (d.set key value) := by
  refine (agreesUnless_set d key value).mono fun other heq => ?_
  rw [heq]
  exact hkey

theorem agreesUnless_unset (d : Document) (key : String) :
    AgreesUnless (· = key) d (d.unset key) := by
  intro other hother
  rw [get?_unset, if_neg hother]

theorem agreesUnless_setAll {keys : List String} {fields : List (String × Value)}
    (hfields : ∀ field ∈ fields, field.1 ∈ keys) (d : Document) :
    AgreesUnless (· ∈ keys) d (d.setAll fields) := by
  intro other hother
  refine get?_setAll_of_notMem fun hmem => ?_
  obtain ⟨field, hfield, rfl⟩ := List.mem_map.1 hmem
  exact hother (hfields field hfield)

theorem agreesUnless_unsetAll {keys gone : List String} (hgone : gone ⊆ keys) (d : Document) :
    AgreesUnless (· ∈ keys) d (d.unsetAll gone) := by
  intro other hother
  rw [get?_unsetAll, if_neg]
  exact fun hmem => hother (hgone hmem)

end Document

namespace Shelf

/-- The same ids on both shelves, and documents that agree under each of them. -/
def AgreesOn (keys : List String) (s t : Shelf) : Prop :=
  ∀ id, Option.Rel (Document.AgreesOn keys) (s.get? id) (t.get? id)

namespace AgreesOn

variable {keys : List String} {s t : Shelf} {id : String}

theorem left (hst : AgreesOn keys s t) {d : Document} (hd : s.get? id = some d) :
    ∃ e, t.get? id = some e ∧ Document.AgreesOn keys d e := by
  have hid := hst id
  rw [hd] at hid
  cases he : t.get? id with
  | none => rw [he] at hid; cases hid
  | some e =>
    rw [he] at hid
    cases hid with
    | some hde => exact ⟨e, rfl, hde⟩

theorem right (hst : AgreesOn keys s t) {e : Document} (he : t.get? id = some e) :
    ∃ d, s.get? id = some d ∧ Document.AgreesOn keys d e := by
  have hid := hst id
  rw [he] at hid
  cases hd : s.get? id with
  | none => rw [hd] at hid; cases hid
  | some d =>
    rw [hd] at hid
    cases hid with
    | some hde => exact ⟨d, rfl, hde⟩

theorem isSome (hst : AgreesOn keys s t) : (t.get? id).isSome = (s.get? id).isSome := by
  cases hd : s.get? id with
  | some d =>
    obtain ⟨e, he, -⟩ := hst.left hd
    rw [he]
    rfl
  | none =>
    cases he : t.get? id with
    | none => rfl
    | some e =>
      obtain ⟨d, hd', -⟩ := hst.right he
      rw [hd] at hd'
      cases hd'

theorem refl (keys : List String) (s : Shelf) : AgreesOn keys s s := by
  intro id
  cases s.get? id with
  | none => exact .none
  | some d => exact .some (.refl keys d)

theorem trans {u : Shelf} (hst : AgreesOn keys s t) (htu : AgreesOn keys t u) :
    AgreesOn keys s u := by
  intro id
  cases hd : s.get? id with
  | none =>
    have hnone : (u.get? id).isSome = false := by rw [htu.isSome, hst.isSome, hd]; rfl
    rw [Option.isSome_eq_false_iff, Option.isNone_iff_eq_none] at hnone
    rw [hnone]
    exact .none
  | some d =>
    obtain ⟨e, he, hde⟩ := hst.left hd
    obtain ⟨f, hf, hef⟩ := htu.left he
    rw [hf]
    exact .some (hde.trans hef)

theorem mono {fewer : List String} (hsub : fewer ⊆ keys) (hst : AgreesOn keys s t) :
    AgreesOn fewer s t := by
  intro id
  cases hd : s.get? id with
  | none =>
    have hnone : (t.get? id).isSome = (s.get? id).isSome := hst.isSome
    rw [hd, Option.isSome_none, Option.isSome_eq_false_iff, Option.isNone_iff_eq_none] at hnone
    rw [hnone]
    exact .none
  | some d =>
    obtain ⟨e, he, hde⟩ := hst.left hd
    rw [he]
    exact .some (hde.mono hsub)

/-- A shelf agrees with the one on which a document is replaced by one that agrees with it. -/
theorem insert {d e : Document} (hd : s.get? id = some d) (hde : Document.AgreesOn keys d e) :
    AgreesOn keys s (Table.insert s id e) := by
  intro other
  rw [Table.get?_insert]
  split
  · next heq =>
    rw [heq, hd]
    exact .some hde
  · exact refl keys s other

end AgreesOn

/-- Agreement from what each document becomes. -/
theorem agreesOn_of_map {keys : List String} {s t : Shelf} {become : String → Document → Document}
    (hget : ∀ id, t.get? id = (s.get? id).map (become id))
    (hagree : ∀ id d, s.get? id = some d → Document.AgreesOn keys d (become id d)) :
    AgreesOn keys s t := by
  intro id
  rw [hget]
  cases hd : s.get? id with
  | none => exact .none
  | some d => exact .some (hagree id d hd)

end Shelf

end ContentRepository
