import Mathlib.Data.List.AList

/-! # Tables

Finite maps from keys to values, as Mathlib's association lists without duplicate keys, with the
facts a counting argument needs: what an insertion and a removal do to a lookup and to the number of
entries. -/

/-- A finite map from `K` to `V`. -/
structure Table (K V : Type) where
  /-- The entries, no key twice. -/
  list : AList fun _ : K => V

namespace Table

variable {K V : Type}

/-- The table without entries. -/
def empty : Table K V := ⟨∅⟩

/-- The number of entries. -/
def size (t : Table K V) : Nat := t.list.keys.length

/-- The entries as pairs. -/
def pairs (t : Table K V) : List (K × V) := t.list.entries.map fun e => (e.1, e.2)

/-- Keep the entries whose value passes a test. -/
def retain (t : Table K V) (p : V → Bool) : Table K V :=
  ⟨⟨t.list.entries.filter fun e => p e.2, t.list.nodupKeys.sublist List.filter_sublist⟩⟩

theorem pairs_retain (t : Table K V) (p : V → Bool) :
    (t.retain p).pairs = t.pairs.filter fun e => p e.2 := by
  simp only [pairs, retain, List.filter_map]
  rfl

theorem length_pairs (t : Table K V) : t.pairs.length = t.size := by
  rw [pairs, size, AList.keys, List.keys, List.length_map, List.length_map]

/-- No key is listed twice. -/
theorem nodup_keys_pairs (t : Table K V) : (t.pairs.map fun e => e.1).Nodup := by
  rw [pairs, List.map_map]
  exact t.list.nodupKeys

/-- How many entries are dropped. -/
theorem size_sub_size_retain (t : Table K V) (p : V → Bool) :
    t.size - (t.retain p).size = (t.pairs.filter fun e => !p e.2).length := by
  rw [← length_pairs, ← length_pairs, pairs_retain,
    List.length_eq_length_filter_add (l := t.pairs) fun e => p e.2, Nat.add_sub_cancel_left]

variable [DecidableEq K]

/-- The value at a key. -/
def find? (t : Table K V) (k : K) : Option V := t.list.lookup k

/-- Set the value at a key. -/
def insert (t : Table K V) (k : K) (v : V) : Table K V := ⟨t.list.insert k v⟩

/-- Remove a key. -/
def erase (t : Table K V) (k : K) : Table K V := ⟨t.list.erase k⟩

/-- A lookup after an insertion. -/
theorem find?_insert (t : Table K V) (k k' : K) (v : V) :
    (t.insert k v).find? k' = if k' = k then some v else t.find? k' := by
  by_cases h : k' = k
  · subst h
    rw [if_pos rfl]
    exact AList.lookup_insert _
  · rw [if_neg h]
    exact AList.lookup_insert_ne h

/-- A lookup after a removal. -/
theorem find?_erase (t : Table K V) (k k' : K) :
    (t.erase k).find? k' = if k' = k then none else t.find? k' := by
  by_cases h : k' = k
  · subst h
    rw [if_pos rfl]
    exact AList.lookup_erase _ _
  · rw [if_neg h]
    exact AList.lookup_erase_ne h

@[simp] theorem find?_insert_self (t : Table K V) (k : K) (v : V) :
    (t.insert k v).find? k = some v := AList.lookup_insert _

@[simp] theorem find?_erase_self (t : Table K V) (k : K) : (t.erase k).find? k = none :=
  AList.lookup_erase _ _

variable {t : Table K V} {k : K} {v : V}

theorem find?_insert_of_ne {k' : K} (h : k ≠ k') : (t.insert k v).find? k' = t.find? k' := by
  rw [find?_insert, if_neg h.symm]

theorem find?_erase_of_ne {k' : K} (h : k ≠ k') : (t.erase k).find? k' = t.find? k' := by
  rw [find?_erase, if_neg h.symm]

theorem find?_erase_eq_none {k' : K} (h : t.find? k' = none) : (t.erase k).find? k' = none := by
  rw [find?_erase, h, ite_self]

/-- A key is listed exactly when it has a value. -/
theorem mem_keys_iff : k ∈ t.list.keys ↔ ∃ v, t.find? k = some v := by
  rw [← AList.mem_keys, ← AList.lookup_isSome, Option.isSome_iff_exists]
  exact Iff.rfl

/-- Inserting a new key adds one entry. -/
theorem size_insert_of_none (h : t.find? k = none) : (t.insert k v).size = t.size + 1 := by
  have hk : k ∉ t.list.keys := by
    rw [mem_keys_iff, h]
    rintro ⟨_, ⟨⟩⟩
  rw [size, insert, AList.keys_insert, List.length_cons, List.erase_of_not_mem hk, size]

/-- Replacing a value keeps the number of entries. -/
theorem size_insert_of_some {v' : V} (h : t.find? k = some v') :
    (t.insert k v).size = t.size := by
  have hk : k ∈ t.list.keys := mem_keys_iff.mpr ⟨v', h⟩
  have hpos : 0 < t.list.keys.length := List.length_pos_of_mem hk
  rw [size, insert, AList.keys_insert, List.length_cons, List.length_erase_of_mem hk, size]
  omega

/-- Removing a present key removes one entry. -/
theorem size_erase_of_some (h : t.find? k = some v) : (t.erase k).size + 1 = t.size := by
  have hk : k ∈ t.list.keys := mem_keys_iff.mpr ⟨v, h⟩
  have hpos : 0 < t.list.keys.length := List.length_pos_of_mem hk
  rw [size, erase, AList.keys_erase, List.length_erase_of_mem hk, size]
  omega

/-- The pairs are the entries a lookup finds. -/
theorem mem_pairs_iff : (k, v) ∈ t.pairs ↔ t.find? k = some v := by
  have hmem : t.find? k = some v ↔ (⟨k, v⟩ : Sigma fun _ : K => V) ∈ t.list.entries :=
    AList.mem_lookup_iff
  rw [hmem, pairs, List.mem_map]
  constructor
  · rintro ⟨⟨k', v'⟩, h, heq⟩
    cases heq
    exact h
  · intro h
    exact ⟨⟨k, v⟩, h, rfl⟩

/-- A table in which nothing is found is empty. -/
theorem size_eq_zero (h : ∀ k, t.find? k = none) : t.size = 0 := by
  rw [← length_pairs, List.length_eq_zero_iff, List.eq_nil_iff_forall_not_mem]
  rintro ⟨k, v⟩ hmem
  rw [mem_pairs_iff, h k] at hmem
  cases hmem

/-- A lookup among the entries that are kept. -/
theorem find?_retain (t : Table K V) (p : V → Bool) (k : K) :
    (t.retain p).find? k = (t.find? k).filter p := by
  apply Option.ext
  intro v
  rw [← mem_pairs_iff, pairs_retain, List.mem_filter, mem_pairs_iff, Option.filter_eq_some_iff]

end Table
