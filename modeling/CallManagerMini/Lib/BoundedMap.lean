import Mathlib.Data.List.AList

/-! # Maps with room for so many keys

A finite map that refuses new keys once it is full: a value that is already there may be replaced at
any time, one with a new key is dropped if there is no room for it.  What a map holds is a partial
function, and putting a value in is an update of it, where it is accepted (`get_put`).
-/

/-- A map from `κ` to `α` with at most `limit` keys. -/
structure BoundedMap (κ α : Type) (limit : Nat) where
  entries : AList fun _ : κ => α
  size_le : entries.keys.length ≤ limit

namespace BoundedMap

variable {κ α : Type} [DecidableEq κ] {limit : Nat} {m : BoundedMap κ α limit} {k k' : κ} {v : α}

/-- The map without keys. -/
def empty : BoundedMap κ α limit := ⟨∅, Nat.zero_le limit⟩

/-- The value under a key. -/
def get (m : BoundedMap κ α limit) (k : κ) : Option α := m.entries.lookup k

/-- The number of keys. -/
def size (m : BoundedMap κ α limit) : Nat := m.entries.keys.length

/-- A value with this key would be taken: the key is there, or there is room for it. -/
def Accepts (m : BoundedMap κ α limit) (k : κ) : Prop := k ∈ m.entries ∨ m.size < limit

instance (m : BoundedMap κ α limit) (k : κ) : Decidable (m.Accepts k) := by
  unfold Accepts; infer_instance

theorem size_insert_le (m : BoundedMap κ α limit) (h : m.Accepts k) (v : α) :
    (m.entries.insert k v).keys.length ≤ limit := by
  rw [AList.keys_insert, List.length_cons]
  rcases h with hk | hroom
  · rw [List.length_erase_of_mem (AList.mem_keys.mp hk)]
    have hpos := List.length_pos_of_mem (AList.mem_keys.mp hk)
    have := m.size_le
    omega
  · exact Nat.lt_of_le_of_lt List.length_erase_le hroom

/-- Put a value in, or drop it. -/
def put (m : BoundedMap κ α limit) (k : κ) (v : α) : BoundedMap κ α limit :=
  if h : m.Accepts k then ⟨m.entries.insert k v, m.size_insert_le h v⟩ else m

/-! ## The map as a partial function -/

@[simp] theorem get_empty (k : κ) : (empty : BoundedMap κ α limit).get k = none := rfl

theorem get_put (h : m.Accepts k) (v : α) : (m.put k v).get = Function.update m.get k (some v) := by
  funext k'
  rw [put, dif_pos h]
  by_cases hk : k' = k
  · subst hk
    rw [Function.update_self]
    exact AList.lookup_insert m.entries
  · rw [Function.update_of_ne hk]
    exact AList.lookup_insert_ne hk

/-! ## Many values at once -/

/-- Put values in, one after the other. -/
def putAll (kvs : List (κ × α)) (m : BoundedMap κ α limit) : BoundedMap κ α limit :=
  kvs.foldl (fun m kv => m.put kv.1 kv.2) m

theorem size_put_le (m : BoundedMap κ α limit) (k : κ) (v : α) : (m.put k v).size ≤ m.size + 1 := by
  unfold put
  split
  · show (m.entries.insert k v).keys.length ≤ _
    rw [AList.keys_insert, List.length_cons]
    exact Nat.succ_le_succ List.length_erase_le
  · exact Nat.le_succ _

/-- With room for all of them, each is found under its key afterwards. -/
theorem get_putAll {kvs : List (κ × α)} (hkeys : (kvs.map fun kv => kv.1).Nodup)
    (hroom : m.size + kvs.length ≤ limit) (k : κ) :
    (m.putAll kvs).get k = (kvs.lookup k).or (m.get k) := by
  induction kvs generalizing m with
  | nil => rfl
  | cons kv kvs ih =>
    obtain ⟨hnew, hkeys⟩ := List.nodup_cons.mp hkeys
    rw [List.length_cons] at hroom
    have hput : m.Accepts kv.1 := .inr (by omega)
    have hsize := m.size_put_le kv.1 kv.2
    have hrest := ih (m := m.put kv.1 kv.2) hkeys (by omega)
    refine hrest.trans ?_
    rw [get_put hput]
    by_cases hk : k = kv.1
    · subst hk
      have hnone : kvs.lookup kv.1 = none := by
        rw [List.lookup_eq_none_iff]
        intro x hx
        have hne : kv.1 ≠ x.1 := fun heq => hnew (List.mem_map.mpr ⟨x, hx, heq.symm⟩)
        simpa using hne
      rw [hnone, Function.update_self, List.lookup_cons_self]
      rfl
    · rw [Function.update_of_ne hk, List.lookup_cons]
      have hne : (k == kv.1) = false := by simpa using hk
      rw [hne]

theorem lookup_of_mem {kvs : List (κ × α)} (hkeys : (kvs.map fun kv => kv.1).Nodup)
    (h : (k, v) ∈ kvs) : kvs.lookup k = some v := by
  obtain ⟨before, after, rfl⟩ := List.append_of_mem h
  have hnew : k ∉ before.map fun kv => kv.1 := by
    rw [List.map_append, List.nodup_append] at hkeys
    exact fun hk => hkeys.2.2 k hk k (by simp) rfl
  have hnone : before.lookup k = none := by
    rw [List.lookup_eq_none_iff]
    intro x hx
    have hne : k ≠ x.1 := fun heq => hnew (List.mem_map.mpr ⟨x, hx, heq.symm⟩)
    simpa using hne
  rw [List.lookup_append, hnone, List.lookup_cons_self]
  rfl

theorem mem_of_lookup {kvs : List (κ × α)} (h : kvs.lookup k = some v) : (k, v) ∈ kvs := by
  induction kvs with
  | nil => exact absurd h (by simp)
  | cons kv kvs ih =>
    rw [List.lookup_cons] at h
    by_cases hk : k = kv.1
    · subst hk
      rw [beq_self_eq_true] at h
      obtain rfl : kv.2 = v := Option.some.inj h
      exact List.mem_cons_self
    · rw [beq_eq_false_iff_ne.mpr hk] at h
      exact List.mem_cons_of_mem _ (ih h)

/-- A map that is filled with no more than it has room for holds just that. -/
theorem get_putAll_empty_iff {kvs : List (κ × α)} (hkeys : (kvs.map fun kv => kv.1).Nodup)
    (hroom : kvs.length ≤ limit) :
    ((empty : BoundedMap κ α limit).putAll kvs).get k = some v ↔ (k, v) ∈ kvs := by
  have hsize : (empty : BoundedMap κ α limit).size + kvs.length ≤ limit := by
    show 0 + kvs.length ≤ limit
    omega
  rw [get_putAll hkeys hsize, get_empty, Option.or_none]
  exact ⟨mem_of_lookup, lookup_of_mem hkeys⟩

end BoundedMap
