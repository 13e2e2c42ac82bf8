import Mathlib.Data.Nat.ModEq
import Mathlib.Data.List.Range

/-! # Ring buffers

A queue kept in an array that is filled round and round: `head` is where the oldest element
stands, `count` how many there are, and what lies past the end of the array goes on at its
start.  `toList` is the queue itself, oldest element first; `push` adds to its end
(`toList_push`) and `pop` takes its front (`toList_eq_cons`).  A ring carries the proof that
its elements stand where `head` and `count` say.
-/

/-- A ring buffer of `slots.length` places. -/
structure RingBuffer (α : Type) where
  slots : List (Option α)
  head : Nat
  count : Nat
  count_le : count ≤ slots.length
  head_lt : 0 < slots.length → head < slots.length
  filled : ∀ k < count, ((slots[(head + k) % slots.length]?).join).isSome
  deriving DecidableEq, Repr

namespace RingBuffer

variable {α : Type}

/-- A ring of `n` places that holds nothing. -/
def empty (n : Nat) : RingBuffer α where
  slots := List.replicate n none
  head := 0
  count := 0
  count_le := Nat.zero_le _
  head_lt := id
  filled := fun _ h => absurd h (Nat.not_lt_zero _)

/-- How many elements the ring has room for. -/
def capacity (r : RingBuffer α) : Nat := r.slots.length

/-- The element that `k` others stand before. -/
def cell (r : RingBuffer α) (k : Nat) : Option α := (r.slots[(r.head + k) % r.slots.length]?).join

/-- What the ring holds, oldest first. -/
def toList (r : RingBuffer α) : List α := (List.range r.count).filterMap r.cell

/-! ## Places of the ring -/

/-- Going round from the same place, fewer than `n` steps apart are different places. -/
theorem place_inj {n head j k : Nat} (hj : j < n) (hk : k < n)
    (h : (head + j) % n = (head + k) % n) : j = k := by
  have hmod : j ≡ k [MOD n] := Nat.ModEq.add_left_cancel' head h
  rwa [Nat.ModEq, Nat.mod_eq_of_lt hj, Nat.mod_eq_of_lt hk] at hmod

/-- Counting on from the next place. -/
theorem place_succ (n head k : Nat) : ((head + 1) % n + k) % n = (head + (k + 1)) % n := by
  rw [Nat.mod_add_mod]
  congr 1
  omega

/-! ## Adding an element -/

theorem place_push {r : RingBuffer α} (h : r.count < r.slots.length) {k : Nat} (hk : k < r.count) :
    (r.head + r.count) % r.slots.length ≠ (r.head + k) % r.slots.length := by
  intro heq
  have hcount := place_inj h (hk.trans h) heq
  omega

/-- Add `a` at the end of a ring with room. -/
def push (r : RingBuffer α) (a : α) (h : r.count < r.slots.length) : RingBuffer α where
  slots := r.slots.set ((r.head + r.count) % r.slots.length) (some a)
  head := r.head
  count := r.count + 1
  count_le := by
    rw [List.length_set]
    exact h
  head_lt := by
    rw [List.length_set]
    exact r.head_lt
  filled := by
    intro k hk
    rw [List.length_set]
    rcases Nat.lt_succ_iff_lt_or_eq.mp hk with hlt | rfl
    · rw [List.getElem?_set_ne (place_push h hlt)]
      exact r.filled k hlt
    · have hplace : (r.head + r.count) % r.slots.length < r.slots.length :=
        Nat.mod_lt _ (Nat.zero_lt_of_lt h)
      rw [List.getElem?_set_self hplace]
      rfl

@[simp] theorem count_push {r : RingBuffer α} {a : α} (h : r.count < r.slots.length) :
    (r.push a h).count = r.count + 1 := rfl

@[simp] theorem capacity_push {r : RingBuffer α} {a : α} (h : r.count < r.slots.length) :
    (r.push a h).capacity = r.capacity := List.length_set

theorem cell_push_of_lt {r : RingBuffer α} {a : α} (h : r.count < r.slots.length) {k : Nat}
    (hk : k < r.count) : (r.push a h).cell k = r.cell k := by
  change ((r.slots.set _ _)[(r.head + k) % (r.slots.set _ _).length]?).join = _
  rw [List.length_set, List.getElem?_set_ne (place_push h hk)]
  rfl

theorem cell_push_self {r : RingBuffer α} {a : α} (h : r.count < r.slots.length) :
    (r.push a h).cell r.count = some a := by
  have hplace : (r.head + r.count) % r.slots.length < r.slots.length :=
    Nat.mod_lt _ (Nat.zero_lt_of_lt h)
  change ((r.slots.set _ _)[(r.head + r.count) % (r.slots.set _ _).length]?).join = _
  rw [List.length_set, List.getElem?_set_self hplace]
  rfl

/-- **What is added stands last.** -/
@[simp] theorem toList_push {r : RingBuffer α} {a : α} (h : r.count < r.slots.length) :
    (r.push a h).toList = r.toList ++ [a] := by
  have hold : (List.range r.count).filterMap (r.push a h).cell = r.toList :=
    List.filterMap_congr fun k hk => cell_push_of_lt h (List.mem_range.mp hk)
  rw [toList, count_push, List.range_succ, List.filterMap_append, hold]
  simp [cell_push_self h]

/-! ## Taking the oldest -/

theorem cell_zero {r : RingBuffer α} (h : 0 < r.count) : r.cell 0 = (r.slots[r.head]?).join := by
  rw [cell, Nat.add_zero, Nat.mod_eq_of_lt (r.head_lt (h.trans_le r.count_le))]

/-- The elements behind the oldest one stand elsewhere. -/
theorem head_ne_place {r : RingBuffer α} {k : Nat} (hk : k + 1 < r.count) :
    r.head ≠ (r.head + (k + 1)) % r.slots.length := by
  intro heq
  have hcount := r.count_le
  have hhead : r.head % r.slots.length = r.head := Nat.mod_eq_of_lt (r.head_lt (by omega))
  have hzero : 0 = k + 1 := place_inj (by omega) (by omega)
    ((Nat.add_zero r.head ▸ hhead).trans heq)
  omega

/-- The ring behind its oldest element. -/
def tail (r : RingBuffer α) : RingBuffer α where
  slots := r.slots.set r.head none
  head := (r.head + 1) % r.slots.length
  count := r.count - 1
  count_le := by
    rw [List.length_set]
    exact (Nat.sub_le _ _).trans r.count_le
  head_lt := by
    rw [List.length_set]
    exact Nat.mod_lt _
  filled := by
    intro k hk
    rw [List.length_set, place_succ, List.getElem?_set_ne (head_ne_place (by omega))]
    exact r.filled (k + 1) (by omega)

/-- The oldest element, and the ring without it. -/
def pop (r : RingBuffer α) : Option (α × RingBuffer α) :=
  if r.count = 0 then none else (r.slots[r.head]?).join.map fun a => (a, r.tail)

theorem cell_tail {r : RingBuffer α} {k : Nat} (hk : k + 1 < r.count) :
    r.tail.cell k = r.cell (k + 1) := by
  change ((r.slots.set _ _)[((r.head + 1) % r.slots.length + k) % (r.slots.set _ _).length]?).join
    = _
  rw [List.length_set, place_succ, List.getElem?_set_ne (head_ne_place hk)]
  rfl

/-- **What is taken stood first.** -/
theorem toList_eq_cons {r r' : RingBuffer α} {a : α} (h : r.pop = some (a, r')) :
    r.toList = a :: r'.toList := by
  unfold pop at h
  split at h
  · cases h
  next hzero =>
    have hpos : 0 < r.count := Nat.pos_of_ne_zero hzero
    obtain ⟨b, hcell, hb⟩ := Option.map_eq_some_iff.mp h
    obtain ⟨rfl, rfl⟩ := Prod.mk.inj hb
    have hrest : (List.range (r.count - 1)).filterMap (r.cell ∘ Nat.succ) = r.tail.toList :=
      List.filterMap_congr fun k hk =>
        (cell_tail (by have := List.mem_range.mp hk; omega)).symm
    obtain ⟨n, hn⟩ := Nat.exists_eq_succ_of_ne_zero hzero
    rw [toList, hn, List.range_succ_eq_map, List.filterMap_cons, cell_zero hpos, hcell,
      List.filterMap_map, ← hrest, hn]
    rfl

/-- Taking an element leaves the room of the ring as it is. -/
theorem capacity_pop {r r' : RingBuffer α} {a : α} (h : r.pop = some (a, r')) :
    r'.capacity = r.capacity := by
  unfold pop at h
  split at h
  · cases h
  · obtain ⟨b, -, hb⟩ := Option.map_eq_some_iff.mp h
    obtain ⟨-, rfl⟩ := Prod.mk.inj hb
    exact List.length_set

/-- Nothing is taken from a ring that holds nothing, and from no other. -/
theorem pop_eq_none {r : RingBuffer α} : r.pop = none ↔ r.count = 0 := by
  unfold pop
  split
  next hzero => simp [hzero]
  next hzero =>
    have hfilled := r.filled 0 (Nat.pos_of_ne_zero hzero)
    have hpos : 0 < r.slots.length := (Nat.pos_of_ne_zero hzero).trans_le r.count_le
    rw [Nat.add_zero, Nat.mod_eq_of_lt (r.head_lt hpos)] at hfilled
    obtain ⟨a, ha⟩ := Option.isSome_iff_exists.mp hfilled
    simp [hzero, ha]

@[simp] theorem length_toList (r : RingBuffer α) : r.toList.length = r.count := by
  have hsome : ∀ k ∈ List.range r.count, (r.cell k).isSome :=
    fun k hk => r.filled k (List.mem_range.mp hk)
  rw [toList, List.filterMap_length_eq_length.mpr hsome, List.length_range]

@[simp] theorem toList_empty (n : Nat) : (empty n : RingBuffer α).toList = [] := rfl

theorem toList_of_pop_eq_none {r : RingBuffer α} (h : r.pop = none) : r.toList = [] := by
  rw [← List.length_eq_zero_iff, length_toList]
  exact pop_eq_none.mp h

end RingBuffer
