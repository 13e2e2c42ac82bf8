import Mathlib.Logic.Function.Basic

/-! # Reference-counted objects

A `Heap α` holds every object ever allocated, reached through references that
are handed out in order and never reused.  An object that is no longer listed
anywhere stays readable through the references still held to it, as an object
behind a strong pointer does.
-/

/-- References to heap objects. -/
abbrev Ref := Nat

/-- Every object allocated so far. -/
structure Heap (α : Type) where
  /-- The object behind each reference. -/
  cell : Ref → α
  /-- The reference the next allocation hands out. -/
  next : Ref

namespace Heap

variable {α : Type}

/-- The object behind `p`. -/
def get (h : Heap α) (p : Ref) : α := h.cell p

/-- Overwrite the object behind `p`. -/
def set (h : Heap α) (p : Ref) (a : α) : Heap α :=
  { h with cell := fun q => if q = p then a else h.cell q }

/-- A new object, behind a reference that was never handed out before. -/
def alloc (h : Heap α) (a : α) : Heap α :=
  { cell := fun q => if q = h.next then a else h.cell q, next := h.next + 1 }

@[simp] theorem get_set_self (h : Heap α) (p : Ref) (a : α) : (h.set p a).get p = a := by
  simp [get, set]

@[simp] theorem get_set_ne (h : Heap α) {p q : Ref} (a : α) (hq : q ≠ p) :
    (h.set p a).get q = h.get q := by
  simp [get, set, hq]

theorem get_set (h : Heap α) (p q : Ref) (a : α) :
    (h.set p a).get q = if q = p then a else h.get q := rfl

@[simp] theorem set_set (h : Heap α) (p : Ref) (a b : α) : (h.set p a).set p b = h.set p b := by
  simp only [set, Heap.mk.injEq, and_true]
  funext q
  split <;> rfl

/-- Writing back what is there changes nothing. -/
@[simp] theorem set_get (h : Heap α) (p : Ref) : h.set p (h.get p) = h := by
  cases h with
  | mk cell next =>
    simp only [set, get, Heap.mk.injEq, and_true]
    funext q
    split
    · next hq => rw [hq]
    · rfl

@[simp] theorem next_set (h : Heap α) (p : Ref) (a : α) : (h.set p a).next = h.next := rfl

@[simp] theorem get_alloc_next (h : Heap α) (a : α) : (h.alloc a).get h.next = a := by
  simp [get, alloc]

@[simp] theorem next_alloc (h : Heap α) (a : α) : (h.alloc a).next = h.next + 1 := rfl

/-- An allocation leaves the objects already handed out alone. -/
theorem get_alloc_of_lt (h : Heap α) {p : Ref} (a : α) (hp : p < h.next) :
    (h.alloc a).get p = h.get p := by
  simp [get, alloc, Nat.ne_of_lt hp]

end Heap
