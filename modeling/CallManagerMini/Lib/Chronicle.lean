import Mathlib.Data.List.Basic

/-! # Chronicles of keyed values

A chronicle notes that a key entered with a value, and that the value of a key
changed from one value to another.  It tells the truth about a key if the changes
noted of the key form a chain from the value it entered with (`Ends`).
-/

namespace Chronicle

variable {κ α : Type} [DecidableEq κ] [DecidableEq α]

/-- One entry of a chronicle. -/
inductive Note (κ α : Type) where
  | entered (key : κ) (value : α)
  | changed (key : κ) (prior next : α)

/-- The value a note says `k` entered with. -/
def Note.entry (k : κ) : Note κ α → Option α
  | .entered k' a => if k' = k then some a else none
  | .changed .. => none

/-- The change a note says `k` went through. -/
def Note.change (k : κ) : Note κ α → Option (α × α)
  | .changed k' a b => if k' = k then some (a, b) else none
  | .entered .. => none

/-- The value `k` first entered with. -/
def entry (k : κ) (l : List (Note κ α)) : Option α := l.findSome? (Note.entry k)

/-- The changes noted of `k`, in order. -/
def changes (k : κ) (l : List (Note κ α)) : List (α × α) := l.filterMap (Note.change k)

/-- The end of a chain of changes that starts at `a`; `none` if a change does not
start where the one before it ended. -/
def chainEnd (a : α) : List (α × α) → Option α
  | [] => some a
  | (p, n) :: l => if p = a then chainEnd n l else none

/-- Nothing is noted of `k`. -/
def Untold (k : κ) (l : List (Note κ α)) : Prop := entry k l = none ∧ changes k l = []

/-- The changes of `k` form a chain from the value it entered with to `a`. -/
def Ends (k : κ) (a : α) (l : List (Note κ α)) : Prop :=
  ∃ a₀, entry k l = some a₀ ∧ chainEnd a₀ (changes k l) = some a

variable {k : κ} {a b : α} {l m : List (Note κ α)}

theorem chainEnd_append (a : α) (l l' : List (α × α)) :
    chainEnd a (l ++ l') = (chainEnd a l).bind fun b => chainEnd b l' := by
  induction l generalizing a with
  | nil => rfl
  | cons c l ih =>
    obtain ⟨p, n⟩ := c
    by_cases h : p = a
    · simp [chainEnd, h, ih]
    · simp [chainEnd, h]

omit [DecidableEq α] in
theorem entry_append : entry k (l ++ m) = (entry k l).or (entry k m) := by
  simp [entry, List.findSome?_append]

omit [DecidableEq α] in
theorem changes_append : changes k (l ++ m) = changes k l ++ changes k m := by
  simp [changes]

/-! ## Adding notes -/

/-- Notes about other keys leave the story of `k` as it is. -/
theorem Ends.append_untold (h : Ends k a l) (hm : Untold k m) : Ends k a (l ++ m) := by
  obtain ⟨a₀, he, hc⟩ := h
  exact ⟨a₀, by rw [entry_append, he]; rfl, by rw [changes_append, hm.2, List.append_nil, hc]⟩

omit [DecidableEq α] in
theorem Untold.append_untold (h : Untold k l) (hm : Untold k m) : Untold k (l ++ m) :=
  ⟨by rw [entry_append, h.1, hm.1]; rfl, by rw [changes_append, h.2, hm.2]; rfl⟩

/-- A key that enters starts its story. -/
theorem Untold.entered (h : Untold k l) (a : α) : Ends k a (l ++ [.entered k a]) := by
  refine ⟨a, ?_, ?_⟩
  · rw [entry_append, h.1]
    simp [entry, Note.entry]
  · rw [changes_append, h.2]
    rfl

/-- A key that enters again goes on with its story. -/
theorem Ends.entered (h : Ends k a l) (b : α) : Ends k a (l ++ [.entered k b]) := by
  obtain ⟨a₀, he, hc⟩ := h
  refine ⟨a₀, by rw [entry_append, he]; rfl, ?_⟩
  rw [changes_append, show changes k [Note.entered k b] = [] from rfl, List.append_nil, hc]

/-- A change from where the story ended. -/
theorem Ends.changed (h : Ends k a l) (b : α) : Ends k b (l ++ [.changed k a b]) := by
  obtain ⟨a₀, he, hc⟩ := h
  refine ⟨a₀, by rw [entry_append, he]; rfl, ?_⟩
  rw [changes_append, chainEnd_append, hc]
  simp [changes, Note.change, chainEnd]

omit [DecidableEq α] in
theorem untold_nil : Untold k ([] : List (Note κ α)) := ⟨rfl, rfl⟩

omit [DecidableEq α] in
theorem untold_entered {k' : κ} (h : k' ≠ k) (a : α) : Untold k [.entered k' a] := by
  simp [Untold, entry, changes, Note.entry, Note.change, h]

omit [DecidableEq α] in
theorem untold_changed {k' : κ} (h : k' ≠ k) (a b : α) : Untold k [.changed k' a b] := by
  simp [Untold, entry, changes, Note.entry, Note.change, h]

end Chronicle
