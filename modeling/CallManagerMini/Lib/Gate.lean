import Mathlib.Data.List.Basic

/-! # Machines with a gate

A machine answers each action and moves on.  Its gate turns some of the actions away, with an
answer that the action alone decides.  If the gate is closed to them, that is, if such an action
leaves the machine as it is, a run of the machine and the run without them pass through the same
states, and the actions that are let in get the same answers (`Closed.run_purge`).  What is turned
away learns nothing of the machine, and the others learn nothing of it (`Closed.answers`).
-/

namespace Gate

variable {σ A R : Type} {act : A → σ → R × σ} {gate : A → Option R}

/-- Each action of a run with its answer, and the state at the end. -/
def run (act : A → σ → R × σ) : List A → σ → List (A × R) × σ
  | [], s => ([], s)
  | a :: as, s =>
    let r := act a s
    let rest := run act as r.2
    ((a, r.1) :: rest.1, rest.2)

/-- The actions that are let in. -/
def purge (gate : A → Option R) (as : List A) : List A := as.filter fun a => (gate a).isNone

/-- What is turned away leaves the machine as it is. -/
def Closed (act : A → σ → R × σ) (gate : A → Option R) : Prop :=
  ∀ a ret s, gate a = some ret → act a s = (ret, s)

/-- **What is turned away does not interfere.** -/
theorem Closed.run_purge (h : Closed act gate) (as : List A) (s : σ) :
    run act (purge gate as) s =
      ((run act as s).1.filter fun x => (gate x.1).isNone, (run act as s).2) := by
  induction as generalizing s with
  | nil => rfl
  | cons a as ih =>
    cases hgate : gate a with
    | none =>
      have hin : purge gate (a :: as) = a :: purge gate as := by simp [purge, hgate]
      simp [hin, run, ih, hgate]
    | some ret =>
      have hout : purge gate (a :: as) = purge gate as := by simp [purge, hgate]
      simp [hout, run, ih, hgate, h a ret s hgate]

/-- **What is turned away learns nothing.** -/
theorem Closed.answers (h : Closed act gate) (as : List A) (s : σ) :
    ∀ x ∈ (run act as s).1, ∀ ret, gate x.1 = some ret → x.2 = ret := by
  induction as generalizing s with
  | nil => simp [run]
  | cons a as ih =>
    intro x hx ret hret
    rcases List.mem_cons.mp hx with rfl | hx
    · show (act a s).1 = ret
      rw [h a ret s hret]
    · exact ih _ x hx ret hret

end Gate
