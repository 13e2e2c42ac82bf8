import Mathlib.Logic.Relation

/-! # Runs of a transition system

A transition system is a set of initial states and a step relation.  What one
step preserves, every run preserves (`Reachable.invariant`); an invariant may be
proved with the help of one that is already known (`Reachable.invariant_of`).
-/

namespace Runs

variable {σ : Type} {init : σ → Prop} {step : σ → σ → Prop}

/-- The states some run reaches. -/
inductive Reachable (init : σ → Prop) (step : σ → σ → Prop) : σ → Prop where
  | start {s : σ} : init s → Reachable init step s
  | next {s s' : σ} : Reachable init step s → step s s' → Reachable init step s'

/-- **The invariant rule.** -/
theorem Reachable.invariant {I : σ → Prop} (h0 : ∀ s, init s → I s)
    (h1 : ∀ s s', I s → step s s' → I s') {s : σ} (hs : Reachable init step s) : I s := by
  induction hs with
  | start h => exact h0 _ h
  | next _ hstep ih => exact h1 _ _ ih hstep

/-- The invariant rule, with a known invariant `J` at hand. -/
theorem Reachable.invariant_of {I J : σ → Prop} (hJ : ∀ s, Reachable init step s → J s)
    (h0 : ∀ s, init s → I s) (h1 : ∀ s s', J s → I s → step s s' → I s') {s : σ}
    (hs : Reachable init step s) : I s := by
  induction hs with
  | start h => exact h0 _ h
  | next hprev hstep ih => exact h1 _ _ (hJ _ hprev) ih hstep

/-- A system with more steps reaches more states. -/
theorem Reachable.mono {step' : σ → σ → Prop} (h : ∀ s s', step s s' → step' s s') {s : σ}
    (hs : Reachable init step s) : Reachable init step' s := by
  induction hs with
  | start h0 => exact .start h0
  | next _ hstep ih => exact ih.next (h _ _ hstep)

/-- Several steps of a machine whose actions may be refused. -/
theorem Reachable.foldlM {A : Type} {step? : A → σ → Option σ} {as : List A} {s s' : σ}
    (hs : Reachable init (fun s s' => ∃ a, step? a s = some s') s)
    (h : as.foldlM (fun s a => step? a s) s = some s') :
    Reachable init (fun s s' => ∃ a, step? a s = some s') s' := by
  induction as generalizing s with
  | nil =>
    obtain rfl := Option.some.inj h
    exact hs
  | cons a as ih =>
    obtain ⟨s₁, hstep, hrest⟩ := Option.bind_eq_some_iff.mp h
    exact ih (hs.next ⟨a, hstep⟩) hrest

/-! ## Machines with actions -/

section Actions
variable {A : Type} {act : A → σ → σ} {ok : A → σ → Prop}

/-- The steps of a machine whose actions are taken where they are allowed. -/
def Step (act : A → σ → σ) (ok : A → σ → Prop) (s s' : σ) : Prop := ∃ a, ok a s ∧ s' = act a s

/-- Every action of a run is allowed in the state it is taken in. -/
def Allowed (act : A → σ → σ) (ok : A → σ → Prop) : List A → σ → Prop
  | [], _ => True
  | a :: as, s => ok a s ∧ Allowed act ok as (act a s)

instance Allowed.decidable [∀ a s, Decidable (ok a s)] :
    ∀ (as : List A) (s : σ), Decidable (Allowed act ok as s)
  | [], _ => inferInstanceAs (Decidable True)
  | a :: as, s =>
    have := Allowed.decidable as (act a s)
    inferInstanceAs (Decidable (ok a s ∧ Allowed act ok as (act a s)))

/-- Everything is allowed where no action ever is refused. -/
theorem allowed_of_forall (h : ∀ a s, ok a s) : ∀ (as : List A) (s : σ), Allowed act ok as s
  | [], _ => trivial
  | a :: as, s => ⟨h a s, allowed_of_forall h as (act a s)⟩

theorem allowed_append {as bs : List A} {s : σ} :
    Allowed act ok (as ++ bs) s ↔
      Allowed act ok as s ∧ Allowed act ok bs (as.foldl (fun s a => act a s) s) := by
  induction as generalizing s with
  | nil => exact (iff_of_eq (true_and _)).symm
  | cons a as ih => exact (and_congr_right fun _ => ih).trans and_assoc.symm

/-- A run of allowed actions. -/
theorem Reachable.run {as : List A} {s : σ} (hs : Reachable init (Step act ok) s)
    (has : Allowed act ok as s) :
    Reachable init (Step act ok) (as.foldl (fun s a => act a s) s) := by
  induction as generalizing s with
  | nil => exact hs
  | cons a as ih => exact ih (hs.next ⟨a, has.1, rfl⟩) has.2

end Actions

/-! ## Runs with labels -/

section Labelled
variable {τ L : Type} {tr : L → σ → σ → Prop} {tr' : L → τ → τ → Prop} {ls : List L} {s s' : σ}

/-- A run from one state to another, each of whose steps has a label. -/
inductive Labelled (tr : L → σ → σ → Prop) : List L → σ → σ → Prop where
  | nil {s : σ} : Labelled tr [] s s
  | cons {l : L} {ls : List L} {s s₁ s' : σ} : tr l s s₁ → Labelled tr ls s₁ s' →
    Labelled tr (l :: ls) s s'

/-- What every step of a run keeps to, its two ends do. -/
theorem Labelled.relation {R : σ → σ → Prop} (hrefl : ∀ s, R s s)
    (htrans : ∀ s s₁ s', R s s₁ → R s₁ s' → R s s') {I : σ → Prop}
    (hstep : ∀ l s s', I s → tr l s s' → I s' ∧ R s s') (h : Labelled tr ls s s') (hs : I s) :
    R s s' := by
  induction h with
  | nil => exact hrefl _
  | cons hfirst _ ih =>
    obtain ⟨hI, hR⟩ := hstep _ _ _ hs hfirst
    exact htrans _ _ _ hR (ih hI)

/-- **Refinement**: if each step of a machine is one of another machine with the same label, as long
as `I` holds, each run is. -/
theorem Labelled.refines {view : σ → τ} {I : σ → Prop}
    (hstep : ∀ l s s', I s → tr l s s' → I s' ∧ tr' l (view s) (view s'))
    (h : Labelled tr ls s s') (hs : I s) : Labelled tr' ls (view s) (view s') := by
  induction h with
  | nil => exact .nil
  | cons hfirst _ ih =>
    obtain ⟨hI, hview⟩ := hstep _ _ _ hs hfirst
    exact .cons hview (ih hI)

end Labelled

end Runs
