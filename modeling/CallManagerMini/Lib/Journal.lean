import Mathlib.Data.List.Basic

/-! # Journals

A journal is a list of events in the order in which they were noted.  It is justified if every
event follows from what was noted before it (`Justified`); the events that are noted next have to
be justified by the whole journal, and what was justified stays so.
-/

namespace Journal

variable {ε : Type} {P : List ε → ε → Prop} {l es : List ε} {e : ε}

/-- Every event follows from those that were noted before it. -/
def Justified (P : List ε → ε → Prop) (l : List ε) : Prop :=
  ∀ before e after, l = before ++ e :: after → P before e

theorem justified_nil : Justified P [] := by
  intro before e after h
  have hlength := congrArg List.length h
  simp at hlength

/-- An event is noted that follows from the journal. -/
theorem Justified.concat (h : Justified P l) (he : P l e) : Justified P (l ++ [e]) := by
  intro before f after heq
  rcases List.eq_nil_or_concat after with rfl | ⟨after', g, rfl⟩
  · obtain ⟨rfl, hlast⟩ := List.append_inj' heq rfl
    obtain rfl := List.singleton_inj.mp hlast
    exact he
  · rw [List.concat_eq_append, ← List.cons_append, ← List.append_assoc] at heq
    exact h before f after' (List.append_inj_left' heq rfl)

/-- Events are noted each of which follows from the journal, whatever else is noted before it. -/
theorem Justified.append (h : Justified P l) (hes : ∀ e ∈ es, ∀ m, P (l ++ m) e) :
    Justified P (l ++ es) := by
  induction es generalizing l with
  | nil => rwa [List.append_nil]
  | cons e es ih =>
    have he : P l e := by
      have hnow := hes e (List.mem_cons_self ..) []
      rwa [List.append_nil] at hnow
    rw [← List.singleton_append, ← List.append_assoc]
    refine ih (h.concat he) fun f hf m => ?_
    rw [List.append_assoc]
    exact hes f (List.mem_cons_of_mem _ hf) _

theorem Justified.mono {Q : List ε → ε → Prop} (h : Justified P l)
    (hPQ : ∀ before e, P before e → Q before e) : Justified Q l :=
  fun before e after heq => hPQ before e (h before e after heq)

end Journal
