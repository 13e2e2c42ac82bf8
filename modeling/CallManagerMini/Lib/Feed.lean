import Mathlib.Data.List.Induction
import Mathlib.Data.List.Nodup
import Mathlib.Logic.Function.Basic
import Mathlib.Order.Defs.Unbundled

/-! # Feeds

News about keyed values: the value a key has now, or that the key is gone.  A feed is exact between
two states if what was added to it turns the view of the one into the view of the other
(`Feed.Exact`); so whoever knows the first state, by a snapshot or because it was empty, and heard
the feed, knows the second (`apply_snapshot`).  Some news may be lost on the way: what counts is the
last one about a key (`apply_heard`).
-/

namespace Feed

variable {κ α σ : Type} [DecidableEq κ]

/-- A view of keyed values after some news. -/
def apply (v : κ → Option α) (news : List (κ × Option α)) : κ → Option α :=
  news.foldl (fun v x => Function.update v x.1 x.2) v

@[simp] theorem apply_nil (v : κ → Option α) : apply v [] = v := rfl

theorem apply_append (v : κ → Option α) (l l' : List (κ × Option α)) :
    apply v (l ++ l') = apply (apply v l) l' := List.foldl_append

@[simp] theorem apply_singleton (v : κ → Option α) (k : κ) (a : Option α) :
    apply v [(k, a)] = Function.update v k a := rfl

/-- Of a key nobody spoke of, the view is what it was. -/
theorem apply_of_notMem {l : List (κ × Option α)} {k : κ} (h : k ∉ l.map fun x => x.1)
    (v : κ → Option α) : apply v l k = v k := by
  induction l generalizing v with
  | nil => rfl
  | cons x l ih =>
    obtain ⟨hx, hl⟩ := not_or.mp (mt List.mem_cons.mpr h)
    show apply (Function.update v x.1 x.2) l k = v k
    rw [ih hl, Function.update_of_ne hx]

/-- A snapshot has every key of the view once, so it does not matter what is known before. -/
theorem apply_snapshot {l : List (κ × Option α)} (hkeys : (l.map fun x => x.1).Nodup)
    {v : κ → Option α} {k : κ} {a : Option α} (h : (k, a) ∈ l) : apply v l k = a := by
  induction l generalizing v with
  | nil => cases h
  | cons x l ih =>
    obtain ⟨hx, hkeys⟩ := List.nodup_cons.mp hkeys
    show apply (Function.update v x.1 x.2) l k = a
    rcases List.mem_cons.mp h with rfl | hl
    · rw [apply_of_notMem hx, Function.update_self]
    · exact ih hkeys hl

/-! ## Lost news -/

/-- News, each with whether it was heard. -/
def heard (l : List ((κ × Option α) × Bool)) : List (κ × Option α) :=
  (l.filter fun x => x.2).map fun x => x.1

/-- The last news about the key, if there are any, was heard. -/
def HeardLast (l : List ((κ × Option α) × Bool)) (k : κ) : Prop :=
  ∀ x ∈ (l.filter fun x => x.1.1 = k).getLast?, x.2 = true

instance (l : List ((κ × Option α) × Bool)) (k : κ) : Decidable (HeardLast l k) := by
  unfold HeardLast; infer_instance

omit [DecidableEq κ] in
theorem heard_append (l l' : List ((κ × Option α) × Bool)) :
    heard (l ++ l') = heard l ++ heard l' := by
  simp [heard]

theorem apply_append_self (v : κ → Option α) (l : List (κ × Option α)) (x : κ × Option α) :
    apply v (l ++ [x]) x.1 = x.2 := by
  rw [apply_append]
  exact Function.update_self ..

theorem apply_append_of_ne {l : List (κ × Option α)} {x : κ × Option α} {k : κ} (hk : x.1 ≠ k)
    (v : κ → Option α) : apply v (l ++ [x]) k = apply v l k := by
  rw [apply_append]
  exact Function.update_of_ne (Ne.symm hk) ..

/-- **Only the last news about a key counts.** -/
theorem apply_heard {l : List ((κ × Option α) × Bool)} {k : κ} (h : HeardLast l k)
    (v : κ → Option α) : apply v (heard l) k = apply v (l.map fun x => x.1) k := by
  induction l using List.reverseRecOn with
  | nil => rfl
  | append_singleton l x ih =>
    rw [heard_append, List.map_append]
    by_cases hk : x.1.1 = k
    · have hx : x.2 = true := h x (by simp [hk])
      have hone : heard [x] = [x.1] := by simp [heard, hx]
      subst hk
      rw [hone, apply_append_self]
      exact (apply_append_self v _ x.1).symm
    · have hl : HeardLast l k := fun y hy => h y (by simpa [hk] using hy)
      refine Eq.trans ?_ (apply_append_of_ne hk v).symm
      rw [← ih hl]
      -- whether it was heard or not, `x` is about another key
      cases hx : x.2 with
      | false => simp [heard, hx]
      | true =>
        have hone : heard [x] = [x.1] := by simp [heard, hx]
        rw [hone]
        exact apply_append_of_ne hk v

/-! ## Exact feeds -/

/-- From `s` to `s'` the feed has grown by what turns the view of `s` into the view of `s'`. -/
def Exact (view : σ → κ → Option α) (told : σ → List (κ × Option α)) (s s' : σ) : Prop :=
  ∃ news, told s' = told s ++ news ∧ apply (view s) news = view s'

namespace Exact
variable {view : σ → κ → Option α} {told : σ → List (κ × Option α)} {s s' s'' : σ}

theorem of_same (htold : told s' = told s) (hview : view s' = view s) : Exact view told s s' :=
  ⟨[], by rw [htold, List.append_nil], hview.symm⟩

theorem of_one {k : κ} {a : Option α} (htold : told s' = told s ++ [(k, a)])
    (hview : view s' = Function.update (view s) k a) : Exact view told s s' :=
  ⟨[(k, a)], htold, hview.symm⟩

/-- News that are no news. -/
theorem of_old {k : κ} {a : Option α} (htold : told s' = told s ++ [(k, a)])
    (hview : view s' = view s) (hold : view s k = a) : Exact view told s s' :=
  .of_one htold (by rw [hview, ← hold, Function.update_eq_self])

theorem trans (h : Exact view told s s') (h' : Exact view told s' s'') : Exact view told s s'' := by
  obtain ⟨l, hl, hv⟩ := h
  obtain ⟨l', hl', hv'⟩ := h'
  exact ⟨l ++ l', by rw [hl', hl, List.append_assoc], by rw [apply_append, hv, hv']⟩

instance : Std.Refl (Exact view told) := ⟨fun _ => .of_same rfl rfl⟩

instance : IsTrans σ (Exact view told) := ⟨fun _ _ _ => trans⟩

end Exact

end Feed
