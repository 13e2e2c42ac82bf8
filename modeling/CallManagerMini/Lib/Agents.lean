import Mathlib.Algebra.BigOperators.Group.List.Basic
import Mathlib.Algebra.GroupWithZero.Nat

/-! # A list of agents of which one moves

A system of many agents keeps them in a list; a move replaces one of them.  What is counted or
summed up over all agents changes by what the one that moves counts before and after
(`countP_set_add`, `sum_set_add`).  What an agent may do once and what it has done of it come to
one at most (`Once`), as long as it does nothing but what it may.
-/

namespace Agents

variable {α : Type} {l : List α} {i j : Nat} {a b d : α}

theorem countP_set_add (p : α → Bool) (b : α) (hi : l[i]? = some a) :
    (l.set i b).countP p + (p a).toNat = l.countP p + (p b).toNat := by
  induction l generalizing i with
  | nil => cases hi
  | cons c l ih =>
    cases i with
    | zero =>
      obtain rfl : c = a := Option.some.inj hi
      rw [List.set_cons_zero, List.countP_cons, List.countP_cons]
      cases p c <;> cases p b <;> simp
    | succ i =>
      have := ih hi
      rw [List.set_cons_succ, List.countP_cons, List.countP_cons]
      omega

theorem forall_set {P : α → Prop} (hl : ∀ a ∈ l, P a) (hb : P b) : ∀ a ∈ l.set i b, P a := by
  intro a ha
  rcases List.mem_or_eq_of_mem_set ha with ha | rfl
  · exact hl a ha
  · exact hb

theorem sum_set_add (f : α → Nat) (b : α) (hi : l[i]? = some a) :
    ((l.set i b).map f).sum + f a = (l.map f).sum + f b := by
  induction l generalizing i with
  | nil => cases hi
  | cons c l ih =>
    cases i with
    | zero =>
      obtain rfl : c = a := Option.some.inj hi
      rw [List.set_cons_zero, List.map_cons, List.map_cons, List.sum_cons, List.sum_cons]
      omega
    | succ i =>
      have := ih hi
      rw [List.set_cons_succ, List.map_cons, List.map_cons, List.sum_cons, List.sum_cons]
      omega

/-- What at most one agent is, another one is not. -/
theorem not_of_countP_le_one {p : α → Bool} (h : l.countP p ≤ 1) (hi : l[i]? = some a) (ha : p a)
    (hj : l[j]? = some d) (hji : j ≠ i) : p d = false := by
  induction l generalizing i j with
  | nil => cases hi
  | cons c l ih =>
    rw [List.countP_cons] at h
    cases i with
    | zero =>
      obtain rfl : c = a := Option.some.inj hi
      rw [if_pos ha] at h
      cases j with
      | zero => exact absurd rfl hji
      | succ j =>
        have hzero := List.countP_eq_zero.mp (Nat.le_zero.mp (Nat.le_of_succ_le_succ h))
        exact Bool.eq_false_iff.mpr (hzero d (List.mem_of_getElem? hj))
    | succ i =>
      cases j with
      | zero =>
        obtain rfl : c = d := Option.some.inj hj
        have hpos : 0 < l.countP p :=
          List.countP_pos_iff.mpr ⟨a, List.mem_of_getElem? (show l[i]? = some a from hi), ha⟩
        refine Bool.eq_false_iff.mpr fun hd => ?_
        rw [if_pos hd] at h
        omega
      | succ j =>
        exact ih (Nat.le_trans (Nat.le_add_right _ _) h) hi hj fun h => hji (congrArg _ h)

/-- After the move an agent is the one that moved, or what it was. -/
theorem of_getElem?_set (hj : (l.set i b)[j]? = some d) :
    (j = i ∧ d = b) ∨ (j ≠ i ∧ l[j]? = some d) := by
  by_cases hji : j = i
  · subst hji
    obtain ⟨hlt, -⟩ := List.getElem?_eq_some_iff.mp hj
    rw [List.getElem?_set_self (by simpa using hlt)] at hj
    exact .inl ⟨rfl, (Option.some.inj hj).symm⟩
  · rw [List.getElem?_set_ne (Ne.symm hji)] at hj
    exact .inr ⟨hji, hj⟩

theorem getElem?_set_self (b : α) (hi : l[i]? = some a) : (l.set i b)[i]? = some b := by
  obtain ⟨hlt, -⟩ := List.getElem?_eq_some_iff.mp hi
  exact List.getElem?_set_self hlt

/-- The agents but the one that changes stay. -/
theorem mem_set_of_mem (b : α) (hi : l[i]? = some a) (hd : d ∈ l) : d = a ∨ d ∈ l.set i b := by
  obtain ⟨j, hj⟩ := List.mem_iff_getElem?.mp hd
  by_cases hij : i = j
  · subst hij
    exact .inl (Option.some.inj (hj.symm.trans hi))
  · exact .inr (List.mem_of_getElem? ((List.getElem?_set_ne hij).trans hj))

/-- A new agent comes behind the others. -/
theorem of_getElem?_append (hj : (l ++ [b])[j]? = some d) :
    (j = l.length ∧ d = b) ∨ l[j]? = some d := by
  rcases Nat.lt_trichotomy j l.length with hlt | rfl | hgt
  · exact .inr (by rwa [List.getElem?_append_left hlt] at hj)
  · rw [List.getElem?_concat_length] at hj
    exact .inl ⟨rfl, (Option.some.inj hj).symm⟩
  · rw [List.getElem?_eq_none (by rw [List.length_append, List.length_singleton]; exact hgt)] at hj
    cases hj

theorem getElem?_append (b : α) (hj : l[j]? = some d) : (l ++ [b])[j]? = some d := by
  obtain ⟨hlt, -⟩ := List.getElem?_eq_some_iff.mp hj
  rw [List.getElem?_append_left hlt, hj]

/-- Where one agent moves, what it may still do and what was done grows for the others no more than
for itself. -/
theorem share_set (f : α → Nat) (done done' : Nat → Nat) (hi : l[i]? = some a)
    (hmove : ∀ j, (if i = j then f b else 0) + done' j ≤ (if i = j then f a else 0) + done j)
    (j : Nat) : (l.set i b)[j]?.elim 0 f + done' j ≤ l[j]?.elim 0 f + done j := by
  have hj := hmove j
  by_cases hij : i = j
  · subst hij
    rw [getElem?_set_self b hi, hi]
    rwa [if_pos rfl, if_pos rfl] at hj
  · rw [List.getElem?_set_ne hij]
    rw [if_neg hij, if_neg hij] at hj
    omega

/-! ## What is done once -/

/-- What an agent may still do and what it has done come to one at most; an agent that is not there
has done nothing. -/
def Once (l : List α) (may : α → Bool) (done : Nat → Nat) : Prop :=
  ∀ i, l[i]?.elim 0 (fun a => (may a).toNat) + done i ≤ if i < l.length then 1 else 0

variable {may : α → Bool} {done done' : Nat → Nat}

theorem once_nil (h : ∀ i, done i = 0) : Once [] may done := by
  intro i
  rw [h i]
  exact Nat.zero_le _

theorem Once.done_le_one (h : Once l may done) (i : Nat) : done i ≤ 1 := by
  have hi := h i
  split at hi <;> omega

/-- An agent that may still do it has not done it. -/
theorem Once.done_eq_zero (h : Once l may done) (hi : l[i]? = some a) (ha : may a = true) :
    done i = 0 := by
  obtain ⟨hlt, -⟩ := List.getElem?_eq_some_iff.mp hi
  have hle := h i
  rw [hi, if_pos hlt, Option.elim_some, ha, Bool.toNat_true] at hle
  omega

/-- What was done belongs to an agent that is there. -/
theorem Once.lt_length (h : Once l may done) (hi : 0 < done i) : i < l.length := by
  have hle := h i
  split at hle
  · assumption
  · omega

theorem Once.mono (h : Once l may done) (hle : ∀ i, done' i ≤ done i) : Once l may done' :=
  fun i => Nat.le_trans (Nat.add_le_add_left (hle i) _) (h i)

/-- **An agent moves**, and does what it may. -/
theorem Once.set (h : Once l may done) (hi : l[i]? = some a)
    (hmove : ∀ j, (if i = j then (may b).toNat else 0) + done' j ≤
      (if i = j then (may a).toNat else 0) + done j) : Once (l.set i b) may done' := by
  intro j
  have hj := h j
  have hle := hmove j
  rw [List.length_set]
  by_cases hij : i = j
  · subst hij
    rw [if_pos rfl, if_pos rfl] at hle
    rw [hi] at hj
    rw [getElem?_set_self b hi]
    simp only [Option.elim_some] at hj ⊢
    omega
  · rw [if_neg hij, if_neg hij] at hle
    rw [List.getElem?_set_ne hij]
    omega

/-- An agent comes. -/
theorem Once.append (h : Once l may done) (b : α) (hle : ∀ i, done' i ≤ done i) :
    Once (l ++ [b]) may done' := by
  intro j
  have hj := h j
  have hdone := hle j
  rw [List.length_append, List.length_singleton]
  rcases Nat.lt_trichotomy j l.length with hlt | rfl | hgt
  · rw [List.getElem?_append_left hlt, if_pos (by omega)]
    rw [if_pos hlt] at hj
    omega
  · rw [List.getElem?_eq_none (Nat.le_refl _), if_neg (Nat.lt_irrefl _)] at hj
    rw [List.getElem?_concat_length, if_pos (Nat.lt_succ_self _), Option.elim_some]
    have hmay := Bool.toNat_le (may b)
    omega
  · rw [if_neg (by omega)] at hj
    rw [List.getElem?_eq_none (by rw [List.length_append, List.length_singleton]; exact hgt),
      if_neg (by omega), Option.elim_none]
    omega

end Agents
