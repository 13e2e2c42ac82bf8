import Mathlib.Logic.Function.Basic

/-! # Pools of slots with a signal

A client claims a free slot of a pool, hands some work to others, is signalled through the slot
when the work is done, takes the signal and gives the slot back.  `holder` says which slot a
client holds and how far it has come, `inUse` which slots are taken, `signals` how many signals
wait at each slot.  `Valid` is what keeps the clients apart: a slot in use has one holder, and a
signal waits at a slot exactly if its holder has been signalled and has not taken it.  A client
that takes a signal therefore takes its own (`Valid.own_signal`), and no signal is left at a free
slot (`Valid.silent_of_free`).
-/

namespace SlotPool

/-- How far the holder of a slot has come. -/
inductive Phase where
  /-- It has the slot; nobody else knows of it. -/
  | claimed
  /-- Others work for it. -/
  | sent
  /-- The work is done, and the signal waits. -/
  | signalled
  /-- It has taken the signal. -/
  | woken
  deriving DecidableEq, Repr

/-- How much work is under way for the holder of a slot. -/
def sentCount : Option (Nat × Phase) → Nat
  | some (_, .sent) => 1
  | _ => 0

theorem eq_sent_of_pos {x : Option (Nat × Phase)} (h : 0 < sentCount x) :
    ∃ k, x = some (k, .sent) := by
  match x, h with
  | some (k, .sent), _ => exact ⟨k, rfl⟩

variable {ι : Type}

/-- The clients and the slots fit. -/
structure Valid (holder : ι → Option (Nat × Phase)) (inUse : List Bool) (signals : List Nat) :
    Prop where
  held : ∀ i k p, holder i = some (k, p) → inUse[k]? = some true
  owned : ∀ k, inUse[k]? = some true → ∃ i p, holder i = some (k, p)
  unique : ∀ i j k p q, holder i = some (k, p) → holder j = some (k, q) → i = j
  length : signals.length = inUse.length
  signalled : ∀ i k, holder i = some (k, .signalled) → signals[k]? = some 1
  silent : ∀ k n, signals[k]? = some n → n ≠ 0 → ∃ i, holder i = some (k, .signalled)

/-- A pool nobody holds a slot of. -/
theorem Valid.fresh {holder : ι → Option (Nat × Phase)} (h : ∀ i, holder i = none) (n : Nat) :
    Valid holder (List.replicate n false) (List.replicate n 0) where
  held i k p hi := by simp [h] at hi
  owned k hk := by
    rw [List.getElem?_replicate] at hk
    split at hk <;> cases hk
  unique i j k p q hi := by simp [h] at hi
  length := by simp
  signalled i k hi := by simp [h] at hi
  silent k n hk hn := by
    rw [List.getElem?_replicate] at hk
    split at hk
    · exact absurd (Option.some.inj hk).symm hn
    · cases hk

namespace Valid

variable {holder : ι → Option (Nat × Phase)} {inUse : List Bool} {signals : List Nat}
  {i : ι} {k n : Nat} {p q : Phase}

/-! ## What a valid pool says -/

theorem lt_length (h : Valid holder inUse signals) (hi : holder i = some (k, p)) :
    k < inUse.length :=
  (List.getElem?_eq_some_iff.mp (h.held i k p hi)).choose

/-- **A signal at a client's slot is its own.** -/
theorem own_signal (h : Valid holder inUse signals) (hi : holder i = some (k, p))
    (hk : signals[k]? = some (n + 1)) : p = .signalled ∧ n = 0 := by
  obtain ⟨j, hj⟩ := h.silent k (n + 1) hk (Nat.succ_ne_zero n)
  obtain rfl := h.unique i j k _ _ hi hj
  have hp : p = .signalled := by
    rw [hj] at hi
    exact (Prod.mk.inj (Option.some.inj hi)).2.symm
  have hone := h.signalled i k hj
  rw [hk] at hone
  exact ⟨hp, Nat.succ.inj (Option.some.inj hone)⟩

/-- **No signal waits at a free slot.** -/
theorem silent_of_free (h : Valid holder inUse signals) (hfree : inUse[k]? = some false) :
    signals[k]? = some 0 := by
  obtain ⟨hlt, -⟩ := List.getElem?_eq_some_iff.mp hfree
  have hlt' : k < signals.length := h.length ▸ hlt
  have hk : signals[k]? = some signals[k] := List.getElem?_eq_getElem hlt'
  by_cases hn : signals[k] = 0
  · rwa [hn] at hk
  · obtain ⟨j, hj⟩ := h.silent k _ hk hn
    rw [h.held j k _ hj] at hfree
    cases hfree

/-- No signal waits at the slot of a client that was not signalled. -/
theorem silent_of_held (h : Valid holder inUse signals) (hi : holder i = some (k, p))
    (hp : p ≠ .signalled) : signals[k]? = some 0 := by
  have hlt : k < signals.length := h.length ▸ h.lt_length hi
  have hk : signals[k]? = some signals[k] := List.getElem?_eq_getElem hlt
  cases hn : signals[k] with
  | zero => rwa [hn] at hk
  | succ n =>
    rw [hn] at hk
    exact absurd (h.own_signal hi hk).1 hp

/-! ## What a client does -/

variable [DecidableEq ι]

/-- A client claims a free slot. -/
theorem claim (h : Valid holder inUse signals) (hi : holder i = none)
    (hk : inUse[k]? = some false) :
    Valid (Function.update holder i (some (k, .claimed))) (inUse.set k true) signals := by
  obtain ⟨hlt, -⟩ := List.getElem?_eq_some_iff.mp hk
  have hother : ∀ j l r, holder j = some (l, r) → l ≠ k := by
    rintro j l r hj rfl
    rw [h.held j l r hj] at hk
    cases hk
  refine ⟨?_, ?_, ?_, by rw [List.length_set]; exact h.length, ?_, ?_⟩
  · intro j l r hj
    by_cases hji : j = i
    · subst hji
      rw [Function.update_self] at hj
      obtain ⟨rfl, -⟩ := Prod.mk.inj (Option.some.inj hj)
      exact List.getElem?_set_self hlt
    · rw [Function.update_of_ne hji] at hj
      rw [List.getElem?_set_ne (hother j l r hj).symm]
      exact h.held j l r hj
  · intro l hl
    by_cases hlk : l = k
    · subst hlk
      exact ⟨i, .claimed, Function.update_self ..⟩
    · rw [List.getElem?_set_ne (Ne.symm hlk)] at hl
      obtain ⟨j, r, hj⟩ := h.owned l hl
      have hji : j ≠ i := by
        rintro rfl
        rw [hi] at hj
        cases hj
      exact ⟨j, r, by rw [Function.update_of_ne hji, hj]⟩
  · intro j j' l r r' hj hj'
    by_cases hji : j = i <;> by_cases hji' : j' = i
    · rw [hji, hji']
    · subst hji
      rw [Function.update_self] at hj
      rw [Function.update_of_ne hji'] at hj'
      exact absurd (Prod.mk.inj (Option.some.inj hj)).1.symm (hother j' l r' hj')
    · subst hji'
      rw [Function.update_self] at hj'
      rw [Function.update_of_ne hji] at hj
      exact absurd (Prod.mk.inj (Option.some.inj hj')).1.symm (hother j l r hj)
    · rw [Function.update_of_ne hji] at hj
      rw [Function.update_of_ne hji'] at hj'
      exact h.unique j j' l r r' hj hj'
  · intro j l hj
    by_cases hji : j = i
    · subst hji
      rw [Function.update_self] at hj
      cases hj
    · rw [Function.update_of_ne hji] at hj
      exact h.signalled j l hj
  · intro l n hl hn
    obtain ⟨j, hj⟩ := h.silent l n hl hn
    have hji : j ≠ i := by
      rintro rfl
      rw [hi] at hj
      cases hj
    exact ⟨j, by rw [Function.update_of_ne hji, hj]⟩

/-- The holder of a slot comes to another phase `q`, and the signals are changed to fit. -/
theorem advance (h : Valid holder inUse signals) (hi : holder i = some (k, p))
    (hn : n = if q = .signalled then 1 else 0) :
    Valid (Function.update holder i (some (k, q))) inUse (signals.set k n) := by
  have hlt : k < signals.length := h.length ▸ h.lt_length hi
  have hother : ∀ j l r, j ≠ i → holder j = some (l, r) → l ≠ k := by
    rintro j l r hji hj rfl
    exact hji (h.unique j i l r p hj hi)
  refine ⟨?_, ?_, ?_, by rw [List.length_set]; exact h.length, ?_, ?_⟩
  · intro j l r hj
    by_cases hji : j = i
    · subst hji
      rw [Function.update_self] at hj
      obtain ⟨rfl, -⟩ := Prod.mk.inj (Option.some.inj hj)
      exact h.held j k p hi
    · rw [Function.update_of_ne hji] at hj
      exact h.held j l r hj
  · intro l hl
    obtain ⟨j, r, hj⟩ := h.owned l hl
    by_cases hji : j = i
    · subst hji
      rw [hi] at hj
      obtain ⟨rfl, -⟩ := Prod.mk.inj (Option.some.inj hj)
      exact ⟨j, q, Function.update_self ..⟩
    · exact ⟨j, r, by rw [Function.update_of_ne hji, hj]⟩
  · intro j j' l r r' hj hj'
    by_cases hji : j = i <;> by_cases hji' : j' = i
    · rw [hji, hji']
    · subst hji
      rw [Function.update_self] at hj
      rw [Function.update_of_ne hji'] at hj'
      exact absurd (Prod.mk.inj (Option.some.inj hj)).1.symm (hother j' l r' hji' hj')
    · subst hji'
      rw [Function.update_self] at hj'
      rw [Function.update_of_ne hji] at hj
      exact absurd (Prod.mk.inj (Option.some.inj hj')).1.symm (hother j l r hji hj)
    · rw [Function.update_of_ne hji] at hj
      rw [Function.update_of_ne hji'] at hj'
      exact h.unique j j' l r r' hj hj'
  · intro j l hj
    by_cases hji : j = i
    · subst hji
      rw [Function.update_self] at hj
      obtain ⟨rfl, rfl⟩ := Prod.mk.inj (Option.some.inj hj)
      rw [List.getElem?_set_self hlt, hn, if_pos rfl]
    · rw [Function.update_of_ne hji] at hj
      rw [List.getElem?_set_ne (hother j l _ hji hj).symm]
      exact h.signalled j l hj
  · intro l m hl hm
    by_cases hlk : l = k
    · subst hlk
      rw [List.getElem?_set_self hlt] at hl
      have hq : q = .signalled := by
        by_contra hq
        rw [if_neg hq] at hn
        exact hm ((Option.some.inj hl).symm.trans hn)
      exact ⟨i, by rw [Function.update_self, hq]⟩
    · rw [List.getElem?_set_ne (Ne.symm hlk)] at hl
      obtain ⟨j, hj⟩ := h.silent l m hl hm
      have hji : j ≠ i := by
        rintro rfl
        rw [hi] at hj
        exact hlk (Prod.mk.inj (Option.some.inj hj)).1.symm
      exact ⟨j, by rw [Function.update_of_ne hji, hj]⟩

/-- A phase in which no signal waits is followed by another such phase. -/
theorem move (h : Valid holder inUse signals) (hi : holder i = some (k, p)) (hp : p ≠ .signalled)
    (hq : q ≠ .signalled) : Valid (Function.update holder i (some (k, q))) inUse signals := by
  have hsilent : signals.set k 0 = signals := by
    obtain ⟨hlt, hzero⟩ := List.getElem?_eq_some_iff.mp (h.silent_of_held hi hp)
    rw [← hzero, List.set_getElem_self]
  rw [← hsilent]
  exact h.advance hi (if_neg hq).symm

/-- The holder of a slot at which no signal waits gives it back. -/
theorem release (h : Valid holder inUse signals) (hi : holder i = some (k, p))
    (hp : p ≠ .signalled) :
    Valid (Function.update holder i none) (inUse.set k false) signals := by
  have hlt := h.lt_length hi
  have hother : ∀ j l r, j ≠ i → holder j = some (l, r) → l ≠ k := by
    rintro j l r hji hj rfl
    exact hji (h.unique j i l r p hj hi)
  have hrest : ∀ j l r, Function.update holder i none j = some (l, r) →
      j ≠ i ∧ holder j = some (l, r) := by
    intro j l r hj
    by_cases hji : j = i
    · subst hji
      rw [Function.update_self] at hj
      cases hj
    · rw [Function.update_of_ne hji] at hj
      exact ⟨hji, hj⟩
  refine ⟨?_, ?_, ?_, by rw [List.length_set]; exact h.length, ?_, ?_⟩
  · intro j l r hj
    obtain ⟨hji, hj⟩ := hrest j l r hj
    rw [List.getElem?_set_ne (hother j l r hji hj).symm]
    exact h.held j l r hj
  · intro l hl
    by_cases hlk : l = k
    · subst hlk
      rw [List.getElem?_set_self hlt] at hl
      cases hl
    · rw [List.getElem?_set_ne (Ne.symm hlk)] at hl
      obtain ⟨j, r, hj⟩ := h.owned l hl
      have hji : j ≠ i := by
        rintro rfl
        rw [hi] at hj
        exact hlk (Prod.mk.inj (Option.some.inj hj)).1.symm
      exact ⟨j, r, by rw [Function.update_of_ne hji, hj]⟩
  · intro j j' l r r' hj hj'
    exact h.unique j j' l r r' (hrest j l r hj).2 (hrest j' l r' hj').2
  · intro j l hj
    exact h.signalled j l (hrest j l _ hj).2
  · intro l n hl hn
    obtain ⟨j, hj⟩ := h.silent l n hl hn
    have hji : j ≠ i := by
      rintro rfl
      rw [hi] at hj
      exact hp (Prod.mk.inj (Option.some.inj hj)).2
    exact ⟨j, by rw [Function.update_of_ne hji, hj]⟩

/-- The holder takes its signal and gives the slot back at once. -/
theorem collect (h : Valid holder inUse signals) (hi : holder i = some (k, p)) :
    Valid (Function.update holder i none) (inUse.set k false) (signals.set k 0) := by
  have hwoken := h.advance (q := .woken) hi rfl
  have hnone := hwoken.release (Function.update_self ..) (by decide)
  rwa [Function.update_idem] at hnone

end Valid

end SlotPool
