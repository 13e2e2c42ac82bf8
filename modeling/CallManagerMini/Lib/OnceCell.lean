import Mathlib.Data.List.Induction

/-! # A cell that is filled once

A cell is filled with a value, the value is published, returned to those who ask, and destroyed;
then the cell may be filled again.  A log of these events is orderly if they come in this order
(`phase`).  In an orderly log a value is destroyed before the next one is constructed
(`destroyed_between`), and what is returned is the last value that was constructed, and was
published (`published_before`).
-/

namespace OnceCell

variable {α : Type}

/-- What happens to the cell. -/
inductive Event (α : Type) where
  | constructed (a : α)
  | published (a : α)
  | returned (result : Option α)
  | destroyed (a : α)
  deriving DecidableEq, Repr

/-- What there is of a value. -/
inductive Phase (α : Type) where
  | absent
  | made (a : α)
  | published (a : α)
  deriving DecidableEq, Repr

/-- The phase holds the value. -/
def Phase.Holds (a : α) (p : Phase α) : Prop := p = .made a ∨ p = .published a

/-- The event neither brings a value nor takes one away. -/
def Event.Neutral : Event α → Prop
  | .constructed _ | .destroyed _ => False
  | .published _ | .returned _ => True

variable [DecidableEq α]

/-- The phase after an event; `none` if the event may not happen. -/
def Phase.next : Phase α → Event α → Option (Phase α)
  | .absent, .constructed a => some (.made a)
  | .made a, .published b => if b = a then some (.published a) else none
  | .published a, .destroyed b => if b = a then some .absent else none
  | .published a, .returned (some b) => if b = a then some (.published a) else none
  | p, .returned none => some p
  | _, _ => none

/-- The phase after a log that begins with nothing; `none` if the log is not orderly. -/
def phase (log : List (Event α)) : Option (Phase α) := log.foldlM Phase.next .absent

variable {a b : α} {e : Event α} {p p' : Phase α} {l l₁ l₂ l₃ : List (Event α)}

theorem phase_append_event (l : List (Event α)) (e : Event α) :
    phase (l ++ [e]) = (phase l).bind (·.next e) := by
  unfold phase
  rw [List.foldlM_append]
  refine congrArg _ (funext fun p => ?_)
  rw [List.foldlM_cons]
  exact bind_pure _

/-- The events that may happen. -/
theorem Phase.next_cases (h : p.next e = some p') :
    (∃ a, p = .absent ∧ e = .constructed a ∧ p' = .made a) ∨
    (∃ a, p = .made a ∧ e = .published a ∧ p' = .published a) ∨
    (∃ a, p = .published a ∧ e = .destroyed a ∧ p' = .absent) ∨
    (∃ result, e = .returned result ∧ (∀ a, result = some a → p = .published a) ∧ p' = p) := by
  cases e with
  | constructed a =>
    cases p with
    | absent => exact .inl ⟨a, rfl, rfl, (Option.some.inj h).symm⟩
    | made _ => cases h
    | published _ => cases h
  | published a =>
    cases p with
    | absent => cases h
    | made b =>
      obtain ⟨rfl, hp⟩ := Option.ite_none_right_eq_some.mp h
      exact .inr (.inl ⟨a, rfl, rfl, (Option.some.inj hp).symm⟩)
    | published _ => cases h
  | returned result =>
    refine .inr (.inr (.inr ⟨result, rfl, ?_⟩))
    cases result with
    | none => cases p <;> exact ⟨fun _ h => (by cases h), (Option.some.inj h).symm⟩
    | some a =>
      cases p with
      | absent => cases h
      | made _ => cases h
      | published b =>
        obtain ⟨rfl, hp⟩ := Option.ite_none_right_eq_some.mp h
        exact ⟨fun _ ha => Option.some.inj ha ▸ rfl, (Option.some.inj hp).symm⟩
  | destroyed a =>
    cases p with
    | absent => cases h
    | made _ => cases h
    | published b =>
      obtain ⟨rfl, hp⟩ := Option.ite_none_right_eq_some.mp h
      exact .inr (.inr (.inl ⟨a, rfl, rfl, (Option.some.inj hp).symm⟩))

/-- A value stays until it is destroyed. -/
theorem Phase.Holds.next (h : p.Holds a) (he : e ≠ .destroyed a) (hnext : p.next e = some p') :
    p'.Holds a := by
  obtain ⟨b, rfl, -, -⟩ | ⟨b, rfl, -, rfl⟩ | ⟨b, rfl, rfl, -⟩ | ⟨_, -, -, rfl⟩ :=
    Phase.next_cases hnext
  · obtain h | h := h <;> cases h
  · obtain h | h := h
    · cases h
      exact .inr rfl
    · cases h
  · obtain h | h := h
    · cases h
    · cases h
      exact absurd rfl he
  · exact h

theorem Phase.Holds.run (h : p.Holds a) (hl : .destroyed a ∉ l)
    (hrun : l.foldlM Phase.next p = some p') : p'.Holds a := by
  induction l generalizing p with
  | nil =>
    obtain rfl := Option.some.inj hrun
    exact h
  | cons e l ih =>
    obtain ⟨q, hnext, hrest⟩ := Option.bind_eq_some_iff.mp hrun
    exact ih (h.next (fun he => hl (he ▸ List.mem_cons_self)) hnext)
      (fun hmem => hl (List.mem_cons_of_mem _ hmem)) hrest

/-- **At most one value between two destructions.** -/
theorem destroyed_between
    (h : phase (l₁ ++ .constructed a :: (l₂ ++ .constructed b :: l₃)) ≠ none) :
    .destroyed a ∈ l₂ := by
  obtain ⟨last, hlast⟩ := Option.ne_none_iff_exists'.mp h
  unfold phase at hlast
  rw [List.foldlM_append] at hlast
  obtain ⟨p₁, -, hlast⟩ := Option.bind_eq_some_iff.mp hlast
  obtain ⟨p₂, hmade, hlast⟩ := Option.bind_eq_some_iff.mp hlast
  rw [List.foldlM_append] at hlast
  obtain ⟨p₃, hrun, hlast⟩ := Option.bind_eq_some_iff.mp hlast
  obtain ⟨p₄, hnext, -⟩ := Option.bind_eq_some_iff.mp hlast
  by_contra hmem
  have hholds : p₂.Holds a := by
    obtain ⟨_, -, h, rfl⟩ | ⟨_, -, h, -⟩ | ⟨_, -, h, -⟩ | ⟨_, h, -, -⟩ := Phase.next_cases hmade
    · cases h
      exact .inl rfl
    · cases h
    · cases h
    · cases h
  obtain rfl | rfl := hholds.run hmem hrun
  · cases hnext
  · cases hnext

/-- The last value that was constructed, and what has happened since. -/
theorem constructed_before (h : phase l = some p) (hp : p.Holds a) :
    ∃ l₁ l₂, l = l₁ ++ .constructed a :: l₂ ∧ (∀ e ∈ l₂, e.Neutral) ∧
      (p = .published a → .published a ∈ l₂) := by
  induction l using List.reverseRecOn generalizing p with
  | nil =>
    obtain rfl := Option.some.inj h
    obtain h | h := hp <;> cases h
  | append_singleton l e ih =>
    rw [phase_append_event] at h
    obtain ⟨q, hq, hnext⟩ := Option.bind_eq_some_iff.mp h
    have hstay : q.Holds a → e.Neutral → (p = .published a → q = .published a ∨ e = .published a) →
        ∃ l₁ l₂, l ++ [e] = l₁ ++ .constructed a :: l₂ ∧ (∀ e ∈ l₂, e.Neutral) ∧
          (p = .published a → .published a ∈ l₂) := by
      intro hqa he hpub
      obtain ⟨l₁, l₂, rfl, hneutral, hmem⟩ := ih hq hqa
      refine ⟨l₁, l₂ ++ [e], by simp, ?_, fun hp => ?_⟩
      · intro e' he'
        obtain he' | he' := List.mem_append.mp he'
        · exact hneutral e' he'
        · rwa [List.mem_singleton.mp he']
      · obtain hq | rfl := hpub hp
        · exact List.mem_append_left _ (hmem hq)
        · simp
    obtain ⟨b, -, rfl, rfl⟩ | ⟨b, rfl, rfl, rfl⟩ | ⟨b, -, -, rfl⟩ | ⟨_, rfl, -, rfl⟩ :=
      Phase.next_cases hnext
    · obtain h | h := hp
      · cases h
        exact ⟨l, [], rfl, by simp, fun h => by cases h⟩
      · cases h
    · obtain h | h := hp
      · cases h
      · cases h
        exact hstay (.inl rfl) trivial fun _ => .inr rfl
    · obtain h | h := hp <;> cases h
    · exact hstay hp trivial .inl

/-- **What is returned was published**, and it is the last value that was constructed. -/
theorem published_before (h : phase (l₁ ++ .returned (some a) :: l₂) ≠ none) :
    ∃ l₀ l, l₁ = l₀ ++ .constructed a :: l ∧ (∀ e ∈ l, e.Neutral) ∧ .published a ∈ l := by
  obtain ⟨last, hlast⟩ := Option.ne_none_iff_exists'.mp h
  unfold phase at hlast
  rw [List.foldlM_append] at hlast
  obtain ⟨p, hp, hlast⟩ := Option.bind_eq_some_iff.mp hlast
  obtain ⟨p', hnext, -⟩ := Option.bind_eq_some_iff.mp hlast
  obtain ⟨_, -, h, -⟩ | ⟨_, -, h, -⟩ | ⟨_, -, h, -⟩ | ⟨_, h, hpublished, -⟩ :=
    Phase.next_cases hnext
  · cases h
  · cases h
  · cases h
  · cases h
    obtain rfl := hpublished a rfl
    obtain ⟨l₀, l, hl, hneutral, hmem⟩ := constructed_before (a := a) hp (.inr rfl)
    exact ⟨l₀, l, hl, hneutral, hmem rfl⟩

end OnceCell
