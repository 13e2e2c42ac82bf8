import Mathlib.Data.List.Basic

/-! # Programs over a state

A `Prog σ α` is a total function from the state it starts in to its result and
the state it leaves.  The `do` notation composes programs; every rule here is
about the state a composition leaves, so that the effect of a long function can
be read off the effects of its parts.

`Moves R m` says that `m` leads from every state to an `R`-related one.  If `R` is
reflexive and transitive, the programs that move along `R` are closed under
composition, branching and loops; the class does the bookkeeping, so that a
program only has to say what its primitive parts do.  `Post m s Q` is the
postcondition of one run, with a rule for each construct.
-/

/-- A program over states `σ` with results in `α`. -/
def Prog (σ α : Type) : Type := σ → α × σ

namespace Prog

variable {σ α β : Type}

/-- Return a value, leaving the state alone. -/
protected def pure (a : α) : Prog σ α := fun s => (a, s)

/-- Run `m`, then `k` on its result. -/
protected def bind (m : Prog σ α) (k : α → Prog σ β) : Prog σ β := fun s => k (m s).1 (m s).2

instance : Monad (Prog σ) where
  pure := Prog.pure
  bind := Prog.bind

/-- Read a part of the state. -/
def gets (f : σ → α) : Prog σ α := fun s => (f s, s)

/-- Replace the state. -/
def modify (f : σ → σ) : Prog σ Unit := fun s => ((), f s)

/-- Run `m` for its effect. -/
def ignore (m : Prog σ α) : Prog σ Unit := fun s => ((), (m s).2)

/-- Run `m` if `c` holds. -/
def when (c : Prop) [Decidable c] (m : Prog σ Unit) : Prog σ Unit := if c then m else Prog.pure ()

/-- Run `f` on the element, if there is one. -/
def forSome : Option β → (β → Prog σ Unit) → Prog σ Unit
  | none, _ => Prog.pure ()
  | some b, f => f b

/-- Run `f` on each element of a list in turn. -/
def forEach : List β → (β → Prog σ Unit) → Prog σ Unit
  | [], _ => Prog.pure ()
  | b :: bs, f => Prog.bind (f b) fun _ => forEach bs f

/-! ## What each construct computes -/

@[simp] theorem pure_apply (a : α) (s : σ) : (pure a : Prog σ α) s = (a, s) := rfl

@[simp] theorem bind_apply (m : Prog σ α) (k : α → Prog σ β) (s : σ) :
    (m >>= k) s = k (m s).1 (m s).2 := rfl

@[simp] theorem gets_apply (f : σ → α) (s : σ) : gets f s = (f s, s) := rfl

@[simp] theorem modify_apply (f : σ → σ) (s : σ) : modify f s = ((), f s) := rfl

@[simp] theorem ignore_apply (m : Prog σ α) (s : σ) : m.ignore s = ((), (m s).2) := rfl

@[simp] theorem forSome_none (f : β → Prog σ Unit) (s : σ) : forSome none f s = ((), s) := rfl

@[simp] theorem forSome_some (b : β) (f : β → Prog σ Unit) : forSome (some b) f = f b := rfl

theorem when_apply (c : Prop) [Decidable c] (m : Prog σ Unit) (s : σ) :
    Prog.when c m s = if c then m s else ((), s) := by
  unfold Prog.when
  split <;> rfl

@[simp] theorem forEach_nil (f : β → Prog σ Unit) (s : σ) : forEach [] f s = ((), s) := rfl

@[simp] theorem forEach_cons (b : β) (bs : List β) (f : β → Prog σ Unit) (s : σ) :
    forEach (b :: bs) f s = forEach bs f (f b s).2 := rfl

@[simp] theorem ite_apply' (c : Prop) [Decidable c] (m n : Prog σ α) (s : σ) :
    (if c then m else n) s = if c then m s else n s := by
  split <;> rfl

/-! ## Moving along a relation -/

/-- From every state, `m` leads to an `R`-related one.  A class, so that the
programs composed of such programs are found to be such programs. -/
class Moves (R : σ → σ → Prop) (m : Prog σ α) : Prop where
  rel : ∀ s, R s (m s).2

section Moves
variable {R : σ → σ → Prop}

instance [Std.Refl R] (a : α) : Moves R (pure a : Prog σ α) := ⟨fun s => refl_of R s⟩

instance [Std.Refl R] (f : σ → α) : Moves R (gets f) := ⟨fun s => refl_of R s⟩

instance [IsTrans σ R] (m : Prog σ α) (k : α → Prog σ β) [Moves R m] [∀ a, Moves R (k a)] :
    Moves R (m >>= k) :=
  ⟨fun s => trans_of R (Moves.rel (m := m) s) (Moves.rel _)⟩

instance (m : Prog σ α) [Moves R m] : Moves R m.ignore := ⟨fun s => Moves.rel (m := m) s⟩

instance (c : Prop) [Decidable c] (m n : Prog σ α) [Moves R m] [Moves R n] :
    Moves R (if c then m else n) := by
  split <;> infer_instance

instance [Std.Refl R] (c : Prop) [Decidable c] (m : Prog σ Unit) [Moves R m] :
    Moves R (Prog.when c m) := by
  unfold Prog.when
  exact inferInstanceAs (Moves R (if c then m else pure ()))

instance [Std.Refl R] (o : Option β) (f : β → Prog σ Unit) [∀ b, Moves R (f b)] :
    Moves R (forSome o f) := by
  cases o with
  | none => exact inferInstanceAs (Moves R (pure ()))
  | some b => exact inferInstanceAs (Moves R (f b))

/-- A loop moves along `R` if its body does. -/
instance [Std.Refl R] [IsTrans σ R] (bs : List β) (f : β → Prog σ Unit) [∀ b, Moves R (f b)] :
    Moves R (forEach bs f) := by
  induction bs with
  | nil => exact ⟨fun s => refl_of R s⟩
  | cons b bs ih => exact ⟨fun s => trans_of R (Moves.rel (m := f b) s) (ih.rel _)⟩

theorem Moves.bind [IsTrans σ R] {m : Prog σ α} {k : α → Prog σ β} (hm : Moves R m)
    (hk : ∀ a, Moves R (k a)) : Moves R (m >>= k) := inferInstance

theorem Moves.of_modify {f : σ → σ} (h : ∀ s, R s (f s)) : Moves R (modify f) := ⟨h⟩

end Moves

/-! ## Postconditions -/

/-- Run from `s`, `m` ends with a result and in a state that satisfy `Q`. -/
def Post (m : Prog σ α) (s : σ) (Q : α → σ → Prop) : Prop := Q (m s).1 (m s).2

section Post
variable {m : Prog σ α} {s : σ} {Q Q' : α → σ → Prop}

theorem Post.mono (h : Post m s Q) (hQ : ∀ a s', Q a s' → Q' a s') : Post m s Q' := hQ _ _ h

theorem Post.and (h : Post m s Q) (h' : Post m s Q') :
    Post m s fun a s' => Q a s' ∧ Q' a s' := ⟨h, h'⟩

/-- Two programs that run alike from `s` have the same postconditions there. -/
theorem Post.congr {m' : Prog σ α} (h : m s = m' s) (hm : Post m' s Q) : Post m s Q := by
  unfold Post
  rwa [h]

theorem Post.pure {a : α} (h : Q a s) : Post (Pure.pure a) s Q := h

theorem Post.gets {f : σ → α} (h : Q (f s) s) : Post (Prog.gets f) s Q := h

theorem Post.modify {f : σ → σ} {Q : Unit → σ → Prop} (h : Q () (f s)) :
    Post (Prog.modify f) s Q := h

theorem Post.bind {k : α → Prog σ β} {Q' : β → σ → Prop} (hm : Post m s Q)
    (hk : ∀ a s', Q a s' → Post (k a) s' Q') : Post (m >>= k) s Q' := hk _ _ hm

theorem Post.bind_gets {f : σ → α} {k : α → Prog σ β} {Q : β → σ → Prop}
    (h : Post (k (f s)) s Q) : Post (Prog.gets f >>= k) s Q := h

theorem Post.bind_modify {f : σ → σ} {k : Unit → Prog σ β} {Q : β → σ → Prop}
    (h : Post (k ()) (f s) Q) : Post (Prog.modify f >>= k) s Q := h

theorem Post.ignore {Q : Unit → σ → Prop} (h : Post m s fun _ s' => Q () s') :
    Post m.ignore s Q := h

/-- A program that moves along `R` ends in an `R`-related state. -/
theorem Post.of_moves {R : σ → σ → Prop} (m : Prog σ α) [Moves R m] (s : σ) :
    Post m s fun _ s' => R s s' := Moves.rel s

theorem Post.ite {c : Prop} [Decidable c] {n : Prog σ α} (hm : c → Post m s Q)
    (hn : ¬c → Post n s Q) : Post (if c then m else n) s Q := by
  split
  · next h => exact hm h
  · next h => exact hn h

theorem Post.when {c : Prop} [Decidable c] {m : Prog σ Unit} {Q : Unit → σ → Prop}
    (hm : c → Post m s Q) (hn : ¬c → Q () s) : Post (Prog.when c m) s Q :=
  Post.ite hm hn

/-- A loop moves along `R` from a state with `P` if its body does, and `R` brings
`P` along. -/
theorem Post.forEach {R : σ → σ → Prop} [Std.Refl R] [IsTrans σ R] {P : σ → Prop}
    (hP : ∀ {s s'}, P s → R s s' → P s') {f : β → Prog σ Unit} {bs : List β}
    (hf : ∀ b ∈ bs, ∀ s, P s → Post (f b) s fun _ s' => R s s') {s : σ} (hs : P s) :
    Post (Prog.forEach bs f) s fun _ s' => R s s' := by
  induction bs generalizing s with
  | nil => exact refl_of R s
  | cons b bs ih =>
    have h1 : R s (f b s).2 := hf b List.mem_cons_self s hs
    have h2 := ih (fun b' hb' => hf b' (List.mem_cons_of_mem _ hb')) (hP hs h1)
    exact trans_of R h1 h2

end Post

end Prog
