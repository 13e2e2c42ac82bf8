import Mathlib.Algebra.Order.BigOperators.Group.List
import Mathlib.Algebra.Order.Group.Nat
import CallManagerMini.Lib.Agents
import CallManagerMini.RefBase

/-! # Reference counting is exact

A task in the middle of an operation still has, or already has, references that no `sptr` or `wptr`
stands for; it may also have the object to destroy or the counter to delete (`RefPc.tally`).  What a
step does to the counts, it does to what its task has (`RefTask.step_move`), so that with these both
counts are those of all references (`RefSystem.Inv`).  Hence the object and the counter go when they
have to, and no sooner (`RefSystem.counting_exact`).
-/

namespace CallManagerMini

/-! ## What a task holds -/

/-- What is counted for a task, and what it is about to do that is done once. -/
structure RefTally where
  /-- Strong references. -/
  strongs : Nat := 0
  /-- Weak references, one of them for each strong one. -/
  weaks : Nat := 0
  /-- The first `sptr` is being made, and is not counted yet. -/
  creating : Nat := 0
  /-- The last strong reference was given up, and the destructor is to be entered. -/
  destroying : Nat := 0
  /-- The destructor was entered, and the memory is still to be freed. -/
  dying : Nat := 0
  /-- The last weak reference was given up, and the counter is to be deleted. -/
  freeing : Nat := 0
  deriving DecidableEq, Repr

/-- `promote` has a strong reference of its own while it makes the `sptr`. -/
def RefGoal.own : RefGoal → Nat
  | .create | .copy => 0
  | .promote => 1

def RefGoal.creating : RefGoal → Nat
  | .create => 1
  | .copy | .promote => 0

/-- What an operation has, apart from the references the task owns.  In the destructor this is also
the weak reference of the living object. -/
def RefPc.tally : RefPc → RefTally
  | .idle | .getRefCounter | .attach | .copyWeak | .attemptLoad | .attemptExchange _ => {}
  | .getStrongCount goal | .incWeak goal _ =>
    { strongs := goal.own, weaks := goal.own, creating := goal.creating }
  | .incStrong goal _ =>
    { strongs := goal.own, weaks := goal.own + 1, creating := goal.creating }
  | .onFirstStrongRef goal => { strongs := goal.own + 1, weaks := goal.own + 1 }
  | .decStrong promoted => { strongs := promoted.toNat + 1, weaks := promoted.toNat + 1 }
  | .onLastStrongRef promoted | .destroy promoted =>
    { strongs := promoted.toNat, weaks := promoted.toNat + 1, destroying := 1 }
  | .objectWeak promoted =>
    { strongs := promoted.toNat, weaks := promoted.toNat + 2, dying := 1 }
  | .objectCounter promoted =>
    { strongs := promoted.toNat, weaks := promoted.toNat + 1, dying := 1, freeing := 1 }
  | .freeObject promoted =>
    { strongs := promoted.toNat, weaks := promoted.toNat + 1, dying := 1 }
  | .decWeak promoted => { strongs := promoted.toNat, weaks := promoted.toNat + 1 }
  | .deleteCounter promoted =>
    { strongs := promoted.toNat, weaks := promoted.toNat, freeing := 1 }
  | .detach => { weaks := 1 }
  | .detachCounter => { freeing := 1 }
  | .attemptWeak => { strongs := 1 }

/-- The next step uses the object as one that is alive: it reads `refs_`, calls a virtual function
or enters the destructor. -/
def RefPc.usesObject : RefPc → Bool
  | .getStrongCount _ | .incWeak _ _ | .incStrong _ _ | .onFirstStrongRef _ | .decStrong _
  | .onLastStrongRef _ | .destroy _ | .getRefCounter => true
  | _ => false

/-- The next step reads or writes one of the counts, or deletes the counter. -/
def RefPc.usesCounter : RefPc → Bool
  | .getStrongCount _ | .incWeak _ _ | .incStrong _ _ | .decStrong _ | .objectWeak _
  | .objectCounter _ | .decWeak _ | .deleteCounter _ | .attach | .copyWeak | .detach
  | .detachCounter | .attemptLoad | .attemptExchange _ | .attemptWeak => true
  | _ => false

/-- The operation is `promote`. -/
def RefPc.promoting : RefPc → Bool
  | .attemptLoad | .attemptExchange _ | .attemptWeak => true
  | .getStrongCount goal | .incWeak goal _ | .incStrong goal _ | .onFirstStrongRef goal =>
    goal = .promote
  | .decStrong promoted | .onLastStrongRef promoted | .destroy promoted | .objectWeak promoted
  | .objectCounter promoted | .freeObject promoted | .decWeak promoted
  | .deleteCounter promoted => promoted
  | _ => false

/-- What a step does to the object and its counter, it does to what the task has.  A count comes to
zero by a step of the task that goes on to destroy or to delete. -/
inductive RefMove (t t' : RefTally) (s : RefBase) : RefBase → Prop where
  | still (h : t' = t) : RefMove t t' s s
  | incWeak (hsource : 0 < t.weaks ∨ 0 < t.creating) (h : t' = { t with weaks := t.weaks + 1 }) :
      RefMove t t' s { s with weak := s.weak + 1 }
  | incStrong (hsource : 0 < t.strongs ∨ 0 < s.strong)
      (h : t' = { t with strongs := t.strongs + 1 }) :
      RefMove t t' s { s with strong := s.strong + 1 }
  | create (hfirst : t.creating = 1)
      (h : t' = { t with strongs := t.strongs + 1, creating := 0 }) :
      RefMove t t' s { s with strong := s.strong + 1 }
  | decStrong (hmore : s.strong ≠ 1) (h : t = { t' with strongs := t'.strongs + 1 }) :
      RefMove t t' s { s with strong := s.strong - 1 }
  | lastStrong (hlast : s.strong = 1) (hfirst : t'.destroying = 1)
      (h : t = { t' with strongs := t'.strongs + 1, destroying := 0 }) :
      RefMove t t' s { s with strong := s.strong - 1 }
  | destroy (hfirst : t.destroying = 1) (hsame : t.dying = 0)
      (h : t' = { t with destroying := 0, dying := 1, weaks := t.weaks + 1 }) :
      RefMove t t' s { s with destroyed := s.destroyed + 1 }
  | freeObject (hfirst : t.dying = 1) (h : t' = { t with dying := 0 }) :
      RefMove t t' s { s with objectFreed := s.objectFreed + 1 }
  | decWeak (hmore : s.weak ≠ 1) (h : t = { t' with weaks := t'.weaks + 1 }) :
      RefMove t t' s { s with weak := s.weak - 1 }
  | lastWeak (hlast : s.weak = 1) (hfirst : t'.freeing = 1)
      (h : t = { t' with weaks := t'.weaks + 1, freeing := 0 }) :
      RefMove t t' s { s with weak := s.weak - 1 }
  | freeCounter (hfirst : t.freeing = 1) (h : t' = { t with freeing := 0 }) :
      RefMove t t' s { s with counterFreed := s.counterFreed + 1 }

namespace RefTask

/-- What is counted for a task: an `sptr` is a strong and a weak reference. -/
def tally (task : RefTask) : RefTally :=
  { task.pc.tally with
    strongs := task.sptrs + task.pc.tally.strongs
    weaks := task.sptrs + task.wptrs + task.pc.tally.weaks }

/-- An operation goes out from a reference that the task has. -/
def Sourced (task : RefTask) : Prop :=
  match task.pc with
  | .getStrongCount .copy | .incWeak .copy _ | .incStrong .copy _ | .getRefCounter | .attach =>
    0 < task.sptrs
  | .copyWeak | .attemptLoad | .attemptWeak => 0 < task.wptrs
  | .attemptExchange current => 0 < task.wptrs ∧ 0 < current
  | _ => True

variable {task task' : RefTask} {s s' : RefBase} {granted : Bool} {goal : RefGoal}
  {promoted : Bool} {op : RefOp}

theorem Sourced.add (h : task.Sourced) (hsptrs : task.sptrs ≤ task'.sptrs)
    (hwptrs : task.wptrs ≤ task'.wptrs) (hpc : task'.pc = task.pc) : task'.Sourced := by
  unfold Sourced at *
  rw [hpc]
  split at h <;> omega

/-- When `IncStrongRef` returns, what it has counted is an `sptr`, or there are two of which
`promote` gives up one. -/
theorem tally_counted : (task.counted goal).tally =
    { strongs := task.sptrs + (goal.own + 1)
      weaks := task.sptrs + task.wptrs + (goal.own + 1) } := by
  cases goal <;> simp [counted, tally, RefPc.tally, RefGoal.own] <;> omega

theorem sourced_counted : (task.counted goal).Sourced := by cases goal <;> trivial

theorem tally_dropped : (task.dropped promoted).tally =
    { strongs := task.sptrs + promoted.toNat
      weaks := task.sptrs + task.wptrs + promoted.toNat } := by
  cases promoted <;> simp [dropped, tally, RefPc.tally]
  omega

theorem sourced_dropped : (task.dropped promoted).Sourced := by cases promoted <;> trivial

theorem tally_attempt {current : Int} : (task.attempt current).tally =
    { strongs := task.sptrs, weaks := task.sptrs + task.wptrs } := by
  unfold attempt
  split <;> rfl

theorem sptrs_attempt {current : Int} : (task.attempt current).sptrs = task.sptrs := by
  unfold attempt
  split <;> rfl

theorem sourced_attempt {current : Int} (h : 0 < task.wptrs) : (task.attempt current).Sourced := by
  unfold attempt
  split
  · next hpos => exact ⟨h, hpos⟩
  · trivial

/-- **What a step can do.** -/
theorem step_move (hsource : task.Sourced) (h : task.step granted s = some (task', s')) :
    RefMove task.tally task'.tally s s' ∧ task'.Sourced := by
  obtain ⟨sptrs, wptrs, pc⟩ := task
  cases pc with
  | idle => cases h
  | getStrongCount goal =>
    cases h
    exact ⟨.still rfl, by cases goal <;> exact hsource⟩
  | incWeak goal first =>
    cases h
    refine ⟨.incWeak ?_ rfl, by cases goal <;> exact hsource⟩
    cases goal with
    | create => exact .inr Nat.one_pos
    | copy => exact .inl (Nat.add_pos_left (Nat.add_pos_left hsource _) _)
    | promote => exact .inl (Nat.succ_pos _)
  | incStrong goal first =>
    have htally : (if first then { sptrs, wptrs, pc := .onFirstStrongRef goal }
        else counted goal { sptrs, wptrs, pc := .incStrong goal first }).tally =
          { strongs := sptrs + (goal.own + 1), weaks := sptrs + wptrs + (goal.own + 1) } := by
      cases first
      · exact tally_counted
      · rfl
    have hsourced : (if first then { sptrs, wptrs, pc := .onFirstStrongRef goal }
        else counted goal { sptrs, wptrs, pc := .incStrong goal first }).Sourced := by
      cases first
      · exact sourced_counted
      · trivial
    cases h
    refine ⟨?_, hsourced⟩
    cases goal with
    | create => exact .create rfl htally
    | copy => exact .incStrong (.inl (Nat.add_pos_left hsource _)) htally
    | promote => exact .incStrong (.inl (Nat.succ_pos _)) htally
  | onFirstStrongRef goal =>
    cases h
    exact ⟨.still tally_counted, sourced_counted⟩
  | decStrong promoted =>
    cases h
    by_cases hlast : s.strong = 1
    · simp only [if_pos hlast]
      exact ⟨.lastStrong hlast rfl rfl, trivial⟩
    · simp only [if_neg hlast]
      exact ⟨.decStrong hlast rfl, trivial⟩
  | onLastStrongRef promoted =>
    cases h
    exact ⟨.still rfl, trivial⟩
  | destroy promoted =>
    cases h
    exact ⟨.destroy rfl rfl rfl, trivial⟩
  | objectWeak promoted =>
    cases h
    by_cases hlast : s.weak = 1
    · simp only [if_pos hlast]
      exact ⟨.lastWeak hlast rfl rfl, trivial⟩
    · simp only [if_neg hlast]
      exact ⟨.decWeak hlast rfl, trivial⟩
  | objectCounter promoted =>
    cases h
    exact ⟨.freeCounter rfl rfl, trivial⟩
  | freeObject promoted =>
    cases h
    exact ⟨.freeObject rfl rfl, trivial⟩
  | decWeak promoted =>
    cases h
    by_cases hlast : s.weak = 1
    · simp only [if_pos hlast]
      exact ⟨.lastWeak hlast rfl rfl, trivial⟩
    · simp only [if_neg hlast]
      exact ⟨.decWeak hlast (by rw [tally_dropped]; rfl), sourced_dropped⟩
  | deleteCounter promoted =>
    cases h
    exact ⟨.freeCounter rfl tally_dropped, sourced_dropped⟩
  | getRefCounter =>
    cases h
    exact ⟨.still rfl, hsource⟩
  | attach =>
    cases h
    exact ⟨.incWeak (.inl (Nat.add_pos_left (Nat.add_pos_left hsource _) _)) rfl, trivial⟩
  | copyWeak =>
    cases h
    exact ⟨.incWeak (.inl (Nat.add_pos_left (Nat.add_pos_right _ hsource) _)) rfl, trivial⟩
  | detach =>
    cases h
    by_cases hlast : s.weak = 1
    · simp only [if_pos hlast]
      exact ⟨.lastWeak hlast rfl rfl, trivial⟩
    · simp only [if_neg hlast]
      exact ⟨.decWeak hlast rfl, trivial⟩
  | detachCounter =>
    cases h
    exact ⟨.freeCounter rfl rfl, trivial⟩
  | attemptLoad =>
    cases h
    exact ⟨.still tally_attempt, sourced_attempt hsource⟩
  | attemptExchange current =>
    obtain ⟨hwptr, hpos⟩ := hsource
    by_cases hsame : granted ∧ s.strong = current
    · have htask := (congrArg some (if_pos hsame)).symm.trans h
      obtain ⟨rfl, rfl⟩ := Prod.mk.inj (Option.some.inj htask)
      obtain ⟨-, rfl⟩ := hsame
      exact ⟨.incStrong (.inr hpos) rfl, hwptr⟩
    · have htask := (congrArg some (if_neg hsame)).symm.trans h
      obtain ⟨rfl, rfl⟩ := Prod.mk.inj (Option.some.inj htask)
      exact ⟨.still tally_attempt, sourced_attempt hwptr⟩
  | attemptWeak =>
    cases h
    exact ⟨.incWeak (.inl (Nat.add_pos_left (Nat.add_pos_right _ hsource) _)) rfl, trivial⟩

/-- A task begins with what it has. -/
theorem start_tally (h : task.start op = some task') :
    task'.tally = task.tally ∧ task'.Sourced := by
  obtain ⟨sptrs, wptrs, pc⟩ := task
  unfold start at h
  split at h
  · cases h
  · next hidle =>
    obtain rfl : pc = .idle := not_not.mp hidle
    cases op with
    | copySptr =>
      obtain ⟨hpos, h⟩ := Option.ite_none_right_eq_some.mp h
      cases h
      exact ⟨rfl, hpos⟩
    | dropSptr =>
      obtain ⟨hpos, h⟩ := Option.ite_none_right_eq_some.mp h
      cases h
      have hpred : sptrs - 1 + 1 = sptrs := Nat.sub_add_cancel hpos
      refine ⟨?_, trivial⟩
      simp only [tally, RefPc.tally, Bool.toNat_false]
      congr 1
      all_goals omega
    | makeWptr =>
      obtain ⟨hpos, h⟩ := Option.ite_none_right_eq_some.mp h
      cases h
      exact ⟨rfl, hpos⟩
    | copyWptr =>
      obtain ⟨hpos, h⟩ := Option.ite_none_right_eq_some.mp h
      cases h
      exact ⟨rfl, hpos⟩
    | dropWptr =>
      obtain ⟨hpos, h⟩ := Option.ite_none_right_eq_some.mp h
      cases h
      have hpred : wptrs - 1 + 1 = wptrs := Nat.sub_add_cancel hpos
      refine ⟨?_, trivial⟩
      simp only [tally, RefPc.tally]
      congr 1
      omega
    | promote =>
      obtain ⟨hpos, h⟩ := Option.ite_none_right_eq_some.mp h
      cases h
      exact ⟨rfl, hpos⟩

end RefTask

/-! ## The invariant -/

/-- The strong count is that of the references, and the object was destroyed when there are none. -/
structure RefTally.Owned (all : RefTally) (s : RefBase) : Prop where
  strong : s.strong = all.strongs
  creating : all.creating ≤ 1
  unborn : 0 < all.creating → all.strongs = 0
  alive : 0 < all.strongs ∨ 0 < all.creating → s.destroyed + all.destroying = 0
  gone : all.strongs = 0 → all.creating = 0 → s.destroyed + all.destroying = 1
  object : s.objectFreed + all.dying = s.destroyed

/-- So is the weak count, and the counter was deleted when it is zero. -/
structure RefTally.Counted (all : RefTally) (s : RefBase) : Prop where
  weak : s.weak + s.destroyed = all.weaks + 1
  counted : s.weak ≠ 0 → s.counterFreed + all.freeing = 0
  uncounted : s.weak = 0 → s.counterFreed + all.freeing = 1

/-- One of those who make up a whole goes over from `t` to `t'`. -/
structure RefTally.Exchanged (all all' t t' : RefTally) : Prop where
  strongs : all'.strongs + t.strongs = all.strongs + t'.strongs ∧ t.strongs ≤ all.strongs
  weaks : all'.weaks + t.weaks = all.weaks + t'.weaks ∧ t.weaks ≤ all.weaks
  creating : all'.creating + t.creating = all.creating + t'.creating ∧ t.creating ≤ all.creating
  destroying : all'.destroying + t.destroying = all.destroying + t'.destroying ∧
    t.destroying ≤ all.destroying
  dying : all'.dying + t.dying = all.dying + t'.dying ∧ t.dying ≤ all.dying
  freeing : all'.freeing + t.freeing = all.freeing + t'.freeing ∧ t.freeing ≤ all.freeing

section
variable {all all' t t' : RefTally} {s s' : RefBase}

theorem RefTally.Owned.move (h : all.Owned s) (hex : Exchanged all all' t t')
    (hmove : RefMove t t' s s') : all'.Owned s' := by
  obtain ⟨strong, creating, unborn, alive, gone, object⟩ := h
  obtain ⟨hstrongs, -, hcreating, hdestroying, hdying, -⟩ := hex
  cases hmove with
  | still h =>
    subst h
    constructor <;> omega
  | incWeak hfrom h =>
    subst h
    constructor <;> dsimp only at * <;> omega
  | incStrong hfrom h =>
    subst h
    constructor <;> dsimp only at * <;> omega
  | create hfirst h =>
    subst h
    constructor <;> dsimp only at * <;> omega
  | decStrong hmore h =>
    subst h
    constructor <;> dsimp only at * <;> omega
  | lastStrong hlast hfirst h =>
    subst h
    constructor <;> dsimp only at * <;> omega
  | destroy hfirst hsame h =>
    subst h
    constructor <;> dsimp only at * <;> omega
  | freeObject hfirst h =>
    subst h
    constructor <;> dsimp only at * <;> omega
  | decWeak hmore h =>
    subst h
    constructor <;> dsimp only at * <;> omega
  | lastWeak hlast hfirst h =>
    subst h
    constructor <;> dsimp only at * <;> omega
  | freeCounter hfirst h =>
    subst h
    constructor <;> dsimp only at * <;> omega

/-- Whoever counts a weak reference has one that is counted, so that the count was not zero. -/
theorem RefTally.Counted.move (h : all.Counted s) (howned : all.Owned s)
    (hex : Exchanged all all' t t') (hmove : RefMove t t' s s') : all'.Counted s' := by
  have hdestroyed : s.destroyed ≤ 1 ∧ (0 < all.creating → s.destroyed = 0) := by
    obtain ⟨-, -, -, alive, gone, -⟩ := howned
    omega
  obtain ⟨weak, counted, uncounted⟩ := h
  obtain ⟨-, hweaks, hcreating, -, -, hfreeing⟩ := hex
  cases hmove with
  | still h =>
    subst h
    constructor <;> omega
  | incWeak hfrom h =>
    subst h
    constructor <;> dsimp only at * <;> omega
  | incStrong hfrom h =>
    subst h
    constructor <;> dsimp only at * <;> omega
  | create hfirst h =>
    subst h
    constructor <;> dsimp only at * <;> omega
  | decStrong hmore h =>
    subst h
    constructor <;> dsimp only at * <;> omega
  | lastStrong hlast hfirst h =>
    subst h
    constructor <;> dsimp only at * <;> omega
  | destroy hfirst hsame h =>
    subst h
    constructor <;> dsimp only at * <;> omega
  | freeObject hfirst h =>
    subst h
    constructor <;> dsimp only at * <;> omega
  | decWeak hmore h =>
    subst h
    constructor <;> dsimp only at * <;> omega
  | lastWeak hlast hfirst h =>
    subst h
    constructor <;> dsimp only at * <;> omega
  | freeCounter hfirst h =>
    subst h
    constructor <;> dsimp only at * <;> omega

end

/-- What one of them loses, another one gains: the whole is the same. -/
theorem RefTally.Exchanged.back {all all' all'' t t' r r' : RefTally} {m n : Nat}
    (hex : Exchanged all all' t t') (hex' : Exchanged all' all'' r r')
    (hlost : t = { t' with strongs := t'.strongs + m, weaks := t'.weaks + n })
    (hgained : r' = { r with strongs := r.strongs + m, weaks := r.weaks + n }) : all'' = all := by
  subst hlost hgained
  obtain ⟨h1, h2, h3, h4, h5, h6⟩ := hex
  obtain ⟨k1, k2, k3, k4, k5, k6⟩ := hex'
  obtain ⟨a1, a2, a3, a4, a5, a6⟩ := all
  obtain ⟨b1, b2, b3, b4, b5, b6⟩ := all''
  dsimp only at *
  congr 1 <;> omega

namespace RefSystem

/-- What is counted for all tasks. -/
def total (tasks : List RefTask) : RefTally where
  strongs := (tasks.map (·.tally.strongs)).sum
  weaks := (tasks.map (·.tally.weaks)).sum
  creating := (tasks.map (·.tally.creating)).sum
  destroying := (tasks.map (·.tally.destroying)).sum
  dying := (tasks.map (·.tally.dying)).sum
  freeing := (tasks.map (·.tally.freeing)).sum

variable {tasks : List RefTask} {i j : Nat} {task task' : RefTask} {s s' : RefSystem}

theorem sum_set (f : RefTask → Nat) (task' : RefTask) (hi : tasks[i]? = some task) :
    ((tasks.set i task').map f).sum + f task = (tasks.map f).sum + f task' ∧
      f task ≤ (tasks.map f).sum :=
  ⟨Agents.sum_set_add f task' hi,
    List.le_sum_of_mem (List.mem_map_of_mem (List.mem_of_getElem? hi))⟩

theorem total_set (task' : RefTask) (hi : tasks[i]? = some task) :
    RefTally.Exchanged (total tasks) (total (tasks.set i task')) task.tally task'.tally where
  strongs := sum_set (·.tally.strongs) task' hi
  weaks := sum_set (·.tally.weaks) task' hi
  creating := sum_set (·.tally.creating) task' hi
  destroying := sum_set (·.tally.destroying) task' hi
  dying := sum_set (·.tally.dying) task' hi
  freeing := sum_set (·.tally.freeing) task' hi

/-- The invariant. -/
structure Inv (s : RefSystem) : Prop where
  owned : (total s.tasks).Owned s.object
  counted : (total s.tasks).Counted s.object
  sourced : ∀ task ∈ s.tasks, task.Sourced

theorem Inv.initial : Inv initial := by
  refine ⟨by constructor <;> decide, by constructor <;> decide, fun task htask => ?_⟩
  obtain rfl := List.mem_singleton.mp htask
  trivial

theorem Inv.move {object : RefBase} (h : s.Inv) (hi : s.tasks[i]? = some task)
    (hmove : RefMove task.tally task'.tally s.object object) (hsource : task'.Sourced) :
    Inv { object, tasks := s.tasks.set i task' } where
  owned := h.owned.move (total_set task' hi) hmove
  counted := h.counted.move h.owned (total_set task' hi) hmove
  sourced := by
    intro other hother
    rcases List.mem_or_eq_of_mem_set hother with hold | rfl
    · exact h.sourced other hold
    · exact hsource

theorem Inv.start {op : RefOp} (h : s.Inv) (hi : s.tasks[i]? = some task)
    (hstart : task.start op = some task') : Inv { s with tasks := s.tasks.set i task' } := by
  obtain ⟨htally, hsource⟩ := RefTask.start_tally hstart
  exact h.move hi (.still htally) hsource

/-- A new task has nothing. -/
theorem total_append : total (tasks ++ [({} : RefTask)]) = total tasks := by
  have htally : RefTask.tally {} = {} := rfl
  simp only [total, List.map_append, List.map_singleton, htally, List.sum_append,
    List.sum_singleton, Nat.add_zero]

theorem Inv.spawn (h : s.Inv) : Inv { s with tasks := s.tasks ++ [({} : RefTask)] } where
  owned := by
    rw [total_append]
    exact h.owned
  counted := by
    rw [total_append]
    exact h.counted
  sourced := by
    intro task htask
    rcases List.mem_append.mp htask with hold | hnew
    · exact h.sourced task hold
    · obtain rfl := List.mem_singleton.mp hnew
      trivial

/-- What one task parts with, another one has. -/
theorem Inv.give {take add : RefTask → RefTask} {m n : Nat} (h : s.Inv)
    (hgive : s.give take add i j = some s')
    (htake : ∀ task, s.tasks[i]? = some task → (take task).Sourced ∧ task.tally =
      { (take task).tally with
        strongs := (take task).tally.strongs + m
        weaks := (take task).tally.weaks + n })
    (hadd : ∀ task : RefTask, (task.Sourced → (add task).Sourced) ∧ (add task).tally =
      { task.tally with strongs := task.tally.strongs + m, weaks := task.tally.weaks + n })
        : s'.Inv := by
  unfold RefSystem.give at hgive
  split at hgive
  · cases hgive
  · next task hi =>
    split at hgive
    · cases hgive
    · next receiver hj =>
      cases hgive
      have hsourced : ∀ task' ∈ s.tasks.set i (take task), task'.Sourced := by
        intro task' htask'
        rcases List.mem_or_eq_of_mem_set htask' with hold | rfl
        · exact h.sourced task' hold
        · exact (htake task hi).1
      have hsame := (total_set (take task) hi).back (total_set (add receiver) hj)
        (htake task hi).2 (hadd receiver).2
      constructor
      · rw [hsame]
        exact h.owned
      · rw [hsame]
        exact h.counted
      · intro task' htask'
        rcases List.mem_or_eq_of_mem_set htask' with hold | rfl
        · exact hsourced task' hold
        · exact (hadd receiver).1 (hsourced receiver (List.mem_of_getElem? hj))

/-- **Every step keeps the invariant.** -/
theorem Inv.step {a : RefAct} (h : s.Inv) (hstep : s.step? a = some s') : s'.Inv := by
  cases a with
  | start i op =>
    simp only [step?] at hstep
    split at hstep
    · cases hstep
    · next task hi =>
      obtain ⟨task', hstart, rfl⟩ := Option.map_eq_some_iff.mp hstep
      exact h.start hi hstart
  | step i granted =>
    simp only [step?] at hstep
    split at hstep
    · cases hstep
    · next task hi =>
      obtain ⟨⟨task', object⟩, hmove, rfl⟩ := Option.map_eq_some_iff.mp hstep
      obtain ⟨hmove, hsource⟩ :=
        RefTask.step_move (h.sourced task (List.mem_of_getElem? hi)) hmove
      exact h.move hi hmove hsource
  | spawn =>
    cases hstep
    exact h.spawn
  | giveSptr i j =>
    obtain ⟨hidle, hgive⟩ := Option.ite_none_right_eq_some.mp hstep
    refine h.give (m := 1) (n := 1) hgive (fun task hi => ?_)
      fun task => ⟨fun h => h.add (Nat.le_succ _) le_rfl rfl, ?_⟩
    · rw [hi, Option.any_some, Bool.and_eq_true, decide_eq_true_eq, decide_eq_true_eq] at hidle
      obtain ⟨sptrs, wptrs, pc⟩ := task
      obtain ⟨rfl, hpos⟩ := hidle
      have hpred : sptrs - 1 + 1 = sptrs := Nat.sub_add_cancel hpos
      refine ⟨trivial, ?_⟩
      simp only [RefTask.tally, RefPc.tally]
      congr 1
      all_goals omega
    · simp only [RefTask.tally]
      congr 1 <;> omega
  | giveWptr i j =>
    obtain ⟨hidle, hgive⟩ := Option.ite_none_right_eq_some.mp hstep
    refine h.give (m := 0) (n := 1) hgive (fun task hi => ?_)
      fun task => ⟨fun h => h.add le_rfl (Nat.le_succ _) rfl, ?_⟩
    · rw [hi, Option.any_some, Bool.and_eq_true, decide_eq_true_eq, decide_eq_true_eq] at hidle
      obtain ⟨sptrs, wptrs, pc⟩ := task
      obtain ⟨rfl, hpos⟩ := hidle
      have hpred : wptrs - 1 + 1 = wptrs := Nat.sub_add_cancel hpos
      refine ⟨trivial, ?_⟩
      simp only [RefTask.tally, RefPc.tally]
      congr 1
      omega
    · simp only [RefTask.tally]
      congr 1
      omega

theorem Reachable.inv (hs : s.Reachable) : s.Inv :=
  hs.invariant (by rintro _ rfl; exact .initial) fun _ _ h ⟨_, hstep⟩ => h.step hstep

/-! ## What follows -/

/-- Reference counting is exact. -/
structure Exact (s : RefSystem) : Prop where
  /-- Without a strong reference the object was destroyed once, or is just going to be. -/
  destroyed : s.object.destroyed + (total s.tasks).destroying =
    if (total s.tasks).strongs + (total s.tasks).creating = 0 then 1 else 0
  /-- Its memory is freed once, when the destructor is through. -/
  objectFreed : s.object.objectFreed + (total s.tasks).dying = s.object.destroyed
  /-- Without a reference, that of the living object included, the counter was deleted once, or is
  just going to be. -/
  counterFreed : s.object.counterFreed + (total s.tasks).freeing =
    if (total s.tasks).weaks = 0 ∧ s.object.destroyed = 1 then 1 else 0
  counterLast : 0 < s.object.counterFreed → s.object.objectFreed = 1 ∧
    ∀ task ∈ s.tasks, task.sptrs = 0 ∧ task.wptrs = 0
  held : ∀ task ∈ s.tasks, 0 < task.tally.strongs → s.object.destroyed = 0
  objectUsed : ∀ task ∈ s.tasks, task.pc.usesObject → s.object.destroyed = 0
  destructorUsed : ∀ task ∈ s.tasks, task.tally.dying = 1 → s.object.objectFreed = 0
  counterUsed : ∀ task ∈ s.tasks, task.pc.usesCounter → s.object.counterFreed = 0
  /-- When no operation is under way, all that was to go is gone. -/
  settled : (∀ task ∈ s.tasks, task.pc = .idle) →
    s.object.destroyed = (if ∀ task ∈ s.tasks, task.sptrs = 0 then 1 else 0) ∧
      s.object.objectFreed = s.object.destroyed ∧
        s.object.counterFreed = if ∀ task ∈ s.tasks, task.sptrs = 0 ∧ task.wptrs = 0 then 1 else 0
  /-- A step by which `promote` returns: it returns null, or an `sptr` to the living object. -/
  promoted : ∀ i granted s', s.step? (.step i granted) = some s' → ∀ task task',
    s.tasks[i]? = some task → s'.tasks[i]? = some task' → task.pc.promoting → task'.pc = .idle →
      task'.sptrs = task.sptrs ∨
        task'.sptrs = task.sptrs + 1 ∧ s.object.destroyed = 0 ∧ s'.object.destroyed = 0
  /-- An operation that is under way goes on. -/
  busy : ∀ i granted task, s.tasks[i]? = some task → task.pc ≠ .idle →
    (s.step? (.step i granted)).isSome

theorem le_sum (f : RefTask → Nat) (htask : task ∈ tasks) : f task ≤ (tasks.map f).sum :=
  List.le_sum_of_mem (List.mem_map_of_mem htask)

theorem sum_eq_zero {f : RefTask → Nat} :
    (tasks.map f).sum = 0 ↔ ∀ task ∈ tasks, f task = 0 := by
  simp [List.sum_eq_zero_iff]

/-- The destructor runs on behalf of a task that has a weak reference. -/
theorem dying_le_weaks (tasks : List RefTask) : (total tasks).dying ≤ (total tasks).weaks := by
  refine List.sum_le_sum fun task _ => ?_
  obtain ⟨sptrs, wptrs, pc⟩ := task
  cases pc <;> simp only [RefTask.tally, RefPc.tally] <;> omega

theorem Inv.counterLast (h : s.Inv) (hfreed : 0 < s.object.counterFreed) :
    s.object.objectFreed = 1 ∧ ∀ task ∈ s.tasks, task.sptrs = 0 ∧ task.wptrs = 0 := by
  have hweak : s.object.weak = 0 := by
    by_contra hne
    have := h.counted.counted hne
    omega
  have hdying := dying_le_weaks s.tasks
  have hcount := h.counted.weak
  obtain ⟨-, -, -, alive, gone, object⟩ := h.owned
  have hweaks : (total s.tasks).weaks = 0 := by omega
  refine ⟨by omega, fun task htask => ?_⟩
  have := sum_eq_zero.mp hweaks task htask
  simp only [RefTask.tally] at this
  omega

/-- Whoever has a strong reference finds the object alive. -/
theorem Inv.held (h : s.Inv) (htask : task ∈ s.tasks)
    (hheld : 0 < task.tally.strongs ∨ 0 < task.tally.creating ∨ 0 < task.tally.destroying) :
    s.object.destroyed = 0 := by
  have hstrongs := le_sum (·.tally.strongs) htask
  have hcreating := le_sum (·.tally.creating) htask
  have hdestroying := le_sum (·.tally.destroying) htask
  obtain ⟨-, -, -, alive, gone, -⟩ := h.owned
  simp only [total] at alive gone
  omega

/-- Whoever has a weak reference finds the counter. -/
theorem Inv.heldWeak (h : s.Inv) (htask : task ∈ s.tasks)
    (hheld : 0 < task.tally.weaks ∨ 0 < task.tally.creating ∨ 0 < task.tally.freeing) :
    s.object.counterFreed = 0 := by
  have hweaks := le_sum (·.tally.weaks) htask
  have hcreating := le_sum (·.tally.creating) htask
  have hfreeing := le_sum (·.tally.freeing) htask
  obtain ⟨-, -, -, alive, gone, -⟩ := h.owned
  obtain ⟨weak, counted, uncounted⟩ := h.counted
  simp only [total] at weak alive gone counted uncounted
  omega

end RefSystem

/-- An operation that uses the object has a strong reference to it, or has the task to destroy
it. -/
theorem RefTask.holds_of_usesObject {task : RefTask} (hsource : task.Sourced)
    (huses : task.pc.usesObject) :
    0 < task.tally.strongs ∨ 0 < task.tally.creating ∨ 0 < task.tally.destroying := by
  obtain ⟨sptrs, wptrs, pc⟩ := task
  cases pc with
  | getStrongCount goal | incWeak goal _ | incStrong goal _ =>
    cases goal with
    | create => exact .inr (.inl Nat.one_pos)
    | copy => exact .inl (Nat.add_pos_left hsource _)
    | promote => exact .inl (Nat.succ_pos _)
  | onFirstStrongRef goal | decStrong promoted => exact .inl (Nat.succ_pos _)
  | onLastStrongRef promoted | destroy promoted => exact .inr (.inr Nat.one_pos)
  | getRefCounter => exact .inl (Nat.add_pos_left hsource _)
  | _ => cases huses

theorem RefTask.holds_of_usesCounter {task : RefTask} (hsource : task.Sourced)
    (huses : task.pc.usesCounter) :
    0 < task.tally.weaks ∨ 0 < task.tally.creating ∨ 0 < task.tally.freeing := by
  obtain ⟨sptrs, wptrs, pc⟩ := task
  cases pc with
  | getStrongCount goal | incWeak goal _ =>
    cases goal with
    | create => exact .inr (.inl Nat.one_pos)
    | copy => exact .inl (Nat.add_pos_left (Nat.add_pos_left hsource _) _)
    | promote => exact .inl (Nat.succ_pos _)
  | incStrong goal _ | decStrong promoted | objectWeak promoted | decWeak promoted | detach =>
    exact .inl (Nat.succ_pos _)
  | objectCounter promoted | deleteCounter promoted | detachCounter =>
    exact .inr (.inr Nat.one_pos)
  | attach => exact .inl (Nat.add_pos_left (Nat.add_pos_left hsource _) _)
  | copyWeak | attemptLoad | attemptWeak =>
    exact .inl (Nat.add_pos_left (Nat.add_pos_right _ hsource) _)
  | attemptExchange current => exact .inl (Nat.add_pos_left (Nat.add_pos_right _ hsource.1) _)
  | _ => cases huses

/-- `promote` returns null, or has given up one of two strong references. -/
theorem RefTask.step_promoted {task task' : RefTask} {s s' : RefBase} {granted : Bool}
    (h : task.step granted s = some (task', s')) (hpromoting : task.pc.promoting)
    (hidle : task'.pc = .idle) :
    task'.sptrs = task.sptrs ∨
      task'.sptrs = task.sptrs + 1 ∧ 0 < task.tally.strongs ∧ s'.destroyed = s.destroyed := by
  obtain ⟨sptrs, wptrs, pc⟩ := task
  cases pc with
  | incStrong goal first =>
    cases h
    obtain rfl : goal = .promote := of_decide_eq_true hpromoting
    cases first <;> cases hidle
  | onFirstStrongRef goal =>
    cases h
    obtain rfl : goal = .promote := of_decide_eq_true hpromoting
    cases hidle
  | decStrong promoted | objectWeak promoted =>
    cases h
    dsimp only at hidle
    split at hidle <;> cases hidle
  | decWeak promoted =>
    cases h
    obtain rfl : promoted = true := hpromoting
    by_cases hlast : s.weak = 1
    · rw [if_pos hlast] at hidle
      cases hidle
    · rw [if_neg hlast]
      exact .inr ⟨rfl, Nat.succ_pos _, rfl⟩
  | deleteCounter promoted =>
    cases h
    obtain rfl : promoted = true := hpromoting
    exact .inr ⟨rfl, Nat.succ_pos _, rfl⟩
  | attemptLoad =>
    cases h
    exact .inl sptrs_attempt
  | attemptExchange current =>
    by_cases hsame : granted ∧ s.strong = current
    · have htask := (congrArg some (if_pos hsame)).symm.trans h
      obtain ⟨rfl, -⟩ := Prod.mk.inj (Option.some.inj htask)
      cases hidle
    · have htask := (congrArg some (if_neg hsame)).symm.trans h
      obtain ⟨rfl, -⟩ := Prod.mk.inj (Option.some.inj htask)
      exact .inl sptrs_attempt
  | getStrongCount | incWeak | onLastStrongRef | destroy | objectCounter | freeObject
  | attemptWeak =>
    cases h
    cases hidle
  | _ => cases hpromoting

namespace RefSystem
variable {tasks : List RefTask} {task task' : RefTask} {s s' : RefSystem}

theorem Inv.settled (h : s.Inv) (hidle : ∀ task ∈ s.tasks, task.pc = .idle) :
    s.object.destroyed = (if ∀ task ∈ s.tasks, task.sptrs = 0 then 1 else 0) ∧
      s.object.objectFreed = s.object.destroyed ∧
        s.object.counterFreed =
          if ∀ task ∈ s.tasks, task.sptrs = 0 ∧ task.wptrs = 0 then 1 else 0 := by
  have htally : ∀ task ∈ s.tasks,
      task.tally = { strongs := task.sptrs, weaks := task.sptrs + task.wptrs } := by
    intro task htask
    obtain ⟨sptrs, wptrs, pc⟩ := task
    obtain rfl : pc = .idle := hidle _ htask
    rfl
  have hstrongs : (total s.tasks).strongs = 0 ↔ ∀ task ∈ s.tasks, task.sptrs = 0 :=
    sum_eq_zero.trans (forall₂_congr fun task htask => by rw [htally task htask])
  have hweaks : (total s.tasks).weaks = 0 ↔ ∀ task ∈ s.tasks, task.sptrs = 0 ∧ task.wptrs = 0 :=
    sum_eq_zero.trans (forall₂_congr fun task htask => by
      rw [htally task htask, Nat.add_eq_zero_iff])
  have hcreating : (total s.tasks).creating = 0 :=
    sum_eq_zero.mpr fun task htask => by rw [htally task htask]
  have hdestroying : (total s.tasks).destroying = 0 :=
    sum_eq_zero.mpr fun task htask => by rw [htally task htask]
  have hdying : (total s.tasks).dying = 0 :=
    sum_eq_zero.mpr fun task htask => by rw [htally task htask]
  have hfreeing : (total s.tasks).freeing = 0 :=
    sum_eq_zero.mpr fun task htask => by rw [htally task htask]
  have hle : (total s.tasks).strongs ≤ (total s.tasks).weaks :=
    List.sum_le_sum fun task htask => by
      rw [htally task htask]
      exact Nat.le_add_right _ _
  obtain ⟨-, -, -, alive, gone, object⟩ := h.owned
  obtain ⟨weak, counted, uncounted⟩ := h.counted
  simp only [← hstrongs, ← hweaks]
  refine ⟨?_, by omega, ?_⟩ <;> split <;> omega

theorem step_isSome {i : Nat} {granted : Bool} (hi : s.tasks[i]? = some task)
    (hbusy : task.pc ≠ .idle) : (s.step? (.step i granted)).isSome := by
  obtain ⟨sptrs, wptrs, pc⟩ := task
  simp only [step?, hi, Option.isSome_map]
  cases pc with
  | idle => exact absurd rfl hbusy
  | _ => rfl

theorem Inv.exact (h : s.Inv) : s.Exact where
  destroyed := by
    obtain ⟨-, -, -, alive, gone, -⟩ := h.owned
    split <;> omega
  objectFreed := h.owned.object
  counterFreed := by
    obtain ⟨-, -, -, alive, gone, -⟩ := h.owned
    obtain ⟨weak, counted, uncounted⟩ := h.counted
    split <;> omega
  counterLast := h.counterLast
  held task htask hheld := h.held htask (.inl hheld)
  objectUsed task htask huses :=
    h.held htask (RefTask.holds_of_usesObject (h.sourced task htask) huses)
  destructorUsed task htask hdying := by
    have hle := le_sum (·.tally.dying) htask
    obtain ⟨-, -, -, alive, gone, object⟩ := h.owned
    simp only [total] at alive gone object
    omega
  counterUsed task htask huses :=
    h.heldWeak htask (RefTask.holds_of_usesCounter (h.sourced task htask) huses)
  settled := h.settled
  promoted i granted s' hstep task task' hi hi' hpromoting hidle := by
    simp only [step?, hi] at hstep
    obtain ⟨⟨task₁, object⟩, hmove, rfl⟩ := Option.map_eq_some_iff.mp hstep
    obtain rfl : task₁ = task' := by
      rw [Agents.getElem?_set_self _ hi] at hi'
      exact Option.some.inj hi'
    rcases RefTask.step_promoted hmove hpromoting hidle with hnull | ⟨hsptr, hheld, hsame⟩
    · exact .inl hnull
    · have halive := h.held (List.mem_of_getElem? hi) (.inl hheld)
      exact .inr ⟨hsptr, halive, hsame.trans halive⟩
  busy _ _ _ hi hbusy := step_isSome hi hbusy

/-- **Reference counting is exact.** -/
theorem counting_exact (hs : s.Reachable) : s.Exact := hs.inv.exact

/-- Task 1 promotes its `wptr` while task 0 drops the first `sptr`, and then drops both it has. -/
def promotedRun : List RefAct :=
  List.flatten [List.replicate 4 (.step 0 true), [.start 0 .makeWptr, .step 0 true, .step 0 true],
    [.spawn, .giveWptr 0 1, .start 1 .promote, .step 1 true, .step 1 false, .step 1 true],
    [.start 0 .dropSptr, .step 0 true, .step 0 true], List.replicate 6 (.step 1 true),
    [.start 1 .dropSptr], List.replicate 6 (.step 1 true), [.start 1 .dropWptr],
    List.replicate 2 (.step 1 true)]

theorem counting_exact_promotedRun :
    (promotedRun.foldlM (fun s a => step? a s) initial).elim False fun s =>
      s.object = { strong := 0, weak := 0, destroyed := 1, objectFreed := 1, counterFreed := 1 } ∧
        s.Exact := by
  have hrun : (promotedRun.foldlM (fun s a => step? a s) initial).map RefSystem.object =
      some { strong := 0, weak := 0, destroyed := 1, objectFreed := 1, counterFreed := 1 } := by
    decide +kernel
  obtain ⟨s, hs, hobject⟩ := Option.map_eq_some_iff.mp hrun
  rw [hs]
  exact ⟨hobject, counting_exact (Runs.Reachable.foldlM (.start rfl) hs)⟩

end RefSystem

end CallManagerMini
