import CallManagerMini.Lib.Runs
import CallManagerMini.Types
import Mathlib.Data.List.Nodup
import Mathlib.Logic.Function.Basic

/-! # The uplink of the stack

`CellularCallLiteRegistry` and the registration part of `CellularCallConnection`.  A stack
is registered by any task at any time.  The connection hears of it through a listener that
posts a task to the main loop, and the task hands the stack the callback its reports go to.

A step is what one task does before another can come in between: `Register` replaces the
instance, then takes the listeners, then calls them; `Init` adds its listener, then looks
for an instance; the posted task reads the instance, then registers with it.

The connection remembers that its callback is registered, but not with which stack.  A
stack that replaces another one therefore never gets the callback
(`replaced_stack_unheard`); it does as long as no other stack comes while the callback is
registered (`keptReachable_followsStack`).
-/

namespace CallManagerMini

/-- Where the main loop is in a task of the connection. -/
inductive LoopTask where
  | idle
  /-- `Init` has added its listener, and is about to look for an instance. -/
  | watching
  /-- `RegisterCallbackOnLoop` has read the instance. -/
  | registering (stack : Nat)
  deriving DecidableEq, Repr

/-- The stack a registration is about to go to. -/
def LoopTask.stack : LoopTask → Option Nat
  | .registering stack => some stack
  | _ => none

/-- The registry and the connection.  Stacks and callbacks are numbered. -/
structure CellularCallConnection where
  /-- `g_cellularCall`. -/
  stack : Option Nat := none
  /-- `OnStackReady` is one of `g_readyListeners`. -/
  listening : Bool := false
  /-- The `Register` calls that have replaced the instance and not taken the listeners. -/
  replacing : Nat := 0
  /-- The `Register` calls that are about to call `OnStackReady`. -/
  notifying : Nat := 0
  initialized : Bool := false
  callbackRegistered : Bool := false
  callback : Option Nat := none
  nextCallback : Nat := 0
  /-- The callbacks each stack was handed since it was last told to drop them. -/
  uplinks : Nat → List Nat := fun _ => []
  /-- The posted registration tasks. -/
  posted : Nat := 0
  task : LoopTask := .idle

namespace CellularCallLiteRegistry

/-- `Register`: the instance is replaced. -/
def register (stack : Option Nat) (c : CellularCallConnection) : CellularCallConnection :=
  { c with stack := stack, replacing := if stack.isSome then c.replacing + 1 else c.replacing }

/-- `Register`: the listeners are taken. -/
def takeListeners (c : CellularCallConnection) : CellularCallConnection :=
  if c.replacing = 0 then c
  else
    { c with
      replacing := c.replacing - 1
      notifying := if c.listening then c.notifying + 1 else c.notifying }

end CellularCallLiteRegistry

namespace CellularCallConnection

/-- `OnStackReady`, with what the main loop says to the post. -/
def onStackReady (accepted : Bool) (c : CellularCallConnection) : CellularCallConnection :=
  if accepted then { c with posted := c.posted + 1 } else c

/-- `NotifyReady`, for one `Register` call. -/
def notifyReady (accepted : Bool) (c : CellularCallConnection) : CellularCallConnection :=
  if c.notifying = 0 then c else onStackReady accepted { c with notifying := c.notifying - 1 }

/-- `Init`, up to the listener. -/
def init (c : CellularCallConnection) : CellularCallConnection :=
  if c.initialized then c else { c with initialized := true, listening := true, task := .watching }

/-- The end of `AddReadyListener`: a registered instance is notified of at once. -/
def addReadyListener (accepted : Bool) (c : CellularCallConnection) : CellularCallConnection :=
  if c.stack.isSome then onStackReady accepted { c with task := .idle }
    else { c with task := .idle }

/-- `UnInit`. -/
def unInit (c : CellularCallConnection) : CellularCallConnection :=
  { c with
    listening := false
    initialized := false
    uplinks := match c.stack with
      | some i => if c.callbackRegistered then Function.update c.uplinks i [] else c.uplinks
      | none => c.uplinks
    callbackRegistered := false
    callback := none }

/-- `RegisterCallbackOnLoop`, up to the instance. -/
def registerCallbackOnLoop (c : CellularCallConnection) : CellularCallConnection :=
  if c.posted = 0 then c
  else
    let c := { c with posted := c.posted - 1 }
    if !c.initialized || c.callbackRegistered then c
    else
      match c.stack with
      | none => c
      | some i => { c with task := .registering i }

/-- `RegisterCallbackOnLoop`, with what the stack says to `RegisterCallManagerCallBack`. -/
def registerCallManagerCallBack (ret : RetCode) (i : Nat) (c : CellularCallConnection) :
    CellularCallConnection :=
  let g := c.callback.getD c.nextCallback
  let c := { c with
    task := .idle
    callback := some g
    nextCallback := if c.callback.isSome then c.nextCallback else c.nextCallback + 1 }
  if ret ≠ .success then c
  else
    { c with
      uplinks := Function.update c.uplinks i (c.uplinks i ++ [g]), callbackRegistered := true }

/-! ## Steps -/

/-- What may happen next. -/
inductive Action where
  /-- Some task registers a stack, or none. -/
  | register (stack : Option Nat)
  | takeListeners
  | notifyReady (accepted : Bool)
  | init
  | addReadyListener (accepted : Bool)
  | unInit
  | registerCallbackOnLoop
  | registerCallManagerCallBack (ret : RetCode)
  deriving DecidableEq, Repr

/-- An action.  The main loop does one thing at a time. -/
def step (a : Action) (c : CellularCallConnection) : CellularCallConnection :=
  match a, c.task with
  | .register stack, _ => CellularCallLiteRegistry.register stack c
  | .takeListeners, _ => CellularCallLiteRegistry.takeListeners c
  | .notifyReady accepted, _ => notifyReady accepted c
  | .init, .idle => init c
  | .addReadyListener accepted, .watching => addReadyListener accepted c
  | .unInit, .idle => unInit c
  | .registerCallbackOnLoop, .idle => registerCallbackOnLoop c
  | .registerCallManagerCallBack ret, .registering i => registerCallManagerCallBack ret i c
  | _, _ => c

/-- The main loop takes the post, and the stack takes the callback. -/
def Action.Succeeds : Action → Prop
  | .notifyReady accepted | .addReadyListener accepted => accepted = true
  | .registerCallManagerCallBack ret => ret = .success
  | _ => True

instance (a : Action) : Decidable a.Succeeds := by
  unfold Action.Succeeds
  split <;> infer_instance

/-- The states of the runs in which every post and every registration succeeds. -/
def Reachable : CellularCallConnection → Prop :=
  Runs.Reachable (· = {}) (Runs.Step step fun a _ => a.Succeeds)

/-- The state after some actions. -/
def run (as : List Action) : CellularCallConnection := as.foldl (fun c a => step a c) {}

/-- Everything that was posted has run, and no `Register` is under way. -/
structure Drained (c : CellularCallConnection) : Prop where
  replacing : c.replacing = 0
  notifying : c.notifying = 0
  posted : c.posted = 0
  task : c.task = .idle

/-- The registered stack, if there is one, was handed the connection's callback, once. -/
def FollowsStack (c : CellularCallConnection) : Prop :=
  ∀ i ∈ c.stack, ∃ g ∈ c.callback, (c.uplinks i).count g = 1

instance (c : CellularCallConnection) : Decidable c.FollowsStack := by
  unfold FollowsStack
  infer_instance

/-! ## Runs that keep the stack -/

/-- The action does not register another stack than the one that has the callback, or that
the callback is about to go to. -/
def KeepsStack (a : Action) (c : CellularCallConnection) : Prop :=
  match a with
  | .register (some i) => (c.callbackRegistered = true → ∀ g ∈ c.callback, g ∈ c.uplinks i) ∧
      ∀ j ∈ c.task.stack, j = i
  | _ => True

instance (a : Action) (c : CellularCallConnection) : Decidable (KeepsStack a c) := by
  unfold KeepsStack
  split <;> infer_instance

/-- The states of the runs in which no other stack comes while the callback is registered. -/
def KeptReachable : CellularCallConnection → Prop :=
  Runs.Reachable (· = {}) (Runs.Step step fun a c => a.Succeeds ∧ KeepsStack a c)

variable {c : CellularCallConnection}

/-- What holds between any two actions of such a run. -/
structure Tracks (c : CellularCallConnection) : Prop where
  listening : c.listening = c.initialized
  /-- A callback is handed to a stack at most once. -/
  once : ∀ i, (c.uplinks i).Nodup
  handed : ∀ i, ∀ g ∈ c.uplinks i, g < c.nextCallback
  unregistered : c.callbackRegistered = false → c.callback = none
  registered : c.callbackRegistered = true → ∃ g, c.callback = some g ∧ g < c.nextCallback ∧
    ∀ i ∈ c.stack, g ∈ c.uplinks i
  /-- The stack the callback is about to go to is still the one. -/
  reading : ∀ j ∈ c.task.stack, c.callbackRegistered = false ∧ ∀ i ∈ c.stack, i = j
  /-- A stack without the callback will be noticed. -/
  owed : c.initialized = true → c.stack.isSome = true → c.callbackRegistered = false →
    0 < c.replacing ∨ 0 < c.notifying ∨ 0 < c.posted ∨ c.task ≠ .idle

theorem tracks_init : Tracks {} where
  listening := rfl
  once _ := List.nodup_nil
  handed _ _ hg := by cases hg
  unregistered _ := rfl
  registered h := by cases h
  reading _ hj := by cases hj
  owed h := by cases h

theorem Tracks.register (h : Tracks c) {stack : Option Nat} (hk : KeepsStack (.register stack) c) :
    Tracks (CellularCallLiteRegistry.register stack c) := by
  cases stack with
  | none =>
    exact { h with
      registered := fun hr => by
        obtain ⟨g, hg, hlt, -⟩ := h.registered hr
        exact ⟨g, hg, hlt, fun i hi => by cases hi⟩
      reading := fun j hj => ⟨(h.reading j hj).1, fun i hi => by cases hi⟩
      owed := fun _ hs => by cases hs }
  | some i =>
    exact { h with
      registered := fun hr => by
        obtain ⟨g, hg, hlt, -⟩ := h.registered hr
        refine ⟨g, hg, hlt, fun i' hi' => ?_⟩
        cases hi'
        exact hk.1 hr g hg
      reading := fun j hj => ⟨(h.reading j hj).1, fun i' hi' => by cases hi'; exact (hk.2 j hj).symm⟩
      owed := fun _ _ _ => .inl (Nat.succ_pos _) }

theorem Tracks.takeListeners (h : Tracks c) :
    Tracks (CellularCallLiteRegistry.takeListeners c) := by
  unfold CellularCallLiteRegistry.takeListeners
  split
  · exact h
  · refine { h with owed := fun hi _ _ => .inr (.inl ?_) }
    simp [h.listening, show c.initialized = true from hi]

theorem Tracks.notifyReady (h : Tracks c) : Tracks (notifyReady true c) := by
  unfold CellularCallConnection.notifyReady
  split
  · exact h
  · exact { h with owed := fun _ _ _ => .inr (.inr (.inl (Nat.succ_pos _))) }

theorem Tracks.init (h : Tracks c) : Tracks (init c) := by
  unfold CellularCallConnection.init
  split
  · exact h
  · exact { h with
      listening := rfl
      reading := fun _ hj => by cases hj
      owed := fun _ _ _ => .inr (.inr (.inr nofun)) }

theorem Tracks.addReadyListener (h : Tracks c) : Tracks (addReadyListener true c) := by
  unfold CellularCallConnection.addReadyListener
  split
  · exact { h with
      reading := fun _ hj => by cases hj
      owed := fun _ _ _ => .inr (.inr (.inl (Nat.succ_pos _))) }
  · next hnone =>
    exact { h with
      reading := fun _ hj => by cases hj
      owed := fun _ hs => absurd hs hnone }

theorem Tracks.unInit (h : Tracks c) (hidle : c.task = .idle) : Tracks (unInit c) := by
  have hsub : ∀ i, ((CellularCallConnection.unInit c).uplinks i).Sublist (c.uplinks i) := by
    intro i
    unfold CellularCallConnection.unInit
    cases c.stack with
    | none => exact List.Sublist.refl _
    | some j =>
      dsimp only
      split
      · by_cases hij : i = j
        · rw [hij, Function.update_self]
          exact List.nil_sublist _
        · rw [Function.update_of_ne hij]
      · exact List.Sublist.refl _
  exact {
    listening := rfl
    once := fun i => (h.once i).sublist (hsub i)
    handed := fun i g hg => h.handed i g ((hsub i).subset hg)
    unregistered := fun _ => rfl
    registered := fun hr => by cases hr
    reading := fun j hj => by simp [CellularCallConnection.unInit, hidle, LoopTask.stack] at hj
    owed := fun hi => by cases hi }

theorem Tracks.registerCallbackOnLoop (h : Tracks c) : Tracks (registerCallbackOnLoop c) := by
  unfold CellularCallConnection.registerCallbackOnLoop
  split
  · exact h
  dsimp only
  split
  · next hdone =>
    refine { h with owed := fun hi _ hr => ?_ }
    simp only [Bool.or_eq_true, Bool.not_eq_true'] at hdone
    rcases hdone with hd | hd
    · exact absurd (hd.symm.trans hi) (by decide)
    · exact absurd (hr.symm.trans hd) (by decide)
  · next hdo =>
    simp only [Bool.or_eq_true, Bool.not_eq_true', not_or, Bool.not_eq_true] at hdo
    split
    · next hnone => exact { h with owed := fun _ hs => by simp [hnone] at hs }
    · next i hi =>
      exact { h with
        reading := fun j hj => by
          cases hj
          exact ⟨hdo.2, fun i' hi' => Option.some.inj (hi'.symm.trans hi)⟩
        owed := fun _ _ _ => .inr (.inr (.inr (by simp))) }

theorem Tracks.registerCallManagerCallBack (h : Tracks c) {i : Nat}
    (htask : c.task = .registering i) : Tracks (registerCallManagerCallBack .success i c) := by
  obtain ⟨hfree, hread⟩ := h.reading i (by rw [htask]; rfl)
  have hnone := h.unregistered hfree
  have hnew : c.nextCallback ∉ c.uplinks i := fun hg => Nat.lt_irrefl _ (h.handed i _ hg)
  unfold CellularCallConnection.registerCallManagerCallBack
  simp only [hnone, Option.getD_none, Option.isSome_none, Bool.false_eq_true, if_false, ne_eq,
    not_true_eq_false]
  refine { h with
    once := fun i' => ?_
    handed := fun i' g hg => ?_
    unregistered := fun hr => by cases hr
    registered := fun _ => ⟨c.nextCallback, rfl, Nat.lt_succ_self _, fun i' hi' => ?_⟩
    reading := fun _ hj => by cases hj
    owed := fun _ _ hr => by cases hr }
  · change (Function.update c.uplinks i (c.uplinks i ++ [c.nextCallback]) i').Nodup
    by_cases hi : i' = i
    · subst hi
      rw [Function.update_self]
      exact List.nodup_append.mpr ⟨h.once i', List.nodup_singleton _, fun a ha b hb => by
        rw [List.mem_singleton.mp hb]
        exact fun heq => hnew (heq ▸ ha)⟩
    · rw [Function.update_of_ne hi]
      exact h.once i'
  · change g ∈ Function.update c.uplinks i (c.uplinks i ++ [c.nextCallback]) i' at hg
    by_cases hi : i' = i
    · subst hi
      rw [Function.update_self] at hg
      rcases List.mem_append.mp hg with hg | hg
      · exact Nat.lt_succ_of_lt (h.handed i' g hg)
      · rw [List.mem_singleton.mp hg]
        exact Nat.lt_succ_self _
    · rw [Function.update_of_ne hi] at hg
      exact Nat.lt_succ_of_lt (h.handed i' g hg)
  · change c.nextCallback ∈ Function.update c.uplinks i (c.uplinks i ++ [c.nextCallback]) i'
    rw [hread i' hi', Function.update_self]
    exact List.mem_append_right _ (List.mem_singleton.mpr rfl)

theorem Tracks.step (h : Tracks c) {a : Action} (ha : a.Succeeds) (hk : KeepsStack a c) :
    Tracks (step a c) := by
  unfold CellularCallConnection.step
  split
  · exact h.register hk
  · exact h.takeListeners
  · next accepted =>
    obtain rfl : accepted = true := ha
    exact h.notifyReady
  · exact h.init
  · next accepted _ =>
    obtain rfl : accepted = true := ha
    exact h.addReadyListener
  · next hidle => exact h.unInit hidle
  · exact h.registerCallbackOnLoop
  · next ret i htask =>
    obtain rfl : ret = .success := ha
    exact h.registerCallManagerCallBack htask
  · exact h

theorem keptReachable_tracks (hc : KeptReachable c) : Tracks c :=
  hc.invariant (fun _ h => h ▸ tracks_init) fun _ _ h ⟨_, ⟨ha, hk⟩, hs'⟩ => hs' ▸ h.step ha hk

/-- **The uplink follows the registered stack**, in every run in which no other stack comes
while the callback is registered. -/
theorem keptReachable_followsStack (hc : KeptReachable c) (hd : c.Drained)
    (hi : c.initialized = true) : c.FollowsStack := by
  have h := keptReachable_tracks hc
  intro i hstack
  have hreg : c.callbackRegistered = true := by
    by_contra hr
    have hsome : c.stack.isSome = true := Option.isSome_iff_exists.mpr ⟨i, hstack⟩
    rcases h.owed hi hsome (Bool.not_eq_true _ ▸ hr) with hp | hp | hp | hp
    · exact absurd hd.replacing (Nat.ne_of_gt hp)
    · exact absurd hd.notifying (Nat.ne_of_gt hp)
    · exact absurd hd.posted (Nat.ne_of_gt hp)
    · exact hp hd.task
  obtain ⟨g, hg, -, hkept⟩ := h.registered hreg
  exact ⟨g, hg, List.count_eq_one_of_mem (h.once i) (hkept i hstack)⟩

/-- The service starts, and stack 1 is registered. -/
def firstStack : List Action :=
  [.init, .addReadyListener true, .register (some 1), .takeListeners, .notifyReady true,
    .registerCallbackOnLoop, .registerCallManagerCallBack .success]

/-- Stack 2 replaces it. -/
def secondStack : List Action :=
  firstStack ++ [.register (some 2), .takeListeners, .notifyReady true, .registerCallbackOnLoop]

theorem replaced_stack_unheard :
    ∃ c, Reachable c ∧ c.Drained ∧ c.initialized = true ∧ ¬c.FollowsStack :=
  ⟨run secondStack, .run (.start rfl) (by decide), ⟨by decide, by decide, by decide, by decide⟩,
    by decide, by decide⟩

/-- Stack 1 goes and comes back. -/
theorem keptReachable_followsStack_back :
    (run (firstStack ++ [.register none, .register (some 1), .takeListeners, .notifyReady true,
      .registerCallbackOnLoop])).FollowsStack :=
  keptReachable_followsStack (.run (.start rfl) (by decide))
    ⟨by decide, by decide, by decide, by decide⟩ (by decide)

end CellularCallConnection

end CallManagerMini
