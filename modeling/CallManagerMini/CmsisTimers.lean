import Mathlib.Logic.Function.Basic
import CallManagerMini.Lib.Agents
import CallManagerMini.Lib.Runs

/-! # The timers of the CMSIS adapter

The kernel takes no pointer as the argument of a timer, so that `tel_os_adapter_cmsis.cpp` keeps
callbacks in a table of slots, and gives the kernel the index of a slot and `TimerTrampoline`.
`TelOsTimerDelete` waits until no trampoline is inside the callback of the slot.  A trampoline is
counted from its first step on; one that the kernel has dispatched and that has not taken this
step is not, and comes to a slot that is being cleared, is free, or is that of another timer.
Creations, deletions and trampolines are interleaved here step by step.  A timer that was deleted
is not called back as long as a trampoline that comes so late finds no callback
(`neverCallsBack`); it may find one (`deleted_timer_calls_back`).
-/

namespace CallManagerMini

/-- `CMSIS_MAX_TIMERS`. -/
def cmsisMaxTimers : Nat := 4

/-- `TelOsTimerCallback`, the address of a function. -/
abbrev TelOsTimerCallback := Nat

/-- `TimerSlot`; its `id` names a timer of the kernel. -/
structure TimerSlot where
  /-- The state is `SLOT_USED`. -/
  used : Bool := false
  inCallback : Nat := 0
  callback : Option TelOsTimerCallback := none
  arg : Nat := 0
  id : Option Nat := none
  deriving DecidableEq, Repr

/-- Where the task stands that creates a timer, and later the one that deletes it. -/
inductive TimerPc where
  /-- `ClaimSlot` tries a slot. -/
  | claim
  | setCallback
  | setArg
  | osTimerNew
  /-- The kernel has no timer: the callback is taken back, and then the slot. -/
  | unsetCallback
  | unclaim
  /-- `TelOsTimerCreate` has returned `NO_RESOURCE`. -/
  | noResource
  /-- `TelOsTimerCreate` has returned `OK`. -/
  | created
  | osTimerDelete
  /-- `TelOsTimerDelete` reads `inCallback`. -/
  | awaitCallbacks
  | clearId
  | clearCallback
  | clearArg
  | freeSlot
  /-- `TelOsTimerDelete` has returned `OK`. -/
  | deleted
  deriving DecidableEq, Repr

/-- A timer: what it was created with, and the slot it is in. -/
structure CmsisTimer where
  callback : TelOsTimerCallback
  arg : Nat
  slot : Nat := 0
  pc : TimerPc := .claim
  deriving DecidableEq, Repr

/-- Where a trampoline stands. -/
inductive TrampolinePc where
  /-- The kernel has taken the timer out to call it. -/
  | dispatched
  /-- It is counted in `inCallback`, and reads the state. -/
  | entered
  /-- The slot is used; it looks whether there is a callback. -/
  | check
  /-- There is one; it reads the callback to call it. -/
  | readCallback
  /-- It reads the argument. -/
  | readArg (callback : Option TelOsTimerCallback)
  /-- The callback runs. -/
  | calling (callback : Option TelOsTimerCallback) (arg : Nat)
  /-- It is still counted. -/
  | leaving
  | returned
  deriving DecidableEq, Repr

/-- A call of `TimerTrampoline` on behalf of a timer. -/
structure Trampoline where
  timer : Nat
  /-- The argument. -/
  index : Nat
  pc : TrampolinePc := .dispatched
  deriving DecidableEq, Repr

/-- A timer of the kernel. -/
structure KernelTimer where
  id : Nat
  argument : Nat
  deriving DecidableEq, Repr

/-- The slots, the timers, those of the kernel, and the trampolines. -/
structure CmsisTimers where
  slots : Nat → TimerSlot := fun _ => {}
  timers : List CmsisTimer := []
  kernel : List KernelTimer := []
  trampolines : List Trampoline := []

namespace CmsisTimers

/-- Put the timer `t` at another place. -/
def put (t : Nat) (timer : CmsisTimer) (s : CmsisTimers) : CmsisTimers :=
  { s with timers := s.timers.set t timer }

/-- Write the slot the timer `t` is in, and go on. -/
def advance (t : Nat) (timer : CmsisTimer) (write : TimerSlot → TimerSlot) (pc : TimerPc)
    (s : CmsisTimers) : CmsisTimers :=
  { s with
    slots := Function.update s.slots timer.slot (write (s.slots timer.slot))
    timers := s.timers.set t { timer with pc } }

/-- The next step of `TelOsTimerCreate` or `TelOsTimerDelete` with the timer `t`.  `granted` says
whether the kernel does what it is asked for. -/
def timerStep (t : Nat) (granted : Bool) (s : CmsisTimers) : Option CmsisTimers :=
  match s.timers[t]? with
  | none => none
  | some timer =>
    match timer.pc with
    | .claim =>
      some (if timer.slot ≥ cmsisMaxTimers then s.put t { timer with pc := .noResource }
        else if (s.slots timer.slot).used then s.put t { timer with slot := timer.slot + 1 }
        else s.advance t timer (fun slot => { slot with used := true }) .setCallback)
    | .setCallback =>
      some (s.advance t timer (fun slot => { slot with callback := some timer.callback }) .setArg)
    | .setArg => some (s.advance t timer (fun slot => { slot with arg := timer.arg }) .osTimerNew)
    | .osTimerNew =>
      some (if granted then
          { s.advance t timer (fun slot => { slot with id := some t }) .created with
            kernel := s.kernel ++ [{ id := t, argument := timer.slot }] }
        else s.advance t timer (fun slot => { slot with id := none }) .unsetCallback)
    | .unsetCallback =>
      some (s.advance t timer (fun slot => { slot with callback := none }) .unclaim)
    | .unclaim => some (s.advance t timer (fun slot => { slot with used := false }) .noResource)
    | .osTimerDelete =>
      let id := (s.slots timer.slot).id
      some (if granted ∧ ∃ kt ∈ s.kernel, id = some kt.id then
          { s.put t { timer with pc := .awaitCallbacks } with
            kernel := s.kernel.filter fun kt => id ≠ some kt.id }
        else s.put t { timer with pc := .created })
    | .awaitCallbacks =>
      some (if (s.slots timer.slot).inCallback = 0 then s.put t { timer with pc := .clearId }
        else s)
    | .clearId => some (s.advance t timer (fun slot => { slot with id := none }) .clearCallback)
    | .clearCallback =>
      some (s.advance t timer (fun slot => { slot with callback := none }) .clearArg)
    | .clearArg => some (s.advance t timer (fun slot => { slot with arg := 0 }) .freeSlot)
    | .freeSlot => some (s.advance t timer (fun slot => { slot with used := false }) .deleted)
    | .noResource | .created | .deleted => none

/-- Change the counter of the slot a trampoline works on, and put it at another place. -/
def proceed (j : Nat) (tramp : Trampoline) (count : Nat → Nat) (pc : TrampolinePc)
    (s : CmsisTimers) : CmsisTimers :=
  let slot := s.slots tramp.index
  { s with
    slots := Function.update s.slots tramp.index { slot with inCallback := count slot.inCallback }
    trampolines := s.trampolines.set j { tramp with pc } }

/-- The next step of the trampoline `j`. -/
def trampolineStep (j : Nat) (s : CmsisTimers) : Option CmsisTimers :=
  match s.trampolines[j]? with
  | none => none
  | some tramp =>
    let slot := s.slots tramp.index
    match tramp.pc with
    | .dispatched =>
      some (if tramp.index ≥ cmsisMaxTimers then s.proceed j tramp id .returned
        else s.proceed j tramp (· + 1) .entered)
    | .entered => some (s.proceed j tramp id (if slot.used then .check else .leaving))
    | .check =>
      some (s.proceed j tramp id (if slot.callback ≠ none then .readCallback else .leaving))
    | .readCallback => some (s.proceed j tramp id (.readArg slot.callback))
    | .readArg callback => some (s.proceed j tramp id (.calling callback slot.arg))
    | .calling _ _ => some (s.proceed j tramp id .leaving)
    | .leaving => some (s.proceed j tramp (· - 1) .returned)
    | .returned => none

/-- What can happen next. -/
inductive Act where
  /-- A task calls `TelOsTimerCreate`. -/
  | create (callback : TelOsTimerCallback) (arg : Nat)
  /-- The one that has the handle of the timer `t` calls `TelOsTimerDelete`. -/
  | delete (t : Nat)
  | timer (t : Nat) (granted : Bool)
  /-- The kernel dispatches the timer at place `n`. -/
  | dispatch (n : Nat)
  | trampoline (j : Nat)
  deriving DecidableEq, Repr

/-- **One step**, if it can be taken. -/
def step? (a : Act) (s : CmsisTimers) : Option CmsisTimers :=
  match a with
  | .create callback arg => some { s with timers := s.timers ++ [{ callback, arg }] }
  | .delete t =>
    match s.timers[t]? with
    | some timer =>
      if timer.pc = .created then some (s.put t { timer with pc := .osTimerDelete }) else none
    | none => none
  | .timer t granted => s.timerStep t granted
  | .dispatch n =>
    s.kernel[n]?.map fun kt =>
      { s with trampolines := s.trampolines ++ [{ timer := kt.id, index := kt.argument }] }
  | .trampoline j => s.trampolineStep j

/-- **A deleted timer is not called back**: while a callback runs, `TelOsTimerDelete` has not
returned for the timer that was dispatched, and it is the callback of this timer. -/
def NeverCallsBack (s : CmsisTimers) : Prop :=
  ∀ tramp ∈ s.trampolines, ∀ callback arg, tramp.pc = .calling callback arg →
    ∃ timer, s.timers[tramp.timer]? = some timer ∧ timer.pc ≠ .deleted ∧
      callback = some timer.callback ∧ arg = timer.arg

end CmsisTimers

/-- `TelOsTimerDelete` has found no callback running. -/
def TimerPc.cleared : TimerPc → Bool
  | .clearId | .clearCallback | .clearArg | .freeSlot | .deleted => true
  | _ => false

namespace CmsisTimers

/-- A trampoline that looks for a callback when its timer has not waited for it finds none. -/
def FindsNone (a : Act) (s : CmsisTimers) : Prop :=
  match a with
  | .trampoline j => ∀ tramp ∈ s.trampolines[j]?, tramp.pc = .check →
    ∀ timer ∈ s.timers[tramp.timer]?, timer.pc.cleared = true →
      (s.slots tramp.index).callback = none
  | _ => True

instance FindsNone.decidable : ∀ (a : Act) (s : CmsisTimers), Decidable (s.FindsNone a)
  | .trampoline j, s => inferInstanceAs (Decidable (∀ tramp ∈ s.trampolines[j]?,
      tramp.pc = .check → ∀ timer ∈ s.timers[tramp.timer]?, timer.pc.cleared = true →
        (s.slots tramp.index).callback = none))
  | .create .., _ | .delete _, _ | .timer .., _ | .dispatch _, _ =>
    inferInstanceAs (Decidable True)

/-- One step, if it can be taken and a late trampoline finds no callback in it. -/
def clearedStep? (a : Act) (s : CmsisTimers) : Option CmsisTimers :=
  if s.FindsNone a then s.step? a else none

end CmsisTimers

/-! ## What keeps the callbacks apart -/

namespace TimerPc

/-- It has a slot. -/
def holds : TimerPc → Bool
  | .claim | .noResource | .deleted => false
  | _ => true

/-- The callback is in the slot, and then the argument. -/
def hasCallback : TimerPc → Bool
  | .setArg | .osTimerNew | .created | .osTimerDelete | .awaitCallbacks => true
  | _ => false

def hasArg : TimerPc → Bool
  | .osTimerNew | .created | .osTimerDelete | .awaitCallbacks => true
  | _ => false

/-- The kernel may dispatch it. -/
def firing : TimerPc → Bool
  | .created | .osTimerDelete => true
  | _ => false

/-- It was created, and its slot is not being cleared. -/
def live (pc : TimerPc) : Bool := pc.firing || pc = .awaitCallbacks

end TimerPc

/-- What the slot of the timer `t` holds. -/
structure CmsisTimer.Fits (t : Nat) (timer : CmsisTimer) (slot : TimerSlot) : Prop where
  used : timer.pc.holds = true → slot.used = true
  callback : timer.pc.hasCallback = true → slot.callback = some timer.callback
  arg : timer.pc.hasArg = true → slot.arg = timer.arg
  id : timer.pc.firing = true → slot.id = some t

/-- It is counted in `inCallback`. -/
def TrampolinePc.inside : TrampolinePc → Bool
  | .dispatched | .returned => false
  | _ => true

/-- It comes to the callback of its timer, which is not being cleared. -/
def Trampoline.Calls (timer : CmsisTimer) (tramp : Trampoline) : Prop :=
  match tramp.pc with
  | .readCallback => timer.pc.live = true
  | .readArg callback => timer.pc.live = true ∧ callback = some timer.callback
  | .calling callback arg =>
    timer.pc.live = true ∧ callback = some timer.callback ∧ arg = timer.arg
  | _ => True

namespace CmsisTimers

variable {s s' : CmsisTimers} {t j : Nat} {timer timer' : CmsisTimer} {tramp : Trampoline}
  {slot : TimerSlot}

/-- **What holds of slots, timers and trampolines.** -/
structure Inv (s : CmsisTimers) : Prop where
  fits : ∀ (t : Nat) (timer : CmsisTimer), s.timers[t]? = some timer →
    timer.Fits t (s.slots timer.slot)
  /-- Two timers are not in one slot. -/
  alone : ∀ (t t' : Nat) (timer timer' : CmsisTimer), s.timers[t]? = some timer →
    s.timers[t']? = some timer' → timer.pc.holds = true → timer'.pc.holds = true →
    timer.slot = timer'.slot → t = t'
  kernel : ∀ kt ∈ s.kernel, ∃ timer, s.timers[kt.id]? = some timer ∧ timer.slot = kt.argument ∧
    timer.pc.firing = true
  counted : ∀ k, (s.slots k).inCallback =
    s.trampolines.countP fun tramp => tramp.index = k && tramp.pc.inside
  calls : ∀ tramp ∈ s.trampolines, ∃ timer, s.timers[tramp.timer]? = some timer ∧
    timer.slot = tramp.index ∧ (timer.pc.live = true ∨ timer.pc.cleared = true) ∧
    tramp.Calls timer

/-- A timer without a slot has nothing in it. -/
theorem fits_of_not_holds (h : timer.pc.holds = false) : timer.Fits t slot := by
  have hnone : timer.pc.hasCallback = false ∧ timer.pc.hasArg = false ∧
      timer.pc.firing = false := by
    cases hpc : timer.pc <;> simp [hpc, TimerPc.holds, TimerPc.hasCallback, TimerPc.hasArg,
      TimerPc.firing] at h ⊢
  constructor <;> simp [h, hnone]

theorem hasCallback_of_live (h : timer.pc.live = true) : timer.pc.hasCallback = true := by
  cases hpc : timer.pc <;> simp [hpc, TimerPc.live, TimerPc.firing, TimerPc.hasCallback] at h ⊢

theorem hasArg_of_live (h : timer.pc.live = true) : timer.pc.hasArg = true := by
  cases hpc : timer.pc <;> simp [hpc, TimerPc.live, TimerPc.firing, TimerPc.hasArg] at h ⊢

/-- A trampoline that is about to call its timer is counted. -/
theorem calls_mono (hcalls : tramp.Calls timer)
    (hlive : tramp.pc.inside = true → timer.pc.live = true → timer'.pc.live = true)
    (hcallback : timer'.callback = timer.callback) (harg : timer'.arg = timer.arg) :
    tramp.Calls timer' := by
  unfold Trampoline.Calls at hcalls ⊢
  rw [hcallback, harg]
  cases hpc : tramp.pc with
  | readCallback =>
    simp only [hpc] at hcalls ⊢
    exact hlive (by rw [hpc]; rfl) hcalls
  | readArg | calling =>
    simp only [hpc] at hcalls ⊢
    exact ⟨hlive (by rw [hpc]; rfl) hcalls.1, hcalls.2⟩
  | _ => trivial

/-- **A step of a timer that keeps to its slot.** -/
theorem Inv.put (h : s.Inv) {kernel : List KernelTimer} (ht : s.timers[t]? = some timer)
    (hs' : { s with
      slots := Function.update s.slots timer.slot slot
      timers := s.timers.set t timer'
      kernel := kernel } = s')
    (hcount : slot.inCallback = (s.slots timer.slot).inCallback)
    (hmine : timer.pc.holds = true ∨ (s.slots timer.slot).used = false ∨
      slot = s.slots timer.slot ∧ timer'.pc.holds = false)
    (hslot : timer'.pc.holds = true → timer'.slot = timer.slot) (hfits : timer'.Fits t slot)
    (hmade : timer.pc.live = true ∨ timer.pc.cleared = true → timer'.slot = timer.slot ∧
      timer'.callback = timer.callback ∧ timer'.arg = timer.arg ∧
      (timer'.pc.live = true ∨ timer'.pc.cleared = true))
    (hlive : timer.pc.live = true →
      timer'.pc.live = true ∨ (s.slots timer.slot).inCallback = 0)
    (hkernel : ∀ kt ∈ kernel, (kt ∈ s.kernel ∧ (kt.id = t → timer'.pc.firing = true)) ∨
      kt = ⟨t, timer'.slot⟩ ∧ timer'.pc.firing = true) : s'.Inv := by
  subst hs'
  have hother : ∀ u v, u ≠ t → s.timers[u]? = some v → v.pc.holds = true →
      v.slot = timer.slot → slot = s.slots timer.slot ∧ timer'.pc.holds = false := by
    intro u v hut hu hholds hsame
    rcases hmine with hmine | hfree | hkept
    · exact absurd (h.alone u t v timer hu ht hholds hmine hsame) hut
    · have hused := (h.fits u v hu).used hholds
      rw [hsame, hfree] at hused
      cases hused
    · exact hkept
  refine
    { fits := fun u v hu => ?_
      alone := fun u u' v v' hu hu' hv hv' hsame => ?_
      kernel := fun kt hkt => ?_
      counted := fun k => ?_
      calls := fun tramp htramp => ?_ }
  · dsimp only at hu ⊢
    by_cases hv : v.pc.holds = true
    · rcases Agents.of_getElem?_set hu with ⟨rfl, rfl⟩ | ⟨hut, hu⟩
      · rw [hslot hv, Function.update_self]
        exact hfits
      · by_cases hsame : v.slot = timer.slot
        · rw [hsame, Function.update_self, (hother u v hut hu hv hsame).1, ← hsame]
          exact h.fits u v hu
        · rw [Function.update_of_ne hsame]
          exact h.fits u v hu
    · exact fits_of_not_holds (by simpa using hv)
  · rcases Agents.of_getElem?_set hu with ⟨rfl, rfl⟩ | ⟨hut, hold⟩ <;>
      rcases Agents.of_getElem?_set hu' with ⟨rfl, rfl⟩ | ⟨hut', hold'⟩
    · rfl
    · have hnot := (hother u' v' hut' hold' hv' (hsame.symm.trans (hslot hv))).2
      rw [hv] at hnot
      cases hnot
    · have hnot := (hother u v hut hold hv (hsame.trans (hslot hv'))).2
      rw [hv'] at hnot
      cases hnot
    · exact h.alone u u' v v' hold hold' hv hv' hsame
  · dsimp only at hkt ⊢
    rcases hkernel kt hkt with ⟨hold, hfiring⟩ | ⟨rfl, hfiring⟩
    · obtain ⟨v, hv, hargument, hfires⟩ := h.kernel kt hold
      by_cases hid : kt.id = t
      · obtain rfl := Option.some.inj (ht.symm.trans (hid ▸ hv))
        have hmade' := hmade (.inl (by simp [TimerPc.live, hfires]))
        exact ⟨timer', by rw [hid, Agents.getElem?_set_self timer' ht], hmade'.1.trans hargument,
          hfiring hid⟩
      · exact ⟨v, by rw [List.getElem?_set_ne (Ne.symm hid), hv], hargument, hfires⟩
    · exact ⟨timer', Agents.getElem?_set_self timer' ht, rfl, hfiring⟩
  · dsimp only
    rw [← h.counted k]
    by_cases hk : k = timer.slot
    · rw [hk, Function.update_self, hcount]
    · rw [Function.update_of_ne hk]
  · obtain ⟨v, hv, hindex, hmade', hcalls⟩ := h.calls tramp htramp
    by_cases hid : tramp.timer = t
    · obtain rfl := Option.some.inj (ht.symm.trans (hid ▸ hv))
      obtain ⟨hsame, hcallback, harg, hlater⟩ := hmade hmade'
      refine ⟨timer', by rw [hid, Agents.getElem?_set_self timer' ht], hsame.trans hindex, hlater,
        calls_mono hcalls (fun hinside hlives => ?_) hcallback harg⟩
      refine (hlive hlives).resolve_right fun hzero => ?_
      -- the trampoline itself is counted
      have hcounted := h.counted timer.slot
      rw [hzero, eq_comm, List.countP_eq_zero] at hcounted
      exact hcounted tramp htramp (by simp [hindex, hinside])
    · exact ⟨v, by dsimp only; rw [List.getElem?_set_ne (Ne.symm hid), hv], hindex, hmade', hcalls⟩

/-- Where the slot stays as it is. -/
theorem Inv.put_still (h : s.Inv) {kernel : List KernelTimer} (ht : s.timers[t]? = some timer)
    (hs' : { s.put t timer' with kernel := kernel } = s')
    (hholds : timer'.pc.holds = true → timer.pc.holds = true)
    (hslot : timer'.pc.holds = true → timer'.slot = timer.slot)
    (hfits : timer'.Fits t (s.slots timer.slot))
    (hmade : timer.pc.live = true ∨ timer.pc.cleared = true → timer'.slot = timer.slot ∧
      timer'.callback = timer.callback ∧ timer'.arg = timer.arg ∧
      (timer'.pc.live = true ∨ timer'.pc.cleared = true))
    (hlive : timer.pc.live = true →
      timer'.pc.live = true ∨ (s.slots timer.slot).inCallback = 0)
    (hkernel : ∀ kt ∈ kernel, kt ∈ s.kernel ∧ (kt.id = t → timer'.pc.firing = true)) :
    s'.Inv := by
  refine h.put ht ?_ rfl ?_ hslot hfits hmade hlive fun kt hkt => .inl (hkernel kt hkt)
  · rw [← hs', CmsisTimers.put, Function.update_eq_self]
  · by_cases hnow : timer'.pc.holds = true
    · exact .inl (hholds hnow)
    · exact .inr (.inr ⟨rfl, by simpa using hnow⟩)

theorem Inv.firing (h : s.Inv) (ht : s.timers[t]? = some timer) {kt : KernelTimer}
    (hkt : kt ∈ s.kernel) (hid : kt.id = t) : timer.pc.firing = true := by
  obtain ⟨v, hv, -, hfiring⟩ := h.kernel kt hkt
  obtain rfl := Option.some.inj (ht.symm.trans (hid ▸ hv))
  exact hfiring

/-- The kernel has no timer whose timer cannot fire. -/
theorem Inv.not_fired (h : s.Inv) (ht : s.timers[t]? = some timer)
    (hnot : timer.pc.firing = false) {kt : KernelTimer} (hkt : kt ∈ s.kernel) : kt.id ≠ t := by
  intro hid
  rw [h.firing ht hkt hid] at hnot
  cases hnot

section Steps
variable {granted : Bool} {pc pc' : TimerPc} (h : s.Inv) (ht : s.timers[t]? = some timer)
include h ht

/-- The timer has its slot and writes it, or takes a free one. -/
theorem Inv.write {write : TimerSlot → TimerSlot} (hpc : timer.pc = pc)
    (hs' : s.advance t timer write pc' = s') (hnot : pc.firing = false) (hlive : pc.live = false)
    (hcleared : pc'.cleared = pc.cleared)
    (hcount : (write (s.slots timer.slot)).inCallback = (s.slots timer.slot).inCallback)
    (hmine : pc.holds = true ∨ (s.slots timer.slot).used = false)
    (hfits : CmsisTimer.Fits t { timer with pc := pc' } (write (s.slots timer.slot))) : s'.Inv := by
  subst hpc
  refine h.put ht hs' hcount (hmine.imp_right .inl) (fun _ => rfl) hfits ?_ ?_
    fun kt hkt => .inl ⟨hkt, fun hid => (h.not_fired ht hnot hkt hid).elim⟩
  · rw [hlive, ← hcleared]
    exact fun hmade => ⟨rfl, rfl, rfl, .inr (hmade.resolve_left (by simp))⟩
  · rw [hlive]
    simp

/-- A step of claiming a slot: there is none, this one is taken, or it becomes the timer's. -/
theorem Inv.claim (hpc : timer.pc = .claim) (hstep : s.timerStep t granted = some s') :
    s'.Inv := by
  simp only [timerStep, ht, hpc, Option.some.injEq] at hstep
  have hkernel : ∀ kt ∈ s.kernel, kt.id ≠ t := fun kt => h.not_fired ht (by rw [hpc]; rfl)
  split at hstep
  · refine h.put_still ht hstep (by simp [TimerPc.holds]) (by simp [TimerPc.holds])
      (fits_of_not_holds rfl) (by simp [hpc, TimerPc.live, TimerPc.firing, TimerPc.cleared])
      (by simp [hpc, TimerPc.live, TimerPc.firing])
      fun kt hkt => ⟨hkt, fun hid => (hkernel kt hkt hid).elim⟩
  split at hstep
  · refine h.put_still ht hstep (by simp [hpc]) (by simp [TimerPc.holds])
      (fits_of_not_holds (by simp [TimerPc.holds]))
      (by simp [hpc, TimerPc.live, TimerPc.firing, TimerPc.cleared])
      (by simp [hpc, TimerPc.live, TimerPc.firing])
      fun kt hkt => ⟨hkt, fun hid => (hkernel kt hkt hid).elim⟩
  next hfree =>
    refine h.write ht hpc hstep rfl rfl rfl rfl (.inr (by simpa using hfree)) ?_
    constructor <;> simp [TimerPc.hasCallback, TimerPc.hasArg, TimerPc.firing]

/-- The kernel makes a timer for the slot, or refuses. -/
theorem Inv.osTimerNew (hpc : timer.pc = .osTimerNew) (hstep : s.timerStep t granted = some s') :
    s'.Inv := by
  simp only [timerStep, ht, hpc, Option.some.injEq] at hstep
  have hfits := h.fits t timer ht
  have hused := hfits.used (by rw [hpc]; rfl)
  have hcallback := hfits.callback (by rw [hpc]; rfl)
  have harg := hfits.arg (by rw [hpc]; rfl)
  split at hstep
  · refine h.put ht hstep rfl (.inl (by rw [hpc]; rfl)) (fun _ => rfl) ?_
      (by simp [hpc, TimerPc.live, TimerPc.firing, TimerPc.cleared])
      (by simp [hpc, TimerPc.live, TimerPc.firing]) fun kt hkt => ?_
    · constructor <;> simp [hused, hcallback, harg]
    · rcases List.mem_append.mp hkt with hkt | hkt
      · exact .inl ⟨hkt, fun _ => rfl⟩
      · exact .inr ⟨List.mem_singleton.mp hkt, rfl⟩
  · refine h.write ht hpc hstep rfl rfl rfl rfl (.inl rfl) ?_
    constructor <;> simp [hused, TimerPc.hasCallback, TimerPc.hasArg, TimerPc.firing]

/-- The kernel deletes its timer, and no other, or refuses. -/
theorem Inv.osTimerDelete (hpc : timer.pc = .osTimerDelete)
    (hstep : s.timerStep t granted = some s') : s'.Inv := by
  simp only [timerStep, ht, hpc, Option.some.injEq] at hstep
  have hfits := h.fits t timer ht
  have hused := hfits.used (by rw [hpc]; rfl)
  have hcallback := hfits.callback (by rw [hpc]; rfl)
  have harg := hfits.arg (by rw [hpc]; rfl)
  have hid := hfits.id (by rw [hpc]; rfl)
  split at hstep
  · refine h.put_still ht hstep (fun _ => by rw [hpc]; rfl) (fun _ => rfl) ?_
      (fun _ => ⟨rfl, rfl, rfl, .inl rfl⟩) (fun _ => .inl rfl) fun kt hkt => ?_
    · constructor <;> simp [hused, hcallback, harg, TimerPc.firing]
    · obtain ⟨hold, hother⟩ := List.mem_filter.mp hkt
      refine ⟨hold, fun heq => ?_⟩
      rw [hid, heq] at hother
      simp at hother
  · refine h.put_still ht hstep (fun _ => by rw [hpc]; rfl) (fun _ => rfl) ?_
      (fun _ => ⟨rfl, rfl, rfl, .inl rfl⟩) (fun _ => .inl rfl) fun kt hkt => ⟨hkt, fun _ => rfl⟩
    constructor <;> simp [hused, hcallback, harg, hid]

/-- The slot is cleared once no trampoline is counted in it. -/
theorem Inv.awaitCallbacks (hpc : timer.pc = .awaitCallbacks)
    (hstep : s.timerStep t granted = some s') : s'.Inv := by
  simp only [timerStep, ht, hpc, Option.some.injEq] at hstep
  have hused := (h.fits t timer ht).used (by rw [hpc]; rfl)
  split at hstep
  next hzero =>
    refine h.put_still ht hstep (fun _ => by rw [hpc]; rfl) (fun _ => rfl) ?_
      (fun _ => ⟨rfl, rfl, rfl, .inr rfl⟩) (fun _ => .inr hzero)
      fun kt hkt => ⟨hkt, fun hid => (h.not_fired ht (by rw [hpc]; rfl) hkt hid).elim⟩
    constructor <;> simp [hused, TimerPc.hasCallback, TimerPc.hasArg, TimerPc.firing]
  · exact hstep ▸ h

end Steps

/-- **A step of creating or deleting a timer.** -/
theorem Inv.step_timer {granted : Bool} (h : s.Inv) (hstep : s.timerStep t granted = some s') :
    s'.Inv := by
  cases ht : s.timers[t]? with
  | none => simp [timerStep, ht] at hstep
  | some timer =>
    have hfits := h.fits t timer ht
    cases hpc : timer.pc with
    | noResource | created | deleted => simp [timerStep, ht, hpc] at hstep
    | claim => exact h.claim ht hpc hstep
    | osTimerNew => exact h.osTimerNew ht hpc hstep
    | osTimerDelete => exact h.osTimerDelete ht hpc hstep
    | awaitCallbacks => exact h.awaitCallbacks ht hpc hstep
    -- the other steps write one field of the slot that the timer has
    | setArg =>
      simp only [timerStep, ht, hpc, Option.some.injEq] at hstep
      refine h.write ht hpc hstep rfl rfl rfl rfl (.inl rfl) ?_
      have hused := hfits.used (by rw [hpc]; rfl)
      have hcallback := hfits.callback (by rw [hpc]; rfl)
      constructor <;> simp [hused, hcallback, TimerPc.firing]
    | setCallback | unsetCallback | clearId | clearCallback | clearArg =>
      simp only [timerStep, ht, hpc, Option.some.injEq] at hstep
      refine h.write ht hpc hstep rfl rfl rfl rfl (.inl rfl) ?_
      have hused := hfits.used (by rw [hpc]; rfl)
      constructor <;> simp [hused, TimerPc.hasCallback, TimerPc.hasArg, TimerPc.firing]
    | unclaim | freeSlot =>
      simp only [timerStep, ht, hpc, Option.some.injEq] at hstep
      exact h.write ht hpc hstep rfl rfl rfl rfl (.inl rfl) (fits_of_not_holds rfl)

/-- **A step of a trampoline** changes the slot by its count only. -/
theorem Inv.proceed (h : s.Inv) {count : Nat → Nat} {pc : TrampolinePc}
    (hj : s.trampolines[j]? = some tramp) (hs' : s.proceed j tramp count pc = s')
    (hcount : count (s.slots tramp.index).inCallback + tramp.pc.inside.toNat =
      (s.slots tramp.index).inCallback + pc.inside.toNat)
    (hcalls : ∀ timer, s.timers[tramp.timer]? = some timer → timer.slot = tramp.index →
      timer.pc.live = true ∨ timer.pc.cleared = true → tramp.Calls timer →
      Trampoline.Calls timer { tramp with pc }) : s'.Inv := by
  subst hs'
  refine
    { h with
      fits := fun u v hu => ?_
      counted := fun k => ?_
      calls := fun tramp' htramp => ?_ }
  · have hfits := h.fits u v hu
    by_cases hindex : v.slot = tramp.index
    · rw [CmsisTimers.proceed, hindex]
      dsimp only
      rw [Function.update_self, ← hindex]
      exact ⟨hfits.used, hfits.callback, hfits.arg, hfits.id⟩
    · rw [CmsisTimers.proceed]
      dsimp only
      rw [Function.update_of_ne hindex]
      exact hfits
  · have hset := Agents.countP_set_add
      (fun tramp : Trampoline => tramp.index = k && tramp.pc.inside) { tramp with pc } hj
    rw [CmsisTimers.proceed]
    dsimp only at hset ⊢
    by_cases hk : k = tramp.index
    · subst hk
      rw [Function.update_self]
      rw [← h.counted tramp.index] at hset
      simp only [decide_true, Bool.true_and] at hset ⊢
      omega
    · rw [Function.update_of_ne hk, h.counted k]
      simp only [Ne.symm hk, decide_false, Bool.false_and] at hset ⊢
      omega
  · rcases List.mem_or_eq_of_mem_set htramp with hold | rfl
    · exact h.calls tramp' hold
    · obtain ⟨timer, ht, hindex, hmade, hbefore⟩ := h.calls tramp (List.mem_of_getElem? hj)
      exact ⟨timer, ht, hindex, hmade, hcalls timer ht hindex hmade hbefore⟩

theorem Inv.step_trampoline (h : s.Inv) (hnone : s.FindsNone (.trampoline j))
    (hstep : s.trampolineStep j = some s') : s'.Inv := by
  unfold trampolineStep at hstep
  cases hj : s.trampolines[j]? with
  | none => simp [hj] at hstep
  | some tramp =>
    simp only [hj] at hstep
    cases hpc : tramp.pc with
    | returned => simp [hpc] at hstep
    | dispatched =>
      simp only [hpc, Option.some.injEq] at hstep
      split at hstep
      · exact h.proceed hj hstep (by rw [hpc]; rfl) fun _ _ _ _ _ => trivial
      · exact h.proceed hj hstep (by rw [hpc]; rfl) fun _ _ _ _ _ => trivial
    | entered =>
      simp only [hpc, Option.some.injEq] at hstep
      refine h.proceed hj hstep ?_ fun _ _ _ _ _ => ?_
      · rw [hpc]
        cases (s.slots tramp.index).used <;> rfl
      · cases (s.slots tramp.index).used <;> trivial
    | check =>
      simp only [hpc, Option.some.injEq] at hstep
      split at hstep
      next hsome =>
        refine h.proceed hj hstep (by rw [hpc]; rfl) fun timer ht _ hmade _ => ?_
        -- the timer is not being cleared: the trampoline would have found nothing
        exact hmade.resolve_right fun hcleared =>
          hsome (hnone tramp hj hpc timer ht hcleared)
      · exact h.proceed hj hstep (by rw [hpc]; rfl) fun _ _ _ _ _ => trivial
    | readCallback =>
      simp only [hpc, Option.some.injEq] at hstep
      refine h.proceed hj hstep (by rw [hpc]; rfl) fun timer ht hindex _ hcalls => ?_
      have hlive : timer.pc.live = true := by simpa only [Trampoline.Calls, hpc] using hcalls
      refine ⟨hlive, ?_⟩
      rw [← hindex]
      exact (h.fits _ timer ht).callback (hasCallback_of_live hlive)
    | readArg callback =>
      simp only [hpc, Option.some.injEq] at hstep
      refine h.proceed hj hstep (by rw [hpc]; rfl) fun timer ht hindex _ hcalls => ?_
      obtain ⟨hlive, hcallback⟩ : timer.pc.live = true ∧ callback = some timer.callback := by
        simpa only [Trampoline.Calls, hpc] using hcalls
      refine ⟨hlive, hcallback, ?_⟩
      rw [← hindex]
      exact (h.fits _ timer ht).arg (hasArg_of_live hlive)
    | calling callback arg =>
      simp only [hpc, Option.some.injEq] at hstep
      exact h.proceed hj hstep (by rw [hpc]; rfl) fun _ _ _ _ _ => trivial
    | leaving =>
      simp only [hpc, Option.some.injEq] at hstep
      refine h.proceed hj hstep ?_ fun _ _ _ _ _ => trivial
      -- it is counted itself
      have hpos : 0 < (s.slots tramp.index).inCallback := by
        rw [h.counted]
        exact List.countP_pos_iff.mpr ⟨tramp, List.mem_of_getElem? hj, by simp [hpc,
          TrampolinePc.inside]⟩
      rw [hpc]
      simp only [TrampolinePc.inside, Bool.toNat_true, Bool.toNat_false]
      omega

/-- **A step of the system keeps slots and timers apart**, if a late trampoline finds no
callback. -/
theorem Inv.step {a : Act} (h : s.Inv) (hnone : s.FindsNone a) (hstep : s.step? a = some s') :
    s'.Inv := by
  cases a with
  | create callback arg =>
    obtain rfl := Option.some.inj hstep
    have hnew : ∀ {u : Nat} {v : CmsisTimer},
        (s.timers ++ [{ callback := callback, arg := arg }])[u]? = some v →
          v.pc.holds = true → s.timers[u]? = some v := by
      intro u v hu hv
      rcases Agents.of_getElem?_append hu with ⟨-, rfl⟩ | hu
      · cases hv
      · exact hu
    refine
      { h with
        fits := fun u v hu => ?_
        alone := fun u u' v v' hu hu' hv hv' =>
          h.alone u u' v v' (hnew hu hv) (hnew hu' hv') hv hv'
        kernel := fun kt hkt => ?_
        calls := fun tramp htramp => ?_ }
    · rcases Agents.of_getElem?_append hu with ⟨-, rfl⟩ | hu
      · exact fits_of_not_holds rfl
      · exact h.fits u v hu
    · obtain ⟨v, hv, hrest⟩ := h.kernel kt hkt
      exact ⟨v, Agents.getElem?_append _ hv, hrest⟩
    · obtain ⟨v, hv, hrest⟩ := h.calls tramp htramp
      exact ⟨v, Agents.getElem?_append _ hv, hrest⟩
  | delete t =>
    simp only [step?] at hstep
    split at hstep
    next timer ht =>
      split at hstep
      next hpc =>
        have hfits := h.fits t timer ht
        refine h.put_still ht (Option.some.inj hstep) (fun _ => by rw [hpc]; rfl) (fun _ => rfl) ?_
          (fun _ => ⟨rfl, rfl, rfl, .inl rfl⟩) (fun _ => .inl rfl) fun kt hkt =>
            ⟨hkt, fun _ => rfl⟩
        constructor <;> simp [hfits.used (by rw [hpc]; rfl), hfits.callback (by rw [hpc]; rfl),
          hfits.arg (by rw [hpc]; rfl), hfits.id (by rw [hpc]; rfl)]
      · cases hstep
    · cases hstep
  | timer t granted => exact h.step_timer hstep
  | dispatch n =>
    obtain ⟨kt, hn, rfl⟩ := Option.map_eq_some_iff.mp hstep
    refine
      { h with
        counted := fun k => ?_
        calls := fun tramp htramp => ?_ }
    · rw [List.countP_append, ← h.counted k]
      simp [TrampolinePc.inside]
    · rcases List.mem_append.mp htramp with hold | hnew
      · exact h.calls tramp hold
      · obtain rfl := List.mem_singleton.mp hnew
        obtain ⟨timer, ht, hslot, hfiring⟩ := h.kernel kt (List.mem_of_getElem? hn)
        exact ⟨timer, ht, hslot, .inl (by simp [TimerPc.live, hfiring]), trivial⟩
  | trampoline j => exact h.step_trampoline hnone hstep

/-! ## Every run -/

/-- The states the adapter comes to. -/
abbrev Reachable : CmsisTimers → Prop :=
  Runs.Reachable (· = {}) fun s s' => ∃ a, s.step? a = some s'

/-- The states it comes to in steps in which a late trampoline finds no callback. -/
abbrev ClearedReachable : CmsisTimers → Prop :=
  Runs.Reachable (· = {}) fun s s' => ∃ a, s.clearedStep? a = some s'

theorem inv_empty : Inv {} where
  fits := by simp
  alone := by simp
  kernel := by simp
  counted _ := rfl
  calls := by simp

/-- **A deleted timer is not called back**, if a trampoline that enters after the wait for it finds
no callback. -/
theorem neverCallsBack (h : ClearedReachable s) : s.NeverCallsBack := by
  have hinv : s.Inv := by
    refine h.invariant (fun s hs => hs ▸ inv_empty) fun s s' hs hstep => ?_
    obtain ⟨a, hstep⟩ := hstep
    unfold clearedStep? at hstep
    split at hstep
    next hnone => exact hs.step hnone hstep
    · cases hstep
  intro tramp htramp callback arg hpc
  obtain ⟨timer, ht, -, -, hcalls⟩ := hinv.calls tramp htramp
  obtain ⟨hlive, hown⟩ : timer.pc.live = true ∧ callback = some timer.callback ∧
      arg = timer.arg := by simpa only [Trampoline.Calls, hpc] using hcalls
  refine ⟨timer, ht, fun hdeleted => ?_, hown⟩
  rw [hdeleted] at hlive
  cases hlive

/-! ## Two runs -/

/-- Several steps, if all of them can be taken. -/
def run? (as : List Act) (s : CmsisTimers) : Option CmsisTimers :=
  as.foldlM (fun s a => s.step? a) s

/-- A timer is created, and dispatched. -/
def timerFires : List Act :=
  [.create 100 7] ++ List.replicate 4 (.timer 0 true) ++ [.dispatch 0]

/-- Before the trampoline is counted, the timer is deleted and the wait is over; the trampoline
finds the callback still there; the slot is given to another timer. -/
def firesLate : List Act :=
  List.flatten [timerFires, [.delete 0, .timer 0 true, .timer 0 true],
    List.replicate 3 (.trampoline 0), List.replicate 4 (.timer 0 true),
    [.create 200 8], List.replicate 4 (.timer 1 true), List.replicate 2 (.trampoline 0)]

/-- **The trampoline of a deleted timer calls the callback of another timer.** -/
theorem deleted_timer_calls_back : ¬∀ s, Reachable s → s.NeverCallsBack := by
  intro hclaim
  have hrun : (run? firesLate {}).map (fun s =>
      decide (s.trampolines = [{ timer := 0, index := 0, pc := .calling (some 200) 8 }] ∧
        s.timers[0]?.map CmsisTimer.pc = some .deleted)) = some true := by decide +kernel
  obtain ⟨s, hs, hboth⟩ := Option.map_eq_some_iff.mp hrun
  obtain ⟨htramp, hdeleted⟩ := of_decide_eq_true hboth
  obtain ⟨timer, ht, hnot, -⟩ := hclaim s (Runs.Reachable.foldlM (.start rfl) hs) _
    (htramp ▸ List.mem_singleton_self _) _ _ rfl
  rw [ht] at hdeleted
  exact hnot (Option.some.inj hdeleted)

/-- While nobody deletes the timer, its trampoline calls it. -/
def callsBack : List Act := timerFires ++ List.replicate 5 (.trampoline 0)

theorem neverCallsBack_fires :
    (callsBack.foldlM (fun s a => clearedStep? a s) {}).elim False fun s =>
      s.trampolines = [{ timer := 0, index := 0, pc := .calling (some 100) 7 }] ∧
        s.NeverCallsBack := by
  have hrun : (callsBack.foldlM (fun s a => clearedStep? a s) {}).map CmsisTimers.trampolines =
      some [{ timer := 0, index := 0, pc := .calling (some 100) 7 }] := by decide +kernel
  obtain ⟨s, hs, htramp⟩ := Option.map_eq_some_iff.mp hrun
  rw [hs]
  exact ⟨htramp, neverCallsBack (Runs.Reachable.foldlM (.start rfl) hs)⟩

end CmsisTimers

end CallManagerMini
