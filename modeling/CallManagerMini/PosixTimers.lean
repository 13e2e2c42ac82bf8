import CallManagerMini.CmsisTimers
import CallManagerMini.Lib.Journal
import CallManagerMini.TimerArithmetic

/-! # The timers of the host's adapter

One thread of `tel_os_adapter_posix.cpp` serves all timers (`TimerServiceLoop`).  It keeps a list
of them under a lock, waits on a condition variable until the earliest deadline of those that are
armed, and gives the lock back to call the callback of a timer.  What a thread does with the lock
held is one step; a wait may end for no reason at all.  A log tells what the calls have returned
and when callbacks ran, and what is said of a timer here is said by the log: when it is armed
(`armedAt`), whether it is in the list (`Linked`), whose callback runs (`runningAt`).
-/

namespace CallManagerMini

/-- `PosixTimer`, but its place in the list. -/
structure PosixTimer where
  callback : TelOsTimerCallback
  arg : Nat
  armed : Bool := false
  deadlineNs : Nat := 0
  deriving DecidableEq, Repr

/-- Where the thread that serves the timers stands. -/
inductive ServicePc where
  /-- It is about to take the lock for the first time. -/
  | starting
  /-- It is in `pthread_cond_wait`, or in `pthread_cond_timedwait` with a limit. -/
  | waiting (untilNs : Option Nat) (woken : Bool)
  /-- It runs a callback, without the lock. -/
  | calling (callback : TelOsTimerCallback) (arg : Nat)
  deriving DecidableEq, Repr

/-- Where a call of `TelOsTimerDelete` stands that has taken its timer out of the list. -/
inductive TimerDeletePc where
  /-- It waits until the callback of the timer has returned. -/
  | waiting (woken : Bool)
  /-- It has given the lock back. -/
  | unlocked
  /-- It has returned `OK`. -/
  | deleted
  deriving DecidableEq, Repr

/-- A call of `TelOsTimerDelete`; `byService` in a callback. -/
structure TimerDelete where
  timer : Nat
  byService : Bool
  pc : TimerDeletePc
  deriving DecidableEq, Repr

/-- What the calls have returned, and what the thread does. -/
inductive TimerEvent where
  | created (t : Nat)
  | started (t deadlineNs : Nat)
  /-- `TelOsTimerStop` has returned `OK`, or `FAIL`. -/
  | stopped (t : Nat) (ok : Bool)
  | called (t now : Nat)
  | finished (t : Nat)
  /-- `TelOsTimerDelete` has taken the timer out of the list. -/
  | unlinked (t : Nat)
  /-- `TelOsTimerDelete` has returned `OK`. -/
  | deleted (t : Nat)
  /-- It has returned `INVALID_PARAM`. -/
  | refused (t : Nat)
  deriving DecidableEq, Repr

/-- `TimerService`, the objects there are, and the calls under way. -/
structure TimerService where
  /-- `MonotonicNs`. -/
  now : Nat := 0
  /-- The timers ever made; where one was deleted, there is none. -/
  heap : List (Option PosixTimer) := []
  /-- The list, from its head. -/
  timers : List Nat := []
  running : Option Nat := none
  pc : ServicePc := .starting
  deletes : List TimerDelete := []
  log : List TimerEvent := []
  deriving DecidableEq, Repr

namespace TimerService

/-- The timer at an address. -/
def object (t : Nat) (s : TimerService) : Option PosixTimer := s.heap[t]?.join

/-- Write a timer. -/
def write (t : Nat) (timer : PosixTimer) (s : TimerService) : TimerService :=
  { s with heap := s.heap.set t (some timer) }

/-- The earlier of `best` and the timer `t`, if this is armed. -/
def pick (s : TimerService) (best : Option (Nat × PosixTimer)) (t : Nat) :
    Option (Nat × PosixTimer) :=
  match s.object t with
  | none => best
  | some timer =>
    if timer.armed = true ∧ ∀ b ∈ best, timer.deadlineNs < b.2.deadlineNs then some (t, timer)
    else best

/-- The earliest of the timers that are armed. -/
def earliest (s : TimerService) : Option (Nat × PosixTimer) := s.timers.foldl s.pick none

/-- One round of `TimerServiceLoop`, from when it has the lock until it gives it back. -/
def serveLocked (s : TimerService) : TimerService :=
  match s.earliest with
  | none => { s with pc := .waiting none false }
  | some (t, timer) =>
    if s.now < timer.deadlineNs then { s with pc := .waiting (some timer.deadlineNs) false }
    else
      { s.write t { timer with armed := false } with
        running := some t
        pc := .calling timer.callback timer.arg
        log := s.log ++ [.called t s.now] }

end TimerService

/-- A broadcast reaches the thread where it waits. -/
def ServicePc.wake : ServicePc → ServicePc
  | .waiting untilNs _ => .waiting untilNs true
  | pc => pc

/-- It reaches a call where it waits. -/
def TimerDelete.wake (d : TimerDelete) : TimerDelete :=
  match d.pc with
  | .waiting _ => { d with pc := .waiting true }
  | _ => d

namespace TimerService

/-- `pthread_cond_broadcast`. -/
def broadcast (s : TimerService) : TimerService :=
  { s with pc := s.pc.wake, deletes := s.deletes.map TimerDelete.wake }

/-- `TelOsTimerCreate`, where there is a thread and memory. -/
def create (callback : TelOsTimerCallback) (arg : Nat) (s : TimerService) : TimerService :=
  { s with
    heap := s.heap ++ [some { callback, arg }]
    timers := s.heap.length :: s.timers
    log := s.log ++ [.created s.heap.length] }

/-- `TelOsTimerStart` of a timer there is. -/
def start (freq : BitVec 32) (t : Nat) (timer : PosixTimer) (delayMs : BitVec 32)
    (s : TimerService) : TimerService :=
  if delayMs = telOsWaitForever then s
  else
    let ticks := telOsMsToTicks freq delayMs
    let ticks := if ticks = 0#32 then 1#32 else ticks
    let deadlineNs := s.now + ticksToNs freq ticks
    { (s.write t { timer with deadlineNs, armed := true }).broadcast with
      log := s.log ++ [.started t deadlineNs] }

/-- `TelOsTimerStop` of a timer there is. -/
def stop (t : Nat) (timer : PosixTimer) (s : TimerService) : TimerService :=
  { s.write t { timer with armed := false } with log := s.log ++ [.stopped t timer.armed] }

/-- `TelOsTimerDelete`, until it waits, gives the lock back, or returns an error. -/
def delete (t : Nat) (byService : Bool) (s : TimerService) : TimerService :=
  if s.running = some t ∧ byService = true then { s with log := s.log ++ [.refused t] }
  else if t ∉ s.timers then { s with log := s.log ++ [.refused t] }
  else
    { s with
      timers := s.timers.erase t
      deletes := s.deletes ++ [{
        timer := t, byService
        pc := if s.running = some t then .waiting false else .unlocked }]
      log := s.log ++ [.unlinked t] }

/-- The call `i` of `TelOsTimerDelete` goes on: it leaves `pthread_cond_wait`, or it deletes the
object. -/
def deleteStep (i : Nat) (d : TimerDelete) (s : TimerService) : Option TimerService :=
  match d.pc with
  | .waiting _ =>
    let pc := if s.running = some d.timer then .waiting false else .unlocked
    some { s with deletes := s.deletes.set i { d with pc } }
  | .unlocked =>
    some { s with
      heap := s.heap.set d.timer none
      deletes := s.deletes.set i { d with pc := .deleted }
      log := s.log ++ [.deleted d.timer] }
  | .deleted => none

/-- What can happen next. -/
inductive Act where
  /-- Time passes. -/
  | pass (ns : Nat)
  | create (callback : TelOsTimerCallback) (arg : Nat)
  | start (t : Nat) (delayMs : BitVec 32)
  | stop (t : Nat)
  | delete (t : Nat) (byService : Bool)
  | deleteStep (i : Nat)
  /-- The thread starts, or leaves `pthread_cond_wait`, woken or not. -/
  | serve
  /-- The callback returns. -/
  | finish
  deriving DecidableEq, Repr

/-- **One step**, if it can be taken.  Only a timer that was not deleted is started or stopped;
what is called in a callback has returned when the callback does. -/
def step? (freq : BitVec 32) (a : Act) (s : TimerService) : Option TimerService :=
  match a with
  | .pass ns => some { s with now := s.now + ns }
  | .create callback arg => some (s.create callback arg)
  | .start t delayMs => (s.object t).map fun timer => s.start freq t timer delayMs
  | .stop t => (s.object t).map fun timer => s.stop t timer
  | .delete t byService =>
    if byService = true ∧ s.running = none then none else some (s.delete t byService)
  | .deleteStep i => s.deletes[i]?.bind fun d => s.deleteStep i d
  | .serve =>
    match s.pc with
    | .calling .. => none
    | .starting | .waiting .. => some s.serveLocked
  | .finish =>
    match s.running with
    | none => none
    | some t =>
      if ∃ d ∈ s.deletes, d.byService = true ∧ d.pc ≠ .deleted then none
      else
        -- the lock is kept from here to the next round
        let returned : TimerService :=
          { s with running := none, pc := .starting, log := s.log ++ [.finished t] }
        some returned.broadcast.serveLocked

/-- The states the runs of the host's timers reach. -/
abbrev Reachable (freq : BitVec 32) : TimerService → Prop :=
  Runs.Reachable (fun s => s = {}) fun s s' => ∃ a, s.step? freq a = some s'

end TimerService

/-! ## What the log tells -/

/-- When a timer that is armed is due. -/
def armedAt (log : List TimerEvent) (t : Nat) : Option Nat :=
  log.foldl (fun (armed : Option Nat) (e : TimerEvent) =>
    match e with
    | .started u deadlineNs => if u = t then some deadlineNs else armed
    | .stopped u _ | .called u _ => if u = t then none else armed
    | _ => armed) none

/-- Whose callback runs. -/
def runningAt (log : List TimerEvent) : Option Nat :=
  log.foldl (fun (running : Option Nat) (e : TimerEvent) =>
    match e with
    | .called t _ => some t
    | .finished _ => none
    | _ => running) none

/-- It was created, and nobody has begun to delete it. -/
def Linked (log : List TimerEvent) (t : Nat) : Prop := .created t ∈ log ∧ .unlinked t ∉ log

/-- An event is right after those in `log`. -/
def TimerEvent.Right (log : List TimerEvent) : TimerEvent → Prop
  | .created t => .created t ∉ log
  | .started t _ => .created t ∈ log ∧ .deleted t ∉ log
  -- a timer can be stopped exactly while it is armed
  | .stopped t ok => ok = (armedAt log t).isSome
  -- no callback runs; the timer is in the list, it is armed and due, and none of the list is due
  -- before it
  | .called t now => runningAt log = none ∧ Linked log t ∧ ∃ deadlineNs,
      armedAt log t = some deadlineNs ∧ deadlineNs ≤ now ∧
      ∀ u deadlineNs', Linked log u → armedAt log u = some deadlineNs' → deadlineNs ≤ deadlineNs'
  | .finished t => runningAt log = some t
  | .unlinked t => Linked log t
  -- it is deleted once, and its callback does not run
  | .deleted t => .unlinked t ∈ log ∧ .deleted t ∉ log ∧ runningAt log ≠ some t
  | .refused t => ¬ Linked log t ∨ runningAt log = some t

/-! ## What a step does to the log and the objects -/

section Log
variable {log : List TimerEvent} {t u deadlineNs now : Nat} {ok : Bool} {e : TimerEvent}

theorem armedAt_concat : armedAt (log ++ [e]) t =
    match e with
    | .started u deadlineNs => if u = t then some deadlineNs else armedAt log t
    | .stopped u _ | .called u _ => if u = t then none else armedAt log t
    | _ => armedAt log t := by
  unfold armedAt
  rw [List.foldl_append, List.foldl_cons, List.foldl_nil]

theorem runningAt_concat : runningAt (log ++ [e]) =
    match e with
    | .called t _ => some t
    | .finished _ => none
    | _ => runningAt log := by
  unfold runningAt
  rw [List.foldl_append, List.foldl_cons, List.foldl_nil]

/-- Most events leave the list as it is. -/
theorem linked_concat (hcreated : ∀ u, e ≠ .created u) (hunlinked : ∀ u, e ≠ .unlinked u) :
    Linked (log ++ [e]) t ↔ Linked log t := by
  unfold Linked
  rw [List.mem_append, List.mem_append, List.mem_singleton, List.mem_singleton]
  simp [(hcreated t).symm, (hunlinked t).symm]

end Log

namespace TimerService

variable {freq delayMs : BitVec 32} {t u i arg : Nat} {callback : TelOsTimerCallback}
  {timer timer' : PosixTimer} {d : TimerDelete} {a : Act} {byService : Bool}
  {b : Nat × PosixTimer} {best : Option (Nat × PosixTimer)} {ts : List Nat}
  {s s' : TimerService}

theorem object_lt (h : s.object t = some timer) : t < s.heap.length := by
  by_contra hge
  unfold object at h
  rw [List.getElem?_eq_none (Nat.le_of_not_lt hge)] at h
  cases h

theorem object_write_self (h : s.object t = some timer) :
    (s.write t timer').object t = some timer' := by
  unfold object write
  rw [List.getElem?_set_self (object_lt h)]
  rfl

theorem object_write_ne (h : u ≠ t) : (s.write t timer').object u = s.object u := by
  unfold object write
  rw [List.getElem?_set_ne (Ne.symm h)]

/-- The objects after one was written. -/
theorem object_write (h : s.object t = some timer)
    (hu : (s.write t timer').object u = some timer₁) :
    (u = t ∧ timer₁ = timer') ∨ (u ≠ t ∧ s.object u = some timer₁) := by
  by_cases hut : u = t
  · subst hut
    rw [object_write_self h] at hu
    exact .inl ⟨rfl, (Option.some.inj hu).symm⟩
  · rw [object_write_ne hut] at hu
    exact .inr ⟨hut, hu⟩

/-- A timer is still there after one was written. -/
theorem object_write_some (h : s.object t = some timer) :
    (∃ timer₁, (s.write t timer').object u = some timer₁) ↔ ∃ timer₁, s.object u = some timer₁ := by
  by_cases hut : u = t
  · subst hut
    rw [object_write_self h, h]
    simp
  · rw [object_write_ne hut]

/-! ## The earliest timer -/

/-- What `best` is after some timers. -/
structure Earliest (s : TimerService) (best : Option (Nat × PosixTimer)) (ts : List Nat)
    (b : Nat × PosixTimer) : Prop where
  found : best = some b ∨ b.1 ∈ ts ∧ s.object b.1 = some b.2 ∧ b.2.armed = true
  best : ∀ b' ∈ best, b.2.deadlineNs ≤ b'.2.deadlineNs
  first : ∀ t ∈ ts, ∀ timer, s.object t = some timer → timer.armed = true →
    b.2.deadlineNs ≤ timer.deadlineNs

/-- What one timer makes of `best`. -/
theorem pick_cases (s : TimerService) (best : Option (Nat × PosixTimer)) (t : Nat) :
    (s.pick best t = best ∧ ∀ timer, s.object t = some timer → timer.armed = true →
      ∃ b ∈ best, b.2.deadlineNs ≤ timer.deadlineNs) ∨
    ∃ timer, s.object t = some timer ∧ timer.armed = true ∧ s.pick best t = some (t, timer) ∧
      ∀ b ∈ best, timer.deadlineNs ≤ b.2.deadlineNs := by
  unfold pick
  cases hobject : s.object t with
  | none => exact .inl ⟨rfl, by simp⟩
  | some timer =>
    dsimp only
    by_cases hpick : timer.armed = true ∧ ∀ b ∈ best, timer.deadlineNs < b.2.deadlineNs
    · rw [if_pos hpick]
      exact .inr ⟨timer, rfl, hpick.1, rfl, fun b hb => Nat.le_of_lt (hpick.2 b hb)⟩
    · rw [if_neg hpick]
      refine .inl ⟨rfl, fun timer₁ htimer harmed => ?_⟩
      obtain rfl := Option.some.inj htimer
      by_contra hnone
      exact hpick ⟨harmed, fun b hb => by
        by_contra hge
        exact hnone ⟨b, hb, Nat.le_of_not_lt hge⟩⟩

theorem foldl_pick_none (h : ts.foldl s.pick best = none) :
    best = none ∧ ∀ t ∈ ts, ∀ timer, s.object t = some timer → timer.armed = false := by
  induction ts generalizing best with
  | nil => exact ⟨h, by simp⟩
  | cons t ts ih =>
    obtain ⟨hpick, hrest⟩ := ih h
    rcases pick_cases s best t with ⟨hsame, hlater⟩ | ⟨timer, -, -, hpicked, -⟩
    · refine ⟨hsame.symm.trans hpick, fun u hu timer htimer => ?_⟩
      rcases List.mem_cons.mp hu with rfl | hu
      · by_contra harmed
        obtain ⟨b, hb, -⟩ := hlater timer htimer (by simpa using harmed)
        rw [← hsame, hpick] at hb
        cases hb
      · exact hrest u hu timer htimer
    · rw [hpicked] at hpick
      cases hpick

theorem foldl_pick_some (h : ts.foldl s.pick best = some b) : Earliest s best ts b := by
  induction ts generalizing best with
  | nil =>
    obtain rfl : best = some b := h
    exact ⟨.inl rfl, by simp, by simp⟩
  | cons t ts ih =>
    have hb := ih h
    rcases pick_cases s best t with ⟨hsame, hlater⟩ | ⟨timer, htimer, harmed, hpicked, hfirst⟩
    · rw [hsame] at hb
      refine ⟨?_, hb.best, fun u hu timer htimer harmed => ?_⟩
      · rcases hb.found with hfound | ⟨hmem, hfound⟩
        · exact .inl hfound
        · exact .inr ⟨List.mem_cons_of_mem _ hmem, hfound⟩
      · rcases List.mem_cons.mp hu with rfl | hu
        · obtain ⟨b', hb', hle⟩ := hlater timer htimer harmed
          exact Nat.le_trans (hb.best b' hb') hle
        · exact hb.first u hu timer htimer harmed
    · rw [hpicked] at hb
      have hle : b.2.deadlineNs ≤ timer.deadlineNs := hb.best (t, timer) rfl
      refine ⟨.inr ?_, fun b' hb' => Nat.le_trans hle (hfirst b' hb'), fun u hu timer₁ htimer₁ harmed₁ => ?_⟩
      · rcases hb.found with hfound | ⟨hmem, hfound⟩
        · obtain rfl := Option.some.inj hfound
          exact ⟨List.mem_cons_self .., htimer, harmed⟩
        · exact ⟨List.mem_cons_of_mem _ hmem, hfound⟩
      · rcases List.mem_cons.mp hu with rfl | hu
        · obtain rfl := Option.some.inj (htimer.symm.trans htimer₁)
          exact hle
        · exact hb.first u hu timer₁ htimer₁ harmed₁

end TimerService

end CallManagerMini
