import CallManagerMini.DelayedTimes
import CallManagerMini.ReleasedObjects

/-! # The table of delayed tasks

`PostAsyncTask` enters a task that is posted with a delay into `delayed_` and gives out a handle
for it, `RemoveAsyncTask` takes it out again, and so does `RunDueTasks` once it is due.  The due
times are values of a counter that wraps, and are compared by their signed distance.  The `Agenda`
notes of every post that is accepted at which tick it is due, counted from the start of the
system.  As long as no delay and no lateness comes to `2 ^ 30` ticks, the distances are true, and
the table is sorted by these ticks when a task is entered (`Ordered.insert`) or removed
(`Ordered.remove`).
-/

namespace CallManagerMini

namespace Call

/-- It posts a task with a delay. -/
def isDelayed (c : Call) : Bool :=
  match c.request with
  | .postAsyncTask delayMs => delayMs ≠ 0#32
  | _ => false

/-- What it returns, or has returned. -/
def outcome (c : Call) : Option Outcome :=
  match c.pc with
  | .leaving outcome | .returned outcome => some outcome
  | _ => none

/-- The handle a post with a delay was given. -/
def handle (c : Call) : Option TelMiniTaskId :=
  match c.outcome with
  | some (.ret .success taskId) => if c.isDelayed then some taskId else none
  | _ => none

/-- The handle for which `RemoveAsyncTask` returns true. -/
def removed (c : Call) : Option TelMiniTaskId :=
  match c.request, c.outcome with
  | .removeAsyncTask taskId, some (.removed true) => some taskId
  | _, _ => none

/-- A post with a delay enters its task, and nobody else does; it sends no message. -/
def Direct (c : Call) : Prop :=
  match c.pc with
  | .called | .counted | .leaving _ | .returned _ => True
  | .insert => c.isDelayed = true
  | _ => c.isDelayed = false

/-- Its delay is not too long for the table. -/
def Short (config : LosEventHandler.Config) (c : Call) : Prop :=
  ∀ delayMs, c.request = .postAsyncTask delayMs →
    (telOsMsToTicks config.tickFreq delayMs).toNat ≤ 2 ^ 30

end Call

/-- The delayed tasks the loop has taken out and not run yet. -/
def LoopPc.toRun : LoopPc → List Nat
  | .runDelayed calls => calls
  | _ => []

/-- What is known of the posts that were accepted: the tick the task of a call is due at, the place
of its post among them, their number; and the calls that have changed the table. -/
structure Agenda where
  due : Nat → Nat := fun _ => 0
  order : Nat → Nat := fun _ => 0
  posts : Nat := 0
  changers : List Nat := []

/-- The post `i` is accepted, its task is due at this tick. -/
def Agenda.enter (i due : Nat) (agenda : Agenda) : Agenda :=
  { agenda with
    due := Function.update agenda.due i due
    order := Function.update agenda.order i (agenda.posts + 1)
    posts := agenda.posts + 1 }

theorem Agenda.enter_due_self (i due : Nat) (agenda : Agenda) : (agenda.enter i due).due i = due :=
  Function.update_self ..

theorem Agenda.enter_due {i j due : Nat} {agenda : Agenda} (h : j ≠ i) :
    (agenda.enter i due).due j = agenda.due j := Function.update_of_ne h ..

theorem Agenda.enter_order_self (i due : Nat) (agenda : Agenda) :
    (agenda.enter i due).order i = agenda.posts + 1 := Function.update_self ..

theorem Agenda.enter_order {i j due : Nat} {agenda : Agenda} (h : j ≠ i) :
    (agenda.enter i due).order j = agenda.order j := Function.update_of_ne h ..

/-- The call `i` has changed the table. -/
def Agenda.change (i : Nat) (agenda : Agenda) : Agenda :=
  { agenda with changers := i :: agenda.changers }

namespace LosEventHandler

variable {config : Config} {s s' s₁ : LosEventHandler} {i : Nat} {c c' : Call} {a : Act}
  {agenda : Agenda}

/-- The handle the call `i` was given. -/
def handle (s : LosEventHandler) (i : Nat) : Option TelMiniTaskId := s.calls[i]?.bind Call.handle

/-- How many calls of `RemoveAsyncTask` return true for this handle. -/
def removals (s : LosEventHandler) (taskId : TelMiniTaskId) : Nat :=
  s.calls.countP fun c => c.removed = some taskId

/-- The ticks the task of the call `i` is put off by. -/
def putOff (config : Config) (i : Nat) (s : LosEventHandler) : Nat :=
  match s.calls[i]?.map Call.request with
  | some (.postAsyncTask delayMs) => (delayTicks config delayMs).toNat
  | _ => 0

/-- What is noted of a step: a post is accepted when it is given a handle. -/
def schedule (config : Config) (a : Act) (s s' : LosEventHandler) (agenda : Agenda) : Agenda :=
  match a with
  | .call i _ =>
    let agenda := if s.handle i = none ∧ s'.handle i ≠ none then
      agenda.enter i (s.tick + s.putOff config i) else agenda
    if s'.delayed = s.delayed then agenda else agenda.change i
  | _ => agenda

/-- The delay of a post. -/
def Act.delay : Act → Option (BitVec 32)
  | .invoke (.postAsyncTask delayMs) _ => some delayMs
  | _ => none

/-- A step the table is made for. -/
structure Timely (config : Config) (a : Act) (s s' : LosEventHandler) (agenda : Agenda) :
    Prop where
  /-- A handler that runs is not stopped. -/
  running : s.state = .running → s'.state = .running
  short : ∀ delayMs ∈ a.delay, (telOsMsToTicks config.tickFreq delayMs).toNat ≤ 2 ^ 30
  late : ∀ entry ∈ s'.delayed, s'.tick < agenda.due entry.call + 2 ^ 30
  few : agenda.posts < 2 ^ 32 - 1

instance : Decidable (Timely config a s s' agenda) :=
  decidable_of_iff ((s.state = .running → s'.state = .running) ∧
      (a.delay.all fun delayMs => (telOsMsToTicks config.tickFreq delayMs).toNat ≤ 2 ^ 30) ∧
      (∀ entry ∈ s'.delayed, s'.tick < agenda.due entry.call + 2 ^ 30) ∧
      agenda.posts < 2 ^ 32 - 1)
    ⟨fun ⟨h1, h2, h3, h4⟩ => ⟨h1, by simpa [Option.all_eq_true] using h2, h3, h4⟩,
      fun ⟨h1, h2, h3, h4⟩ => ⟨h1, by simpa [Option.all_eq_true] using h2, h3, h4⟩⟩

/-- One step, with what is noted of it. -/
def scheduledStep? (config : Config) (a : Act) (p : LosEventHandler × Agenda) :
    Option (LosEventHandler × Agenda) :=
  (p.1.step? config a).bind fun s' =>
    let agenda := schedule config a p.1 s' p.2
    if Timely config a p.1 s' agenda then some (s', agenda) else none

/-- The states the handler comes to in such steps. -/
abbrev Scheduled (config : Config) : LosEventHandler × Agenda → Prop :=
  Runs.Reachable (· = ({}, {})) fun p p' => ∃ a, scheduledStep? config a p = some p'

/-- What became of the task of the call `i`: how often it is in the table, taken out to be run,
has been run, or removed. -/
def whereabouts (s : LosEventHandler) (i : Nat) : Nat :=
  (s.delayed.countP fun entry => entry.call = i) + s.loop.toRun.count i + s.log.count (.ran i) +
    (s.handle i).elim 0 s.removals

/-- **The table is in order.** -/
structure InOrder (config : Config) (agenda : Agenda) (s : LosEventHandler) : Prop where
  /-- An entry stands for a post that was accepted. -/
  entries : ∀ entry ∈ s.delayed, s.handle entry.call = some entry.id ∧
    entry.dueTick = BitVec.ofNat 32 (agenda.due entry.call)
  /-- By due time, and in the order of the posts where the due times are the same. -/
  sorted : s.delayed.Pairwise (SortedInsert.Before (fun entry => agenda.due entry.call)
    fun entry => agenda.order entry.call)
  /-- `RunDueTasks` takes out what is due, in that order, and leaves the rest. -/
  taken : (s.takeDueLocked config).loop = .runDelayed ((s.delayed.filter fun entry =>
    agenda.due entry.call ≤ s.tick).map DelayedTask.call)
  left : (s.takeDueLocked config).delayed =
    s.delayed.filter fun entry => s.tick < agenda.due entry.call
  /-- A task that was accepted waits or is to be run, or it has been run or removed: once. -/
  once : ∀ i, s.handle i ≠ none → s.whereabouts i = 1
  /-- A `RemoveAsyncTask` that returns false has left the table as it was. -/
  unchanged : ∀ i c taskId, s.calls[i]? = some c → c.request = .removeAsyncTask taskId →
    c.outcome = some (.removed false) → i ∉ agenda.changers
  nonzero : ∀ i, s.handle i ≠ some telMiniInvalidTaskId
  distinct : ∀ i j taskId, s.handle i = some taskId → s.handle j = some taskId → i = j

/-! ## What keeps the order -/

/-- There is a call `i`, and it does not post a task with a delay. -/
def Immediate (s : LosEventHandler) (i : Nat) : Prop :=
  ∃ c, s.calls[i]? = some c ∧ c.isDelayed = false

/-- A message is on its way that runs the task of the call `i`, or its task is next. -/
def Carries (s : LosEventHandler) (i : Nat) : Prop :=
  0 < s.inFlight (.asyncTask i) ∨ s.loop = .runAsync i

/-- No `Stop` is under way, and the messages have nothing to do with the table. -/
structure Straight (config : Config) (s : LosEventHandler) : Prop where
  unstopped : s.state ≠ .stopping
  direct : ∀ c ∈ s.calls, c.Direct
  short : ∀ c ∈ s.calls, c.Short config
  carried : ∀ i, s.Carries i → s.Immediate i

/-- **What holds of the table** in every state of such a run. -/
structure Ordered (agenda : Agenda) (s : LosEventHandler) : Prop where
  entries : ∀ entry ∈ s.delayed, s.handle entry.call = some entry.id ∧
    entry.dueTick = BitVec.ofNat 32 (agenda.due entry.call)
  near : ∀ entry ∈ s.delayed, agenda.due entry.call ≤ s.tick + 2 ^ 30
  late : ∀ entry ∈ s.delayed, s.tick < agenda.due entry.call + 2 ^ 30
  sorted : s.delayed.Pairwise (SortedInsert.Before (fun entry => agenda.due entry.call)
    fun entry => agenda.order entry.call)
  lastTaskId : s.lastTaskId = BitVec.ofNat 32 agenda.posts
  few : agenda.posts < 2 ^ 32 - 1
  handles : ∀ i taskId, s.handle i = some taskId →
    taskId = BitVec.ofNat 32 (agenda.order i) ∧ 1 ≤ agenda.order i ∧ agenda.order i ≤ agenda.posts
  orders : ∀ i j, s.handle i ≠ none → s.handle j ≠ none → agenda.order i = agenda.order j → i = j
  removals : ∀ taskId, 0 < s.removals taskId → taskId.toNat ≤ agenda.posts
  once : ∀ i, ¬s.Immediate i → s.whereabouts i = (s.handle i).elim 0 fun _ => 1
  changers : ∀ i ∈ agenda.changers, ∃ c, s.calls[i]? = some c ∧
    (c.isDelayed = true ∨ c.removed ≠ none)

/-! ## The calls that are not concerned -/

theorem handle_of_immediate (h : c.isDelayed = false) : c.handle = none := by
  unfold Call.handle
  split
  · simp [h]
  · rfl

theorem direct_of_immediate (h : c.isDelayed = false) (hpc : c.pc ≠ .insert) : c.Direct := by
  unfold Call.Direct
  split
  · trivial
  · trivial
  · trivial
  · trivial
  next heq => exact absurd heq hpc
  · exact h

theorem enqueued_ne_insert (c : Call) (ret : RetCode) :
    (c.goto (c.request.enqueued ret)).pc ≠ .insert := by
  unfold HandlerRequest.enqueued
  cases c.request with
  | postSyncTask | onTimerExpired =>
    dsimp only
    split <;> simp
  | _ => simp

theorem direct_admitted (c : Call) : (c.goto c.request.admitted).Direct := by
  unfold HandlerRequest.admitted
  cases hreq : c.request with
  | postAsyncTask delayMs =>
    dsimp only
    split
    next hzero => simp [Call.Direct, Call.isDelayed, hreq, hzero]
    next hdelay => simp [Call.Direct, Call.isDelayed, hreq, hdelay]
  | removeAsyncTask taskId =>
    dsimp only
    split <;> simp [Call.Direct, Call.isDelayed, hreq]
  | _ => simp [Call.Direct, Call.isDelayed, hreq]

/-- A post with a delay stays on its way. -/
theorem CallMove.direct (hm : CallMove config i s c s₁ c') (h : c.Direct) : c'.Direct := by
  cases hm with
  | enter | refuse | insert | insertFull | remove | removeNone | runInPlace | acquireNone
  | exchangeQueued | freeSlot | settle | settleDone | abandon | rearm | leave => trivial
  | allow => exact direct_admitted c
  | enqueue hpc =>
    simp only [Call.Direct, hpc] at h
    refine direct_of_immediate (c := c.goto _) h ?_
    cases config.poster <;> simp
  | starve hpc | enqueueStopped hpc | post hpc | postRefused hpc | pushFull hpc | signal hpc =>
    simp only [Call.Direct, hpc] at h
    exact direct_of_immediate h (enqueued_ne_insert c _)
  | _ hpc =>
    simp only [Call.Direct, hpc] at h
    exact h

theorem handle_of_outcome (h : ∀ taskId, c.outcome ≠ some (.ret .success taskId)) :
    c.handle = none := by
  unfold Call.handle
  split
  next heq => exact absurd heq (h _)
  · rfl

theorem removed_of_outcome (h : c.outcome ≠ some (.removed true)) : c.removed = none := by
  unfold Call.removed
  split
  next heq => exact absurd heq h
  · rfl

theorem outcome_admitted (c : Call) : (c.goto c.request.admitted).outcome = none ∨
    (c.goto c.request.admitted).outcome = some (.removed false) := by
  unfold HandlerRequest.admitted
  cases c.request with
  | postAsyncTask =>
    dsimp only
    split <;> exact .inl rfl
  | removeAsyncTask =>
    dsimp only
    split
    · exact .inr rfl
    · exact .inl rfl
  | _ => exact .inl rfl

theorem outcome_enqueued (c : Call) (ret : RetCode) :
    (c.goto (c.request.enqueued ret)).outcome ≠ some (.removed true) := by
  unfold HandlerRequest.enqueued
  cases c.request with
  | postSyncTask | onTimerExpired =>
    dsimp only
    split <;> simp [Call.outcome]
  | _ => simp [Call.outcome]

/-- What a move of a call does to the table. -/
inductive TableMove (config : Config) (i : Nat) (s : LosEventHandler) (c : Call) :
    LosEventHandler → Call → Prop where
  | insert {delayMs : BitVec 32} : c.pc = .insert → c.request = .postAsyncTask delayMs →
    TableMove config i s c (s.enterDelayed config i delayMs)
      (c.goto (.leaving (.ret .success s.nextTaskId)))
  | remove {taskId : TelMiniTaskId} {k : Nat} : c.pc = .remove →
    c.request = .removeAsyncTask taskId →
    (s.delayed.findIdx? fun entry => entry.id = taskId) = some k →
    TableMove config i s c (s.eraseDelayed config k) (c.goto (.leaving (.removed true)))
  | aside {t : LosEventHandler} {d : Call} : t.delayed = s.delayed →
    t.lastTaskId = s.lastTaskId → d.handle = c.handle → d.removed = c.removed →
    TableMove config i s c t d

theorem CallMove.tableMove (hm : CallMove config i s c s₁ c') (h : c.Direct) :
    TableMove config i s c s₁ c' := by
  -- the call has no outcome yet, and comes to none that concerns the table
  have haside : c.outcome = none → (∀ taskId, c'.outcome ≠ some (.ret .success taskId)) →
      c'.outcome ≠ some (.removed true) → s₁.delayed = s.delayed →
      s₁.lastTaskId = s.lastTaskId → TableMove config i s c s₁ c' := by
    intro hout hout' hremoved hdelayed hlast
    refine .aside hdelayed hlast ?_ ?_
    · rw [handle_of_outcome hout', handle_of_outcome (by simp [hout])]
    · rw [removed_of_outcome hremoved, removed_of_outcome (by simp [hout])]
  have himmediate : c.isDelayed = false → c.outcome = none →
      c'.outcome ≠ some (.removed true) → s₁.delayed = s.delayed →
      s₁.lastTaskId = s.lastTaskId → TableMove config i s c s₁ c' := by
    intro himm hout hremoved hdelayed hlast
    have himm' : c'.isDelayed = false := by rwa [Call.isDelayed, hm.request]
    refine .aside hdelayed hlast ?_ ?_
    · rw [handle_of_immediate himm, handle_of_immediate himm']
    · rw [removed_of_outcome hremoved, removed_of_outcome (by simp [hout])]
  cases hm with
  | insert hpc hreq => exact .insert hpc hreq
  | remove hpc hreq hk => exact .remove hpc hreq hk
  | enter hpc =>
    exact haside (by simp [Call.outcome, hpc]) (by simp [Call.outcome]) (by simp [Call.outcome])
      rfl rfl
  | allow hpc =>
    have hout := outcome_admitted c
    refine haside (by simp [Call.outcome, hpc]) (fun taskId heq => ?_) (fun heq => ?_) rfl rfl <;>
      simp [heq] at hout
  | refuse hpc =>
    refine haside (by simp [Call.outcome, hpc]) ?_ ?_ rfl rfl <;>
      cases hreq : c.request <;> simp [Call.outcome, HandlerRequest.refused]
  | insertFull hpc =>
    exact haside (by simp [Call.outcome, hpc]) (by simp [Call.outcome]) (by simp [Call.outcome])
      rfl rfl
  | leave hpc =>
    have hout : ∀ outcome, c.pc = .leaving outcome →
        (c.goto (.returned outcome)).outcome = c.outcome := by
      intro outcome hpc
      simp [Call.outcome, hpc]
    refine .aside rfl rfl ?_ ?_
    · unfold Call.handle
      rw [hout _ hpc]
      rfl
    · unfold Call.removed
      rw [hout _ hpc]
  | removeNone hpc =>
    simp only [Call.Direct, hpc] at h
    exact himmediate h (by simp [Call.outcome, hpc]) (by simp [Call.outcome]) rfl rfl
  | starve hpc | enqueueStopped hpc | post hpc | postRefused hpc | pushFull hpc =>
    simp only [Call.Direct, hpc] at h
    exact himmediate h (by simp [Call.outcome, hpc]) (outcome_enqueued c _) rfl rfl
  | signal hpc =>
    simp only [Call.Direct, hpc] at h
    exact himmediate h (by simp [Call.outcome, hpc]) (outcome_enqueued c _) rfl rfl
  | rearm hpc =>
    simp only [Call.Direct, hpc] at h
    obtain ⟨t, -, heq⟩ := startTimer_eq config (ticksToMs config.tickFreq 1#32) s
    exact himmediate h (by simp [Call.outcome, hpc]) (by simp [Call.outcome]) (by rw [heq])
      (by rw [heq])
  | enqueue hpc =>
    simp only [Call.Direct, hpc] at h
    refine himmediate h (by simp [Call.outcome, hpc]) ?_ rfl rfl
    cases config.poster <;> simp [Call.outcome]
  | _ hpc =>
    simp only [Call.Direct, hpc] at h
    exact himmediate h (by simp [Call.outcome, hpc]) (by simp [Call.outcome]) rfl rfl

/-- A post with a delay puts no message on its way. -/
theorem CallMove.inFlight_of_delayed (hm : CallMove config i s c s₁ c') (h : c.Direct)
    (hdelayed : c.isDelayed = true) (m : LosEventMessage) : s₁.inFlight m = s.inFlight m := by
  cases hm with
  | insert => exact (sameSignals_enterDelayed ..).inFlight m
  | remove => exact (sameSignals_eraseDelayed ..).inFlight m
  | rearm => exact (sameSignals_startTimer ..).inFlight m
  | post hpc | push hpc =>
    simp only [Call.Direct, hpc] at h
    exact absurd (h.symm.trans hdelayed) (by decide)
  | _ => rfl

theorem eraseDelayed_log (config : Config) (k : Nat) (s : LosEventHandler) :
    (s.eraseDelayed config k).log =
      s.log ++ (s.delayed[k]?.map fun entry => HandlerEvent.removed entry.call).toList :=
  congrArg LosEventHandler.log (armTimerLocked_ite config _ _).1

/-- A call runs at most its own task, and only one that was posted without a delay. -/
theorem CallMove.ran (hm : CallMove config i s c s₁ c') (hfits : c.Fits config) {j : Nat}
    (hj : j ≠ i ∨ c.isDelayed = true) : s₁.log.count (.ran j) = s.log.count (.ran j) := by
  cases hm with
  | insert =>
    obtain ⟨t, l, -, heq⟩ := enterDelayed_eq config i _ s
    rw [heq]
  | @remove _ k =>
    rw [eraseDelayed_log]
    cases s.delayed[k]? <;> simp
  | rearm =>
    obtain ⟨t, -, heq⟩ := startTimer_eq config _ s
    rw [heq]
  | runInPlace hpc =>
    have hne : j ≠ i := by
      rcases hj with hne | hdelayed
      · exact hne
      · simp only [Call.Fits, hpc] at hfits
        obtain ⟨timeoutMs, hreq⟩ := hfits
        simp [Call.isDelayed, hreq] at hdelayed
    simp [note, Ne.symm hne]
  | acquire | freeSlot | settle | settleDone | leave =>
    simp [note, releaseWaiter, pollWaiterSem]
  | _ => rfl

theorem CallMove.tick (hm : CallMove config i s c s₁ c') : s₁.tick = s.tick := by
  cases hm with
  | insert =>
    obtain ⟨t, l, -, heq⟩ := enterDelayed_eq config i _ s
    rw [heq]
  | remove =>
    obtain ⟨t, es, -, heq⟩ := eraseDelayed_eq config _ s
    rw [heq]
  | rearm =>
    obtain ⟨t, -, heq⟩ := startTimer_eq config _ s
    rw [heq]
  | _ => rfl

/-! ## Where the table is not concerned -/

/-- As far as the table goes, the calls are what they were, and perhaps there are more. -/
structure Alike (calls calls' : List Call) : Prop where
  handle : ∀ i : Nat, calls'[i]?.bind Call.handle = calls[i]?.bind Call.handle
  removals : ∀ taskId : TelMiniTaskId, calls'.countP (fun c => c.removed = some taskId) =
    calls.countP fun c => c.removed = some taskId
  kept : ∀ (i : Nat) (c : Call), calls[i]? = some c → ∃ c', calls'[i]? = some c' ∧
    c'.isDelayed = c.isDelayed ∧ c'.removed = c.removed

theorem Alike.refl (calls : List Call) : Alike calls calls :=
  ⟨fun _ => rfl, fun _ => rfl, fun _ c hi => ⟨c, hi, rfl, rfl⟩⟩

theorem Alike.set {calls : List Call} (hi : calls[i]? = some c)
    (hreq : c'.request = c.request) (hhandle : c'.handle = c.handle)
    (hremoved : c'.removed = c.removed) : Alike calls (calls.set i c') := by
  obtain ⟨hlt, -⟩ := List.getElem?_eq_some_iff.mp hi
  refine ⟨fun j => ?_, fun taskId => ?_, fun j d hj => ?_⟩
  · by_cases hji : j = i
    · subst hji
      rw [List.getElem?_set_self hlt, hi]
      exact hhandle
    · rw [List.getElem?_set_ne (Ne.symm hji)]
  · have hcount := Agents.countP_set_add (fun c => c.removed = some taskId) c' hi
    simp only [hremoved] at hcount
    omega
  · by_cases hji : j = i
    · subst hji
      obtain rfl := Option.some.inj (hi.symm.trans hj)
      exact ⟨c', List.getElem?_set_self hlt, by rw [Call.isDelayed, hreq, Call.isDelayed],
        hremoved⟩
    · exact ⟨d, by rw [List.getElem?_set_ne (Ne.symm hji), hj], rfl, rfl⟩

theorem Alike.append {calls : List Call} (hhandle : c.handle = none) (hremoved : c.removed = none) :
    Alike calls (calls ++ [c]) := by
  refine ⟨fun j => ?_, fun taskId => ?_, fun j d hj => ?_⟩
  · rcases Nat.lt_trichotomy j calls.length with hj | rfl | hj
    · rw [List.getElem?_append_left hj]
    · rw [List.getElem?_concat_length, List.getElem?_eq_none (Nat.le_refl _)]
      exact hhandle
    · rw [List.getElem?_eq_none (by rw [List.length_append, List.length_singleton]; exact hj),
        List.getElem?_eq_none hj.le]
  · rw [List.countP_append, List.countP_singleton, hremoved]
    rfl
  · obtain ⟨hlt, -⟩ := List.getElem?_eq_some_iff.mp hj
    exact ⟨d, by rw [List.getElem?_append_left hlt, hj], rfl, rfl⟩

/-- The table, the handles and the tasks that are to be run or have been run are what they were. -/
structure Still (s s' : LosEventHandler) : Prop where
  alike : Alike s.calls s'.calls
  delayed : s'.delayed = s.delayed
  lastTaskId : s'.lastTaskId = s.lastTaskId
  tick : s.tick ≤ s'.tick
  toRun : s'.loop.toRun = s.loop.toRun
  ran : ∀ i, ¬s'.Immediate i → s'.log.count (.ran i) = s.log.count (.ran i)

theorem Alike.immediate (h : Alike s.calls s'.calls) (hi : s.Immediate i) : s'.Immediate i := by
  obtain ⟨c, hc, hdelayed⟩ := hi
  obtain ⟨c', hc', hsame, -⟩ := h.kept i c hc
  exact ⟨c', hc', hsame.trans hdelayed⟩

theorem Ordered.still (h : s.Ordered agenda) (hstill : Still s s')
    (hlate : ∀ entry ∈ s'.delayed, s'.tick < agenda.due entry.call + 2 ^ 30) :
    Ordered agenda s' := by
  have hhandle : s'.handle = s.handle := funext hstill.alike.handle
  have hremovals : s'.removals = s.removals := funext hstill.alike.removals
  have htick := hstill.tick
  refine
    { entries := ?_
      near := ?_
      late := hlate
      sorted := ?_
      lastTaskId := hstill.lastTaskId.trans h.lastTaskId
      few := h.few
      handles := ?_
      orders := ?_
      removals := ?_
      once := ?_
      changers := ?_ }
  · rw [hstill.delayed, hhandle]
    exact h.entries
  · rw [hstill.delayed]
    exact fun entry hentry => (h.near entry hentry).trans (by omega)
  · rw [hstill.delayed]
    exact h.sorted
  · rw [hhandle]
    exact h.handles
  · rw [hhandle]
    exact h.orders
  · rw [hremovals]
    exact h.removals
  · intro i hi
    rw [whereabouts, hstill.delayed, hstill.toRun, hstill.ran i hi, hhandle, hremovals]
    exact h.once i fun himm => hi (hstill.alike.immediate himm)
  · intro i hi
    obtain ⟨c, hc, hwhy⟩ := h.changers i hi
    obtain ⟨c', hc', hsame, hremoved⟩ := hstill.alike.kept i c hc
    exact ⟨c', hc', by rwa [hsame, hremoved]⟩

/-! ## A task is entered -/

section
variable (hi : s.calls[i]? = some c) (hcalls : s'.calls = s.calls.set i c')
include hi hcalls

theorem handle_set : s'.handle = Function.update s.handle i c'.handle := by
  obtain ⟨hlt, -⟩ := List.getElem?_eq_some_iff.mp hi
  funext j
  rw [handle, hcalls]
  by_cases hji : j = i
  · subst hji
    rw [Function.update_self, List.getElem?_set_self hlt]
    rfl
  · rw [Function.update_of_ne hji, List.getElem?_set_ne (Ne.symm hji)]
    rfl

theorem immediate_set (hreq : c'.request = c.request) (j : Nat) :
    s'.Immediate j ↔ s.Immediate j := by
  obtain ⟨hlt, -⟩ := List.getElem?_eq_some_iff.mp hi
  have hdelayed : c'.isDelayed = c.isDelayed := by rw [Call.isDelayed, hreq, Call.isDelayed]
  unfold Immediate
  rw [hcalls]
  by_cases hji : j = i
  · subst hji
    simp only [List.getElem?_set_self hlt, hi, Option.some.injEq, exists_eq_left', hdelayed]
  · simp only [List.getElem?_set_ne (Ne.symm hji)]

theorem removals_set (taskId : TelMiniTaskId) :
    s'.removals taskId + (decide (c.removed = some taskId)).toNat =
      s.removals taskId + (decide (c'.removed = some taskId)).toNat := by
  rw [removals, hcalls]
  exact Agents.countP_set_add (fun c => c.removed = some taskId) c' hi

/-- The call that changes the table is noted, and has a reason to. -/
theorem Ordered.changers_set (h : s.Ordered agenda)
    (hwhy : c'.isDelayed = true ∨ c'.removed ≠ none) :
    ∀ j ∈ i :: agenda.changers, ∃ d, s'.calls[j]? = some d ∧
      (d.isDelayed = true ∨ d.removed ≠ none) := by
  obtain ⟨hlt, -⟩ := List.getElem?_eq_some_iff.mp hi
  intro j hj
  rw [hcalls]
  by_cases hji : j = i
  · subst hji
    exact ⟨c', List.getElem?_set_self hlt, hwhy⟩
  · obtain ⟨d, hd, hwhy⟩ := h.changers j ((List.mem_cons.mp hj).resolve_left hji)
    exact ⟨d, by rw [List.getElem?_set_ne (Ne.symm hji), hd], hwhy⟩

end

/-- Among due times that are near each other, the place of a new entry goes by the ticks. -/
theorem before_eq {key : DelayedTask → Nat} {l : List DelayedTask} {n : Nat}
    (hkey : ∀ entry ∈ l, entry.dueTick = BitVec.ofNat 32 (key entry))
    (hsorted : l.Pairwise fun a b => key a ≤ key b)
    (hnear : ∀ entry ∈ l, n < key entry + 2 ^ 31 ∧ key entry ≤ n + 2 ^ 31) :
    before (BitVec.ofNat 32 n) l = l.takeWhile fun entry => key entry ≤ n := by
  have hpast : ∀ entry ∈ l, (!isDue (BitVec.ofNat 32 n) entry.dueTick) =
    decide (key entry < n) := by
    intro entry hentry
    obtain ⟨hlo, hhi⟩ := hnear entry hentry
    rw [hkey entry hentry, isDue_ofNat hlo hhi, ← decide_not]
    exact decide_eq_decide.mpr not_le
  have hsame : ∀ entry ∈ l, decide (entry.dueTick = BitVec.ofNat 32 n) =
    decide (key entry = n) := by
    intro entry hentry
    obtain ⟨hlo, hhi⟩ := hnear entry hentry
    have hdist := toInt_sub_ofNat hlo hhi
    rw [hkey entry hentry]
    refine decide_eq_decide.mpr ⟨fun heq => ?_, fun heq => by rw [heq]⟩
    rw [heq, BitVec.sub_self, BitVec.toInt_zero] at hdist
    omega
  rw [← SortedInsert.takeWhile_two_phases hsorted n, before, SortedInsert.takeWhile_congr hpast,
    SortedInsert.dropWhile_congr hpast, SortedInsert.takeWhile_congr fun entry hentry =>
      hsame entry (List.dropWhile_subset _ hentry)]

theorem enterDelayed_table (config : Config) (i : Nat) (delayMs : BitVec 32)
    (s : LosEventHandler) : ∃ t, s.enterDelayed config i delayMs = { s with
      timer := t
      delayed := before (s.tickCount + delayTicks config delayMs) s.delayed ++
        s.newEntry config i delayMs :: s.delayed.drop (s.newPlace config delayMs)
      lastTaskId := s.nextTaskId } :=
  ⟨_, (armTimerLocked_ite config _ _).1⟩

theorem nextTaskId_eq {n : Nat} (h : s.lastTaskId = BitVec.ofNat 32 n) (hn : n + 1 < 2 ^ 32) :
    s.nextTaskId = BitVec.ofNat 32 (n + 1) := by
  have hnext : s.lastTaskId + 1#32 = BitVec.ofNat 32 (n + 1) := by rw [h, BitVec.ofNat_add]
  have hne : BitVec.ofNat 32 (n + 1) ≠ telMiniInvalidTaskId := by
    intro heq
    have hzero := congrArg BitVec.toNat heq
    rw [BitVec.toNat_ofNat, Nat.mod_eq_of_lt hn] at hzero
    cases hzero
  rw [nextTaskId, hnext, if_neg hne]

/-- The place of a new entry, where the table is ordered. -/
theorem Ordered.before_eq (h : s.Ordered agenda) {ticks : BitVec 32}
    (hticks : ticks.toNat ≤ 2 ^ 30) : before (s.tickCount + ticks) s.delayed =
      s.delayed.takeWhile fun entry => agenda.due entry.call ≤ s.tick + ticks.toNat := by
  have hdue : s.tickCount + ticks = BitVec.ofNat 32 (s.tick + ticks.toNat) := by
    rw [BitVec.ofNat_add, BitVec.ofNat_toNat, BitVec.setWidth_eq]
    rfl
  rw [hdue]
  refine LosEventHandler.before_eq (fun entry hentry => (h.entries entry hentry).2)
    (h.sorted.imp SortedInsert.Before.le) fun entry hentry => ?_
  have := h.near entry hentry
  have := h.late entry hentry
  omega

/-- A call that has no handle has no entry. -/
theorem Ordered.call_ne (h : s.Ordered agenda) (hnone : s.handle i = none) {entry : DelayedTask}
    (hentry : entry ∈ s.delayed) : entry.call ≠ i := by
  rintro rfl
  rw [(h.entries entry hentry).1] at hnone
  cases hnone

theorem Ordered.sorted_enter (h : s.Ordered agenda) {delayMs : BitVec 32} {n : Nat}
    (hn : n = s.tick + (delayTicks config delayMs).toNat)
    (hticks : (delayTicks config delayMs).toNat ≤ 2 ^ 30) (hnone : s.handle i = none) :
    (before (s.tickCount + delayTicks config delayMs) s.delayed ++ s.newEntry config i delayMs ::
      s.delayed.drop (s.newPlace config delayMs)).Pairwise
        (SortedInsert.Before (fun entry => (agenda.enter i n).due entry.call)
          fun entry => (agenda.enter i n).order entry.call) := by
  have hdue : ∀ entry ∈ s.delayed, (agenda.enter i n).due entry.call = agenda.due entry.call :=
    fun entry hentry => Agenda.enter_due (h.call_ne hnone hentry)
  have horder : ∀ entry ∈ s.delayed,
      (agenda.enter i n).order entry.call = agenda.order entry.call :=
    fun entry hentry => Agenda.enter_order (h.call_ne hnone hentry)
  have hplace : before (s.tickCount + delayTicks config delayMs) s.delayed =
      s.delayed.takeWhile fun entry => (agenda.enter i n).due entry.call ≤ n := by
    rw [h.before_eq hticks, ← hn]
    exact SortedInsert.takeWhile_congr fun entry hentry => by rw [hdue entry hentry]
  have hrest : s.delayed.drop (s.newPlace config delayMs) =
      s.delayed.dropWhile fun entry => (agenda.enter i n).due entry.call ≤ n := by
    have hsplit := before_append_drop (s.tickCount + delayTicks config delayMs) s.delayed
    rw [hplace] at hsplit
    rw [newPlace, hplace]
    exact List.append_cancel_left (hsplit.trans List.takeWhile_append_dropWhile.symm)
  have hsorted : s.delayed.Pairwise (SortedInsert.Before
      (fun entry => (agenda.enter i n).due entry.call)
      fun entry => (agenda.enter i n).order entry.call) := by
    refine h.sorted.imp_of_mem fun {a b} ha hb hab => ?_
    simp only [SortedInsert.Before] at hab ⊢
    rwa [hdue a ha, hdue b hb, horder a ha, horder b hb]
  have hlast : (agenda.enter i n).order (s.newEntry config i delayMs).call = agenda.posts + 1 :=
    agenda.enter_order_self i n
  have hkey : (agenda.enter i n).due (s.newEntry config i delayMs).call = n :=
    agenda.enter_due_self i n
  have hinsert := SortedInsert.insert_pairwise (a := s.newEntry config i delayMs) hsorted
    fun entry hentry => by
      have hle := (h.handles _ _ (h.entries entry hentry).1).2.2
      rw [horder entry hentry, hlast]
      omega
  rw [hplace, hrest]
  rwa [hkey] at hinsert

/-- The new handle is the number of the post. -/
theorem Ordered.handles_enter (h : s.Ordered agenda) {taskId : TelMiniTaskId} (n : Nat)
    (hnew : taskId = BitVec.ofNat 32 (agenda.posts + 1)) (j : Nat) (id : TelMiniTaskId)
    (hj : Function.update s.handle i (some taskId) j = some id) :
    id = BitVec.ofNat 32 ((agenda.enter i n).order j) ∧ 1 ≤ (agenda.enter i n).order j ∧
      (agenda.enter i n).order j ≤ agenda.posts + 1 := by
  by_cases hji : j = i
  · subst hji
    rw [Function.update_self] at hj
    rw [Agenda.enter_order_self, ← Option.some.inj hj]
    exact ⟨hnew, by omega, le_rfl⟩
  · rw [Function.update_of_ne hji] at hj
    rw [Agenda.enter_order hji]
    obtain ⟨hid, hlo, hhi⟩ := h.handles j id hj
    exact ⟨hid, hlo, by omega⟩

theorem Ordered.orders_enter (h : s.Ordered agenda) (taskId : TelMiniTaskId) (n j k : Nat)
    (hj : Function.update s.handle i (some taskId) j ≠ none)
    (hk : Function.update s.handle i (some taskId) k ≠ none)
    (heq : (agenda.enter i n).order j = (agenda.enter i n).order k) : j = k := by
  have hold : ∀ j, j ≠ i → Function.update s.handle i (some taskId) j ≠ none →
      (agenda.enter i n).order j = agenda.order j ∧ s.handle j ≠ none ∧
        agenda.order j < agenda.posts + 1 := by
    intro j hji hsome
    rw [Function.update_of_ne hji] at hsome
    obtain ⟨taskId, htask⟩ := Option.ne_none_iff_exists'.mp hsome
    have := (h.handles j taskId htask).2.2
    exact ⟨Agenda.enter_order hji, hsome, by omega⟩
  by_cases hji : j = i <;> by_cases hki : k = i
  · rw [hji, hki]
  · obtain ⟨horder, -, hlt⟩ := hold k hki hk
    rw [hji, Agenda.enter_order_self, horder] at heq
    omega
  · obtain ⟨horder, -, hlt⟩ := hold j hji hj
    rw [hki, Agenda.enter_order_self, horder] at heq
    omega
  · obtain ⟨horder, hsome, -⟩ := hold j hji hj
    obtain ⟨horder', hsome', -⟩ := hold k hki hk
    rw [horder, horder'] at heq
    exact h.orders j k hsome hsome' heq

/-- **A task that is entered keeps the table in order.** -/
theorem Ordered.insert (h : s.Ordered agenda) {delayMs : BitVec 32} {n : Nat}
    (hn : n = s.tick + (delayTicks config delayMs).toNat)
    (hticks : (delayTicks config delayMs).toNat ≤ 2 ^ 30) (hfew : agenda.posts + 1 < 2 ^ 32 - 1)
    (hi : s.calls[i]? = some c) (hcalls : s'.calls = s.calls.set i c')
    (hreq : c'.request = c.request) (hnone : c.handle = none)
    (hsome : c'.handle = some s.nextTaskId) (hremoved : c.removed = none)
    (hremoved' : c'.removed = none) (hdelayed : c.isDelayed = true)
    (htable : s'.delayed = before (s.tickCount + delayTicks config delayMs) s.delayed ++
      s.newEntry config i delayMs :: s.delayed.drop (s.newPlace config delayMs))
    (hlast : s'.lastTaskId = s.nextTaskId) (htick : s'.tick = s.tick)
    (hloop : s'.loop = s.loop) (hlog : s'.log = s.log) :
    Ordered ((agenda.enter i n).change i) s' := by
  have hid := nextTaskId_eq h.lastTaskId (by omega)
  have hnone : s.handle i = none := by
    rw [handle, hi]
    exact hnone
  have hhandle : s'.handle = Function.update s.handle i (some s.nextTaskId) := by
    rw [handle_set hi hcalls, hsome]
  have hremovals : s'.removals = s.removals := by
    funext taskId
    have hcount := removals_set hi hcalls taskId
    rwa [hremoved, hremoved', Nat.add_right_cancel_iff] at hcount
  have hsplit : before (s.tickCount + delayTicks config delayMs) s.delayed ++
      s.delayed.drop (s.newPlace config delayMs) = s.delayed := before_append_drop _ _
  -- the table after the step: the new entry, and those that were there
  have hentries : ∀ entry ∈ s'.delayed, entry = s.newEntry config i delayMs ∨
      entry ∈ s.delayed := by
    intro entry hentry
    rw [htable] at hentry
    rw [← hsplit, List.mem_append]
    simp only [List.mem_append, List.mem_cons] at hentry
    exact or_left_comm.mp hentry
  have hdue : ∀ entry ∈ s.delayed,
      ((agenda.enter i n).change i).due entry.call = agenda.due entry.call :=
    fun entry hentry => Agenda.enter_due (h.call_ne hnone hentry)
  have hdueNew : ((agenda.enter i n).change i).due (s.newEntry config i delayMs).call = n :=
    agenda.enter_due_self i n
  refine
    { entries := fun entry hentry => ?_
      near := fun entry hentry => ?_
      late := fun entry hentry => ?_
      sorted := htable ▸ h.sorted_enter hn hticks hnone
      lastTaskId := hlast.trans hid
      few := hfew
      handles := hhandle ▸ h.handles_enter n hid
      orders := hhandle ▸ h.orders_enter _ n
      removals := fun taskId hpos => (h.removals taskId (hremovals ▸ hpos)).trans (Nat.le_succ _)
      once := fun j hj => ?_
      changers := fun j hj => h.changers_set hi hcalls (.inl ?_) j hj }
  · rcases hentries entry hentry with rfl | hold
    · refine ⟨by rw [hhandle]; exact Function.update_self .., ?_⟩
      rw [hdueNew, hn, BitVec.ofNat_add, BitVec.ofNat_toNat, BitVec.setWidth_eq]
      rfl
    · rw [hhandle, Function.update_of_ne (h.call_ne hnone hold), hdue entry hold]
      exact h.entries entry hold
  · rcases hentries entry hentry with rfl | hold
    · rw [hdueNew, htick]
      omega
    · rw [hdue entry hold, htick]
      exact h.near entry hold
  · rcases hentries entry hentry with rfl | hold
    · rw [hdueNew, htick]
      omega
    · rw [hdue entry hold, htick]
      exact h.late entry hold
  · rw [immediate_set hi hcalls hreq] at hj
    have honce := h.once j hj
    have hcount : (s'.delayed.countP fun entry => entry.call = j) =
        (s.delayed.countP fun entry => entry.call = j) + if i = j then 1 else 0 := by
      rw [htable]
      conv_rhs => rw [← hsplit]
      simp only [List.countP_append, List.countP_cons, newEntry, decide_eq_true_eq]
      omega
    unfold whereabouts at honce ⊢
    rw [hhandle, hremovals, hcount, hloop, hlog]
    by_cases hji : j = i
    · subst hji
      -- nobody has removed the new handle yet
      have hfresh : s.removals s.nextTaskId = 0 := by
        by_contra hpos
        have hle := h.removals _ (Nat.pos_of_ne_zero hpos)
        rw [hid, BitVec.toNat_ofNat, Nat.mod_eq_of_lt (by omega)] at hle
        omega
      rw [hnone] at honce
      rw [Function.update_self, if_pos rfl]
      simp only [Option.elim_none, Option.elim_some, hfresh] at honce ⊢
      omega
    · rw [Function.update_of_ne hji, if_neg (Ne.symm hji)]
      exact honce
  · rwa [Call.isDelayed, hreq, ← Call.isDelayed]

/-! ## A task is removed -/

theorem Ordered.handle_inj (h : s.Ordered agenda) {j : Nat} {taskId : TelMiniTaskId}
    (hi : s.handle i = some taskId) (hj : s.handle j = some taskId) : i = j := by
  obtain ⟨hid, -, hle⟩ := h.handles i taskId hi
  obtain ⟨hid', -, hle'⟩ := h.handles j taskId hj
  refine h.orders i j (by simp [hi]) (by simp [hj]) ?_
  have hnat := congrArg BitVec.toNat (hid.symm.trans hid')
  have := h.few
  rwa [BitVec.toNat_ofNat, BitVec.toNat_ofNat, Nat.mod_eq_of_lt (by omega),
    Nat.mod_eq_of_lt (by omega)] at hnat

/-- **A task that is removed leaves the table in order**, and no other task has its handle. -/
theorem Ordered.remove (h : s.Ordered agenda) {taskId : TelMiniTaskId} {k : Nat}
    (hk : (s.delayed.findIdx? fun entry => entry.id = taskId) = some k)
    (hi : s.calls[i]? = some c) (hcalls : s'.calls = s.calls.set i c')
    (hreq : c'.request = c.request) (hhandle : c'.handle = c.handle)
    (hremoved : c.removed = none) (hremoved' : c'.removed = some taskId)
    (htable : s'.delayed = s.delayed.eraseIdx k) (hlast : s'.lastTaskId = s.lastTaskId)
    (htick : s'.tick = s.tick) (hloop : s'.loop = s.loop)
    (hlog : ∀ j, s'.log.count (.ran j) = s.log.count (.ran j)) :
    Ordered (agenda.change i) s' := by
  obtain ⟨hklt, hid, -⟩ := List.findIdx?_eq_some_iff_getElem.mp hk
  obtain ⟨removed, hentry⟩ : ∃ removed, s.delayed[k] = removed := ⟨_, rfl⟩
  rw [hentry] at hid
  have hid := of_decide_eq_true hid
  -- the entry that goes is that of the call the handle was given to
  have howner : s.handle removed.call = some taskId := by
    rw [(h.entries removed (hentry ▸ List.getElem_mem hklt)).1, hid]
  have hhandle : s'.handle = s.handle := by
    have hsame : s.handle i = c.handle := by
      rw [handle, hi]
      rfl
    rw [handle_set hi hcalls, hhandle, ← hsame, Function.update_eq_self]
  have hremovals : ∀ id, s'.removals id = s.removals id + if id = taskId then 1 else 0 := by
    intro id
    have hcount := removals_set hi hcalls id
    rw [hremoved, hremoved'] at hcount
    by_cases hsame : id = taskId
    · subst hsame
      simpa using hcount
    · rw [if_neg hsame]
      simpa [Ne.symm hsame] using hcount
  have hsub : ∀ entry ∈ s'.delayed, entry ∈ s.delayed := fun entry hentry =>
    List.mem_of_mem_eraseIdx (htable ▸ hentry)
  refine
    { entries := fun entry hentry => hhandle ▸ h.entries entry (hsub entry hentry)
      near := fun entry hentry => htick ▸ h.near entry (hsub entry hentry)
      late := fun entry hentry => htick ▸ h.late entry (hsub entry hentry)
      sorted := htable ▸ h.sorted.sublist (List.eraseIdx_sublist s.delayed k)
      lastTaskId := hlast.trans h.lastTaskId
      few := h.few
      handles := hhandle ▸ h.handles
      orders := hhandle ▸ h.orders
      removals := fun id hpos => ?_
      once := fun j hj => ?_
      changers := fun j hj => h.changers_set hi hcalls (.inr (by simp [hremoved'])) j hj }
  · rw [hremovals] at hpos
    by_cases hsame : id = taskId
    · obtain ⟨horder, -, hle⟩ := h.handles removed.call taskId howner
      have := h.few
      rw [hsame, horder, BitVec.toNat_ofNat, Nat.mod_eq_of_lt (by omega)]
      exact hle
    · rw [if_neg hsame] at hpos
      exact h.removals id hpos
  · rw [immediate_set hi hcalls hreq] at hj
    have honce := h.once j hj
    have hcount : (s'.delayed.countP fun entry => entry.call = j) +
        (if removed.call = j then 1 else 0) = s.delayed.countP fun entry => entry.call = j := by
      have hperm := (List.getElem_cons_eraseIdx_perm hklt).countP_eq fun entry => entry.call = j
      rw [htable, ← hperm, List.countP_cons, hentry]
      simp only [decide_eq_true_eq]
    unfold whereabouts at honce ⊢
    rw [hhandle, hlog, hloop]
    -- a task without a handle is not in the table; of the others, only the one removed goes
    cases htask : s.handle j with
    | none =>
      have hne : removed.call ≠ j := by
        rintro rfl
        rw [htask] at howner
        cases howner
      rw [if_neg hne] at hcount
      rw [htask] at honce
      simp only [Option.elim_none] at honce ⊢
      omega
    | some id =>
      rw [htask] at honce
      simp only [Option.elim_some, hremovals] at honce ⊢
      by_cases hsame : id = taskId
      · rw [if_pos (h.handle_inj howner (hsame ▸ htask))] at hcount
        rw [if_pos hsame]
        omega
      · have hne : removed.call ≠ j := by
          rintro rfl
          exact hsame (Option.some.inj (htask.symm.trans howner))
        rw [if_neg hne] at hcount
        rw [if_neg hsame]
        omega

end LosEventHandler

end CallManagerMini
