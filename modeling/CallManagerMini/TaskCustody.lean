import CallManagerMini.DelayedTableRuns

/-! # Where a task is

A task that is posted is kept by its call until the call hands it on, in a message or as an entry
of the table; from there the loop takes it, and it runs when it leaves the loop.  It is at one of
these places at a time, and comes to none of them again: it runs at most once
(`reachable_custody`), whether or not somebody still waits for it, in every run of the handler and
over any number of its lives.
-/

namespace CallManagerMini

/-- The call whose task a message carries. -/
def LosEventMessage.task : LosEventMessage → Option Nat
  | .asyncTask i | .syncCall i => some i
  | .timerFire => none

/-- It has not handed its task on yet. -/
def Call.keepsTask (c : Call) : Bool :=
  match c.pc with
  | .called | .counted | .allocate | .insert | .onLoop | .inPlace | .acquire | .exchange | .enqueue
  | .post | .push => true
  | _ => false

/-- The tasks the loop has taken, with a message or out of the table, and not run yet. -/
def LoopPc.tasks : LoopPc → List Nat
  | .dispatch message | .check message | .handle message | .recycle _ message =>
    message.task.toList
  | .runDelayed calls => calls
  | .runAsync i | .runSync i => [i]
  | _ => []

namespace LosEventHandler

variable {config : Config} {s s' s₁ : LosEventHandler} {i : Nat} {c c' : Call} {a : Act}

/-- The tasks that were handed on and have not run. -/
def tasks (s : LosEventHandler) : List Nat :=
  s.ring.toList.filterMap LosEventMessage.task ++ s.posted.filterMap LosEventMessage.task ++
    s.delayed.map DelayedTask.call ++ s.loop.tasks

/-- A task is with its call, or at one place at most, or it has run. -/
def Custody (s : LosEventHandler) : Prop :=
  Agents.Once s.calls Call.keepsTask fun i => s.tasks.count i + s.log.count (.ran i)

theorem count_tasks (s : LosEventHandler) (j : Nat) : s.tasks.count j =
    (s.ring.toList.filterMap LosEventMessage.task).count j +
      (s.posted.filterMap LosEventMessage.task).count j +
      (s.delayed.map DelayedTask.call).count j + s.loop.tasks.count j := by
  simp only [tasks, List.count_append]

theorem count_task_cons (message : LosEventMessage) (l : List LosEventMessage) (j : Nat) :
    ((message :: l).filterMap LosEventMessage.task).count j =
      message.task.toList.count j + (l.filterMap LosEventMessage.task).count j := by
  rw [List.filterMap_cons]
  cases message.task with
  | none => exact (Nat.zero_add _).symm
  | some i =>
    rw [Option.toList_some, List.count_cons, List.count_singleton]
    exact Nat.add_comm ..

/-! ## The calls -/

theorem message_task {j : Nat} (h : (c.message i).task = some j) : i = j := by
  unfold Call.message at h
  split at h
  · cases h
  · exact Option.some.inj h
  · exact Option.some.inj h

/-- A message is one task more at most, that of its call. -/
theorem count_message (i : Nat) (c : Call) (l : List LosEventMessage) (j : Nat) :
    ((l ++ [c.message i]).filterMap LosEventMessage.task).count j ≤
      (l.filterMap LosEventMessage.task).count j + if i = j then 1 else 0 := by
  rw [List.filterMap_append, List.count_append, count_task_cons, List.filterMap_nil,
    List.count_nil, Nat.add_zero]
  refine Nat.add_le_add_left ?_ _
  cases hmessage : (c.message i).task with
  | none => exact Nat.zero_le _
  | some k =>
    obtain rfl := message_task hmessage
    rw [Option.toList_some, List.count_singleton]
    simp only [beq_iff_eq, le_refl]

theorem count_enterDelayed (i : Nat) (delayMs : BitVec 32) (s : LosEventHandler) (j : Nat) :
    (s.enterDelayed config i delayMs).tasks.count j = s.tasks.count j + if i = j then 1 else 0 := by
  have hsplit := before_append_drop (s.tickCount + delayTicks config delayMs) s.delayed
  have hentries : ((s.enterDelayed config i delayMs).delayed.map DelayedTask.call).count j =
      (s.delayed.map DelayedTask.call).count j + if i = j then 1 else 0 := by
    conv_rhs => rw [← hsplit]
    rw [enterDelayed_delayed, List.map_append, List.map_append, List.map_cons, List.count_append,
      List.count_append, List.count_cons]
    simp only [newEntry, newPlace, beq_iff_eq]
    omega
  obtain ⟨t, heq⟩ := enterDelayed_table config i delayMs s
  rw [count_tasks, count_tasks, hentries, heq]
  dsimp only
  omega

theorem count_eraseDelayed (k : Nat) (s : LosEventHandler) (j : Nat) :
    (s.eraseDelayed config k).tasks.count j ≤ s.tasks.count j := by
  obtain ⟨t, es, -, heq⟩ := eraseDelayed_eq config k s
  rw [heq, count_tasks, count_tasks]
  have hle := ((List.eraseIdx_sublist s.delayed k).map DelayedTask.call).count_le j
  dsimp only
  omega

/-- Behind `Enqueue` a call keeps its task no longer. -/
theorem keepsTask_enqueued (c : Call) (ret : RetCode) :
    (c.goto (c.request.enqueued ret)).keepsTask = false := by
  unfold HandlerRequest.enqueued
  cases c.request with
  | postSyncTask | onTimerExpired =>
    dsimp only
    split <;> rfl
  | _ => rfl

/-- **A call hands on its own task, or runs it.** -/
theorem CallMove.custody (hm : CallMove config i s c s₁ c') (j : Nat) :
    (if i = j then c'.keepsTask.toNat else 0) + s₁.tasks.count j + s₁.log.count (.ran j) ≤
      (if i = j then c.keepsTask.toNat else 0) + s.tasks.count j + s.log.count (.ran j) := by
  -- the call keeps its task or drops it
  have hkeep : ∀ {t : LosEventHandler} {d : Call}, (d.keepsTask = true → c.keepsTask = true) →
      t.tasks.count j ≤ s.tasks.count j → t.log.count (.ran j) = s.log.count (.ran j) →
      (if i = j then d.keepsTask.toNat else 0) + t.tasks.count j + t.log.count (.ran j) ≤
        (if i = j then c.keepsTask.toNat else 0) + s.tasks.count j + s.log.count (.ran j) := by
    intro t d hkept htasks hran
    have hle : d.keepsTask.toNat ≤ c.keepsTask.toNat := Bool.toNat_le_toNat hkept
    split <;> omega
  -- the call hands its task over
  have hhand : ∀ {t : LosEventHandler} {d : Call}, c.keepsTask = true → d.keepsTask = false →
      t.tasks.count j ≤ s.tasks.count j + (if i = j then 1 else 0) →
      t.log.count (.ran j) = s.log.count (.ran j) →
      (if i = j then d.keepsTask.toNat else 0) + t.tasks.count j + t.log.count (.ran j) ≤
        (if i = j then c.keepsTask.toNat else 0) + s.tasks.count j + s.log.count (.ran j) := by
    intro t d hkept hgone htasks hran
    rw [hkept, hgone, Bool.toNat_true, Bool.toNat_false]
    split at htasks <;> split <;> omega
  have hsent : ∀ ret, (c.goto (c.request.enqueued ret)).keepsTask = true → c.keepsTask = true := by
    intro ret hkept
    rw [keepsTask_enqueued] at hkept
    cases hkept
  cases hm with
  | insert hpc =>
    refine hhand (by simp [Call.keepsTask, hpc]) rfl (count_enterDelayed ..).le ?_
    obtain ⟨t, heq⟩ := enterDelayed_table config i _ s
    rw [heq]
  | @remove _ k hpc =>
    refine hkeep (by simp [Call.keepsTask]) (count_eraseDelayed ..) ?_
    rw [eraseDelayed_log]
    cases s.delayed[k]? <;> simp
  | rearm hpc =>
    obtain ⟨t, -, heq⟩ := startTimer_eq config (ticksToMs config.tickFreq 1#32) s
    rw [heq]
    exact hkeep (by simp [Call.keepsTask]) le_rfl rfl
  | post hpc =>
    refine hhand (by simp [Call.keepsTask, hpc]) (keepsTask_enqueued c _) ?_ rfl
    have hcount := count_message i c s.posted j
    rw [count_tasks, count_tasks]
    dsimp only
    omega
  | push hpc hroom =>
    refine hhand (by simp [Call.keepsTask, hpc]) rfl ?_ rfl
    have hcount := count_message i c s.ring.toList j
    rw [count_tasks, count_tasks, RingBuffer.toList_push]
    dsimp only
    omega
  | runInPlace hpc =>
    have hgone : (c.goto (.leaving (.ret .success telMiniInvalidTaskId))).keepsTask = false := rfl
    have hkept : c.keepsTask = true := by simp [Call.keepsTask, hpc]
    have hlog : (s.note (.ran i)).log.count (.ran j) =
        s.log.count (.ran j) + if i = j then 1 else 0 := by
      simp [note, List.count_singleton]
    rw [hlog, hgone, hkept, Bool.toNat_true, Bool.toNat_false]
    change _ + s.tasks.count j + _ ≤ _
    split <;> omega
  | allow hpc => exact hkeep (by simp [Call.keepsTask, hpc]) le_rfl rfl
  | starve | enqueueStopped | postRefused | pushFull => exact hkeep (hsent _) le_rfl rfl
  | signal => exact hkeep (hsent _) le_rfl rfl
  | _ hpc =>
    refine hkeep (by simp [Call.keepsTask, hpc]) le_rfl ?_
    simp [note, releaseWaiter, pollWaiterSem]

/-! ## The loop, `Stop`, and the tasks around the handler -/

/-- **The loop runs what it has taken.** -/
theorem LoopMove.custody (hm : LoopMove config s s') (j : Nat) :
    s'.tasks.count j + s'.log.count (.ran j) ≤ s.tasks.count j + s.log.count (.ran j) := by
  have hstay : ∀ {pc}, s.loop = pc → s'.ring = s.ring → s'.posted = s.posted →
      s'.delayed = s.delayed → s'.loop.tasks.count j ≤ pc.tasks.count j →
      s'.log.count (.ran j) = s.log.count (.ran j) →
      s'.tasks.count j + s'.log.count (.ran j) ≤ s.tasks.count j + s.log.count (.ran j) := by
    rintro pc rfl hring hposted hdelayed hloop hran
    rw [count_tasks, count_tasks, hring, hposted, hdelayed]
    omega
  -- what leaves the loop is run
  have hrun : ∀ {i : Nat} {pc}, s.loop = pc → s'.ring = s.ring → s'.posted = s.posted →
      s'.delayed = s.delayed → pc.tasks = i :: s'.loop.tasks →
      s'.log = s.log ++ [.ran i] →
      s'.tasks.count j + s'.log.count (.ran j) ≤ s.tasks.count j + s.log.count (.ran j) := by
    rintro i pc rfl hring hposted hdelayed hloop hlog
    rw [count_tasks, count_tasks, hring, hposted, hdelayed, hlog, hloop, List.count_append,
      List.count_singleton, List.count_cons]
    simp only [beq_iff_eq, HandlerEvent.ran.injEq]
    omega
  have htake : ∀ {message : LosEventMessage} {rest : RingBuffer LosEventMessage},
      s.ring.pop = some (message, rest) → s.loop.tasks = [] → s'.ring = rest →
      s'.posted = s.posted → s'.delayed = s.delayed → s'.loop.tasks = message.task.toList →
      s'.log = s.log →
      s'.tasks.count j + s'.log.count (.ran j) ≤ s.tasks.count j + s.log.count (.ran j) := by
    intro message rest hpop hnone hring hposted hdelayed hloop hlog
    rw [count_tasks, count_tasks, hring, hposted, hdelayed, hloop, hlog, hnone,
      RingBuffer.toList_eq_cons hpop, count_task_cons, List.count_nil]
    omega
  cases hm with
  | pop hpc hpop => exact htake hpop (by rw [hpc]; rfl) rfl rfl rfl rfl rfl
  | drain hpc hpop => exact htake hpop (by rw [hpc]; rfl) rfl rfl rfl rfl rfl
  | runDelayed hpc => exact hrun hpc rfl rfl rfl rfl rfl
  | runAsync hpc => exact hrun hpc rfl rfl rfl rfl rfl
  | runSync hpc => exact hrun hpc rfl rfl rfl rfl rfl
  | takeDue hpc =>
    obtain ⟨t, -, heq⟩ := takeDueLocked_eq config s
    -- the due entries go into the hand of the loop, the others stay
    have hsplit : (s.delayed.map DelayedTask.call).count j =
        ((s.delayed.takeWhile fun entry => isDue entry.dueTick s.tickCount).map
          DelayedTask.call).count j +
        ((s.delayed.dropWhile fun entry => isDue entry.dueTick s.tickCount).map
          DelayedTask.call).count j := by
      rw [← List.count_append, ← List.map_append, List.takeWhile_append_dropWhile]
    rw [heq, count_tasks, count_tasks, hsplit, hpc]
    simp only [LoopPc.tasks, List.count_nil]
    omega
  | @complete drained i status hpc =>
    have hran : (s.completeLocked i status).log.count (.ran j) = s.log.count (.ran j) := by
      unfold completeLocked
      split
      · rfl
      · dsimp only
        split <;> simp [releaseWaiter, note, postWaiterSem]
    obtain ⟨calls, inUse, sems, log, -, heq⟩ := completeLocked_eq i status s
    rw [heq] at hran hstay ⊢
    exact hstay hpc rfl rfl rfl (by cases drained <;> exact Nat.zero_le _) hran
  | popNone hpc =>
    refine hstay hpc rfl rfl rfl ?_ rfl
    dsimp only
    split <;> exact Nat.zero_le _
  | dispatched hpc =>
    refine hstay hpc rfl rfl rfl ?_ rfl
    dsimp only
    split
    · exact Nat.zero_le _
    · split <;> exact Nat.zero_le _
  | @recycleTimer drained hpc | @recycleAsync drained _ hpc =>
    have hnone : (LoopPc.behind drained).tasks = [] := by cases drained <;> rfl
    exact hstay hpc rfl rfl rfl (by simp [hnone]) (by simp [note])
  | recycleSync hpc => exact hstay hpc rfl rfl rfl (Nat.zero_le _) (by simp [note])
  | handleTimer hpc | handleSync hpc | handleAsync hpc =>
    exact hstay hpc rfl rfl rfl le_rfl (by simp [note])
  | dispatch hpc | allow hpc | refuse hpc => exact hstay hpc rfl rfl rfl le_rfl rfl
  | _ hpc => exact hstay hpc rfl rfl rfl (Nat.zero_le _) rfl

/-- `Stop` drops tasks, and runs none. -/
theorem StopMove.custody {timeUp : Bool} (hm : StopMove config s timeUp s') (j : Nat) :
    s'.tasks.count j ≤ s.tasks.count j ∧ s'.log.count (.ran j) = s.log.count (.ran j) := by
  cases hm with
  | dropDelayed =>
    refine ⟨?_, ?_⟩
    · rw [count_tasks, count_tasks, List.map_nil, List.count_nil]
      dsimp only
      omega
    · have hnone : (s.delayed.map fun entry => HandlerEvent.dropped entry.call).count (.ran j) =
          0 := List.count_eq_zero.mpr (by simp)
      rw [List.count_append, hnone, Nat.add_zero]
  | releaseQueue =>
    refine ⟨?_, rfl⟩
    rw [count_tasks, count_tasks, RingBuffer.toList_empty, List.filterMap_nil, List.count_nil]
    dsimp only
    omega
  | finish => exact ⟨le_rfl, by simp [note]⟩
  | _ => exact ⟨le_rfl, rfl⟩

theorem StopMove.calls {timeUp : Bool} (hm : StopMove config s timeUp s') : s'.calls = s.calls := by
  cases hm <;> rfl

theorem StopMove.loop {timeUp : Bool} (hm : StopMove config s timeUp s') : s'.loop = s.loop := by
  cases hm <;> rfl

/-- A message that is taken to `Dispatch` is with the loop, and no longer with its poster. -/
theorem count_receive {k : Nat} {message : LosEventMessage} (hidle : s.loop = .idle)
    (hk : s.posted[k]? = some message) (j : Nat) :
    (tasks { s with posted := s.posted.eraseIdx k, loop := .dispatch message }).count j =
      s.tasks.count j := by
  obtain ⟨hlt, hmessage⟩ := List.getElem?_eq_some_iff.mp hk
  have hperm := (List.getElem_cons_eraseIdx_perm hlt).filterMap LosEventMessage.task
  have hcount := hperm.count_eq j
  rw [hmessage, count_task_cons] at hcount
  rw [count_tasks, count_tasks, hidle]
  simp only [LoopPc.tasks, List.count_nil]
  omega

/-- A handler that begins to run takes over no more tasks than there were. -/
theorem count_initialized (config : Config) (s : LosEventHandler) (j : Nat) :
    (s.initialized config).tasks.count j ≤ s.tasks.count j := by
  obtain ⟨-, -, hdelayed, -, -, -, hposted, hrest⟩ := initialized_frame config s
  rw [count_tasks, count_tasks, hdelayed, hposted]
  rcases hrest with ⟨hring, hloop⟩ | ⟨-, hring, hloop⟩
  · rw [hring, hloop]
  · rw [hring, hloop, RingBuffer.toList_empty, List.filterMap_nil, List.count_nil]
    simp only [LoopPc.tasks, List.count_nil]
    omega

/-! ## Every run -/

theorem Custody.call (h : s.Custody) (hi : s.calls[i]? = some c)
    (hm : CallMove config i s c s₁ c') : Custody { s₁ with calls := s₁.calls.set i c' } := by
  have hset : Agents.Once (s.calls.set i c') Call.keepsTask fun j =>
      s₁.tasks.count j + s₁.log.count (.ran j) := by
    refine Agents.Once.set h hi fun j => ?_
    have hmove := hm.custody j
    omega
  rwa [← hm.frame.calls] at hset

/-- A task is seen no more often where nothing happens to the calls. -/
theorem Custody.calm (h : s.Custody) (hcalls : s'.calls = s.calls)
    (hle : ∀ j, s'.tasks.count j + s'.log.count (.ran j) ≤
      s.tasks.count j + s.log.count (.ran j)) : s'.Custody := by
  unfold Custody
  rw [hcalls]
  exact Agents.Once.mono h hle

theorem Custody.loop (h : s.Custody) (hm : LoopMove config s s') : s'.Custody := by
  rcases hm.calls with hcalls | ⟨i, c, status, hi, hcalls⟩
  · exact h.calm hcalls hm.custody
  · unfold Custody
    rw [hcalls]
    refine Agents.Once.set h hi fun j => ?_
    have hmove := hm.custody j
    change (if i = j then c.keepsTask.toNat else 0) + _ ≤ _
    omega

/-- **A move of the system leaves a task at one place.** -/
theorem Custody.move (h : s.Custody) (hm : Move config s a s') : s'.Custody := by
  cases hm with
  | init =>
    obtain ⟨-, hcalls, -, -, -, hlog, -⟩ := initialized_frame config s
    refine h.calm hcalls fun j => ?_
    have hran : (s.log ++ [HandlerEvent.started]).count (HandlerEvent.ran j) =
        s.log.count (.ran j) := by simp
    rw [hlog, hran]
    exact Nat.add_le_add_right (count_initialized config s j) _
  | invoke | expire => exact Agents.Once.append h _ fun _ => le_rfl
  | call hi hm => exact h.call hi hm
  | loop _ hm => exact h.loop hm
  | receive _ hidle hk =>
    refine h.calm rfl fun j => ?_
    rw [count_receive hidle hk]
  | stop hm =>
    refine h.calm hm.calls fun j => ?_
    obtain ⟨htasks, hran⟩ := hm.custody j
    omega
  | bindLoopTask | callStop | tick | nothing => exact h

theorem Custody.step (h : s.Custody) (hstep : s.step? config a = some s') : s'.Custody := by
  obtain ⟨me, -, rfl⟩ | ⟨l, -, hm⟩ := step_cases hstep
  · exact h
  · exact Custody.move (s := { s with lock := l }) h hm

/-- **A task is at one place at most, and only if it has not run**, in every state of every
run. -/
theorem reachable_custody (h : Reachable config s) : s.Custody := by
  refine h.invariant (fun s hs => ?_) fun s s' hs hstep => ?_
  · subst hs
    exact Agents.once_nil fun _ => rfl
  · obtain ⟨a, ha⟩ := hstep
    exact hs.step ha

/-- **No task runs twice.** -/
theorem Custody.ran_le_one (h : s.Custody) (i : Nat) : s.log.count (.ran i) ≤ 1 := by
  have hle := Agents.Once.done_le_one h i
  omega

end LosEventHandler

end CallManagerMini
