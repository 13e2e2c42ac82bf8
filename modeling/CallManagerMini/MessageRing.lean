import CallManagerMini.ReleasedObjects

/-! # The ring is a queue

A self-driven handler passes its messages through `ring_`, and a wake-up for each of them through
`queueSem_`.  The section of `Enqueue` accepts a message, the section of the loop takes one; the
wake-up is posted behind the one and consumed before the other, so that the count and the ring are
out of step in between.  Whatever way posters, timer callbacks and the loop are interleaved, what
was accepted is what was taken and what the ring still holds, in this order, and a wake-up stands
for each message the ring holds: in the semaphore, with its poster, or in the hand of the loop
(`ring_is_queue`).
-/

namespace CallManagerMini

/-- Every message but the timer message. -/
def LosEventMessage.isTask (message : LosEventMessage) : Bool := message ≠ .timerFire

/-- Its message is accepted, and it has not signalled yet. -/
def Call.signalling (c : Call) : Bool := c.pc = .signal

/-- The loop has consumed a wake-up and not taken a message for it. -/
def LoopPc.woken (pc : LoopPc) : Bool := pc = .pop

/-- The places of the loop before it looks whether the handler stops. -/
def LoopPc.listening : LoopPc → Bool
  | .bind | .wait | .pop => true
  | _ => false

/-- The places of a loop that has not found the handler stopping. -/
def LoopPc.serving : LoopPc → Bool
  | .dispatch _ => true
  | pc => pc.listening || pc.inDispatch

/-- The messages that were accepted, and those that were taken, since the handler was
initialized. -/
structure Passage where
  accepted : List LosEventMessage := []
  popped : List LosEventMessage := []
  deriving DecidableEq, Repr

namespace LosEventHandler

variable {config : Config} {s s' s₁ : LosEventHandler} {i : Nat} {c c' : Call} {a : Act}
  {passage : Passage}

/-- The message a step accepts: the call leaves the section of `Enqueue` to signal. -/
def accepts (a : Act) (s s' : LosEventHandler) : Option LosEventMessage :=
  match a with
  | .call i _ =>
    match s.calls[i]?, s'.calls[i]? with
    | some c, some c' => if c.pc = .push ∧ c'.pc = .signal then some (c.message i) else none
    | _, _ => none
  | _ => none

/-- The message a step takes: the loop leaves its section, or that of its last loop, with it. -/
def pops (a : Act) (s s' : LosEventHandler) : Option LosEventMessage :=
  match a, s.loop, s'.loop with
  | .loop, .pop, .dispatch message => some message
  | .loop, .drain, .recycle true message => some message
  | _, _, _ => none

/-- `Init` has started the handler. -/
def starts (s s' : LosEventHandler) : Bool := s.state = .uninit && s'.state = .running

/-- What passes in a step. -/
def passes (a : Act) (s s' : LosEventHandler) (passage : Passage) : Passage :=
  if starts s s' then {}
  else
    { accepted := passage.accepted ++ (accepts a s s').toList
      popped := passage.popped ++ (pops a s s').toList }

/-- One step, with what passes in it. -/
def passingStep? (config : Config) (a : Act) (p : LosEventHandler × Passage) :
    Option (LosEventHandler × Passage) :=
  (p.1.step? config a).map fun s' => (s', passes a p.1 s' p.2)

/-- The states the handler comes to, with what has passed. -/
abbrev Passing (config : Config) : LosEventHandler × Passage → Prop :=
  Runs.Reachable (· = ({}, {})) fun p p' => ∃ a, passingStep? config a p = some p'

/-- The call `i` finds room for its message in the section of `Enqueue`. -/
def HasRoom (config : Config) (i : Nat) (c : Call) (s : LosEventHandler) : Prop :=
  s.ring.count < s.ringLimit config (c.message i) ∧ s.ring.count < s.ring.slots.length

/-- **The ring is a queue.** -/
structure IsQueue (config : Config) (passage : Passage) (s : LosEventHandler) : Prop where
  /-- What was accepted was taken in that order, or is held in that order. -/
  order : passage.accepted = passage.popped ++ s.ring.toList
  tasks_le : s.ring.toList.countP LosEventMessage.isTask ≤ config.queueSize
  timerMessage_le : s.ring.toList.count .timerFire ≤ 1
  /-- The timer message finds room. -/
  timerMessage_fits : ∀ i c, s.calls[i]? = some c → c.request = .onTimerExpired → c.pc = .push →
    s.HasRoom config i c
  /-- A wake-up for each message. -/
  wakeUps : ∃ n, s.queueSem = some n ∧
    n + s.calls.countP Call.signalling + s.loop.woken.toNat = s.ring.count
  /-- A loop that was woken finds a message. -/
  woken : s.loop = .pop → s.ring.toList ≠ []

/-! ## What keeps the ring -/

/-- The handler runs, or a `Stop` was called on its loop that will be taken back. -/
def Live (config : Config) (s : LosEventHandler) : Prop :=
  s.state = .running ∨ (s.stop = .checkOnLoop ∨ s.stop = .resume) ∧ s.stopTask = config.loopTask

/-- What the ring, the semaphore and the loop have to do with each other while the handler runs. -/
structure RingFits (config : Config) (passage : Passage) (s : LosEventHandler) : Prop where
  order : passage.accepted = passage.popped ++ s.ring.toList
  capacity : s.ring.capacity = config.queueSize + 1
  tasks_le : s.ring.toList.countP LosEventMessage.isTask ≤ config.queueSize
  wakeUps : ∃ n, s.queueSem = some n ∧
    n + s.calls.countP Call.signalling + s.loop.woken.toNat = s.ring.count
  serving : s.loop.serving = true
  stays : s.loop.listening = false → s.loopStopping = false

/-- Neither the ring nor the loop has moved, and as many calls as before are to signal. -/
theorem RingFits.frame (h : s.RingFits config passage) (hring : s'.ring = s.ring)
    (hsem : s'.queueSem = s.queueSem)
    (hcalls : s'.calls.countP Call.signalling = s.calls.countP Call.signalling)
    (hloop : s'.loop = s.loop) (hstopping : s'.loopStopping = s.loopStopping) :
    RingFits config passage s' := by
  refine ⟨?_, ?_, ?_, ?_, ?_, ?_⟩
  · rw [hring]
    exact h.order
  · rw [hring]
    exact h.capacity
  · rw [hring]
    exact h.tasks_le
  · rw [hring, hsem, hcalls, hloop]
    exact h.wakeUps
  · rw [hloop]
    exact h.serving
  · rw [hloop, hstopping]
    exact h.stays

/-! ## The calls -/

theorem enqueued_ne_signal (c : Call) (ret : RetCode) :
    (c.goto (c.request.enqueued ret)).pc ≠ .signal := by
  unfold HandlerRequest.enqueued
  cases c.request with
  | postSyncTask | onTimerExpired =>
    dsimp only
    split <;> simp
  | _ => simp

theorem admitted_ne_signal (c : Call) : (c.goto c.request.admitted).pc ≠ .signal := by
  unfold HandlerRequest.admitted
  cases c.request with
  | postAsyncTask | removeAsyncTask =>
    dsimp only
    split <;> simp
  | _ => simp

/-- What a move of a call has to do with the ring. -/
inductive RingMove (config : Config) (i : Nat) (s : LosEventHandler) (c : Call) :
    LosEventHandler → Call → Prop where
  | push {d : Call} (h : s.ring.count < s.ring.slots.length) : c.pc = .push → d.pc = .signal →
    s.ring.count < s.ringLimit config (c.message i) →
    RingMove config i s c { s with ring := s.ring.push (c.message i) h } d
  | signal {d : Call} : c.pc = .signal → d.pc ≠ .signal →
    RingMove config i s c (s.postQueueSem config) d
  | none {t : LosEventHandler} {d : Call} : c.pc ≠ .signal → d.pc ≠ .signal → t.ring = s.ring →
    t.queueSem = s.queueSem → t.loopStopping = s.loopStopping → RingMove config i s c t d

theorem CallMove.ringMove (hm : CallMove config i s c s₁ c') : RingMove config i s c s₁ c' := by
  cases hm with
  | push hpc h hlimit => exact .push h hpc rfl hlimit
  | signal hpc => exact .signal hpc (enqueued_ne_signal c _)
  | insert hpc =>
    obtain ⟨t, l, -, heq⟩ := enterDelayed_eq config i _ s
    rw [heq]
    exact .none (by simp [hpc]) (by simp) rfl rfl rfl
  | remove hpc =>
    obtain ⟨t, es, -, heq⟩ := eraseDelayed_eq config _ s
    rw [heq]
    exact .none (by simp [hpc]) (by simp) rfl rfl rfl
  | rearm hpc =>
    obtain ⟨t, -, heq⟩ := startTimer_eq config _ s
    rw [heq]
    exact .none (by simp [hpc]) (by simp) rfl rfl rfl
  | allow hpc => exact .none (by simp [hpc]) (admitted_ne_signal c) rfl rfl rfl
  | starve hpc | enqueueStopped hpc | post hpc | postRefused hpc | pushFull hpc =>
    exact .none (by simp [hpc]) (enqueued_ne_signal c _) rfl rfl rfl
  | enqueue hpc =>
    refine .none (by simp [hpc]) ?_ rfl rfl rfl
    cases config.poster <;> simp
  | _ hpc => exact .none (by simp [hpc]) (by simp) rfl rfl rfl

theorem accepts_call {choice : Bool} (hi : s.calls[i]? = some c) (hcalls : s₁.calls = s.calls) :
    accepts (.call i choice) s { s₁ with calls := s₁.calls.set i c' } =
      if c.pc = .push ∧ c'.pc = .signal then some (c.message i) else none := by
  obtain ⟨hlt, -⟩ := List.getElem?_eq_some_iff.mp hi
  simp only [accepts, hi, hcalls, List.getElem?_set_self hlt]

/-- A task is accepted only next to fewer than `queueSize` messages. -/
theorem tasks_le_push {message : LosEventMessage} (h : s.ring.count < s.ring.slots.length)
    (hlimit : s.ring.count < s.ringLimit config message)
    (hle : s.ring.toList.countP LosEventMessage.isTask ≤ config.queueSize) :
    (s.ring.push message h).toList.countP LosEventMessage.isTask ≤ config.queueSize := by
  rw [RingBuffer.toList_push, List.countP_append, List.countP_singleton]
  by_cases hmessage : message = .timerFire
  · simpa [LosEventMessage.isTask, hmessage] using hle
  · have hcount : s.ring.toList.countP LosEventMessage.isTask ≤ s.ring.count := by
      rw [← RingBuffer.length_toList]
      exact List.countP_le_length
    rw [ringLimit, if_neg hmessage] at hlimit
    rw [if_pos (by simpa [LosEventMessage.isTask] using hmessage)]
    omega

/-- **A move of a call keeps the ring in order.** -/
theorem RingFits.call {choice : Bool} (h : s.RingFits config passage) (hi : s.calls[i]? = some c)
    (hm : CallMove config i s c s₁ c') (hs : s.state ≠ .uninit) :
    RingFits config (passes (.call i choice) s { s₁ with calls := s₁.calls.set i c' } passage)
      { s₁ with calls := s₁.calls.set i c' } := by
  have hframe := hm.frame
  have hcount := Agents.countP_set_add Call.signalling c' hi
  have hcalls := hframe.calls
  obtain ⟨n, hsem, hwake⟩ := h.wakeUps
  unfold passes
  rw [if_neg (by simp [starts, hs]), accepts_call hi hcalls]
  cases hm.ringMove with
  | push hroom hpc hpc' hlimit =>
    rw [if_pos ⟨hpc, hpc'⟩]
    refine
      { order := ?_
        capacity := (RingBuffer.capacity_push hroom).trans h.capacity
        tasks_le := tasks_le_push hroom hlimit h.tasks_le
        wakeUps := ⟨n, hsem, ?_⟩
        serving := h.serving
        stays := h.stays }
    · simp only [pops, Option.toList_some, Option.toList_none, List.append_nil,
        RingBuffer.toList_push, h.order, List.append_assoc]
    · rw [RingBuffer.count_push]
      change n + (s.calls.set i c').countP Call.signalling + s.loop.woken.toNat = s.ring.count + 1
      simp only [Call.signalling, hpc, hpc', decide_true, Bool.toNat_true, reduceCtorEq,
        decide_false, Bool.toNat_false] at hcount hwake ⊢
      omega
  | signal hpc hpc' =>
    -- the semaphore has room for the wake-up: it stands for no more than the ring holds
    have hle : n < config.queueSize + 1 := by
      have hcapacity : s.ring.slots.length = config.queueSize + 1 := h.capacity
      have hring := s.ring.count_le
      have hpos : 0 < s.calls.countP Call.signalling :=
        List.countP_pos_iff.mpr ⟨c, List.mem_of_getElem? hi, by simp [Call.signalling, hpc]⟩
      omega
    rw [if_neg (by simp [hpc])]
    refine
      { order := ?_
        capacity := h.capacity
        tasks_le := h.tasks_le
        wakeUps := ⟨n + 1, ?_, ?_⟩
        serving := h.serving
        stays := h.stays }
    · simpa [pops, postQueueSem] using h.order
    · simpa [postQueueSem, hsem] using hle
    · change n + 1 + (s.calls.set i c').countP Call.signalling + s.loop.woken.toNat = s.ring.count
      simp only [Call.signalling, hpc, hpc', decide_true, Bool.toNat_true, decide_false,
        Bool.toNat_false] at hcount hwake ⊢
      omega
  | none hpc hpc' hring hsem' hstopping =>
    have hpassage : ({ accepted := passage.accepted ++ (if c.pc = .push ∧ c'.pc = .signal then
        some (c.message i) else none).toList, popped := passage.popped ++
          (pops (.call i choice) s { s₁ with calls := s₁.calls.set i c' }).toList } : Passage) =
        passage := by
      rw [if_neg fun hboth => hpc' hboth.2]
      simp [pops]
    rw [hpassage]
    refine h.frame hring hsem' ?_ hframe.loop hstopping
    change (s₁.calls.set i c').countP Call.signalling = _
    rw [hcalls]
    simp only [Call.signalling, hpc, hpc', decide_false, Bool.toNat_false] at hcount ⊢
    omega

/-! ## The loop -/

theorem accepts_same (hcalls : s'.calls = s.calls) : accepts a s s' = none := by
  cases a with
  | call i choice =>
    cases hi : s.calls[i]? with
    | none => simp [accepts, hi]
    | some c =>
      simp only [accepts, hi, hcalls]
      exact if_neg fun hboth => by simp [hboth.1] at hboth
  | _ => rfl

theorem pops_same (hloop : s'.loop = s.loop) : pops a s s' = none := by
  cases a with
  | loop =>
    cases hpc : s.loop <;> simp [pops, hloop, hpc]
  | _ => rfl

/-- A step in which nothing is accepted or taken. -/
theorem passes_none (hs : s.state ≠ .uninit) (haccepts : accepts a s s' = none)
    (hpops : pops a s s' = none) : passes a s s' passage = passage := by
  unfold passes
  rw [if_neg (by simp [starts, hs]), haccepts, hpops]
  simp

theorem signalling_completeLocked (i : Nat) (status : RetCode) (s : LosEventHandler) :
    (s.completeLocked i status).calls.countP Call.signalling =
      s.calls.countP Call.signalling := by
  cases hi : s.calls[i]? with
  | none => simp only [completeLocked, hi]
  | some c =>
    have hcount := Agents.countP_set_add Call.signalling (c.completed status) hi
    have hsame : (c.completed status).signalling = c.signalling := rfl
    rw [hsame] at hcount
    rw [completeLocked_calls hi]
    omega

/-- The loop moves, and does not touch the ring or the semaphore. -/
theorem RingFits.aside (h : s.RingFits config passage) (hs : s.state ≠ .uninit)
    (hpops : pops .loop s s' = none) (hring : s'.ring = s.ring) (hsem : s'.queueSem = s.queueSem)
    (hcalls : s'.calls.countP Call.signalling = s.calls.countP Call.signalling)
    (hwoken : s'.loop.woken = s.loop.woken) (hserving : s'.loop.serving = true)
    (hstays : s'.loop.listening = false → s'.loopStopping = false) :
    RingFits config (passes .loop s s' passage) s' := by
  rw [passes_none hs rfl hpops]
  refine ⟨?_, ?_, ?_, ?_, hserving, hstays⟩
  · rw [hring]
    exact h.order
  · rw [hring]
    exact h.capacity
  · rw [hring]
    exact h.tasks_le
  · rw [hring, hsem, hcalls, hwoken]
    exact h.wakeUps

/-- **A move of the loop keeps the ring in order**: it takes a message for every wake-up. -/
theorem RingFits.loop (h : s.RingFits config passage) (hposter : config.poster = false)
    (hs : s.state ≠ .uninit) (hrunning : s.loop = .pop → s.state = .running)
    (hm : LoopMove config s s') : RingFits config (passes .loop s s' passage) s' := by
  have hstays : ∀ {pc}, s.loop = pc → pc.listening = false → s.loopStopping = false := by
    rintro pc rfl hpc
    exact h.stays hpc
  have hout : ∀ {pc}, s.loop = pc → pc.serving = false → RingFits config
      (passes .loop s s' passage) s' := by
    rintro pc rfl hpc
    rw [h.serving] at hpc
    cases hpc
  obtain ⟨n, hsem, hwake⟩ := h.wakeUps
  cases hm with
  | bind hpc =>
    exact h.aside hs (by simp [pops, hpc]) rfl rfl rfl (by simp [hpc, LoopPc.woken]) rfl
      (by simp [LoopPc.listening])
  | @wait m hpc hsome hcount =>
    obtain ⟨k, rfl, rfl⟩ := hcount n hsem
    rw [passes_none hs rfl (by simp [pops, hpc])]
    refine { h with wakeUps := ⟨k, rfl, ?_⟩, serving := rfl, stays := by simp [LoopPc.listening] }
    simp only [hpc, LoopPc.woken, decide_true, Bool.toNat_true, reduceCtorEq, decide_false,
      Bool.toNat_false] at hwake ⊢
    omega
  | popNone hpc hnone =>
    -- the wake-up stands for a message
    have hzero := RingBuffer.pop_eq_none.mp hnone
    simp only [hpc, LoopPc.woken, decide_true, Bool.toNat_true] at hwake
    omega
  | @pop message rest hpc hpop =>
    have hlist := RingBuffer.toList_eq_cons hpop
    have hlength : s.ring.count = rest.count + 1 := by
      rw [← RingBuffer.length_toList, ← RingBuffer.length_toList, hlist, List.length_cons]
    unfold passes
    rw [if_neg (by simp [starts, hs])]
    refine
      { order := ?_
        capacity := (RingBuffer.capacity_pop hpop).trans h.capacity
        tasks_le := ?_
        wakeUps := ⟨n, hsem, ?_⟩
        serving := rfl
        stays := fun _ => by simp [hrunning hpc] }
    · simp only [accepts, pops, hpc, Option.toList_none, Option.toList_some, List.append_nil,
        List.append_assoc, List.singleton_append, h.order, hlist]
    · have hle := h.tasks_le
      rw [hlist, List.countP_cons] at hle
      dsimp only
      omega
    · simp only [hpc, LoopPc.woken, decide_true, Bool.toNat_true, reduceCtorEq, decide_false,
        Bool.toNat_false] at hwake ⊢
      omega
  | dispatched hpc =>
    have hstopping := hstays hpc rfl
    simp only [hposter, hstopping, Bool.false_eq_true, if_false]
    exact h.aside hs (by simp [pops, hpc]) rfl rfl rfl (by simp [hpc, LoopPc.woken]) rfl
      (by simp [LoopPc.listening])
  | takeDue hpc =>
    obtain ⟨t, -, heq⟩ := takeDueLocked_eq config s
    rw [heq] at hout ⊢
    exact h.aside hs (by simp [pops, hpc]) rfl rfl rfl (by simp [hpc, LoopPc.woken]) rfl
      fun _ => hstays hpc rfl
  | @complete drained i status hpc =>
    cases drained with
    | true => exact hout hpc rfl
    | false =>
      have hcalls := signalling_completeLocked i status s
      obtain ⟨calls, inUse, sems, es, -, heq⟩ := completeLocked_eq i status s
      rw [heq] at hcalls hout ⊢
      exact h.aside hs (by simp [pops, hpc]) rfl rfl hcalls
        (by simp [hpc, LoopPc.woken, LoopPc.behind]) rfl fun _ => hstays hpc rfl
  | @recycleTimer drained hpc | @recycleAsync drained _ hpc | @recycleSync drained _ hpc =>
    cases drained with
    | true => exact hout hpc rfl
    | false =>
      exact h.aside hs (by simp [pops, hpc]) rfl rfl rfl
        (by simp [hpc, LoopPc.woken, LoopPc.behind]) rfl fun _ => hstays hpc rfl
  | drainNone hpc | drain hpc | unbind hpc | exit hpc => exact hout hpc rfl
  | _ hpc =>
    exact h.aside hs (by simp [pops, hpc]) rfl rfl rfl (by simp [hpc, LoopPc.woken]) rfl
      fun _ => hstays hpc rfl

/-! ## The system -/

theorem initialized_selfDriven (hposter : config.poster = false) (s : LosEventHandler) :
    s.initialized config = { s with
      timerMessage := true, lock := some none, timer := some {}
      waiterSems := List.replicate config.maxSyncWaiters 0
      waiterInUse := List.replicate config.maxSyncWaiters false
      state := .running, ring := .empty (config.queueSize + 1), queueSem := some 0
      loopRunning := true, loop := .bind, log := s.log ++ [.started] } := by
  simp [LosEventHandler.initialized, hposter, note]

theorem Live.ne_uninit (h : s.Live config) (hinv : s.Inv config) : s.state ≠ .uninit := by
  rcases h with hrunning | ⟨hstop, -⟩
  · simp [hrunning]
  · have hstopping := hinv.stopping (by rcases hstop with hstop | hstop <;> simp [hstop])
    simp [hstopping]

/-- A handler that starts has an empty ring, and no poster of an earlier life is to signal. -/
theorem ringFits_initialized (hinv : s.Inv config) (hposter : config.poster = false)
    (hs : s.state = .uninit) : RingFits config {} (s.initialized config) := by
  have hnone : s.calls.countP Call.signalling = 0 := by
    refine List.countP_eq_zero.mpr fun c hc hsignal => ?_
    have hadmitted := hinv.noCalls (by simp [stage, hs]) c hc
    have hpc : c.pc = .signal := by simpa [Call.signalling] using hsignal
    simp [Call.admitted, hpc] at hadmitted
  rw [initialized_selfDriven hposter]
  refine ⟨rfl, List.length_replicate, Nat.zero_le _, ⟨0, rfl, ?_⟩, rfl, by simp [LoopPc.listening]⟩
  change 0 + s.calls.countP Call.signalling + 0 = 0
  rw [hnone]

/-- What `Stop` does while the ring is in order: it is taken back, or the handler stops. -/
theorem StopMove.live {timeUp : Bool} (hm : StopMove config s timeUp s') (hinv : s.Inv config)
    (hpaused : s.Paused config) (hlive : s'.Live config) : s.Live config ∧ s'.ring = s.ring ∧
      s'.queueSem = s.queueSem ∧ s'.calls = s.calls ∧ s'.loop = s.loop ∧
      s'.loopStopping = s.loopStopping ∧ (s.state = .uninit → s'.state = .uninit) := by
  have hnot : ∀ {P : Prop}, s'.state ≠ .running → s'.stop ≠ .checkOnLoop → s'.stop ≠ .resume → P :=
    fun hrunning hcheck hresume =>
      hlive.elim (fun h => absurd h hrunning) fun h => h.1.elim (absurd · hcheck) (absurd · hresume)
  have hinside : ∀ {pc}, s.stop = pc → pc ≠ .idle → s.state ≠ .running := by
    rintro pc rfl hpc
    simp [hinv.stopping hpc]
  cases hm with
  | poll => exact ⟨hlive, rfl, rfl, rfl, rfl, rfl, id⟩
  | onLoop hpc hon =>
    exact ⟨.inr ⟨.inl hpc, hinv.eq_loopTask hon⟩, rfl, rfl, rfl, rfl, rfl, id⟩
  | resume hpc =>
    refine ⟨.inr ⟨.inr hpc, hpaused.resume hpc⟩, rfl, rfl, rfl, rfl, rfl, fun hs => ?_⟩
    rw [hinv.stopping (by simp [hpc])] at hs
    cases hs
  | giveUp hpc =>
    refine hnot ?_ (by simp) (by simp)
    rcases hpc with hpc | hpc | hpc | hpc <;> exact hinside hpc (by simp)
  | waitAgain hpc =>
    refine hnot ?_ (by simp) (by simp)
    rcases hpc with hpc | hpc <;> exact hinside hpc (by simp)
  | dropDelayed hpc =>
    refine hnot (hinside hpc (by simp)) ?_ ?_ <;> cases config.poster <;> simp
  | finish => exact hnot (by simp [note]) (by simp [note]) (by simp [note])
  | _ hpc => exact hnot (hinside hpc (by simp)) (by simp) (by simp)

/-- **A move of the system keeps the ring in order**, as long as the handler runs. -/
theorem RingFits.move (hm : Move config s a s') (hinv : s.Inv config) (hpaused : s.Paused config)
    (hposter : config.poster = false) (h : s.Live config → s.RingFits config passage)
    (hlive : s'.Live config) : RingFits config (passes a s s' passage) s' := by
  have hinit : s.Live config → s.state ≠ .uninit := fun hlive => hlive.ne_uninit hinv
  have hframe : s.Live config → accepts a s s' = none → pops a s s' = none → s'.ring = s.ring →
      s'.queueSem = s.queueSem →
      s'.calls.countP Call.signalling = s.calls.countP Call.signalling → s'.loop = s.loop →
      s'.loopStopping = s.loopStopping → RingFits config (passes a s s' passage) s' := by
    intro hbefore haccepts hpops hring hsem hcalls hloop hstopping
    rw [passes_none (hinit hbefore) haccepts hpops]
    exact (h hbefore).frame hring hsem hcalls hloop hstopping
  cases hm with
  | @init created hs =>
    have hstarts : starts s (s.initialized config) = true := by
      rw [initialized_selfDriven hposter]
      simp [starts, hs]
    unfold passes
    rw [if_pos hstarts]
    exact ringFits_initialized hinv hposter hs
  | invoke | expire =>
    refine hframe hlive rfl rfl rfl rfl ?_ rfl rfl
    rw [List.countP_append]
    rfl
  | @call i choice c c' s₁ hi hm =>
    have hbefore : s.Live config := by
      have hf := hm.frame
      simpa only [Live, hf.state, hf.stop, hf.stopTask] using hlive
    exact (h hbefore).call hi hm (hinit hbefore)
  | loop hfree hm =>
    have hf := hm.frame
    have hbefore : s.Live config := by
      simpa only [Live, hf.state, hf.stop, hf.stopTask] using hlive
    refine (h hbefore).loop hposter (hinit hbefore) (fun hpop => ?_) hm
    -- a `Stop` on the loop stands where the loop executes a task
    refine hbefore.resolve_right fun ⟨hstop, htask⟩ => ?_
    have hown := hpaused.onLoop (stopsOnLoop_iff.mpr
      ⟨by rcases hstop with hstop | hstop <;> simp [hstop], htask⟩)
    rw [leftToOwner, hpop, hposter] at hown
    cases hown
  | bindLoopTask hdriven | receive hdriven =>
    rw [hposter] at hdriven
    cases hdriven
  | callStop hs => exact hframe (.inl hs) rfl rfl rfl rfl rfl rfl rfl
  | stop hm =>
    obtain ⟨hbefore, hring, hsem, hcalls, hloop, hstopping, -⟩ := hm.live hinv hpaused hlive
    exact hframe hbefore rfl rfl hring hsem (congrArg _ hcalls) hloop hstopping
  | tick => exact hframe hlive rfl rfl rfl rfl rfl rfl rfl
  | nothing => exact hframe hlive (accepts_same rfl) (pops_same rfl) rfl rfl rfl rfl rfl

theorem RingFits.step (hstep : s.step? config a = some s') (hinv : s.Inv config)
    (hpaused : s.Paused config) (hposter : config.poster = false)
    (h : s.Live config → s.RingFits config passage) (hlive : s'.Live config) :
    RingFits config (passes a s s' passage) s' := by
  obtain ⟨me, -, rfl⟩ | ⟨l, hl, hm⟩ := step_cases hstep
  · have hbefore : s.Live config := hlive
    have hnone : passes a s { s with lock := some (some me) } passage = passage :=
      passes_none (hbefore.ne_uninit hinv) (accepts_same rfl) (pops_same rfl)
    rw [hnone]
    exact (h hbefore).frame rfl rfl rfl rfl rfl
  · exact RingFits.move (s := { s with lock := l }) hm (hinv.locked hl)
      (hpaused.frame rfl rfl rfl) hposter (fun hbefore =>
        (h hbefore).frame rfl rfl rfl rfl rfl) hlive

theorem Passing.reachable {p : LosEventHandler × Passage} (h : Passing config p) :
    Reachable config p.1 := by
  induction h with
  | start hp => exact .start (by rw [hp])
  | next _ hstep ih =>
    obtain ⟨a, hstep⟩ := hstep
    obtain ⟨s', hs', rfl⟩ := Option.map_eq_some_iff.mp hstep
    exact ih.next ⟨a, hs'⟩

theorem Passing.ringFits {p : LosEventHandler × Passage} (h : Passing config p)
    (hposter : config.poster = false) (hlive : p.1.Live config) : RingFits config p.2 p.1 := by
  induction h with
  | start hp =>
    subst hp
    rcases hlive with hrunning | ⟨hstop, -⟩
    · cases hrunning
    · rcases hstop with hstop | hstop <;> cases hstop
  | @next p p' hprev hstep ih =>
    obtain ⟨a, hstep⟩ := hstep
    obtain ⟨s', hs', rfl⟩ := Option.map_eq_some_iff.mp hstep
    have hreach := Passing.reachable hprev
    exact RingFits.step hs' (reachable_inv hreach) (reachable_paused hreach) hposter ih hlive

/-- **The ring of a self-driven handler refines a queue**, in every state in which the handler
runs. -/
theorem ring_is_queue {p : LosEventHandler × Passage} (h : Passing config p)
    (hposter : config.poster = false) (hrunning : p.1.state = .running) :
    IsQueue config p.2 p.1 := by
  have hfits := h.ringFits hposter (.inl hrunning)
  have hinv := reachable_inv h.reachable
  have hqueued := hinv.queued
  obtain ⟨n, hsem, hwake⟩ := hfits.wakeUps
  have hheld : p.1.ring.toList.count .timerFire ≤ p.1.inFlight .timerFire := by
    unfold inFlight
    omega
  have hcount : p.1.ring.count = p.1.ring.toList.countP LosEventMessage.isTask +
      p.1.ring.toList.count .timerFire := by
    have hother : p.1.ring.toList.countP (fun message => ¬message.isTask) =
        p.1.ring.toList.count .timerFire :=
      List.countP_congr fun message _ => by simp [LosEventMessage.isTask]
    rw [← RingBuffer.length_toList, List.length_eq_countP_add_countP LosEventMessage.isTask, hother]
  refine
    { order := hfits.order
      tasks_le := hfits.tasks_le
      timerMessage_le := ?_
      timerMessage_fits := ?_
      wakeUps := hfits.wakeUps
      woken := ?_ }
  · have := Bool.toNat_le p.1.timerMessageQueued
    omega
  · intro i c hi hreq hpc
    have hpos : 0 < p.1.calls.countP Call.holdsTimerMessage :=
      List.countP_pos_iff.mpr ⟨c, List.mem_of_getElem? hi, by simp [Call.holdsTimerMessage, hreq, hpc]⟩
    have hcapacity : p.1.ring.capacity = config.queueSize + 1 := hfits.capacity
    have hle := hfits.tasks_le
    have hbool := Bool.toNat_le p.1.timerMessageQueued
    have hroom : p.1.ring.count < p.1.ring.capacity := by omega
    refine ⟨?_, hroom⟩
    rw [ringLimit, if_pos (message_eq_timerFire.mpr hreq)]
    exact hroom
  · intro hpop hempty
    rw [hpop] at hwake
    rw [← RingBuffer.length_toList, hempty] at hwake
    simp [LoopPc.woken] at hwake

/-- Several steps, with what passes in them. -/
def passingRun? (config : Config) (as : List Act) (p : LosEventHandler × Passage) :
    Option (LosEventHandler × Passage) :=
  as.foldlM (fun p a => passingStep? config a p) p

theorem passing_run {as : List Act} {p p' : LosEventHandler × Passage} (hp : Passing config p)
    (h : passingRun? config as p = some p') : Passing config p' :=
  Runs.Reachable.foldlM hp h

/-- A self-driven handler whose ring takes two tasks. -/
def ringConfig : Config := { smallConfig with poster := false, loopName := true }

/-- Three tasks are posted: the first is taken, the poster of the second has signalled, that of
the third is about to. -/
def threePosts : List Act :=
  [.init true] ++ [0, 1, 2].map (fun i => .invoke (.postAsyncTask 0#32) (10 + i)) ++ [.loop] ++
    List.replicate 7 (.call 0 true) ++ [.loop, .loop, .loop] ++
    List.replicate 7 (.call 1 true) ++ List.replicate 6 (.call 2 true)

theorem ring_is_queue_three :
    (passingRun? ringConfig threePosts ({}, {})).elim False fun p =>
      (p.2.accepted = [.asyncTask 0, .asyncTask 1, .asyncTask 2] ∧ p.1.state = .running) ∧
        IsQueue ringConfig p.2 p.1 := by
  have hrun : (passingRun? ringConfig threePosts ({}, {})).map
      (fun p => decide (p.2.accepted = [.asyncTask 0, .asyncTask 1, .asyncTask 2] ∧
        p.1.state = .running)) = some true := by decide +kernel
  obtain ⟨p, hp, hboth⟩ := Option.map_eq_some_iff.mp hrun
  have hboth := of_decide_eq_true hboth
  rw [hp]
  exact ⟨hboth, ring_is_queue (passing_run (.start rfl) hp) rfl hboth.2⟩

end LosEventHandler

end CallManagerMini
