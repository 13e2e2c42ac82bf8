import CallManagerMini.LateCalls

/-! # What becomes of a message

A message that the section of `Enqueue` has accepted waits in the ring, is taken by the loop, and
is answered there: it is dispatched, or recycled if the handler does not run any more.  In a run in
which no call comes late each message that was sent is on its way, or it was answered, once
(`prompt_delivered`).
-/

namespace CallManagerMini

/-- The message the loop has taken, and neither dispatched nor recycled. -/
def LoopPc.untouched : LoopPc → Option LosEventMessage
  | .dispatch message | .check message | .handle message | .recycle _ message => some message
  | _ => none

/-- A post without a delay that has sent its message. -/
def Call.Sent (c : Call) : Prop :=
  c.request = .postAsyncTask 0#32 ∧
    (c.pc = .signal ∨ ∃ taskId, c.outcome = some (.ret .success taskId))

/-- A synchronous call on the loop, which runs its task itself. -/
def Call.Aloof (c : Call) : Prop :=
  c.Synchronous ∧ (c.pc = .inPlace ∨
    (c.context.done = false ∧ ∃ taskId, c.outcome = some (.ret .success taskId)))

/-- The loop has answered the message of the call, and has not told it yet. -/
def LoopPc.answering : LoopPc → Option Nat
  | .runSync i | .complete _ i _ => some i
  | _ => none

namespace LosEventHandler

variable {config : Config} {s s' s₁ : LosEventHandler} {i : Nat} {c c' : Call} {a : Act}

/-- How often the message waits for the loop, or is with it unanswered. -/
def unanswered (s : LosEventHandler) (message : LosEventMessage) : Nat :=
  s.ring.toList.count message + s.posted.count message +
    if s.loop.untouched = some message then 1 else 0

/-- How often the message was dispatched or recycled. -/
def answered (s : LosEventHandler) (message : LosEventMessage) : Nat :=
  s.log.count (.dispatched message) + s.log.count (.recycled message)

/-! ## The way of a message -/

/-- What a move of the call `i` does to the messages: it sends its own, or none. -/
inductive Delivery (i : Nat) (s : LosEventHandler) (c : Call) : LosEventHandler → Call → Prop where
  | sends {t : LosEventHandler} {d : Call} : c.keepsTask = true → d.keepsTask = false →
    (∀ m, t.unanswered m = s.unanswered m + if c.message i = m then 1 else 0) → Delivery i s c t d
  | silent {t : LosEventHandler} {d : Call} : (d.keepsTask = true → c.keepsTask = true) →
    d.pc ≠ .signal → (∀ m, t.unanswered m = s.unanswered m) → Delivery i s c t d

theorem unanswered_eq (hring : s'.ring = s.ring) (hposted : s'.posted = s.posted)
    (hloop : s'.loop = s.loop) (m : LosEventMessage) : s'.unanswered m = s.unanswered m := by
  rw [unanswered, unanswered, hring, hposted, hloop]

theorem CallMove.delivery (hm : CallMove config i s c s₁ c') : Delivery i s c s₁ c' := by
  have henqueued : ∀ {t : LosEventHandler} {ret}, (∀ m, t.unanswered m = s.unanswered m) →
      Delivery i s c t (c.goto (c.request.enqueued ret)) := by
    intro t ret hsame
    refine .silent (fun hkept => ?_) (enqueued_ne_signal c ret) hsame
    rw [keepsTask_enqueued] at hkept
    cases hkept
  cases hm with
  | push hpc hroom =>
    refine .sends (by simp [Call.keepsTask, hpc]) rfl fun m => ?_
    simp only [unanswered, RingBuffer.toList_push, List.count_append, List.count_singleton,
      beq_iff_eq]
    omega
  | post hpc =>
    refine .sends (by simp [Call.keepsTask, hpc]) (keepsTask_enqueued c _) fun m => ?_
    simp only [unanswered, List.count_append, List.count_singleton, beq_iff_eq]
    omega
  | insert =>
    obtain ⟨t, heq⟩ := enterDelayed_table config i _ s
    rw [heq]
    exact .silent (by simp [Call.keepsTask]) (by simp) (unanswered_eq rfl rfl rfl)
  | @remove _ k =>
    obtain ⟨t, es, -, heq⟩ := eraseDelayed_eq config k s
    rw [heq]
    exact .silent (by simp [Call.keepsTask]) (by simp) (unanswered_eq rfl rfl rfl)
  | rearm =>
    obtain ⟨t, -, heq⟩ := startTimer_eq config (ticksToMs config.tickFreq 1#32) s
    rw [heq]
    exact .silent (by simp [Call.keepsTask]) (by simp) (unanswered_eq rfl rfl rfl)
  | starve | enqueueStopped | postRefused | pushFull => exact henqueued (unanswered_eq rfl rfl rfl)
  | signal => exact henqueued (unanswered_eq rfl rfl rfl)
  | allow hpc =>
    exact .silent (by simp [Call.keepsTask, hpc]) (admitted_ne_signal c) (unanswered_eq rfl rfl rfl)
  | enqueue hpc =>
    refine .silent (by simp [Call.keepsTask, hpc]) ?_ (unanswered_eq rfl rfl rfl)
    cases config.poster <;> simp
  | _ hpc => exact .silent (by simp [Call.keepsTask, hpc]) (by simp) (unanswered_eq rfl rfl rfl)

/-- A call answers nobody. -/
theorem CallMove.answered (hm : CallMove config i s c s₁ c') (m : LosEventMessage) :
    s₁.answered m = s.answered m := by
  unfold LosEventHandler.answered
  cases hm with
  | insert =>
    obtain ⟨t, heq⟩ := enterDelayed_table config i _ s
    rw [heq]
  | @remove _ k =>
    rw [eraseDelayed_log]
    cases s.delayed[k]? <;> simp
  | rearm =>
    obtain ⟨t, -, heq⟩ := startTimer_eq config (ticksToMs config.tickFreq 1#32) s
    rw [heq]
  | _ => simp [note, releaseWaiter, pollWaiterSem, postQueueSem]

theorem answered_dispatched (message : LosEventMessage) (s : LosEventHandler)
    (m : LosEventMessage) :
    (s.note (.dispatched message)).answered m = s.answered m + if message = m then 1 else 0 := by
  simp only [answered, note, List.count_append, List.count_singleton, beq_iff_eq,
    HandlerEvent.dispatched.injEq, reduceCtorEq, if_false]
  omega

theorem answered_recycled (message : LosEventMessage) (s : LosEventHandler) (m : LosEventMessage) :
    (s.note (.recycled message)).answered m = s.answered m + if message = m then 1 else 0 := by
  simp only [answered, note, List.count_append, List.count_singleton, beq_iff_eq,
    HandlerEvent.recycled.injEq, reduceCtorEq, if_false]
  omega

/-- **What the loop takes it answers.** -/
theorem LoopMove.delivers (hm : LoopMove config s s') (m : LosEventMessage) :
    s'.unanswered m + s'.answered m = s.unanswered m + s.answered m := by
  -- the loop does not touch the message, answers it, or takes it from the ring
  have hstay : ∀ {pc}, s.loop = pc → s'.ring = s.ring → s'.posted = s.posted →
      s'.loop.untouched = pc.untouched → s'.answered m = s.answered m →
      s'.unanswered m + s'.answered m = s.unanswered m + s.answered m := by
    rintro pc rfl hring hposted huntouched hanswered
    rw [unanswered, unanswered, hring, hposted, huntouched, hanswered]
  have hanswer : ∀ {pc message}, s.loop = pc → pc.untouched = some message →
      s'.ring = s.ring → s'.posted = s.posted → s'.loop.untouched = none →
      s'.answered m = s.answered m + (if message = m then 1 else 0) →
      s'.unanswered m + s'.answered m = s.unanswered m + s.answered m := by
    rintro pc message rfl huntouched hring hposted hnone hanswered
    rw [unanswered, unanswered, hring, hposted, hnone, huntouched, hanswered]
    simp only [Option.some.injEq, reduceCtorEq, if_false]
    omega
  have htake : ∀ {message rest}, s.ring.pop = some (message, rest) → s.loop.untouched = none →
      s'.ring = rest → s'.posted = s.posted → s'.loop.untouched = some message →
      s'.log = s.log → s'.unanswered m + s'.answered m = s.unanswered m + s.answered m := by
    intro message rest hpop hnone hring hposted huntouched hlog
    rw [unanswered, unanswered, LosEventHandler.answered, LosEventHandler.answered, hring, hposted,
      huntouched, hlog, hnone, RingBuffer.toList_eq_cons hpop, List.count_cons]
    simp only [Option.some.injEq, reduceCtorEq, if_false, beq_iff_eq]
    omega
  cases hm with
  | pop hpc hpop => exact htake hpop (by rw [hpc]; rfl) rfl rfl rfl rfl
  | drain hpc hpop => exact htake hpop (by rw [hpc]; rfl) rfl rfl rfl rfl
  | handleTimer hpc => exact hanswer hpc rfl rfl rfl rfl (answered_dispatched ..)
  | handleSync hpc => exact hanswer hpc rfl rfl rfl rfl (answered_dispatched ..)
  | handleAsync hpc => exact hanswer hpc rfl rfl rfl rfl (answered_dispatched ..)
  | @recycleTimer drained hpc | @recycleAsync drained _ hpc =>
    exact hanswer hpc rfl rfl rfl (by cases drained <;> rfl) (answered_recycled ..)
  | recycleSync hpc => exact hanswer hpc rfl rfl rfl rfl (answered_recycled ..)
  | takeDue hpc =>
    obtain ⟨t, -, heq⟩ := takeDueLocked_eq config s
    rw [heq] at hstay ⊢
    exact hstay hpc rfl rfl rfl rfl
  -- the answer was noted when the message was dispatched
  | @complete drained i status hpc =>
    have hlog : (s.completeLocked i status).answered m = s.answered m := by
      unfold completeLocked
      split
      · rfl
      · dsimp only
        split <;> simp [LosEventHandler.answered, releaseWaiter, note, postWaiterSem]
    obtain ⟨calls, inUse, sems, log, -, heq⟩ := completeLocked_eq i status s
    rw [heq] at hlog hstay ⊢
    exact hstay hpc rfl rfl (by cases drained <;> rfl) hlog
  | popNone hpc =>
    refine hstay hpc rfl rfl ?_ rfl
    dsimp only
    split <;> rfl
  | dispatched hpc =>
    refine hstay hpc rfl rfl ?_ rfl
    dsimp only
    split
    · rfl
    · split <;> rfl
  | runDelayed hpc | runAsync hpc | runSync hpc =>
    exact hstay hpc rfl rfl rfl (by simp [LosEventHandler.answered, note])
  | _ hpc => exact hstay hpc rfl rfl rfl rfl

/-! ## The messages of every call -/

/-- **Every message that was sent is under way or answered, once.** -/
structure Delivered (s : LosEventHandler) : Prop where
  once : ∀ message : Nat → LosEventMessage, (∀ i, (message i).task = some i) →
    Agents.Once s.calls Call.keepsTask fun i => s.unanswered (message i) + s.answered (message i)
  answering : ∀ i, s.loop.answering = some i → 1 ≤ s.answered (.syncCall i)
  done : ∀ (i : Nat) c, s.calls[i]? = some c → c.context.done = true → 1 ≤ s.answered (.syncCall i)
  sent : ∀ (i : Nat) c, s.calls[i]? = some c → c.Sent →
    1 ≤ s.unanswered (.asyncTask i) + s.answered (.asyncTask i)
  aloof : ∀ (i : Nat) c, s.calls[i]? = some c → c.Aloof →
    s.log.countP (HandlerEvent.acquiredBy i) = 0

theorem enqueued_sync_ne {timeoutMs : BitVec 32} (hreq : c.request = .postSyncTask timeoutMs)
    (ret : RetCode) : (c.goto (c.request.enqueued ret)).outcome = none ∧
      (c.goto (c.request.enqueued ret)).pc ≠ .inPlace := by
  rw [hreq]
  unfold HandlerRequest.enqueued
  dsimp only
  split <;> exact ⟨rfl, by simp⟩

/-- A post without a delay comes to success only by its message. -/
theorem CallMove.sent (hm : CallMove config i s c s₁ c') (hfits : c.Fits config)
    (hdirect : c.Direct) (h : c'.Sent) : c.Sent ∨ 1 ≤ s₁.unanswered (.asyncTask i) := by
  obtain ⟨hreq', hpc'⟩ := h
  have hreq : c.request = .postAsyncTask 0#32 := hm.request.symm.trans hreq'
  have hmessage : c.message i = .asyncTask i := by simp [Call.message, hreq]
  have hout : ∀ {pc : CallPc} {P : Prop}, c' = c.goto pc → pc ≠ .signal →
      (∀ taskId, (c.goto pc).outcome ≠ some (.ret .success taskId)) → P := by
    rintro pc P rfl hsignal hnone
    rcases hpc' with hpc | ⟨taskId, hout⟩
    · exact absurd hpc hsignal
    · exact absurd hout (hnone taskId)
  have hrefused : ∀ {ret : RetCode} {P : Prop}, c' = c.goto (c.request.enqueued ret) →
      ret ≠ .success → P := by
    intro ret P hc' hret
    refine hout hc' (enqueued_ne_signal c ret) fun taskId heq => hret ?_
    rw [hreq] at heq
    injection heq with heq
    injection heq
  have hsync : ∀ {P : Prop}, (∃ timeoutMs, c.request = .postSyncTask timeoutMs) → P := by
    rintro P ⟨timeoutMs, hsync⟩
    rw [hreq] at hsync
    cases hsync
  have hsends : ∀ {t : LosEventHandler}, t.unanswered (.asyncTask i) =
      s.unanswered (.asyncTask i) + (if c.message i = .asyncTask i then 1 else 0) →
      1 ≤ t.unanswered (.asyncTask i) := by
    intro t ht
    rw [if_pos hmessage] at ht
    omega
  -- a call that is told of success has put its message into the queue, in this move or before
  have hdelivery := hm.delivery
  cases hm with
  | push hpc =>
    right
    cases hdelivery with
    | sends _ _ hm => exact hsends (hm _)
    | silent _ hne => exact absurd rfl hne
  | post hpc =>
    right
    cases hdelivery with
    | sends _ _ hm => exact hsends (hm _)
    | silent _ _ hm =>
      have hsent := hm (c.message i)
      simp only [unanswered, List.count_append, List.count_singleton_self] at hsent
      omega
  | signal hpc => exact .inl ⟨hreq, .inl hpc⟩
  | leave hpc =>
    rcases hpc' with hpc' | ⟨taskId, hout⟩
    · cases hpc'
    · refine .inl ⟨hreq, .inr ⟨taskId, ?_⟩⟩
      rw [Call.outcome, hpc]
      exact hout
  | insert hpc =>
    simp only [Call.Direct, hpc, Call.isDelayed, hreq] at hdirect
    simp at hdirect
  | starve | enqueueStopped | postRefused | pushFull => exact hrefused rfl (by decide)
  | allow =>
    exact hout rfl (admitted_ne_signal c) (by simp [hreq, HandlerRequest.admitted, Call.outcome])
  | refuse => exact hout rfl (by simp) (by simp [hreq, HandlerRequest.refused, Call.outcome])
  | runInPlace hpc | freeSlot hpc | settle hpc | settleDone hpc | acquire hpc | abandon hpc =>
    simp only [Call.Fits, hpc] at hfits
    exact hsync hfits
  | enqueue =>
    refine hout rfl ?_ ?_ <;> cases config.poster <;> simp [Call.outcome]
  | _ => exact hout rfl (by simp) (by simp [Call.outcome])

/-- A call that runs its task itself has never gone for a slot. -/
theorem CallMove.aloof (hm : CallMove config i s c s₁ c') (htidy : c.Tidy)
    (hrefused : c.pc ≠ .freeSlot .success) (h : c'.Aloof) : (c.Aloof ∨ c.mayAcquire = true) ∧
      s₁.log.countP (HandlerEvent.acquiredBy i) = s.log.countP (HandlerEvent.acquiredBy i) := by
  obtain ⟨⟨timeoutMs, hreq'⟩, hpc'⟩ := h
  have hreq : c.request = .postSyncTask timeoutMs := hm.request.symm.trans hreq'
  have hsync : c.Synchronous := ⟨timeoutMs, hreq⟩
  have hnot : ∀ {P : Prop}, c'.pc ≠ .inPlace → (c'.context.done = false →
      ∀ taskId, c'.outcome ≠ some (.ret .success taskId)) → P := by
    intro P hplace hout
    rcases hpc' with hpc | ⟨hdone, taskId, heq⟩
    · exact absurd hpc hplace
    · exact absurd heq (hout hdone taskId)
  have henqueued : ∀ {ret : RetCode} {P : Prop}, c' = c.goto (c.request.enqueued ret) → P := by
    rintro ret P rfl
    obtain ⟨hnone, hplace⟩ := enqueued_sync_ne hreq ret
    exact hnot hplace fun _ taskId => by rw [hnone]; simp
  cases hm with
  | onLoop hpc => exact ⟨.inr (by simp [Call.mayAcquire, hpc]), rfl⟩
  | runInPlace hpc => exact ⟨.inl ⟨hsync, .inl hpc⟩, by simp [note, HandlerEvent.acquiredBy]⟩
  | leave hpc =>
    refine ⟨.inl ⟨hsync, .inr ?_⟩, by simp [note, HandlerEvent.acquiredBy]⟩
    rcases hpc' with hpc' | ⟨hdone, taskId, hout⟩
    · cases hpc'
    · refine ⟨hdone, taskId, ?_⟩
      rw [Call.outcome, hpc]
      exact hout
  | settle hpc =>
    exact hnot (by simp) fun hdone => absurd ((htidy.2.2 hpc).symm.trans hdone) (by decide)
  | settleDone _ hdone =>
    exact hnot (by simp) fun hdone' => absurd (hdone.symm.trans hdone') (by decide)
  | freeSlot hpc =>
    refine hnot (by simp) fun _ taskId heq => ?_
    simp only [Call.outcome, Option.some.injEq, Outcome.ret.injEq] at heq
    exact hrefused (heq.1 ▸ hpc)
  | insert _ hreq'' | remove _ hreq'' | removeNone _ hreq'' =>
    rw [hreq] at hreq''
    cases hreq''
  | starve | enqueueStopped | post | postRefused | pushFull => exact henqueued rfl
  | signal => exact henqueued rfl
  | allow =>
    refine hnot ?_ fun _ => ?_ <;> simp [hreq, HandlerRequest.admitted, Call.outcome]
  | refuse => exact hnot (by simp) fun _ => by simp [hreq, HandlerRequest.refused, Call.outcome]
  | enqueue =>
    refine hnot ?_ fun _ => ?_ <;> cases config.poster <;> simp [Call.outcome]
  | _ => exact hnot (by simp) fun _ => by simp [Call.outcome]

/-- A post with a delay never sends a message, nor does another call enter the table. -/
theorem reachable_direct (h : Reachable config s) : ∀ c ∈ s.calls, c.Direct := by
  refine h.invariant (I := fun s => ∀ c ∈ s.calls, c.Direct) (fun s hs => ?_)
    fun s s' hs hstep => ?_
  · subst hs
    exact fun c hc => (List.not_mem_nil hc).elim
  · obtain ⟨a, hstep⟩ := hstep
    obtain ⟨me, -, rfl⟩ | ⟨l, -, hm⟩ := step_cases hstep
    · exact hs
    · have hset : ∀ {calls : List Call} {i c c'}, calls = s.calls.set i c' → s.calls[i]? = some c →
          c'.Direct → ∀ d ∈ calls, d.Direct := by
        rintro calls i c c' rfl hi hc' d hd
        rcases List.mem_or_eq_of_mem_set hd with hd | rfl
        · exact hs d hd
        · exact hc'
      cases hm with
      | @call i choice c c' s₁ hi hm =>
        have hcalls : s₁.calls.set i c' = s.calls.set i c' := by rw [hm.frame.calls]
        exact hset hcalls hi (hm.direct (hs c (List.mem_of_getElem? hi)))
      | loop _ hm =>
        rcases hm.calls with hcalls | ⟨i, c, status, hi, hcalls⟩
        · rw [hcalls]
          exact hs
        · exact hset hcalls hi (hs c (List.mem_of_getElem? hi))
      | init =>
        rw [(initialized_frame config _).2.1]
        exact hs
      | invoke | expire =>
        intro d hd
        rcases List.mem_append.mp hd with hd | hd
        · exact hs d hd
        · rw [List.mem_singleton.mp hd]
          trivial
      | stop hm =>
        rw [hm.calls]
        exact hs
      | _ => exact hs

/-! ## Every step -/

theorem Delivered.call (h : s.Delivered) (hinv : s.Inv config) (hbooked : s.Booked)
    (hrefused : ∀ c ∈ s.calls, c.pc ≠ .freeSlot .success) (hdirect : ∀ c ∈ s.calls, c.Direct)
    (hi : s.calls[i]? = some c) (hm : CallMove config i s c s₁ c') :
    Delivered { s₁ with calls := s₁.calls.set i c' } := by
  have hmem := List.mem_of_getElem? hi
  have hcalls : s₁.calls.set i c' = s.calls.set i c' := by rw [hm.frame.calls]
  have hunanswered : ∀ m, s.unanswered m ≤ s₁.unanswered m := by
    intro m
    cases hm.delivery with
    | sends _ _ hsame => exact (hsame m).symm ▸ Nat.le_add_right _ _
    | silent _ _ hsame => exact (hsame m).ge
  refine ⟨fun message hmessage => ?_, fun j hj => ?_,
    fun j d hj hdone => ?_, fun j d hj hsent => ?_,
    fun j d hj haloof => ?_⟩
  · rw [hcalls]
    refine Agents.Once.set (h.once message hmessage) hi fun j => ?_
    change _ + (s₁.unanswered _ + s₁.answered _) ≤ _
    rw [hm.answered]
    cases hm.delivery with
    | sends hkept hgone hsends =>
      rw [hsends, hkept, hgone, Bool.toNat_true, Bool.toNat_false]
      -- a task message belongs to one call
      have hown : c.message i = message j → i = j := fun heq =>
        message_task (heq ▸ hmessage j)
      -- the message goes from the call to the queue: the sum stays
      by_cases heq : c.message i = message j
      · rw [if_pos heq, if_pos (hown heq), if_pos (hown heq)]
        omega
      · rw [if_neg heq]
        split <;> omega
    | silent hkept _ hsame =>
      have hle : c'.keepsTask.toNat ≤ c.keepsTask.toNat := Bool.toNat_le_toNat hkept
      rw [hsame]
      split <;> omega
  · change 1 ≤ s₁.answered _
    rw [hm.answered]
    exact h.answering j (hm.frame.loop ▸ hj)
  · change 1 ≤ s₁.answered _
    rw [hm.answered]
    rw [hcalls] at hj
    rcases Agents.of_getElem?_set hj with ⟨rfl, rfl⟩ | ⟨-, hj⟩
    · exact h.done j c hi (hm.done hdone).1
    · exact h.done j d hj hdone
  · change 1 ≤ s₁.unanswered _ + s₁.answered _
    rw [hm.answered]
    rw [hcalls] at hj
    have hle := hunanswered (.asyncTask j)
    rcases Agents.of_getElem?_set hj with ⟨rfl, rfl⟩ | ⟨-, hj⟩
    · rcases hm.sent (hinv.fits c hmem) (hdirect c hmem) hsent with hbefore | hnow
      · have := h.sent j c hi hbefore
        omega
      · omega
    · have := h.sent j d hj hsent
      omega
  · change s₁.log.countP _ = 0
    rw [hcalls] at hj
    rcases Agents.of_getElem?_set hj with ⟨rfl, rfl⟩ | ⟨hji, hj⟩
    · obtain ⟨hbefore, hsame⟩ := hm.aloof (hinv.tidy c hmem) (hrefused c hmem) haloof
      rw [hsame]
      rcases hbefore with hbefore | hmay
      · exact h.aloof j c hi hbefore
      · exact hbooked.once.done_eq_zero hi hmay
    · have hzero := h.aloof j d hj haloof
      have hle := hm.acquires j
      rw [if_neg (Ne.symm hji), if_neg (Ne.symm hji)] at hle
      omega

/-- Where the calls stay as they are, and what is under way or answered stays so. -/
theorem Delivered.calm (h : s.Delivered) (hcalls : s'.calls = s.calls)
    (hsame : ∀ m, s'.unanswered m + s'.answered m = s.unanswered m + s.answered m)
    (hanswered : ∀ m, s.answered m ≤ s'.answered m)
    (hacquires : ∀ j, s'.log.countP (HandlerEvent.acquiredBy j) =
      s.log.countP (HandlerEvent.acquiredBy j))
    (hanswering : ∀ i, s'.loop.answering = some i → 1 ≤ s'.answered (.syncCall i)) :
    s'.Delivered := by
  refine ⟨fun message hmessage => ?_, hanswering, ?_, ?_, ?_⟩
  · rw [hcalls]
    exact (h.once message hmessage).mono fun i => (hsame _).le
  · rw [hcalls]
    exact fun i c hi hdone => (h.done i c hi hdone).trans (hanswered _)
  · rw [hcalls]
    exact fun i c hi hsent => (h.sent i c hi hsent).trans (hsame _).ge
  · rw [hcalls]
    exact fun i c hi haloof => (hacquires i).trans (h.aloof i c hi haloof)

/-- What the loop is about to complete it has answered. -/
theorem LoopMove.answering (hm : LoopMove config s s')
    (h : ∀ i, s.loop.answering = some i → 1 ≤ s.answered (.syncCall i))
    (hi : s'.loop.answering = some i) : 1 ≤ s'.answered (.syncCall i) := by
  have hnone : ∀ {pc : LoopPc} {P : Prop}, s'.loop = pc → pc.answering = none → P := by
    rintro pc P rfl hpc
    exact absurd (hi.symm.trans hpc) (by simp)
  cases hm with
  | @handleSync j =>
    obtain rfl : j = i := Option.some.inj hi
    change 1 ≤ (s.note (.dispatched (.syncCall j))).answered (.syncCall j)
    rw [answered_dispatched, if_pos rfl]
    omega
  | @recycleSync _ j =>
    obtain rfl : j = i := Option.some.inj hi
    change 1 ≤ (s.note (.recycled (.syncCall j))).answered (.syncCall j)
    rw [answered_recycled, if_pos rfl]
    omega
  | @runSync j hpc =>
    obtain rfl : j = i := Option.some.inj hi
    have hbefore := h j (by rw [hpc]; rfl)
    refine hbefore.trans_eq ?_
    simp [LosEventHandler.answered, note]
  | takeDue =>
    obtain ⟨t, -, heq⟩ := takeDueLocked_eq config s
    rw [heq] at hnone
    exact hnone rfl rfl
  | popNone => exact hnone rfl (by split <;> rfl)
  | dispatched =>
    refine hnone rfl ?_
    split
    · rfl
    · split <;> rfl
  | @complete drained | @recycleTimer drained | @recycleAsync drained =>
    exact hnone rfl (by cases drained <;> rfl)
  | _ => exact hnone rfl rfl

theorem answered_le (hlog : ∃ es, s'.log = s.log ++ es) (m : LosEventMessage) :
    s.answered m ≤ s'.answered m := by
  obtain ⟨es, hlog⟩ := hlog
  simp only [answered, hlog, List.count_append]
  omega

theorem Delivered.loop (h : s.Delivered) (hinv : s.Inv config) (hbooked : s.Booked)
    (hm : LoopMove config s s') : s'.Delivered := by
  obtain ⟨es, hlog, -⟩ := hm.reasoned hinv hbooked
  have hanswered := answered_le ⟨es, hlog⟩
  by_cases hcomplete : ∃ drained i status, s.loop = .complete drained i status
  · obtain ⟨drained, i, status, hpc⟩ := hcomplete
    obtain ⟨c, hi, -, -⟩ := hinv.completing hpc
    obtain rfl : s' = { s.completeLocked i status with loop := .behind drained } := by
      cases hm <;> simp_all
    have hcalls : (s.completeLocked i status).calls = s.calls.set i (c.completed status) :=
      completeLocked_calls hi
    refine ⟨fun message hmessage => ?_, fun j hj => hm.answering h.answering hj,
      fun j d hj hdone => ?_, fun j d hj hsent => ?_, fun j d hj haloof => ?_⟩
    · rw [hcalls]
      refine Agents.Once.set (h.once message hmessage) hi fun j => ?_
      rw [hm.delivers]
      exact Nat.le_refl _
    · rw [hcalls] at hj
      rcases Agents.of_getElem?_set hj with ⟨rfl, rfl⟩ | ⟨-, hj⟩
      · exact (h.answering j (by rw [hpc]; rfl)).trans (hanswered _)
      · exact (h.done j d hj hdone).trans (hanswered _)
    · rw [hcalls] at hj
      rw [hm.delivers]
      rcases Agents.of_getElem?_set hj with ⟨rfl, rfl⟩ | ⟨-, hj⟩
      · exact h.sent j c hi hsent
      · exact h.sent j d hj hsent
    · rw [hm.acquires]
      rw [hcalls] at hj
      rcases Agents.of_getElem?_set hj with ⟨rfl, rfl⟩ | ⟨-, hj⟩
      · obtain ⟨hsync, hpc' | ⟨hdone, -⟩⟩ := haloof
        · exact h.aloof j c hi ⟨hsync, .inl hpc'⟩
        · cases hdone
      · exact h.aloof j d hj haloof
  · have hne : ∀ drained i status, s.loop ≠ .complete drained i status :=
      fun drained i status hpc => hcomplete ⟨drained, i, status, hpc⟩
    exact h.calm (hm.aside hne).1 hm.delivers hanswered hm.acquires
      fun _ hj => hm.answering h.answering hj

/-- A new call has sent nothing. -/
theorem Delivered.enter (h : s.Delivered) (hbooked : s.Booked) {request : HandlerRequest}
    {task : TelOsTaskId} (hcalls : s'.calls = s.calls ++ [{ request := request, task := task }])
    (hunanswered : ∀ m, s'.unanswered m = s.unanswered m) (hloop : s'.loop = s.loop)
    (hlog : s'.log = s.log) : s'.Delivered := by
  have hanswered : ∀ m, s'.answered m = s.answered m := by
    intro m
    rw [answered, answered, hlog]
  refine ⟨fun message hmessage => ?_, fun i hi => ?_,
    fun i c hi hdone => ?_, fun i c hi hsent => ?_,
    fun i c hi haloof => ?_⟩
  · rw [hcalls]
    refine (h.once message hmessage).append _ fun i => ?_
    rw [hunanswered, hanswered]
  · rw [hanswered]
    exact h.answering i (hloop ▸ hi)
  · rw [hanswered]
    rw [hcalls] at hi
    rcases Agents.of_getElem?_append hi with ⟨-, rfl⟩ | hi
    · cases hdone
    · exact h.done i c hi hdone
  · rw [hanswered, hunanswered]
    rw [hcalls] at hi
    rcases Agents.of_getElem?_append hi with ⟨-, rfl⟩ | hi
    · obtain ⟨-, hpc | ⟨taskId, hout⟩⟩ := hsent
      · cases hpc
      · cases hout
    · exact h.sent i c hi hsent
  · rw [hlog]
    rw [hcalls] at hi
    rcases Agents.of_getElem?_append hi with ⟨rfl, -⟩ | hi
    · by_contra hpos
      exact Nat.lt_irrefl _ (hbooked.once.lt_length (Nat.pos_of_ne_zero hpos))
    · exact h.aloof i c hi haloof

/-- **A move of the system delivers**, where `Stop` finds the ring empty. -/
theorem Delivered.move (h : s.Delivered) (hinv : s.Inv config) (hbooked : s.Booked)
    (hanswered : s.Answered) (hdirect : ∀ c ∈ s.calls, c.Direct) (hemptied : s.Emptied)
    (hposter : config.poster = false) (hm : Move config s a s') : s'.Delivered := by
  cases hm with
  | init hs =>
    have hidle := hinv.noLoop (by simp [stage, hs]) hposter
    have hring := hemptied.ring (by rw [hidle]; rfl)
    have hquiet : ∀ m, (s.initialized config).answered m = s.answered m := by
      intro m
      rw [initialized_selfDriven hposter]
      simp [LosEventHandler.answered]
    refine h.calm ?_ (fun m => ?_) (fun m => (hquiet m).ge) (fun j => ?_) ?_
    · rw [initialized_selfDriven hposter]
    · rw [hquiet, initialized_selfDriven hposter, unanswered, unanswered, hring, hidle,
        RingBuffer.toList_empty]
      rfl
    · rw [initialized_selfDriven hposter]
      simp [HandlerEvent.acquiredBy]
    · rw [initialized_selfDriven hposter]
      intro i hi
      cases hi
  | invoke | expire => exact h.enter hbooked rfl (unanswered_eq rfl rfl rfl) rfl rfl
  | call hi hm => exact h.call hinv hbooked hanswered.refused hdirect hi hm
  | loop _ hm => exact h.loop hinv hbooked hm
  | bindLoopTask hdriven | receive hdriven =>
    rw [hposter] at hdriven
    cases hdriven
  | @stop timeUp _ hm =>
    obtain ⟨es, hlog, hes⟩ := hm.log
    have hquiet : ∀ m, s'.answered m = s.answered m := by
      intro m
      have hdispatched : es.count (.dispatched m) = 0 := List.count_eq_zero.mpr fun he => by
        rcases hes _ he with heq | ⟨i, heq⟩ <;> cases heq
      have hrecycled : es.count (.recycled m) = 0 := List.count_eq_zero.mpr fun he => by
        rcases hes _ he with heq | ⟨i, heq⟩ <;> cases heq
      rw [LosEventHandler.answered, LosEventHandler.answered, hlog, List.count_append,
        List.count_append, hdispatched, hrecycled]
      rfl
    refine h.calm hm.calls (fun m => ?_) (fun m => (hquiet m).ge) (fun j => ?_) fun i hi => ?_
    · rw [hquiet]
      congr 1
      cases hm with
      | releaseQueue hpc =>
        have hstage := hinv.stage_eq (by simp [hpc])
        have hidle := hinv.noLoop (by simp [hstage, hpc, StopPc.stage]) hposter
        rw [unanswered, unanswered, hemptied.ring (by rw [hidle]; rfl), RingBuffer.toList_empty]
      | _ => rfl
    · have hnone : es.countP (HandlerEvent.acquiredBy j) = 0 := by
        refine List.countP_eq_zero.mpr fun e he => ?_
        rcases hes e he with rfl | ⟨i, rfl⟩ <;> simp [HandlerEvent.acquiredBy]
      rw [hlog, List.countP_append, hnone, Nat.add_zero]
    · rw [hquiet]
      exact h.answering i (hm.loop ▸ hi)
  | callStop | tick | nothing => exact ⟨h.once, h.answering, h.done, h.sent, h.aloof⟩

theorem Delivered.step (h : s.Delivered) (hprompt : Prompt config s)
    (hposter : config.poster = false) (hstep : s.step? config a = some s') : s'.Delivered := by
  have hreachable := Prompt.reachable hprompt
  have hbooked := reachable_booked hreachable
  have hanswered := reachable_answered hreachable
  have hemptied := prompt_emptied hprompt hposter
  have hdirect := reachable_direct hreachable
  obtain ⟨me, -, rfl⟩ | ⟨l, hl, hm⟩ := step_cases hstep
  · exact ⟨h.once, h.answering, h.done, h.sent, h.aloof⟩
  · exact Delivered.move (s := { s with lock := l })
      ⟨h.once, h.answering, h.done, h.sent, h.aloof⟩ ((reachable_inv hreachable).locked hl)
      ⟨hbooked.books, hbooked.once, hbooked.acquirers⟩
      ⟨hanswered.completing, hanswered.done, hanswered.leaving, hanswered.refused,
        hanswered.journal⟩
      hdirect ⟨hemptied.ring, hemptied.posted, hemptied.table⟩ hposter hm

/-- A handler nobody has called has no messages. -/
theorem delivered_constructed : Delivered {} where
  once _ _ := Agents.once_nil fun _ => rfl
  answering i hi := by cases hi
  done i c hi := by simp at hi
  sent i c hi := by simp at hi
  aloof i c hi := by simp at hi

/-- **Every message that was sent is under way or answered, once**, in every run in which no call
comes late. -/
theorem prompt_delivered (h : Prompt config s) (hposter : config.poster = false) :
    s.Delivered := by
  refine h.invariant_of (J := Prompt config) (fun _ => id) (fun s hs => ?_)
    fun s s' hprompt hs hstep => ?_
  · subst hs
    exact delivered_constructed
  · obtain ⟨a, ha⟩ := hstep
    exact hs.step hprompt hposter (promptStep?_eq_some.mp ha).2

end LosEventHandler

end CallManagerMini
