import CallManagerMini.SlotBooks
import CallManagerMini.Lib.Journal

/-! # The waiter slots of synchronous calls

A caller of `PostSyncTask` that is woken and one that gives up settle under the lock, by
`abandoned` and `done`, who of them and `Complete` gives the slot back and who takes the signal.
In every run each slot in use belongs to one call that is not over, no signal is left at a free
slot, and a caller that returns success has had its task run (`waiterSlots_apart`).
-/

namespace CallManagerMini

/-- It posts a task and waits for it. -/
def Call.Synchronous (c : Call) : Prop := ∃ timeoutMs, c.request = .postSyncTask timeoutMs

namespace LosEventHandler

variable {config : Config} {s s' s₁ : LosEventHandler} {i k : Nat} {c c' : Call} {a : Act}

/-- The call `i` has acquired the slot `k`, and it was not released for it. -/
def Owns (s : LosEventHandler) (i k : Nat) : Prop :=
  .acquired i k ∈ s.log ∧ .released i k ∉ s.log

instance : Decidable (s.Owns i k) := inferInstanceAs (Decidable (_ ∧ _))

/-- **The waiter slots are kept apart.** -/
structure SlotsApart (s : LosEventHandler) : Prop where
  /-- A slot in use belongs to one call. -/
  owner : ∀ k : Nat, s.waiterInUse[k]? = some true → ∃! i, s.Owns i k
  /-- The slot of a call is in use, and its context names it. -/
  inUse : ∀ i k, s.Owns i k →
    s.waiterInUse[k]? = some true ∧ ∃ c, s.calls[i]? = some c ∧ c.context.slot = k
  /-- The call has not come to its outcome, or it has given up and its message is on its way. -/
  outstanding : ∀ i k c, s.Owns i k → s.calls[i]? = some c →
    c.outcome = none ∨ (c.context.abandoned = true ∧ s.inFlight (.syncCall i) = 1)
  /-- No signal is left at a free slot. -/
  silent : ∀ k : Nat, s.waiterInUse[k]? = some false → s.waiterSems[k]? = some 0
  /-- A caller that was woken was woken for its own task. -/
  woken : ∀ (i : Nat) c, s.calls[i]? = some c → c.pc = .settle true → c.context.done = true
  /-- A synchronous call that returned success had its task run before. -/
  executed : ∀ before after i c taskId,
    s.log = before ++ .returned i (.ret .success taskId) :: after → s.calls[i]? = some c →
    c.Synchronous → .ran i ∈ before
  acquiredOnce : ∀ i, s.log.countP (HandlerEvent.acquiredBy i) ≤ 1
  /-- A slot is released once for each time it was acquired, unless it still belongs to the call. -/
  releasedOnce : ∀ i k,
    s.log.count (.acquired i k) = s.log.count (.released i k) + if s.Owns i k then 1 else 0
  /-- It is acquired first. -/
  releasedBehind : ∀ before after i k, s.log = before ++ .released i k :: after →
    .acquired i k ∈ before
  /-- A task runs once at most, whether or not its caller has given up. -/
  ranOnce : ∀ i, s.log.count (.ran i) ≤ 1

/-! ## Success -/

/-- What an event follows from: a slot is given back that was acquired, and a synchronous call
returns success whose task has run. -/
def Reasoned (requests : List HandlerRequest) (before : List HandlerEvent) : HandlerEvent → Prop
  | .released i k => .acquired i k ∈ before
  | .returned i outcome => ∃ request, requests[i]? = some request ∧
      ∀ taskId timeoutMs, outcome = .ret .success taskId → request = .postSyncTask timeoutMs →
        .ran i ∈ before
  | _ => True

/-- A synchronous call comes to success only by its task. -/
structure Answered (s : LosEventHandler) : Prop where
  completing : ∀ drained i, s.loop = .complete drained i .success → .ran i ∈ s.log
  done : ∀ (i : Nat) c, s.calls[i]? = some c → c.context.done = true →
    c.context.status = .success → .ran i ∈ s.log
  leaving : ∀ (i : Nat) c taskId, s.calls[i]? = some c → c.Synchronous →
    c.pc = .leaving (.ret .success taskId) → .ran i ∈ s.log
  refused : ∀ c ∈ s.calls, c.pc ≠ .freeSlot .success
  journal : Journal.Justified (Reasoned s.requests) s.log

theorem getElem?_requests (hi : s.calls[i]? = some c) : s.requests[i]? = some c.request := by
  rw [requests, List.getElem?_map, hi]
  rfl

/-- **What a call notes follows from what was noted.** -/
theorem CallMove.reasoned (hm : CallMove config i s c s₁ c') (hfits : c.Fits config)
    (hbooked : s.Booked) (hanswered : s.Answered) (hi : s.calls[i]? = some c) :
    ∃ es, s₁.log = s.log ++ es ∧ ∀ e ∈ es, ∀ m, Reasoned s.requests (s.log ++ m) e := by
  have hrelease : c.slot = some c.context.slot → ∀ e ∈ [HandlerEvent.released i c.context.slot],
      ∀ m, Reasoned s.requests (s.log ++ m) e := by
    intro hslot e he m
    rw [List.mem_singleton.mp he]
    refine List.mem_append_left m (hbooked.acquired_of_slot ?_)
    rw [slotOf, holder_eq hi]
    exact hslot
  cases hm with
  | freeSlot hpc | settle hpc | settleDone hpc =>
    simp only [Call.Fits, hpc] at hfits
    obtain ⟨timeoutMs, hreq⟩ := hfits
    exact ⟨_, rfl, hrelease (by simp [Call.slot, Call.hold, hreq, hpc])⟩
  | @leave outcome hpc =>
    refine ⟨_, rfl, fun e he m => ?_⟩
    rw [List.mem_singleton.mp he]
    refine ⟨c.request, getElem?_requests hi, ?_⟩
    rintro taskId timeoutMs rfl hreq
    exact List.mem_append_left m (hanswered.leaving i c taskId hi ⟨timeoutMs, hreq⟩ hpc)
  | insert =>
    obtain ⟨t, heq⟩ := enterDelayed_table config i _ s
    rw [heq]
    exact ⟨[], (List.append_nil _).symm, by simp⟩
  | @remove _ k =>
    refine ⟨_, eraseDelayed_log .., fun e he m => ?_⟩
    cases hk : s.delayed[k]? with
    | none =>
      rw [hk] at he
      cases he
    | some entry =>
      rw [hk] at he
      rw [List.mem_singleton.mp he]
      trivial
  | rearm =>
    obtain ⟨t, -, heq⟩ := startTimer_eq config (ticksToMs config.tickFreq 1#32) s
    rw [heq]
    exact ⟨[], (List.append_nil _).symm, by simp⟩
  | acquire | runInPlace =>
    refine ⟨_, rfl, fun e he m => ?_⟩
    rw [List.mem_singleton.mp he]
    trivial
  | _ => exact ⟨[], (List.append_nil _).symm, by simp⟩

/-- A call does not answer itself. -/
theorem CallMove.done (hm : CallMove config i s c s₁ c') (h : c'.context.done = true) :
    c.context.done = true ∧ c'.context.status = c.context.status := by
  cases hm with
  | acquire => cases h
  | _ => exact ⟨h, rfl⟩

/-- A message that was refused was not accepted. -/
theorem CallMove.refused (hm : CallMove config i s c s₁ c') : c'.pc ≠ .freeSlot .success := by
  have henqueued : ∀ ret, (c.goto (c.request.enqueued ret)).pc ≠ .freeSlot .success := by
    intro ret
    unfold HandlerRequest.enqueued
    cases c.request with
    | postSyncTask =>
      dsimp only
      split
      · simp
      next hret =>
        intro heq
        exact hret (CallPc.freeSlot.inj heq)
    | onTimerExpired =>
      dsimp only
      split <;> simp
    | _ => simp
  cases hm with
  | starve | enqueueStopped | post | postRefused | pushFull => exact henqueued _
  | signal => exact henqueued _
  | allow =>
    unfold HandlerRequest.admitted
    cases c.request with
    | postAsyncTask | removeAsyncTask =>
      dsimp only
      split <;> simp
    | _ => simp
  | enqueue =>
    cases config.poster <;> simp
  | _ => simp

/-- **A synchronous call comes to success only by its task.** -/
theorem CallMove.leaving {taskId : TelMiniTaskId} (hm : CallMove config i s c s₁ c')
    (htidy : c.Tidy) (hanswered : s.Answered) (hi : s.calls[i]? = some c) (hsync : c'.Synchronous)
    (hpc' : c'.pc = .leaving (.ret .success taskId)) : .ran i ∈ s₁.log := by
  obtain ⟨timeoutMs, hreq'⟩ := hsync
  have hreq : c.request = .postSyncTask timeoutMs := hm.request.symm.trans hreq'
  have hsettled : ∀ {log : List HandlerEvent}, c.context.done = true →
      (CallPc.leaving (.ret c.context.status telMiniInvalidTaskId)) =
        .leaving (.ret .success taskId) → .ran i ∈ s.log ++ log := by
    intro log hdone hout
    have hstatus : c.context.status = .success := by
      injection hout with hout
      injection hout
    exact List.mem_append_left _ (hanswered.done i c hi hdone hstatus)
  have henqueued : ∀ {ret P}, (c.goto (c.request.enqueued ret)).pc =
      .leaving (.ret .success taskId) → P := by
    intro ret P heq
    unfold HandlerRequest.enqueued at heq
    simp only [hreq] at heq
    split at heq <;> cases heq
  cases hm with
  | runInPlace => exact List.mem_append_right _ (List.mem_singleton_self _)
  | settle hpc => exact hsettled (htidy.2.2 hpc) hpc'
  | settleDone _ hdone => exact hsettled hdone hpc'
  | freeSlot hpc =>
    obtain rfl : RetCode.success = _ := by
      injection hpc' with hout
      injection hout with hcode
      exact hcode.symm
    exact absurd hpc (hanswered.refused c (List.mem_of_getElem? hi))
  | insert _ hreq'' =>
    rw [hreq] at hreq''
    cases hreq''
  | starve | enqueueStopped | post | postRefused | pushFull => exact henqueued hpc'
  | signal => exact henqueued hpc'
  | allow =>
    rw [hreq] at hpc'
    cases hpc'
  | refuse =>
    rw [hreq] at hpc'
    cases hpc'
  | enqueue =>
    split at hpc' <;> cases hpc'
  | _ => cases hpc'

theorem Answered.call (h : s.Answered) (hinv : s.Inv config) (hbooked : s.Booked)
    (hi : s.calls[i]? = some c) (hm : CallMove config i s c s₁ c') :
    Answered { s₁ with calls := s₁.calls.set i c' } := by
  have hmem := List.mem_of_getElem? hi
  have hcalls : s₁.calls.set i c' = s.calls.set i c' := by rw [hm.frame.calls]
  obtain ⟨es, hlog, hes⟩ := hm.reasoned (hinv.fits c hmem) hbooked h hi
  have hkept : ∀ {e}, e ∈ s.log → e ∈ s₁.log := by
    intro e he
    rw [hlog]
    exact List.mem_append_left _ he
  refine ⟨fun drained j hpc => ?_,
    fun j d hj hdone hstatus => ?_, fun j d taskId hj hsync hpc => ?_,
    fun d hd => ?_, ?_⟩
  · exact hkept (h.completing drained j (hm.frame.loop ▸ hpc))
  · rw [hcalls] at hj
    rcases Agents.of_getElem?_set hj with ⟨rfl, rfl⟩ | ⟨-, hj⟩
    · obtain ⟨hdone, hsame⟩ := hm.done hdone
      exact hkept (h.done j c hi hdone (hsame ▸ hstatus))
    · exact hkept (h.done j d hj hdone hstatus)
  · rw [hcalls] at hj
    rcases Agents.of_getElem?_set hj with ⟨rfl, rfl⟩ | ⟨-, hj⟩
    · exact hm.leaving (hinv.tidy c hmem) h hi hsync hpc
    · exact hkept (h.leaving j d taskId hj hsync hpc)
  · rw [hcalls] at hd
    rcases List.mem_or_eq_of_mem_set hd with hd | rfl
    · exact h.refused d hd
    · exact hm.refused
  · rw [requests, hcalls, requests_set hi hm.request]
    change Journal.Justified _ s₁.log
    rw [hlog]
    exact h.journal.append hes

/-- Where the calls stay as they are. -/
theorem Answered.noted (h : s.Answered) {es : List HandlerEvent} (hcalls : s'.calls = s.calls)
    (hlog : s'.log = s.log ++ es) (hes : ∀ e ∈ es, ∀ m, Reasoned s.requests (s.log ++ m) e)
    (hcompleting : ∀ drained i, s'.loop = .complete drained i .success → .ran i ∈ s'.log) :
    s'.Answered := by
  have hkept : ∀ {e}, e ∈ s.log → e ∈ s'.log := by
    intro e he
    rw [hlog]
    exact List.mem_append_left _ he
  refine ⟨hcompleting, ?_, ?_, ?_, ?_⟩
  · rw [hcalls]
    exact fun i c hi hdone hstatus => hkept (h.done i c hi hdone hstatus)
  · rw [hcalls]
    exact fun i c taskId hi hsync hpc => hkept (h.leaving i c taskId hi hsync hpc)
  · rw [hcalls]
    exact h.refused
  · rw [requests, hcalls, hlog]
    exact h.journal.append hes

/-- What the loop notes follows from what was noted. -/
theorem LoopMove.reasoned (hm : LoopMove config s s') (hinv : s.Inv config)
    (hbooked : s.Booked) :
    ∃ es, s'.log = s.log ++ es ∧ ∀ e ∈ es, ∀ m, Reasoned s.requests (s.log ++ m) e := by
  cases hm with
  | @complete drained i status hpc =>
    obtain ⟨c, hi, hhold, -⟩ := hinv.completing hpc
    cases habandoned : c.context.abandoned with
    | true =>
      rw [completeLocked_abandoned hi habandoned]
      refine ⟨_, rfl, fun e he m => ?_⟩
      rw [List.mem_singleton.mp he]
      refine List.mem_append_left m (hbooked.acquired_of_slot ?_)
      rw [slotOf, holder_eq hi, hhold]
      rfl
    | false =>
      rw [completeLocked_waiting hi habandoned]
      exact ⟨[], (List.append_nil _).symm, by simp⟩
  | takeDue =>
    obtain ⟨t, -, heq⟩ := takeDueLocked_eq config s
    rw [heq]
    exact ⟨[], (List.append_nil _).symm, by simp⟩
  | handleTimer | handleSync | handleAsync | runDelayed | runAsync | runSync | recycleTimer
  | recycleSync | recycleAsync =>
    refine ⟨_, rfl, fun e he m => ?_⟩
    rw [List.mem_singleton.mp he]
    trivial
  | _ => exact ⟨[], (List.append_nil _).symm, by simp⟩

/-- `Complete` reports success only for a task that has run. -/
theorem LoopMove.completing {drained : Bool} (hm : LoopMove config s s')
    (hpc' : s'.loop = .complete drained i .success) : .ran i ∈ s'.log := by
  cases hm with
  | @runSync j =>
    obtain ⟨-, rfl, -⟩ := LoopPc.complete.inj hpc'
    exact List.mem_append_right _ (List.mem_singleton_self _)
  | recycleSync =>
    obtain ⟨-, -, hcode⟩ := LoopPc.complete.inj hpc'
    cases hcode
  | takeDue =>
    obtain ⟨t, -, heq⟩ := takeDueLocked_eq config s
    rw [heq] at hpc'
    cases hpc'
  | popNone =>
    dsimp only at hpc'
    split at hpc' <;> cases hpc'
  | dispatched =>
    dsimp only at hpc'
    split at hpc'
    · cases hpc'
    · split at hpc' <;> cases hpc'
  | @complete drained' | @recycleTimer drained' | @recycleAsync drained' =>
    cases drained' <;> cases hpc'
  | _ => cases hpc'

theorem Answered.loop (h : s.Answered) (hinv : s.Inv config) (hbooked : s.Booked)
    (hm : LoopMove config s s') : s'.Answered := by
  obtain ⟨es, hlog, hes⟩ := hm.reasoned hinv hbooked
  by_cases hcomplete : ∃ drained i status, s.loop = .complete drained i status
  · obtain ⟨drained, i, status, hpc⟩ := hcomplete
    obtain ⟨c, hi, -, -⟩ := hinv.completing hpc
    obtain rfl : s' = { s.completeLocked i status with loop := .behind drained } := by
      cases hm <;> simp_all
    have hcalls : (s.completeLocked i status).calls = s.calls.set i (c.completed status) :=
      completeLocked_calls hi
    have hkept : ∀ {e}, e ∈ s.log → e ∈ (s.completeLocked i status).log := by
      intro e he
      rw [show (s.completeLocked i status).log = s.log ++ es from hlog]
      exact List.mem_append_left _ he
    refine ⟨fun _ _ => hm.completing, fun j d hj hdone hstatus => ?_,
      fun j d taskId hj hsync hleft => ?_, fun d hd => ?_, ?_⟩
    · rw [hcalls] at hj
      rcases Agents.of_getElem?_set hj with ⟨rfl, rfl⟩ | ⟨-, hj⟩
      · obtain rfl : status = .success := hstatus
        exact hkept (h.completing drained j hpc)
      · exact hkept (h.done j d hj hdone hstatus)
    · rw [hcalls] at hj
      rcases Agents.of_getElem?_set hj with ⟨rfl, rfl⟩ | ⟨-, hj⟩
      · exact hkept (h.leaving j c taskId hi hsync hleft)
      · exact hkept (h.leaving j d taskId hj hsync hleft)
    · rw [hcalls] at hd
      rcases List.mem_or_eq_of_mem_set hd with hd | rfl
      · exact h.refused d hd
      · exact h.refused c (List.mem_of_getElem? hi)
    · rw [hm.requests, hlog]
      exact h.journal.append hes
  · have hne : ∀ drained i status, s.loop ≠ .complete drained i status :=
      fun drained i status hpc => hcomplete ⟨drained, i, status, hpc⟩
    exact h.noted (hm.aside hne).1 hlog hes fun _ _ => hm.completing

/-- A new call has nothing behind it. -/
theorem Answered.enter (h : s.Answered) {request : HandlerRequest} {task : TelOsTaskId}
    (hcalls : s'.calls = s.calls ++ [{ request := request, task := task }])
    (hloop : s'.loop = s.loop) (hlog : s'.log = s.log) : s'.Answered := by
  refine ⟨fun drained i hpc => ?_, fun i c hi hdone hstatus => ?_,
    fun i c taskId hi hsync hpc => ?_, fun c hc => ?_, ?_⟩
  · rw [hlog]
    exact h.completing drained i (hloop ▸ hpc)
  · rw [hcalls] at hi
    rcases Agents.of_getElem?_append hi with ⟨-, rfl⟩ | hi
    · cases hdone
    · rw [hlog]
      exact h.done i c hi hdone hstatus
  · rw [hcalls] at hi
    rcases Agents.of_getElem?_append hi with ⟨-, rfl⟩ | hi
    · cases hpc
    · rw [hlog]
      exact h.leaving i c taskId hi hsync hpc
  · rw [hcalls] at hc
    rcases List.mem_append.mp hc with hc | hc
    · exact h.refused c hc
    · rw [List.mem_singleton.mp hc]
      simp
  · rw [hlog, requests, hcalls, List.map_append]
    refine h.journal.mono fun before e he => ?_
    cases e with
    | returned i outcome =>
      obtain ⟨r, hr, hran⟩ := he
      obtain ⟨hlt, -⟩ := List.getElem?_eq_some_iff.mp hr
      refine ⟨r, ?_, hran⟩
      change (s.requests ++ _)[i]? = _
      rwa [List.getElem?_append_left hlt]
    | released => exact he
    | _ => trivial

theorem Answered.move (h : s.Answered) (hinv : s.Inv config) (hbooked : s.Booked)
    (hm : Move config s a s') : s'.Answered := by
  cases hm with
  | init =>
    obtain ⟨-, hcalls, -, -, -, hlog, -, hloop⟩ := initialized_frame config s
    refine h.noted hcalls hlog (fun e he m => ?_) fun drained i hpc => ?_
    · rw [List.mem_singleton.mp he]
      trivial
    · rcases hloop with ⟨-, hloop⟩ | ⟨-, -, hloop⟩
      · rw [hlog]
        exact List.mem_append_left _ (h.completing drained i (hloop ▸ hpc))
      · rw [hloop] at hpc
        cases hpc
  | invoke | expire => exact h.enter rfl rfl rfl
  | call hi hm => exact h.call hinv hbooked hi hm
  | loop _ hm => exact h.loop hinv hbooked hm
  | stop hm =>
    obtain ⟨es, hlog, hes⟩ := hm.log
    refine h.noted hm.calls hlog (fun e he m => ?_) fun drained i hpc => ?_
    · rcases hes e he with rfl | ⟨i, rfl⟩ <;> trivial
    · rw [hlog]
      exact List.mem_append_left _ (h.completing drained i (hm.loop ▸ hpc))
  | receive => exact ⟨by simp, h.done, h.leaving, h.refused, h.journal⟩
  | bindLoopTask | callStop | tick | nothing =>
    exact ⟨h.completing, h.done, h.leaving, h.refused, h.journal⟩

theorem Answered.step (h : s.Answered) (hinv : s.Inv config) (hbooked : s.Booked)
    (hstep : s.step? config a = some s') : s'.Answered := by
  obtain ⟨me, -, rfl⟩ | ⟨l, hl, hm⟩ := step_cases hstep
  · exact ⟨h.completing, h.done, h.leaving, h.refused, h.journal⟩
  · exact Answered.move (s := { s with lock := l })
      ⟨h.completing, h.done, h.leaving, h.refused, h.journal⟩ (hinv.locked hl)
      ⟨hbooked.books, hbooked.once, hbooked.acquirers⟩ hm

/-- A handler nobody has called. -/
theorem answered_constructed : Answered {} where
  completing drained i hpc := by cases hpc
  done i c hi := by simp at hi
  leaving i c taskId hi := by simp at hi
  refused c hc := by simp at hc
  journal := Journal.justified_nil

/-- **A synchronous call comes to success only by its task**, in every run. -/
theorem reachable_answered (h : Reachable config s) : s.Answered := by
  refine h.invariant_of (J := fun s => s.Inv config ∧ s.Booked)
    (fun s hs => ⟨reachable_inv hs, reachable_booked hs⟩) (fun s hs => ?_)
    fun s s' hboth hs hstep => ?_
  · subst hs
    exact answered_constructed
  · obtain ⟨a, ha⟩ := hstep
    exact hs.step hboth.1 hboth.2 ha

/-! ## The slots of every run -/

/-- A call names the slot it holds; and if it has come to its outcome, it keeps the slot only for
its message, because it has given up. -/
theorem hold_cases {p : SlotPool.Phase} (h : c.hold = some (k, p)) :
    c.context.slot = k ∧ (c.outcome = none ∨ (c.context.abandoned = true ∧ p = .sent)) := by
  obtain ⟨request, task, pc, context⟩ := c
  cases request with
  | postSyncTask timeoutMs =>
    cases pc with
    | leaving outcome | returned outcome =>
      simp only [Call.hold] at h
      split at h
      next hleft =>
        obtain ⟨habandoned, -⟩ := Bool.and_eq_true_iff.mp hleft
        obtain ⟨rfl, rfl⟩ := Prod.mk.inj (Option.some.inj h)
        exact ⟨rfl, .inr ⟨habandoned, rfl⟩⟩
      · cases h
    | settle waited => cases waited <;> exact ⟨(Prod.mk.inj (Option.some.inj h)).1, .inl rfl⟩
    | allocate | enqueue | post | push | freeSlot | signal | await =>
      exact ⟨(Prod.mk.inj (Option.some.inj h)).1, .inl rfl⟩
    | _ => cases h
  | _ => cases h

theorem Booked.owns_iff (h : s.Booked) : s.Owns i k ↔ s.slotOf i = some k := by
  have hbooks := h.books i k
  have hle : s.log.count (.acquired i k) ≤ s.log.countP (HandlerEvent.acquiredBy i) := by
    refine List.countP_mono_left fun e _ he => ?_
    rw [beq_iff_eq.mp he]
    exact decide_eq_true rfl
  have honce := h.once.done_le_one i
  constructor
  · rintro ⟨hacquired, hreleased⟩
    have hpos := List.count_pos_iff.mpr hacquired
    have hzero := List.count_eq_zero.mpr hreleased
    by_contra hslot
    rw [if_neg hslot] at hbooks
    omega
  · intro hslot
    rw [if_pos hslot] at hbooks
    exact ⟨List.count_pos_iff.mp (by omega), List.count_eq_zero.mp (by omega)⟩

theorem slotOf_eq_some : s.slotOf i = some k ↔
    ∃ c p, s.calls[i]? = some c ∧ c.hold = some (k, p) := by
  rw [slotOf, Option.map_eq_some_iff]
  constructor
  · rintro ⟨⟨l, p⟩, hhold, rfl⟩
    obtain ⟨c, hi, hc⟩ := Option.bind_eq_some_iff.mp hhold
    exact ⟨c, p, hi, hc⟩
  · rintro ⟨c, p, hi, hc⟩
    exact ⟨(k, p), by rw [holder, hi]; exact hc, rfl⟩

/-- **The waiter slots of synchronous calls are kept apart**, in every state of every run. -/
theorem waiterSlots_apart (h : Reachable config s) : s.SlotsApart := by
  have hinv := reachable_inv h
  have hbooked := reachable_booked h
  have hanswered := reachable_answered h
  have howns : ∀ {i k}, s.Owns i k → ∃ c p, s.calls[i]? = some c ∧ c.hold = some (k, p) ∧
      s.holder i = some (k, p) := by
    intro i k hown
    obtain ⟨c, p, hi, hc⟩ := slotOf_eq_some.mp (hbooked.owns_iff.mp hown)
    exact ⟨c, p, hi, hc, (holder_eq hi).trans hc⟩
  refine
    { owner := fun k hk => ?_
      inUse := fun i k hown => ?_
      outstanding := fun i k c hown hi => ?_
      silent := fun k => hinv.pool.silent_of_free
      woken := fun i c hi => (hinv.tidy c (List.mem_of_getElem? hi)).2.2
      executed := fun before after i c taskId hlog hi hsync => ?_
      acquiredOnce := hbooked.once.done_le_one
      releasedOnce := fun i k => ?_
      releasedBehind := fun before after i k hlog => ?_
      ranOnce := (reachable_custody h).ran_le_one }
  · obtain ⟨i, p, hhold⟩ := hinv.pool.owned k hk
    refine ⟨i, hbooked.owns_iff.mpr (by rw [slotOf, hhold]; rfl), fun j hown => ?_⟩
    obtain ⟨-, q, -, -, hj⟩ := howns hown
    exact hinv.pool.unique j i k q p hj hhold
  · obtain ⟨c, p, hi, hc, hhold⟩ := howns hown
    exact ⟨hinv.pool.held i k p hhold, c, hi, (hold_cases hc).1⟩
  · obtain ⟨d, p, hi', hc, hhold⟩ := howns hown
    obtain rfl := Option.some.inj (hi.symm.trans hi')
    refine (hold_cases hc).2.imp id fun hleft => ⟨hleft.1, ?_⟩
    rw [hinv.sent i, hhold, hleft.2]
    rfl
  · obtain ⟨request, hrequest, hran⟩ := hanswered.journal before _ after hlog
    obtain ⟨timeoutMs, hreq⟩ := hsync
    refine hran taskId timeoutMs rfl ?_
    rw [getElem?_requests hi] at hrequest
    exact (Option.some.inj hrequest).symm.trans hreq
  · have hbooks := hbooked.books i k
    simp only [hbooked.owns_iff]
    exact hbooks
  · exact hanswered.journal before _ after hlog

/-- The first caller gives up before its task is run, the second one takes the slot behind it. -/
def timesOut : List Act :=
  [.init true, .invoke (.postSyncTask 20#32) 1] ++ List.replicate 8 (.call 0 true) ++
    [.receive 0, .loop, .loop, .loop] ++ List.replicate 4 (.call 0 true) ++
    List.replicate 4 .loop ++ [.invoke (.postSyncTask 20#32) 2] ++
    List.replicate 8 (.call 1 true) ++ .receive 0 :: List.replicate 7 .loop ++
    List.replicate 4 (.call 1 true)

theorem waiterSlots_apart_timesOut :
    (({} : LosEventHandler).run? smallConfig timesOut).elim False fun s =>
      (s.log = [.started, .acquired 0 0, .dispatched (.syncCall 0),
          .returned 0 (.ret .errIpcConnectStubFail 0#32), .ran 0, .released 0 0, .acquired 1 0,
          .dispatched (.syncCall 1), .ran 1, .released 1 0, .returned 1 (.ret .success 0#32)]) ∧
        s.SlotsApart := by
  have hrun : (({} : LosEventHandler).run? smallConfig timesOut).map log =
      some [.started, .acquired 0 0, .dispatched (.syncCall 0),
        .returned 0 (.ret .errIpcConnectStubFail 0#32), .ran 0, .released 0 0, .acquired 1 0,
        .dispatched (.syncCall 1), .ran 1, .released 1 0,
        .returned 1 (.ret .success 0#32)] := by decide +kernel
  obtain ⟨s, hs, hlog⟩ := Option.map_eq_some_iff.mp hrun
  rw [hs]
  exact ⟨hlog, waiterSlots_apart (reachable_run (.start rfl) hs)⟩

end LosEventHandler

end CallManagerMini
