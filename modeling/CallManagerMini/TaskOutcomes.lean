import CallManagerMini.StopAccounts
import CallManagerMini.ReleasedObjects

/-! # What a return value says of a task

A caller learns from the code it gets what has become of its task.  A synchronous call that returns
success has had it run, once; a call that returns an error has left it nowhere, so that it never
runs, at whatever step the handler turned the call away.  One error says less: who gives up a wait
does not know, and the task may run later.  The tasks that were removed, dropped or recycled do not
run either (`returns_tell`).  This holds in every run of either mode, whether or not a call comes
late, and over any number of lives of the handler.
-/

namespace CallManagerMini

/-- The task an event puts out of the way. -/
def HandlerEvent.discards : HandlerEvent → Option Nat
  | .removed i | .dropped i => some i
  | .recycled message => message.task
  | _ => none

/-- It gives back the slot of a message that was refused, or it returns: with this code. -/
def Call.turnsAway (c : Call) (ret : RetCode) : Prop :=
  c.pc = .freeSlot ret ∨ ∃ taskId, c.outcome = some (.ret ret taskId)

/-- It waits no longer, and its message is still on its way. -/
def Call.GaveUp (c : Call) (ret : RetCode) : Prop :=
  c.Synchronous ∧ c.context.abandoned = true ∧ ret = .errIpcConnectStubFail

namespace LosEventHandler

variable {config : Config} {s s' s₁ : LosEventHandler} {i j : Nat} {c c' : Call} {a : Act}
  {ret : RetCode}

/-! ## Tasks that are nowhere -/

/-- How often the task of the call `i` is somewhere, or has run. -/
def share (s : LosEventHandler) (i : Nat) : Nat :=
  s.calls[i]?.elim 0 (fun c => c.keepsTask.toNat) + (s.tasks.count i + s.log.count (.ran i))

/-- **The task of the call is nowhere**, and it has not run. -/
structure Gone (s : LosEventHandler) (i : Nat) : Prop where
  called : i < s.calls.length
  share : s.share i = 0

theorem Custody.share_le (h : s.Custody) (i : Nat) :
    s.share i ≤ if i < s.calls.length then 1 else 0 :=
  h i

/-- What one of at most one loses, it has lost. -/
theorem Custody.gone (h : s.Custody) (hlength : s.calls.length ≤ s'.calls.length)
    (hlt : s'.share i < s.share i) : s'.Gone i := by
  have hle := h.share_le i
  split at hle
  next hi => exact ⟨Nat.lt_of_lt_of_le hi hlength, by omega⟩
  next => omega

theorem Gone.not_ran (h : s.Gone i) : .ran i ∉ s.log := by
  have hshare := h.share
  unfold LosEventHandler.share at hshare
  exact List.count_eq_zero.mp (by omega)

theorem share_of_calls (hcalls : s'.calls = s.calls)
    (hle : s'.tasks.count i + s'.log.count (.ran i) ≤ s.tasks.count i + s.log.count (.ran i)) :
    s'.share i ≤ s.share i := by
  unfold share
  rw [hcalls]
  exact Nat.add_le_add_left hle _

theorem CallMove.share_le (hm : CallMove config i s c s₁ c') (hi : s.calls[i]? = some c) (j : Nat) :
    share { s₁ with calls := s₁.calls.set i c' } j ≤ s.share j := by
  unfold share
  dsimp only
  rw [hm.frame.calls]
  refine Agents.share_set (fun c => c.keepsTask.toNat)
    (fun j => s.tasks.count j + s.log.count (.ran j))
    (fun j => s₁.tasks.count j + s₁.log.count (.ran j)) hi (fun j => ?_) j
  have hmove := hm.custody j
  omega

theorem LoopMove.share_le (hm : LoopMove config s s') (j : Nat) : s'.share j ≤ s.share j := by
  rcases hm.calls with hcalls | ⟨i, c, status, hi, hcalls⟩
  · exact share_of_calls hcalls (hm.custody j)
  · unfold share
    rw [hcalls]
    refine Agents.share_set (fun c => c.keepsTask.toNat)
      (fun j => s.tasks.count j + s.log.count (.ran j))
      (fun j => s'.tasks.count j + s'.log.count (.ran j)) hi (fun j => ?_) j
    have hmove := hm.custody j
    change (if i = j then c.keepsTask.toNat else 0) + _ ≤ _
    omega

theorem LoopMove.length_calls (hm : LoopMove config s s') : s'.calls.length = s.calls.length := by
  rcases hm.calls with hcalls | ⟨i, c, status, hi, hcalls⟩
  · rw [hcalls]
  · rw [hcalls, List.length_set]

/-- A new call has a task of its own, and no other. -/
theorem share_append {request : HandlerRequest} {task : TelOsTaskId} (hi : i < s.calls.length) :
    share { s with calls := s.calls ++ [{ request, task }] } i = s.share i := by
  unfold share
  dsimp only
  rw [List.getElem?_append_left hi]
  rfl

/-- **A task does not come back.** -/
theorem Gone.move (h : s.Gone i) (hm : Move config s a s') : s'.Gone i := by
  have hless : s.calls.length ≤ s'.calls.length → s'.share i ≤ s.share i → s'.Gone i :=
    fun hlength hle => ⟨Nat.lt_of_lt_of_le h.called hlength, Nat.le_zero.mp (h.share ▸ hle)⟩
  cases hm with
  | init =>
    obtain ⟨-, hcalls, -, -, -, hlog, -⟩ := initialized_frame config s
    refine hless (by rw [hcalls]) (share_of_calls hcalls ?_)
    have hran : (s.log ++ [HandlerEvent.started]).count (HandlerEvent.ran i) =
        s.log.count (.ran i) := by simp
    rw [hlog, hran]
    exact Nat.add_le_add_right (count_initialized config s i) _
  | invoke | expire =>
    exact hless (by simp) (share_append h.called).le
  | call hi hm =>
    refine hless ?_ (hm.share_le hi i)
    rw [List.length_set, hm.frame.calls]
  | loop _ hm => exact hless hm.length_calls.ge (hm.share_le i)
  | receive _ hidle hk =>
    refine hless (Nat.le_refl _) (share_of_calls rfl ?_)
    rw [count_receive hidle hk]
  | stop hm =>
    refine hless (by rw [hm.calls]) (share_of_calls hm.calls ?_)
    obtain ⟨htasks, hran⟩ := hm.custody i
    omega
  | bindLoopTask | callStop | tick | nothing => exact ⟨h.called, h.share⟩

theorem Gone.step (h : s.Gone i) (hstep : s.step? config a = some s') : s'.Gone i := by
  obtain ⟨me, -, rfl⟩ | ⟨l, -, hm⟩ := step_cases hstep
  · exact ⟨h.called, h.share⟩
  · exact Gone.move (s := { s with lock := l }) ⟨h.called, h.share⟩ hm

theorem Gone.later (h : s.Gone i) (hrun : Relation.ReflTransGen (Steps config) s s') :
    s'.Gone i := by
  induction hrun with
  | refl => exact h
  | tail _ hstep ih =>
    obtain ⟨a, ha⟩ := hstep
    exact ih.step ha

/-! ## How a call comes to an error -/

/-- Why a move of the call `i` turns away its caller. -/
inductive Reason (s : LosEventHandler) (c : Call) (s₁ : LosEventHandler) (c' : Call)
    (ret : RetCode) : Prop where
  /-- The task has not left the call. -/
  | unposted : c.keepsTask = true → c'.keepsTask = false → s₁ = s → Reason s c s₁ c' ret
  | known : c.turnsAway ret → c'.context = c.context → Reason s c s₁ c' ret
  | answered : c.context.done = true → c.context.status = ret → Reason s c s₁ c' ret
  | gaveUp : c'.GaveUp ret → Reason s c s₁ c' ret

/-- Behind `Enqueue` a caller is turned away with the code of `Enqueue`. -/
theorem turnsAway_enqueued {ret' : RetCode}
    (h : (c.goto (c.request.enqueued ret')).turnsAway ret) : ret = ret' := by
  unfold Call.turnsAway HandlerRequest.enqueued at h
  cases hreq : c.request with
  | postSyncTask timeoutMs =>
    simp only [hreq] at h
    split at h
    · simp [Call.outcome] at h
    · simpa [Call.outcome, eq_comm] using h
  | onTimerExpired =>
    simp only [hreq] at h
    split at h <;> simp [Call.outcome] at h
  | postAsyncTask | removeAsyncTask =>
    simp only [hreq, Call.outcome] at h
    simpa [eq_comm] using h

theorem enqueued_ne_returned (c : Call) (ret : RetCode) (outcome : Outcome) :
    c.request.enqueued ret ≠ .returned outcome := by
  unfold HandlerRequest.enqueued
  cases c.request with
  | postSyncTask | onTimerExpired =>
    dsimp only
    split <;> simp
  | postAsyncTask | removeAsyncTask => simp

/-- A call has its outcome before it returns. -/
theorem CallMove.outcome_returned {outcome : Outcome} (hm : CallMove config i s c s₁ c')
    (hpc' : c'.pc = .returned outcome) : c'.outcome = c.outcome := by
  cases hm with
  | leave hpc => rw [Call.outcome, Call.outcome, hpc]
  | starve | enqueueStopped | post | postRefused | pushFull | signal =>
    dsimp only at hpc'
    exact absurd hpc' (enqueued_ne_returned c _ outcome)
  | allow =>
    unfold HandlerRequest.admitted at hpc'
    cases hreq : c.request with
    | postAsyncTask | removeAsyncTask =>
      simp only [hreq] at hpc'
      split at hpc' <;> cases hpc'
    | _ =>
      rw [hreq] at hpc'
      cases hpc'
  | enqueue =>
    dsimp only at hpc'
    split at hpc' <;> cases hpc'
  | _ => cases hpc'

theorem CallMove.reason (hm : CallMove config i s c s₁ c') (hfits : c.Fits config) (htidy : c.Tidy)
    (hret : ret ≠ .success) (h : c'.turnsAway ret) : Reason s c s₁ c' ret := by
  have hnot : ∀ {P : Prop}, (∀ ret', c'.pc ≠ .freeSlot ret') →
      (∀ taskId, c'.outcome ≠ some (.ret ret taskId)) → P := by
    intro P hfree hout
    rcases h with hpc | ⟨taskId, heq⟩
    · exact absurd hpc (hfree ret)
    · exact absurd heq (hout taskId)
  cases hm with
  | refuse hpc => exact .unposted (by simp [Call.keepsTask, hpc]) rfl rfl
  | starve hpc | enqueueStopped hpc | postRefused hpc | pushFull hpc =>
    exact .unposted (by simp [Call.keepsTask, hpc]) (keepsTask_enqueued ..) rfl
  | insertFull hpc | acquireNone hpc => exact .unposted (by simp [Call.keepsTask, hpc]) rfl rfl
  -- a message that was taken answers success
  | post | signal => exact absurd (turnsAway_enqueued h) hret
  | allow =>
    unfold HandlerRequest.admitted at hnot
    cases hreq : c.request with
    | postAsyncTask | removeAsyncTask =>
      simp only [hreq] at hnot
      split at hnot <;> exact hnot (by simp) (by simp [Call.outcome])
    | _ =>
      simp only [hreq] at hnot
      exact hnot (by simp) (by simp [Call.outcome])
  | freeSlot hpc =>
    refine .known (.inl ?_) rfl
    simp only [Call.turnsAway, Call.outcome] at h
    rcases h with h | ⟨taskId, h⟩
    · cases h
    · rw [hpc, (Outcome.ret.inj (Option.some.inj h)).1]
  -- `Complete` wrote the code before it woke the caller
  | settle hpc =>
    refine .answered (htidy.2.2 hpc) ?_
    simp only [Call.turnsAway, Call.outcome] at h
    rcases h with h | ⟨taskId, h⟩
    · cases h
    · exact (Outcome.ret.inj (Option.some.inj h)).1
  | settleDone _ hdone =>
    refine .answered hdone ?_
    simp only [Call.turnsAway, Call.outcome] at h
    rcases h with h | ⟨taskId, h⟩
    · cases h
    · exact (Outcome.ret.inj (Option.some.inj h)).1
  | abandon hpc =>
    simp only [Call.Fits, hpc] at hfits
    refine .gaveUp ⟨hfits, rfl, ?_⟩
    simp only [Call.turnsAway, Call.outcome] at h
    rcases h with h | ⟨taskId, h⟩
    · cases h
    · exact (Outcome.ret.inj (Option.some.inj h)).1.symm
  | leave hpc =>
    refine .known (.inr ?_) rfl
    rcases h with h | ⟨taskId, h⟩
    · cases h
    · exact ⟨taskId, by rw [← h, Call.outcome, hpc]; rfl⟩
  | insert | runInPlace =>
    refine hnot (by simp) fun taskId heq => hret ?_
    exact (Outcome.ret.inj (Option.some.inj heq)).1.symm
  | enqueue =>
    refine hnot ?_ ?_ <;> cases config.poster <;> simp [Call.outcome]
  | _ => exact hnot (by simp) (by simp [Call.outcome])

/-! ## The events that discard tasks -/

/-- Nothing the event says of a task is about `i`'s, unless that is gone. -/
def Discarded (s : LosEventHandler) (es : List HandlerEvent) : Prop :=
  ∀ e ∈ es, ∀ i ∈ e.discards, s.Gone i

theorem discarded_nil : s.Discarded [] := by simp [Discarded]

/-- Events that take no task out of the way. -/
theorem discarded_singleton {e : HandlerEvent} (he : e.discards = none) : s.Discarded [e] := by
  intro e' he' i hi
  rw [List.mem_singleton.mp he', he] at hi
  cases hi

theorem Discarded.append {es es' : List HandlerEvent} (h : s.Discarded es) (h' : s.Discarded es') :
    s.Discarded (es ++ es') :=
  fun e he => (List.mem_append.mp he).elim (h e) (h' e)

theorem count_eraseDelayed_self {k : Nat} {entry : DelayedTask} (hk : s.delayed[k]? = some entry) :
    (s.eraseDelayed config k).tasks.count entry.call < s.tasks.count entry.call := by
  obtain ⟨hlt, hentry⟩ := List.getElem?_eq_some_iff.mp hk
  have hcount := ((List.getElem_cons_eraseIdx_perm hlt).map DelayedTask.call).count_eq entry.call
  rw [hentry, List.map_cons, List.count_cons_self] at hcount
  obtain ⟨t, es, -, heq⟩ := eraseDelayed_eq config k s
  rw [heq, count_tasks, count_tasks]
  dsimp only
  omega

theorem CallMove.discarded (hm : CallMove config i s c s₁ c') (h : s.Custody)
    (hi : s.calls[i]? = some c) : ∃ es, s₁.log = s.log ++ es ∧
      Discarded { s₁ with calls := s₁.calls.set i c' } es := by
  cases hm with
  | @remove taskId k hpc =>
    refine ⟨_, eraseDelayed_log .., ?_⟩
    cases hk : s.delayed[k]? with
    | none => exact discarded_nil
    | some entry =>
      intro e he j hj
      rw [List.mem_singleton.mp he] at hj
      obtain rfl : entry.call = j := Option.some.inj hj
      have hcalls : (s.eraseDelayed config k).calls = s.calls := by
        obtain ⟨t, es, -, heq⟩ := eraseDelayed_eq config k s
        rw [heq]
      have hran : (s.eraseDelayed config k).log.count (.ran entry.call) =
          s.log.count (.ran entry.call) := by
        rw [eraseDelayed_log, hk]
        simp
      refine h.gone (by simp [hcalls]) ?_
      have hself : (s.eraseDelayed config k).tasks.count entry.call < s.tasks.count entry.call :=
        count_eraseDelayed_self hk
      have hshare := Agents.share_set (a := c) (b := c.goto (.leaving (.removed true)))
        (fun c => c.keepsTask.toNat) (fun _ => 0) (fun _ => 0) hi
        (fun j => by simp [Call.keepsTask]) entry.call
      unfold share
      dsimp only
      rw [hcalls, hran]
      change _ + ((s.eraseDelayed config k).tasks.count entry.call + _) < _
      omega
  | insert =>
    obtain ⟨t, heq⟩ := enterDelayed_table config i _ s
    rw [heq]
    exact ⟨[], (List.append_nil _).symm, discarded_nil⟩
  | rearm =>
    obtain ⟨t, -, heq⟩ := startTimer_eq config (ticksToMs config.tickFreq 1#32) s
    rw [heq]
    exact ⟨[], (List.append_nil _).symm, discarded_nil⟩
  | runInPlace | acquire | freeSlot | settle | settleDone | leave =>
    exact ⟨_, rfl, discarded_singleton rfl⟩
  | _ => exact ⟨[], (List.append_nil _).symm, discarded_nil⟩

/-- The loop leaves a message behind: its task is lost. -/
theorem gone_recycled {message : LosEventMessage} (h : s.Custody) (hcalls : s'.calls = s.calls)
    (hring : s'.ring = s.ring) (hposted : s'.posted = s.posted) (hdelayed : s'.delayed = s.delayed)
    (hlog : s'.log = s.log ++ [.recycled message]) (hbefore : s.loop.tasks = message.task.toList)
    (hbehind : s'.loop.tasks = []) : s'.Discarded [.recycled message] := by
  intro e he j hj
  rw [List.mem_singleton.mp he] at hj
  have htask : message.task = some j := hj
  refine h.gone (by rw [hcalls]) ?_
  have hran : s'.log.count (.ran j) = s.log.count (.ran j) := by simp [hlog]
  unfold share
  rw [hcalls, hran, count_tasks, count_tasks, hring, hposted, hdelayed, hbefore, hbehind, htask]
  simp only [Option.toList_some, List.count_singleton_self, List.count_nil]
  omega

theorem LoopMove.discarded (hm : LoopMove config s s') (h : s.Custody) :
    ∃ es, s'.log = s.log ++ es ∧ s'.Discarded es := by
  cases hm with
  | @recycleTimer drained hpc | @recycleSync drained i hpc | @recycleAsync drained i hpc =>
    refine ⟨_, rfl, gone_recycled h rfl rfl rfl rfl rfl (by rw [hpc]; rfl) ?_⟩
    cases drained <;> rfl
  | @complete drained i status =>
    cases hi : s.calls[i]? with
    | none =>
      simp only [completeLocked, hi]
      exact ⟨[], (List.append_nil _).symm, discarded_nil⟩
    | some c =>
      cases habandoned : c.context.abandoned with
      | true =>
        rw [completeLocked_abandoned hi habandoned]
        exact ⟨_, rfl, discarded_singleton rfl⟩
      | false =>
        rw [completeLocked_waiting hi habandoned]
        exact ⟨[], (List.append_nil _).symm, discarded_nil⟩
  | takeDue =>
    obtain ⟨t, -, heq⟩ := takeDueLocked_eq config s
    rw [heq]
    exact ⟨[], (List.append_nil _).symm, discarded_nil⟩
  | handleTimer | handleSync | handleAsync | runDelayed | runAsync | runSync =>
    exact ⟨_, rfl, discarded_singleton rfl⟩
  | _ => exact ⟨[], (List.append_nil _).symm, discarded_nil⟩

theorem StopMove.discarded {timeUp : Bool} (hm : StopMove config s timeUp s') (h : s.Custody) :
    ∃ es, s'.log = s.log ++ es ∧ s'.Discarded es := by
  have hcustody := hm.custody
  cases hm with
  | dropDelayed =>
    refine ⟨_, rfl, fun e he j hj => ?_⟩
    obtain ⟨entry, hentry, rfl⟩ := List.mem_map.mp he
    obtain rfl : entry.call = j := Option.some.inj hj
    refine h.gone (Nat.le_refl _) ?_
    have hpos : 0 < (s.delayed.map DelayedTask.call).count entry.call :=
      List.count_pos_iff.mpr (List.mem_map_of_mem hentry)
    unfold share
    rw [(hcustody entry.call).2, count_tasks, count_tasks s]
    dsimp only
    rw [List.map_nil, List.count_nil]
    omega
  | finish => exact ⟨_, rfl, discarded_singleton rfl⟩
  | _ => exact ⟨[], (List.append_nil _).symm, discarded_nil⟩

/-! ## Every step -/

/-- **What the handler says of a task is so**, to its caller or to nobody. -/
structure Truthful (s : LosEventHandler) : Prop where
  turnedAway : ∀ (i : Nat) c ret, s.calls[i]? = some c → c.turnsAway ret →
    ret = .success ∨ c.GaveUp ret ∨ s.Gone i
  completing : ∀ drained i status, s.loop = .complete drained i status →
    status = .success ∨ s.Gone i
  done : ∀ (i : Nat) c, s.calls[i]? = some c → c.context.done = true →
    c.context.status = .success ∨ s.Gone i
  succeeded : ∀ (i : Nat) c taskId, s.calls[i]? = some c → c.Synchronous →
    c.outcome = some (.ret .success taskId) → .ran i ∈ s.log
  discarded : s.Discarded s.log

/-- A task that has not left its call, and is not kept by it any longer. -/
theorem gone_unposted (h : s.Custody) (hi : s.calls[i]? = some c) (hkept : c.keepsTask = true)
    (hgone : c'.keepsTask = false) : Gone { s with calls := s.calls.set i c' } i := by
  obtain ⟨hlt, -⟩ := List.getElem?_eq_some_iff.mp hi
  have honce : Agents.Once s.calls Call.keepsTask fun i =>
    s.tasks.count i + s.log.count (.ran i) := h
  have hnone : s.tasks.count i + s.log.count (.ran i) = 0 := honce.done_eq_zero hi hkept
  refine ⟨by simpa using hlt, ?_⟩
  unfold share
  dsimp only
  rw [Agents.getElem?_set_self c' hi, Option.elim_some, hgone, Bool.toNat_false, Nat.zero_add]
  exact hnone

theorem Truthful.call {b : Bool} (h : s.Truthful) (hinv : s.Inv config) (hcustody : s.Custody)
    (hanswered : s.Answered) (hi : s.calls[i]? = some c) (hm : CallMove config i s c s₁ c') :
    Truthful { s₁ with calls := s₁.calls.set i c' } := by
  have hmem := List.mem_of_getElem? hi
  have hmove : Move config s (.call i b) { s₁ with calls := s₁.calls.set i c' } := .call hi hm
  have hcalls : s₁.calls.set i c' = s.calls.set i c' := by rw [hm.frame.calls]
  obtain ⟨es, hlog, hes⟩ := hm.discarded hcustody hi
  have hkept : ∀ {e}, e ∈ s.log → e ∈ s₁.log := by
    intro e he
    rw [hlog]
    exact List.mem_append_left _ he
  refine ⟨fun j d ret hj haway => ?_, fun drained j status hpc => ?_, fun j d hj hdone => ?_,
    fun j d taskId hj hsync hout => ?_, ?_⟩
  · rw [hcalls] at hj
    rcases Agents.of_getElem?_set hj with ⟨rfl, rfl⟩ | ⟨-, hj⟩
    · by_cases hret : ret = .success
      · exact .inl hret
      right
      -- the call that moves turns away now, or did so before
      cases hm.reason (hinv.fits c hmem) (hinv.tidy c hmem) hret haway with
      | unposted hkeeps hgone hsame =>
        subst hsame
        exact .inr (gone_unposted hcustody hi hkeeps hgone)
      | known haway' hcontext =>
        rcases h.turnedAway j c ret hi haway' with hsuccess
          | ⟨⟨timeoutMs, hreq⟩, hleft, hcode⟩ | hgone
        · exact absurd hsuccess hret
        · exact .inl ⟨⟨timeoutMs, hm.request.trans hreq⟩, by rw [hcontext]; exact hleft, hcode⟩
        · exact .inr (hgone.move hmove)
      | answered hdone hstatus =>
        rcases h.done j c hi hdone with hsuccess | hgone
        · exact absurd (hstatus.symm.trans hsuccess) hret
        · exact .inr (hgone.move hmove)
      | gaveUp hleft => exact .inl hleft
    · exact (h.turnedAway j d ret hj haway).imp_right (Or.imp_right fun hgone => hgone.move hmove)
  · exact (h.completing drained j status (hm.frame.loop ▸ hpc)).imp_right fun hgone =>
      hgone.move hmove
  · rw [hcalls] at hj
    rcases Agents.of_getElem?_set hj with ⟨rfl, rfl⟩ | ⟨-, hj⟩
    · obtain ⟨hdone, hsame⟩ := hm.done hdone
      rw [hsame]
      exact (h.done j c hi hdone).imp_right fun hgone => hgone.move hmove
    · exact (h.done j d hj hdone).imp_right fun hgone => hgone.move hmove
  · rw [hcalls] at hj
    rcases Agents.of_getElem?_set hj with ⟨rfl, rfl⟩ | ⟨-, hj⟩
    · cases hpc : d.pc with
      | leaving outcome =>
        rw [Call.outcome, hpc] at hout
        rw [Option.some.inj hout] at hpc
        exact hm.leaving (hinv.tidy c hmem) hanswered hi hsync hpc
      | returned outcome =>
        obtain ⟨timeoutMs, hreq⟩ := hsync
        exact hkept (h.succeeded j c taskId hi ⟨timeoutMs, hm.request.symm.trans hreq⟩
          (hm.outcome_returned hpc ▸ hout))
      | _ => simp [Call.outcome, hpc] at hout
    · exact hkept (h.succeeded j d taskId hj hsync hout)
  · intro e he
    rcases List.mem_append.mp (show e ∈ s.log ++ es from hlog ▸ he) with he | he
    · exact fun j hj => (h.discarded e he j hj).move hmove
    · exact hes e he

/-- Where the loop answers nobody with an error, what was so stays so. -/
theorem Truthful.calm (h : s.Truthful) (hgone : ∀ i, s.Gone i → s'.Gone i)
    (hcalls : s'.calls = s.calls) {es : List HandlerEvent} (hlog : s'.log = s.log ++ es)
    (hes : s'.Discarded es) (hcompleting : ∀ drained i status,
      s'.loop = .complete drained i status →
      status = .success ∨ s'.Gone i) : s'.Truthful := by
  refine ⟨fun j d ret hj haway => ?_, hcompleting, fun j d hj hdone => ?_,
    fun j d taskId hj hsync hout => ?_, ?_⟩
  · rw [hcalls] at hj
    exact (h.turnedAway j d ret hj haway).imp_right (Or.imp_right (hgone j))
  · rw [hcalls] at hj
    exact (h.done j d hj hdone).imp_right (hgone j)
  · rw [hcalls] at hj
    rw [hlog]
    exact List.mem_append_left _ (h.succeeded j d taskId hj hsync hout)
  · rw [hlog]
    exact Discarded.append (fun e he j hj => hgone j (h.discarded e he j hj)) hes

/-- The loop answers with an error only for a message it has recycled. -/
theorem LoopMove.answers {drained : Bool} {status : RetCode} (hm : LoopMove config s s')
    (hpc' : s'.loop = .complete drained i status) :
    status = .success ∨ HandlerEvent.recycled (.syncCall i) ∈ s'.log := by
  cases hm with
  | runSync =>
    obtain ⟨-, -, rfl⟩ := LoopPc.complete.inj hpc'
    exact .inl rfl
  | recycleSync =>
    obtain ⟨-, rfl, -⟩ := LoopPc.complete.inj hpc'
    exact .inr (List.mem_append_right _ (List.mem_singleton_self _))
  | takeDue =>
    obtain ⟨t, -, heq⟩ := takeDueLocked_eq config s
    rw [heq] at hpc'
    cases hpc'
  | popNone =>
    dsimp only at hpc'
    split at hpc' <;> cases hpc'
  | dispatched =>
    dsimp only at hpc'
    split at hpc'
    · cases hpc'
    · split at hpc' <;> cases hpc'
  | @complete drained' | @recycleTimer drained' | @recycleAsync drained' =>
    cases drained' <;> cases hpc'
  | _ => cases hpc'

theorem Truthful.loop (h : s.Truthful) (hinv : s.Inv config) (hcustody : s.Custody)
    (hmove : Move config s .loop s') (hm : LoopMove config s s') : s'.Truthful := by
  have hgone : ∀ i, s.Gone i → s'.Gone i := fun i hi => hi.move hmove
  obtain ⟨es, hlog, hes⟩ := hm.discarded hcustody
  have hdiscarded : s'.Discarded s'.log := by
    rw [hlog]
    exact Discarded.append (fun e he j hj => hgone j (h.discarded e he j hj)) hes
  have hcompleting : ∀ drained i status, s'.loop = .complete drained i status →
      status = .success ∨ s'.Gone i :=
    fun drained i status hpc' => (hm.answers hpc').imp_right fun he => hdiscarded _ he i rfl
  by_cases hcomplete : ∃ drained i status, s.loop = .complete drained i status
  · obtain ⟨drained, i, status, hpc⟩ := hcomplete
    obtain ⟨c, hi, -, -⟩ := hinv.completing hpc
    have hcalls : s'.calls = s.calls.set i (c.completed status) := by
      cases hm <;> simp_all [completeLocked_calls]
    refine ⟨fun j d ret hj haway => ?_, hcompleting, fun j d hj hdone => ?_,
      fun j d taskId hj hsync hout => ?_, hdiscarded⟩
    · rw [hcalls] at hj
      rcases Agents.of_getElem?_set hj with ⟨rfl, rfl⟩ | ⟨-, hj⟩
      · exact (h.turnedAway j c ret hi haway).imp_right (Or.imp_right (hgone j))
      · exact (h.turnedAway j d ret hj haway).imp_right (Or.imp_right (hgone j))
    · rw [hcalls] at hj
      rcases Agents.of_getElem?_set hj with ⟨rfl, rfl⟩ | ⟨-, hj⟩
      · exact (h.completing drained j status hpc).imp_right (hgone j)
      · exact (h.done j d hj hdone).imp_right (hgone j)
    · rw [hlog]
      rw [hcalls] at hj
      rcases Agents.of_getElem?_set hj with ⟨rfl, rfl⟩ | ⟨-, hj⟩
      · exact List.mem_append_left _ (h.succeeded j c taskId hi hsync hout)
      · exact List.mem_append_left _ (h.succeeded j d taskId hj hsync hout)
  · have hne : ∀ drained i status, s.loop ≠ .complete drained i status :=
      fun drained i status hpc => hcomplete ⟨drained, i, status, hpc⟩
    exact h.calm hgone (hm.aside hne).1 hlog hes hcompleting

theorem Truthful.enter (h : s.Truthful) {request : HandlerRequest} {task : TelOsTaskId}
    (hcalls : s'.calls = s.calls ++ [({ request, task } : Call)]) (hlog : s'.log = s.log)
    (hloop : s'.loop = s.loop) (hgone : ∀ i, s.Gone i → s'.Gone i) : s'.Truthful := by
  have hnew : ∀ {j : Nat} {d : Call}, s'.calls[j]? = some d →
      d = ({ request, task } : Call) ∨ s.calls[j]? = some d := by
    intro j d hj
    rw [hcalls] at hj
    exact (Agents.of_getElem?_append hj).imp_left And.right
  refine ⟨fun j d ret hj haway => ?_, fun drained j status hpc => ?_, fun j d hj hdone => ?_,
    fun j d taskId hj hsync hout => ?_, fun e he j hj => ?_⟩
  · rcases hnew hj with rfl | hj
    · simp [Call.turnsAway, Call.outcome] at haway
    · exact (h.turnedAway j d ret hj haway).imp_right (Or.imp_right (hgone j))
  · rw [hloop] at hpc
    exact (h.completing drained j status hpc).imp_right (hgone j)
  · rcases hnew hj with rfl | hj
    · cases hdone
    · exact (h.done j d hj hdone).imp_right (hgone j)
  · rcases hnew hj with rfl | hj
    · cases hout
    · rw [hlog]
      exact h.succeeded j d taskId hj hsync hout
  · rw [hlog] at he
    exact hgone j (h.discarded e he j hj)

theorem Truthful.move (h : s.Truthful) (hinv : s.Inv config) (hcustody : s.Custody)
    (hanswered : s.Answered) (hm : Move config s a s') : s'.Truthful := by
  have hgone : ∀ i, s.Gone i → s'.Gone i := fun i hi => hi.move hm
  have hnone : s.log = s.log ++ [] := (List.append_nil _).symm
  have hsame : ∀ drained i status, s.loop = .complete drained i status →
      status = .success ∨ s'.Gone i :=
    fun drained i status hpc => (h.completing drained i status hpc).imp_right (hgone i)
  cases hm with
  | init =>
    obtain ⟨-, hcalls, -, -, -, hlog, -, hrest⟩ := initialized_frame config s
    refine h.calm hgone hcalls hlog (discarded_singleton rfl) fun drained i status hpc => ?_
    rcases hrest with ⟨-, hloop⟩ | ⟨-, -, hloop⟩
    · exact hsame drained i status (hloop ▸ hpc)
    · rw [hloop] at hpc
      cases hpc
  | invoke | expire => exact h.enter rfl rfl rfl hgone
  | call hi hm => exact h.call (b := false) hinv hcustody hanswered hi hm
  | loop hfree hm => exact h.loop hinv hcustody (.loop hfree hm) hm
  | receive =>
    exact h.calm hgone rfl hnone discarded_nil (by simp)
  | stop hm =>
    obtain ⟨es, hlog, hes⟩ := hm.discarded hcustody
    exact h.calm hgone hm.calls hlog hes (hm.loop ▸ hsame)
  | bindLoopTask | callStop | tick | nothing => exact h.calm hgone rfl hnone discarded_nil hsame

/-- **What the handler says of a task is so**, in every run. -/
theorem reachable_truthful (h : Reachable config s) : s.Truthful := by
  refine h.invariant_of (J := fun s => s.Inv config ∧ s.Custody ∧ s.Answered)
    (fun s hs => ⟨reachable_inv hs, reachable_custody hs, reachable_answered hs⟩) (fun s hs => ?_)
    fun s s' hknown hs hstep => ?_
  · subst hs
    exact ⟨by simp, by simp, by simp, by simp, discarded_nil⟩
  · obtain ⟨a, ha⟩ := hstep
    obtain ⟨hinv, hcustody, hanswered⟩ := hknown
    obtain ⟨me, -, rfl⟩ | ⟨l, hl, hm⟩ := step_cases ha
    · exact hs.calm (fun i hi => hi.step ha) rfl (List.append_nil _).symm discarded_nil
        fun drained i status hpc => (hs.completing drained i status hpc).imp_right fun hi =>
          hi.step ha
    · refine Truthful.move (s := { s with lock := l }) ?_ (hinv.locked hl) hcustody ?_ hm
      · exact hs.calm (fun i hi => ⟨hi.called, hi.share⟩) rfl (List.append_nil _).symm
          discarded_nil fun drained i status hpc =>
            (hs.completing drained i status hpc).imp_right fun hi => ⟨hi.called, hi.share⟩
      · exact ⟨hanswered.completing, hanswered.done, hanswered.leaving, hanswered.refused,
          hanswered.journal⟩

theorem count_ran_of_success {taskId : TelMiniTaskId} (h : Reachable config s)
    (hi : s.calls[i]? = some c) (hsync : c.Synchronous)
    (hpc : c.pc = .returned (.ret .success taskId)) : s.log.count (.ran i) = 1 := by
  have hran := (reachable_truthful h).succeeded i c taskId hi hsync (by rw [Call.outcome, hpc])
  have hle := (reachable_custody h).ran_le_one i
  have hpos := List.count_pos_iff.mpr hran
  omega

theorem gone_of_failure {taskId : TelMiniTaskId} (h : Reachable config s)
    (hi : s.calls[i]? = some c)
    (hpc : c.pc = .returned (.ret ret taskId)) (hret : ret ≠ .success) :
      c.GaveUp ret ∨ s.Gone i := by
  have haway : c.turnsAway ret := .inr ⟨taskId, by rw [Call.outcome, hpc]⟩
  exact ((reachable_truthful h).turnedAway i c ret hi haway).resolve_left hret

/-- **What a caller can tell** about its task from what the handler has returned or noted. -/
structure ReturnsTell (config : Config) (s : LosEventHandler) : Prop where
  /-- A synchronous call that returned success had its task run, once. -/
  success : ∀ (i : Nat) c taskId, s.calls[i]? = some c → c.Synchronous →
    c.pc = .returned (.ret .success taskId) → s.log.count (.ran i) = 1
  /-- The task of a call that returned an error never runs, unless its caller gave up a wait. -/
  failure : ∀ (i : Nat) c ret taskId, s.calls[i]? = some c → c.pc = .returned (.ret ret taskId) →
    ret ≠ .success → c.GaveUp ret ∨
      ∀ s', Relation.ReflTransGen (Steps config) s s' → .ran i ∉ s'.log
  /-- Nor does a task that was removed, dropped or recycled. -/
  discarded : ∀ e ∈ s.log, ∀ i ∈ e.discards,
    ∀ s', Relation.ReflTransGen (Steps config) s s' → .ran i ∉ s'.log

/-- **A return value tells what becomes of the task**, in every state of every run. -/
theorem returns_tell (h : Reachable config s) : s.ReturnsTell config := by
  refine ⟨fun i c taskId hi hsync hpc => count_ran_of_success h hi hsync hpc,
    fun i c ret taskId hi hpc hret => ?_, fun e he i hd s' hrun => ?_⟩
  · exact (gone_of_failure h hi hpc hret).imp_right fun hgone s' hrun => (hgone.later hrun).not_ran
  · exact (((reachable_truthful h).discarded e he i hd).later hrun).not_ran

/-- A delayed task is posted and removed. -/
def postsAndRemoves : List Act :=
  [.init true, .invoke (.postAsyncTask 20#32) 1] ++ List.replicate 5 (.call 0 true) ++
    .invoke (.removeAsyncTask 1#32) 1 :: List.replicate 5 (.call 1 true)

theorem returns_tell_removed :
    (({} : LosEventHandler).run? smallConfig postsAndRemoves).elim False fun s =>
      s.log = [.started, .returned 0 (.ret .success 1#32), .removed 0,
        .returned 1 (.removed true)] ∧
        s.ReturnsTell smallConfig := by
  have hrun : (({} : LosEventHandler).run? smallConfig postsAndRemoves).map log =
      some [.started, .returned 0 (.ret .success 1#32), .removed 0,
        .returned 1 (.removed true)] := by decide +kernel
  obtain ⟨s, hs, hlog⟩ := Option.map_eq_some_iff.mp hrun
  rw [hs]
  exact ⟨hlog, returns_tell (reachable_run (.start rfl) hs)⟩

end LosEventHandler

end CallManagerMini
