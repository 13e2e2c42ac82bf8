import CallManagerMini.MessageAccounts

/-! # What `Stop` accounts for

When `Stop` has brought a self-driven handler to an end, every post that was accepted is accounted
for: its message was dispatched or recycled, the table is empty, and no task is left to run in a
later life.  This holds in every run in which no call comes late (`stop_accounts`).  A poster that
has found the handler running and writes the ring only when the loop has drained it leaves its
message there, and `ReleaseObjects` clears the ring (`stop_loses_message`).
-/

namespace CallManagerMini

/-- It posts without a delay, or has waited at a slot: it has a message. -/
def HandlerRequest.Sends (log : List HandlerEvent) (i : Nat) : HandlerRequest → Prop
  | .postAsyncTask delayMs => delayMs = 0#32
  | .postSyncTask _ => ∃ k, .acquired i k ∈ log
  | _ => False

namespace LosEventHandler

variable {config : Config} {s s' s₁ : LosEventHandler} {i : Nat} {c c' : Call} {a : Act}

/-- **`Stop` has accounted for what was accepted.** -/
structure Accounted (s : LosEventHandler) : Prop where
  /-- The message of a post that returned success was dispatched or recycled, once. -/
  answered : s.state = .uninit → ∀ i c taskId, s.calls[i]? = some c →
    .returned i (.ret .success taskId) ∈ s.log → c.request.Sends s.log i →
    s.log.count (.dispatched (c.message i)) + s.log.count (.recycled (c.message i)) = 1
  table : s.state = .uninit → s.delayed = []
  /-- A task that was posted before `Stop` came to its end does not run behind it. -/
  settled : ∀ before after i outcome, s.log = before ++ .stopped :: after →
    .returned i outcome ∈ before → .ran i ∉ after

/-! ## Tasks of a life that is over -/

/-- The call `i` had returned when a `Stop` came to its end. -/
def Stale (log : List HandlerEvent) (i : Nat) : Prop :=
  ∃ before, before ++ [.stopped] <+: log ∧ ∃ outcome, .returned i outcome ∈ before

theorem stale_concat {log : List HandlerEvent} {e : HandlerEvent} :
    Stale (log ++ [e]) i ↔
      Stale log i ∨ (e = .stopped ∧ ∃ outcome, .returned i outcome ∈ log) := by
  constructor
  · rintro ⟨before, hprefix, hreturned⟩
    rcases List.prefix_concat_iff.mp hprefix with heq | hprefix
    · obtain ⟨rfl, hlast⟩ := List.append_inj' heq rfl
      exact .inr ⟨(List.singleton_inj.mp hlast).symm, hreturned⟩
    · exact .inl ⟨before, hprefix, hreturned⟩
  · rintro (⟨before, hprefix, hreturned⟩ | ⟨rfl, hreturned⟩)
    · exact ⟨before, hprefix.trans (List.prefix_append ..), hreturned⟩
    · exact ⟨log, List.prefix_refl _, hreturned⟩

/-- Only the end of a `Stop` makes tasks stale. -/
theorem Stale.of_append {log es : List HandlerEvent} (hes : ∀ e ∈ es, e ≠ .stopped)
    (h : Stale (log ++ es) i) : Stale log i := by
  induction es generalizing log with
  | nil => rwa [List.append_nil] at h
  | cons e es ih =>
    rw [← List.singleton_append, ← List.append_assoc] at h
    rcases stale_concat.mp (ih (fun f hf => hes f (List.mem_cons_of_mem _ hf)) h) with h | ⟨he, -⟩
    · exact h
    · exact absurd he (hes e (List.mem_cons_self ..))

theorem Stale.returned {log : List HandlerEvent} (h : Stale log i) :
    ∃ outcome, .returned i outcome ∈ log := by
  obtain ⟨before, hprefix, outcome, hreturned⟩ := h
  exact ⟨outcome, hprefix.subset (List.mem_append_left _ hreturned)⟩

/-- **The tasks of a life that is over are gone.** -/
structure Settled (s : LosEventHandler) : Prop where
  returned : ∀ i outcome, .returned i outcome ∈ s.log →
    ∃ c, s.calls[i]? = some c ∧ c.pc = .returned outcome
  gone : ∀ i, Stale s.log i → s.tasks.count i = 0
  journal : Journal.Justified (fun before e => ∀ i, e = .ran i → ¬Stale before i) s.log

/-- What a call notes of its task and its return. -/
theorem CallMove.notes (hm : CallMove config i s c s₁ c') : s₁.log = s.log ∨
    ∃ e, s₁.log = s.log ++ [e] ∧ e ≠ .stopped ∧
      (∀ j outcome, e = .returned j outcome → j = i ∧ c'.pc = .returned outcome) ∧
      ∀ j, e = .ran j → j = i ∧ c.pc = .inPlace := by
  cases hm with
  | acquire | freeSlot | settle | settleDone =>
    exact .inr ⟨_, rfl, by simp, by simp, by simp⟩
  | runInPlace hpc =>
    refine .inr ⟨_, rfl, by simp, by simp, fun j heq => ?_⟩
    exact ⟨(HandlerEvent.ran.inj heq).symm, hpc⟩
  | leave =>
    refine .inr ⟨_, rfl, by simp, fun j outcome heq => ?_, by simp⟩
    obtain ⟨rfl, rfl⟩ := HandlerEvent.returned.inj heq
    exact ⟨rfl, rfl⟩
  | insert =>
    obtain ⟨t, heq⟩ := enterDelayed_table config i _ s
    rw [heq]
    exact .inl rfl
  | @remove _ k =>
    rw [eraseDelayed_log]
    cases s.delayed[k]? with
    | none => exact .inl (List.append_nil _)
    | some entry => exact .inr ⟨_, rfl, by simp, by simp, by simp⟩
  | rearm =>
    obtain ⟨t, -, heq⟩ := startTimer_eq config (ticksToMs config.tickFreq 1#32) s
    rw [heq]
    exact .inl rfl
  | _ => exact .inl rfl

/-- A call that has returned does not move any more. -/
theorem CallMove.pc_ne_returned (hm : CallMove config i s c s₁ c') (outcome : Outcome) :
    c.pc ≠ .returned outcome := by
  cases hm <;> simp_all

/-- What the loop notes of the tasks it has. -/
theorem LoopMove.notes (hm : LoopMove config s s') : s'.log = s.log ∨
    ∃ e, s'.log = s.log ++ [e] ∧ e ≠ .stopped ∧ (∀ j outcome, e ≠ .returned j outcome) ∧
      ∀ j, e = .ran j → j ∈ s.loop.tasks := by
  cases hm with
  | @complete drained i status =>
    cases hi : s.calls[i]? with
    | none =>
      left
      simp only [completeLocked, hi]
    | some c =>
      cases habandoned : c.context.abandoned with
      | true =>
        rw [completeLocked_abandoned hi habandoned]
        exact .inr ⟨_, rfl, by simp, by simp, by simp⟩
      | false =>
        rw [completeLocked_waiting hi habandoned]
        exact .inl rfl
  | takeDue =>
    obtain ⟨t, -, heq⟩ := takeDueLocked_eq config s
    rw [heq]
    exact .inl rfl
  | runDelayed hpc | runAsync hpc | runSync hpc =>
    refine .inr ⟨_, rfl, by simp, by simp, fun j heq => ?_⟩
    rw [hpc, ← HandlerEvent.ran.inj heq]
    exact List.mem_cons_self ..
  | handleTimer | handleSync | handleAsync | recycleTimer | recycleSync | recycleAsync =>
    exact .inr ⟨_, rfl, by simp, by simp, by simp⟩
  | _ => exact .inl rfl

/-! ## Every step -/

/-- What is noted within a life justifies the tasks that run. -/
theorem justified_append {log es : List HandlerEvent}
    (h : Journal.Justified (fun before e => ∀ i, e = .ran i → ¬Stale before i) log)
    (hes : ∀ e ∈ es, e ≠ .stopped) (hran : ∀ i, .ran i ∈ es → ¬Stale log i) :
    Journal.Justified (fun before e => ∀ i, e = .ran i → ¬Stale before i) (log ++ es) := by
  induction es generalizing log with
  | nil => rwa [List.append_nil]
  | cons e es ih =>
    have he : ∀ f ∈ [e], f ≠ .stopped := by
      intro f hf
      rw [List.mem_singleton.mp hf]
      exact hes e (List.mem_cons_self ..)
    rw [← List.singleton_append, ← List.append_assoc]
    refine ih (h.concat fun i heq => ?_) (fun f hf => hes f (List.mem_cons_of_mem _ hf))
      fun i hi hstale => ?_
    · exact hran i (heq ▸ List.mem_cons_self ..)
    · exact hran i (List.mem_cons_of_mem _ hi) (hstale.of_append he)

/-- The life goes on: returned calls stay, and a stale task comes to no place. -/
theorem Settled.noted (h : s.Settled) (es : List HandlerEvent) (hlog : s'.log = s.log ++ es)
    (hes : ∀ e ∈ es, e ≠ .stopped)
    (hcalls : ∀ (i : Nat) c outcome, s.calls[i]? = some c → c.pc = .returned outcome →
      ∃ c', s'.calls[i]? = some c' ∧ c'.pc = .returned outcome)
    (hreturned : ∀ i outcome, .returned i outcome ∈ es →
      ∃ c, s'.calls[i]? = some c ∧ c.pc = .returned outcome)
    (hran : ∀ i, .ran i ∈ es → ¬Stale s.log i)
    (htasks : ∀ i, Stale s.log i → s'.tasks.count i + s'.log.count (.ran i) ≤
      s.tasks.count i + s.log.count (.ran i)) : s'.Settled := by
  refine ⟨fun i outcome hi => ?_, fun i hi => ?_, ?_⟩
  · rw [hlog] at hi
    rcases List.mem_append.mp hi with hi | hi
    · obtain ⟨c, hc, hpc⟩ := h.returned i outcome hi
      exact hcalls i c outcome hc hpc
    · exact hreturned i outcome hi
  · rw [hlog] at hi
    have hstale := hi.of_append hes
    have hgone := h.gone i hstale
    have hle := htasks i hstale
    rw [hlog, List.count_append] at hle
    omega
  · rw [hlog]
    exact justified_append h.journal hes hran

/-- The call of a stale task has returned. -/
theorem Settled.of_stale (h : s.Settled) (hi : Stale s.log i) :
    ∃ c outcome, s.calls[i]? = some c ∧ c.pc = .returned outcome := by
  obtain ⟨outcome, hreturned⟩ := hi.returned
  obtain ⟨c, hc, hpc⟩ := h.returned i outcome hreturned
  exact ⟨c, outcome, hc, hpc⟩

theorem Settled.call (h : s.Settled) (hi : s.calls[i]? = some c)
    (hm : CallMove config i s c s₁ c') : Settled { s₁ with calls := s₁.calls.set i c' } := by
  have hcalls : s₁.calls.set i c' = s.calls.set i c' := by rw [hm.frame.calls]
  have hlt := (List.getElem?_eq_some_iff.mp hi).1
  -- A call that has returned is not the one that moves.
  have hother : ∀ (j : Nat) d outcome, s.calls[j]? = some d → d.pc = .returned outcome → i ≠ j := by
    rintro j d outcome hj hpc rfl
    obtain rfl : c = d := Option.some.inj (hi.symm.trans hj)
    exact hm.pc_ne_returned outcome hpc
  have hstays : ∀ (j : Nat) d outcome, s.calls[j]? = some d → d.pc = .returned outcome →
      ∃ d', (s₁.calls.set i c')[j]? = some d' ∧ d'.pc = .returned outcome := by
    intro j d outcome hj hpc
    rw [hcalls, List.getElem?_set_ne (hother j d outcome hj hpc)]
    exact ⟨d, hj, hpc⟩
  have htasks : ∀ j, Stale s.log j → s₁.tasks.count j + s₁.log.count (.ran j) ≤
      s.tasks.count j + s.log.count (.ran j) := by
    intro j hj
    obtain ⟨d, outcome, hd, hpc⟩ := h.of_stale hj
    have hmove := hm.custody j
    rw [if_neg (hother j d outcome hd hpc), if_neg (hother j d outcome hd hpc)] at hmove
    omega
  rcases hm.notes with hlog | ⟨e, hlog, hne, hreturned, hran⟩
  · exact h.noted [] (hlog.trans (List.append_nil _).symm) (by simp) hstays (by simp) (by simp)
      htasks
  · refine h.noted [e] hlog ?_ hstays ?_ ?_ htasks
    · intro f hf
      rwa [List.mem_singleton.mp hf]
    · intro j outcome hj
      obtain ⟨rfl, hpc⟩ := hreturned j outcome (List.mem_singleton.mp hj).symm
      refine ⟨c', ?_, hpc⟩
      rw [hcalls, List.getElem?_set_self hlt]
    · rintro j hj hstale
      obtain ⟨rfl, -⟩ := hran j (List.mem_singleton.mp hj).symm
      obtain ⟨d, outcome, hd, hpc⟩ := h.of_stale hstale
      exact hother j d outcome hd hpc rfl

theorem Settled.loop (h : s.Settled) (hm : LoopMove config s s') : s'.Settled := by
  have hstays : ∀ (j : Nat) d outcome, s.calls[j]? = some d → d.pc = .returned outcome →
      ∃ d', s'.calls[j]? = some d' ∧ d'.pc = .returned outcome := by
    intro j d outcome hj hpc
    rcases hm.calls with hcalls | ⟨i, c, status, hi, hcalls⟩
    · exact ⟨d, hcalls ▸ hj, hpc⟩
    · rw [hcalls]
      by_cases hij : i = j
      · subst hij
        obtain rfl : c = d := Option.some.inj (hi.symm.trans hj)
        exact ⟨_, List.getElem?_set_self (List.getElem?_eq_some_iff.mp hi).1, hpc⟩
      · exact ⟨d, (List.getElem?_set_ne hij).trans hj, hpc⟩
  rcases hm.notes with hlog | ⟨e, hlog, hne, hreturned, hran⟩
  · exact h.noted [] (hlog.trans (List.append_nil _).symm) (by simp) hstays (by simp) (by simp)
      fun j _ => hm.custody j
  · refine h.noted [e] hlog ?_ hstays ?_ ?_ fun j _ => hm.custody j
    · intro f hf
      rwa [List.mem_singleton.mp hf]
    · intro j outcome hj
      exact absurd (List.mem_singleton.mp hj).symm (hreturned j outcome)
    · intro j hj hstale
      have hmem := hran j (List.mem_singleton.mp hj).symm
      have hzero := h.gone j hstale
      rw [count_tasks] at hzero
      have hpos := List.count_pos_iff.mpr hmem
      omega

/-- Nothing is noted, and the calls that have returned stay. -/
theorem Settled.calm (h : s.Settled) (hlog : s'.log = s.log)
    (hcalls : ∀ (i : Nat) c, s.calls[i]? = some c → s'.calls[i]? = some c)
    (htasks : ∀ i, s'.tasks.count i ≤ s.tasks.count i) : s'.Settled := by
  refine h.noted [] (hlog.trans (List.append_nil _).symm) (by simp) ?_ (by simp) (by simp)
    fun i _ => ?_
  · exact fun i c outcome hi hpc => ⟨c, hcalls i c hi, hpc⟩
  · rw [hlog]
    exact Nat.add_le_add_right (htasks i) _

/-- A self-driven handler whose loop has ended, and whose table `Stop` has emptied, has no tasks. -/
theorem Emptied.tasks_eq_nil (h : s.Emptied) (hloop : s.loop = .idle) (hdelayed : s.delayed = []) :
    s.tasks = [] := by
  rw [tasks, h.ring (by rw [hloop]; rfl), h.posted, hdelayed, hloop]
  rfl

/-- **The life ends**: every task that was posted in it becomes stale. -/
theorem Settled.finish (h : s.Settled) (htasks : s.tasks = []) :
    Settled ({ s with state := .uninit, stop := .idle }.note .stopped) := by
  refine ⟨fun i outcome hi => ?_, fun i _ => ?_, h.journal.concat (by simp)⟩
  · rcases List.mem_append.mp hi with hi | hi
    · exact h.returned i outcome hi
    · cases List.mem_singleton.mp hi
  · change s.tasks.count i = 0
    rw [htasks, List.count_nil]

theorem Settled.stop {timeUp : Bool} (h : s.Settled) (hinv : s.Inv config) (hemptied : s.Emptied)
    (hposter : config.poster = false) (hm : StopMove config s timeUp s') : s'.Settled := by
  have hcalls : ∀ (i : Nat) c, s.calls[i]? = some c → s'.calls[i]? = some c := by
    rw [hm.calls]
    exact fun _ _ => id
  have htasks : ∀ i, s'.tasks.count i ≤ s.tasks.count i := fun i => (hm.custody i).1
  have hquiet : s'.log = s.log → s'.Settled := fun hlog => h.calm hlog hcalls htasks
  have hran : ∀ i, s'.log.count (.ran i) = s.log.count (.ran i) := fun i => (hm.custody i).2
  cases hm with
  | dropDelayed =>
    refine h.noted _ rfl ?_ (fun i c outcome hi hpc => ⟨c, hi, hpc⟩) (by simp) (by simp)
      fun i _ => Nat.add_le_add (htasks i) (hran i).le
    intro e he
    obtain ⟨entry, -, rfl⟩ := List.mem_map.mp he
    simp
  | finish hpc =>
    have hstage := hinv.stage_eq (by rw [hpc]; simp)
    have hloop := hinv.noLoop (by rw [hstage, hpc]; decide) hposter
    exact h.finish (hemptied.tasks_eq_nil hloop (hemptied.table (.inl (by rw [hpc]; rfl))))
  | _ => exact hquiet rfl

/-- **A move of the system settles**, where `Stop` finds no tasks behind it. -/
theorem Settled.move (h : s.Settled) (hinv : s.Inv config) (hemptied : s.Emptied)
    (hposter : config.poster = false) (hm : Move config s a s') : s'.Settled := by
  cases hm with
  | init =>
    obtain ⟨-, hcalls, -, -, -, hlog, -⟩ := initialized_frame config s
    refine h.noted _ hlog (by simp) (fun i c outcome hi hpc => ⟨c, hcalls ▸ hi, hpc⟩) (by simp)
      (by simp) fun i _ => ?_
    have hran : (s.log ++ [HandlerEvent.started]).count (.ran i) = s.log.count (.ran i) := by simp
    rw [hlog, hran]
    exact Nat.add_le_add_right (count_initialized config s i) _
  | invoke | expire =>
    refine h.calm rfl (fun i c hi => ?_) fun _ => le_rfl
    rwa [List.getElem?_append_left (List.getElem?_eq_some_iff.mp hi).1]
  | call hi hm => exact h.call hi hm
  | loop _ hm => exact h.loop hm
  | bindLoopTask hdriven | receive hdriven =>
    rw [hposter] at hdriven
    cases hdriven
  | stop hm => exact h.stop hinv hemptied hposter hm
  | callStop | tick | nothing => exact ⟨h.returned, h.gone, h.journal⟩

theorem Settled.step (h : s.Settled) (hprompt : Prompt config s) (hposter : config.poster = false)
    (hstep : s.step? config a = some s') : s'.Settled := by
  have hemptied := prompt_emptied hprompt hposter
  obtain ⟨me, -, rfl⟩ | ⟨l, hl, hm⟩ := step_cases hstep
  · exact ⟨h.returned, h.gone, h.journal⟩
  · exact Settled.move (s := { s with lock := l }) ⟨h.returned, h.gone, h.journal⟩
      ((reachable_inv (Prompt.reachable hprompt)).locked hl)
      ⟨hemptied.ring, hemptied.posted, hemptied.table⟩ hposter hm

/-- **The tasks of a life that is over are gone**, in every run in which no call comes late. -/
theorem prompt_settled (h : Prompt config s) (hposter : config.poster = false) : s.Settled := by
  refine h.invariant_of (J := Prompt config) (fun _ => id) (fun s hs => ?_)
    fun s s' hprompt hs hstep => ?_
  · subst hs
    refine ⟨fun i outcome hi => ?_, fun i _ => rfl, Journal.justified_nil⟩
    simp at hi
  · obtain ⟨a, ha⟩ := hstep
    exact hs.step hprompt hposter (promptStep?_eq_some.mp ha).2

/-! ## What `Stop` has accounted for -/

/-- When the handler has come to its end, no message is under way. -/
theorem Emptied.unanswered_eq_zero (h : s.Emptied) (hinv : s.Inv config)
    (hposter : config.poster = false) (hstate : s.state = .uninit) (m : LosEventMessage) :
    s.unanswered m = 0 := by
  have hloop := hinv.noLoop (by simp [stage, hstate]) hposter
  rw [unanswered, h.ring (by rw [hloop]; rfl), h.posted, hloop]
  rfl

/-- The message of a call that returned success was answered, if it was sent. -/
theorem Delivered.answered_of_returned {taskId : TelMiniTaskId} (h : s.Delivered)
    (hi : s.calls[i]? = some c) (hpc : c.pc = .returned (.ret .success taskId))
    (hsends : c.request.Sends s.log i) (hnone : ∀ m, s.unanswered m = 0) :
    s.answered (c.message i) = 1 := by
  have hout : c.outcome = some (.ret .success taskId) := by rw [Call.outcome, hpc]
  cases hreq : c.request with
  | postAsyncTask delayMs =>
    rw [hreq] at hsends
    have hmessage : c.message i = .asyncTask i := by rw [Call.message, hreq]
    have honce := (h.once .asyncTask fun _ => rfl).done_le_one i
    have hsent := h.sent i c hi ⟨hreq.trans (congrArg _ hsends), .inr ⟨taskId, hout⟩⟩
    have hzero := hnone (.asyncTask i)
    rw [hmessage]
    omega
  | postSyncTask timeoutMs =>
    rw [hreq] at hsends
    obtain ⟨k, hacquired⟩ := hsends
    have hmessage : c.message i = .syncCall i := by rw [Call.message, hreq]
    have honce := (h.once .syncCall fun _ => rfl).done_le_one i
    have hdone : c.context.done = true := by
      by_contra hdone
      have hzero := h.aloof i c hi ⟨⟨timeoutMs, hreq⟩,
        .inr ⟨Bool.eq_false_iff.mpr hdone, taskId, hout⟩⟩
      exact List.countP_eq_zero.mp hzero _ hacquired (by simp [HandlerEvent.acquiredBy])
    have hanswered := h.done i c hi hdone
    rw [hmessage]
    omega
  | removeAsyncTask | onTimerExpired =>
    rw [hreq] at hsends
    exact hsends.elim

/-- A task that was posted before `Stop` came to its end does not run behind it. -/
theorem Settled.not_ran {before after : List HandlerEvent} {outcome : Outcome} (h : s.Settled)
    (hlog : s.log = before ++ .stopped :: after) (hreturned : .returned i outcome ∈ before) :
    .ran i ∉ after := by
  intro hran
  obtain ⟨between, rest, rfl⟩ := List.append_of_mem hran
  refine h.journal (before ++ .stopped :: between) (.ran i) rest ?_ i rfl
    ⟨before, ?_, outcome, hreturned⟩
  · rw [hlog, List.append_assoc, List.cons_append]
  · exact ⟨between, by rw [List.append_assoc, List.singleton_append]⟩

/-- **`Stop` accounts for what was accepted**, in every run of a self-driven handler in which no
call comes late. -/
theorem stop_accounts (h : Prompt config s) (hposter : config.poster = false) : s.Accounted := by
  have hinv := reachable_inv (Prompt.reachable h)
  have hemptied := prompt_emptied h hposter
  have hsettled := prompt_settled h hposter
  refine ⟨fun hstate i c taskId hi hreturned hsends => ?_,
    fun hstate => hemptied.table (.inr hstate),
    fun before after i outcome hlog hreturned => hsettled.not_ran hlog hreturned⟩
  obtain ⟨d, hd, hpc⟩ := hsettled.returned i _ hreturned
  obtain rfl : c = d := Option.some.inj (hi.symm.trans hd)
  exact (prompt_delivered h hposter).answered_of_returned hi hpc hsends
    (hemptied.unanswered_eq_zero hinv hposter hstate)

/-- Several steps in which no call comes late. -/
def promptRun? (config : Config) (as : List Act) (s : LosEventHandler) : Option LosEventHandler :=
  as.foldlM (fun s a => s.promptStep? config a) s

/-- `Stop` waits for the loop, which has the messages to recycle. -/
def stopWaits : List Act := .callStop 99 :: List.replicate 5 (.stop false)

/-- The loop has ended: `Stop` goes through its other waits and releases the objects. -/
def stopReleases : List Act := List.replicate 12 (.stop false)

/-- A task is posted, and `Stop` is called before the loop has taken it. -/
def postsThenStops : List Act :=
  [.init true, .invoke (.postAsyncTask 0#32) 10, .loop] ++ List.replicate 8 (.call 0 true) ++
    stopWaits ++ List.replicate 11 .loop ++ stopReleases

theorem stop_accounts_recycled :
    (promptRun? ringConfig postsThenStops {}).elim False fun s =>
      (s.state = .uninit ∧ s.log = [.started, .returned 0 (.ret .success 0#32),
        .recycled (.asyncTask 0), .stopped]) ∧ s.Accounted := by
  have hrun : (promptRun? ringConfig postsThenStops {}).map (fun s => decide (s.state = .uninit ∧
      s.log = [.started, .returned 0 (.ret .success 0#32), .recycled (.asyncTask 0), .stopped])) =
      some true := by decide +kernel
  obtain ⟨s, hs, hboth⟩ := Option.map_eq_some_iff.mp hrun
  rw [hs]
  exact ⟨of_decide_eq_true hboth, stop_accounts (Runs.Reachable.foldlM (.start rfl) hs) rfl⟩

/-- The poster has found the handler running, and writes the ring when the loop has ended. -/
def postsLate : List Act :=
  [.init true, .invoke (.postAsyncTask 0#32) 10, .loop] ++ List.replicate 4 (.call 0 true) ++
    stopWaits ++ List.replicate 7 .loop ++ List.replicate 4 (.call 0 true) ++ stopReleases

/-- **A message is lost** whose post has returned success. -/
theorem stop_loses_message : ¬∀ s, Reachable ringConfig s → s.Accounted := by
  intro hclaim
  have hrun : (({} : LosEventHandler).run? ringConfig postsLate).map (fun s =>
      decide (s.state = .uninit ∧ s.log = [.started, .returned 0 (.ret .success 0#32), .stopped] ∧
        s.calls[0]?.map Call.request = some (.postAsyncTask 0#32))) = some true := by
    decide +kernel
  obtain ⟨s, hs, hall⟩ := Option.map_eq_some_iff.mp hrun
  obtain ⟨hstate, hlog, hrequest⟩ := of_decide_eq_true hall
  obtain ⟨c, hc, hreq⟩ := Option.map_eq_some_iff.mp hrequest
  have hanswered := (hclaim s (reachable_run (.start rfl) hs)).answered hstate 0 c 0#32 hc
    (by simp [hlog]) (by rw [hreq]; rfl)
  have hmessage : c.message 0 = .asyncTask 0 := by rw [Call.message, hreq]
  rw [hlog, hmessage] at hanswered
  simp at hanswered

/-- The poster of a delayed task has found the handler running, and enters the task when `Stop` has
emptied the table; the handler is initialized again. -/
def delaysLate : List Act :=
  [.init true, .invoke (.postAsyncTask 10#32) 10, .loop] ++ List.replicate 2 (.call 0 true) ++
    stopWaits ++ List.replicate 3 (.call 0 true) ++ List.replicate 7 .loop ++ stopReleases ++
    [.init true]

/-- **A delayed task outlives `Stop`.** -/
theorem stop_leaves_delayed : ∃ s, Reachable ringConfig s ∧ s.state = .running ∧
    s.log = [.started, .returned 0 (.ret .success 1#32), .stopped, .started] ∧
    s.delayed.map DelayedTask.call = [0] := by
  have hrun : (({} : LosEventHandler).run? ringConfig delaysLate).map (fun s =>
      decide (s.state = .running ∧ s.log = [.started, .returned 0 (.ret .success 1#32), .stopped,
        .started] ∧ s.delayed.map DelayedTask.call = [0])) = some true := by decide +kernel
  obtain ⟨s, hs, hall⟩ := Option.map_eq_some_iff.mp hrun
  exact ⟨s, reachable_run (.start rfl) hs, of_decide_eq_true hall⟩

end LosEventHandler

end CallManagerMini
