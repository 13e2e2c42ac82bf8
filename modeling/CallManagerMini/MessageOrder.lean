import CallManagerMini.Lib.Line
import CallManagerMini.TaskOutcomes

/-! # The order in which tasks run

A task that is posted without a delay, or that its caller waits for off the loop, comes to the loop
by a message.  The tasks that have run and behind them those that are on their way form a line:
messages join it at its end, and only delayed tasks and those a caller runs on the loop itself come
into it at other places.  So nobody is overtaken by somebody who posts later (`posts_inOrder`),
provided the owner of an externally driven handler takes its messages in the order it got them.
-/

namespace CallManagerMini

/-- The task that ran. -/
def HandlerEvent.ranTask : HandlerEvent → Option Nat
  | .ran i => some i
  | _ => none

/-- Its task comes to the loop by a message. -/
def Call.Queued (config : LosEventHandler.Config) (c : Call) : Prop :=
  c.request = .postAsyncTask 0#32 ∨ (c.Synchronous ∧ c.task ≠ config.loopTask)

theorem Call.Queued.not_delayed {config : LosEventHandler.Config} {c : Call}
    (h : c.Queued config) : c.isDelayed = false := by
  unfold Call.isDelayed
  rcases h with hreq | ⟨⟨timeoutMs, hreq⟩, -⟩
  · rw [hreq]
    rfl
  · rw [hreq]

namespace LosEventHandler

variable {config : Config} {s s' s₁ : LosEventHandler} {i j k : Nat} {c c' : Call} {a : Act}

/-- **The line**: who has run, who is with the loop, and who waits for it. -/
def line (config : Config) (s : LosEventHandler) : List Nat :=
  s.log.filterMap HandlerEvent.ranTask ++
    (s.loop.tasks ++
      (if config.poster then s.posted else s.ring.toList).filterMap LosEventMessage.task)

/-- There is a call `k` whose task does not come to the loop by a message. -/
def Unqueued (config : Config) (s : LosEventHandler) (k : Nat) : Prop :=
  ∃ c, s.calls[k]? = some c ∧ ¬c.Queued config

/-- The call `k` has not handed on its task. -/
def Joining (s : LosEventHandler) (k : Nat) : Prop :=
  ∃ c, s.calls[k]? = some c ∧ c.keepsTask = true

/-- The tasks that are in the table, or that the loop has taken out of it. -/
def entries (s : LosEventHandler) : List Nat := s.delayed.map DelayedTask.call ++ s.loop.toRun

/-! ## Who comes to the loop without a message -/

theorem CallMove.task (hm : CallMove config i s c s₁ c') : c'.task = c.task := by
  cases hm <;> rfl

/-- Calls stay, with what they ask for and who made them. -/
theorem Move.calls (hm : Move config s a s') (hi : s.calls[i]? = some c) :
    ∃ c', s'.calls[i]? = some c' ∧ c'.request = c.request ∧ c'.task = c.task := by
  have hsame : s'.calls = s.calls →
      ∃ c', s'.calls[i]? = some c' ∧ c'.request = c.request ∧ c'.task = c.task :=
    fun hcalls => ⟨c, by rw [hcalls, hi], rfl, rfl⟩
  have hset : ∀ {k d d'}, s'.calls = s.calls.set k d' → s.calls[k]? = some d →
      d'.request = d.request → d'.task = d.task →
      ∃ c', s'.calls[i]? = some c' ∧ c'.request = c.request ∧ c'.task = c.task := by
    intro k d d' hcalls hk hreq htask
    rw [hcalls]
    by_cases hik : k = i
    · subst hik
      obtain rfl : d = c := Option.some.inj (hk.symm.trans hi)
      exact ⟨d', Agents.getElem?_set_self d' hk, hreq, htask⟩
    · exact ⟨c, by rw [List.getElem?_set_ne hik, hi], rfl, rfl⟩
  cases hm with
  | init => exact hsame (initialized_frame config s).2.1
  | invoke | expire => exact ⟨c, Agents.getElem?_append _ hi, rfl, rfl⟩
  | call hk hm => exact hset (by rw [hm.frame.calls]) hk hm.request hm.task
  | loop _ hm =>
    rcases hm.calls with hcalls | ⟨k, d, status, hk, hcalls⟩
    · exact hsame hcalls
    · exact hset hcalls hk rfl rfl
  | stop hm => exact hsame hm.calls
  | receive | bindLoopTask | callStop | tick | nothing => exact hsame rfl

theorem CallMove.entries (hm : CallMove config i s c s₁ c') (hdirect : c.Direct) :
    ∀ k ∈ s₁.entries, k ∈ s.entries ∨ (k = i ∧ c.isDelayed = true) := by
  cases hm with
  | @insert delayMs hpc =>
    have hdelayed : c.isDelayed = true := by simpa only [Call.Direct, hpc] using hdirect
    obtain ⟨t, heq⟩ := enterDelayed_table config i _ s
    rw [heq]
    intro k hk
    have hsplit := before_append_drop (s.tickCount + delayTicks config delayMs) s.delayed
    rcases List.mem_append.mp hk with hk | hk
    · obtain ⟨entry, hentry, rfl⟩ := List.mem_map.mp hk
      rcases List.mem_append.mp hentry with hentry | hentry
      · refine .inl (List.mem_append_left _ (List.mem_map_of_mem ?_))
        rw [← hsplit]
        exact List.mem_append_left _ hentry
      · rcases List.mem_cons.mp hentry with rfl | hentry
        · exact .inr ⟨rfl, hdelayed⟩
        · exact .inl (List.mem_append_left _ (List.mem_map_of_mem (List.mem_of_mem_drop hentry)))
    · exact .inl (List.mem_append_right _ hk)
  | remove =>
    obtain ⟨t, es, -, heq⟩ := eraseDelayed_eq config _ s
    rw [heq]
    intro k hk
    refine .inl (List.mem_append.mpr ((List.mem_append.mp hk).imp_left fun hk => ?_))
    obtain ⟨entry, hentry, rfl⟩ := List.mem_map.mp hk
    exact List.mem_map_of_mem (List.mem_of_mem_eraseIdx hentry)
  | rearm =>
    obtain ⟨t, -, heq⟩ := startTimer_eq config (ticksToMs config.tickFreq 1#32) s
    rw [heq]
    exact fun k hk => .inl hk
  | _ => exact fun k hk => .inl hk

theorem LoopMove.entries (hm : LoopMove config s s') : ∀ k ∈ s'.entries, k ∈ s.entries := by
  have hstay : s'.delayed = s.delayed → s'.loop.toRun = [] → ∀ k ∈ s'.entries, k ∈ s.entries := by
    intro hdelayed hloop k hk
    rw [LosEventHandler.entries, hdelayed, hloop, List.append_nil] at hk
    exact List.mem_append_left _ hk
  cases hm with
  | runDelayed hpc =>
    intro k hk
    refine List.mem_append.mpr ((List.mem_append.mp hk).imp_right fun hk => ?_)
    rw [hpc]
    exact List.mem_cons_of_mem _ hk
  | takeDue hpc =>
    obtain ⟨t, -, heq⟩ := takeDueLocked_eq config s
    rw [heq]
    intro k hk
    refine List.mem_append_left _ ?_
    rcases List.mem_append.mp hk with hk | hk
    · obtain ⟨entry, hentry, rfl⟩ := List.mem_map.mp hk
      exact List.mem_map_of_mem ((List.dropWhile_sublist _).subset hentry)
    · obtain ⟨entry, hentry, rfl⟩ := List.mem_map.mp hk
      exact List.mem_map_of_mem ((List.takeWhile_sublist _).subset hentry)
  | @complete drained i status =>
    obtain ⟨calls, inUse, sems, log, -, heq⟩ := completeLocked_eq i status s
    rw [heq] at hstay ⊢
    exact hstay rfl (by cases drained <;> rfl)
  | popNone =>
    refine hstay rfl ?_
    dsimp only
    split <;> rfl
  | dispatched =>
    refine hstay rfl ?_
    dsimp only
    split
    · rfl
    · split <;> rfl
  | @recycleTimer drained | @recycleAsync drained => exact hstay rfl (by cases drained <;> rfl)
  | _ => exact hstay rfl rfl

/-- **The tasks of the table are delayed ones, and those that run in place are of the loop.** -/
structure Apart (config : Config) (s : LosEventHandler) : Prop where
  entries : ∀ k ∈ s.entries, ∃ c, s.calls[k]? = some c ∧ c.isDelayed = true
  inPlace : ∀ c ∈ s.calls, c.pc = .inPlace → c.task = config.loopTask

/-- Where no entry comes and no call goes in place, nothing changes. -/
theorem Apart.calm (h : s.Apart config) (hm : Move config s a s')
    (hentries : ∀ k ∈ s'.entries, k ∈ s.entries)
    (hcalls : ∀ d ∈ s'.calls, d.pc = .inPlace → ∃ c ∈ s.calls, c.pc = .inPlace ∧ d.task = c.task) :
    s'.Apart config := by
  refine ⟨fun k hk => ?_, fun d hd hpc => ?_⟩
  · obtain ⟨c, hc, hdelayed⟩ := h.entries k (hentries k hk)
    obtain ⟨c', hc', hreq, -⟩ := hm.calls hc
    exact ⟨c', hc', by rw [← hdelayed, Call.isDelayed, Call.isDelayed, hreq]⟩
  · obtain ⟨c, hc, hpc, htask⟩ := hcalls d hd hpc
    exact htask.trans (h.inPlace c hc hpc)

/-- A call goes in place only on the loop. -/
theorem CallMove.inPlace (hm : CallMove config i s c s₁ c') (hpc' : c'.pc = .inPlace) :
    s.isOnLoop c'.task = true := by
  have henqueued : ∀ {ret} {P : Prop}, (c.goto (c.request.enqueued ret)).pc = .inPlace → P := by
    intro ret P heq
    unfold HandlerRequest.enqueued at heq
    cases hreq : c.request with
    | postSyncTask | onTimerExpired =>
      simp only [hreq] at heq
      split at heq <;> cases heq
    | postAsyncTask | removeAsyncTask =>
      simp only [hreq] at heq
      cases heq
  cases hm with
  | onLoop _ hon => exact hon
  | starve | enqueueStopped | post | postRefused | pushFull => exact henqueued hpc'
  | signal => exact henqueued hpc'
  | allow =>
    unfold HandlerRequest.admitted at hpc'
    cases hreq : c.request with
    | postAsyncTask | removeAsyncTask =>
      simp only [hreq] at hpc'
      split at hpc' <;> cases hpc'
    | _ =>
      rw [hreq] at hpc'
      cases hpc'
  | enqueue =>
    dsimp only at hpc'
    split at hpc' <;> cases hpc'
  | _ => cases hpc'

theorem Apart.call {b : Bool} (h : s.Apart config) (hinv : s.Inv config)
    (hdirect : ∀ c ∈ s.calls, c.Direct) (hi : s.calls[i]? = some c)
    (hm : CallMove config i s c s₁ c') :
    Apart config { s₁ with calls := s₁.calls.set i c' } := by
  have hmove : Move config s (.call i b) { s₁ with calls := s₁.calls.set i c' } := .call hi hm
  refine ⟨fun k hk => ?_, fun d hd hpc => ?_⟩
  · have hfound : ∃ c, s.calls[k]? = some c ∧ c.isDelayed = true := by
      rcases hm.entries (hdirect c (List.mem_of_getElem? hi)) k hk with hk | ⟨rfl, hdelayed⟩
      · exact h.entries k hk
      · exact ⟨c, hi, hdelayed⟩
    obtain ⟨d, hd, hdelayed⟩ := hfound
    obtain ⟨d', hd', hreq, -⟩ := hmove.calls hd
    exact ⟨d', hd', by rw [← hdelayed, Call.isDelayed, Call.isDelayed, hreq]⟩
  · have hcalls : s₁.calls.set i c' = s.calls.set i c' := by rw [hm.frame.calls]
    rcases List.mem_or_eq_of_mem_set (hcalls ▸ hd) with hd | rfl
    · exact h.inPlace d hd hpc
    · exact hinv.eq_loopTask (hm.inPlace hpc)

theorem Apart.move (h : s.Apart config) (hinv : s.Inv config) (hdirect : ∀ c ∈ s.calls, c.Direct)
    (hm : Move config s a s') : s'.Apart config := by
  have hmove := hm
  have hsame : s'.calls = s.calls → ∀ d ∈ s'.calls, d.pc = .inPlace →
      ∃ c ∈ s.calls, c.pc = .inPlace ∧ d.task = c.task :=
    fun hcalls d hd hpc => ⟨d, hcalls ▸ hd, hpc, rfl⟩
  cases hm with
  | init =>
    obtain ⟨-, hcalls, hdelayed, -, -, -, -, hrest⟩ := initialized_frame config s
    refine h.calm hmove (fun k hk => ?_) (hsame hcalls)
    rw [LosEventHandler.entries, hdelayed] at hk
    refine List.mem_append.mpr ((List.mem_append.mp hk).imp_right fun hk => ?_)
    rcases hrest with ⟨-, hloop⟩ | ⟨-, -, hloop⟩
    · exact hloop ▸ hk
    · rw [hloop] at hk
      cases hk
  | invoke | expire =>
    refine h.calm hmove (fun k hk => hk) fun d hd hpc => ?_
    rcases List.mem_append.mp hd with hd | hd
    · exact ⟨d, hd, hpc, rfl⟩
    · rw [List.mem_singleton.mp hd] at hpc
      cases hpc
  | call hi hm => exact h.call (b := false) hinv hdirect hi hm
  | loop _ hm =>
    refine h.calm hmove hm.entries fun d hd hpc => ?_
    rcases hm.calls with hcalls | ⟨k, c, status, hk, hcalls⟩
    · exact hsame hcalls d hd hpc
    · rcases List.mem_or_eq_of_mem_set (hcalls ▸ hd) with hd | rfl
      · exact ⟨d, hd, hpc, rfl⟩
      · exact ⟨c, List.mem_of_getElem? hk, hpc, rfl⟩
  | receive _ hidle =>
    refine h.calm hmove (fun k hk => ?_) (hsame rfl)
    rw [LosEventHandler.entries, hidle]
    exact hk
  | stop hm =>
    refine h.calm hmove (fun k hk => ?_) (hsame hm.calls)
    rw [LosEventHandler.entries, hm.loop] at hk
    refine List.mem_append.mpr ((List.mem_append.mp hk).imp_left fun hk => ?_)
    cases hm with
    | dropDelayed => cases hk
    | _ => exact hk
  | bindLoopTask | callStop | tick | nothing => exact h.calm hmove (fun k hk => hk) (hsame rfl)

theorem reachable_apart (h : Reachable config s) : s.Apart config := by
  refine h.invariant_of (J := fun s => s.Inv config ∧ ∀ c ∈ s.calls, c.Direct)
    (fun s hs => ⟨reachable_inv hs, reachable_direct hs⟩) (fun s hs => ?_)
    fun s s' hknown hs hstep => ?_
  · subst hs
    exact ⟨by simp [LosEventHandler.entries, LoopPc.toRun], by simp⟩
  · obtain ⟨a, ha⟩ := hstep
    obtain ⟨me, -, rfl⟩ | ⟨l, hl, hm⟩ := step_cases ha
    · exact ⟨hs.entries, hs.inPlace⟩
    · exact Apart.move (s := { s with lock := l }) ⟨hs.entries, hs.inPlace⟩ (hknown.1.locked hl)
        hknown.2 hm

/-! ## What a step does to the line -/

/-- A step keeps the line in order. -/
abbrev Shifts (config : Config) (s s' : LosEventHandler) : Prop :=
  Line.Shift (s.Unqueued config) s.Joining (s.line config) (s'.line config)

theorem line_eq (hlog : s'.log.filterMap HandlerEvent.ranTask =
      s.log.filterMap HandlerEvent.ranTask) (hloop : s'.loop.tasks = s.loop.tasks)
    (hring : s'.ring = s.ring) (hposted : s'.posted = s.posted) :
    s'.line config = s.line config := by
  rw [line, line, hlog, hloop, hring, hposted]

/-- An event that is no run. -/
theorem filterMap_ranTask {log : List HandlerEvent} {e : HandlerEvent} (he : e.ranTask = none) :
    (log ++ [e]).filterMap HandlerEvent.ranTask = log.filterMap HandlerEvent.ranTask := by
  rw [List.filterMap_append, List.filterMap_cons, he, List.filterMap_nil, List.append_nil]

theorem message_task_cases (i : Nat) (c : Call) :
    (c.message i).task.toList = [] ∨ (c.message i).task.toList = [i] := by
  unfold Call.message
  split
  · exact .inl rfl
  · exact .inr rfl
  · exact .inr rfl

/-- The call `i` puts its message behind those that wait. -/
theorem shifts_message (hi : s.calls[i]? = some c) (hkept : c.keepsTask = true)
    (hline : s₁.line config = s.line config ++ (c.message i).task.toList) : Shifts config s s₁ := by
  rcases message_task_cases i c with hnone | hself
  · rw [hnone, List.append_nil] at hline
    exact .same hline
  · rw [hself] at hline
    show Line.Shift _ _ _ (s₁.line config)
    rw [hline]
    exact .joins ⟨c, hi, hkept⟩

theorem filterMap_concat (messages : List LosEventMessage) (message : LosEventMessage) :
    (messages ++ [message]).filterMap LosEventMessage.task =
      messages.filterMap LosEventMessage.task ++ message.task.toList := by
  rw [List.filterMap_append, List.filterMap_cons]
  cases message.task <;> rfl

theorem CallMove.shifts (hm : CallMove config i s c s₁ c') (hi : s.calls[i]? = some c)
    (hfits : c.Fits config) (hinPlace : c.pc = .inPlace → c.task = config.loopTask) :
    Shifts config s s₁ := by
  cases hm with
  | push hpc hroom =>
    have hposter : config.poster = false := by simpa only [Call.Fits, hpc] using hfits
    refine shifts_message hi (by simp [Call.keepsTask, hpc]) ?_
    rw [line, line, hposter]
    simp only [Bool.false_eq_true, if_false, RingBuffer.toList_push, filterMap_concat,
      List.append_assoc]
  | post hpc =>
    have hposter : config.poster = true := by simpa only [Call.Fits, hpc] using hfits
    refine shifts_message hi (by simp [Call.keepsTask, hpc]) ?_
    rw [line, line, hposter]
    simp only [if_true, filterMap_concat, List.append_assoc]
  | runInPlace hpc =>
    have hsync : ∃ timeoutMs, c.request = .postSyncTask timeoutMs := by
      simpa only [Call.Fits, hpc] using hfits
    have hfree : s.Unqueued config i := by
      refine ⟨c, hi, ?_⟩
      rintro (hreq | ⟨-, htask⟩)
      · obtain ⟨timeoutMs, hsync⟩ := hsync
        rw [hreq] at hsync
        cases hsync
      · exact htask (hinPlace hpc)
    show Line.Shift _ _ _ ((s.note (.ran i)).line config)
    rw [line, line]
    simp only [note, List.filterMap_append]
    exact .pushesIn fun k hk => by
      obtain rfl := List.mem_singleton.mp hk
      exact hfree
  | insert =>
    obtain ⟨t, heq⟩ := enterDelayed_table config i _ s
    rw [heq]
    exact .same (line_eq rfl rfl rfl rfl)
  | @remove _ k =>
    obtain ⟨t, es, -, heq⟩ := eraseDelayed_eq config k s
    have hran : (s.eraseDelayed config k).log.filterMap HandlerEvent.ranTask =
        s.log.filterMap HandlerEvent.ranTask := by
      rw [eraseDelayed_log]
      cases s.delayed[k]? with
      | none => rw [Option.map_none, Option.toList_none, List.append_nil]
      | some entry => exact filterMap_ranTask rfl
    refine .same (line_eq hran ?_ ?_ ?_) <;> rw [heq]
  | rearm =>
    obtain ⟨t, -, heq⟩ := startTimer_eq config (ticksToMs config.tickFreq 1#32) s
    rw [heq]
    exact .same (line_eq rfl rfl rfl rfl)
  | acquire | freeSlot | settle | settleDone | leave =>
    exact .same (line_eq (filterMap_ranTask rfl) rfl rfl rfl)
  | _ => exact .same (line_eq rfl rfl rfl rfl)

/-- A message passes from those that wait to the loop. -/
theorem line_take {message : LosEventMessage} {rest : RingBuffer LosEventMessage}
    (hposter : config.poster = false) (hpop : s.ring.pop = some (message, rest))
    (hnone : s.loop.tasks = []) (hring : s'.ring = rest)
      (hloop : s'.loop.tasks = message.task.toList)
    (hlog : s'.log = s.log) : s'.line config = s.line config := by
  rw [line, line, hposter, hlog, hloop, hring, hnone, RingBuffer.toList_eq_cons hpop]
  simp only [Bool.false_eq_true, if_false, List.filterMap_cons, List.nil_append]
  cases message.task <;> rfl

/-- A task that was with the loop has run. -/
theorem line_run (hloop : s.loop.tasks = i :: s'.loop.tasks) (hlog : s'.log = s.log ++ [.ran i])
    (hring : s'.ring = s.ring) (hposted : s'.posted = s.posted) :
    s'.line config = s.line config := by
  rw [line, line, hlog, hloop, hring, hposted, List.filterMap_append]
  simp [HandlerEvent.ranTask]

theorem LoopMove.shifts (hm : LoopMove config s s') (hinv : s.Inv config)
    (hapart : s.Apart config) : Shifts config s s' := by
  have hself : ∀ {pc}, s.loop = pc → pc.external = false → config.poster = false := by
    intro pc hpc hnot
    by_contra hposter
    have hext := hinv.external (Bool.eq_true_of_not_eq_false hposter)
    rw [hpc, hnot] at hext
    cases hext
  have hrecycled : ∀ {message : LosEventMessage}, s'.log = s.log ++ [.recycled message] →
      s'.loop.tasks = [] → s'.ring = s.ring → s'.posted = s.posted → Shifts config s s' := by
    intro message hlog hloop hring hposted
    refine .less ?_
    rw [line, line, hlog, filterMap_ranTask rfl, hloop, hring, hposted, List.nil_append]
    exact (List.Sublist.refl _).append (List.sublist_append_right ..)
  cases hm with
  | pop hpc hpop => exact .same (line_take (hself hpc rfl) hpop (by rw [hpc]; rfl) rfl rfl rfl)
  | drain hpc hpop => exact .same (line_take (hself hpc rfl) hpop (by rw [hpc]; rfl) rfl rfl rfl)
  | runDelayed hpc => exact .same (line_run (by rw [hpc]; rfl) rfl rfl rfl)
  | runAsync hpc => exact .same (line_run (by rw [hpc]; rfl) rfl rfl rfl)
  | runSync hpc => exact .same (line_run (by rw [hpc]; rfl) rfl rfl rfl)
  | @recycleTimer drained => exact hrecycled rfl (by cases drained <;> rfl) rfl rfl
  | recycleSync hpc => exact hrecycled rfl rfl rfl rfl
  | @recycleAsync drained => exact hrecycled rfl (by cases drained <;> rfl) rfl rfl
  | takeDue hpc =>
    obtain ⟨t, -, heq⟩ := takeDueLocked_eq config s
    have hfree : ∀ k ∈ (s.delayed.takeWhile fun entry => isDue entry.dueTick s.tickCount).map
        DelayedTask.call, s.Unqueued config k := by
      intro k hk
      obtain ⟨entry, hentry, rfl⟩ := List.mem_map.mp hk
      obtain ⟨c, hc, hdelayed⟩ := hapart.entries entry.call
        (List.mem_append_left _ (List.mem_map_of_mem ((List.takeWhile_sublist _).subset hentry)))
      exact ⟨c, hc, fun hqueued => absurd hqueued.not_delayed (by rw [hdelayed]; simp)⟩
    show Line.Shift _ _ _ ((s.takeDueLocked config).line config)
    rw [heq, line, line, hpc]
    simp only [LoopPc.tasks, List.nil_append, ← List.append_assoc]
    exact .pushesIn hfree
  | @complete drained i status hpc =>
    have hran : (s.completeLocked i status).log.filterMap HandlerEvent.ranTask =
        s.log.filterMap HandlerEvent.ranTask := by
      cases hi : s.calls[i]? with
      | none => simp only [completeLocked, hi]
      | some c =>
        cases habandoned : c.context.abandoned with
        | true =>
          rw [completeLocked_abandoned hi habandoned]
          exact filterMap_ranTask rfl
        | false => rw [completeLocked_waiting hi habandoned]
    obtain ⟨calls, inUse, sems, log, -, heq⟩ := completeLocked_eq i status s
    rw [heq] at hran ⊢
    refine .same (line_eq hran ?_ rfl rfl)
    rw [hpc]
    cases drained <;> rfl
  | popNone hpc =>
    refine .same (line_eq rfl ?_ rfl rfl)
    rw [hpc]
    dsimp only
    split <;> rfl
  | dispatched hpc =>
    refine .same (line_eq rfl ?_ rfl rfl)
    rw [hpc]
    dsimp only
    split
    · rfl
    · split <;> rfl
  | handleTimer hpc | handleSync hpc | handleAsync hpc =>
    exact .same (line_eq (filterMap_ranTask rfl) (congrArg LoopPc.tasks hpc).symm rfl rfl)
  | bind hpc | wait hpc | dispatch hpc | allow hpc | refuse hpc | ranAll hpc | drainNone hpc
  | unbind hpc | exit hpc => exact .same (line_eq rfl (congrArg LoopPc.tasks hpc).symm rfl rfl)

theorem StopMove.shifts {timeUp : Bool} (hm : StopMove config s timeUp s') :
    Shifts config s s' := by
  cases hm with
  | dropDelayed =>
    refine .same (line_eq ?_ rfl rfl rfl)
    have hnone : (s.delayed.map fun entry => HandlerEvent.dropped entry.call).filterMap
        HandlerEvent.ranTask = [] := by simp [HandlerEvent.ranTask]
    dsimp only
    rw [List.filterMap_append, hnone, List.append_nil]
  | releaseQueue =>
    refine .less ?_
    rw [line, line]
    refine (List.Sublist.refl _).append ((List.Sublist.refl _).append (List.Sublist.filterMap _ ?_))
    dsimp only
    split
    · exact List.Sublist.refl _
    · exact List.nil_sublist _
  | finish => exact .same (line_eq (filterMap_ranTask rfl) rfl rfl rfl)
  | _ => exact .same (line_eq rfl rfl rfl rfl)

/-- The owner of an externally driven handler takes the messages in the order it got them. -/
def Act.orderly : Act → Bool
  | .receive k => k = 0
  | _ => true

/-- **A step of the system keeps the line in order.** -/
theorem Move.shifts (hm : Move config s a s') (horderly : a.orderly = true) (hinv : s.Inv config)
    (hapart : s.Apart config) : Shifts config s s' := by
  cases hm with
  | init =>
    obtain ⟨-, -, -, -, -, hlog, hposted, hrest⟩ := initialized_frame config s
    rcases hrest with ⟨hring, hloop⟩ | ⟨hposter, hring, hloop⟩
    · exact .same (line_eq (by rw [hlog, filterMap_ranTask rfl]) (by rw [hloop]) hring hposted)
    · refine .less ?_
      rw [line, line, hlog, filterMap_ranTask rfl, hloop, hring, hposter]
      exact (List.Sublist.refl _).append (List.nil_sublist _)
  | call hi hm =>
    have hmem := List.mem_of_getElem? hi
    exact hm.shifts hi (hinv.fits _ hmem) (hapart.inPlace _ hmem)
  | loop _ hm => exact hm.shifts hinv hapart
  | @receive k message hposter hidle hk =>
    obtain rfl : k = 0 := of_decide_eq_true horderly
    obtain ⟨rest, hposted⟩ : ∃ rest, s.posted = message :: rest := by
      cases hposted : s.posted with
      | nil =>
        rw [hposted] at hk
        cases hk
      | cons head rest =>
        rw [hposted] at hk
        exact ⟨rest, by rw [Option.some.inj hk]⟩
    refine .same ?_
    rw [line, line, hposted, hidle, hposter]
    simp only [if_true, LoopPc.tasks, List.eraseIdx_cons_zero, List.filterMap_cons,
      List.nil_append]
    cases message.task <;> rfl
  | stop hm => exact hm.shifts
  | invoke | expire | bindLoopTask | callStop | tick | nothing =>
    exact .same (line_eq rfl rfl rfl rfl)

/-! ## Runs -/

/-- A step in which the owner takes the message that came first. -/
def OrderlySteps (config : Config) (s s' : LosEventHandler) : Prop :=
  ∃ a : Act, a.orderly = true ∧ s.step? config a = some s'

theorem OrderlySteps.steps (h : OrderlySteps config s s') : Steps config s s' := by
  obtain ⟨a, -, ha⟩ := h
  exact ⟨a, ha⟩

/-- A call that has handed on its task does not take it back. -/
theorem CallMove.keepsTask (hm : CallMove config i s c s₁ c') (h : c.keepsTask = false) :
    c'.keepsTask = false := by
  cases hm.delivery with
  | sends _ hgone => exact hgone
  | silent hkept => exact Bool.eq_false_of_not_eq_true fun h' => by simp [hkept h'] at h

/-- It waits in the line, or it has run, or it does not come to the loop any more. -/
def HandedOn (config : Config) (s : LosEventHandler) (i : Nat) : Prop :=
  ∃ c, s.calls[i]? = some c ∧ c.Queued config ∧ c.keepsTask = false

theorem HandedOn.move (h : s.HandedOn config i) (hm : Move config s a s') :
    s'.HandedOn config i := by
  obtain ⟨c, hi, hqueued, hgone⟩ := h
  have hsame : s'.calls = s.calls → s'.HandedOn config i :=
    fun hcalls => ⟨c, by rw [hcalls, hi], hqueued, hgone⟩
  have hset : ∀ {k d d'}, s'.calls = s.calls.set k d' → s.calls[k]? = some d →
      d'.request = d.request → d'.task = d.task →
      (d.keepsTask = false → d'.keepsTask = false) → s'.HandedOn config i := by
    intro k d d' hcalls hk hreq htask hkept
    by_cases hik : k = i
    · subst hik
      obtain rfl : d = c := Option.some.inj (hk.symm.trans hi)
      refine ⟨d', by rw [hcalls]; exact Agents.getElem?_set_self d' hk, ?_, hkept hgone⟩
      rwa [Call.Queued, Call.Synchronous, hreq, htask]
    · exact ⟨c, by rw [hcalls, List.getElem?_set_ne hik, hi], hqueued, hgone⟩
  cases hm with
  | init => exact hsame (initialized_frame config s).2.1
  | invoke | expire => exact ⟨c, Agents.getElem?_append _ hi, hqueued, hgone⟩
  | call hk hm => exact hset (by rw [hm.frame.calls]) hk hm.request hm.task hm.keepsTask
  | loop _ hm =>
    rcases hm.calls with hcalls | ⟨k, d, status, hk, hcalls⟩
    · exact hsame hcalls
    · exact hset hcalls hk rfl rfl id
  | stop hm => exact hsame hm.calls
  | receive | bindLoopTask | callStop | tick | nothing => exact hsame rfl

/-- The call `j`, once it is there, has its task run by a message. -/
def WillQueue (config : Config) (s : LosEventHandler) (j : Nat) : Prop :=
  ∀ d, s.calls[j]? = some d → d.Queued config

/-- What a call asks for does not change. -/
theorem WillQueue.before (hj : s'.WillQueue config j) (hm : Move config s a s') :
    s.WillQueue config j := by
  intro d hd
  obtain ⟨d', hd', hreq, htask⟩ := hm.calls hd
  have hqueued := hj d' hd'
  rwa [Call.Queued, Call.Synchronous, hreq, htask] at hqueued

/-- The task of `i` is on its way, and that of `j` is not ahead of it. -/
structure First (config : Config) (i j : Nat) (s : LosEventHandler) : Prop where
  handedOn : s.HandedOn config i
  notAhead : ¬Line.Ahead j i (s.line config)

/-- **One step**: who has handed on a task is not overtaken. -/
theorem First.step (h : First config i j s) (hinv : s.Inv config) (hapart : s.Apart config)
    (hm : Move config s a s') (horderly : a.orderly = true) (hj : s'.WillQueue config j) :
    First config i j s' := by
  refine ⟨h.handedOn.move hm, (hm.shifts horderly hinv hapart).not_overtaken ?_ ?_ ?_ h.notAhead⟩
  · rintro ⟨d, hd, hfree⟩
    exact hfree (hj.before hm d hd)
  · obtain ⟨c, hc, hqueued, -⟩ := h.handedOn
    rintro ⟨d, hd, hfree⟩
    obtain rfl : c = d := Option.some.inj (hc.symm.trans hd)
    exact hfree hqueued
  · obtain ⟨c, hc, -, hgone⟩ := h.handedOn
    rintro ⟨d, hd, hkept⟩
    obtain rfl : c = d := Option.some.inj (hc.symm.trans hd)
    rw [hgone] at hkept
    cases hkept

/-- **Every run**: nor is he later. -/
theorem First.later (h : First config i j s) (hs : Reachable config s)
    (hrun : Relation.ReflTransGen (OrderlySteps config) s s') (hj : s'.WillQueue config j) :
    First config i j s' := by
  suffices Reachable config s' ∧ (s'.WillQueue config j → First config i j s') from this.2 hj
  clear hj
  induction hrun with
  | refl => exact ⟨hs, fun _ => h⟩
  | @tail s₁ s' _ hstep ih =>
    obtain ⟨hs₁, hfirst⟩ := ih
    refine ⟨hs₁.next hstep.steps, fun hj => ?_⟩
    obtain ⟨a, horderly, ha⟩ := hstep
    obtain ⟨me, -, rfl⟩ | ⟨l, hl, hm⟩ := step_cases ha
    · obtain ⟨hhanded, hnot⟩ := hfirst hj
      exact ⟨hhanded, hnot⟩
    · have hbefore : s₁.WillQueue config j := WillQueue.before (s := { s₁ with lock := l }) hj hm
      obtain ⟨hhanded, hnot⟩ := hfirst hbefore
      have hapart := reachable_apart hs₁
      exact First.step (s := { s₁ with lock := l }) ⟨hhanded, hnot⟩ ((reachable_inv hs₁).locked hl)
        ⟨hapart.entries, hapart.inPlace⟩ hm horderly hj

/-- A call that was not made yet has nobody waiting. -/
theorem Custody.not_ahead (h : s.Custody) (hj : s.calls.length ≤ j) :
    ¬Line.Ahead j i (s.line config) := by
  intro hahead
  have hmem : j ∈ s.line config := hahead.subset (List.mem_cons_self ..)
  have hshare := h.share_le j
  rw [if_neg (by omega)] at hshare
  unfold share at hshare
  rw [count_tasks] at hshare
  rcases List.mem_append.mp hmem with hran | hmem
  · obtain ⟨e, he, hej⟩ := List.mem_filterMap.mp hran
    have hran : HandlerEvent.ran j ∈ s.log := by
      cases e <;> simp_all [HandlerEvent.ranTask]
    have := List.count_pos_iff.mpr hran
    omega
  · rcases List.mem_append.mp hmem with hloop | hwait
    · have := List.count_pos_iff.mpr hloop
      omega
    · have := List.count_pos_iff.mpr hwait
      split at this <;> omega

/-- **Tasks run in the order in which they were posted**: if a call has returned before another one
is made, and both have their tasks run by a message, the task of the second never runs before that
of the first, in any run in which the owner of an externally driven handler takes the messages as
they come. -/
theorem posts_inOrder (h : Reachable config s) (hi : s.calls[i]? = some c)
    (hqueued : c.Queued config) {outcome : Outcome} (hreturned : c.pc = .returned outcome)
    (hj : s.calls.length ≤ j) (hrun : Relation.ReflTransGen (OrderlySteps config) s s')
    (hlater : s'.calls[j]? = some c') (hqueued' : c'.Queued config) :
    ¬List.Sublist [.ran j, .ran i] s'.log := by
  have hkeeps : c.keepsTask = false := by simp [Call.keepsTask, hreturned]
  have hfirst : First config i j s :=
    ⟨⟨c, hi, hqueued, hkeeps⟩, (reachable_custody h).not_ahead hj⟩
  have hnot := hfirst.later h hrun fun d hd => by
    obtain rfl : c' = d := Option.some.inj (hlater.symm.trans hd)
    exact hqueued'
  intro hlog
  exact hnot.notAhead ((hlog.filterMap HandlerEvent.ranTask).trans (List.sublist_append_left ..))

theorem orderly_run {as : List Act} (has : as.all Act.orderly = true)
    (h : s.run? config as = some s') : Relation.ReflTransGen (OrderlySteps config) s s' := by
  induction as generalizing s with
  | nil =>
    obtain rfl := Option.some.inj h
    exact .refl
  | cons a as ih =>
    obtain ⟨ha, has⟩ := Bool.and_eq_true_iff.mp has
    obtain ⟨s₁, hstep, hrest⟩ := Option.bind_eq_some_iff.mp h
    exact .head ⟨a, ha, hstep⟩ (ih has hrest)

/-- A task is posted. -/
def firstPost : List Act :=
  [.init true, .invoke (.postAsyncTask 0#32) 10, .loop] ++ List.replicate 8 (.call 0 true)

/-- Another one is posted, and both run. -/
def secondPost : List Act :=
  .invoke (.postAsyncTask 0#32) 11 :: List.replicate 8 (.call 1 true) ++ List.replicate 16 .loop

theorem posts_inOrder_two :
    ((({} : LosEventHandler).run? ringConfig firstPost).bind fun s =>
      s.run? ringConfig secondPost).elim False fun s' =>
        s'.log.filterMap HandlerEvent.ranTask = [0, 1] ∧
          ¬List.Sublist [.ran 1, .ran 0] s'.log := by
  have hrun : ((({} : LosEventHandler).run? ringConfig firstPost).bind fun s =>
      (s.run? ringConfig secondPost).map fun s' => decide (
        s.calls.map (fun c => (c.request, c.pc)) =
          [(.postAsyncTask 0#32, .returned (.ret .success 0#32))] ∧
        s'.calls.map Call.request = [.postAsyncTask 0#32, .postAsyncTask 0#32] ∧
        s'.log.filterMap HandlerEvent.ranTask = [0, 1])) = some true := by decide +kernel
  obtain ⟨s, hs, hrun⟩ := Option.bind_eq_some_iff.mp hrun
  obtain ⟨s', hs', hboth⟩ := Option.map_eq_some_iff.mp hrun
  obtain ⟨hcalls, hcalls', hran⟩ := of_decide_eq_true hboth
  rw [hs, Option.bind_some, hs']
  refine ⟨hran, ?_⟩
  obtain ⟨c, hc, hcall⟩ : ∃ c, s.calls[0]? = some c ∧
      (c.request, c.pc) = (.postAsyncTask 0#32, .returned (.ret .success 0#32)) := by
    rw [← Option.map_eq_some_iff, ← List.getElem?_map, hcalls]
    rfl
  obtain ⟨d, hd, hrequest⟩ : ∃ d, s'.calls[1]? = some d ∧ d.request = .postAsyncTask 0#32 := by
    rw [← Option.map_eq_some_iff, ← List.getElem?_map, hcalls']
    rfl
  have hlength : s.calls.length = 1 := by simpa using congrArg List.length hcalls
  obtain ⟨hreq, hpc⟩ := Prod.mk.inj hcall
  exact posts_inOrder (reachable_run (.start rfl) hs) hc (.inl hreq) hpc hlength.le
    (orderly_run (by decide) hs') hd (.inl hrequest)

end LosEventHandler

end CallManagerMini
