import CallManagerMini.MessageOrder
import CallManagerMini.CallIds

/-! # The call manager on its loop

Applications wait for their operations, the threads of the stack report and go on, and protect tasks
become due: each of them posts a task to the event handler, and what the service does it does when
the loop runs the task.  Here the two are one system, with any number of callers at any of their
steps.  It is linearizable (`mainLoop_linearizable`): it goes through the states of a service that
is given the same work one piece after the other, and whoever is told that his operation was done
gets the code of that service, from a moment between his call and its return.
-/

namespace CallManagerMini

/-- The code with which the service answers an operation of an application. -/
def Input.code (env : Env) (s : CallManager) : Input → Option RetCode
  | .dialCall caller number extras =>
    some (CallManagerService.dialCall env caller number extras s).1
  | .answerCall callId videoState isRTT =>
    some (CallControlManager.answerCall env callId videoState isRTT s).1
  | .rejectCall callId rejectWithMessage =>
    some (CallControlManager.rejectCall env callId rejectWithMessage s).1
  | .hangUpCall callId => some (CallControlManager.hangUpCall env callId s).1
  | .holdCall callId => some (CallControlManager.holdCall env callId s).1
  | .unHoldCall callId => some (CallControlManager.unHoldCall env callId s).1
  | .switchCall callId => some (CallControlManager.switchCall env callId s).1
  | .endCall => some (CallControlManager.endCall env s).1
  | _ => none

/-- What the task of each call has the service do; `none` if it does not concern the service.  A
task that runs code of an application is of this kind: what that code asks for is a call of its own,
made on the loop. -/
abbrev Work := Nat → Option (Env × Input)

/-- The service, and what it has answered. -/
structure ServedCalls where
  service : CallManager := .init
  answers : List (Nat × Option RetCode) := []

namespace ServedCalls

/-- The task of the call `i` runs. -/
def serve (work : Work) (t : ServedCalls) (i : Nat) : ServedCalls :=
  match work i with
  | none => t
  | some (env, input) =>
    { service := (mainLoopStep env input t.service).2
      answers := t.answers ++ [(i, input.code env t.service)] }

/-- **The calls are served one after the other.** -/
def sequentially (work : Work) (calls : List Nat) : ServedCalls := calls.foldl (serve work) {}

variable {work : Work} {calls : List Nat} {i : Nat}

theorem sequentially_concat : sequentially work (calls ++ [i]) =
    (sequentially work calls).serve work i :=
  List.foldl_concat ..

theorem serve_reachable {t : ServedCalls} (h : Reachable t.service) :
    Reachable (t.serve work i).service := by
  unfold serve
  split
  · exact h
  next env input _ => exact h.next ⟨env, input, rfl⟩

theorem sequentially_reachable (work : Work) (calls : List Nat) :
    Reachable (sequentially work calls).service := by
  induction calls using List.reverseRecOn with
  | nil => exact .start rfl
  | append_singleton calls i ih =>
    rw [sequentially_concat]
    exact serve_reachable ih

/-- Answers are given to calls that were served. -/
theorem mem_of_answered {code : Option RetCode}
    (h : (i, code) ∈ (sequentially work calls).answers) :
    i ∈ calls := by
  induction calls using List.reverseRecOn with
  | nil => cases h
  | append_singleton calls j ih =>
    rw [sequentially_concat, serve] at h
    split at h
    · exact List.mem_append_left _ (ih h)
    · rcases List.mem_append.mp h with h | h
      · exact List.mem_append_left _ (ih h)
      · rw [List.mem_singleton] at h
        exact List.mem_append_right _ (List.mem_singleton.mpr (Prod.mk.inj h).1)

theorem answers_prefix (work : Work) (calls more : List Nat) :
    (sequentially work calls).answers <+: (sequentially work (calls ++ more)).answers := by
  induction more using List.reverseRecOn with
  | nil => rw [List.append_nil]
  | append_singleton more i ih =>
    rw [← List.append_assoc, sequentially_concat, serve]
    split
    · exact ih
    · exact ih.trans (List.prefix_append ..)

end ServedCalls

namespace LosEventHandler

variable {config : Config} {s s' : LosEventHandler} {a : Act}

/-- What was noted stays noted. -/
theorem Move.log (hm : Move config s a s') : s.log <+: s'.log := by
  have happend : ∀ {es}, s'.log = s.log ++ es → s.log <+: s'.log :=
    fun hlog => hlog ▸ List.prefix_append ..
  have hnoted : ∀ {P : HandlerEvent → Prop}, (s'.log = s.log ∨ ∃ e, s'.log = s.log ++ [e] ∧ P e) →
      s.log <+: s'.log := by
    rintro P (hlog | ⟨e, hlog, -⟩)
    · exact happend (hlog.trans (List.append_nil _).symm)
    · exact happend hlog
  cases hm with
  | init => exact happend (initialized_frame config s).2.2.2.2.2.1
  | call _ hm => exact hnoted hm.notes
  | loop _ hm => exact hnoted hm.notes
  | stop hm =>
    obtain ⟨es, hlog, -⟩ := hm.log
    exact happend hlog
  | invoke | expire | receive | bindLoopTask | callStop | tick | nothing =>
    exact happend (List.append_nil _).symm

theorem Steps.log (h : Steps config s s') : s.log <+: s'.log := by
  obtain ⟨a, ha⟩ := h
  obtain ⟨me, -, rfl⟩ | ⟨l, -, hm⟩ := step_cases ha
  · exact List.prefix_refl _
  · exact hm.log

/-- The tasks that have run. -/
def ran (s : LosEventHandler) : List Nat := s.log.filterMap HandlerEvent.ranTask

theorem mem_ran {i : Nat} : i ∈ s.ran ↔ .ran i ∈ s.log := by
  refine List.mem_filterMap.trans ⟨?_, fun hmem => ⟨_, hmem, rfl⟩⟩
  rintro ⟨e, he, hi⟩
  cases e with
  | ran j =>
    obtain rfl : j = i := Option.some.inj hi
    exact he
  | _ => cases hi

theorem count_ran (log : List HandlerEvent) (i : Nat) :
    (log.filterMap HandlerEvent.ranTask).count i = log.count (.ran i) := by
  induction log with
  | nil => rfl
  | cons e log ih =>
    cases e with
    | ran j =>
      rw [List.filterMap_cons]
      simp only [HandlerEvent.ranTask, List.count_cons, ih, beq_iff_eq, HandlerEvent.ran.injEq]
    | _ => simpa [List.filterMap_cons, HandlerEvent.ranTask, List.count_cons] using ih

theorem Custody.nodup_ran (h : s.Custody) : s.ran.Nodup :=
  List.nodup_iff_count_le_one.mpr fun i => (count_ran s.log i).trans_le (h.ran_le_one i)

end LosEventHandler

/-! ## The system -/

open LosEventHandler (Config Act)

/-- The event handler and the service. -/
structure MainLoopSystem where
  handler : LosEventHandler := {}
  served : ServedCalls := {}

namespace MainLoopSystem

variable {config : Config} {work : Work} {s s' : MainLoopSystem} {i j : Nat}

/-- **One step of the system**: one of the handler, with what the tasks do that run in it. -/
def step? (config : Config) (work : Work) (a : Act) (s : MainLoopSystem) : Option MainLoopSystem :=
  (s.handler.step? config a).map fun handler =>
    { handler
      served := ((handler.log.drop s.handler.log.length).filterMap
        HandlerEvent.ranTask).foldl (ServedCalls.serve work) s.served }

def Steps (config : Config) (work : Work) (s s' : MainLoopSystem) : Prop :=
  ∃ a, s.step? config work a = some s'

abbrev Reachable (config : Config) (work : Work) : MainLoopSystem → Prop :=
  Runs.Reachable (· = {}) (Steps config work)

/-- A later state of the same run. -/
abbrev Later (config : Config) (work : Work) : MainLoopSystem → MainLoopSystem → Prop :=
  Relation.ReflTransGen (Steps config work)

theorem Steps.handler (h : Steps config work s s') :
    LosEventHandler.Steps config s.handler s'.handler := by
  obtain ⟨a, ha⟩ := h
  obtain ⟨handler, hstep, rfl⟩ := Option.map_eq_some_iff.mp ha
  exact ⟨a, hstep⟩

theorem Reachable.handler (h : Reachable config work s) :
    LosEventHandler.Reachable config s.handler := by
  induction h with
  | start hs =>
    subst hs
    exact .start rfl
  | next _ hstep ih => exact ih.next hstep.handler

theorem Later.handler (h : Later config work s s') :
    Relation.ReflTransGen (LosEventHandler.Steps config) s.handler s'.handler := by
  induction h with
  | refl => exact .refl
  | tail _ hstep ih => exact ih.tail hstep.handler

theorem Later.ran (h : Later config work s s') : s.handler.ran <+: s'.handler.ran := by
  induction h with
  | refl => exact List.prefix_refl _
  | tail _ hstep ih => exact ih.trans (hstep.handler.log.filterMap _)

/-- **A step keeps to the sequential service.** -/
theorem Steps.served (h : Steps config work s s')
    (hserved : s.served = .sequentially work s.handler.ran) :
    s'.served = .sequentially work s'.handler.ran := by
  obtain ⟨es, hlog⟩ := h.handler.log
  obtain ⟨a, ha⟩ := h
  obtain ⟨handler, -, rfl⟩ := Option.map_eq_some_iff.mp ha
  dsimp only at hlog ⊢
  rw [LosEventHandler.ran, ← hlog, List.drop_left, List.filterMap_append, hserved]
  exact (List.foldl_append ..).symm

theorem reachable_served (h : Reachable config work s) :
    s.served = .sequentially work s.handler.ran := by
  induction h with
  | start hs =>
    subst hs
    rfl
  | next _ hstep ih => exact hstep.served ih

/-- Who has been told that his operation was done. -/
def Succeeded (s : MainLoopSystem) (i : Nat) : Prop :=
  ∃ c taskId, s.handler.calls[i]? = some c ∧ c.Synchronous ∧ c.pc = .returned (.ret .success taskId)

/-- Who has been told that it was not, and has not given up a wait. -/
def Failed (s : MainLoopSystem) (i : Nat) : Prop :=
  ∃ c ret taskId, s.handler.calls[i]? = some c ∧ c.pc = .returned (.ret ret taskId) ∧
    ret ≠ .success ∧ ¬c.GaveUp ret

/-- **The call manager is linearizable.** -/
structure Linearizable (config : Config) (work : Work) (s : MainLoopSystem) : Prop where
  /-- The service has come to where it comes to when the calls are served one after the other. -/
  sequential : s.served = .sequentially work s.handler.ran
  /-- So it is in a state that a run of its own reaches. -/
  reachable : CallManagerMini.Reachable s.served.service
  /-- No call is served twice. -/
  once : s.handler.ran.Nodup
  /-- Who succeeded was served, and the code he gets is the one of the sequential service. -/
  answered : ∀ i, s.Succeeded i → ∃ before after, s.handler.ran = before ++ i :: after ∧
    ∀ env input, work i = some (env, input) →
      (i, input.code env (ServedCalls.sequentially work before).service) ∈ s.served.answers
  /-- Who comes when somebody has succeeded is served behind him. -/
  realTime : ∀ i, s.Succeeded i → ∀ j, s.handler.calls.length ≤ j → ∀ s', Later config work s s' →
    ¬Line.Ahead j i s'.handler.ran
  /-- Who failed is not served, and never will be. -/
  failed : ∀ i, s.Failed i → ∀ s', Later config work s s' → ∀ code, (i, code) ∉ s'.served.answers

/-- **The call manager is linearizable**, whatever its callers do. -/
theorem mainLoop_linearizable (h : Reachable config work s) : s.Linearizable config work := by
  have hserved := reachable_served h
  have hran : ∀ {i}, s.Succeeded i → i ∈ s.handler.ran := by
    rintro i ⟨c, taskId, hi, hsync, hpc⟩
    have hcount := LosEventHandler.count_ran_of_success h.handler hi hsync hpc
    exact LosEventHandler.mem_ran.mpr (List.count_pos_iff.mp (by omega))
  have hlater : ∀ {s'}, Later config work s s' → Reachable config work s' := by
    intro s' hrun
    induction hrun with
    | refl => exact h
    | tail _ hstep ih => exact ih.next hstep
  refine
    { sequential := hserved
      reachable := by rw [hserved]; exact ServedCalls.sequentially_reachable work _
      once := (LosEventHandler.reachable_custody h.handler).nodup_ran
      answered := fun i hi => ?_
      realTime := fun i hi j hj s' hrun => ?_
      failed := fun i hi s' hrun code hcode => ?_ }
  · obtain ⟨before, after, hsplit⟩ := List.append_of_mem (hran hi)
    refine ⟨before, after, hsplit, fun env input hwork => ?_⟩
    rw [hserved, hsplit, List.append_cons]
    refine (ServedCalls.answers_prefix work (before ++ [i]) after).subset ?_
    rw [ServedCalls.sequentially_concat, ServedCalls.serve, hwork]
    exact List.mem_append_right _ (List.mem_singleton_self _)
  · have hnew : j ∉ s.handler.ran := by
      intro hmem
      have hpos := List.count_pos_iff.mpr (LosEventHandler.mem_ran.mp hmem)
      have honce := Agents.Once.lt_length (LosEventHandler.reachable_custody h.handler)
        (Nat.lt_of_lt_of_le hpos (Nat.le_add_left ..))
      omega
    have hnodup := (LosEventHandler.reachable_custody (hlater hrun).handler).nodup_ran
    obtain ⟨rest, hrest⟩ := hrun.ran
    rw [← hrest] at hnodup ⊢
    exact Line.not_ahead_of_prefix hnodup (hran hi) hnew
  · obtain ⟨c, ret, taskId, hc, hpc, hret, hwaits⟩ := hi
    have hgone := (LosEventHandler.gone_of_failure h.handler hc hpc hret).resolve_left hwaits
    rw [reachable_served (hlater hrun)] at hcode
    have hmem := ServedCalls.mem_of_answered hcode
    exact (hgone.later hrun.handler).not_ran (LosEventHandler.mem_ran.mp hmem)

/-- Several steps of the system. -/
def run? (config : Config) (work : Work) (as : List Act) : Option MainLoopSystem :=
  as.foldlM (fun s a => s.step? config work a) {}

/-- The stack reports a ringing call, and an application hangs it up. -/
def reportsAndHangsUp : Work := fun i =>
  if i = 0 then some (.obliging, .callReport (ringingReport 1))
  else some (.obliging, .hangUpCall 1)

/-- The report is posted and handled, and the operation is waited for. -/
def postsAndWaits : List Act :=
  [.init true, .invoke (.postAsyncTask 0#32) 1, .loop] ++ List.replicate 8 (.call 0 true) ++
    List.replicate 8 .loop ++ .invoke (.postSyncTask 20#32) 2 :: List.replicate 10 (.call 1 true) ++
    List.replicate 10 .loop ++ List.replicate 4 (.call 1 true)

theorem mainLoop_linearizable_hangUp :
    (run? LosEventHandler.ringConfig reportsAndHangsUp postsAndWaits).elim False fun s =>
      (s.handler.ran = [0, 1] ∧ s.served.answers = [(0, none), (1, some .success)]) ∧
        s.Linearizable LosEventHandler.ringConfig reportsAndHangsUp := by
  have hrun : (run? LosEventHandler.ringConfig reportsAndHangsUp postsAndWaits).map (fun s =>
      decide (s.handler.ran = [0, 1] ∧ s.served.answers = [(0, none), (1, some .success)])) =
      some true := by decide +kernel
  obtain ⟨s, hs, hboth⟩ := Option.map_eq_some_iff.mp hrun
  rw [hs]
  exact ⟨of_decide_eq_true hboth, mainLoop_linearizable (Runs.Reachable.foldlM (.start rfl) hs)⟩

end MainLoopSystem

end CallManagerMini
