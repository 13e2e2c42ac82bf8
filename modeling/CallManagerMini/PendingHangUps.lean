import CallManagerMini.DelayedTasks

/-! # Pending hang-ups

A dialed call that the network has not numbered yet is hung up as soon as it has: until then
its hang-up is pending, and a delayed task ends the call if nothing is heard of it.  The
service has one flag, one call id and one task id for this, so it keeps track of one such
call.  With a second one, an emergency dial that is hung up as well, the flag moves on to the
new call while the task stays with the old one, and nothing will end the new call.  And the
task ends a call by its place: of two calls of one slot without an index it ends the one that
was dialed first.

As long as no pending dial is hung up while the task of another call is scheduled, and a task
finds its own call at its call's place, every call with a pending hang-up has its task, and
the task ends it (`guardKeeping_guards`).
-/

namespace CallManagerMini

open Prog (Post Moves)

variable {s s' : CallManager} {env : Env} {U : Int → Prop}

/-! ## Hanging up a pending dial -/

/-- The call with this id, if `HangUpCall` leaves its hang-up pending. -/
def pendingOf (s : CallManager) (callId : Int) : Option Int :=
  if callId ≠ invalidCallId ∧ hangUpPolicy s callId = .success ∧
      s.helper.hasPendingMo callId = true then some callId
  else none

/-- The call whose hang-up `HangUpCall` leaves pending. -/
def hangUpPending (s : CallManager) (callId : Int) : Option Int :=
  pendingOf s (if callId = invalidCallId then
    CallControlManager.firstCallIn s [.active, .dialing, .connecting, .hold] else callId)

/-- The call whose hang-up the loop of `EndCall` leaves pending. -/
def endPending (s : CallManager) : List CallRunningState → Option Int
  | [] => none
  | state :: states =>
    match getOneCallObjectByState s state with
    | none => endPending s states
    | some p =>
      if (s.call p).callId = invalidCallId then endPending s states
      else if state = .ringing then none
      else hangUpPending s (s.call p).callId

/-- The call whose hang-up a step leaves pending. -/
def Input.pendingHangUp (s : CallManager) : Input → Option Int
  | .hangUpCall callId => hangUpPending s callId
  | .endCall => endPending s [.active, .ringing, .dialing, .connecting, .hold]
  | _ => none

/-- Scheduling the task of a call whose hang-up is left pending fails. -/
def ScheduleFails (env : Env) (s : CallManager) : Prop :=
  s.pendingHangupTaskId = 0 ∧ env.post s.log ≠ .success

instance (env : Env) (s : CallManager) : Decidable (ScheduleFails env s) :=
  inferInstanceAs (Decidable (_ ∧ _))

/-- The tasks that end calls are those of the call. -/
def OnlyTaskOf (s : CallManager) (callId : Int) : Prop :=
  ∀ t ∈ s.delayed, t.2 = .restoreDialingFlag ∨ t.2 = .pendingHangupProtect callId

instance (s : CallManager) (callId : Int) : Decidable (OnlyTaskOf s callId) :=
  inferInstanceAs (Decidable (∀ t ∈ s.delayed, _))

theorem CallManager.Guarded.mono {U U' : Int → Prop} (h : s.Guarded U) (hU : ∀ c, U c → U' c) :
    s.Guarded U' := fun c hc => (h c hc).imp (hU c) id

/-- The flag moves to the call, and its task is posted unless there is one already. -/
theorem leavePending_guarded (env : Env) {callId : Int} (ht : s.TasksFit)
    (honly : OnlyTaskOf s callId) :
    Post (do
      setPendingMo false (-1)
      setPendingHangup true callId
      CallControlManager.postPendingHangupProtectTask env callId
      pure .success : Prog CallManager RetCode) s fun _ s' =>
        s'.Guarded fun c => c = callId ∧ ScheduleFails env s := by
  have hflag : ∀ c, ({ s.helper with
      pendingMo := false, pendingMoCallId := -1, pendingHangup := true
      pendingHangupCallId := callId } : CallRequestEventHandlerHelper).hasPendingHangup c = true →
      c = callId := by
    intro c hc
    simpa [CallRequestEventHandlerHelper.hasPendingHangup, eq_comm] using hc
  refine Post.bind_modify (Post.bind_modify (Post.bind ?_ fun _ _ h => h))
  refine Post.bind_gets (Post.when (fun hnone => ?_) fun hsome => ?_)
  · rw [Post, Prog.bind_apply, postDelayed]
    dsimp only
    split
    · intro c hc
      rw [hflag c hc]
      exact .inr (List.mem_append_right _ List.mem_cons_self)
    · next hpost => exact fun c hc => .inl ⟨hflag c hc, hnone, hpost⟩
  · intro c hc
    obtain ⟨callId', hmem⟩ := ht.protecting hsome
    rw [hflag c hc]
    rcases honly _ hmem with heq | heq
    · cases heq
    · exact .inr (heq ▸ hmem)

/-- `HangUpCall`. -/
theorem hangUpCall_guarded (env : Env) (callId : Int) (ht : s.TasksFit) (hg : s.Guarded U)
    (honly : ∀ c, hangUpPending s callId = some c → OnlyTaskOf s c) :
    Post (CallControlManager.hangUpCall env callId) s fun _ s' => s'.Guarded fun c =>
      U c ∨ hangUpPending s callId = some c ∧ ScheduleFails env s := by
  unfold hangUpPending at honly ⊢
  refine Post.bind_gets ?_
  generalize (if callId = invalidCallId then
    CallControlManager.firstCallIn s [.active, .dialing, .connecting, .hold] else callId) = callId
    at honly ⊢
  have hkept : s.Guarded fun c => U c ∨ pendingOf s callId = some c ∧ ScheduleFails env s :=
    hg.mono fun _ => Or.inl
  refine Post.ite (fun _ => hkept) fun hvalid => Post.bind_gets (Post.ite (fun _ => hkept)
    fun hpol => Post.bind_gets (Post.ite (fun hmo => ?_) fun _ => ?_))
  · have hcall : pendingOf s callId = some callId := if_pos ⟨hvalid, not_not.mp hpol, hmo⟩
    refine Post.mono (leavePending_guarded env ht (honly callId hcall)) fun _ _ h => h.mono ?_
    rintro c ⟨rfl, hfails⟩
    exact .inr ⟨hcall, hfails⟩
  · exact (Moves.rel (R := Timely _) (m := postRequest env (.hangUp callId)) s).guarded ht hkept

/-- The loop of `EndCall`. -/
theorem endFirstCall_guarded (env : Env) (ht : s.TasksFit) (hg : s.Guarded U)
    (states : List CallRunningState)
    (honly : ∀ c, endPending s states = some c → OnlyTaskOf s c) :
    Post (CallControlManager.endFirstCall env states) s fun _ s' => s'.Guarded fun c =>
      U c ∨ endPending s states = some c ∧ ScheduleFails env s := by
  induction states with
  | nil => exact hg.mono fun c => Or.inl
  | cons state states ih =>
    unfold endPending at honly ⊢
    refine Post.bind_gets ?_
    cases hcall : getOneCallObjectByState s state with
    | none =>
      simp only [hcall] at honly ⊢
      exact ih honly
    | some p =>
      simp only [hcall] at honly ⊢
      refine Post.bind_gets ?_
      by_cases hinvalid : (s.call p).callId = invalidCallId
      · simp only [if_pos hinvalid] at honly ⊢
        exact ih honly
      simp only [if_neg hinvalid] at honly ⊢
      by_cases hring : state = .ringing
      · simp only [if_pos hring]
        have hkept : s.Guarded fun c => U c ∨ none = some c ∧ ScheduleFails env s :=
          hg.mono fun c => Or.inl
        exact (Moves.rel (R := Timely _)
          (m := CallControlManager.rejectCall env (s.call p).callId false) s).guarded ht hkept
      · simp only [if_neg hring] at honly ⊢
        exact hangUpCall_guarded env (s.call p).callId ht hg honly

/-! ## Expiry -/

theorem find?_task (ht : s.TasksFit) {taskId : Nat} {task : DelayedTask}
    (hmem : (taskId, task) ∈ s.delayed) :
    s.delayed.find? (fun t => t.1 = taskId) = some (taskId, task) := by
  obtain ⟨t, hfound⟩ := Option.isSome_iff_exists.mp
    (List.find?_isSome.mpr ⟨_, hmem, by simp⟩ :
      (s.delayed.find? fun t => t.1 = taskId).isSome)
  have hid : t.1 = taskId := by simpa using List.find?_some hfound
  rw [hfound, ht.eq_of_id (List.mem_of_find?_eq_some hfound) hmem hid]

/-- The call's hang-up is not pending any more. -/
theorem endUnanswered_off (env : Env) {callId : Int}
    (hflag : s.helper.hasPendingHangup callId = true) :
    Post (endUnanswered env callId) s fun _ s' => s'.helper.pendingHangup = false := by
  refine Post.bind_gets (Post.when (fun _ => ?_) fun hno => absurd hflag hno)
  exact Post.bind_gets (Post.bind (Q := fun _ _ => True) trivial fun _ _ _ => rfl)

/-- An expiry leaves the other calls their tasks: there are none. -/
theorem delayedTask_guarded (env : Env) (ht : s.TasksFit) (hr : s.Rested) (hg : s.Guarded U)
    (taskId : Nat) : Post (delayedTask env taskId) s fun _ s' => s'.Guarded U := by
  cases hfound : s.delayed.find? (fun t => t.1 = taskId) with
  | none =>
    rw [Post, delayedTask, Prog.bind_apply, Prog.gets_apply, hfound]
    exact hg
  | some t =>
    have hmem := List.mem_of_find?_eq_some hfound
    have hid : t.1 = taskId := by simpa using List.find?_some hfound
    obtain ⟨k, task⟩ := t
    subst hid
    cases task with
    | restoreDialingFlag => exact absurd rfl (ht.no_restore hr.restoreTaskId _ hmem)
    | pendingHangupProtect callId =>
      rw [Post, delayedTask_protect hfound]
      by_cases hflag : s.helper.hasPendingHangup callId = true
      · exact CallManager.guarded_of_off (endUnanswered_off env (s := s.expired k) hflag)
      have hsame : endUnanswered env callId (s.expired k) = ((), s.expired k) := by
        rw [endUnanswered, Prog.bind_apply, Prog.gets_apply, Prog.when_apply]
        exact if_neg hflag
      rw [hsame]
      -- the task of a call with a pending hang-up would have been this one
      intro c hc
      refine (hg c hc).imp id fun hprotect => ?_
      have heq := ht.eq_of_id hprotect hmem (ht.known _ hmem).symm
      injection heq with _ htask
      injection htask with hcall
      exact absurd (hcall ▸ hc) hflag

/-- The call is the first one at its place. -/
def FindsItself (s : CallManager) (callId : Int) : Prop :=
  ∀ p ∈ getOneCallObject s callId,
    getOneCallObjectByIndexSlotIdAndCallType s (s.call p).index (s.call p).slotId = some p

instance (s : CallManager) (callId : Int) : Decidable (FindsItself s callId) := by
  unfold FindsItself; infer_instance

/-- A call that is found at its place leaves the table. -/
theorem endUnanswered_ends (env : Env) (h : s.table.Inv) {callId : Int}
    (hflag : s.helper.hasPendingHangup callId = true) (hfirst : FindsItself s callId) :
    Post (endUnanswered env callId) s fun _ s' =>
      ∀ p ∈ s'.callObjectPtrList, (s'.call p).callId ≠ callId := by
  refine Post.bind_gets (Post.when (fun _ => Post.bind_gets ?_) fun hno => absurd hflag hno)
  cases hp : getOneCallObject s callId with
  | none =>
    intro q hq heq
    have hid : (s.call q).callId = callId := heq
    exact List.find?_eq_none.mp hp q hq (by simpa using hid)
  | some p =>
    have hlisted : p ∈ s.callObjectPtrList := mem_of_findCall hp
    have hcall : (s.call p).callId = callId := by simpa using List.find?_some hp
    have hat : s.table.callAt (s.row p).index (s.row p).slotId = some (s.row p) := by
      rw [← callAt_eq h]
      exact congrArg (Option.map s.row) (hfirst p hp)
    refine Post.bind (Q := fun _ s₁ => s₁.table = (s.table.failCall (s.row p)).2)
      (Post.ignore (Post.mono (dealFailDial_computes env h hlisted)
        fun _ _ hs₁ => congrArg Prod.snd hs₁.1)) ?_
    rintro _ s₁ ht₁ q hq heq
    have hrow : s₁.row q ∈ s₁.table.rows := s₁.row_mem_table hq
    rw [ht₁, CallTable.failCall_eq h hat] at hrow
    exact (h.mem_remove.mp hrow).2 (heq.trans hcall.symm)

/-! ## Whole runs -/

/-- The call that a step ends because its hang-up was not answered in time. -/
def Input.unanswered (s : CallManager) : Input → Option Int
  | .delayedTask taskId =>
    match s.delayed.find? fun t => t.1 = taskId with
    | some (_, .pendingHangupProtect callId) =>
      if s.helper.hasPendingHangup callId then some callId else none
    | _ => none
  | _ => none

/-- A call whose hang-up the step leaves pending gets the task, and a call that the task is to
end is found at its place. -/
structure StepGuards (step : Env × Input) (s : CallManager) : Prop where
  only : ∀ callId ∈ step.2.pendingHangUp s, OnlyTaskOf s callId
  first : ∀ callId ∈ step.2.unanswered s, FindsItself s callId

instance (step : Env × Input) (s : CallManager) : Decidable (StepGuards step s) :=
  decidable_of_iff ((∀ callId ∈ step.2.pendingHangUp s, OnlyTaskOf s callId) ∧
    ∀ callId ∈ step.2.unanswered s, FindsItself s callId) ⟨fun h => ⟨h.1, h.2⟩, fun h => ⟨h.1, h.2⟩⟩

/-- One main-loop step, with the calls kept for which scheduling the task failed. -/
def watchedStep (step : Env × Input) (x : CallManager × List Int) : CallManager × List Int :=
  ((mainLoopStep step.1 step.2 x.1).2,
    match step.2.pendingHangUp x.1 with
    | some callId => if ScheduleFails step.1 x.1 then callId :: x.2 else x.2
    | none => x.2)

/-- The runs of the service, watched. -/
def Watched : CallManager × List Int → Prop :=
  Runs.Reachable (· = (CallManager.init, [])) (Runs.Step watchedStep fun _ _ => True)

/-- The runs all of whose steps guard. -/
def GuardKeeping : CallManager × List Int → Prop :=
  Runs.Reachable (· = (CallManager.init, []))
    (Runs.Step watchedStep fun step x => StepGuards step x.1)

/-- A call with a pending hang-up has a task, unless scheduling it failed; there is at most one
such task; and it ends its call. -/
structure GuardsHangUps (x : CallManager × List Int) : Prop where
  guarded : ∀ callId, x.1.helper.hasPendingHangup callId = true →
    callId ∈ x.2 ∨ ∃ taskId, (taskId, .pendingHangupProtect callId) ∈ x.1.delayed
  one : (x.1.delayed.filter fun t => t.2 ≠ .restoreDialingFlag).length ≤ 1
  ends : ∀ env taskId callId, (taskId, .pendingHangupProtect callId) ∈ x.1.delayed →
    x.1.helper.hasPendingHangup callId = true → StepGuards (env, .delayedTask taskId) x.1 →
      let s' := (mainLoopStep env (.delayedTask taskId) x.1).2
      s'.helper.hasPendingHangup callId = false ∧
        ∀ p ∈ s'.callObjectPtrList, (s'.call p).callId ≠ callId

theorem GuardKeeping.reachable {x : CallManager × List Int} (hx : GuardKeeping x) :
    Reachable x.1 := by
  induction hx with
  | start h =>
    subst h
    exact .start rfl
  | next _ hstep ih =>
    obtain ⟨step, -, rfl⟩ := hstep
    exact ih.next ⟨step.1, step.2, rfl⟩

/-- Every step but a hang-up, an expiry and the end of a call. -/
theorem mainLoopStep_keepsTasks (env : Env) {input : Input}
    (hhang : ∀ callId, input ≠ .hangUpCall callId) (hend : input ≠ .endCall)
    (hdue : ∀ taskId, input ≠ .delayedTask taskId) :
    Moves (KeepsTasks U) (mainLoopStep env input) := by
  cases input with
  | hangUpCall callId => exact absurd rfl (hhang callId)
  | endCall => exact absurd rfl hend
  | delayedTask taskId => exact absurd rfl (hdue taskId)
  | _ => dsimp only [mainLoopStep]; infer_instance

/-- One main-loop step. -/
theorem watchedStep_guarded {step : Env × Input} {x : CallManager × List Int}
    (ht : x.1.TasksFit) (hr : x.1.Rested) (hg : x.1.Guarded (· ∈ x.2))
    (hstep : StepGuards step x.1) :
    (watchedStep step x).1.Guarded (· ∈ (watchedStep step x).2) := by
  obtain ⟨env, input⟩ := step
  obtain ⟨s, u⟩ := x
  have hpending {c : Int} {o : Option Int}
      (h : c ∈ u ∨ o = some c ∧ ScheduleFails env s) : c ∈ (match o with
        | some callId => if ScheduleFails env s then callId :: u else u
        | none => u) := by
    rcases h with hu | ⟨rfl, hfails⟩
    · cases o with
      | none => exact hu
      | some callId =>
        dsimp only
        split
        · exact List.mem_cons_of_mem _ hu
        · exact hu
    · dsimp only
      rw [if_pos hfails]
      exact List.mem_cons_self
  cases input with
  | hangUpCall callId =>
    exact CallManager.Guarded.mono (hangUpCall_guarded env callId ht hg hstep.only) fun c =>
      hpending
  | endCall =>
    exact CallManager.Guarded.mono (endFirstCall_guarded env ht hg _ hstep.only) fun c => hpending
  | delayedTask taskId => exact delayedTask_guarded env ht hr hg taskId
  | _ =>
    refine ((mainLoopStep_keepsTasks (U := (· ∈ u)) env ?_ ?_ ?_).rel s).guarded ht hg <;>
      nofun

theorem GuardKeeping.guarded {x : CallManager × List Int} (hx : GuardKeeping x) :
    x.1.Guarded (· ∈ x.2) := by
  refine Runs.Reachable.invariant_of (I := fun x : CallManager × List Int => x.1.Guarded (· ∈ x.2))
    (J := fun x => Reachable x.1) (fun x hx => GuardKeeping.reachable hx) ?_ ?_ hx
  · rintro x rfl
    exact CallManager.guarded_of_off rfl
  · rintro x x' hs hg ⟨step, hstep, rfl⟩
    obtain ⟨ht, hr⟩ := reachable_order hs
    exact watchedStep_guarded ht hr hg hstep

theorem one_task (ht : s.TasksFit) :
    (s.delayed.filter fun t => t.2 ≠ .restoreDialingFlag).length ≤ 1 := by
  set tasks := s.delayed.filter fun t => t.2 ≠ .restoreDialingFlag with htasks
  have hids : tasks.map Prod.fst = List.replicate tasks.length s.pendingHangupTaskId := by
    refine List.eq_replicate_iff.mpr ⟨List.length_map _, fun id hid => ?_⟩
    obtain ⟨t, ht', rfl⟩ := List.mem_map.mp hid
    obtain ⟨hmem, hkind⟩ := List.mem_filter.mp ht'
    have hknown := ht.known t hmem
    cases hkind' : t.2 with
    | restoreDialingFlag => simp [hkind'] at hkind
    | pendingHangupProtect callId =>
      rw [hkind'] at hknown
      exact hknown
  have hnodup : (tasks.map Prod.fst).Nodup := ht.nodup.sublist (List.filter_sublist.map _)
  rw [hids] at hnodup
  exact List.nodup_replicate.mp hnodup

/-- **Every pending hang-up is guarded** in the runs all of whose steps guard: no pending dial is
hung up while the task of another call is scheduled, and no task has another call at its call's
place. -/
theorem guardKeeping_guards {x : CallManager × List Int} (hx : GuardKeeping x) :
    GuardsHangUps x := by
  have hs := hx.reachable
  obtain ⟨ht, hr⟩ := reachable_order hs
  refine ⟨fun c hc => (hx.guarded c hc).imp id fun hmem => ⟨_, hmem⟩, one_task ht, ?_⟩
  intro env taskId callId hmem hflag hstep
  have hfound := find?_task ht hmem
  have hfirst : FindsItself x.1 callId := by
    refine hstep.first callId ?_
    simp [Input.unanswered, hfound, hflag]
  have hoff := endUnanswered_off env (s := x.1.expired taskId) hflag
  have hends := endUnanswered_ends env (s := x.1.expired taskId)
    (reachable_inv hs).table hflag hfirst
  have hrun : (mainLoopStep env (.delayedTask taskId) x.1).2 =
      (endUnanswered env callId (x.1.expired taskId)).2 :=
    congrArg Prod.snd (delayedTask_protect hfound)
  refine hrun ▸ ⟨?_, hends⟩
  rw [CallRequestEventHandlerHelper.hasPendingHangup, hoff]
  rfl

/-- A dial of slot 0. -/
def dialStep (number : List UInt16) : Env × Input :=
  (.obliging, .dialCall { isSystemCaller := true, placeCall := true } number fun _ => none)

/-- The watched state after a run. -/
def watch (steps : List (Env × Input)) : CallManager × List Int :=
  steps.foldl (fun x step => watchedStep step x) (.init, [])

/-- A dial is hung up before the network has numbered it. -/
theorem guardKeeping_guards_dial :
    GuardsHangUps (watch [dialStep [49, 50, 51], (.obliging, .hangUpCall 1)]) :=
  guardKeeping_guards (Runs.Reachable.run (.start rfl) (by decide +kernel))

/-- The same, and the emergency call that is dialed then is hung up as well: the task stays
with the first call.  Or only the emergency call is hung up: its task ends the first call. -/
theorem pendingHangUp_unguarded :
    (¬∀ x, Watched x → ∀ callId, x.1.helper.hasPendingHangup callId = true →
        callId ∈ x.2 ∨ ∃ t ∈ x.1.delayed, t.2 = .pendingHangupProtect callId) ∧
      ¬∀ x, Watched x → ∀ env taskId callId,
        (taskId, .pendingHangupProtect callId) ∈ x.1.delayed →
          x.1.helper.hasPendingHangup callId = true →
            ∀ p ∈ (mainLoopStep env (.delayedTask taskId) x.1).2.callObjectPtrList,
              ((mainLoopStep env (.delayedTask taskId) x.1).2.call p).callId ≠ callId := by
  have hwatched (steps : List (Env × Input)) : Watched (watch steps) :=
    Runs.Reachable.run (.start rfl) (Runs.allowed_of_forall (fun _ _ => trivial) _ _)
  constructor
  · intro hall
    exact absurd (hall _ (hwatched [dialStep [49, 50, 51], (.obliging, .hangUpCall 1),
      dialStep [49, 49, 50], (.obliging, .hangUpCall 2)]) 2 (by decide +kernel)) (by decide +kernel)
  · intro hall
    have hends := hall _ (hwatched [dialStep [49, 50, 51], dialStep [49, 49, 50],
      (.obliging, .hangUpCall 2)]) .obliging 3 2 (by decide +kernel) (by decide +kernel) 1
      (by decide +kernel)
    exact hends (by decide +kernel)

end CallManagerMini
