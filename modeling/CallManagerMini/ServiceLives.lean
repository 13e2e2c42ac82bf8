import CallManagerMini.DelayedTasks
import CallManagerMini.PostedRequests
import CallManagerMini.ServiceEntries

/-! # The lives of the service

`CallManagerService::Init` brings the parts of the call manager up, or takes down again what it has
brought up; `UnInit` takes them down and drops the calls; and the main loop may be stopped and
started in between, which drops what was posted to it.  What outlives a life is little: the last id
that was handed out, the saved dial, the flags of a dial or hang-up that was pending, and the
requests that were posted and not run.

One step of the system is one call into the service, one report of the stack, one task of the main
loop, or one of the three above.
-/

namespace CallManagerMini

open Prog (Moves)
open CallTable (Descends)

/-! ## Init and UnInit -/

/-- `AudioControlManager::UnInit`. -/
def audioUnInit (env : Env) : Prog CallManager Unit := do
  let a ← Prog.gets fun s => s.audio
  Prog.when (a.callAudioActive ∨ a.ringtonePlaying ∨ a.waitingTonePlaying) do
    stopRingtone env
    stopWaitingTone env
    setCallAudioActive env false
  releaseAll

namespace CallControlManager

/-- `CallControlManager::Init`, where it was not initialised: `AudioControlManager::Init` is what it
does to the state. -/
def init : Prog CallManager Unit := releaseAll

/-- `CallControlManager::UnInit`. -/
def unInit (env : Env) : Prog CallManager Unit := do
  removePendingHangupProtectTask
  audioUnInit env

end CallControlManager

/-- `ReportCallInfoHandler::Init` constructs a `CallStatusManager`, and `UnInit` destroys it:
nothing is recorded of any slot. -/
def clearCallDetailsInfo : Prog CallManager Unit := Prog.modify fun s =>
  { s with callDetailsInfo := fun _ => [], tmpCallDetailsInfo := fun _ => [] }

/-- `DeleteOneCallObject(call)`. -/
def removeCallObject (p : Ref) : Prog CallManager Unit := Prog.modify fun s =>
  { s with callObjectPtrList := s.callObjectPtrList.filter fun q => q ≠ p }

/-- `InitStep`: where a host test may have `Init` fail. -/
inductive InitStep where
  | callControl
  | reportHandler
  | cellularConnection
  deriving DecidableEq, Repr

namespace Service

/-- What `CallManagerService::Init` does to the state before it succeeds or fails. -/
def bringUp (env : Env) : Option InitStep → Prog CallManager Unit
  | some .callControl => pure ()
  | some .reportHandler => do
    CallControlManager.init
    CallControlManager.unInit env
  | some .cellularConnection => do
    CallControlManager.init
    clearCallDetailsInfo
    clearCallDetailsInfo
    CallControlManager.unInit env
  | none => do
    CallControlManager.init
    clearCallDetailsInfo

/-- `CallManagerService::Init`. -/
def init (env : Env) (failing : Option InitStep) (s : Service) : Reply × Service :=
  if s.ready then (.code .success, s)
  else
    let manager := (bringUp env failing s.manager).2
    match failing with
    | some _ => (.code .errFail, { s with manager })
    | none => (.code .success, { ready := true, manager })

/-- What `CallManagerService::UnInit` does to the state. -/
def release (env : Env) : Prog CallManager Unit := do
  clearCallDetailsInfo
  CallControlManager.unInit env
  let calls ← Prog.gets fun s => s.callObjectPtrList
  Prog.forEach calls removeCallObject

/-- `CallManagerService::UnInit`. -/
def unInit (env : Env) (s : Service) : Service :=
  if s.ready then { ready := false, manager := (release env s.manager).2 } else s

end Service

/-! ## The system -/

/-- What the stack reports. -/
inductive StackReport where
  | callReport (info : CallReportInfo)
  | callsReport (slotId : Int) (callVec : List CallReportInfo)
  | disconnectedCause (reason : Int)
  | eventResult (eventId : RequestResultEventId)

/-- A report as the main loop is given it. -/
def StackReport.input : StackReport → Input
  | .callReport info => .callReport info
  | .callsReport slotId callVec => .callsReport slotId callVec
  | .disconnectedCause reason => .disconnectedCause reason
  | .eventResult eventId => .eventResult eventId

/-- What may happen to the service. -/
inductive ServiceInput where
  | init (failing : Option InitStep)
  | unInit
  | request (trust : TrustModel) (request : ServiceRequest)
  | report (report : StackReport)
  | nextRequest
  | delayedTask (taskId : Nat)
  /-- The main loop is stopped, and started again. -/
  | stopLoop

/-- A step of the main loop. -/
def Service.step (env : Env) (input : Input) (s : Service) : Service :=
  { s with manager := (mainLoopStep env input s.manager).2 }

/-- One step of the system.  What happens to a report or a task is told to nobody. -/
def Service.act : Env × ServiceInput → Service → Option Reply × Service
  | (env, .init failing), s =>
    let r := s.init env failing
    (some r.1, r.2)
  | (env, .unInit), s => (none, s.unInit env)
  | (env, .request trust request), s =>
    let r := (request.entry trust).serve env s
    (some r.1, r.2)
  -- `callStatusManagerPtr_` is null while the service is not ready
  | (env, .report report), s => (none, if s.ready then s.step env report.input else s)
  | (env, .nextRequest), s => (none, s.step env .nextRequest)
  | (env, .delayedTask taskId), s => (none, s.step env (.delayedTask taskId))
  | (_, .stopLoop), s => (none, { s with manager := { s.manager with requests := [], delayed := [] } })

namespace Service

/-- One step, whatever happens. -/
def Step (s s' : Service) : Prop := ∃ a, s' = (s.act a).2

/-- The states the service gets into, over all its lives. -/
def Reachable : Service → Prop := Runs.Reachable (· = {}) Step

end Service

/-! ## What the parts do -/

variable {m m' m'' : CallManager} {env : Env}

/-- Only the tones have changed, and the audio implementation was asked. -/
def AudioOnly (m m' : CallManager) : Prop :=
  ∃ (a : AudioControl) (es : List Event),
    m' = { m with audio := a, log := m.log ++ es } ∧ ∀ e ∈ es, ∃ r reply, e = .audio r reply

instance : Std.Refl AudioOnly := ⟨fun m => ⟨m.audio, [], by simp, by simp⟩⟩

instance : IsTrans CallManager AudioOnly where
  trans := by
    rintro m _ _ ⟨a, es, rfl, hes⟩ ⟨a', es', rfl, hes'⟩
    refine ⟨a', es ++ es', by simp, fun e he => ?_⟩
    rcases List.mem_append.mp he with he | he
    · exact hes e he
    · exact hes' e he

instance : Toneless AudioOnly where
  tones m f := ⟨f m.audio, [], by simp, by simp⟩
  sound m r reply := ⟨m.audio, [.audio r reply], rfl, by simp⟩

/-- Nothing is stopped where nothing plays. -/
theorem audioUnInit_eq (env : Env) (m : CallManager) :
    ∃ es, (audioUnInit env m).2 = { m with audio := {}, log := m.log ++ es } ∧
      (∀ e ∈ es, ∃ r reply, e = .audio r reply) ∧ (m.audio = {} → es = []) := by
  unfold audioUnInit
  rw [Prog.bind_apply, Prog.gets_apply, Prog.bind_apply]
  by_cases hon : m.audio.callAudioActive = true ∨ m.audio.ringtonePlaying = true ∨
      m.audio.waitingTonePlaying = true
  · rw [Prog.when_apply, if_pos hon]
    obtain ⟨a, es, heq, hes⟩ := Moves.rel (R := AudioOnly) (m := (do
      stopRingtone env
      stopWaitingTone env
      setCallAudioActive env false)) m
    refine ⟨es, ?_, hes, fun hoff => ?_⟩
    · rw [heq]
      rfl
    · rw [hoff] at hon
      simp at hon
  · rw [Prog.when_apply, if_neg hon]
    exact ⟨[], by simp [releaseAll, setAudio], by simp, fun _ => rfl⟩

theorem removePendingHangupProtectTask_frees (m : CallManager) :
    ∃ d, (removePendingHangupProtectTask m).2 = { m with pendingHangupTaskId := 0, delayed := d } ∧
      (m.pendingHangupTaskId = 0 → d = m.delayed) := by
  rw [removePendingHangupProtectTask_eq]
  split
  next hzero => exact ⟨m.delayed, by rw [← hzero], fun _ => rfl⟩
  next hid => exact ⟨_, rfl, fun hzero => absurd hzero hid⟩

theorem unInit_eq (env : Env) (m : CallManager) :
    ∃ d es, (CallControlManager.unInit env m).2 =
        { m with pendingHangupTaskId := 0, delayed := d, audio := {}, log := m.log ++ es } ∧
      (∀ e ∈ es, ∃ r reply, e = .audio r reply) ∧
      (m.pendingHangupTaskId = 0 → m.audio = {} → d = m.delayed ∧ es = []) := by
  obtain ⟨d, hd, hsame⟩ := removePendingHangupProtectTask_frees m
  obtain ⟨es, heq, hes, hnone⟩ := audioUnInit_eq
    env { m with pendingHangupTaskId := 0, delayed := d }
  refine ⟨d, es, ?_, hes, fun hid haudio => ⟨hsame hid, hnone haudio⟩⟩
  unfold CallControlManager.unInit
  rw [Prog.bind_apply, hd, heq]

theorem forEach_removeCallObject (calls : List Ref) (m : CallManager) :
    (Prog.forEach calls removeCallObject m).2 =
      { m with callObjectPtrList := m.callObjectPtrList.filter fun q => q ∉ calls } := by
  induction calls generalizing m with
  | nil => simp
  | cons p calls ih =>
    have hlist : (m.callObjectPtrList.filter fun q => q ≠ p).filter (fun q => q ∉ calls) =
        m.callObjectPtrList.filter fun q => q ∉ p :: calls := by
      rw [List.filter_filter]
      refine List.filter_congr fun q _ => ?_
      simp [Bool.and_comm]
    rw [Prog.forEach_cons, ih, ← hlist]
    rfl

/-- What `UnInit` leaves. -/
theorem release_eq (env : Env) (m : CallManager) :
    ∃ d es, (Service.release env m).2 = { m with
        callObjectPtrList := [], callDetailsInfo := fun _ => [], tmpCallDetailsInfo := fun _ => []
        pendingHangupTaskId := 0, delayed := d, audio := {}, log := m.log ++ es } ∧
      ∀ e ∈ es, ∃ r reply, e = .audio r reply := by
  obtain ⟨d, es, heq, hes, -⟩ := unInit_eq env
    { m with callDetailsInfo := fun _ => [], tmpCallDetailsInfo := fun _ => [] }
  refine ⟨d, es, ?_, hes⟩
  unfold Service.release
  rw [Prog.bind_apply, show (clearCallDetailsInfo m).2 = { m with
    callDetailsInfo := fun _ => [], tmpCallDetailsInfo := fun _ => [] } from rfl, Prog.bind_apply,
    heq, Prog.bind_apply, Prog.gets_apply, forEach_removeCallObject]
  simp

/-! ## A service that is down -/

/-- Nothing is left of a life that the next one could take for its own. -/
structure CallManager.Idle (m : CallManager) : Prop where
  callObjectPtrList : m.callObjectPtrList = []
  audio : m.audio = {}
  callDetailsInfo : m.callDetailsInfo = fun _ => []
  tmpCallDetailsInfo : m.tmpCallDetailsInfo = fun _ => []
  pendingHangupTaskId : m.pendingHangupTaskId = 0

theorem release_idle (env : Env) (m : CallManager) : (Service.release env m).2.Idle := by
  obtain ⟨d, es, heq, -⟩ := release_eq env m
  rw [heq]
  exact ⟨rfl, rfl, rfl, rfl, rfl⟩

theorem clearCallDetailsInfo_eq {recorded reported : Int → List CallDetailInfo}
    (h : m.callDetailsInfo = recorded) (h' : m.tmpCallDetailsInfo = reported) :
    { m with callDetailsInfo := recorded, tmpCallDetailsInfo := reported } = m := by
  subst h
  subst h'
  rfl

/-- What an idle state is brought up to, and down from again. -/
theorem CallManager.Idle.bringUp (h : m.Idle) (env : Env) (failing : Option InitStep) :
    (Service.bringUp env failing m).2 = m := by
  have hinit : (CallControlManager.init m).2 = m := by
    show { m with audio := {} } = m
    rw [← h.audio]
  have hclear : (clearCallDetailsInfo m).2 = m :=
    clearCallDetailsInfo_eq h.callDetailsInfo h.tmpCallDetailsInfo
  have hunInit : (CallControlManager.unInit env m).2 = m := by
    obtain ⟨d, es, heq, -, hsame⟩ := unInit_eq env m
    obtain ⟨rfl, rfl⟩ := hsame h.pendingHangupTaskId h.audio
    rw [heq, ← h.audio, ← h.pendingHangupTaskId, List.append_nil]
  cases failing with
  | none => rw [Service.bringUp, Prog.bind_apply, hinit, hclear]
  | some step =>
    cases step with
    | callControl => rfl
    | reportHandler => rw [Service.bringUp, Prog.bind_apply, hinit, hunInit]
    | cellularConnection =>
      rw [Service.bringUp, Prog.bind_apply, hinit, Prog.bind_apply, hclear, Prog.bind_apply, hclear,
        hunInit]

/-- A request that was posted in an earlier life finds no call. -/
theorem CallManager.Idle.nextRequest (h : m.Idle) (env : Env) :
    (CallManagerMini.nextRequest env m).2 = { m with requests := m.requests.tail } := by
  have hgone : ∀ callId, getOneCallObject { m with requests := m.requests.tail } callId = none := by
    simp [getOneCallObject, CallManager.findCall, h.callObjectPtrList]
  unfold CallManagerMini.nextRequest
  rw [Prog.bind_apply, Prog.gets_apply]
  cases hhead : m.requests.head? with
  | none =>
    have htail : m.requests.tail = m.requests := by rw [List.head?_eq_none_iff.mp hhead]; rfl
    rw [htail]
    rfl
  | some r => exact congrArg Prod.snd (runRequest_gone env (hgone r.callId))

/-- Nor does a task. -/
theorem CallManager.Idle.delayedTask (h : m.Idle) (env : Env) (taskId : Nat) :
    ∃ helper d, (CallManagerMini.delayedTask env taskId m).2 = { m with helper, delayed := d } ∧
      (m.helper.isDialingCallProcessing = false → helper.isDialingCallProcessing = false) := by
  have hgone : ∀ d callId, getOneCallObject
      { m with delayed := d, pendingHangupTaskId := 0 } callId = none := by
    simp [getOneCallObject, CallManager.findCall, h.callObjectPtrList]
  have hzero : ∀ d, { m with delayed := d, pendingHangupTaskId := 0 } =
      { m with delayed := d } := by
    intro d
    rw [← h.pendingHangupTaskId]
  unfold CallManagerMini.delayedTask
  rw [Prog.bind_apply, Prog.gets_apply]
  cases hfound : m.delayed.find? fun t => t.1 = taskId with
  | none => exact ⟨m.helper, m.delayed, rfl, id⟩
  | some t =>
    obtain ⟨id, task⟩ := t
    cases task with
    | restoreDialingFlag => exact ⟨_, _, rfl, fun _ => rfl⟩
    | pendingHangupProtect callId =>
      set d := m.delayed.filter fun t => t.1 ≠ taskId with hd
      show ∃ helper d', (CallControlManager.runDelayedTask env (.pendingHangupProtect callId)
        { m with delayed := d }).2 = { m with helper, delayed := d' } ∧ _
      dsimp only [CallControlManager.runDelayedTask]
      rw [Prog.bind_apply, Prog.modify_apply, Prog.bind_apply, Prog.gets_apply, Prog.when_apply]
      dsimp only
      split
      · rw [Prog.bind_apply, Prog.gets_apply, hgone]
        refine ⟨_, d, congrArg (fun x => (setPendingHangup false (-1) x).2) (hzero d), fun hf => hf⟩
      · exact ⟨m.helper, d, hzero d, fun hf => hf⟩

/-! ## What a step does -/

/-- A request that is let in reads the state, or is one step of the main loop. -/
theorem ServiceRequest.ask_cases {trust : TrustModel} {request : ServiceRequest}
    (h : (request.entry trust).denial = none) (env : Env) (m : CallManager) :
    ((request.entry trust).ask env m).2 = m ∨
      ∃ input : Input, input.takes = 0 ∧
        ((request.entry trust).ask env m).2 = (mainLoopStep env input m).2 := by
  cases request with
  | dialCall number extras =>
    refine .inr ⟨.dialCall trust.caller number extras, rfl, ?_⟩
    have hserve := @dialCallEntry_serve trust env number extras ⟨true, m⟩ rfl
    change (CallManagerService.dialCallEntry trust number extras).denial = none at h
    unfold Entry.serve at hserve
    rw [h] at hserve
    exact congrArg (fun x => x.2.manager) hserve
  | answerCall callId videoState isRTT => exact .inr ⟨.answerCall callId videoState isRTT, rfl, rfl⟩
  | rejectCall callId rejectWithMessage =>
    exact .inr ⟨.rejectCall callId rejectWithMessage, rfl, rfl⟩
  | hangUpCall callId => exact .inr ⟨.hangUpCall callId, rfl, rfl⟩
  | holdCall callId => exact .inr ⟨.holdCall callId, rfl, rfl⟩
  | unHoldCall callId => exact .inr ⟨.unHoldCall callId, rfl, rfl⟩
  | switchCall callId => exact .inr ⟨.switchCall callId, rfl, rfl⟩
  | endCall => exact .inr ⟨.endCall, rfl, rfl⟩
  | answerRingingCall =>
    exact .inr ⟨.answerCall invalidCallId VideoStateType.voice.toInt false, rfl, rfl⟩
  | rejectRingingCall => exact .inr ⟨.rejectCall invalidCallId false, rfl, rfl⟩
  | hangUpCurrentCall => exact .inr ⟨.hangUpCall invalidCallId, rfl, rfl⟩
  | getCallState | hasCall | isNewCallAllowed | isRinging => exact .inl rfl

namespace Service

variable {s s' : Service} {a : Env × ServiceInput}

/-- What may become of the service in one step. -/
inductive Move (s s' : Service) : Prop where
  | stay : s' = s → Move s s'
  /-- The main loop runs something: a request that was posted before, or a task, while the service
  is down. -/
  | run (env : Env) (input : Input) : s' = s.step env input →
    (s.ready = false → input = .nextRequest ∨ ∃ taskId, input = .delayedTask taskId) → Move s s'
  | up (env : Env) (failing : Option InitStep) : s.ready = false →
    s' = ⟨failing.isNone, (bringUp env failing s.manager).2⟩ → Move s s'
  | down (env : Env) : s.ready = true → s' = ⟨false, (release env s.manager).2⟩ → Move s s'
  | drop : s' = ⟨s.ready, { s.manager with requests := [], delayed := [] }⟩ → Move s s'

theorem act_move (a : Env × ServiceInput) (s : Service) : Move s (s.act a).2 := by
  obtain ⟨env, input⟩ := a
  cases input with
  | init failing =>
    unfold Service.act Service.init
    dsimp only
    split
    · exact .stay rfl
    next hready =>
      have hdown : s.ready = false := by simpa using hready
      cases failing with
      | none => exact .up env none hdown rfl
      | some step => exact .up env (some step) hdown (congrArg (fun b => Service.mk b _) hdown)
  | unInit =>
    unfold Service.act Service.unInit
    dsimp only
    split
    next hready => exact .down env hready rfl
    · exact .stay rfl
  | request trust request =>
    unfold Service.act Entry.serve
    dsimp only
    cases hdenial : (request.entry trust).denial with
    | some reply => exact .stay rfl
    | none =>
      dsimp only
      split
      next hready =>
        rcases request.ask_cases hdenial env s.manager with hsame | ⟨input, -, hinput⟩
        · exact .stay (by rw [hsame])
        · exact .run env input (by rw [hinput]; rfl) (by simp [hready])
      · exact .stay rfl
  | report report =>
    unfold Service.act
    dsimp only
    split
    next hready => exact .run env report.input rfl (by simp [hready])
    · exact .stay rfl
  | nextRequest => exact .run env .nextRequest rfl fun _ => .inl rfl
  | delayedTask taskId => exact .run env (.delayedTask taskId) rfl fun _ => .inr ⟨taskId, rfl⟩
  | stopLoop => exact .drop rfl

/-! ## What outlives a life -/

/-- **What holds over all lives.** -/
structure Inv (s : Service) : Prop where
  manager : ServiceInv s.manager
  idle : s.ready = false → s.manager.Idle

theorem release_inv (h : ServiceInv m) (env : Env) : ServiceInv (release env m).2 := by
  obtain ⟨d, es, heq, -⟩ := release_eq env m
  rw [heq]
  refine ⟨⟨List.nodup_nil, ?_, ?_, ?_, h.table.counter, ?_⟩, h.dialing, h.index, ?_⟩ <;>
    simp [CallManager.table]

theorem idle_inv : Inv {} := ⟨serviceInv_init, fun _ => ⟨rfl, rfl, rfl, rfl, rfl⟩⟩

theorem Inv.move (h : s.Inv) (hm : Move s s') : s'.Inv := by
  cases hm with
  | stay heq => exact heq ▸ h
  | run env input heq hdown =>
    subst heq
    refine ⟨h.manager.step ⟨env, input, rfl⟩, fun hready => ?_⟩
    have hidle := h.idle hready
    rcases hdown hready with rfl | ⟨taskId, rfl⟩
    · show (CallManagerMini.nextRequest env s.manager).2.Idle
      rw [hidle.nextRequest env]
      exact ⟨hidle.1, hidle.2, hidle.3, hidle.4, hidle.5⟩
    · obtain ⟨helper, d, heq, -⟩ := hidle.delayedTask env taskId
      show (CallManagerMini.delayedTask env taskId s.manager).2.Idle
      rw [heq]
      exact ⟨hidle.1, hidle.2, hidle.3, hidle.4, hidle.5⟩
  | up env failing hready heq =>
    rw [heq, (h.idle hready).bringUp env failing]
    exact ⟨h.manager, fun _ => h.idle hready⟩
  | down env hready heq =>
    rw [heq]
    exact ⟨release_inv h.manager env, fun _ => release_idle env s.manager⟩
  | drop heq =>
    rw [heq]
    refine ⟨⟨h.manager.table, h.manager.dialing, h.manager.index, h.manager.recorded⟩, fun hready => ?_⟩
    have hidle := h.idle hready
    exact ⟨hidle.1, hidle.2, hidle.3, hidle.4, hidle.5⟩

theorem reachable_inv (h : Reachable s) : s.Inv := by
  refine Runs.Reachable.invariant (fun _ hs => hs ▸ idle_inv) (fun _ _ hinv hstep => ?_) h
  obtain ⟨a, rfl⟩ := hstep
  exact hinv.move (act_move a _)

/-- Who is told what over a run, and the state at its end. -/
def run (as : List (Env × ServiceInput)) (s : Service) :
    List ((Env × ServiceInput) × Option Reply) × Service :=
  Gate.run (fun a s => Service.act a s) as s

/-- How a run goes on. -/
theorem later_run (as : List (Env × ServiceInput)) (s : Service) :
    Relation.ReflTransGen Step s (run as s).2 := by
  induction as generalizing s with
  | nil => exact .refl
  | cons a as ih => exact .head ⟨a, rfl⟩ (ih (s.act a).2)

theorem reachable_later (h : Reachable s) (hrun : Relation.ReflTransGen Step s s') :
    Reachable s' := by
  induction hrun with
  | refl => exact h
  | tail _ hstep ih => exact ih.next hstep

theorem reachable_run (as : List (Env × ServiceInput)) : Reachable (run as {}).2 :=
  reachable_later (.start rfl) (later_run as {})

/-! ## Calls over the lives -/

theorem release_descends (env : Env) (m : CallManager) :
    Descends m.table (release env m).2.table := by
  obtain ⟨d, es, heq, hes⟩ := release_eq env m
  rw [heq]
  refine ⟨Int.le_refl _, by simp [CallManager.table], ⟨[], ?_, by simp⟩⟩
  show (m.log ++ es).filterMap Event.mark = m.log.filterMap Event.mark ++ []
  have hnone : es.filterMap Event.mark = [] := by
    refine List.filterMap_eq_nil_iff.mpr fun e he => ?_
    obtain ⟨request, reply, rfl⟩ := hes e he
    rfl
  rw [List.filterMap_append, hnone]

/-- A step of the system: what becomes of the calls. -/
theorem Move.descends (h : s.Inv) (hm : Move s s') : Descends s.manager.table s'.manager.table := by
  cases hm with
  | stay heq => exact heq ▸ .refl _
  | run env input heq _ =>
    rw [heq]
    exact labelled_descends h.manager (.cons ⟨env, rfl⟩ .nil)
  | up env failing hready heq =>
    rw [heq, (h.idle hready).bringUp env failing]
    exact .refl _
  | down env hready heq =>
    rw [heq]
    exact release_descends env s.manager
  | drop heq => exact heq ▸ .refl _

theorem later_descends (h : Reachable s) (hrun : Relation.ReflTransGen Step s s') :
    Descends s.manager.table s'.manager.table := by
  induction hrun with
  | refl => exact .refl _
  | @tail s₁ s₂ hrun hstep ih =>
    obtain ⟨a, rfl⟩ := hstep
    exact ih.trans ((act_move a s₁).descends (reachable_inv (reachable_later h hrun)))

/-! ## One life after the other -/

/-- What the lives of the service have to do with each other. -/
structure LivesOn (s : Service) : Prop where
  /-- The table is well formed, in this life like in the first. -/
  inv : ServiceInv s.manager
  /-- Nothing is left of a life that has ended: no call, no tone, no recorded report. -/
  idle : s.ready = false → s.manager.Idle
  /-- While the service is down, nothing is commanded, broadcast, played or posted, whatever it is
  asked, told or made to run. -/
  silent : s.ready = false → ∀ a, (s.act a).2.manager.log = s.manager.log
  /-- No request is served then. -/
  absent : s.ready = false → ∀ env trust (request : ServiceRequest),
    ((request.entry trust).serve env s).2 = s ∧
      ((request.entry trust).serve env s).1 =
        ((request.entry trust).denial).getD (request.entry trust).absent
  /-- A life begins in the state in which the last one ended. -/
  begins : s.ready = false → ∀ env, s.init env none = (.code .success, { s with ready := true })
  /-- Where a part does not come up, the others are taken down again, and all is as it was. -/
  fails : s.ready = false → ∀ env step, s.init env (some step) = (.code .errFail, s)
  /-- No id is handed out twice, in whatever lives. -/
  ids : ∀ s', Relation.ReflTransGen Step s s' → IdsRetire s.manager s'.manager

/-- **The lives of the service**: every state of every run. -/
theorem service_lives (h : Reachable s) : s.LivesOn := by
  have hinv := reachable_inv h
  have hup : s.ready = false → ∀ env failing, s.init env failing =
      (match failing with
        | some _ => (.code .errFail, s) | none => (.code .success, ⟨true, s.manager⟩)) := by
    intro hdown env failing
    unfold Service.init
    rw [if_neg (by simp [hdown])]
    dsimp only
    rw [(hinv.idle hdown).bringUp env failing]
  refine ⟨hinv.manager, hinv.idle, fun hdown a => ?_, fun hdown env trust request => ?_,
    fun hdown env => hup hdown env none, fun hdown env step => hup hdown env (some step),
    fun s' hrun => (later_descends h hrun).idsRetire hinv.manager⟩
  · have hidle := hinv.idle hdown
    cases act_move a s with
    | stay heq => rw [heq]
    | run env input heq hrun =>
      rw [heq]
      rcases hrun hdown with rfl | ⟨taskId, rfl⟩
      · show (CallManagerMini.nextRequest env s.manager).2.log = _
        rw [hidle.nextRequest env]
      · obtain ⟨helper, d, heq, -⟩ := hidle.delayedTask env taskId
        show (CallManagerMini.delayedTask env taskId s.manager).2.log = _
        rw [heq]
    | up env failing hready heq => rw [heq, hidle.bringUp env failing]
    | down env hready heq => exact absurd (hready.symm.trans hdown) (by simp)
    | drop heq => rw [heq]
  · unfold Entry.serve
    cases (request.entry trust).denial with
    | some reply => exact ⟨rfl, rfl⟩
    | none => simp [hdown]

/-- A life with a call. -/
def oneLife : List (Env × ServiceInput) :=
  [(.obliging, .init none), (.obliging, .report (.callReport (ringingReport 1))),
    (.obliging, .unInit)]

theorem service_lives_ended :
    let s := (run oneLife {}).2
    s.ready = false ∧ s.manager.callId = 1 ∧ s.LivesOn :=
  ⟨by decide +kernel, by decide +kernel, service_lives (reachable_run _)⟩

/-! ## Requests that are denied -/

/-- The answer of a request that fails a check. -/
def gate : Env × ServiceInput → Option (Option Reply)
  | (_, .request trust request) => ((request.entry trust).denial).map some
  | _ => none

/-- A request that fails a check goes no further. -/
theorem act_closed : Gate.Closed (fun a s => Service.act a s) gate := by
  rintro ⟨env, input⟩ ret s hgate
  cases input with
  | request trust request =>
    obtain ⟨reply, hdenial, rfl⟩ := Option.map_eq_some_iff.mp hgate
    simp only [Service.act, Entry.serve, hdenial]
  | _ => cases hgate

/-- **The permissions are kept.** -/
structure PermissionsKept (as : List (Env × ServiceInput)) (s : Service) : Prop where
  /-- A request is let in exactly if the documented table allows it to this caller, and the build
  supports its arguments. -/
  table : ∀ trust (request : ServiceRequest),
    (request.entry trust).denial = none ↔ request.rule.Allows trust ∧ request.Supported
  /-- The service goes where it goes without the requests that are denied. -/
  state : (run (Gate.purge gate as) s).2 = (run as s).2
  /-- The others are told what they are told without them. -/
  others : (run (Gate.purge gate as) s).1 = (run as s).1.filter fun x => (gate x.1).isNone
  /-- Who is denied is told what the build alone decides. -/
  denied : ∀ x ∈ (run as s).1, ∀ ret, gate x.1 = some ret → x.2 = ret

/-- **Denied requests do not interfere**, in any run from any state. -/
theorem denied_requests_silent (as : List (Env × ServiceInput)) (s : Service) :
    PermissionsKept as s where
  table _ request := denial_eq_none_iff request
  state := congrArg (fun r => r.2) (act_closed.run_purge as s)
  others := congrArg (fun r => r.1) (act_closed.run_purge as s)
  denied := act_closed.answers as s

end Service

end CallManagerMini
