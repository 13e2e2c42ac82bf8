import CallManagerMini.RefusedDials
import CallManagerMini.SettledReports

/-! # The zero state

Whatever the service has noted about its calls is gone once the last of them has ended, and
nothing is heard any more (`Orderly.zeroState`).  The one thing that outlives its call is a member
of the CS conference that was reported as an IMS call: `RefreshCall` brings a call into that
conference as it becomes a CS call, and leaves it there as it becomes an IMS call again. -/

namespace CallManagerMini

open Prog (Post Moves)

variable {s s' : CallManager} {env : Env} {info : CallDetailInfo} {p : Ref}

/-- What is neither in the table nor in the notes nor heard may change. -/
theorem Orderly.modest (h : Orderly s) (ht : s'.table.rows = s.table.rows)
    (hm : Modest (fun _ => False) (fun _ => False) s s') : Orderly s' where
  settled := h.settled.step hm.toFrugal (fun _ hc => hc)
    (CallTable.keeps_of_rows fun _ hr => ht ▸ hr) (fun _ _ hc => hc.elim) fun _ _ hc => hc.elim
  silent := hm.silent h.silent

/-- A quiet and modest program keeps the notes in order. -/
theorem Orderly.post {α : Type} (h : Orderly s) (m : Prog CallManager α) [Moves Quiet m]
    [Moves (Modest (fun _ => False) fun _ => False) m] : Post m s fun _ s' => Orderly s' :=
  h.modest (congrArg CallTable.rows (Moves.rel (R := Quiet) s).table) (Moves.rel s)

/-! ## Control operations -/

/-- The call that is answered may be heard. -/
theorem answerCall_orderly (env : Env) (callId videoState : Int) (isRTT : Bool) (hs : Orderly s) :
    Post (CallControlManager.answerCall env callId videoState isRTT) s fun _ s' => Orderly s' := by
  cases hp : CallControlManager.getRingCall s callId with
  | none =>
    refine Post.bind_gets ?_
    rw [hp]
    exact Post.pure hs
  | some p =>
    have hmem : p ∈ s.callObjectPtrList := by
      unfold CallControlManager.getRingCall at hp
      split at hp
      · cases hp
      · exact mem_of_findCall hp
    refine Post.mono (Post.and (Post.of_moves (R := Quiet) _ s)
      (Post.of_moves (R := Frugal (fun _ => False) fun _ => False) _ s)) ?_
    rintro _ s' ⟨hq, hf⟩
    exact .of_ne_nil (hs.settled.tame ⟨hq, hf⟩) (hq.list ▸ List.ne_nil_of_mem hmem)

/-! ## The reports of a step -/

/-- The state after a report was handled. -/
def afterReport (env : Env) (info : CallDetailInfo) (s : CallManager) : CallManager :=
  (handleCallReportInfo env info s).2

/-- Each of the reports keeps the conference in the state in which it is handled. -/
abbrev AllKeepConference (env : Env) : List CallDetailInfo → CallManager → Prop :=
  Runs.Allowed (afterReport env) KeepsConference

/-- The reports of a loop are handled one after the other. -/
theorem forEach_orderly (env : Env) {α : Type} {c : α → Bool} {g : α → CallDetailInfo}
    {l : List α} (hinfo : ∀ a ∈ l, (g a).IsCarried) (h : s.table.Inv) (hs : Orderly s)
    (hkeep : AllKeepConference env ((l.filter c).map g) s) :
    Post (Prog.forEach l fun a => Prog.when (c a) (handleCallReportInfo env (g a)).ignore) s
      fun _ s' => s'.table.Inv ∧ Orderly s' ∧
        s' = ((l.filter c).map g).foldl (fun s info => afterReport env info s) s := by
  induction l generalizing s with
  | nil => exact ⟨h, hs, rfl⟩
  | cons a l ih =>
    have hrest : ∀ b ∈ l, (g b).IsCarried := fun b hb => hinfo b (List.mem_cons_of_mem _ hb)
    have hcarried : (g a).IsCarried := hinfo a List.mem_cons_self
    unfold Post
    rw [Prog.forEach_cons, Prog.when_apply]
    cases hc : c a with
    | false =>
      rw [List.filter_cons_of_neg (by simp [hc])] at hkeep ⊢
      exact ih hrest h hs hkeep
    | true =>
      rw [List.filter_cons_of_pos hc] at hkeep ⊢
      obtain ⟨hfirst, hlater⟩ := hkeep
      have hs₁ : Orderly (afterReport env (g a) s) :=
        handleCallReportInfo_settles env h hcarried hs hfirst
      have ht₁ : (afterReport env (g a) s).table = (s.table.report (g a)).2 :=
        congrArg Prod.snd (handleCallReportInfo_refines env h hcarried).1
      have h₁ : (afterReport env (g a) s).table.Inv := ht₁ ▸ h.report hcarried
      exact ih hrest h₁ hs₁ hlater

instance {pending joined : Int → Prop} (slotId : Int) (callVec : List CallDetailInfo) :
    Moves (Modest pending joined) (updateCallDetailsInfo slotId callVec) :=
  Moves.of_modify fun _ => modest_of_eq rfl rfl rfl rfl rfl rfl

/-- A list of reports. -/
theorem handleEntries_orderly (env : Env) (h : s.table.Inv) (hs : Orderly s) (slotId : Int)
    {recorded callVec : List CallDetailInfo} (hrecorded : ∀ it ∈ recorded, it.IsCarried)
    (hinfo : ∀ it ∈ callVec, it.IsCarried)
    (hkeep : AllKeepConference env (handledReports recorded callVec) s) :
    Post (handleEntries env slotId recorded callVec) s fun _ s' => Orderly s' := by
  obtain ⟨hlisted, hgone⟩ := Runs.allowed_append.mp hkeep
  refine Post.bind (forEach_orderly (g := id) env hinfo h hs (by simpa using hlisted)) ?_
  rintro _ s₁ ⟨h₁, hs₁, rfl⟩
  refine Post.bind (forEach_orderly (g := fun it2 => { it2 with state := .disconnected }) env
    (fun it hit => (hrecorded it hit).withState .disconnected) h₁ hs₁
      (by simpa [vanished] using hgone)) ?_
  rintro _ s₂ ⟨-, hs₂, -⟩
  refine Post.bind_modify (Post.pure (hs₂.modest rfl ?_))
  exact modest_of_eq rfl rfl rfl rfl rfl rfl

/-! ## Calls that fail -/

/-- A call that fails goes through a report like any other. -/
theorem dealFailDial_orderly (env : Env) (h : s.table.Inv) (hp : p ∈ s.callObjectPtrList)
    (hs : Orderly s) (hkeep : KeepsConference (s.call p).disconnectedInfo s) :
    Post (dealFailDial env p) s fun _ s' => Orderly s' := by
  refine Post.mono (dealFailDial_settles env h hp hs fun r hr hm => ?_) fun _ _ hs' => hs'.1
  have htaken : s.table.taken (s.call p).disconnectedInfo = some r := by
    have hat : s.table.callAt (s.call p).disconnectedInfo.index
        (s.call p).disconnectedInfo.accountId = some r := hr
    rw [CallTable.taken, hat]
    rfl
  exact (hkeep r htaken hm).imp id fun hlost => hlost.2.2

/-- The call that an event result or a delayed task has fail. -/
def Input.failing (s : CallManager) : Input → Option Ref
  | .eventResult _ => getOneCallObjectByState s .dialing
  | .delayedTask taskId =>
    match s.delayed.find? fun t => t.1 = taskId with
    | some (_, .pendingHangupProtect callId) =>
      if s.helper.hasPendingHangup callId then getOneCallObject s callId else none
    | _ => none
  | _ => none

theorem handleEventResultReportInfo_orderly (env : Env) (h : s.table.Inv)
    (eventId : RequestResultEventId) (hs : Orderly s)
    (hkeep : ∀ p, (Input.eventResult eventId).failing s = some p →
      KeepsConference (s.call p).disconnectedInfo s) :
    Post (handleEventResultReportInfo env eventId) s fun _ s' => Orderly s' := by
  refine Post.bind_gets (Post.bind (Q := fun _ s₁ => Orderly s₁) ?_ fun _ s₁ hs₁ => ?_)
  · cases hp : getOneCallObjectByState s .dialing with
    | none => exact hs
    | some p => exact Post.ignore (dealFailDial_orderly env h (mem_of_findLastCall hp) hs (hkeep p hp))
  · split <;> exact hs₁.post _

theorem delayedTask_orderly (env : Env) (h : s.table.Inv) (taskId : Nat) (hs : Orderly s)
    (hkeep : ∀ p, (Input.delayedTask taskId).failing s = some p →
      KeepsConference (s.call p).disconnectedInfo s) :
    Post (delayedTask env taskId) s fun _ s' => Orderly s' := by
  refine Post.bind_gets ?_
  cases htask : s.delayed.find? fun t => t.1 = taskId with
  | none => exact hs
  | some task =>
    refine Post.bind_modify ?_
    set s₁ : CallManager := { s with delayed := s.delayed.filter fun t => t.1 ≠ taskId }
    obtain ⟨id, task⟩ := task
    cases task with
    | restoreDialingFlag =>
      have hs₁ : Orderly s₁ := hs.modest rfl (modest_of_eq rfl rfl rfl rfl rfl rfl)
      exact hs₁.post (do
        modifyHelper fun h => { h with restoreTaskId := 0 }
        restoreDialingFlag false)
    | pendingHangupProtect callId =>
      refine Post.bind_modify (Post.bind_gets ?_)
      set s₂ : CallManager := { s₁ with pendingHangupTaskId := 0 }
      have hs₂ : Orderly s₂ := hs.modest rfl (modest_of_eq rfl rfl rfl rfl rfl rfl)
      refine Post.when (fun hhang => Post.bind_gets ?_) fun _ => hs₂
      simp only [Input.failing, htask] at hkeep
      rw [if_pos hhang] at hkeep
      refine Post.bind (Q := fun _ s₃ => Orderly s₃) ?_ fun _ s₃ hs₃ => hs₃.post _
      cases hp : getOneCallObject s₂ callId with
      | none => exact hs₂
      | some p =>
        exact Post.ignore (dealFailDial_orderly env (s := s₂) h (mem_of_findCall hp) hs₂
          (hkeep p hp))

/-! ## Dials -/

/-- A dial that was admitted goes out, or its call fails. -/
theorem handleStartDial_orderly (env : Env) (h : s.table.Inv) {l : List Ref}
    (hl : s.callObjectPtrList = l ++ [p]) (hp : (s.call p).callRunningState = .dialing)
    {dial : DialParaInfo} (hs : Orderly s)
    (hkeep : env.stack s.log (.dial dial.packCellularCallInfo) ≠ some 0 →
      KeepsConference (s.call p).disconnectedInfo s) :
    Post (handleStartDial env dial) s fun _ s' => Orderly s' := by
  refine Post.ite (fun _ => hs) fun _ => ?_
  have hsent : Post (sendCommand env (.dial dial.packCellularCallInfo)) s fun ret s' =>
      (ret = .success ↔ env.stack s.log (.dial dial.packCellularCallInfo) = some 0) ∧
        s' = s.logged (.command (.dial dial.packCellularCallInfo)
          (env.stack s.log (.dial dial.packCellularCallInfo))) :=
    ⟨sendCommand_code env _ s, rfl⟩
  refine Post.bind hsent ?_
  rintro ret s₁ ⟨hret, hs₁⟩
  have horderly : Orderly s₁ := hs₁ ▸ hs.modest rfl (modest_logged s _)
  have h₁ : s₁.table.Inv := by
    rw [hs₁, table_logged_dial]
    exact h.dialed _ _
  refine Post.ite (fun hrefused => ?_) fun _ => horderly
  have hdialing : getDialingCall s₁ = some p := by
    subst hs₁
    exact getDialingCall_eq h₁ hl hp
  have hmem : p ∈ s.callObjectPtrList := by rw [hl]; simp
  have hkeeps : KeepsConference (s.call p).disconnectedInfo s :=
    hkeep fun hzero => hrefused (hret.mpr hzero)
  refine Post.bind (Q := fun _ s₂ => Orderly s₂) ?_ fun _ s₂ hs₂ => hs₂
  refine Post.bind_gets ?_
  rw [hdialing]
  subst hs₁
  exact dealFailDial_orderly env h₁ hmem horderly hkeeps

theorem prepareDial_orderly (env : Env) (h : SavedDial s) (hs : Orderly s) :
    Post (prepareDial env s.dialSrcInfo) s fun _ s' => Orderly s' := by
  refine prepareDial_rule env ?_
  have ht : (flagRaised env s).table = s.table := flagRaised_table env s
  have hraised : Orderly (flagRaised env s) :=
    hs.modest (congrArg CallTable.rows ht) (Moves.rel (m := do
      restoreDialingFlag true
      setDialingCallProcessing env) s)
  refine Post.bind (Q := fun _ s₁ => Orderly s₁ ∧ s₁.table = s.table) ?_ ?_
  · exact ⟨hraised.post (handleDialingInfo env (removeSeparatorsPhoneNumber s.dialSrcInfo.number)
        s.dialSrcInfo), (Moves.rel (R := Quiet) (m := handleDialingInfo env
          (removeSeparatorsPhoneNumber s.dialSrcInfo.number) s.dialSrcInfo)
        (flagRaised env s)).table.trans ht⟩
  · rintro ret s₁ ⟨hs₁, ht₁⟩
    refine Post.ite (fun _ => hs₁) fun _ => ?_
    have hnumber : (removeSeparatorsPhoneNumber s.dialSrcInfo.number).length ≤ kMaxNumberLen :=
      h.isCarried.number
    rw [updateCallReportInfo_dialing env h.index hnumber]
    exact addDialingCall_settles env (ht₁ ▸ h.inv) h.isCarried rfl hs₁.settled

/-- A saved dial whose call, if the stack refuses it, keeps the conference. -/
def SavedKeepsConference (env : Env) (s : CallManager) : Prop :=
  let added := (prepareDial env s.dialSrcInfo s).2
  DialAdmitted env s →
    env.stack added.log (.dial s.dialSrcInfo.packCellularCallInfo) ≠ some 0 →
      KeepsConference (added.call s.calls.next).disconnectedInfo added

theorem carrierDialProcess_orderly (env : Env) (h : SavedDial s) (hs : Orderly s)
    (hkeep : SavedKeepsConference env s) :
    Post (carrierDialProcess env s.dialSrcInfo) s fun _ s' => Orderly s' := by
  refine Post.congr (carrierDialProcess_eq env s.dialSrcInfo h.flag) ?_
  refine Post.bind (Q := fun ret s₁ => Orderly s₁ ∧ s₁ = (prepareDial env s.dialSrcInfo s).2 ∧
    if DialAdmitted env s then ret = RetCode.success ∧ DialAdded s s₁ (savedReport s)
    else ret ≠ .success ∧ s₁.history = s.history ∧ Withdrawn env s s₁)
    ⟨prepareDial_orderly env h hs, rfl, prepareDial_post env h⟩ ?_
  rintro ret s₁ ⟨hs₁, heq, hprep⟩
  by_cases hadm : DialAdmitted env s
  · rw [if_pos hadm] at hprep
    obtain ⟨rfl, ha⟩ := hprep
    rw [if_neg (by simp)]
    refine handleStartDial_orderly env ha.inv ha.list (congrArg Row.callRunningState ha.row) hs₁ ?_
    intro hrefused
    have hrefused' := heq ▸ hrefused
    exact heq ▸ hkeep hadm hrefused'
  · rw [if_neg hadm] at hprep
    rw [if_pos hprep.1]
    exact hs₁.modest (congrArg CallTable.rows (abandonDial_post s₁ ret).2.1)
      (Moves.rel (m := abandonDial ret) s₁)

/-- The dial keeps the conference, if it gets as far as the stack. -/
def DialKeepsConference (env : Env) (number : List UInt16) (extras : DialExtras)
    (s : CallManager) : Prop :=
  ∀ accountNumber, numberLegalityCheck (str16ToStr8 number) = .ok accountNumber →
    (screenDial env accountNumber extras s).1.1 = .success →
      SavedKeepsConference env (savedDial env accountNumber extras s)

theorem savedDial_orderly (env : Env) (accountNumber : Bytes) (extras : DialExtras)
    (hs : Orderly s) : Orderly (savedDial env accountNumber extras s) := by
  have hscreened : Orderly (screenDial env accountNumber extras s).2 := hs.post _
  exact hscreened.modest rfl (modest_of_eq rfl rfl rfl rfl rfl rfl)

theorem dialCall_orderly (env : Env) (h : ServiceInv s) (hs : Orderly s) (number : List UInt16)
    (extras : DialExtras) (hkeep : DialKeepsConference env number extras s) :
    Post (CallControlManager.dialCall env number extras) s fun _ s' => Orderly s' := by
  unfold CallControlManager.dialCall
  cases hlegal : numberLegalityCheck (str16ToStr8 number) with
  | error ret => exact hs
  | ok accountNumber =>
    show Post (CallControlManager.dialLegalNumber env accountNumber extras) s _
    rw [dialLegalNumber_eq]
    refine Post.bind (Q := fun x s₁ => x = (screenDial env accountNumber extras s).1 ∧
      s₁ = (screenDial env accountNumber extras s).2) ⟨rfl, rfl⟩ ?_
    rintro _ _ ⟨rfl, rfl⟩
    refine Post.ite (fun _ => hs.post (screenDial env accountNumber extras)) fun hok => ?_
    have hok : (screenDial env accountNumber extras s).1.1 = .success := not_not.mp hok
    obtain ⟨hsaved, heq⟩ := savedDial_saved env h (length_removeSeparators_le hlegal) hok
    have hdial := carrierDialProcess_orderly env hsaved
      (savedDial_orderly env accountNumber extras hs)
      (hkeep accountNumber hlegal hok)
    show Orderly (dialRequest env (savedDial env accountNumber extras s)).2
    rw [heq]
    exact hdial

/-! ## Whole steps -/

/-- The state in which the reports of a step are handled. -/
def Input.listed (s : CallManager) : Input → CallManager
  | .callsReport slotId callVec =>
    { s with
      tmpCallDetailsInfo := Function.update s.tmpCallDetailsInfo slotId
        (callVec.map CallReportInfo.toListDetail) }
  | _ => s

/-- The dial a step lets through to `CallControlManager`. -/
def Input.dial : Input → Option (List UInt16 × DialExtras)
  | .dialCall caller number extras =>
    if number.length ≤ CallManagerService.accountNumberMaxLength ∧ caller.isSystemCaller = true ∧
        caller.placeCall = true then some (number, buildDialInfo extras)
    else none
  | _ => none

/-- No report of the step turns a member of the CS conference into an IMS call that stays in it:
neither a report of the stack, nor one the service makes up for a call that fails. -/
structure StepKeepsConference (step : Env × Input) (s : CallManager) : Prop where
  reports : AllKeepConference step.1 (step.2.reports s) (step.2.listed s)
  failing : ∀ p ∈ step.2.failing s, KeepsConference (s.call p).disconnectedInfo s
  dial : ∀ x ∈ step.2.dial, DialKeepsConference step.1 x.1 x.2 s

/-- One main-loop step. -/
theorem mainLoopStep_orderly (env : Env) (h : ServiceInv s) (hs : Orderly s) {input : Input}
    (hkeep : StepKeepsConference (env, input) s) :
    Post (mainLoopStep env input) s fun _ s' => Orderly s' := by
  obtain ⟨hreports, hfailing, hdial⟩ := hkeep
  cases input with
  | callReport info =>
    refine Post.when (fun hv => ?_) fun _ => hs
    simp only [Input.reports, hv, if_true] at hreports
    exact Post.ignore (handleCallReportInfo_settles env h.table (isCarried_toDetail hv) hs hreports.1)
  | callsReport slotId callVec =>
    refine Post.when (fun hv => ?_) fun _ => hs
    simp only [Input.reports, hv, if_true] at hreports
    simp only [isValidReportList, Bool.and_eq_true, List.all_eq_true, decide_eq_true_eq] at hv
    have hcarried : ∀ it ∈ callVec.map CallReportInfo.toListDetail, it.IsCarried := by
      intro it hit
      obtain ⟨c, hc, rfl⟩ := List.mem_map.mp hit
      exact isCarried_toListDetail (hv.2 c hc).1
    refine Post.ignore ?_
    unfold Post
    rw [handleCallsReportInfo_eq env hv.1.2]
    exact handleEntries_orderly env (s := Input.listed s (.callsReport slotId callVec)) h.table
      (hs.modest rfl (modest_of_eq rfl rfl rfl rfl rfl rfl)) slotId
      (fun it hit => (h.recorded slotId it hit).1) hcarried hreports
  | disconnectedCause reason =>
    exact Post.ignore (hs.post (handleDisconnectedCause reason))
  | eventResult eventId =>
    exact Post.ignore (handleEventResultReportInfo_orderly env h.table eventId hs hfailing)
  | dialCall caller number extras =>
    refine Post.ignore ?_
    unfold CallManagerService.dialCall
    refine Post.ite (fun _ => hs) fun hlen => ?_
    refine Post.ite (fun _ => hs) fun hsystem => ?_
    refine Post.ite (fun _ => hs) fun hplace => ?_
    refine dialCall_orderly env h hs number (buildDialInfo extras) 
      (hdial (number, buildDialInfo extras) ?_)
    exact if_pos ⟨Nat.not_lt.mp hlen, by simpa using hsystem, by simpa using hplace⟩
  | answerCall callId videoState isRTT =>
    exact Post.ignore (answerCall_orderly env callId videoState isRTT hs)
  | rejectCall callId rejectWithMessage =>
    exact Post.ignore (hs.post (CallControlManager.rejectCall env callId rejectWithMessage))
  | hangUpCall callId => exact Post.ignore (hs.post (CallControlManager.hangUpCall env callId))
  | holdCall callId => exact Post.ignore (hs.post (CallControlManager.holdCall env callId))
  | unHoldCall callId => exact Post.ignore (hs.post (CallControlManager.unHoldCall env callId))
  | switchCall callId => exact Post.ignore (hs.post (CallControlManager.switchCall env callId))
  | endCall => exact Post.ignore (hs.post (CallControlManager.endCall env))
  | nextRequest => exact hs.post (CallManagerMini.nextRequest env)
  | delayedTask taskId => exact delayedTask_orderly env h.table taskId hs hfailing

/-! ## Whole runs -/

/-- The states of the runs in which no member of the CS conference becomes an IMS call. -/
def ConferenceKeeping : CallManager → Prop :=
  Runs.Reachable (· = CallManager.init)
    (Runs.Step (fun step s => (mainLoopStep step.1 step.2 s).2) StepKeepsConference)

theorem ConferenceKeeping.reachable (hs : ConferenceKeeping s) : Reachable s :=
  hs.mono fun _ _ ⟨step, _, heq⟩ => ⟨step.1, step.2, heq⟩

theorem orderly_init : Orderly .init where
  settled :=
    { proper := fun _ hp => nomatch hp
      awaited := fun c _ ha => by
        rcases ha with ha | ha <;>
          simp [CallManager.init, CallRequestEventHandlerHelper.hasPendingMo,
            CallRequestEventHandlerHelper.hasPendingHangup] at ha
      members := fun _ _ hc => nomatch hc
      cs := ⟨List.nodup_nil, fun _ => ⟨rfl, rfl, rfl⟩⟩
      ims := ⟨rfl, rfl, rfl, rfl⟩ }
  silent _ := rfl

theorem ConferenceKeeping.orderly (hs : ConferenceKeeping s) : Orderly s := by
  refine hs.invariant_of (I := Orderly) (J := ServiceInv)
    (fun s hs => reachable_inv (ConferenceKeeping.reachable hs)) ?_ ?_
  · rintro s rfl
    exact orderly_init
  · rintro s s' h hs ⟨step, hkeep, rfl⟩
    exact mainLoopStep_orderly step.1 h hs hkeep

/-- Nobody is in the conference, and nothing of a conference is left. -/
structure ConferenceBase.IsZero (c : ConferenceBase) : Prop where
  empty : c.subCallIdSet = []
  idle : c.state = .idle
  main : c.mainCallId = errId

/-- The service as it is before the first call. -/
structure ZeroState (s : CallManager) : Prop where
  dialing : s.helper.isDialingCallProcessing = false
  pendingMo : s.helper.pendingMo = false
  pendingHangup : s.helper.pendingHangup = false
  csConference : s.csConference.IsZero
  imsConference : s.imsConference.IsZero
  audio : s.audio = {}
  hasCall : CallControlManager.hasCall s = false
  callState : CallControlManager.getCallState s = .idle

theorem hasCellularCallExist_nil (hempty : s.callObjectPtrList = []) :
    hasCellularCallExist s = false := by
  simp [hasCellularCallExist, CallManager.anyCall, hempty]

/-- The notes of an empty table are blank. -/
theorem Orderly.zeroState (h : ServiceInv s) (hs : Orderly s) (hempty : s.callObjectPtrList = []) :
    ZeroState s := by
  have hrows : s.table.rows = [] := by simp [CallManager.table, hempty]
  have hawaits : ∀ c, ¬s.Awaits c := by
    intro c ha
    obtain ⟨r, hr, -⟩ := hs.settled.awaited c not_false ha
    rw [hrows] at hr
    cases hr
  have hmembers : s.csConference.subCallIdSet = [] := by
    refine List.eq_nil_iff_forall_not_mem.mpr fun c hc => ?_
    obtain ⟨r, hr, -⟩ := hs.settled.members c not_false hc
    rw [hrows] at hr
    cases hr
  have hno : hasCellularCallExist s = false := hasCellularCallExist_nil hempty
  obtain ⟨hmain, hidle, -⟩ := hs.settled.cs.vacant hmembers
  refine
    { dialing := h.dialing
      pendingMo := ?_
      pendingHangup := ?_
      csConference := ⟨hmembers, hidle, hmain⟩
      imsConference := ⟨hs.settled.ims.empty, hs.settled.ims.idle, hs.settled.ims.main⟩
      audio := hs.silent hempty
      hasCall := hno
      callState := ?_ }
  · refine Bool.eq_false_iff.mpr fun hmo => hawaits s.helper.pendingMoCallId (.inl ?_)
    simp [CallRequestEventHandlerHelper.hasPendingMo, hmo]
  · refine Bool.eq_false_iff.mpr fun hhang => hawaits s.helper.pendingHangupCallId (.inr ?_)
    simp [CallRequestEventHandlerHelper.hasPendingHangup, hhang]
  · simp [CallControlManager.getCallState, hno]

/-- **The zero state comes back with the end of the last call**, in every run in which no member
of the CS conference becomes an IMS call. -/
theorem conferenceKeeping_zeroState (hs : ConferenceKeeping s) (hempty : s.callObjectPtrList = []) :
    ZeroState s :=
  (ConferenceKeeping.orderly hs).zeroState (reachable_inv hs.reachable) hempty

/-- An IMS call of slot 0 that is reported as a CS call, in a conference on hold, and then, as an
IMS call again, as held and as gone. -/
def refreshedMember : List (Env × Input) :=
  [{ ringingReport 1 with callType := 1 }, { ringingReport 1 with state := 1, mpty := 1 },
    { ringingReport 1 with state := 1, callType := 1 },
    { ringingReport 1 with state := 6, callType := 1 }].map
      fun info => (.obliging, .callReport info)

/-- The conference keeps a member of a call that was refreshed to an IMS call. -/
theorem zeroState_member :
    ¬∀ s, Reachable s → s.callObjectPtrList = [] → ZeroState s := fun hall =>
  absurd (hall _ (reachable_run refreshedMember) (by decide +kernel)).csConference.empty
    (by decide +kernel)

theorem conferenceKeeping_zeroState_cs :
    ZeroState (.run [(.obliging, .callReport { ringingReport 1 with callType := 1 }),
      (.obliging, .callReport { ringingReport 1 with state := 1, mpty := 1 }),
      (.obliging, .callReport { ringingReport 1 with state := 6 })]) := by
  refine conferenceKeeping_zeroState (Runs.Reachable.run (.start rfl) ⟨?_, ?_, ?_, trivial⟩)
    (by decide +kernel)
  all_goals
    exact ⟨by decide +kernel, fun _ hp => (Option.not_mem_none _ hp).elim,
      fun _ hx => (Option.not_mem_none _ hx).elim⟩

end CallManagerMini
