import CallManagerMini.CallManagerProxy
import CallManagerMini.ClientView

/-! # The application follows the table

Each step of the main loop tells the application what turns the view of the table before it into
the view after it, as long as the reports are clean.  So an application that asks for all calls
once (`ObserverOnCallDetailsChange`) and listens from then on knows the state of every call, and
knows of no others, but for calls whose last report the main loop did not take (`cleanRun_known`).
-/

namespace CallManagerMini

open Prog (Post Moves)

variable {s s' : CallManager} {env : Env} {info : CallDetailInfo} {p : Ref}

/-! ## The steps of the main loop -/

theorem CallTable.cleanReports_append {infos infos' : List CallDetailInfo} {t : CallTable} :
    CleanReports (infos ++ infos') t ↔
      CleanReports infos t ∧ CleanReports infos' (t.reports infos) := by
  induction infos generalizing t with
  | nil => exact (iff_of_eq (true_and _)).symm
  | cons info infos ih =>
    show Clean info t ∧ CleanReports (infos ++ infos') (t.report info).2 ↔
      (Clean info t ∧ CleanReports infos (t.report info).2) ∧
        CleanReports infos' ((t.report info).2.reports infos)
    rw [ih, and_assoc]

/-- A loop that hands reports to the table, some of them. -/
theorem forEach_reports_fed (env : Env) {α : Type} {c : α → Bool} {g : α → CallDetailInfo}
    {l : List α} (hinfo : ∀ a ∈ l, (g a).IsCarried) (h : s.table.Inv) (htold : s.table.Told)
    (hclean : CallTable.CleanReports ((l.filter c).map g) s.table) :
    Post (Prog.forEach l fun a => Prog.when (c a) (handleCallReportInfo env (g a)).ignore) s
      fun _ s' => Fed s s' := by
  induction l generalizing s with
  | nil => exact refl_of Fed s
  | cons a l ih =>
    have hrest := fun b hb => hinfo b (List.mem_cons_of_mem a hb)
    cases hc : c a with
    | false =>
      rw [List.filter_cons_of_neg (by simp [hc])] at hclean
      refine Post.bind (Q := fun _ s₁ => s₁ = s) ?_ ?_
      · exact Post.when (fun hyes => absurd (hc.symm.trans hyes) (by decide)) fun _ => rfl
      · rintro _ _ rfl
        exact ih hrest h htold hclean
    | true =>
      rw [List.filter_cons_of_pos hc] at hclean
      have hreport := hinfo a List.mem_cons_self
      refine Post.bind (Q := fun _ s₁ => s₁.table = (s.table.report (g a)).2 ∧ Fed s s₁) ?_ ?_
      · refine Post.when (fun _ => ?_) fun hno => absurd hc hno
        refine Post.ignore (Post.mono (Post.and (handleCallReportInfo_refines env h hreport)
          (handleCallReportInfo_fed env h htold hreport hclean.1)) ?_)
        rintro ret s₁ ⟨⟨hs₁, -⟩, hfed₁⟩
        exact ⟨congrArg Prod.snd hs₁, hfed₁⟩
      · rintro _ s₁ ⟨ht₁, hfed₁⟩
        have h₁ : s₁.table.Inv := ht₁ ▸ h.report hreport
        have htold₁ : s₁.table.Told := ht₁ ▸ htold.report h hreport hclean.1
        exact Post.mono (ih hrest h₁ htold₁ (ht₁ ▸ hclean.2)) fun _ _ hfed₂ => hfed₁.trans hfed₂

theorem handleEntries_fed (env : Env) (h : s.table.Inv) (htold : s.table.Told)
    {recorded callVec : List CallDetailInfo} (hrecorded : ∀ it ∈ recorded, it.IsCarried)
    (hinfo : ∀ it ∈ callVec, it.IsCarried)
    (hclean : CallTable.CleanReports (handledReports recorded callVec) s.table) (slotId : Int) :
    Post (handleEntries env slotId recorded callVec) s fun _ s' => Fed s s' := by
  obtain ⟨hclean, hgone⟩ := CallTable.cleanReports_append.mp hclean
  have hmap : (callVec.filter (isHandled recorded)).map id = callVec.filter (isHandled recorded) :=
    List.map_id _
  have hcarried : ∀ i ∈ callVec.filter (isHandled recorded), i.IsCarried :=
    fun i hi => hinfo i (List.mem_of_mem_filter hi)
  refine Post.bind (Post.and (forEach_reports env (g := id) hinfo h)
    (forEach_reports_fed env (g := id) hinfo h htold (by rw [hmap]; exact hclean))) ?_
  rintro _ s₁ ⟨⟨ht₁, -⟩, hfed₁⟩
  rw [hmap] at ht₁
  have h₁ : s₁.table.Inv := ht₁ ▸ h.reports hcarried
  have htold₁ : s₁.table.Told := ht₁ ▸ htold.reports h hcarried hclean
  refine Post.bind (forEach_reports_fed env
    (fun it2 hit => (hrecorded it2 hit).withState .disconnected) h₁ htold₁ (ht₁ ▸ hgone)) ?_
  intro _ s₂ hfed₂
  exact Post.bind_modify (Post.pure ((hfed₁.trans hfed₂).trans (.of_same rfl rfl)))

/-- A list report. -/
theorem handleCallsReportInfo_fed (env : Env) (h : ServiceInv s) (htold : s.table.Told)
    {slotId : Int} (hslot : isValidSlotId slotId = true) {callVec : List CallDetailInfo}
    (hinfo : ∀ it ∈ callVec, it.IsCarried)
    (hclean : CallTable.CleanReports (handledReports (s.callDetailsInfo slotId) callVec) s.table) :
    Post (handleCallsReportInfo env slotId callVec) s fun _ s' => Fed s s' := by
  have hrecorded : ∀ it ∈ s.callDetailsInfo slotId, it.IsCarried := fun it hit =>
    (h.recorded slotId it hit).1
  unfold Post
  rw [handleCallsReportInfo_eq env hslot]
  exact handleEntries_fed env (s := { s with
    tmpCallDetailsInfo := Function.update s.tmpCallDetailsInfo slotId callVec })
    h.table htold hrecorded hinfo hclean slotId

/-- `HandleEventResultReportInfo`. -/
theorem handleEventResultReportInfo_fed (env : Env) (h : s.table.Inv)
    (eventId : RequestResultEventId) :
    Post (handleEventResultReportInfo env eventId) s fun _ s' => Fed s s' := by
  refine Post.bind_gets (Post.bind (failFound_fed env h fun p hp => mem_of_findLastCall hp) ?_)
  intro _ s₁ hfed₁
  have hdone : ∀ (m : Prog CallManager RetCode) [Moves Quiet m] [Moves Discreet m],
      Post m s₁ fun _ s' => Fed s s' := fun m _ _ =>
    Post.mono (unnoticed_post m s₁) fun _ _ hu => hfed₁.trans hu.fed
  split <;> exact hdone _

/-- A delayed task. -/
theorem delayedTask_fed (env : Env) (h : s.table.Inv) (taskId : Nat) :
    Post (delayedTask env taskId) s fun _ s' => Fed s s' := by
  refine Post.bind_gets ?_
  cases s.delayed.find? fun t => t.1 = taskId with
  | none => exact refl_of Fed s
  | some task =>
    refine Post.bind (unnoticed_post _ s) fun _ s₁ hu₁ => ?_
    cases task.2 with
    | restoreDialingFlag =>
      refine Post.bind (unnoticed_post _ s₁) fun _ s₂ hu₂ => ?_
      exact Post.mono (unnoticed_post (restoreDialingFlag false) s₂)
        fun _ _ hu₃ => ((hu₁.trans hu₂).trans hu₃).fed
    | pendingHangupProtect callId =>
      refine Post.bind (unnoticed_post _ s₁) fun _ s₂ hu₂ => ?_
      have hu := hu₁.trans hu₂
      refine Post.bind_gets (Post.when (fun _ => ?_) fun _ => hu.fed)
      refine Post.bind_gets (Post.bind (failFound_fed env (hu.table ▸ h) fun p hp => mem_of_findCall hp) ?_)
      intro _ s₃ hfed₃
      exact Post.mono (unnoticed_post _ s₃) fun _ _ hu₄ => (hu.fed.trans hfed₃).trans hu₄.fed

/-! ### Dials -/

theorem mem_of_getDialingCall (h : getDialingCall s = some p) : p ∈ s.callObjectPtrList := by
  unfold getDialingCall getOneCarrierCallObject at h
  rcases Option.or_eq_some_iff.mp h with h | ⟨-, h⟩
  · exact mem_of_findLastCall h
  · rcases Option.or_eq_some_iff.mp h with h | ⟨-, h⟩ <;> exact mem_of_findLastCall h

/-- `HandleStartDial`: the call of a dial the stack refuses is told to be gone. -/
theorem handleStartDial_fed (env : Env) (h : s.table.Inv) (info : DialParaInfo) :
    Post (handleStartDial env info) s fun _ s' => Fed s s' := by
  refine Post.ite (fun _ => Post.pure (refl_of Fed s)) fun _ => ?_
  set c := Command.dial info.packCellularCallInfo
  set s₁ := s.logged (.command c (env.stack s.log c)) with hs₁
  have hfed₁ : Fed s s₁ := by
    refine .of_same ((s.told_logged _).trans (List.append_nil _)) ?_
    exact CallTable.view_of_rows rfl
  have h₁ : s₁.table.Inv := by
    rw [hs₁, table_logged_dial]
    exact h.dialed _ _
  refine Post.bind (Q := fun _ s' => s' = s₁) rfl ?_
  rintro ret _ rfl
  refine Post.ite (fun _ => ?_) fun _ => Post.pure hfed₁
  refine Post.bind (Q := fun _ s₂ => Fed s s₂) ?_ fun _ _ hfed₂ => Post.pure hfed₂
  refine Post.bind_gets ?_
  cases hp : getDialingCall s₁ with
  | none => exact Post.pure hfed₁
  | some p =>
    exact Post.mono (dealFailDial_fed env h₁ (mem_of_getDialingCall hp))
      fun _ _ hfed₂ => hfed₁.trans hfed₂

/-- The end of `CarrierDialProcess`: the local report, and the command. -/
theorem enterDial_fed (env : Env) (h : s.table.Inv) {info : DialParaInfo} {number : Bytes}
    (hct : info.callType = .cs ∨ info.callType = .ims) (hindex : info.index = 0)
    (hnumber : number.length ≤ kMaxNumberLen) :
    Post (do
      let ret ← updateCallReportInfo env { info with number := number } .dialing
      if ret ≠ .success then abandonDial ret else handleStartDial env info) s fun _ s' =>
        Fed s s' := by
  have hcarried : (info.dialReport number).IsCarried := ⟨hct, hnumber⟩
  rw [updateCallReportInfo_dialing env hindex hnumber]
  refine Post.bind (Post.and (addDialingCall_post env h hcarried rfl)
    (addDialingCall_fed env h hcarried rfl)) ?_
  rintro ret s₁ ⟨⟨hs₁, -, -⟩, hfed₁⟩
  have ht₁ : s₁.table = (s.table.addDialing (info.dialReport number)).2 := congrArg Prod.snd hs₁
  have h₁ : s₁.table.Inv := ht₁ ▸ LocalChange.inv h (.dial hcarried hindex rfl)
  refine Post.ite (fun _ => ?_) fun _ => ?_
  · exact Post.mono (unnoticed_post _ s₁) fun _ _ hu₂ => hfed₁.trans hu₂.fed
  · exact Post.mono (handleStartDial_fed env h₁ info) fun _ _ hfed₂ => hfed₁.trans hfed₂

/-- `CarrierDialProcess`. -/
theorem carrierDialProcess_fed (env : Env) (h : s.table.Inv) {info : DialParaInfo}
    (hct : info.callType = .cs ∨ info.callType = .ims) (hindex : info.index = 0)
    (hn : info.number.length ≤ kMaxNumberLen) :
    Post (carrierDialProcess env info) s fun _ s' => Fed s s' := by
  have hnumber : (removeSeparatorsPhoneNumber info.number).length ≤ kMaxNumberLen :=
    Nat.le_trans (List.length_filter_le _ _) hn
  refine Post.bind_gets (Post.ite (fun _ => Post.pure (refl_of Fed s)) fun _ => ?_)
  refine Post.bind (Q := fun _ s₁ => s₁.table = s.table ∧ s₁.told = s.told) ⟨rfl, rfl⟩ ?_
  rintro _ s₁ ⟨ht₁, htold₁⟩
  have hfed₁ : Fed s s₁ := .of_same htold₁ (congrArg CallTable.view ht₁)
  refine Post.bind (unnoticed_post _ s₁) fun _ s₂ hu₂ => ?_
  refine Post.bind (unnoticed_post _ s₂) fun ret s₃ hu₃ => ?_
  have hu : Unnoticed s₁ s₃ := hu₂.trans hu₃
  have h₃ : s₃.table.Inv := (hu.table.trans ht₁) ▸ h
  refine Post.ite (fun _ => ?_) fun _ => ?_
  · exact Post.mono (unnoticed_post _ s₃) fun _ _ hu₄ => hfed₁.trans (hu.trans hu₄).fed
  · exact Post.mono (enterDial_fed env h₃ hct hindex hnumber)
      fun _ _ hfed₄ => (hfed₁.trans hu.fed).trans hfed₄

/-- `DialCall`, with a legal number. -/
theorem dialLegalNumber_fed (env : Env) (h : s.table.Inv) (hindex : s.dialSrcInfo.index = 0)
    {number : Bytes} (hn : (removeSeparatorsPhoneNumber number).length ≤ kMaxNumberLen)
    (extras : DialExtras) :
    Post (CallControlManager.dialLegalNumber env number extras) s fun _ s' => Fed s s' := by
  refine Post.bind (unnoticed_post _ s) fun isEcc s₁ hu₁ => ?_
  refine Post.bind (Post.and (canDial_post env s₁ _ isEcc) (unnoticed_post _ s₁)) ?_
  rintro policy s₂ ⟨⟨-, hallowed⟩, hu₂⟩
  have hu : Unnoticed s s₂ := hu₁.trans hu₂
  refine Post.ite (fun _ => Post.pure hu.fed) fun hs => ?_
  obtain ⟨-, hallowed⟩ := hallowed (not_not.mp hs)
  refine Post.bind_gets (Post.ite (fun _ => Post.pure hu.fed) fun _ => ?_)
  refine Post.bind (Post.and (packageDialInformation_post s₂ _ _ _)
    (Post.of_moves (R := Discreet) _ s₂)) ?_
  rintro _ s₃ ⟨⟨ht₃, -, -, hi₃, hnum₃, -, -, hct₃, -⟩, hd₃⟩
  have hecc : isEcc = false → ∀ r ∈ s.table.rows, r.isEcc = false := by
    intro he
    rw [← hu₁.table]
    exact hasEmergencyCall_eq_false (hallowed.noEcc he)
  have ht₃' : s₃.table = s.table.saveDial isEcc := by rw [ht₃, hu.table]
  have hfed₃ : Fed s s₃ := by
    refine .of_same (Eq.trans hd₃ hu.told) ?_
    show s₃.table.view = s.table.view
    rw [ht₃']
    exact CallTable.view_of_rows rfl
  refine Post.bind_gets (Post.ite (fun _ => Post.pure hfed₃) fun _ => ?_)
  refine Post.ite (fun _ => Post.pure hfed₃) fun _ => Post.ite (fun _ => ?_) fun _ =>
    Post.pure hfed₃
  refine Post.mono (carrierDialProcess_fed env (ht₃' ▸ h.saveDial hecc) ?_ ?_ ?_)
    fun _ _ hfed₄ => hfed₃.trans hfed₄
  · rw [hct₃]
    exact setCallTypeExtras_callType hallowed.callType
  · rw [hi₃, hu.dialSrcInfo, hindex]
  · rw [hnum₃]
    exact hn

/-- `DialCall`. -/
theorem dialCall_fed (env : Env) (h : ServiceInv s) (caller : Caller) (number : List UInt16)
    (extras : PacMap) :
    Post (CallManagerService.dialCall env caller number extras) s fun _ s' => Fed s s' := by
  refine Post.ite (fun _ => Post.pure (refl_of Fed s)) fun _ => ?_
  refine Post.ite (fun _ => Post.pure (refl_of Fed s)) fun _ => ?_
  refine Post.ite (fun _ => Post.pure (refl_of Fed s)) fun _ => ?_
  unfold CallControlManager.dialCall
  cases hlegal : numberLegalityCheck (str16ToStr8 number) with
  | error ret => exact Post.pure (refl_of Fed s)
  | ok accountNumber =>
    exact dialLegalNumber_fed env h.table h.index (length_removeSeparators_le hlegal) _

/-! ### Every step -/

/-- **A clean step tells what it changes.** -/
theorem mainLoopStep_fed (env : Env) (h : ServiceInv s) (htold : s.table.Told) {input : Input}
    (hclean : CallTable.CleanReports (input.reports s) s.table) :
    Post (mainLoopStep env input) s fun _ s' => Fed s s' := by
  have hunnoticed : ∀ {α : Type} (m : Prog CallManager α) [Moves Quiet m] [Moves Discreet m],
      Post m s fun _ s' => Fed s s' := fun m _ _ =>
    Post.mono (unnoticed_post m s) fun _ _ hu => hu.fed
  cases input with
  | callReport info =>
    refine Post.when (fun hv => Post.ignore ?_) fun _ => refl_of Fed s
    simp only [Input.reports, hv, if_true] at hclean
    exact handleCallReportInfo_fed env h.table htold (isCarried_toDetail hv) hclean.1
  | callsReport slotId callVec =>
    refine Post.when (fun hv => Post.ignore ?_) fun _ => refl_of Fed s
    simp only [Input.reports, hv, if_true] at hclean
    have hv' := hv
    simp only [isValidReportList, Bool.and_eq_true, List.all_eq_true, decide_eq_true_eq] at hv'
    refine handleCallsReportInfo_fed env h htold hv'.1.2 (fun it hit => ?_) hclean
    obtain ⟨c, hc, rfl⟩ := List.mem_map.mp hit
    exact isCarried_toListDetail (hv'.2 c hc).1
  | disconnectedCause reason => exact hunnoticed (handleDisconnectedCause reason).ignore
  | eventResult eventId => exact Post.ignore (handleEventResultReportInfo_fed env h.table eventId)
  | dialCall caller number extras => exact Post.ignore (dialCall_fed env h caller number extras)
  | answerCall callId videoState isRTT =>
    exact hunnoticed (CallControlManager.answerCall env callId videoState isRTT).ignore
  | rejectCall callId rejectWithMessage =>
    exact hunnoticed (CallControlManager.rejectCall env callId rejectWithMessage).ignore
  | hangUpCall callId => exact hunnoticed (CallControlManager.hangUpCall env callId).ignore
  | holdCall callId => exact hunnoticed (CallControlManager.holdCall env callId).ignore
  | unHoldCall callId => exact hunnoticed (CallControlManager.unHoldCall env callId).ignore
  | switchCall callId => exact hunnoticed (CallControlManager.switchCall env callId).ignore
  | endCall => exact hunnoticed (CallControlManager.endCall env).ignore
  | nextRequest => exact hunnoticed (CallManagerMini.nextRequest env)
  | delayedTask taskId => exact delayedTask_fed env h.table taskId

/-- **A clean run tells what it changes.** -/
theorem cleanRun_fed (hs : CleanReachable s) (hrun : Relation.ReflTransGen CleanStep s s') :
    CleanReachable s' ∧ Fed s s' := by
  induction hrun with
  | refl => exact ⟨hs, refl_of Fed s⟩
  | @tail s₁ s₂ _ hstep ih =>
    obtain ⟨hs₁, hfed⟩ := ih
    refine ⟨.next hs₁ hstep, ?_⟩
    obtain ⟨env, input, hclean, rfl⟩ := hstep
    exact hfed.trans
      (mainLoopStep_fed env (reachable_inv hs₁.reachable) (cleanReachable_told hs₁) hclean)

/-! ## What is reported -/

/-- What an application learns from a report: the state of a call, or that it is gone.  The mark of
an answer says nothing about the state. -/
def Report.entry : Report → Option (Int × Option TelCallState)
  | .callDetails info => if info.callState = .answered then none else some info.news
  | _ => none

/-- The broadcast of a state says what its report says. -/
theorem Event.entry_report (e : Event) : e.report.bind Report.entry = e.told := by
  cases e with
  | callStateUpdated call prior next =>
    show (Report.callDetails (callAttributeInfo call next)).entry = _
    by_cases hnext : next = .answered
    · simp [Report.entry, Event.told, callAttributeInfo, hnext]
    · simp [Report.entry, Event.told, callAttributeInfo, CallBase.news, hnext]
  | _ => rfl

/-- What the reports of the broadcasts say, those included that the main loop did not take. -/
def CallManager.entries (s : CallManager) : List (Int × Option TelCallState) :=
  (s.log.filterMap Event.report).filterMap Report.entry

theorem CallManager.entries_eq (s : CallManager) : s.entries = s.told := by
  unfold entries told
  rw [List.filterMap_filterMap]
  exact congrArg (fun f => s.log.filterMap f) (funext Event.entry_report)

/-! ## All calls -/

/-- `GetAllCallInfoList`. -/
def getAllCallInfoList (s : CallManager) : List CallBase :=
  (s.callObjectPtrList.map s.call).filter fun c => c.callType ≠ .voip

/-- `ObserverOnCallDetailsChange`: what it returns, and what it reports.  The callback that is
registered is given by its bundle; another bundle's callback is not told. -/
def CallManagerService.observerOnCallDetailsChange (trust : TrustModel) (callback : Option Bytes)
    (s : CallManager) : RetCode × List Report :=
  if !trust.isSystemApp then (.errIllegalUseOfSystemApi, [])
  else if !trust.grants .setTelephonyState && !trust.grants .getTelephonyState then
    (.errPermissionErr, [])
  else
    (.success, if callback = some trust.bundleName then
      (getAllCallInfoList s).map Report.callDetails else [])

/-- What the list of all calls says of them. -/
theorem entries_getAllCallInfoList (h : s.table.Inv) :
    ((getAllCallInfoList s).map Report.callDetails).filterMap Report.entry =
      s.table.rows.map fun r => (r.callId, some r.callState) := by
  have hall : getAllCallInfoList s = s.callObjectPtrList.map s.call := by
    refine List.filter_eq_self.mpr fun c hc => ?_
    obtain ⟨p, hp, rfl⟩ := List.mem_map.mp hc
    -- the table has carrier calls only
    rcases (h.ok _ (s.row_mem_table hp)).carrier with ht | ht <;>
      rw [CallManager.row_callType] at ht <;> simp [ht]
  have hentry : ∀ p ∈ s.callObjectPtrList, (Report.callDetails (s.call p)).entry =
      some ((s.row p).callId, some (s.row p).callState) := fun p hp => by
    have hlive : (s.call p).callState.IsLive := (h.ok _ (s.row_mem_table hp)).live
    show (if (s.call p).callState = .answered then none else some (s.call p).news) = _
    have hstate : (s.call p).callState ≠ .answered ∧ (s.call p).callState ≠ .disconnected := by
      constructor <;> intro hst <;> simp [hst, TelCallState.IsLive] at hlive
    rw [if_neg hstate.1]
    exact congrArg (fun st => some ((s.call p).callId, st)) (if_neg hstate.2)
  rw [hall, List.map_map, List.filterMap_map]
  show _ = (s.callObjectPtrList.map s.row).map _
  rw [List.map_map, ← List.filterMap_eq_map]
  exact List.filterMap_congr hentry

/-- The state of each call as the call manager finds it. -/
theorem view_eq (s : CallManager) (callId : Int) :
    s.table.view callId = (getOneCallObject s callId).map fun p => (s.call p).callState := by
  show ((s.callObjectPtrList.map s.row).find? _).map _ = _
  rw [List.find?_map, Option.map_map]
  rfl

/-- **Whoever asks for all calls once and listens from then on knows the state of every call**, and
knows of no call that is gone, as long as the reports are clean.  A report that the main loop does
not take is dropped; of a call it only matters that the last one was taken. -/
theorem cleanRun_known (trust : TrustModel) (hsystem : trust.isSystemApp = true)
    (hgranted : trust.grants .setTelephonyState = true ∨ trust.grants .getTelephonyState = true)
    (hs : CleanReachable s) (hrun : Relation.ReflTransGen CleanStep s s')
    {known : Int → Option TelCallState}
    (hknown : ∀ callId, getOneCallObject s callId = none → known callId = none) :
    ∃ snapshot news,
      CallManagerService.observerOnCallDetailsChange trust (some trust.bundleName) s =
        (.success, snapshot) ∧
      s'.entries = s.entries ++ news ∧
      ∀ posts : List ((Int × Option TelCallState) × Bool),
        posts.map (fun x => x.1) = snapshot.filterMap Report.entry ++ news →
        ∀ callId, Feed.HeardLast posts callId →
          Feed.apply known (Feed.heard posts) callId =
            (getOneCallObject s' callId).map fun p => (s'.call p).callState := by
  have h := (reachable_inv hs.reachable).table
  obtain ⟨-, news, htold, hnews⟩ := cleanRun_fed hs hrun
  refine ⟨(getAllCallInfoList s).map Report.callDetails, news, ?_, ?_, ?_⟩
  · rcases hgranted with hg | hg <;>
      simp [CallManagerService.observerOnCallDetailsChange, hsystem, hg]
  · rw [s'.entries_eq, s.entries_eq, htold]
  · intro posts hposts callId hlast
    change Feed.apply s.table.view news = s'.table.view at hnews
    rw [Feed.apply_heard hlast, hposts, entries_getAllCallInfoList h, Feed.apply_append,
      ← view_eq, ← hnews]
    -- it is enough that the snapshot sets up the view of the table, id by id
    refine congrFun (congrArg (fun v => Feed.apply v news) (funext fun id => ?_)) callId
    have hkeys : (s.table.rows.map fun r => (r.callId, some r.callState)).map (fun x => x.1) =
        s.table.rows.map Row.callId := by rw [List.map_map]; rfl
    by_cases hmem : ∃ r ∈ s.table.rows, r.callId = id
    · obtain ⟨r, hr, rfl⟩ := hmem
      rw [CallTable.view_eq_some h hr]
      exact Feed.apply_snapshot (hkeys ▸ h.ids) (List.mem_map.mpr ⟨r, hr, rfl⟩)
    · have hview : s.table.view id = none :=
        CallTable.view_eq_none fun r hr hid => hmem ⟨r, hr, hid⟩
      -- no call has the id: nobody speaks of it, and nothing was known of it before
      rw [hview, Feed.apply_of_notMem]
      · refine hknown id ?_
        rw [view_eq] at hview
        exact Option.map_eq_none_iff.mp hview
      · rw [hkeys]
        rintro hid
        obtain ⟨r, hr, hrid⟩ := List.mem_map.mp hid
        exact hmem ⟨r, hr, hrid⟩

/-- A call is dialed and asked for, and the report of it is dropped; then it becomes active. -/
theorem cleanRun_known_active :
    let s := (mainLoopStep .obliging plainDial .init).2
    let s' := (mainLoopStep .obliging (.callReport activeReport) s).2
    (CallManagerService.observerOnCallDetailsChange trustedApp (some trustedApp.bundleName)
        s).2.filterMap Report.entry = [(1, some .dialing)] ∧
      s'.entries = s.entries ++ [(1, some .active)] ∧
      Feed.apply (fun _ : Int => none)
          (Feed.heard [((1, some .dialing), false), ((1, some .active), true)]) 1 =
        (getOneCallObject s' 1).map fun p => (s'.call p).callState := by
  intro s s'
  have hclean : CallTable.CleanReports (Input.reports s (.callReport activeReport)) s.table := by
    decide +kernel
  have hdial : CleanReachable s := .next (.start rfl) ⟨.obliging, plainDial, by decide, rfl⟩
  obtain ⟨snapshot, news, hsnapshot, hnews, hknown⟩ :=
    cleanRun_known trustedApp rfl (.inl (by decide +kernel)) hdial
      (.single ⟨.obliging, .callReport activeReport, hclean, rfl⟩ :
        Relation.ReflTransGen CleanStep s s')
      (fun _ _ => rfl : ∀ callId, getOneCallObject s callId = none →
        (fun _ : Int => (none : Option TelCallState)) callId = none)
  have hfirst : (CallManagerService.observerOnCallDetailsChange trustedApp (some trustedApp.bundleName)
      s).2.filterMap Report.entry = [(1, some .dialing)] := by decide +kernel
  have hlater : s'.entries = s.entries ++ [(1, some .active)] := by decide +kernel
  refine ⟨hfirst, hlater, hknown _ ?_ 1 (by decide)⟩
  rw [hsnapshot] at hfirst
  rw [hfirst, ← List.append_cancel_left (hlater.symm.trans hnews)]
  rfl

end CallManagerMini
