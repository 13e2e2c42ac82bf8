import CallManagerMini.DialRefinement

/-! # Main-loop steps on the table

A step hands the table the reports of its input, one after the other, and then
changes it by itself: a call fails, a dial is saved, enters, and is sent
(`LocalChange`).  What a step needs of the state besides the table's invariant is
in `ServiceInv`, which every reachable state satisfies (`reachable_inv`).
-/

namespace CallManagerMini

open Prog (Post Moves)
open Relation (ReflTransGen)

variable {s : CallManager} {env : Env} {p : Ref}

/-! ## Local changes -/

/-- What the service does to the table by itself. -/
inductive LocalChange (t : CallTable) : CallTable → Prop where
  | fail {r : Row} (hr : r ∈ t.rows) : LocalChange t (t.failCall r).2
  | saveDial {ecc : Bool} (hecc : ecc = false → ∀ r ∈ t.rows, r.isEcc = false) :
    LocalChange t (t.saveDial ecc)
  | dial {report : CallDetailInfo} (hcarried : report.IsCarried) (hindex : report.index = 0)
    (hstate : report.state = .dialing) : LocalChange t (t.addDialing report).2
  | dialed (info : CellularCallInfo) (reply : Option Int) : LocalChange t (t.dialed info reply)

/-- The service changes the table by itself, any number of times. -/
abbrev LocalChanges : CallTable → CallTable → Prop := ReflTransGen LocalChange

/-- Calls fail, any number of times. -/
abbrev Fails : CallTable → CallTable → Prop :=
  ReflTransGen fun t t' => ∃ r ∈ t.rows, t' = (t.failCall r).2

theorem Fails.localChanges {t t' : CallTable} (h : Fails t t') : LocalChanges t t' :=
  ReflTransGen.mono (fun _ _ ⟨_, hr, ht⟩ => ht ▸ .fail hr) _ _ h

/-- A report with index 0 always adds a call. -/
theorem dialing_of_index_zero {t : CallTable} {info : CallDetailInfo} (hindex : info.index = 0) :
    t.dialing info = t.addDialing info := by
  simp [CallTable.dialing, hindex]

theorem LocalChange.inv {t t' : CallTable} (h : t.Inv) (hc : LocalChange t t') : t'.Inv := by
  cases hc with
  | fail hr => exact h.failCall hr
  | saveDial hecc => exact h.saveDial hecc
  | dial hcarried hindex _ => exact dialing_of_index_zero hindex ▸ h.dialing hcarried
  | dialed info reply => exact h.dialed info reply

theorem LocalChanges.inv {t t' : CallTable} (h : t.Inv) (hc : LocalChanges t t') : t'.Inv := by
  induction hc with
  | refl => exact h
  | tail _ hstep ih => exact hstep.inv ih

/-- A dial changes the table by itself. -/
theorem DialOutcome.localChanges {t t' : CallTable} {slotId : Int} {number : Bytes}
    {ret : RetCode} (h : DialOutcome env t t' slotId number ret) : LocalChanges t t' := by
  rcases h with ⟨-, rfl⟩ | ⟨ecc, hecc, ⟨-, rfl⟩ | ⟨report, info, hcar, hidx, hst, -, -, hent⟩⟩
  · exact .refl
  · exact .single (.saveDial hecc)
  refine ReflTransGen.head (.saveDial hecc) (ReflTransGen.head (.dial hcar hidx hst) ?_)
  rcases hent with ⟨hadm, -, rfl⟩ | ⟨hadm, log, reply, -, ⟨-, -, rfl⟩ | ⟨-, -, rfl⟩⟩
  · have : (((t.saveDial ecc).addDialing report).2) = (t.saveDial ecc).created := by
      unfold CallTable.addDialing
      rw [← hst] at *
      exact congrArg Prod.snd (if_neg hadm)
    rw [this]
  · exact .single (.dialed _ _)
  · refine ReflTransGen.head (.dialed _ _) (.single (.fail ?_))
    rw [CallTable.addDialing_of_success (by rwa [dialing_state hst])]
    exact List.mem_append_right _ (List.mem_singleton.mpr rfl)

/-! ## The reports of a step -/

/-- A number read from a buffer of the guard's length is carried. -/
theorem length_cString_take_le (text : Bytes) (n : Nat) : (cString (text.take n)).length ≤ n :=
  Nat.le_trans (List.takeWhile_sublist _).length_le (List.length_take_le n text)

theorem callType_of_isValidReport {info : CallReportInfo} (h : isValidReport info = true) :
    CallType.ofInt info.callType = .cs ∨ CallType.ofInt info.callType = .ims := by
  have hct : info.callType = 0 ∨ info.callType = 1 := by
    simp only [isValidReport, Bool.and_eq_true, Bool.or_eq_true, decide_eq_true_eq] at h
    exact h.1.1.2
  rcases hct with hct | hct <;> rw [hct]
  · exact .inl rfl
  · exact .inr rfl

/-- The guard lets only carried reports through. -/
theorem isCarried_toDetail {info : CallReportInfo} (h : isValidReport info = true) :
    info.toDetail.IsCarried :=
  ⟨callType_of_isValidReport h, length_cString_take_le _ _⟩

theorem isCarried_toListDetail {info : CallReportInfo} (h : isValidReport info = true) :
    info.toListDetail.IsCarried :=
  ⟨callType_of_isValidReport h, length_cString_take_le _ _⟩

/-- Whether an entry of a list is handled: it is new, or it has changed. -/
def isHandled (recorded : List CallDetailInfo) (it : CallDetailInfo) : Bool :=
  match recorded.find? fun it1 => it.index = it1.index with
  | some it1 => hasChanged it it1
  | none => true

/-- The recorded entries that a list no longer has. -/
def vanished (recorded callVec : List CallDetailInfo) : List CallDetailInfo :=
  recorded.filter fun it2 => !callVec.any fun it3 => it2.index = it3.index

/-- The reports `HandleCallsReportInfo` makes of a list: its new and changed entries,
and the end of every call the list no longer has. -/
def handledReports (recorded callVec : List CallDetailInfo) : List CallDetailInfo :=
  callVec.filter (isHandled recorded) ++
    (vanished recorded callVec).map fun it2 => { it2 with state := .disconnected }

/-- What is recorded of a list. -/
def recordedOf (callVec : List CallDetailInfo) : List CallDetailInfo :=
  callVec.filter fun i => i.state ≠ .disconnected

/-- The reports a step hands to the table. -/
def Input.reports (s : CallManager) : Input → List CallDetailInfo
  | .callReport info => if isValidReport info then [info.toDetail] else []
  | .callsReport slotId callVec =>
    if isValidReportList slotId callVec then
      handledReports (s.callDetailsInfo slotId) (callVec.map CallReportInfo.toListDetail)
    else []
  | _ => []

/-- The lists recorded after a step. -/
def Input.recorded (s : CallManager) : Input → Int → List CallDetailInfo
  | .callsReport slotId callVec =>
    if isValidReportList slotId callVec then
      Function.update s.callDetailsInfo slotId
        (recordedOf (callVec.map CallReportInfo.toListDetail))
    else s.callDetailsInfo
  | _ => s.callDetailsInfo

theorem CallDetailInfo.IsAccepted.isCarried {info : CallDetailInfo} (h : info.IsAccepted) :
    info.IsCarried := by
  cases h with
  | single hv => exact isCarried_toDetail hv
  | listed hv hmem =>
    simp only [isValidReportList, Bool.and_eq_true, List.all_eq_true] at hv
    exact isCarried_toListDetail (hv.2 _ hmem).1

/-- What the service knows of its state at the end of every main-loop step. -/
structure ServiceInv (s : CallManager) : Prop where
  table : s.table.Inv
  /-- No dial is in progress: a dial runs to its end within its step. -/
  dialing : s.helper.isDialingCallProcessing = false
  /-- A saved dial has no index of its own. -/
  index : s.dialSrcInfo.index = 0
  /-- What is recorded of a slot went through the guard, under that slot. -/
  recorded : ∀ slotId, ∀ it ∈ s.callDetailsInfo slotId,
    it.IsCarried ∧ it.accountId = slotId ∧ it.state ≠ .disconnected

/-- A loop that hands reports to the table, some of them. -/
theorem forEach_reports (env : Env) {α : Type} {c : α → Bool} {g : α → CallDetailInfo}
    {l : List α} (hinfo : ∀ a ∈ l, (g a).IsCarried) (h : s.table.Inv) :
    Post (Prog.forEach l fun a => Prog.when (c a) (handleCallReportInfo env (g a)).ignore) s
      fun _ s' => s'.table = s.table.reports ((l.filter c).map g) ∧ Frame s s' := by
  induction l generalizing s with
  | nil => exact ⟨rfl, Frame.refl s⟩
  | cons a l ih =>
    have ih := fun {s} => @ih s fun b hb => hinfo b (List.mem_cons_of_mem a hb)
    refine Post.bind (Q := fun _ s₁ =>
      s₁.table = s.table.reports (([a].filter c).map g) ∧ Frame s s₁) ?_ ?_
    · refine Post.when (fun hc => ?_) fun hc => ?_
      · refine Post.ignore (Post.mono (handleCallReportInfo_refines env h
          (hinfo a List.mem_cons_self)) ?_)
        rintro ret s₁ ⟨hs₁, hf₁⟩
        simpa [hc, CallTable.reports] using And.intro (congrArg Prod.snd hs₁) hf₁
      · simpa [hc, CallTable.reports] using Frame.refl s
    · rintro _ s₁ ⟨ht₁, hf₁⟩
      have h₁ : s₁.table.Inv := by
        rw [ht₁]
        refine h.reports fun i hi => ?_
        obtain ⟨b, hb, rfl⟩ := List.mem_map.mp hi
        rw [List.mem_singleton.mp (List.mem_of_mem_filter hb)]
        exact hinfo a List.mem_cons_self
      refine Post.mono (ih h₁) ?_
      rintro _ s₂ ⟨ht₂, hf₂⟩
      refine ⟨?_, hf₁.trans hf₂⟩
      rw [ht₂, ht₁]
      simp only [CallTable.reports, ← List.foldl_append, ← List.map_append, ← List.filter_append,
        List.singleton_append]

/-- The two loops of `HandleCallsReportInfo`: the entries of the list that are handled, and
the recorded entries it lacks. -/
def handleEntries (env : Env) (slotId : Int) (recorded callVec : List CallDetailInfo) :
    Prog CallManager RetCode := do
  Prog.forEach callVec fun it =>
    Prog.when (isHandled recorded it) (handleCallReportInfo env it).ignore
  Prog.forEach recorded fun it2 =>
    Prog.when (!callVec.any fun it3 => it2.index = it3.index)
      (handleCallReportInfo env { it2 with state := .disconnected }).ignore
  updateCallDetailsInfo slotId callVec
  pure .success

theorem handleCallsReportInfo_eq (env : Env) {slotId : Int} (hslot : isValidSlotId slotId = true)
    (callVec : List CallDetailInfo) (s : CallManager) :
    handleCallsReportInfo env slotId callVec s =
      handleEntries env slotId (s.callDetailsInfo slotId) callVec { s with
        tmpCallDetailsInfo := Function.update s.tmpCallDetailsInfo slotId callVec } := by
  have hbody : (fun it : CallDetailInfo =>
      match (s.callDetailsInfo slotId).find? fun it1 => it.index = it1.index with
      | some it1 => Prog.when (hasChanged it it1) (handleCallReportInfo env it).ignore
      | none => (handleCallReportInfo env it).ignore) = fun it =>
        Prog.when (isHandled (s.callDetailsInfo slotId) it)
          (handleCallReportInfo env it).ignore := by
    funext it
    unfold isHandled
    split <;> simp [Prog.when]
  unfold handleCallsReportInfo handleEntries
  rw [if_neg (by simp [hslot]), ← hbody]
  rfl

theorem handleEntries_post (env : Env) (h : s.table.Inv) {recorded callVec : List CallDetailInfo}
    (hdialing : s.helper.isDialingCallProcessing = false)
    (hrecorded : ∀ it ∈ recorded, it.IsCarried) (hinfo : ∀ it ∈ callVec, it.IsCarried)
    (slotId : Int) :
    Post (handleEntries env slotId recorded callVec) s fun _ s' =>
      s'.table = s.table.reports (handledReports recorded callVec) ∧
        s'.dialSrcInfo = s.dialSrcInfo ∧
        s'.callDetailsInfo = Function.update s.callDetailsInfo slotId (recordedOf callVec) ∧
        s'.helper.isDialingCallProcessing = false := by
  refine Post.bind (forEach_reports env (g := id) hinfo h) ?_
  rintro _ s₁ ⟨ht₁, hf₁⟩
  have h₁ : s₁.table.Inv := by
    rw [ht₁]
    refine h.reports fun i hi => ?_
    obtain ⟨b, hb, rfl⟩ := List.mem_map.mp hi
    exact hinfo b (List.mem_of_mem_filter hb)
  refine Post.bind (forEach_reports env
    (fun it2 hit => (hrecorded it2 hit).withState .disconnected) h₁) ?_
  rintro _ s₂ ⟨ht₂, hf₂⟩
  refine Post.bind_modify (Post.pure ⟨?_, ?_, ?_, ?_⟩)
  · change s₂.table = _
    rw [ht₂, ht₁, List.map_id]
    exact (List.foldl_append).symm
  · exact hf₂.dialSrcInfo.trans hf₁.dialSrcInfo
  · change Function.update s₂.callDetailsInfo slotId _ = _
    rw [hf₂.callDetailsInfo, hf₁.callDetailsInfo]
    rfl
  · exact hf₂.dialing (hf₁.dialing hdialing)

/-- A list report: the reports of its two loops, in order. -/
theorem handleCallsReportInfo_post (env : Env) (h : ServiceInv s) {slotId : Int}
    (hslot : isValidSlotId slotId = true) {callVec : List CallDetailInfo}
    (hinfo : ∀ it ∈ callVec, it.IsCarried) :
    Post (handleCallsReportInfo env slotId callVec) s fun _ s' =>
      s'.table = s.table.reports (handledReports (s.callDetailsInfo slotId) callVec) ∧
        s'.dialSrcInfo = s.dialSrcInfo ∧
        s'.callDetailsInfo = Function.update s.callDetailsInfo slotId (recordedOf callVec) ∧
        s'.helper.isDialingCallProcessing = false := by
  have hcall : ∀ it ∈ s.callDetailsInfo slotId, it.IsCarried := fun it hit =>
    (h.recorded slotId it hit).1
  unfold Post
  rw [handleCallsReportInfo_eq env hslot]
  exact handleEntries_post env (s := { s with
    tmpCallDetailsInfo := Function.update s.tmpCallDetailsInfo slotId callVec })
    h.table h.dialing hcall hinfo slotId

/-! ## The steps -/

/-- What a step leads to. -/
structure StepEffect (input : Input) (s s' : CallManager) : Prop where
  table : LocalChanges (s.table.reports (input.reports s)) s'.table
  recorded : s'.callDetailsInfo = input.recorded s
  dialing : s'.helper.isDialingCallProcessing = false
  index : s'.dialSrcInfo.index = 0

/-- What a step that is no dial leads to: after its reports, calls fail at most. -/
structure StepFails (input : Input) (s s' : CallManager) : Prop where
  table : Fails (s.table.reports (input.reports s)) s'.table
  recorded : s'.callDetailsInfo = input.recorded s
  dialing : s'.helper.isDialingCallProcessing = false
  index : s'.dialSrcInfo.index = 0

theorem StepFails.effect {input : Input} {s' : CallManager} (h : StepFails input s s') :
    StepEffect input s s' :=
  ⟨h.table.localChanges, h.recorded, h.dialing, h.index⟩

/-- A step with no report, whose effect is given by a frame. -/
theorem StepFails.of_frame (h : ServiceInv s) {s' : CallManager} {input : Input}
    (hreports : input.reports s = []) (hrecorded : input.recorded s = s.callDetailsInfo)
    (hl : Fails s.table s'.table) (hf : Frame s s') : StepFails input s s' where
  table := by rw [hreports]; exact hl
  recorded := hf.callDetailsInfo.trans hrecorded.symm
  dialing := hf.dialing h.dialing
  index := by rw [hf.dialSrcInfo, h.index]

theorem StepFails.of_quiet (h : ServiceInv s) {s' : CallManager} {input : Input}
    (hreports : input.reports s = []) (hrecorded : input.recorded s = s.callDetailsInfo)
    (hq : Quiet s s') : StepFails input s s' :=
  .of_frame h hreports hrecorded (hq.table ▸ .refl) hq.toFrame

/-- The call found, if there is one, fails. -/
theorem failFound_post (env : Env) (h : s.table.Inv) {found : Option Ref}
    (hfound : ∀ p, found = some p → p ∈ s.callObjectPtrList) :
    Post (Prog.forSome found fun p => (dealFailDial env p).ignore) s fun _ s' =>
      Fails s.table s'.table ∧ Frame s s' := by
  cases found with
  | none => exact ⟨.refl, Frame.refl s⟩
  | some p =>
    have hp := hfound p rfl
    refine Post.ignore (Post.mono (dealFailDial_computes env h hp) ?_)
    rintro ret s' ⟨hs', hf⟩
    exact ⟨.single ⟨_, s.row_mem_table hp, congrArg Prod.snd hs'⟩, hf⟩

/-- `HandleEventResultReportInfo`. -/
theorem handleEventResultReportInfo_post (env : Env) (h : s.table.Inv)
    (eventId : RequestResultEventId) :
    Post (handleEventResultReportInfo env eventId) s fun _ s' =>
      Fails s.table s'.table ∧ Frame s s' := by
  refine Post.bind_gets (Post.bind (failFound_post env h fun p hp =>
    mem_of_findLastCall hp) ?_)
  rintro _ s₁ ⟨hl, hf₁⟩
  have hdone : ∀ (m : Prog CallManager RetCode) [Moves Quiet m], Post m s₁ fun _ s' =>
      Fails s.table s'.table ∧ Frame s s' := by
    intro m _
    refine Post.mono (Post.of_moves (R := Quiet) m s₁) fun _ s₂ hq => ?_
    exact ⟨hq.table ▸ hl, hf₁.trans hq.toFrame⟩
  split <;> exact hdone _

/-- A delayed task. -/
theorem delayedTask_post (env : Env) (h : s.table.Inv) (taskId : Nat) :
    Post (delayedTask env taskId) s fun _ s' =>
      Fails s.table s'.table ∧ Frame s s' := by
  refine Post.bind_gets ?_
  cases s.delayed.find? fun t => t.1 = taskId with
  | none => exact ⟨.refl, Frame.refl s⟩
  | some task =>
    refine Post.bind (Post.of_moves (R := Quiet) _ _) fun _ s₁ (hq₁ : Quiet s s₁) => ?_
    cases task.2 with
    | restoreDialingFlag =>
      refine Post.bind (Post.of_moves (R := Quiet) _ _) fun _ s₂ (hq₂ : Quiet s₁ s₂) => ?_
      have hq := (hq₁.trans hq₂).trans (Moves.rel (m := restoreDialingFlag false) s₂)
      exact ⟨hq.table ▸ .refl, hq.toFrame⟩
    | pendingHangupProtect callId =>
      refine Post.bind (Post.of_moves (R := Quiet) _ _) fun _ s₂ (hq₂ : Quiet s₁ s₂) => ?_
      have hq := hq₁.trans hq₂
      refine Post.bind_gets (Post.when (fun _ => ?_) fun _ => ⟨hq.table ▸ .refl, hq.toFrame⟩)
      have h₂ : s₂.table.Inv := hq.table ▸ h
      refine Post.bind_gets (Post.bind (failFound_post env h₂ fun p hp => mem_of_findCall hp) ?_)
      rintro _ s₃ ⟨hl₃, hf₃⟩
      refine Post.mono (Post.of_moves (R := Quiet) _ s₃) fun _ s₄ hq₄ => ?_
      rw [hq₄.table, ← hq.table]
      exact ⟨hl₃, (hq.toFrame.trans hf₃).trans hq₄.toFrame⟩

/-- A step that is no dial. -/
theorem mainLoopStep_fails (env : Env) (h : ServiceInv s) {input : Input}
    (hdial : ∀ caller number extras, input ≠ .dialCall caller number extras) :
    Post (mainLoopStep env input) s fun _ s' => StepFails input s s' := by
  have hquiet : ∀ {α : Type} (m : Prog CallManager α) [Moves Quiet m],
      input.reports s = [] → input.recorded s = s.callDetailsInfo →
      Post m s fun _ s' => StepFails input s s' := fun m _ hr hc =>
    Post.mono (Post.of_moves (R := Quiet) m s) fun _ _ hq => .of_quiet h hr hc hq
  cases input with
  | callReport info =>
    refine Post.when (fun hv => ?_) fun hv =>
      .of_quiet h (by simp [Input.reports, hv]) rfl (Quiet.refl s)
    refine Post.ignore (Post.mono (handleCallReportInfo_refines env h.table (isCarried_toDetail hv)) ?_)
    rintro ret s' ⟨hs', hf⟩
    refine ⟨?_, hf.callDetailsInfo, hf.dialing h.dialing, by rw [hf.dialSrcInfo, h.index]⟩
    rw [show s'.table = _ from congrArg Prod.snd hs']
    simp [Input.reports, hv, CallTable.reports, ReflTransGen.refl]
  | callsReport slotId callVec =>
    refine Post.when (fun hv => ?_) fun hv =>
      .of_quiet h (by simp [Input.reports, hv]) (by simp [Input.recorded, hv]) (Quiet.refl s)
    have hv' := hv
    simp only [isValidReportList, Bool.and_eq_true, List.all_eq_true, decide_eq_true_eq] at hv'
    refine Post.ignore (Post.mono (handleCallsReportInfo_post env h hv'.1.2 ?_) ?_)
    · intro it hit
      obtain ⟨c, hc, rfl⟩ := List.mem_map.mp hit
      exact isCarried_toListDetail (hv'.2 c hc).1
    · rintro ret s' ⟨ht, hd, hc, hflag⟩
      refine ⟨?_, ?_, hflag, by rw [hd, h.index]⟩
      · rw [ht]
        simp [Input.reports, hv, ReflTransGen.refl]
      · rw [hc]
        simp [Input.recorded, hv]
  | disconnectedCause reason => exact hquiet (handleDisconnectedCause reason).ignore rfl rfl
  | eventResult eventId =>
    refine Post.ignore (Post.mono (handleEventResultReportInfo_post env h.table eventId) ?_)
    exact fun _ _ hs' => .of_frame h rfl rfl hs'.1 hs'.2
  | dialCall caller number extras => exact absurd rfl (hdial caller number extras)
  | answerCall callId videoState isRTT =>
    exact hquiet (CallControlManager.answerCall env callId videoState isRTT).ignore rfl rfl
  | rejectCall callId rejectWithMessage =>
    exact hquiet (CallControlManager.rejectCall env callId rejectWithMessage).ignore rfl rfl
  | hangUpCall callId => exact hquiet (CallControlManager.hangUpCall env callId).ignore rfl rfl
  | holdCall callId => exact hquiet (CallControlManager.holdCall env callId).ignore rfl rfl
  | unHoldCall callId => exact hquiet (CallControlManager.unHoldCall env callId).ignore rfl rfl
  | switchCall callId => exact hquiet (CallControlManager.switchCall env callId).ignore rfl rfl
  | endCall => exact hquiet (CallControlManager.endCall env).ignore rfl rfl
  | nextRequest => exact hquiet (CallManagerMini.nextRequest env) rfl rfl
  | delayedTask taskId =>
    refine Post.mono (delayedTask_post env h.table taskId) ?_
    exact fun _ _ hs' => .of_frame h rfl rfl hs'.1 hs'.2

/-- **One main-loop step.** -/
theorem mainLoopStep_post (env : Env) (h : ServiceInv s) (input : Input) :
    Post (mainLoopStep env input) s fun _ s' => StepEffect input s s' := by
  cases input with
  | dialCall caller number extras =>
    have hsame : StepEffect (.dialCall caller number extras) s s :=
      (StepFails.of_quiet h rfl rfl (Quiet.refl s)).effect
    refine Post.ignore ?_
    unfold CallManagerService.dialCall
    refine Post.ite (fun _ => hsame) fun _ => ?_
    refine Post.ite (fun _ => hsame) fun _ => ?_
    refine Post.ite (fun _ => hsame) fun _ => ?_
    refine Post.mono (dialCall_post env h.table h.dialing h.index number _) ?_
    rintro ret s' ⟨hk, dialed, hout⟩
    exact ⟨hout.localChanges, hk.callDetailsInfo, hk.dialing, hk.index⟩
  | _ => exact Post.mono (mainLoopStep_fails env h nofun) fun _ _ hs' => hs'.effect

/-! ## Reachable states -/

theorem mem_vanished {recorded callVec : List CallDetailInfo} {it : CallDetailInfo} :
    it ∈ vanished recorded callVec ↔ it ∈ recorded ∧ ∀ it3 ∈ callVec, it.index ≠ it3.index := by
  simp [vanished]

/-- Every report of a step is carried. -/
theorem ServiceInv.isCarried (h : ServiceInv s) {input : Input} :
    ∀ i ∈ input.reports s, i.IsCarried := by
  intro i hi
  cases input with
  | callReport info =>
    simp only [Input.reports] at hi
    split at hi
    · next hv => exact List.mem_singleton.mp hi ▸ isCarried_toDetail hv
    · cases hi
  | callsReport slotId callVec =>
    simp only [Input.reports] at hi
    split at hi
    · next hv =>
      simp only [isValidReportList, Bool.and_eq_true, List.all_eq_true, decide_eq_true_eq] at hv
      rcases List.mem_append.mp hi with hi | hi
      · obtain ⟨c, hc, rfl⟩ := List.mem_map.mp (List.mem_of_mem_filter hi)
        exact isCarried_toListDetail (hv.2 c hc).1
      · obtain ⟨it, hit, rfl⟩ := List.mem_map.mp hi
        exact (h.recorded slotId it (mem_vanished.mp hit).1).1.withState .disconnected
    · cases hi
  | _ => cases hi

/-- What a step records went through the guard. -/
theorem ServiceInv.recorded_step (h : ServiceInv s) (input : Input) :
    ∀ slotId, ∀ it ∈ input.recorded s slotId,
      it.IsCarried ∧ it.accountId = slotId ∧ it.state ≠ .disconnected := by
  cases input with
  | callsReport slot callVec =>
    intro slotId it hit
    simp only [Input.recorded] at hit
    split at hit
    · next hv =>
      simp only [isValidReportList, Bool.and_eq_true, List.all_eq_true, decide_eq_true_eq] at hv
      by_cases hs : slotId = slot
      · subst hs
        rw [Function.update_self] at hit
        obtain ⟨hmem, hst⟩ := List.mem_filter.mp hit
        obtain ⟨c, hc, rfl⟩ := List.mem_map.mp hmem
        exact ⟨isCarried_toListDetail (hv.2 c hc).1, (hv.2 c hc).2, by simpa using hst⟩
      · rw [Function.update_of_ne hs] at hit
        exact h.recorded slotId it hit
    · exact h.recorded slotId it hit
  | _ => exact h.recorded

theorem StepEffect.inv {input : Input} {s' : CallManager} (h : ServiceInv s)
    (he : StepEffect input s s') : ServiceInv s' where
  table := he.table.inv (h.table.reports h.isCarried)
  dialing := he.dialing
  index := he.index
  recorded := by rw [he.recorded]; exact h.recorded_step input

theorem serviceInv_init : ServiceInv CallManager.init where
  table := CallTable.inv_empty
  dialing := rfl
  index := rfl
  recorded := by simp [CallManager.init]

/-- One step keeps what the service knows of its state. -/
theorem ServiceInv.step (h : ServiceInv s) {s' : CallManager} (hstep : MainLoopStep s s') :
    ServiceInv s' := by
  obtain ⟨env, input, rfl⟩ := hstep
  exact (mainLoopStep_post env h input).inv h

/-- **Every reachable state satisfies the invariant.** -/
theorem reachable_inv (hs : Reachable s) : ServiceInv s :=
  hs.invariant (fun _ h => h ▸ serviceInv_init) fun _ _ h hstep => h.step hstep

/-- **The call table of every reachable state.**  Ids are distinct, the table is
never overfull, one place is kept for an emergency call, and a numbered place of a
slot belongs to one call. -/
theorem reachable_callTable (hs : Reachable s) :
    (s.callObjectPtrList.map fun p => (s.call p).callId).Nodup ∧
      s.callObjectPtrList.length ≤ miniMaxCallObjects ∧
      (s.callObjectPtrList.countP fun p => !(s.call p).isEcc) ≤ miniMaxCallObjects - 1 ∧
      s.callObjectPtrList.Pairwise fun p q =>
        ¬(0 < (s.call p).index ∧ (s.call p).slotId = (s.call q).slotId ∧
          (s.call p).index = (s.call q).index) := by
  have h := (reachable_inv hs).table
  have hids : (s.callObjectPtrList.map fun p => (s.call p).callId).Nodup := by
    have := h.ids
    rwa [CallManager.table, List.map_map] at this
  refine ⟨hids, ?_, ?_, ?_⟩
  · simpa [CallManager.table] using h.length_le
  · have := h.nonEcc_le
    rwa [CallManager.table, List.countP_map] at this
  · have hne := List.pairwise_map.mp hids
    refine hne.imp_of_mem fun hp hq hid hplace => hid ?_
    exact h.places _ (s.row_mem_table hp) _ (s.row_mem_table hq) hplace.1 hplace.2.1 hplace.2.2

/-- A normal call, and an emergency call dialed next to it. -/
theorem reachable_callTable_ecc :
    let s := CallManager.run
      [(.obliging, .callReport (ringingReport 1)),
        (.obliging, .dialCall ⟨true, true⟩ [49, 49, 50] fun _ => none)]
    s.callObjectPtrList.length = 2 ∧
      s.callObjectPtrList.Pairwise fun p q =>
        ¬(0 < (s.call p).index ∧ (s.call p).slotId = (s.call q).slotId ∧
          (s.call p).index = (s.call q).index) := by
  refine ⟨by decide +kernel, (reachable_callTable (reachable_run _)).2.2.2⟩

/-- The running state of a call object is the one that goes with its call state, and the call is
under way: it has been set up, and it has not ended. -/
structure CallBase.RunningFollows (c : CallBase) : Prop where
  dialing : c.callState = .dialing ∨ c.callState = .alerting → c.callRunningState = .dialing
  ringing : c.callState = .incoming ∨ c.callState = .waiting → c.callRunningState = .ringing
  active : c.callState = .active → c.callRunningState = .active
  hold : c.callState = .holding → c.callRunningState = .hold
  ending : c.callState = .disconnecting → c.callRunningState = .ending
  running : c.callRunningState ≠ .create ∧ c.callRunningState ≠ .connecting ∧
    c.callRunningState ≠ .ended
  state : c.callState ≠ .disconnected ∧ c.callState ≠ .idle ∧ c.callState ≠ .answered

theorem CallBase.runningFollows_of_live {c : CallBase} (hlive : c.callState.IsLive)
    (hrun : c.callRunningState = runningOf c.callState) : c.RunningFollows := by
  unfold TelCallState.IsLive at hlive
  constructor <;> rcases hlive with h | h | h | h | h | h | h <;> simp [hrun, h, runningOf]

/-- **The running state follows the call state**, of every call of every reachable state. -/
theorem reachable_runningFollows (hs : Reachable s) :
    ∀ p ∈ s.callObjectPtrList, (s.call p).RunningFollows := by
  intro p hp
  have hok := (reachable_inv hs).table.ok (s.row p) (s.row_mem_table hp)
  exact CallBase.runningFollows_of_live hok.live hok.running

/-- A ringing call that was put on hold, next to an emergency call. -/
theorem reachable_runningFollows_held :
    let s := CallManager.run
      [(.obliging, .callReport (ringingReport 1)),
        (.obliging, .callReport { ringingReport 1 with state := 1 }),
        (.obliging, .dialCall ⟨true, true⟩ [49, 49, 50] fun _ => none)]
    s.callObjectPtrList.length = 2 ∧ ∀ p ∈ s.callObjectPtrList, (s.call p).RunningFollows :=
  ⟨by decide +kernel, reachable_runningFollows (reachable_run _)⟩

end CallManagerMini
