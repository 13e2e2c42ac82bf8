import CallManagerMini.ControlEffects
import CallManagerMini.DialEffects
import CallManagerMini.StateChain

/-! # Dials that are refused

`DialCall` asks its policies first, and a dial they refuse has touched nothing.  Then
it saves the dial, makes way for an emergency call, and adds the call; a dial that is
refused from there on leaves behind what it saved, and the calls it hung up.
`dialCall_untouched_iff` says exactly which dials keep the state.
-/

namespace CallManagerMini

open Prog (Post Moves)

variable {s s' : CallManager} {env : Env} {p : Ref}

/-! ## What a dial asks -/

section Asks

instance : Asking Still where
  refl := .refl
  trans _ _ _ := .trans
  asked _ _ _ := .logged rfl
  posted _ _ := .logged rfl

instance : Tasking Still where
  tasks s _ _ _ := { Still.refl s with }
  restoreTask s _ := { Still.refl s with }
  dialed s := { Still.refl s with }

instance (flag : Bool) : Moves Still (restoreDialingFlag flag) :=
  .of_modify fun s => { Still.refl s with }

end Asks

/-! ## The dial in three parts -/

/-- The code of the two tests before the dial is saved. -/
def screenCode (ret : RetCode) (isEcc busy : Bool) : RetCode :=
  if ret ≠ .success then ret else if !isEcc && busy then .callErrCallCountsExceedLimit else .success

/-- What `DialCall` asks before it saves the dial: its code, and what it goes on with. -/
def screenDial (env : Env) (accountNumber : Bytes) (extras : DialExtras) :
    Prog CallManager (RetCode × DialExtras × Bool) := do
  let newPhoneNum := removeSeparatorsPhoneNumber accountNumber
  let isEcc ← ask env (.isEmergencyPhoneNumber newPhoneNum extras.accountId)
  let extras := if isEcc then { extras with dialScene := DialScene.emergency.toInt } else extras
  let policy ← canDial env extras isEcc
  let busy ← Prog.gets hasNewCall
  pure (screenCode policy.1 isEcc busy, policy.2, isEcc)

/-- What `CarrierDialProcess` does up to the Dial command. -/
def prepareDial (env : Env) (info : DialParaInfo) : Prog CallManager RetCode := do
  restoreDialingFlag true
  setDialingCallProcessing env
  let newPhoneNum := removeSeparatorsPhoneNumber info.number
  let ret ← handleDialingInfo env newPhoneNum info
  if ret ≠ .success then pure ret
  else updateCallReportInfo env { info with number := newPhoneNum } .dialing

instance {R : CallManager → CallManager → Prop} [Asking R] (accountNumber : Bytes)
    (extras : DialExtras) : Moves R (screenDial env accountNumber extras) := by
  unfold screenDial; infer_instance

theorem screened_eq (ret : RetCode) (isEcc : Bool) (m : Prog CallManager RetCode) :
    (if ret ≠ .success then pure ret
      else do
        let busy ← Prog.gets hasNewCall
        if !isEcc && busy then pure .callErrCallCountsExceedLimit else m) =
      (do
        let busy ← Prog.gets hasNewCall
        if screenCode ret isEcc busy ≠ .success then pure (screenCode ret isEcc busy) else m) := by
  funext s
  by_cases hret : ret = .success
  · cases isEcc <;> cases hbusy : hasNewCall s <;> simp [screenCode, hret, hbusy]
  · simp [screenCode, hret]

theorem dialLegalNumber_eq (env : Env) (accountNumber : Bytes) (extras : DialExtras) :
    CallControlManager.dialLegalNumber env accountNumber extras = (do
      let x ← screenDial env accountNumber extras
      if x.1 ≠ .success then pure x.1
      else do
        CallControlManager.packageDialInformation (setCallTypeExtras x.2.1)
          (removeSeparatorsPhoneNumber accountNumber) x.2.2
        dialRequest env) := by
  unfold CallControlManager.dialLegalNumber
  simp only [screened_eq]
  rfl

theorem carrierDialProcess_eq (env : Env) (info : DialParaInfo)
    (hflag : s.helper.isDialingCallProcessing = false) :
    carrierDialProcess env info s = (do
      let ret ← prepareDial env info
      if ret ≠ RetCode.success then abandonDial ret else handleStartDial env info) s := by
  have hprepared : ∀ ret : RetCode, ∀ m : Prog CallManager RetCode,
      (if ret ≠ .success then abandonDial ret
        else do
          let ret ← m
          if ret ≠ .success then abandonDial ret else handleStartDial env info) =
        (if ret ≠ .success then pure ret else m) >>= fun ret =>
          if ret ≠ .success then abandonDial ret else handleStartDial env info := by
    intro ret m
    by_cases hret : ret = .success
    · simp [hret]
    · simp only [hret, ne_eq, not_false_eq_true, if_true]
      funext s
      simp [hret]
  unfold carrierDialProcess
  simp only [hprepared]
  rw [Prog.bind_apply, Prog.gets_apply, if_neg (by simp [hflag])]
  rfl

/-! ## Making way -/

section Still
variable (h : Still s s')
include h

theorem Still.findCall (f : CallBase → Bool) : s'.findCall f = s.findCall f := by
  unfold CallManager.findCall
  rw [h.list]
  exact List.find?_congr fun p hp => by rw [h.call p hp]

theorem Still.anyCall (f : CallBase → Bool) : s'.anyCall f = s.anyCall f := by
  unfold CallManager.anyCall
  rw [h.list, Bool.eq_iff_iff, List.any_eq_true, List.any_eq_true]
  exact exists_congr fun p => and_congr_right fun hp => by rw [h.call p hp]

theorem Still.getCarrierCallList : getCarrierCallList s' = getCarrierCallList s := by
  unfold CallManagerMini.getCarrierCallList
  rw [h.list, List.filter_congr fun p hp => by rw [h.call p hp]]
  exact List.map_congr_left fun p hp => by rw [h.call p (List.mem_of_mem_filter hp)]

theorem Still.isNewCallAllowedCreate : isNewCallAllowedCreate s' = isNewCallAllowedCreate s := by
  have hcounts : countsAsCall s' = countsAsCall s := by
    funext callId
    unfold countsAsCall getOneCallObject
    rw [h.findCall]
    cases hp : s.findCall fun c => c.callId = callId with
    | none => rfl
    | some p => simp only [h.call p (mem_of_findCall hp), h.imsConference]
  unfold CallManagerMini.isNewCallAllowedCreate
  rw [h.anyCall, h.getCarrierCallList, hcounts]

end Still

/-- The calls `EccDialPolicy` looks at. -/
def eccCalls (s : CallManager) : List Ref := (getCarrierCallList s).filterMap (getOneCallObject s)

/-- An emergency call is being set up. -/
def isEccBusy (s : CallManager) : Bool :=
  (eccCalls s).any fun p =>
    (s.call p).callType ≠ .satellite && (s.call p).isSettingUp && (s.call p).isEcc

/-- `EccDialPolicy` finds somebody to hang up or to reject. -/
def findsCallsToEnd (s : CallManager) : Bool :=
  (eccCalls s).any fun p => (s.call p).eccHangsUp || (s.call p).eccRejects

theorem sendCommand_outgoing (env : Env) (c : Command) (s : CallManager) :
    (sendCommand env c s).2.outgoing = s.outgoing ++ [.command c (env.stack s.log c)] :=
  outgoing_logged rfl

theorem hangUpCall_outgoing (env : Env) (p : Ref) (s : CallManager) :
    (hangUpCall env p s).2.outgoing.length = s.outgoing.length + 1 := by
  simp [hangUpCall, getCall, sendCommand_outgoing]

theorem rejectCall_outgoing (env : Env) (p : Ref) (s : CallManager) :
    (rejectCall env p s).2.outgoing.length = s.outgoing.length + 1 := by
  simp [rejectCall, modifyCall, getCall, sendCommand_outgoing]
  rfl

theorem forEach_outgoing {f : Ref → Prog CallManager Unit}
    (hf : ∀ p s, (f p s).2.outgoing.length = s.outgoing.length + 1) (calls : List Ref)
    (s : CallManager) :
    (Prog.forEach calls f s).2.outgoing.length = s.outgoing.length + calls.length := by
  induction calls generalizing s with
  | nil => rfl
  | cons p calls ih =>
    rw [Prog.forEach_cons, ih, hf, List.length_cons]
    omega

theorem eccDialPolicy_eq (env : Env) (s : CallManager) :
    eccDialPolicy env s =
      if isEccBusy s then (.callErrCallCountsExceedLimit, s)
      else
        (.success,
          (Prog.forEach ((eccCalls s).filter fun p => (s.call p).eccRejects)
            (fun p => (rejectCall env p).ignore)
            (Prog.forEach ((eccCalls s).filter fun p => (s.call p).eccHangsUp)
              (fun p => (hangUpCall env p).ignore) s).2).2) := by
  simp only [eccDialPolicy, Prog.bind_apply, Prog.gets_apply]
  exact Prog.ite_apply' _ _ _ s

theorem mem_of_eccCalls (hp : p ∈ eccCalls s) : p ∈ s.callObjectPtrList := by
  obtain ⟨callId, -, hp⟩ := List.mem_filterMap.mp hp
  exact mem_of_findCall hp

section Still
variable (h : Still s s')
include h

theorem Still.eccCalls : eccCalls s' = eccCalls s := by
  have hone : getOneCallObject s' = getOneCallObject s := by
    funext callId
    exact h.findCall _
  unfold CallManagerMini.eccCalls
  rw [h.getCarrierCallList, hone]

theorem Still.any_eccCalls (f : CallBase → Bool) :
    ((CallManagerMini.eccCalls s').any fun p => f (s'.call p)) =
      (CallManagerMini.eccCalls s).any fun p => f (s.call p) := by
  rw [h.eccCalls, Bool.eq_iff_iff, List.any_eq_true, List.any_eq_true]
  exact exists_congr fun p => and_congr_right fun hp => by rw [h.call p (mem_of_eccCalls hp)]

theorem Still.isEccBusy : isEccBusy s' = isEccBusy s :=
  h.any_eccCalls fun c => c.callType ≠ .satellite && c.isSettingUp && c.isEcc

theorem Still.findsCallsToEnd : findsCallsToEnd s' = findsCallsToEnd s :=
  h.any_eccCalls fun c => c.eccHangsUp || c.eccRejects

end Still

/-- Who has to be ended is told to the stack; if there is nobody, nothing happens. -/
theorem eccDialPolicy_outgoing (env : Env) (h : isEccBusy s = false) :
    (eccDialPolicy env s).2.outgoing.length = s.outgoing.length +
      ((eccCalls s).filter fun p => (s.call p).eccHangsUp).length +
      ((eccCalls s).filter fun p => (s.call p).eccRejects).length := by
  rw [eccDialPolicy_eq, if_neg (Bool.eq_false_iff.mp h)]
  rw [forEach_outgoing fun p s => rejectCall_outgoing env p s,
    forEach_outgoing fun p s => hangUpCall_outgoing env p s]

theorem eccDialPolicy_ends (env : Env) (h : isEccBusy s = false)
    (hends : findsCallsToEnd s = true) :
    s.outgoing.length < (eccDialPolicy env s).2.outgoing.length := by
  rw [eccDialPolicy_outgoing env h]
  obtain ⟨p, hp, hend⟩ := List.any_eq_true.mp hends
  rcases Bool.or_eq_true_iff.mp hend with hend | hend
  · have hmem : p ∈ (eccCalls s).filter fun p => (s.call p).eccHangsUp :=
      List.mem_filter.mpr ⟨hp, hend⟩
    have := List.length_pos_of_mem hmem
    omega
  · have hmem : p ∈ (eccCalls s).filter fun p => (s.call p).eccRejects :=
      List.mem_filter.mpr ⟨hp, hend⟩
    have := List.length_pos_of_mem hmem
    omega

theorem eccDialPolicy_still (env : Env) (h : isEccBusy s = false)
    (hnobody : findsCallsToEnd s = false) : Still s (eccDialPolicy env s).2 := by
  have hnone := List.any_eq_false.mp hnobody
  have hhang : (eccCalls s).filter (fun p => (s.call p).eccHangsUp) = [] :=
    List.filter_eq_nil_iff.mpr fun p hp hends => hnone p hp (by rw [hends]; rfl)
  have hreject : (eccCalls s).filter (fun p => (s.call p).eccRejects) = [] :=
    List.filter_eq_nil_iff.mpr fun p hp hends => hnone p hp (by rw [hends, Bool.or_true])
  rw [eccDialPolicy_eq, if_neg (Bool.eq_false_iff.mp h), hhang, hreject]
  exact .refl s

/-! ## Adding the call -/

theorem createNewCall_still (env : Env) (h : s.table.Inv) {info : CallDetailInfo}
    (dir : CallDirection) : Post (createNewCall env info dir) s fun _ s' => Still s s' := by
  refine Post.bind (Q := fun _ s₁ => Still s s₁ ∧ s₁.calls = s.calls)
    ⟨{ Still.refl s with }, rfl⟩ ?_
  rintro para s₁ ⟨hs₁, hc₁⟩
  refine Post.ite (fun _ => Post.pure hs₁) fun _ => Post.bind_gets ?_
  refine Post.bind (Q := fun _ s₂ => Still s s₂) ?_ fun _ _ hs₂ => Post.pure hs₂
  refine hs₁.trans { Still.refl s₁ with call := fun q hq => Heap.get_alloc_of_lt _ _ ?_ }
  rw [hc₁]
  exact h.lt_next (hs₁.list ▸ hq)

theorem admission_iff (h : s.table.Inv) (report : CallDetailInfo) :
    s.table.created.admission (s.table.newRow report .outgoing) = .success ↔
      s.callObjectPtrList.length < callObjectLimit s.dialSrcInfo.isEcc := by
  rw [CallTable.admission_newRow h,
    show s.table.rows.length = s.callObjectPtrList.length from List.length_map _]
  rfl

/-- A call the table refuses has touched nothing. -/
theorem addDialingCall_refused (env : Env) (h : s.table.Inv) {report : CallDetailInfo}
    (hcarried : report.IsCarried)
    (hroom : ¬s.callObjectPtrList.length < callObjectLimit s.dialSrcInfo.isEcc) :
    Post (addDialingCall env report) s fun ret s' => ret ≠ .success ∧ Still s s' := by
  have hadm := mt (admission_iff h report).mp hroom
  refine Post.bind (Q := fun created s₁ => created = some s.calls.next ∧
    Created s s₁ report .outgoing ∧ Still s s₁) ?_ ?_
  · exact ⟨(createNewCall_post env h hcarried .outgoing).1,
      (createNewCall_post env h hcarried .outgoing).2, createNewCall_still env h .outgoing⟩
  rintro _ s₁ ⟨rfl, hc₁, hs₁⟩
  have hcode : (addOneCallObject s.calls.next s₁).1 ≠ .success := by
    rw [(addOneCallObject_post s₁ s.calls.next).1, hc₁.table, hc₁.row]
    exact hadm
  refine Post.bind (Q := fun ret s₂ => ret ≠ .success ∧ Still s s₂) ⟨hcode, ?_⟩ ?_
  · unfold addOneCallObject at hcode ⊢
    split_ifs at hcode ⊢ with hany hfull
    · exact hs₁
    · exact hs₁
    · exact absurd rfl hcode
  · rintro ret s₂ ⟨hne, hs₂⟩
    rw [if_pos hne]
    exact Post.pure ⟨hne, hs₂⟩

/-! ## Admission -/

/-- The state in which `CarrierDialProcess` asks its policy: the dialing flag is up. -/
def flagRaised (env : Env) (s : CallManager) : CallManager :=
  (do
    restoreDialingFlag true
    setDialingCallProcessing env : Prog CallManager Unit) s |>.2

theorem flagRaised_still (env : Env) (s : CallManager) : Still s (flagRaised env s) :=
  Moves.rel (m := do
    restoreDialingFlag true
    setDialingCallProcessing env) s

theorem flagRaised_table (env : Env) (s : CallManager) : (flagRaised env s).table = s.table :=
  (Moves.rel (R := Quiet) (m := setDialingCallProcessing env) (restoreDialingFlag true s).2).table

/-- `CarrierDialProcess` takes the saved dial for an emergency dial. -/
def isEmergencyDial (env : Env) (s : CallManager) : Bool :=
  env.answer (flagRaised env s).log
    (.isEmergencyPhoneNumber (removeSeparatorsPhoneNumber s.dialSrcInfo.number)
      s.dialSrcInfo.accountId)

/-- The policy of the saved dial allows it, and the table has room for its call. -/
structure DialAdmitted (env : Env) (s : CallManager) : Prop where
  allowed : if isEmergencyDial env s then isEccBusy s = false else isNewCallAllowedCreate s = true
  room : s.callObjectPtrList.length < callObjectLimit s.dialSrcInfo.isEcc

instance (env : Env) (s : CallManager) : Decidable (DialAdmitted env s) :=
  decidable_of_iff ((if isEmergencyDial env s then isEccBusy s = false
      else isNewCallAllowedCreate s = true) ∧
      s.callObjectPtrList.length < callObjectLimit s.dialSrcInfo.isEcc)
    ⟨fun h => ⟨h.1, h.2⟩, fun h => ⟨h.1, h.2⟩⟩

/-- The saved dial makes way for an emergency call at the expense of somebody. -/
def EndsCalls (env : Env) (s : CallManager) : Prop :=
  isEmergencyDial env s = true ∧ isEccBusy s = false ∧ findsCallsToEnd s = true

instance (env : Env) (s : CallManager) : Decidable (EndsCalls env s) := by
  unfold EndsCalls; infer_instance

/-- What the dial has done to `s` if it gets no further. -/
def Withdrawn (env : Env) (s s' : CallManager) : Prop :=
  if EndsCalls env s then s.outgoing.length < s'.outgoing.length else Still s s'

theorem handleDialingInfo_post (env : Env) (s : CallManager) :
    Post (handleDialingInfo env (removeSeparatorsPhoneNumber s.dialSrcInfo.number) s.dialSrcInfo)
      (flagRaised env s) fun ret s' => Withdrawn env s s' ∧
        (ret = .success ↔
          if isEmergencyDial env s then isEccBusy s = false
          else isNewCallAllowedCreate s = true) := by
  refine Post.bind (Q := fun isEcc s₁ => isEcc = isEmergencyDial env s ∧ Still s s₁)
    ⟨rfl, (flagRaised_still env s).trans (Moves.rel (m := ask env _) _)⟩ ?_
  rintro _ s₁ ⟨rfl, hs⟩
  refine Post.ite (fun hecc => ?_) fun hecc => ?_
  · show Withdrawn env s (eccDialPolicy env s₁).2 ∧ ((eccDialPolicy env s₁).1 = .success ↔ _)
    rw [if_pos hecc, Withdrawn]
    cases hbusy : isEccBusy s with
    | true =>
      rw [eccDialPolicy_eq, hs.isEccBusy, hbusy, if_neg fun hends => by
        rw [EndsCalls, hbusy] at hends
        cases hends.2.1]
      exact ⟨hs, by simp⟩
    | false =>
      have hbusy₁ : isEccBusy s₁ = false := hs.isEccBusy.trans hbusy
      refine ⟨?_, by rw [eccDialPolicy_eq, hbusy₁]; simp⟩
      split
      · next hends =>
        have := eccDialPolicy_ends env hbusy₁ (hs.findsCallsToEnd.trans hends.2.2)
        rwa [hs.outgoing] at this
      · next hends =>
        have hnobody : findsCallsToEnd s = false :=
          Bool.eq_false_iff.mpr fun hf => hends ⟨hecc, hbusy, hf⟩
        exact hs.trans (eccDialPolicy_still env hbusy₁ (hs.findsCallsToEnd.trans hnobody))
  · refine Post.bind_gets (Post.pure ⟨?_, ?_⟩)
    · rw [Withdrawn, if_neg fun hends => hecc hends.1]
      exact hs
    · rw [if_neg hecc, hs.isNewCallAllowedCreate]
      cases isNewCallAllowedCreate s <;> simp

/-- A saved dial, fit to be processed. -/
structure SavedDial (s : CallManager) : Prop where
  inv : s.table.Inv
  flag : s.helper.isDialingCallProcessing = false
  callType : s.dialSrcInfo.callType = .cs ∨ s.dialSrcInfo.callType = .ims
  index : s.dialSrcInfo.index = 0
  number : s.dialSrcInfo.number.length ≤ kMaxNumberLen

/-- The local report of the saved dial. -/
def savedReport (s : CallManager) : CallDetailInfo :=
  s.dialSrcInfo.dialReport (removeSeparatorsPhoneNumber s.dialSrcInfo.number)

theorem SavedDial.isCarried (h : SavedDial s) : (savedReport s).IsCarried :=
  ⟨h.callType, Nat.le_trans (List.length_filter_le _ _) h.number⟩

theorem Withdrawn.still (hw : Withdrawn env s s') {s'' : CallManager} (hs : Still s' s'') :
    Withdrawn env s s'' := by
  unfold Withdrawn at hw ⊢
  split
  · next hends =>
    rw [if_pos hends] at hw
    rwa [hs.outgoing]
  · next hends =>
    rw [if_neg hends] at hw
    exact hw.trans hs

theorem prepareDial_rule (env : Env) {info : DialParaInfo} {Q : RetCode → CallManager → Prop}
    (h : Post (do
      let number := removeSeparatorsPhoneNumber info.number
      let ret ← handleDialingInfo env number info
      if ret ≠ .success then pure ret
      else updateCallReportInfo env { info with number := number } .dialing) (flagRaised env s) Q) :
    Post (prepareDial env info) s Q := h

theorem prepareDial_post (env : Env) (h : SavedDial s) :
    Post (prepareDial env s.dialSrcInfo) s fun ret s' =>
      if DialAdmitted env s then ret = .success ∧ DialAdded s s' (savedReport s)
      else ret ≠ .success ∧ s'.history = s.history ∧ Withdrawn env s s' := by
  refine prepareDial_rule env ?_
  refine Post.bind (Q := fun ret s₁ => s₁.table = s.table ∧ s₁.dialSrcInfo = s.dialSrcInfo ∧
    Withdrawn env s s₁ ∧ (ret = RetCode.success ↔ if isEmergencyDial env s then isEccBusy s = false
      else isNewCallAllowedCreate s = true)) ?_ ?_
  · have hq := Moves.rel (R := Quiet) (m := handleDialingInfo env
      (removeSeparatorsPhoneNumber s.dialSrcInfo.number) s.dialSrcInfo) (flagRaised env s)
    exact ⟨hq.table.trans (flagRaised_table env s),
      hq.dialSrcInfo.trans (flagRaised_still env s).dialSrcInfo, handleDialingInfo_post env s⟩
  rintro ret s₁ ⟨ht₁, hd₁, hw₁, hret⟩
  refine Post.ite (fun hne => Post.pure ?_) fun heq => ?_
  · rw [if_neg fun hadm => hne (hret.mpr hadm.allowed)]
    exact ⟨hne, congrArg CallTable.history ht₁, hw₁⟩
  have hallowed := hret.mp (not_not.mp heq)
  have h₁ : s₁.table.Inv := ht₁ ▸ h.inv
  have hlen : s₁.callObjectPtrList.length = s.callObjectPtrList.length := by
    have := congrArg (fun t => t.rows.length) ht₁
    simpa [CallManager.table] using this
  have hnumber : (removeSeparatorsPhoneNumber s.dialSrcInfo.number).length ≤ kMaxNumberLen :=
    h.isCarried.number
  rw [updateCallReportInfo_dialing env h.index hnumber]
  have hadd := addDialingCall_post env h₁ h.isCarried rfl
  by_cases hroom : s.callObjectPtrList.length < callObjectLimit s.dialSrcInfo.isEcc
  · have hadm := (admission_iff h.inv (savedReport s)).mpr hroom
    refine Post.mono hadd ?_
    rintro ret s₂ ⟨hs₂, -, -⟩
    rw [if_pos ⟨hallowed, hroom⟩]
    rw [ht₁] at hs₂
    have hret : ret = (s.table.addDialing (savedReport s)).1 := congrArg Prod.fst hs₂
    refine ⟨?_, dialAdded_of_table h.inv h.isCarried h.index rfl hadm (congrArg Prod.snd hs₂)⟩
    rw [hret]
    exact congrArg Prod.fst (CallTable.addDialing_of_success hadm)
  · have hroom₁ : ¬s₁.callObjectPtrList.length < callObjectLimit s₁.dialSrcInfo.isEcc := by
      rwa [hlen, hd₁]
    have hadm := mt (admission_iff h.inv (savedReport s)).mp hroom
    have hboth : Post (addDialingCall env (savedReport s)) s₁ fun ret s' =>
        (ret, s'.table) = s₁.table.addDialing (savedReport s) ∧ ret ≠ .success ∧ Still s₁ s' :=
      ⟨hadd.1, addDialingCall_refused env h₁ h.isCarried hroom₁⟩
    refine Post.mono hboth ?_
    rintro ret s₂ ⟨hs₂, hne, hstill⟩
    rw [if_neg fun hadm => hroom hadm.room]
    refine ⟨hne, ?_, hw₁.still hstill⟩
    have hhist : s₂.history = (s₁.table.addDialing (savedReport s)).2.history :=
      congrArg CallTable.history (congrArg Prod.snd hs₂)
    have hrefused : s.table.addDialing (savedReport s) =
        (s.table.created.admission (s.table.newRow (savedReport s) .outgoing), s.table.created) :=
      if_neg hadm
    rw [hhist, ht₁, hrefused]
    rfl

/-! ## The saved dial is processed -/

/-- The Dial command of the saved dial finds a registered stack. -/
def findsStack (env : Env) (s : CallManager) : Bool :=
  (env.stack (prepareDial env s.dialSrcInfo s).2.log
    (.dial s.dialSrcInfo.packCellularCallInfo)).isSome

/-- Every mark but the entry of a call is heard outside. -/
theorem countP_history {f : Mark → Bool} (hf : ∀ callId st, f (.added callId st) = false)
    (s : CallManager) : s.history.countP f = (s.outgoing.filterMap Event.mark).countP f := by
  unfold CallManager.history CallManager.outgoing
  induction s.log with
  | nil => rfl
  | cons e l ih =>
    cases e with
    | callAdded callId st =>
      have : Event.mark (.callAdded callId st) = some (.added callId st) := rfl
      rw [List.filterMap_cons_some this, List.filter_cons_of_neg (by simp [Event.isOutgoing]),
        List.countP_cons_of_neg (by simp [hf]), ih]
    | query q a =>
      rw [List.filterMap_cons_none rfl, List.filter_cons_of_neg (by simp [Event.isOutgoing]), ih]
    | audio r a =>
      rw [List.filterMap_cons_none rfl, List.filter_cons_of_neg (by simp [Event.isOutgoing]), ih]
    | posted a =>
      rw [List.filterMap_cons_none rfl, List.filter_cons_of_neg (by simp [Event.isOutgoing]), ih]
    | _ =>
      rw [List.filter_cons_of_pos rfl, List.filterMap_cons, List.filterMap_cons]
      split
      · exact ih
      · rw [List.countP_cons, List.countP_cons, ih]

/-- A dial that got to its command is heard of. -/
theorem DialReplied.outgoing_ne {t : CallTable} {r : Row} {dial : CellularCallInfo}
    {reply : Option Int} {ret : RetCode} (hrep : DialReplied t s'.table r dial reply ret)
    (h : t.Inv) (hr : r ∈ t.rows)
    (hcount : t.history.countP Mark.isDialed = s.history.countP Mark.isDialed) :
    s'.outgoing ≠ s.outgoing := by
  intro hout
  obtain ⟨marks, hhist, hmarks⟩ := hrep.history h hr
  have hnone : marks.countP Mark.isDialed = 0 :=
    List.countP_eq_zero.mpr fun m hm => by simp [hmarks m hm]
  have hmore : s'.history.countP Mark.isDialed = t.history.countP Mark.isDialed + 1 := by
    rw [show s'.history = _ from hhist, List.countP_append, List.countP_cons_of_pos rfl, hnone]
  rw [hcount, countP_history fun _ _ => rfl, countP_history (fun _ _ => rfl) s, hout] at hmore
  omega

theorem carrierDialProcess_outcome (env : Env) (h : SavedDial s) :
    Post (carrierDialProcess env s.dialSrcInfo) s fun ret s' =>
      if DialAdmitted env s then
        if findsStack env s then s'.sentDials = s.sentDials ++ [s.dialSrcInfo.number]
        else ret ≠ .success ∧ s'.sentDials = s.sentDials ∧ s'.outgoing ≠ s.outgoing
      else ret ≠ .success ∧ s'.sentDials = s.sentDials ∧ Withdrawn env s s' := by
  refine Post.congr (carrierDialProcess_eq env s.dialSrcInfo h.flag) ?_
  refine Post.bind (Q := fun ret s₁ => s₁ = (prepareDial env s.dialSrcInfo s).2 ∧
    if DialAdmitted env s then ret = RetCode.success ∧ DialAdded s s₁ (savedReport s)
    else ret ≠ .success ∧ s₁.history = s.history ∧ Withdrawn env s s₁)
    ⟨rfl, prepareDial_post env h⟩ ?_
  rintro ret s₁ ⟨hs₁, hprep⟩
  by_cases hadm : DialAdmitted env s
  · simp only [if_pos hadm] at hprep ⊢
    obtain ⟨rfl, ha⟩ := hprep
    rw [if_neg (by simp)]
    have hadd := @CallTable.addDialing_of_success s.table (savedReport s)
      ((admission_iff h.inv _).mpr hadm.room)
    have hhist : s₁.table.history = s.history ++ [.added (s.table.lastCallId + 1) .dialing] := by
      rw [ha.table, hadd]
      rfl
    have hmem : s₁.row s.calls.next ∈ s₁.table.rows :=
      CallManager.row_mem_table (by rw [ha.list]; simp)
    refine Post.mono (handleStartDial_replied env ha.inv ha.list
      (congrArg Row.callRunningState ha.row) h.number) ?_
    rintro ret s₂ ⟨-, hrep⟩
    have hsent := hrep.sentDials ha.inv hmem
    rw [hhist, List.filterMap_append, List.filterMap_cons_none rfl, List.filterMap_nil,
      List.append_nil] at hsent
    have hsent : s₂.sentDials = s.sentDials ++ ((env.stack s₁.log
        (.dial s.dialSrcInfo.packCellularCallInfo)).map
        fun _ => s.dialSrcInfo.packCellularCallInfo.phoneNum).toList := hsent
    unfold findsStack
    rw [← hs₁]
    cases hreply : env.stack s₁.log (.dial s.dialSrcInfo.packCellularCallInfo) with
    | none =>
      rw [if_neg (by simp)]
      refine ⟨?_, by simpa [hreply] using hsent, hrep.outgoing_ne ha.inv hmem ?_⟩
      · rcases hrep with ⟨hzero, -⟩ | ⟨-, hne, -⟩
        · rw [hreply] at hzero
          cases hzero
        · exact hne
      · rw [hhist, List.countP_append]
        rfl
    | some code =>
      rw [if_pos (by rfl), hsent, hreply]
      rfl
  · simp only [if_neg hadm] at hprep ⊢
    obtain ⟨hne, hhist, hw⟩ := hprep
    rw [if_pos hne]
    have habandon : Post (abandonDial ret) s₁ fun ret' s' =>
        ret' = ret ∧ s'.table = s₁.table ∧ Still s₁ s' :=
      ⟨(abandonDial_post s₁ ret).1, (abandonDial_post s₁ ret).2.1, Moves.rel s₁⟩
    refine Post.mono habandon ?_
    rintro _ s₂ ⟨rfl, ht₂, hstill₂⟩
    have hhist₂ : s₂.history = s.history := (congrArg CallTable.history ht₂).trans hhist
    exact ⟨hne, congrArg (List.filterMap Mark.sentDial) hhist₂, hw.still hstill₂⟩

/-! ## The whole dial -/

theorem screenDial_post (env : Env) (s : CallManager) (accountNumber : Bytes)
    (extras : DialExtras) :
    Post (screenDial env accountNumber extras) s fun x s' => Quiet s s' ∧ Still s s' ∧
      (x.1 = .success → DialAllowed s x.2.1 x.2.2) := by
  suffices Post (screenDial env accountNumber extras) s fun x _ =>
      x.1 = .success → DialAllowed s x.2.1 x.2.2 from ⟨Moves.rel s, Moves.rel s, this⟩
  refine Post.bind (Post.of_moves (R := Quiet) _ _) fun isEcc s₁ (hq₁ : Quiet s s₁) => ?_
  refine Post.bind (canDial_post env s₁ _ isEcc) ?_
  rintro policy s₂ ⟨-, hallowed⟩
  refine Post.bind_gets (Post.pure fun hcode => ?_)
  have hok : policy.1 = .success := by
    by_contra hne
    simp [screenCode, hne] at hcode
  obtain ⟨hdt, hct, hno⟩ := (hallowed hok).2
  refine ⟨hdt, hct, fun he => ?_⟩
  have hrow : ∀ p, (s₁.call p).isEcc = (s.call p).isEcc := fun p =>
    congrArg Row.isEcc (hq₁.row p)
  have := hno he
  unfold hasEmergencyCall CallManager.anyCall at this ⊢
  rw [hq₁.list] at this
  simpa only [hrow] using this

/-- The state in which `DialCall` has saved the dial. -/
def savedDial (env : Env) (accountNumber : Bytes) (extras : DialExtras) (s : CallManager) :
    CallManager :=
  let x := screenDial env accountNumber extras s
  (CallControlManager.packageDialInformation (setCallTypeExtras x.1.2.1)
    (removeSeparatorsPhoneNumber accountNumber) x.1.2.2 x.2).2

/-- A dial keeps the state: it is refused before it is saved; or it is admitted, and finds a
stack to send its command to; or what it saves was saved already, and nobody is ended to make
way for it. -/
def DialKeepsState (env : Env) (number : List UInt16) (extras : DialExtras) (s : CallManager) :
    Prop :=
  ∀ accountNumber, numberLegalityCheck (str16ToStr8 number) = .ok accountNumber →
    (screenDial env accountNumber extras s).1.1 = .success →
      let saved := savedDial env accountNumber extras s
      if DialAdmitted env saved then findsStack env saved = true
      else saved.dialSrcInfo = s.dialSrcInfo ∧ saved.extras = s.extras ∧ ¬EndsCalls env saved

theorem savedDial_saved (env : Env) (h : ServiceInv s) {accountNumber : Bytes}
    {extras : DialExtras} (hn : (removeSeparatorsPhoneNumber accountNumber).length ≤ kMaxNumberLen)
    (hok : (screenDial env accountNumber extras s).1.1 = .success) :
    SavedDial (savedDial env accountNumber extras s) ∧
      dialRequest env (savedDial env accountNumber extras s) =
        carrierDialProcess env (savedDial env accountNumber extras s).dialSrcInfo
          (savedDial env accountNumber extras s) := by
  obtain ⟨hq, -, hallowed⟩ := screenDial_post env s accountNumber extras
  have hallowed := hallowed hok
  obtain ⟨ht, -, hh, hi, hnum, hd, hdt, hct, -⟩ :=
    packageDialInformation_post (screenDial env accountNumber extras s).2
      (setCallTypeExtras (screenDial env accountNumber extras s).1.2.1)
      (removeSeparatorsPhoneNumber accountNumber) (screenDial env accountNumber extras s).1.2.2
  change (savedDial env accountNumber extras s).table = _ at ht
  change (savedDial env accountNumber extras s).helper = _ at hh
  change (savedDial env accountNumber extras s).dialSrcInfo.index = _ at hi
  change (savedDial env accountNumber extras s).dialSrcInfo.number = _ at hnum
  change (savedDial env accountNumber extras s).dialSrcInfo.isDialing = _ at hd
  change (savedDial env accountNumber extras s).dialSrcInfo.dialType = _ at hdt
  change (savedDial env accountNumber extras s).dialSrcInfo.callType = _ at hct
  refine ⟨⟨?_, ?_, ?_, ?_, ?_⟩, ?_⟩
  · rw [ht, hq.table]
    exact h.table.saveDial fun he => hasEmergencyCall_eq_false (hallowed.noEcc he)
  · rw [hh]
    exact hq.dialing h.dialing
  · rw [hct]
    exact setCallTypeExtras_callType hallowed.callType
  · rw [hi, hq.dialSrcInfo, h.index]
  · rw [hnum]
    exact hn
  · have hcarrier : (savedDial env accountNumber extras s).dialSrcInfo.dialType = .carrier ∨
        (savedDial env accountNumber extras s).dialSrcInfo.dialType = .voiceMail := by
      rw [hdt, setCallTypeExtras_dialType]
      exact hallowed.dialType
    have hlen : (savedDial env accountNumber extras s).dialSrcInfo.number.length ≤
      kMaxNumberLen := by
      rw [hnum]
      exact hn
    simp [dialRequest, hd, Nat.not_lt.mpr hlen, hcarrier]

/-- What a saved dial leaves of the state it was saved over. -/
theorem untouched_saved_iff (env : Env) {accountNumber : Bytes} {extras : DialExtras}
    (hdialing : s'.helper.isDialingCallProcessing = s.helper.isDialingCallProcessing)
    (hw : Withdrawn env (savedDial env accountNumber extras s) s') :
    Untouched s s' ↔
      (savedDial env accountNumber extras s).dialSrcInfo = s.dialSrcInfo ∧
        (savedDial env accountNumber extras s).extras = s.extras ∧
        ¬EndsCalls env (savedDial env accountNumber extras s) := by
  have hscreen : Still s (screenDial env accountNumber extras s).2 := Moves.rel s
  have hout : (savedDial env accountNumber extras s).outgoing = s.outgoing := hscreen.outgoing
  unfold Withdrawn at hw
  split at hw
  · next hends =>
    refine iff_of_false (fun hu => ?_) fun hsame => hsame.2.2 hends
    rw [hu.outgoing, hout] at hw
    exact Nat.lt_irrefl _ hw
  · next hends =>
    constructor
    · intro hu
      exact ⟨hw.dialSrcInfo.symm.trans hu.dialSrcInfo, hw.extras.symm.trans hu.extras, hends⟩
    · rintro ⟨hdial, hextras, -⟩
      have hsaved : Still s (savedDial env accountNumber extras s) :=
        { hscreen with dialSrcInfo := hdial, extras := hextras }
      exact ⟨hsaved.trans hw, hdialing⟩

/-- **A dial that is refused changes nothing, exactly if it keeps the state** in the sense of
`DialKeepsState`. -/
theorem dialCall_untouched_iff (env : Env) (hs : Reachable s) (number : List UInt16)
    (extras : DialExtras) :
    ((CallControlManager.dialCall env number extras s).1 ≠ .success →
      (CallControlManager.dialCall env number extras s).2.sentDials = s.sentDials →
      Untouched s (CallControlManager.dialCall env number extras s).2) ↔
      DialKeepsState env number extras s := by
  have h := reachable_inv hs
  have hdialing := (dialCall_post env h.table h.dialing h.index number extras).1.dialing
  rw [← h.dialing] at hdialing
  unfold CallControlManager.dialCall at hdialing ⊢
  unfold DialKeepsState
  cases hlegal : numberLegalityCheck (str16ToStr8 number) with
  | error ret => exact iff_of_true (fun _ _ => .refl s) fun _ heq => by cases heq
  | ok accountNumber =>
    simp only [hlegal, dialLegalNumber_eq, Prog.bind_apply, Prog.ite_apply'] at hdialing ⊢
    by_cases hok : (screenDial env accountNumber extras s).1.1 = .success
    · obtain ⟨hsaved, heq⟩ := savedDial_saved env h (length_removeSeparators_le hlegal) hok
      have hout := carrierDialProcess_outcome env hsaved
      have hsent : (savedDial env accountNumber extras s).sentDials = s.sentDials :=
        congrArg (List.filterMap Mark.sentDial)
          (Moves.rel (R := Quiet) (m := screenDial env accountNumber extras) s).history
      have houtgoing : (savedDial env accountNumber extras s).outgoing = s.outgoing :=
        (Moves.rel (R := Still) (m := screenDial env accountNumber extras) s).outgoing
      unfold Post at hout
      rw [← heq] at hout
      rw [if_neg (not_not.mpr hok)] at hdialing ⊢
      change ((dialRequest env (savedDial env accountNumber extras s)).1 ≠ .success →
        (dialRequest env (savedDial env accountNumber extras s)).2.sentDials = s.sentDials →
        Untouched s (dialRequest env (savedDial env accountNumber extras s)).2) ↔ _
      change (dialRequest env (savedDial env accountNumber extras s)).2.helper.isDialingCallProcessing =
        _ at hdialing
      trans if DialAdmitted env (savedDial env accountNumber extras s) then
          findsStack env (savedDial env accountNumber extras s) = true
        else (savedDial env accountNumber extras s).dialSrcInfo = s.dialSrcInfo ∧
          (savedDial env accountNumber extras s).extras = s.extras ∧
          ¬EndsCalls env (savedDial env accountNumber extras s)
      · split at hout
        · next hadm =>
          rw [if_pos hadm]
          split at hout
          · next hstack =>
            rw [hsent] at hout
            exact iff_of_true (fun _ hsame => by simp [hout] at hsame) hstack
          · next hstack =>
            obtain ⟨hne, hsame, hheard⟩ := hout
            rw [hsent] at hsame
            rw [houtgoing] at hheard
            exact iff_of_false (fun hu => hheard (hu hne hsame).outgoing) hstack
        · next hadm =>
          rw [if_neg hadm, ← untouched_saved_iff env hdialing hout.2.2]
          exact ⟨fun hu => hu hout.1 (hout.2.1.trans hsent), fun hu _ _ => hu⟩
      · constructor
        · intro hkeeps _ heq _
          cases heq
          exact hkeeps
        · exact fun hkeeps => hkeeps _ rfl hok
    · rw [if_pos hok]
      refine iff_of_true (fun _ _ => ?_) fun _ heq hok' => ?_
      · exact ⟨Moves.rel s, (Moves.rel (R := Quiet) s).dialing h.dialing |>.trans h.dialing.symm⟩
      · cases heq
        exact absurd hok' hok

/-- Two calls next to each other, and a third dial. -/
def twoCalls : CallManager :=
  .run <| [ringingReport 1, { ringingReport 1 with state := 0 }, ringingReport 2,
    { ringingReport 2 with state := 0 }].map fun info => (Env.obliging, .callReport info)

/-- A third dial is refused by `IsNewCallAllowedCreate`, after it was saved. -/
theorem dialCall_refused_saved :
    ∃ (env : Env) (s : CallManager) (number : List UInt16) (extras : DialExtras), Reachable s ∧
      (CallControlManager.dialCall env number extras s).1 ≠ .success ∧
      (CallControlManager.dialCall env number extras s).2.sentDials = s.sentDials ∧
      ¬Untouched s (CallControlManager.dialCall env number extras s).2 := by
  refine ⟨.obliging, twoCalls, [49, 48, 48, 56, 54], {}, reachable_run _, by decide +kernel,
    by decide +kernel, fun hu => ?_⟩
  exact absurd hu.dialSrcInfo (by decide +kernel)

/-- A dial next to one that is being set up is refused before it is saved. -/
theorem dialCall_untouched_busy :
    (CallControlManager.dialCall .obliging [49, 48, 48, 56, 54] {}
        (.run [(.obliging, plainDial)])).1 ≠ .success ∧
      (CallControlManager.dialCall .obliging [49, 48, 48, 56, 54] {}
        (.run [(.obliging, plainDial)])).2.sentDials =
          CallManager.sentDials (.run [(.obliging, plainDial)]) ∧
      Untouched (.run [(.obliging, plainDial)])
        (CallControlManager.dialCall .obliging [49, 48, 48, 56, 54] {}
          (.run [(.obliging, plainDial)])).2 := by
  have hrefused : (CallControlManager.dialCall .obliging [49, 48, 48, 56, 54] {}
      (.run [(.obliging, plainDial)])).1 ≠ .success := by decide +kernel
  have hunsent : (CallControlManager.dialCall .obliging [49, 48, 48, 56, 54] {}
      (.run [(.obliging, plainDial)])).2.sentDials =
        CallManager.sentDials (.run [(.obliging, plainDial)]) := by decide +kernel
  refine ⟨hrefused, hunsent, ?_⟩
  refine (dialCall_untouched_iff .obliging (reachable_run _) _ _).mpr
    (fun accountNumber heq hok => ?_) hrefused hunsent
  have hlegal : numberLegalityCheck (str16ToStr8 [49, 48, 48, 56, 54]) =
      .ok [49, 48, 48, 56, 54] := by decide +kernel
  rw [hlegal] at heq
  rw [← Except.ok.inj heq] at hok
  exact absurd hok (by decide +kernel)

end CallManagerMini
