import CallManagerMini.Leftovers
import CallManagerMini.PlainRelations

/-! # Reported conferences

A report of an active call with `mpty` set, while the slot has two such calls, is taken for
the report of a conference: `SetConferenceCall` launches it for every call of the list.  It
never succeeds.  `LaunchConference` of a CS call puts the conference back to idle first, and
`JoinToConference` turns everybody away from an idle conference; the conference of IMS calls
has never been anything but idle.  So no call object ever has the state of a member of an
active conference (`reporting_noneLaunched`), and no report establishes one.
-/

namespace CallManagerMini

open Prog (Post Moves)

variable {s : CallManager} {env : Env} {p : Ref}

/-! ## Nobody is in an active conference -/

/-- No call object has the state of a member of an active conference, and the conference of
IMS calls was never used. -/
structure NoneLaunched (s : CallManager) : Prop where
  ims : s.imsConference.Unused
  calls : ∀ p, (s.call p).conferenceState ≠ .active

/-- Nobody gets into an active conference. -/
def LaunchesNone (s s' : CallManager) : Prop := NoneLaunched s → NoneLaunched s'

theorem noneLaunched_updateCall (h : NoneLaunched s) {f : CallBase → CallBase}
    (hf : (f (s.call p)).conferenceState ≠ .active) : NoneLaunched (s.updateCall p f) where
  ims := h.ims
  calls q := by
    unfold CallManager.updateCall CallManager.call
    rw [Heap.get_set]
    split
    · exact hf
    · exact h.calls q

instance : Bare LaunchesNone where
  refl _ h := h
  trans _ _ _ h h' := h' ∘ h
  outside ho h := ⟨ho.imsConference ▸ h.ims, fun p => by
    rw [CallManager.call, ho.calls]
    exact h.calls p⟩
  object hf h := noneLaunched_updateCall h (hf.conferenceState (h.calls _))
  create hc _ h := ⟨h.ims, fun q => by
    unfold CallManager.call Heap.get Heap.alloc
    dsimp only
    split
    · exact hc
    · exact h.calls q⟩

theorem noneLaunched_setConference (h : NoneLaunched s) {isIMSCall : Bool} {c : ConferenceBase}
    (hc : isIMSCall = true → c.Unused) : NoneLaunched (s.setConference isIMSCall c) := by
  cases isIMSCall with
  | false => exact ⟨h.ims, h.calls⟩
  | true => exact ⟨hc rfl, h.calls⟩

/-- The conferences' operations never use the conference of IMS calls. -/
theorem launchesNone_onConference {α : Type} {isIMSCall : Bool}
    {f : Int → ConferenceBase → α × ConferenceBase} (hf : ∀ now c, c.Unused → (f now c).2.Unused) :
    Moves LaunchesNone (onConference isIMSCall f env) := by
  refine ⟨fun s h => noneLaunched_setConference h fun hims => ?_⟩
  subst hims
  exact hf _ _ h.ims

/-- `LaunchConference` is turned away. -/
theorem launchConference_fails (env : Env) (p : Ref) (h : NoneLaunched s) :
    (launchConference env p s).1 = .callErrIllegalCallOperation ∧
      NoneLaunched (launchConference env p s).2 := by
  have hidle : (if (s.call p).isIMSCall then s.conference (s.call p).isIMSCall
      else (s.conference (s.call p).isIMSCall).setConferenceState .idle).state = .idle := by
    cases hims : (s.call p).isIMSCall with
    | false => rfl
    | true => exact h.ims.idle
  have hjoin : onConference (s.call p).isIMSCall (fun now conf =>
      let conf := if (s.call p).isIMSCall then conf else conf.setConferenceState .idle
      conf.joinToConference now (s.call p).callId) env s = (.callErrIllegalCallOperation,
        s.setConference (s.call p).isIMSCall (if (s.call p).isIMSCall then
            s.conference (s.call p).isIMSCall
          else (s.conference (s.call p).isIMSCall).setConferenceState .idle)) := by
    simp [onConference, ConferenceBase.joinToConference, hidle]
  unfold launchConference
  rw [Prog.bind_apply, getCall, Prog.gets_apply, Prog.bind_apply, hjoin]
  refine ⟨rfl, noneLaunched_setConference h fun hims => ?_⟩
  rw [if_pos hims, hims]
  exact h.ims

set_option synthInstance.maxSize 2048 in
instance : Plain LaunchesNone where
  launch env p := ⟨fun _ h => (launchConference_fails env p h).2⟩
  exit env p := by
    have (c : CallBase) : Moves LaunchesNone (onConference c.isIMSCall
        (fun _ conf => conf.leaveFromConference c.callId) env) :=
      launchesNone_onConference fun _ _ h => h.leaveFromConference
    unfold exitConference
    infer_instance
  hold env p := by
    have (c : CallBase) : Moves LaunchesNone (onConference c.isIMSCall
        (fun _ conf => conf.holdConference c.callId) env) :=
      launchesNone_onConference fun _ _ h => h.holdConference
    have : Moves LaunchesNone (setTelConferenceState p .holding) :=
      bare_modifyCall fun _ => ⟨rfl, rfl, fun _ => nofun⟩
    unfold holdConference
    infer_instance
  failed env p := by
    have (c : CallBase) : Moves LaunchesNone (onConference c.isIMSCall
        (fun _ conf => ((), conf.combineConferenceFailed)) env) :=
      launchesNone_onConference fun _ _ h => h.combineConferenceFailed
    unfold handleCombineConferenceFailEvent
    infer_instance
  refresh env p info := by
    refine ⟨fun s h => ?_⟩
    refine Post.bind_gets (k := fun oldCall => _) (Q := fun _ s' => NoneLaunched s') ?_
    have hold := h.calls p
    generalize s.call p = oldCall at hold
    -- the new object gets the state of the old one in the conference
    have (q : Ref) : Moves LaunchesNone (modifyCall q (copyToRefreshed oldCall)) :=
      .of_modify fun _ h => noneLaunched_updateCall h hold
    have (q : Ref) (callId : Int) : Moves LaunchesNone
        (modifyCall q fun c => { c with callId := callId }) :=
      .of_modify fun _ h => noneLaunched_updateCall h (h.calls q)
    have (q : Ref) (imsDomain : Int) : Moves LaunchesNone
        (modifyCall q fun c => { c with imsDomain := imsDomain }) :=
      bare_modifyCall fun _ => ⟨rfl, rfl, id⟩
    have (callId : Int) : Moves LaunchesNone (Prog.modify fun s : CallManager =>
        { s with csConference := s.csConference.updateConferenceId callId }) :=
      .of_modify fun _ h => ⟨h.ims, h.calls⟩
    refine (?_ : Moves LaunchesNone _).rel s h
    refine Moves.bind inferInstance fun created => ?_
    cases created <;> dsimp only <;> infer_instance

instance : Toneless LaunchesNone where
  tones _ _ h := ⟨h.ims, h.calls⟩
  sound _ _ _ h := ⟨h.ims, h.calls⟩

instance : Outspoken LaunchesNone where
  broadcast _ _ _ := .of_modify fun _ h => ⟨h.ims, h.calls⟩

instance : Flagging LaunchesNone where
  flag p _ := .of_modify fun _ h => noneLaunched_updateCall h (h.calls p)

instance : Timeless LaunchesNone where
  timers _ _ _ _ _ h := ⟨h.ims, h.calls⟩

instance : Posting LaunchesNone where
  requests _ _ h := ⟨h.ims, h.calls⟩

/-! ## The states in which reports are handled -/

/-- The states in which a report is handled: the reports of a list are handled one after the
other within a step. -/
inductive Reporting : CallManager → Prop
  | step {s : CallManager} : Reachable s → Reporting s
  | listed {s : CallManager} (slotId : Int) (callVec : List CallDetailInfo) : Reporting s →
    Reporting { s with tmpCallDetailsInfo := Function.update s.tmpCallDetailsInfo slotId callVec }
  | handled {s : CallManager} (env : Env) (info : CallDetailInfo) : Reporting s →
    Reporting (handleCallReportInfo env info s).2

theorem reachable_noneLaunched (hs : Reachable s) : NoneLaunched s := by
  refine Runs.Reachable.invariant ?_ ?_ hs
  · rintro s rfl
    exact ⟨⟨rfl, rfl, rfl, rfl⟩, fun _ => nofun⟩
  · rintro s s' h ⟨env, input, rfl⟩
    exact Moves.rel (R := LaunchesNone) (m := mainLoopStep env input) s h

theorem reporting_noneLaunched (hs : Reporting s) : NoneLaunched s := by
  induction hs with
  | step hs => exact reachable_noneLaunched hs
  | listed slotId callVec _ ih => exact ⟨ih.ims, ih.calls⟩
  | handled env info _ ih =>
    exact Moves.rel (R := LaunchesNone) (m := handleCallReportInfo env info) _ ih

/-! ## Reports of a conference -/

/-- `ActiveHandle` up to the judgement whether to launch a conference: the reported call, and
the list of `GetConferenceCallList`. -/
def activeCall (env : Env) (info : CallDetailInfo) :
    Prog CallManager (Option (Ref × List Ref)) := do
  let found ← reportedCall env info
  match found with
  | none => pure none
  | some p => do
    clearPendingState env p
    let p ← refreshCallIfNecessary env p info
    setOriginalCallTypeForActiveState p
    let conferenceCallList ← Prog.gets fun s => getConferenceCallList s (s.call p).slotId
    pure (some (p, conferenceCallList))

theorem activeHandle_eq (env : Env) (info : CallDetailInfo) (s : CallManager) :
    activeHandle env info s = (do
      let found ← activeCall env info
      match found with
      | none => pure .errLocalPtrNull
      | some (p, conferenceCallList) => do
        let isConference := info.mpty = 1 ∧ 1 < conferenceCallList.length
        Prog.when isConference (setConferenceCall env conferenceCallList)
        Prog.when (¬isConference) (exitConference env p).ignore
        let ret ← updateCallState env p .active
        if ret ≠ .success then pure ret
        else do
          let held ← Prog.gets fun s => getOneCallObjectByState s .hold
          Prog.forSome held fun h => modifyCall h fun c => { c with canSwitchCallState := true }
          pure ret : Prog CallManager RetCode) s := by
  unfold activeHandle activeCall
  simp only [Prog.bind_apply]
  cases (reportedCall env info s).1 <;> rfl

/-- The list `ActiveHandle` has of the conference, in the state in which it asks for it. -/
def conferenceCalls (env : Env) (info : CallDetailInfo) (s : CallManager) : List Ref :=
  match (activeCall env info s).1 with
  | none => []
  | some (_, conferenceCallList) => conferenceCallList

/-- The calls are in an active conference, and it has them as its members. -/
def Established (s : CallManager) (calls : List Ref) : Prop :=
  ∀ p ∈ calls, (s.call p).conferenceState = .active ∧
    (s.call p).callId ∈ (s.conference ((s.call p).callType = .ims)).subCallIdSet

/-- **No report establishes a conference**, however many calls it is reported to have. -/
theorem report_notEstablished (hs : Reporting s) (env : Env) (info : CallDetailInfo)
    (hcalls : 1 < (conferenceCalls env info s).length) :
    ¬Established (handleCallReportInfo env info s).2 (conferenceCalls env info s) := by
  intro h
  obtain ⟨p, hp⟩ := List.exists_mem_of_length_pos (Nat.zero_lt_of_lt hcalls)
  have hnone := (reporting_noneLaunched (hs.handled env info)).calls p
  exact hnone (h p hp).1

/-- Two CS calls of slot 0, reported as one conference on hold. -/
def heldConference : CallManager :=
  .run [(.obliging, .callReport (ringingReport 1)), (.obliging, .callReport (ringingReport 2)),
    (.obliging, .callsReport 0 [{ ringingReport 1 with state := 1, mpty := 1 },
      { ringingReport 2 with state := 1, mpty := 1 }])]

theorem report_notEstablished_held :
    ¬Established (handleCallReportInfo .obliging
        { ringingReport 1 with state := 0, mpty := 1 }.toDetail heldConference).2
      (conferenceCalls .obliging { ringingReport 1 with state := 0, mpty := 1 }.toDetail
        heldConference) :=
  report_notEstablished (.step (reachable_run _)) _ _ (by decide +kernel)

/-- The two calls become active as a conference. -/
theorem report_launchesNone :
    ¬∀ s env info, Reachable s → info.IsAccepted → info.state = .active → info.mpty = 1 →
      (handleCallReportInfo env info s).1 = .success → 1 < (conferenceCalls env info s).length →
        Established (handleCallReportInfo env info s).2 (conferenceCalls env info s) := by
  intro hall
  have h := hall heldConference .obliging { ringingReport 1 with state := 0, mpty := 1 }.toDetail
    (reachable_run _) (.single (by decide)) (by decide) (by decide) (by decide +kernel)
    (by decide +kernel) 0 (by decide +kernel)
  exact absurd h.1 (by decide +kernel)

end CallManagerMini
