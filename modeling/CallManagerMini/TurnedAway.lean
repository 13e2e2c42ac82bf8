import CallManagerMini.RefusedIncoming

/-! # Ringing calls that are turned away

A ringing call on a full table is constructed like any other, refused by the table, and
rejected.  Nobody but the stack hears of it: the call object stands behind a reference that
nothing else holds (`IncomingHandle` drops it), and the only trace is the `HangUp`
(`incoming_turnedAway`).
-/

namespace CallManagerMini

open Prog (Post)

variable {s s' : CallManager} {env : Env} {info : CallDetailInfo}

/-- The call of a report was rejected, and nothing else happened: only the `callId` counter and
the command to the stack tell. -/
structure TurnedAway (s s' : CallManager) (info : CallDetailInfo) : Prop where
  callObjectPtrList : s'.callObjectPtrList = s.callObjectPtrList
  call : ∀ p < s.calls.next, s'.call p = s.call p
  callId : s.callId ≤ s'.callId
  dialSrcInfo : s'.dialSrcInfo = s.dialSrcInfo
  extras : s'.extras = s.extras
  helper : s'.helper = s.helper
  pendingHangupTaskId : s'.pendingHangupTaskId = s.pendingHangupTaskId
  delayed : s'.delayed = s.delayed
  requests : s'.requests = s.requests
  csConference : s'.csConference = s.csConference
  imsConference : s'.imsConference = s.imsConference
  audio : s'.audio = s.audio
  log : ∃ call reply, s'.log = s.log ++ [.command (.hangUp call .default) (some reply)] ∧
    call.slotId = info.accountId ∧ call.accountId = info.accountId ∧ call.index = info.index ∧
    call.callType = info.callType ∧ call.phoneNum = info.phoneNum

/-- A full table adds nobody. -/
theorem addOneCallObject_full {p : Ref}
    (hfull : callObjectLimit (s.call p).isEcc ≤ s.callObjectPtrList.length) :
    (addOneCallObject p s).1 ≠ .success ∧ (addOneCallObject p s).2 = s := by
  unfold addOneCallObject
  split
  · exact ⟨by simp, rfl⟩
  · exact ⟨by simp, rfl⟩

/-- The call object of a ringing report. -/
def CallDetailInfo.ringingCall (info : CallDetailInfo) (callId now : Int) : CallBase :=
  { isIMSCall := info.callType = .ims
    callId := callId
    callType := info.callType
    videoState := info.callMode
    accountNumber := info.phoneNum
    callState := info.state
    crsType := info.crsType
    originalCallType := info.originalCallType
    phoneOrWatch := info.phoneOrWatch
    newCallUseBox := info.newCallUseBox
    callCreateTime := max now 0
    slotId := info.accountId
    index := info.index }

/-- A report of a carrier's call makes a call object that nothing holds yet. -/
theorem createNewCall_incoming (env : Env) (hct : info.callType = .cs ∨ info.callType = .ims)
    (s : CallManager) :
    createNewCall env info .incoming s = (some s.calls.next, { s with
      callId := s.callId + 1
      calls := s.calls.alloc (info.ringingCall (s.callId + 1) (env.time s.log)) }) := by
  have hcarried : ¬(info.callType ≠ .cs ∧ info.callType ≠ .ims) := by tauto
  unfold createNewCall
  rw [Prog.bind_apply, Prog.ite_apply', if_neg hcarried]
  rfl

/-- What the stack is told of the call object of a report. -/
theorem CallBase.packCellularCallInfo_number {c : CallBase}
    (h : c.accountNumber.length ≤ kMaxNumberLen) :
    c.packCellularCallInfo.phoneNum = c.accountNumber :=
  if_neg (Nat.not_lt.mpr h)

/-- `HandleRejectCall` of a call object that is new: it rings, is rejected, and the stack is told
to hang up. -/
theorem handleRejectCall_new (env : Env) {p : Ref} (hnew : (s.call p).callRunningState = .create) :
    (handleRejectCall env p s).2 =
      (s.updateCall p fun c =>
        ({ c with callState := .incoming }.stateChangesToIncoming (env.time s.log)).rejectCallBase).logged
        (.command (.hangUp (s.call p).packCellularCallInfo .default)
          (env.stack s.log (.hangUp (s.call p).packCellularCallInfo .default))) := by
  have hset : setTelCallState env p .incoming s = (.success, s.updateCall p fun c =>
      { c with callState := .incoming }.stateChangesToIncoming (env.time s.log)) := by
    unfold setTelCallState CallBase.setTelCallState
    dsimp only
    rw [if_neg (by simp [hnew])]
    rfl
  unfold handleRejectCall
  rw [Prog.bind_apply, hset, Prog.ite_apply', if_neg (by simp)]
  unfold rejectCall
  simp only [Prog.bind_apply, modifyCall, Prog.modify_apply, getCall, Prog.gets_apply,
    updateCall_updateCall, call_updateCall_self]
  rfl

/-- **An incoming call on a full table is turned away without a trace**: only the stack hears of
it. -/
theorem incoming_turnedAway (env : Env) (hinfo : info.IsAccepted)
    (hst : info.state = .incoming ∨ info.state = .waiting)
    (hfull : miniMaxCallObjects - 1 ≤ s.callObjectPtrList.length)
    (hzero : ∀ p ∈ s.callObjectPtrList, (s.call p).index ≠ 0)
    (hunknown : ∀ p ∈ s.callObjectPtrList,
      ¬((s.call p).slotId = info.accountId ∧ (s.call p).index = info.index))
    (hstack : ∀ log c, (env.stack log c).isSome = true) :
    (handleCallReportInfo env info s).1 ≠ .success ∧
      TurnedAway s (handleCallReportInfo env info s).2 info := by
  have hinit : getOneCallObjectByIndex s initIndex = none := by
    refine List.find?_eq_none.mpr fun p hp => ?_
    simp [initIndex, hzero p hp]
  have hnone : getOneCallObjectByIndexSlotIdAndCallType s info.index info.accountId = none := by
    refine List.find?_eq_none.mpr fun p hp hfound => hunknown p hp ?_
    simp only [Bool.and_eq_true, decide_eq_true_eq] at hfound
    exact ⟨hfound.1.2, hfound.1.1.2⟩
  have hold : refreshOldCall env info s = ((.success, false), s) := by
    unfold refreshOldCall
    simp only [Prog.bind_apply, Prog.gets_apply, hinit, hnone, Prog.forSome_none, Prog.pure_apply]
  have hhandle : handleCallReportInfo env info s = incomingHandle env info s := by
    rcases hst with hst | hst <;> simp only [handleCallReportInfo, hst]
  have hcreated := createNewCall_incoming env hinfo.isCarried.carrier s
  set c := info.ringingCall (s.callId + 1) (env.time s.log)
  set s₁ : CallManager := { s with callId := s.callId + 1, calls := s.calls.alloc c }
  have hcall : s₁.call s.calls.next = c := Heap.get_alloc_next s.calls c
  obtain ⟨hret, hadd⟩ : (addOneCallObject s.calls.next s₁).1 ≠ .success ∧
      (addOneCallObject s.calls.next s₁).2 = s₁ :=
    addOneCallObject_full (by rw [hcall]; exact hfull)
  have hreject := handleRejectCall_new env (p := s.calls.next) (s := s₁) (by rw [hcall]; rfl)
  rw [hcall] at hreject
  have hresult : incomingHandle env info s = ((addOneCallObject s.calls.next s₁).1,
      (handleRejectCall env s.calls.next s₁).2) := by
    unfold incomingHandle
    rw [Prog.bind_apply, hold, Prog.ite_apply', if_neg (by simp), Prog.bind_apply, hcreated]
    dsimp only
    rw [Prog.bind_apply, Prog.ite_apply', if_pos hret, Prog.bind_apply, hadd]
    rfl
  obtain ⟨reply, hreply⟩ := Option.isSome_iff_exists.mp
    (hstack s.log (.hangUp c.packCellularCallInfo .default))
  rw [hhandle, hresult, hreject]
  refine ⟨hret, ?_⟩
  exact
    { callObjectPtrList := rfl
      call := fun p hp => by
        have hne : p ≠ s.calls.next := Nat.ne_of_lt hp
        change (s₁.calls.set _ _).get p = _
        rw [Heap.get_set_ne _ _ hne]
        exact Heap.get_alloc_of_lt s.calls c hp
      callId := by
        change s.callId ≤ s.callId + 1
        omega
      dialSrcInfo := rfl
      extras := rfl
      helper := rfl
      pendingHangupTaskId := rfl
      delayed := rfl
      requests := rfl
      csConference := rfl
      imsConference := rfl
      audio := rfl
      log := ⟨c.packCellularCallInfo, reply, by rw [← hreply]; rfl, rfl, rfl, rfl, rfl,
        CallBase.packCellularCallInfo_number hinfo.isCarried.number⟩ }

/-- Four calls ring, one after another. -/
def fourCalls : CallManager :=
  .run ([1, 2, 3, 4].map fun index => (.obliging, .callReport (ringingReport index)))

theorem incoming_turnedAway_four :
    (handleCallReportInfo .obliging (ringingReport 5).toDetail fourCalls).1 ≠ .success ∧
      TurnedAway fourCalls (handleCallReportInfo .obliging (ringingReport 5).toDetail fourCalls).2
        (ringingReport 5).toDetail :=
  incoming_turnedAway .obliging (.single (by decide)) (.inl rfl) (by decide +kernel)
    (by decide +kernel) (by decide +kernel) fun _ _ => rfl

end CallManagerMini
