import CallManagerMini.MainLoopRefinement

/-! # Control operations that fail

A control operation asks its policy, and posts a request to the main loop.  One that
fails has touched nothing, because both come before any effect; only `AnswerCall`
broadcasts `ANSWERED` before it asks (`operation_untouched_iff`).
-/

namespace CallManagerMini

open Prog (Post Moves)

variable {s s' s'' : CallManager} {env : Env} {p : Ref}

/-! ## What is seen outside -/

/-- A broadcast, or a command handed to the stack's connection. -/
def Event.isOutgoing : Event → Bool
  | .query .. | .audio .. | .posted _ | .callAdded .. => false
  | _ => true

/-- What was broadcast and what was commanded so far. -/
def CallManager.outgoing (s : CallManager) : List Event := s.log.filter Event.isOutgoing

/-- Whatever an operation could change but the dialing flag is as it was, and nothing was
broadcast or commanded. -/
structure Still (s s' : CallManager) : Prop where
  list : s'.callObjectPtrList = s.callObjectPtrList
  call : ∀ q ∈ s.callObjectPtrList, s'.call q = s.call q
  dialSrcInfo : s'.dialSrcInfo = s.dialSrcInfo
  extras : s'.extras = s.extras
  pendingMo : s'.helper.pendingMo = s.helper.pendingMo
  pendingMoCallId : s'.helper.pendingMoCallId = s.helper.pendingMoCallId
  pendingHangup : s'.helper.pendingHangup = s.helper.pendingHangup
  pendingHangupCallId : s'.helper.pendingHangupCallId = s.helper.pendingHangupCallId
  csConference : s'.csConference = s.csConference
  imsConference : s'.imsConference = s.imsConference
  audio : s'.audio = s.audio
  outgoing : s'.outgoing = s.outgoing

/-- Nothing has changed, the dialing flag included. -/
structure Untouched (s s' : CallManager) : Prop extends Still s s' where
  dialing : s'.helper.isDialingCallProcessing = s.helper.isDialingCallProcessing

namespace Still

theorem refl (s : CallManager) : Still s s :=
  ⟨rfl, fun _ _ => rfl, rfl, rfl, rfl, rfl, rfl, rfl, rfl, rfl, rfl, rfl⟩

theorem trans (h : Still s s') (h' : Still s' s'') : Still s s'' where
  list := h'.list.trans h.list
  call q hq := (h'.call q (h.list ▸ hq)).trans (h.call q hq)
  dialSrcInfo := h'.dialSrcInfo.trans h.dialSrcInfo
  extras := h'.extras.trans h.extras
  pendingMo := h'.pendingMo.trans h.pendingMo
  pendingMoCallId := h'.pendingMoCallId.trans h.pendingMoCallId
  pendingHangup := h'.pendingHangup.trans h.pendingHangup
  pendingHangupCallId := h'.pendingHangupCallId.trans h.pendingHangupCallId
  csConference := h'.csConference.trans h.csConference
  imsConference := h'.imsConference.trans h.imsConference
  audio := h'.audio.trans h.audio
  outgoing := h'.outgoing.trans h.outgoing

instance : Std.Refl Still := ⟨refl⟩

instance : IsTrans CallManager Still := ⟨fun _ _ _ => trans⟩

/-- Recording an event nobody outside sees. -/
theorem logged {e : Event} (he : e.isOutgoing = false) : Still s (s.logged e) :=
  { refl s with outgoing := by simp [CallManager.outgoing, CallManager.logged, he] }

end Still

theorem Untouched.refl (s : CallManager) : Untouched s s := ⟨.refl s, rfl⟩

theorem outgoing_logged {e : Event} (he : e.isOutgoing = true) :
    (s.logged e).outgoing = s.outgoing ++ [e] := by
  simp [CallManager.outgoing, CallManager.logged, he]

/-! ## Posts that fail -/

theorem postRequest_code (env : Env) (r : Request) (s : CallManager) :
    (postRequest env r s).1 = env.post s.log := rfl

/-- If `m` fails from `s`, it leaves `s` untouched. -/
def FailsClean (m : Prog CallManager RetCode) (s : CallManager) : Prop :=
  Post m s fun ret s' => ret ≠ .success → Untouched s s'

theorem failsClean_pure (ret : RetCode) (s : CallManager) : FailsClean (pure ret) s :=
  fun _ => .refl s

theorem postRequest_failsClean (env : Env) (r : Request) (s : CallManager) :
    FailsClean (postRequest env r) s := by
  intro h
  rw [postRequest_code] at h
  unfold postRequest
  dsimp only
  rw [if_neg h]
  exact ⟨.logged rfl, rfl⟩

/-- A policy in front of an operation. -/
theorem failsClean_checked {policy : CallManager → RetCode} {m : Prog CallManager RetCode}
    (hm : FailsClean m s) :
    FailsClean (do
      let ret ← Prog.gets policy
      if ret ≠ .success then pure ret else m) s :=
  Post.bind_gets (Post.ite (fun _ => failsClean_pure _ s) fun _ => hm)

/-! ## The operations -/

/-- The control operations of `CallControlManager`. -/
inductive ControlOperation where
  | answerCall (callId videoState : Int) (isRTT : Bool)
  | rejectCall (callId : Int) (rejectWithMessage : Bool)
  | hangUpCall (callId : Int)
  | holdCall (callId : Int)
  | unHoldCall (callId : Int)
  | switchCall (callId : Int)

namespace ControlOperation

/-- What the operation does before it returns. -/
def perform (env : Env) : ControlOperation → Prog CallManager RetCode
  | .answerCall callId videoState isRTT =>
    CallControlManager.answerCall env callId videoState isRTT
  | .rejectCall callId rejectWithMessage =>
    CallControlManager.rejectCall env callId rejectWithMessage
  | .hangUpCall callId => CallControlManager.hangUpCall env callId
  | .holdCall callId => CallControlManager.holdCall env callId
  | .unHoldCall callId => CallControlManager.unHoldCall env callId
  | .switchCall callId => CallControlManager.switchCall env callId

end ControlOperation

namespace CallControlManager

theorem rejectCall_failsClean (env : Env) (callId : Int) (rejectWithMessage : Bool)
    (s : CallManager) : FailsClean (rejectCall env callId rejectWithMessage) s := by
  refine Post.bind_gets ?_
  cases getOneCallObjectByState s .ringing with
  | none => exact failsClean_pure _ s
  | some p => exact Post.bind_gets (failsClean_checked (postRequest_failsClean env _ s))

theorem hangUpCall_failsClean (env : Env) (callId : Int) (s : CallManager) :
    FailsClean (hangUpCall env callId) s := by
  refine Post.bind_gets (Post.ite (fun _ => failsClean_pure _ s) fun _ => failsClean_checked ?_)
  refine Post.bind_gets (Post.ite (fun _ => ?_) fun _ => postRequest_failsClean env _ s)
  -- a call without an index is hung up later: the operation succeeds
  exact fun h => absurd rfl h

theorem holdCall_failsClean (env : Env) (callId : Int) (s : CallManager) :
    FailsClean (holdCall env callId) s := failsClean_checked (postRequest_failsClean env _ s)

theorem unHoldCall_failsClean (env : Env) (callId : Int) (s : CallManager) :
    FailsClean (unHoldCall env callId) s := failsClean_checked (postRequest_failsClean env _ s)

theorem switchCall_failsClean (env : Env) (callId : Int) (s : CallManager) :
    FailsClean (switchCall env callId) s := failsClean_checked (postRequest_failsClean env _ s)

end CallControlManager

/-! ## The answer -/

/-- What `AnswerCall` does before it asks the policy. -/
def announceAnswer (env : Env) (p : Ref) : Prog CallManager Unit := do
  modifyCall p fun c => { c with isAnswered := true }
  notifyCallStateUpdated env p .incoming .answered

instance : Moves Quiet (announceAnswer env p) := by
  have : Moves Quiet (modifyCall p fun c => { c with isAnswered := true }) :=
    quiet_modifyCall fun _ => rfl
  unfold announceAnswer
  infer_instance

theorem answerCall_eq (env : Env) {callId : Int} (videoState : Int) (isRTT : Bool)
    (hp : CallControlManager.getRingCall s callId = some p) :
    CallControlManager.answerCall env callId videoState isRTT s =
      (do
        announceAnswer env p
        let ret ← Prog.gets fun s' => answerCallPolicy s' (s.call p).callId videoState
        if ret ≠ RetCode.success then pure ret
        else postRequest env (.answer (s.call p).callId videoState isRTT)) s := by
  simp only [CallControlManager.answerCall, announceAnswer, Prog.bind_apply, Prog.gets_apply, hp]
  rfl

/-- The policy looks at nothing the announcement changes. -/
theorem answerCallPolicy_quiet (h : Quiet s s') (callId videoState : Int) :
    answerCallPolicy s' callId videoState = answerCallPolicy s callId videoState := by
  have hrow : ∀ q, (s'.call q).callId = (s.call q).callId ∧
      (s'.call q).callState = (s.call q).callState := fun q =>
    ⟨congrArg Row.callId (h.row q), congrArg Row.callState (h.row q)⟩
  have hone : getOneCallObject s' callId = getOneCallObject s callId := by
    simp only [getOneCallObject, CallManager.findCall, h.list, hrow]
  have hexist : isCallExist s' callId = isCallExist s callId := by
    simp only [isCallExist, CallManager.anyCall, h.list, hrow]
  have hstate : getCallState s' callId = getCallState s callId := by
    simp only [getCallState, hone, hrow]
  simp only [answerCallPolicy, ringingCallPolicy, hexist, hstate]

/-- Nothing was broadcast or commanded on the way. -/
def Unheard (s s' : CallManager) : Prop := s'.outgoing = s.outgoing

theorem unheard_logged {e : Event} (he : e.isOutgoing = false) : Unheard s (s.logged e) :=
  (Still.logged he).outgoing

instance : Toneless Unheard where
  refl _ := rfl
  trans _ _ _ h h' := Eq.trans h' h
  tones _ _ := rfl
  sound _ _ _ := unheard_logged rfl

instance : Asking Unheard where
  asked _ _ _ := unheard_logged rfl
  posted _ _ := unheard_logged rfl

instance : Posting Unheard where
  requests _ _ := rfl

theorem announceAnswer_outgoing (env : Env) (p : Ref) (s : CallManager) :
    (announceAnswer env p s).2.outgoing =
      s.outgoing ++ [.callStateUpdated { s.call p with isAnswered := true } .incoming .answered] := by
  let s₁ := s.updateCall p fun c => { c with isAnswered := true }
  have hcall : s₁.call p = { s.call p with isAnswered := true } :=
    call_updateCall_self s p fun c => { c with isAnswered := true }
  have haudio : Unheard (s₁.logged (.callStateUpdated (s₁.call p) .incoming .answered))
      (announceAnswer env p s).2 :=
    Moves.rel (m := audioCallStateUpdated env .incoming .answered) _
  rw [haudio, outgoing_logged rfl, hcall]
  rfl

/-- An answer that does not get through has been broadcast all the same. -/
theorem answerCall_touches {callId videoState : Int} {isRTT : Bool}
    (hp : CallControlManager.getRingCall s callId = some p) :
    ¬Untouched s (CallControlManager.answerCall env callId videoState isRTT s).2 := by
  intro hu
  have hrest : Unheard (announceAnswer env p s).2
      (CallControlManager.answerCall env callId videoState isRTT s).2 := by
    rw [answerCall_eq env videoState isRTT hp]
    exact Moves.rel (m := do
      let ret ← Prog.gets fun s' => answerCallPolicy s' (s.call p).callId videoState
      if ret ≠ RetCode.success then pure ret
      else postRequest env (.answer (s.call p).callId videoState isRTT)) _
  have hout := hu.outgoing
  rw [hrest, announceAnswer_outgoing] at hout
  simp at hout

theorem answerCall_success_iff {callId videoState : Int} (isRTT : Bool)
    (hp : CallControlManager.getRingCall s callId = some p) :
    (CallControlManager.answerCall env callId videoState isRTT s).1 = .success ↔
      answerCallPolicy s (s.call p).callId videoState = .success ∧
        env.post (announceAnswer env p s).2.log = .success := by
  rw [answerCall_eq env videoState isRTT hp]
  have hpolicy := answerCallPolicy_quiet (Moves.rel (R := Quiet) (m := announceAnswer env p) s)
    (s.call p).callId videoState
  simp only [Prog.bind_apply, Prog.gets_apply, Prog.ite_apply', hpolicy]
  by_cases hok : answerCallPolicy s (s.call p).callId videoState = .success
  · rw [if_neg (not_not.mpr hok), postRequest_code]
    exact (and_iff_right hok).symm
  · rw [if_pos hok]
    simp [hok]

/-- An answer goes through: its policy allows it, and the main loop accepts the request
it then posts. -/
def ControlOperation.GoesThrough (env : Env) (s : CallManager) : ControlOperation → Prop
  | .answerCall callId videoState _ =>
    ∀ p, CallControlManager.getRingCall s callId = some p →
      answerCallPolicy s (s.call p).callId videoState = .success ∧
        env.post (announceAnswer env p s).2.log = .success
  | _ => True

/-- **A control operation that fails changes nothing**, unless it is an answer to a
ringing call. -/
theorem operation_untouched_iff (env : Env) (s : CallManager) (op : ControlOperation) :
    ((op.perform env s).1 ≠ .success → Untouched s (op.perform env s).2) ↔
      op.GoesThrough env s := by
  cases op with
  | answerCall callId videoState isRTT =>
    constructor
    · intro h p hp
      rw [← answerCall_success_iff isRTT hp]
      by_contra hfail
      exact answerCall_touches hp (h hfail)
    · intro hthrough hfail
      cases hring : CallControlManager.getRingCall s callId with
      | none =>
        have : CallControlManager.answerCall env callId videoState isRTT s =
          (.errLocalPtrNull, s) := by
          simp [CallControlManager.answerCall, hring]
        rw [ControlOperation.perform, this]
        exact .refl s
      | some p => exact absurd ((answerCall_success_iff isRTT hring).mpr (hthrough p hring)) hfail
  | rejectCall callId rejectWithMessage =>
    exact iff_of_true (CallControlManager.rejectCall_failsClean env _ _ s) trivial
  | hangUpCall callId => exact iff_of_true (CallControlManager.hangUpCall_failsClean env _ s) trivial
  | holdCall callId => exact iff_of_true (CallControlManager.holdCall_failsClean env _ s) trivial
  | unHoldCall callId => exact iff_of_true (CallControlManager.unHoldCall_failsClean env _ s) trivial
  | switchCall callId => exact iff_of_true (CallControlManager.switchCall_failsClean env _ s) trivial

/-- A ringing call is answered while the main loop accepts no post: the answer is broadcast,
and the operation fails. -/
theorem answerCall_queueFull :
    ∃ (env : Env) (s : CallManager) (op : ControlOperation), Reachable s ∧
      (op.perform env s).1 ≠ .success ∧
      ¬Untouched s (op.perform env s).2 :=
  ⟨{ Env.obliging with post := fun _ => .errIpcConnectStubFail },
    .run [(.obliging, .callReport (ringingReport 1))], .answerCall 1 0 false,
      reachable_run _, by decide +kernel,
    answerCall_touches (p := 0) (by decide +kernel)⟩

end CallManagerMini
