import CallManagerMini.CallManagerService
import CallManagerMini.CallPermissionAdapter
import CallManagerMini.Lib.Gate

/-! # The entries of the service

`CallManagerService`: what an application asks of the call manager.  Each entry makes its checks in
an order of its own, most of them about the permissions that the build grants to callers within the
image, and then calls the control manager, if there is one.  The checks are those of the documented
table (`ServiceRequest.rule`), and none of them looks at a call.
-/

namespace CallManagerMini

/-- What an entry returns.  `enabled` is a result that is passed through a reference. -/
inductive Reply where
  | code (ret : RetCode)
  | flag (value : Bool)
  | enabled (ret : RetCode) (value : Bool)
  | callState (state : CallStateToApp)
  deriving DecidableEq, Repr

/-- The service as its callers find it.  `callControlManagerPtr_` is set while it is ready. -/
structure Service where
  ready : Bool := false
  manager : CallManager := {}

/-- An entry of the service: its checks in their order, each with what is returned if it fails; what
is returned where there is no control manager; and what the control manager is asked. -/
structure Entry where
  checks : List (Bool × Reply)
  absent : Reply
  ask : Env → Prog CallManager Reply

/-- The answer of the first check that fails. -/
def Entry.denial (e : Entry) : Option Reply :=
  (e.checks.find? fun check => !check.1).map Prod.snd

/-- Run the entry. -/
def Entry.serve (e : Entry) (env : Env) (s : Service) : Reply × Service :=
  match e.denial with
  | some reply => (reply, s)
  | none =>
    if s.ready then
      let r := e.ask env s.manager
      (r.1, { s with manager := r.2 })
    else (e.absent, s)

/-- Return the code of a program. -/
def replying (m : Prog CallManager RetCode) : Prog CallManager Reply := do
  let ret ← m
  pure (.code ret)

namespace CallManagerService

variable (trust : TrustModel)

/-- `CheckCallerIsSystemApp`. -/
def checkCallerIsSystemApp : Bool × Reply := (trust.isSystemApp, .code .errIllegalUseOfSystemApi)

/-- One of the permissions is granted. -/
def checkOneOf (permissions : List Permission) : Bool × Reply :=
  (permissions.any trust.grants, .code .errPermissionErr)

/-- `DialCall`. -/
def dialCallEntry (number : List UInt16) (extras : PacMap) : Entry where
  checks := [(number.length ≤ accountNumberMaxLength, .code .callErrNumberOutOfRange),
    checkCallerIsSystemApp trust, checkOneOf trust [.placeCall]]
  absent := .code .errLocalPtrNull
  ask env := replying (CallControlManager.dialCall env number (buildDialInfo extras))

/-- `AnswerCall(callId, videoState, isRTT)`. -/
def answerCallEntry (callId videoState : Int) (isRTT : Bool) : Entry where
  checks := [checkCallerIsSystemApp trust, checkOneOf trust [.answerCall],
    (videoState = VideoStateType.voice.toInt, .code .callErrVideoNotSupported),
    (!isRTT, .code .callErrFunctionNotSupported)]
  absent := .code .errLocalPtrNull
  ask env := replying (CallControlManager.answerCall env callId videoState isRTT)

/-- `RejectCall(callId, rejectWithMessage, textMessage)`. -/
def rejectCallEntry (callId : Int) (rejectWithMessage : Bool) : Entry where
  checks := [checkCallerIsSystemApp trust, checkOneOf trust [.answerCall, .setTelephonyState],
    (!(rejectWithMessage && !trust.grants .sendMessages), .code .errPermissionErr),
    (!rejectWithMessage, .code .callErrFunctionNotSupported)]
  absent := .code .errLocalPtrNull
  ask env := replying (CallControlManager.rejectCall env callId rejectWithMessage)

/-- `HangUpCall(callId)`. -/
def hangUpCallEntry (callId : Int) : Entry where
  checks := [checkCallerIsSystemApp trust, checkOneOf trust [.answerCall, .setTelephonyState]]
  absent := .code .errLocalPtrNull
  ask env := replying (CallControlManager.hangUpCall env callId)

/-- The entries of `HoldCall`, `UnHoldCall` and `SwitchCall`. -/
def heldCallEntry (operation : Env → Prog CallManager RetCode) : Entry where
  checks := [checkCallerIsSystemApp trust, checkOneOf trust [.answerCall]]
  absent := .code .errLocalPtrNull
  ask env := replying (operation env)

/-- `HoldCall`. -/
def holdCallEntry (callId : Int) : Entry :=
  heldCallEntry trust fun env => CallControlManager.holdCall env callId

/-- `UnHoldCall`. -/
def unHoldCallEntry (callId : Int) : Entry :=
  heldCallEntry trust fun env => CallControlManager.unHoldCall env callId

/-- `SwitchCall`. -/
def switchCallEntry (callId : Int) : Entry :=
  heldCallEntry trust fun env => CallControlManager.switchCall env callId

/-- `EndCall`. -/
def endCallEntry : Entry where
  checks := [(trust.isSystemApp, .flag false),
    ([Permission.answerCall, .setTelephonyState].any trust.grants, .flag false)]
  absent := .flag false
  ask env := do
    let ret ← CallControlManager.endCall env
    pure (.flag (ret = .success))

/-- `AnswerCall()`: no matter who calls, and in voice. -/
def answerRingingCallEntry : Entry where
  checks := [checkOneOf trust [.answerCall, .manageCallForDevices]]
  absent := .code .errLocalPtrNull
  ask env := replying
    (CallControlManager.answerCall env invalidCallId VideoStateType.voice.toInt false)

/-- `RejectCall()`. -/
def rejectRingingCallEntry : Entry where
  checks := [checkOneOf trust [.answerCall, .setTelephonyState, .manageCallForDevices]]
  absent := .code .errLocalPtrNull
  ask env := replying (CallControlManager.rejectCall env invalidCallId false)

/-- `HangUpCall()`. -/
def hangUpCurrentCallEntry : Entry where
  checks := [checkOneOf trust [.answerCall, .setTelephonyState, .manageCallForDevices]]
  absent := .code .errLocalPtrNull
  ask env := replying (CallControlManager.hangUpCall env invalidCallId)

/-- `GetCallState`. -/
def getCallStateEntry : Entry where
  checks := []
  absent := .code .errLocalPtrNull
  ask _ := Prog.gets fun s => .callState (CallControlManager.getCallState s)

/-- `HasCall`: there are no calls but those of the carriers. -/
def hasCallEntry (isInCludeVoipCall : Bool) : Entry where
  checks := []
  absent := .flag false
  ask _ := Prog.gets fun s =>
    .flag (if isInCludeVoipCall then CallControlManager.hasCall s else hasCellularCallExist s)

/-- `IsNewCallAllowed`. -/
def isNewCallAllowedEntry : Entry where
  checks := [checkCallerIsSystemApp trust]
  absent := .code .errLocalPtrNull
  ask _ := Prog.gets fun s => .enabled .success (isNewCallAllowedCreate s)

/-- `IsRinging`. -/
def isRingingEntry : Entry where
  checks := [checkCallerIsSystemApp trust, checkOneOf trust [.setTelephonyState]]
  absent := .code .errLocalPtrNull
  ask _ := Prog.gets fun s => .enabled .success (hasRingingCall s)

end CallManagerService

/-- What an application asks of the service. -/
inductive ServiceRequest where
  | dialCall (number : List UInt16) (extras : PacMap)
  | answerCall (callId videoState : Int) (isRTT : Bool)
  | rejectCall (callId : Int) (rejectWithMessage : Bool)
  | hangUpCall (callId : Int)
  | holdCall (callId : Int)
  | unHoldCall (callId : Int)
  | switchCall (callId : Int)
  | endCall
  | answerRingingCall
  | rejectRingingCall
  | hangUpCurrentCall
  | getCallState
  | hasCall (isInCludeVoipCall : Bool)
  | isNewCallAllowed
  | isRinging

/-- The entry a request goes to. -/
def ServiceRequest.entry (trust : TrustModel) : ServiceRequest → Entry
  | .dialCall number extras => CallManagerService.dialCallEntry trust number extras
  | .answerCall callId videoState isRTT =>
    CallManagerService.answerCallEntry trust callId videoState isRTT
  | .rejectCall callId rejectWithMessage =>
    CallManagerService.rejectCallEntry trust callId rejectWithMessage
  | .hangUpCall callId => CallManagerService.hangUpCallEntry trust callId
  | .holdCall callId => CallManagerService.holdCallEntry trust callId
  | .unHoldCall callId => CallManagerService.unHoldCallEntry trust callId
  | .switchCall callId => CallManagerService.switchCallEntry trust callId
  | .endCall => CallManagerService.endCallEntry trust
  | .answerRingingCall => CallManagerService.answerRingingCallEntry trust
  | .rejectRingingCall => CallManagerService.rejectRingingCallEntry trust
  | .hangUpCurrentCall => CallManagerService.hangUpCurrentCallEntry trust
  | .getCallState => CallManagerService.getCallStateEntry
  | .hasCall isInCludeVoipCall => CallManagerService.hasCallEntry isInCludeVoipCall
  | .isNewCallAllowed => CallManagerService.isNewCallAllowedEntry trust
  | .isRinging => CallManagerService.isRingingEntry trust

/-! ## The documented table -/

/-- Who may make a request. -/
structure Rule where
  /-- Only a system application. -/
  systemApp : Bool
  /-- Who has one of these permissions, if there are any. -/
  oneOf : List Permission := []
  /-- And all of these. -/
  allOf : List Permission := []

/-- The table of permissions. -/
def ServiceRequest.rule : ServiceRequest → Rule
  | .dialCall .. => { systemApp := true, oneOf := [.placeCall] }
  | .answerCall .. => { systemApp := true, oneOf := [.answerCall] }
  | .rejectCall _ rejectWithMessage =>
    { systemApp := true
      oneOf := [.answerCall, .setTelephonyState]
      allOf := if rejectWithMessage then [.sendMessages] else [] }
  | .hangUpCall _ => { systemApp := true, oneOf := [.answerCall, .setTelephonyState] }
  | .holdCall _ | .unHoldCall _ | .switchCall _ => { systemApp := true, oneOf := [.answerCall] }
  | .endCall => { systemApp := true, oneOf := [.answerCall, .setTelephonyState] }
  | .answerRingingCall => { systemApp := false, oneOf := [.answerCall, .manageCallForDevices] }
  | .rejectRingingCall | .hangUpCurrentCall =>
    { systemApp := false, oneOf := [.answerCall, .setTelephonyState, .manageCallForDevices] }
  | .getCallState | .hasCall _ => { systemApp := false }
  | .isNewCallAllowed => { systemApp := true }
  | .isRinging => { systemApp := true, oneOf := [.setTelephonyState] }

/-- The rule lets the caller in. -/
def Rule.Allows (rule : Rule) (trust : TrustModel) : Prop :=
  (rule.systemApp = true → trust.isSystemApp = true) ∧
    (rule.oneOf ≠ [] → ∃ permission ∈ rule.oneOf, trust.Has permission) ∧
    ∀ permission ∈ rule.allOf, trust.Has permission

/-- What this build supports of the requests. -/
def ServiceRequest.Supported : ServiceRequest → Prop
  | .dialCall number _ => number.length ≤ CallManagerService.accountNumberMaxLength
  | .answerCall _ videoState isRTT => videoState = VideoStateType.voice.toInt ∧ isRTT = false
  | .rejectCall _ rejectWithMessage => rejectWithMessage = false
  | _ => True

variable {trust : TrustModel}

theorem denial_eq_none {e : Entry} : e.denial = none ↔ ∀ check ∈ e.checks, check.1 = true := by
  simp [Entry.denial, List.find?_eq_none]

/-- A list of checks is passed check by check. -/
theorem passes_cons {check : Bool × Reply} {checks : List (Bool × Reply)} :
    (∀ c ∈ check :: checks, c.1 = true) ↔ check.1 = true ∧ ∀ c ∈ checks, c.1 = true :=
  List.forall_mem_cons

/-- **The checks of the entries are those of the table**, and those of the arguments this build does
not support. -/
theorem denial_eq_none_iff (request : ServiceRequest) :
    (request.entry trust).denial = none ↔ request.rule.Allows trust ∧ request.Supported := by
  rw [denial_eq_none]
  unfold Rule.Allows
  cases request with
  | dialCall number extras =>
    simp only [ServiceRequest.entry, CallManagerService.dialCallEntry, passes_cons,
      CallManagerService.checkCallerIsSystemApp, CallManagerService.checkOneOf, any_grants_iff]
    simp [ServiceRequest.rule, ServiceRequest.Supported]
    tauto
  | answerCall callId videoState isRTT =>
    simp only [ServiceRequest.entry, CallManagerService.answerCallEntry, passes_cons,
      CallManagerService.checkCallerIsSystemApp, CallManagerService.checkOneOf, any_grants_iff]
    simp [ServiceRequest.rule, ServiceRequest.Supported]
    tauto
  | rejectCall callId rejectWithMessage =>
    simp only [ServiceRequest.entry, CallManagerService.rejectCallEntry, passes_cons,
      CallManagerService.checkCallerIsSystemApp, CallManagerService.checkOneOf, any_grants_iff]
    cases rejectWithMessage <;> simp [ServiceRequest.rule, ServiceRequest.Supported]
  | hangUpCall | holdCall | unHoldCall | switchCall | endCall | answerRingingCall
  | rejectRingingCall | hangUpCurrentCall | isRinging =>
    -- one list of permissions, and nothing about the arguments
    simp only [ServiceRequest.entry, CallManagerService.hangUpCallEntry,
      CallManagerService.holdCallEntry, CallManagerService.unHoldCallEntry,
      CallManagerService.switchCallEntry, CallManagerService.heldCallEntry,
      CallManagerService.endCallEntry, CallManagerService.answerRingingCallEntry,
      CallManagerService.rejectRingingCallEntry, CallManagerService.hangUpCurrentCallEntry,
      CallManagerService.isRingingEntry, passes_cons, CallManagerService.checkCallerIsSystemApp,
      CallManagerService.checkOneOf, any_grants_iff]
    simp [ServiceRequest.rule, ServiceRequest.Supported]
  | getCallState | hasCall =>
    simp [ServiceRequest.entry, CallManagerService.getCallStateEntry,
      CallManagerService.hasCallEntry, ServiceRequest.rule, ServiceRequest.Supported]
  | isNewCallAllowed =>
    simp [ServiceRequest.entry, CallManagerService.isNewCallAllowedEntry,
      CallManagerService.checkCallerIsSystemApp, ServiceRequest.rule, ServiceRequest.Supported]

/-! ## The caller of a dial -/

/-- What a dial asks about its caller. -/
def TrustModel.caller (trust : TrustModel) : Caller where
  isSystemCaller := trust.isSystemApp
  placeCall := trust.grants .placeCall

/-- The entry of `DialCall` is the `DialCall` of the main loop's steps, for the caller the build
trusts. -/
theorem dialCallEntry_serve (env : Env) (number : List UInt16) (extras : PacMap) {s : Service}
    (hready : s.ready = true) :
    (CallManagerService.dialCallEntry trust number extras).serve env s =
      ((.code (CallManagerService.dialCall env trust.caller number extras s.manager).1),
        { s with
          manager := (CallManagerService.dialCall env trust.caller number extras s.manager).2 }) := by
  unfold Entry.serve Entry.denial CallManagerService.dialCall TrustModel.caller
  by_cases hlen : number.length ≤ CallManagerService.accountNumberMaxLength
  · cases hsystem : trust.isSystemApp with
    | false =>
      simp [CallManagerService.dialCallEntry, CallManagerService.checkCallerIsSystemApp, hlen,
        Nat.not_lt.mpr hlen, hsystem]
    | true =>
      cases hplace : trust.grants .placeCall with
      | false =>
        simp [CallManagerService.dialCallEntry, CallManagerService.checkCallerIsSystemApp,
          CallManagerService.checkOneOf, hlen, Nat.not_lt.mpr hlen, hsystem, hplace]
      | true =>
        simp [CallManagerService.dialCallEntry, CallManagerService.checkCallerIsSystemApp,
          CallManagerService.checkOneOf, hlen, Nat.not_lt.mpr hlen, hsystem, hplace, hready,
          replying]
  · simp [CallManagerService.dialCallEntry, hlen, Nat.lt_of_not_le hlen]

end CallManagerMini
