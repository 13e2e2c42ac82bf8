import CallManagerMini.CallIds
import CallManagerMini.ControlEffects
import CallManagerMini.HangUpTypes
import CallManagerMini.PlainRelations

/-! # Posted requests

A control operation that its policy lets pass posts a request, which runs in a step of its own,
behind whatever the main loop was given before.  Nothing but a control operation posts one, and
what it posts is for a call of the table (`mainLoopStep_queued`).  When the request runs, it looks
for its call again: it sends the stack one command at most, for that call as it is by then
(`runRequest_sends`), and does nothing if the call is gone (`runRequest_gone`).
-/

namespace CallManagerMini

open Prog (Post Moves)

/-- The call a request is for. -/
def Request.callId : Request → Int
  | .answer callId _ _ | .reject callId _ | .hangUp callId | .hold callId | .unHold callId
  | .switch callId => callId

variable {s s' s'' : CallManager} {env : Env} {p : Ref} {r : Request} {callId : Int}

/-- A call of the table has the id. -/
def CallManager.Lists (s : CallManager) (callId : Int) : Prop :=
  ∃ p ∈ s.callObjectPtrList, (s.call p).callId = callId

theorem isCallExist_iff : isCallExist s callId = true ↔ s.Lists callId := by
  simp [isCallExist, CallManager.anyCall, CallManager.Lists]

theorem callId_of_getOneCallObject (hp : getOneCallObject s callId = some p) :
    (s.call p).callId = callId := by
  have hfound := List.find?_some (p := fun q => decide ((s.call q).callId = callId)) hp
  exact of_decide_eq_true hfound

theorem lists_of_getOneCallObject (hp : getOneCallObject s callId = some p) : s.Lists callId :=
  ⟨p, mem_of_findCall hp, callId_of_getOneCallObject hp⟩

/-! ## What is posted -/

/-- The requests of the main loop are what they were. -/
def SameRequests (s s' : CallManager) : Prop := s'.requests = s.requests

instance : Std.Refl SameRequests := ⟨fun _ => rfl⟩

instance : IsTrans CallManager SameRequests := ⟨fun _ _ _ h h' => h'.trans h⟩

instance : Timeless SameRequests :=
  { Plain.of_aside (R := SameRequests) fun h => h.requests with timers := fun _ _ _ _ _ => rfl }

instance : Flagging SameRequests := .of_aside fun h => h.requests

instance : Toneless SameRequests where
  tones _ _ := rfl
  sound _ _ _ := rfl

instance : Outspoken SameRequests where
  broadcast _ _ _ := .of_modify fun _ => rfl

/-- At most one request is posted, for a call of the table. -/
def Posts (s s' : CallManager) : Prop :=
  s'.requests = s.requests ∨ ∃ r, s'.requests = s.requests ++ [r] ∧ s.Lists r.callId

theorem SameRequests.posts (h : SameRequests s s') : Posts s s' := .inl h

theorem postRequest_posts (env : Env) (hr : s.Lists r.callId) :
    Post (postRequest env r) s fun _ s' => Posts s s' := by
  show Posts s (postRequest env r s).2
  unfold postRequest
  dsimp only
  split
  · exact .inr ⟨r, rfl, hr⟩
  · exact .inl rfl

/-- A policy in front of an operation. -/
theorem posts_checked {policy : CallManager → RetCode} {m : Prog CallManager RetCode}
    (hm : policy s = .success → Post m s fun _ s' => Posts s s') :
    Post (do
      let ret ← Prog.gets policy
      if ret ≠ .success then pure ret else m) s fun _ s' => Posts s s' := by
  refine Post.bind_gets (Post.ite (fun _ => .inl rfl) fun hok => ?_)
  exact hm (not_not.mp hok)

theorem lists_of_ringingCallPolicy (h : ringingCallPolicy s callId = .success) :
    s.Lists callId := by
  unfold ringingCallPolicy at h
  split at h
  · cases h
  · next hexist => exact isCallExist_iff.mp (by simpa using hexist)

theorem lists_of_hangUpPolicy (h : hangUpPolicy s callId = .success) : s.Lists callId := by
  unfold hangUpPolicy at h
  split at h
  · cases h
  · next hexist => exact isCallExist_iff.mp (by simpa using hexist)

theorem lists_of_switchCallPolicy (h : switchCallPolicy s callId = .success) :
    s.Lists callId := by
  unfold switchCallPolicy at h
  split at h
  · cases h
  · next hexist => exact isCallExist_iff.mp (by simpa using hexist)

theorem lists_of_holdCallPolicy (h : holdCallPolicy s callId = .success) : s.Lists callId := by
  unfold holdCallPolicy at h
  cases hp : getOneCallObject s callId with
  | none =>
    rw [hp] at h
    cases h
  | some p => exact lists_of_getOneCallObject hp

theorem lists_of_unHoldCallPolicy (h : unHoldCallPolicy s callId = .success) :
    s.Lists callId := by
  unfold unHoldCallPolicy at h
  cases hp : getOneCallObject s callId with
  | none =>
    rw [hp] at h
    cases h
  | some p => exact lists_of_getOneCallObject hp

namespace CallControlManager

theorem lists_of_getRingCall (hp : getRingCall s callId = some p) :
    s.Lists (s.call p).callId := by
  unfold getRingCall at hp
  cases hring : getOneCallObjectByState s .ringing with
  | none =>
    rw [hring] at hp
    cases hp
  | some q =>
    rw [hring] at hp
    exact ⟨p, mem_of_findCall hp, rfl⟩

theorem answerCall_posts (env : Env) (callId videoState : Int) (isRTT : Bool) (s : CallManager) :
    Post (answerCall env callId videoState isRTT) s fun _ s' => Posts s s' := by
  cases hp : getRingCall s callId with
  | none =>
    refine Post.bind_gets ?_
    rw [hp]
    exact .inl rfl
  | some p =>
    have hlisted := lists_of_getRingCall hp
    have hset : Moves SameRequests (modifyCall p fun c => { c with isAnswered := true }) :=
      bare_modifyCall fun _ => ⟨rfl, rfl, id⟩
    have hannounce : Moves SameRequests (announceAnswer env p) := by
      unfold announceAnswer
      infer_instance
    refine Post.congr (answerCall_eq env videoState isRTT hp) (Post.bind
      (Post.and (Post.of_moves (R := SameRequests) (announceAnswer env p) s)
        (Post.of_moves (R := Quiet) (announceAnswer env p) s)) ?_)
    rintro _ s₁ ⟨hsame, hq⟩
    -- the announcement leaves the ids of the table alone
    have hlisted₁ : s₁.Lists (s.call p).callId := by
      obtain ⟨q, hq', hid⟩ := hlisted
      exact ⟨q, hq.list ▸ hq', (congrArg Row.callId (hq.row q)).trans hid⟩
    refine Post.mono (posts_checked fun _ => postRequest_posts env hlisted₁) ?_
    rintro _ s₂ (hnone | ⟨r, hr, hr'⟩)
    · exact .inl (hnone.trans hsame)
    · refine .inr ⟨r, by rw [hr, hsame], ?_⟩
      obtain ⟨q, hq', hid⟩ := hr'
      exact ⟨q, hq.list ▸ hq', (congrArg Row.callId (hq.row q)).symm.trans hid⟩

theorem rejectCall_posts (env : Env) (callId : Int) (rejectWithMessage : Bool) (s : CallManager) :
    Post (rejectCall env callId rejectWithMessage) s fun _ s' => Posts s s' := by
  refine Post.bind_gets ?_
  cases getOneCallObjectByState s .ringing with
  | none => exact .inl rfl
  | some p =>
    refine Post.bind_gets (posts_checked fun hok => ?_)
    exact postRequest_posts env (lists_of_ringingCallPolicy hok)

theorem hangUpCall_posts (env : Env) (callId : Int) (s : CallManager) :
    Post (hangUpCall env callId) s fun _ s' => Posts s s' := by
  refine Post.bind_gets (Post.ite (fun _ => .inl rfl) fun _ => posts_checked fun hok => ?_)
  refine Post.bind_gets (Post.ite (fun _ => ?_) fun _ => ?_)
  · exact SameRequests.posts (Post.of_moves (R := SameRequests) _ s)
  · exact postRequest_posts env (lists_of_hangUpPolicy hok)

theorem holdCall_posts (env : Env) (callId : Int) (s : CallManager) :
    Post (holdCall env callId) s fun _ s' => Posts s s' :=
  posts_checked fun hok => postRequest_posts env (lists_of_holdCallPolicy hok)

theorem unHoldCall_posts (env : Env) (callId : Int) (s : CallManager) :
    Post (unHoldCall env callId) s fun _ s' => Posts s s' :=
  posts_checked fun hok => postRequest_posts env (lists_of_unHoldCallPolicy hok)

theorem switchCall_posts (env : Env) (callId : Int) (s : CallManager) :
    Post (switchCall env callId) s fun _ s' => Posts s s' :=
  posts_checked fun hok => postRequest_posts env (lists_of_switchCallPolicy hok)

theorem endFirstCall_posts (env : Env) (states : List CallRunningState) (s : CallManager) :
    Post (endFirstCall env states) s fun _ s' => Posts s s' := by
  induction states with
  | nil => exact .inl rfl
  | cons state states ih =>
    refine Post.bind_gets ?_
    cases getOneCallObjectByState s state with
    | none => exact ih
    | some p =>
      refine Post.bind_gets (Post.ite (fun _ => ih) fun _ => ?_)
      exact Post.ite (fun _ => rejectCall_posts env _ false s) fun _ => hangUpCall_posts env _ s

end CallControlManager

/-- The requests a step takes off the queue. -/
def Input.takes : Input → Nat
  | .nextRequest => 1
  | _ => 0

/-- What a step does to the queue: it takes the oldest request, or posts one for a call of the
table. -/
def Queued (input : Input) (s s' : CallManager) : Prop :=
  s'.requests = s.requests.drop input.takes ∨
    input.takes = 0 ∧ ∃ r, s'.requests = s.requests ++ [r] ∧ s.Lists r.callId

theorem Posts.queued {input : Input} (h : Posts s s') (htakes : input.takes = 0) :
    Queued input s s' := by
  rcases h with hsame | hposted
  · exact .inl (by rw [htakes]; exact hsame)
  · exact .inr ⟨htakes, hposted⟩

/-- **Only control operations post requests**, for calls of the table. -/
theorem mainLoopStep_queued (env : Env) (input : Input) (s : CallManager) :
    Queued input s (mainLoopStep env input s).2 := by
  have hsame (m : Prog CallManager Unit) [Moves SameRequests m] (hm : mainLoopStep env input = m)
      (htakes : input.takes = 0) : Queued input s (mainLoopStep env input s).2 := by
    rw [hm]
    exact (SameRequests.posts (Moves.rel s)).queued htakes
  cases input with
  | callReport info => exact hsame (Prog.when _ _) rfl rfl
  | callsReport slotId callVec => exact hsame (Prog.when _ _) rfl rfl
  | disconnectedCause reason => exact hsame (handleDisconnectedCause reason).ignore rfl rfl
  | eventResult eventId => exact hsame (handleEventResultReportInfo env eventId).ignore rfl rfl
  | dialCall caller number extras =>
    exact hsame (CallManagerService.dialCall env caller number extras).ignore rfl rfl
  | delayedTask taskId => exact hsame (CallManagerMini.delayedTask env taskId) rfl rfl
  | answerCall callId videoState isRTT =>
    exact (CallControlManager.answerCall_posts env callId videoState isRTT s).queued rfl
  | rejectCall callId rejectWithMessage =>
    exact (CallControlManager.rejectCall_posts env callId rejectWithMessage s).queued rfl
  | hangUpCall callId => exact (CallControlManager.hangUpCall_posts env callId s).queued rfl
  | holdCall callId => exact (CallControlManager.holdCall_posts env callId s).queued rfl
  | unHoldCall callId => exact (CallControlManager.unHoldCall_posts env callId s).queued rfl
  | switchCall callId => exact (CallControlManager.switchCall_posts env callId s).queued rfl
  | endCall => exact (CallControlManager.endFirstCall_posts env _ s).queued rfl
  | nextRequest =>
    have hrun (r : Request) : Moves SameRequests (runRequest env r) := inferInstance
    show Queued .nextRequest s (nextRequest env s).2
    unfold nextRequest
    rw [Prog.bind_apply, Prog.gets_apply]
    cases hqueue : s.requests with
    | nil => exact .inl (by simp [hqueue])
    | cons r rest =>
      refine .inl (((hrun r).rel _).trans ?_)
      show s.requests.tail = s.requests.drop 1
      rw [List.drop_one]

/-! ## What a request does -/

/-- The call a command is about. -/
def Command.callInfo : Command → CellularCallInfo
  | .dial info | .hangUp info _ | .answer info | .holdCall info | .unHoldCall info
  | .switchCall info => info

/-- A command sent to the stack; without a reply there is no stack, and nothing was sent. -/
def Event.sentCommand : Event → Option Command
  | .command c (some _) => some c
  | _ => none

/-- The commands sent so far. -/
def CallManager.commands (s : CallManager) : List Command := s.log.filterMap Event.sentCommand

/-- The command a request is to send, for the call behind `p`. -/
def Request.command (s : CallManager) (p : Ref) : Request → Option Command
  | .answer _ videoState isRTT =>
    if (s.call p).isCurrentRinging then
      some (.answer { (s.call p).packCellularCallInfo with
        videoState := videoState, isRTT := (s.call p).isIMSCall && isRTT })
    else none
  | .reject .. => some (.hangUp (s.call p).packCellularCallInfo .default)
  | .hangUp _ =>
    some (.hangUp (s.call p).packCellularCallInfo ((s.call p).flaggedForHangUp s).hangUpType)
  | .hold _ => some (.holdCall (s.call p).packCellularCallInfo)
  | .unHold _ =>
    if isExistCallOtherSlot s (s.call p).slotId then none
    else some (.unHoldCall (s.call p).packCellularCallInfo)
  | .switch _ => some (.switchCall (s.call p).packCellularCallInfo)

theorem commands_logged (s : CallManager) (e : Event) :
    (s.logged e).commands = s.commands ++ e.sentCommand.toList := by
  unfold CallManager.commands CallManager.logged
  rw [List.filterMap_append]
  cases h : e.sentCommand <;> simp [h]

/-- No command is sent. -/
def SameCommands (s s' : CallManager) : Prop := s'.commands = s.commands

theorem sameCommands_emit {e : Event} (he : e.sentCommand = none) : Moves SameCommands (emit e) :=
  .of_modify fun s => by
    show (s.logged e).commands = s.commands
    rw [commands_logged, he, Option.toList_none, List.append_nil]

instance (f : CallBase → CallBase) : Moves SameCommands (modifyCall p f) := .of_modify fun _ => rfl

instance : Toneless SameCommands where
  refl _ := rfl
  trans _ _ _ h h' := Eq.trans h' h
  tones _ _ := rfl
  sound s _ _ := (commands_logged s _).trans (List.append_nil _)

instance : Moves SameCommands (notifyIncomingCallAnswered p) := by
  have (call : CallBase) : Moves SameCommands (emit (.incomingCallActivated call)) :=
    sameCommands_emit rfl
  unfold notifyIncomingCallAnswered
  infer_instance

instance (isSendSms : Bool) : Moves SameCommands (notifyIncomingCallRejected env p isSendSms) := by
  have (call : CallBase) : Moves SameCommands (emit (.incomingCallHungUp call isSendSms)) :=
    sameCommands_emit rfl
  unfold notifyIncomingCallRejected
  infer_instance

/-- The stack is there to answer the command. -/
def Env.takes (env : Env) (s : CallManager) (c : Command) : Bool := (env.stack s.log c).isSome

/-- The command is sent if there is a stack, and no other. -/
def Sends (env : Env) (c : Option Command) (s s' : CallManager) : Prop :=
  s'.commands = s.commands ++ (c.filter (env.takes s)).toList

theorem Sends.then {c : Option Command} (h : Sends env c s s') (h' : SameCommands s' s'') :
    Sends env c s s'' := Eq.trans h' h

theorem SameCommands.sends (h : SameCommands s s') : Sends env none s s' :=
  Eq.trans h (List.append_nil _).symm

theorem sendCommand_sends (env : Env) (c : Command) (s : CallManager) :
    Sends env (some c) s (sendCommand env c s).2 := by
  refine (commands_logged s (.command c (env.stack s.log c))).trans ?_
  cases hreply : env.stack s.log c with
  | none => simp [Event.sentCommand, Env.takes, hreply]
  | some code => simp [Event.sentCommand, Option.filter_some, Env.takes, hreply]

theorem answerCall_sends (env : Env) (p : Ref) (videoState : Int) (isRTT : Bool) (s : CallManager) :
    Sends env (if (s.call p).isCurrentRinging then
      some (.answer { (s.call p).packCellularCallInfo with
        videoState := videoState, isRTT := (s.call p).isIMSCall && isRTT })
    else none) s (answerCall env p videoState isRTT s).2 := by
  refine Post.bind_gets (k := fun c => _) (Q := fun _ s' => Sends env _ s s') ?_
  by_cases hring : (s.call p).isCurrentRinging = true
  · rw [if_pos hring, if_neg (by simp [hring])]
    exact sendCommand_sends env _ s
  · rw [if_neg hring, if_pos (by simp [hring])]
    exact (refl_of SameCommands s).sends

theorem rejectCall_sendsHangUp (env : Env) (p : Ref) (s : CallManager) :
    Sends env (some (.hangUp (s.call p).packCellularCallInfo .default)) s
      (rejectCall env p s).2 := by
  have hrun : (rejectCall env p s).2 = (sendCommand env (.hangUp
      ((s.updateCall p CallBase.rejectCallBase).call p).packCellularCallInfo .default)
      (s.updateCall p CallBase.rejectCallBase)).2 := rfl
  rw [hrun, packCellularCallInfo_rejected]
  exact sendCommand_sends env _ (s.updateCall p CallBase.rejectCallBase)

theorem hangUpCall_sendsHangUp (env : Env) (p : Ref) (s : CallManager) :
    Sends env (some (.hangUp (s.call p).packCellularCallInfo (s.call p).hangUpType)) s
      (hangUpCall env p s).2 := sendCommand_sends env _ s

theorem unHoldCall_sends (env : Env) (p : Ref) (s : CallManager) :
    Sends env (some (.unHoldCall (s.call p).packCellularCallInfo)) s (unHoldCall env p s).2 :=
  sendCommand_sends env _ s

/-- The flags decide about the type of the hang-up, and nothing else is sent. -/
theorem hangUpRequest_sends (env : Env) (hp : getOneCallObject s callId = some p) :
    Sends env (some (.hangUp (s.call p).packCellularCallInfo
      ((s.call p).flaggedForHangUp s).hangUpType)) s (hangUpRequest env callId s).2 := by
  have hsent := hangUpCall_sendsHangUp env p (s.updateCall p (CallBase.flaggedForHangUp s))
  rw [call_updateCall_self, packCellularCallInfo_flagged] at hsent
  rw [hangUpRequest_eq env hp]
  exact hsent

theorem isExistCallOtherSlot_quiet (h : Quiet s s') (slotId : Int) :
    isExistCallOtherSlot s' slotId = isExistCallOtherSlot s slotId := by
  have hid : ∀ q, (s'.call q).callId = (s.call q).callId := fun q => congrArg Row.callId (h.row q)
  have htype : ∀ q, (s'.call q).callType = (s.call q).callType := fun q =>
    congrArg Row.callType (h.row q)
  have hslot : ∀ q, (s'.call q).slotId = (s.call q).slotId := fun q =>
    congrArg Row.slotId (h.row q)
  simp only [isExistCallOtherSlot, getCarrierCallList, getOneCallObject, CallManager.findCall,
    h.list, hid, htype, hslot]
  rfl

/-- **A request sends the command for its call**, as the call is by then, and no other. -/
theorem runRequest_sends (env : Env) (hp : getOneCallObject s r.callId = some p) :
    Sends env (r.command s p) s (runRequest env r s).2 := by
  cases r with
  | answer callId videoState isRTT =>
    have hcall : (s.updateCall p fun c => { c with answerVideoState := videoState }).call p =
        { s.call p with answerVideoState := videoState } := call_updateCall_self ..
    have hsent := answerCall_sends env p videoState isRTT
      (s.updateCall p fun c => { c with answerVideoState := videoState })
    rw [hcall] at hsent
    refine Post.bind_gets (k := fun o => _) (Q := fun _ s' => Sends env _ s s') ?_
    rw [show getOneCallObject s callId = some p from hp, Prog.forSome_some]
    refine Post.bind_modify (Post.bind (Q := fun _ s₁ => Sends env _ s s₁) hsent ?_)
    exact fun ret s₁ hs₁ => hs₁.then (Moves.rel (R := SameCommands) s₁)
  | reject callId isSendSms =>
    refine Post.bind_gets (k := fun o => _) (Q := fun _ s' => Sends env _ s s') ?_
    rw [show getOneCallObject s callId = some p from hp, Prog.forSome_some]
    refine Post.bind (Q := fun _ s₁ => Sends env _ s s₁) (rejectCall_sendsHangUp env p s) ?_
    exact fun ret s₁ hs₁ => hs₁.then (Moves.rel (R := SameCommands) s₁)
  | hangUp callId => exact hangUpRequest_sends env hp
  | hold callId =>
    refine Post.bind_gets (k := fun o => _) (Q := fun _ s' => Sends env _ s s') ?_
    rw [show getOneCallObject s callId = some p from hp, Prog.forSome_some]
    exact sendCommand_sends env _ s
  | unHold callId =>
    have hcall : (s.updateCall p fun c => { c with canUnHoldState := true }).call p =
        { s.call p with canUnHoldState := true } := call_updateCall_self ..
    have hquiet : Quiet s (s.updateCall p fun c => { c with canUnHoldState := true }) :=
      quiet_updateCall rfl
    refine Post.bind_gets (k := fun o => _) (Q := fun _ s' => Sends env _ s s') ?_
    rw [show getOneCallObject s callId = some p from hp, Prog.forSome_some]
    refine Post.bind_modify (Post.bind_gets ?_)
    rw [isExistCallOtherSlot_quiet hquiet, hcall]
    unfold Request.command
    -- another slot has a call: the request says so and sends nothing
    refine Post.when (fun hfree => ?_) fun hbusy => ?_
    · rw [if_neg (by simpa using hfree)]
      have hsent := unHoldCall_sends env p (s.updateCall p fun c => { c with canUnHoldState := true })
      rw [show ((s.updateCall p fun c => { c with canUnHoldState := true }).call
        p).packCellularCallInfo = (s.call p).packCellularCallInfo by rw [hcall]; rfl] at hsent
      exact hsent
    · rw [if_pos (by simpa using hbusy)]
      exact (refl_of SameCommands s).sends
  | switch callId =>
    refine Post.bind_gets (k := fun o => _) (Q := fun _ s' => Sends env _ s s') ?_
    rw [show getOneCallObject s callId = some p from hp, Prog.forSome_some]
    exact sendCommand_sends env _ s

/-- A request whose call is gone does nothing. -/
theorem runRequest_gone (env : Env) (hgone : getOneCallObject s r.callId = none) :
    runRequest env r s = ((), s) := by
  cases r <;>
    simp only [Request.callId] at hgone <;>
    simp [runRequest, answerRequest, rejectRequest, hangUpRequest, holdRequest, unHoldRequest,
      switchRequest, hgone]

end CallManagerMini
