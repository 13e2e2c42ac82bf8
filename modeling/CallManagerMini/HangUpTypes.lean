import CallManagerMini.RefusedDials

/-! # The supplement type of a hang-up

`HangUpRequest` tells the stack more than "hang up": release the active call, or release what is
held and what waits.  What it wants is left in the policy flags of the call object, where
`CarrierHangUpCall` reads it, and no function ever takes a flag back.  The hang-ups of
`HangUpRequest`, `ClearPendingState` and `EccDialPolicy` fit as far as the flags do; where the flags
come from is the matter of the histories of hang-ups.
-/

namespace CallManagerMini

open Prog (Post Moves)

variable {s s' : CallManager} {env : Env} {p : Ref}

/-! ## The type and the call it fits -/

/-- The type `CarrierHangUpCall` reads off the policy flags. -/
def CallBase.hangUpType (c : CallBase) : CallSupplementType :=
  if c.policyFlag &&& policyFlagHangUpActive ≠ 0 then .hangUpActive
  else if c.policyFlag &&& policyFlagHangUpHoldWait ≠ 0 then .hangUpHoldWait
  else .default

/-- The type goes with the state the call is in. -/
def CallSupplementType.Fits (c : CallBase) : CallSupplementType → Prop
  | .hangUpActive => c.callState = .active ∨ c.conferenceState = .active
  | .hangUpHoldWait => c.conferenceState = .holding
  | .default => True

instance (c : CallBase) (type : CallSupplementType) : Decidable (type.Fits c) := by
  cases type <;> unfold CallSupplementType.Fits <;> infer_instance

/-- A hang-up sent to the stack; without a reply there is no stack, and nothing was sent. -/
def Event.hangUp : Event → Option (CellularCallInfo × CallSupplementType)
  | .command (.hangUp callInfo type) (some _) => some (callInfo, type)
  | _ => none

/-- The hang-ups sent so far. -/
def CallManager.hangUps (s : CallManager) : List (CellularCallInfo × CallSupplementType) :=
  s.log.filterMap Event.hangUp

/-- Of the calls with a hang-up of some type, a part was hung up between two states, in the given
order. -/
def HangsUp (s s' : CallManager) (told : List (Ref × CallSupplementType)) : Prop :=
  ∃ sent : List (Ref × CallSupplementType), sent.Sublist told ∧
    s'.hangUps = s.hangUps ++ sent.map fun x => ((s.call x.1).packCellularCallInfo, x.2)

/-- The hang-ups sent between two states are for calls of the list, in its order, and each has a
type that fits its call.  (The functions below change neither the call state nor the conference
state of a call before they hang it up.) -/
def HangUpsFit (s s' : CallManager) (calls : List Ref) : Prop :=
  ∃ sent : List (Ref × CallSupplementType), (sent.map Prod.fst).Sublist calls ∧
    s'.hangUps = s.hangUps ++ sent.map (fun x => ((s.call x.1).packCellularCallInfo, x.2)) ∧
    ∀ x ∈ sent, x.2.Fits (s.call x.1)

/-- The flags the call has kept fit the state it is in. -/
def CallBase.FlagsFit (c : CallBase) : Prop := c.hangUpType.Fits c

instance (c : CallBase) : Decidable c.FlagsFit := by unfold CallBase.FlagsFit; infer_instance

theorem HangsUp.fit {told : List (Ref × CallSupplementType)} (h : HangsUp s s' told)
    (hfit : ∀ x ∈ told, x.2.Fits (s.call x.1)) : HangUpsFit s s' (told.map Prod.fst) := by
  obtain ⟨sent, hsub, hsent⟩ := h
  exact ⟨sent, hsub.map Prod.fst, hsent, fun x hx => hfit x (hsub.subset hx)⟩

/-- One hang-up that fits is the one of a call in the state for it. -/
theorem HangUpsFit.single {calls : List Ref} {x : CellularCallInfo × CallSupplementType}
    (h : HangUpsFit s s' calls) (hx : s'.hangUps = s.hangUps ++ [x]) :
    ∃ p ∈ calls, x.1 = (s.call p).packCellularCallInfo ∧ x.2.Fits (s.call p) := by
  obtain ⟨sent, hsub, hsent, hfit⟩ := h
  have hone := List.append_cancel_left (hx.symm.trans hsent)
  obtain ⟨⟨p, type⟩, hmem, rfl⟩ := List.mem_map.mp (hone ▸ List.mem_singleton_self x)
  exact ⟨p, hsub.subset (List.mem_map_of_mem hmem), rfl, hfit _ hmem⟩

/-! ## What is sent -/

theorem hangUps_logged (s : CallManager) (e : Event) :
    (s.logged e).hangUps = s.hangUps ++ e.hangUp.toList := by
  unfold CallManager.hangUps CallManager.logged
  rw [List.filterMap_append]
  cases h : e.hangUp <;> simp [h]

theorem HangsUp.of_eq (h : s'.hangUps = s.hangUps) : HangsUp s s' [] :=
  ⟨[], .slnil, by rw [h]; exact (List.append_nil _).symm⟩

/-- What a later part hangs up, where the stack is told of the calls what it was told before. -/
theorem HangsUp.trans {s'' : CallManager} {told told' : List (Ref × CallSupplementType)}
    (h : HangsUp s s' told) (h' : HangsUp s' s'' told')
    (hpack : ∀ q, (s'.call q).packCellularCallInfo = (s.call q).packCellularCallInfo) :
    HangsUp s s'' (told ++ told') := by
  obtain ⟨sent, hsub, hsent⟩ := h
  obtain ⟨sent', hsub', hsent'⟩ := h'
  refine ⟨sent ++ sent', hsub.append hsub', ?_⟩
  simp only [hsent', hsent, hpack, List.map_append, List.append_assoc]

/-- A command to hang up a call is a hang-up, if there is a stack. -/
theorem hangsUp_command (env : Env) (p : Ref) (type : CallSupplementType) (s₁ : CallManager)
    (hs₁ : s₁.hangUps = s.hangUps) :
    HangsUp s (sendCommand env (.hangUp (s.call p).packCellularCallInfo type) s₁).2
      [(p, type)] := by
  have hlog := hangUps_logged s₁ (.command (.hangUp (s.call p).packCellularCallInfo type)
    (env.stack s₁.log (.hangUp (s.call p).packCellularCallInfo type)))
  rw [hs₁] at hlog
  cases hreply : env.stack s₁.log (.hangUp (s.call p).packCellularCallInfo type) with
  | none =>
    rw [hreply] at hlog
    refine ⟨[], List.nil_sublist _, ?_⟩
    show (s₁.logged (.command _ _)).hangUps = _
    rw [hreply, hlog]
    rfl
  | some code =>
    rw [hreply] at hlog
    refine ⟨[(p, type)], List.Sublist.refl _, ?_⟩
    show (s₁.logged (.command _ _)).hangUps = _
    rw [hreply, hlog]
    rfl

/-- Where the call is hung up, the stack may have been told nothing since `s`, and the call may have
got flags. -/
theorem hangUpCall_hangsUp (env : Env) {s₁ : CallManager} (hs₁ : s₁.hangUps = s.hangUps)
    (hpack : (s₁.call p).packCellularCallInfo = (s.call p).packCellularCallInfo) :
    HangsUp s (hangUpCall env p s₁).2 [(p, (s₁.call p).hangUpType)] := by
  have hsend := hangsUp_command env p (s₁.call p).hangUpType s₁ hs₁
  rw [← hpack] at hsend
  exact hsend

theorem hangUpCall_sends (env : Env) (p : Ref) (s : CallManager) :
    HangsUp s (hangUpCall env p s).2 [(p, (s.call p).hangUpType)] ∧
      (hangUpCall env p s).2.calls = s.calls :=
  ⟨hangUpCall_hangsUp env rfl rfl, rfl⟩

theorem packCellularCallInfo_rejected (s : CallManager) (p q : Ref) :
    ((s.updateCall p CallBase.rejectCallBase).call q).packCellularCallInfo =
      (s.call q).packCellularCallInfo := by
  by_cases hq : q = p
  · subst hq
    rw [call_updateCall_self]
    rfl
  · show ((s.calls.set p _).get q).packCellularCallInfo = _
    rw [Heap.get_set_ne _ _ hq]
    rfl

/-- A call that is rejected is hung up without further ado. -/
theorem rejectCall_sends (env : Env) (p : Ref) (s : CallManager) :
    Post (rejectCall env p) s fun _ s' => HangsUp s s' [(p, .default)] ∧
      ∀ q, (s'.call q).packCellularCallInfo = (s.call q).packCellularCallInfo := by
  refine Post.bind_modify (Post.bind_gets ⟨?_, packCellularCallInfo_rejected s p⟩)
  rw [packCellularCallInfo_rejected s p p]
  exact hangsUp_command env p .default (s.updateCall p CallBase.rejectCallBase) rfl

theorem forEach_hangUpCall_sends (env : Env) (calls : List Ref) (s : CallManager) :
    HangsUp s (Prog.forEach calls (fun p => (hangUpCall env p).ignore) s).2
        (calls.map fun p => (p, (s.call p).hangUpType)) ∧
      (Prog.forEach calls (fun p => (hangUpCall env p).ignore) s).2.calls = s.calls := by
  induction calls generalizing s with
  | nil => exact ⟨.of_eq rfl, rfl⟩
  | cons p calls ih =>
    obtain ⟨hsent, hcalls⟩ := hangUpCall_sends env p s
    obtain ⟨hlater, hsame⟩ := ih (hangUpCall env p s).2
    have hcall : ∀ q, (hangUpCall env p s).2.call q = s.call q := fun q => congrArg (·.get q) hcalls
    simp only [hcall] at hlater
    rw [Prog.forEach_cons]
    exact ⟨hsent.trans hlater fun q => by rw [hcall], hsame.trans hcalls⟩

theorem forEach_rejectCall_sends (env : Env) (calls : List Ref) (s : CallManager) :
    HangsUp s (Prog.forEach calls (fun p => (rejectCall env p).ignore) s).2
      (calls.map fun p => (p, .default)) := by
  induction calls generalizing s with
  | nil => exact .of_eq rfl
  | cons p calls ih =>
    obtain ⟨hsent, hpack⟩ := rejectCall_sends env p s
    rw [Prog.forEach_cons]
    exact hsent.trans (ih (rejectCall env p s).2) hpack

/-! ## `EccDialPolicy` -/

/-- The calls `EccDialPolicy` hangs up, and those it rejects. -/
def eccHungUp (s : CallManager) : List Ref :=
  if isEccBusy s then [] else (eccCalls s).filter fun p => (s.call p).eccHangsUp

def eccRejected (s : CallManager) : List Ref :=
  if isEccBusy s then [] else (eccCalls s).filter fun p => (s.call p).eccRejects

/-- What it rejects is hung up as a call that does not matter. -/
theorem eccDialPolicy_fits (env : Env) (s : CallManager)
    (hfit : ∀ p ∈ eccHungUp s, (s.call p).FlagsFit) :
    HangUpsFit s (eccDialPolicy env s).2 (eccHungUp s ++ eccRejected s) := by
  unfold eccHungUp at hfit
  unfold eccHungUp eccRejected
  rw [eccDialPolicy_eq]
  cases hbusy : isEccBusy s with
  | true => exact ⟨[], .slnil, (List.append_nil _).symm, by simp⟩
  | false =>
    simp only [hbusy, Bool.false_eq_true, if_false] at hfit ⊢
    set hung := (eccCalls s).filter fun p => (s.call p).eccHangsUp
    set rejected := (eccCalls s).filter fun p => (s.call p).eccRejects
    obtain ⟨hsent, hcalls⟩ := forEach_hangUpCall_sends env hung s
    set s₁ := (Prog.forEach hung (fun p => (hangUpCall env p).ignore) s).2
    have hcall : ∀ q, s₁.call q = s.call q := fun q => congrArg (·.get q) hcalls
    have hall := hsent.trans (forEach_rejectCall_sends env rejected s₁) fun q => by rw [hcall]
    have hfits : ∀ x ∈ hung.map (fun p => (p, (s.call p).hangUpType)) ++
        rejected.map (fun p => (p, CallSupplementType.default)), x.2.Fits (s.call x.1) := by
      intro x hx
      rcases List.mem_append.mp hx with hx | hx
      · obtain ⟨p, hp, rfl⟩ := List.mem_map.mp hx
        exact hfit p hp
      · obtain ⟨p, -, rfl⟩ := List.mem_map.mp hx
        trivial
    have hmap : (hung.map (fun p => (p, (s.call p).hangUpType)) ++
        rejected.map (fun p => (p, CallSupplementType.default))).map Prod.fst =
          hung ++ rejected := by
      simp [Function.comp_def]
    rw [← hmap]
    exact hall.fit hfits

/-! ## `HangUpRequest` -/

/-- The request releases the active call: the call is active and another one of its type is held,
or it is in the active conference; and nobody waits. -/
def ReleasesActive (s : CallManager) (c : CallBase) : Prop :=
  ((c.callState = .active ∧ isCallExistOfType s c.callType .holding) ∨
    c.conferenceState = .active) ∧
    getCallNum s .waiting = 0

instance (s : CallManager) (c : CallBase) : Decidable (ReleasesActive s c) := by
  unfold ReleasesActive; infer_instance

/-- The call with the flags `HangUpRequest` gives it. -/
def CallBase.flaggedForHangUp (s : CallManager) (c : CallBase) : CallBase :=
  if ReleasesActive s c then c.setPolicyFlag policyFlagHangUpActive
  else if c.conferenceState = .holding ∧ getCallNum s .waiting = 0 then
    c.setPolicyFlag policyFlagHangUpHoldWait
  else c

theorem hangUpType_setActive (c : CallBase) :
    (c.setPolicyFlag policyFlagHangUpActive).hangUpType = .hangUpActive := by
  have hset : (c.policyFlag ||| policyFlagHangUpActive) &&& policyFlagHangUpActive ≠ 0 := by
    rw [Nat.and_or_distrib_right, Nat.and_self]
    simp [policyFlagHangUpActive]
  show (if (c.policyFlag ||| policyFlagHangUpActive) &&& policyFlagHangUpActive ≠ 0 then _ else _) =
    _
  rw [if_pos hset]

/-- Releasing what is held does not undo an earlier request to release the active call. -/
theorem hangUpType_setHoldWait (c : CallBase) :
    (c.setPolicyFlag policyFlagHangUpHoldWait).hangUpType =
      if c.policyFlag &&& policyFlagHangUpActive ≠ 0 then .hangUpActive else .hangUpHoldWait := by
  have hother : (c.policyFlag ||| policyFlagHangUpHoldWait) &&& policyFlagHangUpActive =
      c.policyFlag &&& policyFlagHangUpActive := by
    have hzero : policyFlagHangUpHoldWait &&& policyFlagHangUpActive = 0 := rfl
    rw [Nat.and_or_distrib_right, hzero, Nat.or_zero]
  have hset : (c.policyFlag ||| policyFlagHangUpHoldWait) &&& policyFlagHangUpHoldWait ≠ 0 := by
    rw [Nat.and_or_distrib_right, Nat.and_self]
    simp [policyFlagHangUpHoldWait]
  show (if (c.policyFlag ||| policyFlagHangUpHoldWait) &&& policyFlagHangUpActive ≠ 0 then _
    else if (c.policyFlag ||| policyFlagHangUpHoldWait) &&& policyFlagHangUpHoldWait ≠ 0 then _
    else _) = _
  rw [hother, if_pos hset]

theorem flaggedForHangUp_fits_iff (s : CallManager) (c : CallBase) :
    (c.flaggedForHangUp s).hangUpType.Fits c ↔ ReleasesActive s c ∨ c.FlagsFit := by
  unfold CallBase.flaggedForHangUp
  split
  · next hactive =>
    rw [hangUpType_setActive]
    exact iff_of_true (hactive.1.imp And.left id) (.inl hactive)
  · next hactive =>
    rw [or_iff_right hactive]
    split
    · next hholding =>
      rw [hangUpType_setHoldWait, CallBase.FlagsFit, CallBase.hangUpType]
      by_cases hbit : c.policyFlag &&& policyFlagHangUpActive ≠ 0
      · rw [if_pos hbit, if_pos hbit]
      · rw [if_neg hbit, if_neg hbit]
        refine iff_of_true hholding.1 ?_
        split
        · exact hholding.1
        · trivial
    · rfl

theorem packCellularCallInfo_flagged (s : CallManager) (c : CallBase) :
    (c.flaggedForHangUp s).packCellularCallInfo = c.packCellularCallInfo := by
  unfold CallBase.flaggedForHangUp
  split
  · rfl
  · split <;> rfl

theorem updateCall_eq_self {f : CallBase → CallBase} (hf : f (s.call p) = s.call p) :
    s.updateCall p f = s := by
  unfold CallManager.updateCall
  rw [hf, CallManager.call, Heap.set_get]

/-- The request flags the call and hangs it up. -/
theorem hangUpRequest_eq (env : Env) {callId : Int} (hp : getOneCallObject s callId = some p) :
    (hangUpRequest env callId s).2 =
      (hangUpCall env p (s.updateCall p (CallBase.flaggedForHangUp s))).2 := by
  have hbody : (hangUpRequest env callId s).2 = ((do
      Prog.when (ReleasesActive s (s.call p))
        (modifyCall p (CallBase.setPolicyFlag policyFlagHangUpActive))
      Prog.when (¬ReleasesActive s (s.call p) ∧ (s.call p).conferenceState = .holding ∧
          getCallNum s .waiting = 0)
        (modifyCall p (CallBase.setPolicyFlag policyFlagHangUpHoldWait))
      (hangUpCall env p).ignore : Prog CallManager Unit) s).2 := by
    unfold hangUpRequest
    rw [Prog.bind_apply, Prog.gets_apply, hp]
    rfl
  have hflag : ∀ c', (s.call p).flaggedForHangUp s = c' →
      s.updateCall p (CallBase.flaggedForHangUp s) = s.updateCall p fun _ => c' := by
    rintro _ rfl
    rfl
  rw [hbody]
  by_cases hactive : ReleasesActive s (s.call p)
  · rw [hflag _ (if_pos hactive)]
    simp [Prog.when_apply, hactive, modifyCall, CallManager.updateCall]
  · by_cases hholding : (s.call p).conferenceState = .holding ∧ getCallNum s .waiting = 0
    · rw [hflag _ ((if_neg hactive).trans (if_pos hholding))]
      simp [Prog.when_apply, hactive, hholding, modifyCall, CallManager.updateCall]
    · rw [hflag _ ((if_neg hactive).trans (if_neg hholding)), updateCall_eq_self rfl]
      simp [Prog.when_apply, hactive, hholding]

theorem hangUpRequest_hangsUp (env : Env) {callId : Int} (hp : getOneCallObject s callId = some p) :
    HangsUp s (hangUpRequest env callId s).2 [(p, ((s.call p).flaggedForHangUp s).hangUpType)] := by
  have hcall : (s.updateCall p (CallBase.flaggedForHangUp s)).call p =
      (s.call p).flaggedForHangUp s := call_updateCall_self s p _
  rw [hangUpRequest_eq env hp, ← hcall]
  exact hangUpCall_hangsUp env rfl (by rw [hcall, packCellularCallInfo_flagged])

theorem hangUpRequest_fits (env : Env) (callId : Int) (s : CallManager)
    (hfit : ∀ p ∈ getOneCallObject s callId, ReleasesActive s (s.call p) ∨ (s.call p).FlagsFit) :
    HangUpsFit s (hangUpRequest env callId s).2 (getOneCallObject s callId).toList := by
  cases hp : getOneCallObject s callId with
  | none =>
    have hrun : (hangUpRequest env callId s).2 = s := by simp [hangUpRequest, hp]
    rw [hrun]
    exact ⟨[], .slnil, (List.append_nil _).symm, by simp⟩
  | some p =>
    refine (hangUpRequest_hangsUp env hp).fit fun x hx => ?_
    rw [List.mem_singleton.mp hx]
    exact (flaggedForHangUp_fits_iff s (s.call p)).mpr (hfit p hp)

/-! ## `ClearPendingState` -/

/-- The call `ClearPendingState` hangs up: the one whose hang-up is pending. -/
def clearedCalls (s : CallManager) (p : Ref) : List Ref :=
  if s.helper.hasPendingHangup (s.call p).callId ∧ (s.call p).callRunningState ≠ .ended then [p]
  else []

/-- Nothing is hung up, and no call object changes. -/
structure Unsaid (s s' : CallManager) : Prop where
  hangUps : s'.hangUps = s.hangUps
  calls : s'.calls = s.calls

instance : Asking Unsaid where
  refl _ := ⟨rfl, rfl⟩
  trans _ _ _ h h' := ⟨h'.hangUps.trans h.hangUps, h'.calls.trans h.calls⟩
  asked s _ _ := ⟨(hangUps_logged s _).trans (List.append_nil _), rfl⟩
  posted s _ := ⟨(hangUps_logged s _).trans (List.append_nil _), rfl⟩

instance : Patient Unsaid where
  tasks _ _ _ _ := ⟨rfl, rfl⟩
  drops _ := ⟨rfl, rfl⟩
  flags _ := ⟨rfl, rfl⟩

theorem clearPendingState_sends (env : Env) (p : Ref) (s : CallManager) :
    Post (clearPendingState env p) s fun _ s' => HangsUp s s'
      ((clearedCalls s p).map fun q => (q, (s.call q).hangUpType)) := by
  refine Post.bind_gets (Post.bind_gets (Post.bind (Post.of_moves (R := Unsaid) _ s) ?_))
  intro _ s₁ (hs₁ : Unsaid s s₁)
  have hcall : s₁.call p = s.call p := congrArg (·.get p) hs₁.calls
  unfold clearedCalls
  refine Post.when (fun hhang => ?_) fun hno => ?_
  · rw [hhang]
    refine Post.bind (Q := fun _ s₂ => HangsUp s s₂
      ((if (s.call p).callRunningState ≠ .ended then [p] else []).map fun q =>
        (q, (s.call q).hangUpType))) ?_ ?_
    · refine Post.when (fun hrun => Post.ignore ?_) fun hrun => ?_
      · have hsent := hangUpCall_hangsUp env hs₁.hangUps (by rw [hcall] :
          (s₁.call p).packCellularCallInfo = (s.call p).packCellularCallInfo)
        rw [hcall] at hsent
        rw [if_pos hrun]
        exact hsent
      · rw [if_neg hrun]
        exact .of_eq hs₁.hangUps
    · intro _ s₂ hs₂
      refine Post.mono (Post.of_moves (R := Unsaid) _ s₂) fun _ s₃ (hs₃ : Unsaid s₂ s₃) => ?_
      obtain ⟨sent, hsub, hsent⟩ := hs₂
      exact ⟨sent, by simpa using hsub, by rw [hs₃.hangUps, hsent]⟩
  · rw [if_neg fun hboth => hno hboth.1]
    exact .of_eq hs₁.hangUps

theorem clearPendingState_fits (env : Env) (p : Ref) (s : CallManager)
    (hfit : ∀ q ∈ clearedCalls s p, (s.call q).FlagsFit) :
    HangUpsFit s (clearPendingState env p s).2 (clearedCalls s p) := by
  have hsent : HangsUp s (clearPendingState env p s).2
    ((clearedCalls s p).map fun q => (q, (s.call q).hangUpType)) := clearPendingState_sends env p s
  have hfits := hsent.fit fun x hx => by
    obtain ⟨q, hq, rfl⟩ := List.mem_map.mp hx
    exact hfit q hq
  simpa [Function.comp_def] using hfits

end CallManagerMini
