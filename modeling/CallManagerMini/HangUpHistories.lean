import CallManagerMini.HangUpTypes
import CallManagerMini.PlainRelations

/-! # Where the type of a hang-up comes from

A flag stays in the call object for good, and goes on to the object that replaces it.  So the type
of a hang-up is decided by the earlier `HangUpRequest`s of the call.  A `HangUpHistory` remembers
which of them released the active call, and which released what is held, whatever the stack said to
it.  Every flag is one of the history (`vouches_reachable`), and so a hang-up fits its call unless
the call has left the state in which such a request found it (`hangUps_fitHistory`).
-/

namespace CallManagerMini

open Prog (Post Moves)

variable {s s' : CallManager} {env : Env} {p q : Ref}

/-! ## Flags stay with the id -/

/-- The object has the flag. -/
def CallBase.Flagged (c : CallBase) (flag : Nat) : Prop := c.policyFlag &&& flag ≠ 0

instance (c : CallBase) (flag : Nat) : Decidable (c.Flagged flag) := by
  unfold CallBase.Flagged; infer_instance

theorem not_flagged {c : CallBase} (hc : c.policyFlag = 0) (flag : Nat) : ¬c.Flagged flag := by
  simp [CallBase.Flagged, hc]

/-- A union has the flags of both sides. -/
theorem flagged_or {c : CallBase} {a b flag : Nat} (hc : c.policyFlag = a ||| b)
    (h : c.Flagged flag) : a &&& flag ≠ 0 ∨ b &&& flag ≠ 0 := by
  unfold CallBase.Flagged at h
  rw [hc, Nat.and_or_distrib_right] at h
  by_contra hnone
  obtain ⟨ha, hb⟩ := not_or.mp hnone
  exact h (by rw [not_not.mp ha, not_not.mp hb]; rfl)

/-- Whatever flag an object has, one with its id had it before. -/
def FlagsStay (s s' : CallManager) : Prop :=
  ∀ flag q, (s'.call q).Flagged flag →
    ∃ p, (s.call p).Flagged flag ∧ (s.call p).callId = (s'.call q).callId

theorem FlagsStay.of_calls (h : s'.calls = s.calls) : FlagsStay s s' := by
  intro flag q hq
  have hcall : s'.call q = s.call q := congrArg (·.get q) h
  exact ⟨q, hcall ▸ hq, by rw [hcall]⟩

/-- An object changes, and what flags it has then are flags of its id. -/
theorem flagsStay_updateCall {f : CallBase → CallBase}
    (hf : ∀ flag, (f (s.call p)).Flagged flag →
      ∃ r, (s.call r).Flagged flag ∧ (s.call r).callId = (f (s.call p)).callId) :
    FlagsStay s (s.updateCall p f) := by
  intro flag q
  by_cases hq : q = p
  · rw [hq, call_updateCall_self]
    exact hf flag
  · have hcall : (s.updateCall p f).call q = s.call q := Heap.get_set_ne _ _ hq
    rw [hcall]
    exact fun h => ⟨q, h, rfl⟩

instance : Bare FlagsStay where
  refl _ _ q h := ⟨q, h, rfl⟩
  trans _ _ _ h h' flag q hq := by
    obtain ⟨p, hp, hid⟩ := h' flag q hq
    obtain ⟨r, hr, hid'⟩ := h flag p hp
    exact ⟨r, hr, hid'.trans hid⟩
  outside ho := .of_calls ho.calls
  object {s p f} hf := flagsStay_updateCall fun flag h =>
    ⟨p, by rwa [CallBase.Flagged, hf.policyFlag] at h, hf.callId.symm⟩
  create {s c} _ hflag flag q := by
    unfold CallManager.call Heap.get Heap.alloc
    dsimp only
    split
    · exact fun h => absurd h (not_flagged hflag flag)
    · exact fun h => ⟨q, h, rfl⟩

instance {α : Type} (isIMSCall : Bool) (f : Int → ConferenceBase → α × ConferenceBase) :
    Moves FlagsStay (onConference isIMSCall f env) := by
  refine ⟨fun s => .of_calls ?_⟩
  unfold onConference CallManager.setConference
  dsimp only
  split <;> rfl

instance (state : TelConferenceState) : Moves FlagsStay (setTelConferenceState p state) :=
  .of_modify fun _ => flagsStay_updateCall fun _ h => ⟨p, h, rfl⟩

/-! ### The refresh -/

/-- The table may change, the objects stay as they are. -/
def SameCalls (s s' : CallManager) : Prop := s'.calls = s.calls

instance : Std.Refl SameCalls := ⟨fun _ => rfl⟩

instance : IsTrans CallManager SameCalls := ⟨fun _ _ _ h h' => Eq.trans h' h⟩

instance (callId : Int) : Moves SameCalls (deleteOneCallObject callId) := .of_modify fun _ => rfl

instance : Moves SameCalls (addOneCallObject p) := by
  refine ⟨fun s => ?_⟩
  unfold addOneCallObject
  split_ifs <;> rfl

/-- What `CreateNewCall` makes has no flag. -/
theorem createNewCall_unflagged (env : Env) (info : CallDetailInfo) (dir : CallDirection)
    (s : CallManager) :
    Post (createNewCall env info dir) s fun created s' =>
      ∀ q ∈ created, (s'.call q).policyFlag = 0 := by
  refine Post.bind (Q := fun _ _ => True) trivial fun para s₁ _ => ?_
  refine Post.ite (fun _ => Post.pure nofun) fun _ => Post.bind_gets ?_
  refine Post.bind (Q := fun q s₂ => (s₂.call q).policyFlag = 0) ?_ fun q s₂ hq => ?_
  · unfold Post newCall CallManager.call
    simp [CallBase.ofParaInfo]
  · exact Post.pure fun q' hq' => Option.some.inj hq' ▸ hq

/-- The replacement has the id of the old object when it takes over the flags. -/
theorem refreshCall_flagsStay (env : Env) (p : Ref) (info : CallDetailInfo) (s : CallManager) :
    Post (refreshCall env p info) s fun _ s' => FlagsStay s s' := by
  refine Post.bind_gets (Post.bind (Q := fun created s₁ => FlagsStay s s₁ ∧
    ∀ q ∈ created, (s₁.call q).policyFlag = 0)
    ⟨Moves.rel s, createNewCall_unflagged env info _ s⟩ ?_)
  rintro created s₁ ⟨hs₁, hnew⟩
  cases created with
  | none => exact Post.pure hs₁
  -- the new object gets the id of the old one before it gets its flags
  | some q =>
    refine Post.bind (Post.of_moves (R := SameCalls) _ s₁) fun _ s₂
      (hs₂ : s₂.calls = s₁.calls) => ?_
    have hflag : (s₂.call q).policyFlag = 0 := by
      rw [CallManager.call, hs₂]
      exact hnew q rfl
    refine Post.bind_modify ?_
    set s₃ := s₂.updateCall q fun c => { c with callId := (s.call p).callId }
    have hs₃ : FlagsStay s s₃ := by
      refine trans_of FlagsStay hs₁ (trans_of FlagsStay (.of_calls hs₂) ?_)
      exact flagsStay_updateCall fun flag h => absurd h (not_flagged hflag flag)
    have hcall₃ : s₃.call q = { s₂.call q with callId := (s.call p).callId } :=
      call_updateCall_self s₂ q _
    refine Post.bind (Post.of_moves (R := SameCalls) _ s₃) fun ret s₄
      (hs₄ : s₄.calls = s₃.calls) => ?_
    have hcall₄ : s₄.call q = s₃.call q := congrArg (·.get q) hs₄
    have hstay : FlagsStay s s₄ := trans_of FlagsStay hs₃ (.of_calls hs₄)
    refine Post.ite (fun _ => ?_) fun _ => Post.bind_modify ?_
    · refine Post.bind (Post.of_moves (R := SameCalls) _ s₄) fun _ s₅
        (hs₅ : s₅.calls = s₄.calls) => ?_
      exact Post.pure (trans_of FlagsStay hstay (.of_calls hs₅))
    -- the flags are copied where the id is that of the old call
    have hcopy : FlagsStay s (s₄.updateCall q (copyToRefreshed (s.call p))) := by
      intro flag r
      -- its own flags are none, so those it has are the flags of the old object
      by_cases hr : r = q
      · have hcall : (s₄.updateCall q (copyToRefreshed (s.call p))).call q =
            copyToRefreshed (s.call p) (s₄.call q) := call_updateCall_self s₄ q _
        have hor : (copyToRefreshed (s.call p) (s₄.call q)).policyFlag =
            (s₄.call q).policyFlag ||| (s.call p).policyFlag := rfl
        rw [hr, hcall]
        intro h
        refine ⟨p, (flagged_or hor h).resolve_left ?_, ?_⟩
        · rw [hcall₄, hcall₃]
          exact not_flagged hflag flag
        · show (s.call p).callId = (s₄.call q).callId
          rw [hcall₄, hcall₃]
      · have hother : (s₄.updateCall q (copyToRefreshed (s.call p))).call r = s₄.call r :=
          Heap.get_set_ne _ _ hr
        rw [hother]
        exact hstay flag r
    have hconf (callId : Int) : Moves FlagsStay (Prog.modify fun s : CallManager =>
        { s with csConference := s.csConference.updateConferenceId callId }) :=
      .of_modify fun _ => .of_calls rfl
    have hdomain (imsDomain : Int) : Moves FlagsStay
        (modifyCall q fun c => { c with imsDomain := imsDomain }) :=
      bare_modifyCall fun _ => ⟨rfl, rfl, id⟩
    exact trans_of FlagsStay hcopy (Post.of_moves (R := FlagsStay) _ _)

/-! ### Every other program -/

instance : Plain FlagsStay where
  launch env p := by unfold launchConference; infer_instance
  exit env p := by unfold exitConference; infer_instance
  hold env p := by unfold holdConference; infer_instance
  failed env p := by unfold handleCombineConferenceFailEvent; infer_instance
  refresh env p info := ⟨refreshCall_flagsStay env p info⟩

instance : Toneless FlagsStay where
  tones _ _ := .of_calls rfl
  sound _ _ _ := .of_calls rfl

instance : Outspoken FlagsStay where
  broadcast _ _ _ := .of_modify fun _ => .of_calls rfl

instance : Timeless FlagsStay where
  timers _ _ _ _ _ := .of_calls rfl

instance : Posting FlagsStay where
  requests _ _ := .of_calls rfl

/-- Only `HangUpRequest` flags a call. -/
theorem runRequest_flagsStay (env : Env) {r : Request} (hr : ∀ callId, r ≠ .hangUp callId) :
    Moves FlagsStay (runRequest env r) := by
  cases r with
  | hangUp callId => exact absurd rfl (hr callId)
  | _ => dsimp only [runRequest]; infer_instance

theorem mainLoopStep_flagsStay (env : Env) {input : Input} (hinput : input ≠ .nextRequest) :
    Moves FlagsStay (mainLoopStep env input) := by
  cases input with
  | nextRequest => exact absurd rfl hinput
  | _ => dsimp only [mainLoopStep]; infer_instance

/-! ## The history of hang-ups -/

/-- The calls, by their ids, whose `HangUpRequest` was served as a release of the active call, and
those whose was served as one of what is held. -/
structure HangUpHistory where
  active : List Int := []
  held : List Int := []

namespace HangUpHistory

variable {h : HangUpHistory}

/-- The history after `HangUpRequest`. -/
def served (h : HangUpHistory) (s : CallManager) (callId : Int) : HangUpHistory :=
  match getOneCallObject s callId with
  | none => h
  | some p =>
    if ReleasesActive s (s.call p) then { h with active := (s.call p).callId :: h.active }
    else if (s.call p).conferenceState = .holding ∧ getCallNum s .waiting = 0 then
      { h with held := (s.call p).callId :: h.held }
    else h

/-- The history after a step of the main loop. -/
def after (h : HangUpHistory) (input : Input) (s : CallManager) : HangUpHistory :=
  match input, s.requests with
  | .nextRequest, .hangUp callId :: _ => h.served s callId
  | _, _ => h

/-- Every flag comes from a request of the history. -/
structure Vouches (h : HangUpHistory) (s : CallManager) : Prop where
  active : ∀ q, (s.call q).Flagged policyFlagHangUpActive → (s.call q).callId ∈ h.active
  held : ∀ q, (s.call q).Flagged policyFlagHangUpHoldWait → (s.call q).callId ∈ h.held

/-- The call is, or is again, in the state in which its requests found it. -/
structure Settles (h : HangUpHistory) (c : CallBase) : Prop where
  active : c.callId ∈ h.active → c.callState = .active ∨ c.conferenceState = .active
  held : c.callId ∈ h.held → ¬c.Flagged policyFlagHangUpActive → c.conferenceState = .holding

theorem Settles.flagsFit (hc : h.Settles (s.call p)) (hv : h.Vouches s) : (s.call p).FlagsFit := by
  unfold CallBase.FlagsFit CallBase.hangUpType
  split
  · next hactive => exact hc.active (hv.active p hactive)
  next hactive =>
  split
  · next hheld => exact hc.held (hv.held p hheld) hactive
  · trivial

theorem Vouches.stay (hv : h.Vouches s) (hs : FlagsStay s s') : h.Vouches s' where
  active q hq := by
    obtain ⟨p, hp, hid⟩ := hs _ q hq
    exact hid ▸ hv.active p hp
  held q hq := by
    obtain ⟨p, hp, hid⟩ := hs _ q hq
    exact hid ▸ hv.held p hp

/-- A longer history vouches for more. -/
theorem Vouches.mono {h' : HangUpHistory} (hv : h.Vouches s) (hactive : h.active ⊆ h'.active)
    (hheld : h.held ⊆ h'.held) : h'.Vouches s :=
  ⟨fun q hq => hactive (hv.active q hq), fun q hq => hheld (hv.held q hq)⟩

/-- One object may have got a flag, and the history has a request for it. -/
theorem Vouches.updateCall (hv : h.Vouches s) {f : CallBase → CallBase}
    (hactive : (f (s.call p)).Flagged policyFlagHangUpActive → (f (s.call p)).callId ∈ h.active)
    (hheld : (f (s.call p)).Flagged policyFlagHangUpHoldWait → (f (s.call p)).callId ∈ h.held) :
    h.Vouches (s.updateCall p f) := by
  have hother : ∀ q, q ≠ p → (s.updateCall p f).call q = s.call q := fun q => Heap.get_set_ne _ _
  refine ⟨fun q hq => ?_, fun q hq => ?_⟩
  all_goals
    by_cases hqp : q = p
    · rw [hqp, call_updateCall_self] at hq ⊢
      first | exact hactive hq | exact hheld hq
    · rw [hother q hqp] at hq ⊢
      first | exact hv.active q hq | exact hv.held q hq

/-- What `HangUpRequest` flags, the history remembers. -/
theorem Vouches.served (hv : h.Vouches s) (env : Env) (callId : Int) :
    (h.served s callId).Vouches (hangUpRequest env callId s).2 := by
  unfold HangUpHistory.served
  cases hp : getOneCallObject s callId with
  | none =>
    have hrun : (hangUpRequest env callId s).2 = s := by simp [hangUpRequest, hp]
    rwa [hrun]
  | some p =>
    rw [hangUpRequest_eq env hp]
    refine Vouches.stay ?_ (Moves.rel (R := FlagsStay) (m := hangUpCall env p) _)
    have hset : ∀ flag flag', ((s.call p).setPolicyFlag flag).Flagged flag' →
        (s.call p).Flagged flag' ∨ flag &&& flag' ≠ 0 := fun flag flag' => flagged_or rfl
    dsimp only
    -- the request flags the call for what it finds, and the history takes note of the same
    split
    · next hactive =>
      have hf : (s.call p).flaggedForHangUp s = (s.call p).setPolicyFlag policyFlagHangUpActive :=
        if_pos hactive
      have hmono : Vouches { h with active := (s.call p).callId :: h.active } s :=
        hv.mono (List.subset_cons_self _ _) (List.Subset.refl _)
      refine hmono.updateCall (fun _ => ?_) fun hheld => ?_
      · rw [hf]
        exact List.mem_cons_self
      · rw [hf] at hheld ⊢
        exact hv.held p ((hset _ _ hheld).resolve_right (not_not.mpr rfl))
    next hactive =>
    split
    · next hholding =>
      have hf : (s.call p).flaggedForHangUp s = (s.call p).setPolicyFlag policyFlagHangUpHoldWait :=
        (if_neg hactive).trans (if_pos hholding)
      have hmono : Vouches { h with held := (s.call p).callId :: h.held } s :=
        hv.mono (List.Subset.refl _) (List.subset_cons_self _ _)
      refine hmono.updateCall (fun hflag => ?_) fun _ => ?_
      · rw [hf] at hflag ⊢
        exact hv.active p ((hset _ _ hflag).resolve_right (not_not.mpr rfl))
      · rw [hf]
        exact List.mem_cons_self
    · next hholding =>
      have hf : (s.call p).flaggedForHangUp s = s.call p :=
        (if_neg hactive).trans (if_neg hholding)
      rwa [updateCall_eq_self hf]

theorem after_hangUp {callId : Int} {rest : List Request}
    (hr : s.requests = .hangUp callId :: rest) : h.after .nextRequest s = h.served s callId := by
  simp only [HangUpHistory.after, hr]

theorem after_other {r : Request} {rest : List Request} (hr : s.requests = r :: rest)
    (hother : ∀ callId, r ≠ .hangUp callId) : h.after .nextRequest s = h := by
  unfold HangUpHistory.after
  rw [hr]
  cases r with
  | hangUp callId => exact absurd rfl (hother callId)
  | _ => rfl

/-- The next request of the queue. -/
theorem Vouches.nextRequest (hv : h.Vouches s) (env : Env) :
    (h.after .nextRequest s).Vouches (CallManagerMini.nextRequest env s).2 := by
  have hrest : h.Vouches { s with requests := s.requests.tail } := ⟨hv.active, hv.held⟩
  unfold CallManagerMini.nextRequest
  rw [Prog.bind_apply, Prog.gets_apply]
  cases hr : s.requests with
  | nil =>
    have hnone : h.after .nextRequest s = h := by simp [HangUpHistory.after, hr]
    rwa [hnone]
  | cons r rest =>
    show (h.after .nextRequest s).Vouches
      (runRequest env r { s with requests := s.requests.tail }).2
    by_cases hhang : ∃ callId, r = .hangUp callId
    · obtain ⟨callId, rfl⟩ := hhang
      rw [after_hangUp hr]
      exact hrest.served env callId
    · have hother : ∀ callId, r ≠ .hangUp callId := fun callId hc => hhang ⟨callId, hc⟩
      rw [after_other hr hother]
      exact hrest.stay ((runRequest_flagsStay env hother).rel _)

/-- A step of the main loop adds no flag but that of the request it serves. -/
theorem Vouches.step (hv : h.Vouches s) (env : Env) (input : Input) :
    (h.after input s).Vouches (mainLoopStep env input s).2 := by
  by_cases hinput : input = .nextRequest
  · subst hinput
    exact hv.nextRequest env
  · have hmoved := hv.stay ((mainLoopStep_flagsStay env hinput).rel s)
    cases input with
    | nextRequest => exact absurd rfl hinput
    | _ => exact hmoved

/-- A run, with the history kept. -/
def traced (steps : List (Env × Input)) : CallManager × HangUpHistory :=
  steps.foldl (fun x step => ((mainLoopStep step.1 step.2 x.1).2, x.2.after step.2 x.1)) (.init, {})

/-- The history of a run. -/
def ofRun (steps : List (Env × Input)) : HangUpHistory := (traced steps).2

theorem traced_fst (steps : List (Env × Input)) : (traced steps).1 = .run steps := by
  suffices ∀ x : CallManager × HangUpHistory,
      (steps.foldl (fun x step => ((mainLoopStep step.1 step.2 x.1).2, x.2.after step.2 x.1)) x).1 =
        steps.foldl (fun s step => (mainLoopStep step.1 step.2 s).2) x.1 from this (.init, {})
  induction steps with
  | nil => exact fun _ => rfl
  | cons step steps ih => exact fun x => ih _

/-- **The history of a run vouches for its flags.** -/
theorem vouches_ofRun (steps : List (Env × Input)) : (ofRun steps).Vouches (.run steps) := by
  suffices ∀ x : CallManager × HangUpHistory, x.2.Vouches x.1 →
      (steps.foldl (fun x step => ((mainLoopStep step.1 step.2 x.1).2, x.2.after step.2 x.1)) x).2.Vouches
        (steps.foldl (fun x step =>
          ((mainLoopStep step.1 step.2 x.1).2, x.2.after step.2 x.1)) x).1 by
    have hrun := this (.init, {}) ⟨fun q hq => absurd hq (not_flagged rfl _),
      fun q hq => absurd hq (not_flagged rfl _)⟩
    rw [← traced_fst]
    exact hrun
  induction steps with
  | nil => exact fun _ hv => hv
  | cons step steps ih => exact fun x hv => ih _ (hv.step step.1 step.2)

end HangUpHistory

/-! ## Hang-ups that fit -/

/-- **A hang-up has the type of its call's state**, after every run and at every moment `s` of the
next step, if the call is in the state in which its earlier `HangUpRequest`s found it; a
`HangUpRequest` that releases the active call has it anyway. -/
theorem hangUps_fitHistory (steps : List (Env × Input))
    (hs : FlagsStay (.run steps) s) (env : Env) :
    (∀ callId,
      (∀ p ∈ getOneCallObject s callId,
        ReleasesActive s (s.call p) ∨ (HangUpHistory.ofRun steps).Settles (s.call p)) →
      HangUpsFit s (hangUpRequest env callId s).2 (getOneCallObject s callId).toList) ∧
    (∀ p,
      (∀ q ∈ clearedCalls s p, (HangUpHistory.ofRun steps).Settles (s.call q)) →
      HangUpsFit s (clearPendingState env p s).2 (clearedCalls s p)) ∧
    ((∀ p ∈ eccHungUp s, (HangUpHistory.ofRun steps).Settles (s.call p)) →
      HangUpsFit s (eccDialPolicy env s).2 (eccHungUp s ++ eccRejected s)) := by
  have hv : (HangUpHistory.ofRun steps).Vouches s := (HangUpHistory.vouches_ofRun steps).stay hs
  refine ⟨fun callId hsettled => ?_, fun p hsettled => ?_, fun hsettled => ?_⟩
  · exact hangUpRequest_fits env callId s fun p hp => (hsettled p hp).imp id fun h => h.flagsFit hv
  · exact clearPendingState_fits env p s fun q hq => (hsettled q hq).flagsFit hv
  · exact eccDialPolicy_fits env s fun p hp => (hsettled p hp).flagsFit hv

/-- Call `2` is active, with call `1` held; its hang-up is refused. -/
def refusedHangUp : List (Env × Input) :=
  [(.obliging, .callReport (ringingReport 1)),
    (.obliging, .callReport { ringingReport 1 with state := 0 }),
    (.obliging, .callReport { ringingReport 2 with state := 5 }),
    (.obliging, .callReport { ringingReport 1 with state := 1 }),
    (.obliging, .callReport { ringingReport 2 with state := 0 }),
    (.obliging, .hangUpCall 2), (.refusing, .nextRequest)]

/-- Then call `1` ends.  Call `2` is still active, and that is how it is hung up the second time. -/
theorem hangUps_fitHistory_active :
    (HangUpHistory.ofRun (refusedHangUp ++
        [(.obliging, .callReport { ringingReport 1 with state := 6 })])).active = [2] ∧
      HangUpsFit (.run (refusedHangUp ++
          [(.obliging, .callReport { ringingReport 1 with state := 6 })]))
        (hangUpRequest .obliging 2 (.run (refusedHangUp ++
          [(.obliging, .callReport { ringingReport 1 with state := 6 })]))).2
        (getOneCallObject (.run (refusedHangUp ++
          [(.obliging, .callReport { ringingReport 1 with state := 6 })])) 2).toList := by
  refine ⟨by decide +kernel, (hangUps_fitHistory _ (refl_of FlagsStay _) .obliging).1 2 ?_⟩
  intro p hp
  have hp : p = 1 := by
    have hcall : getOneCallObject (.run (refusedHangUp ++
        [(.obliging, .callReport { ringingReport 1 with state := 6 })])) 2 = some 1 := by
      decide +kernel
    exact Option.some.inj ((Option.mem_def.mp hp).symm.trans hcall)
  subst hp
  exact .inr ⟨fun _ => by decide +kernel, fun hheld => absurd hheld (by decide +kernel)⟩

/-- The calls are swapped instead. -/
def swappedAfterHangUp : CallManager :=
  .run (refusedHangUp ++ [(.obliging, .callReport { ringingReport 2 with state := 1 }),
    (.obliging, .callReport { ringingReport 1 with state := 0 })])

/-- Call `2`, now on hold, is hung up as the active call. -/
theorem hangUp_staleType :
    ∃ s callId p, Reachable s ∧ getOneCallObject s callId = some p ∧
      (s.call p).callState = .holding ∧ (s.call p).conferenceState = .idle ∧
      ((hangUpRequest .obliging callId s).2.log.getLast?.bind Event.hangUp).map Prod.snd =
        some .hangUpActive ∧
      ¬HangUpsFit s (hangUpRequest .obliging callId s).2 (getOneCallObject s callId).toList := by
  refine ⟨swappedAfterHangUp, 2, 1, reachable_run _, by decide +kernel, by decide +kernel,
    by decide +kernel, by decide +kernel, fun hfit => ?_⟩
  have hsent : (hangUpRequest .obliging 2 swappedAfterHangUp).2.hangUps =
      swappedAfterHangUp.hangUps ++
        [((swappedAfterHangUp.call 1).packCellularCallInfo, .hangUpActive)] := by decide +kernel
  obtain ⟨p, hp, -, hstate⟩ := hfit.single hsent
  have hcalls : (getOneCallObject swappedAfterHangUp 2).toList = [1] := by decide +kernel
  rw [hcalls, List.mem_singleton] at hp
  subst hp
  exact absurd hstate (by decide +kernel)

end CallManagerMini
