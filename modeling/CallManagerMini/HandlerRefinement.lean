import CallManagerMini.TableRefinement

/-! # The report handlers compute the reports

Each handler of `CallStatusManager`, run from a state whose table satisfies the
invariant, returns the code of the report of the same name on the table, leaves
the table that report leaves, and touches nothing else the frame names
(`handleCallReportInfo_refines`).
-/

namespace CallManagerMini

open Prog (Post Moves)

variable {s : CallManager} {env : Env} {info : CallDetailInfo} {p : Ref}

/-- From `s`, the program computes `report` on the table. -/
def Computes (m : Prog CallManager RetCode) (s : CallManager)
    (report : CallTable → RetCode × CallTable) : Prop :=
  Post m s fun ret s' => (ret, s'.table) = report s.table ∧ Frame s s'

theorem Computes.congr {m : Prog CallManager RetCode} {f g : CallTable → RetCode × CallTable}
    (h : Computes m s f) (hg : g s.table = f s.table) : Computes m s g :=
  ⟨h.1.trans hg.symm, h.2⟩

/-- A call that was found is listed, and its row is the one the table finds. -/
theorem mem_of_callAt {index slotId : Int}
    (h : getOneCallObjectByIndexSlotIdAndCallType s index slotId = some p) :
    p ∈ s.callObjectPtrList := mem_of_findCall h

/-! ## Dialing -/

theorem dialing_state (h : info.state = .dialing) : { info with state := .dialing } = info := by
  cases info
  simp_all

/-- The new place of a pending call, written field by field. -/
theorem row_numbered {c : CallBase} {number : Bytes} {c' : CallBase}
    (hset : c'.row p = (({ c with index := info.index, slotId := info.accountId } : CallBase).row
      p).setState .dialing) :
    ({ c' with
        videoState := info.callMode, callType := info.callType, accountNumber := number,
        imsDomain := info.imsDomain } : CallBase).row p = (c.row p).numbered info number := by
  have h1 := congrArg Row.callId hset
  have h2 := congrArg Row.callRunningState hset
  have h3 := congrArg Row.direction hset
  have h4 := congrArg Row.callState hset
  have h5 := congrArg Row.slotId hset
  have h6 := congrArg Row.index hset
  have h7 := congrArg Row.isEcc hset
  simp only [CallBase.row, Row.setState] at h1 h2 h3 h4 h5 h6 h7
  simp [CallBase.row, Row.numbered, Row.setState, h1, h2, h3, h4, h5, h6, h7]

/-- `UpdateDialingCallInfo` once a pending call was found. -/
theorem adoptCall_post (env : Env) (h : s.table.Inv) (hinfo : info.IsCarried)
    (hst : info.state = .dialing) (hp : p ∈ s.callObjectPtrList)
    (hpend : s.table.pending = some (s.row p)) :
    Computes (do
      let oriNum := (← getCall p).accountNumber
      let p ← refreshCallIfNecessary env p info
      modifyCall p fun c => { c with index := info.index }
      modifyCall p fun c => { c with slotId := info.accountId }
      let _ ← setTelCallState env p info.state
      modifyCall p fun c => { c with videoState := info.callMode }
      modifyCall p fun c => { c with callType := info.callType }
      modifyCall p fun c => { c with accountNumber := oriNum }
      modifyCall p fun c => { c with imsDomain := info.imsDomain }
      clearPendingState env p
      pure .success) s (CallTable.adopt info) := by
  refine Post.bind_gets (Post.bind (refreshCallIfNecessary_post env h hp hinfo) ?_)
  rintro q s₁ ⟨hs₁, hf₁⟩
  have honly : s₁.table.Only (s₁.row q) := by
    have := (CallTable.refresh_holds h (s.row_mem_table hp) hinfo).toOnly
    rwa [← hs₁] at this
  refine Post.bind_modify (Post.bind_modify ?_)
  simp only [updateCall_updateCall]
  refine Post.bind (setTelCallState_post env q info.state _) ?_
  rintro _ s₂ ⟨-, hs₂⟩
  refine Post.bind_modify (Post.bind_modify (Post.bind_modify (Post.bind_modify ?_)))
  simp only [hs₂, updateCall_updateCall]
  refine Post.bind (Post.of_moves (R := Quiet) _ _) fun _ s₃ hq₃ => Post.pure ?_
  refine ⟨?_, hf₁.trans (Frame.trans (frame_updateCall _ _ _) hq₃.toFrame)⟩
  rw [hq₃.table, table_updateCall honly (g := Row.numbered info (s.call p).accountNumber)]
  · simp only [CallTable.adopt, hpend, ← hs₁]
    rfl
  · refine row_numbered ?_
    rw [hst]
    exact row_setTelCallState (.inl (by decide)) _ fun _ => .inr (.inl rfl)

/-- The part of `DialingHandle` that adds a call.  A call that was added ends the
dial in progress. -/
theorem addDialingCall_post (env : Env) (h : s.table.Inv) (hinfo : info.IsCarried)
    (hst : info.state = .dialing) :
    Post (addDialingCall env info) s fun ret s' =>
      (ret, s'.table) = s.table.addDialing info ∧ Frame s s' ∧
        (ret = .success → s'.helper.isDialingCallProcessing = false) := by
  refine Post.bind (createNewCall_post env h hinfo _) ?_
  rintro _ s₁ ⟨rfl, h₁⟩
  dsimp only
  set p := s.calls.next
  refine Post.bind (addOneCallObject_post s₁ p) ?_
  rintro ret s₂ ⟨hret, ht₂, hc₂, hf₂, hl₂⟩
  have hrow₂ : s₂.row p = s.table.newRow info .outgoing := by
    have : s₂.row p = s₁.row p := by simp only [CallManager.row, CallManager.call, hc₂]
    rw [this, h₁.row]
  rw [h₁.row, h₁.table] at hret ht₂
  have hrep : s.table.addDialing info =
      if s.table.created.admission (s.table.newRow info .outgoing) = .success then
        (.success, (s.table.created.insert (s.table.newRow info .outgoing)).update
          (s.table.newRow info .outgoing).callId (Row.setState .dialing))
      else (s.table.created.admission (s.table.newRow info .outgoing), s.table.created) := by
    simp only [CallTable.addDialing, dialing_state hst]
  refine Post.ite (fun hne => Post.pure ⟨?_, h₁.toFrame.trans hf₂, fun hs => absurd hs hne⟩)
    (fun heq => ?_)
  · have hadm := fun hs => hne (hret.trans hs)
    rw [hrep, if_neg hadm, ht₂, CallTable.enter, if_neg hadm, hret]
  have hadm := hret.symm.trans (not_not.mp heq)
  rw [CallTable.enter, if_pos hadm] at ht₂
  have hphone : Moves Quiet (modifyCall p fun c => { c with phoneOrWatch := 1 }) :=
    quiet_modifyCall fun _ => rfl
  refine Post.bind (Post.of_moves (R := Quiet) _ _) fun _ s₃ (hq₃ : Quiet s₂ s₃) => ?_
  refine Post.bind (Q := fun _ s₄ => Quiet s₃ s₄ ∧ s₄.helper.isDialingCallProcessing = false)
    ⟨Moves.rel s₃, rfl⟩ ?_
  rintro _ s₄ ⟨hq₄, hflag⟩
  refine Post.bind (Post.of_moves (R := Quiet) _ _) fun _ s₅ (hq₅ : Quiet s₄ s₅) => ?_
  have hq : Quiet s₂ s₅ := (hq₃.trans hq₄).trans hq₅
  -- the object starts to connect
  have honly₅ : s₅.table.Only (s₅.row p) := by
    rw [hq.table, hq.row, ht₂, hrow₂]
    exact CallTable.only_insert hadm
  set conn : Row → Row := fun r => { r with callRunningState := .connecting } with hconn
  have hid : (s₅.call p).callId = (s₅.row p).callId := rfl
  have ht₆ : (s₅.updateCall p fun c => { c with callRunningState := .connecting }).table =
      s₅.table.update (s₅.row p).callId conn := table_updateCall honly₅ rfl
  have hrow₆ : (s₅.updateCall p fun c => { c with callRunningState := .connecting }).row p =
      conn (s₅.row p) := row_updateCall_self _ _ _
  refine Post.bind (Q := fun ret s₆ => ret = .success ∧
    s₆ = s₅.updateCall p fun c => { c with callRunningState := .connecting }) ⟨rfl, rfl⟩ ?_
  rintro _ s₆ ⟨rfl, hs₆⟩
  rw [← hs₆] at ht₆ hrow₆
  refine Post.bind (Post.of_moves (R := Quiet) _ _) fun _ s₇ (hq₇ : Quiet s₆ s₇) => ?_
  have hrow₇ : s₇.row p = conn (s.table.newRow info .outgoing) := by
    rw [hq₇.row, hrow₆, hq.row, hrow₂]
  have ht₇ : s₇.table = (s.table.created.insert (s.table.newRow info .outgoing)).update
      (s.table.newRow info .outgoing).callId conn := by
    rw [hq₇.table, ht₆, hq.table, ht₂, hq.row, hrow₂]
  have honly₇ : s₇.table.Only (s₇.row p) := by
    rw [ht₇, hrow₇]
    exact (CallTable.only_insert hadm).update fun _ => rfl
  -- and announces the state it was created in
  refine Post.mono (updateCallState_post env honly₇ (.inl (by decide)) fun _ => .inr (.inl rfl)) ?_
  rintro ret s₈ ⟨rfl, ha⟩
  have hstate : (s₇.row p).callState = .dialing := by rw [hrow₇]; exact hst
  have hf₆ : Frame s₅ s₆ := hs₆ ▸ frame_updateCall _ _ _
  refine ⟨?_, ((((h₁.toFrame.trans hf₂).trans hq.toFrame).trans hf₆).trans hq₇.toFrame).trans
    ha.toFrame, fun _ => ha.dialing (hq₇.dialing (hf₆.dialing (hq₅.dialing hflag)))⟩
  rw [hrep, if_pos hadm, ha.table, CallTable.announce_same hstate, hrow₇, ht₇]
  exact congrArg _ (CallTable.update_update fun _ => rfl)

theorem addDialingCall_computes (env : Env) (h : s.table.Inv) (hinfo : info.IsCarried)
    (hst : info.state = .dialing) :
    Computes (addDialingCall env info) s (CallTable.addDialing info) :=
  Post.mono (addDialingCall_post env h hinfo hst) fun _ _ hs' => ⟨hs'.1, hs'.2.1⟩

/-- `UpdateDialingCallInfo`. -/
theorem updateDialingCallInfo_computes (env : Env) (h : s.table.Inv) (hinfo : info.IsCarried)
    (hst : info.state = .dialing) :
    Computes (updateDialingCallInfo env info) s (CallTable.updateDialing info) := by
  refine Post.bind_gets ?_
  have hat := callAt_eq h info.index info.accountId
  cases hknown : getOneCallObjectByIndexSlotIdAndCallType s info.index info.accountId with
  | some p =>
    rw [hknown] at hat
    refine Post.bind (refreshCallIfNecessary_post env h (mem_of_callAt hknown) hinfo) ?_
    rintro q s₁ ⟨hs₁, hf₁⟩
    refine Post.pure ⟨?_, hf₁⟩
    simp only [CallTable.updateDialing, ← hat, Option.map_some, ← hs₁]
  | none =>
    rw [hknown] at hat
    have hrep : s.table.updateDialing info = s.table.adopt info := by
      simp only [CallTable.updateDialing, ← hat, Option.map_none]
    refine Computes.congr (f := CallTable.adopt info) ?_ hrep
    refine Post.bind_gets ?_
    have hpend := pending_eq h
    cases hp : getOneCallObjectByIndex s initIndex with
    | none =>
      rw [hp] at hpend
      refine Post.pure ⟨?_, Frame.refl s⟩
      simp only [CallTable.adopt, ← hpend, Option.map_none]
    | some p =>
      rw [hp] at hpend
      exact adoptCall_post env h hinfo hst (mem_of_findCall hp) hpend.symm

/-- `DialingHandle`. -/
theorem dialingHandle_computes (env : Env) (h : s.table.Inv) (hinfo : info.IsCarried)
    (hst : info.state = .dialing) :
    Computes (dialingHandle env info) s (CallTable.dialing info) := by
  refine Post.bind_gets ?_
  have hcond : (0 < info.index && updateDialingHandle s info) = true ↔
      0 < info.index ∧ ((s.table.callAt 0 info.accountId).isSome ∨
        (s.table.callAt info.index info.accountId).isSome) := by
    simp only [← callAt_eq h, Option.isSome_map, updateDialingHandle, initIndex, Bool.and_eq_true,
      decide_eq_true_eq, Bool.or_eq_true]
  refine Post.ite (fun hc => ?_) (fun hc => ?_)
  · refine (updateDialingCallInfo_computes env h hinfo hst).congr ?_
    rw [CallTable.dialing, if_pos (hcond.mp hc), dialing_state hst]
  · refine (addDialingCall_computes env h hinfo hst).congr ?_
    rw [CallTable.dialing, if_neg fun h => hc (hcond.mpr h)]

/-- `RefreshDialingStateByOtherState`, and the lookup before it. -/
theorem reportedCall_post (env : Env) (h : s.table.Inv) (hinfo : info.IsCarried) :
    Post (reportedCall env info) s fun found s' =>
      (found.map s'.row, s'.table) = s.table.reported info ∧ s'.table.Inv ∧ Frame s s' ∧
        ∀ p, found = some p → p ∈ s'.callObjectPtrList := by
  refine Post.bind_gets ?_
  have hat := callAt_eq h info.index info.accountId
  cases hknown : getOneCallObjectByIndexSlotIdAndCallType s info.index info.accountId with
  | some p =>
    rw [hknown] at hat
    refine Post.pure ⟨?_, h, Frame.refl s, ?_⟩
    · simp only [CallTable.reported, ← hat, Option.map_some]
    · rintro _ ⟨⟩
      exact mem_of_callAt hknown
  | none =>
    rw [hknown] at hat
    refine Post.bind_gets ?_
    have hpend := pending_eq h
    cases hp : getOneCallObjectByIndex s initIndex with
    | none =>
      rw [hp] at hpend
      refine Post.pure ⟨?_, h, Frame.refl s, by simp⟩
      simp only [CallTable.reported, ← hat, ← hpend, Option.map_none, Option.isSome_none,
        Bool.false_eq_true, if_false]
    | some q =>
      rw [hp] at hpend
      refine Post.bind (dialingHandle_computes env h (hinfo.withState .dialing) rfl) ?_
      rintro ret s₁ ⟨hs₁, hf₁⟩
      have ht₁ : s₁.table = (s.table.dialing info).2 := congrArg Prod.snd hs₁
      have h₁ : s₁.table.Inv := ht₁ ▸ h.dialing hinfo
      refine Post.gets ⟨?_, h₁, hf₁, fun p hp => mem_of_callAt hp⟩
      simp only [CallTable.reported, ← hat, ← hpend, Option.map_none, Option.map_some,
        Option.isSome_some, if_true, ← ht₁, callAt_eq h₁]

/-! ## Active, holding, alerting -/

theorem mem_of_conferenceCallList {slotId : Int}
    (h : p ∈ getConferenceCallList s slotId) : p ∈ s.callObjectPtrList := by
  unfold getConferenceCallList at h
  split at h
  · cases h
  · obtain ⟨it, -, hit⟩ := List.mem_filterMap.mp h
    split at hit
    · exact mem_of_findCall hit
    · cases hit

/-- `SetConferenceCall` announces to each member the state it is in. -/
theorem setConferenceCall_post (env : Env) {calls : List Ref} (h : s.table.Inv)
    (hcalls : ∀ p ∈ calls, p ∈ s.callObjectPtrList) :
    Post (setConferenceCall env calls) s fun _ s' => Quiet s s' := by
  refine Post.forEach
    (P := fun s' => s'.table.Inv ∧ ∀ p ∈ calls, p ∈ s'.callObjectPtrList)
    (fun hP hq => ⟨hq.table ▸ hP.1, hq.list ▸ hP.2⟩) (fun p hp s' hP => ?_) ⟨h, hcalls⟩
  refine Post.bind (Post.of_moves (R := Quiet) _ _) fun _ s₁ (hq₁ : Quiet s' s₁) => ?_
  refine Post.bind_gets (Post.when (fun _ => ?_) fun _ => hq₁)
  refine Post.bind (Post.of_moves (R := Quiet) _ _) fun _ s₂ (hq₂ : Quiet s₁ s₂) => ?_
  have hq : Quiet s' s₂ := hq₁.trans hq₂
  refine Post.bind_gets (Post.ignore (Post.mono ?_ fun _ _ => hq.trans))
  exact updateCallState_same env (hq.table ▸ hP.1) (hq.list ▸ hP.2 p hp)

/-- What a handler knows after a refresh of the call it found. -/
structure Refreshed (s s' : CallManager) (p q : Ref) (info : CallDetailInfo) : Prop
    extends Frame s s' where
  table : s'.table = (s.table.refresh (s.row p) info).2
  row : s'.row q = (s.table.refresh (s.row p) info).1
  inv : s'.table.Inv
  holds : s'.table.Holds (s'.row q)

theorem refreshed_post (env : Env) (h : s.table.Inv) (hinfo : info.IsCarried)
    (hp : p ∈ s.callObjectPtrList) (hfit : s.table.Fits (s.row p) info) :
    Post (refreshCallIfNecessary env p info) s fun q s' => Refreshed s s' p q info := by
  refine Post.mono (refreshCallIfNecessary_post env h hp hinfo) ?_
  rintro q s' ⟨hs', hf⟩
  have ht : s'.table = (s.table.refresh (s.row p) info).2 := congrArg Prod.snd hs'
  have hr : s'.row q = (s.table.refresh (s.row p) info).1 := congrArg Prod.fst hs'
  have hmem := s.row_mem_table hp
  exact {
    toFrame := hf
    table := ht
    row := hr
    inv := ht ▸ h.refresh hmem hinfo hfit
    holds := by
      rw [ht, hr]
      exact CallTable.refresh_holds h hmem hinfo }

/-- A call the handler holds on to announces its state. -/
theorem announce_post (env : Env) {q : Ref} {next : TelCallState} (hn : next.IsEntered)
    (hq : s.table.Holds (s.row q)) :
    Post (updateCallState env q next) s fun ret s' => ret = .success ∧ Announced s s' q next :=
  updateCallState_post env hq.toOnly hn (CallBase.readyFor_of_settled hq.ok.running _)

/-- What the handlers of `HOLDING`, `ALERTING` and `DISCONNECTING` do with their call. -/
theorem moveCall_computes (env : Env) (h : s.table.Inv) (hinfo : info.IsCarried)
    (hp : p ∈ s.callObjectPtrList) (hfit : s.table.Fits (s.row p) info)
    {next : TelCallState} (hn : next.IsEntered) (m : Ref → Prog CallManager Unit)
    [∀ q, Moves Quiet (m q)] :
    Computes (do
      let p ← refreshCallIfNecessary env p info
      m p
      updateCallState env p next) s (CallTable.moveTo next info (s.row p)) := by
  refine Post.bind (refreshed_post env h hinfo hp hfit) fun q s₁ h₁ => ?_
  refine Post.bind (Post.of_moves (R := Quiet) _ _) fun _ s₂ (hq₂ : Quiet s₁ s₂) => ?_
  have hholds : s₂.table.Holds (s₂.row q) := by rw [hq₂.table, hq₂.row]; exact h₁.holds
  refine Post.mono (announce_post env hn hholds) ?_
  rintro _ s₃ ⟨rfl, ha⟩
  refine ⟨?_, (h₁.toFrame.trans hq₂.toFrame).trans ha.toFrame⟩
  rw [ha.table, hq₂.table, hq₂.row, h₁.table, h₁.row]
  rfl

/-- `ActiveHandle`. -/
theorem activeHandle_computes (env : Env) (h : s.table.Inv) (hinfo : info.IsCarried) :
    Computes (activeHandle env info) s (CallTable.active info) := by
  refine Post.bind (reportedCall_post env h hinfo) ?_
  rintro found s₁ ⟨hs₁, h₁, hf₁, hmem⟩
  have hat : ∀ r, (s.table.reported info).1 = some r → _ := fun r => CallTable.reported_eq_some
  cases found with
  | none =>
    refine Post.pure ⟨?_, hf₁⟩
    rw [CallTable.active, ← hs₁]
    rfl
  | some p =>
    rw [← hs₁] at hat
    refine Post.bind (Post.of_moves (R := Quiet) _ _) fun _ s₂ (hq₂ : Quiet s₁ s₂) => ?_
    have h₂ : s₂.table.Inv := hq₂.table ▸ h₁
    have hfit : s₂.table.Fits (s₂.row p) info := by
      rw [hq₂.table, hq₂.row]
      exact h₁.fits (hat _ rfl)
    refine Post.bind (refreshed_post env h₂ hinfo (hq₂.list ▸ hmem p rfl) hfit) fun q s₃ h₃ => ?_
    refine Post.bind (Post.of_moves (R := Quiet) _ _) fun _ s₄ (hq₄ : Quiet s₃ s₄) => ?_
    have h₄ : s₄.table.Inv := hq₄.table ▸ h₃.inv
    refine Post.bind_gets (Post.bind (Q := fun _ s₅ => Quiet s₄ s₅) ?_ fun _ s₅ hq₅ => ?_)
    · refine Post.when (fun _ => ?_) fun _ => Quiet.refl _
      exact setConferenceCall_post env h₄ fun p hp => mem_of_conferenceCallList hp
    refine Post.bind (Post.of_moves (R := Quiet) _ _) fun _ s₆ (hq₆ : Quiet s₅ s₆) => ?_
    have hq : Quiet s₃ s₆ := (hq₄.trans hq₅).trans hq₆
    have hholds : s₆.table.Holds (s₆.row q) := by rw [hq.table, hq.row]; exact h₃.holds
    refine Post.bind (announce_post env (.inl (by decide)) hholds) ?_
    rintro _ s₇ ⟨rfl, ha⟩
    have hswitch : ∀ h, Moves Quiet (modifyCall h fun c => { c with canSwitchCallState := true }) :=
      fun h => quiet_modifyCall fun _ => rfl
    rw [if_neg (by decide)]
    refine Post.bind_gets (Post.bind (Post.of_moves (R := Quiet) _ _)
      fun _ s₈ (hq₈ : Quiet s₇ s₈) => Post.pure ⟨?_, ?_⟩)
    · rw [hq₈.table, ha.table, hq.table, hq.row, h₃.table, h₃.row, hq₂.table, hq₂.row,
        CallTable.active, ← hs₁]
      rfl
    · exact ((((hf₁.trans hq₂.toFrame).trans h₃.toFrame).trans hq.toFrame).trans ha.toFrame).trans
        hq₈.toFrame

/-- What `HoldingHandle` and `DisconnectingHandle` do. -/
theorem moveKnown_computes (env : Env) (h : s.table.Inv) (hinfo : info.IsCarried)
    {next : TelCallState} (hn : next.IsEntered) (m : Ref → Prog CallManager Unit)
    [∀ q, Moves Quiet (m q)] :
    Computes (do
      let found ← Prog.gets fun s =>
        getOneCallObjectByIndexSlotIdAndCallType s info.index info.accountId
      match found with
      | none => pure .errLocalPtrNull
      | some p => do
        let p ← refreshCallIfNecessary env p info
        m p
        updateCallState env p next) s (CallTable.moveKnown next info) := by
  refine Post.bind_gets ?_
  have hat := callAt_eq h info.index info.accountId
  cases hknown : getOneCallObjectByIndexSlotIdAndCallType s info.index info.accountId with
  | none =>
    rw [hknown] at hat
    refine Post.pure ⟨?_, Frame.refl s⟩
    rw [CallTable.moveKnown, ← hat]
    rfl
  | some p =>
    rw [hknown] at hat
    refine Computes.congr
      (moveCall_computes env h hinfo (mem_of_callAt hknown) (h.fits hat.symm) hn m) ?_
    rw [CallTable.moveKnown, ← hat]
    rfl

theorem holdingHandle_computes (env : Env) (h : s.table.Inv) (hinfo : info.IsCarried) :
    Computes (holdingHandle env info) s (CallTable.moveKnown .holding info) :=
  moveKnown_computes env h hinfo (.inl (by decide)) fun p =>
    Prog.when (info.mpty = 1) (holdConference env p).ignore

theorem disconnectingHandle_computes (env : Env) (h : s.table.Inv) (hinfo : info.IsCarried) :
    Computes (disconnectingHandle env info) s (CallTable.moveKnown .disconnecting info) :=
  moveKnown_computes env h hinfo (.inl (by decide)) setOriginalCallTypeForDisconnectState

/-- `AlertHandle`. -/
theorem alertHandle_computes (env : Env) (h : s.table.Inv) (hinfo : info.IsCarried) :
    Computes (alertHandle env info) s (CallTable.alerting info) := by
  refine Post.bind (reportedCall_post env h hinfo) ?_
  rintro found s₁ ⟨hs₁, h₁, hf₁, hmem⟩
  have hat : ∀ r, (s.table.reported info).1 = some r → _ := fun r => CallTable.reported_eq_some
  cases found with
  | none =>
    refine Post.pure ⟨?_, hf₁⟩
    rw [CallTable.alerting, ← hs₁]
    rfl
  | some p =>
    rw [← hs₁] at hat
    refine Post.bind (Post.of_moves (R := Quiet) _ _) fun _ s₂ (hq₂ : Quiet s₁ s₂) => ?_
    have h₂ : s₂.table.Inv := hq₂.table ▸ h₁
    have hfit : s₂.table.Fits (s₂.row p) info := by
      rw [hq₂.table, hq₂.row]
      exact h₁.fits (hat _ rfl)
    have hf₂ : Frame s s₂ := hf₁.trans hq₂.toFrame
    refine Post.bind_gets (Post.ite (fun hdis => Post.pure ⟨?_, hf₂⟩) fun hdis => ?_)
    · have : (s₁.row p).callState = .disconnecting := by rw [← hq₂.row]; exact hdis
      rw [CallTable.alerting, ← hs₁, hq₂.table]
      exact (if_pos this).symm
    · have : ¬(s₁.row p).callState = .disconnecting := by rw [← hq₂.row]; exact hdis
      refine Post.mono (moveCall_computes env h₂ hinfo (hq₂.list ▸ hmem p rfl) hfit
        (.inl (by decide)) fun _ => pure ()) ?_
      rintro ret s₃ ⟨hs₃, hf₃⟩
      refine ⟨?_, hf₂.trans hf₃⟩
      rw [hs₃, hq₂.table, hq₂.row, CallTable.alerting, ← hs₁]
      exact (if_neg this).symm

/-! ## Calls that end -/

/-- A listed object is told again that it is in its state. -/
theorem leftOneConferenceCall_post (env : Env) {calls : List Ref} (h : s.table.Inv)
    (hcalls : ∀ p ∈ calls, p ∈ s.callObjectPtrList) :
    Post (Prog.forSome (leftOneConferenceCall calls) fun left => do
      let c ← getCall left
      Prog.when (c.conferenceState ≠ .idle) do
        setTelConferenceState left .idle
        let c ← getCall left
        (updateCallState env left c.callState).ignore) s fun _ s' => Quiet s s' := by
  match calls with
  | [] => exact Quiet.refl s
  | [left] =>
    refine Post.bind_gets (Post.when (fun _ => ?_) fun _ => Quiet.refl s)
    refine Post.bind (Post.of_moves (R := Quiet) _ _) fun _ s₁ (hq₁ : Quiet s s₁) => ?_
    refine Post.bind_gets (Post.ignore (Post.mono ?_ fun _ _ => hq₁.trans))
    exact updateCallState_same env (hq₁.table ▸ h) (hq₁.list ▸ hcalls left List.mem_cons_self)
  | _ :: _ :: _ => exact Quiet.refl s

/-- `HandleHoldCallOrAutoAnswerCall` takes the call out. -/
theorem handleHoldCallOrAutoAnswerCall_post (env : Env) (s : CallManager) (p : Ref)
    (callIdList : List Int) (previousState : CallRunningState) (priorState : TelCallState) :
    Post (handleHoldCallOrAutoAnswerCall env p callIdList previousState priorState) s fun _ s' =>
      s'.table = s.table.remove (s.row p).callId ∧ Frame s s' := by
  refine Post.bind_gets (Post.bind_gets (Post.bind_gets ?_))
  refine Post.bind (Post.of_moves (R := Quiet) _ _) fun _ s₁ (hq₁ : Quiet s s₁) => ?_
  refine Post.mono (deleteOneCallObject_post s₁ _) ?_
  rintro _ s₂ ⟨ht₂, -, hf₂, -⟩
  exact ⟨by rw [ht₂, hq₁.table]; rfl, hq₁.toFrame.trans hf₂⟩

/-- `DisconnectedHandle` once the call is known. -/
theorem disconnectCall_computes (env : Env) (h : s.table.Inv) (hinfo : info.IsCarried)
    (hp : p ∈ s.callObjectPtrList) (hfit : s.table.Fits (s.row p) info) :
    Computes (disconnectCall env p info) s fun t => (.success, t.disconnect info (s.row p)) := by
  refine Post.bind (refreshed_post env h hinfo hp hfit) fun q s₁ h₁ => ?_
  refine Post.bind (Post.of_moves (R := Quiet) _ _) fun _ s₂ (hq₂ : Quiet s₁ s₂) => ?_
  refine Post.bind (Post.of_moves (R := Quiet) _ _) fun _ s₃ (hq₃ : Quiet s₂ s₃) => ?_
  refine Post.bind (Post.of_moves (R := Quiet) _ _) fun _ s₄ (hq₄ : Quiet s₃ s₄) => ?_
  refine Post.bind (Post.of_moves (R := Quiet) _ _) fun _ s₅ (hq₅ : Quiet s₄ s₅) => ?_
  refine Post.bind_gets ?_
  refine Post.bind (Post.of_moves (R := Quiet) _ _) fun _ s₆ (hq₆ : Quiet s₅ s₆) => ?_
  refine Post.bind_gets ?_
  have hq : Quiet s₁ s₆ := (((hq₂.trans hq₃).trans hq₄).trans hq₅).trans hq₆
  have hholds : s₆.table.Holds (s₆.row q) := by rw [hq.table, hq.row]; exact h₁.holds
  refine Post.bind (announce_post env (.inr rfl) hholds) ?_
  rintro _ s₇ ⟨-, ha⟩
  refine Post.bind (handleHoldCallOrAutoAnswerCall_post env s₇ q _ _ _) ?_
  rintro _ s₈ ⟨ht₈, hf₈⟩
  have ht : s₈.table = s.table.disconnect info (s.row p) := by
    rw [ht₈, ha.table, ha.row, hq.table, hq.row, h₁.table, h₁.row]
    rfl
  have h₈ : s₈.table.Inv := ht ▸ h.disconnect hinfo (s.row_mem_table hp) hfit
  refine Post.bind_gets (Post.bind (leftOneConferenceCall_post env h₈
    fun p hp => mem_of_conferenceCallList hp) fun _ s₉ hq₉ => Post.pure ⟨?_, ?_⟩)
  · rw [hq₉.table, ht]
  · exact (((h₁.toFrame.trans hq.toFrame).trans ha.toFrame).trans hf₈).trans hq₉.toFrame

/-- `DisconnectedHandle`. -/
theorem disconnectedHandle_computes (env : Env) (h : s.table.Inv) (hinfo : info.IsCarried) :
    Computes (disconnectedHandle env info) s (CallTable.disconnected info) := by
  refine Post.bind (reportedCall_post env h hinfo) ?_
  rintro found s₁ ⟨hs₁, h₁, hf₁, hmem⟩
  have hat : ∀ r, (s.table.reported info).1 = some r → _ := fun r => CallTable.reported_eq_some
  cases found with
  | none =>
    refine Post.pure ⟨?_, hf₁⟩
    rw [CallTable.disconnected, ← hs₁]
    rfl
  | some p =>
    rw [← hs₁] at hat
    refine Post.mono (disconnectCall_computes env h₁ hinfo (hmem p rfl) (h₁.fits (hat _ rfl))) ?_
    rintro ret s₂ ⟨hs₂, hf₂⟩
    refine ⟨?_, hf₁.trans hf₂⟩
    rw [hs₂, CallTable.disconnected, ← hs₁]
    rfl

/-- `DealFailDial`, for a call of the table. -/
theorem dealFailDial_computes (env : Env) (h : s.table.Inv) (hp : p ∈ s.callObjectPtrList) :
    Computes (dealFailDial env p) s (CallTable.failCall (s.row p)) := by
  refine Post.bind_gets (Post.ite (fun hlong => ?_) fun _ => ?_)
  · exact absurd (h.ok _ (s.row_mem_table hp)).number (Nat.not_le.mpr hlong)
  · exact disconnectedHandle_computes env h (h.disconnectedInfo_isCarried (s.row_mem_table hp))

/-! ## Incoming calls -/

/-- The first part of `RefreshOldCall`: the pending dial fails. -/
theorem failPending_post (env : Env) (h : s.table.Inv) {k : Prog CallManager (RetCode × Bool)}
    {Q : RetCode × Bool → CallManager → Prop}
    (hk : ∀ s', s'.table = s.table.failPending → Frame s s' → Post k s' Q) :
    Post (do
      let initCall ← Prog.gets fun s => getOneCallObjectByIndex s initIndex
      Prog.forSome initCall fun p => (dealFailDial env p).ignore
      k) s Q := by
  refine Post.bind_gets ?_
  have hpend := pending_eq h
  cases hp : getOneCallObjectByIndex s initIndex with
  | none =>
    rw [hp] at hpend
    refine hk s ?_ (Frame.refl s)
    rw [CallTable.failPending, ← hpend]
    rfl
  | some p =>
    rw [hp] at hpend
    refine Post.bind (Q := fun _ s₁ =>
      s₁.table = (s.table.failCall (s.row p)).2 ∧ Frame s s₁) (Post.ignore ?_) fun _ s₁ hs₁ =>
        hk s₁ ?_ hs₁.2
    · exact Post.mono (dealFailDial_computes env h (mem_of_findCall hp))
        fun _ _ hs₁ => ⟨congrArg Prod.snd hs₁.1, hs₁.2⟩
    · rw [CallTable.failPending, ← hpend, hs₁.1]
      rfl

/-- `RefreshOldCall`: a call of the table is an old one. -/
theorem refreshOldCall_post (env : Env) (h : s.table.Inv) (hinfo : info.IsCarried)
    (hst : info.state.IsLive) :
    Post (refreshOldCall env info) s fun old s' =>
      old.1 = .success ∧ Frame s s' ∧
        match s.table.failPending.callAt info.index info.accountId with
        | some r => old.2 = true ∧ s'.table = s.table.failPending.oldIncoming info r
        | none => old.2 = false ∧ s'.table = s.table.failPending := by
  refine failPending_post env h fun s₁ ht₁ hf₁ => ?_
  have h₁ : s₁.table.Inv := ht₁ ▸ h.failPending
  rw [← ht₁]
  refine Post.bind_gets ?_
  have hat := callAt_eq h₁ info.index info.accountId
  cases hknown : getOneCallObjectByIndexSlotIdAndCallType s₁ info.index info.accountId with
  | none =>
    rw [hknown] at hat
    rw [← hat]
    exact Post.pure ⟨rfl, hf₁, rfl, rfl⟩
  | some p =>
    rw [hknown] at hat
    rw [← hat]
    change Post _ _ fun (old : RetCode × Bool) s' => old.1 = .success ∧ Frame s s' ∧ old.2 = true ∧
      s'.table = s₁.table.oldIncoming info (s₁.row p)
    refine Post.bind_gets (Post.ite (fun hdiff => ?_) fun hsame => ?_)
    · refine Post.bind (refreshed_post env h₁ hinfo (mem_of_callAt hknown) (h₁.fits hat.symm)) ?_
      intro q s₂ h₂
      refine Post.ite (fun hann => ?_) fun hquiet => Post.pure ⟨rfl, hf₁.trans h₂.toFrame, rfl, ?_⟩
      · refine Post.bind (announce_post env (.inl hst) h₂.holds) ?_
        rintro _ s₃ ⟨rfl, ha⟩
        refine Post.pure ⟨rfl, (hf₁.trans h₂.toFrame).trans ha.toFrame, rfl, ?_⟩
        rw [ha.table, h₂.table, h₂.row]
        exact ((if_pos hdiff).trans (if_pos hann)).symm
      · rw [h₂.table]
        exact ((if_pos hdiff).trans (if_neg hquiet)).symm
    · exact Post.pure ⟨rfl, hf₁, rfl, (if_neg hsame).symm⟩

/-- A table of calls holds no thirty of them. -/
theorem CallTable.Inv.not_full (h : s.table.Inv) :
    (hasRingingMaximum s || hasDialingMaximum s) = false := by
  have hlen : s.callObjectPtrList.length ≤ miniMaxCallObjects := by
    simpa [CallManager.table] using h.length_le
  have hfew : ∀ f : Ref → Bool, ¬30 ≤ (s.callObjectPtrList.filter f).length := by
    intro f
    have := List.length_filter_le f s.callObjectPtrList
    unfold miniMaxCallObjects at hlen
    omega
  simp [hasRingingMaximum, hasDialingMaximum, hfew]

/-- A ringing call that entered the table announces nothing more than its entry. -/
theorem finalizeIncomingState_post (env : Env) {q : Ref} {t : CallTable}
    (hst : info.state.IsLive) (hring : runningOf info.state = .ringing)
    (hq : s.table.Only (s.row q)) (hrun : (s.call q).callRunningState = .create)
    (hstate : (s.call q).callState = info.state)
    (ht : s.table.update (s.row q).callId (Row.setState info.state) = t) (hinv : t.Inv) :
    Post (finalizeIncomingState env q info.state) s fun ret s' =>
      ret = .success ∧ s'.table = t ∧ Frame s s' := by
  refine Post.bind (updateCallState_post env hq (.inl hst) fun _ => .inl hrun) ?_
  rintro _ s₁ ⟨rfl, ha⟩
  rw [if_neg (by decide)]
  have ht₁ : s₁.table = t := by rw [ha.table, CallTable.announce_same hstate, ht]
  have hfull : ¬(hasRingingMaximum s₁ || hasDialingMaximum s₁) = true := by
    rw [CallTable.Inv.not_full (ht₁ ▸ hinv)]
    decide
  refine Post.bind_gets ?_
  rw [if_neg hfull]
  have hrow : ({ s₁.call q with callRunningState := .ringing } : CallBase).row q = s₁.row q := by
    have : (s₁.row q).callRunningState = .ringing := by
      rw [ha.row]
      exact hring
    exact congrArg (fun x => { s₁.row q with callRunningState := x }) this.symm
  refine Post.bind_modify (Post.bind (Post.of_moves (R := Quiet) _ _)
    fun _ s₂ (hq₂ : Quiet _ s₂) => Post.pure ⟨rfl, ?_, ?_⟩)
  · exact ((quiet_updateCall hrow).trans hq₂).table.trans ht₁
  · exact ha.toFrame.trans ((quiet_updateCall hrow).trans hq₂).toFrame

/-- A call that is turned away was never in the table. -/
theorem handleRejectCall_post (env : Env) (hp : p ∉ s.callObjectPtrList) :
    Post (handleRejectCall env p) s fun _ s' => s'.table = s.table ∧ Frame s s' := by
  refine Post.bind (setTelCallState_post env p .incoming s) ?_
  rintro ret s₁ ⟨-, hs₁⟩
  have ht₁ : s₁.table = s.table := hs₁ ▸ table_updateCall_of_not_mem hp
  have hf₁ : Frame s s₁ := hs₁ ▸ frame_updateCall _ _ _
  refine Post.ite (fun _ => Post.pure ⟨ht₁, hf₁⟩) fun _ => ?_
  exact Post.mono (Post.of_moves (R := Quiet) _ _)
    fun _ s₂ hq₂ => ⟨hq₂.table.trans ht₁, hf₁.trans hq₂.toFrame⟩

/-- The part of `IncomingHandle` about a call that is not in the table yet. -/
theorem addIncomingCall_computes (env : Env) (h : s.table.Inv) (hinfo : info.IsCarried)
    (hst : info.state = .incoming ∨ info.state = .waiting)
    (hnone : s.table.callAt info.index info.accountId = none) :
    Computes (do
      let created ← createNewCall env info .incoming
      match created with
      | none => pure .callErrCallObjectIsNull
      | some p => do
        let ret ← addOneCallObject p
        if ret ≠ .success then do
          let _ ← handleRejectCall env p
          pure ret
        else do
          notifyNewCallCreated p
          finalizeIncomingState env p info.state) s (CallTable.addIncoming info) := by
  have hlive : info.state.IsLive := by rcases hst with hs | hs <;> rw [hs] <;> decide
  have hring : runningOf info.state = .ringing := by rcases hst with hs | hs <;> rw [hs] <;> rfl
  refine Post.bind (createNewCall_post env h hinfo _) ?_
  rintro _ s₁ ⟨rfl, h₁⟩
  dsimp only
  set p := s.calls.next
  have hpl : p ∉ s.callObjectPtrList := fun hmem => Nat.lt_irrefl _ (h.lt_next hmem)
  refine Post.bind (addOneCallObject_post s₁ p) ?_
  rintro ret s₂ ⟨hret, ht₂, hc₂, hf₂, hl₂⟩
  have hrow₂ : s₂.row p = s.table.newRow info .incoming := by
    have : s₂.row p = s₁.row p := by simp only [CallManager.row, CallManager.call, hc₂]
    rw [this, h₁.row]
  rw [h₁.row, h₁.table] at hret ht₂
  have hf₂ : Frame s s₂ := h₁.toFrame.trans hf₂
  refine Post.ite (fun hne => ?_) (fun heq => ?_)
  · have hadm := fun hs => hne (hret.trans hs)
    have hpl₂ : p ∉ s₂.callObjectPtrList := by
      rw [hl₂, if_neg hne, h₁.list]
      exact hpl
    refine Post.bind (handleRejectCall_post env hpl₂) ?_
    rintro _ s₃ ⟨ht₃, hf₃⟩
    refine Post.pure ⟨?_, hf₂.trans hf₃⟩
    rw [ht₃, ht₂, CallTable.enter, if_neg hadm, hret]
    exact (if_neg hadm).symm
  · have hadm := hret.symm.trans (not_not.mp heq)
    rw [CallTable.enter, if_pos hadm] at ht₂
    have hrep : s.table.addIncoming info =
        (.success, (s.table.created.insert (s.table.newRow info .incoming)).update
          (s.table.newRow info .incoming).callId (Row.setState info.state)) := if_pos hadm
    have hinv := h.addIncoming hinfo hlive hnone
    refine Post.bind (Post.of_moves (R := Quiet) _ _) fun _ s₃ (hq₃ : Quiet s₂ s₃) => ?_
    have hrow₃ : s₃.row p = s.table.newRow info .incoming := by rw [hq₃.row, hrow₂]
    have ht₃ : s₃.table = s.table.created.insert (s.table.newRow info .incoming) := by
      rw [hq₃.table, ht₂]
    refine Post.mono (finalizeIncomingState_post env (t := (s.table.addIncoming info).2) hlive hring
      ?_ (congrArg Row.callRunningState hrow₃) (congrArg Row.callState hrow₃) ?_ hinv) ?_
    · rw [ht₃, hrow₃]
      exact CallTable.only_insert hadm
    · rw [ht₃, hrow₃, hrep]
    · rintro _ s₄ ⟨rfl, ht₄, hf₄⟩
      refine ⟨?_, (hf₂.trans hq₃.toFrame).trans hf₄⟩
      rw [ht₄, hrep]

/-- `IncomingHandle`. -/
theorem incomingHandle_computes (env : Env) (h : s.table.Inv) (hinfo : info.IsCarried)
    (hst : info.state = .incoming ∨ info.state = .waiting) :
    Computes (incomingHandle env info) s (CallTable.incoming info) := by
  have hlive : info.state.IsLive := by rcases hst with hs | hs <;> rw [hs] <;> decide
  refine Post.bind (refreshOldCall_post env h hinfo hlive) ?_
  rintro ⟨code, old⟩ s₁ ⟨hcode, hf₁, hold⟩
  dsimp only at hcode hold ⊢
  subst hcode
  cases hat : s.table.failPending.callAt info.index info.accountId with
  | some r =>
    rw [hat] at hold
    rw [if_pos (.inl hold.1)]
    refine Post.pure ⟨?_, hf₁⟩
    simp only [CallTable.incoming, hat, hold.2]
  | none =>
    rw [hat] at hold
    rw [if_neg (by simp [hold.1])]
    have h₁ : s₁.table.Inv := hold.2 ▸ h.failPending
    refine Post.mono (addIncomingCall_computes env h₁ hinfo hst (hold.2 ▸ hat)) ?_
    rintro ret s₂ ⟨hs₂, hf₂⟩
    refine ⟨?_, hf₁.trans hf₂⟩
    simp only [hs₂, CallTable.incoming, hat, hold.2]

/-- **Every report handler computes its report.** -/
theorem handleCallReportInfo_refines (env : Env) (h : s.table.Inv) (hinfo : info.IsCarried) :
    Computes (handleCallReportInfo env info) s (CallTable.report info) := by
  unfold handleCallReportInfo
  cases hst : info.state with
  | active => exact (activeHandle_computes env h hinfo).congr (by rw [CallTable.report, hst])
  | holding => exact (holdingHandle_computes env h hinfo).congr (by rw [CallTable.report, hst])
  | dialing => exact (dialingHandle_computes env h hinfo hst).congr (by rw [CallTable.report, hst])
  | alerting => exact (alertHandle_computes env h hinfo).congr (by rw [CallTable.report, hst])
  | incoming =>
    exact (incomingHandle_computes env h hinfo (.inl hst)).congr (by rw [CallTable.report, hst])
  | waiting =>
    exact (incomingHandle_computes env h hinfo (.inr hst)).congr (by rw [CallTable.report, hst])
  | disconnected =>
    exact (disconnectedHandle_computes env h hinfo).congr (by rw [CallTable.report, hst])
  | disconnecting =>
    exact (disconnectingHandle_computes env h hinfo).congr (by rw [CallTable.report, hst])
  | unknown | idle | answered =>
    exact Post.pure ⟨by rw [CallTable.report, hst], Frame.refl s⟩

end CallManagerMini
