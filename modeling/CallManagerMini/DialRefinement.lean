import CallManagerMini.HandlerRefinement

/-! # A dial on the table

What `DialCall` does to the table, with everything it may be refused for.  A dial
that gets past the policies saves its emergency flag; a dial that is admitted adds
one call, at the end, and sends one command; a dial the stack refuses fails the
call `GetDialingCall` finds, which is the one just added (`getDialingCall_eq`).
-/

namespace CallManagerMini

open Prog (Post Moves)

variable {s : CallManager} {env : Env} {p : Ref}

/-! ## The refused dial -/

/-- A Dial command went out. -/
def CallTable.dialed (info : CellularCallInfo) (reply : Option Int) (t : CallTable) : CallTable :=
  { t with history := t.history ++ [.dialed info reply] }

theorem CallTable.Inv.dialed {t : CallTable} (h : t.Inv) (info : CellularCallInfo)
    (reply : Option Int) : (t.dialed info reply).Inv := h.withHistory _

/-- No call of the table waits to be dialed: it is dialed when it is added. -/
theorem getOneCarrierCallObject_eq_none (h : s.table.Inv) {state : CallRunningState}
    (hs : state = .create ∨ state = .connecting) : getOneCarrierCallObject s state = none := by
  unfold getOneCarrierCallObject CallManager.findLastCall
  rw [List.find?_eq_none]
  intro p hp
  have ok := h.ok _ (s.row_mem_table (List.mem_reverse.mp hp))
  have hrun : (s.call p).callRunningState = runningOf (s.call p).callState := ok.running
  have hlive : (s.call p).callState.IsLive := ok.live
  suffices hne : (s.call p).callRunningState ≠ state by simp [hne]
  rw [hrun]
  rcases hs with rfl | rfl <;>
    rcases hlive with hl | hl | hl | hl | hl | hl | hl <;> rw [hl] <;> decide

/-- `GetDialingCall` finds the call that was added last, if that call is dialing. -/
theorem getDialingCall_eq (h : s.table.Inv) {l : List Ref} (hl : s.callObjectPtrList = l ++ [p])
    (hp : (s.call p).callRunningState = .dialing) : getDialingCall s = some p := by
  have hmem : p ∈ s.callObjectPtrList := hl ▸ List.mem_append_right l (List.mem_singleton.mpr rfl)
  have hlast : getOneCarrierCallObject s .dialing = some p := by
    unfold getOneCarrierCallObject CallManager.findLastCall
    rw [hl, List.reverse_append, List.reverse_singleton, List.singleton_append]
    rw [List.find?_cons_of_pos]
    rcases h.carrier hmem with ht | ht <;> simp [hp, ht]
  unfold getDialingCall
  rw [getOneCarrierCallObject_eq_none h (.inl rfl), getOneCarrierCallObject_eq_none h (.inr rfl),
    hlast]
  rfl

/-- A call of the table is found again when it fails. -/
theorem failCall_code {t : CallTable} {r : Row} (hr : r ∈ t.rows) :
    (t.failCall r).1 = .success := by
  have hs : (t.callAt r.disconnectedInfo.index r.disconnectedInfo.accountId).isSome :=
    CallTable.callAt_isSome.mpr ⟨r, hr, rfl, rfl⟩
  obtain ⟨q, hq⟩ := Option.isSome_iff_exists.mp hs
  simp only [CallTable.failCall, CallTable.disconnected, CallTable.reported, hq]

/-- What the stack's answer to a Dial command for the call `r` leads to. -/
def DialAnswered (env : Env) (t t' : CallTable) (r : Row) (info : CellularCallInfo)
    (ret : RetCode) : Prop :=
  ∃ log reply, reply = env.stack log (.dial info) ∧
    ((reply = some 0 ∧ ret = .success ∧ t' = t.dialed info reply) ∨
      (reply ≠ some 0 ∧ ret ≠ .success ∧ t' = ((t.dialed info reply).failCall r).2))

/-- The same, for the reply the stack gave. -/
def DialReplied (t t' : CallTable) (r : Row) (info : CellularCallInfo) (reply : Option Int)
    (ret : RetCode) : Prop :=
  (reply = some 0 ∧ ret = .success ∧ t' = t.dialed info reply) ∨
    (reply ≠ some 0 ∧ ret ≠ .success ∧ t' = ((t.dialed info reply).failCall r).2)

/-- A command goes through if the stack replies zero. -/
theorem sendCommand_code (env : Env) (c : Command) (s : CallManager) :
    (sendCommand env c s).1 = .success ↔ env.stack s.log c = some 0 := by
  unfold sendCommand
  dsimp only
  cases env.stack s.log c with
  | none => simp
  | some code => simp [RetCode.ofReply_eq_success]

/-- A dial that went out is in the table's history. -/
theorem table_logged_dial (s : CallManager) (dial : CellularCallInfo) (reply : Option Int) :
    (s.logged (.command (.dial dial) reply)).table = s.table.dialed dial reply := by
  simp [CallTable.dialed, CallManager.table, CallManager.history, CallManager.logged, Event.mark,
    CallManager.row, CallManager.call]

/-- `HandleStartDial`, for a dial whose call was just added. -/
theorem handleStartDial_replied (env : Env) (h : s.table.Inv) {l : List Ref}
    (hl : s.callObjectPtrList = l ++ [p]) (hp : (s.call p).callRunningState = .dialing)
    {info : DialParaInfo} (hn : info.number.length ≤ kMaxNumberLen) :
    Post (handleStartDial env info) s fun ret s' =>
      Frame s s' ∧ DialReplied s.table s'.table (s.row p) info.packCellularCallInfo
        (env.stack s.log (.dial info.packCellularCallInfo)) ret := by
  unfold handleStartDial
  rw [if_neg (Nat.not_lt.mpr hn)]
  set c := Command.dial info.packCellularCallInfo with hc
  set reply := env.stack s.log c with hreply
  set s₁ := s.logged (.command c reply) with hs₁
  have ht₁ : s₁.table = s.table.dialed info.packCellularCallInfo reply :=
    table_logged_dial s _ reply
  have hf₁ : Frame s s₁ := ⟨rfl, rfl, id⟩
  refine Post.bind (Q := fun ret s' => s' = s₁ ∧ (ret = .success ↔ reply = some 0))
    ⟨rfl, sendCommand_code env c s⟩ ?_
  rintro ret _ ⟨rfl, hret⟩
  refine Post.ite (fun hne => ?_) fun heq => ?_
  · have h₁ : s₁.table.Inv := ht₁ ▸ h.dialed _ _
    have hmem : p ∈ s₁.callObjectPtrList := by
      change p ∈ s.callObjectPtrList
      simp [hl]
    refine Post.bind (Q := fun handleRet s' =>
      (handleRet, s'.table) = s₁.table.failCall (s₁.row p) ∧ Frame s₁ s') ?_ ?_
    · refine Post.bind_gets ?_
      rw [getDialingCall_eq h₁ hl hp]
      exact dealFailDial_computes env h₁ hmem
    · rintro handleRet s₂ ⟨hs₂, hf₂⟩
      have hcode : handleRet = .success :=
        (congrArg Prod.fst hs₂).trans (failCall_code (s₁.row_mem_table hmem))
      subst hcode
      refine Post.pure ⟨hf₁.trans hf₂, .inr ⟨fun hr => hne (hret.mpr hr), hne, ?_⟩⟩
      rw [← ht₁]
      exact congrArg Prod.snd hs₂
  · exact Post.pure ⟨hf₁, .inl ⟨hret.mp (not_not.mp heq), rfl, ht₁⟩⟩

theorem handleStartDial_post (env : Env) (h : s.table.Inv) {l : List Ref}
    (hl : s.callObjectPtrList = l ++ [p]) (hp : (s.call p).callRunningState = .dialing)
    {info : DialParaInfo} (hn : info.number.length ≤ kMaxNumberLen) :
    Post (handleStartDial env info) s fun ret s' =>
      Frame s s' ∧ DialAnswered env s.table s'.table (s.row p) info.packCellularCallInfo ret :=
  Post.mono (handleStartDial_replied env h hl hp hn) fun _ _ hs' => ⟨hs'.1, _, _, rfl, hs'.2⟩

/-! ## The admitted dial -/

/-- The local report of a dial, in the service's own form. -/
def DialParaInfo.dialReport (info : DialParaInfo) (number : Bytes) : CallDetailInfo :=
  { callType := info.callType
    accountId := info.accountId
    index := info.index
    state := .dialing
    callMode := info.videoState
    originalCallType := info.originalCallType
    phoneOrWatch := info.phoneOrWatch
    phoneIndex := info.phoneIndex
    phoneNum := number }

/-- What a dial that got past the policies leads to: it is not admitted, or its call
is added and the stack asked. -/
def DialEntered (env : Env) (t t' : CallTable) (report : CallDetailInfo) (info : CellularCallInfo)
    (ret : RetCode) : Prop :=
  (t.created.admission (t.newRow report .outgoing) ≠ .success ∧ ret ≠ .success ∧
    t' = t.created) ∨
  (t.created.admission (t.newRow report .outgoing) = .success ∧
    DialAnswered env (t.addDialing report).2 t' ((t.newRow report .outgoing).setState .dialing) info
      ret)

/-- What a dial leaves alone, whatever becomes of it. -/
structure DialFrame (s s' : CallManager) : Prop where
  dialSrcInfo : s'.dialSrcInfo = s.dialSrcInfo
  callDetailsInfo : s'.callDetailsInfo = s.callDetailsInfo
  dialing : s'.helper.isDialingCallProcessing = false

/-- A dial that is given up is no longer in progress. -/
theorem abandonDial_post (s : CallManager) (ret : RetCode) :
    Post (abandonDial ret) s fun ret' s' => ret' = ret ∧ s'.table = s.table ∧ DialFrame s s' := by
  refine Post.bind (Q := fun _ s₁ => Quiet s s₁ ∧ s₁.helper.isDialingCallProcessing = false)
    ⟨Moves.rel s, rfl⟩ ?_
  rintro _ s₁ ⟨hq₁, hflag⟩
  refine Post.bind (Post.of_moves (R := Quiet) _ _) fun _ s₂ (hq₂ : Quiet s₁ s₂) => Post.pure ?_
  have hq := hq₁.trans hq₂
  exact ⟨rfl, hq.table, hq.dialSrcInfo, hq.callDetailsInfo, hq₂.dialing hflag⟩

/-- The local report of a dial adds a call. -/
theorem updateCallReportInfo_dialing (env : Env) {info : DialParaInfo} {number : Bytes}
    (hindex : info.index = 0) (hnumber : number.length ≤ kMaxNumberLen) :
    updateCallReportInfo env { info with number := number } .dialing =
      addDialingCall env (info.dialReport number) := by
  unfold updateCallReportInfo
  rw [if_neg (Nat.not_lt.mpr hnumber)]
  show dialingHandle env (info.dialReport number) = _
  unfold dialingHandle
  simp only [DialParaInfo.dialReport, hindex, lt_irrefl, decide_false, Bool.false_and]
  rfl

/-- The call a dial has added: it is the last one, and nothing else moved. -/
structure DialAdded (s s' : CallManager) (report : CallDetailInfo) : Prop where
  inv : s'.table.Inv
  table : s'.table = (s.table.addDialing report).2
  list : s'.callObjectPtrList = s.callObjectPtrList ++ [s.calls.next]
  row : s'.row s.calls.next = (s.table.newRow report .outgoing).setState .dialing

theorem dialAdded_of_table (h : s.table.Inv) {s' : CallManager} {report : CallDetailInfo}
    (hcarried : report.IsCarried) (hindex : report.index = 0) (hst : report.state = .dialing)
    (hadm : s.table.created.admission (s.table.newRow report .outgoing) = .success)
    (ht : s'.table = (s.table.addDialing report).2) : DialAdded s s' report := by
  have hrows : s'.table.rows = s.table.rows ++
    [(s.table.newRow report .outgoing).setState .dialing] := by
    rw [ht, CallTable.addDialing_of_success (by rwa [dialing_state hst])]
    rfl
  refine ⟨?_, ht, ?_, (CallManager.row_of_mem (s := s')
    (r := (s.table.newRow report .outgoing).setState .dialing) ?_).2⟩
  · rw [ht]
    exact h.addDialing hcarried fun _ _ hpos => by omega
  · rw [s'.list_eq_map_obj, s.list_eq_map_obj, hrows, List.map_append]
    rfl
  · rw [hrows]
    exact List.mem_append_right _ (List.mem_singleton.mpr rfl)

/-- The end of `CarrierDialProcess`: the local report, and the command. -/
theorem enterDial_post (env : Env) (h : s.table.Inv) {info : DialParaInfo} {number : Bytes}
    (hct : info.callType = .cs ∨ info.callType = .ims) (hindex : info.index = 0)
    (hnumber : number.length ≤ kMaxNumberLen) (hn : info.number.length ≤ kMaxNumberLen) :
    Post (do
      let ret ← updateCallReportInfo env { info with number := number } .dialing
      if ret ≠ .success then abandonDial ret else handleStartDial env info) s fun ret s' =>
        DialFrame s s' ∧
          DialEntered env s.table s'.table (info.dialReport number)
            info.packCellularCallInfo ret := by
  have hcarried : (info.dialReport number).IsCarried := ⟨hct, hnumber⟩
  rw [updateCallReportInfo_dialing env hindex hnumber]
  refine Post.bind (addDialingCall_post env h hcarried rfl) ?_
  rintro ret s₁ ⟨hs₁, hf₁, hflag₁⟩
  have ht₁ : s₁.table = (s.table.addDialing (info.dialReport number)).2 := congrArg Prod.snd hs₁
  have hret : ret = (s.table.addDialing (info.dialReport number)).1 := congrArg Prod.fst hs₁
  by_cases hadm : s.table.created.admission
      (s.table.newRow (info.dialReport number) .outgoing) = .success
  · have ha := dialAdded_of_table h hcarried hindex rfl hadm ht₁
    rw [CallTable.addDialing_of_success hadm] at hret
    rw [if_neg (not_not.mpr hret)]
    refine Post.mono (handleStartDial_post env ha.inv ha.list
      (congrArg Row.callRunningState ha.row) hn) ?_
    rintro ret s₂ ⟨hf₂, hans⟩
    refine ⟨⟨hf₂.dialSrcInfo.trans hf₁.dialSrcInfo, hf₂.callDetailsInfo.trans hf₁.callDetailsInfo,
      hf₂.dialing (hflag₁ hret)⟩, .inr ⟨hadm, ?_⟩⟩
    rw [← ht₁, ← ha.row]
    exact hans
  · have hadd : s.table.addDialing (info.dialReport number) =
        (s.table.created.admission (s.table.newRow (info.dialReport number) .outgoing),
          s.table.created) := if_neg hadm
    rw [hadd] at ht₁ hret
    subst hret
    rw [if_pos hadm]
    refine Post.mono (abandonDial_post s₁ _) ?_
    rintro ret s₂ ⟨rfl, ht₂, hd₂⟩
    exact ⟨⟨hd₂.dialSrcInfo.trans hf₁.dialSrcInfo, hd₂.callDetailsInfo.trans hf₁.callDetailsInfo,
      hd₂.dialing⟩, .inl ⟨hadm, hadm, ht₂.trans ht₁⟩⟩

/-- `CarrierDialProcess`: the admission check runs on the table the dial found. -/
theorem carrierDialProcess_post (env : Env) (h : s.table.Inv) {info : DialParaInfo}
    (hflag : s.helper.isDialingCallProcessing = false)
    (hct : info.callType = .cs ∨ info.callType = .ims) (hindex : info.index = 0)
    (hn : info.number.length ≤ kMaxNumberLen) :
    Post (carrierDialProcess env info) s fun ret s' => DialFrame s s' ∧
      ∃ s₁, s₁.table = s.table ∧
        if (handleDialingInfo env (removeSeparatorsPhoneNumber info.number) info s₁).1 = .success
        then DialEntered env s.table s'.table
          (info.dialReport (removeSeparatorsPhoneNumber info.number)) info.packCellularCallInfo ret
        else ret ≠ .success ∧ s'.table = s.table := by
  have hnumber : (removeSeparatorsPhoneNumber info.number).length ≤ kMaxNumberLen :=
    Nat.le_trans (List.length_filter_le _ _) hn
  refine Post.bind_gets ?_
  rw [if_neg (by simp [hflag])]
  -- the flag goes up: nothing else changes
  refine Post.bind (Q := fun _ s₁ => s₁.table = s.table ∧ s₁.dialSrcInfo = s.dialSrcInfo ∧
    s₁.callDetailsInfo = s.callDetailsInfo) ⟨rfl, rfl, rfl⟩ ?_
  rintro _ s₁ ⟨ht₁, hd₁, hc₁⟩
  refine Post.bind (Post.of_moves (R := Quiet) _ _) fun _ s₂ (hq₂ : Quiet s₁ s₂) => ?_
  have ht₂ : s₂.table = s.table := hq₂.table.trans ht₁
  refine Post.bind (Q := fun ret s₃ => Quiet s₂ s₃ ∧
    ret = (handleDialingInfo env (removeSeparatorsPhoneNumber info.number) info s₂).1)
    ⟨Moves.rel s₂, rfl⟩ ?_
  rintro ret s₃ ⟨hq₃, hret⟩
  have ht₃ : s₃.table = s.table := hq₃.table.trans ht₂
  have hd₃ : s₃.dialSrcInfo = s.dialSrcInfo :=
    hq₃.dialSrcInfo.trans (hq₂.dialSrcInfo.trans hd₁)
  have hc₃ : s₃.callDetailsInfo = s.callDetailsInfo :=
    hq₃.callDetailsInfo.trans (hq₂.callDetailsInfo.trans hc₁)
  refine Post.ite (fun hne => ?_) fun heq => ?_
  · refine Post.mono (abandonDial_post s₃ ret) ?_
    rintro ret' s₄ ⟨rfl, ht₄, hf₄⟩
    refine ⟨⟨hf₄.dialSrcInfo.trans hd₃, hf₄.callDetailsInfo.trans hc₃, hf₄.dialing⟩, s₂, ht₂, ?_⟩
    rw [if_neg (hret ▸ hne)]
    exact ⟨hne, ht₄.trans ht₃⟩
  · refine Post.mono (enterDial_post env (ht₃ ▸ h) hct hindex hnumber hn) ?_
    rintro ret' s₄ ⟨hf₄, hent⟩
    refine ⟨⟨hf₄.dialSrcInfo.trans hd₃, hf₄.callDetailsInfo.trans hc₃, hf₄.dialing⟩, s₂, ht₂, ?_⟩
    rw [if_pos (hret ▸ not_not.mp heq), ← ht₃]
    exact hent

/-! ## The policies -/

/-- The dials the policies let through. -/
structure DialAllowed (s : CallManager) (extras : DialExtras) (isEcc : Bool) : Prop where
  dialType : DialType.ofInt extras.dialType = .carrier ∨ DialType.ofInt extras.dialType = .voiceMail
  callType : CallType.ofInt extras.callType = .cs ∨ CallType.ofInt extras.callType = .ims
  noEcc : isEcc = false → hasEmergencyCall s = false

theorem checkDialType_eq_success {dialType : DialType} (h : checkDialType dialType = .success) :
    dialType = .carrier ∨ dialType = .voiceMail := by
  cases dialType <;> simp_all [checkDialType]

theorem validateCallType_eq_success {callType : CallType}
    (h : validateCallType callType = .success) : callType = .cs ∨ callType = .ims := by
  cases callType <;> simp_all [validateCallType]

@[simp] theorem selectAccountIdForCarrier_dialType (dialType : DialType) (extras : DialExtras) :
    (selectAccountIdForCarrier dialType extras).dialType = extras.dialType := by
  unfold selectAccountIdForCarrier; split <;> rfl

@[simp] theorem selectAccountIdForCarrier_callType (dialType : DialType) (extras : DialExtras) :
    (selectAccountIdForCarrier dialType extras).callType = extras.callType := by
  unfold selectAccountIdForCarrier; split <;> rfl

/-- The slot a dial goes to. -/
def dialSlot (extras : DialExtras) : Int :=
  (selectAccountIdForCarrier (DialType.ofInt extras.dialType) extras).accountId

/-- The scene of a dial does not change its slot. -/
theorem dialSlot_dialScene (extras : DialExtras) (dialScene : Int) :
    dialSlot { extras with dialScene := dialScene } = dialSlot extras := by
  simp only [dialSlot, selectAccountIdForCarrier]
  split <;> rfl

/-- `CanDial` asks, selects the slot, and lets through what `DialAllowed` says. -/
theorem canDial_post (env : Env) (s : CallManager) (extras : DialExtras) (isEcc : Bool) :
    Post (canDial env extras isEcc) s fun policy s' => Quiet s s' ∧
      (policy.1 = .success → policy.2.accountId = dialSlot extras ∧
        DialAllowed s policy.2 isEcc) := by
  refine Post.bind (Q := fun policy s' => Quiet s s' ∧
    (policy.1 = .success → policy.2.accountId = dialSlot extras ∧
      DialAllowed s policy.2 isEcc)) ?_ ?_
  · refine Post.bind_gets (Post.ite (fun h => Post.pure ⟨Quiet.refl s, fun hs => absurd hs h⟩) ?_)
    intro hdial
    refine Post.ite (fun h => Post.pure ⟨Quiet.refl s, fun hs => absurd hs h⟩) fun hcall => ?_
    refine Post.ite (fun h => Post.pure ⟨Quiet.refl s, fun hs => absurd hs h⟩) fun _ => ?_
    refine Post.ite (fun h => Post.pure ⟨Quiet.refl s, fun hs => absurd hs h⟩) fun _ => ?_
    refine Post.ite (fun _ => Post.pure ⟨Quiet.refl s, fun hs => by cases hs⟩) fun hecc => ?_
    refine Post.bind (Post.of_moves (R := Quiet) _ _) fun ret s₁ (hq₁ : Quiet s s₁) => ?_
    refine Post.pure ⟨hq₁, fun _ => ⟨rfl, ?_, ?_, ?_⟩⟩
    · simpa using checkDialType_eq_success (not_not.mp hdial)
    · exact validateCallType_eq_success (not_not.mp hcall)
    · intro he
      simpa [he] using hecc
  · rintro policy s₁ ⟨hq₁, hallowed⟩
    refine Post.ite (fun _ => Post.pure ⟨hq₁, hallowed⟩) fun hs => Post.bind_gets (Post.pure ?_)
    exact ⟨hq₁, fun _ => hallowed (not_not.mp hs)⟩

/-! ## The whole dial -/

/-- The emergency flag of the saved dial. -/
def CallTable.saveDial (ecc : Bool) (t : CallTable) : CallTable := { t with dialEcc := ecc }

/-- Whatever dial is saved, the emergency calls of the table stay justified, as long
as a normal dial is not saved next to them. -/
theorem CallTable.Inv.saveDial {t : CallTable} (h : t.Inv) {ecc : Bool}
    (hecc : ecc = false → ∀ r ∈ t.rows, r.isEcc = false) : (t.saveDial ecc).Inv where
  ids := h.ids
  places := h.places
  length_le := h.length_le
  nonEcc_le := h.nonEcc_le
  counter := h.counter
  ok r hr := { h.ok r hr with
    ecc := by
      intro hre
      refine ⟨?_, ((h.ok r hr).ecc hre).2⟩
      cases ecc with
      | true => rfl
      | false => rw [hecc rfl r hr] at hre; cases hre }

theorem hasEmergencyCall_eq_false (hs : hasEmergencyCall s = false) :
    ∀ r ∈ s.table.rows, r.isEcc = false := by
  intro r hr
  obtain ⟨p, hp, rfl⟩ := CallManager.mem_table_rows.mp hr
  exact Bool.eq_false_iff.mpr (List.any_eq_false.mp hs p hp)

/-- A dial of `number` on `slotId` that was refused before a call was made for it, or
entered. -/
def DialOutcome (env : Env) (t t' : CallTable) (slotId : Int) (number : Bytes) (ret : RetCode) :
    Prop :=
  (ret ≠ .success ∧ t' = t) ∨
  ∃ ecc, (ecc = false → ∀ r ∈ t.rows, r.isEcc = false) ∧
    ((ret ≠ .success ∧ t' = t.saveDial ecc) ∨
      ∃ report info, report.IsCarried ∧ report.index = 0 ∧ report.state = .dialing ∧
        report.accountId = slotId ∧ info.phoneNum = number ∧
        DialEntered env (t.saveDial ecc) t' report info ret)

/-- The same, of a dial that was classified as `ecc`. -/
def DialSettled (env : Env) (t t' : CallTable) (slotId : Int) (number : Bytes) (ecc : Bool)
    (ret : RetCode) : Prop :=
  (ret ≠ .success ∧ t' = t) ∨
    (ecc = false → ∀ r ∈ t.rows, r.isEcc = false) ∧
      ((ret ≠ .success ∧ t' = t.saveDial ecc) ∨
        ∃ report info, report.IsCarried ∧ report.index = 0 ∧ report.state = .dialing ∧
          report.accountId = slotId ∧ info.phoneNum = number ∧
          DialEntered env (t.saveDial ecc) t' report info ret)

theorem DialSettled.outcome {t t' : CallTable} {slotId : Int} {number : Bytes} {ecc : Bool}
    {ret : RetCode} (h : DialSettled env t t' slotId number ecc ret) :
    DialOutcome env t t' slotId number ret :=
  h.imp id fun h => ⟨ecc, h⟩

/-- What `IsEmergencyPhoneNumber` says of a number that is dialed. -/
def isEmergencyNumber (env : Env) (s : CallManager) (number : Bytes) (slotId : Int) : Bool :=
  env.answer s.log (.isEmergencyPhoneNumber number slotId)

/-- The saved dial of a `DialCall`. -/
theorem packageDialInformation_post (s : CallManager) (extras : DialExtras) (number : Bytes)
    (isEcc : Bool) :
    Post (CallControlManager.packageDialInformation extras number isEcc) s fun _ s' =>
      s'.table = s.table.saveDial isEcc ∧ s'.callDetailsInfo = s.callDetailsInfo ∧
        s'.helper = s.helper ∧ s'.dialSrcInfo.index = s.dialSrcInfo.index ∧
        s'.dialSrcInfo.number = number ∧ s'.dialSrcInfo.isDialing = true ∧
        s'.dialSrcInfo.dialType = DialType.ofInt extras.dialType ∧
        s'.dialSrcInfo.callType = CallType.ofInt extras.callType ∧
        s'.dialSrcInfo.accountId = extras.accountId :=
  ⟨rfl, rfl, rfl, rfl, rfl, rfl, rfl, rfl, rfl⟩

@[simp] theorem setCallTypeExtras_dialType (extras : DialExtras) :
    (setCallTypeExtras extras).dialType = extras.dialType := by
  unfold setCallTypeExtras
  dsimp only
  split_ifs <;> rfl

@[simp] theorem setCallTypeExtras_accountId (extras : DialExtras) :
    (setCallTypeExtras extras).accountId = extras.accountId := by
  unfold setCallTypeExtras
  dsimp only
  split_ifs <;> rfl

/-- A video dial becomes an IMS dial; either way the call type stays a carrier's. -/
theorem setCallTypeExtras_callType {extras : DialExtras}
    (h : CallType.ofInt extras.callType = .cs ∨ CallType.ofInt extras.callType = .ims) :
    CallType.ofInt (setCallTypeExtras extras).callType = .cs ∨
      CallType.ofInt (setCallTypeExtras extras).callType = .ims := by
  unfold setCallTypeExtras
  dsimp only
  split_ifs
  all_goals first | exact h | exact .inr rfl

/-- `DialRequest`, on a saved carrier dial. -/
theorem dialRequest_post (env : Env) {Q : RetCode → CallManager → Prop}
    (hd : s.dialSrcInfo.isDialing = true)
    (hn : s.dialSrcInfo.number.length ≤ kMaxNumberLen)
    (ht : s.dialSrcInfo.dialType = .carrier ∨ s.dialSrcInfo.dialType = .voiceMail)
    (hQ : Post (carrierDialProcess env s.dialSrcInfo) s Q) : Post (dialRequest env) s Q := by
  refine Post.congr ?_ hQ
  simp [dialRequest, hd, Nat.not_lt.mpr hn, ht]

/-- What the state keeps over a dial. -/
structure DialKept (s s' : CallManager) : Prop where
  callDetailsInfo : s'.callDetailsInfo = s.callDetailsInfo
  dialing : s'.helper.isDialingCallProcessing = false
  index : s'.dialSrcInfo.index = 0

/-- `DialCall`, with a legal number. -/
theorem dialLegalNumber_settles (env : Env) (h : s.table.Inv)
    (hflag : s.helper.isDialingCallProcessing = false) (hindex : s.dialSrcInfo.index = 0)
    {number : Bytes} (hn : (removeSeparatorsPhoneNumber number).length ≤ kMaxNumberLen)
    (extras : DialExtras) :
    Post (CallControlManager.dialLegalNumber env number extras) s fun ret s' =>
      DialKept s s' ∧ DialSettled env s.table s'.table (dialSlot extras)
        (removeSeparatorsPhoneNumber number)
        (isEmergencyNumber env s (removeSeparatorsPhoneNumber number) extras.accountId) ret := by
  have hkept : ∀ {s'}, Quiet s s' → DialKept s s' := fun hq =>
    ⟨hq.callDetailsInfo, hq.dialing hflag, by rw [hq.dialSrcInfo, hindex]⟩
  refine Post.bind (Q := fun ecc s₁ => ecc = isEmergencyNumber env s
    (removeSeparatorsPhoneNumber number) extras.accountId ∧ Quiet s s₁) ⟨rfl, Moves.rel s⟩ ?_
  rintro isEcc s₁ ⟨hclass, hq₁⟩
  rw [← hclass]
  refine Post.bind (canDial_post env s₁ _ isEcc) ?_
  rintro policy s₂ ⟨hq₂, hallowed⟩
  have hq : Quiet s s₂ := hq₁.trans hq₂
  refine Post.ite (fun hne => Post.pure ⟨hkept hq, .inl ⟨hne, hq.table⟩⟩) fun hs => ?_
  obtain ⟨hslot, hallowed⟩ := hallowed (not_not.mp hs)
  refine Post.bind_gets (Post.ite
    (fun _ => Post.pure ⟨hkept hq, .inl ⟨by decide, hq.table⟩⟩) fun _ => ?_)
  refine Post.bind (packageDialInformation_post s₂ _ _ _) ?_
  rintro _ s₃ ⟨ht₃, hc₃, hh₃, hi₃, hnum₃, hd₃, hdt₃, hct₃, hacc₃⟩
  have hecc : isEcc = false → ∀ r ∈ s.table.rows, r.isEcc = false := by
    intro he
    rw [← hq₁.table]
    exact hasEmergencyCall_eq_false (hallowed.noEcc he)
  have ht₃' : s₃.table = s.table.saveDial isEcc := by rw [ht₃, hq.table]
  have hn₃ : s₃.dialSrcInfo.number.length ≤ kMaxNumberLen := by rw [hnum₃]; exact hn
  have hflag₃ : s₃.helper.isDialingCallProcessing = false := by rw [hh₃]; exact hq.dialing hflag
  have hindex₃ : s₃.dialSrcInfo.index = 0 := by rw [hi₃, hq.dialSrcInfo, hindex]
  have hct : s₃.dialSrcInfo.callType = .cs ∨ s₃.dialSrcInfo.callType = .ims := by
    rw [hct₃]
    exact setCallTypeExtras_callType hallowed.callType
  have hdt : s₃.dialSrcInfo.dialType = .carrier ∨ s₃.dialSrcInfo.dialType = .voiceMail := by
    rw [hdt₃, setCallTypeExtras_dialType]
    exact hallowed.dialType
  refine dialRequest_post env hd₃ hn₃ hdt (Post.mono
    (carrierDialProcess_post env (ht₃' ▸ h.saveDial hecc) hflag₃ hct hindex₃ hn₃) ?_)
  rintro ret s₄ ⟨hf₄, s₅, -, hout⟩
  refine ⟨⟨hf₄.callDetailsInfo.trans (hc₃.trans hq.callDetailsInfo), hf₄.dialing,
    by rw [hf₄.dialSrcInfo, hindex₃]⟩, .inr ⟨hecc, ?_⟩⟩
  rw [← ht₃']
  split at hout
  · refine .inr ⟨_, _, ⟨hct, ?_⟩, hindex₃, rfl, ?_, hnum₃, hout⟩
    · exact Nat.le_trans (List.length_filter_le _ _) hn₃
    · change s₃.dialSrcInfo.accountId = _
      rw [hacc₃, setCallTypeExtras_accountId, hslot]
      cases isEcc
      · rfl
      · exact dialSlot_dialScene _ _
  · exact .inl hout

theorem dialLegalNumber_post (env : Env) (h : s.table.Inv)
    (hflag : s.helper.isDialingCallProcessing = false) (hindex : s.dialSrcInfo.index = 0)
    {number : Bytes} (hn : (removeSeparatorsPhoneNumber number).length ≤ kMaxNumberLen)
    (extras : DialExtras) :
    Post (CallControlManager.dialLegalNumber env number extras) s fun ret s' =>
      DialKept s s' ∧ DialOutcome env s.table s'.table (dialSlot extras)
        (removeSeparatorsPhoneNumber number) ret :=
  Post.mono (dialLegalNumber_settles env h hflag hindex hn extras) fun _ _ hs' =>
    ⟨hs'.1, hs'.2.outcome⟩

/-- `CallControlManager::DialCall`. -/
theorem dialCall_post (env : Env) (h : s.table.Inv)
    (hflag : s.helper.isDialingCallProcessing = false) (hindex : s.dialSrcInfo.index = 0)
    (number : List UInt16) (extras : DialExtras) :
    Post (CallControlManager.dialCall env number extras) s fun ret s' =>
      DialKept s s' ∧ ∃ dialed, DialOutcome env s.table s'.table (dialSlot extras) dialed ret := by
  unfold CallControlManager.dialCall
  cases hlegal : numberLegalityCheck (str16ToStr8 number) with
  | error ret =>
    refine Post.pure ⟨⟨rfl, hflag, hindex⟩, [], .inl ⟨?_, rfl⟩⟩
    rintro rfl
    unfold numberLegalityCheck at hlegal
    split_ifs at hlegal <;> simp at hlegal
  | ok accountNumber =>
    exact Post.mono (dialLegalNumber_post env h hflag hindex (length_removeSeparators_le hlegal) extras)
      fun _ _ hs' => ⟨hs'.1, _, hs'.2⟩

end CallManagerMini
