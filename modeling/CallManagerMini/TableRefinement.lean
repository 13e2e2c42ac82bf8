import Mathlib.Data.List.Find
import CallManagerMini.TableView

/-! # The report handlers compute the reports

Each handler of `CallStatusManager`, run from a state whose table satisfies the
invariant, returns the code of the report of the same name on the table, leaves
the table that report leaves, and touches nothing else the frame names
(`handleCallReportInfo_refines`).  A handler that goes on with an object goes on
with the one whose row the report goes on with.
-/

namespace CallManagerMini

open Prog (Post Moves)

variable {s : CallManager} {env : Env} {info : CallDetailInfo} {p : Ref}

/-- If the table has the id of a row at all, it has this row. -/
def CallTable.Only (t : CallTable) (r : Row) : Prop := ∀ q ∈ t.rows, q.callId = r.callId → q = r

theorem CallTable.Holds.toOnly {t : CallTable} {r : Row} (h : t.Holds r) : t.Only r := h.only

/-- A changed row is still the only one of its id. -/
theorem CallTable.Only.update {t : CallTable} {r : Row} (h : t.Only r) {f : Row → Row}
    (hf : ∀ q, (f q).callId = q.callId) : (t.update r.callId f).Only (f r) := by
  intro q hq hid
  obtain ⟨a, ha, rfl⟩ := Keyed.mem_update.mp hq
  rw [hf] at hid
  by_cases hk : a.callId = r.callId
  · rw [if_pos hk, h a ha hk]
  · rw [if_neg hk] at hid
    exact absurd hid hk

/-- A newly admitted row is the only one of its id. -/
theorem CallTable.only_insert {t : CallTable} {r : Row} (hadm : t.admission r = .success) :
    (t.insert r).Only r := by
  intro q hq hid
  rcases List.mem_append.mp hq with hq | hq
  · have : (t.rows.any fun q => q.callId = r.callId) = true :=
      List.any_eq_true.mpr ⟨q, hq, by simpa using hid⟩
    simp [CallTable.admission, this] at hadm
  · exact List.mem_singleton.mp hq

/-! ## Objects -/

@[simp] theorem updateCall_updateCall (s : CallManager) (p : Ref) (f g : CallBase → CallBase) :
    (s.updateCall p f).updateCall p g = s.updateCall p fun c => g (f c) := by
  simp [CallManager.updateCall, CallManager.call]

@[simp] theorem call_updateCall_self (s : CallManager) (p : Ref) (f : CallBase → CallBase) :
    (s.updateCall p f).call p = f (s.call p) := by
  simp [CallManager.call, CallManager.updateCall]

theorem frame_updateCall (s : CallManager) (p : Ref) (f : CallBase → CallBase) :
    Frame s (s.updateCall p f) := ⟨rfl, rfl, id⟩

/-- Changing an object changes its row in the table. -/
theorem table_updateCall {f : CallBase → CallBase} {g : Row → Row} (h : s.table.Only (s.row p))
    (hf : (f (s.call p)).row p = g (s.row p)) :
    (s.updateCall p f).table = s.table.update (s.call p).callId g := by
  have hrows : (s.callObjectPtrList.map (s.updateCall p f).row) =
      (s.callObjectPtrList.map s.row).map fun r =>
        if r.callId = (s.call p).callId then g r else r := by
    rw [List.map_map]
    refine List.map_congr_left fun q hq => ?_
    by_cases hqp : q = p
    · subst hqp
      simp [row_updateCall_self, hf]
    · have hne : (s.call q).callId ≠ (s.call p).callId := fun hid =>
        hqp (s.row_injective (h _ (s.row_mem_table hq) hid))
      simp [row_updateCall_ne s p q f hqp, hne]
  exact congrArg (fun rows => { s.table with rows := rows }) hrows

/-- Changing an object that is not listed leaves the table alone. -/
theorem table_updateCall_of_not_mem {f : CallBase → CallBase} (hp : p ∉ s.callObjectPtrList) :
    (s.updateCall p f).table = s.table := by
  have hrows : s.callObjectPtrList.map (s.updateCall p f).row = s.callObjectPtrList.map s.row :=
    List.map_congr_left fun q hq => row_updateCall_ne s p q f fun hqp => hp (hqp ▸ hq)
  exact congrArg (fun rows => { s.table with rows := rows }) hrows

/-- The listed objects were handed out. -/
theorem CallTable.Inv.lt_next (h : s.table.Inv) (hp : p ∈ s.callObjectPtrList) : p < s.calls.next :=
  (h.ok _ (s.row_mem_table hp)).obj_lt

/-! ## Lookups -/

theorem findCall_map {f : CallBase → Bool} {g : Row → Bool}
    (h : ∀ p ∈ s.callObjectPtrList, f (s.call p) = g (s.row p)) :
    (s.findCall f).map s.row = s.table.rows.find? g := by
  unfold CallManager.findCall CallManager.table
  rw [List.find?_map]
  congr 1
  exact List.find?_congr h

theorem mem_of_findCall {f : CallBase → Bool} (h : s.findCall f = some p) :
    p ∈ s.callObjectPtrList := List.mem_of_find?_eq_some h

theorem mem_of_findLastCall {f : CallBase → Bool} (h : s.findLastCall f = some p) :
    p ∈ s.callObjectPtrList := List.mem_reverse.mp (List.mem_of_find?_eq_some h)

theorem CallTable.Inv.carrier (h : s.table.Inv) (hp : p ∈ s.callObjectPtrList) :
    (s.call p).callType = .cs ∨ (s.call p).callType = .ims :=
  (h.ok _ (s.row_mem_table hp)).carrier

theorem callAt_eq (h : s.table.Inv) (index slotId : Int) :
    (getOneCallObjectByIndexSlotIdAndCallType s index slotId).map s.row =
      s.table.callAt index slotId := by
  refine findCall_map fun p hp => ?_
  rcases h.carrier hp with ht | ht <;> simp [ht, CallManager.row, CallBase.row]

theorem pending_eq (h : s.table.Inv) :
    (getOneCallObjectByIndex s initIndex).map s.row = s.table.pending := by
  refine findCall_map fun p hp => ?_
  rcases h.carrier hp with ht | ht <;> simp [ht, CallManager.row, CallBase.row, initIndex] <;> rfl

/-! ## Setting a state -/

/-- A state whose entry `SetTelCallState` performs. -/
def TelCallState.IsEntered (st : TelCallState) : Prop := st.IsLive ∨ st = .disconnected

/-- If the object is in the state `next` already, its running state says so too, or
`SetTelCallState` does not look at it. -/
def CallBase.ReadyFor (next : TelCallState) (c : CallBase) : Prop :=
  c.callState = next →
    c.callRunningState = .create ∨ next = .dialing ∨ c.callRunningState = runningOf next

theorem CallBase.readyFor_of_settled {c : CallBase}
    (h : c.callRunningState = runningOf c.callState) (next : TelCallState) : c.ReadyFor next :=
  fun heq => .inr (.inr (heq ▸ h))

/-- What `SetTelCallState` does to the row of an object. -/
theorem row_setTelCallState {c : CallBase} {next : TelCallState} (hn : next.IsEntered) (now : Int)
    (hc : c.ReadyFor next) :
    ((c.setTelCallState now next).2).row p = (c.row p).setState next := by
  unfold CallBase.setTelCallState
  split
  · next hnew =>
    obtain ⟨h1, h2, h3⟩ := hnew
    have hrun : c.callRunningState = runningOf next := (hc h2).resolve_left h1 |>.resolve_left h3
    simp [CallBase.row, Row.setState, h2, hrun]
  · rcases hn with (hn | hn | hn | hn | hn | hn | hn) | hn <;> subst hn <;>
      simp only [CallBase.stateChangesTo, CallBase.stateChangesToActive,
        CallBase.stateChangesToHolding, CallBase.stateChangesToDialing,
        CallBase.stateChangesToAlerting, CallBase.stateChangesToIncoming,
        CallBase.stateChangesToWaiting, CallBase.stateChangesToDisconnecting,
        CallBase.stateChangesToDisconnected] <;> (repeat' split) <;> rfl

theorem setTelCallState_code (c : CallBase) (now : Int) (next : TelCallState) :
    (c.setTelCallState now next).1 = .success ∨
      (c.setTelCallState now next).1 = .callErrNotNewState := by
  unfold CallBase.setTelCallState
  split <;> simp

theorem setTelCallState_post (env : Env) (p : Ref) (next : TelCallState) (s : CallManager) :
    Post (setTelCallState env p next) s fun ret s' =>
      (ret = .success ∨ ret = .callErrNotNewState) ∧
        s' = s.updateCall p fun c => (c.setTelCallState (env.time s.log) next).2 :=
  ⟨setTelCallState_code _ _ _, rfl⟩

/-- The state written a second time, through the table, is the state it already has. -/
theorem updateOneCallObjectByCallId_post (env : Env) {callId : Int} {next : TelCallState}
    (hn : next.IsEntered)
    (hset : ∀ p ∈ s.callObjectPtrList, (s.row p).callId = callId →
      (s.row p).setState next = s.row p) :
    Post (updateOneCallObjectByCallId env callId next) s fun _ s' => Quiet s s' := by
  refine Post.forEach
    (P := fun s' => ∀ p ∈ s.callObjectPtrList, (s'.row p).callId = callId →
      (s'.row p).setState next = s'.row p)
    (fun hP hq p hp hid => by rw [hq.row p] at hid ⊢; exact hP p hp hid) (fun p hp s' hP => ?_) hset
  refine Post.bind_gets (Post.when (fun hid => Post.ignore ?_) (fun _ => Quiet.refl s'))
  have hself := hP p hp hid
  have hsettled : (s'.call p).callRunningState = runningOf (s'.call p).callState := by
    have h1 : next = (s'.call p).callState := congrArg Row.callState hself
    have h2 : runningOf next = (s'.call p).callRunningState := congrArg Row.callRunningState hself
    rw [← h1, h2]
  show Quiet s' (s'.updateCall p fun c => (c.setTelCallState (env.time s'.log) next).2)
  exact quiet_updateCall
    ((row_setTelCallState hn _ (CallBase.readyFor_of_settled hsettled next)).trans hself)

theorem history_logged_stateChange (s : CallManager) (c : CallBase) (prior : TelCallState)
    {next : TelCallState} (hn : next ≠ .answered) :
    (s.logged (.callStateUpdated c prior next)).history =
      s.history ++ CallTable.stateChange c.callId prior next := by
  unfold CallManager.history CallManager.logged CallTable.stateChange
  by_cases h : prior = next <;> simp [Event.mark, h, hn]

theorem table_logged (s : CallManager) (e : Event) :
    (s.logged e).table = { s.table with history := (s.logged e).history } := rfl

/-- What holds after an object announced its state. -/
structure Announced (s s' : CallManager) (p : Ref) (next : TelCallState) : Prop
    extends Frame s s' where
  table : s'.table = s.table.announce (s.row p) next
  row : s'.row p = (s.row p).setState next
  other : ∀ q, q ≠ p → s'.row q = s.row q
  list : s'.callObjectPtrList = s.callObjectPtrList

/-- `UpdateCallState` announces the state. -/
theorem updateCallState_post (env : Env) {next : TelCallState} (hp : s.table.Only (s.row p))
    (hn : next.IsEntered)
    (hc : (s.call p).ReadyFor next) :
    Post (updateCallState env p next) s fun ret s' => ret = .success ∧ Announced s s' p next := by
  have hna : next ≠ .answered := by
    rintro rfl
    rcases hn with hn | hn
    · exact absurd hn (by decide)
    · cases hn
  refine Post.bind_gets ?_
  have hrow := row_setTelCallState (p := p) hn (env.time s.log) hc
  -- the first write
  refine Post.bind (setTelCallState_post env p next s) ?_
  rintro ret s₁ ⟨hret, hs₁⟩
  have hfr : Frame s s₁ := hs₁ ▸ frame_updateCall _ _ _
  have htab : s₁.table = s.table.update (s.call p).callId (Row.setState next) :=
    hs₁ ▸ table_updateCall hp hrow
  have hrow₁ : s₁.row p = (s.row p).setState next :=
    hs₁ ▸ (row_updateCall_self _ _ _).trans hrow
  have hother : ∀ q, q ≠ p → s₁.row q = s.row q :=
    fun q hq => hs₁ ▸ row_updateCall_ne _ _ _ _ hq
  have hlist : s₁.callObjectPtrList = s.callObjectPtrList := hs₁ ▸ rfl
  have hhist : s₁.history = s.history := hs₁ ▸ rfl
  -- the second write finds the first
  have hset : ∀ q ∈ s₁.callObjectPtrList, (s₁.row q).callId = (s.call p).callId →
      (s₁.row q).setState next = s₁.row q := by
    intro q hq hid
    by_cases hqp : q = p
    · subst hqp
      rw [hrow₁]
      rfl
    · rw [hother q hqp] at hid
      exact absurd (s.row_injective (hp _ (s.row_mem_table (hlist ▸ hq)) hid)) hqp
  refine Post.bind (updateOneCallObjectByCallId_post env hn hset) fun _ s₂ (hq : Quiet s₁ s₂) => ?_
  have hret' : ¬(ret ≠ .success ∧ ret ≠ .callErrNotNewState) := by
    rcases hret with h | h <;> simp [h]
  rw [if_neg hret']
  -- the broadcast
  refine Post.bind (Q := fun _ s' => Announced s s' p next) ?_ fun _ s' h => ⟨rfl, h⟩
  refine Post.bind_gets (Post.bind_modify (Post.mono (Post.of_moves (R := Quiet) _ _) ?_))
  intro _ s' hq'
  have hq' : Quiet (s₂.logged (.callStateUpdated (s₂.call p) (s.call p).callState next)) s' := hq'
  have hid : (s₂.call p).callId = (s.call p).callId :=
    (congrArg Row.callId (hq.row p)).trans (congrArg Row.callId hrow₁)
  exact {
    toFrame := (hfr.trans hq.toFrame).trans ⟨hq'.dialSrcInfo, hq'.callDetailsInfo, hq'.dialing⟩
    table := by
      have h1 : s₂.table = s.table.update (s.call p).callId (Row.setState next) :=
        hq.table.trans htab
      have h2 := history_logged_stateChange s₂ (s₂.call p) (s.call p).callState hna
      rw [hq.history, hhist, hid] at h2
      rw [hq'.table, table_logged, h1, h2]
      rfl
    row := (hq'.row p).trans ((hq.row p).trans hrow₁)
    other := fun q hqp => (hq'.row q).trans ((hq.row q).trans (hother q hqp))
    list := hq'.list.trans (hq.list.trans hlist) }

/-- A listed call that announces the state it is in changes nothing. -/
theorem updateCallState_same (env : Env) (h : s.table.Inv) (hp : p ∈ s.callObjectPtrList) :
    Post (updateCallState env p (s.call p).callState) s fun _ s' => Quiet s s' := by
  have ok := h.ok _ (s.row_mem_table hp)
  have hself : (s.row p).setState (s.call p).callState = s.row p := ok.setState_self
  refine Post.mono (updateCallState_post env (h.holds (s.row_mem_table hp)).toOnly (.inl ok.live)
    (CallBase.readyFor_of_settled ok.running _)) ?_
  rintro _ s' ⟨-, ha⟩
  have htab : s'.table = s.table := by
    have hstate : (s.row p).callState = (s.call p).callState := rfl
    rw [ha.table, CallTable.announce_same hstate]
    exact h.update_eq_self (s.row_mem_table hp) hself
  exact {
    toFrame := ha.toFrame
    list := ha.list
    next := congrArg CallTable.nextObj htab
    callId := congrArg CallTable.lastCallId htab
    row := by
      intro q
      by_cases hq : q = p
      · rw [hq, ha.row, hself]
      · exact ha.other q hq
    history := congrArg CallTable.history htab }

/-! ## Objects enter and leave -/

/-- What holds after an object was created and nothing done with it yet. -/
structure Created (s s' : CallManager) (info : CallDetailInfo) (dir : CallDirection) : Prop
    extends Frame s s' where
  table : s'.table = s.table.created
  list : s'.callObjectPtrList = s.callObjectPtrList
  row : s'.row s.calls.next = s.table.newRow info dir
  call : ∀ p, p < s.calls.next → s'.call p = s.call p

/-- `CreateNewCall` makes an object for a carrier call. -/
theorem createNewCall_post (env : Env) (h : s.table.Inv) (hinfo : info.IsCarried)
    (dir : CallDirection) :
    Post (createNewCall env info dir) s fun created s' =>
      created = some s.calls.next ∧ Created s s' info dir := by
  have hct : ¬(info.callType ≠ .cs ∧ info.callType ≠ .ims) := by
    rcases hinfo.carrier with hc | hc <;> simp [hc]
  refine Post.bind (Q := fun para s₁ => s₁ = { s with callId := s.callId + 1 } ∧
    ∀ dialScene, (CallBase.ofParaInfo para.1 dir dialScene).row s.calls.next =
      s.table.newRow info dir) ⟨rfl, fun dialScene => ?_⟩ ?_
  · cases dir <;> rfl
  rintro para _ ⟨rfl, hpara⟩
  rw [if_neg hct]
  refine Post.bind_gets (Post.bind (Q := fun p s' => p = s.calls.next ∧ Created s s' info dir)
    ⟨rfl, ?_⟩ fun p s' hp => ⟨congrArg some hp.1, hp.2⟩)
  have hcall : ∀ (c : CallBase) (p : Ref), p < s.calls.next → (s.calls.alloc c).get p = s.call p :=
    fun c p hp => Heap.get_alloc_of_lt _ _ hp
  exact {
    dialSrcInfo := rfl
    callDetailsInfo := rfl
    dialing := id
    table := by
      refine congrArg (fun rows => { s.table.created with rows := rows }) ?_
      refine List.map_congr_left fun p hp => ?_
      exact congrArg (CallBase.row p) (hcall _ p (h.lt_next hp))
    list := rfl
    row := by
      refine Eq.trans (congrArg (CallBase.row _) (Heap.get_alloc_next _ _)) ?_
      exact hpara (DialScene.ofInt para.2.dialScene)
    call := hcall _ }

/-- `AddOneCallObject` admits the object's row. -/
theorem addOneCallObject_post (s : CallManager) (p : Ref) :
    Post (addOneCallObject p) s fun ret s' =>
      ret = s.table.admission (s.row p) ∧ s'.table = s.table.enter (s.row p) ∧
        s'.calls = s.calls ∧ Frame s s' ∧
        s'.callObjectPtrList =
          if ret = .success then s.callObjectPtrList ++ [p] else s.callObjectPtrList := by
  have hany : (s.anyCall fun c => c.callId = (s.call p).callId) =
      s.table.rows.any fun q => q.callId = (s.row p).callId := by
    simp only [CallManager.anyCall, CallManager.table, List.any_map]
    rfl
  have hlen : s.table.rows.length = s.callObjectPtrList.length := List.length_map _
  have hlim : callObjectLimit (s.call p).isEcc = CallTable.limit (s.row p).isEcc := rfl
  unfold Post addOneCallObject CallTable.enter CallTable.admission
  rw [hany, hlen, hlim]
  split
  · exact ⟨rfl, by simp, rfl, Frame.refl s, by simp⟩
  split
  · exact ⟨rfl, by simp, rfl, Frame.refl s, by simp⟩
  · refine ⟨rfl, ?_, rfl, ⟨rfl, rfl, id⟩, rfl⟩
    rw [if_pos rfl]
    simp [CallManager.table, CallTable.insert, CallManager.history, CallManager.logged, Event.mark,
      CallManager.row, CallBase.row, CallManager.call]

/-- `DeleteOneCallObject` removes the row. -/
theorem deleteOneCallObject_post (s : CallManager) (callId : Int) :
    Post (deleteOneCallObject callId) s fun _ s' =>
      s'.table = s.table.remove callId ∧ s'.calls = s.calls ∧ Frame s s' ∧
        s'.callObjectPtrList.Sublist s.callObjectPtrList := by
  refine ⟨?_, rfl, ⟨rfl, rfl, id⟩, List.eraseP_sublist⟩
  have : (s.callObjectPtrList.eraseP fun p => (s.call p).callId = callId).map s.row =
      Keyed.remove Row.callId callId (s.callObjectPtrList.map s.row) := by
    rw [Keyed.remove, List.eraseP_map]
    rfl
  exact congrArg (fun rows => { s.table with rows := rows }) this

/-! ## The refresh -/

/-- The object `q`, made for the report, has the id of the call `p`, which has left the list. -/
structure HandedOver (s s' : CallManager) (p q : Ref) (info : CallDetailInfo) : Prop
    extends Frame s s' where
  table : s'.table = s.table.created.remove (s.row p).callId
  new : s'.row q = s.table.replacement (s.row p) info
  old : s'.row p = s.row p

/-- The old object leaves the list, and the new one takes over its id. -/
theorem Created.handedOver {s₁ s₂ : CallManager} (h : s.table.Inv) (hp : p ∈ s.callObjectPtrList)
    (h₁ : Created s s₁ info (s.call p).direction)
    (ht₂ : s₂.table = s₁.table.remove (s.call p).callId) (hc₂ : s₂.calls = s₁.calls)
    (hf₂ : Frame s₁ s₂) (hl₂ : s₂.callObjectPtrList.Sublist s₁.callObjectPtrList) :
    HandedOver s (s₂.updateCall s.calls.next fun c => { c with callId := (s.call p).callId })
      p s.calls.next info := by
  have hqp : p ≠ s.calls.next := Nat.ne_of_lt (h.lt_next hp)
  have hql : s.calls.next ∉ s₂.callObjectPtrList := fun hmem =>
    Nat.lt_irrefl _ (h.lt_next ((h₁.list ▸ hl₂).subset hmem))
  have hrow₂ : s₂.row = s₁.row := by funext r; simp only [CallManager.row, CallManager.call, hc₂]
  refine { (h₁.toFrame.trans hf₂).trans (frame_updateCall _ _ _) with
    table := ?_, new := ?_, old := ?_ }
  · rw [table_updateCall_of_not_mem hql, ht₂, h₁.table]
    rfl
  · have hnew : s₂.row s.calls.next = s.table.newRow info (s.call p).direction := by
      rw [hrow₂, h₁.row]
    rw [row_updateCall_self]
    exact congrArg (fun r : Row => { r with callId := (s.call p).callId }) hnew
  · rw [row_updateCall_ne _ _ _ _ hqp, hrow₂]
    exact congrArg (CallBase.row p) (h₁.call p (h.lt_next hp))

/-- The new object takes over the state of the old one. -/
theorem takeOver_post (env : Env) {q : Ref} {c : CallBase} (honly : s.table.Only (s.row q))
    (hentered : c.callState.IsEntered) (hrun : c.callRunningState = runningOf c.callState) :
    Post (do
      modifyCall q (copyToRefreshed c)
      Prog.when (c.callType = .ims ∧ info.callType = .cs ∧ info.mpty = 1) <|
        Prog.modify fun s => { s with csConference := s.csConference.updateConferenceId c.callId }
      let _ ← setTelCallState env q c.callState
      modifyCall q fun c' => { c' with imsDomain := c.imsDomain }
      pure q : Prog CallManager Ref) s fun q' s' =>
        (s'.row q', s'.table) = ((s.row q).setState c.callState,
          s.table.update (s.row q).callId fun _ => (s.row q).setState c.callState) ∧
        Frame s s' := by
  refine Post.bind_modify (Post.bind (Q := fun _ s₁ =>
    Quiet (s.updateCall q (copyToRefreshed c)) s₁) ?_ ?_)
  · refine Post.when (fun _ => Post.modify ?_) (fun _ => Quiet.refl _)
    exact quiet_of_eq rfl rfl rfl rfl rfl rfl id
  intro _ s₁ hq₁
  -- the row of the new object before it takes over the state, and the table with it
  have hrow₁ : s₁.row q = { s.row q with callRunningState := c.callRunningState } :=
    (hq₁.row q).trans (row_updateCall_self _ _ _)
  have ht₁ : s₁.table = s.table.update (s.row q).callId fun r =>
      { r with callRunningState := c.callRunningState } := by
    rw [hq₁.table]
    exact table_updateCall honly rfl
  have honly₁ : s₁.table.Only (s₁.row q) := by
    rw [ht₁, hrow₁]
    exact honly.update (f := fun r => { r with callRunningState := c.callRunningState }) fun _ => rfl
  refine Post.bind (setTelCallState_post env q _ s₁) ?_
  rintro _ s₂ ⟨-, hs₂⟩
  have hset : ((s₁.call q).setTelCallState (env.time s₁.log) c.callState).2.row q =
      (s.row q).setState c.callState := by
    have hready : (s₁.call q).ReadyFor c.callState := fun _ =>
      .inr (.inr ((congrArg Row.callRunningState hrow₁).trans hrun))
    rw [row_setTelCallState hentered _ hready]
    change (s₁.row q).setState _ = _
    rw [hrow₁]
    rfl
  have hrow₂ : s₂.row q = (s.row q).setState c.callState := by
    rw [hs₂]
    exact (row_updateCall_self _ _ _).trans hset
  have ht₂ : s₂.table =
      s.table.update (s.row q).callId fun _ => (s.row q).setState c.callState := by
    have hid : (s₁.call q).callId = (s.row q).callId := congrArg Row.callId hrow₁
    rw [hs₂, table_updateCall honly₁ (g := fun _ => (s.row q).setState c.callState) hset, hid, ht₁]
    exact CallTable.update_update fun _ => rfl
  have hq₃ : Quiet s₂ (s₂.updateCall q fun c' => { c' with imsDomain := c.imsDomain }) :=
    quiet_updateCall rfl
  refine Post.bind_modify (Post.pure ⟨?_, ?_⟩)
  · rw [hq₃.row, hrow₂, hq₃.table, ht₂]
  · have hf₁ : Frame s s₁ := (frame_updateCall _ _ _).trans hq₁.toFrame
    have hf₂ : Frame s₁ s₂ := hs₂ ▸ frame_updateCall _ _ _
    exact (hf₁.trans hf₂).trans hq₃.toFrame

/-- `RefreshCall` replaces the call. -/
theorem refreshCall_post (env : Env) (h : s.table.Inv) (hp : p ∈ s.callObjectPtrList)
    (hinfo : info.IsCarried) :
    Post (refreshCall env p info) s fun q s' =>
      (s'.row q, s'.table) = s.table.replaceCall (s.row p) info ∧ Frame s s' := by
  refine Post.bind_gets (Post.bind (createNewCall_post env h hinfo _) ?_)
  rintro _ s₁ ⟨rfl, h₁⟩
  dsimp only
  refine Post.bind (deleteOneCallObject_post s₁ _) ?_
  rintro _ s₂ ⟨ht₂, hc₂, hf₂, hl₂⟩
  have h₃ := h₁.handedOver h hp ht₂ hc₂ hf₂ hl₂
  refine Post.bind_modify ?_
  generalize s₂.updateCall s.calls.next _ = s₃ at h₃ ⊢
  generalize s.calls.next = q at h₃ ⊢
  -- the new object is admitted, or the old one has to be
  refine Post.bind (addOneCallObject_post s₃ q) ?_
  rintro ret s₄ ⟨hret, ht₄, hc₄, hf₄, -⟩
  have hrow₄ : s₄.row = s₃.row := by funext r; simp only [CallManager.row, CallManager.call, hc₄]
  rw [h₃.new, h₃.table] at hret ht₄
  unfold CallTable.enter at ht₄
  refine Post.ite (fun hne => ?_) (fun heq => ?_)
  · have hadm : (s.table.created.remove (s.row p).callId).admission
        (s.table.replacement (s.row p) info) ≠ .success := fun hs => hne (hret.trans hs)
    rw [if_neg hadm] at ht₄
    refine Post.bind (addOneCallObject_post s₄ p) ?_
    rintro ret' s₅ ⟨-, ht₅, hc₅, hf₅, -⟩
    have hrow₅ : s₅.row p = s.row p := by
      have : s₅.row p = s₄.row p := by simp only [CallManager.row, CallManager.call, hc₅]
      rw [this, hrow₄, h₃.old]
    refine Post.pure ⟨?_, (h₃.toFrame.trans hf₄).trans hf₅⟩
    rw [hrow₅, ht₅, ht₄, hrow₄, h₃.old]
    simp only [CallTable.replaceCall, hadm, if_false]
  · have hadm : (s.table.created.remove (s.row p).callId).admission
        (s.table.replacement (s.row p) info) = .success := hret.symm.trans (not_not.mp heq)
    rw [if_pos hadm] at ht₄
    have hok := h.ok _ (s.row_mem_table hp)
    have honly : s₄.table.Only (s₄.row q) := by
      rw [hrow₄, h₃.new, ht₄]
      exact CallTable.only_insert hadm
    refine Post.mono (takeOver_post env honly (c := s.call p) (.inl hok.live) hok.running) ?_
    rintro q' s' ⟨hrows, hf⟩
    refine ⟨?_, (h₃.toFrame.trans hf₄).trans hf⟩
    have hrun : (s.row p).callRunningState = runningOf (s.row p).callState := hok.running
    rw [hrows, hrow₄, h₃.new, ht₄]
    simp only [CallTable.replaceCall, hadm, if_true, hrun]
    rfl

/-- What `RefreshCallIfNecessary` changes before it looks at the call type. -/
theorem refreshCallIfNecessary_eq (env : Env) (p : Ref) (info : CallDetailInfo) (s : CallManager) :
    ∃ f : CallBase → CallBase,
      (f (s.call p)).row p = (s.row p).restyle info ∧
      (f (s.call p)).isIMSCall = (s.call p).isIMSCall ∧
      refreshCallIfNecessary env p info s =
        (if (s.call p).callType = info.callType then pure p else refreshCall env p info)
          (s.updateCall p f) := by
  refine ⟨fun c =>
    let c := { c with newCallUseBox := info.newCallUseBox }
    let c := if c.callType = .ims then { c with videoState := info.callMode } else c
    let c := { c with imsDomain := info.imsDomain }
    if c.callType = .ims then { c with crsType := info.crsType } else c, ?_, ?_, ?_⟩
  · simp only [CallManager.row, CallBase.row, Row.restyle]
    by_cases hc : (s.call p).callType = .ims <;> simp [hc]
  · dsimp only
    split_ifs <;> rfl
  · simp only [refreshCallIfNecessary, modifyCall, getCall, Prog.bind_apply, Prog.modify_apply,
      Prog.gets_apply, updateCall_updateCall, call_updateCall_self]
    by_cases hc : (s.call p).callType = .ims <;> simp [hc]

/-- `RefreshCallIfNecessary` refreshes the call. -/
theorem refreshCallIfNecessary_post (env : Env) (h : s.table.Inv) (hp : p ∈ s.callObjectPtrList)
    (hinfo : info.IsCarried) :
    Post (refreshCallIfNecessary env p info) s fun q s' =>
      (s'.row q, s'.table) = s.table.refresh (s.row p) info ∧ Frame s s' := by
  obtain ⟨f, hrow, -, heq⟩ := refreshCallIfNecessary_eq env p info s
  have honly : s.table.Only (s.row p) := (h.holds (s.row_mem_table hp)).toOnly
  have ht₁ : (s.updateCall p f).table = s.table.update (s.row p).callId (Row.restyle info) :=
    table_updateCall honly hrow
  have hrow₁ : (s.updateCall p f).row p = (s.row p).restyle info :=
    (row_updateCall_self s p f).trans hrow
  have hf₁ : Frame s (s.updateCall p f) := frame_updateCall s p f
  unfold Post
  rw [heq]
  set s₁ := s.updateCall p f
  change Post _ s₁ fun q s' => (s'.row q, s'.table) = _ ∧ Frame s s'
  refine Post.ite (fun ht => Post.pure ⟨?_, hf₁⟩) (fun ht => ?_)
  · rw [hrow₁, ht₁, CallTable.refresh_same ht]
  · have h₁ : s₁.table.Inv := ht₁ ▸ h.restyle _ info
    refine Post.mono (refreshCall_post env h₁ hp hinfo) ?_
    rintro q s' ⟨hs', hf'⟩
    refine ⟨?_, hf₁.trans hf'⟩
    have hne : ¬((s.row p).restyle info).callType = info.callType := by simpa using ht
    rw [hs', CallTable.refresh, if_neg hne, hrow₁, ht₁]

end CallManagerMini
