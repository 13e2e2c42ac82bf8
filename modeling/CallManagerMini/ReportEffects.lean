import CallManagerMini.CallTablePlaces
import CallManagerMini.MainLoopRefinement

/-! # What a report that succeeds has done

A report with an index that returns success leaves its call at its place in the
reported state, with two exceptions (`Overlooks`): a refresh that loses the call,
and an `INCOMING` or `WAITING` report that differs from its call in the state only.
-/

namespace CallManagerMini

open Prog (Post Moves)

variable {s : CallManager} {env : Env} {info : CallDetailInfo} {p : Ref}

/-- The states whose reports are said to take effect. -/
def TelCallState.IsReported (st : TelCallState) : Prop :=
  st = .active ∨ st = .holding ∨ st = .alerting ∨ st = .incoming ∨ st = .waiting ∨
    st = .disconnecting ∨ st = .disconnected

instance (st : TelCallState) : Decidable st.IsReported := by
  unfold TelCallState.IsReported; infer_instance

namespace CallTable

variable {t : CallTable} {r : Row}

/-- Some call is at the place, in the state. -/
def At (t : CallTable) (slotId index : Int) (st : TelCallState) : Prop :=
  ∃ r ∈ t.rows, r.slotId = slotId ∧ r.index = index ∧ r.callState = st

theorem At.occupied {slotId index : Int} {st : TelCallState} (h : t.At slotId index st) :
    t.Occupied slotId index :=
  let ⟨r, hr, hs, hi, _⟩ := h
  ⟨r, hr, hs, hi⟩

/-- The call of a report survives its refresh, at its place. -/
theorem refresh_mem (h : t.Inv) (hr : t.callAt info.index info.accountId = some r)
    (hkept : r.callType = info.callType ∨ t.Room r) :
    (t.refresh r info).1 ∈ (t.refresh r info).2.rows ∧
      (t.refresh r info).1.slotId = info.accountId ∧ (t.refresh r info).1.index = info.index := by
  obtain ⟨hmem, hs, hi⟩ := callAt_eq_some hr
  refine ⟨mem_refresh h hmem hkept, ?_⟩
  refine refresh_cases h hmem info ?_ ?_ ?_
  · exact fun _ => ⟨by simp [hs], by simp [hi]⟩
  · exact fun _ _ _ => ⟨rfl, rfl⟩
  · exact fun ht hroom => absurd hkept (not_or.mpr ⟨ht, hroom⟩)

/-- A call that is lost in its refresh leaves its place free. -/
theorem refresh_frees (h : t.Inv) (hpos : 0 < info.index)
    (hr : t.callAt info.index info.accountId = some r)
    (hlost : ¬(r.callType = info.callType ∨ t.Room r)) :
    ¬(t.refresh r info).2.Occupied info.accountId info.index := by
  obtain ⟨ht, hroom⟩ := not_or.mp hlost
  rw [refresh_lost h (callAt_eq_some hr).1 ht hroom]
  rintro ⟨q, hq, hs, hi⟩
  obtain ⟨hq, hne⟩ := h.created.mem_remove.mp hq
  exact hne (h.fits hr q hq hpos hs hi)

theorem announce_at (hr : r ∈ t.rows) (next : TelCallState) :
    (t.announce r next).At r.slotId r.index next :=
  ⟨r.setState next, Keyed.mem_update.mpr ⟨r, hr, if_pos rfl⟩, rfl, rfl, rfl⟩

theorem occupied_of_announce {next : TelCallState} {slotId index : Int}
    (ho : (t.announce r next).Occupied slotId index) : t.Occupied slotId index := by
  obtain ⟨q, hq, hs, hi⟩ := ho
  obtain ⟨a, ha, rfl⟩ := Keyed.mem_update.mp hq
  refine ⟨a, ha, ?_⟩
  split at hs <;> simp_all [Row.setState]

/-- A report that moves its call has moved it, unless the refresh lost it. -/
theorem moveTo_at_iff (h : t.Inv) (hpos : 0 < info.index)
    (hr : t.callAt info.index info.accountId = some r) (next : TelCallState) :
    (t.moveTo next info r).2.At info.accountId info.index next ↔
      (r.callType = info.callType ∨ t.Room r) := by
  constructor
  · intro hat
    by_contra hlost
    exact refresh_frees h hpos hr hlost (occupied_of_announce hat.occupied)
  · intro hkept
    obtain ⟨hmem, hs, hi⟩ := refresh_mem h hr hkept
    have := announce_at hmem next
    rwa [hs, hi] at this

/-! ## The call made of a pending dial -/

/-- A dialed call that takes a free place has the type of its report. -/
theorem dialing_callType (h : t.Inv)
    (hnone : t.callAt info.index info.accountId = none)
    (hr : (t.dialing info).2.callAt info.index info.accountId = some r) :
    r.callType = info.callType := by
  obtain ⟨hmem, hs, hi⟩ := callAt_eq_some hr
  have hfree : ∀ q ∈ t.rows, ¬(q.slotId = info.accountId ∧ q.index = info.index) :=
    callAt_eq_none hnone
  unfold dialing at hmem
  split at hmem
  · next hupdate =>
    unfold updateDialing adopt at hmem
    simp only [hnone] at hmem
    split at hmem
    · exact absurd ⟨hs, hi⟩ (hfree r hmem)
    · next q hq =>
      have hfit : t.Fits q { info with state := .dialing } := fits_of_none hnone
      have hfit := hfit.refresh h (pending_eq_some hq).1
      obtain ⟨a, ha, rfl⟩ := Keyed.mem_update.mp hmem
      by_cases hid : a.callId = (t.refresh q { info with state := .dialing }).1.callId
      · rw [if_pos hid]
        rfl
      · rw [if_neg hid] at hs hi
        exact absurd (hfit a ha hupdate.1 hs hi) hid
  · unfold addDialing at hmem
    dsimp only at hmem
    split at hmem
    · next hadm =>
      rw [insert_update hadm] at hmem
      rcases List.mem_append.mp hmem with hmem | hmem
      · exact absurd ⟨hs, hi⟩ (hfree r hmem)
      · rw [List.mem_singleton.mp hmem]
        rfl
    · exact absurd ⟨hs, hi⟩ (hfree r hmem)

/-- A report that finds its call only after a pending dial became it has the type of
the call. -/
theorem reported_callType (h : t.Inv)
    (hnone : t.callAt info.index info.accountId = none) (hr : (t.reported info).1 = some r) :
    r.callType = info.callType := by
  unfold reported at hr
  rw [hnone] at hr
  dsimp only at hr
  split at hr
  · exact dialing_callType h hnone hr
  · cases hr

/-! ## When a report takes effect -/

/-- If the report succeeded, it took effect. -/
def TakesEffect (info : CallDetailInfo) (x : RetCode × CallTable) : Prop :=
  x.1 = .success →
    if info.state = .disconnected then ¬x.2.Occupied info.accountId info.index
    else x.2.At info.accountId info.index info.state

theorem takesEffect_of_ne {ret : RetCode} (h : ret ≠ .success) : TakesEffect info (ret, t) :=
  fun hs => absurd hs h

/-- A report that moves its call, by whether the refresh keeps the call. -/
theorem moveTo_takesEffect_iff (h : t.Inv) (hpos : 0 < info.index)
    (hr : t.callAt info.index info.accountId = some r) {next : TelCallState}
    (hst : info.state = next) (hne : next ≠ .disconnected) :
    TakesEffect info (t.moveTo next info r) ↔ (r.callType = info.callType ∨ t.Room r) := by
  rw [← moveTo_at_iff h hpos hr next]
  simp only [TakesEffect, hst, if_neg hne]
  exact ⟨fun hs => hs rfl, fun hs _ => hs⟩

theorem moveKnown_takesEffect_iff (h : t.Inv) (hpos : 0 < info.index) {next : TelCallState}
    (hst : info.state = next) (hne : next ≠ .disconnected) :
    TakesEffect info (t.moveKnown next info) ↔
      ∀ r, t.callAt info.index info.accountId = some r →
        (r.callType = info.callType ∨ t.Room r) := by
  unfold moveKnown
  cases hr : t.callAt info.index info.accountId with
  | none => exact iff_of_true (takesEffect_of_ne (by decide)) fun r hr => by cases hr
  | some r => simpa using moveTo_takesEffect_iff h hpos hr hst hne

theorem active_takesEffect_iff (h : t.Inv) (hinfo : info.IsCarried) (hpos : 0 < info.index)
    (hst : info.state = .active) :
    TakesEffect info (t.active info) ↔
      ∀ r, t.callAt info.index info.accountId = some r →
        (r.callType = info.callType ∨ t.Room r) := by
  cases hr : t.callAt info.index info.accountId with
  | some r =>
    have hrep : t.active info = t.moveTo .active info r := by simp only [active, reported, hr]
    rw [hrep, moveTo_takesEffect_iff h hpos hr hst (by decide)]
    simp
  | none =>
    refine iff_of_true ?_ fun r hr => by cases hr
    have htype := fun r => reported_callType (r := r) h hr
    have hat := fun r => @reported_eq_some t r info
    have hinv := h.reported hinfo
    unfold active
    cases hx : t.reported info with
    | mk found t' =>
      rw [hx] at htype hat hinv
      cases found with
      | none => exact takesEffect_of_ne (by decide)
      | some r =>
        exact (moveTo_takesEffect_iff hinv hpos (hat r rfl) hst (by decide)).mpr
          (.inl (htype r rfl))

theorem alerting_takesEffect_iff (h : t.Inv) (hinfo : info.IsCarried) (hpos : 0 < info.index)
    (hst : info.state = .alerting) :
    TakesEffect info (t.alerting info) ↔
      ∀ r, t.callAt info.index info.accountId = some r →
        (r.callState = .disconnecting ∨ r.callType = info.callType ∨ t.Room r) := by
  cases hr : t.callAt info.index info.accountId with
  | some r =>
    have hrep : t.alerting info =
        if r.callState = .disconnecting then (.callErrCallStateMismatchOperation, t)
        else t.moveTo .alerting info r := by simp only [alerting, reported, hr]
    rw [hrep]
    by_cases hd : r.callState = .disconnecting
    · rw [if_pos hd]
      exact iff_of_true (takesEffect_of_ne (by decide)) fun q hq => .inl (by cases hq; exact hd)
    · rw [if_neg hd, moveTo_takesEffect_iff h hpos hr hst (by decide)]
      simp [hd]
  | none =>
    refine iff_of_true ?_ fun r hr => by cases hr
    have htype := fun r => reported_callType (r := r) h hr
    have hat := fun r => @reported_eq_some t r info
    have hinv := h.reported hinfo
    unfold alerting
    cases hx : t.reported info with
    | mk found t' =>
      rw [hx] at htype hat hinv
      cases found with
      | none => exact takesEffect_of_ne (by decide)
      | some r =>
        dsimp only
        split
        · exact takesEffect_of_ne (by decide)
        · exact (moveTo_takesEffect_iff hinv hpos (hat r rfl) hst (by decide)).mpr
            (.inl (htype r rfl))

/-- An `INCOMING` or `WAITING` report about a call of the table. -/
theorem oldIncoming_at_iff (h : t.Inv) (hpos : 0 < info.index)
    (hr : t.callAt info.index info.accountId = some r) :
    (t.oldIncoming info r).At info.accountId info.index info.state ↔
      (r.callType = info.callType ∨ t.Room r) ∧
        (r.callType = info.callType → r.videoState = info.callMode → r.callState = info.state) := by
  obtain ⟨hmem, hs, hi⟩ := callAt_eq_some hr
  unfold oldIncoming
  dsimp only
  by_cases hstyle : r.callType ≠ info.callType ∨ r.videoState ≠ info.callMode
  · rw [if_pos (by tauto), if_pos hstyle]
    refine (moveTo_at_iff h hpos hr info.state).trans ⟨fun hk => ⟨hk, ?_⟩, fun hk => hk.1⟩
    exact fun ht hv => absurd hstyle (by simp [ht, hv])
  · obtain ⟨ht, hv⟩ : r.callType = info.callType ∧ r.videoState = info.callMode := by
      simpa using hstyle
    by_cases hst : r.callState = info.state
    · rw [if_neg (by tauto)]
      exact iff_of_true ⟨r, hmem, hs, hi, hst⟩ ⟨.inl ht, fun _ _ => hst⟩
    · rw [if_pos (by tauto), if_neg hstyle, refresh_same ht]
      refine iff_of_false ?_ fun hk => hst (hk.2 ht hv)
      rintro ⟨q, hq, hqs, hqi, hqst⟩
      obtain ⟨a, ha, rfl⟩ := Keyed.mem_update.mp hq
      -- the call at the place is the restyled one, whose state is as it was
      have hid : a.callId = r.callId := by
        refine h.fits hr a ha hpos ?_ ?_
        · split at hqs <;> simpa using hqs
        · split at hqi <;> simpa using hqi
      rw [if_pos hid, Row.restyle_callState, h.eq_of_callId ha hmem hid] at hqst
      exact hst hqst

theorem addIncoming_at (hadm : (t.addIncoming info).1 = .success) :
    (t.addIncoming info).2.At info.accountId info.index info.state := by
  unfold addIncoming at hadm ⊢
  dsimp only at hadm ⊢
  split at hadm
  · next hs =>
    rw [if_pos hs, insert_update hs]
    exact ⟨_, List.mem_append_right _ (List.mem_singleton.mpr rfl), rfl, rfl, rfl⟩
  · next hs => exact absurd hadm hs

theorem incoming_takesEffect_iff (h : t.Inv) (hpos : 0 < info.index)
    (hst : info.state ≠ .disconnected) :
    TakesEffect info (t.incoming info) ↔
      ∀ r, t.callAt info.index info.accountId = some r →
        (r.callType = info.callType ∨ t.failPending.Room r) ∧
          (r.callType = info.callType → r.videoState = info.callMode →
            r.callState = info.state) := by
  have hcall := failPending_callAt h hpos info.accountId
  simp only [TakesEffect, if_neg hst, incoming, hcall]
  cases hr : t.callAt info.index info.accountId with
  | none => exact iff_of_true addIncoming_at fun r hr => by cases hr
  | some r =>
    have := oldIncoming_at_iff h.failPending hpos (hcall.trans hr)
    simpa using this

/-- A `DISCONNECTED` report always takes effect. -/
theorem disconnected_takesEffect (h : t.Inv) (hinfo : info.IsCarried) (hpos : 0 < info.index)
    (hst : info.state = .disconnected) : TakesEffect info (t.disconnected info) := by
  intro _
  rw [if_pos hst]
  exact disconnected_frees h hinfo hpos

/-- A report of a ringing call. -/
abbrev Rings (st : TelCallState) : Prop := st = .incoming ∨ st = .waiting

/-- The report moves its call: it does not end it or turn on its heel, the refresh
keeps the call, and a ringing call is not in another state while all else agrees. -/
def Heeds (t : CallTable) (info : CallDetailInfo) (r : Row) : Prop :=
  (info.state = .disconnected ∨ (info.state = .alerting ∧ r.callState = .disconnecting) ∨
    r.callType = info.callType ∨ (if Rings info.state then t.failPending else t).Room r) ∧
  (Rings info.state → r.callType = info.callType → r.videoState = info.callMode →
    r.callState = info.state)

/-- **Every report that succeeds takes effect exactly if it heeds its call.** -/
theorem report_takesEffect_iff (h : t.Inv) (hinfo : info.IsCarried) (hpos : 0 < info.index)
    (hst : info.state.IsReported) :
    TakesEffect info (t.report info) ↔
      ∀ r, t.callAt info.index info.accountId = some r → t.Heeds info r := by
  rw [report]
  rcases hst with hst | hst | hst | hst | hst | hst | hst <;> simp only [hst, Heeds, Rings]
  · exact (active_takesEffect_iff h hinfo hpos hst).trans (by simp)
  · exact (moveKnown_takesEffect_iff h hpos hst (by decide)).trans (by simp)
  · exact (alerting_takesEffect_iff h hinfo hpos hst).trans (by simp)
  · have := incoming_takesEffect_iff h hpos (by rw [hst]; decide)
    rw [hst] at this
    exact this.trans (by simp)
  · have := incoming_takesEffect_iff h hpos (by rw [hst]; decide)
    rw [hst] at this
    exact this.trans (by simp)
  · exact (moveKnown_takesEffect_iff h hpos hst (by decide)).trans (by simp)
  · exact iff_of_true (disconnected_takesEffect h hinfo hpos hst) (by simp)

end CallTable

/-! ## In the service's terms -/

/-- The number of calls left of the table once an `INCOMING` or `WAITING` report has
failed the call without an index. -/
def callsLeft (s : CallManager) (st : TelCallState) : Nat :=
  s.callObjectPtrList.length -
    if (st = .incoming ∨ st = .waiting) ∧ (getOneCallObjectByIndex s initIndex).isSome then 1 else 0

/-- The reports the call behind `p` does not heed although they succeed: it changes
its type while the table is full and is no outgoing call, or it rings in the wrong
state and nothing else about it differs. -/
def Overlooks (s : CallManager) (info : CallDetailInfo) (p : Ref) : Prop :=
  (info.state ≠ .disconnected ∧ (s.call p).callType ≠ info.callType ∧
    (s.call p).direction ≠ .outgoing ∧ miniMaxCallObjects ≤ callsLeft s info.state ∧
    ¬(info.state = .alerting ∧ (s.call p).callState = .disconnecting)) ∨
  ((info.state = .incoming ∨ info.state = .waiting) ∧ (s.call p).callType = info.callType ∧
    (s.call p).videoState = info.callMode ∧ (s.call p).callState ≠ info.state)

instance (s : CallManager) (info : CallDetailInfo) (p : Ref) : Decidable (Overlooks s info p) := by
  unfold Overlooks; infer_instance

/-- What a report that succeeded should have done. -/
def TakesEffect (s : CallManager) (info : CallDetailInfo) : Prop :=
  if info.state = .disconnected then
    ¬∃ q ∈ s.callObjectPtrList, (s.call q).slotId = info.accountId ∧ (s.call q).index = info.index
  else
    ∃ q ∈ s.callObjectPtrList, (s.call q).slotId = info.accountId ∧
      (s.call q).index = info.index ∧ (s.call q).callState = info.state

instance (s : CallManager) (info : CallDetailInfo) : Decidable (TakesEffect s info) := by
  unfold TakesEffect; infer_instance

theorem takesEffect_iff (s : CallManager) (info : CallDetailInfo) (ret : RetCode) :
    (ret = .success → TakesEffect s info) ↔ CallTable.TakesEffect info (ret, s.table) := by
  unfold TakesEffect CallTable.TakesEffect CallTable.At CallTable.Occupied
  simp only [CallManager.table, List.mem_map, exists_exists_and_eq_and]
  rfl

/-- The room for a refresh, counted in call objects. -/
theorem room_iff (h : s.table.Inv) (p : Ref) (st : TelCallState) :
    (if st = .incoming ∨ st = .waiting then s.table.failPending else s.table).Room (s.row p) ↔
      ((s.call p).direction ≠ .outgoing → callsLeft s st < miniMaxCallObjects) := by
  have hlen : s.table.rows.length = s.callObjectPtrList.length := List.length_map _
  have hpend : s.table.pending.isSome = (getOneCallObjectByIndex s initIndex).isSome := by
    rw [← pending_eq h, Option.isSome_map]
  have hdir : (s.row p).direction = (s.call p).direction := rfl
  rw [CallTable.Room, hdir, ← or_iff_not_imp_left, or_comm]
  refine or_congr Iff.rfl (iff_of_eq (congrArg (· < _) ?_))
  unfold callsLeft
  by_cases hst : st = .incoming ∨ st = .waiting
  · rw [if_pos hst, CallTable.failPending_length h, hlen, hpend]
    simp [hst]
  · rw [if_neg hst, hlen]
    simp [hst]

/-- What holds of the call of a report, if there is one, can be said of its row. -/
theorem forall_callAt_iff (h : s.table.Inv) {index slotId : Int} {P : Row → Prop} :
    (∀ r, s.table.callAt index slotId = some r → P r) ↔
      ∀ p, getOneCallObjectByIndexSlotIdAndCallType s index slotId = some p → P (s.row p) := by
  rw [← callAt_eq h]
  simp

theorem heeds_iff (h : s.table.Inv) (p : Ref) :
    s.table.Heeds info (s.row p) ↔ ¬Overlooks s info p := by
  have hmode : (s.row p).videoState = (s.call p).videoState := rfl
  rw [CallTable.Heeds, room_iff h p info.state, ← Nat.not_le, Overlooks, hmode,
    CallManager.row_callType, CallManager.row_callState]
  tauto

/-- **A report that succeeds takes effect exactly if it does not overlook its call.** -/
theorem handleCallReportInfo_takesEffect_iff (env : Env) (hs : Reachable s)
    (hinfo : info.IsAccepted) (hpos : 0 < info.index) (hst : info.state.IsReported) :
    ((handleCallReportInfo env info s).1 = .success →
        TakesEffect (handleCallReportInfo env info s).2 info) ↔
      ∀ p, getOneCallObjectByIndexSlotIdAndCallType s info.index info.accountId = some p →
        ¬Overlooks s info p := by
  have h := (reachable_inv hs).table
  have htab : ((handleCallReportInfo env info s).1, (handleCallReportInfo env info s).2.table) =
      s.table.report info := (handleCallReportInfo_refines env h hinfo.isCarried).1
  rw [takesEffect_iff, htab, CallTable.report_takesEffect_iff h hinfo.isCarried hpos hst,
    forall_callAt_iff h]
  exact forall₂_congr fun p _ => heeds_iff h p

/-- A ringing call that is reported to wait goes on ringing, and success is returned. -/
theorem handleCallReportInfo_overlooks :
    ∃ s info, Reachable s ∧ info.IsAccepted ∧ 0 < info.index ∧ info.state.IsReported ∧
      (handleCallReportInfo .obliging info s).1 = .success ∧
      ¬TakesEffect (handleCallReportInfo .obliging info s).2 info :=
  ⟨.run [(.obliging, .callReport (ringingReport 1))],
    CallReportInfo.toDetail { ringingReport 1 with state := 5 }, reachable_run _,
    .single (by decide), by decide, by decide, by decide +kernel, by decide +kernel⟩

/-- A ringing call that becomes active. -/
theorem handleCallReportInfo_takesEffect_active :
    TakesEffect
      (handleCallReportInfo .obliging (CallReportInfo.toDetail { ringingReport 1 with state := 0 })
        (.run [(.obliging, .callReport (ringingReport 1))])).2
      (CallReportInfo.toDetail { ringingReport 1 with state := 0 }) :=
  (handleCallReportInfo_takesEffect_iff .obliging (reachable_run _) (.single (by decide))
    (by decide) (by decide)).mpr (by decide +kernel) (by decide +kernel)

end CallManagerMini
