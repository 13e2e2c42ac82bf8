import CallManagerMini.StateChain

/-! # Calls nobody reported as new

A report of `ACTIVE`, `ALERTING` or `DISCONNECTED` about an unknown place is taken
for the first report of a pending dial.  If the pending dial is on another slot, or
the reported index is not a network's index, the report does not become that dial's
but a call of its own: a phantom (`MakesPhantom`).  No other report but `DIALING`,
`INCOMING` and `WAITING` enters a call (`callReport_noNewCall_iff`).
-/

namespace CallManagerMini

open Prog (Post)

namespace CallTable

variable {t t' t'' : CallTable} {r q : Row} {info : CallDetailInfo}

/-- From `t` to `t'` no call came into being: the table has not grown, and what was
entered, was entered in place of a call with the same id. -/
structure NoNewCall (t t' : CallTable) : Prop where
  length_le : t'.rows.length ≤ t.rows.length
  ids : ∀ q ∈ t'.rows, ∃ r ∈ t.rows, r.callId = q.callId
  entered : ∃ marks, t'.history = t.history ++ marks ∧
    ∀ callId st, Mark.added callId st ∈ marks → ∃ r ∈ t.rows, r.callId = callId

namespace NoNewCall

theorem refl (t : CallTable) : NoNewCall t t :=
  ⟨Nat.le_refl _, fun q hq => ⟨q, hq, rfl⟩, [], by simp, by simp⟩

theorem trans (h : NoNewCall t t') (h' : NoNewCall t' t'') : NoNewCall t t'' := by
  obtain ⟨marks, heq, hmarks⟩ := h.entered
  obtain ⟨marks', heq', hmarks'⟩ := h'.entered
  have hid : ∀ callId, (∃ r ∈ t'.rows, r.callId = callId) → ∃ r ∈ t.rows, r.callId = callId := by
    rintro _ ⟨q, hq, rfl⟩
    exact h.ids q hq
  refine ⟨Nat.le_trans h'.length_le h.length_le, fun q hq => hid _ (h'.ids q hq), marks ++ marks',
    by rw [heq', heq, List.append_assoc], fun callId st hm => ?_⟩
  rcases List.mem_append.mp hm with hm | hm
  · exact hmarks callId st hm
  · exact hid _ (hmarks' callId st hm)

/-- Rows that change in place, and an announcement that enters nobody. -/
theorem of_rows (hlen : t'.rows.length ≤ t.rows.length)
    (hids : ∀ q ∈ t'.rows, ∃ r ∈ t.rows, r.callId = q.callId) (marks : List Mark)
    (heq : t'.history = t.history ++ marks)
    (hmarks : ∀ callId st, Mark.added callId st ∉ marks) : NoNewCall t t' :=
  ⟨hlen, hids, marks, heq, fun callId st hm => absurd hm (hmarks callId st)⟩

theorem update (t : CallTable) (callId : Int) {f : Row → Row} (hf : ∀ r, (f r).callId = r.callId) :
    NoNewCall t (t.update callId f) := by
  refine of_rows (by simp [CallTable.update]) (fun q hq => ?_) [] (by simp [CallTable.update])
    (by simp)
  obtain ⟨a, ha, rfl⟩ := Keyed.mem_update.mp hq
  refine ⟨a, ha, ?_⟩
  split
  · exact (hf a).symm
  · rfl

theorem remove (t : CallTable) (callId : Int) : NoNewCall t (t.remove callId) := by
  have hsub : (t.remove callId).rows.Sublist t.rows := Keyed.remove_sublist
  exact of_rows hsub.length_le (fun q hq => ⟨q, hsub.subset hq, rfl⟩) []
    (by simp [CallTable.remove]) (by simp)

theorem announce (t : CallTable) (r : Row) (next : TelCallState) :
    NoNewCall t (t.announce r next) := by
  have hu : NoNewCall t (t.update r.callId (Row.setState next)) := update t _ fun _ => rfl
  refine of_rows hu.length_le hu.ids (stateChange r.callId r.callState next) rfl ?_
  intro callId st
  unfold stateChange
  split <;> simp

/-- What a refresh enters has the id of the call that is refreshed. -/
theorem refresh (h : t.Inv) (hr : r ∈ t.rows) (info : CallDetailInfo) :
    NoNewCall t (t.refresh r info).2 := by
  have hlen : ((t.created.remove r.callId).rows).length = t.rows.length - 1 :=
    Keyed.length_remove hr
  have hpos : 0 < t.rows.length := List.length_pos_of_mem hr
  refine ⟨?_, fun q hq => ?_, _, refresh_history h hr info, fun callId st hm => ⟨r, hr, ?_⟩⟩
  · refine refresh_cases h hr info (fun _ => (update t _ (Row.restyle_callId info)).length_le) ?_ ?_
    · intro _ _ _
      simp only [insert, List.length_append, List.length_singleton, hlen]
      omega
    · intro _ _
      simp only [hlen]
      omega
  · by_cases hid : q.callId = r.callId
    · exact ⟨r, hr, hid.symm⟩
    · exact ⟨q, (mem_refresh_iff h hr hid).mp hq, rfl⟩
  · split at hm
    · rw [List.mem_singleton] at hm
      cases hm
      rfl
    · cases hm

theorem moveTo (h : t.Inv) (hr : r ∈ t.rows) (next : TelCallState) (info : CallDetailInfo) :
    NoNewCall t (t.moveTo next info r).2 := (refresh h hr info).trans (announce _ _ _)

theorem disconnect (h : t.Inv) (hr : r ∈ t.rows) (info : CallDetailInfo) :
    NoNewCall t (t.disconnect info r) :=
  ((refresh h hr info).trans (announce _ _ _)).trans (remove _ _)

theorem adopt (h : t.Inv) (info : CallDetailInfo) : NoNewCall t (t.adopt info).2 := by
  unfold CallTable.adopt
  split
  · exact refl t
  · next r hr => exact (refresh h (pending_eq_some hr).1 info).trans (update _ _ fun _ => rfl)

end NoNewCall

/-! ## Phantoms -/

/-- The report becomes a call of its own, though its state is that of a known call. -/
structure Phantom (t : CallTable) (info : CallDetailInfo) : Prop where
  unknown : t.callAt info.index info.accountId = none
  pending : t.pending.isSome
  foreign : ¬(0 < info.index ∧ (t.callAt 0 info.accountId).isSome)
  room : t.rows.length < limit t.dialEcc

/-- A report for an unknown place, with a dial pending elsewhere. -/
theorem reported_addDialing (hnone : t.callAt info.index info.accountId = none)
    (hpend : t.pending.isSome) (hno : ¬(0 < info.index ∧ (t.callAt 0 info.accountId).isSome)) :
    (t.reported info).2 = (t.addDialing info).2 := by
  have hd : t.dialing info = t.addDialing info := by
    rw [dialing, if_neg]
    rintro ⟨hpos, hat⟩
    rw [hnone] at hat
    exact hno ⟨hpos, hat.resolve_right (by simp)⟩
  unfold reported
  rw [hnone]
  simp only [hpend, if_true, hd]

theorem reported_noNewCall (h : t.Inv) (hno : ¬Phantom t info) :
    NoNewCall t (t.reported info).2 := by
  cases hat : t.callAt info.index info.accountId with
  | some r => rw [reported, hat]; exact .refl t
  | none =>
    by_cases hpend : t.pending.isSome
    · by_cases hown : 0 < info.index ∧ (t.callAt 0 info.accountId).isSome
      · have hd : t.dialing info = t.adopt { info with state := .dialing } := by
          rw [dialing, if_pos ⟨hown.1, .inl hown.2⟩, updateDialing]
          simp only [hat]
        have hrep : (t.reported info).2 = (t.adopt { info with state := .dialing }).2 := by
          unfold reported
          rw [hat]
          simp only [hpend, if_true, hd]
        rw [hrep]
        exact .adopt h _
      · rw [reported_addDialing hat hpend hown, addDialing,
          if_neg fun hadm => hno ⟨hat, hpend, hown, (admission_newRow h).mp hadm⟩]
        exact .of_rows (Nat.le_refl _) (fun q hq => ⟨q, hq, rfl⟩) [] (by simp [created]) (by simp)
    · rw [reported, hat]
      simp only [hpend]
      exact .refl t

/-- What a phantom announces first: that it entered, with an id nobody had. -/
theorem Phantom.entered (hp : Phantom t info) (h : t.Inv) :
    (t.reported info).2.history = t.history ++ [.added (t.lastCallId + 1) .dialing] := by
  rw [reported_addDialing hp.unknown hp.pending hp.foreign,
    addDialing_of_success ((admission_newRow h).mpr hp.room)]

theorem Phantom.newMark (hp : Phantom t info) (h : t.Inv) (hn : NoNewCall (t.reported info).2 t') :
    .added (t.lastCallId + 1) .dialing ∈ t'.history.drop t.history.length := by
  obtain ⟨marks, heq, -⟩ := hn.entered
  rw [heq, hp.entered h, List.append_assoc, List.drop_left]
  simp

/-! ## The reports -/

theorem active_noNewCall (h : t.Inv) (hinfo : info.IsCarried) :
    NoNewCall (t.reported info).2 (t.active info).2 := by
  rw [active]
  refine reported_cases h hinfo (fun t' _ => ?_) (fun r t' h' hr => ?_)
  · exact .refl t'
  · exact .moveTo h' (callAt_eq_some hr).1 _ _

theorem alerting_noNewCall (h : t.Inv) (hinfo : info.IsCarried) :
    NoNewCall (t.reported info).2 (t.alerting info).2 := by
  rw [alerting]
  refine reported_cases h hinfo (fun t' _ => ?_) (fun r t' h' hr => ?_)
  · exact .refl t'
  · dsimp only
    split
    · exact .refl t'
    · exact .moveTo h' (callAt_eq_some hr).1 _ _

theorem disconnected_noNewCall (h : t.Inv) (hinfo : info.IsCarried) :
    NoNewCall (t.reported info).2 (t.disconnected info).2 := by
  rw [disconnected]
  refine reported_cases h hinfo (fun t' _ => ?_) (fun r t' h' hr => ?_)
  · exact .refl t'
  · exact .disconnect h' (callAt_eq_some hr).1 _

theorem moveKnown_noNewCall (h : t.Inv) (next : TelCallState) :
    NoNewCall t (t.moveKnown next info).2 := by
  rw [moveKnown]
  split
  · exact .refl t
  · next r hr => exact .moveTo h (callAt_eq_some hr).1 _ _

/-- The states whose reports look for a pending dial. -/
def Claims (st : TelCallState) : Prop := st = .active ∨ st = .alerting ∨ st = .disconnected

instance (st : TelCallState) : Decidable (Claims st) := by unfold Claims; infer_instance

theorem report_noNewCall_of_claims (h : t.Inv) (hinfo : info.IsCarried) (hst : Claims info.state) :
    NoNewCall (t.reported info).2 (t.report info).2 := by
  unfold report
  rcases hst with hst | hst | hst <;> rw [hst]
  · exact active_noNewCall h hinfo
  · exact alerting_noNewCall h hinfo
  · exact disconnected_noNewCall h hinfo

theorem report_noNewCall (h : t.Inv) (hinfo : info.IsCarried) (hdialing : info.state ≠ .dialing)
    (hring : ¬Rings info.state) (hno : ¬(Claims info.state ∧ Phantom t info)) :
    NoNewCall t (t.report info).2 := by
  by_cases hst : Claims info.state
  · exact (reported_noNewCall h fun hp => hno ⟨hst, hp⟩).trans
      (report_noNewCall_of_claims h hinfo hst)
  · unfold report
    cases hs : info.state with
    | active => exact absurd (.inl hs) hst
    | alerting => exact absurd (.inr (.inl hs)) hst
    | disconnected => exact absurd (.inr (.inr hs)) hst
    | dialing => exact absurd hs hdialing
    | incoming => exact absurd (.inl hs) hring
    | waiting => exact absurd (.inr hs) hring
    | holding => exact moveKnown_noNewCall h _
    | disconnecting => exact moveKnown_noNewCall h _
    | unknown => exact .refl t
    | idle => exact .refl t
    | answered => exact .refl t

end CallTable

/-! ## In the service's terms -/

variable {s s' : CallManager} {env : Env}

/-- The id a mark says entered the table. -/
def Mark.entered : Mark → Option Int
  | .added callId _ => some callId
  | _ => none

/-- From `s` to `s'` no call object came into being: the table has not grown, and what
was added to it, has the id of a call it had. -/
structure NoNewCall (s s' : CallManager) : Prop where
  length_le : s'.callObjectPtrList.length ≤ s.callObjectPtrList.length
  ids : ∀ q ∈ s'.callObjectPtrList, ∃ p ∈ s.callObjectPtrList,
    (s.call p).callId = (s'.call q).callId
  entered : ∀ callId ∈ (s'.history.drop s.history.length).filterMap Mark.entered,
    ∃ p ∈ s.callObjectPtrList, (s.call p).callId = callId

/-- The report is taken for the first report of a pending dial, and does not become that
dial's: the dial is on another slot, or the index is no network's. -/
structure MakesPhantom (s : CallManager) (info : CallDetailInfo) : Prop where
  claims : CallTable.Claims info.state
  unknown : getOneCallObjectByIndexSlotIdAndCallType s info.index info.accountId = none
  pending : (getOneCallObjectByIndex s initIndex).isSome
  foreign : ¬(0 < info.index ∧
    (getOneCallObjectByIndexSlotIdAndCallType s initIndex info.accountId).isSome)
  room : s.callObjectPtrList.length < callObjectLimit s.dialSrcInfo.isEcc

instance (s s' : CallManager) : Decidable (NoNewCall s s') :=
  decidable_of_iff (s'.callObjectPtrList.length ≤ s.callObjectPtrList.length ∧
      (∀ q ∈ s'.callObjectPtrList, ∃ p ∈ s.callObjectPtrList,
        (s.call p).callId = (s'.call q).callId) ∧
      ∀ callId ∈ (s'.history.drop s.history.length).filterMap Mark.entered,
        ∃ p ∈ s.callObjectPtrList, (s.call p).callId = callId)
    ⟨fun h => ⟨h.1, h.2.1, h.2.2⟩, fun h => ⟨h.1, h.2, h.3⟩⟩

instance (s : CallManager) (info : CallDetailInfo) : Decidable (MakesPhantom s info) :=
  decidable_of_iff (CallTable.Claims info.state ∧
      getOneCallObjectByIndexSlotIdAndCallType s info.index info.accountId = none ∧
      (getOneCallObjectByIndex s initIndex).isSome ∧
      ¬(0 < info.index ∧
        (getOneCallObjectByIndexSlotIdAndCallType s initIndex info.accountId).isSome) ∧
      s.callObjectPtrList.length < callObjectLimit s.dialSrcInfo.isEcc)
    ⟨fun h => ⟨h.1, h.2.1, h.2.2.1, h.2.2.2.1, h.2.2.2.2⟩, fun h => ⟨h.1, h.2, h.3, h.4, h.5⟩⟩

theorem makesPhantom_iff (h : s.table.Inv) :
    MakesPhantom s info ↔ CallTable.Claims info.state ∧ s.table.Phantom info := by
  have hat : ∀ index, (s.table.callAt index info.accountId).isSome =
      (getOneCallObjectByIndexSlotIdAndCallType s index info.accountId).isSome := fun index => by
    rw [← callAt_eq h, Option.isSome_map]
  have hnone : s.table.callAt info.index info.accountId = none ↔
      getOneCallObjectByIndexSlotIdAndCallType s info.index info.accountId = none := by
    rw [← callAt_eq h, Option.map_eq_none_iff]
  have hpend : s.table.pending.isSome = (getOneCallObjectByIndex s initIndex).isSome := by
    rw [← pending_eq h, Option.isSome_map]
  have hlen : s.table.rows.length = s.callObjectPtrList.length := List.length_map _
  constructor
  · intro hp
    refine ⟨hp.claims, hnone.mpr hp.unknown, hpend ▸ hp.pending, ?_, ?_⟩
    · rw [hat]
      exact hp.foreign
    · rw [hlen]
      exact hp.room
  · rintro ⟨hc, hp⟩
    refine ⟨hc, hnone.mp hp.unknown, hpend ▸ hp.pending, ?_, ?_⟩
    · rw [← hat]
      exact hp.foreign
    · rw [← hlen]
      exact hp.room

theorem noNewCall_of_table (h : CallTable.NoNewCall s.table s'.table) : NoNewCall s s' where
  length_le := by
    have := h.length_le
    simpa only [CallManager.table, List.length_map] using this
  ids q hq := by
    obtain ⟨r, hr, hid⟩ := h.ids _ (CallManager.row_mem_table hq)
    obtain ⟨p, hp, rfl⟩ := CallManager.mem_table_rows.mp hr
    exact ⟨p, hp, hid⟩
  entered callId hm := by
    obtain ⟨marks, heq, hmarks⟩ := h.entered
    have heq : s'.history = s.history ++ marks := heq
    rw [heq, List.drop_left] at hm
    obtain ⟨m, hm, hid⟩ := List.mem_filterMap.mp hm
    cases m with
    | added id st =>
      cases hid
      obtain ⟨r, hr, hid⟩ := hmarks _ _ hm
      obtain ⟨p, hp, rfl⟩ := CallManager.mem_table_rows.mp hr
      exact ⟨p, hp, hid⟩
    | changed => cases hid
    | dialed => cases hid

theorem not_noNewCall_of_phantom (h : s.table.Inv)
    (hm : .added (s.table.lastCallId + 1) .dialing ∈ s'.history.drop s.history.length) :
    ¬NoNewCall s s' := by
  intro hn
  obtain ⟨p, hp, hid⟩ := hn.entered (s.table.lastCallId + 1) (List.mem_filterMap.mpr ⟨_, hm, rfl⟩)
  have hle : (s.call p).callId ≤ s.table.lastCallId := (h.ok _ (CallManager.row_mem_table hp)).id_le
  omega

/-- **A report other than `DIALING`, `INCOMING` and `WAITING` makes no call, unless it
makes a phantom.** -/
theorem callReport_noNewCall_iff (env : Env) (hs : Reachable s) {info : CallReportInfo}
    (hvalid : isValidReport info = true) (hdialing : info.toDetail.state ≠ .dialing)
    (hring : info.toDetail.state ≠ .incoming ∧ info.toDetail.state ≠ .waiting) :
    NoNewCall s (mainLoopStep env (.callReport info) s).2 ↔ ¬MakesPhantom s info.toDetail := by
  have h := (reachable_inv hs).table
  have hinfo := isCarried_toDetail hvalid
  have hstep : (mainLoopStep env (.callReport info) s).2 =
      (handleCallReportInfo env info.toDetail s).2 := by
    simp [mainLoopStep, Prog.when_apply, hvalid]
  have htable : (handleCallReportInfo env info.toDetail s).2.table =
      (s.table.report info.toDetail).2 :=
    congrArg Prod.snd (handleCallReportInfo_refines env h hinfo).1
  rw [hstep, makesPhantom_iff h]
  constructor
  · rintro hn ⟨hc, hp⟩
    refine not_noNewCall_of_phantom h ?_ hn
    have := hp.newMark h (CallTable.report_noNewCall_of_claims h hinfo hc)
    rwa [← htable] at this
  · intro hno
    have hring' : ¬CallTable.Rings info.toDetail.state := fun hr => hr.elim hring.1 hring.2
    have := CallTable.report_noNewCall h hinfo hdialing hring' hno
    rw [← htable] at this
    exact noNewCall_of_table this

/-- With a dial pending on slot 0, an `ACTIVE` report for slot 1 makes a second call. -/
theorem phantom_call :
    ∃ s info, Reachable s ∧ isValidReport info = true ∧ info.toDetail.state = .active ∧
      getOneCallObjectByIndexSlotIdAndCallType s info.index info.accountId = none ∧
      ¬NoNewCall s (mainLoopStep .obliging (.callReport info) s).2 :=
  ⟨.run [(.obliging, plainDial)], { activeReport with accountId := 1 }, reachable_run _, by decide,
    by decide, by decide +kernel, by decide +kernel⟩

theorem callReport_noNewCall_adopted :
    NoNewCall (.run [(.obliging, plainDial)])
      (mainLoopStep .obliging (.callReport activeReport) (.run [(.obliging, plainDial)])).2 :=
  (callReport_noNewCall_iff .obliging (reachable_run _) (by decide) (by decide) (by decide)).mpr
    (by decide +kernel)

end CallManagerMini
