import CallManagerMini.RefusedIncoming

/-! # Reports about another slot

A `DIALING` report numbers the pending call of its slot.  `UpdateDialingHandle` looks for that call
under the slot, but `UpdateDialingCallInfo` takes the first pending call of the table: where calls
are pending on both slots, it may be the other slot's (`dialingHandle_ownSlot_iff`).
-/

namespace CallManagerMini

namespace CallTable

variable {t t' : CallTable} {r q : Row} {info : CallDetailInfo} {slotId : Int}

/-- The calls that are not of the slot. -/
def elsewhere (slotId : Int) (t : CallTable) : List Row := t.rows.filter fun r => r.slotId ≠ slotId

theorem mem_elsewhere : r ∈ t.elsewhere slotId ↔ r ∈ t.rows ∧ r.slotId ≠ slotId := by
  simp [elsewhere]

/-- A call of the slot changes within the slot. -/
theorem elsewhere_update (h : t.Inv) (hr : r ∈ t.rows) (hslot : r.slotId = slotId) {f : Row → Row}
    (hf : (f r).slotId = slotId) : (t.update r.callId f).elsewhere slotId = t.elsewhere slotId :=
  Keyed.filter_update fun q hq hid => by
    obtain rfl := h.eq_of_callId hq hr hid
    simp [hslot, hf]

theorem elsewhere_insert (hslot : r.slotId = slotId) :
    (t.insert r).elsewhere slotId = t.elsewhere slotId := by
  simp [elsewhere, insert, hslot]

theorem elsewhere_remove (h : t.Inv) (hr : r ∈ t.rows) (hslot : r.slotId = slotId) :
    (t.remove r.callId).elsewhere slotId = t.elsewhere slotId :=
  Keyed.filter_remove fun q hq hid => by
    obtain rfl := h.eq_of_callId hq hr hid
    simp [hslot]

/-- A refresh of a call of the report's slot. -/
theorem elsewhere_refresh (h : t.Inv) (hr : r ∈ t.rows) (hslot : r.slotId = info.accountId) :
    (t.refresh r info).2.elsewhere info.accountId = t.elsewhere info.accountId := by
  have hgone : (t.created.remove r.callId).elsewhere info.accountId =
      t.elsewhere info.accountId := elsewhere_remove h.created hr hslot
  refine refresh_cases h hr info ?_ ?_ ?_
  · intro _
    exact elsewhere_update h hr hslot (by simpa using hslot)
  · intro _ _ _
    have hnew : (t.refreshed r info).slotId = info.accountId := rfl
    exact (elsewhere_insert (t := t.created.remove r.callId) hnew).trans hgone
  · exact fun _ _ => hgone

theorem elsewhere_addDialing (t : CallTable) (info : CallDetailInfo) :
    (t.addDialing info).2.elsewhere info.accountId = t.elsewhere info.accountId := by
  by_cases hadm : t.created.admission (t.newRow { info with state := .dialing } .outgoing) =
    .success
  · rw [addDialing_of_success hadm]
    exact elsewhere_insert (t := t.created) rfl
  · simp only [addDialing, if_neg hadm]
    rfl

/-- The pending call of the report's slot becomes the reported one. -/
theorem elsewhere_adopt (h : t.Inv) (hinfo : info.IsCarried)
    (hnone : t.callAt info.index info.accountId = none) (hr : t.pending = some r)
    (hslot : r.slotId = info.accountId) :
    (t.adopt info).2.elsewhere info.accountId = t.elsewhere info.accountId := by
  have hmem := (pending_eq_some hr).1
  have hx := h.refresh hmem hinfo (fits_of_none hnone)
  have hholds := refresh_holds h hmem hinfo
  have hplace : (t.refresh r info).1.slotId = info.accountId := by
    refine refresh_cases h hmem info ?_ ?_ ?_
    · exact fun _ => (Row.restyle_slotId info r).trans hslot
    · exact fun _ _ _ => rfl
    · exact fun _ _ => (Row.restyle_slotId info r).trans hslot
  simp only [adopt, hr]
  refine Eq.trans (Keyed.filter_update fun q hq hid => ?_) (elsewhere_refresh h hmem hslot)
  obtain rfl := hholds.only q hq hid
  simp [hplace, Row.numbered]

/-- A pending call of another slot is taken away from it. -/
theorem not_mem_elsewhere_adopt (h : t.Inv) (hnone : t.callAt info.index info.accountId = none)
    (hr : t.pending = some r) (hid : q.callId = r.callId) :
    q ∉ (t.adopt info).2.elsewhere info.accountId := by
  intro hq
  obtain ⟨hmem, hslot⟩ := mem_elsewhere.mp hq
  exact hslot ((adopt_callAt h hnone hr hmem).mp hid).1

/-- The report finds a call of its slot: at its place, or else pending. -/
def OwnPending (info : CallDetailInfo) (t : CallTable) : Prop :=
  (t.callAt info.index info.accountId).isSome ∨ ∀ r, t.pending = some r → r.slotId = info.accountId

theorem elsewhere_updateDialing (h : t.Inv) (hinfo : info.IsCarried) (hown : t.OwnPending info) :
    (t.updateDialing info).2.elsewhere info.accountId = t.elsewhere info.accountId := by
  unfold updateDialing
  cases hat : t.callAt info.index info.accountId with
  | some r =>
    obtain ⟨hmem, hslot, -⟩ := callAt_eq_some hat
    exact elsewhere_refresh h hmem hslot
  | none =>
    cases hr : t.pending with
    | none => simp [adopt, hr]
    | some r =>
      have hslot := hown.resolve_left (by simp [hat]) r hr
      exact elsewhere_adopt h hinfo hat hr hslot

end CallTable

variable {s s' : CallManager} {env : Env} {info : CallDetailInfo} {p : Ref} {slotId index : Int}

/-! ## In the service's terms -/

/-- The step leaves the calls of other slots alone, and the calls it numbers are of its slot. -/
structure OwnSlotOnly (index slotId : Int) (s s' : CallManager) : Prop where
  /-- The calls of other slots are the same objects, in the same order. -/
  place : (s'.callObjectPtrList.filter fun p => (s'.call p).slotId ≠ slotId) =
    s.callObjectPtrList.filter fun p => (s.call p).slotId ≠ slotId
  kept : ∀ p ∈ s.callObjectPtrList, (s.call p).slotId ≠ slotId →
    (s'.call p).callId = (s.call p).callId ∧ (s'.call p).index = (s.call p).index ∧
      (s'.call p).slotId = (s.call p).slotId ∧ (s'.call p).callType = (s.call p).callType ∧
      (s'.call p).callState = (s.call p).callState ∧
      (s'.call p).accountNumber = (s.call p).accountNumber
  numbered : ∀ p ∈ s.callObjectPtrList, (s.call p).index = initIndex →
    ∀ q ∈ s'.callObjectPtrList, (s'.call q).callId = (s.call p).callId →
      (s'.call q).index = index → (s.call p).slotId = slotId

theorem elsewhere_table (s : CallManager) (slotId : Int) :
    s.table.elsewhere slotId =
      (s.callObjectPtrList.filter fun p => (s.call p).slotId ≠ slotId).map s.row := by
  simp only [CallTable.elsewhere, CallManager.table, List.filter_map]
  rfl

/-- The calls elsewhere, read off the table. -/
theorem ownSlotOnly_of_table (h' : s'.table.Inv) (hpos : 0 < index)
    (ht : s'.table.elsewhere slotId = s.table.elsewhere slotId) :
      OwnSlotOnly index slotId s s' := by
  rw [elsewhere_table, elsewhere_table] at ht
  have hplace := congrArg (List.map Row.obj) ht
  simp only [List.map_map] at hplace
  have hid : ∀ s : CallManager, Row.obj ∘ s.row = id := fun _ => rfl
  rw [hid, hid, List.map_id, List.map_id] at hplace
  rw [hplace] at ht
  have hrow : ∀ p ∈ s.callObjectPtrList, (s.call p).slotId ≠ slotId → s'.row p = s.row p := by
    intro p hp hne
    exact List.map_inj_left.mp ht p (List.mem_filter.mpr ⟨hp, by simpa using hne⟩)
  refine ⟨hplace, fun p hp hne => ?_, fun p hp hindex q hq hq' hnew => ?_⟩
  · have := hrow p hp hne
    exact ⟨congrArg Row.callId this, congrArg Row.index this, congrArg Row.slotId this,
      congrArg Row.callType this, congrArg Row.callState this, congrArg Row.accountNumber this⟩
  · by_contra hne
    have hp' : p ∈ s'.callObjectPtrList := by
      have hmem : p ∈ s.callObjectPtrList.filter fun p => (s.call p).slotId ≠ slotId :=
        List.mem_filter.mpr ⟨hp, by simpa using hne⟩
      rw [← hplace] at hmem
      exact (List.mem_filter.mp hmem).1
    have heq : s'.row q = s'.row p :=
      h'.eq_of_callId (s'.row_mem_table hq) (s'.row_mem_table hp')
        (hq'.trans (congrArg Row.callId (hrow p hp hne)).symm)
    have hzero : (s'.call q).index = 0 :=
      (congrArg Row.index (heq.trans (hrow p hp hne))).trans hindex
    omega

/-- A call of another slot that is numbered. -/
theorem not_ownSlotOnly_of_adopt (h : s.table.Inv) (hp : p ∈ s.callObjectPtrList)
    (hnone : s.table.callAt info.index info.accountId = none)
    (hpend : s.table.pending = some (s.row p)) (hslot : (s.call p).slotId ≠ info.accountId)
    (ht : s'.table = (s.table.adopt info).2) : ¬OwnSlotOnly index info.accountId s s' := by
  intro hown
  have hmem : p ∈ s.callObjectPtrList.filter fun p => (s.call p).slotId ≠ info.accountId :=
    List.mem_filter.mpr ⟨hp, by simpa using hslot⟩
  rw [← hown.place] at hmem
  have helse : s'.row p ∈ s'.table.elsewhere info.accountId := by
    rw [elsewhere_table]
    exact List.mem_map_of_mem hmem
  rw [ht] at helse
  exact CallTable.not_mem_elsewhere_adopt h hnone hpend (hown.kept p hp hslot).1 helse

/-- The report's place is taken, or the first pending call of the table is of its slot. -/
def FindsOwnPending (info : CallDetailInfo) (s : CallManager) : Prop :=
  (getOneCallObjectByIndexSlotIdAndCallType s info.index info.accountId).isSome ∨
    ∀ p, getOneCallObjectByIndex s initIndex = some p → (s.call p).slotId = info.accountId

theorem ownPending_iff (h : s.table.Inv) : s.table.OwnPending info ↔ FindsOwnPending info s := by
  unfold CallTable.OwnPending FindsOwnPending
  rw [isSome_callAt h, ← pending_eq h]
  refine or_congr_right ⟨fun hown p hp => hown (s.row p) (by rw [hp]; rfl), fun hown r hr => ?_⟩
  obtain ⟨p, hp, rfl⟩ := Option.map_eq_some_iff.mp hr
  exact hown p hp

theorem updateDialingCallInfo_ownSlot (env : Env) (h : s.table.Inv) (hinfo : info.IsCarried)
    (hst : info.state = .dialing) (hpos : 0 < info.index) :
    OwnSlotOnly info.index info.accountId s (updateDialingCallInfo env info s).2 ↔
      FindsOwnPending info s := by
  have ht : (updateDialingCallInfo env info s).2.table = (s.table.updateDialing info).2 :=
    congrArg Prod.snd (updateDialingCallInfo_computes env h hinfo hst).1
  rw [← ownPending_iff h]
  constructor
  · intro hown
    by_contra hno
    obtain ⟨hnone, hother⟩ := not_or.mp hno
    have hnone : s.table.callAt info.index info.accountId = none := by simpa using hnone
    push Not at hother
    obtain ⟨r, hr, hslot⟩ := hother
    obtain ⟨p, hp, rfl⟩ := CallManager.mem_table_rows.mp (CallTable.pending_eq_some hr).1
    refine not_ownSlotOnly_of_adopt h hp hnone hr hslot ?_ hown
    rw [ht, CallTable.updateDialing, hnone]
  · intro hown
    refine ownSlotOnly_of_table (ht ▸ h.updateDialing hinfo) hpos ?_
    rw [ht]
    exact CallTable.elsewhere_updateDialing h hinfo hown

/-- **A `DIALING` report touches only the calls of its slot** exactly if the first pending call of
the table is of that slot, or the report does not need one. -/
theorem dialing_ownSlot_iff (env : Env) (hs : Reachable s) (hinfo : info.IsAccepted)
    (hst : info.state = .dialing) (hpos : 0 < info.index) :
    (OwnSlotOnly info.index info.accountId s (updateDialingCallInfo env info s).2 ↔
        FindsOwnPending info s) ∧
      (OwnSlotOnly info.index info.accountId s (dialingHandle env info s).2 ↔
        FindsOwnPending info s ∨
          getOneCallObjectByIndexSlotIdAndCallType s initIndex info.accountId = none) := by
  have h := (reachable_inv hs).table
  have hupdate := updateDialingCallInfo_ownSlot env h hinfo.isCarried hst hpos
  refine ⟨hupdate, ?_⟩
  have ht : (dialingHandle env info s).2.table = (s.table.dialing info).2 :=
    congrArg Prod.snd (dialingHandle_computes env h hinfo.isCarried hst).1
  by_cases htaken : updateDialingHandle s info = true
  · have hsame : dialingHandle env info s = updateDialingCallInfo env info s := by
      simp [dialingHandle, hpos, htaken]
    rw [hsame, hupdate]
    refine ⟨.inl, fun hor => hor.elim id fun hnone => .inl ?_⟩
    simpa [updateDialingHandle, hnone] using htaken
  · have hfree : getOneCallObjectByIndexSlotIdAndCallType s initIndex info.accountId = none ∧
        getOneCallObjectByIndexSlotIdAndCallType s info.index info.accountId = none := by
      simpa [updateDialingHandle] using htaken
    have hno : ¬((s.table.callAt 0 info.accountId).isSome ∨
        (s.table.callAt info.index info.accountId).isSome) := by
      rw [isSome_callAt h, isSome_callAt h]
      simpa [initIndex] using hfree
    refine iff_of_true (ownSlotOnly_of_table (ht ▸ h.dialing hinfo.isCarried) hpos ?_)
      (.inr hfree.1)
    rw [ht, CallTable.dialing, if_neg fun hfound => hno hfound.2]
    exact CallTable.elsewhere_addDialing s.table info

instance (index slotId : Int) (s s' : CallManager) : Decidable (OwnSlotOnly index slotId s s') :=
  decidable_of_iff (_ ∧ _ ∧ _) ⟨fun h => ⟨h.1, h.2.1, h.2.2⟩, fun h =>
    ⟨h.place, h.kept, h.numbered⟩⟩

/-- A normal dial on slot 0 and an emergency dial on slot 1, both pending. -/
def dialsOnBothSlots : CallManager :=
  .run [(.obliging, plainDial),
    (.obliging, .dialCall ⟨true, true⟩ [49, 49, 50] fun
      | .accountId => some (.int 1)
      | _ => none)]

/-- A `DIALING` report for slot 1. -/
def dialingReport : CallReportInfo := { ringingReport 1 with accountId := 1, state := 2 }

/-- The report for slot 1 numbers the dial of slot 0. -/
theorem dialing_otherSlot :
    ¬∀ (s : CallManager) (info : CallDetailInfo), Reachable s → info.IsAccepted →
      info.state = .dialing → 0 < info.index →
      OwnSlotOnly info.index info.accountId s (dialingHandle .obliging info s).2 := fun hall =>
  absurd (hall dialsOnBothSlots dialingReport.toDetail (reachable_run _)
    (@CallDetailInfo.IsAccepted.single dialingReport (by decide)) (by decide) (by decide))
      (by decide +kernel)

/-- With a dial pending on slot 1 alone, its call is numbered. -/
theorem dialing_ownSlot :
    let s := CallManager.run [(.obliging, .callReport (ringingReport 1)),
      (.obliging, .dialCall ⟨true, true⟩ [49, 49, 50] fun
        | .accountId => some (.int 1)
        | _ => none)]
    OwnSlotOnly 1 1 s (dialingHandle .obliging dialingReport.toDetail s).2 :=
  (dialing_ownSlot_iff .obliging (reachable_run _) (@CallDetailInfo.IsAccepted.single dialingReport (by decide))
    (by decide) (by decide)).2.mpr (.inl (.inr (by decide +kernel)))

end CallManagerMini
