import CallManagerMini.CallTablePlaces
import CallManagerMini.MainLoopRefinement

/-! # The recorded lists and the table

A stack that reports its calls in lists never says that a call is gone: the service
finds out by comparing a list with the one before.  In a run whose reports all come
in lists, every numbered call of the table is in the recorded list of its slot
(`listReachable_recorded`), so the comparison never misses one.
-/

namespace CallManagerMini

open Prog (Post Moves)

variable {s : CallManager}

namespace CallTable

variable {t : CallTable} {slotId index : Int}

/-- Reports of other places, and `DISCONNECTED` reports of this one, leave a place
free that is free, or that one of them frees. -/
theorem reports_free (h : t.Inv) (hpos : 0 < index) {infos : List CallDetailInfo}
    (hinfos : ∀ i ∈ infos, i.IsCarried)
    (hends : ∀ i ∈ infos, i.accountId = slotId → i.index = index → i.state = .disconnected)
    (hfree : ¬t.Occupied slotId index ∨ ∃ i ∈ infos, i.accountId = slotId ∧ i.index = index) :
    ¬(t.reports infos).Occupied slotId index := by
  induction infos generalizing t with
  | nil => exact hfree.resolve_right (by simp)
  | cons i infos ih =>
    have hi := hinfos i List.mem_cons_self
    have h' : (t.report i).2.Inv := h.report hi
    refine ih h' (fun j hj => hinfos j (List.mem_cons_of_mem i hj))
      (fun j hj => hends j (List.mem_cons_of_mem i hj)) ?_
    by_cases hplace : i.accountId = slotId ∧ i.index = index
    · obtain ⟨rfl, rfl⟩ := hplace
      have hst := hends i List.mem_cons_self rfl rfl
      have hrep : t.report i = t.disconnected i := by rw [CallTable.report, hst]
      have hgone : ¬(t.report i).2.Occupied i.accountId i.index := by
        rw [hrep]
        exact disconnected_frees h hi hpos
      exact .inl hgone
    · rcases hfree with hfree | ⟨j, hj, hjp⟩
      · refine .inl fun ho => ?_
        rcases report_mayTake h hi slotId index hpos ho with ho | ⟨hs, hx⟩
        · exact hfree ho
        · exact hplace ⟨hs.symm, hx.symm⟩
      · rcases List.mem_cons.mp hj with rfl | hj
        · exact absurd hjp hplace
        · exact .inr ⟨j, hj, hjp⟩

/-- The reports of one slot take no place of another. -/
theorem reports_otherSlot (h : t.Inv) (hpos : 0 < index) {slot : Int} (hslot : slotId ≠ slot)
    {infos : List CallDetailInfo} (hinfos : ∀ i ∈ infos, i.IsCarried ∧ i.accountId = slot)
    (ho : (t.reports infos).Occupied slotId index) : t.Occupied slotId index := by
  induction infos generalizing t with
  | nil => exact ho
  | cons i infos ih =>
    have hi := hinfos i List.mem_cons_self
    have ho' := ih (t := (t.report i).2) (h.report hi.1)
      (fun j hj => hinfos j (List.mem_cons_of_mem i hj)) ho
    rcases report_mayTake h hi.1 slotId index hpos ho' with ho' | ⟨hs, -⟩
    · exact ho'
    · exact absurd (hs.trans hi.2) hslot

/-- What the service does to the table by itself takes no numbered place. -/
theorem localChange_occupied {t' : CallTable} (h : t.Inv) (hpos : 0 < index)
    (hc : LocalChange t t') (ho : t'.Occupied slotId index) : t.Occupied slotId index := by
  cases hc with
  | fail hr => exact failCall_mayTake h hr hpos ho
  | saveDial _ => exact ho
  | dial _ hindex _ =>
    rcases addDialing_mayTake slotId index hpos ho with ho | ⟨-, hi⟩
    · exact ho
    · exact absurd (hi.trans hindex) (Int.ne_of_gt hpos)
  | dialed info reply => exact ho

theorem localChanges_occupied {t' : CallTable} (h : t.Inv) (hpos : 0 < index)
    (hc : LocalChanges t t') (ho : t'.Occupied slotId index) : t.Occupied slotId index := by
  induction hc with
  | refl => exact ho
  | tail hc hstep ih => exact ih (localChange_occupied (LocalChanges.inv h hc) hpos hstep ho)

end CallTable

/-! ## What a list says last of an index -/

/-- The last entry of a list with an index. -/
def lastEntry (callVec : List CallDetailInfo) (index : Int) : Option CallDetailInfo :=
  callVec.reverse.find? fun it => it.index = index

theorem lastEntry_eq_none {callVec : List CallDetailInfo} {index : Int}
    (h : lastEntry callVec index = none) : ∀ it ∈ callVec, it.index ≠ index := by
  intro it hit
  simpa using List.find?_eq_none.mp h it (List.mem_reverse.mpr hit)

/-- The last entry stands behind all others of its index. -/
theorem lastEntry_eq_some {callVec : List CallDetailInfo} {index : Int} {it : CallDetailInfo}
    (h : lastEntry callVec index = some it) :
    it.index = index ∧ ∃ l₁ l₂, callVec = l₁ ++ it :: l₂ ∧ ∀ it' ∈ l₂, it'.index ≠ index := by
  obtain ⟨hi, l₂, l₁, hl, hne⟩ := List.find?_eq_some_iff_append.mp h
  refine ⟨by simpa using hi, l₁.reverse, l₂.reverse, ?_, fun it' hit' => ?_⟩
  · have := congrArg List.reverse hl
    simpa using this
  · simpa using hne it' (List.mem_reverse.mp hit')

/-- The end of a call is never what is recorded of it. -/
theorem ServiceInv.isHandled_of_disconnected (h : ServiceInv s) {slotId : Int}
    {it : CallDetailInfo} (hst : it.state = .disconnected) :
    isHandled (s.callDetailsInfo slotId) it = true := by
  unfold isHandled
  split
  · next it1 hfind =>
    have hne := (h.recorded slotId it1 (List.mem_of_find?_eq_some hfind)).2.2
    simp [hasChanged, hst, Ne.symm hne]
  · rfl

/-- The reports before and after that of a handled entry. -/
theorem handledReports_split {recorded l₁ l₂ : List CallDetailInfo} {it : CallDetailInfo}
    (hit : isHandled recorded it = true) :
    handledReports recorded (l₁ ++ it :: l₂) =
      l₁.filter (isHandled recorded) ++ (it :: (l₂.filter (isHandled recorded) ++
        (vanished recorded (l₁ ++ it :: l₂)).map
          fun it2 => { it2 with state := .disconnected })) := by
  simp [handledReports, List.filter_append, hit]

/-- The reports of a list end every call the list says last is gone, or does not
mention although it was recorded. -/
theorem handledReports_free (h : ServiceInv s) {slotId index : Int} (hpos : 0 < index)
    (hrecorded : s.table.Occupied slotId index →
      ∃ it ∈ s.callDetailsInfo slotId, it.index = index)
    {callVec : List CallDetailInfo}
    (hinfos : ∀ it ∈ callVec, it.IsCarried ∧ it.accountId = slotId)
    (hlast : ∀ it, lastEntry callVec index = some it → it.state = .disconnected) :
    ¬(s.table.reports (handledReports (s.callDetailsInfo slotId) callVec)).Occupied
      slotId index := by
  set recorded := s.callDetailsInfo slotId
  have hgone : ∀ i ∈ (vanished recorded callVec).map
      (fun it2 => ({ it2 with state := .disconnected } : CallDetailInfo)),
      i.IsCarried ∧ i.state = .disconnected := by
    intro i hi
    obtain ⟨it, hit, rfl⟩ := List.mem_map.mp hi
    exact ⟨(h.recorded slotId it (mem_vanished.mp hit).1).1.withState .disconnected, rfl⟩
  have hhandled : ∀ i ∈ callVec.filter (isHandled recorded), i.IsCarried :=
    fun i hi => (hinfos i (List.mem_of_mem_filter hi)).1
  cases hentry : lastEntry callVec index with
  | none =>
    -- the list does not mention the index: a call there was recorded, and has vanished
    have hnone := lastEntry_eq_none hentry
    refine CallTable.reports_free h.table hpos ?_ ?_ ?_
    · intro i hi
      rcases List.mem_append.mp hi with hi | hi
      · exact hhandled i hi
      · exact (hgone i hi).1
    · intro i hi _ hx
      rcases List.mem_append.mp hi with hi | hi
      · exact absurd hx (hnone i (List.mem_of_mem_filter hi))
      · exact (hgone i hi).2
    · by_cases ho : s.table.Occupied slotId index
      · obtain ⟨it, hit, rfl⟩ := hrecorded ho
        have hv : it ∈ vanished recorded callVec :=
          mem_vanished.mpr ⟨hit, fun it3 h3 heq => hnone it3 h3 heq.symm⟩
        exact .inr ⟨_, List.mem_append_right _ (List.mem_map_of_mem hv),
          (h.recorded slotId it hit).2.1, rfl⟩
      · exact .inl ho
  | some it =>
    -- the last word on the index is that its call is gone
    obtain ⟨hx, l₁, l₂, rfl, hafter⟩ := lastEntry_eq_some hentry
    have hst := hlast it hentry
    have hit := hinfos it (by simp)
    have hchanged : isHandled recorded it = true := h.isHandled_of_disconnected hst
    have hbefore : ∀ i ∈ l₁.filter (isHandled recorded), i.IsCarried := fun i hi =>
      (hinfos i (List.mem_append_left _ (List.mem_of_mem_filter hi))).1
    rw [handledReports_split hchanged, CallTable.reports, List.foldl_append]
    refine CallTable.reports_free (h.table.reports hbefore) hpos ?_ ?_
      (.inr ⟨it, List.mem_cons_self, hit.2, hx⟩)
    · intro i hi
      rcases List.mem_cons.mp hi with rfl | hi
      · exact hit.1
      rcases List.mem_append.mp hi with hi | hi
      · exact (hinfos i (by simp [List.mem_of_mem_filter hi])).1
      · exact (hgone i hi).1
    · intro i hi _ hix
      rcases List.mem_cons.mp hi with rfl | hi
      · exact hst
      rcases List.mem_append.mp hi with hi | hi
      · exact absurd hix (hafter i (List.mem_of_mem_filter hi))
      · exact (hgone i hi).2

/-! ## Runs whose reports come in lists -/

/-- Every input but a single report. -/
def Input.IsListed : Input → Prop
  | .callReport _ => False
  | _ => True

/-- A main-loop step that handles no single report. -/
def ListStep (s s' : CallManager) : Prop :=
  ∃ env input, input.IsListed ∧ s' = (mainLoopStep env input s).2

/-- The states of the runs in which the stack reports its calls only in lists. -/
def ListReachable : CallManager → Prop := Runs.Reachable (· = CallManager.init) ListStep

theorem ListReachable.reachable (hs : ListReachable s) : Reachable s :=
  hs.mono fun _ _ ⟨env, input, _, hs'⟩ => ⟨env, input, hs'⟩

/-- Every numbered call of the table is in the recorded list of its slot. -/
def AllRecorded (s : CallManager) : Prop :=
  ∀ slotId index, 0 < index → s.table.Occupied slotId index →
    ∃ it ∈ s.callDetailsInfo slotId, it.index = index

/-- The entries of a list that passed the guard. -/
theorem mem_listDetails {slotId : Int} {callVec : List CallReportInfo}
    (hv : isValidReportList slotId callVec = true) :
    ∀ it ∈ callVec.map CallReportInfo.toListDetail, it.IsCarried ∧ it.accountId = slotId := by
  simp only [isValidReportList, Bool.and_eq_true, List.all_eq_true, decide_eq_true_eq] at hv
  intro it hit
  obtain ⟨c, hc, rfl⟩ := List.mem_map.mp hit
  exact ⟨isCarried_toListDetail (hv.2 c hc).1, (hv.2 c hc).2⟩

/-- After a list, a numbered call of its slot is one the list ends on as present. -/
theorem callsReport_lastEntry (env : Env) (h : ServiceInv s) (hall : AllRecorded s)
    {slotId : Int} {callVec : List CallReportInfo} (hv : isValidReportList slotId callVec = true)
    {index : Int} (hpos : 0 < index)
    (ho : (mainLoopStep env (.callsReport slotId callVec) s).2.table.Occupied slotId index) :
    ∃ it, lastEntry (callVec.map CallReportInfo.toListDetail) index = some it ∧
      it.state ≠ .disconnected := by
  have heff := mainLoopStep_post env h (.callsReport slotId callVec)
  by_contra hno
  push Not at hno
  refine handledReports_free h hpos (hall slotId index hpos) (mem_listDetails hv) hno ?_
  have := heff.table
  simp only [Input.reports, hv, if_true] at this
  refine CallTable.localChanges_occupied (h.table.reports ?_) hpos this ho
  have hc := @ServiceInv.isCarried _ h (.callsReport slotId callVec)
  simpa only [Input.reports, hv, if_true] using hc

/-- The recorded list has what the list ends on as present. -/
theorem mem_recordedOf {callVec : List CallDetailInfo} {index : Int} {it : CallDetailInfo}
    (hlast : lastEntry callVec index = some it) (hst : it.state ≠ .disconnected) :
    ∃ it ∈ recordedOf callVec, it.index = index := by
  have hmem := List.mem_reverse.mp (List.mem_of_find?_eq_some hlast)
  exact ⟨it, List.mem_filter.mpr ⟨hmem, by simpa using hst⟩, (lastEntry_eq_some hlast).1⟩

/-- A step without a single report keeps every numbered call recorded. -/
theorem AllRecorded.step (env : Env) (h : ServiceInv s) (hall : AllRecorded s) {input : Input}
    (hlisted : input.IsListed) : AllRecorded (mainLoopStep env input s).2 := by
  have heff := mainLoopStep_post env h input
  have hlocal : input.reports s = [] → input.recorded s = s.callDetailsInfo →
      AllRecorded (mainLoopStep env input s).2 := by
    intro hr hc slotId index hpos ho
    rw [heff.recorded, hc]
    have htab := heff.table
    rw [hr] at htab
    exact hall slotId index hpos (CallTable.localChanges_occupied h.table hpos htab ho)
  cases input with
  | callReport info => cases hlisted
  | callsReport slot callVec =>
    by_cases hv : isValidReportList slot callVec = true
    · intro slotId index hpos ho
      rw [heff.recorded]
      simp only [Input.recorded, hv, if_true]
      by_cases hslot : slotId = slot
      · subst hslot
        obtain ⟨it, hlast, hst⟩ := callsReport_lastEntry env h hall hv hpos ho
        rw [Function.update_self]
        exact mem_recordedOf hlast hst
      · rw [Function.update_of_ne hslot]
        have htab := heff.table
        have hcar := @ServiceInv.isCarried _ h (.callsReport slot callVec)
        refine hall slotId index hpos (CallTable.reports_otherSlot h.table hpos hslot ?_
          (CallTable.localChanges_occupied (h.table.reports hcar) hpos htab ho))
        intro i hi
        refine ⟨hcar i hi, ?_⟩
        simp only [Input.reports, hv, if_true] at hi
        rcases List.mem_append.mp hi with hi | hi
        · exact (mem_listDetails hv i (List.mem_of_mem_filter hi)).2
        · obtain ⟨it, hit, rfl⟩ := List.mem_map.mp hi
          exact (h.recorded slot it (mem_vanished.mp hit).1).2.1
    · exact hlocal (by simp [Input.reports, hv]) (by simp [Input.recorded, hv])
  | _ => exact hlocal rfl rfl

theorem listReachable_recorded (hs : ListReachable s) : AllRecorded s :=
  hs.invariant_of (fun _ hs => reachable_inv (ListReachable.reachable hs))
    (fun _ h => h ▸ fun _ _ _ ⟨_, hr, _⟩ => by cases hr)
    fun _ _ h hall ⟨env, _, hlisted, hs'⟩ => hs' ▸ hall.step env h hlisted

/-- **No orphaned calls.**  In a run whose reports come in lists, after a list of a
slot every numbered call of the slot has its index in the list just recorded, and
the last the list says of that index is not that the call is gone. -/
theorem callsReport_noOrphans (env : Env) (hs : ListReachable s) {slotId : Int}
    {callVec : List CallReportInfo} (hv : isValidReportList slotId callVec = true)
      {s' : CallManager}
    (hs' : s' = (mainLoopStep env (.callsReport slotId callVec) s).2) :
    s'.callDetailsInfo slotId = recordedOf (callVec.map CallReportInfo.toListDetail) ∧
      ∀ p ∈ s'.callObjectPtrList, (s'.call p).slotId = slotId → 0 < (s'.call p).index →
        (∃ it ∈ s'.callDetailsInfo slotId, it.index = (s'.call p).index) ∧
          ∃ it, lastEntry (callVec.map CallReportInfo.toListDetail) (s'.call p).index = some it ∧
            it.state ≠ .disconnected := by
  have h := reachable_inv hs.reachable
  have hrec := (mainLoopStep_post env h (.callsReport slotId callVec)).recorded
  have hlist : s'.callDetailsInfo slotId = recordedOf
    (callVec.map CallReportInfo.toListDetail) := by
    rw [hs', hrec]
    simp [Input.recorded, hv]
  refine ⟨hlist, fun p hp hslot hpos => ?_⟩
  have ho : s'.table.Occupied slotId (s'.call p).index := ⟨_, s'.row_mem_table hp, hslot, rfl⟩
  obtain ⟨it, hlast, hst⟩ :=
    callsReport_lastEntry env h (listReachable_recorded hs) hv hpos (hs' ▸ ho)
  exact ⟨hlist ▸ mem_recordedOf hlast hst, it, hlast, hst⟩

/-- Two ringing calls, of which the next list drops the first. -/
theorem callsReport_noOrphans_dropped :
    let s := (mainLoopStep .obliging (.callsReport 0 [ringingReport 1, ringingReport 2]) .init).2
    let s' := (mainLoopStep .obliging (.callsReport 0 [ringingReport 2]) s).2
    s.callObjectPtrList = [0, 1] ∧ s'.callObjectPtrList = [1] ∧
      ∀ p ∈ s'.callObjectPtrList, (s'.call p).slotId = 0 → 0 < (s'.call p).index →
        ∃ it ∈ s'.callDetailsInfo 0, it.index = (s'.call p).index :=
  have hs : ListReachable
      (mainLoopStep .obliging (.callsReport 0 [ringingReport 1, ringingReport 2]) .init).2 :=
    .next (.start rfl) ⟨.obliging, .callsReport 0 [ringingReport 1, ringingReport 2], trivial, rfl⟩
  ⟨by decide +kernel, by decide +kernel, fun p hp hslot hpos =>
    ((callsReport_noOrphans .obliging hs (by decide) rfl).2 p hp hslot hpos).1⟩

end CallManagerMini
