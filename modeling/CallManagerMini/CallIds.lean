import CallManagerMini.CallTablePlaces
import CallManagerMini.ServiceRefinement

/-! # The ids of calls

An id is handed out once.  Between two tables of a run a call goes on under its id and in its
direction, or is new, with an id that was not handed out before; and what is announced is about
such calls (`Descends`).  So an id whose call has left the table does not come back, and nothing
more is announced of it (`callIds_retire`), whatever refreshes, failures and dials come in between.
-/

namespace CallManagerMini

/-- The call an announcement is about. -/
def Mark.subject : Mark → Option Int
  | .added callId _ | .changed callId .. => some callId
  | .dialed .. => none

namespace CallTable

variable {t t' t'' : CallTable} {r q : Row} {info : CallDetailInfo} {callId : Int}

/-- A call of the table has the id, or it was not handed out yet. -/
def Current (t : CallTable) (callId : Int) : Prop :=
  (∃ r ∈ t.rows, r.callId = callId) ∨ t.lastCallId < callId

/-- **What becomes of the calls of a table.** -/
structure Descends (t t' : CallTable) : Prop where
  last : t.lastCallId ≤ t'.lastCallId
  rows : ∀ r' ∈ t'.rows,
    (∃ r ∈ t.rows, r.callId = r'.callId ∧ r.direction = r'.direction) ∨ t.lastCallId < r'.callId
  history : ∃ marks, t'.history = t.history ++ marks ∧
    ∀ m ∈ marks, ∀ c ∈ m.subject, t.Current c

theorem current_of_mem (hr : r ∈ t.rows) : t.Current r.callId := .inl ⟨r, hr, rfl⟩

/-- Who is current later was so before. -/
theorem Descends.current (h : Descends t t') (hc : t'.Current callId) : t.Current callId := by
  rcases hc with ⟨r', hr', rfl⟩ | hlast
  · rcases h.rows r' hr' with ⟨r, hr, hid, -⟩ | hnew
    · exact .inl ⟨r, hr, hid⟩
    · exact .inr hnew
  · exact .inr (Int.lt_of_le_of_lt h.last hlast)

theorem Descends.refl (t : CallTable) : Descends t t where
  last := Int.le_refl _
  rows r hr := .inl ⟨r, hr, rfl, rfl⟩
  history := ⟨[], (List.append_nil _).symm, by simp⟩

theorem Descends.trans (h : Descends t t') (h' : Descends t' t'') : Descends t t'' := by
  obtain ⟨marks, hmarks, hsubject⟩ := h.history
  obtain ⟨marks', hmarks', hsubject'⟩ := h'.history
  refine ⟨Int.le_trans h.last h'.last, fun r'' hr'' => ?_, marks ++ marks', ?_, fun m hm c hc => ?_⟩
  · rcases h'.rows r'' hr'' with ⟨r', hr', hid', hdir'⟩ | hnew
    · rcases h.rows r' hr' with ⟨r, hr, hid, hdir⟩ | hnew
      · exact .inl ⟨r, hr, hid.trans hid', hdir.trans hdir'⟩
      · exact .inr (hid' ▸ hnew)
    · exact .inr (Int.lt_of_le_of_lt h.last hnew)
  · rw [hmarks', hmarks, List.append_assoc]
  · rcases List.mem_append.mp hm with hm | hm
    · exact hsubject m hm c hc
    · exact h.current (hsubject' m hm c hc)

/-! ## The parts of a report -/

/-- The rows change, and keep their ids and directions. -/
theorem descends_update (callId : Int) {f : Row → Row}
    (hf : ∀ q, (f q).callId = q.callId ∧ (f q).direction = q.direction) :
    Descends t (t.update callId f) := by
  refine ⟨Int.le_refl _, fun r' hr' => .inl ?_, (Descends.refl t).history⟩
  obtain ⟨q, hq, rfl⟩ := Keyed.mem_update.mp hr'
  split
  · exact ⟨q, hq, (hf q).1.symm, (hf q).2.symm⟩
  · exact ⟨q, hq, rfl, rfl⟩

theorem descends_remove (callId : Int) : Descends t (t.remove callId) :=
  ⟨Int.le_refl _, fun r hr => .inl ⟨r, Keyed.remove_sublist.subset hr, rfl, rfl⟩,
    (Descends.refl t).history⟩

theorem descends_created : Descends t t.created :=
  ⟨Int.le_add_one (Int.le_refl _), (Descends.refl t).rows, (Descends.refl t).history⟩

theorem refresh_descends (h : t.Inv) (hr : r ∈ t.rows) : Descends t (t.refresh r info).2 := by
  refine refresh_cases h hr info ?_ ?_ ?_
  · intro _
    exact descends_update _ fun q => ⟨by simp, by simp⟩
  · intro _ _ _
    have hgone := descends_created.trans (descends_remove (t := t.created) r.callId)
    refine ⟨hgone.last, fun r' hr' => ?_, [.added r.callId info.state], rfl, fun m hm c hc => ?_⟩
    · rcases List.mem_append.mp hr' with hr' | hr'
      · exact hgone.rows r' hr'
      · obtain rfl := List.mem_singleton.mp hr'
        exact .inl ⟨r, hr, rfl, rfl⟩
    · obtain rfl := List.mem_singleton.mp hm
      obtain rfl : r.callId = c := Option.some.inj hc
      exact current_of_mem hr
  · intro _ _
    exact descends_created.trans (descends_remove (t := t.created) r.callId)

/-- The refreshed call, if its refresh has not lost it, is announced under its id. -/
theorem moveTo_descends (h : t.Inv) (hr : r ∈ t.rows) (next : TelCallState) :
    Descends t (t.moveTo next info r).2 := by
  have hrefresh : Descends t (t.refresh r info).2 := refresh_descends h hr
  have hrows : Descends (t.refresh r info).2 ((t.refresh r info).2.update
      (t.refresh r info).1.callId (Row.setState next)) := descends_update _ fun _ => ⟨rfl, rfl⟩
  obtain ⟨marks, hmarks, hsubject⟩ := hrefresh.history
  refine ⟨hrefresh.last, (hrefresh.trans hrows).rows,
    marks ++ stateChange r.callId r.callState next, ?_, fun m hm c hc => ?_⟩
  · show (t.refresh r info).2.history ++ stateChange _ _ _ = _
    rw [hmarks, refresh_callId h hr, refresh_callState h hr, List.append_assoc]
  · rcases List.mem_append.mp hm with hm | hm
    · exact hsubject m hm c hc
    · unfold stateChange at hm
      split at hm
      · cases hm
      · obtain rfl := List.mem_singleton.mp hm
        obtain rfl : r.callId = c := Option.some.inj hc
        exact current_of_mem hr

/-- A new call has the id that was handed out for it. -/
theorem insertNew_descends (direction : CallDirection) (st : TelCallState) :
    Descends t ((t.created.insert (t.newRow info direction)).update
      (t.newRow info direction).callId (Row.setState st)) := by
  have hinsert : Descends t (t.created.insert (t.newRow info direction)) := by
    refine ⟨descends_created.last, fun r' hr' => ?_,
      [.added (t.lastCallId + 1) info.state], rfl, fun m hm c hc => ?_⟩
    · rcases List.mem_append.mp hr' with hr' | hr'
      · exact descends_created.rows r' hr'
      · obtain rfl := List.mem_singleton.mp hr'
        exact .inr (Int.lt_succ _)
    · obtain rfl := List.mem_singleton.mp hm
      obtain rfl : t.lastCallId + 1 = c := Option.some.inj hc
      exact .inr (Int.lt_succ _)
  exact hinsert.trans (descends_update _ fun _ => ⟨rfl, rfl⟩)

theorem addDialing_descends : Descends t (t.addDialing info).2 := by
  unfold addDialing
  dsimp only
  split
  · exact insertNew_descends .outgoing .dialing
  · exact descends_created

theorem addIncoming_descends : Descends t (t.addIncoming info).2 := by
  unfold addIncoming
  dsimp only
  split
  · exact insertNew_descends .incoming info.state
  · exact descends_created

theorem adopt_descends (h : t.Inv) : Descends t (t.adopt info).2 := by
  unfold adopt
  split
  · exact .refl t
  · next r hr =>
    exact (refresh_descends h (pending_eq_some hr).1).trans (descends_update _ fun _ => ⟨rfl, rfl⟩)

theorem updateDialing_descends (h : t.Inv) : Descends t (t.updateDialing info).2 := by
  unfold updateDialing
  split
  · next r hr => exact refresh_descends h (callAt_eq_some hr).1
  · exact adopt_descends h

theorem dialing_descends (h : t.Inv) : Descends t (t.dialing info).2 := by
  unfold dialing
  split
  · exact updateDialing_descends h
  · exact addDialing_descends

theorem reported_descends (h : t.Inv) : Descends t (t.reported info).2 := by
  unfold reported
  split
  · exact .refl t
  split
  · exact dialing_descends h
  · exact .refl t

/-- A report finds no call, or the one at its place. -/
@[elab_as_elim]
theorem reported_lineage {motive : Option Row × CallTable → Prop} (h : t.Inv)
    (hinfo : info.IsCarried) (none : ∀ t' : CallTable, Descends t t' → motive (none, t'))
    (some : ∀ (r : Row) (t' : CallTable), t'.Inv → Descends t t' → r ∈ t'.rows →
      motive (some r, t')) :
    motive (t.reported info) := by
  have hdesc : Descends t (t.reported info).2 := reported_descends h
  have hrep := h.reported hinfo
  have hat := fun r => @reported_eq_some t r info
  cases hx : t.reported info with
  | mk found t' =>
    rw [hx] at hdesc hrep hat
    cases found with
    | none => exact none t' hdesc
    | some r => exact some r t' hrep hdesc (callAt_eq_some (hat r rfl)).1

theorem active_descends (h : t.Inv) (hinfo : info.IsCarried) : Descends t (t.active info).2 := by
  unfold active
  refine reported_lineage h hinfo (fun t' hdesc => hdesc) fun r t' h' hdesc hr => ?_
  exact hdesc.trans (moveTo_descends h' hr _)

theorem alerting_descends (h : t.Inv) (hinfo : info.IsCarried) :
    Descends t (t.alerting info).2 := by
  unfold alerting
  refine reported_lineage h hinfo (fun t' hdesc => hdesc) fun r t' h' hdesc hr => ?_
  dsimp only
  split
  · exact hdesc
  · exact hdesc.trans (moveTo_descends h' hr _)

theorem moveKnown_descends (h : t.Inv) (next : TelCallState) :
    Descends t (t.moveKnown next info).2 := by
  unfold moveKnown
  split
  · exact .refl t
  · next r hr => exact moveTo_descends h (callAt_eq_some hr).1 next

theorem disconnect_descends (h : t.Inv) (hr : r ∈ t.rows) : Descends t (t.disconnect info r) :=
  (moveTo_descends h hr .disconnected).trans (descends_remove _)

theorem disconnected_descends (h : t.Inv) (hinfo : info.IsCarried) :
    Descends t (t.disconnected info).2 := by
  unfold disconnected
  refine reported_lineage h hinfo (fun t' hdesc => hdesc) fun r t' h' hdesc hr => ?_
  exact hdesc.trans (disconnect_descends h' hr)

theorem failCall_descends (h : t.Inv) (hr : r ∈ t.rows) : Descends t (t.failCall r).2 :=
  disconnected_descends h (h.disconnectedInfo_isCarried hr)

theorem failPending_descends (h : t.Inv) : Descends t t.failPending := by
  unfold failPending
  split
  · exact .refl t
  · next r hr => exact failCall_descends h (pending_eq_some hr).1

theorem oldIncoming_descends (h : t.Inv) (hr : r ∈ t.rows) : Descends t (t.oldIncoming info r) := by
  unfold oldIncoming
  dsimp only
  split
  · split
    · exact moveTo_descends h hr info.state
    · exact refresh_descends h hr
  · exact .refl t

theorem incoming_descends (h : t.Inv) : Descends t (t.incoming info).2 := by
  refine (failPending_descends h).trans ?_
  unfold incoming
  dsimp only
  split
  · next r hr => exact oldIncoming_descends h.failPending (callAt_eq_some hr).1
  · exact addIncoming_descends

theorem report_descends (h : t.Inv) (hinfo : info.IsCarried) : Descends t (t.report info).2 := by
  unfold report
  split
  · exact active_descends h hinfo
  · exact moveKnown_descends h _
  · exact dialing_descends h
  · exact alerting_descends h hinfo
  · exact incoming_descends h
  · exact incoming_descends h
  · exact disconnected_descends h hinfo
  · exact moveKnown_descends h _
  · exact .refl t

theorem reports_descends (h : t.Inv) {infos : List CallDetailInfo}
    (hinfos : ∀ i ∈ infos, i.IsCarried) : Descends t (t.reports infos) := by
  induction infos generalizing t with
  | nil => exact .refl t
  | cons info infos ih =>
    have hinfo := hinfos info (List.mem_cons_self ..)
    exact (report_descends h hinfo).trans
      (ih (h.report hinfo) fun i hi => hinfos i (List.mem_cons_of_mem _ hi))

theorem localChange_descends (h : t.Inv) (hc : LocalChange t t') : Descends t t' := by
  cases hc with
  | fail hr => exact failCall_descends h hr
  | saveDial _ => exact ⟨Int.le_refl _, (Descends.refl t).rows, (Descends.refl t).history⟩
  | dial _ _ _ => exact addDialing_descends
  | dialed info reply =>
    refine ⟨Int.le_refl _, (Descends.refl t).rows, [.dialed info reply], rfl, fun m hm c hc => ?_⟩
    obtain rfl := List.mem_singleton.mp hm
    cases hc

theorem localChanges_descends (h : t.Inv) (hc : LocalChanges t t') : Descends t t' := by
  induction hc with
  | refl => exact .refl t
  | tail hcs hc ih => exact ih.trans (localChange_descends (LocalChanges.inv h hcs) hc)

end CallTable

/-! ## Every run -/

open CallTable (Descends)

/-- A step of the machine on the table. -/
theorem Board.Step.descends {b b' : Board} {input : Input} (h : Board.Step input b b')
    (hinv : b.table.Inv) (hrecorded : ∀ slotId, ∀ it ∈ b.recorded slotId, it.IsCarried) :
    Descends b.table b'.table := by
  cases h with
  | callReport info =>
    unfold Board.callReport
    split
    · next hv => exact CallTable.report_descends hinv (isCarried_toDetail hv)
    · exact .refl _
  | callsReport slotId callVec =>
    unfold Board.callsReport
    split
    · next hv =>
      refine CallTable.reports_descends hinv fun i hi => ?_
      simp only [isValidReportList, Bool.and_eq_true, List.all_eq_true, decide_eq_true_eq] at hv
      rcases List.mem_append.mp hi with hi | hi
      · obtain ⟨c, hc, rfl⟩ := List.mem_map.mp (List.mem_of_mem_filter hi)
        exact isCarried_toListDetail (hv.2 c hc).1
      · obtain ⟨it, hit, rfl⟩ := List.mem_map.mp hi
        exact (hrecorded slotId it (mem_vanished.mp hit).1).withState .disconnected
    · exact .refl _
  | eventResult eventId =>
    show Descends b.table b.table.failDialing
    unfold CallTable.failDialing
    split
    · exact .refl _
    next r hr =>
      exact CallTable.failCall_descends hinv (List.mem_reverse.mp (List.mem_of_find?_eq_some hr))
  | dialCall caller number extras _ hout =>
    exact CallTable.localChanges_descends hinv hout.localChanges
  | taskIdle => exact .refl _
  | taskFails taskId _ hr => exact CallTable.failCall_descends hinv hr
  | asks => exact .refl _

/-- What becomes of the calls in a run of the service. -/
theorem labelled_descends {s s' : CallManager} {inputs : List Input} (h : ServiceInv s)
    (hrun : Runs.Labelled CallManager.InputStep inputs s s') : Descends s.table s'.table := by
  refine hrun.relation (R := fun s s' : CallManager => Descends s.table s'.table)
    (fun s => Descends.refl s.table) (fun _ _ _ => Descends.trans)
    (fun _ s s' hinv hstep => ?_) h
  obtain ⟨hinv', hboard⟩ := inputStep_board hinv hstep
  exact ⟨hinv', hboard.descends hinv.table fun slotId it hit => (hinv.recorded slotId it hit).1⟩

/-- What an application can rely on about the ids of calls, from one state to a later one. -/
structure IdsRetire (s s' : CallManager) : Prop where
  /-- An id whose call has left the table does not come back. -/
  retired : ∀ callId ≤ s.callId, (∀ p ∈ s.callObjectPtrList, (s.call p).callId ≠ callId) →
    ∀ p ∈ s'.callObjectPtrList, (s'.call p).callId ≠ callId
  /-- Nothing more is announced of it. -/
  silent : ∃ marks, s'.history = s.history ++ marks ∧ ∀ callId ≤ s.callId,
    (∀ p ∈ s.callObjectPtrList, (s.call p).callId ≠ callId) → ∀ m ∈ marks, m.subject ≠ some callId
  /-- A call that is still there has not changed its direction. -/
  direction : ∀ p ∈ s.callObjectPtrList, ∀ p' ∈ s'.callObjectPtrList,
    (s'.call p').callId = (s.call p).callId → (s'.call p').direction = (s.call p).direction

theorem CallTable.Descends.idsRetire {s s' : CallManager} (h : ServiceInv s)
    (hdesc : Descends s.table s'.table) : IdsRetire s s' := by
  have hgone : ∀ callId ≤ s.callId, (∀ p ∈ s.callObjectPtrList, (s.call p).callId ≠ callId) →
      ¬ s.table.Current callId := by
    rintro callId hle hnot (⟨r, hr, hid⟩ | hnew)
    · obtain ⟨p, hp, rfl⟩ := CallManager.mem_table_rows.mp hr
      exact hnot p hp hid
    · exact absurd (Int.lt_of_le_of_lt hle hnew) (Int.lt_irrefl _)
  obtain ⟨marks, hmarks, hsubject⟩ := hdesc.history
  refine ⟨fun callId hle hnot p hp hid => ?_, ⟨marks, hmarks, fun callId hle hnot m hm hid => ?_⟩,
    fun p hp p' hp' hid => ?_⟩
  · refine hgone callId hle hnot ?_
    rw [← hid]
    exact hdesc.current (CallTable.current_of_mem (s'.row_mem_table hp))
  · exact hgone callId hle hnot (hsubject m hm callId hid)
  · rcases hdesc.rows _ (s'.row_mem_table hp') with ⟨r, hr, hrid, hdir⟩ | hnew
    · have hsame : r = s.row p := h.table.eq_of_callId hr (s.row_mem_table hp) (hrid.trans hid)
      rw [hsame] at hdir
      exact hdir.symm
    · have hle : (s.row p).callId ≤ s.table.lastCallId := (h.table.ok _ (s.row_mem_table hp)).id_le
      have hle' : (s'.row p').callId ≤ s.table.lastCallId := by
        rw [show (s'.row p').callId = (s.row p).callId from hid]
        exact hle
      exact absurd (Int.lt_of_lt_of_le hnew hle') (Int.lt_irrefl _)

/-- **Ids are handed out once**: in every run of the service, from every reachable state. -/
theorem callIds_retire (s s' : CallManager) (hs : Reachable s) (inputs : List Input)
    (hrun : Runs.Labelled CallManager.InputStep inputs s s') : IdsRetire s s' :=
  (labelled_descends (reachable_inv hs) hrun).idsRetire (reachable_inv hs)

/-- A call comes and ends. -/
def oneCallEnded : List (Env × Input) :=
  [(.obliging, .callReport (ringingReport 1)),
    (.obliging, .callReport { ringingReport 1 with state := 6 })]

/-- Another call rings at the place of the one that ended: under a new id. -/
theorem callIds_retire_ended :
    let s := CallManager.run oneCallEnded
    let s' := CallManager.run (oneCallEnded ++ [(.obliging, .callReport (ringingReport 1))])
    s.callObjectPtrList = [] ∧ s.callId = 1 ∧
      s'.callObjectPtrList.map (fun p => (s'.call p).callId) = [2] ∧ IdsRetire s s' :=
  ⟨by decide +kernel, by decide +kernel, by decide +kernel,
    callIds_retire _ _ (reachable_run _) _ (labelled_run_append ..)⟩

end CallManagerMini
