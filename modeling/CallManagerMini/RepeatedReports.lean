import CallManagerMini.RefusedIncoming

/-! # Reports that are repeated

A list report is compared with the recorded list of its slot, entry by entry, and then becomes
the recorded list itself, whatever came of its entries.  A list that reports the recorded list
again finds every entry as it was (`isHandled_recorded`) and misses none, so that it does
nothing (`callsReport_recorded`), and neither does any further repetition
(`callsReport_repeated`).  Only a call that alerts is handled anew each time.
-/

namespace CallManagerMini

variable {s : CallManager} {slotId : Int} {callVec : List CallDetailInfo}

/-- A list that says each call once, and none that alerts or is disconnected. -/
structure Repeatable (callVec : List CallDetailInfo) : Prop where
  distinct : callVec.Pairwise fun it it' => it.index ≠ it'.index
  states : ∀ it ∈ callVec, it.state ≠ .alerting ∧ it.state ≠ .disconnected

/-- Nothing is dropped of such a list when it is recorded. -/
theorem Repeatable.recordedOf (h : Repeatable callVec) : recordedOf callVec = callVec :=
  List.filter_eq_self.mpr fun it hit => by simp [(h.states it hit).2]

/-- In a list that says each call once, an index is found with its own entry. -/
theorem find?_index {it : CallDetailInfo}
    (hdistinct : callVec.Pairwise fun it it' => it.index ≠ it'.index) (hit : it ∈ callVec) :
    (callVec.find? fun it1 => it.index = it1.index) = some it := by
  induction callVec with
  | nil => cases hit
  | cons a l ih =>
    obtain ⟨hhead, htail⟩ := List.pairwise_cons.mp hdistinct
    rcases List.mem_cons.mp hit with rfl | hit
    · exact List.find?_cons_of_pos (by simp)
    · rw [List.find?_cons_of_neg (by simpa using (hhead it hit).symm)]
      exact ih htail hit

/-- **An entry that is recorded as it is reported is not handled.** -/
theorem isHandled_recorded (h : Repeatable callVec) :
    ∀ it ∈ callVec, isHandled callVec it = false := by
  intro it hit
  unfold isHandled
  rw [find?_index h.distinct hit]
  simp [hasChanged, (h.states it hit).1]

/-- Entries none of which is missing. -/
theorem forEach_present (env : Env) {recorded : List CallDetailInfo}
    (hpresent : ∀ it ∈ recorded, it ∈ callVec) (s : CallManager) :
    Prog.forEach recorded (fun it2 =>
      Prog.when (!callVec.any fun it3 => it2.index = it3.index)
        (handleCallReportInfo env { it2 with state := .disconnected }).ignore) s = ((), s) := by
  induction recorded with
  | nil => rfl
  | cons it l ih =>
    have hany : (callVec.any fun it3 => it.index = it3.index) = true :=
      List.any_eq_true.mpr ⟨it, hpresent it List.mem_cons_self, by simp⟩
    rw [Prog.forEach_cons, Prog.when_apply, if_neg (by simp [hany])]
    exact ih fun it' hit' => hpresent it' (List.mem_cons_of_mem it hit')

/-- **A list that is recorded already does nothing.** -/
theorem callsReport_recorded (env : Env) (h : Repeatable callVec)
    (hrecorded : s.callDetailsInfo slotId = callVec) :
    ∃ tmp, (handleCallsReportInfo env slotId callVec s).2 =
      { s with tmpCallDetailsInfo := tmp } := by
  by_cases hslot : isValidSlotId slotId = true
  · have hupdate : Function.update s.callDetailsInfo slotId (recordedOf callVec) =
        s.callDetailsInfo := by
      rw [h.recordedOf, ← hrecorded, Function.update_eq_self]
    refine ⟨(handleCallsReportInfo env slotId callVec s).2.tmpCallDetailsInfo, ?_⟩
    rw [handleCallsReportInfo_eq env hslot, hrecorded]
    unfold handleEntries
    rw [Prog.bind_apply, forEach_unhandled env (isHandled_recorded h), Prog.bind_apply,
      forEach_present env fun _ => id, Prog.bind_apply]
    unfold updateCallDetailsInfo
    simp only [Prog.modify_apply, Prog.pure_apply]
    rw [show Function.update s.callDetailsInfo slotId
      (callVec.filter fun i => i.state ≠ .disconnected) = s.callDetailsInfo from hupdate]
  · refine ⟨s.tmpCallDetailsInfo, ?_⟩
    unfold handleCallsReportInfo
    rw [if_pos (by simpa using hslot)]
    rfl

/-- What a list report leaves recorded of its slot. -/
theorem callsReport_records (env : Env) (hslot : isValidSlotId slotId = true)
    (callVec : List CallDetailInfo) (s : CallManager) :
    (handleCallsReportInfo env slotId callVec s).2.callDetailsInfo slotId = recordedOf callVec := by
  rw [handleCallsReportInfo_eq env hslot]
  unfold handleEntries
  simp only [Prog.bind_apply]
  exact Function.update_self ..

/-- The list reports of a slot, one after the other in their environments. -/
def callsReports (envs : List Env) (slotId : Int) (callVec : List CallReportInfo)
    (s : CallManager) : CallManager :=
  envs.foldl (fun s env => (mainLoopStep env (.callsReport slotId callVec) s).2) s

theorem callsReport_step (env : Env) {callVec : List CallReportInfo}
    (hvalid : isValidReportList slotId callVec = true) (s : CallManager) :
    (mainLoopStep env (.callsReport slotId callVec) s).2 =
      (handleCallsReportInfo env slotId (callVec.map CallReportInfo.toListDetail) s).2 := by
  change (Prog.when _ _ s).2 = _
  rw [Prog.when_apply, if_pos hvalid]
  rfl

theorem callsReports_recorded (envs : List Env) {callVec : List CallReportInfo}
    (hvalid : isValidReportList slotId callVec = true)
    (h : Repeatable (callVec.map CallReportInfo.toListDetail))
    (hrecorded : s.callDetailsInfo slotId = callVec.map CallReportInfo.toListDetail) :
    ∃ tmp, callsReports envs slotId callVec s = { s with tmpCallDetailsInfo := tmp } := by
  induction envs generalizing s with
  | nil => exact ⟨s.tmpCallDetailsInfo, rfl⟩
  | cons env envs ih =>
    obtain ⟨tmp, htmp⟩ := callsReport_recorded env h hrecorded
    rw [← callsReport_step env hvalid s] at htmp
    obtain ⟨tmp', htmp'⟩ := ih (s := { s with tmpCallDetailsInfo := tmp }) hrecorded
    refine ⟨tmp', ?_⟩
    change callsReports envs slotId callVec (mainLoopStep env _ s).2 = _
    rw [htmp, htmp']

/-- **Repeated list reports are harmless**: however often a list is reported again, in whatever
environment, everything stays as it was after the first time. -/
theorem callsReport_repeated (env : Env) (envs : List Env) (slotId : Int)
    {callVec : List CallReportInfo} (h : Repeatable (callVec.map CallReportInfo.toListDetail))
    (s : CallManager) :
    ∃ tmp, callsReports (env :: envs) slotId callVec s =
      { callsReports [env] slotId callVec s with tmpCallDetailsInfo := tmp } := by
  by_cases hvalid : isValidReportList slotId callVec = true
  · have hslot : isValidSlotId slotId = true := by
      simp only [isValidReportList, Bool.and_eq_true] at hvalid
      exact hvalid.1.2
    have hfirst : (callsReports [env] slotId callVec s).callDetailsInfo slotId =
        callVec.map CallReportInfo.toListDetail := by
      have hrecords := callsReport_records env hslot (callVec.map CallReportInfo.toListDetail) s
      rw [h.recordedOf] at hrecords
      simp only [callsReports, List.foldl_cons, List.foldl_nil]
      rw [callsReport_step env hvalid]
      exact hrecords
    exact callsReports_recorded envs hvalid h hfirst
  · have hnone : ∀ env s, (mainLoopStep env (.callsReport slotId callVec) s).2 = s := by
      intro env s
      change (Prog.when _ _ s).2 = s
      rw [Prog.when_apply, if_neg hvalid]
    have hall : ∀ envs s, callsReports envs slotId callVec s = s := by
      intro envs
      induction envs with
      | nil => exact fun _ => rfl
      | cons env envs ih =>
        intro s
        change callsReports envs slotId callVec (mainLoopStep env _ s).2 = s
        rw [hnone]
        exact ih s
    exact ⟨s.tmpCallDetailsInfo, by rw [hall, hall]⟩

/-- Of five ringing calls the table takes four; the fifth is recorded, and not tried again. -/
theorem callsReport_repeated_refused :
    (callsReports [.obliging] 0 ([1, 2, 3, 4, 5].map ringingReport) .init).callObjectPtrList.length
        = 4 ∧
      ∃ tmp, callsReports (.obliging :: [.obliging, .refusing]) 0
          ([1, 2, 3, 4, 5].map ringingReport) .init =
        { callsReports [.obliging] 0 ([1, 2, 3, 4, 5].map ringingReport) .init with
          tmpCallDetailsInfo := tmp } :=
  ⟨by decide +kernel, callsReport_repeated .obliging [.obliging, .refusing] 0
    ⟨by decide +kernel, by decide +kernel⟩ .init⟩

end CallManagerMini
