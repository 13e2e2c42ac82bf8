import CallManagerMini.PhantomCalls
import CallManagerMini.RecordedCalls
import CallManagerMini.RefusedDials

/-! # Ringing calls the table refused

A ringing call for which there is no room is turned away, but its entry stays in the
recorded list of its slot.  When the stack drops the entry, the call nobody has is
reported disconnected, and the report looks for a dial that has no index yet.  If there
is one, the dial ends in the place of the call that was refused
(`callsReport_noEffect_iff`).
-/

namespace CallManagerMini

open Prog (Post)

/-- The announcement of a call's state. -/
def Mark.isChanged : Mark → Bool
  | .changed .. => true
  | _ => false

namespace CallTable

variable {t t' t'' : CallTable} {r q : Row} {info : CallDetailInfo}

/-! ## Reports that find a call -/

/-- A report of the place that looks for a dial finds a call. -/
def Finds (t : CallTable) (slotId index : Int) : Prop :=
  t.Occupied slotId index ∨ (t.pending.isSome ∧
    ((0 < index ∧ (t.callAt 0 slotId).isSome) ∨ t.rows.length < limit t.dialEcc))

/-- Somebody left the table, or a call's state was announced. -/
def Stirred (t t' : CallTable) : Prop :=
  (∃ r ∈ t.rows, ∀ q ∈ t'.rows, q.callId ≠ r.callId) ∨
    t.history.countP Mark.isChanged < t'.history.countP Mark.isChanged

/-- Nobody came, and what was announced stands. -/
structure NobodyCame (t t' : CallTable) : Prop where
  ids : ∀ q ∈ t'.rows, ∃ r ∈ t.rows, r.callId = q.callId
  history : t.history <+: t'.history

namespace NobodyCame

theorem refl (t : CallTable) : NobodyCame t t := ⟨fun q hq => ⟨q, hq, rfl⟩, List.prefix_rfl⟩

theorem of_noNewCall (h : NoNewCall t t') : NobodyCame t t' := by
  obtain ⟨marks, heq, -⟩ := h.entered
  exact ⟨h.ids, heq ▸ List.prefix_append t.history marks⟩

theorem trans (h : NobodyCame t t') (h' : NobodyCame t' t'') : NobodyCame t t'' := by
  refine ⟨fun q hq => ?_, h.history.trans h'.history⟩
  obtain ⟨a, ha, hid⟩ := h'.ids q hq
  obtain ⟨r, hr, hid'⟩ := h.ids a ha
  exact ⟨r, hr, hid'.trans hid⟩

end NobodyCame

theorem Stirred.trans (h : Stirred t t') (h' : NobodyCame t' t'') : Stirred t t'' := by
  rcases h with ⟨r, hr, hgone⟩ | hmore
  · refine .inl ⟨r, hr, fun q hq => ?_⟩
    obtain ⟨a, ha, hid⟩ := h'.ids q hq
    exact hid ▸ hgone a ha
  · exact .inr (Nat.lt_of_lt_of_le hmore h'.history.sublist.countP_le)

/-- The end of a call: it is gone, and that was announced. -/
theorem disconnect_stirred (h : t.Inv) (hinfo : info.IsCarried)
    (hr : t.callAt info.index info.accountId = some r) :
    (∀ q ∈ (t.disconnect info r).rows, q.callId ≠ r.callId) ∧
      t.history.countP Mark.isChanged <
        (t.disconnect info r).history.countP Mark.isChanged := by
  have hmem := (callAt_eq_some hr).1
  refine ⟨fun q hq => ((mem_disconnect_iff h hinfo hmem (h.fits hr)).mp hq).2, ?_⟩
  have hlive : r.callState ≠ .disconnected := fun hd => by
    have := (h.ok r hmem).live
    rw [hd] at this
    exact absurd this (by decide)
  rw [disconnect_history h hinfo hmem (h.fits hr), stateChange, if_neg hlive, List.countP_append,
    List.countP_append]
  have hone : [Mark.changed r.callId r.callState .disconnected].countP Mark.isChanged = 1 := rfl
  omega

/-- A phantom enters the table with an id nobody has, and the report is about it. -/
theorem Phantom.reported (hp : Phantom t info) (h : t.Inv) :
    ∃ e, t.reported info = (some e, (t.addDialing info).2) ∧ e.callId = t.lastCallId + 1 ∧
      (t.addDialing info).2.rows = t.rows ++ [e] := by
  have hadm : t.created.admission (t.newRow { info with state := .dialing } .outgoing) = .success :=
    (admission_newRow h).mpr hp.room
  have hrows := addDialing_of_success hadm
  set e := (t.newRow info .outgoing).setState .dialing
  have hx : (t.addDialing info).2.rows = t.rows ++ [e] := by rw [hrows]; rfl
  have hat : (t.addDialing info).2.callAt info.index info.accountId = some e := by
    unfold callAt
    rw [hx, List.find?_append, show t.rows.find? _ = none from hp.unknown]
    simp [e, newRow, Row.setState]
  refine ⟨e, Prod.ext ?_ (reported_addDialing hp.unknown hp.pending hp.foreign), rfl, hx⟩
  have hrep := reported_addDialing hp.unknown hp.pending hp.foreign
  rw [← hat, ← hrep]
  unfold CallTable.reported
  rw [hp.unknown]
  simp only [hp.pending, if_true]

/-- A `DISCONNECTED` report brings nobody: what it enters, it takes out again. -/
theorem disconnected_nobodyCame (h : t.Inv) (hinfo : info.IsCarried) :
    NobodyCame t (t.disconnected info).2 := by
  by_cases hp : Phantom t info
  · have hinv := h.reported hinfo
    obtain ⟨e, hrep, hid, hrows⟩ := hp.reported h
    have hsome : (t.reported info).1 = some e := by rw [hrep]
    have hat := reported_eq_some hsome
    have hhist := hp.entered h
    rw [hrep] at hinv hat hhist
    have hmem := (callAt_eq_some hat).1
    simp only [disconnected, hrep]
    refine ⟨fun q hq => ?_, ?_⟩
    · obtain ⟨hq, hne⟩ := (mem_disconnect_iff hinv hinfo hmem (hinv.fits hat)).mp hq
      rw [hrows] at hq
      rcases List.mem_append.mp hq with hq | hq
      · exact ⟨q, hq, rfl⟩
      · exact absurd (congrArg Row.callId (List.mem_singleton.mp hq)) hne
    · rw [disconnect_history hinv hinfo hmem (hinv.fits hat), hhist, List.append_assoc]
      exact List.prefix_append _ _
  · exact .of_noNewCall ((reported_noNewCall h hp).trans (disconnected_noNewCall h hinfo))

/-- A `DISCONNECTED` report that finds a call ends it. -/
theorem disconnected_stirred (h : t.Inv) (hinfo : info.IsCarried)
    (hf : t.Finds info.accountId info.index) : Stirred t (t.disconnected info).2 := by
  cases hat : t.callAt info.index info.accountId with
  | some r =>
    have hrep : t.reported info = (some r, t) := by rw [reported, hat]
    simp only [disconnected, hrep]
    exact .inl ⟨r, (callAt_eq_some hat).1, (disconnect_stirred h hinfo hat).1⟩
  | none =>
    obtain ⟨hpend, hwhere⟩ := hf.resolve_left (callAt_eq_none_iff.mp hat)
    by_cases hown : 0 < info.index ∧ (t.callAt 0 info.accountId).isSome
    · -- the dial becomes the reported call
      obtain ⟨r, hr⟩ := Option.isSome_iff_exists.mp hpend
      set dial : CallDetailInfo := { info with state := .dialing }
      have hnone : t.callAt dial.index dial.accountId = none := hat
      have hrep : t.reported info =
          ((t.adopt dial).2.callAt info.index info.accountId, (t.adopt dial).2) := by
        unfold reported
        rw [hat]
        simp only [hpend, if_true, dialing, if_pos (And.intro hown.1 (Or.inl hown.2)),
          updateDialing]
        simp only [dial, hat]
      have hinv : (t.adopt dial).2.Inv := h.adopt (hinfo.withState _) hat
      refine .inl ⟨r, (pending_eq_some hr).1, ?_⟩
      simp only [disconnected, hrep]
      cases hat' : (t.adopt dial).2.callAt info.index info.accountId with
      | none =>
        intro q hq hid
        exact callAt_eq_none hat' q hq ((adopt_callAt h hnone hr hq).mp hid)
      | some q' =>
        obtain ⟨hmem, hplace⟩ := callAt_eq_some hat'
        have hid := (adopt_callAt h hnone hr hmem).mpr hplace
        exact hid ▸ (disconnect_stirred hinv hinfo hat').1
    · have hp : Phantom t info := ⟨hat, hpend, hown, hwhere.resolve_left hown⟩
      have hinv := h.reported hinfo
      obtain ⟨e, hrep, -⟩ := hp.reported h
      have hsome : (t.reported info).1 = some e := by rw [hrep]
      have hat' := reported_eq_some hsome
      have hhist := hp.entered h
      rw [hrep] at hinv hat' hhist
      refine .inr ?_
      simp only [disconnected, hrep]
      have hmore := (disconnect_stirred hinv hinfo hat').2
      have hsame : (t.addDialing info).2.history.countP Mark.isChanged =
          t.history.countP Mark.isChanged := by
        rw [hhist, List.countP_append]
        rfl
      rwa [hsame] at hmore

/-- Reports of the end of one place, the first of which finds a call. -/
theorem reports_stirred (h : t.Inv) {slotId index : Int} (hf : t.Finds slotId index)
    {infos : List CallDetailInfo} (hne : infos ≠ [])
    (hinfos : ∀ i ∈ infos, i.IsCarried ∧ i.accountId = slotId ∧ i.index = index ∧
      i.state = .disconnected) : Stirred t (t.reports infos) := by
  have hrep : ∀ (t : CallTable), ∀ i ∈ infos, t.report i = t.disconnected i := fun t i hi => by
    rw [report, (hinfos i hi).2.2.2]
  have hcame : ∀ (l : List CallDetailInfo) (t : CallTable), (∀ i ∈ l, i ∈ infos) → t.Inv →
      NobodyCame t (t.reports l) := by
    intro l
    induction l with
    | nil => exact fun t _ _ => .refl t
    | cons i l ih =>
      intro t hl h
      have hi := hl i List.mem_cons_self
      have hcar := (hinfos i hi).1
      rw [show t.reports (i :: l) = (t.report i).2.reports l from rfl, hrep t i hi]
      exact (disconnected_nobodyCame h hcar).trans
        (ih _ (fun j hj => hl j (List.mem_cons_of_mem i hj)) (h.disconnected hcar))
  cases infos with
  | nil => exact absurd rfl hne
  | cons i l =>
    obtain ⟨hcar, rfl, rfl, -⟩ := hinfos i List.mem_cons_self
    rw [show t.reports (i :: l) = (t.report i).2.reports l from rfl, hrep t i List.mem_cons_self]
    exact (disconnected_stirred h hcar hf).trans
      (hcame l _ (fun j hj => List.mem_cons_of_mem i hj) (h.disconnected hcar))

end CallTable

/-! ## In the service's terms -/

variable {s s' : CallManager} {env : Env} {slotId index : Int} {info : CallDetailInfo}

/-- No call object has changed or gone, and nothing was broadcast or commanded. -/
structure NoEffect (s s' : CallManager) : Prop where
  list : s'.callObjectPtrList = s.callObjectPtrList
  call : ∀ q ∈ s.callObjectPtrList, s'.call q = s.call q
  outgoing : s'.outgoing = s.outgoing

/-- The end of a call at the place is taken for the end of one there is: the index is no
network's and some call has it, or a dial without an index is on the slot, or the table
has room to make a call of the report. -/
def TakenForCall (s : CallManager) (slotId index : Int) : Prop :=
  (index ≤ 0 ∧ (getOneCallObjectByIndexSlotIdAndCallType s index slotId).isSome) ∨
    ((getOneCallObjectByIndex s initIndex).isSome ∧
      ((0 < index ∧ (getOneCallObjectByIndexSlotIdAndCallType s initIndex slotId).isSome) ∨
        s.callObjectPtrList.length < callObjectLimit s.dialSrcInfo.isEcc))

instance (s : CallManager) (slotId index : Int) : Decidable (TakenForCall s slotId index) := by
  unfold TakenForCall
  infer_instance

theorem isSome_callAt (h : s.table.Inv) (index slotId : Int) :
    (s.table.callAt index slotId).isSome =
      (getOneCallObjectByIndexSlotIdAndCallType s index slotId).isSome := by
  rw [← callAt_eq h, Option.isSome_map]

theorem finds_iff (h : s.table.Inv) (hfree : 0 < index → ¬s.table.Occupied slotId index) :
    s.table.Finds slotId index ↔ TakenForCall s slotId index := by
  have hpend : s.table.pending.isSome = (getOneCallObjectByIndex s initIndex).isSome := by
    rw [← pending_eq h, Option.isSome_map]
  have hlen : s.table.rows.length = s.callObjectPtrList.length := List.length_map _
  unfold CallTable.Finds TakenForCall
  rw [hpend, hlen, ← isSome_callAt h, ← isSome_callAt h,
    show s.table.Occupied slotId index ↔ (s.table.callAt index slotId).isSome from
      CallTable.callAt_isSome.symm]
  refine or_congr_left ⟨fun ho => ⟨?_, ho⟩, fun ho => ho.2⟩
  by_contra hpos
  exact hfree (by omega) (CallTable.callAt_isSome.mp ho)

/-! ## Reports that find nothing -/

theorem rows_congr (hlist : s'.callObjectPtrList = s.callObjectPtrList)
    (hcall : ∀ q ∈ s.callObjectPtrList, s'.call q = s.call q) : s'.table.rows = s.table.rows := by
  change s'.callObjectPtrList.map s'.row = s.callObjectPtrList.map s.row
  rw [hlist]
  exact List.map_congr_left fun q hq => congrArg (CallBase.row q) (hcall q hq)

theorem Still.finds (hs : Still s s') :
    s'.table.Finds slotId index ↔ s.table.Finds slotId index := by
  have hrows := rows_congr hs.list hs.call
  have hecc : s'.table.dialEcc = s.table.dialEcc := congrArg DialParaInfo.isEcc hs.dialSrcInfo
  unfold CallTable.Finds CallTable.Occupied CallTable.pending CallTable.callAt
  rw [hrows, hecc]

/-- A report that finds no call has touched nothing. -/
theorem reportedCall_still (env : Env) (h : s.table.Inv) (hinfo : info.IsCarried)
    (hno : ¬s.table.Finds info.accountId info.index) :
    Post (reportedCall env info) s fun found s' => found = none ∧ Still s s' := by
  obtain ⟨hfree, hdial⟩ := not_or.mp hno
  have hnone : getOneCallObjectByIndexSlotIdAndCallType s info.index info.accountId = none := by
    rw [← Option.not_isSome_iff_eq_none, ← isSome_callAt h]
    exact fun hat => hfree (CallTable.callAt_isSome.mp hat)
  refine Post.bind_gets ?_
  rw [hnone]
  refine Post.bind_gets ?_
  cases hinit : getOneCallObjectByIndex s initIndex with
  | none => exact Post.pure ⟨rfl, .refl s⟩
  | some p =>
    have hpend : s.table.pending.isSome := by
      rw [← pending_eq h, hinit]
      rfl
    obtain ⟨hown, hroom⟩ := not_or.mp fun hx => hdial ⟨hpend, hx⟩
    have hupdate : (decide (0 < info.index) &&
        updateDialingHandle s { info with state := .dialing }) = false := by
      unfold updateDialingHandle
      rw [hnone, ← isSome_callAt h]
      simpa [initIndex] using hown
    have hlen : s.table.rows.length = s.callObjectPtrList.length := List.length_map _
    refine Post.bind (Q := fun _ s' => Still s s') ?_ fun _ s₁ hs₁ => Post.gets ⟨?_, hs₁⟩
    · refine Post.bind_gets (Post.ite (fun hu => ?_) fun _ => ?_)
      · exact absurd hu (Bool.eq_false_iff.mp hupdate)
      · refine Post.mono (addDialingCall_refused env h (hinfo.withState _) ?_) fun _ _ hs => hs.2
        exact fun hlt => hroom (hlen ▸ hlt)
    · exact (hs₁.findCall _).trans hnone

theorem disconnected_still (env : Env) (h : s.table.Inv) (hinfo : info.IsCarried)
    (hst : info.state = .disconnected) (hno : ¬s.table.Finds info.accountId info.index) :
    Post (handleCallReportInfo env info) s fun _ s' => Still s s' := by
  unfold handleCallReportInfo
  rw [hst]
  refine Post.bind (reportedCall_still env h hinfo hno) ?_
  rintro _ s' ⟨rfl, hs'⟩
  exact Post.pure hs'

/-- The reports of what a list lacks, if nobody is where they look. -/
theorem forEach_vanished_still (env : Env) {recorded callVec : List CallDetailInfo}
    (hinfos : ∀ it ∈ recorded, it.IsCarried ∧ it.accountId = slotId ∧
      (it.index = index ∨ ∃ it3 ∈ callVec, it.index = it3.index))
    (h : s.table.Inv) (hno : ¬s.table.Finds slotId index) :
    Post (Prog.forEach recorded fun it2 =>
      Prog.when (!callVec.any fun it3 => it2.index = it3.index)
        (handleCallReportInfo env { it2 with state := .disconnected }).ignore) s
      fun _ s' => Still s s' := by
  induction recorded generalizing s with
  | nil => exact .refl s
  | cons it recorded ih =>
    obtain ⟨hcar, hslot, hplace⟩ := hinfos it List.mem_cons_self
    have hcar : ({ it with state := .disconnected } : CallDetailInfo).IsCarried := hcar.withState _
    refine Post.bind (Q := fun _ s₁ => s₁.table.Inv ∧ Still s s₁) (Post.when (fun hlack => ?_)
      fun _ => ⟨h, .refl s⟩) ?_
    · have hindex : it.index = index := by
        refine hplace.resolve_right ?_
        rintro ⟨it3, h3, heq⟩
        simp only [Bool.not_eq_true', List.any_eq_false, decide_eq_true_eq] at hlack
        exact hlack it3 h3 heq
      refine Post.ignore ⟨?_, disconnected_still env h hcar rfl ?_⟩
      · have htable := (handleCallReportInfo_refines env h hcar).1
        rw [show CallManager.table _ = _ from congrArg Prod.snd htable]
        exact h.report hcar
      · rwa [show ({ it with state := .disconnected } : CallDetailInfo).accountId =
          slotId from hslot,
          show ({ it with state := .disconnected } : CallDetailInfo).index = index from hindex]
    · rintro _ s₁ ⟨h₁, hs₁⟩
      refine Post.mono (ih (fun it' hit' => hinfos it' (List.mem_cons_of_mem it hit')) h₁
        (mt hs₁.finds.mp hno)) fun _ s₂ hs₂ => hs₁.trans hs₂

/-- Entries that are not handled. -/
theorem forEach_unhandled (env : Env) {recorded callVec : List CallDetailInfo}
    (hl : ∀ it ∈ callVec, isHandled recorded it = false) (s : CallManager) :
    Prog.forEach callVec (fun it =>
      Prog.when (isHandled recorded it) (handleCallReportInfo env it).ignore) s = ((), s) := by
  induction callVec with
  | nil => rfl
  | cons it l ih =>
    rw [Prog.forEach_cons, Prog.when_apply, if_neg (by simp [hl it List.mem_cons_self])]
    exact ih fun it' hit' => hl it' (List.mem_cons_of_mem it hit')

/-! ## The refusal and what follows -/

/-- The state in which a list report comes to an entry, after the entries before it. -/
def beforeEntry (env : Env) (slotId : Int) (before : List CallDetailInfo) (s : CallManager)
    (callVec : List CallDetailInfo) : CallManager :=
  (Prog.forEach before (fun it =>
    Prog.when (isHandled (s.callDetailsInfo slotId) it) (handleCallReportInfo env it).ignore)
    { s with tmpCallDetailsInfo := Function.update s.tmpCallDetailsInfo slotId callVec }).2

/-- An entry `it` of a list report, with `before` and `after` around it, is a ringing call
that the full table refuses.  No later entry of the list reports its index. -/
structure RefusedEntry (env : Env) (s : CallManager) (slotId : Int)
    (before : List CallDetailInfo) (it : CallDetailInfo) (after : List CallDetailInfo) : Prop where
  ringing : it.state = .incoming ∨ it.state = .waiting
  handled : isHandled (s.callDetailsInfo slotId) it = true
  last : ∀ it' ∈ after, isHandled (s.callDetailsInfo slotId) it' = true → it'.index ≠ it.index
  full : (handleCallReportInfo env it
    (beforeEntry env slotId before s (before ++ it :: after))).1 = .callErrCallCountsExceedLimit

/-- The states after a run in which a list report of `slotId` was refused a ringing call
with `index` because the table was full, and no other report for the place followed. -/
inductive AfterRefusal (slotId index : Int) : CallManager → Prop where
  | refused {s : CallManager} {env : Env} {callVec : List CallReportInfo}
    {before after : List CallDetailInfo} {it : CallDetailInfo} (hs : Reachable s)
    (hvalid : isValidReportList slotId callVec = true)
    (hlist : callVec.map CallReportInfo.toListDetail = before ++ it :: after)
    (hrefused : RefusedEntry env s slotId before it after) (hindex : it.index = index) :
    AfterRefusal slotId index (mainLoopStep env (.callsReport slotId callVec) s).2
  | next {s : CallManager} {env : Env} {input : Input} (h : AfterRefusal slotId index s)
    (hother : ∀ info ∈ input.reports s, ¬(info.accountId = slotId ∧ info.index = index)) :
    AfterRefusal slotId index (mainLoopStep env input s).2

theorem AfterRefusal.reachable (hs : AfterRefusal slotId index s) : Reachable s := by
  induction hs with
  | refused hs => exact hs.next ⟨_, _, rfl⟩
  | next _ _ ih => exact ih.next ⟨_, _, rfl⟩

/-- The call that was refused has nobody at its place. -/
theorem CallTable.incoming_full {t : CallTable}
    (hfull : (t.incoming info).1 = .callErrCallCountsExceedLimit) :
    ¬(t.incoming info).2.Occupied info.accountId info.index := by
  unfold CallTable.incoming at hfull ⊢
  cases hat : t.failPending.callAt info.index info.accountId with
  | some r =>
    simp only [hat] at hfull
    cases hfull
  | none =>
    simp only [hat] at hfull ⊢
    unfold CallTable.addIncoming at hfull ⊢
    dsimp only at hfull ⊢
    split at hfull
    · cases hfull
    · next hadm =>
      rw [if_neg hadm]
      exact CallTable.callAt_eq_none_iff.mp hat

/-- What a refusal leaves behind: the entry is recorded, and its place is free. -/
structure Remembered (slotId index : Int) (s : CallManager) : Prop where
  recorded : ∃ it ∈ s.callDetailsInfo slotId, it.index = index
  free : 0 < index → ¬s.table.Occupied slotId index

theorem beforeEntry_table (env : Env) (h : s.table.Inv) (slotId : Int)
    {before : List CallDetailInfo} (hinfos : ∀ i ∈ before, i.IsCarried)
    (callVec : List CallDetailInfo) :
    (beforeEntry env slotId before s callVec).table =
      s.table.reports (before.filter (isHandled (s.callDetailsInfo slotId))) := by
  have hloop := (forEach_reports env (c := isHandled (s.callDetailsInfo slotId)) (g := id) hinfos
    (s := { s with tmpCallDetailsInfo := Function.update s.tmpCallDetailsInfo slotId callVec }) h).1
  rw [List.map_id] at hloop
  exact hloop

theorem RefusedEntry.free {before after : List CallDetailInfo} {it : CallDetailInfo}
    (hr : RefusedEntry env s slotId before it after) (h : ServiceInv s) (hpos : 0 < it.index)
    (hinfos : ∀ i ∈ before ++ it :: after, i.IsCarried ∧ i.accountId = slotId) :
    ¬(s.table.reports (handledReports (s.callDetailsInfo slotId) (before ++ it :: after))).Occupied
      slotId it.index := by
  set recorded := s.callDetailsInfo slotId
  obtain ⟨hit, hslot⟩ := hinfos it (by simp)
  have hbefore : ∀ i ∈ before, i.IsCarried := fun i hi => (hinfos i (by simp [hi])).1
  have htable := beforeEntry_table env h.table slotId hbefore (before ++ it :: after)
  set t := s.table.reports (before.filter (isHandled recorded))
  have ht : t.Inv := h.table.reports fun i hi => hbefore i (List.mem_of_mem_filter hi)
  -- the table that refuses the entry has nobody at its place
  have hcode := congrArg Prod.fst (handleCallReportInfo_refines env (htable.symm ▸ ht) hit).1
  rw [htable] at hcode
  have hreport : t.report it = t.incoming it := by
    unfold CallTable.report
    rcases hr.ringing with hst | hst <;> rw [hst]
  have hfree : ¬(t.report it).2.Occupied slotId it.index := by
    rw [hreport, ← hslot]
    refine CallTable.incoming_full ?_
    rw [← hreport]
    exact hcode.symm.trans hr.full
  have hgone : ∀ i ∈ (vanished recorded (before ++ it :: after)).map
      (fun it2 => ({ it2 with state := .disconnected } : CallDetailInfo)),
      i.IsCarried ∧ i.index ≠ it.index := by
    intro i hi
    obtain ⟨it2, hit2, rfl⟩ := List.mem_map.mp hi
    obtain ⟨hmem, hne⟩ := mem_vanished.mp hit2
    exact ⟨(h.recorded slotId it2 hmem).1.withState .disconnected, hne it (by simp)⟩
  rw [handledReports_split hr.handled, CallTable.reports, List.foldl_append]
  refine CallTable.reports_free (ht.report hit) hpos ?_ ?_ (.inl hfree)
  · intro i hi
    rcases List.mem_append.mp hi with hi | hi
    · exact (hinfos i (by simp [List.mem_of_mem_filter hi])).1
    · exact (hgone i hi).1
  · intro i hi _ hx
    rcases List.mem_append.mp hi with hi | hi
    · obtain ⟨hi, hh⟩ := List.mem_filter.mp hi
      exact absurd hx (hr.last i hi hh)
    · exact absurd hx (hgone i hi).2

theorem Remembered.refused (env : Env) (h : ServiceInv s) {callVec : List CallReportInfo}
    {before after : List CallDetailInfo} {it : CallDetailInfo}
    (hvalid : isValidReportList slotId callVec = true)
    (hlist : callVec.map CallReportInfo.toListDetail = before ++ it :: after)
    (hr : RefusedEntry env s slotId before it after) :
    Remembered slotId it.index (mainLoopStep env (.callsReport slotId callVec) s).2 := by
  have heff := mainLoopStep_post env h (.callsReport slotId callVec)
  have hcar := @ServiceInv.isCarried _ h (.callsReport slotId callVec)
  constructor
  · rw [heff.recorded]
    simp only [Input.recorded, hvalid, if_true, Function.update_self, hlist]
    refine ⟨it, List.mem_filter.mpr ⟨by simp, ?_⟩, rfl⟩
    rcases hr.ringing with hst | hst <;> simp [hst]
  · intro hpos ho
    have ho := CallTable.localChanges_occupied (h.table.reports hcar) hpos heff.table ho
    simp only [Input.reports, hvalid, if_true, hlist] at ho
    exact hr.free h hpos (hlist ▸ mem_listDetails hvalid) ho

/-- The entry stays in the list as long as no report speaks of it. -/
theorem Remembered.recorded_step (h : ServiceInv s) (hr : Remembered slotId index s)
    {input : Input}
    (hother : ∀ info ∈ input.reports s, ¬(info.accountId = slotId ∧ info.index = index)) :
    ∃ it ∈ input.recorded s slotId, it.index = index := by
  cases input with
  | callsReport slot callVec =>
    by_cases hv : isValidReportList slot callVec = true
    · simp only [Input.recorded, Input.reports, hv, if_true] at hother ⊢
      by_cases hslot : slotId = slot
      · subst hslot
        rw [Function.update_self]
        obtain ⟨it, hit, hindex⟩ := hr.recorded
        by_cases hlisted : ∃ it3 ∈ callVec.map CallReportInfo.toListDetail, it.index = it3.index
        · obtain ⟨it3, hit3, heq⟩ := hlisted
          refine ⟨it3, List.mem_filter.mpr ⟨hit3, ?_⟩, heq.symm.trans hindex⟩
          refine decide_eq_true fun hst => ?_
          refine hother it3 (List.mem_append_left _ (List.mem_filter.mpr ⟨hit3, ?_⟩))
            ⟨(mem_listDetails hv it3 hit3).2, heq.symm.trans hindex⟩
          exact h.isHandled_of_disconnected hst
        · have hv : it ∈ vanished (s.callDetailsInfo slotId)
              (callVec.map CallReportInfo.toListDetail) :=
            mem_vanished.mpr ⟨hit, fun it3 h3 heq => hlisted ⟨it3, h3, heq⟩⟩
          exact absurd ⟨(h.recorded slotId it hit).2.1, hindex⟩
            (hother _ (List.mem_append_right _ (List.mem_map_of_mem hv)))
      · rw [Function.update_of_ne hslot]
        exact hr.recorded
    · simp only [Input.recorded, hv]
      exact hr.recorded
  | _ => exact hr.recorded

theorem Remembered.step (env : Env) (h : ServiceInv s) (hr : Remembered slotId index s)
    {input : Input}
    (hother : ∀ info ∈ input.reports s, ¬(info.accountId = slotId ∧ info.index = index)) :
    Remembered slotId index (mainLoopStep env input s).2 := by
  have heff := mainLoopStep_post env h input
  refine ⟨heff.recorded ▸ hr.recorded_step h hother, fun hpos ho => ?_⟩
  have ho := CallTable.localChanges_occupied (h.table.reports h.isCarried) hpos heff.table ho
  refine CallTable.reports_free h.table hpos h.isCarried (fun i hi hs hx => ?_)
    (.inl (hr.free hpos)) ho
  exact absurd ⟨hs, hx⟩ (hother i hi)

theorem AfterRefusal.remembered (hs : AfterRefusal slotId index s) :
    Remembered slotId index s := by
  induction hs with
  | refused hs hvalid hlist hr hindex =>
    exact hindex ▸ Remembered.refused _ (reachable_inv hs) hvalid hlist hr
  | next hs hother ih => exact ih.step _ (reachable_inv hs.reachable) hother

/-! ## The list that drops the call -/

/-- A list that has every recorded entry unchanged, and none of them alerting, but the one
with `index`. -/
structure DropsOnly (s : CallManager) (slotId index : Int) (callVec : List CallDetailInfo) :
    Prop where
  absent : ∀ it ∈ callVec, it.index ≠ index
  unchanged : ∀ it ∈ callVec, isHandled (s.callDetailsInfo slotId) it = false
  present : ∀ it2 ∈ s.callDetailsInfo slotId, it2.index ≠ index →
    ∃ it ∈ callVec, it2.index = it.index

theorem DropsOnly.handledReports {callVec : List CallDetailInfo}
    (hd : DropsOnly s slotId index callVec) :
    handledReports (s.callDetailsInfo slotId) callVec =
      (vanished (s.callDetailsInfo slotId) callVec).map fun it2 =>
        { it2 with state := .disconnected } := by
  have hnone : callVec.filter (isHandled (s.callDetailsInfo slotId)) = [] :=
    List.filter_eq_nil_iff.mpr fun it hit => by simp [hd.unchanged it hit]
  rw [CallManagerMini.handledReports, hnone, List.nil_append]

/-- What such a list reports: the end of the call at the place, at least once. -/
theorem DropsOnly.reports (h : ServiceInv s) (hr : Remembered slotId index s)
    {callVec : List CallDetailInfo} (hd : DropsOnly s slotId index callVec) :
    CallManagerMini.handledReports (s.callDetailsInfo slotId) callVec ≠ [] ∧
      ∀ i ∈ CallManagerMini.handledReports (s.callDetailsInfo slotId) callVec,
        i.IsCarried ∧ i.accountId = slotId ∧ i.index = index ∧ i.state = .disconnected := by
  rw [hd.handledReports]
  constructor
  · obtain ⟨it, hit, hindex⟩ := hr.recorded
    have hv : it ∈ vanished (s.callDetailsInfo slotId) callVec :=
      mem_vanished.mpr ⟨hit, fun it3 h3 heq => hd.absent it3 h3 (heq.symm.trans hindex)⟩
    exact List.ne_nil_of_mem (List.mem_map_of_mem hv)
  · intro i hi
    obtain ⟨it, hit, rfl⟩ := List.mem_map.mp hi
    obtain ⟨hmem, hne⟩ := mem_vanished.mp hit
    obtain ⟨hcar, hslot, -⟩ := h.recorded slotId it hmem
    refine ⟨hcar.withState _, hslot, ?_, rfl⟩
    by_contra hindex
    obtain ⟨it3, h3, heq⟩ := hd.present it hmem hindex
    exact hne it3 h3 heq

/-- If nobody is where the report looks, the list changes nothing. -/
theorem handleEntries_still (env : Env) (h : ServiceInv s) {callVec : List CallDetailInfo}
    (hd : DropsOnly s slotId index callVec) (hno : ¬s.table.Finds slotId index) :
    Post (handleEntries env slotId (s.callDetailsInfo slotId) callVec)
      { s with tmpCallDetailsInfo := Function.update s.tmpCallDetailsInfo slotId callVec }
      fun _ s' => Still s s' := by
  set s₁ : CallManager :=
    { s with tmpCallDetailsInfo := Function.update s.tmpCallDetailsInfo slotId callVec }
  have hs₁ : Still s s₁ := { Still.refl s with }
  refine Post.bind (Q := fun _ s₂ => s₂ = s₁)
    (congrArg Prod.snd (forEach_unhandled env hd.unchanged s₁)) ?_
  rintro _ _ rfl
  refine Post.bind (forEach_vanished_still env (fun it hit => ?_) (s := s₁) h.table hno) ?_
  · obtain ⟨hcar, hslot, -⟩ := h.recorded slotId it hit
    refine ⟨hcar, hslot, ?_⟩
    by_cases hindex : it.index = index
    · exact .inl hindex
    · exact .inr (hd.present it hit hindex)
  · intro _ s₂ hs₂
    refine Post.bind_modify (Post.pure ?_)
    exact { hs₁.trans hs₂ with }

/-- **A list that drops a refused call has no effect, unless the end of the call is taken for
the end of one there is.** -/
theorem callsReport_noEffect_iff (env : Env) (hs : AfterRefusal slotId index s)
    {callVec : List CallReportInfo} (hvalid : isValidReportList slotId callVec = true)
    (hdrop : DropsOnly s slotId index (callVec.map CallReportInfo.toListDetail)) :
    NoEffect s (mainLoopStep env (.callsReport slotId callVec) s).2 ↔
      ¬TakenForCall s slotId index := by
  have h := reachable_inv hs.reachable
  have hr := hs.remembered
  have hslot : isValidSlotId slotId = true := by
    simp only [isValidReportList, Bool.and_eq_true] at hvalid
    exact hvalid.1.2
  have hstep : (mainLoopStep env (.callsReport slotId callVec) s).2 = (handleCallsReportInfo env
      slotId (callVec.map CallReportInfo.toListDetail) s).2 := by
    simp [mainLoopStep, Prog.when_apply, hvalid]
  rw [hstep, ← finds_iff h.table hr.free]
  constructor
  · intro hn hf
    have htable := (handleCallsReportInfo_post env h hslot fun it hit =>
      (mem_listDetails hvalid it hit).1).1
    obtain ⟨hne, hinfos⟩ := hdrop.reports h hr
    have hstirred := CallTable.reports_stirred h.table hf hne hinfos
    rw [← htable] at hstirred
    rcases hstirred with ⟨r, hr, hgone⟩ | hmore
    · exact hgone r (rows_congr hn.list hn.call ▸ hr) rfl
    · change (CallManager.history s).countP _ < (CallManager.history _).countP _ at hmore
      rw [countP_history fun _ _ => rfl, countP_history fun _ _ => rfl, hn.outgoing] at hmore
      exact absurd hmore (Nat.lt_irrefl _)
  · intro hno
    rw [handleCallsReportInfo_eq env hslot]
    have hstill : Still s _ := handleEntries_still env h hdrop hno
    exact ⟨hstill.list, hstill.call, hstill.outgoing⟩

/-- Four ringing calls of slot 0. -/
def fourReports : List CallReportInfo :=
  [ringingReport 1, ringingReport 2, ringingReport 3, ringingReport 4]

/-- A fifth one, which the table refuses. -/
def fifthRefused : CallManager :=
  (mainLoopStep .obliging (.callsReport 0 (fourReports ++ [ringingReport 5])) .init).2

theorem afterRefusal_fifth : AfterRefusal 0 5 fifthRefused :=
  @AfterRefusal.refused 0 5 .init .obliging (fourReports ++ [ringingReport 5])
    (fourReports.map CallReportInfo.toListDetail) [] (ringingReport 5).toListDetail
    (.start rfl) (by decide) rfl ⟨by decide, by decide +kernel, by simp, by decide +kernel⟩ rfl

/-- An emergency dial after that. -/
def fifthRefusedDialed : CallManager :=
  (mainLoopStep .obliging (.dialCall ⟨true, true⟩ [49, 49, 50] fun _ => none) fifthRefused).2

/-- The list that drops the refused call disconnects the emergency dial. -/
theorem refusedIncoming_endsDial :
    ∃ s callVec, AfterRefusal 0 5 s ∧ isValidReportList 0 callVec = true ∧
      DropsOnly s 0 5 (callVec.map CallReportInfo.toListDetail) ∧
      ¬NoEffect s (mainLoopStep .obliging (.callsReport 0 callVec) s).2 :=
  ⟨fifthRefusedDialed, fourReports, .next afterRefusal_fifth (by simp [Input.reports]), by decide,
    ⟨by decide +kernel, by decide +kernel, by decide +kernel⟩,
    fun hn => absurd hn.list (by decide +kernel)⟩

theorem callsReport_noEffect_noDial :
    NoEffect fifthRefused (mainLoopStep .obliging (.callsReport 0 fourReports) fifthRefused).2 :=
  (callsReport_noEffect_iff .obliging afterRefusal_fifth (by decide)
    ⟨by decide +kernel, by decide +kernel, by decide +kernel⟩).mpr (by decide +kernel)

end CallManagerMini
