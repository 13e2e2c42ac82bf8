import CallManagerMini.CallTablePlaces
import CallManagerMini.MainLoopRefinement

/-! # Dials the stack refuses

A dial the stack refuses takes its own call out again and leaves the others alone, as
long as no other call without an index is on the same slot: the failed call is looked
up by index and slot (`dialCall_refused_iff`).  What the dials have sent to the stack
so far is read off the history (`sentDials`).
-/

namespace CallManagerMini

open Prog (Post Moves)

variable {s : CallManager} {env : Env} {p : Ref}

/-! ## The table after a refused dial -/

namespace CallTable

variable {t : CallTable} {r q : Row} {info : CallDetailInfo}

/-- The failure of a call takes out the first call at its place: no other. -/
theorem failCall_others (h : t.Inv) (hr : t.callAt q.index q.slotId = some r)
    (hq : q ∈ t.rows) (hne : q.callId ≠ r.callId) : q ∈ (t.failCall q).2.rows := by
  rw [failCall_eq_disconnect hr]
  exact (mem_disconnect_iff h (h.disconnectedInfo_isCarried hq) (callAt_eq_some hr).1
    (h.fits hr)).mpr ⟨hq, hne⟩

/-- What the failure of a call announces. -/
theorem failCall_history (h : t.Inv) (hq : q ∈ t.rows) :
    ∃ (r : Row) (marks : List Mark), (t.failCall q).2.history =
      t.history ++ (marks ++ stateChange r.callId r.callState .disconnected) ∧
      ∀ m ∈ marks, m = .added r.callId .disconnected := by
  obtain ⟨r, hr⟩ := Option.isSome_iff_exists.mp
    (callAt_isSome.mpr ⟨q, hq, rfl, rfl⟩ : (t.callAt q.index q.slotId).isSome)
  refine ⟨r, if r.callType ≠ q.disconnectedInfo.callType ∧ t.Room r then
    [.added r.callId .disconnected] else [], ?_, fun m hm => ?_⟩
  · rw [failCall_eq_disconnect hr]
    exact disconnect_history h (h.disconnectedInfo_isCarried hq) (callAt_eq_some hr).1 (h.fits hr)
  · split at hm
    · exact List.mem_singleton.mp hm
    · cases hm

/-- The call of an admitted dial. -/
abbrev dialRow (t : CallTable) (report : CallDetailInfo) : Row :=
  (t.newRow report .outgoing).setState .dialing

theorem dialRow_callId_ne (h : t.Inv) {report : CallDetailInfo} :
    ∀ q ∈ t.rows, q.callId ≠ (t.dialRow report).callId := by
  intro q hq hid
  have := (h.ok q hq).id_le
  simp only [hid, Row.setState, newRow] at this
  omega

theorem addDialing_dialed {report : CallDetailInfo} (hst : report.state = .dialing)
    (hadm : t.created.admission (t.newRow report .outgoing) = .success) (dial : CellularCallInfo)
    (reply : Option Int) :
    (t.addDialing report).2.dialed dial reply =
      { t.created.insert (t.dialRow report) with
        history := t.history ++ [.added (t.lastCallId + 1) .dialing, .dialed dial reply] } := by
  rw [addDialing_of_success (by rwa [dialing_state hst])]
  simp [CallTable.dialed]

theorem addDialing_inv (h : t.Inv) {report : CallDetailInfo} (hinfo : report.IsCarried)
    (hindex : report.index = 0) (dial : CellularCallInfo) (reply : Option Int) :
    ((t.addDialing report).2.dialed dial reply).Inv := by
  rw [← dialing_of_index_zero hindex]
  exact (h.dialing hinfo).dialed dial reply

section Refused
variable {report : CallDetailInfo} {dial : CellularCallInfo} {reply : Option Int}
  (h : t.Inv) (hinfo : report.IsCarried) (hindex : report.index = 0) (hst : report.state = .dialing)
  (hadm : t.created.admission (t.newRow report .outgoing) = .success)
include h hinfo hindex hst hadm

/-- The call of a refused dial leaves the table as it was found, if it is the first
without an index on its slot. -/
theorem refused_eq (hfree : ¬t.Occupied report.accountId 0) :
    ((((t.addDialing report).2.dialed dial reply).failCall (t.dialRow report)).2).rows = t.rows ∧
      ((((t.addDialing report).2.dialed dial reply).failCall (t.dialRow report)).2).history =
        t.history ++ [.added (t.lastCallId + 1) .dialing, .dialed dial reply,
          .changed (t.lastCallId + 1) .dialing .disconnected] := by
  have hinv := addDialing_inv h hinfo hindex dial reply
  have heq := addDialing_dialed hst hadm dial reply
  have hat : ((t.addDialing report).2.dialed dial reply).callAt (t.dialRow report).index
      (t.dialRow report).slotId = some (t.dialRow report) := by
    rw [heq]
    have hidx : (t.dialRow report).index = 0 := hindex
    have hnone : t.rows.find? (fun r => r.index = 0 && r.slotId = report.accountId) = none :=
      callAt_eq_none_iff.mpr hfree
    simp only [callAt, insert, created, List.find?_append, hidx]
    rw [show (t.dialRow report).slotId = report.accountId from rfl, hnone]
    simp [hindex, newRow, Row.setState]
  rw [failCall_eq hinv hat, heq]
  constructor
  · have hne := @dialRow_callId_ne t h report
    simp only [remove, insert, created, Keyed.remove]
    rw [List.eraseP_append_right _ fun q hq => by simpa using hne q hq]
    simp
  · simp [stateChange, Row.setState, newRow]

/-- Otherwise it stays, and another call leaves. -/
theorem refused_mem (htaken : t.Occupied report.accountId 0) :
    t.dialRow report ∈
      ((((t.addDialing report).2.dialed dial reply).failCall (t.dialRow report)).2).rows := by
  have hinv := addDialing_inv h hinfo hindex dial reply
  have heq := addDialing_dialed hst hadm dial reply
  have hidx : (t.dialRow report).index = 0 := hindex
  obtain ⟨q, hq⟩ := Option.isSome_iff_exists.mp (callAt_isSome.mpr htaken)
  have hat : ((t.addDialing report).2.dialed dial reply).callAt (t.dialRow report).index
      (t.dialRow report).slotId = some q := by
    rw [heq, hidx]
    simp only [callAt, insert, created, List.find?_append]
    rw [show (t.dialRow report).slotId = report.accountId from rfl,
      show t.rows.find? (fun r => r.index = 0 && r.slotId = report.accountId) = some q from hq]
    rfl
  refine failCall_others hinv hat ?_ (dialRow_callId_ne h q (callAt_eq_some hq).1).symm
  rw [heq]
  exact List.mem_append_right _ (List.mem_singleton.mpr rfl)

end Refused

end CallTable

/-! ## Refused dials -/

/-- Whether a mark is a Dial command that was refused, or that met no stack. -/
def Mark.isRefusedDial : Mark → Bool
  | .dialed _ reply => reply ≠ some 0
  | _ => false

/-- The call a mark says has ended. -/
def Mark.ended : Mark → Option Int
  | .changed callId _ .disconnected => some callId
  | _ => none

/-- The refused Dial commands so far. -/
def CallManager.refusedDials (s : CallManager) : Nat := s.history.countP Mark.isRefusedDial

/-- The ids of the calls broadcast as `DISCONNECTED` so far. -/
def CallManager.endedCalls (s : CallManager) : List Int := s.history.filterMap Mark.ended

/-- A refused dial left nothing behind and touched nothing else: an error is
returned, the call made for it, and no other, was broadcast as ended and is gone,
and every other call has its place and all it is known by. -/
structure CleanRefusal (s s' : CallManager) (ret : RetCode) : Prop where
  error : ret ≠ .success
  list : s'.callObjectPtrList = s.callObjectPtrList
  row : ∀ q ∈ s.callObjectPtrList, s'.row q = s.row q
  ended : s'.endedCalls = s.endedCalls ++ [s.callId + 1]

instance (s s' : CallManager) (ret : RetCode) : Decidable (CleanRefusal s s' ret) :=
  decidable_of_iff (_ ∧ _ ∧ _ ∧ _) ⟨fun h => CleanRefusal.mk h.1 h.2.1 h.2.2.1 h.2.2.2,
    fun h => ⟨h.error, h.list, h.row, h.ended⟩⟩

/-- A state with the same rows has the same calls in the same places. -/
theorem list_row_of_rows {s' : CallManager} (h : s'.table.rows = s.table.rows) :
    s'.callObjectPtrList = s.callObjectPtrList ∧ ∀ q ∈ s.callObjectPtrList, s'.row q = s.row q := by
  refine ⟨by rw [s'.list_eq_map_obj, h, ← s.list_eq_map_obj], fun q hq => ?_⟩
  exact (CallManager.row_of_mem (h ▸ s.row_mem_table hq : s.row q ∈ s'.table.rows)).2

/-- What a refused dial amounts to on the table. -/
theorem DialOutcome.refused {t t' : CallTable} {slotId : Int} {number : Bytes} {ret : RetCode}
    (h : DialOutcome env t t' slotId number ret)
    (hrefused : t.history.countP Mark.isRefusedDial < t'.history.countP Mark.isRefusedDial) :
    ∃ ecc report dial reply, (ecc = false → ∀ r ∈ t.rows, r.isEcc = false) ∧
      report.IsCarried ∧ report.index = 0 ∧ report.state = .dialing ∧ report.accountId = slotId ∧
      (t.saveDial ecc).created.admission ((t.saveDial ecc).newRow report .outgoing) = .success ∧
      ret ≠ .success ∧
      t' = ((((t.saveDial ecc).addDialing report).2.dialed dial reply).failCall
        ((t.saveDial ecc).dialRow report)).2 := by
  rcases h with ⟨-, rfl⟩ | ⟨ecc, hecc, ⟨-, rfl⟩ | ⟨report, dial, hcar, hidx, hst, hslot, -, hent⟩⟩
  · exact absurd hrefused (Nat.lt_irrefl _)
  · exact absurd hrefused (Nat.lt_irrefl _)
  rcases hent with ⟨-, -, rfl⟩ | ⟨hadm, log, reply, -, ⟨rfl, -, rfl⟩ | ⟨-, hne, rfl⟩⟩
  · exact absurd hrefused (Nat.lt_irrefl _)
  · rw [CallTable.addDialing_dialed hst hadm] at hrefused
    simp [Mark.isRefusedDial, CallTable.saveDial] at hrefused
  · exact ⟨ecc, report, dial, reply, hecc, hcar, hidx, hst, hslot, hadm, hne, rfl⟩

/-- **A refused dial is cleaned up exactly if its call is the only one without an
index on its slot.** -/
theorem dialCall_refused_iff (env : Env) (hs : Reachable s) (caller : Caller)
    (number : List UInt16) (extras : PacMap)
    (hrefused : s.refusedDials <
      (CallManagerService.dialCall env caller number extras s).2.refusedDials) :
    CleanRefusal s (CallManagerService.dialCall env caller number extras s).2
        (CallManagerService.dialCall env caller number extras s).1 ↔
      ∀ q ∈ s.callObjectPtrList,
        ¬((s.call q).index = 0 ∧ (s.call q).slotId = dialSlot (buildDialInfo extras)) := by
  have hinv := reachable_inv hs
  have hpost : Post (CallManagerService.dialCall env caller number extras) s fun ret s' =>
      ∃ dialed, DialOutcome env s.table s'.table (dialSlot (buildDialInfo extras)) dialed ret := by
    have hno : ∀ ret : RetCode, ret ≠ .success → Post (pure ret) s fun ret s' =>
        ∃ dialed, DialOutcome env s.table s'.table (dialSlot (buildDialInfo extras)) dialed ret :=
      fun ret hne => ⟨[], .inl ⟨hne, rfl⟩⟩
    unfold CallManagerService.dialCall
    refine Post.ite (fun _ => hno _ (by decide)) fun _ => ?_
    refine Post.ite (fun _ => hno _ (by decide)) fun _ => ?_
    refine Post.ite (fun _ => hno _ (by decide)) fun _ => ?_
    exact Post.mono (dialCall_post env hinv.table hinv.dialing hinv.index number _)
      fun _ _ h => h.2
  obtain ⟨dialed, hout⟩ := hpost
  generalize CallManagerService.dialCall env caller number extras s = x at hout hrefused ⊢
  obtain ⟨ret, s'⟩ := x
  obtain ⟨ecc, report, dial, reply, hecc, hcar, hidx, hst, hslot, hadm, hne, ht'⟩ :=
    hout.refused hrefused
  have h := hinv.table.saveDial hecc
  rw [← hslot]
  have hocc : (s.table.saveDial ecc).Occupied report.accountId 0 ↔
      ∃ q ∈ s.callObjectPtrList, (s.call q).index = 0 ∧ (s.call q).slotId = report.accountId := by
    simp only [CallTable.Occupied, CallTable.saveDial, CallManager.table, List.mem_map,
      exists_exists_and_eq_and, and_comm (a := (s.call _).index = 0)]
    rfl
  constructor
  · intro hclean q hq hplace
    have htaken := hocc.mpr ⟨q, hq, hplace⟩
    have hmem := @CallTable.refused_mem _ report dial reply h hcar hidx hst hadm htaken
    rw [← ht'] at hmem
    -- the call of the dial is still there, and it is none of those of before
    have hnew := (CallManager.row_of_mem hmem).1
    rw [hclean.list] at hnew
    exact Nat.lt_irrefl _ (hinv.table.lt_next hnew)
  · intro hfree
    have hno : ¬(s.table.saveDial ecc).Occupied report.accountId 0 := by
      intro ho
      obtain ⟨q, hq, hplace⟩ := hocc.mp ho
      exact hfree q hq hplace
    obtain ⟨hrows, hhist⟩ :=
      @CallTable.refused_eq _ report dial reply h hcar hidx hst hadm hno
    rw [← ht'] at hrows hhist
    obtain ⟨hlist, hrow⟩ := list_row_of_rows (s := s) hrows
    refine ⟨hne, hlist, hrow, ?_⟩
    change s'.table.history.filterMap Mark.ended = _
    rw [hhist, List.filterMap_append]
    rfl

/-- An emergency dial that is refused while a normal dial is pending ends the other
call, and its own stays. -/
theorem dialCall_refused_other :
    ∃ s, Reachable s ∧
      s.refusedDials <
        (CallManagerService.dialCall .refusing ⟨true, true⟩ [49, 49, 50] (fun _ => none) s).2.refusedDials ∧
      ¬CleanRefusal s
        (CallManagerService.dialCall .refusing ⟨true, true⟩ [49, 49, 50] (fun _ => none) s).2
        (CallManagerService.dialCall .refusing ⟨true, true⟩ [49, 49, 50] (fun _ => none) s).1 :=
  ⟨.run [(.obliging, .dialCall ⟨true, true⟩ [49, 48, 48, 56, 54] fun _ => none)], reachable_run _,
    by decide +kernel, by decide +kernel⟩

/-- Next to an active call and a waiting one, both with an index, the refused dial is the only
call without one. -/
theorem dialCall_refused_first :
    CleanRefusal
      (.run [(.obliging, .callReport (ringingReport 1)),
        (.obliging, .callReport { ringingReport 1 with state := 0 }),
        (.obliging, .callReport { ringingReport 2 with state := 5 })])
      (CallManagerService.dialCall .refusing ⟨true, true⟩ [49, 49, 50] (fun _ => none)
        (.run [(.obliging, .callReport (ringingReport 1)),
          (.obliging, .callReport { ringingReport 1 with state := 0 }),
          (.obliging, .callReport { ringingReport 2 with state := 5 })])).2
      (CallManagerService.dialCall .refusing ⟨true, true⟩ [49, 49, 50] (fun _ => none)
        (.run [(.obliging, .callReport (ringingReport 1)),
          (.obliging, .callReport { ringingReport 1 with state := 0 }),
          (.obliging, .callReport { ringingReport 2 with state := 5 })])).1 :=
  (dialCall_refused_iff .refusing (reachable_run _) ⟨true, true⟩ [49, 49, 50] (fun _ => none)
    (by decide +kernel)).mpr (by decide +kernel)

/-! ## What dials send -/

/-- The number of a Dial command that reached a stack. -/
def Mark.sentDial : Mark → Option Bytes
  | .dialed info (some _) => some info.phoneNum
  | _ => none

/-- The numbers dialed at the stack so far. -/
def CallManager.sentDials (s : CallManager) : List Bytes := s.history.filterMap Mark.sentDial

/-- A note of a Dial command. -/
def Mark.isDialed : Mark → Bool
  | .dialed .. => true
  | _ => false

/-- A Dial command, and whatever the failing dial announces, is noted once. -/
theorem DialReplied.history {t t' : CallTable} {r : Row} {dial : CellularCallInfo}
    {reply : Option Int} {ret : RetCode} (hrep : DialReplied t t' r dial reply ret) (h : t.Inv)
    (hr : r ∈ t.rows) :
    ∃ marks, t'.history = t.history ++ .dialed dial reply :: marks ∧
      ∀ m ∈ marks, m.isDialed = false := by
  rcases hrep with ⟨-, -, rfl⟩ | ⟨-, -, rfl⟩
  · exact ⟨[], rfl, by simp⟩
  · obtain ⟨q, marks, hhist, hmarks⟩ := CallTable.failCall_history (h.dialed dial reply) hr
    refine ⟨marks ++ CallTable.stateChange q.callId q.callState .disconnected, ?_, fun m hm => ?_⟩
    · rw [hhist, CallTable.dialed, List.append_assoc]
      rfl
    rcases List.mem_append.mp hm with hm | hm
    · rw [hmarks m hm]
      rfl
    · unfold CallTable.stateChange at hm
      split at hm
      · cases hm
      · rw [List.mem_singleton.mp hm]
        rfl

theorem DialReplied.sentDials {t t' : CallTable} {r : Row} {dial : CellularCallInfo}
    {reply : Option Int} {ret : RetCode} (hrep : DialReplied t t' r dial reply ret) (h : t.Inv)
    (hr : r ∈ t.rows) :
    t'.history.filterMap Mark.sentDial =
      t.history.filterMap Mark.sentDial ++ (reply.map fun _ => dial.phoneNum).toList := by
  obtain ⟨marks, hhist, hmarks⟩ := hrep.history h hr
  have hquiet : marks.filterMap Mark.sentDial = [] := by
    refine List.filterMap_eq_nil_iff.mpr fun m hm => ?_
    have := hmarks m hm
    cases m with
    | dialed => cases this
    | added => rfl
    | changed => rfl
  rw [hhist, List.filterMap_append]
  cases reply with
  | none => rw [List.filterMap_cons_none rfl, hquiet]; rfl
  | some code =>
    have hsent : Mark.sentDial (.dialed dial (some code)) = some dial.phoneNum := rfl
    rw [List.filterMap_cons_some hsent, hquiet]
    rfl

end CallManagerMini
