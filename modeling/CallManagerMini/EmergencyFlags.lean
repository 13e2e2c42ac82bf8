import CallManagerMini.DialEffects
import CallManagerMini.StateChain

/-! # Where the emergency flags come from

A dial is classified by `IsEmergencyPhoneNumber`, and its call carries that flag.  The
classification travels through the saved dial, which every later dial overwrites, and every
outgoing call that a report enters or changes between CS and IMS takes the flag of the dial
saved last.  A `Ledger` remembers the dials of a run; the flags of the table agree with it
as long as no report hands the flag of a saved emergency dial to a call of another origin
(`flagKeeping_flagsFromDials`).
-/

namespace CallManagerMini

open Prog (Post)
open Relation (ReflTransGen)

/-! ## The ledger -/

/-- The dials of a run. -/
structure Ledger where
  /-- How the dial was classified that made the call with an id. -/
  dials : Int → Option Bool := fun _ => none
  /-- The numbers of the emergency dials. -/
  eccNumbers : List Bytes := []

namespace Ledger

/-- A call with this id, flag, direction and number carries a flag with a reason: that of its
own dial, or, if the stack made it, of an earlier emergency dial of its number. -/
structure Justifies (l : Ledger) (callId : Int) (isEcc : Bool) (direction : CallDirection)
    (number : Bytes) : Prop where
  dialed : ∀ ecc, l.dials callId = some ecc → isEcc = ecc
  reported : l.dials callId = none → isEcc = true →
    direction = .outgoing ∧ number ∈ l.eccNumbers

/-- An outgoing call with this id and number may carry the flag. -/
def MayFlag (l : Ledger) (callId : Int) (number : Bytes) : Prop :=
  match l.dials callId with
  | some ecc => ecc = true
  | none => number ∈ l.eccNumbers

instance (l : Ledger) (callId : Int) (number : Bytes) : Decidable (l.MayFlag callId number) := by
  unfold MayFlag
  split <;> infer_instance

/-- The row carries a flag with a reason. -/
def Justified (l : Ledger) (r : Row) : Prop :=
  l.Justifies r.callId r.isEcc r.direction r.accountNumber

end Ledger

/-! ## Flags and reports -/

namespace CallTable

variable {t t' : CallTable} {l l' : Ledger} {r q : Row} {info : CallDetailInfo}

/-- Every flag of the table has a reason, and the ids not handed out yet have no dial. -/
structure Accounted (l : Ledger) (t : CallTable) : Prop where
  rows : ∀ r ∈ t.rows, l.Justified r
  fresh : ∀ callId, t.lastCallId < callId → l.dials callId = none

/-- The rows agree in all a flag depends on. -/
structure SameFlag (q r : Row) : Prop where
  callId : r.callId = q.callId
  isEcc : r.isEcc = q.isEcc
  direction : r.direction = q.direction
  accountNumber : r.accountNumber = q.accountNumber

theorem SameFlag.refl (r : Row) : SameFlag r r := ⟨rfl, rfl, rfl, rfl⟩

theorem SameFlag.restyle (info : CallDetailInfo) (r : Row) : SameFlag r (r.restyle info) :=
  ⟨by simp, by simp, by simp, by simp⟩

theorem SameFlag.setState (st : TelCallState) (r : Row) : SameFlag r (r.setState st) :=
  ⟨rfl, rfl, rfl, rfl⟩

theorem SameFlag.justified (h : SameFlag q r) (hq : l.Justified q) : l.Justified r := by
  unfold Ledger.Justified at hq ⊢
  rwa [h.callId, h.isEcc, h.direction, h.accountNumber]

namespace Accounted

theorem of_rows (h : Accounted l t) (hrows : ∀ r ∈ t'.rows, ∃ q ∈ t.rows, SameFlag q r)
    (hlast : t.lastCallId ≤ t'.lastCallId) : Accounted l t' := by
  refine ⟨fun r hr => ?_, fun c hc => h.fresh c (lt_of_le_of_lt hlast hc)⟩
  obtain ⟨q, hq, hsame⟩ := hrows r hr
  exact hsame.justified (h.rows q hq)

/-- Calls leave. -/
theorem of_subset (h : Accounted l t) (hrows : ∀ r ∈ t'.rows, r ∈ t.rows)
    (hlast : t.lastCallId ≤ t'.lastCallId) : Accounted l t' :=
  h.of_rows (fun r hr => ⟨r, hrows r hr, .refl r⟩) hlast

theorem update (h : Accounted l t) (callId : Int) {f : Row → Row} (hf : ∀ q, SameFlag q (f q)) :
    Accounted l (t.update callId f) := by
  refine h.of_rows (fun r hr => ?_) (le_refl t.lastCallId)
  obtain ⟨a, ha, rfl⟩ := Keyed.mem_update.mp hr
  refine ⟨a, ha, ?_⟩
  split
  · exact hf a
  · exact .refl a

theorem announce (h : Accounted l t) (r : Row) (next : TelCallState) :
    Accounted l (t.announce r next) :=
  (h.update r.callId (SameFlag.setState next)).of_subset (fun _ hr => hr) (le_refl t.lastCallId)

theorem created (h : Accounted l t) : Accounted l t.created :=
  h.of_subset (fun _ hr => hr) (Int.le_of_lt (Int.lt_succ t.lastCallId))

end Accounted

/-! ## Reports that keep the flags -/

/-- A change of the call between CS and IMS, which leaves it with this number, gives it no
flag without a reason. -/
def KeepsFlag (l : Ledger) (t : CallTable) (info : CallDetailInfo) (r : Row) (number : Bytes) :
    Prop :=
  t.dialEcc = true → r.direction = .outgoing → r.callType ≠ info.callType →
    l.MayFlag r.callId number

/-- The call at the report's place, if there is one, keeps its flag. -/
def RefreshKeepsFlag (l : Ledger) (info : CallDetailInfo) (t : CallTable) : Prop :=
  ∀ r, t.callAt info.index info.accountId = some r → KeepsFlag l t info r info.phoneNum

/-- The pending call keeps its flag when the report numbers it. -/
def AdoptKeepsFlag (l : Ledger) (info : CallDetailInfo) (t : CallTable) : Prop :=
  ∀ r, t.pending = some r → KeepsFlag l t info r r.accountNumber

/-- The call made of the report has no flag without a reason. -/
def NewKeepsFlag (l : Ledger) (info : CallDetailInfo) (t : CallTable) : Prop :=
  t.dialEcc = true → t.rows.length < miniMaxCallObjects → info.phoneNum ∈ l.eccNumbers

/-- What becomes of the report as a `DIALING` report. -/
def DialingKeepsFlag (l : Ledger) (info : CallDetailInfo) (t : CallTable) : Prop :=
  if 0 < info.index ∧
      ((t.callAt 0 info.accountId).isSome ∨ (t.callAt info.index info.accountId).isSome) then
    RefreshKeepsFlag l info t ∧
      (¬t.Occupied info.accountId info.index → AdoptKeepsFlag l info t)
  else NewKeepsFlag l info t

/-- A report that does not find its call goes to the pending one. -/
def ReportedKeepsFlag (l : Ledger) (info : CallDetailInfo) (t : CallTable) : Prop :=
  ¬t.Occupied info.accountId info.index → t.pending.isSome → DialingKeepsFlag l info t

/-- **The reports that keep the flags.**  While the dial saved last is an emergency dial, an
outgoing call that changes between CS and IMS was an emergency dial itself, or, if the stack
made it, has a number that was dialed as one; and so has every outgoing call the report
makes. -/
def KeepsFlags (l : Ledger) (info : CallDetailInfo) (t : CallTable) : Prop :=
  match info.state with
  | .active => ReportedKeepsFlag l info t ∧ RefreshKeepsFlag l info t
  | .alerting => ReportedKeepsFlag l info t ∧
    ∀ r, t.callAt info.index info.accountId = some r →
      r.callState = .disconnecting ∨ KeepsFlag l t info r info.phoneNum
  | .dialing => DialingKeepsFlag l info t
  | .holding | .disconnecting => RefreshKeepsFlag l info t
  | .incoming | .waiting => RefreshKeepsFlag l info t.failPending
  | _ => True

instance (l : Ledger) (t : CallTable) (info : CallDetailInfo) (r : Row) (number : Bytes) :
    Decidable (KeepsFlag l t info r number) := by
  unfold KeepsFlag; infer_instance

instance (l : Ledger) (info : CallDetailInfo) (t : CallTable) :
    Decidable (RefreshKeepsFlag l info t) := by
  unfold RefreshKeepsFlag; infer_instance

instance (l : Ledger) (info : CallDetailInfo) (t : CallTable) :
    Decidable (AdoptKeepsFlag l info t) := by
  unfold AdoptKeepsFlag; infer_instance

instance (l : Ledger) (info : CallDetailInfo) (t : CallTable) :
    Decidable (NewKeepsFlag l info t) := by
  unfold NewKeepsFlag; infer_instance

instance (l : Ledger) (info : CallDetailInfo) (t : CallTable) :
    Decidable (DialingKeepsFlag l info t) := by
  unfold DialingKeepsFlag; infer_instance

instance (l : Ledger) (info : CallDetailInfo) (t : CallTable) :
    Decidable (ReportedKeepsFlag l info t) := by
  unfold ReportedKeepsFlag; infer_instance

instance (l : Ledger) (info : CallDetailInfo) (t : CallTable) :
    Decidable (KeepsFlags l info t) := by
  unfold KeepsFlags
  exact match info.state with
    | .active | .alerting | .dialing | .holding | .disconnecting | .incoming | .waiting
    | .disconnected | .idle | .unknown | .answered => inferInstance

/-! ## The parts of a report -/

/-- The call that replaces `r` in a refresh has a flag with a reason, if `r` has one. -/
theorem justified_refreshed (hinv : t.Inv) (hr : r ∈ t.rows) (hrow : l.Justified r)
    {number : Bytes}
    (hmay : t.dialEcc = true → r.direction = .outgoing → l.MayFlag r.callId number) :
    l.Justifies r.callId (t.refreshed r info).isEcc r.direction number := by
  have hflag : (t.refreshed r info).isEcc = (r.direction = .outgoing && t.dialEcc) := rfl
  have hold := (hinv.ok r hr).ecc
  unfold Ledger.MayFlag at hmay
  refine ⟨fun ecc hdial => ?_, fun hdial hecc => ?_⟩
  · have hwas : r.isEcc = ecc := hrow.dialed ecc hdial
    simp only [hdial] at hmay
    rw [hflag]
    by_cases hboth : t.dialEcc = true ∧ r.direction = .outgoing
    · simp [hboth.1, hboth.2, hmay hboth.1 hboth.2]
    · have hnot : ecc = false := by
        rw [← hwas]
        exact Bool.eq_false_iff.mpr fun hecc => hboth (hold hecc)
      rw [hnot]
      cases hecc : t.dialEcc with
      | false => simp
      | true =>
        have hin : r.direction ≠ .outgoing := fun hout => hboth ⟨hecc, hout⟩
        simp [hin]
  · simp only [hdial] at hmay
    rw [hflag] at hecc
    obtain ⟨hout, hecc⟩ := Bool.and_eq_true_iff.mp hecc
    have hout : r.direction = .outgoing := of_decide_eq_true hout
    exact ⟨hout, hmay hecc hout⟩

namespace Accounted

/-- After a refresh the call may be changed once more. -/
theorem refresh_update (h : Accounted l t) (hinv : t.Inv) (hr : r ∈ t.rows) {f : Row → Row}
    (hsame : SameFlag r (f (r.restyle info)))
    (hnew : r.callType ≠ info.callType → l.Justified (f (t.refreshed r info))) :
    Accounted l ((t.refresh r info).2.update r.callId f) := by
  have hlast : t.lastCallId ≤ ((t.refresh r info).2.update r.callId f).lastCallId :=
    refresh_lastCallId hinv hr info
  refine ⟨fun a ha => ?_, fun c hc => h.fresh c (lt_of_le_of_lt hlast hc)⟩
  obtain ⟨b, hb, rfl⟩ := Keyed.mem_update.mp ha
  by_cases hid : b.callId = r.callId
  · rw [if_pos hid]
    have hrow := h.rows r hr
    revert hb
    refine refresh_cases hinv hr info ?_ ?_ ?_
    · intro _ hb
      obtain ⟨q, hq, rfl⟩ := Keyed.mem_update.mp hb
      by_cases hqid : q.callId = r.callId
      · rw [if_pos hqid, hinv.eq_of_callId hq hr hqid]
        exact hsame.justified hrow
      · rw [if_neg hqid] at hid
        exact absurd hid hqid
    · intro htype _ _ hb
      rcases List.mem_append.mp hb with hb | hb
      · exact absurd hid ((hinv.created.mem_remove).mp hb).2
      · rw [List.mem_singleton.mp hb]
        exact hnew htype
    · intro _ _ hb
      exact absurd hid ((hinv.created.mem_remove).mp hb).2
  · rw [if_neg hid]
    exact h.rows b ((mem_refresh_iff hinv hr hid).mp hb)

theorem refresh (h : Accounted l t) (hinv : t.Inv) (hr : r ∈ t.rows)
    (hkept : KeepsFlag l t info r info.phoneNum) : Accounted l (t.refresh r info).2 := by
  have hsame : (t.refresh r info).2.update r.callId id = (t.refresh r info).2 := by
    unfold CallTable.update
    rw [Keyed.update_eq_self (f := id) fun _ _ _ => rfl]
  rw [← hsame]
  refine h.refresh_update hinv hr (SameFlag.restyle info r) fun htype => ?_
  exact justified_refreshed hinv hr (h.rows r hr) fun hecc hout => hkept hecc hout htype

theorem adopt (h : Accounted l t) (hinv : t.Inv) (hkept : AdoptKeepsFlag l info t) :
    Accounted l (t.adopt info).2 := by
  unfold CallTable.adopt
  split
  · exact h
  · next r hr =>
    have hmem := (pending_eq_some hr).1
    dsimp only
    rw [refresh_callId hinv hmem]
    refine h.refresh_update hinv hmem ⟨?_, ?_, ?_, rfl⟩ fun htype => ?_
    · exact Row.restyle_callId info r
    · exact Row.restyle_isEcc info r
    · exact Row.restyle_direction info r
    · have hnew : l.Justifies r.callId (t.refreshed r info).isEcc r.direction r.accountNumber :=
        justified_refreshed hinv hmem (h.rows r hmem) fun hecc hout =>
          hkept r hr hecc hout htype
      exact hnew

/-- A call enters that nobody dialed here. -/
theorem insertNew (h : Accounted l t) {direction : CallDirection} {st : TelCallState}
    (hadm : t.created.admission (t.newRow info direction) = .success)
    (hflag : (t.newRow info direction).isEcc = true → info.phoneNum ∈ l.eccNumbers) :
    Accounted l ((t.created.insert (t.newRow info direction)).update
      (t.newRow info direction).callId (Row.setState st)) := by
  rw [insert_update hadm]
  refine ⟨fun r hr => ?_, fun c hc => h.created.fresh c hc⟩
  rcases List.mem_append.mp hr with hr | hr
  · exact h.rows r hr
  · have hnew : l.dials (t.lastCallId + 1) = none := h.fresh _ (Int.lt_succ t.lastCallId)
    rw [List.mem_singleton.mp hr]
    refine ⟨fun ecc hdial => ?_, fun _ hecc => ⟨?_, hflag hecc⟩⟩
    · exact absurd (hnew.symm.trans hdial) nofun
    · exact of_decide_eq_true (Bool.and_eq_true_iff.mp hecc).1

theorem addDialing (h : Accounted l t) (hinv : t.Inv) (hnew : NewKeepsFlag l info t) :
    Accounted l (t.addDialing info).2 := by
  unfold CallTable.addDialing
  dsimp only
  split
  · next hadm =>
    refine h.insertNew hadm fun hecc => ?_
    have hecc : t.dialEcc = true := by simpa [newRow] using hecc
    refine hnew hecc ?_
    have hroom := (admission_newRow hinv).mp hadm
    rwa [hecc] at hroom
  · exact h.created

theorem addIncoming (h : Accounted l t) : Accounted l (t.addIncoming info).2 := by
  unfold CallTable.addIncoming
  dsimp only
  split
  · next hadm => exact h.insertNew hadm fun hecc => by cases hecc
  · exact h.created

theorem dialing (h : Accounted l t) (hinv : t.Inv) (hkept : DialingKeepsFlag l info t) :
    Accounted l (t.dialing info).2 := by
  unfold DialingKeepsFlag at hkept
  unfold CallTable.dialing
  split
  · next hupdate =>
    rw [if_pos hupdate] at hkept
    unfold CallTable.updateDialing
    split
    · next r hr => exact h.refresh hinv (callAt_eq_some hr).1 (hkept.1 r hr)
    · next hnone => exact h.adopt hinv (hkept.2 (callAt_eq_none_iff.mp hnone))
  · next hadd =>
    rw [if_neg hadd] at hkept
    exact h.addDialing hinv hkept

theorem moveTo (h : Accounted l t) (hinv : t.Inv) (hr : r ∈ t.rows)
    (hkept : KeepsFlag l t info r info.phoneNum) (next : TelCallState) :
    Accounted l (t.moveTo next info r).2 :=
  (h.refresh hinv hr hkept).announce _ next

theorem moveKnown (h : Accounted l t) (hinv : t.Inv) (hkept : RefreshKeepsFlag l info t)
    (next : TelCallState) : Accounted l (t.moveKnown next info).2 := by
  unfold CallTable.moveKnown
  split
  · exact h
  · next r hr => exact h.moveTo hinv (callAt_eq_some hr).1 (hkept r hr) next

theorem reported (h : Accounted l t) (hinv : t.Inv) (hkept : ReportedKeepsFlag l info t) :
    Accounted l (t.reported info).2 := by
  unfold CallTable.reported
  split
  · exact h
  next hnone =>
  split
  · next hpending => exact h.dialing hinv (hkept (callAt_eq_none_iff.mp hnone) hpending)
  · exact h

/-- The report goes on with a call of its own type, or with the one at its place. -/
theorem moveReported (h : Accounted l t) (hinv : t.Inv) (hinfo : info.IsCarried)
    (hkept : ReportedKeepsFlag l info t) (hr : (t.reported info).1 = some r)
    (hown : t.callAt info.index info.accountId = some r → KeepsFlag l t info r info.phoneNum)
    (next : TelCallState) : Accounted l ((t.reported info).2.moveTo next info r).2 := by
  have hmem := (callAt_eq_some (reported_eq_some hr)).1
  refine (h.reported hinv hkept).moveTo (hinv.reported hinfo) hmem ?_ next
  rcases reported_some hinv hr with ⟨hat, hsame⟩ | htype
  · rw [hsame]
    exact hown hat
  · exact fun _ _ hne => absurd htype hne

theorem active (h : Accounted l t) (hinv : t.Inv) (hinfo : info.IsCarried)
    (hreported : ReportedKeepsFlag l info t) (hkept : RefreshKeepsFlag l info t) :
    Accounted l (t.active info).2 := by
  have hnone := h.reported hinv hreported
  have hsome := fun r hr => h.moveReported (r := r) hinv hinfo hreported hr (hkept r) .active
  unfold CallTable.active
  cases hx : t.reported info with
  | mk found t' =>
    rw [hx] at hnone hsome
    cases found with
    | none => exact hnone
    | some r => exact hsome r rfl

theorem alerting (h : Accounted l t) (hinv : t.Inv) (hinfo : info.IsCarried)
    (hreported : ReportedKeepsFlag l info t)
    (hkept : ∀ r, t.callAt info.index info.accountId = some r →
      r.callState = .disconnecting ∨ KeepsFlag l t info r info.phoneNum) :
    Accounted l (t.alerting info).2 := by
  have hnone := h.reported hinv hreported
  have hsome := fun r hst hr => h.moveReported (r := r) hinv hinfo hreported hr
    (fun hat => (hkept r hat).resolve_left hst) .alerting
  unfold CallTable.alerting
  cases hx : t.reported info with
  | mk found t' =>
    rw [hx] at hnone hsome
    cases found with
    | none => exact hnone
    | some r =>
      dsimp only
      split
      · exact hnone
      · next hst => exact hsome r hst rfl

end Accounted

/-! ## Calls that end -/

/-- No call came but the one with id `callId`, which alone has the place of the report. -/
structure Settles (info : CallDetailInfo) (callId : Int) (t t' : CallTable) : Prop where
  rows : ∀ q ∈ t'.rows, q.callId ≠ callId → q ∈ t.rows
  place : ∀ q ∈ t'.rows, (q.callId = callId ↔ q.slotId = info.accountId ∧ q.index = info.index)
  last : t.lastCallId ≤ t'.lastCallId

/-- Nobody has the place, and nobody the id. -/
theorem settles_of_rows (h : t.Inv) (hnone : t.callAt info.index info.accountId = none)
    (hrows : t'.rows = t.rows) (hlast : t.lastCallId ≤ t'.lastCallId) :
    Settles info (t.lastCallId + 1) t t' where
  rows q hq _ := hrows ▸ hq
  place q hq := by
    rw [hrows] at hq
    have hle := (h.ok q hq).id_le
    exact iff_of_false (by omega) (callAt_eq_none hnone q hq)
  last := hlast

/-- A report of a place nobody has, taken as a dialed call. -/
theorem dialing_settles (h : t.Inv) (hnone : t.callAt info.index info.accountId = none) :
    ∃ callId, Settles info callId t (t.dialing info).2 := by
  unfold CallTable.dialing
  split
  · rw [updateDialing, show t.callAt info.index info.accountId = none from hnone]
    cases hr : t.pending with
    | none =>
      refine ⟨_, settles_of_rows h hnone ?_ ?_⟩
      · simp [CallTable.adopt, hr]
      · simp [CallTable.adopt, hr]
    | some r =>
      have hmem := (pending_eq_some hr).1
      have hplace : ∀ q ∈ (t.adopt { info with state := .dialing }).2.rows,
          (q.callId = r.callId ↔ q.slotId = info.accountId ∧ q.index = info.index) :=
        fun q hq => @adopt_callAt t r q { info with state := .dialing } h hnone hr hq
      refine ⟨r.callId, fun q hq hne => ?_, hplace, ?_⟩
      · simp only [CallTable.adopt, hr] at hq
        obtain ⟨a, ha, rfl⟩ := Keyed.mem_update.mp hq
        split at hne
        · next hid => exact absurd (hid.trans (refresh_callId h hmem _)) hne
        · next hid =>
          rw [if_neg hid]
          exact (mem_refresh_iff h hmem hne).mp ha
      · simp only [CallTable.adopt, hr]
        exact refresh_lastCallId h hmem _
  · unfold CallTable.addDialing
    dsimp only
    split
    · next hadm =>
      rw [insert_update hadm]
      refine ⟨t.lastCallId + 1, fun q hq hne => ?_, fun q hq => ?_, ?_⟩
      · rcases List.mem_append.mp hq with hq | hq
        · exact hq
        · exact absurd (congrArg Row.callId (List.mem_singleton.mp hq)) hne
      · rcases List.mem_append.mp hq with hq | hq
        · have hle := (h.ok q hq).id_le
          exact iff_of_false (by omega) (callAt_eq_none hnone q hq)
        · rw [List.mem_singleton.mp hq]
          exact iff_of_true rfl ⟨rfl, rfl⟩
      · exact Int.le_of_lt (Int.lt_succ t.lastCallId)
    · exact ⟨_, settles_of_rows h hnone rfl (Int.le_of_lt (Int.lt_succ t.lastCallId))⟩

theorem disconnect_lastCallId (h : t.Inv) (hr : r ∈ t.rows) :
    t.lastCallId ≤ (t.disconnect info r).lastCallId := refresh_lastCallId h hr info

/-- **The report of an end leaves no call behind that was not there.** -/
theorem disconnected_rows (h : t.Inv) (hinfo : info.IsCarried) :
    (∀ q ∈ (t.disconnected info).2.rows, q ∈ t.rows) ∧
      t.lastCallId ≤ (t.disconnected info).2.lastCallId := by
  unfold CallTable.disconnected
  cases hat : t.callAt info.index info.accountId with
  | some r =>
    have hrep : t.reported info = (some r, t) := by simp only [CallTable.reported, hat]
    have hmem := (callAt_eq_some hat).1
    rw [hrep]
    exact ⟨fun q hq => ((mem_disconnect_iff h hinfo hmem (h.fits hat)).mp hq).1,
      disconnect_lastCallId h hmem⟩
  | none =>
    by_cases hpending : t.pending.isSome
    · obtain ⟨callId, hs⟩ := dialing_settles h hat
      have hinv := h.dialing hinfo
      have hrep : t.reported info =
          ((t.dialing info).2.callAt info.index info.accountId, (t.dialing info).2) := by
        simp only [CallTable.reported, hat, if_pos hpending]
      rw [hrep]
      cases hat' : (t.dialing info).2.callAt info.index info.accountId with
      | none =>
        refine ⟨fun q hq => hs.rows q hq fun hid => ?_, hs.last⟩
        exact callAt_eq_none hat' q hq ((hs.place q hq).mp hid)
      | some r =>
        obtain ⟨hmem, hplace⟩ := callAt_eq_some hat'
        have hid := (hs.place r hmem).mpr hplace
        refine ⟨fun q hq => ?_, hs.last.trans (disconnect_lastCallId hinv hmem)⟩
        obtain ⟨hq, hne⟩ := (mem_disconnect_iff hinv hinfo hmem (hinv.fits hat')).mp hq
        exact hs.rows q hq fun hq => hne (hq.trans hid.symm)
    · have hrep : t.reported info = (none, t) := by
        simp only [CallTable.reported, hat, if_neg hpending]
      rw [hrep]
      exact ⟨fun q hq => hq, le_refl t.lastCallId⟩

namespace Accounted

theorem disconnected (h : Accounted l t) (hinv : t.Inv) (hinfo : info.IsCarried) :
    Accounted l (t.disconnected info).2 :=
  h.of_subset (disconnected_rows hinv hinfo).1 (disconnected_rows hinv hinfo).2

theorem failCall (h : Accounted l t) (hinv : t.Inv) (hr : r ∈ t.rows) :
    Accounted l (t.failCall r).2 :=
  h.disconnected hinv (hinv.disconnectedInfo_isCarried hr)

theorem failPending (h : Accounted l t) (hinv : t.Inv) : Accounted l t.failPending := by
  unfold CallTable.failPending
  split
  · exact h
  · next r hr => exact h.failCall hinv (pending_eq_some hr).1

theorem fails (h : Accounted l t) (hinv : t.Inv) (hfails : Fails t t') : Accounted l t' := by
  induction hfails with
  | refl => exact h
  | tail hc hstep ih =>
    obtain ⟨r, hr, rfl⟩ := hstep
    exact ih.failCall (LocalChanges.inv hinv (Fails.localChanges hc)) hr

/-! ## Reports -/

theorem oldIncoming (h : Accounted l t) (hinv : t.Inv) (hr : r ∈ t.rows)
    (hkept : KeepsFlag l t info r info.phoneNum) : Accounted l (t.oldIncoming info r) := by
  unfold CallTable.oldIncoming
  dsimp only
  split
  · split
    · exact h.moveTo hinv hr hkept info.state
    · exact h.refresh hinv hr hkept
  · exact h

theorem incoming (h : Accounted l t) (hinv : t.Inv)
    (hkept : RefreshKeepsFlag l info t.failPending) : Accounted l (t.incoming info).2 := by
  have h' := h.failPending hinv
  unfold CallTable.incoming
  dsimp only
  split
  · next r hr => exact h'.oldIncoming hinv.failPending (callAt_eq_some hr).1 (hkept r hr)
  · exact h'.addIncoming

/-- **A report that keeps the flags gives none without a reason.** -/
theorem report (h : Accounted l t) (hinv : t.Inv) (hinfo : info.IsCarried)
    (hkept : KeepsFlags l info t) : Accounted l (t.report info).2 := by
  unfold KeepsFlags at hkept
  unfold CallTable.report
  cases hst : info.state <;> simp only [hst] at hkept ⊢
  case active => exact h.active hinv hinfo hkept.1 hkept.2
  case holding => exact h.moveKnown hinv hkept .holding
  case dialing => exact h.dialing hinv hkept
  case alerting => exact h.alerting hinv hinfo hkept.1 hkept.2
  case incoming => exact h.incoming hinv hkept
  case waiting => exact h.incoming hinv hkept
  case disconnected => exact h.disconnected hinv hinfo
  case disconnecting => exact h.moveKnown hinv hkept .disconnecting
  all_goals exact h

end Accounted

/-- Reports that keep the flags one after the other. -/
def AllKeepFlags (l : Ledger) : List CallDetailInfo → CallTable → Prop
  | [], _ => True
  | info :: infos, t => KeepsFlags l info t ∧ AllKeepFlags l infos (t.report info).2

instance decidableAllKeepFlags (l : Ledger) : ∀ infos t, Decidable (AllKeepFlags l infos t)
  | [], _ => inferInstanceAs (Decidable True)
  | info :: infos, t =>
    have := decidableAllKeepFlags l infos (t.report info).2
    inferInstanceAs (Decidable (KeepsFlags l info t ∧ AllKeepFlags l infos (t.report info).2))

theorem Accounted.reports (h : Accounted l t) (hinv : t.Inv) {infos : List CallDetailInfo}
    (hinfos : ∀ i ∈ infos, i.IsCarried) (hkept : AllKeepFlags l infos t) :
    Accounted l (t.reports infos) := by
  induction infos generalizing t with
  | nil => exact h
  | cons i infos ih =>
    have hi := hinfos i List.mem_cons_self
    exact ih (h.report hinv hi hkept.1) (hinv.report hi)
      (fun j hj => hinfos j (List.mem_cons_of_mem i hj)) hkept.2

/-! ## Dials -/

/-- A dial enters one call at most, with the flag of its classification. -/
theorem dialSettled_rows {env : Env} {slotId : Int} {number : Bytes} {ecc : Bool} {ret : RetCode}
    (h : DialSettled env t t' slotId number ecc ret) (hinv : t.Inv) :
    (∀ r ∈ t'.rows, r ∈ t.rows ∨ r.callId = t.lastCallId + 1 ∧ r.isEcc = ecc) ∧
      t.lastCallId ≤ t'.lastCallId := by
  have hle := Int.le_of_lt (Int.lt_succ t.lastCallId)
  rcases h with ⟨-, rfl⟩ | ⟨hecc, ⟨-, rfl⟩ | ⟨report, info, hcarried, hindex, hst, -, -, hent⟩⟩
  · exact ⟨fun r hr => .inl hr, le_refl t'.lastCallId⟩
  · exact ⟨fun r hr => .inl hr, le_refl t.lastCallId⟩
  have hinv := hinv.saveDial hecc
  rcases hent with ⟨-, -, rfl⟩ | ⟨hadm, log, reply, -, hans⟩
  · exact ⟨fun r hr => .inl hr, hle⟩
  set u := ((t.saveDial ecc).addDialing report).2.dialed info reply with hu
  have hrows : ∀ r ∈ u.rows, r ∈ t.rows ∨ r.callId = t.lastCallId + 1 ∧ r.isEcc = ecc := by
    intro r hr
    rw [hu, addDialing_dialed hst hadm] at hr
    rcases List.mem_append.mp hr with hr | hr
    · exact .inl hr
    · rw [List.mem_singleton.mp hr]
      exact .inr ⟨rfl, by simp [dialRow, Row.setState, newRow, saveDial]⟩
  have hlast : t.lastCallId ≤ u.lastCallId := by
    rw [hu, addDialing_dialed hst hadm]
    exact hle
  rcases hans with ⟨-, -, rfl⟩ | ⟨-, -, rfl⟩
  · exact ⟨hrows, hlast⟩
  · have hu' : u.Inv := addDialing_inv hinv hcarried hindex info reply
    have hrow : ((t.saveDial ecc).dialRow report) ∈ u.rows := by
      rw [hu, addDialing_dialed hst hadm]
      exact List.mem_append_right _ (List.mem_singleton.mpr rfl)
    have hend := disconnected_rows hu' (hu'.disconnectedInfo_isCarried hrow)
    exact ⟨fun r hr => hrows r (hend.1 r hr), hlast.trans hend.2⟩

end CallTable

namespace Ledger

/-- The ledger after a dial of `number`, classified as `ecc`, during which the ids up to
`last` were handed out. -/
def dialed (l : Ledger) (number : Bytes) (ecc : Bool) (first last : Int) : Ledger where
  dials callId := if first < callId ∧ callId ≤ last then some ecc else l.dials callId
  eccNumbers := if ecc then l.eccNumbers ++ [number] else l.eccNumbers

/-- A call that was there before the dial. -/
theorem Justified.dialed {l : Ledger} {r : Row} (h : l.Justified r) {first : Int}
    (hid : r.callId ≤ first) (number : Bytes) (ecc : Bool) (last : Int) :
    (l.dialed number ecc first last).Justified r := by
  have hold : (l.dialed number ecc first last).dials r.callId = l.dials r.callId :=
    if_neg fun hnew => absurd hnew.1 (not_lt.mpr hid)
  have h : l.Justifies r.callId r.isEcc r.direction r.accountNumber := h
  refine ⟨fun ecc' hdial => h.dialed ecc' (hold ▸ hdial), fun hdial hecc => ?_⟩
  obtain ⟨hout, hnumber⟩ := h.reported (hold ▸ hdial) hecc
  refine ⟨hout, ?_⟩
  unfold Ledger.dialed
  dsimp only
  split
  · exact List.mem_append_left _ hnumber
  · exact hnumber

end Ledger

namespace CallTable

variable {t t' : CallTable} {l : Ledger}

/-- A dial is entered into the ledger with the call it made. -/
theorem Accounted.dialed (h : Accounted l t) (hinv : t.Inv) {env : Env} {slotId : Int}
    {number : Bytes} {ecc : Bool} {ret : RetCode}
    (hdial : DialSettled env t t' slotId number ecc ret) (hinv' : t'.Inv) :
    Accounted (l.dialed number ecc t.lastCallId t'.lastCallId) t' := by
  obtain ⟨hrows, hlast⟩ := dialSettled_rows hdial hinv
  refine ⟨fun r hr => ?_, fun c hc => ?_⟩
  · rcases hrows r hr with hold | ⟨hid, hecc⟩
    · exact (h.rows r hold).dialed (hinv.ok r hold).id_le number ecc _
    · have hnew : t.lastCallId < r.callId ∧ r.callId ≤ t'.lastCallId :=
        ⟨by omega, (hinv'.ok r hr).id_le⟩
      have hdials : (l.dialed number ecc t.lastCallId t'.lastCallId).dials r.callId = some ecc :=
        if_pos hnew
      refine ⟨fun ecc' hdial => ?_, fun hdial => absurd (hdials.symm.trans hdial) nofun⟩
      rw [hecc]
      exact Option.some_inj.mp (hdials.symm.trans hdial)
  · have hold : ¬(t.lastCallId < c ∧ c ≤ t'.lastCallId) := fun hnew => absurd hnew.2 (by omega)
    refine (if_neg hold).trans (h.fresh c ?_)
    omega

end CallTable

/-! ## In the service's terms -/

/-- The number a `DialCall` dials and how it is classified, if it gets that far. -/
def Input.classified (env : Env) (s : CallManager) : Input → Option (Bytes × Bool)
  | .dialCall caller number extras =>
    if number.length > CallManagerService.accountNumberMaxLength ∨ !caller.isSystemCaller ∨
        !caller.placeCall then none
    else
      match numberLegalityCheck (str16ToStr8 number) with
      | .error _ => none
      | .ok accountNumber =>
        let newPhoneNum := removeSeparatorsPhoneNumber accountNumber
        some (newPhoneNum, isEmergencyNumber env s newPhoneNum (buildDialInfo extras).accountId)
  | _ => none

/-- The ledger after a main-loop step. -/
def Ledger.after (env : Env) (input : Input) (s s' : CallManager) (l : Ledger) : Ledger :=
  match input.classified env s with
  | some dial => l.dialed dial.1 dial.2 s.callId s'.callId
  | none => l

/-- A main-loop step, with the ledger kept. -/
def tracedStep (step : Env × Input) (p : CallManager × Ledger) : CallManager × Ledger :=
  let s' := (mainLoopStep step.1 step.2 p.1).2
  (s', p.2.after step.1 step.2 p.1 s')

/-- The states of the runs, with the dials that led to them. -/
def Traced : CallManager × Ledger → Prop :=
  Runs.Reachable (· = (CallManager.init, {})) (Runs.Step tracedStep fun _ _ => True)

/-- The reports of the step keep the flags. -/
def StepKeepsFlags (step : Env × Input) (p : CallManager × Ledger) : Prop :=
  CallTable.AllKeepFlags p.2 (step.2.reports p.1) p.1.table

instance (step : Env × Input) (p : CallManager × Ledger) : Decidable (StepKeepsFlags step p) := by
  unfold StepKeepsFlags; infer_instance

/-- The states of the runs whose reports all keep the flags. -/
def FlagKeeping : CallManager × Ledger → Prop :=
  Runs.Reachable (· = (CallManager.init, {})) (Runs.Step tracedStep StepKeepsFlags)

/-- Every call carries the flag of its own dial, or, if the stack made it, none unless it is
outgoing and its number was dialed as an emergency. -/
def FlagsFromDials (p : CallManager × Ledger) : Prop :=
  ∀ call ∈ p.1.callObjectPtrList,
    p.2.Justifies (p.1.call call).callId (p.1.call call).isEcc (p.1.call call).direction
      (p.1.call call).accountNumber

theorem FlagKeeping.traced {p : CallManager × Ledger} (hp : FlagKeeping p) : Traced p :=
  hp.mono fun _ _ ⟨step, _, h⟩ => ⟨step, trivial, h⟩

theorem Traced.reachable {p : CallManager × Ledger} (hp : Traced p) : Reachable p.1 := by
  induction hp with
  | start h => exact h ▸ .start rfl
  | next _ hstep ih =>
    obtain ⟨step, -, rfl⟩ := hstep
    exact ih.next ⟨step.1, step.2, rfl⟩

/-- What a `DialCall` comes to on the table. -/
theorem dialCallStep_settles (env : Env) (h : ServiceInv s) (caller : Caller)
    (number : List UInt16) (extras : PacMap) :
    Post (mainLoopStep env (.dialCall caller number extras)) s fun _ s' =>
      match (Input.dialCall caller number extras).classified env s with
      | some dial => ∃ slotId ret, DialSettled env s.table s'.table slotId dial.1 dial.2 ret
      | none => s'.table = s.table := by
  have hrefused : (number.length > CallManagerService.accountNumberMaxLength ∨
      !caller.isSystemCaller ∨ !caller.placeCall) →
      (Input.dialCall caller number extras).classified env s = none := fun hno => if_pos hno
  refine Post.ignore ?_
  unfold CallManagerService.dialCall
  refine Post.ite (fun hlen => ?_) fun hlen => ?_
  · rw [hrefused (.inl hlen)]
    exact Post.pure rfl
  refine Post.ite (fun hsys => ?_) fun hsys => ?_
  · rw [hrefused (.inr (.inl hsys))]
    exact Post.pure rfl
  refine Post.ite (fun hplace => ?_) fun hplace => ?_
  · rw [hrefused (.inr (.inr hplace))]
    exact Post.pure rfl
  unfold CallControlManager.dialCall Input.classified
  dsimp only
  rw [if_neg (by tauto)]
  cases hlegal : numberLegalityCheck (str16ToStr8 number) with
  | error ret => exact Post.pure rfl
  | ok accountNumber =>
    refine Post.mono (dialLegalNumber_settles env h.table h.dialing h.index
      (length_removeSeparators_le hlegal) (buildDialInfo extras)) ?_
    rintro ret s' ⟨-, hsettled⟩
    exact ⟨_, ret, hsettled⟩

/-- A step that is no `DialCall` dials nothing. -/
theorem classified_eq_none (env : Env) {input : Input}
    (hdial : ∀ caller number extras, input ≠ .dialCall caller number extras) :
    input.classified env s = none := by
  cases input with
  | dialCall caller number extras => exact absurd rfl (hdial caller number extras)
  | _ => rfl

/-- **A step whose reports keep the flags** accounts for every flag it leaves. -/
theorem accounted_step (env : Env) (h : ServiceInv s) {l : Ledger}
    (hacc : s.table.Accounted l) {input : Input} (hkept : StepKeepsFlags (env, input) (s, l)) :
    (mainLoopStep env input s).2.table.Accounted
      (l.after env input s (mainLoopStep env input s).2) := by
  have hinv := (h.step ⟨env, input, rfl⟩).table
  by_cases hdial : ∃ caller number extras, input = .dialCall caller number extras
  · obtain ⟨caller, number, extras, rfl⟩ := hdial
    have hstep := dialCallStep_settles env h caller number extras
    unfold Post at hstep
    unfold Ledger.after
    split at hstep
    · next dial hclass =>
      obtain ⟨slotId, ret, hsettled⟩ := hstep
      exact hacc.dialed h.table hsettled hinv
    · rw [hstep]
      exact hacc
  · have hno : ∀ caller number extras, input ≠ .dialCall caller number extras :=
      fun caller number extras hinput => hdial ⟨caller, number, extras, hinput⟩
    have hfails : StepFails input s (mainLoopStep env input s).2 := mainLoopStep_fails env h hno
    unfold Ledger.after
    rw [classified_eq_none env hno]
    exact (hacc.reports h.table h.isCarried hkept).fails (h.table.reports h.isCarried) hfails.table

theorem FlagKeeping.accounted {p : CallManager × Ledger} (hp : FlagKeeping p) :
    p.1.table.Accounted p.2 := by
  refine hp.invariant_of (I := fun p => p.1.table.Accounted p.2) (J := fun p => ServiceInv p.1)
    (fun p hp => reachable_inv (FlagKeeping.traced hp).reachable) ?_ ?_
  · rintro p rfl
    exact ⟨by simp [CallManager.init, CallManager.table], fun _ _ => rfl⟩
  · rintro p p' h hacc ⟨step, hkept, rfl⟩
    exact accounted_step step.1 h hacc hkept

instance (l : Ledger) (callId : Int) (isEcc : Bool) (direction : CallDirection) (number : Bytes) :
    Decidable (l.Justifies callId isEcc direction number) :=
  decidable_of_iff (_ ∧ _) ⟨fun h => ⟨h.1, h.2⟩, fun h => ⟨h.dialed, h.reported⟩⟩

instance (p : CallManager × Ledger) : Decidable (FlagsFromDials p) := by
  unfold FlagsFromDials; infer_instance

/-- A dial of `112`. -/
def emergencyDial : Input := .dialCall ⟨true, true⟩ [49, 49, 50] fun _ => none

/-- A dial of `10086`, its call reported active, a dial of `112`, and a report. -/
def twoDials (last : CallReportInfo) : List (Env × Input) :=
  [(.obliging, plainDial), (.obliging, .callReport activeReport), (.obliging, emergencyDial),
    (.obliging, .callReport last)]

/-- The end of a run, with its dials. -/
def traceOf (steps : List (Env × Input)) : CallManager × Ledger :=
  steps.foldl (fun p step => tracedStep step p) (CallManager.init, {})

theorem traced_traceOf (steps : List (Env × Input)) : Traced (traceOf steps) :=
  Runs.Reachable.run (.start rfl) (Runs.allowed_of_forall (fun _ _ => trivial) steps _)

theorem flagKeeping_traceOf {steps : List (Env × Input)}
    (hkept : Runs.Allowed tracedStep StepKeepsFlags steps (CallManager.init, {})) :
    FlagKeeping (traceOf steps) := Runs.Reachable.run (.start rfl) hkept

end CallManagerMini
