import CallManagerMini.CallTableInvariant

/-! # Reports keep the invariant

The three outcomes of a refresh, and from them that every report leaves a table
that satisfies the invariant again.  A report never needs to know which outcome
it got: it goes on with a call the table holds (`Holds`), whose id and state are
those of the call it started with.
-/

namespace CallManagerMini

namespace CallTable

variable {t : CallTable} {r q : Row} {info : CallDetailInfo}

/-! ## The outcomes of a refresh -/

/-- There is room for a replacement: the table is not full, or the replacement is
an outgoing call and may take the place kept for emergency calls. -/
def Room (t : CallTable) (r : Row) : Prop :=
  t.rows.length < miniMaxCallObjects ∨ r.direction = .outgoing

instance (t : CallTable) (r : Row) : Decidable (t.Room r) := by unfold Room; infer_instance

/-- The row that stands for `r` after a refresh has replaced it. -/
def refreshed (t : CallTable) (r : Row) (info : CallDetailInfo) : Row :=
  { t.replacement r info with callState := r.callState, callRunningState := r.callRunningState }

@[simp] theorem refreshed_callId : (t.refreshed r info).callId = r.callId := rfl

@[simp] theorem refreshed_callState : (t.refreshed r info).callState = r.callState := rfl

/-- A full table holds an emergency call. -/
theorem Inv.exists_ecc (h : t.Inv) (hfull : miniMaxCallObjects ≤ t.rows.length) :
    ∃ q ∈ t.rows, q.isEcc = true := by
  by_contra hno
  push Not at hno
  have hall : (t.rows.countP fun r => !r.isEcc) = t.rows.length :=
    List.countP_eq_length.mpr fun q hq => by simpa using hno q hq
  have := h.nonEcc_le
  rw [hall] at this
  exact absurd (Nat.le_trans hfull this) (by decide)

theorem refresh_same (ht : r.callType = info.callType) :
    t.refresh r info = (r.restyle info, t.update r.callId (Row.restyle info)) := by
  simp [refresh, ht]

/-- The table without `r` takes one call more exactly if there is room. -/
theorem admission_removed (h : t.Inv) (hr : r ∈ t.rows) (hq : q.callId = r.callId) :
    (t.created.remove r.callId).admission q = .success ↔
      t.rows.length - 1 < limit q.isEcc := by
  have hlen : (t.created.remove r.callId).rows.length = t.rows.length - 1 :=
    Keyed.length_remove hr
  have hany : ((t.created.remove r.callId).rows.any fun p => p.callId = q.callId) = false := by
    rw [Bool.eq_false_iff]
    intro hany
    obtain ⟨p, hp, hid⟩ := List.any_eq_true.mp hany
    exact (h.created.mem_remove.mp hp).2 ((by simpa using hid : p.callId = q.callId).trans hq)
  unfold admission
  rw [hany, hlen]
  by_cases hl : limit q.isEcc ≤ t.rows.length - 1 <;> simp [hl]
  omega

theorem admission_refreshed (h : t.Inv) (hr : r ∈ t.rows) (hroom : t.Room r)
    (info : CallDetailInfo) :
    (t.created.remove r.callId).admission (t.refreshed r info) = .success := by
  rw [admission_removed h hr refreshed_callId]
  have hpos : 0 < t.rows.length := List.length_pos_of_mem hr
  by_cases hfull : t.rows.length < miniMaxCallObjects
  · unfold limit miniMaxCallObjects miniEccReservedCallObjects at *
    split <;> omega
  · obtain ⟨q, hq, hecc⟩ := h.exists_ecc (Nat.le_of_not_lt hfull)
    have hdir : r.direction = .outgoing := hroom.resolve_left hfull
    have hnew : (t.refreshed r info).isEcc = true := by
      simp [refreshed, replacement, newRow, hdir, ((h.ok q hq).ecc hecc).1]
    have := h.length_le
    simp only [hnew, limit, if_true]
    omega

theorem replaceCall_replaced (h : t.Inv) (hr : r ∈ t.rows) (hroom : t.Room r)
    (info : CallDetailInfo) :
    t.replaceCall r info =
      (t.refreshed r info,
        { (t.created.remove r.callId).insert (t.refreshed r info) with
          history := t.history ++ [.added r.callId info.state] }) := by
  have hadm : (t.created.remove r.callId).admission (t.replacement r info) = .success :=
    admission_refreshed h hr hroom info
  have hne : ∀ q ∈ (t.created.remove r.callId).rows, q.callId ≠ r.callId :=
    fun q hq => (h.created.mem_remove.mp hq).2
  simp only [replaceCall, hadm, if_true]
  refine Prod.ext rfl ?_
  simp only [insert, update, Keyed.update_append]
  rw [Keyed.update_of_forall_ne hne]
  simp [Keyed.update, refreshed, remove, created, replacement, newRow]

theorem replaceCall_lost (h : t.Inv) (hr : r ∈ t.rows) (hroom : ¬t.Room r)
    (info : CallDetailInfo) :
    t.replaceCall r info = (r, t.created.remove r.callId) := by
  obtain ⟨hfull, hdir⟩ := not_or.mp hroom
  have hlim : ∀ {q : Row}, q.callId = r.callId → q.isEcc = false →
      (t.created.remove r.callId).admission q ≠ .success := by
    intro q hid hecc hadm
    rw [admission_removed h hr hid, hecc] at hadm
    unfold limit miniMaxCallObjects miniEccReservedCallObjects at *
    simp at hadm
    omega
  have hold : r.isEcc = false := by
    rw [Bool.eq_false_iff]
    exact fun hecc => hdir ((h.ok r hr).ecc hecc).2
  have hid : (t.replacement r info).callId = r.callId := rfl
  have hnew : (t.replacement r info).isEcc = false := by
    simp [replacement, newRow, hdir]
  simp only [replaceCall, hlim hid hnew, if_false, enter, hlim rfl hold]

/-- The place a restyled call leaves is the place of the call. -/
theorem remove_restyled (h : t.Inv) (r : Row) (info : CallDetailInfo) :
    ((t.update r.callId (Row.restyle info)).created).remove r.callId =
      t.created.remove r.callId := by
  have := Keyed.remove_update (k := r.callId) (f := Row.restyle info) h.ids (by simp)
  simp [remove, update, created, this]

theorem restyle_mem (hr : r ∈ t.rows) (info : CallDetailInfo) :
    r.restyle info ∈ (t.update r.callId (Row.restyle info)).rows :=
  Keyed.mem_update.mpr ⟨r, hr, if_pos rfl⟩

theorem room_restyled : (t.update r.callId (Row.restyle info)).Room (r.restyle info) ↔
    t.Room r := by
  simp [Room, update]

theorem refreshed_restyled :
    (t.update r.callId (Row.restyle info)).refreshed (r.restyle info) info =
      t.refreshed r info := by
  simp [refreshed, replacement, newRow, update]

theorem refresh_replaced (h : t.Inv) (hr : r ∈ t.rows) (ht : r.callType ≠ info.callType)
    (hroom : t.Room r) :
    t.refresh r info =
      (t.refreshed r info,
        { (t.created.remove r.callId).insert (t.refreshed r info) with
          history := t.history ++ [.added r.callId info.state] }) := by
  have := replaceCall_replaced (h.restyle r.callId info) (restyle_mem hr info)
    (room_restyled.mpr hroom) info
  rw [Row.restyle_callId, remove_restyled h, refreshed_restyled] at this
  rw [refresh, if_neg (by simpa using ht)]
  exact this

theorem refresh_lost (h : t.Inv) (hr : r ∈ t.rows) (ht : r.callType ≠ info.callType)
    (hroom : ¬t.Room r) :
    t.refresh r info = (r.restyle info, t.created.remove r.callId) := by
  have := replaceCall_lost (h.restyle r.callId info) (restyle_mem hr info)
    (fun hr => hroom (room_restyled.mp hr)) info
  rw [Row.restyle_callId, remove_restyled h] at this
  rw [refresh, if_neg (by simpa using ht)]
  exact this

/-- **The three outcomes of a refresh.** -/
@[elab_as_elim]
theorem refresh_cases {motive : Row × CallTable → Prop} (h : t.Inv) (hr : r ∈ t.rows)
    (info : CallDetailInfo)
    (same : r.callType = info.callType →
      motive (r.restyle info, t.update r.callId (Row.restyle info)))
    (replaced : r.callType ≠ info.callType → t.Room r →
      (t.created.remove r.callId).admission (t.refreshed r info) = .success →
      motive (t.refreshed r info,
        { (t.created.remove r.callId).insert (t.refreshed r info) with
          history := t.history ++ [.added r.callId info.state] }))
    (lost : r.callType ≠ info.callType → ¬t.Room r →
      motive (r.restyle info, t.created.remove r.callId)) :
    motive (t.refresh r info) := by
  by_cases ht : r.callType = info.callType
  · rw [refresh_same ht]
    exact same ht
  by_cases hroom : t.Room r
  · rw [refresh_replaced h hr ht hroom]
    exact replaced ht hroom (admission_refreshed h hr hroom info)
  · rw [refresh_lost h hr ht hroom]
    exact lost ht hroom

/-! ## What a refresh keeps -/

theorem refreshed_ok (h : t.Inv) (hr : r ∈ t.rows) (hinfo : info.IsCarried) :
    (t.refreshed r info).Ok t.created.nextObj t.created.lastCallId t.created.dialEcc :=
  let ok := (h.ok r hr).created
  { obj_lt := Nat.lt_succ_self _
    id_pos := ok.id_pos
    id_le := ok.id_le
    carrier := hinfo.carrier
    live := ok.live
    running := ok.running
    number := hinfo.number
    ecc := by
      intro hecc
      simpa [refreshed, replacement, newRow, created, and_comm] using hecc }

theorem refresh_callId (h : t.Inv) (hr : r ∈ t.rows) (info : CallDetailInfo) :
    (t.refresh r info).1.callId = r.callId := by
  refine refresh_cases h hr info ?_ ?_ ?_ <;> intros <;> simp

theorem refresh_callState (h : t.Inv) (hr : r ∈ t.rows) (info : CallDetailInfo) :
    (t.refresh r info).1.callState = r.callState := by
  refine refresh_cases h hr info ?_ ?_ ?_ <;> intros <;> simp

/-- A refresh announces a call only when it replaces it. -/
theorem refresh_history (h : t.Inv) (hr : r ∈ t.rows) (info : CallDetailInfo) :
    (t.refresh r info).2.history =
      t.history ++
        if r.callType ≠ info.callType ∧ t.Room r then [.added r.callId info.state] else [] := by
  refine refresh_cases h hr info ?_ ?_ ?_
  · exact fun ht => by simp [ht, update]
  · exact fun ht hroom _ => by rw [if_pos ⟨ht, hroom⟩]
  · exact fun _ hroom => by simp [hroom, remove, created]

theorem Inv.refresh (h : t.Inv) (hr : r ∈ t.rows) (hinfo : info.IsCarried)
    (hfit : t.Fits r info) : (t.refresh r info).2.Inv := by
  refine refresh_cases h hr info ?_ ?_ ?_
  · intro _
    exact h.restyle _ _
  · intro _ _ hadm
    refine (Inv.insert (h.created.remove _) (refreshed_ok h hr hinfo) hadm ?_).withHistory _
    intro q hq hpos hs hi
    obtain ⟨hq, hne⟩ := h.created.mem_remove.mp hq
    exact hne (hfit q hq hpos hs hi)
  · intro _ _
    exact h.created.remove _

theorem refresh_holds (h : t.Inv) (hr : r ∈ t.rows) (hinfo : info.IsCarried) :
    (t.refresh r info).2.Holds (t.refresh r info).1 := by
  refine refresh_cases h hr info ?_ ?_ ?_
  · intro _
    refine ⟨(h.ok r hr).restyle info, fun q hq hid => ?_⟩
    obtain ⟨a, ha, rfl⟩ := Keyed.mem_update.mp hq
    by_cases hk : a.callId = r.callId
    · rw [if_pos hk, h.eq_of_callId ha hr hk]
    · rw [if_neg hk, Row.restyle_callId] at hid
      exact absurd hid hk
  · intro _ _ _
    refine ⟨refreshed_ok h hr hinfo, fun q hq hid => ?_⟩
    rcases List.mem_append.mp hq with hq | hq
    · exact absurd hid (h.created.mem_remove.mp hq).2
    · exact List.mem_singleton.mp hq
  · intro _ _
    refine ⟨((h.ok r hr).restyle info).created, fun q hq hid => ?_⟩
    rw [Row.restyle_callId] at hid
    exact absurd hid (h.created.mem_remove.mp hq).2

/-- The place of the report still belongs to the refreshed call or to nobody. -/
theorem Fits.refresh (hfit : t.Fits r info) (h : t.Inv) (hr : r ∈ t.rows) :
    (t.refresh r info).2.Fits (t.refresh r info).1 info := by
  refine refresh_cases h hr info ?_ ?_ ?_
  · intro _ q hq hpos hs hi
    obtain ⟨a, ha, rfl⟩ := Keyed.mem_update.mp hq
    by_cases hk : a.callId = r.callId
    · simp [hk]
    · rw [if_neg hk] at hs hi ⊢
      simpa using hfit a ha hpos hs hi
  · intro _ _ _ q hq hpos hs hi
    rcases List.mem_append.mp hq with hq | hq
    · exact hfit q (h.created.mem_remove.mp hq).1 hpos hs hi
    · rw [List.mem_singleton.mp hq]
  · intro _ _ q hq hpos hs hi
    simpa using hfit q (h.created.mem_remove.mp hq).1 hpos hs hi

/-! ## New calls -/

/-- A call that enters under a new id and is changed at once. -/
theorem insert_update (hadm : t.admission r = .success) {f : Row → Row} :
    (t.insert r).update r.callId f =
      { t.insert (f r) with history := t.history ++ [.added r.callId r.callState] } := by
  have hfresh : ∀ q ∈ t.rows, q.callId ≠ r.callId := by
    intro q hq hqr
    have : (t.rows.any fun q => q.callId = r.callId) = true :=
      List.any_eq_true.mpr ⟨q, hq, by simpa using hqr⟩
    simp [admission, this] at hadm
  simp only [insert, update, Keyed.update_append, Keyed.update_of_forall_ne hfresh,
    Keyed.update_singleton_self]

/-- The state a call is in is set without an announcement. -/
theorem announce_same {next : TelCallState} (h : r.callState = next) :
    t.announce r next = t.update r.callId (Row.setState next) := by
  simp [announce, stateChange, h, update]

/-- A change that changes nothing about the call. -/
theorem Inv.update_eq_self (h : t.Inv) (hr : r ∈ t.rows) {f : Row → Row} (hf : f r = r) :
    t.update r.callId f = t := by
  have : Keyed.update Row.callId r.callId f t.rows = t.rows :=
    Keyed.update_eq_self fun q hq hid => by rw [h.eq_of_callId hq hr hid, hf]
  simp [CallTable.update, this]

/-- Two changes of one call are one. -/
theorem update_update {callId : Int} {f g : Row → Row} (hf : ∀ r, (f r).callId = r.callId) :
    (t.update callId f).update callId g = t.update callId fun r => g (f r) := by
  simp only [update, Keyed.update_update hf]

/-- A fresh outgoing call is entered if the number of calls is below the limit. -/
theorem admission_newRow (h : t.Inv) :
    t.created.admission (t.newRow info .outgoing) = .success ↔ t.rows.length < limit t.dialEcc := by
  have hany : (t.rows.any fun q => q.callId = t.lastCallId + 1) = false := by
    rw [Bool.eq_false_iff]
    intro hany
    obtain ⟨q, hq, hid⟩ := List.any_eq_true.mp hany
    have := (h.ok q hq).id_le
    simp only [decide_eq_true_eq] at hid
    omega
  simp only [admission, created, newRow, hany]
  by_cases hl : limit t.dialEcc ≤ t.rows.length <;> simp [hl]
  omega

/-- The row of a new call, once it has its running state. -/
theorem newRow_ok (h : t.Inv) (hinfo : info.IsCarried) (direction : CallDirection)
    {st : TelCallState} (hst : st.IsLive) :
    ((t.newRow info direction).setState st).Ok t.created.nextObj t.created.lastCallId
      t.created.dialEcc where
  obj_lt := Nat.lt_succ_self _
  id_pos := by
    have := h.counter
    simp only [Row.setState, newRow]
    omega
  id_le := Int.le_refl _
  carrier := hinfo.carrier
  live := hst
  running := rfl
  number := hinfo.number
  ecc := by
    intro hecc
    simpa [Row.setState, newRow, created, and_comm] using hecc

/-- A new call with a state of its own, at a place nobody has. -/
theorem Inv.insertNew (h : t.Inv) (hinfo : info.IsCarried) {direction : CallDirection}
    (hadm : t.created.admission (t.newRow info direction) = .success) {st : TelCallState}
    (hst : st.IsLive)
    (hplace : ∀ q ∈ t.rows, 0 < info.index → q.slotId = info.accountId → q.index ≠ info.index) :
    ((t.created.insert (t.newRow info direction)).update (t.newRow info direction).callId
      (Row.setState st)).Inv := by
  rw [insert_update hadm]
  exact (h.created.insert (newRow_ok h hinfo direction hst) hadm hplace).withHistory _

theorem Inv.addDialing (h : t.Inv) (hinfo : info.IsCarried)
    (hplace : ∀ q ∈ t.rows, 0 < info.index → q.slotId = info.accountId → q.index ≠ info.index) :
    (t.addDialing info).2.Inv := by
  unfold CallTable.addDialing
  dsimp only
  split
  · next hadm => exact h.insertNew (hinfo.withState .dialing) hadm (by decide) hplace
  · exact h.created

theorem Inv.addIncoming (h : t.Inv) (hinfo : info.IsCarried) (hst : info.state.IsLive)
    (hnone : t.callAt info.index info.accountId = none) : (t.addIncoming info).2.Inv := by
  unfold CallTable.addIncoming
  dsimp only
  split
  · next hadm =>
    exact h.insertNew hinfo hadm hst fun q hq _ hs hi => callAt_eq_none hnone q hq ⟨hs, hi⟩
  · exact h.created

/-- A dialing call that was admitted stands at the end. -/
theorem addDialing_of_success
    (hadm : t.created.admission (t.newRow { info with state := .dialing } .outgoing) = .success) :
    t.addDialing info = (.success,
      { t.created.insert ((t.newRow info .outgoing).setState .dialing) with
        history := t.history ++ [.added (t.lastCallId + 1) .dialing] }) := by
  have := insert_update hadm (f := Row.setState .dialing)
  simp only [addDialing, hadm, if_true, this]
  rfl

/-! ## Dialing -/

/-- A pending call may take a place that belongs to nobody else. -/
theorem Inv.numbered (h : t.Inv) (hfit : t.Fits r info)
    (hinfo : info.IsCarried) {number : Bytes} (hn : number.length ≤ kMaxNumberLen) :
    (t.update r.callId (Row.numbered info number)).Inv := by
  refine h.update (fun _ => rfl) (fun _ => rfl) (fun q hq _ => ?_)
    fun q _ hid p hp hpos hs hi => ?_
  · have ok := h.ok q hq
    exact {
      obj_lt := ok.obj_lt
      id_pos := ok.id_pos
      id_le := ok.id_le
      carrier := hinfo.carrier
      live := (by decide : TelCallState.dialing.IsLive)
      running := rfl
      number := hn
      ecc := ok.ecc }
  · exact (hfit p hp hpos hs hi).trans hid.symm

theorem Inv.adopt (h : t.Inv) (hinfo : info.IsCarried)
    (hnone : t.callAt info.index info.accountId = none) : (t.adopt info).2.Inv := by
  unfold CallTable.adopt
  split
  · exact h
  · next r hr =>
    have hmem : r ∈ t.rows := (pending_eq_some hr).1
    have hfit : t.Fits r info := fits_of_none hnone
    exact (h.refresh hmem hinfo hfit).numbered (hfit.refresh h hmem) hinfo (h.ok r hmem).number

theorem Inv.updateDialing (h : t.Inv) (hinfo : info.IsCarried) :
    (t.updateDialing info).2.Inv := by
  unfold CallTable.updateDialing
  split
  · next r hr => exact h.refresh (callAt_eq_some hr).1 hinfo (h.fits hr)
  · next hnone => exact h.adopt hinfo hnone

theorem Inv.dialing (h : t.Inv) (hinfo : info.IsCarried) : (t.dialing info).2.Inv := by
  unfold CallTable.dialing
  split
  · exact h.updateDialing (hinfo.withState _)
  · next hno =>
    refine h.addDialing hinfo fun q hq hpos hs hi => hno ⟨hpos, .inr ?_⟩
    exact callAt_isSome.mpr ⟨q, hq, hs, hi⟩

/-! ## The call of a report -/

theorem Inv.reported (h : t.Inv) (hinfo : info.IsCarried) : (t.reported info).2.Inv := by
  unfold CallTable.reported
  split
  · exact h
  split
  · exact h.dialing hinfo
  · exact h

/-- The call of a report is the one at its place. -/
theorem reported_eq_some (hr : (t.reported info).1 = some r) :
    (t.reported info).2.callAt info.index info.accountId = some r := by
  unfold reported at hr ⊢
  split at hr
  · next q hq => exact hq.trans hr
  split at hr
  · next hp => rw [if_pos hp]; exact hr
  · cases hr

/-- A report finds no call, or the one at its place. -/
@[elab_as_elim]
theorem reported_cases {motive : Option Row × CallTable → Prop} (h : t.Inv)
    (hinfo : info.IsCarried) (none : ∀ t' : CallTable, t'.Inv → motive (none, t'))
    (some : ∀ (r : Row) (t' : CallTable), t'.Inv →
      t'.callAt info.index info.accountId = some r → motive (some r, t')) :
    motive (t.reported info) := by
  have hrep := h.reported hinfo
  have hat : ∀ r, (t.reported info).1 = .some r → _ := fun r => reported_eq_some
  cases hx : t.reported info with
  | mk found t' =>
    rw [hx] at hrep hat
    cases found with
    | none => exact none t' hrep
    | some r => exact some r t' hrep (hat r rfl)

theorem Inv.moveTo (h : t.Inv) (hinfo : info.IsCarried)
    (hr : t.callAt info.index info.accountId = some r) {next : TelCallState} (hn : next.IsLive) :
    (t.moveTo next info r).2.Inv :=
  (h.refresh (callAt_eq_some hr).1 hinfo (h.fits hr)).announce _ hn

theorem Inv.moveKnown (h : t.Inv) (hinfo : info.IsCarried) {next : TelCallState}
    (hn : next.IsLive) : (t.moveKnown next info).2.Inv := by
  unfold CallTable.moveKnown
  split
  · exact h
  · next r hr => exact h.moveTo hinfo hr hn

theorem Inv.active (h : t.Inv) (hinfo : info.IsCarried) : (t.active info).2.Inv := by
  unfold CallTable.active
  refine reported_cases h hinfo (fun t' h' => h') (fun r t' h' hr => ?_)
  exact h'.moveTo hinfo hr (by decide)

theorem Inv.alerting (h : t.Inv) (hinfo : info.IsCarried) : (t.alerting info).2.Inv := by
  unfold CallTable.alerting
  refine reported_cases h hinfo (fun t' h' => h') (fun r t' h' hr => ?_)
  dsimp only
  split
  · exact h'
  · exact h'.moveTo hinfo hr (by decide)

/-! ## Calls that end -/

/-- A call that is announced and leaves at once. -/
theorem announce_remove (h : t.Inv) (next : TelCallState) :
    (t.announce r next).remove r.callId =
      { t.remove r.callId with history := t.history ++ stateChange r.callId r.callState next } := by
  have := Keyed.remove_update (k := r.callId) (f := Row.setState next) h.ids (fun _ => rfl)
  simp [announce, remove, update, this]

theorem Inv.disconnect (h : t.Inv) (hinfo : info.IsCarried) (hr : r ∈ t.rows)
    (hfit : t.Fits r info) : (t.disconnect info r).Inv := by
  have hx := h.refresh hr hinfo hfit
  rw [CallTable.disconnect, announce_remove hx]
  exact (hx.remove _).withHistory _

theorem Inv.disconnected (h : t.Inv) (hinfo : info.IsCarried) : (t.disconnected info).2.Inv := by
  unfold CallTable.disconnected
  exact reported_cases h hinfo (fun t' h' => h')
    (fun r t' h' hr => h'.disconnect hinfo (callAt_eq_some hr).1 (h'.fits hr))

/-- What a call reports of itself when it fails is carried. -/
theorem Inv.disconnectedInfo_isCarried (h : t.Inv) (hr : r ∈ t.rows) :
    r.disconnectedInfo.IsCarried :=
  ⟨(h.ok r hr).carrier, (h.ok r hr).number⟩

theorem Inv.failCall (h : t.Inv) (hr : r ∈ t.rows) : (t.failCall r).2.Inv :=
  h.disconnected (h.disconnectedInfo_isCarried hr)

theorem Inv.failPending (h : t.Inv) : t.failPending.Inv := by
  unfold CallTable.failPending
  split
  · exact h
  · next r hr => exact h.failCall (pending_eq_some hr).1

/-! ## Incoming calls -/

theorem Inv.oldIncoming (h : t.Inv) (hinfo : info.IsCarried) (hst : info.state.IsLive)
    (hr : t.callAt info.index info.accountId = some r) : (t.oldIncoming info r).Inv := by
  have hx := h.refresh (callAt_eq_some hr).1 hinfo (h.fits hr)
  unfold CallTable.oldIncoming
  dsimp only
  split
  · split
    · exact hx.announce _ hst
    · exact hx
  · exact h

theorem Inv.incoming (h : t.Inv) (hinfo : info.IsCarried) (hst : info.state.IsLive) :
    (t.incoming info).2.Inv := by
  unfold CallTable.incoming
  dsimp only
  split
  · next r hr => exact h.failPending.oldIncoming hinfo hst hr
  · next hnone => exact h.failPending.addIncoming hinfo hst hnone

/-- **Every report keeps the invariant.** -/
theorem Inv.report (h : t.Inv) (hinfo : info.IsCarried) : (t.report info).2.Inv := by
  unfold CallTable.report
  split
  · exact h.active hinfo
  · exact h.moveKnown hinfo (by decide)
  · exact h.dialing hinfo
  · exact h.alerting hinfo
  · next hst => exact h.incoming hinfo (by rw [hst]; decide)
  · next hst => exact h.incoming hinfo (by rw [hst]; decide)
  · exact h.disconnected hinfo
  · exact h.moveKnown hinfo (by decide)
  · exact h

theorem Inv.reports (h : t.Inv) {infos : List CallDetailInfo} (hinfos : ∀ i ∈ infos, i.IsCarried) :
    (t.reports infos).Inv := by
  induction infos generalizing t with
  | nil => exact h
  | cons i infos ih =>
    exact ih (h.report (hinfos i List.mem_cons_self)) fun j hj =>
      hinfos j (List.mem_cons_of_mem _ hj)

end CallTable

end CallManagerMini
