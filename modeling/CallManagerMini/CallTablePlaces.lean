import Mathlib.Data.List.Find
import CallManagerMini.CallTableReports

/-! # The places of the table

A report takes at most one numbered place, its own (`report_mayTake`), and a call
that fails takes none.  A report that ends a call frees its place
(`disconnected_frees`).  What is said of the place of a report, before and after,
is said with `Occupied`.
-/

namespace CallManagerMini

namespace CallTable

variable {t t' t'' : CallTable} {r q : Row} {info : CallDetailInfo}

/-- Some call is at the place. -/
def Occupied (t : CallTable) (slotId index : Int) : Prop :=
  ∃ r ∈ t.rows, r.slotId = slotId ∧ r.index = index

/-- Of the numbered places, at most the one at `slotId` and `index` was taken
between `t` and `t'`. -/
def MayTake (slotId index : Int) (t t' : CallTable) : Prop :=
  ∀ slot i, 0 < i → t'.Occupied slot i → t.Occupied slot i ∨ (slot = slotId ∧ i = index)

theorem callAt_eq_none_iff {index slotId : Int} :
    t.callAt index slotId = none ↔ ¬t.Occupied slotId index := by
  refine ⟨fun h ⟨r, hr, hs, hi⟩ => callAt_eq_none h r hr ⟨hs, hi⟩, fun h => ?_⟩
  rw [← Option.not_isSome_iff_eq_none, callAt_isSome]
  exact h

/-! ## Who is in the table after a refresh -/

/-- A call that is not lost in its refresh goes on as the row the refresh returns. -/
theorem mem_refresh (h : t.Inv) (hr : r ∈ t.rows)
    (hkept : r.callType = info.callType ∨ t.Room r) :
    (t.refresh r info).1 ∈ (t.refresh r info).2.rows := by
  refine refresh_cases h hr info ?_ ?_ ?_
  · exact fun _ => restyle_mem hr info
  · exact fun _ _ _ => List.mem_append_right _ (List.mem_singleton.mpr rfl)
  · exact fun ht hroom => absurd hkept (not_or.mpr ⟨ht, hroom⟩)

/-- A refresh leaves the other calls as they are. -/
theorem mem_refresh_iff (h : t.Inv) (hr : r ∈ t.rows) (hne : q.callId ≠ r.callId) :
    q ∈ (t.refresh r info).2.rows ↔ q ∈ t.rows := by
  have hgone : q ∈ (t.created.remove r.callId).rows ↔ q ∈ t.rows :=
    h.created.mem_remove.trans (and_iff_left hne)
  refine refresh_cases h hr info ?_ ?_ ?_
  · refine fun _ => ⟨fun hq => ?_, fun hq => Keyed.mem_update.mpr ⟨q, hq, if_neg hne⟩⟩
    obtain ⟨a, ha, rfl⟩ := Keyed.mem_update.mp hq
    split at hne
    · next hid => exact absurd ((Row.restyle_callId info a).trans hid) hne
    · next hid => rwa [if_neg hid]
  · refine fun _ _ _ => ⟨fun hq => ?_, fun hq => List.mem_append_left _ (hgone.mpr hq)⟩
    rcases List.mem_append.mp hq with hq | hq
    · exact hgone.mp hq
    · exact absurd (congrArg Row.callId (List.mem_singleton.mp hq)) hne
  · exact fun _ _ => hgone

theorem refresh_lastCallId (h : t.Inv) (hr : r ∈ t.rows) (info : CallDetailInfo) :
    t.lastCallId ≤ (t.refresh r info).2.lastCallId := by
  refine refresh_cases h hr info ?_ ?_ ?_
  · exact fun _ => Int.le_refl _
  · exact fun _ _ _ => Int.le_add_one (Int.le_refl _)
  · exact fun _ _ => Int.le_add_one (Int.le_refl _)

/-- The end of a call takes out that call and no other. -/
theorem mem_disconnect_iff (h : t.Inv) (hinfo : info.IsCarried) (hr : r ∈ t.rows)
    (hfit : t.Fits r info) :
    q ∈ (t.disconnect info r).rows ↔ q ∈ t.rows ∧ q.callId ≠ r.callId := by
  have hx := h.refresh hr hinfo hfit
  rw [disconnect, announce_remove hx]
  refine hx.mem_remove.trans ?_
  rw [refresh_callId h hr]
  exact and_congr_left fun hne => mem_refresh_iff h hr hne

/-- What the end of a call announces: the call that replaces it, if one does, and that
it is disconnected. -/
theorem disconnect_history (h : t.Inv) (hinfo : info.IsCarried) (hr : r ∈ t.rows)
    (hfit : t.Fits r info) :
    (t.disconnect info r).history = t.history ++
      ((if r.callType ≠ info.callType ∧ t.Room r then [.added r.callId info.state] else []) ++
        stateChange r.callId r.callState .disconnected) := by
  rw [disconnect, announce_remove (h.refresh hr hinfo hfit), refresh_history h hr,
    refresh_callId h hr, refresh_callState h hr, List.append_assoc]

/-- A call that fails ends the first call at its place. -/
theorem failCall_eq_disconnect (hr : t.callAt q.index q.slotId = some r) :
    t.failCall q = (.success, t.disconnect q.disconnectedInfo r) := by
  have hrep : t.reported q.disconnectedInfo = (some r, t) := by
    unfold reported
    rw [show t.callAt q.disconnectedInfo.index q.disconnectedInfo.accountId = some r from hr]
  simp only [failCall, disconnected, hrep]

/-! ## Taking places -/

section MayTake
variable {slotId index : Int}

theorem MayTake.refl : MayTake slotId index t t := fun _ _ _ h => .inl h

theorem MayTake.trans (h : MayTake slotId index t t') (h' : MayTake slotId index t' t'') :
    MayTake slotId index t t'' := by
  intro slot i hpos ho
  rcases h' slot i hpos ho with ho | hhere
  · exact h slot i hpos ho
  · exact .inr hhere

/-- A place that was occupied before is not taken. -/
theorem MayTake.of_occupied (h : MayTake slotId index t t') (ho : t.Occupied slotId index)
    {slot i : Int} (hpos : 0 < i) (ho' : t'.Occupied slot i) : t.Occupied slot i := by
  rcases h slot i hpos ho' with h | ⟨rfl, rfl⟩
  · exact h
  · exact ho

/-- Rows that were there, or are at the place, take no other place. -/
theorem mayTake_of_rows
    (h : ∀ r ∈ t'.rows, (∃ q ∈ t.rows, q.slotId = r.slotId ∧ q.index = r.index) ∨
      (r.slotId = slotId ∧ r.index = index)) : MayTake slotId index t t' := by
  rintro slot i - ⟨r, hr, rfl, rfl⟩
  exact h r hr

theorem mayTake_update (callId : Int) {f : Row → Row}
    (hf : ∀ q, ((f q).slotId = q.slotId ∧ (f q).index = q.index) ∨
      ((f q).slotId = slotId ∧ (f q).index = index)) :
    MayTake slotId index t (t.update callId f) := by
  refine mayTake_of_rows fun r hr => ?_
  obtain ⟨q, hq, rfl⟩ := Keyed.mem_update.mp hr
  split
  · rcases hf q with hsame | hhere
    · exact .inl ⟨q, hq, hsame.1.symm, hsame.2.symm⟩
    · exact .inr hhere
  · exact .inl ⟨q, hq, rfl, rfl⟩

theorem mayTake_remove (callId : Int) : MayTake slotId index t (t.remove callId) :=
  mayTake_of_rows fun r hr => .inl ⟨r, Keyed.remove_sublist.subset hr, rfl, rfl⟩

theorem mayTake_announce (r : Row) (next : TelCallState) :
    MayTake slotId index t (t.announce r next) :=
  mayTake_update (t := t) r.callId fun _ => .inl ⟨rfl, rfl⟩

theorem mayTake_insert {e : Row} (he : e.slotId = slotId ∧ e.index = index) :
    MayTake slotId index t (t.insert e) := by
  refine mayTake_of_rows fun r hr => ?_
  rcases List.mem_append.mp hr with hr | hr
  · exact .inl ⟨r, hr, rfl, rfl⟩
  · exact .inr (List.mem_singleton.mp hr ▸ he)

end MayTake

/-! ## The parts of a report -/

section Parts

theorem refresh_mayTake (h : t.Inv) (hr : r ∈ t.rows) :
    MayTake info.accountId info.index t (t.refresh r info).2 := by
  refine refresh_cases h hr info ?_ ?_ ?_
  · intro _
    exact mayTake_update _ fun q => .inl (by simp)
  · intro _ _ _
    exact (mayTake_remove (t := t.created) r.callId).trans (mayTake_insert ⟨rfl, rfl⟩)
  · intro _ _
    exact mayTake_remove (t := t.created) r.callId

theorem moveTo_mayTake (h : t.Inv) (hr : r ∈ t.rows) (next : TelCallState) :
    MayTake info.accountId info.index t (t.moveTo next info r).2 :=
  (refresh_mayTake h hr).trans (mayTake_announce _ _)

/-- A new call takes the place of its report. -/
theorem insertNew_mayTake (direction : CallDirection) (st : TelCallState) :
    MayTake info.accountId info.index t
      ((t.created.insert (t.newRow info direction)).update (t.newRow info direction).callId
        (Row.setState st)) :=
  (mayTake_insert (t := t.created) (e := t.newRow info direction) ⟨rfl, rfl⟩).trans
    (mayTake_update _ fun _ => .inl ⟨rfl, rfl⟩)

theorem addDialing_mayTake : MayTake info.accountId info.index t (t.addDialing info).2 := by
  unfold addDialing
  dsimp only
  split
  · exact insertNew_mayTake .outgoing .dialing
  · exact MayTake.refl (t := t)

theorem addIncoming_mayTake : MayTake info.accountId info.index t (t.addIncoming info).2 := by
  unfold addIncoming
  dsimp only
  split
  · exact insertNew_mayTake .incoming info.state
  · exact MayTake.refl (t := t)

theorem adopt_mayTake (h : t.Inv) : MayTake info.accountId info.index t (t.adopt info).2 := by
  unfold adopt
  split
  · exact .refl
  · next r hr =>
    exact (refresh_mayTake h (pending_eq_some hr).1).trans
      (mayTake_update _ fun _ => .inr ⟨rfl, rfl⟩)

theorem updateDialing_mayTake (h : t.Inv) :
    MayTake info.accountId info.index t (t.updateDialing info).2 := by
  unfold updateDialing
  split
  · next r hr => exact refresh_mayTake h (callAt_eq_some hr).1
  · exact adopt_mayTake h

theorem dialing_mayTake (h : t.Inv) :
    MayTake info.accountId info.index t (t.dialing info).2 := by
  unfold dialing
  split
  · exact updateDialing_mayTake h
  · exact addDialing_mayTake

theorem reported_mayTake (h : t.Inv) :
    MayTake info.accountId info.index t (t.reported info).2 := by
  unfold reported
  split
  · exact .refl
  split
  · exact dialing_mayTake h
  · exact .refl

/-- A report that finds no call leaves nobody at its place. -/
theorem reported_eq_none (hn : (t.reported info).1 = none) :
    (t.reported info).2.callAt info.index info.accountId = none := by
  unfold reported at hn ⊢
  split at hn
  · cases hn
  · next hnone =>
    split at hn
    · next hp => rw [if_pos hp]; exact hn
    · next hp => rw [if_neg hp]; exact hnone

/-- A report finds no call, or the one at its place, and has taken no other. -/
@[elab_as_elim]
theorem reported_places {motive : Option Row × CallTable → Prop} (h : t.Inv)
    (hinfo : info.IsCarried)
    (none : ∀ t' : CallTable, t'.Inv → MayTake info.accountId info.index t t' →
      t'.callAt info.index info.accountId = none → motive (none, t'))
    (some : ∀ (r : Row) (t' : CallTable), t'.Inv → MayTake info.accountId info.index t t' →
      t'.callAt info.index info.accountId = some r → motive (some r, t')) :
    motive (t.reported info) := by
  have hmay := @reported_mayTake t info h
  have hrep := h.reported hinfo
  have hno := @reported_eq_none t info
  have hat := fun r => @reported_eq_some t r info
  cases hx : t.reported info with
  | mk found t' =>
    rw [hx] at hmay hrep hno hat
    cases found with
    | none => exact none t' hrep hmay (hno rfl)
    | some r => exact some r t' hrep hmay (hat r rfl)

theorem active_mayTake (h : t.Inv) (hinfo : info.IsCarried) :
    MayTake info.accountId info.index t (t.active info).2 := by
  unfold active
  refine reported_places h hinfo (fun t' _ hmay _ => hmay) fun r t' h' hmay hr => ?_
  exact hmay.trans (moveTo_mayTake h' (callAt_eq_some hr).1 _)

theorem alerting_mayTake (h : t.Inv) (hinfo : info.IsCarried) :
    MayTake info.accountId info.index t (t.alerting info).2 := by
  unfold alerting
  refine reported_places h hinfo (fun t' _ hmay _ => hmay) fun r t' h' hmay hr => ?_
  dsimp only
  split
  · exact hmay
  · exact hmay.trans (moveTo_mayTake h' (callAt_eq_some hr).1 _)

theorem moveKnown_mayTake (h : t.Inv) (next : TelCallState) :
    MayTake info.accountId info.index t (t.moveKnown next info).2 := by
  unfold moveKnown
  split
  · exact .refl
  · next r hr => exact moveTo_mayTake h (callAt_eq_some hr).1 next

theorem disconnect_mayTake (h : t.Inv) (hr : r ∈ t.rows) :
    MayTake info.accountId info.index t (t.disconnect info r) :=
  ((refresh_mayTake h hr).trans (mayTake_announce _ _)).trans (mayTake_remove _)

theorem disconnected_mayTake (h : t.Inv) (hinfo : info.IsCarried) :
    MayTake info.accountId info.index t (t.disconnected info).2 := by
  unfold disconnected
  refine reported_places h hinfo (fun t' _ hmay _ => hmay) fun r t' h' hmay hr => ?_
  exact hmay.trans (disconnect_mayTake h' (callAt_eq_some hr).1)

/-- A call that fails takes no place. -/
theorem failCall_mayTake (h : t.Inv) (hr : r ∈ t.rows) {slotId index : Int} (hpos : 0 < index)
    (ho : (t.failCall r).2.Occupied slotId index) : t.Occupied slotId index :=
  (disconnected_mayTake h (h.disconnectedInfo_isCarried hr)).of_occupied ⟨r, hr, rfl, rfl⟩ hpos ho

theorem failPending_mayTake (h : t.Inv) {slotId index : Int} :
    MayTake slotId index t t.failPending := by
  intro slot i hpos ho
  unfold failPending at ho
  split at ho
  · exact .inl ho
  · next r hr => exact .inl (failCall_mayTake h (pending_eq_some hr).1 hpos ho)

theorem oldIncoming_mayTake (h : t.Inv) (hr : r ∈ t.rows) :
    MayTake info.accountId info.index t (t.oldIncoming info r) := by
  unfold oldIncoming
  dsimp only
  split
  · split
    · exact (refresh_mayTake h hr).trans (mayTake_announce _ _)
    · exact refresh_mayTake h hr
  · exact .refl

theorem incoming_mayTake (h : t.Inv) : MayTake info.accountId info.index t (t.incoming info).2 := by
  refine (failPending_mayTake h).trans ?_
  unfold incoming
  dsimp only
  split
  · next r hr => exact oldIncoming_mayTake h.failPending (callAt_eq_some hr).1
  · exact addIncoming_mayTake

/-- **A report takes at most its own place.** -/
theorem report_mayTake (h : t.Inv) (hinfo : info.IsCarried) :
    MayTake info.accountId info.index t (t.report info).2 := by
  unfold report
  split
  · exact active_mayTake h hinfo
  · exact moveKnown_mayTake h _
  · exact dialing_mayTake h
  · exact alerting_mayTake h hinfo
  · exact incoming_mayTake h
  · exact incoming_mayTake h
  · exact disconnected_mayTake h hinfo
  · exact moveKnown_mayTake h _
  · exact .refl

end Parts

/-! ## The call a report numbers -/

/-- The call that becomes the reported one is the one at the reported place. -/
theorem adopt_callAt (h : t.Inv) (hnone : t.callAt info.index info.accountId = none)
    (hr : t.pending = some r) (hq : q ∈ (t.adopt info).2.rows) :
    q.callId = r.callId ↔ q.slotId = info.accountId ∧ q.index = info.index := by
  have hmem := (pending_eq_some hr).1
  have hid := refresh_callId h hmem info
  simp only [adopt, hr] at hq
  obtain ⟨a, ha, rfl⟩ := Keyed.mem_update.mp hq
  by_cases hx : a.callId = (t.refresh r info).1.callId
  · rw [if_pos hx]
    exact iff_of_true (hx.trans hid) ⟨rfl, rfl⟩
  · rw [if_neg hx]
    refine iff_of_false (fun he => hx (he.trans hid.symm)) ?_
    exact callAt_eq_none hnone a ((mem_refresh_iff h hmem fun he => hx (he.trans hid.symm)).mp ha)

/-! ## Freeing the place of a report -/

/-- The end of a call frees its place. -/
theorem disconnect_frees (h : t.Inv) (hinfo : info.IsCarried) (hpos : 0 < info.index)
    (hr : t.callAt info.index info.accountId = some r) :
    ¬(t.disconnect info r).Occupied info.accountId info.index := by
  have hmem := (callAt_eq_some hr).1
  have hx := h.refresh hmem hinfo (h.fits hr)
  have hfit := (h.fits hr).refresh h hmem
  rw [disconnect, announce_remove hx]
  rintro ⟨q, hq, hs, hi⟩
  obtain ⟨hq, hne⟩ := hx.mem_remove.mp hq
  exact hne (hfit q hq hpos hs hi)

/-- A `DISCONNECTED` report leaves nobody at its place: a call that was there is
gone, and none is there if none was found. -/
theorem disconnected_frees (h : t.Inv) (hinfo : info.IsCarried) (hpos : 0 < info.index) :
    ¬(t.disconnected info).2.Occupied info.accountId info.index := by
  unfold disconnected
  refine reported_places h hinfo (fun t' _ _ hno => ?_) fun r t' h' _ hr => ?_
  · exact callAt_eq_none_iff.mp hno
  · exact disconnect_frees h' hinfo hpos hr

/-! ## Calls that fail -/

/-- The report of a call's own end does not restyle it. -/
@[simp] theorem restyle_disconnectedInfo (r : Row) : r.restyle r.disconnectedInfo = r := by
  unfold Row.restyle
  split <;> rfl

/-- A call found by its own place is announced as ended, and leaves the table. -/
theorem failCall_eq (h : t.Inv) (hr : t.callAt r.index r.slotId = some r) :
    t.failCall r = (.success,
      { t.remove r.callId with
        history := t.history ++ stateChange r.callId r.callState .disconnected }) := by
  have hmem := (callAt_eq_some hr).1
  have hsame : t.refresh r r.disconnectedInfo = (r, t) := by
    rw [refresh_same (by rfl), restyle_disconnectedInfo,
      h.update_eq_self hmem (restyle_disconnectedInfo r)]
  rw [failCall_eq_disconnect hr, disconnect, hsame, announce_remove h]

/-- The first call without an index is the first of its slot. -/
theorem callAt_of_pending (hr : t.pending = some r) : t.callAt r.index r.slotId = some r := by
  obtain ⟨hi, l₁, l₂, hl, hne⟩ := List.find?_eq_some_iff_append.mp hr
  refine List.find?_eq_some_iff_append.mpr ⟨by simp, l₁, l₂, hl, fun q hq => ?_⟩
  have h0 : r.index = 0 := by simpa using hi
  have := hne q hq
  simp_all

theorem failPending_eq (h : t.Inv) (hr : t.pending = some r) :
    t.failPending =
      { t.remove r.callId with
        history := t.history ++ stateChange r.callId r.callState .disconnected } := by
  rw [failPending, hr]
  exact congrArg Prod.snd (failCall_eq h (callAt_of_pending hr))

/-- The calls with an index stay where they are when the pending one fails. -/
theorem failPending_callAt (h : t.Inv) {index : Int} (hpos : 0 < index) (slotId : Int) :
    t.failPending.callAt index slotId = t.callAt index slotId := by
  cases hp : t.pending with
  | none => rw [failPending, hp]
  | some r =>
    rw [failPending_eq h hp]
    simp only [callAt, remove, Keyed.remove_eq_filter h.ids, List.find?_filter]
    refine List.find?_congr fun q hq => ?_
    by_cases hid : q.callId = r.callId
    · have h0 := (pending_eq_some hp).2
      rw [← h.eq_of_callId hq (pending_eq_some hp).1 hid] at h0
      have : ¬q.index = index := by omega
      simp [this]
    · simp [hid]

theorem failPending_length (h : t.Inv) :
    t.failPending.rows.length = t.rows.length - if t.pending.isSome then 1 else 0 := by
  cases hp : t.pending with
  | none => simp [failPending, hp]
  | some r =>
    rw [failPending_eq h hp]
    exact Keyed.length_remove (pending_eq_some hp).1

end CallTable

end CallManagerMini
