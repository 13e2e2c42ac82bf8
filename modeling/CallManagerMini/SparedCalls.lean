import CallManagerMini.SettledReports

/-! # The calls a report leaves alone

A report changes at most the call it refreshes (`CallTable.refreshedBy`), and an `INCOMING` or
`WAITING` report has the pending dial fail before it looks for its call.  Every other call
stays in the table as the row it was (`report_spares`).
-/

namespace CallManagerMini

namespace CallTable

variable {t t' t'' : CallTable} {r q : Row} {info : CallDetailInfo} {touched : Option Row}

/-- Every call but the touched one stays as it is. -/
def Spares (touched : Option Row) (t t' : CallTable) : Prop :=
  ∀ q ∈ t.rows, (∀ r ∈ touched, q.callId ≠ r.callId) → q ∈ t'.rows

namespace Spares

theorem of_subset (h : t.rows ⊆ t'.rows) : Spares touched t t' := fun _ hq _ => h hq

theorem trans (h : Spares touched t t') (h' : Spares touched t' t'') : Spares touched t t'' :=
  fun q hq hr => h' q (h q hq hr) hr

/-- Nobody is touched, so nobody in particular. -/
theorem of_none (h : Spares none t t') : Spares touched t t' := fun q hq _ =>
    h q hq fun _ hr => nomatch hr

end Spares

/-! ## The parts of a report -/

theorem refresh_spares (h : t.Inv) (hr : r ∈ t.rows) :
    Spares (some r) t (t.refresh r info).2 := fun _ hq hne =>
  (mem_refresh_iff h hr (hne r rfl)).mpr hq

theorem update_spares {callId : Int} {f : Row → Row} (hid : callId = r.callId) :
    Spares (some r) t (t.update callId f) := fun q hq hne =>
  Keyed.mem_update.mpr ⟨q, hq, if_neg fun h => hne r rfl (h.trans hid)⟩

theorem announce_spares {x : Row} (hid : x.callId = r.callId) (next : TelCallState) :
    Spares (some r) t (t.announce x next) :=
  update_spares (t := t) (f := Row.setState next) hid

theorem moveTo_spares (h : t.Inv) (hr : r ∈ t.rows) (next : TelCallState) :
    Spares (some r) t (t.moveTo next info r).2 :=
  (refresh_spares h hr).trans (announce_spares (refresh_callId h hr info) next)

/-- A new call stands behind the others. -/
theorem insertNew_rows {direction : CallDirection} {f : Row → Row}
    (hadm : t.created.admission (t.newRow info direction) = .success) :
    ((t.created.insert (t.newRow info direction)).update (t.newRow info direction).callId f).rows =
      t.rows ++ [f (t.newRow info direction)] := by
  rw [insert_update hadm]
  rfl

theorem addDialing_spares : Spares touched t (t.addDialing info).2 := by
  refine .of_subset ?_
  unfold addDialing
  dsimp only
  split
  · next hadm =>
    dsimp only
    rw [insertNew_rows hadm]
    exact List.subset_append_left _ _
  · exact List.Subset.refl _

theorem addIncoming_spares : Spares touched t (t.addIncoming info).2 := by
  refine .of_subset ?_
  unfold addIncoming
  dsimp only
  split
  · next hadm =>
    dsimp only
    rw [insertNew_rows hadm]
    exact List.subset_append_left _ _
  · exact List.Subset.refl _

theorem adopt_spares (h : t.Inv) : Spares t.pending t (t.adopt info).2 := by
  unfold adopt
  split
  · exact .of_subset (List.Subset.refl _)
  · next r hr =>
    have hmem := (pending_eq_some hr).1
    rw [hr]
    exact (refresh_spares h hmem).trans (update_spares (refresh_callId h hmem info))

/-- A report that takes a pending dial for its call touches no other call. -/
theorem mem_adopt (h : t.Inv) (hr : t.pending = some r) (hne : q.callId ≠ r.callId)
    (hq : q ∈ (t.adopt info).2.rows) : q ∈ t.rows := by
  have hmem := (pending_eq_some hr).1
  have hid := refresh_callId h hmem info
  simp only [adopt, hr] at hq
  obtain ⟨a, ha, rfl⟩ := Keyed.mem_update.mp hq
  split at hne
  · next hx => exact absurd (hx.trans hid) hne
  · next hx =>
    rw [if_neg hx]
    exact (mem_refresh_iff h hmem fun he => hx (he.trans hid.symm)).mp ha

/-- The call a `DIALING` report is about, or the pending dial it takes for it. -/
theorem taken_of_callAt {info : CallDetailInfo} (hr : t.callAt info.index info.accountId = some r) :
    t.taken info = some r := by
  rw [taken, hr]
  rfl

theorem taken_of_none (hnone : t.callAt info.index info.accountId = none) :
    t.taken info =
      if 0 < info.index ∧ (t.callAt 0 info.accountId).isSome then t.pending else none := by
  rw [taken, hnone]
  rfl

/-- A report for an index that is unknown takes a call for its own only if it adopts it. -/
theorem dialing_of_taken (hnone : t.callAt info.index info.accountId = none)
    (hr : t.taken info = some r) :
    t.pending = some r ∧ t.dialing info = t.adopt { info with state := .dialing } := by
  rw [taken_of_none hnone] at hr
  split at hr
  · next hslot =>
    refine ⟨hr, ?_⟩
    rw [dialing, if_pos ⟨hslot.1, .inl hslot.2⟩, updateDialing]
    dsimp only
    rw [hnone]
  · cases hr

theorem dialing_spares (h : t.Inv) :
    Spares (if 0 < info.index then t.taken info else none) t (t.dialing info).2 := by
  unfold dialing
  by_cases hupdate : 0 < info.index ∧
      ((t.callAt 0 info.accountId).isSome ∨ (t.callAt info.index info.accountId).isSome)
  · rw [if_pos hupdate, if_pos hupdate.1]
    unfold updateDialing
    dsimp only
    split
    · next r hr =>
      rw [taken_of_callAt hr]
      exact refresh_spares h (callAt_eq_some hr).1
    · next hnone =>
      have hslot : (t.callAt 0 info.accountId).isSome := by simpa [hnone] using hupdate.2
      rw [taken_of_none hnone, if_pos ⟨hupdate.1, hslot⟩]
      exact adopt_spares h
  · rw [if_neg hupdate]
    exact addDialing_spares

/-! ## The call of a report -/

theorem reported_spares (h : t.Inv) (hnone : t.callAt info.index info.accountId = none) :
    Spares (t.taken info) t (t.reported info).2 := by
  unfold reported
  rw [hnone]
  dsimp only
  split
  · have hspares : Spares _ t (t.dialing info).2 := dialing_spares h
    by_cases hpos : 0 < info.index
    · rwa [if_pos hpos] at hspares
    · rw [if_neg hpos] at hspares
      exact hspares.of_none
  · exact .of_subset (List.Subset.refl _)

/-- The call a report goes on with is none of those it left alone. -/
theorem reported_ne (h : t.Inv) (hinfo : info.IsCarried)
    (hnone : t.callAt info.index info.accountId = none) (hr : (t.reported info).1 = some r)
    (hq : q ∈ t.rows) (huntouched : ∀ r ∈ t.taken info, q.callId ≠ r.callId) :
    q.callId ≠ r.callId := by
  have hat := callAt_eq_some (reported_eq_some hr)
  intro hid
  have heq := (h.reported hinfo).eq_of_callId (reported_spares h hnone q hq huntouched) hat.1 hid
  exact callAt_eq_none hnone q hq (heq ▸ hat.2)

/-- What `ACTIVE`, `ALERTING` and `DISCONNECTED` reports do touches their call only. -/
theorem spares_of_reported (h : t.Inv) (hinfo : info.IsCarried)
    (next : Row → CallTable → CallTable)
    (hnext : ∀ r t', t'.Inv → t'.callAt info.index info.accountId = some r →
      Spares (some r) t' (next r t')) :
    Spares (t.taken info) t
      (match t.reported info with
        | (none, t') => t'
        | (some r, t') => next r t') := by
  cases hcall : t.callAt info.index info.accountId with
  | some r =>
    have hrep : t.reported info = (some r, t) := by rw [reported, hcall]
    rw [taken_of_callAt hcall, hrep]
    exact hnext r t h hcall
  | none =>
    intro q hq huntouched
    have hspared := reported_spares h hcall q hq huntouched
    have hne := fun r hr => reported_ne (r := r) h hinfo hcall hr hq huntouched
    have hat := fun r => @reported_eq_some t r info
    have hinv := h.reported hinfo
    cases hx : t.reported info with
    | mk found t' =>
      rw [hx] at hspared hne hat hinv
      cases found with
      | none => exact hspared
      | some r =>
        refine hnext r t' hinv (hat r rfl) q hspared ?_
        rintro _ ⟨⟩
        exact hne r rfl

theorem active_spares (h : t.Inv) (hinfo : info.IsCarried) :
    Spares (t.taken info) t (t.active info).2 := by
  have hspares := spares_of_reported h hinfo (fun r t' => (t'.moveTo .active info r).2)
    fun r t' h' hr => moveTo_spares h' (callAt_eq_some hr).1 _
  unfold active
  split <;> simp_all

theorem disconnect_spares (h : t.Inv) (hinfo : info.IsCarried)
    (hr : t.callAt info.index info.accountId = some r) :
    Spares (some r) t (t.disconnect info r) := fun _ hq hne =>
  (mem_disconnect_iff h hinfo (callAt_eq_some hr).1 (h.fits hr)).mpr ⟨hq, hne r rfl⟩

theorem disconnected_spares (h : t.Inv) (hinfo : info.IsCarried) :
    Spares (t.taken info) t (t.disconnected info).2 := by
  have hspares := spares_of_reported h hinfo (fun r t' => t'.disconnect info r)
    fun r t' h' hr => disconnect_spares h' hinfo hr
  unfold disconnected
  split <;> simp_all

theorem alerting_spares (h : t.Inv) (hinfo : info.IsCarried) :
    Spares (t.taken info) t (t.alerting info).2 := by
  have hspares := spares_of_reported h hinfo
    (fun r t' => if r.callState = .disconnecting then t' else (t'.moveTo .alerting info r).2)
    fun r t' h' hr => by
      split
      · exact .of_subset (List.Subset.refl _)
      · exact moveTo_spares h' (callAt_eq_some hr).1 _
  unfold alerting
  split
  · simp_all
  · split <;> simp_all

/-- An `ALERTING` report touches no call that is disconnecting. -/
theorem alerting_spared (h : t.Inv) (hinfo : info.IsCarried) (hq : q ∈ t.rows)
    (huntouched : ∀ r, t.taken info = some r →
      (r.callState ≠ .disconnecting ∨ t.callAt info.index info.accountId = none) →
      q.callId ≠ r.callId) : q ∈ (t.alerting info).2.rows := by
  by_cases hdis : ∃ r, t.callAt info.index info.accountId = some r ∧ r.callState = .disconnecting
  · obtain ⟨r, hr, hstate⟩ := hdis
    rw [alerting, reported, hr]
    dsimp only
    rwa [if_pos hstate]
  · refine alerting_spares h hinfo q hq fun r hr => huntouched r hr ?_
    by_contra hno
    rw [not_or, not_not] at hno
    obtain ⟨r', hr'⟩ := Option.ne_none_iff_exists'.mp hno.2
    rw [taken_of_callAt hr'] at hr
    exact hdis ⟨r, hr ▸ hr', hno.1⟩

theorem moveKnown_spares (h : t.Inv) (next : TelCallState) :
    Spares (t.callAt info.index info.accountId) t (t.moveKnown next info).2 := by
  unfold moveKnown
  split
  · exact .of_subset (List.Subset.refl _)
  · next r hr =>
    rw [hr]
    exact moveTo_spares h (callAt_eq_some hr).1 next

/-! ## Pending dials that are taken for the call of a report -/

/-- The call is lost in its refresh: it needs a new object, and the table has no room for it. -/
def Lost (info : CallDetailInfo) (r : Row) (t : CallTable) : Prop :=
  r.callType ≠ info.callType ∧ ¬t.Room r

instance (info : CallDetailInfo) (r : Row) (t : CallTable) : Decidable (t.Lost info r) := by
  unfold Lost; infer_instance

theorem not_lost : ¬t.Lost info r ↔ r.callType = info.callType ∨ t.Room r := by
  rw [Lost, not_and_or, not_not, not_not]

/-- A pending dial that is not lost has the place of the report afterwards. -/
theorem reported_adopted (h : t.Inv) (hnone : t.callAt info.index info.accountId = none)
    (hr : t.taken info = some r) (hkept : ¬t.Lost info r) : (t.reported info).1.isSome := by
  obtain ⟨hpend, hdial⟩ := dialing_of_taken hnone hr
  have hmem := (pending_eq_some hpend).1
  unfold reported
  rw [hnone]
  dsimp only
  rw [if_pos (by rw [hpend]; rfl), hdial, callAt_isSome]
  have hrow : (t.refresh r { info with state := .dialing }).1 ∈
      (t.refresh r { info with state := .dialing }).2.rows := mem_refresh h hmem (not_lost.mp hkept)
  simp only [adopt, hpend]
  exact ⟨_, Keyed.mem_update.mpr ⟨_, hrow, if_pos rfl⟩, rfl, rfl⟩

/-- A pending dial that is taken for the call of a `DISCONNECTED` report is the only call the
report takes out. -/
theorem mem_disconnected_adopted (h : t.Inv) (hinfo : info.IsCarried)
    (hnone : t.callAt info.index info.accountId = none) (hr : t.taken info = some r)
    (hkept : ¬t.Lost info r) (hq : q ∈ (t.disconnected info).2.rows) :
    q ∈ t.rows ∧ q.callId ≠ r.callId := by
  obtain ⟨hpend, hdial⟩ := dialing_of_taken hnone hr
  obtain ⟨r₁, hr₁⟩ := Option.isSome_iff_exists.mp (reported_adopted h hnone hr hkept)
  have hat := reported_eq_some hr₁
  have hinv := h.reported hinfo
  have ht₁ : (t.reported info).2 = (t.adopt { info with state := .dialing }).2 := by
    rw [reported, hnone]
    dsimp only
    rw [if_pos (by rw [hpend]; rfl), hdial]
  have hid : r₁.callId = r.callId := by
    have hmem := callAt_eq_some hat
    rw [ht₁] at hmem
    exact (@adopt_callAt t r r₁ { info with state := .dialing } h hnone hpend hmem.1).mpr hmem.2
  have hx : t.disconnected info = (.success, (t.reported info).2.disconnect info r₁) := by
    rw [disconnected, show t.reported info = (some r₁, (t.reported info).2) from Prod.ext hr₁ rfl]
  rw [hx, mem_disconnect_iff hinv hinfo (callAt_eq_some hat).1 (hinv.fits hat), hid, ht₁] at hq
  exact ⟨mem_adopt h hpend hq.2 hq.1, hq.2⟩

/-! ## Ringing reports -/

theorem oldIncoming_spares (h : t.Inv) (hr : r ∈ t.rows) :
    Spares (some r) t (t.oldIncoming info r) := by
  unfold oldIncoming
  dsimp only
  split
  · split
    · exact (refresh_spares h hr).trans (announce_spares (refresh_callId h hr info) _)
    · exact refresh_spares h hr
  · exact .of_subset (List.Subset.refl _)

theorem incoming_spares (h : t.Inv) :
    Spares (t.failPending.callAt info.index info.accountId) t.failPending (t.incoming info).2 := by
  unfold incoming
  dsimp only
  split
  · next r hr =>
    rw [hr]
    exact oldIncoming_spares h.failPending (callAt_eq_some hr).1
  · exact addIncoming_spares

/-- The table in which a report looks for its call. -/
def heard (info : CallDetailInfo) (t : CallTable) : CallTable :=
  if Rings info.state then t.failPending else t

theorem refreshedBy_mem (hr : t.refreshedBy info = some r) : r ∈ (t.heard info).rows := by
  have htaken {r : Row} (hr : t.taken info = some r) : r ∈ t.rows := by
    cases hat : t.callAt info.index info.accountId with
    | some r' =>
      rw [taken_of_callAt hat] at hr
      exact Option.some.inj hr ▸ (callAt_eq_some hat).1
    | none => exact (pending_eq_some (dialing_of_taken hat hr).1).1
  unfold refreshedBy at hr
  unfold heard
  cases hst : info.state with
  | dialing =>
    simp only [hst] at hr
    split at hr
    · exact htaken hr
    · cases hr
  | alerting =>
    simp only [hst] at hr
    exact htaken (Option.filter_eq_some_iff.mp hr).1
  | active | disconnected => simp only [hst] at hr; exact htaken hr
  | _ =>
    simp only [hst] at hr
    first | exact (callAt_eq_some hr).1 | cases hr

/-- **A report leaves alone all calls but the one it refreshes**, and the pending dial if it
is one of a ringing call. -/
theorem report_spares (h : t.Inv) (hinfo : info.IsCarried) :
    Spares (t.refreshedBy info) (t.heard info) (t.report info).2 := by
  unfold refreshedBy report heard
  cases hst : info.state with
  | active => simpa [Rings] using active_spares h hinfo
  | holding => simpa [Rings] using moveKnown_spares h .holding
  | dialing => simpa [Rings] using dialing_spares h
  | alerting =>
    intro q hq huntouched
    have hq : q ∈ t.rows := by simpa [Rings, hst] using hq
    refine alerting_spared h hinfo hq fun r hr hrefreshed => huntouched r ?_
    exact Option.filter_eq_some_iff.mpr ⟨hr, by simpa using hrefreshed⟩
  | incoming => simpa [Rings] using incoming_spares h
  | waiting => simpa [Rings] using incoming_spares h
  | disconnected => simpa [Rings] using disconnected_spares h hinfo
  | disconnecting => simpa [Rings] using moveKnown_spares h .disconnecting
  | _ => exact .of_subset (by simp [Rings])

end CallTable

end CallManagerMini
