import CallManagerMini.CallTablePlaces
import CallManagerMini.Lib.Chronicle
import CallManagerMini.MainLoopRefinement
import CallManagerMini.ReportEffects

/-! # Every change of state is broadcast

The announcements of a table are a chronicle of its calls (`Chronicle`): a call
enters with a state, and its state changes.  As long as every report is clean
(`Clean`), the table tells the truth about its calls (`Told`): the changes
announced of a call form a chain that ends at the state it is in, or at
`DISCONNECTED` once it has left.
-/

namespace CallManagerMini

open Prog (Post Moves)
open Chronicle (Note Ends Untold)

variable {s : CallManager}

/-- What a mark notes of a call. -/
def Mark.note : Mark → Option (Note Int TelCallState)
  | .added callId callState => some (.entered callId callState)
  | .changed callId priorState nextState => some (.changed callId priorState nextState)
  | .dialed .. => none

namespace CallTable

variable {t : CallTable} {r q : Row} {info : CallDetailInfo}

/-- The chronicle of a table. -/
def notes (t : CallTable) : List (Note Int TelCallState) := t.history.filterMap Mark.note

/-- **The table has told the truth about its calls.**  A call that is dialing was
dialed, so that a refresh always finds room for it. -/
structure Told (t : CallTable) : Prop where
  listed : ∀ r ∈ t.rows, Ends r.callId r.callState t.notes
  gone : ∀ callId, (∀ r ∈ t.rows, r.callId ≠ callId) →
    Untold callId t.notes ∨ Ends callId .disconnected t.notes
  fresh : ∀ callId, t.lastCallId < callId → Untold callId t.notes
  dialed : ∀ r ∈ t.rows, r.callState = .dialing → r.direction = .outgoing

theorem told_empty : ({} : CallTable).Told where
  listed := by simp
  gone _ _ := .inl Chronicle.untold_nil
  fresh _ _ := Chronicle.untold_nil
  dialed := by simp

/-! ## The parts of a report -/

/-- A table with the same story, whose calls have the ids, states and directions they
had. -/
theorem Told.of_rows {t' : CallTable} (h : t.Told) (hnotes : t'.notes = t.notes)
    (hlast : t.lastCallId ≤ t'.lastCallId)
    (hrows : ∀ r ∈ t'.rows, ∃ q ∈ t.rows,
      q.callId = r.callId ∧ q.callState = r.callState ∧ q.direction = r.direction)
    (hkeep : ∀ q ∈ t.rows, ∃ r ∈ t'.rows, r.callId = q.callId) : t'.Told where
  listed r hr := by
    obtain ⟨q, hq, hid, hst, -⟩ := hrows r hr
    rw [hnotes, ← hid, ← hst]
    exact h.listed q hq
  gone callId hgone := by
    rw [hnotes]
    refine h.gone callId fun q hq hid => ?_
    obtain ⟨r, hr, hrq⟩ := hkeep q hq
    exact hgone r hr (hrq.trans hid)
  fresh callId hlt := by
    rw [hnotes]
    exact h.fresh callId (Int.lt_of_le_of_lt hlast hlt)
  dialed r hr hst := by
    obtain ⟨q, hq, -, hqst, hdir⟩ := hrows r hr
    exact hdir ▸ h.dialed q hq (hqst.trans hst)

/-- A change of a call's row that keeps its id, its state and its direction. -/
theorem Told.update (h : t.Told) (callId : Int) {f : Row → Row}
    (hf : ∀ q ∈ t.rows, q.callId = callId →
      (f q).callId = q.callId ∧ (f q).callState = q.callState ∧ (f q).direction = q.direction) :
    (t.update callId f).Told := by
  refine h.of_rows rfl (Int.le_refl _) (fun r hr => ?_) fun q hq => ?_
  · obtain ⟨q, hq, rfl⟩ := Keyed.mem_update.mp hr
    refine ⟨q, hq, ?_⟩
    split
    · next hid => exact ⟨(hf q hq hid).1.symm, (hf q hq hid).2.1.symm, (hf q hq hid).2.2.symm⟩
    · exact ⟨rfl, rfl, rfl⟩
  · refine ⟨_, Keyed.mem_update.mpr ⟨q, hq, rfl⟩, ?_⟩
    split
    · next hid => exact (hf q hq hid).1
    · rfl

theorem Told.created (h : t.Told) : t.created.Told :=
  h.of_rows rfl (Int.le_add_one (Int.le_refl _)) (fun r hr => ⟨r, hr, rfl, rfl, rfl⟩)
    fun q hq => ⟨q, hq, rfl⟩

theorem notes_of_history {t' : CallTable} {marks : List Mark}
    (h : t'.history = t.history ++ marks) : t'.notes = t.notes ++ marks.filterMap Mark.note := by
  rw [notes, h, List.filterMap_append]
  rfl

/-- **The step rule.**  Only one call was touched, only it was spoken of, and what was
said of it is true. -/
theorem Told.of_one (h : t.Told) {t' : CallTable} {callId : Int}
    {notes : List (Note Int TelCallState)} (hnotes : t'.notes = t.notes ++ notes)
    (hsilent : ∀ id, callId ≠ id → Untold id notes) (hlast : t.lastCallId ≤ t'.lastCallId)
    (hid : callId ≤ t'.lastCallId)
    (hothers : ∀ q : Row, q.callId ≠ callId → (q ∈ t'.rows ↔ q ∈ t.rows))
    (hown : ∀ q ∈ t'.rows, q.callId = callId → Ends callId q.callState t'.notes ∧
      (q.callState = .dialing → q.direction = .outgoing))
    (hgone : (∀ q ∈ t'.rows, q.callId ≠ callId) → Ends callId .disconnected t'.notes) :
    t'.Told where
  listed q hq := by
    by_cases hqid : q.callId = callId
    · exact hqid ▸ (hown q hq hqid).1
    · rw [hnotes]
      exact (h.listed q ((hothers q hqid).mp hq)).append_untold (hsilent _ (Ne.symm hqid))
  gone id hno := by
    by_cases hne : callId = id
    · subst hne
      exact .inr (hgone hno)
    · rw [hnotes]
      have hu := hsilent id hne
      refine (h.gone id fun q hq hqid => ?_).imp (·.append_untold hu) (·.append_untold hu)
      exact hno q ((hothers q fun hqc => hne (hqc.symm.trans hqid)).mpr hq) hqid
  fresh id hlt := by
    rw [hnotes]
    exact (h.fresh id (by omega)).append_untold (hsilent id (by omega))
  dialed q hq hst := by
    by_cases hqid : q.callId = callId
    · exact (hown q hq hqid).2 hst
    · exact h.dialed q ((hothers q hqid).mp hq) hst

/-- What is announced of one call says nothing of the others. -/
theorem untold_stateChange {callId callId' : Int} (hne : callId' ≠ callId)
    (prior next : TelCallState) :
    Untold callId ((stateChange callId' prior next).filterMap Mark.note) := by
  unfold stateChange
  split
  · exact Chronicle.untold_nil
  · exact Chronicle.untold_changed hne _ _

theorem ends_stateChange {callId : Int} {prior : TelCallState}
    {notes : List (Note Int TelCallState)}
    (h : Ends callId prior notes) (next : TelCallState) :
    Ends callId next (notes ++ (stateChange callId prior next).filterMap Mark.note) := by
  unfold stateChange
  split
  · next heq => simpa [heq] using h
  · exact h.changed next

/-- A call of the table changes its state and says so. -/
theorem Told.announce (h : t.Told) (hinv : t.Inv) (hr : r ∈ t.rows) {next : TelCallState}
    (hnext : next ≠ .dialing) : (t.announce r next).Told := by
  have hnotes : (t.announce r next).notes = t.notes ++
      (stateChange r.callId r.callState next).filterMap Mark.note :=
    notes_of_history (t := t) rfl
  have hown : ∀ q ∈ (t.announce r next).rows, q.callId = r.callId → q.callState = next := by
    intro q hq hid
    obtain ⟨a, ha, rfl⟩ := Keyed.mem_update.mp hq
    split at hid
    · next hk => rw [if_pos hk]; rfl
    · next hk => exact absurd hid hk
  refine h.of_one hnotes (fun id hne => untold_stateChange hne _ _) (Int.le_refl _)
    (hinv.ok r hr).id_le (fun q hne => ?_) (fun q hq hid => ⟨?_, fun hst => ?_⟩) fun hgone => ?_
  · exact Keyed.mem_update_of_ne (fun _ => rfl) hne
  · rw [hown q hq hid, hnotes]
    exact ends_stateChange (h.listed r hr) next
  · exact absurd ((hown q hq hid).symm.trans hst) hnext
  · exact absurd rfl (hgone (r.setState next) (Keyed.mem_update.mpr ⟨r, hr, if_pos rfl⟩))

/-- A refresh that does not lose its call goes on with its story. -/
theorem Told.refresh (h : t.Told) (hinv : t.Inv) (hr : r ∈ t.rows)
    (hkept : r.callType = info.callType ∨ t.Room r) : (t.refresh r info).2.Told := by
  by_cases ht : r.callType = info.callType
  · rw [refresh_same ht]
    exact h.update _ fun q _ _ => by simp
  have hroom := hkept.resolve_left ht
  have hx := mem_refresh hinv hr hkept
  have hnotes : (t.refresh r info).2.notes = t.notes ++ [.entered r.callId info.state] := by
    have hmarks : (t.refresh r info).2.history = t.history ++ [.added r.callId info.state] := by
      rw [refresh_history hinv hr, if_pos ⟨ht, hroom⟩]
    exact notes_of_history hmarks
  have hown : ∀ q ∈ (t.refresh r info).2.rows, q.callId = r.callId →
      q.callState = r.callState ∧ q.direction = r.direction := by
    rw [refresh_replaced hinv hr ht hroom]
    intro q hq hid
    rcases List.mem_append.mp hq with hq | hq
    · exact absurd hid (hinv.created.mem_remove.mp hq).2
    · rw [List.mem_singleton.mp hq]
      exact ⟨rfl, rfl⟩
  refine h.of_one hnotes (fun id hne => Chronicle.untold_entered hne _)
    (refresh_lastCallId hinv hr info)
    (Int.le_trans (hinv.ok r hr).id_le (refresh_lastCallId hinv hr info))
    (fun q hne => mem_refresh_iff hinv hr hne) (fun q hq hid => ⟨?_, ?_⟩) fun hgone => ?_
  · rw [(hown q hq hid).1, hnotes]
    exact (h.listed r hr).entered _
  · rw [(hown q hq hid).1, (hown q hq hid).2]
    exact h.dialed r hr
  · exact absurd (refresh_callId hinv hr info) (hgone _ hx)

/-- A new call enters with the state it is in. -/
theorem Told.insertNew (h : t.Told) (hinv : t.Inv) {direction : CallDirection}
    (hadm : t.created.admission (t.newRow info direction) = .success)
    (hdir : info.state = .dialing → direction = .outgoing) :
    ((t.created.insert (t.newRow info direction)).update (t.newRow info direction).callId
      (Row.setState info.state)).Told := by
  have hlt : ∀ q ∈ t.rows, q.callId ≠ t.lastCallId + 1 := fun q hq hid => by
    have := (hinv.ok q hq).id_le
    omega
  rw [insert_update hadm]
  have hmarks : (t.created.insert ((t.newRow info direction).setState info.state)).history =
      t.history ++ [.added (t.lastCallId + 1) info.state] := rfl
  have hnotes := notes_of_history hmarks
  refine @Told.of_one t h _ (t.lastCallId + 1) _ hnotes
    (fun id hne => Chronicle.untold_entered hne _) (Int.le_add_one (Int.le_refl _))
    (Int.le_refl _) (fun q hne => ?_) (fun q hq hid => ?_) fun hgone => ?_
  · refine ⟨fun hq => ?_, fun hq => List.mem_append_left _ hq⟩
    rcases List.mem_append.mp hq with hq | hq
    · exact hq
    · exact absurd (congrArg Row.callId (List.mem_singleton.mp hq)) hne
  · rcases List.mem_append.mp hq with hq | hq
    · exact absurd hid (hlt q hq)
    · rw [List.mem_singleton.mp hq]
      refine ⟨?_, hdir⟩
      refine Eq.subst hnotes.symm ?_
      exact (h.fresh _ (Int.lt_succ t.lastCallId)).entered _
  · exact absurd rfl (hgone _ (List.mem_append_right _ (List.mem_singleton.mpr rfl)))

/-- A call that ends is announced as `DISCONNECTED`, whether the refresh lost it or not. -/
theorem Told.disconnect (h : t.Told) (hinv : t.Inv) (hinfo : info.IsCarried) (hr : r ∈ t.rows)
    (hfit : t.Fits r info) : (t.disconnect info r).Told := by
  have hmem := fun q => mem_disconnect_iff (q := q) hinv hinfo hr hfit
  have hlast : t.lastCallId ≤ (t.disconnect info r).lastCallId := refresh_lastCallId hinv hr info
  have hnotes := notes_of_history (disconnect_history hinv hinfo hr hfit)
  rw [List.filterMap_append] at hnotes
  refine h.of_one hnotes (fun id hne => ?_) hlast (Int.le_trans (hinv.ok r hr).id_le hlast)
    (fun q hne => (hmem q).trans (and_iff_left hne))
    (fun q hq hid => absurd hid ((hmem q).mp hq).2) fun _ => ?_
  · refine Untold.append_untold ?_ (untold_stateChange hne _ _)
    split
    · exact Chronicle.untold_entered hne _
    · exact Chronicle.untold_nil
  · rw [hnotes, ← List.append_assoc]
    refine ends_stateChange ?_ _
    split
    · exact (h.listed r hr).entered _
    · simpa using h.listed r hr

/-- A call that fails is announced, whichever it is. -/
theorem Told.failCall (h : t.Told) (hinv : t.Inv) (hr : r ∈ t.rows) : (t.failCall r).2.Told := by
  obtain ⟨q, hq⟩ := Option.isSome_iff_exists.mp
    (callAt_isSome.mpr ⟨r, hr, rfl, rfl⟩ : (t.callAt r.index r.slotId).isSome)
  rw [failCall_eq_disconnect hq]
  exact h.disconnect hinv (hinv.disconnectedInfo_isCarried hr) (callAt_eq_some hq).1 (hinv.fits hq)

theorem Told.failPending (h : t.Told) (hinv : t.Inv) : t.failPending.Told := by
  unfold CallTable.failPending
  split
  · exact h
  · next r hr => exact h.failCall hinv (pending_eq_some hr).1

/-! ## Clean reports -/

/-- If the report numbers the pending call, it finds it in the state it was dialed in. -/
def AdoptsDialing (info : CallDetailInfo) (t : CallTable) : Prop :=
  0 < info.index → ¬t.Occupied info.accountId info.index → t.Occupied info.accountId 0 →
    ∀ r, t.pending = some r → r.callState = .dialing

/-- The refresh of the call at the report's place, if there is one, does not lose it. -/
def LosesNothing (info : CallDetailInfo) (t : CallTable) : Prop :=
  ∀ r, t.callAt info.index info.accountId = some r →
    (r.callType = info.callType ∨ t.Room r)

/-- **The reports that tell the truth.**  A pending call is numbered in the state it
was dialed in, and the refresh keeps the call, unless the report ends it. -/
def Clean (info : CallDetailInfo) (t : CallTable) : Prop :=
  match info.state with
  | .active => AdoptsDialing info t ∧ LosesNothing info t
  | .alerting => AdoptsDialing info t ∧
    ∀ r, t.callAt info.index info.accountId = some r →
      r.callState = .disconnecting ∨ r.callType = info.callType ∨ t.Room r
  | .dialing => AdoptsDialing info t ∧ (0 < info.index → LosesNothing info t)
  | .disconnected => AdoptsDialing info t
  | .holding | .disconnecting => LosesNothing info t
  | .incoming | .waiting => LosesNothing info t.failPending
  | _ => True

instance (t : CallTable) (slotId index : Int) : Decidable (t.Occupied slotId index) := by
  unfold Occupied; infer_instance

instance (info : CallDetailInfo) (t : CallTable) : Decidable (AdoptsDialing info t) := by
  unfold AdoptsDialing; infer_instance

instance (info : CallDetailInfo) (t : CallTable) : Decidable (LosesNothing info t) := by
  unfold LosesNothing; infer_instance

instance (info : CallDetailInfo) (t : CallTable) : Decidable (Clean info t) := by
  unfold Clean
  split <;> infer_instance

theorem Told.adopt (h : t.Told) (hinv : t.Inv) (hinfo : info.IsCarried)
    (hdialing : ∀ r, t.pending = some r → r.callState = .dialing) : (t.adopt info).2.Told := by
  unfold CallTable.adopt
  split
  · exact h
  · next r hr =>
    have hmem := (pending_eq_some hr).1
    have hst := hdialing r hr
    -- a dialing call was dialed, so there is room for its refresh
    refine (h.refresh hinv hmem (.inr (.inr (h.dialed r hmem hst)))).update _ fun q hq hid => ?_
    rw [(refresh_holds hinv hmem hinfo).only q hq hid]
    exact ⟨rfl, ((refresh_callState hinv hmem info).trans hst).symm, rfl⟩

theorem Told.addDialing (h : t.Told) (hinv : t.Inv) : (t.addDialing info).2.Told := by
  unfold CallTable.addDialing
  dsimp only
  split
  · next hadm =>
    exact h.insertNew hinv hadm fun _ => rfl
  · exact h.created

theorem Told.addIncoming (h : t.Told) (hinv : t.Inv) (hst : Rings info.state) :
    (t.addIncoming info).2.Told := by
  unfold CallTable.addIncoming
  dsimp only
  split
  · next hadm =>
    refine h.insertNew hinv hadm fun hd => ?_
    rcases hst with hs | hs <;> rw [hs] at hd <;> cases hd
  · exact h.created

theorem Told.dialing (h : t.Told) (hinv : t.Inv) (hinfo : info.IsCarried)
    (hadopt : AdoptsDialing info t) (hkept : 0 < info.index → LosesNothing info t) :
    (t.dialing info).2.Told := by
  unfold CallTable.dialing
  split
  · next hupdate =>
    obtain ⟨hpos, hknown⟩ := hupdate
    unfold CallTable.updateDialing
    split
    · next r hr => exact h.refresh hinv (callAt_eq_some hr).1 (hkept hpos r hr)
    · next hnone =>
      have hpending : t.Occupied info.accountId 0 := by
        refine callAt_isSome.mp (hknown.resolve_right ?_)
        rw [show t.callAt info.index info.accountId = none from hnone]
        simp
      exact h.adopt hinv (hinfo.withState _)
        (hadopt hpos (callAt_eq_none_iff.mp hnone) hpending)
  · exact h.addDialing hinv

/-- The call of a report was there, or is of the report's type. -/
theorem reported_some (h : t.Inv) (hr : (t.reported info).1 = some r) :
    (t.callAt info.index info.accountId = some r ∧ (t.reported info).2 = t) ∨
      r.callType = info.callType := by
  cases hat : t.callAt info.index info.accountId with
  | none => exact .inr (reported_callType h hat hr)
  | some q =>
    have hrep : t.reported info = (some q, t) := by simp only [reported, hat]
    rw [hrep] at hr ⊢
    exact .inl ⟨hr, rfl⟩

theorem Told.reported (h : t.Told) (hinv : t.Inv) (hinfo : info.IsCarried)
    (hadopt : AdoptsDialing info t) : (t.reported info).2.Told := by
  unfold CallTable.reported
  split
  · exact h
  next hnone =>
  split
  · exact h.dialing hinv hinfo hadopt fun _ r hr => by rw [hnone] at hr; cases hr
  · exact h

theorem Told.moveTo (h : t.Told) (hinv : t.Inv) (hinfo : info.IsCarried)
    (hr : t.callAt info.index info.accountId = some r)
    (hkept : r.callType = info.callType ∨ t.Room r) {next : TelCallState}
    (hnext : next ≠ .dialing) : (t.moveTo next info r).2.Told :=
  have hmem := (callAt_eq_some hr).1
  (h.refresh hinv hmem hkept).announce (hinv.refresh hmem hinfo (hinv.fits hr))
    (mem_refresh hinv hmem hkept) hnext

theorem Told.moveKnown (h : t.Told) (hinv : t.Inv) (hinfo : info.IsCarried)
    (hkept : LosesNothing info t) {next : TelCallState} (hnext : next ≠ .dialing) :
    (t.moveKnown next info).2.Told := by
  unfold CallTable.moveKnown
  split
  · exact h
  · next r hr => exact h.moveTo hinv hinfo hr (hkept r hr) hnext

/-- A report finds no call, or the one at its place, which either was there or is of
the report's type; the table has told the truth. -/
@[elab_as_elim]
theorem Told.reported_cases {motive : Option Row × CallTable → Prop} (h : t.Told) (hinv : t.Inv)
    (hinfo : info.IsCarried) (hadopt : AdoptsDialing info t)
    (none : ∀ t' : CallTable, t'.Told → motive (none, t'))
    (some : ∀ (r : Row) (t' : CallTable), t'.Inv → t'.Told →
      t'.callAt info.index info.accountId = some r →
      (t.callAt info.index info.accountId = some r ∧ t' = t) ∨ r.callType = info.callType →
      motive (some r, t')) :
    motive (t.reported info) := by
  have hrep := hinv.reported hinfo
  have htold := h.reported hinv hinfo hadopt
  have hat := fun r => @reported_eq_some t r info
  have hsome := fun r => @reported_some t r info hinv
  cases hx : t.reported info with
  | mk found t' =>
    rw [hx] at hrep htold hat hsome
    cases found with
    | none => exact none t' htold
    | some r => exact some r t' hrep htold (hat r rfl) (hsome r rfl)

theorem Told.active (h : t.Told) (hinv : t.Inv) (hinfo : info.IsCarried)
    (hadopt : AdoptsDialing info t) (hkept : LosesNothing info t) : (t.active info).2.Told := by
  unfold CallTable.active
  refine h.reported_cases hinv hinfo hadopt (fun t' h' => h') fun r t' hinv' h' hr hwas => ?_
  refine h'.moveTo hinv' hinfo hr ?_ (by decide)
  rcases hwas with ⟨hat, rfl⟩ | ht
  · exact hkept r hat
  · exact .inl ht

theorem Told.alerting (h : t.Told) (hinv : t.Inv) (hinfo : info.IsCarried)
    (hadopt : AdoptsDialing info t)
    (hkept : ∀ r, t.callAt info.index info.accountId = some r →
      r.callState = .disconnecting ∨ r.callType = info.callType ∨ t.Room r) :
    (t.alerting info).2.Told := by
  unfold CallTable.alerting
  refine h.reported_cases hinv hinfo hadopt (fun t' h' => h') fun r t' hinv' h' hr hwas => ?_
  dsimp only
  split
  · exact h'
  next hst =>
  refine h'.moveTo hinv' hinfo hr ?_ (by decide)
  rcases hwas with ⟨hat, rfl⟩ | ht
  · exact (hkept r hat).resolve_left hst
  · exact .inl ht

theorem Told.disconnected (h : t.Told) (hinv : t.Inv) (hinfo : info.IsCarried)
    (hadopt : AdoptsDialing info t) : (t.disconnected info).2.Told := by
  unfold CallTable.disconnected
  refine h.reported_cases hinv hinfo hadopt (fun t' h' => h') fun r t' hinv' h' hr _ => ?_
  exact h'.disconnect hinv' hinfo (callAt_eq_some hr).1 (hinv'.fits hr)

theorem Told.oldIncoming (h : t.Told) (hinv : t.Inv) (hinfo : info.IsCarried)
    (hst : Rings info.state) (hr : t.callAt info.index info.accountId = some r)
    (hkept : r.callType = info.callType ∨ t.Room r) : (t.oldIncoming info r).Told := by
  have hnext : info.state ≠ .dialing := by rcases hst with hs | hs <;> rw [hs] <;> decide
  unfold CallTable.oldIncoming
  dsimp only
  split
  · split
    · exact h.moveTo hinv hinfo hr hkept hnext
    · exact h.refresh hinv (callAt_eq_some hr).1 hkept
  · exact h

theorem Told.incoming (h : t.Told) (hinv : t.Inv) (hinfo : info.IsCarried)
    (hst : Rings info.state) (hkept : LosesNothing info t.failPending) :
    (t.incoming info).2.Told := by
  have h' := h.failPending hinv
  have hinv' := hinv.failPending
  unfold CallTable.incoming
  dsimp only
  split
  · next r hr => exact h'.oldIncoming hinv' hinfo hst hr (hkept r hr)
  · exact h'.addIncoming hinv' hst

/-- **A clean report tells the truth.** -/
theorem Told.report (h : t.Told) (hinv : t.Inv) (hinfo : info.IsCarried) (hclean : Clean info t) :
    (t.report info).2.Told := by
  unfold Clean at hclean
  unfold CallTable.report
  cases hst : info.state <;> simp only [hst] at hclean ⊢
  case active => exact h.active hinv hinfo hclean.1 hclean.2
  case holding => exact h.moveKnown hinv hinfo hclean (by decide)
  case dialing => exact h.dialing hinv hinfo hclean.1 hclean.2
  case alerting => exact h.alerting hinv hinfo hclean.1 hclean.2
  case incoming => exact h.incoming hinv hinfo (.inl hst) hclean
  case waiting => exact h.incoming hinv hinfo (.inr hst) hclean
  case disconnected => exact h.disconnected hinv hinfo hclean
  case disconnecting => exact h.moveKnown hinv hinfo hclean (by decide)
  all_goals exact h

/-- Reports that are clean one after the other. -/
def CleanReports : List CallDetailInfo → CallTable → Prop
  | [], _ => True
  | info :: infos, t => Clean info t ∧ CleanReports infos (t.report info).2

instance decidableCleanReports : ∀ infos t, Decidable (CleanReports infos t)
  | [], _ => inferInstanceAs (Decidable True)
  | info :: infos, t =>
    have := decidableCleanReports infos (t.report info).2
    inferInstanceAs (Decidable (Clean info t ∧ CleanReports infos (t.report info).2))

theorem Told.reports (h : t.Told) (hinv : t.Inv) {infos : List CallDetailInfo}
    (hinfos : ∀ i ∈ infos, i.IsCarried) (hclean : CleanReports infos t) :
    (t.reports infos).Told := by
  induction infos generalizing t with
  | nil => exact h
  | cons i infos ih =>
    have hi := hinfos i List.mem_cons_self
    exact ih (h.report hinv hi hclean.1) (hinv.report hi)
      (fun j hj => hinfos j (List.mem_cons_of_mem i hj)) hclean.2

/-- What the service does to the table by itself is always told. -/
theorem Told.localChange (h : t.Told) (hinv : t.Inv) {t' : CallTable} (hc : LocalChange t t') :
    t'.Told := by
  cases hc with
  | fail hr => exact h.failCall hinv hr
  | saveDial _ =>
    exact h.of_rows rfl (Int.le_refl _) (fun r hr => ⟨r, hr, rfl, rfl, rfl⟩)
      fun q hq => ⟨q, hq, rfl⟩
  | dial _ _ _ => exact h.addDialing hinv
  | dialed info reply =>
    refine h.of_rows ?_ (Int.le_refl _) (fun r hr => ⟨r, hr, rfl, rfl, rfl⟩)
      fun q hq => ⟨q, hq, rfl⟩
    exact (notes_of_history (t := t) rfl).trans (List.append_nil _)

theorem Told.localChanges (h : t.Told) (hinv : t.Inv) {t' : CallTable} (hc : LocalChanges t t') :
    t'.Told := by
  induction hc with
  | refl => exact h
  | tail hc hstep ih => exact ih.localChange (LocalChanges.inv hinv hc) hstep

end CallTable

/-! ## In the service's terms -/

/-- The change of state a `NotifyCallStateUpdated` broadcasts of a call, the `ANSWERED`
marker and broadcasts of the state the call is in left out. -/
def Event.broadcast (callId : Int) : Event → Option (TelCallState × TelCallState)
  | .callStateUpdated call priorState nextState =>
    if call.callId = callId ∧ nextState ≠ .answered ∧ priorState ≠ nextState then
      some (priorState, nextState)
    else none
  | _ => none

/-- The state a call object with the id is added with. -/
def Event.addedState (callId : Int) : Event → Option TelCallState
  | .callAdded id callState => if id = callId then some callState else none
  | _ => none

/-- The broadcasts of a call, in order. -/
def CallManager.broadcasts (s : CallManager) (callId : Int) : List (TelCallState × TelCallState) :=
  s.log.filterMap (Event.broadcast callId)

/-- The state the call was added with. -/
def CallManager.addedState (s : CallManager) (callId : Int) : Option TelCallState :=
  s.log.findSome? (Event.addedState callId)

/-- The state of a call of the table; `DISCONNECTED` for one that is not in the table. -/
def CallManager.stateOf (s : CallManager) (callId : Int) : TelCallState :=
  match getOneCallObject s callId with
  | some p => (s.call p).callState
  | none => .disconnected

/-- The broadcasts of a call form a chain from the state it was added with to the state
it is in; nothing is broadcast of a call that was never added. -/
structure ChainComplete (s : CallManager) (callId : Int) : Prop where
  told : ∀ callState, s.addedState callId = some callState →
    Chronicle.chainEnd callState (s.broadcasts callId) = some (s.stateOf callId)
  untold : s.addedState callId = none →
    s.broadcasts callId = [] ∧ getOneCallObject s callId = none

instance (s : CallManager) (callId : Int) : Decidable (ChainComplete s callId) :=
  decidable_of_iff (_ ∧ _) ⟨fun h => ChainComplete.mk h.1 h.2, fun h => ⟨h.told, h.untold⟩⟩

theorem changes_eq (s : CallManager) (callId : Int) :
    Chronicle.changes callId s.table.notes = s.broadcasts callId := by
  simp only [Chronicle.changes, CallTable.notes, CallManager.table, CallManager.history,
    List.filterMap_filterMap, CallManager.broadcasts]
  refine congrArg (List.filterMap · s.log) (funext fun e => ?_)
  cases e with
  | callStateUpdated call prior next =>
    by_cases hn : next = .answered ∨ prior = next
    · have : ¬(next ≠ .answered ∧ prior ≠ next) := by tauto
      simp [Event.mark, Event.broadcast, hn, this]
    · obtain ⟨h1, h2⟩ := not_or.mp hn
      simp [Event.mark, Event.broadcast, h1, h2, Mark.note, Note.change]
  | command c reply => cases c <;> rfl
  | _ => rfl

theorem entry_eq (s : CallManager) (callId : Int) :
    Chronicle.entry callId s.table.notes = s.addedState callId := by
  simp only [Chronicle.entry, ← List.head?_filterMap, CallTable.notes, CallManager.table,
    CallManager.history, List.filterMap_filterMap, CallManager.addedState]
  refine congrArg (fun f => (List.filterMap f s.log).head?) (funext fun e => ?_)
  cases e with
  | callStateUpdated call prior next =>
    by_cases hn : next = .answered ∨ prior = next <;>
      simp [Event.mark, Event.addedState, hn, Mark.note, Note.entry]
  | command c reply => cases c <;> rfl
  | _ => rfl

/-- The main-loop steps whose reports are clean. -/
def CleanStep (s s' : CallManager) : Prop :=
  ∃ env input, CallTable.CleanReports (input.reports s) s.table ∧ s' = (mainLoopStep env input s).2

/-- The states of the runs whose reports are all clean. -/
def CleanReachable : CallManager → Prop := Runs.Reachable (· = CallManager.init) CleanStep

theorem CleanReachable.reachable (hs : CleanReachable s) : Reachable s :=
  hs.mono fun _ _ ⟨env, input, _, hs'⟩ => ⟨env, input, hs'⟩

/-- A clean step tells the truth. -/
theorem told_step {s' : CallManager} (h : ServiceInv s) (htold : s.table.Told)
    (hstep : CleanStep s s') : s'.table.Told := by
  obtain ⟨env, input, hclean, rfl⟩ := hstep
  have heff := mainLoopStep_post env h input
  exact (htold.reports h.table h.isCarried hclean).localChanges (h.table.reports h.isCarried)
    heff.table

theorem cleanReachable_told (hs : CleanReachable s) : s.table.Told :=
  hs.invariant_of (fun _ hs => reachable_inv (CleanReachable.reachable hs))
    (fun _ h => h ▸ CallTable.told_empty) fun _ _ h htold hstep => told_step h htold hstep

/-- **Every change of state is broadcast exactly once**, in every run whose reports are
clean. -/
theorem cleanReachable_chainComplete (hs : CleanReachable s) (callId : Int) :
    ChainComplete s callId := by
  have h := (reachable_inv hs.reachable).table
  have htold := cleanReachable_told hs
  suffices hsplit : (∀ a, Chronicle.entry callId s.table.notes = some a →
      Chronicle.chainEnd a (Chronicle.changes callId s.table.notes) = some (s.stateOf callId)) ∧
      (Chronicle.entry callId s.table.notes = none →
        Chronicle.changes callId s.table.notes = [] ∧ getOneCallObject s callId = none) by
    rw [entry_eq, changes_eq] at hsplit
    exact ⟨hsplit.1, hsplit.2⟩
  unfold CallManager.stateOf
  cases hp : getOneCallObject s callId with
  | some p =>
    have hid : (s.call p).callId = callId := by simpa using List.find?_some hp
    obtain ⟨a, he, hc⟩ := htold.listed _ (s.row_mem_table (mem_of_findCall hp))
    rw [CallManager.row_callId, hid] at he hc
    simp [he, hc]
  | none =>
    have hgone : ∀ r ∈ s.table.rows, r.callId ≠ callId := by
      intro r hr
      obtain ⟨p, hp', rfl⟩ := CallManager.mem_table_rows.mp hr
      simpa using List.find?_eq_none.mp hp p hp'
    rcases htold.gone callId hgone with ⟨he, hc⟩ | ⟨a, he, hc⟩ <;> simp [he, hc]

/-- A dial of `10086`, everything left at its default. -/
def plainDial : Input := .dialCall ⟨true, true⟩ [49, 48, 48, 56, 54] fun _ => none

/-- The call with index 1 is reported active. -/
def activeReport : CallReportInfo := { ringingReport 1 with state := 0 }

/-- A dialed call is reported alerting while it has no index; when it gets one it is
set back to dialing, and nobody is told. -/
theorem silent_change :
    ∃ s callId, Reachable s ∧ ¬ChainComplete s callId :=
  ⟨.run [(.obliging, plainDial), (.obliging, .callReport { ringingReport 0 with state := 3 }),
      (.obliging, .callReport activeReport)], 1, reachable_run _,
    by decide +kernel⟩

/-- A dialed call that becomes active with its index. -/
theorem cleanReachable_chainComplete_active :
    ChainComplete (mainLoopStep .obliging (.callReport activeReport)
      (mainLoopStep .obliging plainDial .init).2).2 1 := by
  have hclean : CallTable.CleanReports
      (Input.reports (mainLoopStep .obliging plainDial .init).2 (.callReport activeReport))
      (mainLoopStep .obliging plainDial .init).2.table := by decide +kernel
  have hdial : CleanReachable (mainLoopStep .obliging plainDial .init).2 :=
    .next (.start rfl) ⟨.obliging, plainDial, by decide, rfl⟩
  exact cleanReachable_chainComplete
    (.next hdial ⟨.obliging, .callReport activeReport, hclean, rfl⟩) 1

end CallManagerMini
