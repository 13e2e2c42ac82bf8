import CallManagerMini.Lib.Feed
import CallManagerMini.PlainRelations
import CallManagerMini.StateChain

/-! # What the application knows of the calls

The application is told the state of a call by a broadcast, and that it is gone.  What it knows by
these alone is the table: each step of the main loop tells what turns the view of the table before
it into the view after it (`Fed`), as long as the reports are clean.
-/

namespace CallManagerMini

open Prog (Post Moves)

variable {s s' s'' : CallManager} {env : Env} {info : CallDetailInfo} {p : Ref}

/-! ## The view of a table -/

namespace CallTable

variable {t t' : CallTable} {r : Row}

/-- The state of each call. -/
def view (t : CallTable) (callId : Int) : Option TelCallState :=
  (t.rows.find? fun r => r.callId = callId).map Row.callState

theorem view_eq_some (h : t.Inv) (hr : r ∈ t.rows) : t.view r.callId = some r.callState := by
  unfold view
  rw [(Keyed.find?_eq_some_iff h.ids).mpr ⟨hr, rfl⟩]
  rfl

theorem view_eq_none {callId : Int} (h : ∀ r ∈ t.rows, r.callId ≠ callId) :
    t.view callId = none := by
  unfold view
  rw [List.find?_eq_none.mpr fun r hr => by simpa using h r hr]
  rfl

/-- If only one call was touched, the view has changed for that call at most. -/
theorem view_of_one (h : t.Inv) {callId : Int} {st : Option TelCallState}
    (hothers : ∀ q : Row, q.callId ≠ callId → (q ∈ t'.rows ↔ q ∈ t.rows))
    (hown : ∀ q ∈ t'.rows, q.callId = callId → some q.callState = st)
    (hgone : (∀ q ∈ t'.rows, q.callId ≠ callId) → st = none) :
    t'.view = Function.update t.view callId st := by
  funext id
  by_cases hid : id = callId
  · subst hid
    rw [Function.update_self]
    cases hq : t'.rows.find? fun r => r.callId = id with
    | none =>
      have hno : ∀ q ∈ t'.rows, q.callId ≠ id := fun q hmem => by
        simpa using List.find?_eq_none.mp hq q hmem
      rw [view_eq_none hno, hgone hno]
    | some q =>
      have hqid : q.callId = id := by simpa using List.find?_some hq
      unfold view
      rw [hq, ← hown q (List.mem_of_find?_eq_some hq) hqid]
      rfl
  · rw [Function.update_of_ne hid]
    cases hq : t'.rows.find? fun r => r.callId = id with
    | none =>
      have hno : ∀ q ∈ t.rows, q.callId ≠ id := fun q hmem hqid => by
        have hmem' := (hothers q fun heq => hid (hqid.symm.trans heq)).mpr hmem
        simpa [hqid] using List.find?_eq_none.mp hq q hmem'
      unfold view
      rw [hq, List.find?_eq_none.mpr fun q hmem => by simpa using hno q hmem]
    | some q =>
      have hqid : q.callId = id := by simpa using List.find?_some hq
      have hmem := (hothers q fun heq => hid (hqid.symm.trans heq)).mp
        (List.mem_of_find?_eq_some hq)
      have hview := view_eq_some h hmem
      rw [hqid] at hview
      rw [hview]
      unfold view
      rw [hq]
      rfl

theorem view_of_rows (h : t'.rows = t.rows) : t'.view = t.view := by
  funext callId
  unfold view
  rw [h]

theorem view_update (h : t.Inv) (hr : r ∈ t.rows) {f : Row → Row}
    (hf : ∀ q, (f q).callId = q.callId) :
    (t.update r.callId f).view = Function.update t.view r.callId (some (f r).callState) := by
  refine view_of_one h (fun q hne => Keyed.mem_update_of_ne hf hne)
    (fun q hq hid => ?_) fun hgone => ?_
  · obtain ⟨a, ha, rfl⟩ := Keyed.mem_update.mp hq
    split at hid
    · next hk => rw [if_pos hk, h.eq_of_callId ha hr hk]
    · next hk => exact absurd hid hk
  · refine absurd ?_ (hgone (f r) (Keyed.mem_update.mpr ⟨r, hr, if_pos rfl⟩))
    exact hf r

theorem view_announce (h : t.Inv) (hr : r ∈ t.rows) (next : TelCallState) :
    (t.announce r next).view = Function.update t.view r.callId (some next) :=
  (view_of_rows rfl).trans (view_update h hr fun _ => rfl)

/-- A refresh that does not lose its call does not show. -/
theorem view_refresh (h : t.Inv) (hinfo : info.IsCarried) (hr : r ∈ t.rows)
    (hkept : r.callType = info.callType ∨ t.Room r) : (t.refresh r info).2.view = t.view := by
  have hupdate : (t.refresh r info).2.view =
      Function.update t.view r.callId (some r.callState) := by
    refine view_of_one h (fun q hne => mem_refresh_iff h hr hne)
      (fun q hq hid => ?_) fun hgone => ?_
    · have hown := (refresh_holds h hr hinfo).only q hq (hid.trans (refresh_callId h hr info).symm)
      rw [hown, refresh_callState h hr]
    · exact absurd (refresh_callId h hr info) (hgone _ (mem_refresh h hr hkept))
  rw [hupdate, ← view_eq_some h hr, Function.update_eq_self]

/-- A pending call that is numbered in the state it was dialed in looks as before. -/
theorem view_adopt (h : t.Inv) (htold : t.Told) (hinfo : info.IsCarried)
    (hnone : t.callAt info.index info.accountId = none)
    (hdialing : ∀ r, t.pending = some r → r.callState = .dialing) :
    (t.adopt info).2.view = t.view := by
  unfold adopt
  cases hpend : t.pending with
  | none => rfl
  | some r =>
    have hmem := (pending_eq_some hpend).1
    have hst := hdialing r hpend
    -- a dialing call was dialed, so there is room for its refresh
    have hroom : r.callType = info.callType ∨ t.Room r := .inr (.inr (htold.dialed r hmem hst))
    have hx := mem_refresh h hmem hroom
    have hinv : (t.refresh r info).2.Inv := h.refresh hmem hinfo (fits_of_none hnone)
    have hview := view_update hinv hx (f := Row.numbered info r.accountNumber) fun _ => rfl
    refine hview.trans ?_
    rw [view_refresh h hinfo hmem hroom, refresh_callId h hmem]
    show Function.update t.view r.callId (some .dialing) = t.view
    rw [← hst, ← view_eq_some h hmem, Function.update_eq_self]

theorem view_updateDialing (h : t.Inv) (htold : t.Told) (hinfo : info.IsCarried)
    (hdialing : t.callAt info.index info.accountId = none →
      ∀ r, t.pending = some r → r.callState = .dialing) (hkept : LosesNothing info t) :
    (t.updateDialing info).2.view = t.view := by
  unfold updateDialing
  cases hat : t.callAt info.index info.accountId with
  | some r => exact view_refresh h hinfo (callAt_eq_some hat).1 (hkept r hat)
  | none => exact view_adopt h htold hinfo hat (hdialing hat)

/-- A new call shows with the state it was added with. -/
theorem view_insertNew (h : t.Inv) {direction : CallDirection}
    (hadm : t.created.admission (t.newRow info direction) = .success) :
    ((t.created.insert (t.newRow info direction)).update (t.newRow info direction).callId
      (Row.setState info.state)).view =
      Function.update t.view (t.lastCallId + 1) (some info.state) := by
  have hlt : ∀ q ∈ t.rows, q.callId ≠ t.lastCallId + 1 := fun q hq hid => by
    have := (h.ok q hq).id_le
    omega
  rw [insert_update hadm]
  refine view_of_one h (fun q hne => ?_) (fun q hq hid => ?_) fun hgone => ?_
  · refine ⟨fun hq => ?_, fun hq => List.mem_append_left _ hq⟩
    rcases List.mem_append.mp hq with hq | hq
    · exact hq
    · exact absurd (congrArg Row.callId (List.mem_singleton.mp hq)) hne
  · rcases List.mem_append.mp hq with hq | hq
    · exact absurd hid (hlt q hq)
    · rw [List.mem_singleton.mp hq]
      rfl
  · exact absurd rfl (hgone _ (List.mem_append_right _ (List.mem_singleton.mpr rfl)))

theorem view_disconnect (h : t.Inv) (hinfo : info.IsCarried) (hr : r ∈ t.rows)
    (hfit : t.Fits r info) :
    (t.disconnect info r).view = Function.update t.view r.callId none := by
  have hmem := fun q => mem_disconnect_iff (q := q) h hinfo hr hfit
  refine view_of_one h (fun q hne => (hmem q).trans (and_iff_left hne))
    (fun q hq hid => ?_) fun _ => rfl
  exact absurd hid ((hmem q).mp hq).2

end CallTable

/-! ## What is told on the way -/

/-- The application is told nothing. -/
def Discreet (s s' : CallManager) : Prop := s'.told = s.told

instance : Std.Refl Discreet := ⟨fun _ => rfl⟩

instance : IsTrans CallManager Discreet := ⟨fun _ _ _ h h' => Eq.trans h' h⟩

instance : Plain Discreet := .of_aside fun h => h.told

instance : Toneless Discreet where
  tones _ _ := rfl
  sound s _ _ := (s.told_logged _).trans (List.append_nil _)

instance : Timeless Discreet := { timers := fun _ _ _ _ _ => rfl }

/-- The mark of an answer tells nothing. -/
instance : Answering Discreet where
  answered env p prior := by
    have (c : CallBase) : Moves Discreet (emit (.callStateUpdated c prior .answered)) :=
      .of_modify fun s => (s.told_logged _).trans (by simp [Event.told])
    unfold notifyCallStateUpdated
    infer_instance

instance : Posting Discreet := ⟨fun _ _ => rfl⟩

instance : Flagging Discreet := .of_aside fun h => h.told

/-- Neither the table has changed nor what the application was told. -/
structure Unnoticed (s s' : CallManager) : Prop extends Quiet s s' where
  told : s'.told = s.told

theorem Unnoticed.refl (s : CallManager) : Unnoticed s s := ⟨Quiet.refl s, rfl⟩

theorem Unnoticed.trans (h : Unnoticed s s') (h' : Unnoticed s' s'') : Unnoticed s s'' :=
  ⟨h.toQuiet.trans h'.toQuiet, h'.told.trans h.told⟩

theorem unnoticed_post {α : Type} (m : Prog CallManager α) [Moves Quiet m] [Moves Discreet m]
    (s : CallManager) : Post m s fun _ s' => Unnoticed s s' :=
  ⟨Moves.rel s, Moves.rel (R := Discreet) s⟩

/-- **What was told in between turns the view before into the view after.** -/
abbrev Fed : CallManager → CallManager → Prop :=
  Feed.Exact (fun s => s.table.view) CallManager.told

theorem Unnoticed.fed (h : Unnoticed s s') : Fed s s' :=
  .of_same h.told (congrArg CallTable.view h.table)

/-- The table has not changed, and what was told was known. -/
structure Repeats (s s' : CallManager) : Prop extends Quiet s s' where
  fed : Fed s s'

theorem Unnoticed.repeats (h : Unnoticed s s') : Repeats s s' := ⟨h.toQuiet, h.fed⟩

theorem Repeats.trans (h : Repeats s s') (h' : Repeats s' s'') : Repeats s s'' :=
  ⟨h.toQuiet.trans h'.toQuiet, h.fed.trans h'.fed⟩

instance : Std.Refl Repeats := ⟨fun s => (Unnoticed.refl s).repeats⟩

instance : IsTrans CallManager Repeats := ⟨fun _ _ _ => Repeats.trans⟩

/-- What is told of a call that is in a state. -/
def tellState (next : TelCallState) : Option TelCallState :=
  if next = .disconnected then none else some next

/-! ### The announcement of a state -/

theorem setTelCallState_state (c : CallBase) (now : Int) (next : TelCallState) :
    (c.setTelCallState now next).2.callState = next ∧
      (c.setTelCallState now next).2.callId = c.callId := by
  unfold CallBase.setTelCallState CallBase.stateChangesTo
  split
  · next hsame => exact ⟨hsame.2.1, rfl⟩
  cases next <;> refine ⟨?_, ?_⟩
  all_goals
    simp only [CallBase.stateChangesToActive, CallBase.stateChangesToHolding,
      CallBase.stateChangesToDisconnected, CallBase.stateChangesToDisconnecting,
      CallBase.stateChangesToDialing, CallBase.stateChangesToIncoming,
      CallBase.stateChangesToWaiting, CallBase.stateChangesToAlerting]
  all_goals
    repeat' split
    all_goals rfl

/-- Whoever is set to the state `next`, the object `p` keeps its id, and that state if it is in
it. -/
structure Rewrites (p : Ref) (next : TelCallState) (s s' : CallManager) : Prop where
  told : s'.told = s.told
  callId : (s'.call p).callId = (s.call p).callId
  callState : (s.call p).callState = next → (s'.call p).callState = next

instance (p : Ref) (next : TelCallState) : Std.Refl (Rewrites p next) := ⟨fun _ => ⟨rfl, rfl, id⟩⟩

instance (p : Ref) (next : TelCallState) : IsTrans CallManager (Rewrites p next) :=
  ⟨fun _ _ _ h h' => ⟨h'.told.trans h.told, h'.callId.trans h.callId,
    fun hs => h'.callState (h.callState hs)⟩⟩

instance (q : Ref) (next : TelCallState) : Moves (Rewrites p next)
    (setTelCallState env q next) := by
  refine ⟨fun s => ?_⟩
  have hset := setTelCallState_state (s.call q) (env.time s.log) next
  show Rewrites p next s (s.updateCall q fun c => (c.setTelCallState (env.time s.log) next).2)
  by_cases hq : p = q
  · subst hq
    refine ⟨rfl, ?_, fun _ => ?_⟩
    · rw [call_updateCall_self]
      exact hset.2
    · rw [call_updateCall_self]
      exact hset.1
  · have hcall : (s.updateCall q fun c => (c.setTelCallState (env.time s.log) next).2).call p =
        s.call p := by simp [CallManager.call, CallManager.updateCall, hq]
    exact ⟨rfl, by rw [hcall], fun hs => by rw [hcall, hs]⟩

instance (callId : Int) (next : TelCallState) :
    Moves (Rewrites p next) (updateOneCallObjectByCallId env callId next) := by
  have (q : Ref) : Moves (Rewrites p next) (getCall q) := inferInstanceAs (Moves _ (Prog.gets _))
  refine ⟨fun s => ?_⟩
  unfold updateOneCallObjectByCallId
  exact Moves.rel s

/-- The broadcast of `UpdateCallState` tells the new state. -/
theorem updateCallState_told (env : Env) (p : Ref) {next : TelCallState} (hn : next ≠ .answered)
    (s : CallManager) :
    Post (updateCallState env p next) s fun ret s' =>
      ret = .success ∧ s'.told = s.told ++ [((s.call p).callId, tellState next)] := by
  refine Post.bind_gets ?_
  have hset := setTelCallState_state (s.call p) (env.time s.log) next
  refine Post.bind (setTelCallState_post env p next s) ?_
  rintro ret s₁ ⟨hret, hs₁⟩
  have hcall₁ : s₁.call p = ((s.call p).setTelCallState (env.time s.log) next).2 := by
    rw [hs₁, call_updateCall_self]
  have htold₁ : s₁.told = s.told := by rw [hs₁]; rfl
  refine Post.bind (Post.of_moves (R := Rewrites p next) _ s₁) fun _ s₂
    (h₂ : Rewrites p next s₁ s₂) => ?_
  have hid : (s₂.call p).callId = (s.call p).callId := by rw [h₂.callId, hcall₁, hset.2]
  have hstate : (s₂.call p).callState = next := h₂.callState (by rw [hcall₁, hset.1])
  have hret' : ¬(ret ≠ .success ∧ ret ≠ .callErrNotNewState) := by
    rcases hret with h | h <;> simp [h]
  rw [if_neg hret']
  refine Post.bind (Q := fun _ s' => s'.told = s.told ++ [((s.call p).callId, tellState next)]) ?_
    fun _ _ h => Post.pure ⟨rfl, h⟩
  refine Post.bind_gets (Post.bind_modify ?_)
  refine Post.mono (Post.of_moves (R := Discreet) _ _) fun _ s₃ (h₃ : s₃.told = _) => ?_
  have hnews : (Event.callStateUpdated (s₂.call p) (s.call p).callState next).told =
      some ((s.call p).callId, tellState next) := by
    rw [Event.told, hstate, if_neg (by simp [hn]), CallBase.news, hid, hstate]
    rfl
  rw [h₃, CallManager.told_logged, hnews, h₂.told, htold₁]
  rfl

/-- A call of the table announces its state. -/
theorem announce_fed (env : Env) (h : s.table.Inv) {q : Ref} (hq : s.row q ∈ s.table.rows)
    {next : TelCallState} (hn : next.IsLive) :
    Post (updateCallState env q next) s fun ret s' =>
      ret = .success ∧ Announced s s' q next ∧ Fed s s' := by
  have hlive : next ≠ .answered ∧ next ≠ .disconnected := by
    rcases hn with hn | hn | hn | hn | hn | hn | hn <;> subst hn <;> decide
  refine Post.mono (Post.and (announce_post env (.inl hn) (h.holds hq))
    (updateCallState_told env q hlive.1 s)) ?_
  rintro ret s' ⟨⟨hret, ha⟩, -, htold⟩
  refine ⟨hret, ha, .of_one htold ?_⟩
  show s'.table.view = _
  rw [ha.table, CallTable.view_announce h hq, tellState, if_neg hlive.2]
  rfl

/-- A listed call that announces the state it is in says nothing new. -/
theorem announceAgain_fed (env : Env) (h : s.table.Inv) (hp : p ∈ s.callObjectPtrList) :
    Post (updateCallState env p (s.call p).callState) s fun _ s' => Repeats s s' := by
  have hmem := s.row_mem_table hp
  have hlive : (s.call p).callState.IsLive := (h.ok _ hmem).live
  have hstate : (s.call p).callState ≠ .answered ∧ (s.call p).callState ≠ .disconnected := by
    rcases hlive with hn | hn | hn | hn | hn | hn | hn <;> rw [hn] <;> decide
  refine Post.mono (Post.and (updateCallState_same env h hp) (updateCallState_told env p hstate.1 s)) ?_
  rintro _ s' ⟨hq, -, htold⟩
  refine ⟨hq, .of_old htold (congrArg CallTable.view hq.table) ?_⟩
  rw [tellState, if_neg hstate.2]
  exact CallTable.view_eq_some h hmem

/-! ## The handlers of reports -/

/-- A refresh that does not lose its call tells nothing, and shows nothing. -/
theorem refreshed_fed (env : Env) (h : s.table.Inv) (hinfo : info.IsCarried)
    (hp : p ∈ s.callObjectPtrList) (hfit : s.table.Fits (s.row p) info)
    (hkept : (s.row p).callType = info.callType ∨ s.table.Room (s.row p)) :
    Post (refreshCallIfNecessary env p info) s fun q s' =>
      Refreshed s s' p q info ∧ s'.row q ∈ s'.table.rows ∧ Fed s s' := by
  refine Post.mono (Post.and (refreshed_post env h hinfo hp hfit)
    (Post.of_moves (R := Discreet) _ s)) ?_
  rintro q s' ⟨hr, htold⟩
  have hmem := s.row_mem_table hp
  refine ⟨hr, ?_, .of_same htold ?_⟩
  · rw [hr.table, hr.row]
    exact CallTable.mem_refresh h hmem hkept
  · show s'.table.view = s.table.view
    rw [hr.table, CallTable.view_refresh h hinfo hmem hkept]

/-- `UpdateDialingCallInfo`. -/
theorem updateDialingCallInfo_fed (env : Env) (h : s.table.Inv) (htold : s.table.Told)
    (hinfo : info.IsCarried) (hst : info.state = .dialing)
    (hdialing : s.table.callAt info.index info.accountId = none →
      ∀ r, s.table.pending = some r → r.callState = .dialing)
    (hkept : s.table.LosesNothing info) :
    Post (updateDialingCallInfo env info) s fun _ s' => Fed s s' := by
  refine Post.mono (Post.and (updateDialingCallInfo_computes env h hinfo hst)
    (Post.of_moves (R := Discreet) _ s)) ?_
  rintro ret s' ⟨⟨hs', -⟩, hd⟩
  refine .of_same hd ?_
  show s'.table.view = s.table.view
  rw [show s'.table = _ from congrArg Prod.snd hs']
  exact CallTable.view_updateDialing h htold hinfo hdialing hkept

/-- What is told of a dialed call when it is added. -/
theorem addDialingCall_told (env : Env) (h : s.table.Inv) (hinfo : info.IsCarried) :
    Post (addDialingCall env info) s fun ret s' =>
      s'.told = s.told ++
        if ret = .success then [(s.table.lastCallId + 1, some .dialing)] else [] := by
  refine Post.bind (Post.and (createNewCall_post env h hinfo _)
    (Post.of_moves (R := Discreet) _ s)) ?_
  rintro _ s₁ ⟨⟨rfl, h₁⟩, hd₁⟩
  dsimp only
  set p := s.calls.next
  refine Post.bind (Post.and (addOneCallObject_post s₁ p) (Post.of_moves (R := Discreet) _ s₁)) ?_
  rintro ret s₂ ⟨⟨-, -, hc₂, -, -⟩, hd₂⟩
  have htold₂ : s₂.told = s.told := Eq.trans hd₂ hd₁
  have hid₂ : (s₂.call p).callId = s.table.lastCallId + 1 := by
    have hcall : s₂.call p = s₁.call p := by simp only [CallManager.call, hc₂]
    rw [hcall]
    exact congrArg Row.callId h₁.row
  refine Post.ite (fun hne => Post.pure (by simp [hne, htold₂])) fun _ => ?_
  have hphone : Moves Quiet (modifyCall p fun c => { c with phoneOrWatch := 1 }) :=
    quiet_modifyCall fun _ => rfl
  have hphone' : Moves Discreet (modifyCall p fun c => { c with phoneOrWatch := 1 }) :=
    bare_modifyCall fun _ => ⟨rfl, rfl, id⟩
  refine Post.bind (unnoticed_post _ s₂) fun _ s₃ hu₃ => ?_
  refine Post.bind (unnoticed_post _ s₃) fun _ s₄ hu₄ => ?_
  refine Post.bind (unnoticed_post _ s₄) fun _ s₅ hu₅ => ?_
  have hu : Unnoticed s₂ s₅ := (hu₃.trans hu₄).trans hu₅
  refine Post.bind (Q := fun ret s₆ => ret = .success ∧ s₆.told = s₅.told ∧
    (s₆.call p).callId = (s₅.call p).callId) ⟨rfl, rfl, ?_⟩ ?_
  · show ((s₅.updateCall p fun c => { c with callRunningState := .connecting }).call p).callId = _
    rw [call_updateCall_self]
  rintro _ s₆ ⟨rfl, htold₆, hid₆⟩
  rw [if_neg (by decide)]
  refine Post.bind (unnoticed_post _ s₆) fun _ s₇ hu₇ => ?_
  have hid₇ : (s₇.call p).callId = s.table.lastCallId + 1 := by
    have hid₅ : (s₅.call p).callId = (s₂.call p).callId := congrArg Row.callId (hu.row p)
    have hid : (s₇.call p).callId = (s₆.call p).callId := congrArg Row.callId (hu₇.row p)
    rw [hid, hid₆, hid₅, hid₂]
  refine Post.mono (updateCallState_told env p (by decide) s₇) ?_
  rintro ret s₈ ⟨rfl, htold₈⟩
  rw [htold₈, hu₇.told, htold₆, hu.told, htold₂, hid₇, if_pos rfl]
  rfl

/-- A call that is added is told of at once. -/
theorem addDialingCall_fed (env : Env) (h : s.table.Inv) (hinfo : info.IsCarried)
    (hst : info.state = .dialing) :
    Post (addDialingCall env info) s fun _ s' => Fed s s' := by
  refine Post.mono (Post.and (addDialingCall_post env h hinfo hst) (addDialingCall_told env h hinfo)) ?_
  rintro ret s' ⟨⟨hs', -, -⟩, htold⟩
  have ht : s'.table = (s.table.addDialing info).2 := congrArg Prod.snd hs'
  have hret : ret = (s.table.addDialing info).1 := congrArg Prod.fst hs'
  unfold CallTable.addDialing at ht hret
  rw [dialing_state hst] at ht hret
  by_cases hadm : s.table.created.admission (s.table.newRow info .outgoing) = .success
  · rw [if_pos hadm] at ht hret
    rw [if_pos hret] at htold
    refine .of_one htold ?_
    show s'.table.view = _
    rw [ht, ← hst]
    exact CallTable.view_insertNew h hadm
  · rw [if_neg hadm] at ht hret
    rw [if_neg (by rw [hret]; exact hadm), List.append_nil] at htold
    refine .of_same htold ?_
    show s'.table.view = _
    rw [ht]
    exact CallTable.view_of_rows rfl

/-- `DialingHandle`. -/
theorem dialingHandle_fed (env : Env) (h : s.table.Inv) (htold : s.table.Told)
    (hinfo : info.IsCarried) (hst : info.state = .dialing) (hadopt : s.table.AdoptsDialing info)
    (hkept : 0 < info.index → s.table.LosesNothing info) :
    Post (dialingHandle env info) s fun _ s' => Fed s s' := by
  refine Post.bind_gets (Post.ite (fun hupdate => ?_) fun _ => addDialingCall_fed env h hinfo hst)
  simp only [Bool.and_eq_true, decide_eq_true_eq, updateDialingHandle, Bool.or_eq_true,
    initIndex] at hupdate
  obtain ⟨hpos, hknown⟩ := hupdate
  refine updateDialingCallInfo_fed env h htold hinfo hst (fun hnone => ?_) (hkept hpos)
  -- nobody is at the report's place, so a call of its slot is still without one
  have hpending : s.table.Occupied info.accountId 0 := by
    rw [← Option.isSome_map (f := s.row), ← Option.isSome_map (f := s.row),
      callAt_eq h, callAt_eq h,
      hnone] at hknown
    exact CallTable.callAt_isSome.mp (hknown.resolve_right (by simp))
  exact hadopt hpos (CallTable.callAt_eq_none_iff.mp hnone) hpending

/-- The call a report is about. -/
theorem reportedCall_fed (env : Env) (h : s.table.Inv) (htold : s.table.Told)
    (hinfo : info.IsCarried) (hadopt : s.table.AdoptsDialing info) :
    Post (reportedCall env info) s fun _ s' => Fed s s' := by
  refine Post.bind_gets ?_
  have hat := callAt_eq h info.index info.accountId
  cases hknown : getOneCallObjectByIndexSlotIdAndCallType s info.index info.accountId with
  | some p => exact Post.pure (refl_of Fed s)
  | none =>
    rw [hknown] at hat
    refine Post.bind_gets ?_
    cases getOneCallObjectByIndex s initIndex with
    | none => exact Post.pure (refl_of Fed s)
    | some q =>
      refine Post.bind (dialingHandle_fed env h htold (hinfo.withState .dialing) rfl hadopt ?_)
        fun _ s₁ h₁ => Post.gets h₁
      intro _ r hr
      rw [show s.table.callAt info.index info.accountId = some r from hr] at hat
      cases hat

/-- Each member of a conference announces the state it is in. -/
theorem setConferenceCall_repeats (env : Env) {calls : List Ref} (h : s.table.Inv)
    (hcalls : ∀ p ∈ calls, p ∈ s.callObjectPtrList) :
    Post (setConferenceCall env calls) s fun _ s' => Repeats s s' := by
  refine Post.forEach
    (P := fun s' => s'.table.Inv ∧ ∀ p ∈ calls, p ∈ s'.callObjectPtrList)
    (fun hP hr => ⟨hr.table ▸ hP.1, hr.list ▸ hP.2⟩) (fun p hp s' hP => ?_) ⟨h, hcalls⟩
  refine Post.bind (unnoticed_post _ s') fun _ s₁ hu₁ => ?_
  refine Post.bind_gets (Post.when (fun _ => ?_) fun _ => hu₁.repeats)
  refine Post.bind (unnoticed_post _ s₁) fun _ s₂ hu₂ => ?_
  have hu : Unnoticed s' s₂ := hu₁.trans hu₂
  refine Post.bind_gets (Post.ignore (Post.mono ?_ fun _ _ => hu.repeats.trans))
  exact announceAgain_fed env (hu.table ▸ hP.1) (hu.list ▸ hP.2 p hp)

/-- What the handlers of `HOLDING`, `ALERTING` and `DISCONNECTING` do with their call. -/
theorem moveCall_fed (env : Env) (h : s.table.Inv) (hinfo : info.IsCarried)
    (hp : p ∈ s.callObjectPtrList) (hfit : s.table.Fits (s.row p) info)
    (hkept : (s.row p).callType = info.callType ∨ s.table.Room (s.row p))
    {next : TelCallState} (hn : next.IsLive) (m : Ref → Prog CallManager Unit)
    [∀ q, Moves Quiet (m q)] [∀ q, Moves Discreet (m q)] :
    Post (do
      let p ← refreshCallIfNecessary env p info
      m p
      updateCallState env p next) s fun _ s' => Fed s s' := by
  refine Post.bind (refreshed_fed env h hinfo hp hfit hkept) ?_
  rintro q s₁ ⟨h₁, hmem₁, hfed₁⟩
  refine Post.bind (unnoticed_post _ s₁) fun _ s₂ hu₂ => ?_
  have hmem₂ : s₂.row q ∈ s₂.table.rows := by rw [hu₂.table, hu₂.row]; exact hmem₁
  refine Post.mono (announce_fed env (hu₂.table ▸ h₁.inv) hmem₂ hn) ?_
  rintro _ s₃ ⟨-, -, hfed₃⟩
  exact (hfed₁.trans hu₂.fed).trans hfed₃

/-- A report finds its call, and a refresh of it loses nothing. -/
theorem reportedCall_kept {s₁ : CallManager} (h : s.table.Inv)
    (hs₁ : (some (s₁.row p), s₁.table) = s.table.reported info)
    (hkept : ∀ r, s.table.callAt info.index info.accountId = some r →
      r.callType = info.callType ∨ s.table.Room r) :
    (s₁.row p).callType = info.callType ∨ s₁.table.Room (s₁.row p) := by
  rcases CallTable.reported_some h (r := s₁.row p) (by rw [← hs₁]) with ⟨hat, htable⟩ | htype
  · rw [← hs₁] at htable
    rw [show s₁.table = s.table from htable]
    exact hkept _ hat
  · exact .inl htype

/-- `ActiveHandle`. -/
theorem activeHandle_fed (env : Env) (h : s.table.Inv) (htold : s.table.Told)
    (hinfo : info.IsCarried) (hadopt : s.table.AdoptsDialing info)
    (hkept : s.table.LosesNothing info) :
    Post (activeHandle env info) s fun _ s' => Fed s s' := by
  refine Post.bind (Post.and (reportedCall_post env h hinfo)
    (reportedCall_fed env h htold hinfo hadopt)) ?_
  rintro found s₁ ⟨⟨hs₁, h₁, -, hmem⟩, hfed₁⟩
  have hat : ∀ r, (s.table.reported info).1 = some r → _ := fun r => CallTable.reported_eq_some
  cases found with
  | none => exact Post.pure hfed₁
  | some p =>
    have hroom := reportedCall_kept h hs₁ hkept
    rw [← hs₁] at hat
    refine Post.bind (unnoticed_post _ s₁) fun _ s₂ hu₂ => ?_
    have h₂ : s₂.table.Inv := hu₂.table ▸ h₁
    have hfit : s₂.table.Fits (s₂.row p) info := by
      rw [hu₂.table, hu₂.row]
      exact h₁.fits (hat _ rfl)
    have hroom₂ : (s₂.row p).callType = info.callType ∨ s₂.table.Room (s₂.row p) := by
      rw [hu₂.table, hu₂.row]
      exact hroom
    refine Post.bind (refreshed_fed env h₂ hinfo (hu₂.list ▸ hmem p rfl) hfit hroom₂) ?_
    rintro q s₃ ⟨h₃, hmem₃, hfed₃⟩
    refine Post.bind (unnoticed_post _ s₃) fun _ s₄ hu₄ => ?_
    have h₄ : s₄.table.Inv := hu₄.table ▸ h₃.inv
    refine Post.bind_gets (Post.bind (Q := fun _ s₅ => Repeats s₄ s₅) ?_ fun _ s₅ hr₅ => ?_)
    · refine Post.when (fun _ => ?_) fun _ => refl_of Repeats s₄
      exact setConferenceCall_repeats env h₄ fun p hp => mem_of_conferenceCallList hp
    refine Post.bind (unnoticed_post _ s₅) fun _ s₆ hu₆ => ?_
    have hr : Repeats s₃ s₆ := (hu₄.repeats.trans hr₅).trans hu₆.repeats
    have hmem₆ : s₆.row q ∈ s₆.table.rows := by rw [hr.table, hr.row]; exact hmem₃
    refine Post.bind (announce_fed env (hr.table ▸ h₃.inv) hmem₆ (.inl rfl)) ?_
    rintro _ s₇ ⟨rfl, -, hfed₇⟩
    have hswitch : ∀ h, Moves Discreet (modifyCall h fun c => { c with canSwitchCallState := true }) :=
      fun h => bare_modifyCall fun _ => ⟨rfl, rfl, id⟩
    have hswitch' : ∀ h, Moves Quiet (modifyCall h fun c => { c with canSwitchCallState := true }) :=
      fun h => quiet_modifyCall fun _ => rfl
    rw [if_neg (by decide)]
    refine Post.bind_gets (Post.bind (unnoticed_post _ s₇) fun _ s₈ hu₈ => Post.pure ?_)
    exact ((((hfed₁.trans hu₂.fed).trans hfed₃).trans hr.fed).trans hfed₇).trans hu₈.fed

/-- What `HoldingHandle` and `DisconnectingHandle` do. -/
theorem moveKnown_fed (env : Env) (h : s.table.Inv) (hinfo : info.IsCarried)
    (hkept : s.table.LosesNothing info) {next : TelCallState} (hn : next.IsLive)
    (m : Ref → Prog CallManager Unit) [∀ q, Moves Quiet (m q)] [∀ q, Moves Discreet (m q)] :
    Post (do
      let found ← Prog.gets fun s =>
        getOneCallObjectByIndexSlotIdAndCallType s info.index info.accountId
      match found with
      | none => pure .errLocalPtrNull
      | some p => do
        let p ← refreshCallIfNecessary env p info
        m p
        updateCallState env p next) s fun _ s' => Fed s s' := by
  refine Post.bind_gets ?_
  have hat := callAt_eq h info.index info.accountId
  cases hknown : getOneCallObjectByIndexSlotIdAndCallType s info.index info.accountId with
  | none => exact Post.pure (refl_of Fed s)
  | some p =>
    rw [hknown] at hat
    exact moveCall_fed env h hinfo (mem_of_callAt hknown) (h.fits hat.symm) (hkept _ hat.symm) hn m

theorem holdingHandle_fed (env : Env) (h : s.table.Inv) (hinfo : info.IsCarried)
    (hkept : s.table.LosesNothing info) :
    Post (holdingHandle env info) s fun _ s' => Fed s s' :=
  moveKnown_fed env h hinfo hkept (by decide) fun p =>
    Prog.when (info.mpty = 1) (holdConference env p).ignore

theorem disconnectingHandle_fed (env : Env) (h : s.table.Inv) (hinfo : info.IsCarried)
    (hkept : s.table.LosesNothing info) :
    Post (disconnectingHandle env info) s fun _ s' => Fed s s' :=
  moveKnown_fed env h hinfo hkept (by decide) setOriginalCallTypeForDisconnectState

/-- `AlertHandle`. -/
theorem alertHandle_fed (env : Env) (h : s.table.Inv) (htold : s.table.Told)
    (hinfo : info.IsCarried) (hadopt : s.table.AdoptsDialing info)
    (hkept : ∀ r, s.table.callAt info.index info.accountId = some r →
      r.callState = .disconnecting ∨ r.callType = info.callType ∨ s.table.Room r) :
    Post (alertHandle env info) s fun _ s' => Fed s s' := by
  refine Post.bind (Post.and (reportedCall_post env h hinfo)
    (reportedCall_fed env h htold hinfo hadopt)) ?_
  rintro found s₁ ⟨⟨hs₁, h₁, -, hmem⟩, hfed₁⟩
  have hat : ∀ r, (s.table.reported info).1 = some r → _ := fun r => CallTable.reported_eq_some
  cases found with
  | none => exact Post.pure hfed₁
  | some p =>
    have hsome := CallTable.reported_some h (r := s₁.row p) (by rw [← hs₁]; rfl)
    rw [← hs₁] at hat hsome
    refine Post.bind (unnoticed_post _ s₁) fun _ s₂ hu₂ => ?_
    have h₂ : s₂.table.Inv := hu₂.table ▸ h₁
    refine Post.bind_gets (Post.ite (fun _ => Post.pure (hfed₁.trans hu₂.fed)) fun hdis => ?_)
    have hfit : s₂.table.Fits (s₂.row p) info := by
      rw [hu₂.table, hu₂.row]
      exact h₁.fits (hat _ rfl)
    have hroom : (s₂.row p).callType = info.callType ∨ s₂.table.Room (s₂.row p) := by
      rcases hsome with ⟨hwas, htable⟩ | htype
      · rw [hu₂.table, show s₁.table = s.table from htable, hu₂.row]
        refine (hkept _ hwas).resolve_left fun hstate => hdis ?_
        exact (congrArg Row.callState (hu₂.row p)).trans hstate
      · exact .inl (by rw [hu₂.row]; exact htype)
    refine Post.mono (moveCall_fed env h₂ hinfo (hu₂.list ▸ hmem p rfl) hfit hroom
      (by decide) fun _ => pure ()) fun _ _ hfed₃ => ?_
    exact (hfed₁.trans hu₂.fed).trans hfed₃

/-! ### Calls that end -/

/-- A listed object is told of again. -/
theorem leftOneConferenceCall_repeats (env : Env) {calls : List Ref} (h : s.table.Inv)
    (hcalls : ∀ p ∈ calls, p ∈ s.callObjectPtrList) :
    Post (Prog.forSome (leftOneConferenceCall calls) fun left => do
      let c ← getCall left
      Prog.when (c.conferenceState ≠ .idle) do
        setTelConferenceState left .idle
        let c ← getCall left
        (updateCallState env left c.callState).ignore) s fun _ s' => Repeats s s' := by
  match calls with
  | [] => exact refl_of Repeats s
  | [left] =>
    refine Post.bind_gets (Post.when (fun _ => ?_) fun _ => refl_of Repeats s)
    refine Post.bind (unnoticed_post _ s) fun _ s₁ hu₁ => ?_
    refine Post.bind_gets (Post.ignore (Post.mono ?_ fun _ _ => hu₁.repeats.trans))
    exact announceAgain_fed env (hu₁.table ▸ h) (hu₁.list ▸ hcalls left List.mem_cons_self)
  | _ :: _ :: _ => exact refl_of Repeats s

instance (callIdList : List Int) (previousState : CallRunningState) (priorState : TelCallState) :
    Moves Discreet (handleHoldCallOrAutoAnswerCall env p callIdList previousState priorState) := by
  unfold handleHoldCallOrAutoAnswerCall; infer_instance

/-- A call that ends is told to be gone, whether its last refresh lost it or not. -/
theorem disconnectCall_fed (env : Env) (h : s.table.Inv) (hinfo : info.IsCarried)
    (hp : p ∈ s.callObjectPtrList) (hfit : s.table.Fits (s.row p) info) :
    Post (disconnectCall env p info) s fun _ s' => Fed s s' := by
  have hmem := s.row_mem_table hp
  refine Post.bind (Post.and (refreshed_post env h hinfo hp hfit)
    (Post.of_moves (R := Discreet) _ s)) ?_
  rintro q s₁ ⟨h₁, hd₁⟩
  refine Post.bind (unnoticed_post _ s₁) fun _ s₂ hu₂ => ?_
  refine Post.bind (unnoticed_post _ s₂) fun _ s₃ hu₃ => ?_
  refine Post.bind (unnoticed_post _ s₃) fun _ s₄ hu₄ => ?_
  refine Post.bind (unnoticed_post _ s₄) fun _ s₅ hu₅ => ?_
  refine Post.bind_gets ?_
  refine Post.bind (unnoticed_post _ s₅) fun _ s₆ hu₆ => ?_
  refine Post.bind_gets ?_
  have hu : Unnoticed s₁ s₆ := (((hu₂.trans hu₃).trans hu₄).trans hu₅).trans hu₆
  have hholds : s₆.table.Holds (s₆.row q) := by rw [hu.table, hu.row]; exact h₁.holds
  have hid : (s₆.call q).callId = (s.row p).callId := by
    have hrow : s₆.row q = (s.table.refresh (s.row p) info).1 := by rw [hu.row, h₁.row]
    exact (congrArg Row.callId hrow).trans (CallTable.refresh_callId h hmem info)
  refine Post.bind (Post.and (announce_post env (.inr rfl) hholds)
    (updateCallState_told env q (by decide) s₆)) ?_
  rintro _ s₇ ⟨⟨-, ha⟩, -, htold₇⟩
  refine Post.bind (Post.and (handleHoldCallOrAutoAnswerCall_post env s₇ q _ _ _)
    (Post.of_moves (R := Discreet) _ s₇)) ?_
  rintro _ s₈ ⟨⟨ht₈, -⟩, hd₈⟩
  have ht : s₈.table = s.table.disconnect info (s.row p) := by
    rw [ht₈, ha.table, ha.row, hu.table, hu.row, h₁.table, h₁.row]
    rfl
  have htold : s₈.told = s.told ++ [((s.row p).callId, none)] := by
    have hd₁ : s₁.told = s.told := hd₁
    rw [show s₈.told = s₇.told from hd₈, htold₇, hu.told, hd₁, hid]
    rfl
  have hfed : Fed s s₈ := by
    refine .of_one htold ?_
    show s₈.table.view = _
    rw [ht]
    exact CallTable.view_disconnect h hinfo hmem hfit
  have h₈ : s₈.table.Inv := ht ▸ h.disconnect hinfo hmem hfit
  exact Post.bind_gets (Post.bind (leftOneConferenceCall_repeats env h₈
    fun p hp => mem_of_conferenceCallList hp) fun _ s₉ hr₉ => Post.pure (hfed.trans hr₉.fed))

/-- `DisconnectedHandle`. -/
theorem disconnectedHandle_fed (env : Env) (h : s.table.Inv) (hinfo : info.IsCarried)
    (hreported : Post (reportedCall env info) s fun _ s' => Fed s s') :
    Post (disconnectedHandle env info) s fun _ s' => Fed s s' := by
  refine Post.bind (Post.and (reportedCall_post env h hinfo) hreported) ?_
  rintro found s₁ ⟨⟨hs₁, h₁, -, hmem⟩, hfed₁⟩
  have hat : ∀ r, (s.table.reported info).1 = some r → _ := fun r => CallTable.reported_eq_some
  cases found with
  | none => exact Post.pure hfed₁
  | some p =>
    rw [← hs₁] at hat
    exact Post.mono (disconnectCall_fed env h₁ hinfo (hmem p rfl) (h₁.fits (hat _ rfl)))
      fun _ _ hfed₂ => hfed₁.trans hfed₂

/-- `DealFailDial`, for a call of the table: the call is found at its own place. -/
theorem dealFailDial_fed (env : Env) (h : s.table.Inv) (hp : p ∈ s.callObjectPtrList) :
    Post (dealFailDial env p) s fun _ s' => Fed s s' := by
  refine Post.bind_gets (Post.ite (fun _ => Post.pure (refl_of Fed s)) fun _ => ?_)
  have hmem := s.row_mem_table hp
  refine disconnectedHandle_fed env h (h.disconnectedInfo_isCarried hmem) (Post.bind_gets ?_)
  have hsome : (getOneCallObjectByIndexSlotIdAndCallType s (s.call p).index (s.call p).slotId).isSome := by
    rw [← Option.isSome_map (f := s.row), callAt_eq h]
    exact CallTable.callAt_isSome.mpr ⟨s.row p, hmem, rfl, rfl⟩
  obtain ⟨q, hq⟩ := Option.isSome_iff_exists.mp hsome
  have hknown : getOneCallObjectByIndexSlotIdAndCallType s (s.call p).disconnectedInfo.index
      (s.call p).disconnectedInfo.accountId = some q := hq
  rw [hknown]
  exact Post.pure (refl_of Fed s)

/-- The call found, if there is one, fails. -/
theorem failFound_fed (env : Env) (h : s.table.Inv) {found : Option Ref}
    (hfound : ∀ p, found = some p → p ∈ s.callObjectPtrList) :
    Post (Prog.forSome found fun p => (dealFailDial env p).ignore) s fun _ s' => Fed s s' := by
  cases found with
  | none => exact refl_of Fed s
  | some p => exact Post.ignore (dealFailDial_fed env h (hfound p rfl))

/-! ### Incoming calls -/

/-- The pending dial fails first, and is told to be gone. -/
theorem failPending_fed (env : Env) (h : s.table.Inv) {k : Prog CallManager (RetCode × Bool)}
    (hk : ∀ s', s'.table = s.table.failPending → Post k s' fun _ s'' => Fed s' s'') :
    Post (do
      let initCall ← Prog.gets fun s => getOneCallObjectByIndex s initIndex
      Prog.forSome initCall fun p => (dealFailDial env p).ignore
      k) s fun _ s' => Fed s s' := by
  refine Post.bind_gets ?_
  have hpend := pending_eq h
  have hlisted : ∀ p, getOneCallObjectByIndex s initIndex = some p → p ∈ s.callObjectPtrList :=
    fun p hp => mem_of_findCall hp
  have hfail := failFound_fed env h hlisted
  have htable : Post (Prog.forSome (getOneCallObjectByIndex s initIndex) fun p =>
      (dealFailDial env p).ignore) s fun _ s₁ => s₁.table = s.table.failPending := by
    unfold CallTable.failPending
    rw [← hpend]
    cases hp : getOneCallObjectByIndex s initIndex with
    | none => rfl
    | some p => exact Post.ignore (Post.mono (dealFailDial_computes env h (mem_of_findCall hp))
        fun _ _ hs₁ => congrArg Prod.snd hs₁.1)
  refine Post.bind (Post.and hfail htable) ?_
  rintro _ s₁ ⟨hfed₁, ht₁⟩
  exact Post.mono (hk s₁ ht₁) fun _ _ hfed₂ => hfed₁.trans hfed₂

/-- `RefreshOldCall`. -/
theorem refreshOldCall_fed (env : Env) (h : s.table.Inv) (hinfo : info.IsCarried)
    (hst : info.state.IsLive) (hkept : s.table.failPending.LosesNothing info) :
    Post (refreshOldCall env info) s fun _ s' => Fed s s' := by
  refine failPending_fed env h fun s₁ ht₁ => ?_
  have h₁ : s₁.table.Inv := ht₁ ▸ h.failPending
  rw [← ht₁] at hkept
  refine Post.bind_gets ?_
  have hat := callAt_eq h₁ info.index info.accountId
  cases hknown : getOneCallObjectByIndexSlotIdAndCallType s₁ info.index info.accountId with
  | none => exact Post.pure (refl_of Fed s₁)
  | some p =>
    rw [hknown] at hat
    refine Post.bind_gets (Post.ite (fun _ => ?_) fun _ => Post.pure (refl_of Fed s₁))
    refine Post.bind (refreshed_fed env h₁ hinfo (mem_of_callAt hknown) (h₁.fits hat.symm)
      (hkept _ hat.symm)) ?_
    rintro q s₂ ⟨h₂, hmem₂, hfed₂⟩
    refine Post.ite (fun _ => ?_) fun _ => Post.pure hfed₂
    refine Post.bind (announce_fed env h₂.inv hmem₂ hst) ?_
    rintro _ s₃ ⟨-, -, hfed₃⟩
    exact Post.pure (hfed₂.trans hfed₃)

/-- What is told of an incoming call when it is added. -/
theorem addIncomingCall_told (env : Env) (h : s.table.Inv) (hinfo : info.IsCarried)
    (hst : info.state.IsLive) :
    Post (do
      let created ← createNewCall env info .incoming
      match created with
      | none => pure .callErrCallObjectIsNull
      | some p => do
        let ret ← addOneCallObject p
        if ret ≠ .success then do
          let _ ← handleRejectCall env p
          pure ret
        else do
          notifyNewCallCreated p
          finalizeIncomingState env p info.state) s fun _ s' =>
      s'.told = s.told ++
        if s.table.created.admission (s.table.newRow info .incoming) = .success then
          [(s.table.lastCallId + 1, some info.state)]
        else [] := by
  have hstate : info.state ≠ .answered ∧ info.state ≠ .disconnected := by
    rcases hst with hn | hn | hn | hn | hn | hn | hn <;> rw [hn] <;> decide
  refine Post.bind (Post.and (createNewCall_post env h hinfo _)
    (Post.of_moves (R := Discreet) _ s)) ?_
  rintro _ s₁ ⟨⟨rfl, h₁⟩, hd₁⟩
  dsimp only
  set p := s.calls.next
  refine Post.bind (Post.and (addOneCallObject_post s₁ p) (Post.of_moves (R := Discreet) _ s₁)) ?_
  rintro ret s₂ ⟨⟨hret, -, hc₂, -, -⟩, hd₂⟩
  rw [h₁.row, h₁.table] at hret
  have htold₂ : s₂.told = s.told := Eq.trans hd₂ hd₁
  have hid₂ : (s₂.call p).callId = s.table.lastCallId + 1 := by
    have hcall : s₂.call p = s₁.call p := by simp only [CallManager.call, hc₂]
    rw [hcall]
    exact congrArg Row.callId h₁.row
  rw [← hret]
  refine Post.ite (fun hne => ?_) fun heq => ?_
  · refine Post.bind (Post.of_moves (R := Discreet) _ s₂) fun _ s₃ (hd₃ : s₃.told = s₂.told) => ?_
    exact Post.pure (by rw [if_neg hne, List.append_nil, hd₃, htold₂])
  · rw [if_pos (not_not.mp heq)]
    refine Post.bind (unnoticed_post _ s₂) fun _ s₃ hu₃ => ?_
    have hid₃ : (s₃.call p).callId = s.table.lastCallId + 1 :=
      (congrArg Row.callId (hu₃.row p)).trans hid₂
    refine Post.bind (updateCallState_told env p hstate.1 s₃) ?_
    rintro _ s₄ ⟨rfl, htold₄⟩
    rw [if_neg (by decide)]
    refine Post.mono (Post.of_moves (R := Discreet) _ s₄) fun _ s₅ (hd₅ : s₅.told = s₄.told) => ?_
    rw [hd₅, htold₄, hu₃.told, htold₂, hid₃, tellState, if_neg hstate.2]

/-- `IncomingHandle`. -/
theorem incomingHandle_fed (env : Env) (h : s.table.Inv) (hinfo : info.IsCarried)
    (hst : info.state = .incoming ∨ info.state = .waiting)
    (hkept : s.table.failPending.LosesNothing info) :
    Post (incomingHandle env info) s fun _ s' => Fed s s' := by
  have hlive : info.state.IsLive := by rcases hst with hs | hs <;> rw [hs] <;> decide
  refine Post.bind (Post.and (refreshOldCall_post env h hinfo hlive)
    (refreshOldCall_fed env h hinfo hlive hkept)) ?_
  rintro ⟨code, old⟩ s₁ ⟨⟨hcode, -, hold⟩, hfed₁⟩
  refine Post.ite (fun _ => Post.pure hfed₁) fun hnew => ?_
  dsimp only at hcode hold hnew
  cases hat : s.table.failPending.callAt info.index info.accountId with
  | some r =>
    rw [hat] at hold
    exact absurd (.inl hold.1) hnew
  | none =>
    rw [hat] at hold
    have h₁ : s₁.table.Inv := hold.2 ▸ h.failPending
    refine Post.mono (Post.and (addIncomingCall_computes env h₁ hinfo hst (hold.2 ▸ hat))
      (addIncomingCall_told env h₁ hinfo hlive)) ?_
    rintro ret s₂ ⟨⟨hs₂, -⟩, htold₂⟩
    refine hfed₁.trans ?_
    have ht₂ : s₂.table = (s₁.table.addIncoming info).2 := congrArg Prod.snd hs₂
    unfold CallTable.addIncoming at ht₂
    by_cases hadm : s₁.table.created.admission (s₁.table.newRow info .incoming) = .success
    · rw [if_pos hadm] at ht₂ htold₂
      refine .of_one htold₂ ?_
      show s₂.table.view = _
      rw [ht₂]
      exact CallTable.view_insertNew h₁ hadm
    · rw [if_neg hadm] at ht₂ htold₂
      refine .of_same (htold₂.trans (List.append_nil _)) ?_
      show s₂.table.view = _
      rw [ht₂]
      exact CallTable.view_of_rows rfl

/-- **A clean report tells what it changes.** -/
theorem handleCallReportInfo_fed (env : Env) (h : s.table.Inv) (htold : s.table.Told)
    (hinfo : info.IsCarried) (hclean : s.table.Clean info) :
    Post (handleCallReportInfo env info) s fun _ s' => Fed s s' := by
  unfold CallTable.Clean at hclean
  unfold handleCallReportInfo
  cases hst : info.state <;> simp only [hst] at hclean ⊢
  case active => exact activeHandle_fed env h htold hinfo hclean.1 hclean.2
  case holding => exact holdingHandle_fed env h hinfo hclean
  case dialing => exact dialingHandle_fed env h htold hinfo hst hclean.1 hclean.2
  case alerting => exact alertHandle_fed env h htold hinfo hclean.1 hclean.2
  case incoming => exact incomingHandle_fed env h hinfo (.inl hst) hclean
  case waiting => exact incomingHandle_fed env h hinfo (.inr hst) hclean
  case disconnected =>
    exact disconnectedHandle_fed env h hinfo (reportedCall_fed env h htold hinfo hclean)
  case disconnecting => exact disconnectingHandle_fed env h hinfo hclean
  all_goals exact Post.pure (refl_of Fed s)

end CallManagerMini
