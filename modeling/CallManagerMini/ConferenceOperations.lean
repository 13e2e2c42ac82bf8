import CallManagerMini.Lib.Runs
import CallManagerMini.CallManagerService
import CallManagerMini.Leftovers

/-! # Any order of conference operations

The two conferences under every sequence of their operations, whoever calls them: the calls
of the stack's reports, in their order, are only some of these sequences.  `Represented` is
what every sequence keeps.

It is less than one may expect.  A conference with members may well be idle:
`UpdateConferenceId` lets a call into a conference without a word about its state, and
`LaunchConference` of a CS call puts the conference back to idle and is then turned away by
it.  And a call may count as held in a conference that it is not in, since a conference that
is on hold lets anybody hold it.
-/

namespace CallManagerMini

variable {s s' : CallManager} {env : Env} {p q : Ref}

/-- An operation on a conference, or a call's operation on the conference of its class. -/
inductive ConferenceOperation where
  | joinToConference (isIMSCall : Bool) (callId : Int)
  | leaveFromConference (isIMSCall : Bool) (callId : Int)
  | holdConference (isIMSCall : Bool) (callId : Int)
  | updateConferenceId (callId : Int)
  | launchCall (p : Ref)
  | exitCall (p : Ref)
  | holdCall (p : Ref)
  | combineFailed (p : Ref)
  deriving DecidableEq, Repr

namespace ConferenceOperation

def perform (env : Env) : ConferenceOperation → Prog CallManager Unit
  | .joinToConference isIMSCall callId =>
    (onConference isIMSCall (fun now conf => conf.joinToConference now callId) env).ignore
  | .leaveFromConference isIMSCall callId =>
    (onConference isIMSCall (fun _ conf => conf.leaveFromConference callId) env).ignore
  | .holdConference isIMSCall callId =>
    (onConference isIMSCall (fun _ conf => conf.holdConference callId) env).ignore
  | .updateConferenceId callId =>
    Prog.modify fun s => { s with csConference := s.csConference.updateConferenceId callId }
  | .launchCall p => (CallManagerMini.launchConference env p).ignore
  | .exitCall p => (CallManagerMini.exitConference env p).ignore
  | .holdCall p => (CallManagerMini.holdConference env p).ignore
  | .combineFailed p => handleCombineConferenceFailEvent env p

/-- The effect of an operation, with the clock it runs by. -/
def act (a : Env × ConferenceOperation) (s : CallManager) : CallManager := (a.2.perform a.1 s).2

/-- Nobody has been in a conference yet; the call objects are as they may. -/
def Fresh (s : CallManager) : Prop := s.csConference = {} ∧ s.imsConference = {}

/-- The states that some sequence of operations reaches. -/
abbrev Reachable (s : CallManager) : Prop :=
  Runs.Reachable Fresh (Runs.Step act fun _ _ => True) s

/-- The operation may leave members in an idle conference that had none, or a conference with
members idle. -/
def Upsets (s : CallManager) : ConferenceOperation → Prop
  | .updateConferenceId _ => True
  | .launchCall p => (s.call p).isIMSCall = false
  | _ => False

end ConferenceOperation

/-! ## The conference by itself -/

namespace ConferenceBase

variable {c : ConferenceBase} {callId : Int} {now : Int}

/-- What every sequence of operations keeps of a conference. -/
structure Represented (c : ConferenceBase) : Prop extends Tidy c where
  main : c.mainCallId = errId ∨ c.mainCallId ∈ c.subCallIdSet
  saved : c.state = .idle ∨ c.oldState = c.state

/-- Without members and idle are the same. -/
def EmptyIffIdle (c : ConferenceBase) : Prop := c.subCallIdSet = [] ↔ c.state = .idle

theorem represented_empty : Represented {} where
  nodup := List.nodup_nil
  vacant := fun _ => ⟨rfl, rfl, rfl⟩
  main := .inl rfl
  saved := .inl rfl

/-- Nobody, the last member, or one of several leaves. -/
theorem leaveFromConference_cases (callId : Int) (c : ConferenceBase) :
    callId ∉ c.subCallIdSet ∧ (c.leaveFromConference callId).2 = c ∨
      callId ∈ c.subCallIdSet ∧ c.subCallIdSet.erase callId = [] ∧
        (c.leaveFromConference callId).2 = { c with subCallIdSet := [] }.reset ∨
      ∃ first rest, callId ∈ c.subCallIdSet ∧ c.subCallIdSet.erase callId = first :: rest ∧
        (c.leaveFromConference callId).2 =
          { c with
            subCallIdSet := first :: rest
            mainCallId := if c.mainCallId = callId then first else c.mainCallId } := by
  unfold leaveFromConference
  by_cases hmem : callId ∈ c.subCallIdSet
  · rw [if_pos hmem]
    dsimp only
    rcases c.subCallIdSet.erase callId with _ | ⟨first, rest⟩
    · exact .inr (.inl ⟨hmem, rfl, rfl⟩)
    · refine .inr (.inr ⟨first, rest, hmem, rfl, ?_⟩)
      by_cases hmain : c.mainCallId = callId <;> simp [hmain]
  · rw [if_neg hmem]
    exact .inl ⟨hmem, rfl⟩

/-- A held conference, a stranger, or a member that holds it. -/
theorem holdConference_cases (callId : Int) (c : ConferenceBase) :
    c.state = .holding ∧ (c.holdConference callId).2 = c ∨
      callId ∉ c.subCallIdSet ∧
        c.holdConference callId = (.callErrConferenceSeperateFailed, c) ∨
      callId ∈ c.subCallIdSet ∧
        (c.holdConference callId).2 = { c with state := .holding, oldState := .holding } := by
  unfold holdConference
  by_cases hstate : c.state = .holding
  · exact .inl ⟨hstate, by rw [if_pos hstate]⟩
  by_cases hmem : callId ∈ c.subCallIdSet
  · refine .inr (.inr ⟨hmem, ?_⟩)
    rw [if_neg hstate, if_neg (not_not_intro hmem), if_neg (List.ne_nil_of_mem hmem)]
  · exact .inr (.inl ⟨hmem, by rw [if_neg hstate, if_pos hmem]⟩)

/-- Whoever joins is in. -/
theorem mem_joinToConference (h : (c.joinToConference now callId).1 = .success) :
    callId ∈ (c.joinToConference now callId).2.subCallIdSet := by
  unfold joinToConference at h ⊢
  split at h
  · cases h
  · next hstate =>
    rw [if_neg hstate]
    exact mem_insertSubCall.mpr (.inl rfl)

/-- A conference is held by its members, or was on hold. -/
theorem holding_or_mem (h : (c.holdConference callId).1 = .success) :
    c.state = .holding ∨ callId ∈ (c.holdConference callId).2.subCallIdSet := by
  rcases holdConference_cases callId c with ⟨hstate, -⟩ | ⟨-, hno⟩ | ⟨hmem, -⟩
  · exact .inl hstate
  · rw [hno] at h
    cases h
  · rw [subCallIdSet_holdConference]
    exact .inr hmem

namespace Represented

theorem setIdle (h : c.Represented) : (c.setConferenceState .idle).Represented where
  toTidy := h.toTidy.setIdle
  main := h.main
  saved := .inl rfl

theorem joinToConference (h : c.Represented) :
    (c.joinToConference now callId).2.Represented := by
  unfold ConferenceBase.joinToConference
  split
  · exact h
  refine ⟨⟨nodup_insertSubCall h.nodup, fun he => ?_⟩, ?_, .inr rfl⟩
  · have hmem : callId ∈ insertSubCall callId c.subCallIdSet := mem_insertSubCall.mpr (.inl rfl)
    rw [show insertSubCall callId c.subCallIdSet = [] from he] at hmem
    cases hmem
  · exact h.main.imp id fun hmem => mem_insertSubCall.mpr (.inr hmem)

theorem leaveFromConference (h : c.Represented) :
    (c.leaveFromConference callId).2.Represented := by
  refine ⟨h.toTidy.leaveFromConference, ?_, ?_⟩
  · rcases leaveFromConference_cases callId c with ⟨-, he⟩ | ⟨-, -, he⟩ |
      ⟨first, rest, -, hrest, he⟩ <;> rw [he]
    · exact h.main
    · exact .inl rfl
    -- the main call is handed on to the first member left
    by_cases hmain : c.mainCallId = callId
    · exact .inr (by simp [hmain])
    · simp only [if_neg hmain, ← hrest]
      exact h.main.imp id (List.mem_erase_of_ne hmain).mpr
  · rcases leaveFromConference_cases callId c with ⟨-, he⟩ | ⟨-, -, he⟩ |
      ⟨first, rest, -, -, he⟩ <;> rw [he]
    · exact h.saved
    · exact .inl rfl
    · exact h.saved

theorem holdConference (h : c.Represented) : (c.holdConference callId).2.Represented := by
  rcases holdConference_cases callId c with ⟨-, he⟩ | ⟨-, he⟩ | ⟨hmem, he⟩ <;> rw [he]
  · exact h
  · exact h
  · exact
      { nodup := h.nodup
        vacant := fun hempty => absurd hempty (List.ne_nil_of_mem hmem)
        main := h.main
        saved := .inr rfl }

theorem updateConferenceId (h : c.Represented) : (c.updateConferenceId callId).Represented := by
  refine ⟨h.toTidy.updateConferenceId, ?_, ?_⟩
  · by_cases hmain : c.mainCallId = errId
    · refine .inr (mem_updateConferenceId.mpr (.inl ?_))
      simp only [ConferenceBase.updateConferenceId, if_pos hmain]
    · have hkept : (c.updateConferenceId callId).mainCallId = c.mainCallId := by
        simp only [ConferenceBase.updateConferenceId, if_neg hmain]
      rw [hkept]
      exact h.main.imp id fun hm => mem_updateConferenceId.mpr (.inr hm)
  · unfold ConferenceBase.updateConferenceId
    dsimp only
    split <;> exact h.saved

theorem combineConferenceFailed (h : c.Represented) : c.combineConferenceFailed.Represented := by
  refine ⟨h.toTidy.combineConferenceFailed, ?_, .inr ?_⟩
  · rw [subCallIdSet_combineConferenceFailed]
    unfold ConferenceBase.combineConferenceFailed setMainCall setConferenceState
    rcases hset : c.subCallIdSet with _ | ⟨first, rest⟩
    · exact .inl rfl
    · dsimp only
      split
      · exact hset ▸ h.main
      · exact .inr List.mem_cons_self
  · unfold ConferenceBase.combineConferenceFailed setMainCall setConferenceState
    split <;> split <;> rfl

end Represented

namespace EmptyIffIdle

theorem joinToConference (h : c.EmptyIffIdle) :
    (c.joinToConference now callId).2.EmptyIffIdle := by
  unfold ConferenceBase.joinToConference
  split
  · exact h
  refine ⟨fun he => ?_, fun hidle => by cases hidle⟩
  have hmem : callId ∈ insertSubCall callId c.subCallIdSet := mem_insertSubCall.mpr (.inl rfl)
  rw [show insertSubCall callId c.subCallIdSet = [] from he] at hmem
  cases hmem

theorem leaveFromConference (h : c.EmptyIffIdle) :
    (c.leaveFromConference callId).2.EmptyIffIdle := by
  rcases leaveFromConference_cases callId c with ⟨-, he⟩ | ⟨-, -, he⟩ |
    ⟨first, rest, hmem, -, he⟩ <;> rw [he]
  · exact h
  · exact iff_of_true rfl rfl
  · refine iff_of_false (List.cons_ne_nil _ _) fun hidle => ?_
    exact absurd (h.mpr hidle) (List.ne_nil_of_mem hmem)

theorem holdConference (h : c.EmptyIffIdle) : (c.holdConference callId).2.EmptyIffIdle := by
  rcases holdConference_cases callId c with ⟨-, he⟩ | ⟨-, he⟩ | ⟨hmem, he⟩ <;> rw [he]
  · exact h
  · exact h
  · exact iff_of_false (List.ne_nil_of_mem hmem) ConferenceState.noConfusion

theorem combineConferenceFailed (h : c.EmptyIffIdle) (hc : c.Represented) :
    c.combineConferenceFailed.EmptyIffIdle := by
  have hstate : c.combineConferenceFailed.state = c.oldState := by
    unfold ConferenceBase.combineConferenceFailed setMainCall setConferenceState
    split <;> split <;> rfl
  unfold EmptyIffIdle
  rw [subCallIdSet_combineConferenceFailed, hstate]
  rcases hc.saved with hidle | hsaved
  · have hempty := h.mpr hidle
    exact iff_of_true hempty (hc.vacant hempty).2.2
  · rw [hsaved]
    exact h

end EmptyIffIdle

/-- What one operation does to a conference; `upsets` says that the operation may be one that
leaves the state of the conference behind its members. -/
inductive Move (upsets : Prop) (c : ConferenceBase) : ConferenceBase → Prop
  | stays : Move upsets c c
  | joins (now callId : Int) : Move upsets c (c.joinToConference now callId).2
  | leaves (callId : Int) : Move upsets c (c.leaveFromConference callId).2
  | holds (callId : Int) : Move upsets c (c.holdConference callId).2
  | fails : Move upsets c c.combineConferenceFailed
  | enters (h : upsets) (callId : Int) : Move upsets c (c.updateConferenceId callId)
  | launches (h : upsets) (now callId : Int) :
    Move upsets c ((c.setConferenceState .idle).joinToConference now callId).2

theorem Represented.move {c' : ConferenceBase} {upsets : Prop} (h : c.Represented)
    (hmove : Move upsets c c') : c'.Represented := by
  cases hmove with
  | stays => exact h
  | joins now callId => exact h.joinToConference
  | leaves callId => exact h.leaveFromConference
  | holds callId => exact h.holdConference
  | fails => exact h.combineConferenceFailed
  | enters _ callId => exact h.updateConferenceId
  | launches _ now callId => exact h.setIdle.joinToConference

theorem EmptyIffIdle.move {c' : ConferenceBase} {upsets : Prop} (hc : c.Represented)
    (h : c.EmptyIffIdle) (hmove : Move upsets c c') (hno : ¬upsets) : c'.EmptyIffIdle := by
  cases hmove with
  | stays => exact h
  | joins now callId => exact h.joinToConference
  | leaves callId => exact h.leaveFromConference
  | holds callId => exact h.holdConference
  | fails => exact h.combineConferenceFailed hc
  | enters hup callId => exact absurd hup hno
  | launches hup now callId => exact absurd hup hno

/-- A conference that nobody is in stays so, unless `UpdateConferenceId` lets somebody in. -/
theorem Unused.move {c' : ConferenceBase} {upsets : Prop} (h : c.Unused)
    (hmove : Move upsets c c') (hno : ¬upsets) : c'.Unused := by
  cases hmove with
  | stays => exact h
  | joins now callId => exact h.joinToConference
  | leaves callId => exact h.leaveFromConference
  | holds callId => exact h.holdConference
  | fails => exact h.combineConferenceFailed
  | enters hup callId => exact absurd hup hno
  | launches hup now callId => exact absurd hup hno

end ConferenceBase

/-! ## The operations of calls -/

/-- The conference operations of a call object: `f` on the conference of its class, and the
conference state of the call if that succeeds. -/
def performOnCall (env : Env) (p : Ref)
    (f : CallBase → Int → ConferenceBase → RetCode × ConferenceBase) (state : TelConferenceState) :
    Prog CallManager RetCode := do
  let c ← getCall p
  let ret ← onConference c.isIMSCall (f c) env
  Prog.when (ret = .success) (setTelConferenceState p state)
  pure ret

theorem launchConference_eq : launchConference env p = performOnCall env p (fun c now conf =>
    (if c.isIMSCall then conf else conf.setConferenceState .idle).joinToConference now c.callId)
      .active := rfl

theorem exitConference_eq : exitConference env p =
    performOnCall env p (fun c _ conf => conf.leaveFromConference c.callId) .idle := rfl

theorem holdConference_eq : holdConference env p =
    performOnCall env p (fun c _ conf => conf.holdConference c.callId) .holding := rfl

section OnCall
variable {f : CallBase → Int → ConferenceBase → RetCode × ConferenceBase}
  {state : TelConferenceState} {isIMSCall : Bool}

theorem conference_setConference {c : ConferenceBase} {b : Bool} :
    (s.setConference b c).conference isIMSCall =
      if isIMSCall = b then c else s.conference isIMSCall := by
  cases b <;> cases isIMSCall <;> rfl

theorem conference_onConference (env : Env) {α : Type}
    {g : Int → ConferenceBase → α × ConferenceBase}
    {b : Bool} :
    (onConference b g env s).2.conference isIMSCall =
      if isIMSCall = b then (g (env.time s.log) (s.conference b)).2 else s.conference isIMSCall :=
  conference_setConference

theorem call_onConference {α : Type} {g : Int → ConferenceBase → α × ConferenceBase} {b : Bool} :
    (onConference b g env s).2.call q = s.call q := by
  cases b <;> rfl

theorem conference_performOnCall :
    (performOnCall env p f state s).2.conference isIMSCall =
      if isIMSCall = (s.call p).isIMSCall then
        (f (s.call p) (env.time s.log) (s.conference (s.call p).isIMSCall)).2
      else s.conference isIMSCall := by
  rw [← conference_onConference env (g := f (s.call p))]
  simp only [performOnCall, getCall, Prog.bind_apply, Prog.gets_apply, Prog.pure_apply,
    Prog.when_apply]
  split <;> rfl

/-- Only the call itself obtains a conference state, and only if the conference agrees. -/
theorem call_performOnCall :
    (performOnCall env p f state s).2.call q =
      if q = p ∧ (f (s.call p) (env.time s.log) (s.conference (s.call p).isIMSCall)).1 = .success
      then { s.call p with conferenceState := state } else s.call q := by
  simp only [performOnCall, getCall, setTelConferenceState, modifyCall, Prog.bind_apply,
    Prog.gets_apply, Prog.pure_apply, Prog.modify_apply, Prog.when_apply]
  -- the result of the operation is the one on the conference
  change (if (f (s.call p) (env.time s.log) (s.conference (s.call p).isIMSCall)).1 = .success
    then _ else _ : Unit × CallManager).2.call q = _
  split
  · next hok =>
    by_cases hq : q = p
    · subst hq
      rw [if_pos ⟨rfl, hok⟩, call_updateCall_self, call_onConference]
    · rw [if_neg fun h => hq h.1, CallManager.call, CallManager.updateCall, Heap.get_set_ne _ _ hq]
      exact call_onConference
  · next hno => rw [if_neg fun h => hno h.2, call_onConference]

end OnCall

/-! ## Every sequence -/

namespace ConferenceOperation

variable {a : Env × ConferenceOperation}

/-- One operation is at most one move of each conference. -/
theorem act_move (a : Env × ConferenceOperation) (s : CallManager) (isIMSCall : Bool) :
    ConferenceBase.Move (isIMSCall = false ∧ Upsets s a.2) (s.conference isIMSCall)
      ((act a s).conference isIMSCall) := by
  obtain ⟨env, op⟩ := a
  cases op with
  | joinToConference b callId =>
    rw [act, perform, Prog.ignore_apply, conference_onConference]
    split
    · next hb => exact hb ▸ .joins _ callId
    · exact .stays
  | leaveFromConference b callId =>
    rw [act, perform, Prog.ignore_apply, conference_onConference]
    split
    · next hb => exact hb ▸ .leaves callId
    · exact .stays
  | holdConference b callId =>
    rw [act, perform, Prog.ignore_apply, conference_onConference]
    split
    · next hb => exact hb ▸ .holds callId
    · exact .stays
  | updateConferenceId callId =>
    cases isIMSCall with
    | false => exact .enters ⟨rfl, trivial⟩ callId
    | true => exact .stays
  | launchCall p =>
    rw [act, perform, Prog.ignore_apply, launchConference_eq, conference_performOnCall]
    split
    · next hb =>
      subst hb
      cases hims : (s.call p).isIMSCall with
      | false => exact .launches ⟨rfl, hims⟩ _ _
      | true => exact .joins _ _
    · exact .stays
  | exitCall p =>
    rw [act, perform, Prog.ignore_apply, exitConference_eq, conference_performOnCall]
    split
    · next hb => exact hb ▸ .leaves _
    · exact .stays
  | holdCall p =>
    rw [act, perform, Prog.ignore_apply, holdConference_eq, conference_performOnCall]
    split
    · next hb => exact hb ▸ .holds _
    · exact .stays
  | combineFailed p =>
    rw [act, perform, handleCombineConferenceFailEvent]
    rw [Prog.bind_apply, conference_onConference]
    split
    · next hb => exact hb ▸ .fails
    · exact .stays

/-- Whoever obtains a state in a conference by `s'` is in the conference, or found it on hold. -/
def EarnsState (s s' : CallManager) : Prop :=
  ∀ p, (s'.call p).conferenceState ≠ (s.call p).conferenceState →
    ((s'.call p).conferenceState = .active →
      (s'.call p).callId ∈ (s'.conference (s'.call p).isIMSCall).subCallIdSet) ∧
    ((s'.call p).conferenceState = .holding →
      (s'.call p).callId ∈ (s'.conference (s'.call p).isIMSCall).subCallIdSet ∨
        (s.conference (s'.call p).isIMSCall).state = .holding)

theorem earnsState_of_eq (h : ∀ p, s'.call p = s.call p) : EarnsState s s' :=
  fun p hne => absurd (congrArg CallBase.conferenceState (h p)) hne

/-- What a call's operation earns is earned on the conference of its class. -/
theorem earnsState_performOnCall {f : CallBase → Int → ConferenceBase → RetCode × ConferenceBase}
    {state : TelConferenceState}
    (hf : ∀ c now conf, (f c now conf).1 = .success →
      (state = .active → c.callId ∈ (f c now conf).2.subCallIdSet) ∧
      (state = .holding → c.callId ∈ (f c now conf).2.subCallIdSet ∨ conf.state = .holding)) :
    EarnsState s (performOnCall env p f state s).2 := by
  intro q hne
  rw [call_performOnCall] at hne ⊢
  split at hne
  · next hq =>
    obtain ⟨rfl, hok⟩ := hq
    rw [if_pos ⟨rfl, hok⟩]
    dsimp only
    rw [conference_performOnCall, if_pos rfl]
    exact hf _ _ _ hok
  · exact absurd rfl hne

theorem earnsState_launch (env : Env) (p : Ref) (s : CallManager) :
    EarnsState s (launchConference env p s).2 := by
  rw [launchConference_eq]
  refine earnsState_performOnCall ?_
  intro c now conf hok
  exact ⟨fun _ => ConferenceBase.mem_joinToConference hok, nofun⟩

theorem earnsState_exit (env : Env) (p : Ref) (s : CallManager) :
    EarnsState s (exitConference env p s).2 := by
  rw [exitConference_eq]
  refine earnsState_performOnCall ?_
  intro c now conf hok
  exact ⟨nofun, nofun⟩

theorem earnsState_hold (env : Env) (p : Ref) (s : CallManager) :
    EarnsState s (CallManagerMini.holdConference env p s).2 := by
  rw [holdConference_eq]
  refine earnsState_performOnCall ?_
  intro c now conf hok
  exact ⟨nofun, fun _ => (ConferenceBase.holding_or_mem hok).symm⟩

theorem act_earnsState (a : Env × ConferenceOperation) (s : CallManager) :
    EarnsState s (act a s) := by
  obtain ⟨env, op⟩ := a
  cases op with
  | joinToConference b callId =>
    exact earnsState_of_eq fun p => by rw [act, perform, Prog.ignore_apply, call_onConference]
  | leaveFromConference b callId =>
    exact earnsState_of_eq fun p => by rw [act, perform, Prog.ignore_apply, call_onConference]
  | holdConference b callId =>
    exact earnsState_of_eq fun p => by rw [act, perform, Prog.ignore_apply, call_onConference]
  | updateConferenceId callId => exact earnsState_of_eq fun p => rfl
  | launchCall p => exact earnsState_launch env p s
  | exitCall p => exact earnsState_exit env p s
  | holdCall p => exact earnsState_hold env p s
  | combineFailed p =>
    refine earnsState_of_eq fun q => ?_
    rw [act, perform, handleCombineConferenceFailEvent, Prog.bind_apply, call_onConference]
    rfl

theorem reachable_represented (hs : Reachable s) (isIMSCall : Bool) :
    (s.conference isIMSCall).Represented := by
  refine Runs.Reachable.invariant (I := fun s => ∀ b, (s.conference b).Represented) ?_ ?_ hs
    isIMSCall
  · rintro s ⟨hcs, hims⟩ b
    cases b
    · exact (congrArg _ hcs).mpr ConferenceBase.represented_empty
    · exact (congrArg _ hims).mpr ConferenceBase.represented_empty
  · rintro s s' h ⟨a, -, rfl⟩ b
    exact (h b).move (act_move a s b)

theorem reachable_unused (hs : Reachable s) : s.imsConference.Unused := by
  refine Runs.Reachable.invariant (I := fun s => s.imsConference.Unused) ?_ ?_ hs
  · rintro s ⟨-, hims⟩
    exact hims ▸ ⟨rfl, rfl, rfl, rfl⟩
  · rintro s s' h ⟨a, -, rfl⟩
    exact h.move (act_move a s true) fun hup => Bool.noConfusion hup.1

/-- **Any order of conference operations.**  The main call is a member; without members a
conference is idle, and the operations that leave members in an idle one are
`UpdateConferenceId` and `LaunchConference` of CS calls; and only members obtain a state in a
conference, unless they hold one that is on hold already. -/
theorem conference_operations (hs : Reachable s) :
    (∀ b, let c := s.conference b
      (c.mainCallId = errId ∨ c.mainCallId ∈ c.subCallIdSet) ∧
        (c.subCallIdSet = [] → c.state = .idle)) ∧
    s.imsConference.EmptyIffIdle ∧
    ∀ a, (¬Upsets s a.2 → s.csConference.EmptyIffIdle → (act a s).csConference.EmptyIffIdle) ∧
      EarnsState s (act a s) := by
  refine ⟨fun b => ?_, ?_, fun a => ⟨fun hno h => ?_, act_earnsState a s⟩⟩
  · have h := reachable_represented hs b
    exact ⟨h.main, fun he => (h.vacant he).2.1⟩
  · have h := reachable_unused hs
    exact iff_of_true h.empty h.idle
  · exact h.move (reachable_represented hs false) (act_move a s false) fun hup => hno hup.2

/-- Two calls; the first is let into the conference of CS calls and holds it. -/
def heldByOne : CallManager :=
  [.updateConferenceId 1, .holdConference false 1].foldl (fun s op => act (.obliging, op) s)
    { calls := { cell := fun p => { callId := p + 1 }, next := 2 } }

theorem reachable_heldByOne : Reachable heldByOne :=
  ((Runs.Reachable.start ⟨rfl, rfl⟩).next ⟨(.obliging, .updateConferenceId 1), trivial, rfl⟩).next
    ⟨(.obliging, .holdConference false 1), trivial, rfl⟩

/-- The first call keeps the conference on hold. -/
theorem conference_operations_held : heldByOne.csConference.mainCallId = 1 ∧
    EarnsState heldByOne (act (.obliging, .holdCall 0) heldByOne) :=
  ⟨by decide +kernel, ((conference_operations reachable_heldByOne).2.2 _).2⟩

/-- A call that is let into an idle conference leaves it idle, and once that call has held the
conference, a call that is not in it may hold it too. -/
theorem conference_operations_fails :
    (¬∀ s, Reachable s → ∀ b, (s.conference b).EmptyIffIdle) ∧
      ¬∀ s, Reachable s → ∀ a p, ((act a s).call p).conferenceState = .holding →
        (s.call p).conferenceState ≠ .holding →
        ((act a s).call p).callId ∈
          ((act a s).conference ((act a s).call p).isIMSCall).subCallIdSet := by
  constructor
  · intro hall
    have hs : Reachable (act (.obliging, .updateConferenceId 1) {}) :=
      (Runs.Reachable.start ⟨rfl, rfl⟩).next ⟨_, trivial, rfl⟩
    exact absurd ((hall _ hs false).mpr (by decide +kernel)) (by decide +kernel)
  · intro hall
    exact absurd (hall _ reachable_heldByOne (.obliging, .holdCall 1) 1 (by decide +kernel)
      (by decide +kernel)) (by decide +kernel)

end ConferenceOperation

end CallManagerMini
