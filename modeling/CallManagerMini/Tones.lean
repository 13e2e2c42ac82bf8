import CallManagerMini.PlainRelations
import CallManagerMini.SparedCalls
import CallManagerMini.ZeroState

/-! # Tones and ringing calls

A tone is for the calls that ring its way: the ringtone for `INCOMING` calls, the waiting tone
for `WAITING` ones.  The audio manager does not look at the calls, though; it follows the
broadcasts, and stops a tone as a call is answered, as a call that rings its way is
disconnected, and when no call is left.  A ringing call that leaves its state otherwise takes
no tone along.

Such a report does no harm while another call rings the same way, and there are few such
reports (`Unrings`).  In the runs without them, the tones match the ringing calls at the end of
every step (`tuneKeeping_tonesMatch`).
-/

namespace CallManagerMini

open Prog (Post Moves)
open CallTable (Rings)

variable {s s' s'' : CallManager} {env : Env} {info : CallDetailInfo} {p : Ref}
  {st next : TelCallState}

/-! ## What a broadcast does to the tones -/

/-- Whether the tone of a ringing state is on. -/
def AudioControl.toneOn (a : AudioControl) : TelCallState → Bool
  | .incoming => a.ringtonePlaying
  | .waiting => a.waitingTonePlaying
  | _ => false

/-- A tone is on only while a call rings its way. -/
def InTune (s : CallManager) : Prop :=
  ∀ st, s.audio.toneOn st = true → ∃ r ∈ s.table.rows, r.callState = st

/-- The audio implementation may start the tone. -/
def Env.MayPlay (env : Env) (st : TelCallState) : Prop :=
  ∃ log, env.audio log (if st = .incoming then .startRingtone else .playWaitingTone) = some 0

/-- The broadcast stops the tone. -/
def Stops (s : CallManager) (prior next st : TelCallState) : Prop :=
  next = .answered ∨ next = .active ∨
    next = .disconnected ∧ (prior = st ∨ hasCellularCallExist s = false)

/-- The tones and the call audio are what they were, but some tones may have been stopped. -/
def Softer (s s' : CallManager) : Prop :=
  ∀ st, s'.audio.toneOn st = true → s.audio.toneOn st = true

instance : Std.Refl Softer := ⟨fun _ _ h => h⟩

instance : IsTrans CallManager Softer := ⟨fun _ _ _ h h' st hst => h st (h' st hst)⟩

theorem toneOn_ringing {a : AudioControl} (h : a.toneOn st = true) : Rings st := by
  cases st <;> simp [AudioControl.toneOn, Rings] at h ⊢

/-- Whether a call is left is a matter of the table. -/
theorem hasCellularCallExist_eq (s : CallManager) :
    hasCellularCallExist s = s.table.rows.any fun r => r.callType.isCarrierListed &&
      (r.callState ≠ .disconnected && r.callState ≠ .disconnecting) := by
  rw [CallManager.table, List.any_map]
  rfl

theorem Quiet.stops (h : Quiet s s') {prior : TelCallState} :
    Stops s' prior next st ↔ Stops s prior next st := by
  unfold Stops
  rw [hasCellularCallExist_eq, hasCellularCallExist_eq, h.table]

/-! ### The audio manager -/

@[simp] theorem requestAudio_audio (env : Env) (r : AudioRequest) (s : CallManager) :
    (requestAudio env r s).2.audio = s.audio := rfl

theorem requestAudio_success {r : AudioRequest} (h : (requestAudio env r s).1 = .success) :
    env.audio s.log r = some 0 := by
  unfold requestAudio at h
  dsimp only at h
  split at h
  · cases h
  · next code hcode => rw [hcode, RetCode.ofReply_eq_success.mp h]

theorem startRingtone_tones (env : Env) (s : CallManager) :
    Post (startRingtone env) s fun _ s' => ∀ st, s'.audio.toneOn st = true →
      s.audio.toneOn st = true ∨ st = .incoming ∧ env.MayPlay st := by
  refine Post.bind_gets (Post.when (fun _ => ?_) fun _ st hst => .inl hst)
  refine Post.bind (Q := fun ret s₁ => s₁.audio = s.audio ∧ (ret = .success →
    env.audio s.log .startRingtone = some 0)) ⟨rfl, requestAudio_success⟩ ?_
  rintro ret s₁ ⟨haudio, hplay⟩ st hst
  cases st <;> simp only [setAudio, Prog.modify_apply, AudioControl.toneOn, haudio,
    decide_eq_true_eq,
    Bool.false_eq_true] at hst ⊢
  · exact .inr ⟨trivial, s.log, hplay hst⟩
  · exact .inl hst

theorem playWaitingTone_tones (env : Env) (s : CallManager) :
    Post (playWaitingTone env) s fun _ s' => ∀ st, s'.audio.toneOn st = true →
      s.audio.toneOn st = true ∨ st = .waiting ∧ env.MayPlay st := by
  refine Post.bind_gets (Post.when (fun _ => ?_) fun _ st hst => .inl hst)
  refine Post.bind (Q := fun ret s₁ => s₁.audio = s.audio ∧ (ret = .success →
    env.audio s.log .playWaitingTone = some 0)) ⟨rfl, requestAudio_success⟩ ?_
  rintro ret s₁ ⟨haudio, hplay⟩ st hst
  cases st <;> simp only [setAudio, Prog.modify_apply, AudioControl.toneOn, haudio,
    decide_eq_true_eq,
    Bool.false_eq_true] at hst ⊢
  · exact .inl hst
  · exact .inr ⟨trivial, s.log, hplay hst⟩

theorem stopRingtone_audio (env : Env) (s : CallManager) :
    (stopRingtone env s).2.audio = { s.audio with ringtonePlaying := false } := by
  unfold stopRingtone
  rw [Prog.bind_apply, Prog.gets_apply, Prog.when_apply]
  split
  · rfl
  · next hoff =>
      exact congrArg (fun b => { s.audio with ringtonePlaying := b }) (by simpa using hoff)

theorem stopWaitingTone_audio (env : Env) (s : CallManager) :
    (stopWaitingTone env s).2.audio = { s.audio with waitingTonePlaying := false } := by
  unfold stopWaitingTone
  rw [Prog.bind_apply, Prog.gets_apply, Prog.when_apply]
  split
  · rfl
  · next hoff =>
      exact congrArg (fun b => { s.audio with waitingTonePlaying := b }) (by simpa using hoff)

theorem setCallAudioActive_toneOn (env : Env) (active : Bool) (s : CallManager)
    (st : TelCallState) :
    (setCallAudioActive env active s).2.audio.toneOn st = s.audio.toneOn st := by
  unfold setCallAudioActive
  rw [Prog.bind_apply, Prog.gets_apply, Prog.when_apply]
  split
  · rw [Prog.bind_apply, Prog.when_apply]
    split <;> cases st <;> rfl
  · rfl

theorem stopRingtone_softer (env : Env) (s : CallManager) :
    Softer s (stopRingtone env s).2 ∧ (stopRingtone env s).2.audio.toneOn .incoming = false := by
  rw [Softer, stopRingtone_audio]
  refine ⟨fun st h => ?_, rfl⟩
  cases st <;> first | exact h | cases h

theorem stopWaitingTone_softer (env : Env) (s : CallManager) :
    Softer s (stopWaitingTone env s).2 ∧
      (stopWaitingTone env s).2.audio.toneOn .waiting = false := by
  rw [Softer, stopWaitingTone_audio]
  refine ⟨fun st h => ?_, rfl⟩
  cases st <;> first | exact h | cases h

/-- Both tones are stopped. -/
theorem stopTones_off (env : Env) (s : CallManager) :
    Post (do stopRingtone env; stopWaitingTone env : Prog CallManager Unit) s fun _ s' =>
      ∀ st, s'.audio.toneOn st = false := by
  intro st
  rw [Prog.bind_apply, stopWaitingTone_audio, stopRingtone_audio]
  cases st <;> rfl

/-- **What the audio manager makes of a broadcast.**  A tone that is on afterwards was on and is
not stopped, or it is the one of the new state. -/
theorem audioCallStateUpdated_tones (env : Env) (prior next : TelCallState) (s : CallManager) :
    Post (audioCallStateUpdated env prior next) s fun _ s' => ∀ st, s'.audio.toneOn st = true →
      s.audio.toneOn st = true ∧ ¬Stops s prior next st ∨ st = next ∧ env.MayPlay st := by
  -- the other next states stop nothing
  have hgoesOn {next : TelCallState} (hnext : next ≠ .answered ∧ next ≠ .active ∧
    next ≠ .disconnected)
      (st : TelCallState) : ¬Stops s prior next st := by
    rintro (h | h | h)
    exacts [hnext.1 h, hnext.2.1 h, hnext.2.2 h.1]
  have hanswered : Post (do
      stopRingtone env
      stopWaitingTone env
      setCallAudioActive env true : Prog CallManager Unit) s fun _ s' =>
        ∀ st, s'.audio.toneOn st = false := by
    intro st
    rw [Prog.bind_apply, Prog.bind_apply, setCallAudioActive_toneOn]
    exact stopTones_off env s st
  cases next with
  | incoming =>
    exact Post.mono (startRingtone_tones env s) fun _ s' h st hst =>
      (h st hst).imp (fun h => ⟨h, hgoesOn (by decide) st⟩) id
  | waiting =>
    exact Post.mono (playWaitingTone_tones env s) fun _ s' h st hst =>
      (h st hst).imp (fun h => ⟨h, hgoesOn (by decide) st⟩) id
  | answered => exact Post.mono hanswered fun _ s' h st hst => absurd hst (by simp [h st])
  | active => exact Post.mono hanswered fun _ s' h st hst => absurd hst (by simp [h st])
  -- each of the two tones stops if the prior state is its own, and both if no call is left
  | disconnected =>
    refine Post.bind (Q := fun _ s₁ => Quiet s s₁ ∧ Softer s s₁ ∧
      (prior = .incoming → s₁.audio.toneOn .incoming = false)) ?_ ?_
    · refine ⟨Moves.rel s, ?_⟩
      rw [Prog.when_apply]
      split
      · obtain ⟨hsofter, hoff⟩ := stopRingtone_softer env s
        exact ⟨hsofter, fun _ => hoff⟩
      · next hprior => exact ⟨fun _ h => h, fun h => absurd h hprior⟩
    rintro _ s₁ ⟨hq₁, hsofter₁, hstop₁⟩
    refine Post.bind (Q := fun _ s₂ => Quiet s s₂ ∧ Softer s s₂ ∧
      (Rings prior → s₂.audio.toneOn prior = false)) ?_ ?_
    · refine ⟨hq₁.trans (Moves.rel s₁), ?_⟩
      rw [Prog.when_apply]
      split
      · next hprior =>
        obtain ⟨hsofter, hoff⟩ := stopWaitingTone_softer env s₁
        exact ⟨fun st h => hsofter₁ st (hsofter st h), fun _ => hprior ▸ hoff⟩
      · next hprior =>
        refine ⟨hsofter₁, fun hrings => ?_⟩
        obtain rfl := hrings.resolve_right hprior
        exact hstop₁ rfl
    rintro _ s₂ ⟨hq₂, hsofter, hstop⟩
    refine Post.bind_gets (Post.when (fun _ => ?_) fun hbusy st hst => .inl ⟨hsofter st hst, ?_⟩)
    · intro st hst
      exfalso
      cases st <;> cases hst
    · rw [← hq₂.stops]
      rintro (h | h | ⟨-, rfl | h⟩)
      · cases h
      · cases h
      · exact absurd hst (by simp [hstop (toneOn_ringing hst)])
      · exact hbusy (by simp [h])
  | _ => exact fun st hst => .inl ⟨hst, hgoesOn (by decide) st⟩

/-! ### Broadcasts -/

instance : Timeless SameAudio :=
  { Plain.of_aside (R := SameAudio) fun h => h.audio with timers := fun _ _ _ _ _ => rfl }

instance (c : CallBase) (prior next : TelCallState) :
    Moves SameAudio (emit (.callStateUpdated c prior next)) := .of_modify fun _ => rfl

/-- A change of state is broadcast in any case. -/
theorem updateCallState_tones (env : Env) (p : Ref) (next : TelCallState) (s : CallManager) :
    Post (updateCallState env p next) s fun ret s' => ret = .success ∧
      ∀ st, s'.audio.toneOn st = true →
        s.audio.toneOn st = true ∧ ¬Stops s' (s.call p).callState next st ∨
          st = next ∧ env.MayPlay st := by
  refine Post.bind_gets (Post.bind (Post.and (setTelCallState_post env p next s)
    (Post.of_moves (R := SameAudio) _ _)) ?_)
  rintro ret s₁ ⟨⟨hret, -⟩, haudio₁⟩
  refine Post.bind (Post.of_moves (R := SameAudio) _ _) fun _ s₂
    (haudio₂ : s₂.audio = s₁.audio) => ?_
  refine Post.ite (fun hbad => absurd hret (not_or.mpr hbad)) fun _ => ?_
  refine Post.bind (Q := fun _ s₃ => ∀ st, s₃.audio.toneOn st = true →
    s.audio.toneOn st = true ∧ ¬Stops s₃ (s.call p).callState next st ∨
      st = next ∧ env.MayPlay st) ?_ fun _ s₃ h₃ => Post.pure ⟨rfl, h₃⟩
  refine Post.bind_gets (Post.bind_modify ?_)
  refine Post.mono (Post.and (audioCallStateUpdated_tones env _ next _)
    (Post.of_moves (R := Quiet) _ _)) ?_
  rintro _ s₄ ⟨htones, hq⟩ st hst
  refine (htones st hst).imp (fun ⟨hon, hgoesOn⟩ =>
    ⟨?_, fun hstops => hgoesOn (hq.stops.mp hstops)⟩) id
  rwa [← haudio₁, ← haudio₂]

/-- The states nothing is heard of. -/
def TelCallState.IsSilent (next : TelCallState) : Prop :=
  next = .dialing ∨ next = .alerting ∨ next = .holding ∨ next = .disconnecting

theorem updateCallState_silent (hnext : next.IsSilent) :
    Moves SameAudio (updateCallState env p next) := by
  have hnone (prior : TelCallState) : Moves SameAudio (audioCallStateUpdated env prior next) := by
    rcases hnext with rfl | rfl | rfl | rfl <;> exact ⟨fun _ => rfl⟩
  unfold updateCallState notifyCallStateUpdated
  infer_instance

/-! ### Silent reports -/

section Silent

set_option synthInstance.maxSize 2048 in
instance (info : CallDetailInfo) : Moves SameAudio (addDialingCall env info) := by
  have (p : Ref) : Moves SameAudio (modifyCall p fun c => { c with phoneOrWatch := 1 }) :=
    bare_modifyCall fun _ => ⟨rfl, rfl, id⟩
  have (p : Ref) : Moves SameAudio (updateCallState env p .dialing) :=
    updateCallState_silent (.inl rfl)
  unfold addDialingCall
  refine Moves.bind inferInstance fun created => ?_
  cases created <;> dsimp only <;> infer_instance

instance (info : CallDetailInfo) : Moves SameAudio (dialingHandle env info) := by
  unfold dialingHandle; infer_instance

instance (info : CallDetailInfo) : Moves SameAudio (reportedCall env info) := by
  have : Moves SameAudio (refreshDialingStateByOtherState env info) := by
    unfold refreshDialingStateByOtherState
    refine Moves.bind inferInstance fun initCall => ?_
    cases initCall <;> dsimp only <;> infer_instance
  unfold reportedCall
  refine Moves.bind inferInstance fun found => ?_
  cases found <;> dsimp only <;> infer_instance

instance (info : CallDetailInfo) : Moves SameAudio (alertHandle env info) := by
  have (p : Ref) : Moves SameAudio (updateCallState env p .alerting) :=
    updateCallState_silent (.inr (.inl rfl))
  unfold alertHandle
  refine Moves.bind inferInstance fun found => ?_
  cases found <;> dsimp only <;> infer_instance

instance (info : CallDetailInfo) : Moves SameAudio (holdingHandle env info) := by
  have (p : Ref) : Moves SameAudio (updateCallState env p .holding) :=
    updateCallState_silent (.inr (.inr (.inl rfl)))
  unfold holdingHandle
  refine Moves.bind inferInstance fun found => ?_
  cases found <;> dsimp only <;> infer_instance

instance (info : CallDetailInfo) : Moves SameAudio (disconnectingHandle env info) := by
  have (p : Ref) : Moves SameAudio (updateCallState env p .disconnecting) :=
    updateCallState_silent (.inr (.inr (.inr rfl)))
  unfold disconnectingHandle
  refine Moves.bind inferInstance fun found => ?_
  cases found <;> dsimp only <;> infer_instance

end Silent

/-! ### Calls that become active or end -/

/-- A call that is found becomes active, and both tones stop. -/
theorem activeHandle_tones (env : Env) (info : CallDetailInfo) (s : CallManager) :
    Post (activeHandle env info) s fun ret s' =>
      ret = .errLocalPtrNull ∧ s'.audio = s.audio ∨ ∀ st, s'.audio.toneOn st = false := by
  refine Post.bind (Post.of_moves (R := SameAudio) _ s) fun found s₁ (h₁ : s₁.audio = s.audio) => ?_
  cases found with
  | none => exact Post.pure (.inl ⟨rfl, h₁⟩)
  | some p =>
    refine Post.bind (Q := fun _ _ => True) trivial fun _ s₂ _ => ?_
    refine Post.bind (Q := fun _ _ => True) trivial fun q s₃ _ => ?_
    refine Post.bind (Q := fun _ _ => True) trivial fun _ s₄ _ => ?_
    refine Post.bind_gets (Post.bind (Q := fun _ _ => True) trivial fun _ s₅ _ => ?_)
    refine Post.bind (Q := fun _ _ => True) trivial fun _ s₆ _ => ?_
    refine Post.bind (updateCallState_tones env q .active s₆) ?_
    rintro ret s₇ ⟨rfl, htones⟩
    have hoff : ∀ st, s₇.audio.toneOn st = false := by
      intro st
      refine Bool.eq_false_iff.mpr fun hst => ?_
      rcases htones st hst with ⟨-, hgoesOn⟩ | ⟨rfl, -⟩
      · exact hgoesOn (.inr (.inl rfl))
      · cases hst
    have (h : Ref) : Moves SameAudio (modifyCall h fun c => { c with canSwitchCallState := true }) :=
      bare_modifyCall fun _ => ⟨rfl, rfl, id⟩
    rw [if_neg (by decide)]
    refine Post.bind_gets (Post.bind (Post.of_moves (R := SameAudio) _ s₇)
      fun _ s₈ (h₈ : s₈.audio = s₇.audio) => Post.pure (.inr ?_))
    rwa [h₈]

/-- The only call that a conference has left may be heard again. -/
theorem leftOneConferenceCall_tones (env : Env) {calls : List Ref}
    (hcalls : ∀ p ∈ calls, p ∈ s.callObjectPtrList) :
    Post (Prog.forSome (leftOneConferenceCall calls) fun left => do
      let c ← getCall left
      Prog.when (c.conferenceState ≠ .idle) do
        setTelConferenceState left .idle
        let c ← getCall left
        (updateCallState env left c.callState).ignore) s fun _ s' =>
          ∀ st, s'.audio.toneOn st = true → s.audio.toneOn st = true ∨
            env.MayPlay st ∧ ∃ r ∈ s.table.rows, r.callState = st := by
  match calls with
  | [] => exact fun st hst => .inl hst
  | [left] =>
    refine Post.bind_gets (Post.when (fun _ => ?_) fun _ st hst => .inl hst)
    refine Post.bind (Post.and (Post.of_moves (R := Quiet) _ s) (Post.of_moves (R := SameAudio) _ s)) ?_
    rintro _ s₁ ⟨hq₁, haudio₁⟩
    refine Post.bind_gets (Post.ignore (Post.mono (updateCallState_tones env left _ s₁) ?_))
    rintro _ s₂ ⟨-, htones⟩ st hst
    rcases htones st hst with ⟨hon, -⟩ | ⟨rfl, hplay⟩
    · exact .inl (haudio₁ ▸ hon)
    · refine .inr ⟨hplay, s.row left, s.row_mem_table (hcalls left List.mem_cons_self), ?_⟩
      exact congrArg Row.callState (hq₁.row left).symm
  | _ :: _ :: _ => exact fun st hst => .inl hst

/-- Neither the table nor what is heard has changed. -/
structure Hushed (s s' : CallManager) : Prop extends Quiet s s' where
  audio : s'.audio = s.audio

theorem Hushed.trans (h : Hushed s s') (h' : Hushed s' s'') : Hushed s s'' :=
  ⟨h.toQuiet.trans h'.toQuiet, h'.audio.trans h.audio⟩

theorem hushed_post {α : Type} (m : Prog CallManager α) [Moves Quiet m] [Moves SameAudio m]
    (s : CallManager) : Post m s fun _ s' => Hushed s s' :=
  ⟨Moves.rel s, Moves.rel (R := SameAudio) s⟩

/-- A call that goes on while another one is announced as disconnected stays in the table. -/
theorem goesOn_of_announced {t : CallTable} (h : t.Inv) {e r : Row}
    (hr : r ∈ (t.announce e .disconnected).rows) (hstate : r.callState ≠ .disconnected) :
    r ∈ ((t.announce e .disconnected).remove e.callId).rows := by
  rw [CallTable.announce_remove h]
  refine h.mem_remove.mpr ?_
  obtain ⟨a, ha, rfl⟩ := Keyed.mem_update.mp hr
  split at hstate
  · exact absurd rfl hstate
  · next hne =>
    rw [if_neg hne]
    exact ⟨ha, hne⟩

/-- A tone that is on after a call has ended was on, for another state than the one the call
was in, and other calls go on; or the call its conference has left is heard. -/
theorem disconnectCall_tones (env : Env) (h : s.table.Inv) (hinfo : info.IsCarried)
    (hp : p ∈ s.callObjectPtrList) (hfit : s.table.Fits (s.row p) info) :
    Post (disconnectCall env p info) s fun _ s' => ∀ st, s'.audio.toneOn st = true →
      (s.audio.toneOn st = true ∧ (s.call p).callState ≠ st ∧
        ∃ r ∈ s'.table.rows, r.callState ≠ .disconnecting) ∨
      env.MayPlay st ∧ ∃ r ∈ s'.table.rows, r.callState = st := by
  refine Post.bind (Post.and (refreshed_post env h hinfo hp hfit)
    (Post.of_moves (R := SameAudio) _ s)) ?_
  rintro q s₁ ⟨h₁, haudio₁ : s₁.audio = s.audio⟩
  refine Post.bind (hushed_post _ _) fun _ s₂ h₂ => ?_
  refine Post.bind (hushed_post _ _) fun _ s₃ h₃ => ?_
  refine Post.bind (hushed_post _ _) fun _ s₄ h₄ => ?_
  refine Post.bind (hushed_post _ _) fun _ s₅ h₅ => Post.bind_gets ?_
  refine Post.bind (hushed_post _ _) fun _ s₆ h₆ => Post.bind_gets ?_
  -- up to the broadcast nothing touches the tones
  have hu : Hushed s₁ s₆ := (((h₂.trans h₃).trans h₄).trans h₅).trans h₆
  have hinv₆ : s₆.table.Inv := hu.table ▸ h₁.inv
  have hholds : s₆.table.Holds (s₆.row q) := by rw [hu.table, hu.row]; exact h₁.holds
  have hprior : (s₆.call q).callState = (s.call p).callState := by
    have : (s₆.row q).callState = (s.row p).callState := by
      rw [hu.row, h₁.row, CallTable.refresh_callState h (s.row_mem_table hp)]
    exact this
  refine Post.bind (Post.and (announce_post env (.inr rfl) hholds)
    (updateCallState_tones env q .disconnected s₆)) ?_
  rintro _ s₇ ⟨⟨-, ha⟩, -, htones₇⟩
  refine Post.bind (Post.and (handleHoldCallOrAutoAnswerCall_post env s₇ q _ _ _)
    (Post.of_moves (R := SameAudio) _ s₇)) ?_
  rintro _ s₈ ⟨⟨ht₈, -⟩, haudio₈ : s₈.audio = s₇.audio⟩
  have hrest : ∀ r ∈ s₇.table.rows, r.callState ≠ .disconnected → r ∈ s₈.table.rows := by
    intro r hr hstate
    rw [ht₈, ha.row, ha.table]
    exact goesOn_of_announced (e := s₆.row q) hinv₆ (ha.table ▸ hr) hstate
  have hinv₈ : s₈.table.Inv := by
    rw [ht₈, ha.row, ha.table]
    show ((s₆.table.announce (s₆.row q) .disconnected).remove (s₆.row q).callId).Inv
    rw [CallTable.announce_remove hinv₆]
    exact (hinv₆.remove _).withHistory _
  refine Post.bind_gets (Post.bind (Post.and (leftOneConferenceCall_post env hinv₈
    fun p hp => mem_of_conferenceCallList hp) (leftOneConferenceCall_tones env
      fun p hp => mem_of_conferenceCallList hp)) ?_)
  rintro _ s₉ ⟨hq₉, htones₉⟩
  refine Post.pure fun st hst => ?_
  rw [hq₉.table]
  rcases htones₉ st hst with hon | hleft
  · rw [haudio₈] at hon
    rcases htones₇ st hon with ⟨hon, hgoesOn⟩ | ⟨rfl, -⟩
    · rw [hu.audio, haudio₁] at hon
      rw [Stops, hprior] at hgoesOn
      have hbusy : hasCellularCallExist s₇ = true := by
        -- with no call left the broadcast would have stopped it
        by_contra hno
        exact hgoesOn (.inr (.inr ⟨rfl, .inr (by simpa using hno)⟩))
      rw [hasCellularCallExist_eq, List.any_eq_true] at hbusy
      obtain ⟨r, hr, hstate⟩ := hbusy
      simp only [Bool.and_eq_true, decide_eq_true_eq] at hstate
      exact .inl ⟨hon, fun hsame => hgoesOn (.inr (.inr ⟨rfl, .inl hsame⟩)), r,
        hrest r hr hstate.2.1, hstate.2.2⟩
    · cases hon
  · exact .inr hleft

/-! ## Reports that leave a tone behind -/

namespace CallTable

/-- The report takes the call out of its ringing state, and stops no tone as it does. -/
def Unrings (info : CallDetailInfo) (r : Row) (t : CallTable) : Prop :=
  match info.state with
  | .holding | .alerting | .disconnecting => True
  | .dialing => t.callAt info.index info.accountId = none ∨ t.Lost info r
  | .active => t.callAt info.index info.accountId = none ∧ t.Lost info r
  | .disconnected => t.callAt info.index info.accountId = none ∧
      (t.Lost info r ∨ ∃ q ∈ t.rows, q.callId ≠ r.callId ∧ q.callState ≠ .disconnecting)
  | _ => (r.callType ≠ info.callType ∨ r.videoState ≠ info.callMode) ∧ r.callState ≠ info.state

/-- Another call rings that way. -/
def OtherRings (r : Row) (st : TelCallState) (t : CallTable) : Prop :=
  ∃ q ∈ t.rows, q.callId ≠ r.callId ∧ q.callState = st

instance (r : Row) (st : TelCallState) (t : CallTable) : Decidable (t.OtherRings r st) := by
  unfold OtherRings; infer_instance

end CallTable

/-- The tone is on as the report looks for its call.  The end of a pending dial may start it for
the call that its conference has left. -/
def Sounds (env : Env) (s : CallManager) (info : CallDetailInfo) (st : TelCallState) : Prop :=
  s.audio.toneOn st = true ∨ Rings info.state ∧ s.table.pending.isSome ∧ env.MayPlay st

/-- The report leaves no tone behind: while the tone of the call it refreshes is on, it does not
take the last call that rings so out of its state, and it starts no tone for a call that is
lost. -/
structure KeepsTune (env : Env) (info : CallDetailInfo) (s : CallManager) : Prop where
  leaves : ∀ r ∈ s.table.refreshedBy info, Sounds env s info r.callState →
    (s.table.heard info).Unrings info r → (s.table.heard info).OtherRings r r.callState
  starts : Rings info.state → ∀ r ∈ s.table.refreshedBy info, (s.table.heard info).Lost info r →
    s.audio.toneOn info.state = true ∨ env.MayPlay info.state →
      (s.table.heard info).OtherRings r info.state

namespace CallTable

variable {t t' : CallTable} {q r : Row} {touched : Option Row}

/-- A ringing call that a report touches is not missed if another one rings so. -/
theorem Spares.rings (hspares : Spares touched t t') (h : t.Inv)
    (htouched : ∀ r ∈ touched, r ∈ t.rows)
    (hq : q ∈ t.rows)
    (hr : ∀ r ∈ touched, r.callState = q.callState →
      t.OtherRings r r.callState ∨ ∃ q' ∈ t'.rows, q'.callState = q.callState) :
    ∃ q' ∈ t'.rows, q'.callState = q.callState := by
  by_cases hall : ∀ r ∈ touched, q.callId ≠ r.callId
  · exact ⟨q, hspares q hq hall, rfl⟩
  push Not at hall
  obtain ⟨r, hmem, hid⟩ := hall
  obtain rfl := h.eq_of_callId hq (htouched r hmem) hid
  rcases hr q hmem rfl with ⟨q', hq', hne, hstate⟩ | hrings
  · refine ⟨q', hspares q' hq' ?_, hstate⟩
    intro r' hr'
    rwa [← Option.mem_unique hmem hr']
  · exact hrings

end CallTable

/-- A report nothing is heard of leaves no tone behind, if the last call that rings so stays. -/
theorem InTune.of_sameAudio (ht : InTune s) (h : s.table.Inv) (haudio : s'.audio = s.audio)
    {touched : Option Row} (hspares : CallTable.Spares touched s.table s'.table)
    (htouched : ∀ r ∈ touched, r ∈ s.table.rows)
    (hr : ∀ r ∈ touched, s.audio.toneOn r.callState = true →
      s.table.OtherRings r r.callState ∨ ∃ q ∈ s'.table.rows, q.callState = r.callState) :
    InTune s' := by
  intro st hst
  rw [haudio] at hst
  obtain ⟨q, hq, rfl⟩ := ht st hst
  refine hspares.rings h htouched hq fun r hmem hstate => ?_
  rw [← hstate]
  exact hr r hmem (hstate ▸ hst)

/-! ## Each report -/

theorem heard_of_not_rings (hst : ¬Rings info.state) (t : CallTable) :
    t.heard info = t := if_neg hst

/-- The reports nothing is heard of. -/
theorem silentReport_inTune {m : Prog CallManager RetCode} [Moves SameAudio m] (h : s.table.Inv)
    (hinfo : info.IsCarried) (ht : InTune s) (hst : info.state.IsSilent)
    (hm : Computes m s (CallTable.report info))
    (hr : ∀ r ∈ s.table.refreshedBy info, s.audio.toneOn r.callState = true →
      s.table.OtherRings r r.callState ∨
        ∃ q ∈ (s.table.report info).2.rows, q.callState = r.callState) :
    Post m s fun _ s' => InTune s' := by
  have hquiet : ¬Rings info.state := by rcases hst with h | h | h | h <;> rw [h] <;> decide
  refine Post.mono (Post.and hm (Post.of_moves (R := SameAudio) m s)) ?_
  rintro ret s' ⟨⟨hret, -⟩, haudio⟩
  have htable : s'.table = (s.table.report info).2 := congrArg Prod.snd hret
  have hspares := CallTable.report_spares h hinfo
  rw [heard_of_not_rings hquiet, ← htable] at hspares
  refine ht.of_sameAudio h haudio hspares (fun r hmem => ?_) (htable ▸ hr)
  have := CallTable.refreshedBy_mem hmem
  rwa [heard_of_not_rings hquiet] at this

/-- A known call that is not lost keeps its state in a `DIALING` report. -/
theorem CallTable.dialing_rings {t : CallTable} {r : Row} (h : t.Inv) (hpos : 0 < info.index)
    (hr : t.callAt info.index info.accountId = some r) (hkept : ¬t.Lost info r) :
    ∃ q ∈ (t.dialing info).2.rows, q.callState = r.callState := by
  have hmem := (callAt_eq_some hr).1
  rw [dialing, if_pos ⟨hpos, .inr (by rw [hr]; rfl)⟩, updateDialing]
  dsimp only
  rw [hr]
  have hrow : (t.refresh r { info with state := .dialing }).1 ∈
      (t.refresh r { info with state := .dialing }).2.rows := mem_refresh h hmem (not_lost.mp hkept)
  exact ⟨_, hrow, refresh_callState h hmem _⟩

/-- `ACTIVE`: a call that is found stops the tones, and only a pending dial is not found. -/
theorem activeHandle_inTune (env : Env) (h : s.table.Inv) (hinfo : info.IsCarried)
    (hst : info.state = .active) (ht : InTune s) (hkeep : KeepsTune env info s) :
    Post (activeHandle env info) s fun _ s' => InTune s' := by
  have hquiet : ¬Rings info.state := by rw [hst]; decide
  refine Post.mono (Post.and (activeHandle_computes env h hinfo) (activeHandle_tones env info s)) ?_
  rintro ret s' ⟨⟨hret, -⟩, ⟨rfl, haudio⟩ | hoff⟩
  · have hfound : (s.table.reported info).1 = none := by
      have hcode := (congrArg Prod.fst hret).symm
      unfold CallTable.active at hcode
      split at hcode
      · next hx => rw [hx]
      · cases hcode
    have htable : s'.table = (s.table.active info).2 := congrArg Prod.snd hret
    have hrefreshed : s.table.refreshedBy info = s.table.taken info := by
      rw [CallTable.refreshedBy, hst]
    refine ht.of_sameAudio h haudio (htable ▸ CallTable.active_spares h hinfo) ?_ ?_
    · intro r hmem
      have := CallTable.refreshedBy_mem (hrefreshed.trans hmem)
      rwa [heard_of_not_rings hquiet] at this
    · intro r hmem hon
      have hnone : s.table.callAt info.index info.accountId = none := by
        by_contra hsome
        obtain ⟨r', hr'⟩ := Option.ne_none_iff_exists'.mp hsome
        rw [CallTable.reported, hr'] at hfound
        cases hfound
      have hlost : s.table.Lost info r := by
        by_contra hkept
        have := CallTable.reported_adopted h hnone hmem hkept
        rw [hfound] at this
        cases this
      have hleaves := hkeep.leaves r (hrefreshed.trans hmem) (.inl hon)
      rw [heard_of_not_rings hquiet] at hleaves
      refine .inl (hleaves ?_)
      rw [CallTable.Unrings, hst]
      exact ⟨hnone, hlost⟩
  · exact fun st hst => absurd hst (by simp [hoff st])

theorem CallTable.reported_of_callAt {t : CallTable} {r : Row}
    (hr : t.callAt info.index info.accountId = some r) : t.reported info = (some r, t) := by
  rw [reported, hr]

theorem disconnectedHandle_tones (env : Env) (h : s.table.Inv) (hinfo : info.IsCarried) :
    Post (disconnectedHandle env info) s fun _ s' =>
      match (s.table.reported info).1 with
      | none => s'.audio = s.audio
      | some r => ∀ st, s'.audio.toneOn st = true →
        (s.audio.toneOn st = true ∧ r.callState ≠ st ∧
          ∃ q ∈ s'.table.rows, q.callState ≠ .disconnecting) ∨
        env.MayPlay st ∧ ∃ q ∈ s'.table.rows, q.callState = st := by
  refine Post.bind (Post.and (reportedCall_post env h hinfo)
    (Post.of_moves (R := SameAudio) _ s)) ?_
  rintro found s₁ ⟨⟨hs₁, h₁, -, hmem⟩, haudio : s₁.audio = s.audio⟩
  have hat : ∀ r, (s.table.reported info).1 = some r → _ := fun r => CallTable.reported_eq_some
  rw [← hs₁] at hat ⊢
  cases found with
  | none => exact Post.pure haudio
  | some p =>
    rw [← haudio]
    exact disconnectCall_tones env h₁ hinfo (hmem p rfl) (h₁.fits (hat _ rfl))

/-- `DISCONNECTED`: the end of a known call stops its tone; a pending dial that is taken for
the call has it stopped only if nothing else goes on. -/
theorem disconnectedHandle_inTune (env : Env) (h : s.table.Inv) (hinfo : info.IsCarried)
    (ht : InTune s)
    (hkeep : s.table.callAt info.index info.accountId = none → ∀ r ∈ s.table.taken info,
      s.audio.toneOn r.callState = true →
        (s.table.Lost info r ∨ ∃ q ∈ s.table.rows, q.callId ≠ r.callId ∧
          q.callState ≠ .disconnecting) →
          s.table.OtherRings r r.callState) :
    Post (disconnectedHandle env info) s fun _ s' => InTune s' ∧
      ∀ st, s'.audio.toneOn st = true → s.audio.toneOn st = true ∨ env.MayPlay st := by
  have htaken : ∀ r ∈ s.table.taken info, r ∈ s.table.rows := by
    intro r hr
    cases hat : s.table.callAt info.index info.accountId with
    | some r' =>
      rw [CallTable.taken_of_callAt hat] at hr
      exact Option.some.inj hr ▸ (CallTable.callAt_eq_some hat).1
    | none => exact (CallTable.pending_eq_some (CallTable.dialing_of_taken hat hr).1).1
  refine Post.mono (Post.and (disconnectedHandle_computes env h hinfo)
    (disconnectedHandle_tones env h hinfo)) ?_
  rintro ret s' ⟨⟨hret, -⟩, htones⟩
  have htable : s'.table = (s.table.disconnected info).2 := congrArg Prod.snd hret
  have hspares : CallTable.Spares (s.table.taken info) s.table s'.table :=
    htable ▸ CallTable.disconnected_spares h hinfo
  -- the report may lose the call it is taken for
  cases hfound : (s.table.reported info).1 with
  | none =>
    rw [hfound] at htones
    refine ⟨ht.of_sameAudio h htones hspares htaken fun r hr hon => ?_,
      fun st hst => .inl (htones ▸ hst)⟩
    have hnone : s.table.callAt info.index info.accountId = none := by
      by_contra hsome
      obtain ⟨r', hr'⟩ := Option.ne_none_iff_exists'.mp hsome
      rw [CallTable.reported_of_callAt hr'] at hfound
      cases hfound
    refine .inl (hkeep hnone r hr hon (.inl ?_))
    by_contra hkept
    have := CallTable.reported_adopted h hnone hr hkept
    rw [hfound] at this
    cases this
  | some r₁ =>
    rw [hfound] at htones
    refine ⟨fun st hst => ?_, fun st hst => (htones st hst).imp And.left And.left⟩
    rcases htones st hst with ⟨hon, hprior, q₁, hq₁, hgoesOn⟩ | ⟨-, hrings⟩
    · obtain ⟨q, hq, rfl⟩ := ht st hon
      refine hspares.rings h htaken hq fun r hr hstate => .inl ?_
      cases hat : s.table.callAt info.index info.accountId with
      | some r' =>
        rw [CallTable.taken_of_callAt hat] at hr
        rw [CallTable.reported_of_callAt hat] at hfound
        obtain rfl := Option.some.inj hr
        obtain rfl := Option.some.inj hfound
        exact absurd hstate hprior
      | none =>
        -- the call that goes was the one that rang: another must ring in its place
        by_cases hlost : s.table.Lost info r
        · exact hkeep hat r hr (hstate ▸ hon) (.inl hlost)
        · have hother := CallTable.mem_disconnected_adopted h hinfo hat hr hlost (htable ▸ hq₁)
          exact hkeep hat r hr (hstate ▸ hon) (.inr ⟨q₁, hother.1, hother.2, hgoesOn⟩)
    · exact hrings

/-- A call that fails is found at its own place, and takes its tone along. -/
theorem dealFailDial_inTune (env : Env) (h : s.table.Inv) (hp : p ∈ s.callObjectPtrList)
    (ht : InTune s) :
    Post (dealFailDial env p) s fun _ s' => InTune s' ∧
      ∀ st, s'.audio.toneOn st = true → s.audio.toneOn st = true ∨ env.MayPlay st := by
  refine Post.bind_gets (Post.ite (fun _ => ⟨ht, fun st hst => .inl hst⟩) fun _ => ?_)
  have hinfo := h.disconnectedInfo_isCarried (s.row_mem_table hp)
  exact disconnectedHandle_inTune env h hinfo ht fun hnone =>
    (CallTable.callAt_eq_none hnone _ (s.row_mem_table hp) ⟨rfl, rfl⟩).elim

/-! ### Ringing reports -/

/-- The pending dial fails before a ringing call is looked for. -/
theorem failPending_inTune (env : Env) (h : s.table.Inv) (ht : InTune s)
    {k : Prog CallManager (RetCode × Bool)} {Q : RetCode × Bool → CallManager → Prop}
    (hk : ∀ s', s'.table = s.table.failPending → InTune s' →
      (∀ st, s'.audio.toneOn st = true → s.audio.toneOn st = true ∨
        s.table.pending.isSome ∧ env.MayPlay st) → Post k s' Q) :
    Post (do
      let initCall ← Prog.gets fun s => getOneCallObjectByIndex s initIndex
      Prog.forSome initCall fun p => (dealFailDial env p).ignore
      k) s Q := by
  refine Post.bind_gets ?_
  have hpend := pending_eq h
  cases hp : getOneCallObjectByIndex s initIndex with
  | none =>
    rw [hp] at hpend
    refine hk s ?_ ht fun st hst => .inl hst
    rw [CallTable.failPending, ← hpend]
    rfl
  | some p =>
    rw [hp] at hpend
    have hmem := mem_of_findCall hp
    refine Post.bind (Q := fun _ s₁ => s₁.table = (s.table.failCall (s.row p)).2 ∧ InTune s₁ ∧
      ∀ st, s₁.audio.toneOn st = true → s.audio.toneOn st = true ∨ env.MayPlay st)
      (Post.ignore (Post.mono (Post.and (dealFailDial_computes env h hmem)
        (dealFailDial_inTune env h hmem ht))
          fun _ s₁ hs₁ => ⟨congrArg Prod.snd hs₁.1.1, hs₁.2⟩)) ?_
    rintro _ s₁ ⟨ht₁, htune, htones⟩
    refine hk s₁ ?_ htune fun st hst => (htones st hst).imp id fun hplay => ⟨?_, hplay⟩
    · rw [CallTable.failPending, ← hpend]
      exact ht₁
    · rw [← hpend]
      rfl

/-- A known call that is announced in a ringing state leaves no other tone behind. -/
theorem announceRinging_inTune (env : Env) (h : s.table.Inv) (hinfo : info.IsCarried)
    (hst : info.state.IsLive) (ht : InTune s) (hp : p ∈ s.callObjectPtrList)
    (hfit : s.table.Fits (s.row p) info)
    (hleaves : s.audio.toneOn (s.call p).callState = true → (s.call p).callState ≠ info.state →
      s.table.OtherRings (s.row p) (s.call p).callState)
    (hstarts : s.table.Lost info (s.row p) →
      s.audio.toneOn info.state = true ∨ env.MayPlay info.state →
        s.table.OtherRings (s.row p) info.state) :
    Post (do
      let q ← refreshCallIfNecessary env p info
      updateCallState env q info.state) s fun _ s' => InTune s' := by
  refine Post.bind (Post.and (refreshed_post env h hinfo hp hfit)
    (Post.of_moves (R := SameAudio) _ s)) ?_
  rintro q s₁ ⟨h₁, haudio : s₁.audio = s.audio⟩
  refine Post.mono (Post.and (announce_post env (.inl hst) h₁.holds)
    (updateCallState_tones env q info.state s₁)) ?_
  rintro _ s₂ ⟨⟨-, ha⟩, -, htones⟩
  have hp' := s.row_mem_table hp
  have htable : s₂.table = (s.table.moveTo info.state info (s.row p)).2 := by
    rw [ha.table, h₁.table, h₁.row]
    rfl
  have hspares : CallTable.Spares (some (s.row p)) s.table s₂.table :=
    htable ▸ CallTable.moveTo_spares h hp' info.state
  have hother {st : TelCallState} (h : s.table.OtherRings (s.row p) st) :
      ∃ r ∈ s₂.table.rows, r.callState = st := by
    obtain ⟨r, hr, hne, hstate⟩ := h
    exact ⟨r, hspares r hr (fun _ h => Option.some.inj h ▸ hne), hstate⟩
  -- the call itself rings as it is announced, unless it is lost
  have hself (hkept : ¬s.table.Lost info (s.row p)) :
    ∃ r ∈ s₂.table.rows, r.callState = info.state := by
    have hmem := CallTable.mem_refresh h hp' (CallTable.not_lost.mp hkept)
    rw [htable]
    exact ⟨_, Keyed.mem_update.mpr ⟨_, hmem, if_pos rfl⟩, rfl⟩
  intro st hon
  rw [haudio] at htones
  by_cases hsame : st = info.state
  · subst hsame
    by_cases hlost : s.table.Lost info (s.row p)
    · exact hother (hstarts hlost ((htones _ hon).imp And.left And.right))
    · exact hself hlost
  · rcases htones st hon with ⟨hon, -⟩ | ⟨hst, -⟩
    · obtain ⟨r, hr, rfl⟩ := ht st hon
      refine hspares.rings h (fun r h => Option.some.inj h ▸ hp') hr fun r' hr' hstate => .inl ?_
      obtain rfl := Option.some.inj hr'
      have hstate : (s.call p).callState = r.callState := hstate
      have hon : s.audio.toneOn (s.call p).callState = true := by rwa [hstate]
      exact hleaves hon fun h => hsame (hstate.symm.trans h)
    · exact absurd hst hsame

/-- `RefreshOldCall`. -/
theorem refreshOldCall_inTune (env : Env) (h : s.table.Inv) (hinfo : info.IsCarried)
    (hst : Rings info.state) (ht : InTune s) (hkeep : KeepsTune env info s) :
    Post (refreshOldCall env info) s fun _ s' => InTune s' := by
  have hlive : info.state.IsLive := by rcases hst with hs | hs <;> rw [hs] <;> decide
  have hheard : s.table.heard info = s.table.failPending := if_pos hst
  have hrefreshed : s.table.refreshedBy info =
      s.table.failPending.callAt info.index info.accountId := by
    rcases hst with hs | hs <;> rw [CallTable.refreshedBy, hs]
  refine failPending_inTune env h ht fun s₁ ht₁ htune hsounds => ?_
  have h₁ : s₁.table.Inv := ht₁ ▸ h.failPending
  refine Post.bind_gets ?_
  have hat := callAt_eq h₁ info.index info.accountId
  cases hknown : getOneCallObjectByIndexSlotIdAndCallType s₁ info.index info.accountId with
  | none => exact Post.pure htune
  | some p =>
    rw [hknown] at hat
    have hp := mem_of_callAt hknown
    have hmem : s.table.refreshedBy info = some (s₁.row p) := by
      rw [hrefreshed, ← ht₁]
      exact hat.symm
    have hleaves := hkeep.leaves _ hmem
    have hstarts := hkeep.starts hst _ hmem
    rw [hheard, ← ht₁] at hleaves hstarts
    refine Post.bind_gets (Post.ite (fun hdiff => ?_) fun _ => Post.pure htune)
    by_cases hann : (s₁.call p).callType ≠ info.callType ∨ (s₁.call p).videoState ≠ info.callMode
    · let announced : Prog CallManager RetCode := do
        let q ← refreshCallIfNecessary env p info
        updateCallState env q info.state
      refine @Post.congr _ _ _ _ _ (announced >>= fun ret => pure (ret, true)) ?_ ?_
      · rw [Prog.bind_apply, if_pos hann]
        rfl
      refine Post.bind (Q := fun _ s₂ => InTune s₂) ?_ fun _ s₂ h₂ => h₂
      refine announceRinging_inTune env h₁ hinfo hlive htune hp (h₁.fits hat.symm) ?_ ?_
      · intro hon hne
        refine hleaves ?_ ?_
        · exact (hsounds _ hon).imp id fun h => ⟨hst, h⟩
        · rcases hst with hs | hs <;> rw [CallTable.Unrings, hs] <;> exact ⟨hann, hs ▸ hne⟩
      · intro hlost hon
        refine hstarts hlost ?_
        rcases hon with hon | hplay
        · exact (hsounds _ hon).imp id And.right
        · exact .inr hplay
    · have hsame : (s₁.row p).callType = info.callType := (not_not.mp (not_or.mp hann).1)
      have hp' := s₁.row_mem_table hp
      refine @Post.congr _ _ _ _ _ (refreshCallIfNecessary env p info >>= fun _ =>
        pure (RetCode.success, true)) ?_ ?_
      · rw [Prog.bind_apply, if_neg hann]
        rfl
      refine Post.bind (Post.and (refreshed_post env h₁ hinfo hp (h₁.fits hat.symm))
        (Post.of_moves (R := SameAudio) _ s₁)) ?_
      rintro q s₂ ⟨h₂, haudio⟩
      refine Post.pure (?_ : InTune s₂)
      have hspares : CallTable.Spares (some (s₁.row p)) s₁.table s₂.table := by
        rw [h₂.table]
        exact CallTable.refresh_spares h₁ hp'
      refine htune.of_sameAudio h₁ haudio hspares ?_ ?_
      · exact fun r hr => Option.some.inj hr ▸ hp'
      · intro r hr _
        obtain rfl := Option.some.inj hr
        rw [h₂.table]
        exact .inr ⟨_, CallTable.mem_refresh h₁ hp' (.inl hsame),
          CallTable.refresh_callState h₁ hp' info⟩

/-- A new ringing call is heard, if it enters the table. -/
theorem addIncomingCall_inTune (env : Env) (h : s.table.Inv) (hinfo : info.IsCarried)
    (hst : Rings info.state) (hnone : s.table.callAt info.index info.accountId = none)
    (ht : InTune s) :
    Post (do
      let created ← createNewCall env info .incoming
      match created with
      | none => pure RetCode.callErrCallObjectIsNull
      | some p => do
        let ret ← addOneCallObject p
        if ret ≠ .success then do
          let _ ← handleRejectCall env p
          pure ret
        else do
          notifyNewCallCreated p
          finalizeIncomingState env p info.state) s fun _ s' => InTune s' := by
  refine Post.mono (Post.and (addIncomingCall_computes env h hinfo hst hnone)
    (?_ : Post _ s fun _ s' => ∀ st, s'.audio.toneOn st = true →
      s.audio.toneOn st = true ∨ st = info.state ∧ (s.table.addIncoming info).1 = .success)) ?_
  · refine Post.bind (Post.and (createNewCall_post env h hinfo _)
      (Post.of_moves (R := SameAudio) _ s)) ?_
    rintro _ s₁ ⟨⟨rfl, h₁⟩, haudio₁ : s₁.audio = s.audio⟩
    refine Post.bind (Post.and (addOneCallObject_post s₁ s.calls.next)
      (Post.of_moves (R := SameAudio) _ s₁)) ?_
    rintro ret s₂ ⟨⟨hret, -⟩, haudio₂ : s₂.audio = s₁.audio⟩
    rw [h₁.row, h₁.table] at hret
    refine Post.ite (fun _ => ?_) fun hok => ?_
    · refine Post.bind (Post.of_moves (R := SameAudio) _ s₂)
        fun _ s₃ (haudio₃ : s₃.audio = s₂.audio) => ?_
      refine Post.pure fun st hon => .inl ?_
      rwa [haudio₃, haudio₂, haudio₁] at hon
    · have hentered : (s.table.addIncoming info).1 = .success := by
        unfold CallTable.addIncoming
        rw [if_pos (hret.symm.trans (not_not.mp hok))]
      refine Post.bind (Post.of_moves (R := SameAudio) _ s₂)
        fun _ s₃ (haudio₃ : s₃.audio = s₂.audio) => ?_
      refine Post.bind (updateCallState_tones env s.calls.next info.state s₃) ?_
      rintro _ s₄ ⟨rfl, htones⟩
      rw [if_neg (by decide)]
      refine Post.mono (Post.of_moves (R := SameAudio) _ s₄)
        fun _ s₅ (haudio₅ : s₅.audio = s₄.audio) st hon => ?_
      rw [haudio₃, haudio₂, haudio₁] at htones
      exact (htones st (haudio₅ ▸ hon)).imp And.left fun h => ⟨h.1, hentered⟩
  · rintro ret s' ⟨⟨hret, -⟩, htones⟩ st hon
    have htable : s'.table = (s.table.addIncoming info).2 := congrArg Prod.snd hret
    rcases htones st hon with hon | ⟨rfl, hok⟩
    · obtain ⟨r, hr, rfl⟩ := ht st hon
      have hspares : CallTable.Spares none s.table s'.table := htable ▸ CallTable.addIncoming_spares
      exact ⟨r, hspares r hr (fun _ h => nomatch h), rfl⟩
    · obtain ⟨r, hr, -, -, hstate⟩ := CallTable.addIncoming_at hok
      exact ⟨r, htable ▸ hr, hstate⟩

/-- `IncomingHandle`, and `WaitingHandle`. -/
theorem incomingHandle_inTune (env : Env) (h : s.table.Inv) (hinfo : info.IsCarried)
    (hst : Rings info.state) (ht : InTune s) (hkeep : KeepsTune env info s) :
    Post (incomingHandle env info) s fun _ s' => InTune s' := by
  have hlive : info.state.IsLive := by rcases hst with hs | hs <;> rw [hs] <;> decide
  refine Post.bind (Post.and (refreshOldCall_post env h hinfo hlive)
    (refreshOldCall_inTune env h hinfo hst ht hkeep)) ?_
  rintro ⟨code, old⟩ s₁ ⟨⟨hcode, -, hold⟩, hs₁⟩
  dsimp only at hcode hold ⊢
  subst hcode
  refine Post.ite (fun _ => Post.pure hs₁) fun hnew => ?_
  cases hat : s.table.failPending.callAt info.index info.accountId with
  | some r =>
    rw [hat] at hold
    exact absurd (.inl hold.1) hnew
  | none =>
    rw [hat] at hold
    have h₁ : s₁.table.Inv := hold.2 ▸ h.failPending
    exact addIncomingCall_inTune env h₁ hinfo hst (hold.2 ▸ hat) hs₁

/-- **A report leaves the tones matching the ringing calls**, if it leaves no tone behind. -/
theorem handleCallReportInfo_inTune (env : Env) (h : s.table.Inv) (hinfo : info.IsCarried)
    (ht : InTune s) (hkeep : KeepsTune env info s) :
    Post (handleCallReportInfo env info) s fun _ s' => InTune s' := by
  have hm := handleCallReportInfo_refines env h hinfo
  have hleaves (hquiet : ¬Rings info.state) : ∀ r ∈ s.table.refreshedBy info,
      s.audio.toneOn r.callState = true → s.table.Unrings info r →
        s.table.OtherRings r r.callState := by
    intro r hr hon hun
    have := hkeep.leaves r hr (.inl hon)
    rw [heard_of_not_rings hquiet] at this
    exact this hun
  unfold handleCallReportInfo at hm ⊢
  cases hst : info.state with
  | active => exact activeHandle_inTune env h hinfo hst ht hkeep
  | holding =>
    simp only [hst] at hm
    refine silentReport_inTune h hinfo ht (.inr (.inr (.inl hst))) hm fun r hr hon => .inl ?_
    exact hleaves (by rw [hst]; decide) r hr hon (by rw [CallTable.Unrings, hst]; trivial)
  | alerting =>
    simp only [hst] at hm
    refine silentReport_inTune h hinfo ht (.inr (.inl hst)) hm fun r hr hon => .inl ?_
    exact hleaves (by rw [hst]; decide) r hr hon (by rw [CallTable.Unrings, hst]; trivial)
  | disconnecting =>
    simp only [hst] at hm
    refine silentReport_inTune h hinfo ht (.inr (.inr (.inr hst))) hm fun r hr hon => .inl ?_
    exact hleaves (by rw [hst]; decide) r hr hon (by rw [CallTable.Unrings, hst]; trivial)
  | dialing =>
    simp only [hst] at hm
    refine silentReport_inTune h hinfo ht (.inl hst) hm fun r hr hon => ?_
    by_cases hun : s.table.Unrings info r
    · exact .inl (hleaves (by rw [hst]; decide) r hr hon hun)
    · rw [CallTable.Unrings, hst] at hun
      obtain ⟨hknown, hkept⟩ := not_or.mp hun
      obtain ⟨r', hr'⟩ := Option.ne_none_iff_exists'.mp hknown
      have hrefreshed : (if 0 < info.index then s.table.taken info else none) = some r := by
        have := hr
        rwa [CallTable.refreshedBy, hst] at this
      split at hrefreshed
      · next hpos =>
        rw [CallTable.taken_of_callAt hr'] at hrefreshed
        obtain rfl := Option.some.inj hrefreshed
        rw [CallTable.report, hst]
        exact .inr (CallTable.dialing_rings h hpos hr' hkept)
      · cases hrefreshed
  | incoming => exact incomingHandle_inTune env h hinfo (.inl hst) ht hkeep
  | waiting => exact incomingHandle_inTune env h hinfo (.inr hst) ht hkeep
  | disconnected =>
    refine Post.mono (disconnectedHandle_inTune env h hinfo ht ?_) fun _ _ hs' => hs'.1
    intro hnone r hr hon hmissed
    refine hleaves (by rw [hst]; decide) r ?_ hon ?_
    · rw [CallTable.refreshedBy, hst]
      exact hr
    · rw [CallTable.Unrings, hst]
      exact ⟨hnone, hmissed⟩
  | unknown | idle | answered => exact Post.pure ht

/-! ## Operations -/

/-- Where the rows stay and no tone starts, the tones still match. -/
theorem InTune.soften (ht : InTune s) (hrows : s'.table.rows = s.table.rows) (hs : Softer s s') :
    InTune s' := fun st hst => hrows ▸ ht st (hs st hst)

section Control

instance : Timeless Softer :=
  { Plain.of_aside (R := Softer) fun h _ hst => h.audio ▸ hst with
    timers := fun _ _ _ _ _ _ h => h }

instance : Flagging Softer := .of_aside fun h _ hst => h.audio ▸ hst

instance : Posting Softer where
  requests _ _ _ h := h

instance (c : CallBase) (prior next : TelCallState) :
    Moves Softer (emit (.callStateUpdated c prior next)) := .of_modify fun _ _ h => h

instance : Muting Softer where
  muted env := ⟨fun s => (stopRingtone_softer env s).1⟩

instance : Answering Softer where
  answered env p prior := by
    have : Moves Softer (audioCallStateUpdated env prior .answered) := ⟨fun s st hst =>
      (audioCallStateUpdated_tones env prior .answered s st hst).elim (fun h => h.1)
        fun h => by rw [h.1] at hst; cases hst⟩
    unfold notifyCallStateUpdated
    infer_instance

end Control

/-- An operation that leaves the table alone and starts no tone. -/
theorem InTune.post {α : Type} (ht : InTune s) (m : Prog CallManager α) [Moves Quiet m]
    [Moves Softer m] : Post m s fun _ s' => InTune s' :=
  ht.soften (congrArg CallTable.rows (Moves.rel (R := Quiet) s).table) (Moves.rel s)

theorem handleEventResultReportInfo_inTune (env : Env) (h : s.table.Inv)
    (eventId : RequestResultEventId) (ht : InTune s) :
    Post (handleEventResultReportInfo env eventId) s fun _ s' => InTune s' := by
  refine Post.bind_gets (Post.bind (Q := fun _ s₁ => InTune s₁) ?_ fun _ s₁ hs₁ => ?_)
  · cases hp : getOneCallObjectByState s .dialing with
    | none => exact ht
    | some p =>
      exact Post.ignore (Post.mono (dealFailDial_inTune env h (mem_of_findLastCall hp) ht)
        fun _ _ hs' => hs'.1)
  · split <;> exact hs₁.post _

theorem delayedTask_inTune (env : Env) (h : s.table.Inv) (taskId : Nat) (ht : InTune s) :
    Post (delayedTask env taskId) s fun _ s' => InTune s' := by
  refine Post.bind_gets ?_
  cases htask : s.delayed.find? fun t => t.1 = taskId with
  | none => exact ht
  | some task =>
    refine Post.bind_modify ?_
    obtain ⟨id, task⟩ := task
    cases task with
    | restoreDialingFlag => exact ht
    | pendingHangupProtect callId =>
      refine Post.bind_modify (Post.bind_gets ?_)
      set s₂ : CallManager :=
        { s with delayed := s.delayed.filter fun t => t.1 ≠ taskId, pendingHangupTaskId := 0 }
      refine Post.when (fun _ => Post.bind_gets ?_) fun _ => ht
      refine Post.bind (Q := fun _ s₃ => InTune s₃) ?_ fun _ s₃ hs₃ => hs₃.post _
      cases hp : getOneCallObject s₂ callId with
      | none => exact ht
      | some p =>
        exact Post.ignore (Post.mono (dealFailDial_inTune env (s := s₂) h (mem_of_findCall hp) ht)
          fun _ _ hs' => hs'.1)

/-! ## Dials -/

/-- A dial that was admitted goes out, or its call fails. -/
theorem handleStartDial_inTune (env : Env) (h : s.table.Inv) {l : List Ref}
    (hl : s.callObjectPtrList = l ++ [p]) (hp : (s.call p).callRunningState = .dialing)
    {dial : DialParaInfo} (ht : InTune s) :
    Post (handleStartDial env dial) s fun _ s' => InTune s' := by
  refine Post.ite (fun _ => ht) fun _ => ?_
  refine Post.bind (Q := fun _ s₁ => s₁ = s.logged (.command (.dial dial.packCellularCallInfo)
    (env.stack s.log (.dial dial.packCellularCallInfo)))) rfl ?_
  rintro ret s₁ hs₁
  have h₁ : s₁.table.Inv := by
    rw [hs₁, table_logged_dial]
    exact h.dialed _ _
  have ht₁ : InTune s₁ := by
    rw [hs₁]
    exact ht
  refine Post.ite (fun _ => ?_) fun _ => ht₁
  have hdialing : getDialingCall s₁ = some p := by
    rw [hs₁] at h₁ ⊢
    exact getDialingCall_eq h₁ hl hp
  refine Post.bind (Q := fun _ s₂ => InTune s₂) ?_ fun _ s₂ hs₂ => hs₂
  refine Post.bind_gets ?_
  rw [hdialing]
  refine Post.mono (dealFailDial_inTune env h₁ ?_ ht₁) fun _ _ hs' => hs'.1
  rw [hs₁]
  show p ∈ s.callObjectPtrList
  rw [hl]
  exact List.mem_append_right _ (List.mem_singleton.mpr rfl)

/-- A new dial rings nowhere. -/
theorem addDialingCall_inTune (env : Env) (h : s.table.Inv) (hinfo : info.IsCarried)
    (hst : info.state = .dialing) (ht : InTune s) :
    Post (addDialingCall env info) s fun _ s' => InTune s' := by
  refine Post.mono (Post.and (addDialingCall_computes env h hinfo hst)
    (Post.of_moves (R := SameAudio) _ s)) ?_
  rintro ret s' ⟨⟨hret, -⟩, haudio⟩
  have htable : s'.table = (s.table.addDialing info).2 := congrArg Prod.snd hret
  have hspares : CallTable.Spares none s.table s'.table := by
    rw [htable]
    exact CallTable.addDialing_spares
  exact ht.of_sameAudio h haudio hspares (fun _ h => nomatch h) fun _ h => nomatch h

theorem prepareDial_inTune (env : Env) (h : SavedDial s) (ht : InTune s) :
    Post (prepareDial env s.dialSrcInfo) s fun _ s' => InTune s' := by
  refine prepareDial_rule env ?_
  have htable : (flagRaised env s).table = s.table := flagRaised_table env s
  have hraised : InTune (flagRaised env s) :=
    ht.soften (congrArg CallTable.rows htable) (Moves.rel (m := do
      restoreDialingFlag true
      setDialingCallProcessing env) s)
  refine Post.bind (Q := fun _ s₁ => InTune s₁ ∧ s₁.table = s.table) ?_ ?_
  · exact ⟨hraised.post (handleDialingInfo env (removeSeparatorsPhoneNumber s.dialSrcInfo.number)
        s.dialSrcInfo), (Moves.rel (R := Quiet) (m := handleDialingInfo env
          (removeSeparatorsPhoneNumber s.dialSrcInfo.number) s.dialSrcInfo)
        (flagRaised env s)).table.trans htable⟩
  · rintro ret s₁ ⟨hs₁, ht₁⟩
    refine Post.ite (fun _ => hs₁) fun _ => ?_
    have hnumber : (removeSeparatorsPhoneNumber s.dialSrcInfo.number).length ≤ kMaxNumberLen :=
      h.isCarried.number
    rw [updateCallReportInfo_dialing env h.index hnumber]
    exact addDialingCall_inTune env (ht₁ ▸ h.inv) h.isCarried rfl hs₁

theorem carrierDialProcess_inTune (env : Env) (h : SavedDial s) (ht : InTune s) :
    Post (carrierDialProcess env s.dialSrcInfo) s fun _ s' => InTune s' := by
  refine Post.congr (carrierDialProcess_eq env s.dialSrcInfo h.flag) ?_
  refine Post.bind (Post.and (prepareDial_inTune env h ht) (prepareDial_post env h)) ?_
  rintro ret s₁ ⟨hs₁, hprep⟩
  by_cases hadm : DialAdmitted env s
  · rw [if_pos hadm] at hprep
    obtain ⟨rfl, ha⟩ := hprep
    rw [if_neg (by simp)]
    exact handleStartDial_inTune env ha.inv ha.list (congrArg Row.callRunningState ha.row) hs₁
  · rw [if_neg hadm] at hprep
    rw [if_pos hprep.1]
    exact hs₁.soften (congrArg CallTable.rows (abandonDial_post s₁ ret).2.1)
      (Moves.rel (m := abandonDial ret) s₁)

theorem dialCall_inTune (env : Env) (h : ServiceInv s) (ht : InTune s) (number : List UInt16)
    (extras : DialExtras) :
    Post (CallControlManager.dialCall env number extras) s fun _ s' => InTune s' := by
  unfold CallControlManager.dialCall
  cases hlegal : numberLegalityCheck (str16ToStr8 number) with
  | error ret => exact ht
  | ok accountNumber =>
    have hscreened : InTune (screenDial env accountNumber extras s).2 :=
      ht.post (screenDial env accountNumber extras)
    show Post (CallControlManager.dialLegalNumber env accountNumber extras) s _
    rw [dialLegalNumber_eq]
    refine Post.bind (Q := fun x s₁ => x = (screenDial env accountNumber extras s).1 ∧
      s₁ = (screenDial env accountNumber extras s).2) ⟨rfl, rfl⟩ ?_
    rintro _ _ ⟨rfl, rfl⟩
    refine Post.ite (fun _ => hscreened) fun hok => ?_
    obtain ⟨hsaved, heq⟩ := savedDial_saved env h (length_removeSeparators_le hlegal)
      (not_not.mp hok)
    have htune : InTune (savedDial env accountNumber extras s) := hscreened
    have hdial := carrierDialProcess_inTune env hsaved htune
    show InTune (dialRequest env (savedDial env accountNumber extras s)).2
    rw [heq]
    exact hdial

/-! ## Whole steps -/

/-- Each of the reports leaves no tone behind in the state in which it is handled. -/
abbrev AllKeepTune (env : Env) : List CallDetailInfo → CallManager → Prop :=
  Runs.Allowed (afterReport env) (KeepsTune env)

/-- The reports of a loop are handled one after the other. -/
theorem forEach_inTune (env : Env) {α : Type} {c : α → Bool} {g : α → CallDetailInfo}
    {l : List α} (hinfo : ∀ a ∈ l, (g a).IsCarried) (h : s.table.Inv) (ht : InTune s)
    (hkeep : AllKeepTune env ((l.filter c).map g) s) :
    Post (Prog.forEach l fun a => Prog.when (c a) (handleCallReportInfo env (g a)).ignore) s
      fun _ s' => s'.table.Inv ∧ InTune s' ∧
        s' = ((l.filter c).map g).foldl (fun s info => afterReport env info s) s := by
  induction l generalizing s with
  | nil => exact ⟨h, ht, rfl⟩
  | cons a l ih =>
    have hrest : ∀ b ∈ l, (g b).IsCarried := fun b hb => hinfo b (List.mem_cons_of_mem _ hb)
    have hcarried : (g a).IsCarried := hinfo a List.mem_cons_self
    unfold Post
    rw [Prog.forEach_cons, Prog.when_apply]
    cases hc : c a with
    | false =>
      rw [List.filter_cons_of_neg (by simp [hc])] at hkeep ⊢
      exact ih hrest h ht hkeep
    | true =>
      rw [List.filter_cons_of_pos hc] at hkeep ⊢
      obtain ⟨hfirst, hlater⟩ := hkeep
      have ht₁ : InTune (afterReport env (g a) s) :=
        handleCallReportInfo_inTune env h hcarried ht hfirst
      have htable : (afterReport env (g a) s).table = (s.table.report (g a)).2 :=
        congrArg Prod.snd (handleCallReportInfo_refines env h hcarried).1
      have h₁ : (afterReport env (g a) s).table.Inv := htable ▸ h.report hcarried
      exact ih hrest h₁ ht₁ hlater

/-- A list of reports. -/
theorem handleEntries_inTune (env : Env) (h : s.table.Inv) (ht : InTune s) (slotId : Int)
    {recorded callVec : List CallDetailInfo} (hrecorded : ∀ it ∈ recorded, it.IsCarried)
    (hinfo : ∀ it ∈ callVec, it.IsCarried)
    (hkeep : AllKeepTune env (handledReports recorded callVec) s) :
    Post (handleEntries env slotId recorded callVec) s fun _ s' => InTune s' := by
  obtain ⟨hlisted, hgone⟩ := Runs.allowed_append.mp hkeep
  refine Post.bind (forEach_inTune (g := id) env hinfo h ht (by simpa using hlisted)) ?_
  rintro _ s₁ ⟨h₁, hs₁, rfl⟩
  refine Post.bind (forEach_inTune (g := fun it2 => { it2 with state := .disconnected }) env
    (fun it hit => (hrecorded it hit).withState .disconnected) h₁ hs₁
      (by simpa [vanished] using hgone)) ?_
  rintro _ s₂ ⟨-, hs₂, -⟩
  exact Post.bind_modify (Post.pure hs₂)

/-- No report of the step leaves a tone behind. -/
def StepKeepsTune (step : Env × Input) (s : CallManager) : Prop :=
  AllKeepTune step.1 (step.2.reports s) (step.2.listed s)

/-- One main-loop step. -/
theorem mainLoopStep_inTune (env : Env) (h : ServiceInv s) (ht : InTune s) {input : Input}
    (hkeep : StepKeepsTune (env, input) s) :
    Post (mainLoopStep env input) s fun _ s' => InTune s' := by
  unfold StepKeepsTune at hkeep
  cases input with
  | callReport info =>
    refine Post.when (fun hv => ?_) fun _ => ht
    simp only [Input.reports, hv, if_true] at hkeep
    exact Post.ignore (handleCallReportInfo_inTune env h.table (isCarried_toDetail hv) ht hkeep.1)
  | callsReport slotId callVec =>
    refine Post.when (fun hv => ?_) fun _ => ht
    simp only [Input.reports, hv, if_true] at hkeep
    simp only [isValidReportList, Bool.and_eq_true, List.all_eq_true, decide_eq_true_eq] at hv
    have hcarried : ∀ it ∈ callVec.map CallReportInfo.toListDetail, it.IsCarried := by
      intro it hit
      obtain ⟨c, hc, rfl⟩ := List.mem_map.mp hit
      exact isCarried_toListDetail (hv.2 c hc).1
    refine Post.ignore ?_
    unfold Post
    rw [handleCallsReportInfo_eq env hv.1.2]
    exact handleEntries_inTune env (s := Input.listed s (.callsReport slotId callVec)) h.table ht
      slotId (fun it hit => (h.recorded slotId it hit).1) hcarried hkeep
  | disconnectedCause reason =>
    exact Post.ignore (ht.post (handleDisconnectedCause reason))
  | eventResult eventId =>
    exact Post.ignore (handleEventResultReportInfo_inTune env h.table eventId ht)
  | dialCall caller number extras =>
    refine Post.ignore ?_
    unfold CallManagerService.dialCall
    refine Post.ite (fun _ => ht) fun _ => ?_
    refine Post.ite (fun _ => ht) fun _ => ?_
    refine Post.ite (fun _ => ht) fun _ => ?_
    exact dialCall_inTune env h ht number (buildDialInfo extras)
  | answerCall callId videoState isRTT =>
    exact Post.ignore (ht.post (CallControlManager.answerCall env callId videoState isRTT))
  | rejectCall callId rejectWithMessage =>
    exact Post.ignore (ht.post (CallControlManager.rejectCall env callId rejectWithMessage))
  | hangUpCall callId => exact Post.ignore (ht.post (CallControlManager.hangUpCall env callId))
  | holdCall callId => exact Post.ignore (ht.post (CallControlManager.holdCall env callId))
  | unHoldCall callId => exact Post.ignore (ht.post (CallControlManager.unHoldCall env callId))
  | switchCall callId => exact Post.ignore (ht.post (CallControlManager.switchCall env callId))
  | endCall => exact Post.ignore (ht.post (CallControlManager.endCall env))
  | nextRequest => exact ht.post (CallManagerMini.nextRequest env)
  | delayedTask taskId => exact delayedTask_inTune env h.table taskId ht

/-! ## Whole runs -/

/-- The states of the runs in which no report leaves a tone behind. -/
def TuneKeeping : CallManager → Prop :=
  Runs.Reachable (· = CallManager.init)
    (Runs.Step (fun step s => (mainLoopStep step.1 step.2 s).2) StepKeepsTune)

theorem TuneKeeping.reachable (hs : TuneKeeping s) : Reachable s :=
  hs.mono fun _ _ ⟨step, _, heq⟩ => ⟨step.1, step.2, heq⟩

theorem TuneKeeping.inTune (hs : TuneKeeping s) : InTune s := by
  refine hs.invariant_of (I := InTune) (J := ServiceInv)
    (fun s hs => reachable_inv (TuneKeeping.reachable hs)) ?_ ?_
  · rintro s rfl st hst
    cases st <;> cases hst
  · rintro s s' h ht ⟨step, hkeep, rfl⟩
    exact mainLoopStep_inTune step.1 h ht hkeep

/-- The tones match the ringing calls. -/
structure TonesMatch (s : CallManager) : Prop where
  ringtone : s.audio.ringtonePlaying = true →
    ∃ p ∈ s.callObjectPtrList, (s.call p).callState = .incoming
  waitingTone : s.audio.waitingTonePlaying = true →
    ∃ p ∈ s.callObjectPtrList, (s.call p).callState = .waiting

theorem InTune.tonesMatch (ht : InTune s) : TonesMatch s := by
  have hcall (st : TelCallState) (hon : s.audio.toneOn st = true) :
      ∃ p ∈ s.callObjectPtrList, (s.call p).callState = st := by
    obtain ⟨r, hr, hstate⟩ := ht st hon
    obtain ⟨p, hp, rfl⟩ := CallManager.mem_table_rows.mp hr
    exact ⟨p, hp, hstate⟩
  exact ⟨hcall .incoming, hcall .waiting⟩

/-- It is enough that another call rings the same way. -/
theorem keepsTune_of_otherRings
    (h : ∀ r ∈ s.table.refreshedBy info, (s.table.heard info).OtherRings r r.callState ∧
      (Rings info.state → (s.table.heard info).OtherRings r info.state)) :
        KeepsTune env info s where
  leaves r hr _ _ := (h r hr).1
  starts hst r hr _ _ := (h r hr).2 hst

/-- Reports, each a step of its own. -/
def reportSteps (infos : List CallReportInfo) : List (Env × Input) :=
  infos.map fun info => (.obliging, .callReport info)

end CallManagerMini
