import CallManagerMini.ServiceLives
import CallManagerMini.Tones

/-! # What the audio manager knows of the audio

`AudioControlManager` keeps three flags about an implementation it only sends requests to: it
believes a start if the implementation accepts it, and a stop in any case.  Nothing else moves the
flags, and no request is sent that would not: over any number of lives of the service, the requests
and their replies, read one after the other, lead to the flags (`Service.audio_follows`).  So an
implementation that never refuses to stop does exactly what the flags say, and nothing while the
service is down.
-/

namespace CallManagerMini

open Prog (Post Moves)

/-- What the audio manager knows after one more request; nothing, if the request was uncalled
for: a tone is started that plays, or stopped that does not. -/
def AudioControl.hear (a : AudioControl) : AudioRequest × Option Int → Option AudioControl
  | (.startRingtone, reply) =>
    if a.ringtonePlaying then none else some { a with ringtonePlaying := reply = some 0 }
  | (.stopRingtone, _) => if a.ringtonePlaying
    then some { a with ringtonePlaying := false } else none
  | (.playWaitingTone, reply) =>
    if a.waitingTonePlaying then none else some { a with waitingTonePlaying := reply = some 0 }
  | (.stopWaitingTone, _) =>
    if a.waitingTonePlaying then some { a with waitingTonePlaying := false } else none
  | (.setCallAudioActive true, reply) =>
    if a.callAudioActive then none else some { a with callAudioActive := reply = some 0 }
  | (.setCallAudioActive false, _) =>
    if a.callAudioActive then some { a with callAudioActive := false } else none

/-- The request is carried out. -/
def AudioControl.after (a : AudioControl) : AudioRequest → AudioControl
  | .startRingtone => { a with ringtonePlaying := true }
  | .stopRingtone => { a with ringtonePlaying := false }
  | .playWaitingTone => { a with waitingTonePlaying := true }
  | .stopWaitingTone => { a with waitingTonePlaying := false }
  | .setCallAudioActive active => { a with callAudioActive := active }

/-- What an implementation does that carries out the requests it accepts. -/
def AudioControl.obey (a : AudioControl) (x : AudioRequest × Option Int) : AudioControl :=
  if x.2 = some 0 then a.after x.1 else a

/-- A request to stop something. -/
def AudioRequest.IsStop (r : AudioRequest) : Prop :=
  r = .stopRingtone ∨ r = .stopWaitingTone ∨ r = .setCallAudioActive false

/-- What the audio manager knows is what the implementation does, unless a stop was refused. -/
theorem AudioControl.obey_of_hear {a a' : AudioControl} {x : AudioRequest × Option Int}
    (h : a.hear x = some a') (hstop : x.1.IsStop → x.2 = some 0) : a.obey x = a' := by
  obtain ⟨r, reply⟩ := x
  obtain ⟨ringing, waiting, active⟩ := a
  unfold obey
  by_cases hreply : reply = some 0
  · -- the request is carried out, and the manager believes it
    rw [if_pos hreply]
    cases r with
    | setCallAudioActive on => cases on <;> simp_all [hear, after]
    | _ => simp_all [hear, after]
  · -- only a start can have been refused, and the manager knows it was
    rw [if_neg hreply]
    cases r with
    | setCallAudioActive on => cases on <;> simp_all [hear, AudioRequest.IsStop]
    | _ => simp_all [hear, AudioRequest.IsStop]

theorem obey_of_hears {a a' : AudioControl} {xs : List (AudioRequest × Option Int)}
    (h : xs.foldlM AudioControl.hear a = some a') (hstop : ∀ x ∈ xs, x.1.IsStop → x.2 = some 0) :
    xs.foldl AudioControl.obey a = a' := by
  induction xs generalizing a with
  | nil => exact Option.some.inj h
  | cons x xs ih =>
    rw [List.foldlM_cons] at h
    obtain ⟨b, hb, hrest⟩ := Option.bind_eq_some_iff.mp h
    rw [List.foldl_cons, AudioControl.obey_of_hear hb (hstop x List.mem_cons_self)]
    exact ih hrest fun y hy => hstop y (List.mem_cons_of_mem x hy)

/-! ## Programs the flags follow -/

/-- What was asked in between, and answered, leads from the flags to the flags. -/
def Follows (s s' : CallManager) : Prop :=
  ∃ xs, s'.sounds = s.sounds ++ xs ∧ xs.foldlM AudioControl.hear s.audio = some s'.audio

section Follows
variable {s s' : CallManager} {env : Env}

theorem Follows.trans {s'' : CallManager} (h : Follows s s') (h' : Follows s' s'') :
    Follows s s'' := by
  obtain ⟨xs, hxs, hhear⟩ := h
  obtain ⟨ys, hys, hhear'⟩ := h'
  refine ⟨xs ++ ys, by rw [hys, hxs, List.append_assoc], ?_⟩
  rw [List.foldlM_append, hhear]
  exact hhear'

theorem Follows.of_same (hsounds : s'.sounds = s.sounds) (haudio : s'.audio = s.audio) :
    Follows s s' := ⟨[], by rw [hsounds, List.append_nil], congrArg some haudio.symm⟩

theorem Follows.of_one {x : AudioRequest × Option Int} (hsounds : s'.sounds = s.sounds ++ [x])
    (hhear : s.audio.hear x = some s'.audio) : Follows s s' := by
  refine ⟨[x], hsounds, ?_⟩
  rw [List.foldlM_cons, hhear]
  rfl

instance : Std.Refl Follows := ⟨fun _ => .of_same rfl rfl⟩

instance : IsTrans CallManager Follows := ⟨fun _ _ _ => Follows.trans⟩

theorem requestAudio_sounds (env : Env) (r : AudioRequest) (s : CallManager) :
    (requestAudio env r s).2.sounds = s.sounds ++ [(r, env.audio s.log r)] :=
  s.sounds_logged _

theorem requestAudio_code (env : Env) (r : AudioRequest) (s : CallManager) :
    (requestAudio env r s).1 = .success ↔ env.audio s.log r = some 0 := by
  unfold requestAudio
  dsimp only
  cases env.audio s.log r with
  | none => simp
  | some code => simp [RetCode.ofReply_eq_success]

/-- A request, and then a change of the flags that goes by the code. -/
theorem follows_request {r : AudioRequest} {f : RetCode → AudioControl → AudioControl}
    (hhear : s.audio.hear (r, env.audio s.log r) = some (f (requestAudio env r s).1 s.audio)) :
    Post (do
      let ret ← requestAudio env r
      setAudio (f ret) : Prog CallManager Unit) s fun _ s' => Follows s s' :=
  .of_one (requestAudio_sounds env r s) hhear

instance : Moves Follows (startRingtone env) := by
  refine ⟨fun s => ?_⟩
  refine Post.bind_gets (Q := fun _ s' => Follows s s')
    (Post.when (fun hoff => ?_) fun _ => refl_of Follows s)
  refine follows_request ?_
  simp only [AudioControl.hear, requestAudio_code]
  rw [if_neg (by simpa using hoff)]

instance : Moves Follows (playWaitingTone env) := by
  refine ⟨fun s => ?_⟩
  refine Post.bind_gets (Q := fun _ s' => Follows s s')
    (Post.when (fun hoff => ?_) fun _ => refl_of Follows s)
  refine follows_request ?_
  simp only [AudioControl.hear, requestAudio_code]
  rw [if_neg (by simpa using hoff)]

instance : Moves Follows (stopRingtone env) := by
  refine ⟨fun s => ?_⟩
  refine Post.bind_gets (Q := fun _ s' => Follows s s')
    (Post.when (fun hon => ?_) fun _ => refl_of Follows s)
  exact .of_one (requestAudio_sounds env .stopRingtone _) (if_pos hon)

instance : Moves Follows (stopWaitingTone env) := by
  refine ⟨fun s => ?_⟩
  refine Post.bind_gets (Q := fun _ s' => Follows s s')
    (Post.when (fun hon => ?_) fun _ => refl_of Follows s)
  exact .of_one (requestAudio_sounds env .stopWaitingTone _) (if_pos hon)

instance : Moves Follows (setCallAudioActive env true) := by
  refine ⟨fun s => ?_⟩
  refine Post.bind_gets (Q := fun _ s' => Follows s s')
    (Post.when (fun hoff => ?_) fun _ => refl_of Follows s)
  have hidle : s.audio.callAudioActive = false := by simpa using hoff
  refine Post.bind (Q := fun ret s₁ => s₁ = (requestAudio env (.setCallAudioActive true) s).2 ∧
    (ret = .success ↔ env.audio s.log (.setCallAudioActive true) = some 0))
    ⟨rfl, requestAudio_code env _ s⟩ ?_
  rintro ret _ ⟨rfl, hret⟩
  refine Post.when (fun hok => ?_) fun hbad => ?_
  · refine .of_one (requestAudio_sounds env (.setCallAudioActive true) s) ?_
    simp [AudioControl.hear, hidle, hret.mp hok]
    rfl
  · refine .of_one (requestAudio_sounds env (.setCallAudioActive true) s) ?_
    have hrefused := mt hret.mpr hbad
    simp only [AudioControl.hear, hidle, hrefused, decide_false, Bool.false_eq_true, if_false]
    exact congrArg (fun b => some { s.audio with callAudioActive := b }) hidle.symm

/-- Whatever is on is stopped, and the flags are cleared whether that was accepted or not. -/
theorem silence_follows (env : Env) (s : CallManager) :
    Post (do
      stopRingtone env
      stopWaitingTone env
      setCallAudioActive env false
      releaseAll : Prog CallManager Unit) s fun _ s' => Follows s s' := by
  have hring : Post (stopRingtone env) s fun _ s₁ =>
      s₁.audio = { s.audio with ringtonePlaying := false } := stopRingtone_audio env s
  refine Post.bind (Post.and (Post.of_moves (R := Follows) _ s) hring) ?_
  rintro _ s₁ ⟨h₁, haudio₁⟩
  have hwait : Post (stopWaitingTone env) s₁ fun _ s₂ =>
      s₂.audio = { s₁.audio with waitingTonePlaying := false } := stopWaitingTone_audio env s₁
  refine Post.bind (Post.and (Post.of_moves (R := Follows) _ s₁) hwait) ?_
  rintro _ s₂ ⟨h₂, haudio₂⟩
  refine (h₁.trans h₂).trans ?_
  rw [haudio₁] at haudio₂
  show Follows s₂ (releaseAll (setCallAudioActive env false s₂).2).2
  unfold setCallAudioActive
  rw [Prog.bind_apply, Prog.gets_apply, Prog.when_apply]
  split
  next hon =>
    have hactive : s₂.audio.callAudioActive = true := by simpa using hon
    have hhear : s₂.audio.hear (.setCallAudioActive false,
      env.audio s₂.log (.setCallAudioActive false)) =
        some {} := by
      rw [AudioControl.hear, if_pos hactive, haudio₂]
    refine .of_one ?_ hhear
    rw [← requestAudio_sounds env (.setCallAudioActive false) s₂, Prog.bind_apply, Prog.when_apply]
    split <;> rfl
  next hoff =>
    have hidle : s₂.audio.callAudioActive = false := by simpa using hoff
    refine .of_same rfl ?_
    rw [haudio₂] at hidle ⊢
    exact congrArg (fun b => AudioControl.mk false false b) (hidle.symm)

theorem heard_follows (env : Env) (prior next : TelCallState) (s : CallManager) :
    Post (audioCallStateUpdated env prior next) s fun _ s' => Follows s s' := by
  have hanswered : Post (do
      stopRingtone env
      stopWaitingTone env
      setCallAudioActive env true : Prog CallManager Unit) s fun _ s' => Follows s s' :=
    Post.of_moves _ s
  cases next with
  | incoming => exact Post.of_moves (startRingtone env) s
  | waiting => exact Post.of_moves (playWaitingTone env) s
  | answered => exact hanswered
  | active => exact hanswered
  | disconnected =>
    refine Post.bind (Post.of_moves (R := Follows) _ s) fun _ s₁ h₁ => ?_
    refine Post.bind (Post.of_moves (R := Follows) _ s₁) fun _ s₂ h₂ => ?_
    refine (h₁.trans h₂).trans (Post.bind_gets (Q := fun _ s' => Follows s₂ s') ?_)
    exact Post.when (fun _ => silence_follows env s₂) fun _ => refl_of Follows s₂
  | _ => exact refl_of Follows s

instance : Plain Follows := .of_aside fun h => .of_same h.sounds h.audio

instance : Outspoken Follows where
  heard env prior next := ⟨heard_follows env prior next⟩
  muted _ := inferInstance
  broadcast _ _ _ :=
    .of_modify fun s => .of_same ((s.sounds_logged _).trans (List.append_nil _)) rfl

instance : Timeless Follows := { timers := fun _ _ _ _ _ => .of_same rfl rfl }

instance : Flagging Follows := ⟨fun _ _ => .of_modify fun _ => .of_same rfl rfl⟩

instance : Posting Follows := ⟨fun _ _ => .of_same rfl rfl⟩

instance : Moves Follows (Service.release env) := by
  have hclear : Moves Follows clearCallDetailsInfo := .of_modify fun _ => .of_same rfl rfl
  have hremove (p : Ref) : Moves Follows (removeCallObject p) := .of_modify fun _ =>
    .of_same rfl rfl
  have hsilence : Moves Follows (audioUnInit env) := by
    refine ⟨fun s => ?_⟩
    unfold audioUnInit
    rw [Prog.bind_apply, Prog.gets_apply, Prog.bind_apply, Prog.when_apply]
    split
    · exact silence_follows env s
    next hoff =>
      -- the flags that are cleared were clear
      refine .of_same rfl ?_
      show ({} : AudioControl) = s.audio
      cases haudio : s.audio
      simp_all
  unfold Service.release CallControlManager.unInit
  infer_instance

end Follows

/-! ## Over the lives of the service -/

namespace Service

/-- **The flags follow from what was asked and answered.** -/
structure AudioFollows (s : Service) : Prop where
  /-- Every request was called for, and the flags are what they lead to. -/
  flags : s.manager.sounds.foldlM AudioControl.hear {} = some s.manager.audio
  /-- An implementation that never refused to stop does what the flags say. -/
  agrees : (∀ x ∈ s.manager.sounds, x.1.IsStop → x.2 = some 0) →
    s.manager.sounds.foldl AudioControl.obey {} = s.manager.audio
  /-- It does nothing while the service is down. -/
  silent : s.ready = false → (∀ x ∈ s.manager.sounds, x.1.IsStop → x.2 = some 0) →
    s.manager.sounds.foldl AudioControl.obey {} = {}

theorem Move.follows {s s' : Service} (h : s.Inv) (hm : Move s s') :
    Follows s.manager s'.manager := by
  cases hm with
  | stay heq => exact heq ▸ refl_of Follows s.manager
  | run env input heq _ =>
    rw [heq]
    exact Moves.rel (m := mainLoopStep env input) s.manager
  | up env failing hready heq =>
    rw [heq, (h.idle hready).bringUp env failing]
    exact refl_of Follows s.manager
  | down env _ heq =>
    rw [heq]
    exact Moves.rel (m := release env) s.manager
  | drop heq => exact heq ▸ .of_same rfl rfl

theorem reachable_follows {s : Service} (h : Reachable s) : Follows {} s.manager := by
  refine Runs.Reachable.invariant_of (I := fun s => Follows {} s.manager) (J := Inv)
    (fun _ => reachable_inv) (fun _ hs => ?_) (fun s s' hinv hfollows hstep => ?_) h
  · exact hs ▸ refl_of Follows _
  · obtain ⟨a, rfl⟩ := hstep
    exact hfollows.trans ((act_move a s).follows hinv)

/-- **The audio manager knows what it asked for**, in every state of every run. -/
theorem audio_follows {s : Service} (h : Reachable s) : AudioFollows s := by
  obtain ⟨xs, hsounds, hflags⟩ := reachable_follows h
  have hflags : s.manager.sounds.foldlM AudioControl.hear {} = some s.manager.audio := by
    rw [hsounds]
    exact hflags
  refine ⟨hflags, obey_of_hears hflags, fun hdown hstop => ?_⟩
  rw [obey_of_hears hflags hstop, ((reachable_inv h).idle hdown).audio]

/-- A call rings, and the service goes down. -/
def ringsOut : List (Env × ServiceInput) :=
  [(.obliging, .init none), (.obliging, .report (.callReport (ringingReport 1))),
    (.obliging, .unInit)]

theorem audio_follows_stopped :
    let s := (run ringsOut {}).2
    s.manager.sounds = [(.startRingtone, some 0), (.stopRingtone, some 0)] ∧ AudioFollows s :=
  ⟨by decide +kernel, audio_follows (reachable_run _)⟩

end Service

end CallManagerMini
