import CallManagerMini.HandlerRefinement

/-! # What a program leaves behind

Beside the table the service keeps notes about its calls: the pending flags name one, the
conferences have members, the tones sound for somebody.  A program is `Frugal` if it makes no
note but those it is allowed to, and `Modest` if it leaves a silent service silent as well.

The conference of IMS calls is never used: nobody can join a conference that is idle, and
only `UpdateConferenceId`, which `CsConference` alone has, gets past that.
-/

namespace CallManagerMini

open Prog (Post Moves)

variable {s s' s'' : CallManager} {env : Env} {p : Ref}

/-! ## Conferences -/

namespace ConferenceBase

variable {c : ConferenceBase} {callId x : Int} {now : Int}

/-- A conference without members is idle and has no main call. -/
structure Tidy (c : ConferenceBase) : Prop where
  nodup : c.subCallIdSet.Nodup
  vacant : c.subCallIdSet = [] → c.mainCallId = errId ∧ c.state = .idle ∧ c.oldState = .idle

/-- Nobody has ever been in the conference. -/
structure Unused (c : ConferenceBase) : Prop where
  empty : c.subCallIdSet = []
  main : c.mainCallId = errId
  idle : c.state = .idle
  wasIdle : c.oldState = .idle

/-- Nobody joins an idle conference. -/
theorem joinToConference_idle (h : c.state = .idle) :
    (c.joinToConference now callId).2 = c := by
  simp [joinToConference, h]

/-- The members left. -/
theorem subCallIdSet_leaveFromConference (callId : Int) (c : ConferenceBase) :
    (c.leaveFromConference callId).2.subCallIdSet = c.subCallIdSet.erase callId := by
  unfold leaveFromConference
  split
  · dsimp only
    split <;> split <;> simp_all [reset]
  · next hno => exact (List.erase_of_not_mem hno).symm

theorem subCallIdSet_holdConference (callId : Int) (c : ConferenceBase) :
    (c.holdConference callId).2.subCallIdSet = c.subCallIdSet := by
  unfold holdConference
  split_ifs <;> rfl

theorem mem_insertSubCall {l : List Int} : x ∈ insertSubCall callId l ↔ x = callId ∨ x ∈ l := by
  unfold insertSubCall
  split
  · next hmem => exact ⟨.inr, fun h => h.elim (fun he => he ▸ hmem) id⟩
  · exact List.mem_orderedInsert _

theorem nodup_insertSubCall {l : List Int} (h : l.Nodup) : (insertSubCall callId l).Nodup := by
  unfold insertSubCall
  split
  · exact h
  · next hno => exact (List.perm_orderedInsert _ callId l).nodup_iff.mpr (h.cons hno)

theorem subCallIdSet_updateConferenceId (callId : Int) (c : ConferenceBase) :
    (c.updateConferenceId callId).subCallIdSet = insertSubCall callId c.subCallIdSet := by
  unfold updateConferenceId
  dsimp only
  split <;> rfl

theorem mem_updateConferenceId :
    x ∈ (c.updateConferenceId callId).subCallIdSet ↔ x = callId ∨ x ∈ c.subCallIdSet := by
  rw [subCallIdSet_updateConferenceId]
  exact mem_insertSubCall

theorem subCallIdSet_combineConferenceFailed (c : ConferenceBase) :
    c.combineConferenceFailed.subCallIdSet = c.subCallIdSet := by
  unfold combineConferenceFailed setMainCall setConferenceState
  dsimp only
  split <;> split <;> rfl

namespace Tidy

theorem setIdle (h : c.Tidy) : (c.setConferenceState .idle).Tidy :=
  ⟨h.nodup, fun he => ⟨(h.vacant he).1, rfl, (h.vacant he).2.2⟩⟩

theorem leaveFromConference (h : c.Tidy) : (c.leaveFromConference callId).2.Tidy := by
  refine ⟨?_, fun he => ?_⟩
  · rw [subCallIdSet_leaveFromConference]
    exact h.nodup.erase callId
  · rw [subCallIdSet_leaveFromConference] at he
    unfold ConferenceBase.leaveFromConference
    split
    · dsimp only
      rw [he]
      exact ⟨rfl, rfl, rfl⟩
    · next hno => exact h.vacant (List.erase_of_not_mem hno ▸ he)

/-- Whoever leaves is out. -/
theorem not_mem_leaveFromConference (h : c.Tidy) :
    callId ∉ (c.leaveFromConference callId).2.subCallIdSet := by
  rw [subCallIdSet_leaveFromConference]
  exact h.nodup.not_mem_erase

theorem holdConference (h : c.Tidy) : (c.holdConference callId).2.Tidy := by
  unfold ConferenceBase.holdConference
  split
  · exact h
  split
  · exact h
  split
  · exact ⟨h.nodup, fun _ => ⟨rfl, rfl, rfl⟩⟩
  · next hsome => exact ⟨h.nodup, fun he => absurd he hsome⟩

theorem updateConferenceId (h : c.Tidy) : (c.updateConferenceId callId).Tidy := by
  refine ⟨?_, fun he => ?_⟩
  · rw [subCallIdSet_updateConferenceId]
    exact nodup_insertSubCall h.nodup
  · have hmem : callId ∈ (c.updateConferenceId callId).subCallIdSet :=
      mem_updateConferenceId.mpr (.inl rfl)
    rw [he] at hmem
    cases hmem

theorem combineConferenceFailed (h : c.Tidy) : c.combineConferenceFailed.Tidy := by
  refine ⟨?_, fun he => ?_⟩
  · rw [subCallIdSet_combineConferenceFailed]
    exact h.nodup
  · rw [subCallIdSet_combineConferenceFailed] at he
    unfold ConferenceBase.combineConferenceFailed setMainCall setConferenceState
    rw [he]
    exact ⟨rfl, (h.vacant he).2.2, (h.vacant he).2.2⟩

end Tidy

namespace Unused

theorem joinToConference (h : c.Unused) : (c.joinToConference now callId).2.Unused := by
  rw [joinToConference_idle h.idle]
  exact h

theorem leaveFromConference (h : c.Unused) : (c.leaveFromConference callId).2.Unused := by
  unfold ConferenceBase.leaveFromConference
  rw [if_neg (by simp [h.empty])]
  exact h

theorem holdConference (h : c.Unused) : (c.holdConference callId).2.Unused := by
  unfold ConferenceBase.holdConference
  rw [if_neg (by simp [h.idle]), if_pos (by simp [h.empty])]
  exact h

theorem combineConferenceFailed (h : c.Unused) : c.combineConferenceFailed.Unused := by
  refine ⟨(subCallIdSet_combineConferenceFailed c).trans h.empty, ?_, ?_, ?_⟩
  all_goals
    unfold ConferenceBase.combineConferenceFailed setMainCall setConferenceState
    rw [h.empty]
  · rfl
  · exact h.wasIdle
  · exact h.wasIdle

end Unused

end ConferenceBase

/-! ## Frugal and modest programs -/

namespace CallManager

/-- The object is of the class of its call type. -/
def Proper (s : CallManager) (p : Ref) : Prop :=
  (s.call p).isIMSCall = decide ((s.call p).callType = .ims)

/-- A pending flag names the call. -/
def Awaits (s : CallManager) (callId : Int) : Prop :=
  s.helper.hasPendingMo callId = true ∨ s.helper.hasPendingHangup callId = true

/-- Without calls there is nothing to be heard. -/
def Silent (s : CallManager) : Prop := s.callObjectPtrList = [] → s.audio = {}

end CallManager

/-- Calls that are newly pending are `pending`, and calls that are new in the CS conference
are `joined`; no note is made beside these. -/
structure Frugal (pending joined : Int → Prop) (s s' : CallManager) : Prop where
  proper : ∀ p, s.Proper p → s'.Proper p
  listed : ∀ p ∈ s'.callObjectPtrList, p ∈ s.callObjectPtrList ∨ s'.Proper p
  awaits : ∀ c, s'.Awaits c → pending c ∨ s.Awaits c
  members : ∀ c ∈ s'.csConference.subCallIdSet, joined c ∨ c ∈ s.csConference.subCallIdSet
  cs : s.csConference.Tidy → s'.csConference.Tidy
  ims : s.imsConference.Unused → s'.imsConference.Unused

/-- A frugal program that makes no sound for nobody. -/
structure Modest (pending joined : Int → Prop) (s s' : CallManager) : Prop
    extends Frugal pending joined s s' where
  silent : s.Silent → s'.Silent

section Relations
variable {pending joined : Int → Prop}

theorem Frugal.refl (s : CallManager) : Frugal pending joined s s :=
  ⟨fun _ h => h, fun _ h => .inl h, fun _ h => .inr h, fun _ h => .inr h, id, id⟩

theorem Frugal.trans (h : Frugal pending joined s s') (h' : Frugal pending joined s' s'') :
    Frugal pending joined s s'' where
  proper p hp := h'.proper p (h.proper p hp)
  listed p hp := by
    rcases h'.listed p hp with hp | hp
    · exact (h.listed p hp).imp id (h'.proper p)
    · exact .inr hp
  awaits c hc := (h'.awaits c hc).elim .inl (h.awaits c)
  members c hc := (h'.members c hc).elim .inl (h.members c)
  cs := h'.cs ∘ h.cs
  ims := h'.ims ∘ h.ims

theorem Modest.refl (s : CallManager) : Modest pending joined s s := ⟨.refl s, id⟩

theorem Modest.trans (h : Modest pending joined s s') (h' : Modest pending joined s' s'') :
    Modest pending joined s s'' := ⟨h.toFrugal.trans h'.toFrugal, h'.silent ∘ h.silent⟩

instance (priority := low) {α : Type} (m : Prog CallManager α) [Moves (Modest pending joined) m] :
    Moves (Frugal pending joined) m := ⟨fun s =>
      (Moves.rel (R := Modest pending joined) s).toFrugal⟩

/-- More calls may be noted. -/
theorem Frugal.mono {pending' joined' : Int → Prop} (h : Frugal pending joined s s')
    (hp : ∀ c, pending c → pending' c) (hj : ∀ c, joined c → joined' c) :
    Frugal pending' joined' s s' :=
  { h with
    awaits := fun c hc => (h.awaits c hc).imp (hp c) id
    members := fun c hc => (h.members c hc).imp (hj c) id }

/-- A change of what is neither noted nor heard. -/
theorem modest_of_eq (hl : s'.callObjectPtrList = s.callObjectPtrList) (hc : s'.calls = s.calls)
    (hh : s'.helper = s.helper) (hcs : s'.csConference = s.csConference)
    (hims : s'.imsConference = s.imsConference) (ha : s'.audio = s.audio) :
    Modest pending joined s s' := by
  refine ⟨⟨fun p hp => ?_, fun p hp => .inl (hl ▸ hp), fun c hc => .inr ?_,
    fun c hc => .inr (hcs ▸ hc), fun h => hcs ▸ h, fun h => hims ▸ h⟩, fun h he => ?_⟩
  · unfold CallManager.Proper CallManager.call at *
    rwa [hc]
  · unfold CallManager.Awaits at *
    rwa [← hh]
  · rw [ha]
    exact h (hl ▸ he)

/-! ## The modest programs -/

theorem proper_updateCall {f : CallBase → CallBase}
    (hf : (f (s.call p)).isIMSCall = (s.call p).isIMSCall ∧
      (f (s.call p)).callType = (s.call p).callType) {q : Ref}
    (hq : s.Proper q) : (s.updateCall p f).Proper q := by
  unfold CallManager.Proper CallManager.updateCall CallManager.call at *
  dsimp only
  rw [Heap.get_set]
  split
  · next heq =>
    rw [heq] at hq
    rw [hf.1, hf.2]
    exact hq
  · exact hq

/-- A change of an object that leaves its class and its type alone. -/
theorem modest_updateCall {f : CallBase → CallBase}
    (hf : (f (s.call p)).isIMSCall = (s.call p).isIMSCall ∧
      (f (s.call p)).callType = (s.call p).callType) :
    Modest pending joined s (s.updateCall p f) :=
  ⟨⟨fun _ hq => proper_updateCall hf hq, fun _ hq => .inl hq, fun _ hc => .inr hc,
    fun _ hc => .inr hc, id, id⟩, id⟩

theorem modest_modifyCall {f : CallBase → CallBase}
    (hf : ∀ c, (f c).isIMSCall = c.isIMSCall ∧ (f c).callType = c.callType) :
    Moves (Modest pending joined) (modifyCall p f) :=
  Moves.of_modify fun s => modest_updateCall (hf (s.call p))

theorem modest_logged (s : CallManager) (e : Event) : Modest pending joined s (s.logged e) :=
  modest_of_eq rfl rfl rfl rfl rfl rfl

/-- A change of the flags that at most drops what is pending. -/
theorem modest_helper {helper : CallRequestEventHandlerHelper}
    (hmo : helper.pendingMo = true →
      s.helper.pendingMo = true ∧ helper.pendingMoCallId = s.helper.pendingMoCallId)
    (hhang : helper.pendingHangup = true →
      s.helper.pendingHangup = true ∧ helper.pendingHangupCallId = s.helper.pendingHangupCallId) :
    Modest pending joined s { s with helper := helper } := by
  refine ⟨⟨fun _ h => h, fun _ h => .inl h, fun c hc => .inr (hc.imp (fun hc => ?_) fun hc => ?_),
    fun _ h => .inr h, id, id⟩, id⟩
  · obtain ⟨hpending, hid⟩ := Bool.and_eq_true_iff.mp hc
    obtain ⟨hold, heq⟩ := hmo hpending
    exact Bool.and_eq_true_iff.mpr ⟨hold, heq ▸ hid⟩
  · obtain ⟨hpending, hid⟩ := Bool.and_eq_true_iff.mp hc
    obtain ⟨hold, heq⟩ := hhang hpending
    exact Bool.and_eq_true_iff.mpr ⟨hold, heq ▸ hid⟩

/-- An object of the class of its call type. -/
theorem modest_create {c : CallBase} (hc : c.isIMSCall = decide (c.callType = .ims)) :
    Modest pending joined s { s with calls := s.calls.alloc c } := by
  refine ⟨⟨fun q hq => ?_, fun _ h => .inl h, fun _ h => .inr h, fun _ h => .inr h, id, id⟩, id⟩
  unfold CallManager.Proper CallManager.call at *
  by_cases hnew : q = s.calls.next
  · rw [hnew]
    simpa using hc
  · have hcell : (s.calls.alloc c).get q = s.calls.get q := if_neg hnew
    simpa only [hcell] using hq

instance : Lenient (Modest pending joined) where
  refl := .refl
  trans _ _ _ := .trans
  note s e _ := modest_logged s e
  object h := by
    simp only [CallBase.face, Prod.mk.injEq] at h
    exact modest_updateCall ⟨h.1.2.2.1, h.1.2.1⟩
  change h := modest_updateCall ⟨h.isIMSCall, h.callType⟩
  create _ _ hclass := modest_create hclass
  count _ _ := modest_of_eq rfl rfl rfl rfl rfl rfl

instance : Easygoing (Modest pending joined) where
  tasks _ _ _ _ := modest_of_eq rfl rfl rfl rfl rfl rfl
  drops h := modest_helper h.mo h.hangup

instance (flag : Bool) : Moves (Modest pending joined) (restoreDialingFlag flag) :=
  .of_modify fun _ => modest_helper (fun h => ⟨h, rfl⟩) fun h => ⟨h, rfl⟩

instance : Flagging (Modest pending joined) where
  flag _ _ := modest_modifyCall fun _ => ⟨rfl, rfl⟩

instance : Posting (Modest pending joined) where
  requests _ _ := modest_of_eq rfl rfl rfl rfl rfl rfl

/-- The call the flag names becomes pending. -/
theorem modest_setPendingMo {callId : Int} (hnew : pending callId) :
    Moves (Modest pending joined) (setPendingMo true callId) := by
  refine Moves.of_modify fun s => ⟨⟨fun _ h => h, fun _ h => .inl h, fun c hc => ?_,
    fun _ h => .inr h, id, id⟩, id⟩
  rcases hc with hmo | hhang
  · have hid : callId = c := by simpa [CallRequestEventHandlerHelper.hasPendingMo] using hmo
    exact .inl (hid ▸ hnew)
  · exact .inr (.inr hhang)

/-- A pending call that is hung up is pending still, to be hung up once it is numbered. -/
instance : Ending (Modest pending joined) where
  hangUp env callId := by
    refine ⟨fun s => ?_⟩
    change Post (CallControlManager.hangUpCall env callId) s fun _ s' => Modest pending joined s s'
    refine Post.bind_gets (Post.ite (fun _ => .refl s) fun _ => ?_)
    refine Post.bind_gets (Post.ite (fun _ => .refl s) fun _ => ?_)
    refine Post.bind_gets (Post.ite (fun hmo => ?_) fun _ =>
      Post.of_moves (R := Modest pending joined) _ s)
    refine Post.bind_modify (Post.bind_modify ?_)
    refine Post.mono (Post.of_moves (R := Modest pending joined) _ _) fun _ s' hm => .trans ?_ hm
    refine ⟨⟨fun _ h => h, fun _ h => .inl h, fun c hc => .inr (.inl ?_), fun _ h => .inr h, id, id⟩,
      id⟩
    rcases hc with hno | hhang
    · cases hno
    · rw [← of_decide_eq_true hhang]
      exact hmo

/-! ### Conferences -/

instance (state : TelConferenceState) :
    Moves (Modest pending joined) (setTelConferenceState p state) :=
  modest_modifyCall fun _ => ⟨rfl, rfl⟩

/-- An operation that nobody joins a conference by. -/
theorem modest_onConference {α : Type} {isIMSCall : Bool}
    {f : Int → ConferenceBase → α × ConferenceBase}
    (hims : isIMSCall = true → ∀ now c, c.Unused → (f now c).2.Unused)
    (hcs : isIMSCall = false → ∀ now c, (c.Tidy → (f now c).2.Tidy) ∧
      ∀ x ∈ (f now c).2.subCallIdSet, x ∈ c.subCallIdSet) :
    Moves (Modest pending joined) (onConference isIMSCall f env) := by
  refine ⟨fun s => ?_⟩
  unfold onConference CallManager.setConference CallManager.conference
  cases isIMSCall with
  | true => exact ⟨⟨fun _ h => h, fun _ h => .inl h, fun _ h => .inr h, fun _ h => .inr h, id,
      hims rfl _ _⟩, id⟩
  | false => exact ⟨⟨fun _ h => h, fun _ h => .inl h, fun _ h => .inr h,
      fun _ h => .inr ((hcs rfl _ _).2 _ h), (hcs rfl _ _).1, id⟩, id⟩

instance : Moves (Modest pending joined) (launchConference env p) := by
  have (c : CallBase) : Moves (Modest pending joined) (onConference c.isIMSCall
      (fun now conf =>
        let conf := if c.isIMSCall then conf else conf.setConferenceState .idle
        conf.joinToConference now c.callId) env) := by
    refine modest_onConference (fun hims now conf h => ?_) fun hcs now conf => ?_
    · dsimp only
      rw [if_pos hims]
      exact h.joinToConference
    · dsimp only
      rw [if_neg (by simp [hcs]), ConferenceBase.joinToConference_idle rfl]
      exact ⟨fun h => h.setIdle, fun _ h => h⟩
  unfold launchConference
  infer_instance

instance : Moves (Modest pending joined) (exitConference env p) := by
  have (c : CallBase) : Moves (Modest pending joined)
      (onConference c.isIMSCall (fun _ conf => conf.leaveFromConference c.callId) env) := by
    refine modest_onConference (fun _ _ _ h => h.leaveFromConference) fun _ _ conf => ?_
    refine ⟨fun h => h.leaveFromConference, fun x hx => ?_⟩
    rw [ConferenceBase.subCallIdSet_leaveFromConference] at hx
    exact List.mem_of_mem_erase hx
  unfold exitConference
  infer_instance

instance : Moves (Modest pending joined) (holdConference env p) := by
  have (c : CallBase) : Moves (Modest pending joined)
      (onConference c.isIMSCall (fun _ conf => conf.holdConference c.callId) env) := by
    refine modest_onConference (fun _ _ _ h => h.holdConference) fun _ _ conf => ?_
    refine ⟨fun h => h.holdConference, fun x hx => ?_⟩
    rwa [ConferenceBase.subCallIdSet_holdConference] at hx
  unfold holdConference
  infer_instance

instance : Moves (Modest pending joined) (getSubCallIdList env p) := by
  have (c : CallBase) : Moves (Modest pending joined) (onConference c.isIMSCall
      (fun _ conf => ((conf.getSubCallIdList c.callId).2, conf)) env) :=
    modest_onConference (fun _ _ _ h => h) fun _ _ _ => ⟨id, fun _ h => h⟩
  unfold getSubCallIdList
  infer_instance

instance : Moves (Modest pending joined) (handleCombineConferenceFailEvent env p) := by
  have (c : CallBase) : Moves (Modest pending joined)
      (onConference c.isIMSCall (fun _ conf => ((), conf.combineConferenceFailed)) env) := by
    refine modest_onConference (fun _ _ _ h => h.combineConferenceFailed) fun _ _ conf => ?_
    refine ⟨fun h => h.combineConferenceFailed, fun x hx => ?_⟩
    rwa [ConferenceBase.subCallIdSet_combineConferenceFailed] at hx
  unfold handleCombineConferenceFailEvent
  infer_instance

/-! ### Tones and broadcasts -/

instance (r : AudioRequest) : Moves (Modest pending joined) (requestAudio env r) :=
  ⟨fun s => modest_logged s _⟩

instance : Meek (Frugal pending joined) where
  refl := .refl
  trans _ _ _ := .trans
  note s e _ := (modest_logged s e).toFrugal
  object h := (Meek.object (R := Modest pending joined) h).toFrugal

instance : Toneless (Frugal pending joined) where
  tones _ _ := ⟨fun _ h => h, fun _ h => .inl h, fun _ h => .inr h, fun _ h => .inr h, id, id⟩
  sound s _ _ := (modest_logged s _).toFrugal

instance : Easygoing (Frugal pending joined) where
  tasks s id last l := (Easygoing.tasks (R := Modest pending joined) s id last l).toFrugal
  drops h := (Easygoing.drops (R := Modest pending joined) h).toFrugal

instance : Posting (Frugal pending joined) where
  requests s l := (Posting.requests (R := Modest pending joined) s l).toFrugal

/-- A change of the tones that starts none. -/
theorem modest_setAudio {f : AudioControl → AudioControl} (hf : f {} = {}) :
    Moves (Modest pending joined) (setAudio f) :=
  ⟨fun s => ⟨Toneless.tones s f, fun h he => (congrArg f (h he)).trans hf⟩⟩

instance : Muting (Modest pending joined) where
  muted env := by
    have : Moves (Modest pending joined) (setAudio fun a => { a with ringtonePlaying := false }) :=
      modest_setAudio rfl
    unfold stopRingtone
    infer_instance

instance : Moves (Modest pending joined) (stopWaitingTone env) := by
  have : Moves (Modest pending joined) (setAudio fun a => { a with waitingTonePlaying := false }) :=
    modest_setAudio rfl
  unfold stopWaitingTone
  infer_instance

instance : Moves (Modest pending joined) (setCallAudioActive env false) := by
  have : Moves (Modest pending joined) (setAudio fun a => { a with callAudioActive := false }) :=
    modest_setAudio rfl
  unfold setCallAudioActive
  infer_instance

instance : Moves (Modest pending joined) releaseAll := modest_setAudio rfl

instance (e : Event) : Moves (Modest pending joined) (emit e) :=
  Moves.of_modify fun s => modest_logged s e

instance (prior next : TelCallState) :
    Moves (Frugal pending joined) (notifyCallStateUpdated env p prior next) := by
  unfold notifyCallStateUpdated; infer_instance

instance : Answering (Frugal pending joined) where
  answered _ _ _ := inferInstance

instance (next : TelCallState) : Moves (Frugal pending joined) (updateCallState env p next) := by
  unfold updateCallState; infer_instance

instance (calls : List Ref) : Moves (Frugal pending joined) (setConferenceCall env calls) := by
  unfold setConferenceCall; infer_instance

/-! ### Call objects -/

instance (callId : Int) : Moves (Frugal pending joined) (deleteOneCallObject callId) :=
  Moves.of_modify fun _ => ⟨fun _ h => h, fun _ h => .inl (List.mem_of_mem_eraseP h),
    fun _ h => .inr h, fun _ h => .inr h, id, id⟩

/-- What `CreateNewCall` makes is new, and of the class of its call type. -/
theorem createNewCall_proper (env : Env) (info : CallDetailInfo) (dir : CallDirection)
    (s : CallManager) :
    Post (createNewCall env info dir) s fun created s' =>
      ∀ q, created = some q → q = s.calls.next ∧ s'.Proper q := by
  refine Post.bind (Q := fun _ (s₁ : CallManager) => s₁.calls = s.calls) ?_ fun para s₁ hc => ?_
  · cases dir <;> rfl
  refine Post.ite (fun _ => Post.pure (fun _ h => by cases h)) fun _ => ?_
  refine Post.bind_gets (Post.bind (Q := fun q s₂ => q = s.calls.next ∧ s₂.Proper q) ?_ ?_)
  · refine ⟨congrArg Heap.next hc, ?_⟩
    unfold CallManager.Proper CallManager.call
    simp [newCall, CallBase.ofParaInfo]
  · exact fun q s₂ hq => Post.pure fun q' hq' => Option.some.inj hq' ▸ hq

/-- An object of the class of its call type enters the table. -/
theorem addOneCallObject_frugal (hp : s.Proper p) :
    Post (addOneCallObject p) s fun _ s' => Frugal pending joined s s' := by
  unfold Post addOneCallObject
  split
  · exact .refl s
  split
  · exact .refl s
  · refine ⟨fun _ h => h, fun q hq => ?_, fun _ h => .inr h, fun _ h => .inr h, id, id⟩
    rcases List.mem_append.mp hq with hq | hq
    · exact .inl hq
    · exact .inr (List.mem_singleton.mp hq ▸ hp)

/-! ### The refresh -/

/-- A call that `RefreshCall` replaces as a CS call may join the CS conference. -/
theorem refreshCall_frugal (env : Env) {info : CallDetailInfo} (hlt : p < s.calls.next)
    (hp : s.Proper p) :
    Post (refreshCall env p info) s fun q s' => s'.Proper q ∧
      Frugal pending (fun c => c = (s.call p).callId ∧ q ≠ p ∧ info.callType = .cs) s s' := by
  refine Post.bind_gets (Post.bind (Q := fun (created : Option Ref) (s₁ : CallManager) =>
    (∀ q, created = some q → q = s.calls.next ∧ s₁.Proper q) ∧
      Frugal pending (fun _ => False) s s₁)
    ⟨createNewCall_proper env info _ s, Moves.rel s⟩ ?_)
  rintro created s₁ ⟨hcreated, hf₁⟩
  cases created with
  | none => exact Post.pure ⟨hf₁.proper p hp, hf₁.mono (fun _ h => h) fun _ h => h.elim⟩
  | some q =>
    obtain ⟨hq, hq₁⟩ := hcreated q rfl
    have hqp : q ≠ p := hq ▸ (Nat.ne_of_lt hlt).symm
    refine Post.bind (Post.of_moves (R := Frugal pending fun _ => False) _ _) fun _ s₂ hf₂ => ?_
    refine Post.bind_modify ?_
    set s₃ := s₂.updateCall q fun c => { c with callId := (s.call p).callId }
    have hf₃ : Frugal pending (fun _ => False) s₂ s₃ := (modest_updateCall ⟨rfl, rfl⟩).toFrugal
    have hq₃ : s₃.Proper q := hf₃.proper q (hf₂.proper q hq₁)
    have hf : Frugal pending (fun _ => False) s s₃ := (hf₁.trans hf₂).trans hf₃
    refine Post.bind (Q := fun _ s₄ => Frugal pending (fun _ => False) s₃ s₄)
      (addOneCallObject_frugal hq₃) fun ret s₄ hf₄ => ?_
    replace hf := hf.trans hf₄
    refine Post.ite (fun _ => ?_) fun _ => ?_
    · refine Post.bind (Q := fun _ s₅ => Frugal pending (fun _ => False) s₄ s₅)
        (addOneCallObject_frugal (hf.proper p hp)) fun ret' s₅ hf₅ => ?_
      replace hf := hf.trans hf₅
      exact Post.pure ⟨hf.proper p hp, hf.mono (fun _ h => h) fun _ h => h.elim⟩
    · -- only here may the call join
      have hcopy : Moves (Modest pending fun _ => False)
          (modifyCall q (copyToRefreshed (s.call p))) := modest_modifyCall fun _ => ⟨rfl, rfl⟩
      refine Post.bind (Post.of_moves (R := Modest pending fun _ => False) _ _) fun _ s₅ hf₅ => ?_
      replace hf := hf.trans hf₅.toFrugal
      refine Post.bind (Q := fun _ s₆ => Frugal pending
        (fun c => c = (s.call p).callId ∧ q ≠ p ∧ info.callType = .cs) s₅ s₆) ?_ ?_
      · refine Post.when (fun hjoin => Post.modify ?_) fun _ => .refl s₅
        exact {
          proper := fun _ h => h
          listed := fun _ h => .inl h
          awaits := fun _ h => .inr h
          members := fun c hc => (ConferenceBase.mem_updateConferenceId.mp hc).imp
            (fun heq => ⟨heq, hqp, hjoin.2.1⟩) id
          cs := ConferenceBase.Tidy.updateConferenceId
          ims := id }
      intro _ s₆ hf₆
      replace hf := (hf.mono (fun _ h => h) fun _ h => h.elim).trans hf₆
      refine Post.bind (Post.of_moves (R := Modest pending fun c =>
        c = (s.call p).callId ∧ q ≠ p ∧ info.callType = .cs) _ _) fun _ s₇ hf₇ => ?_
      refine Post.bind_modify (Post.pure ?_)
      have hdomain : Frugal pending (fun c => c = (s.call p).callId ∧ q ≠ p ∧ info.callType = .cs)
          s₇ (s₇.updateCall q fun c => { c with imsDomain := (s.call p).imsDomain }) :=
        (modest_updateCall ⟨rfl, rfl⟩).toFrugal
      have hq₇ := hf₇.proper q (hf₆.proper q (hf₅.proper q (hf₄.proper q hq₃)))
      exact ⟨hdomain.proper q hq₇, (hf.trans hf₇.toFrugal).trans hdomain⟩

/-- A refresh makes no other note than that the call has joined the CS conference. -/
theorem refreshCallIfNecessary_frugal (env : Env) {info : CallDetailInfo} (hlt : p < s.calls.next)
    (hp : s.Proper p) :
    Post (refreshCallIfNecessary env p info) s fun q s' => s'.Proper q ∧
      Frugal pending (fun c => c = (s.call p).callId ∧ q ≠ p ∧ info.callType = .cs) s s' := by
  obtain ⟨f, hrow, hims, heq⟩ := refreshCallIfNecessary_eq env p info s
  have hkept : (f (s.call p)).callType = (s.call p).callType ∧
      (f (s.call p)).callId = (s.call p).callId :=
    ⟨(congrArg Row.callType hrow).trans (by simp), (congrArg Row.callId hrow).trans (by simp)⟩
  have hf : Frugal pending (fun _ => False) s (s.updateCall p f) :=
    (modest_updateCall ⟨hims, hkept.1⟩).toFrugal
  have hid : ((s.updateCall p f).call p).callId = (s.call p).callId :=
    (congrArg CallBase.callId (call_updateCall_self s p f)).trans hkept.2
  unfold Post
  rw [heq]
  set s₁ := s.updateCall p f
  change Post _ s₁ fun q s' => s'.Proper q ∧
    Frugal pending (fun c => c = (s.call p).callId ∧ q ≠ p ∧ info.callType = .cs) s s'
  refine Post.ite (fun _ => Post.pure ⟨hf.proper p hp, hf.mono (fun _ h => h) fun _ h => h.elim⟩)
    fun _ => ?_
  refine Post.mono (@refreshCall_frugal s₁ p pending env info hlt (hf.proper p hp)) ?_
  rintro q s' ⟨hq, hf'⟩
  rw [hid] at hf'
  exact ⟨hq, (hf.mono (fun _ h => h) fun _ h => h.elim).trans hf'⟩

/-! ### Calls that are no longer noted -/

/-- `ClearPendingState` leaves no flag that names the call. -/
theorem clearPendingState_forgets (env : Env) (p : Ref) (s : CallManager) :
    Post (clearPendingState env p) s fun _ s' => ¬s'.Awaits (s.call p).callId := by
  refine Post.bind_gets (Post.bind_gets (Post.bind (Q := fun _ (s₁ : CallManager) =>
    s₁.helper.hasPendingMo (s.call p).callId = false ∧
      s₁.helper.hasPendingHangup (s.call p).callId =
        s.helper.hasPendingHangup (s.call p).callId) ?_ ?_))
  · exact Post.when (fun _ => ⟨rfl, rfl⟩) fun hno => ⟨Bool.eq_false_iff.mpr hno, rfl⟩
  rintro _ s₁ ⟨hmo, hhang⟩
  refine Post.when (fun _ => ?_) fun hno => ?_
  · refine Post.bind (Q := fun _ (s₂ : CallManager) => s₂.helper = s₁.helper) ?_ fun _ s₂ h₂ => ?_
    · exact Post.when (fun _ => rfl) fun _ => rfl
    refine Post.bind_modify (Post.mono (Post.of_moves
      (R := Frugal (fun _ => False) fun _ => False) _ _) fun _ s₃ hf hawaits => ?_)
    rcases hf.awaits _ hawaits with hno | hawaits
    · exact hno
    rcases hawaits with h | h
    · rw [← h₂] at hmo
      exact Bool.false_ne_true (hmo.symm.trans h)
    · cases h
  · rintro (h | h)
    · exact Bool.false_ne_true (hmo.symm.trans h)
    · exact hno (hhang ▸ h)

/-- A CS call that exits the conference is out of it. -/
theorem exitConference_leaves (env : Env) (hcs : s.csConference.Tidy)
    (hp : (s.call p).isIMSCall = false) :
    Post (exitConference env p) s fun _ s' =>
      (s.call p).callId ∉ s'.csConference.subCallIdSet := by
  refine Post.bind_gets (Post.bind (Q := fun _ (s₁ : CallManager) =>
    (s.call p).callId ∉ s₁.csConference.subCallIdSet) ?_ fun ret s₁ hout => ?_)
  · unfold onConference CallManager.setConference CallManager.conference
    rw [hp]
    exact hcs.not_mem_leaveFromConference
  · refine Post.mono (Post.of_moves (R := Frugal (fun _ => False) fun _ => False) _ _) ?_
    exact fun _ s₂ hf hmem => hout ((hf.members _ hmem).resolve_left id)

end Relations

end CallManagerMini
