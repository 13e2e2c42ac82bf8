import CallManagerMini.PlainRelations
import CallManagerMini.RefusedDials

/-! # The delayed tasks

The service posts two kinds of delayed tasks, and keeps the id of the task it posted last of
each kind: the task that puts the dialing flag down again, and the task that ends a call whose
hang-up is pending.  `TasksFit` ties the ids to the main loop's table of tasks: a task of the
table is the one its id is kept of, so there is at most one of each kind.

A dial posts the first kind and takes it back before it returns, whatever way it takes
(`dialCall_noStaleFlag`).  What becomes of the second kind is in `PendingHangUps`.
-/

namespace CallManagerMini

open Prog (Post Moves)

variable {s s' s'' : CallManager} {env : Env} {p : Ref}

namespace CallManager

/-- The id that is kept of a task of this kind. -/
def taskId (s : CallManager) : DelayedTask → Nat
  | .restoreDialingFlag => s.helper.restoreTaskId
  | .pendingHangupProtect _ => s.pendingHangupTaskId

/-- The main loop's table of tasks and the ids that are kept belong together. -/
structure TasksFit (s : CallManager) : Prop where
  nodup : (s.delayed.map Prod.fst).Nodup
  given : ∀ t ∈ s.delayed, 0 < t.1 ∧ t.1 ≤ s.lastTaskId
  known : ∀ t ∈ s.delayed, t.1 = s.taskId t.2
  restoring : s.helper.restoreTaskId ≠ 0 →
    (s.helper.restoreTaskId, .restoreDialingFlag) ∈ s.delayed
  protecting : s.pendingHangupTaskId ≠ 0 →
    ∃ callId, (s.pendingHangupTaskId, .pendingHangupProtect callId) ∈ s.delayed

/-- The calls with a pending hang-up are those in `U`, or there is a task to end them. -/
def Guarded (U : Int → Prop) (s : CallManager) : Prop :=
  ∀ callId, s.helper.hasPendingHangup callId = true →
    U callId ∨ (s.pendingHangupTaskId, .pendingHangupProtect callId) ∈ s.delayed

theorem guarded_of_off {U : Int → Prop} (h : s.helper.pendingHangup = false) : s.Guarded U :=
  fun callId hc => by simp [CallRequestEventHandlerHelper.hasPendingHangup, h] at hc

/-- No dial is going on. -/
structure Rested (s : CallManager) : Prop where
  flag : s.helper.isDialingCallProcessing = false
  restoreTaskId : s.helper.restoreTaskId = 0

namespace TasksFit

theorem of_eq (h : s.TasksFit) (hd : s'.delayed = s.delayed) (hl : s'.lastTaskId = s.lastTaskId)
    (hr : s'.helper.restoreTaskId = s.helper.restoreTaskId)
    (hp : s'.pendingHangupTaskId = s.pendingHangupTaskId) : s'.TasksFit where
  nodup := hd ▸ h.nodup
  given := by
    rw [hd, hl]
    exact h.given
  known t ht := by
    rw [hd] at ht
    rw [h.known t ht]
    cases t.2 with
    | restoreDialingFlag => exact hr.symm
    | pendingHangupProtect callId => exact hp.symm
  restoring := by
    rw [hd, hr]
    exact h.restoring
  protecting := by
    rw [hd, hp]
    exact h.protecting

/-- Tasks with one id are one task. -/
theorem eq_of_id (h : s.TasksFit) {t t' : Nat × DelayedTask} (ht : t ∈ s.delayed)
    (ht' : t' ∈ s.delayed) (hid : t.1 = t'.1) : t = t' :=
  List.inj_on_of_nodup_map h.nodup ht ht' hid

/-- The two kinds of tasks have different ids. -/
theorem ids_ne (h : s.TasksFit) (hp : s.pendingHangupTaskId ≠ 0) :
    s.helper.restoreTaskId ≠ s.pendingHangupTaskId := by
  intro heq
  obtain ⟨callId, hprotect⟩ := h.protecting hp
  have hrestore := h.restoring (heq ▸ hp)
  have := congrArg Prod.snd (h.eq_of_id hrestore hprotect heq)
  cases this

/-- No task puts the dialing flag down if none is kept. -/
theorem no_restore (h : s.TasksFit) (hr : s.helper.restoreTaskId = 0) :
    ∀ t ∈ s.delayed, t.2 ≠ .restoreDialingFlag := by
  intro t ht heq
  have hid := h.known t ht
  rw [heq] at hid
  exact Nat.ne_of_gt (h.given t ht).1 (hid.trans hr)

/-- The task that puts the dialing flag down is gone. -/
theorem restored (h : s.TasksFit)
    (hd : s'.delayed = s.delayed.filter fun t => t.1 ≠ s.helper.restoreTaskId)
    (hl : s'.lastTaskId = s.lastTaskId) (hr : s'.helper.restoreTaskId = 0)
    (hp : s'.pendingHangupTaskId = s.pendingHangupTaskId) : s'.TasksFit where
  nodup := by
    rw [hd]
    exact h.nodup.sublist (List.filter_sublist.map _)
  given t ht := by
    rw [hd] at ht
    exact hl ▸ h.given t (List.mem_of_mem_filter ht)
  known t ht := by
    rw [hd] at ht
    obtain ⟨hmem, hne⟩ := List.mem_filter.mp ht
    have hid := h.known t hmem
    cases ht2 : t.2 with
    | restoreDialingFlag =>
      rw [ht2] at hid
      exact absurd (show t.1 = s.helper.restoreTaskId from hid) (by simpa using hne)
    | pendingHangupProtect callId =>
      rw [ht2] at hid
      exact hid.trans hp.symm
  restoring hne := absurd hr hne
  protecting hne := by
    rw [hp] at hne ⊢
    obtain ⟨callId, hmem⟩ := h.protecting hne
    refine ⟨callId, ?_⟩
    rw [hd]
    exact List.mem_filter.mpr ⟨hmem, by simpa using (h.ids_ne hne).symm⟩

/-- The task that ends the call with a pending hang-up is gone. -/
theorem unprotected (h : s.TasksFit)
    (hd : s'.delayed = s.delayed.filter fun t => t.1 ≠ s.pendingHangupTaskId)
    (hl : s'.lastTaskId = s.lastTaskId)
    (hr : s'.helper.restoreTaskId = s.helper.restoreTaskId)
    (hp : s'.pendingHangupTaskId = 0) : s'.TasksFit where
  nodup := by
    rw [hd]
    exact h.nodup.sublist (List.filter_sublist.map _)
  given t ht := by
    rw [hd] at ht
    exact hl ▸ h.given t (List.mem_of_mem_filter ht)
  known t ht := by
    rw [hd] at ht
    obtain ⟨hmem, hne⟩ := List.mem_filter.mp ht
    have hid := h.known t hmem
    cases ht2 : t.2 with
    | restoreDialingFlag =>
      rw [ht2] at hid
      exact hid.trans hr.symm
    | pendingHangupProtect callId =>
      rw [ht2] at hid
      exact absurd (show t.1 = s.pendingHangupTaskId from hid) (by simpa using hne)
  restoring hne := by
    rw [hr] at hne ⊢
    rw [hd]
    refine List.mem_filter.mpr ⟨h.restoring hne, ?_⟩
    by_cases hid : s.pendingHangupTaskId = 0
    · simpa [hid] using hne
    · simpa using h.ids_ne hid
  protecting hne := absurd hp hne

/-- A new task has an id of its own. -/
theorem posted_nodup (h : s.TasksFit) (t : DelayedTask) :
    ((s.delayed ++ [(s.lastTaskId + 1, t)]).map Prod.fst).Nodup ∧
      ∀ x ∈ s.delayed ++ [(s.lastTaskId + 1, t)], 0 < x.1 ∧ x.1 ≤ s.lastTaskId + 1 := by
  constructor
  · rw [List.map_append, List.nodup_append]
    refine ⟨h.nodup, List.nodup_singleton _, fun a ha b hb => ?_⟩
    obtain ⟨x, hx, rfl⟩ := List.mem_map.mp ha
    have hle := (h.given x hx).2
    have hb : b = s.lastTaskId + 1 := by simpa using hb
    omega
  · intro x hx
    rcases List.mem_append.mp hx with hx | hx
    · exact ⟨(h.given x hx).1, Nat.le_succ_of_le (h.given x hx).2⟩
    · rw [List.mem_singleton.mp hx]
      exact ⟨Nat.succ_pos _, Nat.le_refl _⟩

/-- The task that is to put the dialing flag down is posted. -/
theorem postRestore (h : s.TasksFit) (hnone : s.helper.restoreTaskId = 0)
    (hd : s'.delayed = s.delayed ++ [(s.lastTaskId + 1, .restoreDialingFlag)])
    (hl : s'.lastTaskId = s.lastTaskId + 1) (hr : s'.helper.restoreTaskId = s.lastTaskId + 1)
    (hp : s'.pendingHangupTaskId = s.pendingHangupTaskId) : s'.TasksFit where
  nodup := hd ▸ (h.posted_nodup _).1
  given := by
    rw [hd, hl]
    exact (h.posted_nodup _).2
  known t ht := by
    rw [hd] at ht
    rcases List.mem_append.mp ht with ht | ht
    · have hid := h.known t ht
      have hnot := h.no_restore hnone t ht
      cases ht2 : t.2 with
      | restoreDialingFlag => exact absurd ht2 hnot
      | pendingHangupProtect callId =>
        rw [ht2] at hid
        exact hid.trans hp.symm
    · rw [List.mem_singleton.mp ht]
      exact hr.symm
  restoring _ := by
    rw [hd, hr]
    exact List.mem_append_right _ List.mem_cons_self
  protecting hne := by
    rw [hp] at hne ⊢
    obtain ⟨callId, hmem⟩ := h.protecting hne
    exact ⟨callId, hd ▸ List.mem_append_left _ hmem⟩

/-- The task that is to end a call is posted. -/
theorem postProtect (h : s.TasksFit) (hnone : s.pendingHangupTaskId = 0) {callId : Int}
    (hd : s'.delayed = s.delayed ++ [(s.lastTaskId + 1, .pendingHangupProtect callId)])
    (hl : s'.lastTaskId = s.lastTaskId + 1)
    (hr : s'.helper.restoreTaskId = s.helper.restoreTaskId)
    (hp : s'.pendingHangupTaskId = s.lastTaskId + 1) : s'.TasksFit where
  nodup := hd ▸ (h.posted_nodup _).1
  given := by
    rw [hd, hl]
    exact (h.posted_nodup _).2
  known t ht := by
    rw [hd] at ht
    rcases List.mem_append.mp ht with ht | ht
    · have hid := h.known t ht
      cases ht2 : t.2 with
      | restoreDialingFlag =>
        rw [ht2] at hid
        exact hid.trans hr.symm
      | pendingHangupProtect c =>
        rw [ht2] at hid
        exact absurd (hid.trans hnone) (Nat.ne_of_gt (h.given t ht).1)
    · rw [List.mem_singleton.mp ht]
      exact hp.symm
  restoring hne := by
    rw [hr] at hne ⊢
    exact hd ▸ List.mem_append_left _ (h.restoring hne)
  protecting _ := by
    rw [hd, hp]
    exact ⟨callId, List.mem_append_right _ List.mem_cons_self⟩

end TasksFit

theorem Rested.of_aside (h : s.Rested) (ha : Aside s s') : s'.Rested :=
  ⟨by rw [ha.helper]; exact h.flag, by rw [ha.helper]; exact h.restoreTaskId⟩

end CallManager

/-! ## What keeps the tasks in order -/

/-- The tasks stay in order, a call with a pending hang-up keeps the task that is to end it
unless it is in `U`, and a dial that is not going on does not begin. -/
structure Timely (U : Int → Prop) (s s' : CallManager) : Prop where
  tasks : s.TasksFit → s'.TasksFit
  guarded : s.TasksFit → s.Guarded U → s'.Guarded U
  flag : s.helper.isDialingCallProcessing = false → s'.helper.isDialingCallProcessing = false
  restoreTaskId : s.helper.restoreTaskId = 0 → s'.helper.restoreTaskId = 0

section Timely
variable {U : Int → Prop}

theorem Timely.rested (h : Timely U s s') (hs : s.Rested) : s'.Rested :=
  ⟨h.flag hs.flag, h.restoreTaskId hs.restoreTaskId⟩

instance : Std.Refl (Timely U) := ⟨fun _ => ⟨id, fun _ => id, id, id⟩⟩

instance : IsTrans CallManager (Timely U) := ⟨fun _ _ _ h h' =>
  { tasks := h'.tasks ∘ h.tasks
    guarded := fun ht hg => h'.guarded (h.tasks ht) (h.guarded ht hg)
    flag := h'.flag ∘ h.flag
    restoreTaskId := h'.restoreTaskId ∘ h.restoreTaskId }⟩

theorem timely_of_eq (hh : s'.helper = s.helper)
    (hp : s'.pendingHangupTaskId = s.pendingHangupTaskId)
    (hd : s'.delayed = s.delayed) (hl : s'.lastTaskId = s.lastTaskId) : Timely U s s' where
  tasks ht := ht.of_eq hd hl (by rw [hh]) hp
  guarded _ hg := by
    unfold CallManager.Guarded
    rw [hh, hp, hd]
    exact hg
  flag hf := by rw [hh]; exact hf
  restoreTaskId hr := by rw [hh]; exact hr

theorem timely_of_aside (h : Aside s s') : Timely U s s' :=
  timely_of_eq h.helper h.pendingHangupTaskId h.delayed h.lastTaskId

instance : Plain (Timely U) := .of_aside timely_of_aside

instance : Flagging (Timely U) := .of_aside timely_of_aside

instance : Toneless (Timely U) where
  tones _ _ := timely_of_eq rfl rfl rfl rfl
  sound _ _ _ := timely_of_eq rfl rfl rfl rfl

instance : Outspoken (Timely U) where
  broadcast _ _ _ := .of_modify fun _ => timely_of_eq rfl rfl rfl rfl

instance : Posting (Timely U) where
  requests _ _ := timely_of_eq rfl rfl rfl rfl

/-- A change of the flags that does not mark a call's hang-up as pending. -/
theorem timely_modifyHelper {f : CallRequestEventHandlerHelper → CallRequestEventHandlerHelper}
    (hhang : ∀ h c, (f h).hasPendingHangup c = true → h.hasPendingHangup c = true)
    (hflag : ∀ h, h.isDialingCallProcessing = false → (f h).isDialingCallProcessing = false)
    (hrestore : ∀ h, (f h).restoreTaskId = h.restoreTaskId) :
    Moves (Timely U) (modifyHelper f) :=
  .of_modify fun _ =>
    { tasks := fun h => h.of_eq rfl rfl (hrestore _) rfl
      guarded := fun _ hg c hc => hg c (hhang _ c hc)
      flag := hflag _
      restoreTaskId := fun h => (hrestore _).trans h }

instance (pendingMo : Bool) (callId : Int) : Moves (Timely U) (setPendingMo pendingMo callId) :=
  timely_modifyHelper (fun _ _ h => h) (fun _ h => h) fun _ => rfl

instance : Moves (Timely U) (restoreDialingFlag false) :=
  timely_modifyHelper (fun _ _ h => h) (fun _ _ => rfl) fun _ => rfl

theorem removeEventHandlerTask_eq (s : CallManager) :
    (removeEventHandlerTask s).2 = if s.helper.restoreTaskId = 0 then s else
      { s with
        delayed := s.delayed.filter fun t => t.1 ≠ s.helper.restoreTaskId
        helper := { s.helper with restoreTaskId := 0 } } := by
  rw [removeEventHandlerTask, Prog.bind_apply, Prog.gets_apply, Prog.when_apply]
  by_cases h : s.helper.restoreTaskId = 0
  · rw [if_neg (not_not_intro h), if_pos h]
  · rw [if_pos h, if_neg h]
    rfl

theorem removePendingHangupProtectTask_eq (s : CallManager) :
    (removePendingHangupProtectTask s).2 = if s.pendingHangupTaskId = 0 then s else
      { s with
        delayed := s.delayed.filter fun t => t.1 ≠ s.pendingHangupTaskId
        pendingHangupTaskId := 0 } := by
  rw [removePendingHangupProtectTask, Prog.bind_apply, Prog.gets_apply, Prog.when_apply]
  by_cases h : s.pendingHangupTaskId = 0
  · rw [if_neg (not_not_intro h), if_pos h]
  · rw [if_pos h, if_neg h]
    rfl

instance : Moves (Timely U) removeEventHandlerTask := by
  refine ⟨fun s => ?_⟩
  rw [removeEventHandlerTask_eq]
  split
  · exact refl_of (Timely U) s
  · next hne =>
    refine
      { tasks := fun h => h.restored rfl rfl rfl rfl
        guarded := fun h hg c hc => (hg c hc).imp id fun hmem => ?_
        flag := id
        restoreTaskId := fun hz => absurd hz hne }
    -- the task that ends a call is another one
    refine List.mem_filter.mpr ⟨hmem, ?_⟩
    have hid : s.pendingHangupTaskId ≠ 0 := Nat.ne_of_gt (h.given _ hmem).1
    simpa using (h.ids_ne hid).symm

/-- The hang-up is not pending any more, and its task is gone. -/
instance : Moves (Timely U) (do
    setPendingHangup false (-1)
    removePendingHangupProtectTask) := by
  refine ⟨fun s => ?_⟩
  rw [Prog.bind_apply, removePendingHangupProtectTask_eq]
  split
  · exact
      { tasks := fun h => h.of_eq rfl rfl rfl rfl
        guarded := fun _ _ => CallManager.guarded_of_off rfl
        flag := id
        restoreTaskId := id }
  · exact
      { tasks := fun h => h.unprotected rfl rfl rfl rfl
        guarded := fun _ _ => CallManager.guarded_of_off rfl
        flag := id
        restoreTaskId := id }

instance : Clearing (Timely U) where
  clear env p := by unfold clearPendingState; infer_instance
  pendingMo _ _ := inferInstance
  restore := inferInstance
  remove := inferInstance

end Timely

/-! ## Dials -/

/-- The tasks stay in order, and a call with a pending hang-up keeps its task or is in `U`. -/
structure KeepsTasks (U : Int → Prop) (s s' : CallManager) : Prop where
  tasks : s.TasksFit → s'.TasksFit
  guarded : s.TasksFit → s.Guarded U → s'.Guarded U

section Dial
variable {U : Int → Prop}

theorem Timely.keepsTasks (h : Timely U s s') : KeepsTasks U s s' := ⟨h.tasks, h.guarded⟩

instance : Std.Refl (KeepsTasks U) := ⟨fun _ => ⟨id, fun _ => id⟩⟩

instance : IsTrans CallManager (KeepsTasks U) :=
  ⟨fun _ _ _ h h' => ⟨h'.tasks ∘ h.tasks, fun ht hg => h'.guarded (h.tasks ht) (h.guarded ht hg)⟩⟩

instance (priority := low) {α : Type} (m : Prog CallManager α) [Moves (Timely U) m] :
    Moves (KeepsTasks U) m := ⟨fun s => (Moves.rel (R := Timely U) s).keepsTasks⟩

instance : Plain (KeepsTasks U) := .of_aside fun h => (timely_of_aside h).keepsTasks

instance : Outspoken (KeepsTasks U) where
  heard _ _ _ := inferInstance
  muted _ := inferInstance
  broadcast _ _ _ := inferInstance

instance : Clearing (KeepsTasks U) where
  clear _ _ := inferInstance
  pendingMo _ _ := inferInstance
  restore := inferInstance
  remove := inferInstance

instance (flag : Bool) : Moves (KeepsTasks U) (restoreDialingFlag flag) :=
  .of_modify fun _ => ⟨fun h => h.of_eq rfl rfl rfl rfl, fun _ hg => hg⟩

/-- The restore task is posted once the one before is gone. -/
theorem postRestore_keepsTasks (hnone : s.helper.restoreTaskId = 0) :
    Post (do
      let id ← postDelayed env .restoreDialingFlag
      Prog.forSome id fun id => modifyHelper fun h => { h with restoreTaskId := id }) s
      fun _ s' => KeepsTasks U s s' := by
  rw [Post, Prog.bind_apply, postDelayed]
  dsimp only
  split
  · exact ⟨fun h => h.postRestore hnone rfl rfl rfl rfl,
      fun _ hg c hc => (hg c hc).imp id (List.mem_append_left _)⟩
  · exact ⟨fun h => h.of_eq rfl rfl rfl rfl, fun _ hg => hg⟩

instance : Moves (KeepsTasks U) (setDialingCallProcessing env) := by
  refine ⟨fun s => ?_⟩
  refine Post.bind_gets (Q := fun _ s' => KeepsTasks U s s') (Post.when (fun _ => ?_) fun _ =>
    refl_of (KeepsTasks U) s)
  refine Post.bind (Q := fun _ s₁ => KeepsTasks U s s₁ ∧ s₁.helper.restoreTaskId = 0) ⟨?_, ?_⟩ ?_
  · exact Moves.rel (R := KeepsTasks U) (m := removeEventHandlerTask) s
  · rw [removeEventHandlerTask_eq]
    split
    · assumption
    · rfl
  rintro _ s₁ ⟨hs₁, hnone⟩
  exact Post.mono (postRestore_keepsTasks hnone) fun _ _ h => trans_of (KeepsTasks U) hs₁ h

instance : Starting (KeepsTasks U) where
  start := inferInstance
  processing _ := inferInstance

end Dial

section Rested

theorem removeEventHandlerTask_rests (hs : s.helper.isDialingCallProcessing = false) :
    Post removeEventHandlerTask s fun _ s' => s'.Rested := by
  rw [Post, removeEventHandlerTask_eq]
  split
  · next hz => exact ⟨hs, hz⟩
  · exact ⟨hs, rfl⟩

/-- Whatever keeps the tasks in order leaves a service at rest that was at rest. -/
theorem rested_post {α : Type} (m : Prog CallManager α) [Moves (Timely fun _ => False) m]
    (hs : s.Rested) : Post m s fun _ s' => s'.Rested :=
  (Moves.rel (R := Timely fun _ => False) (m := m) s).rested hs

theorem abandonDial_rests (ret : RetCode) (s : CallManager) :
    Post (abandonDial ret) s fun _ s' => s'.Rested := by
  refine Post.bind_modify (Post.bind (removeEventHandlerTask_rests rfl) fun _ s₁ hs₁ => ?_)
  exact hs₁

/-- A call that is added ends the dialing flag. -/
theorem addDialingCall_rests (env : Env) (info : CallDetailInfo) (s : CallManager) :
    Post (addDialingCall env info) s fun ret s' => ret = .success → s'.Rested := by
  refine Post.bind (Q := fun _ _ => True) trivial fun created s₁ _ => ?_
  cases created with
  | none => exact nofun
  | some p =>
    refine Post.bind (Q := fun _ _ => True) trivial fun ret s₂ _ => ?_
    refine Post.ite (fun hne heq => absurd heq hne) fun _ => ?_
    refine Post.bind (Q := fun _ _ => True) trivial fun _ s₃ _ => Post.bind_modify ?_
    refine Post.bind (removeEventHandlerTask_rests rfl) fun _ s₄ hs₄ => ?_
    refine Post.bind (rested_post (dialingProcess p) hs₄) fun ret s₅ hs₅ => ?_
    refine Post.ite (fun _ _ => hs₅) fun _ => ?_
    refine Post.bind (rested_post (notifyNewCallCreated p) hs₅) fun _ s₆ hs₆ => ?_
    exact Post.mono (rested_post (updateCallState env p .dialing) hs₆) fun _ _ h _ => h

/-- The local report of a dial has no index, so that its call is added. -/
theorem updateCallReportInfo_rests (env : Env) {info : DialParaInfo} (hindex : info.index = 0)
    (s : CallManager) : Post (updateCallReportInfo env info .dialing) s fun ret s' =>
      ret = .success → s'.Rested := by
  refine Post.ite (fun _ => nofun) fun _ => ?_
  change Post (dialingHandle env _) s _
  unfold dialingHandle
  refine Post.bind_gets (Post.ite (fun hup => ?_) fun _ => addDialingCall_rests env _ s)
  simp [hindex] at hup

theorem carrierDialProcess_rests (env : Env) {info : DialParaInfo} (hindex : info.index = 0)
    (hs : s.Rested) : Post (carrierDialProcess env info) s fun _ s' => s'.Rested := by
  refine Post.bind_gets (Post.ite (fun _ => hs) fun _ => ?_)
  refine Post.bind (Q := fun _ _ => True) trivial fun _ s₁ _ => ?_
  refine Post.bind (Q := fun _ _ => True) trivial fun _ s₂ _ => ?_
  refine Post.bind (Q := fun _ _ => True) trivial fun ret s₃ _ => ?_
  refine Post.ite (fun _ => abandonDial_rests ret s₃) fun _ => ?_
  refine Post.bind (updateCallReportInfo_rests env (by exact hindex) s₃) fun ret s₄ hs₄ => ?_
  refine Post.ite (fun _ => abandonDial_rests ret s₄) fun heq => ?_
  exact rested_post (handleStartDial env info) (hs₄ (not_not.mp heq))

theorem dialCall_rests (env : Env) (number : List UInt16) (extras : DialExtras) (hs : s.Rested)
    (hindex : s.dialSrcInfo.index = 0) :
    Post (CallControlManager.dialCall env number extras) s fun _ s' => s'.Rested := by
  unfold CallControlManager.dialCall
  cases numberLegalityCheck (str16ToStr8 number) with
  | error ret => exact hs
  | ok accountNumber =>
    change Post (CallControlManager.dialLegalNumber env accountNumber extras) s _
    rw [dialLegalNumber_eq]
    refine Post.bind (Q := fun _ s₁ => CallManager.Rested s₁ ∧ s₁.dialSrcInfo.index = 0)
      ⟨rested_post (screenDial env accountNumber extras) hs, ?_⟩ ?_
    · have hq := Moves.rel (R := Quiet) (m := screenDial env accountNumber extras) s
      rw [hq.dialSrcInfo]
      exact hindex
    rintro x s₁ ⟨hs₁, hindex₁⟩
    have hsaved (info : DialParaInfo) (extras : DialExtras) :
        CallManager.Rested { s₁ with dialSrcInfo := info, extras := extras } :=
      ⟨hs₁.flag, hs₁.restoreTaskId⟩
    refine Post.ite (fun _ => hs₁) fun _ => Post.bind_modify (Post.bind_gets ?_)
    refine Post.ite (fun _ => hsaved _ _) fun _ => Post.ite (fun _ => hsaved _ _) fun _ => ?_
    refine Post.ite (fun _ => ?_) fun _ => hsaved _ _
    exact carrierDialProcess_rests env hindex₁ (hsaved _ _)

end Rested

/-! ## Hang-ups and expiries -/

/-- The tasks stay in order, and a service at rest stays at rest. -/
structure KeepsOrder (s s' : CallManager) : Prop where
  tasks : s.TasksFit → s'.TasksFit
  rested : s.Rested → s'.Rested

section KeepsOrder

theorem Timely.keepsOrder (h : Timely (fun _ => False) s s') : KeepsOrder s s' :=
  ⟨h.tasks, h.rested⟩

instance (priority := low) {α : Type} (m : Prog CallManager α) [Moves (Timely fun _ => False) m] :
    Moves KeepsOrder m := ⟨fun s => (Moves.rel (R := Timely fun _ => False) s).keepsOrder⟩

instance : Meek KeepsOrder where
  refl _ := ⟨id, id⟩
  trans _ _ _ h h' := ⟨h'.tasks ∘ h.tasks, h'.rested ∘ h.rested⟩
  note s _ he := (Meek.note (R := Timely fun _ => False) s he).keepsOrder
  object h := (Meek.object (R := Timely fun _ => False) h).keepsOrder

instance : Posting KeepsOrder where
  requests s l := (Posting.requests (R := Timely fun _ => False) s l).keepsOrder

instance (pendingHangup : Bool) (callId : Int) :
    Moves KeepsOrder (setPendingHangup pendingHangup callId) :=
  .of_modify fun _ => ⟨fun h => h.of_eq rfl rfl rfl rfl, fun h => ⟨h.flag, h.restoreTaskId⟩⟩

instance (callId : Int) :
    Moves KeepsOrder (CallControlManager.postPendingHangupProtectTask env callId) := by
  refine ⟨fun s => ?_⟩
  refine Post.bind_gets (Q := fun _ s' => KeepsOrder s s') (Post.when (fun hnone => ?_) fun _ =>
    refl_of KeepsOrder s)
  rw [Post, Prog.bind_apply, postDelayed]
  dsimp only
  split
  · exact ⟨fun h => h.postProtect hnone rfl rfl rfl rfl, fun h => ⟨h.flag, h.restoreTaskId⟩⟩
  · exact ⟨fun h => h.of_eq rfl rfl rfl rfl, fun h => ⟨h.flag, h.restoreTaskId⟩⟩

set_option synthInstance.maxSize 512 in
instance : Ending KeepsOrder where
  hangUp env callId := by unfold CallControlManager.hangUpCall; infer_instance

/-- The task that ends a call with a pending hang-up has become due: the task is gone, and the id
that was kept of it. -/
def CallManager.expired (s : CallManager) (taskId : Nat) : CallManager :=
  { s with delayed := s.delayed.filter fun t => t.1 ≠ taskId, pendingHangupTaskId := 0 }

theorem expired_keepsOrder {taskId : Nat} (h : taskId = s.pendingHangupTaskId) :
    KeepsOrder s (s.expired taskId) where
  tasks ht := ht.unprotected (by rw [← h]; rfl) rfl rfl rfl
  rested hr := ⟨hr.flag, hr.restoreTaskId⟩

/-- What the task does then. -/
def endUnanswered (env : Env) (callId : Int) : Prog CallManager Unit := do
  let h ← Prog.gets fun s => s.helper
  Prog.when (h.hasPendingHangup callId) do
    let call ← Prog.gets fun s => getOneCallObject s callId
    Prog.forSome call fun p => (dealFailDial env p).ignore
    setPendingHangup false (-1)

instance (callId : Int) : Moves KeepsOrder (endUnanswered env callId) := by
  unfold endUnanswered; infer_instance

theorem delayedTask_protect {taskId : Nat} {callId : Int}
    (h : s.delayed.find? (fun t => t.1 = taskId) = some (taskId, .pendingHangupProtect callId)) :
    delayedTask env taskId s = endUnanswered env callId (s.expired taskId) := by
  rw [delayedTask, Prog.bind_apply, Prog.gets_apply, h]
  rfl

/-- A task that has become due is gone, and its id with it. -/
instance (taskId : Nat) : Moves KeepsOrder (delayedTask env taskId) := by
  refine ⟨fun s => ?_⟩
  cases ht : s.delayed.find? (fun t => t.1 = taskId) with
  | none =>
    rw [delayedTask, Prog.bind_apply, Prog.gets_apply, ht]
    exact refl_of KeepsOrder s
  | some t =>
    have hmem := List.mem_of_find?_eq_some ht
    have hid : t.1 = taskId := by simpa using List.find?_some ht
    obtain ⟨id, task⟩ := t
    subst hid
    cases task with
    | restoreDialingFlag =>
      rw [delayedTask, Prog.bind_apply, Prog.gets_apply, ht]
      refine ⟨fun h => ?_, fun _ => ⟨rfl, rfl⟩⟩
      have hknown : id = s.helper.restoreTaskId := h.known _ hmem
      exact h.restored (by rw [← hknown]; rfl) rfl rfl rfl
    | pendingHangupProtect callId =>
      rw [delayedTask_protect ht]
      have hrest := Moves.rel (R := KeepsOrder) (m := endUnanswered env callId) (s.expired id)
      refine ⟨fun h => ?_, fun h => hrest.rested ⟨h.flag, h.restoreTaskId⟩⟩
      exact hrest.tasks ((expired_keepsOrder (h.known _ hmem)).tasks h)

/-- Every step but a dial. -/
theorem mainLoopStep_keepsOrder (env : Env) {input : Input}
    (hdial : ∀ caller number extras, input ≠ .dialCall caller number extras) :
    Moves KeepsOrder (mainLoopStep env input) := by
  cases input with
  | dialCall caller number extras => exact absurd rfl (hdial caller number extras)
  | _ => dsimp only [mainLoopStep]; infer_instance

end KeepsOrder

/-! ## Whole runs -/

theorem dialCall_order (env : Env) (h : ServiceInv s) (ht : s.TasksFit) (hr : s.Rested)
    (number : List UInt16) (extras : DialExtras) :
    Post (CallControlManager.dialCall env number extras) s fun _ s' => s'.TasksFit ∧ s'.Rested :=
  ⟨(Moves.rel (R := KeepsTasks fun _ => False)
      (m := CallControlManager.dialCall env number extras) s).tasks ht,
    dialCall_rests env number extras hr h.index⟩

/-- One main-loop step. -/
theorem mainLoopStep_order (env : Env) (h : ServiceInv s) (ht : s.TasksFit) (hr : s.Rested)
    (input : Input) : Post (mainLoopStep env input) s fun _ s' => s'.TasksFit ∧ s'.Rested := by
  by_cases hdial : ∃ caller number extras, input = .dialCall caller number extras
  · obtain ⟨caller, number, extras, rfl⟩ := hdial
    refine Post.ignore (Post.ite (fun _ => ⟨ht, hr⟩) fun _ => ?_)
    refine Post.ite (fun _ => ⟨ht, hr⟩) fun _ => Post.ite (fun _ => ⟨ht, hr⟩) fun _ => ?_
    exact dialCall_order env h ht hr number (buildDialInfo extras)
  · have hstep := (mainLoopStep_keepsOrder env fun caller number extras heq =>
      hdial ⟨caller, number, extras, heq⟩).rel s
    exact ⟨hstep.tasks ht, hstep.rested hr⟩

theorem reachable_order (hs : Reachable s) : s.TasksFit ∧ s.Rested := by
  refine Runs.Reachable.invariant_of (I := fun s => CallManager.TasksFit s ∧ s.Rested)
    (J := ServiceInv) (fun s hs => reachable_inv hs) ?_ ?_ hs
  · rintro s rfl
    exact ⟨⟨List.nodup_nil, nofun, nofun, fun h => absurd rfl h, fun h => absurd rfl h⟩, rfl, rfl⟩
  · rintro s s' h ⟨ht, hr⟩ ⟨env, input, rfl⟩
    exact mainLoopStep_order env h ht hr input

/-- **No dial leaves its flag behind**, nor anything that would take a later flag down. -/
theorem dialCall_noStaleFlag (hs : Reachable s) (env : Env) (number : List UInt16)
    (extras : DialExtras) :
    Post (CallControlManager.dialCall env number extras) s fun _ s' =>
      s'.helper.isDialingCallProcessing = false ∧ s'.helper.restoreTaskId = 0 ∧
        ∀ t ∈ s'.delayed, t.2 ≠ .restoreDialingFlag := by
  obtain ⟨ht, hr⟩ := reachable_order hs
  obtain ⟨ht', hr'⟩ := dialCall_order env (reachable_inv hs) ht hr number extras
  exact ⟨hr'.flag, hr'.restoreTaskId, ht'.no_restore hr'.restoreTaskId⟩

/-- A dial that the stack refuses, after its restore task was posted. -/
theorem dialCall_noStaleFlag_refused :
    Post (CallControlManager.dialCall .refusing [49, 50, 51] {}) .init fun _ s' =>
      s'.helper.isDialingCallProcessing = false ∧ s'.helper.restoreTaskId = 0 ∧
        ∀ t ∈ s'.delayed, t.2 ≠ .restoreDialingFlag :=
  dialCall_noStaleFlag (.start rfl) .refusing [49, 50, 51] {}

end CallManagerMini
