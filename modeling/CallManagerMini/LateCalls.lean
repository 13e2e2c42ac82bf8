import CallManagerMini.MessageRing
import CallManagerMini.WaiterSlots

/-! # Calls that come late

`Stop` releases the ring and drops the delayed tasks, and relies on both to stay empty from then
on.  They do unless a call comes late (`late`): `Enqueue` and `PostAsyncTask` look at the state
before they take the lock, and not again.  In a run in which no call comes late the ring is empty
once the loop has found it so behind its last message, and the table once `Stop` has taken it over
(`prompt_emptied`).
-/

namespace CallManagerMini

/-- The loop has found the ring empty behind its last message. -/
def LoopPc.drained : LoopPc → Bool
  | .unbind | .exit | .idle => true
  | _ => false

/-- `Stop` has taken over the delayed tasks. -/
def StopPc.dropped : StopPc → Bool
  | .idle | .checkOnLoop | .resume | .stopTimer | .dropDelayed => false
  | _ => true

namespace LosEventHandler

variable {config : Config} {s s' s₁ : LosEventHandler} {i : Nat} {c c' : Call} {a : Act}

/-- A call goes to its section of `Enqueue` when the loop takes no more messages, or to its section
of `PostAsyncTask` when `Stop` has taken over the delayed tasks. -/
def late (a : Act) (s : LosEventHandler) : Bool :=
  match a with
  | .call i _ => s.calls[i]?.any fun c =>
      (c.pc = .push && s.loop.drained) || (c.pc = .insert && s.stop.dropped)
  | _ => false

/-- One step that does not come late. -/
def promptStep? (config : Config) (a : Act) (s : LosEventHandler) : Option LosEventHandler :=
  if s.late a then none else s.step? config a

/-- The states the handler comes to in such steps. -/
abbrev Prompt (config : Config) : LosEventHandler → Prop :=
  Runs.Reachable (· = {}) fun s s' => ∃ a, s.promptStep? config a = some s'

theorem promptStep?_eq_some :
    s.promptStep? config a = some s' ↔ s.late a = false ∧ s.step? config a = some s' := by
  unfold promptStep?
  cases s.late a <;> simp

theorem Prompt.reachable (h : Prompt config s) : Reachable config s :=
  h.mono fun _ _ ⟨a, ha⟩ => ⟨a, (promptStep?_eq_some.mp ha).2⟩

/-! ## The ring and the table behind `Stop` -/

/-- What `Stop` relies on. -/
structure Emptied (s : LosEventHandler) : Prop where
  ring : s.loop.drained = true → s.ring.toList = []
  /-- A self-driven handler has no poster. -/
  posted : s.posted = []
  table : s.stop.dropped = true ∨ s.state = .uninit → s.delayed = []

theorem not_late_push {choice : Bool} (hlate : s.late (.call i choice) = false)
    (hi : s.calls[i]? = some c)
    (hpc : c.pc = .push) : s.loop.drained = false := by
  simpa [late, hi, hpc] using hlate

theorem not_late_insert {choice : Bool} (hlate : s.late (.call i choice) = false)
    (hi : s.calls[i]? = some c)
    (hpc : c.pc = .insert) : s.stop.dropped = false := by
  simpa [late, hi, hpc] using hlate

theorem Emptied.call {choice : Bool} (h : s.Emptied) (hinv : s.Inv config)
    (hposter : config.poster = false) (hlate : s.late (.call i choice) = false)
    (hi : s.calls[i]? = some c) (hm : CallMove config i s c s₁ c') :
    Emptied { s₁ with calls := s₁.calls.set i c' } := by
  have hmem := List.mem_of_getElem? hi
  have hframe := hm.frame
  have hfits := hinv.fits c hmem
  have hsame : s₁.ring = s.ring → s₁.posted = s.posted → (s.delayed = [] → s₁.delayed = []) →
      Emptied { s₁ with calls := s₁.calls.set i c' } := by
    intro hring hposted hdelayed
    refine ⟨fun hdrained => ?_, hposted.trans h.posted, fun hend => hdelayed (h.table ?_)⟩
    · exact (congrArg RingBuffer.toList hring).trans (h.ring (hframe.loop ▸ hdrained))
    · exact hend.imp (hframe.stop ▸ ·) (hframe.state ▸ ·)
  cases hm with
  | push hpc =>
    refine ⟨fun hdrained => ?_, h.posted, h.table⟩
    rw [not_late_push hlate hi hpc] at hdrained
    cases hdrained
  | post hpc =>
    simp only [Call.Fits, hpc, hposter] at hfits
    cases hfits
  | insert hpc =>
    have htable := not_late_insert hlate hi hpc
    obtain ⟨t, heq⟩ := enterDelayed_table config i _ s
    rw [heq]
    refine ⟨h.ring, h.posted, fun hend => ?_⟩
    rcases hend with hdropped | hstate
    · exact absurd (hdropped.symm.trans htable) (by decide)
    · have hadmitted := hinv.noCalls (by simp [stage, show s.state = .uninit from hstate]) c hmem
      simp [Call.admitted, hpc] at hadmitted
  | @remove _ k =>
    obtain ⟨t, es, -, heq⟩ := eraseDelayed_eq config k s
    rw [heq] at hsame ⊢
    exact hsame rfl rfl fun hnil => by simp [hnil]
  | rearm =>
    obtain ⟨t, -, heq⟩ := startTimer_eq config (ticksToMs config.tickFreq 1#32) s
    rw [heq] at hsame ⊢
    exact hsame rfl rfl id
  | _ => exact hsame rfl rfl id

theorem Emptied.loop (h : s.Emptied) (hposter : config.poster = false)
    (hm : LoopMove config s s') : s'.Emptied := by
  have hframe := hm.frame
  have htable : (s.delayed = [] → s'.delayed = []) → s'.stop.dropped = true ∨ s'.state = .uninit →
      s'.delayed = [] := fun hdelayed hend =>
    hdelayed (h.table (hend.imp (hframe.stop ▸ ·) (hframe.state ▸ ·)))
  have hgoes : s'.loop.drained = false → s'.posted = s.posted →
      (s.delayed = [] → s'.delayed = []) → s'.Emptied := by
    intro hloop hposted hdelayed
    refine ⟨fun hdrained => ?_, hposted.trans h.posted, htable hdelayed⟩
    exact absurd (hloop.symm.trans hdrained) (by decide)
  cases hm with
  | drainNone _ hpop =>
    exact ⟨fun _ => RingBuffer.toList_of_pop_eq_none hpop, h.posted,
      htable id⟩
  | unbind hpc | exit hpc => exact ⟨fun _ => h.ring (by rw [hpc]; rfl), h.posted, htable id⟩
  | takeDue =>
    obtain ⟨t, -, heq⟩ := takeDueLocked_eq config s
    rw [heq] at hgoes ⊢
    exact hgoes rfl rfl fun hnil => by simp [hnil]
  | @complete drained i status =>
    obtain ⟨calls, inUse, sems, log, -, heq⟩ := completeLocked_eq i status s
    rw [heq] at hgoes ⊢
    exact hgoes (by cases drained <;> rfl) rfl id
  | popNone =>
    refine hgoes ?_ rfl id
    dsimp only
    split <;> rfl
  | dispatched =>
    refine hgoes ?_ rfl id
    simp only [hposter, Bool.false_eq_true, if_false]
    split <;> rfl
  | @recycleTimer drained | @recycleAsync drained =>
    exact hgoes (by cases drained <;> rfl) rfl id
  | _ => exact hgoes rfl rfl id

theorem Emptied.stop {timeUp : Bool} (h : s.Emptied) (hinv : s.Inv config)
    (hm : StopMove config s timeUp s') : s'.Emptied := by
  have hgoes : s'.ring = s.ring → s'.posted = s.posted → s'.delayed = s.delayed →
      (s'.stop.dropped = true ∨ s'.state = .uninit → s.stop.dropped = true ∨ s.state = .uninit) →
      s'.Emptied := by
    intro hring hposted hdelayed hend
    refine ⟨fun hdrained => ?_, hposted.trans h.posted, fun hend' => ?_⟩
    · rw [hring]
      exact h.ring (hm.loop ▸ hdrained)
    · rw [hdelayed]
      exact h.table (hend hend')
  have hinside : ∀ {pc}, s.stop = pc → pc ≠ .idle → s.state = .stopping := by
    rintro pc rfl hpc
    exact hinv.stopping hpc
  cases hm with
  | poll => exact h
  | dropDelayed => exact ⟨h.ring, h.posted, fun _ => rfl⟩
  | releaseQueue hpc =>
    exact ⟨fun _ => RingBuffer.toList_empty 0, h.posted, fun _ => h.table (.inl (by rw [hpc]; rfl))⟩
  | giveUp hpc =>
    have hstate : s.state = .stopping := by
      rcases hpc with hpc | hpc | hpc | hpc <;> exact hinside hpc (by simp)
    refine hgoes rfl rfl rfl fun hend => ?_
    rcases hend with hdropped | huninit
    · cases hdropped
    · exact absurd (hstate.symm.trans huninit) (by decide)
  | onLoop hpc | offLoop hpc | stopTimer hpc =>
    refine hgoes rfl rfl rfl fun hend => ?_
    rcases hend with hdropped | huninit
    · cases hdropped
    · exact absurd ((hinside hpc (by simp)).symm.trans huninit) (by decide)
  | resume =>
    refine hgoes rfl rfl rfl fun hend => ?_
    rcases hend with hdropped | huninit <;> contradiction
  | waitAgain hpc =>
    refine hgoes rfl rfl rfl fun _ => .inl ?_
    rcases hpc with hpc | hpc <;> rw [hpc] <;> rfl
  | _ hpc => exact hgoes rfl rfl rfl fun _ => .inl (by rw [hpc]; rfl)

theorem Emptied.move (h : s.Emptied) (hinv : s.Inv config) (hposter : config.poster = false)
    (hlate : s.late a = false) (hm : Move config s a s') : s'.Emptied := by
  cases hm with
  | init hs =>
    have hidle := hinv.stop_idle (show s.state ≠ .stopping by simp [hs])
    rw [initialized_selfDriven hposter]
    refine ⟨by simp, h.posted, fun hend => ?_⟩
    rcases hend with hdropped | huninit
    · rw [show s.stop = .idle from hidle] at hdropped
      cases hdropped
    · cases huninit
  | call hi hm => exact h.call hinv hposter hlate hi hm
  | loop _ hm => exact h.loop hposter hm
  | bindLoopTask hdriven | receive hdriven =>
    rw [hposter] at hdriven
    cases hdriven
  | callStop hs =>
    refine ⟨h.ring, h.posted, fun hend => ?_⟩
    simp only [hposter, Bool.false_eq_true, if_false] at hend
    rcases hend with hdropped | huninit
    · cases hdropped
    · cases huninit
  | stop hm => exact h.stop hinv hm
  | invoke | expire | tick | nothing => exact ⟨h.ring, h.posted, h.table⟩

theorem Emptied.step (h : s.Emptied) (hinv : s.Inv config) (hposter : config.poster = false)
    (hstep : s.promptStep? config a = some s') : s'.Emptied := by
  obtain ⟨hlate, hstep⟩ := promptStep?_eq_some.mp hstep
  obtain ⟨me, -, rfl⟩ | ⟨l, hl, hm⟩ := step_cases hstep
  · exact ⟨h.ring, h.posted, h.table⟩
  · exact Emptied.move (s := { s with lock := l }) ⟨h.ring, h.posted, h.table⟩ (hinv.locked hl)
      hposter (by cases a <;> exact hlate) hm

/-- **What `Stop` relies on** holds in every run in which no call comes late. -/
theorem prompt_emptied (h : Prompt config s) (hposter : config.poster = false) : s.Emptied := by
  refine h.invariant_of (fun s hs => reachable_inv (Prompt.reachable hs)) (fun s hs => ?_)
    fun s s' hinv hs hstep => ?_
  · subst hs
    exact ⟨fun _ => rfl, rfl, fun _ => rfl⟩
  · obtain ⟨a, ha⟩ := hstep
    exact hs.step hinv hposter ha

end LosEventHandler

end CallManagerMini
