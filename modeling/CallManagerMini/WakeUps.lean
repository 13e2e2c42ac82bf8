import CallManagerMini.DelayedTableRuns
import CallManagerMini.MessageRing
import CallManagerMini.TimerArithmetic

/-! # No delayed task loses its wake-up

The table of delayed tasks has one timer, armed for the entry that is due first.  It is armed where
that entry changes and where the due tasks were taken; when it fires, its callback sends the timer
message, or arms it for one more tick if nobody takes the message.  So in every life that begins
with an empty table, whatever way calls, callbacks and the loop are interleaved, the first entry has
the timer armed for it, or the timer message is on its way, or somebody is about to see to one of
the two (`WatchedOver`).  The timer is armed for the tick the entry is due at, or, where it is due
already, for one tick from then on (`delayed_tasks_wake`, `retry_comes_late`).
-/

namespace CallManagerMini

/-! ## How long a timer runs -/

/-- The ticks a timer runs that is started for so many ticks by way of milliseconds. -/
def timerTicks (freq ticks : BitVec 32) : Nat :=
  max 1 (telOsMsToTicks freq (ticksToMs freq ticks)).toNat

variable {freq ticks : BitVec 32}

theorem ticksToMs_ne_forever (hticks : ticks ≠ telOsWaitForever) :
    ticksToMs freq ticks ≠ telOsWaitForever := by
  by_cases hfreq : freq = 0#32
  · rwa [ticksToMs, if_pos hfreq]
  · exact ticksToMs_finite hfreq

theorem ticksToMs_monotone {ticks' : BitVec 32} (hle : ticks ≤ ticks') :
    ticksToMs freq ticks ≤ ticksToMs freq ticks' := by
  by_cases hfreq : freq = 0#32
  · rwa [ticksToMs, ticksToMs, if_pos hfreq, if_pos hfreq]
  · have hpos : 0 < freq.toNat := Nat.pos_of_ne_zero fun hz => hfreq (BitVec.eq_of_toNat_eq hz)
    rw [BitVec.le_def, toNat_ticksToMs hfreq, toNat_ticksToMs hfreq]
    apply min_le_min_right
    rw [ceilDiv_le_iff_le_mul hpos]
    calc ticks.toNat * 1000
      _ ≤ ticks'.toNat * 1000 := Nat.mul_le_mul_right _ hle
      _ ≤ freq.toNat * (ticks'.toNat * 1000 ⌈/⌉ freq.toNat) := le_smul_ceilDiv hpos

/-- A timer that is started for more ticks runs no shorter. -/
theorem timerTicks_monotone {ticks' : BitVec 32} (hle : ticks ≤ ticks')
    (hfinite : ticks ≠ telOsWaitForever) (hfinite' : ticks' ≠ telOsWaitForever) :
    timerTicks freq ticks ≤ timerTicks freq ticks' :=
  max_le_max_left 1 (msToTicks_monotone (ticksToMs_ne_forever hfinite)
    (ticksToMs_ne_forever hfinite') (ticksToMs_monotone hle))

/-- It runs no longer than so many ticks, and those of a millisecond. -/
theorem timerTicks_le (hticks : 1 ≤ ticks.toNat) (hfinite : ticks ≠ telOsWaitForever) :
    timerTicks freq ticks ≤ ticks.toNat + freq.toNat ⌈/⌉ 1000 := by
  refine max_le (Nat.le_add_right_of_le hticks) ?_
  by_cases hfreq : freq = 0#32
  · rw [ticksToMs, if_pos hfreq, telOsMsToTicks, if_neg hfinite, if_pos hfreq]
    exact Nat.le_add_right _ _
  · have hpos : 0 < freq.toNat := Nat.pos_of_ne_zero fun hz => hfreq (BitVec.eq_of_toNat_eq hz)
    have hn : 0 < 1000 := by decide
    have hms : (ticksToMs freq ticks).toNat ≤ ticks.toNat * 1000 ⌈/⌉ freq.toNat := by
      rw [toNat_ticksToMs hfreq]
      exact min_le_left _ _
    rw [toNat_msToTicks hfreq (ticksToMs_finite hfreq)]
    calc min ((ticksToMs freq ticks).toNat * freq.toNat ⌈/⌉ 1000) telOsMaxFiniteTicks.toNat
      _ ≤ (ticksToMs freq ticks).toNat * freq.toNat ⌈/⌉ 1000 := min_le_left _ _
      _ ≤ (ticks.toNat * 1000 ⌈/⌉ freq.toNat) * freq.toNat ⌈/⌉ 1000 := by
        rw [ceilDiv_le_iff_le_mul hn]
        exact (Nat.mul_le_mul_right _ hms).trans (le_smul_ceilDiv hn)
      _ ≤ ticks.toNat + freq.toNat ⌈/⌉ 1000 := ceilDiv_ceilDiv_le hpos hn

/-- One tick is a millisecond at least. -/
theorem ceilDiv_le_timerTicks (freq : BitVec 32) : freq.toNat ⌈/⌉ 1000 ≤ timerTicks freq 1#32 := by
  have hn : 0 < 1000 := by decide
  refine le_max_of_le_right ?_
  by_cases hfreq : freq = 0#32
  · rw [hfreq]
    decide
  · have hf := freq.isLt
    have hms := (@armsTimer freq 1#32 hfreq (by decide)).pos
    rw [toNat_msToTicks hfreq (ticksToMs_finite hfreq)]
    refine le_min ?_ ?_
    · rw [ceilDiv_le_iff_le_mul hn]
      calc freq.toNat
        _ = 1 * freq.toNat := (Nat.one_mul _).symm
        _ ≤ (ticksToMs freq 1#32).toNat * freq.toNat := Nat.mul_le_mul_right _ hms
        _ ≤ 1000 * ((ticksToMs freq 1#32).toNat * freq.toNat ⌈/⌉ 1000) := le_smul_ceilDiv hn
    · rw [ceilDiv_le_iff_le_mul hn]
      simp [telOsMaxFiniteTicks, telOsWaitForever]
      omega

/-- A delay that is not over has a tick left at least, and less than half of those there are. -/
theorem not_due_iff {dueTick now : BitVec 32} :
    isDue dueTick now = false ↔ 1 ≤ (dueTick - now).toNat ∧ (dueTick - now).toNat < 2 ^ 31 := by
  rw [isDue, decide_eq_false_iff_not, BitVec.toInt_eq_toNat_cond]
  have hlt := (dueTick - now).isLt
  split <;> omega

theorem left_of_not_due {dueTick now : BitVec 32} (h : isDue dueTick now = false) :
    1#32 ≤ dueTick - now ∧ dueTick - now ≠ telOsWaitForever := by
  obtain ⟨hpos, hlt⟩ := not_due_iff.mp h
  refine ⟨hpos, fun heq => ?_⟩
  rw [heq] at hlt
  exact absurd hlt (by decide)

/-- It has come in with the timer, and not handed its message on, or is about to arm it. -/
def Call.seesToTimer (c : Call) : Bool :=
  c.request = .onTimerExpired &&
    match c.pc with
    | .called | .counted | .exchange | .rearm => true
    | _ => false

namespace LosEventHandler

variable {config : Config} {s s' s₁ : LosEventHandler} {i : Nat} {c c' : Call} {a : Act}
  {entry : DelayedTask}

/-! ## Armed for an entry -/

/-- No later than the entry is due, as it was seen when the timer was armed for it: what was left of
its delay is rounded up to milliseconds and those to ticks, or clamped. -/
def Punctual (config : Config) (entry : DelayedTask) (now deadline : Nat) : Prop :=
  ∃ armed ≤ now, isDue entry.dueTick (BitVec.ofNat 32 armed) = false ∧
    deadline ≤ armed + timerTicks config.tickFreq (entry.dueTick - BitVec.ofNat 32 armed)

/-- The entry was due already when the timer was armed, which is for one tick then. -/
def Belated (config : Config) (entry : DelayedTask) (now deadline : Nat) : Prop :=
  ∃ armed ≤ now, isDue entry.dueTick (BitVec.ofNat 32 armed) = true ∧
    deadline ≤ armed + timerTicks config.tickFreq 1#32

/-- The timer is pending, and fires in time for the entry. -/
def ArmedFor (config : Config) (s : LosEventHandler) (entry : DelayedTask) : Prop :=
  ∃ deadline, s.timer = some { deadline := some deadline } ∧
    (Punctual config entry s.tick deadline ∨ Belated config entry s.tick deadline)

/-- Time goes by, and nobody touches the timer. -/
theorem ArmedFor.later (h : s.ArmedFor config entry) (htimer : s'.timer = s.timer)
    (htick : s.tick ≤ s'.tick) : s'.ArmedFor config entry := by
  obtain ⟨deadline, hdeadline, ⟨armed, harmed, hdue⟩ | ⟨armed, harmed, hdue⟩⟩ := h
  · exact ⟨deadline, htimer.trans hdeadline, .inl ⟨armed, harmed.trans htick, hdue⟩⟩
  · exact ⟨deadline, htimer.trans hdeadline, .inr ⟨armed, harmed.trans htick, hdue⟩⟩

theorem startTimer_timer (hticks : ticks ≠ telOsWaitForever) (htimer : s.timer.isSome = true) :
    (s.startTimer config (ticksToMs config.tickFreq ticks)).timer =
      some { deadline := some (s.tick + timerTicks config.tickFreq ticks) } := by
  obtain ⟨timer, htimer⟩ := Option.isSome_iff_exists.mp htimer
  have hruns : (if telOsMsToTicks config.tickFreq (ticksToMs config.tickFreq ticks) = 0#32 then
      1#32 else telOsMsToTicks config.tickFreq (ticksToMs config.tickFreq ticks)).toNat =
      timerTicks config.tickFreq ticks := by
    unfold timerTicks
    split
    next hzero =>
      rw [hzero]
      rfl
    next hne =>
      exact (max_eq_right (Nat.pos_of_ne_zero fun hz => hne (BitVec.eq_of_toNat_eq hz))).symm
  unfold startTimer
  rw [if_neg (ticksToMs_ne_forever hticks)]
  simp only [htimer, Option.map_some, hruns]

theorem startTimer_tick (delayMs : BitVec 32) : (s.startTimer config delayMs).tick = s.tick := by
  obtain ⟨t, -, heq⟩ := startTimer_eq config delayMs s
  rw [heq]

theorem armTimerLocked_delayed (config : Config) (s : LosEventHandler) :
    (s.armTimerLocked config).delayed = s.delayed := by
  rw [armTimerLocked_eq]

/-- `ArmTimerLocked` arms the timer for the first entry. -/
theorem armTimerLocked_armedFor (htimer : s.timer.isSome = true)
    (hfront : (s.armTimerLocked config).delayed.head? = some entry) :
    (s.armTimerLocked config).ArmedFor config entry := by
  rw [armTimerLocked_delayed] at hfront
  obtain ⟨rest, hdelayed⟩ := List.head?_eq_some_iff.mp hfront
  unfold armTimerLocked
  rw [hdelayed]
  dsimp only
  cases hdue : isDue entry.dueTick s.tickCount with
  | true =>
    rw [if_pos rfl]
    refine ⟨_, startTimer_timer (by decide) htimer, .inr ⟨s.tick, ?_, hdue, Nat.le_refl _⟩⟩
    rw [startTimer_tick]
  | false =>
    rw [if_neg (by decide)]
    refine ⟨_, startTimer_timer (left_of_not_due hdue).2 htimer,
      .inl ⟨s.tick, ?_, hdue, Nat.le_refl _⟩⟩
    rw [startTimer_tick]

/-- One tick is soon enough for every entry. -/
theorem rearmed_armedFor (htimer : s.timer.isSome = true) (entry : DelayedTask) :
    (s.startTimer config (ticksToMs config.tickFreq 1#32)).ArmedFor config entry := by
  refine ⟨_, startTimer_timer (by decide) htimer, ?_⟩
  rw [startTimer_tick]
  cases hdue : isDue entry.dueTick s.tickCount with
  | true => exact .inr ⟨s.tick, Nat.le_refl _, hdue, Nat.le_refl _⟩
  | false =>
    obtain ⟨hone, hfinite⟩ := left_of_not_due hdue
    refine .inl ⟨s.tick, Nat.le_refl _, hdue, Nat.add_le_add_left ?_ _⟩
    exact timerTicks_monotone hone (by decide) hfinite

/-- By the clock: it fires before the entry is due and a millisecond has gone by, or within a tick
if the entry is due by now. -/
theorem ArmedFor.soon (h : s.ArmedFor config entry) :
    ∃ deadline, s.timer = some { deadline := some deadline } ∧ deadline ≤ s.tick +
      if isDue entry.dueTick s.tickCount then timerTicks config.tickFreq 1#32
      else (entry.dueTick - s.tickCount).toNat + config.tickFreq.toNat ⌈/⌉ 1000 := by
  obtain ⟨deadline, hdeadline, hin⟩ := h
  refine ⟨deadline, hdeadline, ?_⟩
  have hunit := ceilDiv_le_timerTicks config.tickFreq
  have hclock : ∀ n : Nat, (entry.dueTick - BitVec.ofNat 32 n).toNat =
      (2 ^ 32 - n % 2 ^ 32 + entry.dueTick.toNat) % 2 ^ 32 := fun n => by
    rw [BitVec.toNat_sub, BitVec.toNat_ofNat]
  have hnow := hclock s.tick
  obtain ⟨armed, harmed, hdue, hle⟩ | ⟨armed, harmed, hdue, hle⟩ := hin
  · obtain ⟨hpos, hhalf⟩ := not_due_iff.mp hdue
    have hticks := @timerTicks_le config.tickFreq _ hpos (left_of_not_due hdue).2
    have hthen := hclock armed
    cases hduenow : isDue entry.dueTick s.tickCount with
    | true =>
      rw [if_pos rfl]
      have hover : armed + (entry.dueTick - BitVec.ofNat 32 armed).toNat ≤ s.tick := by
        by_contra hbefore
        have hnot : isDue entry.dueTick s.tickCount = false :=
          not_due_iff.mpr (by rw [tickCount]; omega)
        exact absurd (hduenow.symm.trans hnot) (by decide)
      omega
    | false =>
      rw [if_neg (by decide), tickCount]
      omega
  · have hone := @timerTicks_le config.tickFreq 1#32 (by decide) (by decide)
    cases hduenow : isDue entry.dueTick s.tickCount with
    | true =>
      rw [if_pos rfl]
      omega
    | false =>
      rw [if_neg (by decide)]
      have hpos := (not_due_iff.mp hduenow).1
      have hlater : armed ≠ s.tick := by
        rintro rfl
        exact absurd (hdue.symm.trans hduenow) (by decide)
      simp only [BitVec.toNat_ofNat] at hone
      omega

/-- The entry that is entered first has the timer armed for it; otherwise the first entry stays. -/
theorem enterDelayed_front {delayMs : BitVec 32} (htimer : s.timer.isSome = true)
    (hfront : (s.enterDelayed config i delayMs).delayed.head? = some entry) :
    (s.enterDelayed config i delayMs).ArmedFor config entry ∨
      s.delayed.head? = some entry ∧ (s.enterDelayed config i delayMs).timer = s.timer := by
  have hplaced := enterDelayed_delayed config i delayMs s
  have hsplit := before_append_drop (s.tickCount + delayTicks config delayMs) s.delayed
  cases hbefore : before (s.tickCount + delayTicks config delayMs) s.delayed with
  | nil =>
    left
    unfold enterDelayed at hfront ⊢
    change before (s.tickCount + _) s.delayed = [] at hbefore
    simp only [delayTicks] at hbefore
    simp only [if_pos hbefore] at hfront ⊢
    exact armTimerLocked_armedFor htimer hfront
  | cons first others =>
    right
    rw [hbefore] at hplaced hsplit
    rw [hplaced] at hfront
    refine ⟨?_, ?_⟩
    · rw [← hsplit]
      exact hfront
    · unfold enterDelayed
      simp only [delayTicks] at hbefore
      simp only [hbefore, reduceCtorEq, if_false]

/-- Likewise where an entry is taken out. -/
theorem eraseDelayed_front {k : Nat} (htimer : s.timer.isSome = true)
    (hfront : (s.eraseDelayed config k).delayed.head? = some entry) :
    (s.eraseDelayed config k).ArmedFor config entry ∨
      s.delayed.head? = some entry ∧ (s.eraseDelayed config k).timer = s.timer := by
  cases k with
  | zero =>
    left
    unfold eraseDelayed at hfront ⊢
    simp only [if_true] at hfront ⊢
    exact armTimerLocked_armedFor htimer hfront
  | succ k =>
    right
    unfold eraseDelayed at hfront ⊢
    simp only [Nat.succ_ne_zero, if_false] at hfront ⊢
    refine ⟨?_, trivial⟩
    cases hdelayed : s.delayed with
    | nil =>
      rw [hdelayed] at hfront
      exact hfront
    | cons first others =>
      rw [hdelayed] at hfront
      exact hfront

/-! ## One life -/

/-- One step, in which nobody calls `Stop`. -/
def lifeStep? (config : Config) (a : Act) (s : LosEventHandler) : Option LosEventHandler :=
  match a with
  | .callStop _ => none
  | a => s.step? config a

/-- `Init` has just started the handler, whatever came before, and there are no delayed tasks. -/
def Born (config : Config) (s : LosEventHandler) : Prop :=
  ∃ s₀, Reachable config s₀ ∧ s₀.state = .uninit ∧ s₀.delayed = [] ∧
    s₀.step? config (.init true) = some s ∧ s.state = .running

/-- The states of a life: from an `Init` on until somebody calls `Stop`. -/
abbrev OneLife (config : Config) : LosEventHandler → Prop :=
  Runs.Reachable (Born config) fun s s' => ∃ a, s.lifeStep? config a = some s'

theorem lifeStep?_eq_some (h : s.lifeStep? config a = some s') :
    (∀ task, a ≠ .callStop task) ∧ s.step? config a = some s' := by
  cases a with
  | callStop task => cases h
  | _ => exact ⟨by simp, h⟩

theorem OneLife.reachable (h : OneLife config s) : Reachable config s := by
  refine h.invariant (I := Reachable config) (fun s hborn => ?_) fun s s' hs hstep => ?_
  · obtain ⟨s₀, hs₀, -, -, hstep, -⟩ := hborn
    exact hs₀.next ⟨_, hstep⟩
  · obtain ⟨a, ha⟩ := hstep
    exact hs.next ⟨a, (lifeStep?_eq_some ha).2⟩

/-- What stays so in a life: the loop does not end, and no timer message is recycled. -/
structure Alive (config : Config) (s : LosEventHandler) : Prop where
  running : s.state = .running
  serving : config.poster = false → s.loop.serving = true
  stays : config.poster = false → s.loop.listening = false → s.loopStopping = false
  kept : ∀ drained, s.loop ≠ .recycle drained .timerFire

theorem Alive.ne_drain (h : s.Alive config) (hinv : s.Inv config) : s.loop ≠ .drain := by
  intro hpc
  cases hposter : config.poster with
  | false =>
    have hserving := h.serving hposter
    rw [hpc] at hserving
    cases hserving
  | true =>
    have hexternal := hinv.external hposter
    rw [hpc] at hexternal
    cases hexternal

theorem Alive.stop_idle (h : s.Alive config) (hinv : s.Inv config) : s.stop = .idle :=
  hinv.stop_idle (by rw [h.running]; decide)

theorem Alive.timer (h : s.Alive config) (hinv : s.Inv config) : s.timer.isSome = true := by
  apply hinv.timer
  rw [stage, h.running, h.stop_idle hinv]
  decide

theorem CallMove.loopStopping (hm : CallMove config i s c s₁ c') :
    s₁.loopStopping = s.loopStopping := by
  cases hm.ringMove with
  | push | signal => rfl
  | none _ _ _ _ hstopping => exact hstopping

/-- **The loop serves on**, where nobody stops the handler. -/
theorem Alive.loop (h : s.Alive config) (hinv : s.Inv config) (hm : LoopMove config s s') :
    s'.Alive config := by
  have hrunning : s'.state = .running := hm.frame.state.trans h.running
  have hgoes : ∀ {pc}, s.loop = pc → s'.loopStopping = s.loopStopping → pc.listening = false →
      (config.poster = false → pc.serving = true → s'.loop.serving = true) →
      (∀ drained, s'.loop ≠ .recycle drained .timerFire) → s'.Alive config := by
    rintro pc rfl hstopping hpc hserving hkept
    refine ⟨hrunning, fun hposter => hserving hposter (h.serving hposter), fun hposter _ => ?_, hkept⟩
    rw [hstopping]
    exact h.stays hposter hpc
  have hlistens : s'.loop.listening = true → s'.Alive config := by
    intro hpc
    refine ⟨hrunning, fun _ => ?_, fun _ hnot => ?_, fun drained heq => ?_⟩
    · cases hloop : s'.loop <;> simp_all [LoopPc.listening, LoopPc.serving]
    · exact absurd (hpc.symm.trans hnot) (by decide)
    · rw [heq] at hpc
      cases hpc
  cases hm with
  | bind | wait => exact hlistens rfl
  | popNone => exact hlistens (by rw [if_pos h.running]; rfl)
  | pop =>
    refine ⟨hrunning, fun _ => rfl, fun _ _ => ?_, by simp⟩
    simp [h.running]
  | dispatch hpc | allow hpc => exact hgoes hpc rfl rfl (fun _ _ => rfl) (by simp)
  | refuse _ hs => exact absurd h.running hs
  | handleTimer hpc | handleSync hpc | handleAsync hpc | ranAll hpc | runDelayed hpc | runAsync hpc
  | runSync hpc => exact hgoes hpc rfl rfl (fun _ _ => rfl) (by simp)
  | takeDue hpc =>
    obtain ⟨t, -, heq⟩ := takeDueLocked_eq config s
    rw [heq] at hgoes ⊢
    exact hgoes hpc rfl rfl (fun _ _ => rfl) (by simp)
  | @complete drained i status hpc =>
    obtain ⟨calls, inUse, sems, log, -, heq⟩ := completeLocked_eq i status s
    rw [heq] at hgoes ⊢
    refine hgoes hpc rfl rfl (fun _ hserving => ?_) (by cases drained <;> simp [LoopPc.behind])
    cases drained with
    | false => rfl
    | true => cases hserving
  | recycleTimer hpc => exact absurd hpc (h.kept _)
  | @recycleSync drained i hpc | @recycleAsync drained i hpc =>
    refine hgoes hpc rfl rfl (fun _ hserving => ?_) (by cases drained <;> simp [LoopPc.behind])
    cases drained with
    | false => rfl
    | true => cases hserving
  | dispatched hpc =>
    by_cases hposter : config.poster = true
    · exact ⟨hrunning, by simp [hposter], by simp [hposter], by simp [hposter]⟩
    · have hself := Bool.eq_false_of_not_eq_true hposter
      have hstays := h.stays hself (by rw [hpc]; rfl)
      refine hlistens ?_
      simp [hself, hstays, LoopPc.listening]
  | drain hpc | drainNone hpc => exact absurd hpc (h.ne_drain hinv)
  | unbind hpc | exit hpc =>
    refine hgoes hpc rfl rfl (fun _ hserving => ?_) (by simp)
    cases hserving

/-- Where nobody is inside `Stop`, it does nothing. -/
theorem StopMove.eq_of_idle {timeUp : Bool} (hm : StopMove config s timeUp s')
    (hidle : s.stop = .idle) : s' = s := by
  cases hm with
  | poll => rfl
  | giveUp hpc | waitAgain hpc =>
    rw [hidle] at hpc
    simp at hpc
  | _ hpc =>
    rw [hidle] at hpc
    cases hpc

theorem Alive.move (h : s.Alive config) (hinv : s.Inv config) (ha : ∀ task, a ≠ .callStop task)
    (hm : Move config s a s') : s'.Alive config := by
  have hidle := h.stop_idle hinv
  cases hm with
  | init hs =>
    rw [h.running] at hs
    cases hs
  | call _ hm =>
    have hframe := hm.frame
    refine ⟨hframe.state.trans h.running, fun hposter => ?_,
      fun hposter hpc => ?_, fun drained => ?_⟩
    · exact (congrArg LoopPc.serving hframe.loop).trans (h.serving hposter)
    · exact hm.loopStopping.trans (h.stays hposter (hframe.loop ▸ hpc))
    · exact hframe.loop ▸ h.kept drained
  | loop _ hm => exact h.loop hinv hm
  | receive hposter => exact ⟨h.running, by simp [hposter], by simp [hposter], by simp⟩
  | @callStop task => exact absurd rfl (ha task)
  | stop hm =>
    rw [hm.eq_of_idle hidle]
    exact h
  | invoke | expire | bindLoopTask | tick | nothing =>
    exact ⟨h.running, h.serving, h.stays, h.kept⟩

theorem Born.alive (h : Born config s) : s.Alive config := by
  obtain ⟨s₀, hreachable, huninit, -, hstep, hrunning⟩ := h
  have hinv := reachable_inv hreachable
  -- The handler was initialized, or nothing has happened.
  have heq : s = s₀.initialized config := by
    have hinit : s₀.init config true = s := Option.some.inj hstep
    unfold LosEventHandler.init at hinit
    split at hinit
    · rw [← hinit, huninit] at hrunning
      cases hrunning
    · exact hinit.symm
  subst heq
  cases hposter : config.poster with
  | false =>
    rw [initialized_selfDriven hposter]
    refine ⟨rfl, fun _ => rfl, fun _ hpc => ?_, by simp⟩
    cases hpc
  | true =>
    have hstage : s₀.stage = 9 := if_pos huninit
    have hqueued := hinv.queued
    rw [hinv.noTimerMessage (by omega)] at hqueued
    refine ⟨hrunning, by simp [hposter], by simp [hposter], fun drained hpc => ?_⟩
    have hloop : s₀.loop = .recycle drained .timerFire := by
      rw [← hpc]
      simp [initialized, hposter, note]
    simp only [LosEventHandler.inFlight, hloop, LoopPc.hand, if_true, Bool.toNat_false] at hqueued
    omega

/-! ## Watched over -/

/-- **The first entry of the table is watched over**: the timer is armed for it, the timer message
has been taken by whoever sends it, or somebody is about to see to one of the two. -/
def WatchedOver (config : Config) (s : LosEventHandler) : Prop :=
  ∀ entry, s.delayed.head? = some entry → s.ArmedFor config entry ∨ s.timerMessageQueued = true ∨
    s.loop = .runDue ∨ ∃ c ∈ s.calls, c.seesToTimer = true

/-- Nobody touches the table or the timer, and who sees to the timer goes on, or has taken the
message. -/
theorem WatchedOver.calm (h : s.WatchedOver config) (hdelayed : s'.delayed = s.delayed)
    (htimer : s'.timer = s.timer) (htick : s.tick ≤ s'.tick)
    (hqueued : s.timerMessageQueued = true → s'.timerMessageQueued = true)
    (hloop : s.loop = .runDue → s'.loop = .runDue)
    (hcalls : ∀ c ∈ s.calls, c.seesToTimer = true →
      s'.timerMessageQueued = true ∨ ∃ c' ∈ s'.calls, c'.seesToTimer = true) :
    s'.WatchedOver config := by
  intro entry hentry
  rw [hdelayed] at hentry
  rcases h entry hentry with harmed | hsent | hdue | ⟨c, hc, hsees⟩
  · exact .inl (harmed.later htimer htick)
  · exact .inr (.inl (hqueued hsent))
  · exact .inr (.inr (.inl (hloop hdue)))
  · exact .inr ((hcalls c hc hsees).imp_right .inr)

theorem WatchedOver.call (h : s.WatchedOver config) (hinv : s.Inv config) (halive : s.Alive config)
    (hi : s.calls[i]? = some c) (hm : CallMove config i s c s₁ c') :
    WatchedOver config { s₁ with calls := s₁.calls.set i c' } := by
  have hmem := List.mem_of_getElem? hi
  have hcalls : s₁.calls.set i c' = s.calls.set i c' := by rw [hm.frame.calls]
  have hloop : s₁.loop = s.loop := hm.frame.loop
  have hfits := hinv.fits c hmem
  have htimer := halive.timer hinv
  have hself : c' ∈ s₁.calls.set i c' := by
    rw [hcalls]
    exact List.mem_of_getElem? (Agents.getElem?_set_self c' hi)
  -- The call leaves its watch only to somebody else.
  have hkeep : s₁.delayed = s.delayed → s₁.timer = s.timer → s₁.tick = s.tick →
      (s.timerMessageQueued = true → s₁.timerMessageQueued = true) →
      (c.seesToTimer = true → s₁.timerMessageQueued = true ∨ c'.seesToTimer = true) →
      WatchedOver config { s₁ with calls := s₁.calls.set i c' } := by
    intro hdelayed htimer htick hqueued hsees
    refine h.calm hdelayed htimer htick.ge hqueued (fun hdue => hloop.trans hdue) fun d hd hd' => ?_
    rcases Agents.mem_set_of_mem c' hi hd with rfl | hd
    · exact (hsees hd').imp_right fun hsees' => ⟨c', hself, hsees'⟩
    · exact .inr ⟨d, hcalls ▸ hd, hd'⟩
  -- It enters the table or takes from it, and has nothing to do with the timer.
  have hfront : c.seesToTimer = false → s₁.tick = s.tick →
      (s.timerMessageQueued = true → s₁.timerMessageQueued = true) →
      (∀ entry, s₁.delayed.head? = some entry → s₁.ArmedFor config entry ∨
        s.delayed.head? = some entry ∧ s₁.timer = s.timer) →
      WatchedOver config { s₁ with calls := s₁.calls.set i c' } := by
    intro hsees htick hqueued hfront entry hentry
    rcases hfront entry hentry with harmed | ⟨hentry, htimer⟩
    · exact .inl harmed
    · rcases h entry hentry with harmed | hsent | hdue | ⟨d, hd, hd'⟩
      · exact .inl (harmed.later htimer htick.ge)
      · exact .inr (.inl (hqueued hsent))
      · exact .inr (.inr (.inl (hloop.trans hdue)))
      · rcases Agents.mem_set_of_mem c' hi hd with rfl | hd
        · rw [hsees] at hd'
          cases hd'
        · exact .inr (.inr (.inr ⟨d, hcalls ▸ hd, hd'⟩))
  cases hm with
  | insert hpc =>
    obtain ⟨t, l, -, heq⟩ := enterDelayed_eq config i _ s
    refine hfront (by simp [Call.seesToTimer, hpc]) (by rw [heq]) (by rw [heq]; exact id) ?_
    exact fun entry hentry => enterDelayed_front htimer hentry
  | @remove _ k hpc =>
    obtain ⟨t, es, -, heq⟩ := eraseDelayed_eq config k s
    refine hfront (by simp [Call.seesToTimer, hpc]) (by rw [heq]) (by rw [heq]; exact id) ?_
    exact fun entry hentry => eraseDelayed_front htimer hentry
  | rearm =>
    exact fun entry _ => .inl ((rearmed_armedFor htimer entry).later rfl (Nat.le_refl _))
  | exchange => exact fun entry _ => .inr (.inl rfl)
  | unqueue hpc =>
    simp only [Call.Fits, hpc] at hfits
    exact fun entry _ => .inr (.inr (.inr ⟨_, hself, by simp [Call.seesToTimer, hfits]⟩))
  | enter hpc =>
    refine hkeep rfl rfl rfl id fun hsees => .inr ?_
    simpa [Call.seesToTimer, hpc] using hsees
  | allow hpc =>
    refine hkeep rfl rfl rfl id fun hsees => .inr ?_
    have hreq : c.request = .onTimerExpired := by
      simp only [Call.seesToTimer, hpc, Bool.and_true, decide_eq_true_eq] at hsees
      exact hsees
    simp [Call.seesToTimer, hreq, HandlerRequest.admitted]
  | refuse _ hs => exact absurd halive.running hs
  | exchangeQueued _ hqueued => exact hkeep rfl rfl rfl id fun _ => .inl hqueued
  | _ hpc => exact hkeep rfl rfl rfl id fun hsees => by simp [Call.seesToTimer, hpc] at hsees

theorem LoopMove.seesToTimer (hm : LoopMove config s s') (hc : c ∈ s.calls)
    (h : c.seesToTimer = true) : ∃ c' ∈ s'.calls, c'.seesToTimer = true := by
  rcases hm.calls with hcalls | ⟨i, d, status, hi, hcalls⟩
  · exact ⟨c, hcalls ▸ hc, h⟩
  · rw [hcalls]
    rcases Agents.mem_set_of_mem (d.completed status) hi hc with rfl | hc
    · exact ⟨_, List.mem_of_getElem? (Agents.getElem?_set_self _ hi), h⟩
    · exact ⟨c, hc, h⟩

/-- The loop takes the message over, and hands the watch to the timer. -/
theorem WatchedOver.loop (h : s.WatchedOver config) (hinv : s.Inv config) (halive : s.Alive config)
    (hm : LoopMove config s s') : s'.WatchedOver config := by
  have hkeep : ∀ {pc}, s.loop = pc → pc ≠ .runDue → s'.delayed = s.delayed → s'.timer = s.timer →
      s'.tick = s.tick → s'.timerMessageQueued = s.timerMessageQueued →
      s'.WatchedOver config := by
    rintro pc rfl hne hdelayed htimer htick hqueued
    exact h.calm hdelayed htimer htick.ge (fun hsent => hqueued.trans hsent)
      (fun hdue => absurd hdue hne) fun c hc hsees => .inr (hm.seesToTimer hc hsees)
  cases hm with
  | handleTimer => exact fun entry _ => .inr (.inr (.inl rfl))
  | recycleTimer hpc => exact absurd hpc (halive.kept _)
  | takeDue =>
    intro entry hentry
    have harmed := armTimerLocked_armedFor (s := { s with
      delayed := s.delayed.dropWhile fun entry => isDue entry.dueTick s.tickCount })
      (halive.timer hinv) hentry
    exact .inl (harmed.later rfl (Nat.le_refl _))
  | @complete drained i status hpc =>
    obtain ⟨calls, inUse, sems, log, -, heq⟩ := completeLocked_eq i status s
    rw [heq] at hkeep ⊢
    exact hkeep hpc (by simp) rfl rfl rfl rfl
  | _ hpc => exact hkeep hpc (by simp) rfl rfl rfl rfl

theorem WatchedOver.move (h : s.WatchedOver config) (hinv : s.Inv config) (halive : s.Alive config)
    (ha : ∀ task, a ≠ .callStop task) (hm : Move config s a s') : s'.WatchedOver config := by
  have hidle := halive.stop_idle hinv
  have hcalm : s'.delayed = s.delayed → s'.timer = s.timer → s.tick ≤ s'.tick →
      s'.timerMessageQueued = s.timerMessageQueued → (s.loop = .runDue → s'.loop = .runDue) →
      (∀ c ∈ s.calls, c ∈ s'.calls) → s'.WatchedOver config := by
    intro hdelayed htimer htick hqueued hloop hcalls
    exact h.calm hdelayed htimer htick (fun hsent => hqueued.trans hsent) hloop
      fun c hc hsees => .inr ⟨c, hcalls c hc, hsees⟩
  cases hm with
  | init hs =>
    rw [halive.running] at hs
    cases hs
  | invoke => exact hcalm rfl rfl (Nat.le_refl _) rfl id fun c => List.mem_append_left _
  | expire =>
    exact fun entry _ => .inr (.inr (.inr ⟨_, List.mem_append_right _ (List.mem_singleton_self _),
      rfl⟩))
  | call hi hm => exact h.call hinv halive hi hm
  | loop _ hm => exact h.loop hinv halive hm
  | receive _ hloop =>
    refine hcalm rfl rfl (Nat.le_refl _) rfl (fun hdue => ?_) fun _ => id
    rw [hloop] at hdue
    cases hdue
  | @callStop task => exact absurd rfl (ha task)
  | stop hm =>
    rw [hm.eq_of_idle hidle]
    exact h
  | tick => exact hcalm rfl rfl (Nat.le_succ _) rfl id fun _ => id
  | bindLoopTask | nothing => exact hcalm rfl rfl (Nat.le_refl _) rfl id fun _ => id

/-- **A step of the life keeps the first entry watched over.** -/
theorem WatchedOver.step (h : s.WatchedOver config) (hinv : s.Inv config) (halive : s.Alive config)
    (hstep : s.lifeStep? config a = some s') : s'.WatchedOver config ∧ s'.Alive config := by
  obtain ⟨ha, hstep⟩ := lifeStep?_eq_some hstep
  obtain ⟨me, -, rfl⟩ | ⟨l, hl, hm⟩ := step_cases hstep
  · exact ⟨h, ⟨halive.running, halive.serving, halive.stays, halive.kept⟩⟩
  · have hinv' := hinv.locked hl
    have halive' : Alive config { s with lock := l } :=
      ⟨halive.running, halive.serving, halive.stays, halive.kept⟩
    have hwatched : WatchedOver config { s with lock := l } := h
    exact ⟨hwatched.move hinv' halive' ha hm, halive'.move hinv' ha hm⟩

/-- **The first entry is watched over in every state of a life.** -/
theorem life_watchedOver (h : OneLife config s) : s.WatchedOver config ∧ s.Alive config := by
  refine h.invariant_of (J := Inv config)
    (I := fun s => s.WatchedOver config ∧ s.Alive config)
    (fun s hs => reachable_inv (OneLife.reachable hs)) (fun s hborn => ⟨?_, hborn.alive⟩)
    fun s s' hinv hs hstep => ?_
  · obtain ⟨s₀, -, -, hdelayed, hstep, -⟩ := hborn
    intro entry hentry
    have hnone : s.delayed = [] := by
      rw [← Option.some.inj hstep]
      unfold LosEventHandler.init
      split
      · exact hdelayed
      · exact (initialized_frame config s₀).2.2.1.trans hdelayed
    rw [hnone] at hentry
    cases hentry
  · obtain ⟨a, ha⟩ := hstep
    exact hs.1.step hinv hs.2 ha

/-! ## No step in progress -/

/-- No step of the handler is in progress: nobody is inside a call, the kernel is not about to call
the timer's callback, and the loop is not inside `Dispatch`. -/
structure Resting (s : LosEventHandler) : Prop where
  calls : ∀ c ∈ s.calls, c.active = false
  callbacks : ∀ c ∈ s.calls, c.request = .onTimerExpired → c.pc ≠ .called
  loop : s.loop.inDispatch = false

/-- Then nobody sees to the timer. -/
theorem Resting.callback_returned (h : s.Resting) (hc : c ∈ s.calls)
    (hreq : c.request = .onTimerExpired) : ∃ outcome, c.pc = .returned outcome := by
  have hactive := h.calls c hc
  unfold Call.active at hactive
  split at hactive
  next hpc => exact absurd hpc (h.callbacks c hc hreq)
  next outcome hpc => exact ⟨outcome, hpc⟩
  · cases hactive

/-- What watches over the first entry is then the timer or the message. -/
theorem WatchedOver.at_rest (h : s.WatchedOver config) (hinv : s.Inv config) (hrest : s.Resting)
    (hfront : s.delayed.head? = some entry) :
    s.ArmedFor config entry ∨ 0 < s.inFlight .timerFire := by
  rcases h entry hfront with harmed | hsent | hdue | ⟨c, hc, hsees⟩
  · exact .inl harmed
  · right
    have hholds : s.calls.countP Call.holdsTimerMessage = 0 := by
      refine List.countP_eq_zero.mpr fun c hc hholds => ?_
      have hreq : c.request = .onTimerExpired := by
        unfold Call.holdsTimerMessage at hholds
        split at hholds <;> first | assumption | cases hholds
      obtain ⟨outcome, hpc⟩ := hrest.callback_returned hc hreq
      simp [Call.holdsTimerMessage, hreq, hpc] at hholds
    have hqueued := hinv.queued
    rw [hholds, hsent, Bool.toNat_true] at hqueued
    omega
  · have hloop := hrest.loop
    rw [hdue] at hloop
    cases hloop
  · simp only [Call.seesToTimer, Bool.and_eq_true, decide_eq_true_eq] at hsees
    obtain ⟨outcome, hpc⟩ := hrest.callback_returned hc hsees.1
    simp [hpc] at hsees

/-- **No delayed task loses its wake-up**: where no step is in progress, the timer is pending for
the first entry, and fires no later than the entry is due or a tick after it was armed for an entry
that was due already; or the timer message is queued or posted, and not processed yet. -/
theorem delayed_tasks_wake (h : OneLife config s) (hrest : s.Resting)
    (hfront : s.delayed.head? = some entry) :
    s.ArmedFor config entry ∨ 0 < s.inFlight .timerFire :=
  (life_watchedOver h).1.at_rest (reachable_inv h.reachable) hrest hfront

/-- Several steps in which nobody calls `Stop`. -/
def lifeRun? (config : Config) (as : List Act) (s : LosEventHandler) : Option LosEventHandler :=
  as.foldlM (fun s a => s.lifeStep? config a) s

/-- The handler as it is when it was initialized for the first time. -/
theorem born_first (hrunning : (({} : LosEventHandler).init config true).state = .running) :
    Born config (({} : LosEventHandler).init config true) :=
  ⟨{}, .start rfl, rfl, rfl, rfl, hrunning⟩

/-- A task is posted with a delay of one tick; it becomes due, and the timer fires. -/
def fallsDue : List Act :=
  .invoke (.postAsyncTask 10#32) 1 :: List.replicate 5 (.call 0 true) ++ [.tick, .expire 2] ++
    List.replicate 4 (.call 1 true)

/-- The poster takes the timer message. -/
theorem delayed_tasks_wake_posted :
    ((({} : LosEventHandler).init smallConfig true).lifeRun? smallConfig
      (fallsDue ++ List.replicate 2 (.call 1 true))).elim False fun s =>
      (s.delayed.head? = some { id := 1#32, dueTick := 1#32, call := 0 } ∧
        s.timer = some { deadline := none }) ∧
      (s.ArmedFor smallConfig { id := 1#32, dueTick := 1#32, call := 0 } ∨
        0 < s.inFlight .timerFire) := by
  have hrun : ((({} : LosEventHandler).init smallConfig true).lifeRun? smallConfig
      (fallsDue ++ List.replicate 2 (.call 1 true))).map (fun s => decide
        (s.delayed.head? = some { id := 1#32, dueTick := 1#32, call := 0 } ∧
          s.timer = some { deadline := none } ∧ (∀ c ∈ s.calls, c.active = false) ∧
          (∀ c ∈ s.calls, c.request = .onTimerExpired → c.pc ≠ .called) ∧
          s.loop.inDispatch = false)) = some true := by decide +kernel
  obtain ⟨s, hs, hall⟩ := Option.map_eq_some_iff.mp hrun
  obtain ⟨hfront, htimer, hcalls, hcallbacks, hloop⟩ := of_decide_eq_true hall
  have hlife : OneLife smallConfig s :=
    Runs.Reachable.foldlM (.start (born_first (by decide))) hs
  rw [hs]
  exact ⟨⟨hfront, htimer⟩, delayed_tasks_wake hlife ⟨hcalls, hcallbacks, hloop⟩ hfront⟩

/-- **A refused timer message comes late**: the timer is armed for a tick behind the tick the entry
was due at. -/
theorem retry_comes_late : ¬∀ s, OneLife smallConfig s → s.Resting →
    ∀ entry, s.delayed.head? = some entry →
      (∃ deadline, s.timer = some { deadline := some deadline } ∧
        Punctual smallConfig entry s.tick deadline) ∨ 0 < s.inFlight .timerFire := by
  intro hclaim
  have hrun : ((({} : LosEventHandler).init smallConfig true).lifeRun? smallConfig
      (fallsDue ++ List.replicate 4 (.call 1 false))).map (fun s => decide
        (s.delayed.head? = some { id := 1#32, dueTick := 1#32, call := 0 } ∧
          s.timer = some { deadline := some 2 } ∧ s.tick = 1 ∧ s.inFlight .timerFire = 0 ∧
          (∀ c ∈ s.calls, c.active = false) ∧
          (∀ c ∈ s.calls, c.request = .onTimerExpired → c.pc ≠ .called) ∧
          s.loop.inDispatch = false)) = some true := by decide +kernel
  obtain ⟨s, hs, hall⟩ := Option.map_eq_some_iff.mp hrun
  obtain ⟨hfront, htimer, htick, hnone, hcalls, hcallbacks, hloop⟩ := of_decide_eq_true hall
  have hlife : OneLife smallConfig s :=
    Runs.Reachable.foldlM (.start (born_first (by decide))) hs
  rcases hclaim s hlife ⟨hcalls, hcallbacks, hloop⟩ _ hfront with
    ⟨deadline, hdeadline, armed, harmed, hdue, hle⟩ | hpos
  · obtain rfl : 2 = deadline := by
      rw [htimer] at hdeadline
      exact Option.some.inj (OsTimer.mk.inj (Option.some.inj hdeadline))
    rw [htick] at harmed
    -- The entry is due at tick 1, and a timer that is armed for it at tick 0 fires then.
    rcases Nat.le_one_iff_eq_zero_or_eq_one.mp harmed with rfl | rfl
    · exact absurd hle (by decide)
    · exact absurd hdue (by decide)
  · rw [hnone] at hpos
    exact absurd hpos (by decide)

end LosEventHandler

end CallManagerMini
