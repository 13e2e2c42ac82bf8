import Mathlib.Algebra.Order.Floor.Div
import Mathlib.GroupTheory.GroupAction.Ring
import Mathlib.Tactic.Ring
import CallManagerMini.DelayedTimes

/-! # Arming a timer

`ArmTimerLocked` counts in ticks and `TelOsTimerStart` takes milliseconds, which it converts back to
ticks.  Both conversions round up, `TicksToMs` in the ticks of a second and `TelOsMsToTicks` in its
milliseconds, and both are clamped below the value that means to wait without a limit.  The two
roundings add up to no more ticks than a millisecond has, and none is ever lost
(`timer_arithmetic`).
-/

namespace CallManagerMini

/-- `TelOsResult`, as far as `TelOsTimerStart` returns it. -/
inductive TelOsResult where
  | ok
  | invalidParam
  | fail
  deriving DecidableEq, Repr

/-- `TelOsTimerStart` for a timer there is.  `osTimerStart` says whether the kernel starts it for so
many ticks; the host's always does. -/
def telOsTimerStart (freq : BitVec 32) (osTimerStart : BitVec 32 → Bool) (delayMs : BitVec 32) :
    TelOsResult :=
  if delayMs = telOsWaitForever then .invalidParam
  else
    let ticks := telOsMsToTicks freq delayMs
    let ticks := if ticks = 0#32 then 1#32 else ticks
    if osTimerStart ticks then .ok else .fail

variable {freq ticks delayMs delayMs' : BitVec 32}

/-- Where `TicksToMs` clamps. -/
def MsClamped (freq ticks : BitVec 32) : Prop :=
  telOsWaitForever.toNat ≤ ticks.toNat * 1000 ⌈/⌉ freq.toNat

/-- Where `TelOsMsToTicks` clamps. -/
def TicksClamped (freq delayMs : BitVec 32) : Prop :=
  telOsMaxFiniteTicks.toNat < delayMs.toNat * freq.toNat ⌈/⌉ 1000

/-- A timer that is armed for so many ticks. -/
structure ArmsTimer (freq ticks : BitVec 32) : Prop where
  pos : 1 ≤ (ticksToMs freq ticks).toNat
  finite : (ticksToMs freq ticks).toNat ≤ telOsWaitForever.toNat - 1
  /-- It is started by a kernel that starts timers for any number of ticks but none. -/
  started : ∀ osTimerStart : BitVec 32 → Bool, (∀ n, n ≠ 0#32 → osTimerStart n) →
    telOsTimerStart freq osTimerStart (ticksToMs freq ticks) = .ok
  notEarly : ¬ MsClamped freq ticks → ¬ TicksClamped freq (ticksToMs freq ticks) →
    ticks.toNat ≤ (telOsMsToTicks freq (ticksToMs freq ticks)).toNat
  close : ¬ MsClamped freq ticks → ¬ TicksClamped freq (ticksToMs freq ticks) →
    (telOsMsToTicks freq (ticksToMs freq ticks)).toNat ≤ ticks.toNat + freq.toNat ⌈/⌉ 1000

/-- What holds of the conversion of all delays. -/
structure ConvertsDelays (freq : BitVec 32) : Prop where
  monotone : ∀ delayMs delayMs', delayMs ≠ telOsWaitForever → delayMs' ≠ telOsWaitForever →
    delayMs ≤ delayMs' → telOsMsToTicks freq delayMs ≤ telOsMsToTicks freq delayMs'
  roundsUp : freq ≠ 0#32 → ∀ delayMs, delayMs ≠ telOsWaitForever →
    (telOsMsToTicks freq delayMs).toNat =
      min (delayMs.toNat * freq.toNat ⌈/⌉ 1000) telOsMaxFiniteTicks.toNat
  finite : ∀ delayMs, delayMs ≠ telOsWaitForever → telOsMsToTicks freq delayMs ≠ telOsWaitForever
  /-- The sums in `uint64_t` are the true ones. -/
  fits : ∀ delayMs : BitVec 32, (delayMs.setWidth 64 * freq.setWidth 64 + 1000#64).toNat =
    delayMs.toNat * freq.toNat + 1000
  fitsMs : ∀ ticks : BitVec 32, (ticks.setWidth 64 * 1000#64 + freq.setWidth 64).toNat =
    ticks.toNat * 1000 + freq.toNat

/-! ## The conversions -/

/-- The milliseconds of so many ticks. -/
theorem toNat_ticksToMs (hfreq : freq ≠ 0#32) (ticks : BitVec 32) :
    (ticksToMs freq ticks).toNat = min (ticks.toNat * 1000 ⌈/⌉ freq.toNat)
      (telOsWaitForever.toNat - 1) := by
  have hpos : 0 < freq.toNat := Nat.pos_of_ne_zero fun hz => hfreq (BitVec.eq_of_toNat_eq hz)
  have hms : ((ticks.setWidth 64 * 1000#64 + freq.setWidth 64 - 1#64) / freq.setWidth 64).toNat =
      ticks.toNat * 1000 ⌈/⌉ freq.toNat := by
    have hsum := toNat_tickSum freq ticks
    have hf := freq.isLt
    have hf64 : freq.toNat % 2 ^ 64 = freq.toNat := Nat.mod_eq_of_lt (by omega)
    have hsub : (ticks.setWidth 64 * 1000#64 + freq.setWidth 64 - 1#64).toNat =
        ticks.toNat * 1000 + freq.toNat - 1 := by
      rw [BitVec.toNat_sub_of_le (by rw [BitVec.le_def, hsum]; simp; omega), hsum]
      simp
    rw [BitVec.toNat_udiv, hsub, BitVec.toNat_setWidth, hf64]
    rfl
  unfold ticksToMs
  rw [if_neg hfreq]
  dsimp only
  split
  next hclamp =>
    rw [ge_iff_le, BitVec.le_def, hms] at hclamp
    simp [telOsWaitForever] at hclamp ⊢
    omega
  next hclamp =>
    rw [ge_iff_le, BitVec.le_def, hms] at hclamp
    rw [BitVec.toNat_setWidth, hms]
    simp [telOsWaitForever] at hclamp ⊢
    omega

/-- The ticks of so many milliseconds. -/
theorem toNat_msToTicks (hfreq : freq ≠ 0#32) (hfinite : delayMs ≠ telOsWaitForever) :
    (telOsMsToTicks freq delayMs).toNat =
      min (delayMs.toNat * freq.toNat ⌈/⌉ 1000) telOsMaxFiniteTicks.toNat :=
  toNat_telOsMsToTicks hfreq hfinite

theorem ticksToMs_finite (hfreq : freq ≠ 0#32) : ticksToMs freq ticks ≠ telOsWaitForever := by
  intro heq
  have hms := toNat_ticksToMs hfreq ticks
  rw [heq] at hms
  simp [telOsWaitForever] at hms
  omega

theorem msToTicks_finite (hfinite : delayMs ≠ telOsWaitForever) :
    telOsMsToTicks freq delayMs ≠ telOsWaitForever := by
  by_cases hfreq : freq = 0#32
  · rwa [telOsMsToTicks, if_neg hfinite, if_pos hfreq]
  · intro heq
    have hticks := toNat_msToTicks hfreq hfinite
    rw [heq] at hticks
    simp [telOsMaxFiniteTicks, telOsWaitForever] at hticks
    omega

theorem msToTicks_monotone (hfinite : delayMs ≠ telOsWaitForever)
    (hfinite' : delayMs' ≠ telOsWaitForever) (hle : delayMs ≤ delayMs') :
    telOsMsToTicks freq delayMs ≤ telOsMsToTicks freq delayMs' := by
  by_cases hfreq : freq = 0#32
  · rwa [telOsMsToTicks, telOsMsToTicks, if_neg hfinite, if_neg hfinite',
      if_pos hfreq, if_pos hfreq]
  · rw [BitVec.le_def, toNat_msToTicks hfreq hfinite, toNat_msToTicks hfreq hfinite']
    apply min_le_min_right
    have hpos : 0 < 1000 := by decide
    rw [ceilDiv_le_iff_le_mul hpos]
    calc delayMs.toNat * freq.toNat
      _ ≤ delayMs'.toNat * freq.toNat := Nat.mul_le_mul_right _ hle
      _ ≤ 1000 * (delayMs'.toNat * freq.toNat ⌈/⌉ 1000) := le_smul_ceilDiv hpos

theorem convertsDelays (freq : BitVec 32) : ConvertsDelays freq where
  monotone _ _ := msToTicks_monotone
  roundsUp hfreq _ := toNat_msToTicks hfreq
  finite _ := msToTicks_finite
  fits := toNat_msSum freq
  fitsMs := toNat_tickSum freq

/-! ## There and back -/

/-- Rounding up in the one unit and then in the other loses nothing. -/
theorem le_ceilDiv_ceilDiv {t f n : Nat} (hf : 0 < f) (hn : 0 < n) :
    t ≤ (t * n ⌈/⌉ f) * f ⌈/⌉ n := by
  apply Nat.le_of_mul_le_mul_right _ hn
  calc t * n
    _ ≤ f * (t * n ⌈/⌉ f) := le_smul_ceilDiv hf
    _ = (t * n ⌈/⌉ f) * f := Nat.mul_comm _ _
    _ ≤ n * ((t * n ⌈/⌉ f) * f ⌈/⌉ n) := le_smul_ceilDiv hn
    _ = (t * n ⌈/⌉ f) * f ⌈/⌉ n * n := Nat.mul_comm _ _

/-- It adds no more than the larger unit has of the smaller one. -/
theorem ceilDiv_ceilDiv_le {t f n : Nat} (hf : 0 < f) (hn : 0 < n) :
    (t * n ⌈/⌉ f) * f ⌈/⌉ n ≤ t + f ⌈/⌉ n := by
  rw [ceilDiv_le_iff_le_mul hn]
  have hround : (t * n ⌈/⌉ f) * f ≤ t * n + f - 1 := Nat.div_mul_le_self _ _
  have hunit : f ≤ n * (f ⌈/⌉ n) := le_smul_ceilDiv hn
  calc (t * n ⌈/⌉ f) * f
    _ ≤ t * n + f := by omega
    _ ≤ t * n + n * (f ⌈/⌉ n) := Nat.add_le_add_left hunit _
    _ = n * (t + f ⌈/⌉ n) := by rw [Nat.mul_add, Nat.mul_comm t]

/-- Ticks that are converted there and back, where neither conversion clamps. -/
theorem toNat_ticksToMs_ticks (hfreq : freq ≠ 0#32) (hms : ¬ MsClamped freq ticks)
    (hticks : ¬ TicksClamped freq (ticksToMs freq ticks)) :
    (telOsMsToTicks freq (ticksToMs freq ticks)).toNat =
      (ticks.toNat * 1000 ⌈/⌉ freq.toNat) * freq.toNat ⌈/⌉ 1000 := by
  have hthere : (ticksToMs freq ticks).toNat = ticks.toNat * 1000 ⌈/⌉ freq.toNat := by
    unfold MsClamped at hms
    rw [toNat_ticksToMs hfreq]
    omega
  unfold TicksClamped at hticks
  rw [hthere] at hticks
  rw [toNat_msToTicks hfreq (ticksToMs_finite hfreq), hthere]
  exact min_eq_left (Nat.le_of_not_lt hticks)

theorem armsTimer (hfreq : freq ≠ 0#32) (hticks : ticks ≠ 0#32) : ArmsTimer freq ticks := by
  have hf : 0 < freq.toNat := Nat.pos_of_ne_zero fun hz => hfreq (BitVec.eq_of_toNat_eq hz)
  have ht : 0 < ticks.toNat := Nat.pos_of_ne_zero fun hz => hticks (BitVec.eq_of_toNat_eq hz)
  have hn : 0 < 1000 := by decide
  have hms := toNat_ticksToMs hfreq ticks
  have hpos : 1 ≤ (ticksToMs freq ticks).toNat := by
    have hceil : 0 < ticks.toNat * 1000 ⌈/⌉ freq.toNat := by
      by_contra hzero
      have hle := (ceilDiv_le_iff_le_mul hf).mp (Nat.le_of_not_lt hzero)
      omega
    rw [hms]
    exact le_min hceil (by decide)
  refine ⟨hpos, hms ▸ min_le_right _ _, fun osTimerStart hstart => ?_, fun hms hticks => ?_,
    fun hms hticks => ?_⟩
  · unfold telOsTimerStart
    rw [if_neg (ticksToMs_finite hfreq)]
    refine if_pos (hstart _ ?_)
    split
    · decide
    · assumption
  · rw [toNat_ticksToMs_ticks hfreq hms hticks]
    exact le_ceilDiv_ceilDiv hf hn
  · rw [toNat_ticksToMs_ticks hfreq hms hticks]
    exact ceilDiv_ceilDiv_le hf hn

/-- The host waits no less than it is asked for, where the conversion does not clamp. -/
theorem le_ticksToNs (hfreq : freq ≠ 0#32) (hfinite : delayMs ≠ telOsWaitForever)
    (hticks : ¬ TicksClamped freq delayMs) :
    delayMs.toNat * 1000000 ≤ ticksToNs freq (telOsMsToTicks freq delayMs) := by
  have hf : 0 < freq.toNat := Nat.pos_of_ne_zero fun hz => hfreq (BitVec.eq_of_toNat_eq hz)
  have hpos : 0 < 1000 := by decide
  have hround : delayMs.toNat * freq.toNat ≤ 1000 * (delayMs.toNat * freq.toNat ⌈/⌉ 1000) :=
    le_smul_ceilDiv hpos
  have hms : (telOsMsToTicks freq delayMs).toNat = delayMs.toNat * freq.toNat ⌈/⌉ 1000 := by
    unfold TicksClamped at hticks
    rw [toNat_msToTicks hfreq hfinite]
    exact min_eq_left (Nat.le_of_not_lt hticks)
  show _ ≤ _ * nsPerSecond / _
  rw [Nat.le_div_iff_mul_le hf, hms]
  calc delayMs.toNat * 1000000 * freq.toNat
    _ = delayMs.toNat * freq.toNat * 1000000 := by ring
    _ ≤ 1000 * (delayMs.toNat * freq.toNat ⌈/⌉ 1000) * 1000000 := Nat.mul_le_mul_right _ hround
    _ = (delayMs.toNat * freq.toNat ⌈/⌉ 1000) * nsPerSecond := by unfold nsPerSecond; ring

/-- **The arithmetic of timers.** -/
theorem timer_arithmetic (freq : BitVec 32) (hfreq : 1 ≤ freq.toNat) :
    (∀ ticks : BitVec 32, 1 ≤ ticks.toNat → ticks.toNat ≤ telOsMaxFiniteTicks.toNat →
      ArmsTimer freq ticks) ∧ ConvertsDelays freq := by
  have hne : freq ≠ 0#32 := by
    rintro rfl
    exact absurd hfreq (by decide)
  refine ⟨fun ticks hticks _ => armsTimer hne ?_, convertsDelays freq⟩
  rintro rfl
  exact absurd hticks (by decide)

/-- At a hundred ticks a second, three ticks are thirty milliseconds. -/
theorem timer_arithmetic_hundred : ArmsTimer 100#32 3#32 ∧ ConvertsDelays 100#32 ∧
    ticksToMs 100#32 3#32 = 30#32 :=
  have harms := timer_arithmetic 100#32 (by decide)
  ⟨harms.1 3#32 (by decide) (by decide), harms.2, by decide⟩

end CallManagerMini
