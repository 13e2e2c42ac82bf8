import Mathlib.Data.BitVec

/-! # Ticks and milliseconds

`tel_os_common.cpp` and the conversions of `los_event_handler.cpp` and of the host's adapter.  A
tick counter is a `uint32_t` that wraps; delays are milliseconds, and the largest `uint32_t` stands
for a wait without a limit. -/

namespace CallManagerMini

/-- `TEL_OS_WAIT_FOREVER`. -/
def telOsWaitForever : BitVec 32 := 0xFFFFFFFF#32

/-- `TEL_OS_MAX_FINITE_TICKS`. -/
def telOsMaxFiniteTicks : BitVec 32 := telOsWaitForever - 1#32

/-- `TelOsMsToTicks` at the tick frequency `freq`; the products are `uint64_t`. -/
def telOsMsToTicks (freq delayMs : BitVec 32) : BitVec 32 :=
  if delayMs = telOsWaitForever then telOsWaitForever
  else if freq = 0#32 then delayMs
  else
    let ticks := (delayMs.setWidth 64 * freq.setWidth 64 + 1000#64 - 1#64) / 1000#64
    if ticks > telOsMaxFiniteTicks.setWidth 64 then telOsMaxFiniteTicks else ticks.setWidth 32

/-- `TicksToMs`. -/
def ticksToMs (freq ticks : BitVec 32) : BitVec 32 :=
  if freq = 0#32 then ticks
  else
    let ms := (ticks.setWidth 64 * 1000#64 + freq.setWidth 64 - 1#64) / freq.setWidth 64
    if ms ≥ telOsWaitForever.setWidth 64 then telOsWaitForever - 1#32 else ms.setWidth 32

/-- `IsDue`: the distance is signed, so that the counter may wrap in between. -/
def isDue (dueTick now : BitVec 32) : Bool := decide ((dueTick - now).toInt ≤ 0)

example : telOsMsToTicks 100#32 25#32 = 3#32 := by decide

/-- `NS_PER_SECOND`. -/
def nsPerSecond : Nat := 1000000000

/-- `TicksToNs` of the host; the `int64_t` has room for all ticks. -/
def ticksToNs (freq ticks : BitVec 32) : Nat := ticks.toNat * nsPerSecond / freq.toNat

/-! ## The sums in 64 bits -/

theorem toNat_mul_setWidth (a b : BitVec 32) :
    (a.setWidth 64 * b.setWidth 64).toNat = a.toNat * b.toNat := by
  have ha := a.isLt
  have hb := b.isLt
  have hprod : a.toNat * b.toNat ≤ (2 ^ 32 - 1) * (2 ^ 32 - 1) :=
    Nat.mul_le_mul (by omega) (by omega)
  have ha64 : a.toNat % 2 ^ 64 = a.toNat := Nat.mod_eq_of_lt (by omega)
  have hb64 : b.toNat % 2 ^ 64 = b.toNat := Nat.mod_eq_of_lt (by omega)
  rw [BitVec.toNat_mul, BitVec.toNat_setWidth, BitVec.toNat_setWidth, ha64, hb64]
  exact Nat.mod_eq_of_lt (by omega)

theorem toNat_msSum (freq delayMs : BitVec 32) :
    (delayMs.setWidth 64 * freq.setWidth 64 + 1000#64).toNat =
      delayMs.toNat * freq.toNat + 1000 := by
  have hd := delayMs.isLt
  have hf := freq.isLt
  have hprod : delayMs.toNat * freq.toNat ≤ (2 ^ 32 - 1) * (2 ^ 32 - 1) :=
    Nat.mul_le_mul (by omega) (by omega)
  rw [BitVec.toNat_add, toNat_mul_setWidth]
  exact Nat.mod_eq_of_lt (by simp; omega)

theorem toNat_tickSum (freq ticks : BitVec 32) :
    (ticks.setWidth 64 * 1000#64 + freq.setWidth 64).toNat = ticks.toNat * 1000 + freq.toNat := by
  have ht := ticks.isLt
  have hf := freq.isLt
  have hprod : (ticks.setWidth 64 * 1000#64).toNat = ticks.toNat * 1000 :=
    toNat_mul_setWidth ticks 1000#32
  have hf64 : freq.toNat % 2 ^ 64 = freq.toNat := Nat.mod_eq_of_lt (by omega)
  rw [BitVec.toNat_add, hprod, BitVec.toNat_setWidth, hf64]
  exact Nat.mod_eq_of_lt (by omega)

end CallManagerMini
