import Mathlib.Algebra.Order.Floor.Semiring
import Mathlib.Data.Rat.Floor
import Mathlib.Tactic.FieldSimp
import Mathlib.Tactic.Linarith
import CallManagerMini.HandlerInvariant
import CallManagerMini.Lib.SortedInsert

/-! # When a delayed task is due

`PostAsyncTask` converts a delay to ticks, rounded up, and adds it to the tick counter, which
wraps; `IsDue` and the place of a new entry go by the signed distance of two counter values.
The distance is the true one as long as the two are less than `2 ^ 31` ticks apart
(`toInt_sub_ofNat`): a delay from there on is due at once, and its entry is put in front of
entries that are due before it (`enterDelayed_placed_iff`).  The counter value read by the post
is already up to one tick old, so that in real time a task is early exactly if the rounding of its
delay adds less than has passed of the tick (`neverEarly_iff`).
-/

namespace CallManagerMini

/-! ## Distances -/

/-- The distance of two values of the counter is that of the ticks they stand for. -/
theorem toInt_sub_ofNat {a b : Nat} (h : a < b + 2 ^ 31) (h' : b ≤ a + 2 ^ 31) :
    (BitVec.ofNat 32 a - BitVec.ofNat 32 b).toInt = (a : Int) - b := by
  rw [BitVec.toInt_sub, BitVec.toInt_ofNat', BitVec.toInt_ofNat', Int.sub_bmod_bmod,
    Int.bmod_sub_bmod]
  exact Int.bmod_eq_of_le (by omega) (by omega)

theorem isDue_ofNat {a b : Nat} (h : a < b + 2 ^ 31) (h' : b ≤ a + 2 ^ 31) :
    isDue (BitVec.ofNat 32 a) (BitVec.ofNat 32 b) = decide (a ≤ b) := by
  rw [isDue, toInt_sub_ofNat h h']
  exact decide_eq_decide.mpr (by omega)

/-- The ticks of a delay, where neither the forever value nor the clamp comes in. -/
theorem toNat_telOsMsToTicks {freq delayMs : BitVec 32} (hfreq : freq ≠ 0#32)
    (hforever : delayMs ≠ telOsWaitForever) :
    (telOsMsToTicks freq delayMs).toNat =
      min ((delayMs.toNat * freq.toNat + 999) / 1000) (2 ^ 32 - 2) := by
  have hticks : ((delayMs.setWidth 64 * freq.setWidth 64 + 1000#64 - 1#64) / 1000#64).toNat =
      (delayMs.toNat * freq.toNat + 999) / 1000 := by
    have hadd := toNat_msSum freq delayMs
    have hsum : (delayMs.setWidth 64 * freq.setWidth 64 + 1000#64 - 1#64).toNat =
        delayMs.toNat * freq.toNat + 999 := by
      rw [BitVec.toNat_sub_of_le (by rw [BitVec.le_def, hadd]; simp), hadd]
      simp
    rw [BitVec.toNat_udiv, hsum]
    rfl
  unfold telOsMsToTicks
  rw [if_neg hforever, if_neg hfreq]
  dsimp only
  split
  next hclamp =>
    rw [gt_iff_lt, BitVec.lt_def, hticks] at hclamp
    simp [telOsMaxFiniteTicks, telOsWaitForever] at hclamp ⊢
    omega
  next hclamp =>
    rw [gt_iff_lt, BitVec.lt_def, hticks] at hclamp
    rw [BitVec.toNat_setWidth, hticks]
    simp [telOsMaxFiniteTicks, telOsWaitForever] at hclamp ⊢
    omega

/-- A delay takes a tick at least. -/
theorem telOsMsToTicks_ne_zero {freq delayMs : BitVec 32} (h : delayMs ≠ 0#32) :
    telOsMsToTicks freq delayMs ≠ 0#32 := by
  have hpos : 0 < delayMs.toNat := Nat.pos_of_ne_zero fun hz => h (BitVec.eq_of_toNat_eq hz)
  intro hzero
  by_cases hforever : delayMs = telOsWaitForever
  · rw [telOsMsToTicks, if_pos hforever] at hzero
    cases hzero
  by_cases hfreq : freq = 0#32
  · rw [telOsMsToTicks, if_neg hforever, if_pos hfreq] at hzero
    exact h hzero
  · have hticks := toNat_telOsMsToTicks hfreq hforever
    have hfreq : 0 < freq.toNat := Nat.pos_of_ne_zero fun hz => hfreq (BitVec.eq_of_toNat_eq hz)
    have hprod : 0 < delayMs.toNat * freq.toNat := Nat.mul_pos hpos hfreq
    rw [hzero] at hticks
    simp at hticks
    omega

namespace LosEventHandler

variable {config : Config} {s s' : LosEventHandler} {i : Nat} {delayMs : BitVec 32}

/-! ## A new entry -/

/-- The ticks a task is put off by: one at least. -/
def delayTicks (config : Config) (delayMs : BitVec 32) : BitVec 32 :=
  if telOsMsToTicks config.tickFreq delayMs = 0#32 then 1#32
  else telOsMsToTicks config.tickFreq delayMs

theorem delayTicks_eq (config : Config) (h : delayMs ≠ 0#32) :
    delayTicks config delayMs = telOsMsToTicks config.tickFreq delayMs :=
  if_neg (telOsMsToTicks_ne_zero h)

/-- The entry of a task that is posted with a delay. -/
def newEntry (config : Config) (i : Nat) (delayMs : BitVec 32) (s : LosEventHandler) :
    DelayedTask :=
  { id := s.nextTaskId, dueTick := s.tickCount + delayTicks config delayMs, call := i }

/-- The number of entries it is put behind. -/
def newPlace (config : Config) (delayMs : BitVec 32) (s : LosEventHandler) : Nat :=
  (before (s.tickCount + delayTicks config delayMs) s.delayed).length

theorem enterDelayed_delayed (config : Config) (i : Nat) (delayMs : BitVec 32)
    (s : LosEventHandler) : (s.enterDelayed config i delayMs).delayed =
      before (s.tickCount + delayTicks config delayMs) s.delayed ++
        s.newEntry config i delayMs :: s.delayed.drop (s.newPlace config delayMs) :=
  congrArg LosEventHandler.delayed (armTimerLocked_ite config _ _).1

/-- How many ticks an entry is from being due, as the counter tells it. -/
def remaining (s : LosEventHandler) (entry : DelayedTask) : Int :=
  (entry.dueTick - s.tickCount).toInt

/-- A task posted with this delay is put where it belongs: it is not due before its delay is over
(or that of the longest finite wait), and no entry that is due before it stands behind it. -/
structure Placed (config : Config) (i : Nat) (delayMs : BitVec 32) (s : LosEventHandler) :
    Prop where
  notEarly : ∀ entry, (s.enterDelayed config i delayMs).delayed[s.newPlace config delayMs]? =
      some entry →
    ∀ k < min (telOsMsToTicks config.tickFreq delayMs).toNat telOsMaxFiniteTicks.toNat,
      isDue entry.dueTick (BitVec.ofNat 32 (s.tick + k)) = false
  notOvertaken : ∀ entry ∈ (s.enterDelayed config i delayMs).delayed.drop
      (s.newPlace config delayMs + 1),
    (telOsMsToTicks config.tickFreq delayMs).toNat ≤ s.remaining entry

theorem placed_iff (hdelay : delayMs ≠ 0#32) : s.Placed config i delayMs ↔
    (∀ k < min (telOsMsToTicks config.tickFreq delayMs).toNat telOsMaxFiniteTicks.toNat,
      isDue (s.tickCount + telOsMsToTicks config.tickFreq delayMs)
        (BitVec.ofNat 32 (s.tick + k)) = false) ∧
    ∀ entry ∈ s.delayed.drop (s.newPlace config delayMs),
      (telOsMsToTicks config.tickFreq delayMs).toNat ≤ s.remaining entry := by
  have hentry : (s.enterDelayed config i delayMs).delayed[s.newPlace config delayMs]? =
      some (s.newEntry config i delayMs) := by
    rw [enterDelayed_delayed]
    simp [newPlace]
  have hbehind : (s.enterDelayed config i delayMs).delayed.drop (s.newPlace config delayMs + 1) =
      s.delayed.drop (s.newPlace config delayMs) := by
    rw [enterDelayed_delayed, newPlace, List.drop_append]
    simp
  have hdue : (s.newEntry config i delayMs).dueTick =
      s.tickCount + telOsMsToTicks config.tickFreq delayMs := by
    rw [newEntry, delayTicks_eq config hdelay]
  constructor
  · intro h
    exact ⟨hdue ▸ h.notEarly _ hentry, hbehind ▸ h.notOvertaken⟩
  · rintro ⟨hearly, hovertaken⟩
    refine ⟨fun entry he => ?_, hbehind.symm ▸ hovertaken⟩
    obtain rfl := Option.some.inj (hentry.symm.trans he)
    rw [hdue]
    exact hearly

/-- The new entry is not due early exactly if its delay is less than half a round of the
counter. -/
theorem notEarly_iff (config : Config) (hdelay : delayMs ≠ 0#32) (s : LosEventHandler) :
    (∀ k < min (telOsMsToTicks config.tickFreq delayMs).toNat telOsMaxFiniteTicks.toNat,
      isDue (s.tickCount + telOsMsToTicks config.tickFreq delayMs)
        (BitVec.ofNat 32 (s.tick + k)) = false) ↔
      (telOsMsToTicks config.tickFreq delayMs).toNat < 2 ^ 31 := by
  have hpos : (telOsMsToTicks config.tickFreq delayMs).toNat ≠ 0 := fun hzero =>
    @telOsMsToTicks_ne_zero config.tickFreq delayMs hdelay (BitVec.eq_of_toNat_eq hzero)
  generalize telOsMsToTicks config.tickFreq delayMs = ticks at hpos ⊢
  have hdue : s.tickCount + ticks = BitVec.ofNat 32 (s.tick + ticks.toNat) := by
    rw [BitVec.ofNat_add, BitVec.ofNat_toNat, BitVec.setWidth_eq]
    rfl
  rw [hdue]
  constructor
  · intro hnot
    by_contra hlarge
    have hzero := hnot 0 (by simp [telOsMaxFiniteTicks, telOsWaitForever]; omega)
    -- half a round ahead is as good as behind
    have hdist : (s.tickCount + ticks - s.tickCount).toInt ≤ 0 := by
      rw [add_sub_cancel_left, BitVec.toInt_eq_toNat_cond, if_neg (by omega)]
      have := ticks.isLt
      omega
    rw [← hdue] at hzero
    exact absurd hdist (of_decide_eq_false hzero)
  · intro hsmall k hk
    rw [isDue_ofNat (by omega) (by omega)]
    exact decide_eq_false (by omega)

section
variable {ticks : BitVec 32} (hticks : ticks.toNat < 2 ^ 31) (entry : DelayedTask)
include hticks

/-- The loop of the insertion passes the entries that are due before the new one, unless they are
half a round before it. -/
theorem passed_iff : isDue (s.tickCount + ticks) entry.dueTick = false ↔
    s.remaining entry < ticks.toNat ∧ ticks.toNat < s.remaining entry + 2 ^ 31 := by
  have hdist : s.tickCount + ticks - entry.dueTick = ticks - (entry.dueTick - s.tickCount) := by
    rw [sub_sub_eq_add_sub, add_comm]
  have hticks' : ticks.toInt = ticks.toNat := BitVec.toInt_eq_toNat_of_lt (by omega)
  have hlt : s.remaining entry < 2 ^ 31 := BitVec.toInt_lt
  have hle : -2 ^ 31 ≤ s.remaining entry := BitVec.le_toInt _
  rw [isDue, hdist, BitVec.toInt_sub, hticks']
  change decide (Int.bmod (ticks.toNat - s.remaining entry) (2 ^ 32) ≤ 0) = false ↔ _
  rw [decide_eq_false_iff_not]
  by_cases hnear : ticks.toNat - s.remaining entry < (2 : Int) ^ 31
  · rw [Int.bmod_eq_of_le (by omega) (by omega)]
    omega
  · have hfar : Int.bmod (ticks.toNat - s.remaining entry) (2 ^ 32) =
        ticks.toNat - s.remaining entry - 2 ^ 32 := by
      rw [← Int.sub_bmod_right]
      exact Int.bmod_eq_of_le (by omega) (by omega)
    omega

theorem sameTick_iff : entry.dueTick = s.tickCount + ticks ↔
    s.remaining entry = ticks.toNat := by
  have hticks' : ticks.toInt = ticks.toNat := BitVec.toInt_eq_toNat_of_lt (by omega)
  rw [← hticks', remaining, BitVec.toInt_inj, sub_eq_iff_eq_add, add_comm]

end

/-- The new entry is put between two parts of the table. -/
theorem before_append_drop (dueTick : BitVec 32) (l : List DelayedTask) :
    before dueTick l ++ l.drop (before dueTick l).length = l := by
  have hfront : before dueTick l <+: l := by
    refine ⟨(l.dropWhile fun entry => !isDue dueTick entry.dueTick).dropWhile
      fun entry => entry.dueTick = dueTick, ?_⟩
    rw [before, List.append_assoc, List.takeWhile_append_dropWhile,
      List.takeWhile_append_dropWhile]
  exact (List.prefix_append_drop hfront).symm

/-- Every entry stands where it belongs, if each is less than half a round before the new one. -/
theorem notOvertaken_iff (hdelay : delayMs ≠ 0#32)
    (hticks : (telOsMsToTicks config.tickFreq delayMs).toNat < 2 ^ 31)
    (hsorted : s.delayed.Pairwise fun entry entry' => s.remaining entry ≤ s.remaining entry') :
    (∀ entry ∈ s.delayed.drop (s.newPlace config delayMs),
      (telOsMsToTicks config.tickFreq delayMs).toNat ≤ s.remaining entry) ↔
    ∀ entry ∈ s.delayed,
      (telOsMsToTicks config.tickFreq delayMs).toNat < s.remaining entry + 2 ^ 31 := by
  rw [newPlace, delayTicks_eq config hdelay]
  generalize telOsMsToTicks config.tickFreq delayMs = ticks at hticks ⊢
  have hpassed := fun entry => passed_iff (s := s) hticks entry
  have hsame := fun entry => sameTick_iff (s := s) hticks entry
  set front := before (s.tickCount + ticks) s.delayed with hfront
  have hsplit : front ++ s.delayed.drop front.length = s.delayed := before_append_drop _ _
  constructor
  · intro hbehind entry hentry
    by_contra hfar
    rw [← hsplit] at hentry
    rcases List.mem_append.mp hentry with hmem | hmem
    · rcases List.mem_append.mp hmem with hmem | hmem
      · have hpass := List.mem_takeWhile_imp hmem
        have := (hpassed entry).mp (by simpa using hpass)
        omega
      · have heq := (hsame entry).mp (by simpa using List.mem_takeWhile_imp hmem)
        omega
    · have := hbehind entry hmem
      omega
  · intro hnear entry hentry
    have hplace : front = s.delayed.takeWhile fun entry => s.remaining entry ≤ ticks.toNat := by
      rw [← SortedInsert.takeWhile_two_phases hsorted, hfront, before]
      have hone : ∀ e ∈ s.delayed, (!isDue (s.tickCount + ticks) e.dueTick) =
          decide (s.remaining e < ticks.toNat) := fun e he => by
        rw [Bool.eq_iff_iff, Bool.not_eq_true', hpassed e, decide_eq_true_eq]
        exact and_iff_left (hnear e he)
      rw [SortedInsert.takeWhile_congr hone, SortedInsert.dropWhile_congr hone]
      simp only [hsame]
    rw [hplace] at hsplit hentry
    rw [List.append_cancel_left (hsplit.trans List.takeWhile_append_dropWhile.symm),
      SortedInsert.dropWhile_eq_filter (hsorted.imp fun hle hb => by simp at hb ⊢; omega)] at hentry
    have := (List.mem_filter.mp hentry).2
    simp at this
    omega

/-- **A delayed task is put where it belongs** into a table that is in order, exactly if its delay
is less than half a round of the counter, also counted from the entry that is longest overdue. -/
theorem enterDelayed_placed_iff (config : Config) (i : Nat) (hdelay : delayMs ≠ 0#32)
    (hsorted : s.delayed.Pairwise fun entry entry' => s.remaining entry ≤ s.remaining entry') :
    s.Placed config i delayMs ↔
      (telOsMsToTicks config.tickFreq delayMs).toNat < 2 ^ 31 ∧ ∀ entry ∈ s.delayed,
        (telOsMsToTicks config.tickFreq delayMs).toNat < s.remaining entry + 2 ^ 31 := by
  rw [placed_iff hdelay, notEarly_iff config hdelay s]
  exact and_congr_right fun hticks => notOvertaken_iff hdelay hticks hsorted

/-- A delay that is too long: the task is due as soon as it is posted. -/
theorem enterDelayed_misplaced :
    ∃ (config : Config) (s : LosEventHandler) (i : Nat) (delayMs : BitVec 32), delayMs ≠ 0#32 ∧
      ¬s.Placed config i delayMs := by
  refine ⟨{ queueSize := 1, maxDelayedTasks := 1, maxSyncWaiters := 1, poster := true
            loopName := false, tickFreq := 1000#32, loopTask := 1 }, {}, 0, telOsWaitForever,
    by decide, fun h => ?_⟩
  have hsmall := ((enterDelayed_placed_iff _ 0 (by decide) List.Pairwise.nil).mp h).1
  exact absurd hsmall (by decide)

/-- A second before the counter wraps, with an entry that is overdue, one for the time right after,
and one for two hours later. -/
def wrapsSoon : LosEventHandler where
  tick := 4294966296
  delayed := [⟨1#32, 4294966291#32, 1⟩, ⟨2#32, 1000#32, 2⟩, ⟨3#32, 7199000#32, 3⟩]
  lastTaskId := 3#32

/-- An hour comes between the last two. -/
theorem enterDelayed_placed_hour :
    let config : Config :=
      { queueSize := 1, maxDelayedTasks := 4, maxSyncWaiters := 1, poster := true
        loopName := false, tickFreq := 1000#32, loopTask := 1 }
    wrapsSoon.newPlace config 3600000#32 = 2 ∧ wrapsSoon.Placed config 0 3600000#32 :=
  ⟨by decide, (enterDelayed_placed_iff _ 0 (by decide) (by decide)).mpr ⟨by decide, by decide⟩⟩

/-! ## Real time -/

/-- The tasks `RunDueTasks` takes out. -/
def dueTasks (s : LosEventHandler) : List DelayedTask :=
  s.delayed.takeWhile fun entry => isDue entry.dueTick s.tickCount

theorem takeDueLocked_loop (config : Config) (s : LosEventHandler) :
    (s.takeDueLocked config).loop = .runDelayed (s.dueTasks.map DelayedTask.call) := rfl

variable {K : Type} [Field K] [LinearOrder K] [IsStrictOrderedRing K] [FloorSemiring K]

/-- A task posted at the time `t` with this delay is not taken out before the delay is over, in
whatever state `RunDueTasks` finds the handler.  The counter stands at `⌊time * freq⌋₊`. -/
def NeverEarly (freq delayMs : BitVec 32) (t : K) : Prop :=
  ∀ (config : Config) (i : Nat) (s s' : LosEventHandler) (u : K), config.tickFreq = freq →
    s.tick = ⌊t * freq.toNat⌋₊ → s'.tick = ⌊u * freq.toNat⌋₊ → t ≤ u →
    s.newEntry config i delayMs ∈ s'.dueTasks → t + delayMs.toNat / 1000 ≤ u

theorem newEntry_dueTick (hdelay : delayMs ≠ 0#32) : (s.newEntry config i delayMs).dueTick =
    BitVec.ofNat 32 (s.tick + (telOsMsToTicks config.tickFreq delayMs).toNat) := by
  rw [newEntry, delayTicks_eq config hdelay, BitVec.ofNat_add, BitVec.ofNat_toNat,
    BitVec.setWidth_eq]
  rfl

/-- **A delayed task is never early** exactly if the rounding of its delay makes up for what has
passed of the tick it is posted in. -/
theorem neverEarly_iff (freq : BitVec 32) (hdelay : delayMs ≠ 0#32)
    (hticks : (telOsMsToTicks freq delayMs).toNat < 2 ^ 31) {t : K} (ht : 0 ≤ t) :
    NeverEarly freq delayMs t ↔ t * freq.toNat + delayMs.toNat * freq.toNat / 1000 ≤
      ⌊t * freq.toNat⌋₊ + (telOsMsToTicks freq delayMs).toNat := by
  have hpos : 0 < (telOsMsToTicks freq delayMs).toNat := Nat.pos_of_ne_zero fun hzero =>
    @telOsMsToTicks_ne_zero freq delayMs hdelay (BitVec.eq_of_toNat_eq hzero)
  set f : K := (freq.toNat : K) with hf
  have hf0 : 0 ≤ f := Nat.cast_nonneg _
  set n := (telOsMsToTicks freq delayMs).toNat with hn
  constructor
  · intro hnever
    by_contra hshort
    rw [not_le] at hshort
    have hfpos : 0 < f := by
      rcases hf0.lt_or_eq with h | h
      · exact h
      · rw [← h] at hshort
        simp only [mul_zero, zero_div, add_zero] at hshort
        have : (0 : K) ≤ ⌊(0 : K)⌋₊ + n := by positivity
        exact absurd hshort (not_lt.mpr this)
    -- the task is taken out as soon as its tick has come
    set u : K := (⌊t * f⌋₊ + n) / f with hu
    have huf : u * f = ((⌊t * f⌋₊ + n : Nat) : K) := by
      rw [hu, div_mul_cancel₀ _ hfpos.ne', Nat.cast_add]
    have htu : t ≤ u := by
      rw [hu, le_div_iff₀ hfpos]
      have h1 := (Nat.lt_floor_add_one (t * f)).le
      have h2 : (1 : K) ≤ n := by exact_mod_cast hpos
      linarith
    have hlate : u < t + delayMs.toNat / 1000 := by
      rw [← mul_lt_mul_iff_left₀ hfpos, huf, Nat.cast_add]
      calc (⌊t * f⌋₊ : K) + n < t * f + delayMs.toNat * f / 1000 := hshort
        _ = (t + delayMs.toNat / 1000) * f := by ring
    refine absurd (hnever ⟨1, 1, 1, true, false, freq, 1⟩ 0 { tick := ⌊t * f⌋₊ }
      { tick := ⌊u * f⌋₊
        delayed := [newEntry ⟨1, 1, 1, true, false, freq, 1⟩ 0 delayMs { tick := ⌊t * f⌋₊ }] }
      u rfl rfl rfl htu ?_) (not_le.mpr hlate)
    have hdue : isDue (BitVec.ofNat 32 (⌊t * f⌋₊ + n)) (BitVec.ofNat 32 ⌊u * f⌋₊) = true := by
      rw [huf, Nat.floor_natCast, isDue_ofNat (by omega) (by omega)]
      exact decide_eq_true le_rfl
    rw [dueTasks, List.takeWhile_cons_of_pos]
    · exact List.mem_cons_self
    · rw [newEntry_dueTick hdelay]
      exact hdue
  · intro hround config i s s' u hconfig hs hs' htu htaken
    by_contra hearly
    rw [not_le] at hearly
    have hdue := List.mem_takeWhile_imp htaken
    rw [← hf] at hs hs'
    rw [newEntry_dueTick hdelay, hconfig, tickCount, hs, hs'] at hdue
    have hle : ⌊t * f⌋₊ ≤ ⌊u * f⌋₊ := Nat.floor_mono (mul_le_mul_of_nonneg_right htu hf0)
    have hlt : ⌊u * f⌋₊ < ⌊t * f⌋₊ + n := by
      rcases hf0.lt_or_eq with hfpos | hfzero
      · rw [Nat.floor_lt (mul_nonneg (ht.trans htu) hf0), Nat.cast_add]
        calc u * f < (t + delayMs.toNat / 1000) * f := mul_lt_mul_of_pos_right hearly hfpos
          _ = t * f + delayMs.toNat * f / 1000 := by ring
          _ ≤ ⌊t * f⌋₊ + n := hround
      · rw [← hfzero, mul_zero, Nat.floor_zero]
        omega
    rw [isDue_ofNat (by omega) (by omega), decide_eq_true_eq] at hdue
    omega

/-- A delay of one millisecond at a tick of ten: posted late in its tick, the task is due after
half a millisecond. -/
theorem early_task : ∃ (freq delayMs : BitVec 32) (t : ℚ), delayMs ≠ 0#32 ∧
    (telOsMsToTicks freq delayMs).toNat < 2 ^ 31 ∧ 0 ≤ t ∧ ¬NeverEarly freq delayMs t := by
  refine ⟨100#32, 1#32, 19 / 2000, by decide, by decide, by norm_num, ?_⟩
  rw [neverEarly_iff _ (by decide) (by decide) (by norm_num)]
  have hfloor : ⌊(19 / 2000 : ℚ) * (100#32).toNat⌋₊ = 0 := by
    rw [Nat.floor_eq_zero]
    norm_num
  have hticks : (telOsMsToTicks 100#32 1#32).toNat = 1 := by decide
  rw [hfloor, hticks]
  norm_num

/-- Posted at the beginning of a tick, it is not. -/
theorem early_task_not : NeverEarly 100#32 1#32 (0 : ℚ) := by
  refine (neverEarly_iff _ (by decide) (by decide) le_rfl).mpr ?_
  have hticks : (telOsMsToTicks 100#32 1#32).toNat = 1 := by decide
  rw [hticks]
  norm_num

end LosEventHandler

end CallManagerMini
