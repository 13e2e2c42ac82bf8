import CallManagerMini.Lib.Agents
import CallManagerMini.Lib.Runs
import CallManagerMini.Lib.Semaphore
import CallManagerMini.TimerArithmetic

/-! # The semaphores of the host's adapter

`tel_os_adapter_posix.cpp` makes a semaphore of a counter, a mutex and a condition variable.  What
a caller does with the mutex held is one step; in between it stands before the mutex or in
`pthread_cond_wait`, which it may leave for no reason at all.  Whatever the order of the steps, the
answers are those of a bounded counting semaphore, no permit is left in the counter over the sleep
of somebody who waits for one, and a wait that gives up has lasted as long as it was asked to
(`posixSem_faithful`).
-/

namespace CallManagerMini

/-- Where a call of `TelOsSemWait` stands. -/
inductive SemWaitPc where
  /-- It is about to take the mutex. -/
  | entering
  /-- It is in `pthread_cond_wait` or `pthread_cond_timedwait`; `woken` by a signal. -/
  | waiting (woken : Bool)
  /-- It has returned `OK`. -/
  | taken
  /-- It has returned `TIMEOUT`. -/
  | timedOut
  deriving DecidableEq, Repr

/-- A call of `TelOsSemWait`. -/
structure SemWait where
  timeoutMs : BitVec 32
  /-- When it was called. -/
  since : Nat
  deadline : Nat
  pc : SemWaitPc := .entering
  deriving DecidableEq, Repr

/-- What the calls have returned. -/
inductive SemEvent where
  | posted
  /-- `TelOsSemPost` has returned `FAIL`. -/
  | full
  | taken (j : Nat)
  | timedOut (j now : Nat)
  deriving DecidableEq, Repr

/-- `PosixSem`, the clock of the host and the calls of `TelOsSemWait`. -/
structure PosixSem where
  count : Nat
  maxCount : Nat
  /-- `MonotonicNs`. -/
  now : Nat := 0
  waits : List SemWait := []
  log : List SemEvent := []
  deriving DecidableEq, Repr

/-- `TelOsSemCreate`, where there is memory. -/
def telOsSemCreate (initialCount maxCount : Nat) : Option PosixSem :=
  if maxCount = 0 ∨ initialCount > maxCount then none else some { count := initialCount, maxCount }

namespace SemWait

/-- It sleeps, and no signal has reached it. -/
def asleep (w : SemWait) : Bool := w.pc = .waiting false

/-- A signal has reached it, and it has not gone on. -/
def woken (w : SemWait) : Bool := w.pc = .waiting true

end SemWait

namespace PosixSem

/-- Put the call `j` at another place. -/
def put (j : Nat) (w : SemWait) (pc : SemWaitPc) (s : PosixSem) : PosixSem :=
  { s with waits := s.waits.set j { w with pc } }

/-- `TelOsSemWait` computes the deadline. -/
def call (freq timeoutMs : BitVec 32) (s : PosixSem) : PosixSem :=
  let deadline :=
    if timeoutMs = telOsWaitForever then 0
    else s.now + ticksToNs freq (telOsMsToTicks freq timeoutMs)
  { s with waits := s.waits ++ [{ timeoutMs, since := s.now, deadline }] }

/-- `TelOsSemWait` with the mutex held, until it waits or returns.  `elapsed` says that
`pthread_cond_timedwait` has just returned `ETIMEDOUT`. -/
def waitLocked (j : Nat) (w : SemWait) (elapsed : Bool) (s : PosixSem) : PosixSem :=
  if s.count = 0 ∧ w.timeoutMs ≠ 0#32 ∧ elapsed = false then s.put j w (.waiting false)
  else if s.count > 0 then
    { s.put j w .taken with count := s.count - 1, log := s.log ++ [.taken j] }
  else { s.put j w .timedOut with log := s.log ++ [.timedOut j s.now] }

/-- `TelOsSemPost`.  The signal reaches the call `chosen`, one of those asleep; where nobody is
asleep it is lost. -/
def post (chosen : Option Nat) (s : PosixSem) : Option PosixSem :=
  if s.count < s.maxCount then
    let posted := { s with count := s.count + 1, log := s.log ++ [.posted] }
    match chosen with
    | none => if ∃ w ∈ s.waits, w.asleep = true then none else some posted
    | some j =>
      match s.waits[j]? with
      | some w => if w.asleep then some (posted.put j w (.waiting true)) else none
      | none => none
  else some { s with log := s.log ++ [.full] }

/-- What can happen next. -/
inductive Act where
  /-- Time passes. -/
  | pass (ns : Nat)
  | post (chosen : Option Nat)
  | call (timeoutMs : BitVec 32)
  /-- The call `j` takes the mutex for the first time. -/
  | enter (j : Nat)
  /-- The call `j` leaves `pthread_cond_wait`, woken or not. -/
  | wake (j : Nat) (elapsed : Bool)
  deriving DecidableEq, Repr

/-- **One step**, if it can be taken. -/
def step? (freq : BitVec 32) (a : Act) (s : PosixSem) : Option PosixSem :=
  match a with
  | .pass ns => some { s with now := s.now + ns }
  | .post chosen => s.post chosen
  | .call timeoutMs => some (s.call freq timeoutMs)
  | .enter j =>
    match s.waits[j]? with
    | some w => if w.pc = .entering then some (s.waitLocked j w false) else none
    | none => none
  | .wake j elapsed =>
    match s.waits[j]? with
    | some w =>
      if (w.asleep ∨ w.woken) ∧
          (elapsed = true → w.timeoutMs ≠ telOsWaitForever ∧ w.deadline ≤ s.now) then
        some (s.waitLocked j w elapsed)
      else none
    | none => none

/-- The states the runs of a semaphore reach. -/
abbrev Reachable (freq : BitVec 32) (initialCount maxCount : Nat) : PosixSem → Prop :=
  Runs.Reachable (fun s => telOsSemCreate initialCount maxCount = some s)
    fun s s' => ∃ a, s.step? freq a = some s'

end PosixSem

/-- What a returned call answers. -/
def SemEvent.answer : SemEvent → Semaphore.Answer
  | .posted => .posted
  | .full => .full
  | .taken _ => .taken
  | .timedOut .. => .missed

namespace PosixSem

/-- A wait that gives up did not want to wait, or was patient. -/
def Patient (freq : BitVec 32) (s : PosixSem) : Prop :=
  ∀ j now, .timedOut j now ∈ s.log → now ≤ s.now ∧ ∃ w, s.waits[j]? = some w ∧
    (w.timeoutMs = 0#32 ∨ w.timeoutMs ≠ telOsWaitForever ∧
      (TicksClamped freq w.timeoutMs ∨ w.since + w.timeoutMs.toNat * 1000000 ≤ now))

/-- **A semaphore does what it is for.** -/
structure Faithful (freq : BitVec 32) (initialCount : Nat) (s : PosixSem) : Prop where
  /-- Every answer is that of a bounded counting semaphore. -/
  history : Semaphore.run s.maxCount initialCount (s.log.map SemEvent.answer) = some s.count
  bounded : s.count ≤ s.maxCount
  /-- Permits are neither lost nor made. -/
  conserved : s.count + s.waits.countP (fun w => decide (w.pc = .taken)) =
    initialCount + s.log.count .posted
  /-- **No wake-up is lost**: where somebody sleeps, there are others on their way to the permits
  there are. -/
  wakes : (∃ w ∈ s.waits, w.asleep = true) → s.count ≤ s.waits.countP SemWait.woken
  patient : s.Patient freq

variable {freq timeoutMs : BitVec 32} {initialCount maxCount j : Nat} {elapsed : Bool}
  {chosen : Option Nat} {a : Act} {w : SemWait} {s s' : PosixSem}

/-! ## What a step does -/

/-- Where a call of `TelOsSemWait` goes with the mutex held. -/
inductive WaitMove (j : Nat) (w : SemWait) (elapsed : Bool) (s : PosixSem) : PosixSem → Prop where
  | sleeps : s.count = 0 → WaitMove j w elapsed s (s.put j w (.waiting false))
  | takes : 0 < s.count → WaitMove j w elapsed s
      { s.put j w .taken with count := s.count - 1, log := s.log ++ [.taken j] }
  | givesUp : s.count = 0 → w.timeoutMs = 0#32 ∨ elapsed = true → WaitMove j w elapsed s
      { s.put j w .timedOut with log := s.log ++ [.timedOut j s.now] }

theorem waitLocked_move : WaitMove j w elapsed s (s.waitLocked j w elapsed) := by
  unfold waitLocked
  by_cases hcount : s.count > 0
  · rw [if_neg fun h => by omega, if_pos hcount]
    exact .takes hcount
  · have hzero : s.count = 0 := by omega
    split
    · exact .sleeps hzero
    next hgo =>
      refine .givesUp hzero ?_
      by_cases hpoll : w.timeoutMs = 0#32
      · exact .inl hpoll
      · exact .inr (by simpa [hzero, hpoll] using hgo)

/-- What a step does. -/
inductive Move (freq : BitVec 32) (s : PosixSem) : PosixSem → Prop where
  | pass (ns : Nat) : Move freq s { s with now := s.now + ns }
  | full : s.maxCount ≤ s.count → Move freq s { s with log := s.log ++ [.full] }
  /-- The signal is lost. -/
  | posted : s.count < s.maxCount → (∀ w ∈ s.waits, w.asleep = false) →
      Move freq s { s with count := s.count + 1, log := s.log ++ [.posted] }
  | signals (j : Nat) (w : SemWait) : s.count < s.maxCount → s.waits[j]? = some w →
      w.asleep = true → Move freq s
        { s.put j w (.waiting true) with count := s.count + 1, log := s.log ++ [.posted] }
  | call (timeoutMs : BitVec 32) : Move freq s (s.call freq timeoutMs)
  | waits (j : Nat) (w : SemWait) (elapsed : Bool) (s' : PosixSem) : s.waits[j]? = some w →
      (w.pc = .entering ∨ w.asleep = true ∨ w.woken = true) →
      (elapsed = true → w.timeoutMs ≠ telOsWaitForever ∧ w.deadline ≤ s.now) →
      WaitMove j w elapsed s s' → Move freq s s'

theorem post_move (h : s.post chosen = some s') : Move freq s s' := by
  unfold post at h
  split at h
  next hroom =>
    cases chosen with
    | none =>
      dsimp only at h
      split at h
      · cases h
      next hnobody =>
        obtain rfl := Option.some.inj h
        exact .posted hroom fun w hw => by
          by_contra hasleep
          exact hnobody ⟨w, hw, by simpa using hasleep⟩
    | some j =>
      dsimp only at h
      split at h
      next w hw =>
        split at h
        next hasleep =>
          obtain rfl := Option.some.inj h
          exact .signals j w hroom hw hasleep
        · cases h
      · cases h
  next hfull =>
    obtain rfl := Option.some.inj h
    exact .full (Nat.le_of_not_lt hfull)

theorem step_move (h : s.step? freq a = some s') : Move freq s s' := by
  cases a with
  | pass ns =>
    obtain rfl := Option.some.inj h
    exact .pass ns
  | post chosen => exact post_move h
  | call timeoutMs =>
    obtain rfl := Option.some.inj h
    exact .call timeoutMs
  | enter j =>
    simp only [step?] at h
    split at h
    next w hw =>
      split at h
      next hpc =>
        obtain rfl := Option.some.inj h
        exact .waits j w false _ hw (.inl hpc) (by simp) waitLocked_move
      · cases h
    · cases h
  | wake j elapsed =>
    simp only [step?] at h
    split at h
    next w hw =>
      split at h
      next hgo =>
        obtain rfl := Option.some.inj h
        exact .waits j w elapsed _ hw (.inr hgo.1) hgo.2 waitLocked_move
      · cases h
    · cases h

/-! ## What holds in every run -/

/-- It has returned `OK`. -/
def hasPermit (w : SemWait) : Bool := w.pc = .taken

/-- What holds of a semaphore and its waits. -/
structure Inv (freq : BitVec 32) (initialCount : Nat) (s : PosixSem) : Prop where
  history : Semaphore.run s.maxCount initialCount (s.log.map SemEvent.answer) = some s.count
  bounded : s.count ≤ s.maxCount
  returned : (s.log.map SemEvent.answer).count .taken = s.waits.countP hasPermit
  wakes : (∃ w ∈ s.waits, w.asleep = true) → s.count ≤ s.waits.countP SemWait.woken
  deadlines : ∀ w ∈ s.waits, w.timeoutMs ≠ telOsWaitForever →
    w.deadline = w.since + ticksToNs freq (telOsMsToTicks freq w.timeoutMs)
  patient : s.Patient freq

theorem Inv.init (h : telOsSemCreate initialCount maxCount = some s) : s.Inv freq initialCount := by
  unfold telOsSemCreate at h
  split at h
  · cases h
  next hcreate =>
    obtain rfl := Option.some.inj h
    exact
      { history := rfl
        bounded := by dsimp only; omega
        returned := rfl
        wakes := by simp
        deadlines := by simp
        patient := fun _ _ h => by cases h }

/-- One more answer. -/
theorem history_concat {e : SemEvent} {count : Nat}
    (h : Semaphore.run s.maxCount initialCount (s.log.map SemEvent.answer) = some s.count)
    (he : Semaphore.answer s.maxCount s.count e.answer = some count) :
    Semaphore.run s.maxCount initialCount ((s.log ++ [e]).map SemEvent.answer) = some count := by
  rw [List.map_append, List.map_singleton, Semaphore.run_concat h, he]

/-- Who was patient, was so. -/
theorem Patient.mono (h : s.Patient freq) (hlog : ∀ j now, .timedOut j now ∈ s'.log →
      .timedOut j now ∈ s.log) (hnow : s.now ≤ s'.now)
    (hwaits : ∀ (j : Nat) (w : SemWait), s.waits[j]? = some w → ∃ w', s'.waits[j]? = some w' ∧
      w'.timeoutMs = w.timeoutMs ∧ w'.since = w.since) : s'.Patient freq := by
  intro j now hmem
  obtain ⟨hle, w, hw, hpatient⟩ := h j now (hlog j now hmem)
  obtain ⟨w', hw', htimeout, hsince⟩ := hwaits j w hw
  refine ⟨Nat.le_trans hle hnow, w', hw', ?_⟩
  rw [htimeout, hsince]
  exact hpatient

/-- Where a call is put at another place, it keeps what it was called with. -/
theorem put_keeps {pc : SemWaitPc} (hj : s.waits[j]? = some w) (i : Nat) (v : SemWait)
    (hi : s.waits[i]? = some v) : ∃ v', (s.put j w pc).waits[i]? = some v' ∧
      v'.timeoutMs = v.timeoutMs ∧ v'.since = v.since := by
  by_cases hij : j = i
  · subst hij
    obtain rfl := Option.some.inj (hj.symm.trans hi)
    exact ⟨_, Agents.getElem?_set_self _ hj, rfl, rfl⟩
  · exact ⟨v, (List.getElem?_set_ne hij).trans hi, rfl, rfl⟩

theorem put_deadlines {pc : SemWaitPc} (hj : s.waits[j]? = some w)
    (h : ∀ w ∈ s.waits, w.timeoutMs ≠ telOsWaitForever →
      w.deadline = w.since + ticksToNs freq (telOsMsToTicks freq w.timeoutMs)) :
    ∀ v ∈ (s.put j w pc).waits, v.timeoutMs ≠ telOsWaitForever →
      v.deadline = v.since + ticksToNs freq (telOsMsToTicks freq v.timeoutMs) := by
  intro v hv
  obtain ⟨i, hi⟩ := List.mem_iff_getElem?.mp hv
  rcases Agents.of_getElem?_set hi with ⟨-, rfl⟩ | ⟨-, hi⟩
  · exact h w (List.mem_of_getElem? hj)
  · exact h v (List.mem_of_getElem? hi)

/-- A call that goes from one place to another is counted there. -/
theorem put_countP (p : SemWait → Bool) (pc : SemWaitPc) (hj : s.waits[j]? = some w) :
    (s.put j w pc).waits.countP p + (p w).toNat =
      s.waits.countP p + (p { w with pc }).toNat :=
  Agents.countP_set_add p _ hj

/-- Who sleeps after a call was put at another place is that call or slept before. -/
theorem asleep_of_put {pc : SemWaitPc} (hpc : pc ≠ .waiting false)
    (h : ∃ v ∈ (s.put j w pc).waits, v.asleep = true) : ∃ v ∈ s.waits, v.asleep = true := by
  obtain ⟨v, hv, hasleep⟩ := h
  obtain ⟨i, hi⟩ := List.mem_iff_getElem?.mp hv
  rcases Agents.of_getElem?_set hi with ⟨-, rfl⟩ | ⟨-, hi⟩
  · simp [SemWait.asleep, hpc] at hasleep
  · exact ⟨v, List.mem_of_getElem? hi, hasleep⟩

/-- Somebody is asleep after the answer, and there was room for it. -/
theorem Inv.signals (h : s.Inv freq initialCount) (hroom : s.count < s.maxCount)
    (hj : s.waits[j]? = some w) (hasleep : w.asleep = true) :
    Inv freq initialCount
      { s.put j w (.waiting true) with count := s.count + 1, log := s.log ++ [.posted] } := by
  have hpc : w.pc = .waiting false := by simpa [SemWait.asleep] using hasleep
  have hwoken := put_countP SemWait.woken (.waiting true) hj
  have htaken := put_countP hasPermit (.waiting true) hj
  simp [SemWait.woken, hasPermit, hpc] at hwoken htaken
  exact
    { history := history_concat h.history (if_pos hroom)
      bounded := hroom
      returned := by
        rw [List.map_append, List.count_append, h.returned, ← htaken]
        rfl
      wakes := by
        intro _
        have hbefore := h.wakes ⟨w, List.mem_of_getElem? hj, hasleep⟩
        show s.count + 1 ≤ (s.put j w (.waiting true)).waits.countP SemWait.woken
        omega
      deadlines := put_deadlines hj h.deadlines
      patient := h.patient.mono (by simp) (Nat.le_refl _) (put_keeps hj) }

/-- **A call of `TelOsSemWait` has the mutex.** -/
theorem Inv.waits (h : s.Inv freq initialCount) (hfreq : freq ≠ 0#32)
    (hj : s.waits[j]? = some w)
    (hpc : w.pc = .entering ∨ w.asleep = true ∨ w.woken = true)
    (helapsed : elapsed = true → w.timeoutMs ≠ telOsWaitForever ∧ w.deadline ≤ s.now)
    (hmove : WaitMove j w elapsed s s') : s'.Inv freq initialCount := by
  have hnot : w.pc ≠ .taken := by
    rcases hpc with hpc | hpc | hpc <;> intro hreturned <;>
      simp [hreturned, SemWait.asleep, SemWait.woken] at hpc
  cases hmove with
  | sleeps hzero =>
    have htaken := put_countP hasPermit (.waiting false) hj
    simp [hnot, hasPermit] at htaken
    exact
      { history := h.history
        bounded := h.bounded
        returned := h.returned.trans htaken.symm
        wakes := fun _ => by
          show s.count ≤ _
          omega
        deadlines := put_deadlines hj h.deadlines
        patient := h.patient.mono (fun _ _ h => h) (Nat.le_refl _) (put_keeps hj) }
  | takes hpos =>
    have htaken := put_countP hasPermit .taken hj
    have hwoken := put_countP SemWait.woken .taken hj
    have hone := Bool.toNat_le w.woken
    simp [hnot, hasPermit, SemWait.woken] at htaken hwoken hone
    exact
      { history := history_concat h.history (if_pos hpos)
        bounded := Nat.le_trans (Nat.sub_le ..) h.bounded
        returned := by
          rw [List.map_append, List.count_append, h.returned]
          exact htaken.symm
        wakes := by
          intro hasleep
          have hbefore := h.wakes (asleep_of_put (by simp) hasleep)
          show s.count - 1 ≤ (s.put j w .taken).waits.countP SemWait.woken
          omega
        deadlines := put_deadlines hj h.deadlines
        patient := h.patient.mono (by simp) (Nat.le_refl _) (put_keeps hj) }
  | givesUp hzero hwhy =>
    have htaken := put_countP hasPermit .timedOut hj
    simp [hnot, hasPermit] at htaken
    refine
      { history := history_concat h.history (if_pos hzero)
        bounded := h.bounded
        returned := ?_
        wakes := fun _ => by
          show s.count ≤ _
          omega
        deadlines := put_deadlines hj h.deadlines
        patient := ?_ }
    · rw [List.map_append, List.count_append, h.returned, ← htaken]
      rfl
    · intro i now hmem
      rcases List.mem_append.mp hmem with hmem | hmem
      · have hput : (s.put j w .timedOut).Patient freq :=
          h.patient.mono (fun _ _ h => h) (Nat.le_refl _) (put_keeps hj)
        exact hput i now hmem
      · obtain ⟨rfl, rfl⟩ := SemEvent.timedOut.inj (List.mem_singleton.mp hmem)
        refine ⟨Nat.le_refl _, _, Agents.getElem?_set_self _ hj, ?_⟩
        -- either it was a poll, or the deadline has passed
        rcases hwhy with hpoll | helapses
        · exact .inl hpoll
        · obtain ⟨hfinite, hpassed⟩ := helapsed helapses
          refine .inr ⟨hfinite, ?_⟩
          by_cases hclamps : TicksClamped freq w.timeoutMs
          · exact .inl hclamps
          · have hns := le_ticksToNs hfreq hfinite hclamps
            rw [h.deadlines w (List.mem_of_getElem? hj) hfinite] at hpassed
            exact .inr (Nat.le_trans (Nat.add_le_add_left hns _) hpassed)

/-- **Every step keeps the invariant.** -/
theorem Inv.step (h : s.Inv freq initialCount) (hfreq : freq ≠ 0#32) (hmove : Move freq s s') :
    s'.Inv freq initialCount := by
  cases hmove with
  | pass ns =>
    exact { h with
      patient := h.patient.mono (fun _ _ h => h) (Nat.le_add_right ..)
        fun _ w hw => ⟨w, hw, rfl, rfl⟩ }
  | full hfull =>
    exact { h with
      history := history_concat h.history (if_pos (Nat.le_antisymm h.bounded hfull))
      returned := by
        rw [List.map_append, List.count_append, h.returned]
        rfl
      patient := h.patient.mono (by simp) (Nat.le_refl _) fun _ w hw => ⟨w, hw, rfl, rfl⟩ }
  | posted hroom hnobody =>
    exact { h with
      history := history_concat h.history (if_pos hroom)
      bounded := hroom
      returned := by
        rw [List.map_append, List.count_append, h.returned]
        rfl
      wakes := fun ⟨w, hw, hasleep⟩ => by
        rw [hnobody w hw] at hasleep
        cases hasleep
      patient := h.patient.mono (by simp) (Nat.le_refl _) fun _ w hw => ⟨w, hw, rfl, rfl⟩ }
  | signals j w hroom hj hasleep => exact h.signals hroom hj hasleep
  | call timeoutMs =>
    refine
      { history := h.history
        bounded := h.bounded
        returned := ?_
        wakes := ?_
        deadlines := ?_
        patient := h.patient.mono (fun _ _ h => h) (Nat.le_refl _)
          fun _ w hw => ⟨w, Agents.getElem?_append _ hw, rfl, rfl⟩ }
    · show _ = (s.waits ++ [_]).countP hasPermit
      rw [List.countP_append]
      exact h.returned
    · rintro ⟨w, hw, hasleep⟩
      rcases List.mem_append.mp hw with hw | hw
      · have hbefore := h.wakes ⟨w, hw, hasleep⟩
        show s.count ≤ (s.waits ++ [_]).countP SemWait.woken
        rw [List.countP_append]
        omega
      · rw [List.mem_singleton.mp hw] at hasleep
        cases hasleep
    · intro w hw hfinite
      rcases List.mem_append.mp hw with hw | hw
      · exact h.deadlines w hw hfinite
      · obtain rfl := List.mem_singleton.mp hw
        exact if_neg hfinite
  | waits j w elapsed s' hj hpc helapsed hwait => exact h.waits hfreq hj hpc helapsed hwait

theorem reachable_inv (hfreq : freq ≠ 0#32) (hs : Reachable freq initialCount maxCount s) :
    s.Inv freq initialCount :=
  hs.invariant (fun _ h => Inv.init h) fun _ _ h ⟨_, hstep⟩ => h.step hfreq (step_move hstep)

/-- The permits that were given back are the answers that say so. -/
theorem count_posted : (s.log.map SemEvent.answer).count .posted = s.log.count .posted := by
  rw [List.count, List.countP_map]
  exact List.countP_congr fun e _ => by cases e <;> simp [SemEvent.answer]

end PosixSem

/-- **The semaphores of the host**: in whatever order posts, waits, wake-ups and the clock come, a
semaphore answers as a bounded counting semaphore does, and no wake-up is lost. -/
theorem posixSem_faithful (freq : BitVec 32) (hfreq : freq ≠ 0#32) (initialCount maxCount : Nat)
    (s : PosixSem) (hs : PosixSem.Reachable freq initialCount maxCount s) :
    s.Faithful freq initialCount := by
  have h := PosixSem.reachable_inv hfreq hs
  refine ⟨h.history, h.bounded, ?_, h.wakes, h.patient⟩
  have hconserved := Semaphore.run_conserves h.history
  rw [h.returned, PosixSem.count_posted] at hconserved
  exact hconserved

/-- Two wait, and one permit comes. -/
theorem posixSem_faithful_two : ∃ s : PosixSem, s.Faithful 100#32 0 ∧ s.count = 1 ∧
    s.waits.countP SemWait.asleep = 1 ∧ s.waits.countP SemWait.woken = 1 := by
  let acts : List PosixSem.Act := [.call telOsWaitForever, .enter 0, .call telOsWaitForever,
    .enter 1, .post (some 0)]
  let wait (woken : Bool) : SemWait :=
    { timeoutMs := telOsWaitForever, since := 0, deadline := 0, pc := .waiting woken }
  let s : PosixSem :=
    { count := 1, maxCount := 1, waits := [wait true, wait false], log := [.posted] }
  have hinit : PosixSem.Reachable 100#32 0 1 { count := 0, maxCount := 1 } := .start rfl
  have hrun : acts.foldlM (fun s a => PosixSem.step? 100#32 a s) { count := 0, maxCount := 1 } =
      some s := by decide
  exact ⟨s, posixSem_faithful 100#32 (by decide) 0 1 s (hinit.foldlM hrun), rfl, rfl, rfl⟩

end CallManagerMini
