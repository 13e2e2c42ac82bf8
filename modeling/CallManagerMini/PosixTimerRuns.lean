import CallManagerMini.PosixTimers

/-! # What the timers of the host do

What is told of the timers by the log and what the service has of them is the same in every state
(`Core`), and whoever sleeps is woken in time (`Awake`).  It follows that a timer is called when it
should be, once for each start (`posixTimers_right`), that it keeps silent once it was deleted
(`deleted_timer_silent`), and that nobody waits in vain (`posixTimers_lively`).
-/

namespace CallManagerMini

namespace TimerService

variable {freq delayMs : BitVec 32} {t u i arg : Nat} {callback : TelOsTimerCallback}
  {timer timer' : PosixTimer} {d : TimerDelete} {a : Act} {byService : Bool}
  {b : Nat × PosixTimer} {best : Option (Nat × PosixTimer)} {ts : List Nat}
  {s s' : TimerService}

/-! ## What holds of the timers -/

/-- What holds of a call of `TelOsTimerDelete`. -/
structure Deletes (s : TimerService) (d : TimerDelete) : Prop where
  unlinked : .unlinked d.timer ∈ s.log
  waiting : ∀ woken, d.pc = .waiting woken → .deleted d.timer ∉ s.log ∧ d.byService = false
  unlocked : d.pc = .unlocked → .deleted d.timer ∉ s.log ∧ s.running ≠ some d.timer
  deleted : d.pc = .deleted → .deleted d.timer ∈ s.log

/-- What holds of the timers and of the log. -/
structure Core (s : TimerService) : Prop where
  nodup : s.timers.Nodup
  linked : ∀ t, t ∈ s.timers ↔ Linked s.log t
  created : ∀ t, .created t ∈ s.log ↔ t < s.heap.length
  alive : ∀ t, (∃ timer, s.object t = some timer) ↔ .created t ∈ s.log ∧ .deleted t ∉ s.log
  armed : ∀ t timer, s.object t = some timer →
    armedAt s.log t = if timer.armed then some timer.deadlineNs else none
  running : s.running = runningAt s.log
  calling : ∀ t, s.running = some t →
    ∃ timer, s.object t = some timer ∧ s.pc = .calling timer.callback timer.arg
  idle : s.running = none → ∀ callback arg, s.pc ≠ .calling callback arg
  deletes : ∀ d ∈ s.deletes, s.Deletes d
  /-- A timer is deleted by one call. -/
  alone : ∀ t, s.deletes.countP (fun d => d.timer = t) ≤ 1
  right : Journal.Justified (fun log e => e.Right log) s.log

/-- **Nobody sleeps for ever**: the thread sleeps no longer than to the earliest deadline, and a
call of `TelOsTimerDelete` while the callback of its timer runs. -/
structure Awake (s : TimerService) : Prop where
  service : ∀ untilNs, s.pc = .waiting untilNs false → ∀ t ∈ s.timers, ∀ timer,
    s.object t = some timer → timer.armed = true → ∃ ns ∈ untilNs, ns ≤ timer.deadlineNs
  deletes : ∀ d ∈ s.deletes, d.pc = .waiting false → s.running = some d.timer

/-- An event of the log was right when it was noted. -/
theorem Core.right_of_mem {e : TimerEvent} (h : s.Core) (he : e ∈ s.log) :
    ∃ before, (∀ f ∈ before, f ∈ s.log) ∧ e.Right before := by
  obtain ⟨before, after, hlog⟩ := List.append_of_mem he
  refine ⟨before, fun f hf => ?_, h.right before e after hlog⟩
  rw [hlog]
  exact List.mem_append_left _ hf

theorem Core.deleted (h : s.Core) (t : Nat) (hmem : .deleted t ∈ s.log) : .unlinked t ∈ s.log := by
  obtain ⟨before, hbefore, hright⟩ := h.right_of_mem hmem
  exact hbefore _ hright.1

/-- What the log tells of a timer comes after it was made. -/
theorem Core.unlinked_lt (h : s.Core) (hmem : .unlinked t ∈ s.log) : t < s.heap.length := by
  obtain ⟨before, hbefore, hright⟩ := h.right_of_mem hmem
  exact (h.created t).mp (hbefore _ hright.1)

/-! ## Each step keeps it -/

section Note
variable {e : TimerEvent}

/-- Something is noted that neither makes nor deletes a timer. -/
theorem Core.note (h : s.Core) (heap : List (Option PosixTimer)) (running : Option Nat)
    (pc : ServicePc) (he : e.Right s.log) (hcreated : ∀ u, e ≠ .created u)
    (hunlinked : ∀ u, e ≠ .unlinked u) (hdeleted : ∀ u, e ≠ .deleted u)
    (hlength : heap.length = s.heap.length)
    (halive : ∀ u, (∃ timer, heap[u]?.join = some timer) ↔ ∃ timer, s.object u = some timer)
    (harmed : ∀ u timer, heap[u]?.join = some timer →
      armedAt (s.log ++ [e]) u = if timer.armed then some timer.deadlineNs else none)
    (hrunning : running = runningAt (s.log ++ [e]))
    (hcalling : ∀ t, running = some t →
      ∃ timer, heap[t]?.join = some timer ∧ pc = .calling timer.callback timer.arg)
    (hidle : running = none → ∀ callback arg, pc ≠ .calling callback arg)
    (hdeletes : ∀ d ∈ s.deletes, running = some d.timer → s.running = some d.timer) :
    Core { s with heap, running, pc, log := s.log ++ [e] } := by
  have hmem : ∀ f : TimerEvent, f ≠ e → (f ∈ s.log ++ [e] ↔ f ∈ s.log) := by
    intro f hf
    rw [List.mem_append, List.mem_singleton]
    exact or_iff_left hf
  have hcreated' := fun u => hmem (.created u) (hcreated u).symm
  have hunlinked' := fun u => hmem (.unlinked u) (hunlinked u).symm
  have hdeleted' := fun u => hmem (.deleted u) (hdeleted u).symm
  exact
    { nodup := h.nodup
      linked := fun u => (h.linked u).trans (linked_concat hcreated hunlinked).symm
      created := fun u => by
        rw [hcreated', hlength]
        exact h.created u
      alive := fun u => by
        rw [hcreated', hdeleted']
        exact (halive u).trans (h.alive u)
      armed := harmed
      running := hrunning
      calling := hcalling
      idle := hidle
      deletes := fun d hd =>
        have hd' := h.deletes d hd
        { unlinked := (hunlinked' _).mpr hd'.unlinked
          waiting := fun woken hpc =>
            ⟨fun hmem => (hd'.waiting woken hpc).1 ((hdeleted' _).mp hmem),
              (hd'.waiting woken hpc).2⟩
          unlocked := fun hpc => ⟨fun hmem => (hd'.unlocked hpc).1 ((hdeleted' _).mp hmem),
            fun hrun => (hd'.unlocked hpc).2 (hdeletes d hd hrun)⟩
          deleted := fun hpc => (hdeleted' _).mpr (hd'.deleted hpc) }
      alone := h.alone
      right := h.right.concat he }

/-- A timer is written, and that is noted. -/
theorem Core.noteWrite (h : s.Core) (timer' : PosixTimer) (ht : s.object t = some timer)
    (hcallback : timer'.callback = timer.callback) (harg : timer'.arg = timer.arg)
    (he : e.Right s.log)
    (hkind : e = .started t timer'.deadlineNs ∧ timer'.armed = true ∨
      (∃ ok, e = .stopped t ok) ∧ timer'.armed = false) :
    Core { s.write t timer' with log := s.log ++ [e] } := by
  have hrun : runningAt (s.log ++ [e]) = runningAt s.log := by
    rw [runningAt_concat]
    rcases hkind with ⟨rfl, -⟩ | ⟨⟨ok, rfl⟩, -⟩ <;> rfl
  have harmed : ∀ u, armedAt (s.log ++ [e]) u =
      if t = u then (if timer'.armed then some timer'.deadlineNs else none)
      else armedAt s.log u := by
    intro u
    rw [armedAt_concat]
    rcases hkind with ⟨rfl, hon⟩ | ⟨⟨ok, rfl⟩, hoff⟩
    · simp [hon]
    · simp [hoff]
  refine h.note (s.write t timer').heap s.running s.pc he ?_ ?_ ?_
    (List.length_set ..) (fun u => object_write_some ht) (fun u timer₁ hu => ?_)
    (h.running.trans hrun.symm) (fun u hu => ?_) h.idle fun _ _ h => h
  · rcases hkind with ⟨rfl, -⟩ | ⟨⟨ok, rfl⟩, -⟩ <;> simp
  · rcases hkind with ⟨rfl, -⟩ | ⟨⟨ok, rfl⟩, -⟩ <;> simp
  · rcases hkind with ⟨rfl, -⟩ | ⟨⟨ok, rfl⟩, -⟩ <;> simp
  · rw [harmed]
    rcases object_write ht hu with ⟨rfl, rfl⟩ | ⟨hut, hu⟩
    · rw [if_pos rfl]
    · rw [if_neg (Ne.symm hut), h.armed u timer₁ hu]
  · obtain ⟨timer₁, htimer₁, hpc⟩ := h.calling u hu
    by_cases hut : u = t
    · subst hut
      obtain rfl := Option.some.inj (ht.symm.trans htimer₁)
      exact ⟨timer', object_write_self ht, by rw [hpc, hcallback, harg]⟩
    · exact ⟨timer₁, (object_write_ne hut).trans htimer₁, hpc⟩

end Note

/-- A broadcast wakes; nothing else changes. -/
theorem Core.broadcast (h : s.Core) : s.broadcast.Core := by
  have hwake : ∀ d : TimerDelete, d.wake.timer = d.timer := by
    intro d
    unfold TimerDelete.wake
    split <;> rfl
  refine { h with
    calling := fun t ht => ?_
    idle := fun hrun callback arg hpc => ?_
    deletes := fun d hd => ?_
    alone := fun t => ?_ }
  · obtain ⟨timer, htimer, hpc⟩ := h.calling t ht
    refine ⟨timer, htimer, ?_⟩
    show s.pc.wake = _
    rw [hpc]
    rfl
  · refine h.idle hrun callback arg ?_
    have hpc : s.pc.wake = .calling callback arg := hpc
    cases hold : s.pc <;> simp [hold, ServicePc.wake] at hpc ⊢
    exact hpc
  · obtain ⟨d, hmem, rfl⟩ := List.mem_map.mp hd
    have hd' := h.deletes d hmem
    cases hpc : d.pc with
    | waiting woken =>
      have hwoken : d.wake = { d with pc := .waiting true } := by rw [TimerDelete.wake, hpc]
      rw [hwoken]
      exact ⟨hd'.unlinked, fun _ _ => hd'.waiting woken hpc, by simp, by simp⟩
    | unlocked | deleted =>
      have hsame : d.wake = d := by rw [TimerDelete.wake, hpc]
      rw [hsame]
      exact ⟨hd'.unlinked, hd'.waiting, hd'.unlocked, hd'.deleted⟩
  · show (s.deletes.map TimerDelete.wake).countP _ ≤ 1
    rw [List.countP_map]
    refine Nat.le_trans (Nat.le_of_eq (List.countP_congr fun d _ => ?_)) (h.alone t)
    simp [hwake]

/-- Nobody who was woken sleeps. -/
theorem broadcast_awake : s.broadcast.Awake := by
  constructor
  · intro untilNs hpc
    have hpc : s.pc.wake = .waiting untilNs false := hpc
    cases hold : s.pc <;> simp [hold, ServicePc.wake] at hpc
  · intro d hd hpc
    obtain ⟨d, -, rfl⟩ := List.mem_map.mp hd
    unfold TimerDelete.wake at hpc
    split at hpc
    · cases hpc
    next hnot => exact absurd hpc (hnot false)

/-- The thread gives the lock back, to wait or to call the earliest timer that is due. -/
theorem Core.serveLocked (h : s.Core) (hrunning : s.running = none) : s.serveLocked.Core := by
  have hwaits : ∀ untilNs, Core { s with pc := .waiting untilNs false } := fun untilNs =>
    { h with
      calling := fun t ht => by
        rw [hrunning] at ht
        cases ht
      idle := by simp
      deletes := fun d hd =>
        have hd' := h.deletes d hd
        ⟨hd'.unlinked, hd'.waiting, hd'.unlocked, hd'.deleted⟩ }
  unfold TimerService.serveLocked
  cases hearliest : s.earliest with
  | none => exact hwaits none
  | some b =>
    obtain ⟨t, timer⟩ := b
    dsimp only
    split
    · exact hwaits _
    next hdue =>
      have hb := foldl_pick_some hearliest
      obtain ⟨hmem, hobject, harmed⟩ := hb.found.resolve_left (by simp)
      dsimp only at hmem hobject harmed
      have hlinked := (h.linked t).mp hmem
      have hat := h.armed t timer hobject
      rw [if_pos harmed] at hat
      refine h.note (s.write t { timer with armed := false }).heap (some t)
        (.calling timer.callback timer.arg) ?_ (by simp) (by simp) (by simp)
        (List.length_set ..) (fun u => object_write_some hobject) (fun u timer₁ hu => ?_) ?_
        (fun u hu => ?_) (by simp) (fun d hd hrun => ?_)
      · refine ⟨h.running.symm.trans hrunning, hlinked, timer.deadlineNs, hat,
          Nat.le_of_not_lt hdue, fun u deadlineNs' hu harmed' => ?_⟩
        -- whoever is in the list and armed was looked at
        obtain ⟨timer₁, htimer₁⟩ := (h.alive u).mpr ⟨hu.1, fun hd => hu.2 (h.deleted u hd)⟩
        have hat' := h.armed u timer₁ htimer₁
        rw [harmed'] at hat'
        split at hat'
        next hon =>
          rw [Option.some.inj hat']
          exact hb.first u ((h.linked u).mpr hu) timer₁ htimer₁ hon
        · cases hat'
      · rw [armedAt_concat]
        rcases object_write hobject hu with ⟨rfl, rfl⟩ | ⟨hut, hu⟩
        · simp
        · rw [h.armed u timer₁ hu]
          exact if_neg (Ne.symm hut)
      · rw [runningAt_concat]
      · obtain rfl := Option.some.inj hu
        exact ⟨_, object_write_self hobject, rfl⟩
      · exact absurd (Option.some.inj hrun ▸ (h.deletes d hd).unlinked) hlinked.2

/-- It sleeps no longer than it may. -/
theorem serveLocked_awake (hdeletes : ∀ d ∈ s.deletes, d.pc ≠ .waiting false) :
    s.serveLocked.Awake := by
  unfold TimerService.serveLocked
  cases hearliest : s.earliest with
  | none =>
    refine ⟨fun untilNs _ t ht timer htimer harmed => ?_, fun d hd hpc =>
      absurd hpc (hdeletes d hd)⟩
    have hoff := (foldl_pick_none hearliest).2 t ht timer htimer
    rw [harmed] at hoff
    cases hoff
  | some b =>
    obtain ⟨t, timer⟩ := b
    dsimp only
    split
    · refine ⟨fun untilNs hpc u hu timer₁ htimer₁ harmed => ?_,
        fun d hd hpc => absurd hpc (hdeletes d hd)⟩
      have huntil : some timer.deadlineNs = untilNs := by
        injection hpc
      exact ⟨timer.deadlineNs, huntil.symm,
        (foldl_pick_some hearliest).first u hu timer₁ htimer₁ harmed⟩
    · exact ⟨by simp, fun d hd hpc => absurd hpc (hdeletes d hd)⟩

theorem Core.start (h : s.Core) (ht : s.object t = some timer) :
    (s.start freq t timer delayMs).Core := by
  unfold TimerService.start
  split
  · exact h
  · have halive := (h.alive t).mp ⟨timer, ht⟩
    exact (h.noteWrite (e := .started t _) { timer with deadlineNs := _, armed := true } ht rfl rfl
      halive (.inl ⟨rfl, rfl⟩)).broadcast

theorem Core.stop (h : s.Core) (ht : s.object t = some timer) : (s.stop t timer).Core := by
  refine h.noteWrite { timer with armed := false } ht rfl rfl ?_ (.inr ⟨⟨_, rfl⟩, rfl⟩)
  show timer.armed = (armedAt s.log t).isSome
  rw [h.armed t timer ht]
  cases timer.armed <;> rfl

/-- The callback returns, up to the broadcast. -/
theorem Core.returned (h : s.Core) (ht : s.running = some t) :
    Core { s with running := none, pc := .starting, log := s.log ++ [.finished t] } := by
  refine h.note s.heap none .starting (h.running.symm.trans ht) (by simp) (by simp) (by simp) rfl
    (fun _ => Iff.rfl) (fun u timer hu => ?_) ?_ (by simp) (by simp) (by simp)
  · rw [armedAt_concat]
    exact h.armed u timer hu
  · rw [runningAt_concat]

theorem Core.refused (h : s.Core) (hwhy : t ∉ s.timers ∨ s.running = some t) :
    Core { s with log := s.log ++ [.refused t] } := by
  refine h.note s.heap s.running s.pc ?_ (by simp) (by simp)
    (by simp) rfl (fun _ => Iff.rfl) (fun u timer hu => ?_) ?_ h.calling h.idle fun _ _ h => h
  · rcases hwhy with hnot | hrun
    · exact .inl fun hlinked => hnot ((h.linked t).mpr hlinked)
    · exact .inr (h.running.symm.trans hrun)
  · rw [armedAt_concat]
    exact h.armed u timer hu
  · rw [runningAt_concat]
    exact h.running

/-- The objects after one was made. -/
theorem object_create : (s.create callback arg).object u =
    if u = s.heap.length then some { callback, arg } else s.object u := by
  show ((s.heap ++ [_])[u]?).join = _
  rcases Nat.lt_trichotomy u s.heap.length with hlt | rfl | hgt
  · rw [List.getElem?_append_left hlt, if_neg (Nat.ne_of_lt hlt)]
    rfl
  · rw [List.getElem?_concat_length, if_pos rfl]
    rfl
  · rw [List.getElem?_eq_none (by simp; omega), if_neg (by omega)]
    unfold object
    rw [List.getElem?_eq_none (by omega)]

theorem armedAt_eq_none {log : List TimerEvent} (h : ∀ e ∈ log, ∀ ns, e ≠ .started t ns) :
    armedAt log t = none := by
  induction log using List.reverseRecOn with
  | nil => rfl
  | append_singleton log e ih =>
    have hlog := ih fun f hf => h f (List.mem_append_left _ hf)
    rw [armedAt_concat]
    cases e with
    | started u ns =>
      by_cases hut : u = t
      · subst hut
        exact absurd rfl (h _ (List.mem_append_right _ (List.mem_singleton_self _)) ns)
      · exact (if_neg hut).trans hlog
    | stopped u _ | called u _ =>
      by_cases hut : u = t
      · exact if_pos hut
      · exact (if_neg hut).trans hlog
    | _ => exact hlog

/-- A timer that was not made yet was not started. -/
theorem Core.unarmed (h : s.Core) : armedAt s.log s.heap.length = none := by
  refine armedAt_eq_none fun e he ns heq => ?_
  obtain ⟨before, hbefore, hright⟩ := h.right_of_mem he
  rw [heq] at hright
  exact Nat.lt_irrefl _ ((h.created _).mp (hbefore _ hright.1))

theorem Core.create (h : s.Core) : (s.create callback arg).Core := by
  have hnew : ∀ f : TimerEvent, f ≠ .created s.heap.length →
      (f ∈ s.log ++ [.created s.heap.length] ↔ f ∈ s.log) := by
    intro f hf
    rw [List.mem_append, List.mem_singleton]
    exact or_iff_left hf
  have hunlinked : .unlinked s.heap.length ∉ s.log := fun hmem =>
    Nat.lt_irrefl _ (h.unlinked_lt hmem)
  have hundeleted : .deleted s.heap.length ∉ s.log := fun hmem => hunlinked (h.deleted _ hmem)
  have hcreated : ∀ u, u ≠ s.heap.length →
      (.created u ∈ s.log ++ [.created s.heap.length] ↔ .created u ∈ s.log) :=
    fun u hu => hnew _ (by simpa using hu)
  have hrun : runningAt (s.log ++ [.created s.heap.length]) = runningAt s.log := by
    rw [runningAt_concat]
  refine
    { nodup := List.nodup_cons.mpr ⟨fun hmem => ?_, h.nodup⟩
      linked := fun u => ?_
      created := fun u => ?_
      alive := fun u => ?_
      armed := fun u timer hu => ?_
      running := h.running.trans hrun.symm
      calling := fun u hu => ?_
      idle := h.idle
      deletes := fun d hd => ?_
      alone := h.alone
      right := h.right.concat fun hmem => Nat.lt_irrefl _ ((h.created _).mp hmem) }
  · exact Nat.lt_irrefl _ ((h.created _).mp ((h.linked _).mp hmem).1)
  · show u ∈ s.heap.length :: s.timers ↔ _ ∈ s.log ++ _ ∧ _ ∉ s.log ++ _
    rw [hnew (.unlinked u) (by simp), List.mem_cons]
    by_cases hu : u = s.heap.length
    · subst hu
      simp [hunlinked]
    · rw [hcreated u hu, or_iff_right hu]
      exact h.linked u
  · show _ ∈ s.log ++ _ ↔ u < (s.heap ++ [_]).length
    rw [List.length_append, List.length_singleton]
    by_cases hu : u = s.heap.length
    · subst hu
      simp
    · rw [hcreated u hu, h.created u]
      omega
  · show _ ↔ _ ∈ s.log ++ _ ∧ _ ∉ s.log ++ _
    rw [object_create, hnew (.deleted u) (by simp)]
    by_cases hu : u = s.heap.length
    · subst hu
      simp [hundeleted]
    · rw [if_neg hu, hcreated u hu]
      exact h.alive u
  · show armedAt (s.log ++ _) u = _
    rw [object_create] at hu
    rw [armedAt_concat]
    split at hu
    next hlength =>
      obtain rfl := Option.some.inj hu
      rw [hlength]
      exact h.unarmed
    · exact h.armed u timer hu
  · obtain ⟨timer, htimer, hpc⟩ := h.calling u hu
    refine ⟨timer, ?_, hpc⟩
    rw [object_create, if_neg (Nat.ne_of_lt (object_lt htimer))]
    exact htimer
  · have hd' := h.deletes d hd
    exact
      { unlinked := (hnew _ (by simp)).mpr hd'.unlinked
        waiting := fun woken hpc => ⟨fun hmem =>
          (hd'.waiting woken hpc).1 ((hnew _ (by simp)).mp hmem),
          (hd'.waiting woken hpc).2⟩
        unlocked := fun hpc => ⟨fun hmem => (hd'.unlocked hpc).1 ((hnew _ (by simp)).mp hmem),
          (hd'.unlocked hpc).2⟩
        deleted := fun hpc => (hnew _ (by simp)).mpr (hd'.deleted hpc) }

/-- Only the one call deletes the timer. -/
theorem Core.unclaimed (h : s.Core) (ht : t ∈ s.timers) :
    s.deletes.countP (fun d => d.timer = t) = 0 := by
  refine List.countP_eq_zero.mpr fun d hd heq => ?_
  have hunlinked := (h.deletes d hd).unlinked
  rw [show d.timer = t by simpa using heq] at hunlinked
  exact ((h.linked t).mp ht).2 hunlinked

/-- `TelOsTimerDelete` takes the timer out of the list. -/
theorem Core.unlink (h : s.Core) (ht : t ∈ s.timers)
    (hservice : ¬ (s.running = some t ∧ byService = true)) :
    Core { s with
      timers := s.timers.erase t
      deletes := s.deletes ++ [{
        timer := t, byService
        pc := if s.running = some t then .waiting false else .unlocked }]
      log := s.log ++ [.unlinked t] } := by
  have hlinked := (h.linked t).mp ht
  have hundeleted : .deleted t ∉ s.log := fun hmem => hlinked.2 (h.deleted t hmem)
  have hnew : ∀ f : TimerEvent, f ≠ .unlinked t →
      (f ∈ s.log ++ [.unlinked t] ↔ f ∈ s.log) := by
    intro f hf
    rw [List.mem_append, List.mem_singleton]
    exact or_iff_left hf
  have hrun : runningAt (s.log ++ [.unlinked t]) = runningAt s.log := by rw [runningAt_concat]
  refine
    { nodup := h.nodup.erase t
      linked := fun u => ?_
      created := fun u => (hnew _ (by simp)).trans (h.created u)
      alive := fun u => ?_
      armed := fun u timer hu => ?_
      running := h.running.trans hrun.symm
      calling := h.calling
      idle := h.idle
      deletes := fun d hd => ?_
      alone := fun u => ?_
      right := h.right.concat hlinked }
  · show u ∈ s.timers.erase t ↔ _ ∈ s.log ++ _ ∧ _ ∉ s.log ++ _
    rw [h.nodup.mem_erase_iff, hnew (.created u) (by simp)]
    by_cases hut : u = t
    · subst hut
      simp
    · rw [hnew (.unlinked u) (by simpa using hut), h.linked u]
      exact and_iff_right hut
  · show _ ↔ _ ∈ s.log ++ _ ∧ _ ∉ s.log ++ _
    rw [hnew (.created u) (by simp), hnew (.deleted u) (by simp)]
    exact h.alive u
  · show armedAt (s.log ++ _) u = _
    rw [armedAt_concat]
    exact h.armed u timer hu
  · rcases List.mem_append.mp hd with hd | hd
    · have hd' := h.deletes d hd
      exact
        { unlinked := List.mem_append_left _ hd'.unlinked
          waiting := fun woken hpc =>
            ⟨fun hmem => (hd'.waiting woken hpc).1 ((hnew _ (by simp)).mp hmem),
              (hd'.waiting woken hpc).2⟩
          unlocked := fun hpc =>
            ⟨fun hmem => (hd'.unlocked hpc).1 ((hnew _ (by simp)).mp hmem), (hd'.unlocked hpc).2⟩
          deleted := fun hpc => (hnew _ (by simp)).mpr (hd'.deleted hpc) }
    · obtain rfl := List.mem_singleton.mp hd
      have hundeleted' : .deleted t ∉ s.log ++ [.unlinked t] := fun hmem =>
        hundeleted ((hnew _ (by simp)).mp hmem)
      refine ⟨List.mem_append_right _ (List.mem_singleton_self _), fun woken hpc => ?_,
        fun hpc => ?_, fun hpc => ?_⟩
      · refine ⟨hundeleted', ?_⟩
        by_contra hbyService
        rw [Bool.not_eq_false] at hbyService
        by_cases hrunning : s.running = some t
        · exact hservice ⟨hrunning, hbyService⟩
        · simp [hrunning] at hpc
      · refine ⟨hundeleted', fun hrunning => ?_⟩
        dsimp only at hpc hrunning
        rw [if_pos hrunning] at hpc
        cases hpc
      · dsimp only at hpc
        split at hpc <;> cases hpc
  · show (s.deletes ++ [_]).countP _ ≤ 1
    rw [List.countP_append]
    by_cases hut : t = u
    · subst hut
      rw [h.unclaimed ht]
      simp
    · simpa [hut] using h.alone u

/-- A call of `TelOsTimerDelete` is put at another place. -/
theorem alone_set {pc : TimerDeletePc} (h : s.Core) (hi : s.deletes[i]? = some d) (t : Nat) :
    (s.deletes.set i { d with pc }).countP (fun d => d.timer = t) ≤ 1 := by
  have hcount := Agents.countP_set_add (fun d : TimerDelete =>
    decide (d.timer = t)) { d with pc } hi
  have halone := h.alone t
  dsimp only at hcount
  omega

/-- It leaves `pthread_cond_wait`. -/
theorem Core.deleteWakes (h : s.Core) (hi : s.deletes[i]? = some d) {woken : Bool}
    (hpc : d.pc = .waiting woken) :
    Core { s with deletes := s.deletes.set i { d with
      pc := if s.running = some d.timer then .waiting false else .unlocked } } := by
  have hd := h.deletes d (List.mem_of_getElem? hi)
  refine { h with
    deletes := fun e he => ?_
    alone := alone_set h hi }
  obtain ⟨k, hk⟩ := List.mem_iff_getElem?.mp he
  rcases Agents.of_getElem?_set hk with ⟨-, rfl⟩ | ⟨-, hk⟩
  · refine ⟨hd.unlinked, fun _ _ => hd.waiting woken hpc, fun hunlocked => ?_, fun hdone => ?_⟩
    · refine ⟨(hd.waiting woken hpc).1, fun hrunning => ?_⟩
      dsimp only at hunlocked hrunning
      rw [if_pos hrunning] at hunlocked
      cases hunlocked
    · dsimp only at hdone
      split at hdone <;> cases hdone
  · have he' := h.deletes e (List.mem_of_getElem? hk)
    exact ⟨he'.unlinked, he'.waiting, he'.unlocked, he'.deleted⟩

/-- It deletes the object. -/
theorem Core.deletes_object (h : s.Core) (hi : s.deletes[i]? = some d) (hpc : d.pc = .unlocked) :
    Core { s with
      heap := s.heap.set d.timer none
      deletes := s.deletes.set i { d with pc := .deleted }
      log := s.log ++ [.deleted d.timer] } := by
  have hd := h.deletes d (List.mem_of_getElem? hi)
  have hnew : ∀ f : TimerEvent, f ≠ .deleted d.timer →
      (f ∈ s.log ++ [.deleted d.timer] ↔ f ∈ s.log) := by
    intro f hf
    rw [List.mem_append, List.mem_singleton]
    exact or_iff_left hf
  have hrun : runningAt (s.log ++ [.deleted d.timer]) = runningAt s.log := by
    rw [runningAt_concat]
  have hlt := h.unlinked_lt hd.unlinked
  have hself : (s.heap.set d.timer none)[d.timer]?.join = none := by
    rw [List.getElem?_set_self hlt]
    rfl
  have hother : ∀ u, u ≠ d.timer → (s.heap.set d.timer none)[u]?.join = s.object u := by
    intro u hu
    rw [List.getElem?_set_ne (Ne.symm hu)]
    rfl
  refine
    { nodup := h.nodup
      linked := fun u => (h.linked u).trans (linked_concat (by simp) (by simp)).symm
      created := fun u => ?_
      alive := fun u => ?_
      armed := fun u timer hu => ?_
      running := h.running.trans hrun.symm
      calling := fun u hu => ?_
      idle := h.idle
      deletes := fun e he => ?_
      alone := alone_set h hi
      right := h.right.concat ⟨hd.unlinked, (hd.unlocked hpc).1, fun hrunning =>
        (hd.unlocked hpc).2 (h.running.trans hrunning)⟩ }
  · show _ ∈ s.log ++ _ ↔ u < (s.heap.set _ _).length
    rw [hnew _ (by simp), List.length_set]
    exact h.created u
  · show (∃ timer, (s.heap.set d.timer none)[u]?.join = some timer) ↔ _ ∈ s.log ++ _ ∧
      _ ∉ s.log ++ _
    rw [hnew (.created u) (by simp)]
    by_cases hu : u = d.timer
    · subst hu
      rw [hself]
      simp
    · rw [hother u hu, hnew (.deleted u) (by simpa using hu)]
      exact h.alive u
  · show armedAt (s.log ++ _) u = _
    rw [armedAt_concat]
    by_cases hut : u = d.timer
    · subst hut
      cases hself.symm.trans hu
    · exact h.armed u timer ((hother u hut).symm.trans hu)
  · obtain ⟨timer, htimer, hcalling⟩ := h.calling u hu
    refine ⟨timer, (hother u fun hut => ?_).trans htimer, hcalling⟩
    exact (hd.unlocked hpc).2 (hut ▸ hu)
  · obtain ⟨k, hk⟩ := List.mem_iff_getElem?.mp he
    rcases Agents.of_getElem?_set hk with ⟨-, rfl⟩ | ⟨hki, hk⟩
    · exact ⟨List.mem_append_left _ hd.unlinked, by simp, by simp, fun _ =>
        List.mem_append_right _ (List.mem_singleton_self _)⟩
    · -- another call deletes another timer
      have hne : e.timer ≠ d.timer := by
        have hnot := Agents.not_of_countP_le_one (h.alone d.timer) hi (by simp) hk hki
        simpa using hnot
      have hsame : .deleted e.timer ∈ s.log ++ [.deleted d.timer] ↔ .deleted e.timer ∈ s.log :=
        hnew _ (by simpa using hne)
      have he' := h.deletes e (List.mem_of_getElem? hk)
      exact
        { unlinked := List.mem_append_left _ he'.unlinked
          waiting := fun woken hw =>
            ⟨fun hmem => (he'.waiting woken hw).1 (hsame.mp hmem), (he'.waiting woken hw).2⟩
          unlocked := fun hw => ⟨fun hmem => (he'.unlocked hw).1 (hsame.mp hmem),
            (he'.unlocked hw).2⟩
          deleted := fun hw => hsame.mpr (he'.deleted hw) }

/-! ## Every run -/

/-- What holds of the timers at any time. -/
structure Inv (s : TimerService) : Prop where
  core : s.Core
  awake : s.Awake

theorem Inv.init : Inv {} where
  core :=
    { nodup := List.nodup_nil
      linked := by simp [Linked]
      created := by simp
      alive := by simp [object]
      armed := by simp [object]
      running := rfl
      calling := by simp
      idle := by simp
      deletes := by simp
      alone := by simp
      right := Journal.justified_nil }
  awake := ⟨by simp, by simp⟩

theorem Inv.delete (h : s.Inv) : (s.delete t byService).Inv := by
  unfold TimerService.delete
  split
  next hself => exact ⟨h.core.refused (.inr hself.1), h.awake.service, h.awake.deletes⟩
  next hservice =>
    split
    next hnot => exact ⟨h.core.refused (.inl hnot), h.awake.service, h.awake.deletes⟩
    next hmem =>
      have ht : t ∈ s.timers := by simpa using hmem
      refine ⟨h.core.unlink ht hservice, fun untilNs hpc u hu => ?_, fun d hd hpc => ?_⟩
      · exact h.awake.service untilNs hpc u (List.mem_of_mem_erase hu)
      · rcases List.mem_append.mp hd with hd | hd
        · exact h.awake.deletes d hd hpc
        · obtain rfl := List.mem_singleton.mp hd
          by_contra hrunning
          simp [hrunning] at hpc

theorem Inv.deleteStep (h : s.Inv) (hi : s.deletes[i]? = some d)
    (hstep : s.deleteStep i d = some s') : s'.Inv := by
  unfold TimerService.deleteStep at hstep
  have hothers : ∀ e : TimerDelete, (e.pc = .waiting false → s.running = some e.timer) →
      e.timer = d.timer → ∀ e' ∈ s.deletes.set i e, e'.pc = .waiting false →
        s.running = some e'.timer := by
    intro e he _ e' he' hpc
    obtain ⟨k, hk⟩ := List.mem_iff_getElem?.mp he'
    rcases Agents.of_getElem?_set hk with ⟨-, rfl⟩ | ⟨-, hk⟩
    · exact he hpc
    · exact h.awake.deletes e' (List.mem_of_getElem? hk) hpc
  split at hstep
  next woken hpc =>
    obtain rfl := Option.some.inj hstep
    refine ⟨h.core.deleteWakes hi hpc, h.awake.service, hothers _ (fun hw => ?_) rfl⟩
    by_contra hrunning
    simp [hrunning] at hw
  next hpc =>
    obtain rfl := Option.some.inj hstep
    refine ⟨h.core.deletes_object hi hpc, fun untilNs hw u hu timer htimer =>
      ?_, hothers _ (by simp) rfl⟩
    refine h.awake.service untilNs hw u hu timer ?_
    have hne : d.timer ≠ u := by
      rintro rfl
      exact ((h.core.linked _).mp hu).2 (h.core.deletes d (List.mem_of_getElem? hi)).unlinked
    have hobject : ((s.heap.set d.timer none)[u]?).join = some timer := htimer
    rw [List.getElem?_set_ne hne] at hobject
    exact hobject
  · cases hstep

theorem Inv.serve (h : s.Inv) (hrunning : s.running = none) : s.serveLocked.Inv :=
  ⟨h.core.serveLocked hrunning, serveLocked_awake fun d hd hpc => by
    have hrun := h.awake.deletes d hd hpc
    rw [hrunning] at hrun
    cases hrun⟩

/-- **Every step keeps the invariant.** -/
theorem Inv.step (h : s.Inv) (hstep : s.step? freq a = some s') : s'.Inv := by
  cases a with
  | pass ns =>
    obtain rfl := Option.some.inj hstep
    exact ⟨{ h.core with deletes := fun d hd =>
      have hd' := h.core.deletes d hd
      ⟨hd'.unlinked, hd'.waiting, hd'.unlocked, hd'.deleted⟩ }, h.awake.service, h.awake.deletes⟩
  | create callback arg =>
    obtain rfl := Option.some.inj hstep
    refine ⟨h.core.create, fun untilNs hpc u hu timer htimer harmed => ?_, h.awake.deletes⟩
    rw [object_create] at htimer
    split at htimer
    · obtain rfl := Option.some.inj htimer
      cases harmed
    next hold =>
      exact h.awake.service untilNs hpc u (List.mem_of_ne_of_mem hold hu) timer htimer harmed
  | start t delayMs =>
    obtain ⟨timer, ht, rfl⟩ := Option.map_eq_some_iff.mp hstep
    refine ⟨h.core.start ht, ?_⟩
    unfold TimerService.start
    split
    · exact h.awake
    · exact ⟨broadcast_awake.service, broadcast_awake.deletes⟩
  | stop t =>
    obtain ⟨timer, ht, rfl⟩ := Option.map_eq_some_iff.mp hstep
    refine ⟨h.core.stop ht, fun untilNs hpc u hu timer₁ htimer₁ harmed => ?_, h.awake.deletes⟩
    rcases object_write ht htimer₁ with ⟨-, rfl⟩ | ⟨-, htimer₁⟩
    · cases harmed
    · exact h.awake.service untilNs hpc u hu timer₁ htimer₁ harmed
  | delete t byService =>
    simp only [step?] at hstep
    split at hstep
    · cases hstep
    · obtain rfl := Option.some.inj hstep
      exact h.delete
  | deleteStep i =>
    obtain ⟨d, hi, hdelete⟩ := Option.bind_eq_some_iff.mp hstep
    exact h.deleteStep hi hdelete
  | serve =>
    simp only [step?] at hstep
    split at hstep
    · cases hstep
    all_goals
      next hpc =>
        obtain rfl := Option.some.inj hstep
        refine h.serve ?_
        by_contra hrunning
        obtain ⟨t, ht⟩ := Option.ne_none_iff_exists'.mp hrunning
        obtain ⟨timer, -, hcalling⟩ := h.core.calling t ht
        rw [hpc] at hcalling
        cases hcalling
  | finish =>
    simp only [step?] at hstep
    split at hstep
    · cases hstep
    next t ht =>
      split at hstep
      · cases hstep
      · obtain rfl := Option.some.inj hstep
        exact Inv.serve ⟨(h.core.returned ht).broadcast, broadcast_awake⟩ rfl

theorem reachable_inv (hs : Reachable freq s) : s.Inv :=
  hs.invariant (by
    rintro s rfl
    exact Inv.init) fun _ _ h ⟨_, hstep⟩ => h.step hstep

/-- The thread is awake, or its time is up. -/
def Rouses (s : TimerService) : Prop :=
  match s.pc with
  | .starting => True
  | .waiting untilNs woken => woken = true ∨ ∃ ns ∈ untilNs, ns ≤ s.now
  | .calling .. => False

/-- **Nobody waits in vain.** -/
structure Lively (freq : BitVec 32) (s : TimerService) : Prop where
  /-- Once a timer of the list is due, the thread stirs by itself as soon as no callback runs, and
  calls one. -/
  due : ∀ t ∈ s.timers, ∀ timer, s.object t = some timer → timer.armed = true →
    timer.deadlineNs ≤ s.now → s.running = none → s.Rouses ∧ ∃ s' u, s.step? freq .serve = some s' ∧
      s'.running = some u
  /-- A call of `TelOsTimerDelete` sleeps only while the callback of its timer runs. -/
  sleeps : ∀ d ∈ s.deletes, d.pc = .waiting false → s.running = some d.timer
  /-- What was called in a callback does not wait for it. -/
  within : ∀ d ∈ s.deletes, d.byService = true → ∀ woken, d.pc ≠ .waiting woken
  /-- The timers of the list are there, and the one whose callback runs. -/
  objects : ∀ t, t ∈ s.timers ∨ s.running = some t → ∃ timer, s.object t = some timer

/-- The thread calls the earliest timer. -/
theorem serveLocked_running (hmem : t ∈ s.timers) (ht : s.object t = some timer)
    (harmed : timer.armed = true) (hdue : timer.deadlineNs ≤ s.now) :
    ∃ u, s.serveLocked.running = some u := by
  unfold serveLocked
  cases hearliest : s.earliest with
  | none =>
    have hoff := (foldl_pick_none hearliest).2 t hmem timer ht
    rw [harmed] at hoff
    cases hoff
  | some b =>
    have hle := (foldl_pick_some hearliest).first t hmem timer ht harmed
    obtain ⟨u, timer'⟩ := b
    dsimp only
    rw [if_neg (Nat.not_lt.mpr (Nat.le_trans hle hdue))]
    exact ⟨u, rfl⟩

theorem Inv.lively (h : s.Inv) : s.Lively freq where
  due t hmem timer ht harmed hdue hrunning := by
    obtain ⟨u, hu⟩ := serveLocked_running hmem ht harmed hdue
    unfold Rouses
    cases hpc : s.pc with
    | starting => exact ⟨trivial, _, u, by simp [step?, hpc], hu⟩
    | waiting untilNs woken =>
      refine ⟨?_, _, u, by simp [step?, hpc], hu⟩
      cases woken with
      | true => exact .inl rfl
      | false =>
        obtain ⟨ns, huntil, hle⟩ := h.awake.service untilNs hpc t hmem timer ht harmed
        exact .inr ⟨ns, huntil, Nat.le_trans hle hdue⟩
    | calling callback arg => exact absurd hpc (h.core.idle hrunning callback arg)
  sleeps := h.awake.deletes
  within d hd hbyService woken hpc := by
    have hnot := ((h.core.deletes d hd).waiting woken hpc).2
    rw [hbyService] at hnot
    cases hnot
  objects t ht := by
    rcases ht with ht | ht
    · have hlinked := (h.core.linked t).mp ht
      exact (h.core.alive t).mpr ⟨hlinked.1, fun hmem => hlinked.2 (h.core.deleted t hmem)⟩
    · obtain ⟨timer, htimer, -⟩ := h.core.calling t ht
      exact ⟨timer, htimer⟩

/-- After `TelOsTimerDelete` has returned `OK` nothing is heard of the timer. -/
theorem Core.silent (h : s.Core) {before after : List TimerEvent}
    (hlog : s.log = before ++ .deleted t :: after) (now : Nat) : .called t now ∉ after := by
  intro hmem
  obtain ⟨mid, rest, rfl⟩ := List.append_of_mem hmem
  have hdeleted := h.right before (.deleted t) _ hlog
  have hcalled := h.right (before ++ .deleted t :: mid) (.called t now) rest (by simp [hlog])
  exact hcalled.2.1.2 (List.mem_append_left _ hdeleted.1)

end TimerService

/-- **The timers of the host**: whatever the order of the calls, of their steps and of the thread's,
each event of the log is right after those before it.  So callbacks come one at a time, in the order
of their deadlines, none before its deadline and none without a start of its own, and a timer is
stopped exactly if it was armed; and what runs is the callback of the timer with its argument. -/
theorem posixTimers_right (freq : BitVec 32) (s : TimerService)
    (hs : TimerService.Reachable freq s) :
    Journal.Justified (fun log e => e.Right log) s.log ∧ s.running = runningAt s.log ∧
      ∀ t, s.running = some t →
        ∃ timer, s.object t = some timer ∧ s.pc = .calling timer.callback timer.arg :=
  have h := TimerService.reachable_inv hs
  ⟨h.core.right, h.core.running, h.core.calling⟩

/-- Steps of the host's timers, at a hundred ticks a second; no step, where one cannot be taken. -/
def TimerService.run (as : List TimerService.Act) : TimerService :=
  (as.foldlM (fun s a => TimerService.step? 100#32 a s) {}).getD {}

theorem TimerService.reachable_run (as : List TimerService.Act) :
    TimerService.Reachable 100#32 (TimerService.run as) := by
  have hinit : TimerService.Reachable 100#32 {} := .start rfl
  unfold TimerService.run
  cases h : as.foldlM (fun s a => TimerService.step? 100#32 a s) {} with
  | none => exact hinit
  | some s => exact hinit.foldlM h

/-- A timer is started and called, and is deleted while it is. -/
def TimerService.deletedWhileCalled : List TimerService.Act :=
  [.create 7 9, .start 0 25#32, .serve, .pass 30000000, .serve, .delete 0 false, .deleteStep 0,
    .finish, .deleteStep 0, .deleteStep 0]

/-- It is called once it is due. -/
theorem posixTimers_right_called : ∃ s : TimerService,
    Journal.Justified (fun log e => e.Right log) s.log ∧
      s.log = [.created 0, .started 0 30000000, .called 0 30000000, .unlinked 0, .finished 0,
        .deleted 0] :=
  ⟨_, (posixTimers_right 100#32 _ (TimerService.reachable_run TimerService.deletedWhileCalled)).1, by decide⟩

/-- **A timer that was deleted keeps silent**: once `TelOsTimerDelete` has returned `OK`, its
callback does not run, and is not called any more. -/
theorem deleted_timer_silent (freq : BitVec 32) (s : TimerService)
    (hs : TimerService.Reachable freq s) (t : Nat) (before after : List TimerEvent)
    (hlog : s.log = before ++ .deleted t :: after) :
    runningAt before ≠ some t ∧ (∀ now, .called t now ∉ after) ∧ s.running ≠ some t ∧
      t ∉ s.timers ∧ s.object t = none := by
  have h := (TimerService.reachable_inv hs).core
  have hdeleted : .deleted t ∈ s.log := by
    rw [hlog]
    exact List.mem_append_right _ (List.mem_cons_self ..)
  have hnone : s.object t = none := by
    by_contra hobject
    obtain ⟨timer, htimer⟩ := Option.ne_none_iff_exists'.mp hobject
    exact ((h.alive t).mp ⟨timer, htimer⟩).2 hdeleted
  refine ⟨(h.right before _ after hlog).2.2, h.silent hlog, fun hrunning =>
    ?_, fun hmem => ?_, hnone⟩
  · obtain ⟨timer, htimer, -⟩ := h.calling t hrunning
    rw [hnone] at htimer
    cases htimer
  · exact ((h.linked t).mp hmem).2 (h.deleted t hdeleted)

/-- The call that deletes it waits for the callback. -/
theorem deleted_timer_silent_waits : ∃ s : TimerService, .deleted 0 ∈ s.log ∧
    .called 0 30000000 ∈ s.log ∧ s.running ≠ some 0 ∧ s.object 0 = none := by
  have hsilent := deleted_timer_silent 100#32 _
    (TimerService.reachable_run TimerService.deletedWhileCalled) 0
    [.created 0, .started 0 30000000, .called 0 30000000, .unlinked 0, .finished 0] [] (by decide)
  exact ⟨_, by decide, by decide, hsilent.2.2.1, hsilent.2.2.2.2⟩

/-- **Nobody waits in vain for a timer of the host**: the thread does not sleep over a deadline, and
a call of `TelOsTimerDelete` sleeps only while the callback of its timer runs. -/
theorem posixTimers_lively (freq : BitVec 32) (s : TimerService)
    (hs : TimerService.Reachable freq s) : s.Lively freq :=
  (TimerService.reachable_inv hs).lively

/-- The call that deletes a timer sleeps while it is called. -/
theorem posixTimers_lively_sleeps : ∃ s : TimerService, s.Lively 100#32 ∧ s.running = some 0 ∧
    s.deletes.map TimerDelete.pc = [.waiting false] :=
  ⟨_, posixTimers_lively 100#32 _
      (TimerService.reachable_run (TimerService.deletedWhileCalled.take 7)), by decide, by decide⟩

end CallManagerMini
