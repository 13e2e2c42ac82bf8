import CallManagerMini.DelayedTable

/-! # The table of delayed tasks in every run

In whatever order calls, loop and ticks are interleaved, however often the counter wraps, and
wherever it starts: as long as the handler runs and neither delays nor lateness are too long, the
table is in order, and every task that is accepted is run or removed, once (`table_inOrder`).
-/

namespace CallManagerMini.LosEventHandler

variable {config : Config} {s s' s₁ : LosEventHandler} {i : Nat} {c c' : Call} {a : Act}
  {agenda : Agenda}

/-! ## The loop -/

/-- **What `RunDueTasks` takes out is to be run**, the rest stays in order. -/
theorem Ordered.takeDue (h : s.Ordered agenda) (hpc : s.loop = .runDue) :
    Ordered agenda (s.takeDueLocked config) := by
  obtain ⟨t, -, heq⟩ := takeDueLocked_eq config s
  rw [heq]
  have hsub : ∀ entry ∈ s.delayed.dropWhile fun entry => isDue entry.dueTick s.tickCount,
      entry ∈ s.delayed := fun entry hentry => List.dropWhile_subset _ hentry
  refine
    { h with
      entries := fun entry hentry => h.entries entry (hsub entry hentry)
      near := fun entry hentry => h.near entry (hsub entry hentry)
      late := fun entry hentry => h.late entry (hsub entry hentry)
      sorted := h.sorted.sublist (List.dropWhile_sublist _)
      once := fun j hj => ?_ }
  have honce := h.once j hj
  have hcount : (s.delayed.countP fun entry => entry.call = j) =
      ((s.delayed.takeWhile fun entry => isDue entry.dueTick s.tickCount).map
        DelayedTask.call).count j +
      ((s.delayed.dropWhile fun entry => isDue entry.dueTick s.tickCount).countP
        fun entry => entry.call = j) := by
    conv_lhs => rw [← List.takeWhile_append_dropWhile
      (p := fun entry : DelayedTask => isDue entry.dueTick s.tickCount) (l := s.delayed)]
    rw [List.countP_append, List.count, List.countP_map]
    rfl
  unfold whereabouts at honce ⊢
  rw [hpc, hcount] at honce
  simp only [LoopPc.toRun, List.count_nil] at honce ⊢
  change _ = (s.handle j).elim 0 fun _ => 1
  rw [← honce]
  change _ + _ + _ + (s.handle j).elim 0 s.removals = _
  omega

/-- A task that is run is not to be run again. -/
theorem Ordered.runDelayed (h : s.Ordered agenda) {calls : List Nat}
    (hpc : s.loop = .runDelayed (i :: calls)) :
    Ordered agenda { s.note (.ran i) with loop := .runDelayed calls } := by
  refine { h with once := fun j hj => ?_ }
  have honce := h.once j hj
  unfold whereabouts at honce ⊢
  rw [hpc] at honce
  change _ = (s.handle j).elim 0 fun _ => 1
  rw [← honce]
  change (s.delayed.countP fun entry => entry.call = j) + calls.count j +
    (s.log ++ [HandlerEvent.ran i]).count (HandlerEvent.ran j) + (s.handle j).elim 0 s.removals =
      (s.delayed.countP fun entry => entry.call = j) + (i :: calls).count j +
        s.log.count (.ran j) + (s.handle j).elim 0 s.removals
  rw [List.count_append, List.count_singleton, List.count_cons]
  simp only [beq_iff_eq, HandlerEvent.ran.injEq]
  omega

/-- A synchronous call is not in the table. -/
theorem Inv.immediate_of_sync (h : s.Inv config) (hi : 0 < s.inFlight (.syncCall i)) :
    s.Immediate i := by
  rw [h.sent i] at hi
  cases hc : s.calls[i]? with
  | none =>
    rw [holder, hc] at hi
    cases hi
  | some c =>
    refine ⟨c, hc, ?_⟩
    rw [holder, hc] at hi
    unfold Call.isDelayed
    split
    next hreq =>
      rw [Option.bind_some, hold_of_ne (by simp [hreq])] at hi
      cases hi
    · rfl

theorem inFlight_of_hand {message : LosEventMessage} (h : s.loop.hand = some message) :
    0 < s.inFlight message := by
  rw [LosEventHandler.inFlight, if_pos h]
  omega

theorem alike_completeLocked (i : Nat) (status : RetCode) (s : LosEventHandler) :
    Alike s.calls (s.completeLocked i status).calls := by
  cases hi : s.calls[i]? with
  | none =>
    have hnone : s.completeLocked i status = s := by simp only [completeLocked, hi]
    rw [hnone]
    exact .refl _
  | some c =>
    rw [completeLocked_calls hi]
    exact .set hi rfl rfl rfl

/-- **A move of the loop keeps the table in order.** -/
theorem Ordered.loop (h : s.Ordered agenda) (hinv : s.Inv config) (hstraight : s.Straight config)
    (hm : LoopMove config s s') : Ordered agenda s' := by
  -- all moves but two leave the table alone
  have hstill : ∀ {pc}, s.loop = pc → Alike s.calls s'.calls → s'.delayed = s.delayed →
      s'.lastTaskId = s.lastTaskId → s'.tick = s.tick → s'.loop.toRun = pc.toRun →
      (∀ i, ¬s'.Immediate i → s'.log.count (.ran i) = s.log.count (.ran i)) →
      Ordered agenda s' := by
    rintro pc rfl halike hdelayed hlast htick htoRun hran
    refine h.still ⟨halike, hdelayed, hlast, htick.ge, htoRun, hran⟩ ?_
    rw [hdelayed, htick]
    exact h.late
  cases hm with
  | takeDue hpc => exact h.takeDue hpc
  | runDelayed hpc => exact h.runDelayed hpc
  | wait hpc => exact hstill hpc (.refl _) rfl rfl rfl rfl fun _ _ => rfl
  | popNone hpc =>
    refine hstill hpc (.refl _) rfl rfl rfl ?_ fun _ _ => rfl
    dsimp only
    split <;> rfl
  | dispatched hpc =>
    refine hstill hpc (.refl _) rfl rfl rfl ?_ fun _ _ => rfl
    dsimp only
    split
    · rfl
    · split <;> rfl
  -- what comes through the ring is no delayed task
  | @runAsync i hpc =>
    have himm : s.Immediate i := hstraight.carried i (.inr hpc)
    refine hstill hpc (.refl _) rfl rfl rfl rfl fun j hj => ?_
    have hne : i ≠ j := fun heq => hj (heq ▸ himm)
    simp [note, hne]
  | @runSync i hpc =>
    have himm : s.Immediate i := hinv.immediate_of_sync (inFlight_of_hand (by rw [hpc]; rfl))
    refine hstill hpc (.refl _) rfl rfl rfl rfl fun j hj => ?_
    have hne : i ≠ j := fun heq => hj (heq ▸ himm)
    simp [note, hne]
  | @complete drained i status hpc =>
    have hran : ∀ j, (s.completeLocked i status).log.count (.ran j) = s.log.count (.ran j) := by
      intro j
      unfold completeLocked
      split
      · rfl
      · dsimp only
        split <;> simp [releaseWaiter, note, postWaiterSem]
    obtain ⟨calls, inUse, sems, es, -, heq⟩ := completeLocked_eq i status s
    rw [heq] at hran hstill ⊢
    exact hstill hpc (heq ▸ alike_completeLocked i status s) rfl rfl rfl
      (by cases drained <;> rfl) fun j _ => hran j
  | @recycleTimer drained hpc | @recycleAsync drained _ hpc =>
    have htoRun : (LoopPc.behind drained).toRun = [] := by cases drained <;> rfl
    exact hstill hpc (.refl _) rfl rfl rfl htoRun fun _ _ => by simp [note]
  | _ hpc => exact hstill hpc (.refl _) rfl rfl rfl rfl fun _ _ => by simp [note]

/-- The loop sends nothing. -/
theorem LoopMove.carries (hm : LoopMove config s s') {j : Nat} (h : s'.Carries j) :
    s.Carries j := by
  have hsame : s'.ring = s.ring → s'.posted = s.posted →
      (s'.loop.hand = some (.asyncTask j) → s.loop.hand = some (.asyncTask j)) →
      (s'.loop = .runAsync j → s.Carries j) → s.Carries j := by
    intro hring hposted hhand hrun
    rcases h with hflight | hloop
    · left
      rw [LosEventHandler.inFlight, hring, hposted] at hflight
      rw [LosEventHandler.inFlight]
      by_cases hnow : s'.loop.hand = some (.asyncTask j)
      · rw [if_pos (hhand hnow)]
        omega
      · rw [if_neg hnow] at hflight
        omega
    · exact hrun hloop
  cases hm with
  | pop hpc hpop | drain hpc hpop =>
    rcases h with hflight | hloop
    · exact .inl (hflight.trans_eq
        (inFlight_of_pop hpop (by rw [hpc]; rfl) (by rfl) (by rfl) (by rfl) _))
    · cases hloop
  | takeDue hpc =>
    obtain ⟨t, -, heq⟩ := takeDueLocked_eq config s
    rw [heq] at hsame
    exact hsame rfl rfl (by simp [LoopPc.hand]) (by simp)
  | @handleAsync i hpc =>
    refine hsame rfl rfl (by simp [LoopPc.hand]) fun hrun => ?_
    obtain rfl := LoopPc.runAsync.inj hrun
    exact .inl (inFlight_of_hand (by rw [hpc]; rfl))
  | popNone hpc =>
    refine hsame rfl rfl ?_ ?_ <;> dsimp only <;> split <;> simp [LoopPc.hand]
  | dispatched hpc =>
    refine hsame rfl rfl ?_ ?_ <;> dsimp only <;> split <;> try split
    all_goals simp [LoopPc.hand]
  | @complete drained i status hpc =>
    obtain ⟨calls, inUse, sems, es, -, heq⟩ := completeLocked_eq i status s
    rw [heq] at hsame
    cases drained <;> exact hsame rfl rfl (by simp [LoopPc.hand, LoopPc.behind])
      (by simp [LoopPc.behind])
  | @recycleTimer drained hpc | @recycleAsync drained _ hpc =>
    cases drained <;> exact hsame rfl rfl (by simp [LoopPc.hand, LoopPc.behind])
      (by simp [LoopPc.behind])
  | _ hpc => exact hsame rfl rfl (by simp [hpc, LoopPc.hand]) (by simp)

/-! ## The calls -/

theorem message_eq_asyncTask {j : Nat} (h : c.message i = .asyncTask j) : i = j := by
  unfold Call.message at h
  split at h
  · cases h
  · cases h
  · exact LosEventMessage.asyncTask.inj h

/-- What is noted of a step in which nobody is given a handle and the table stays. -/
theorem schedule_same (hhandle : s'.handle = s.handle) (hdelayed : s'.delayed = s.delayed) :
    schedule config a s s' agenda = agenda := by
  cases a with
  | call i choice =>
    simp only [schedule]
    rw [if_pos hdelayed, if_neg fun h => h.2 (by rw [hhandle, h.1])]
  | _ => rfl

/-- **A move of a call keeps the table in order.** -/
theorem Ordered.call {choice : Bool} (h : s.Ordered agenda) (hinv : s.Inv config)
    (hstraight : s.Straight config) (hi : s.calls[i]? = some c) (hm : CallMove config i s c s₁ c')
    (hs' : s' = { s₁ with calls := s₁.calls.set i c' })
    (hfew : (schedule config (.call i choice) s s' agenda).posts < 2 ^ 32 - 1) :
    Ordered (schedule config (.call i choice) s s' agenda) s' := by
  have hmem : c ∈ s.calls := List.mem_of_getElem? hi
  have hdirect := hstraight.direct c hmem
  have hcalls : s'.calls = s.calls.set i c' := by rw [hs', hm.frame.calls]
  have hloop : s'.loop = s.loop := by rw [hs']; exact hm.frame.loop
  have htick : s'.tick = s.tick := by rw [hs']; exact hm.tick
  have hhandle : s'.handle i = c'.handle := by
    rw [handle_set hi hcalls, Function.update_self]
  have hbefore : s.handle i = c.handle := by
    rw [handle, hi]
    rfl
  cases hm.tableMove hdirect with
  | @insert delayMs hpc hreq =>
    obtain ⟨t, heq⟩ := enterDelayed_table config i delayMs s
    have hdelayed : c.isDelayed = true := by simpa only [Call.Direct, hpc] using hdirect
    have hnone : c.handle = none := handle_of_outcome (by simp [Call.outcome, hpc])
    have hsome : (c.goto (.leaving (.ret .success s.nextTaskId))).handle = some s.nextTaskId :=
      if_pos hdelayed
    have hputOff : s.putOff config i = (delayTicks config delayMs).toNat := by
      simp [putOff, hi, hreq]
    have hticks : (delayTicks config delayMs).toNat ≤ 2 ^ 30 := by
      rw [delayTicks_eq config (by simpa [Call.isDelayed, hreq] using hdelayed)]
      exact hstraight.short c hmem delayMs hreq
    have htable : s'.delayed = before (s.tickCount + delayTicks config delayMs) s.delayed ++
        s.newEntry config i delayMs :: s.delayed.drop (s.newPlace config delayMs) := by
      rw [hs', heq]
    -- the schedule notes a post by the change of the table
    have hlonger : s'.delayed ≠ s.delayed := by
      intro hsame
      have hlength := congrArg List.length (htable.symm.trans hsame)
      have hsplit := congrArg List.length
        (before_append_drop (s.tickCount + delayTicks config delayMs) s.delayed)
      simp only [List.length_append, List.length_cons, newPlace] at hlength hsplit
      omega
    have hnoted : schedule config (.call i choice) s s' agenda =
        (agenda.enter i (s.tick + (delayTicks config delayMs).toNat)).change i := by
      simp only [schedule]
      rw [if_neg hlonger, if_pos ⟨hbefore.trans hnone, by rw [hhandle, hsome]; simp⟩, hputOff]
    rw [hnoted] at hfew ⊢
    exact h.insert rfl hticks hfew hi hcalls rfl hnone hsome
      (removed_of_outcome (by simp [Call.outcome, hpc]))
        (removed_of_outcome (by simp [Call.outcome]))
      hdelayed htable (by rw [hs', heq]) htick hloop (by rw [hs', heq])
  | @remove taskId k hpc hreq hk =>
    obtain ⟨t, es, -, heq⟩ := eraseDelayed_eq config k s
    have htable : s'.delayed = s.delayed.eraseIdx k := by rw [hs', heq]
    have hnone : c.handle = none := handle_of_outcome (by simp [Call.outcome, hpc])
    have hnone' : (c.goto (.leaving (.removed true))).handle = none :=
      handle_of_outcome (by simp [Call.outcome])
    have hshorter : s'.delayed ≠ s.delayed := by
      intro hsame
      obtain ⟨hklt, -⟩ := List.findIdx?_eq_some_iff_getElem.mp hk
      have hlength := congrArg List.length (htable.symm.trans hsame)
      rw [List.length_eraseIdx, if_pos hklt] at hlength
      omega
    have hnoted : schedule config (.call i choice) s s' agenda = agenda.change i := by
      simp only [schedule]
      rw [if_neg hshorter, if_neg fun hgiven => hgiven.2 (hhandle.trans hnone')]
    rw [hnoted]
    refine h.remove hk hi hcalls rfl (hnone'.trans hnone.symm)
      (removed_of_outcome (by simp [Call.outcome, hpc]))
        (by simp [Call.removed, Call.outcome, hreq])
      htable (by rw [hs', heq]) htick hloop fun j => ?_
    rw [hs']
    dsimp only
    rw [eraseDelayed_log]
    cases s.delayed[k]? <;> simp
  | aside hdelayed hlast hsame hremoved =>
    have hdelayed' : s'.delayed = s.delayed := by rw [hs']; exact hdelayed
    have hhandles : s'.handle = s.handle := by
      rw [handle_set hi hcalls, hsame, ← hbefore, Function.update_eq_self]
    rw [schedule_same hhandles hdelayed']
    have halike : Alike s.calls s'.calls := hcalls ▸ .set hi hm.request hsame hremoved
    refine h.still ⟨halike, hdelayed', by rw [hs']; exact hlast, htick.ge, by rw [hloop], ?_⟩ ?_
    · intro j hj
      rw [hs']
      refine hm.ran (hinv.fits c hmem) ?_
      by_cases hji : j = i
      · subst hji
        right
        by_contra himm
        exact hj (halike.immediate ⟨c, hi, Bool.eq_false_of_not_eq_true himm⟩)
      · exact .inl hji
    · rw [hdelayed', htick]
      exact h.late

/-! ## The messages have nothing to do with the table -/

theorem Straight.call (h : s.Straight config) (hi : s.calls[i]? = some c)
    (hm : CallMove config i s c s₁ c') :
    Straight config { s₁ with calls := s₁.calls.set i c' } := by
  have hframe := hm.frame
  have hmem : c ∈ s.calls := List.mem_of_getElem? hi
  have hdirect := h.direct c hmem
  refine ⟨?_, fun d hd => ?_, fun d hd => ?_, fun j hj => ?_⟩
  · exact hframe.state ▸ h.unstopped
  · rcases List.mem_or_eq_of_mem_set hd with hd | rfl
    · exact h.direct d (hframe.calls ▸ hd)
    · exact hm.direct hdirect
  · rcases List.mem_or_eq_of_mem_set hd with hd | rfl
    · exact h.short d (hframe.calls ▸ hd)
    · exact fun delayMs hreq => h.short c hmem delayMs (hm.request ▸ hreq)
  · rw [immediate_set hi (by rw [hframe.calls]) hm.request]
    by_cases hown : c.message i = .asyncTask j ∧ c.isDelayed = false
    · obtain rfl := message_eq_asyncTask hown.1
      exact ⟨c, hi, hown.2⟩
    · refine h.carried j (hj.imp (fun hflight => ?_) fun hrun => hframe.loop ▸ hrun)
      refine hflight.trans_eq ?_
      by_cases hmessage : c.message i = .asyncTask j
      · refine hm.inFlight_of_delayed hdirect ?_ _
        by_contra himm
        exact hown ⟨hmessage, Bool.eq_false_of_not_eq_true himm⟩
      · exact hm.inFlight hmessage

theorem LoopMove.calls (hm : LoopMove config s s') : s'.calls = s.calls ∨
    ∃ i c status, s.calls[i]? = some c ∧ s'.calls = s.calls.set i (c.completed status) := by
  cases hm with
  | takeDue =>
    obtain ⟨t, -, heq⟩ := takeDueLocked_eq config s
    rw [heq]
    exact .inl rfl
  | @complete drained i status =>
    cases hi : s.calls[i]? with
    | none =>
      left
      simp only [completeLocked, hi]
    | some c => exact .inr ⟨i, c, status, hi, completeLocked_calls hi⟩
  | _ => exact .inl rfl

theorem Straight.loop (h : s.Straight config) (hm : LoopMove config s s') :
    Straight config s' := by
  have hunstopped : s'.state ≠ .stopping := hm.frame.state ▸ h.unstopped
  rcases hm.calls with hcalls | ⟨i, c, status, hi, hcalls⟩
  · refine ⟨hunstopped, hcalls ▸ h.direct, hcalls ▸ h.short, fun j hj => ?_⟩
    obtain ⟨c, hc, himm⟩ := h.carried j (hm.carries hj)
    exact ⟨c, by rw [hcalls, hc], himm⟩
  · have hmem : c ∈ s.calls := List.mem_of_getElem? hi
    refine ⟨hunstopped, fun d hd => ?_, fun d hd => ?_, fun j hj => ?_⟩
    · rw [hcalls] at hd
      rcases List.mem_or_eq_of_mem_set hd with hd | rfl
      · exact h.direct d hd
      · exact h.direct c hmem
    · rw [hcalls] at hd
      rcases List.mem_or_eq_of_mem_set hd with hd | rfl
      · exact h.short d hd
      · exact h.short c hmem
    · rw [immediate_set hi hcalls rfl]
      exact h.carried j (hm.carries hj)

/-- Another call comes, or none, and the rest stays. -/
theorem Straight.enter (h : s.Straight config) {calls : List Call}
    (hcalls : s'.calls = s.calls ++ calls)
    (hnew : ∀ d ∈ calls, d.Direct ∧ d.Short config) (hstate : s'.state = s.state)
    (hcarries : ∀ j, s'.Carries j → s.Carries j) : Straight config s' := by
  refine ⟨hstate ▸ h.unstopped, fun d hd => ?_, fun d hd => ?_, fun j hj => ?_⟩
  · rcases List.mem_append.mp (hcalls ▸ hd) with hd | hd
    · exact h.direct d hd
    · exact (hnew d hd).1
  · rcases List.mem_append.mp (hcalls ▸ hd) with hd | hd
    · exact h.short d hd
    · exact (hnew d hd).2
  · obtain ⟨c, hc, himm⟩ := h.carried j (hcarries j hj)
    obtain ⟨hlt, -⟩ := List.getElem?_eq_some_iff.mp hc
    exact ⟨c, by rw [hcalls, List.getElem?_append_left hlt, hc], himm⟩

theorem initialized_frame (config : Config) (s : LosEventHandler) :
    (s.initialized config).state = .running ∧ (s.initialized config).calls = s.calls ∧
      (s.initialized config).delayed = s.delayed ∧
      (s.initialized config).lastTaskId = s.lastTaskId ∧
      (s.initialized config).tick = s.tick ∧ (s.initialized config).log = s.log ++ [.started] ∧
      (s.initialized config).posted = s.posted ∧
      (((s.initialized config).ring = s.ring ∧ (s.initialized config).loop = s.loop) ∨
        config.poster = false ∧ (s.initialized config).ring = .empty (config.queueSize + 1) ∧
          (s.initialized config).loop = .bind) := by
  cases hposter : config.poster <;> simp [LosEventHandler.initialized, hposter, note]

/-- **In these steps nothing else comes to the table.** -/
theorem Straight.move (h : s.Straight config) (hinv : s.Inv config) (hm : Move config s a s')
    (htimely : Timely config a s s' agenda) : Straight config s' := by
  have hkept : s'.calls = s.calls → s'.state = s.state → (∀ j, s'.Carries j → s.Carries j) →
      Straight config s' := fun hcalls hstate hcarries =>
    h.enter (hcalls.trans (List.append_nil _).symm) (by simp) hstate hcarries
  cases hm with
  | init =>
    obtain ⟨hstate, hcalls, -, -, -, -, hposted, hrest⟩ := initialized_frame config s
    refine ⟨by simp [hstate], hcalls ▸ h.direct, hcalls ▸ h.short, fun j hj => ?_⟩
    obtain ⟨c, hc, himm⟩ : s.Immediate j := by
      refine h.carried j ?_
      rcases hrest with ⟨hring, hloop⟩ | ⟨-, hring, hloop⟩
      · unfold Carries LosEventHandler.inFlight at hj ⊢
        rwa [hring, hloop, hposted] at hj
      · refine .inl ?_
        rcases hj with hflight | hrun
        · rw [LosEventHandler.inFlight, hring, hloop, hposted, RingBuffer.toList_empty] at hflight
          rw [LosEventHandler.inFlight]
          simp only [List.count_nil, LoopPc.hand, reduceCtorEq, if_false] at hflight
          omega
        · rw [hloop] at hrun
          cases hrun
    exact ⟨c, by rw [hcalls, hc], himm⟩
  | @invoke request task =>
    refine h.enter rfl (fun d hd => ?_) rfl fun _ => id
    obtain rfl := List.mem_singleton.mp hd
    refine ⟨trivial, fun delayMs hreq => htimely.short delayMs ?_⟩
    dsimp only at hreq
    rw [hreq]
    rfl
  | expire =>
    refine h.enter rfl (fun d hd => ?_) rfl fun _ => id
    obtain rfl := List.mem_singleton.mp hd
    exact ⟨trivial, by simp [Call.Short]⟩
  | call hi hm => exact h.call hi hm
  | loop _ hm => exact h.loop hm
  | receive hposter hidle hk =>
    refine hkept rfl rfl fun j hj => ?_
    rcases hj with hflight | hrun
    · exact .inl (hflight.trans_eq (inFlight_receive hidle hk _))
    · cases hrun
  -- the schedule ends where `Stop` is called
  | callStop hs =>
    have hrunning := htimely.running hs
    cases hrunning
  | stop hm =>
    have hidle := hinv.stop_idle h.unstopped
    cases hm with
    | poll => exact h
    | giveUp hpc | waitAgain hpc => simp [hidle] at hpc
    | _ hpc =>
      rw [hidle] at hpc
      cases hpc
  | bindLoopTask | tick | nothing => exact hkept rfl rfl fun _ => id

/-! ## Every run -/

/-- **A move of the system keeps the table in order.** -/
theorem Ordered.move (h : s.Ordered agenda) (hinv : s.Inv config) (hstraight : s.Straight config)
    (hm : Move config s a s') (htimely : Timely config a s s' (schedule config a s s' agenda)) :
    Ordered (schedule config a s s' agenda) s' := by
  have hstill : Still s s' → Ordered (schedule config a s s' agenda) s' := by
    intro hstill
    have hlate := htimely.late
    rw [schedule_same (funext hstill.alike.handle) hstill.delayed] at hlate ⊢
    exact h.still hstill hlate
  cases hm with
  | init hs =>
    obtain ⟨-, hcalls, hdelayed, hlast, htick, hlog, -, hrest⟩ := initialized_frame config s
    refine hstill ⟨hcalls ▸ .refl _, hdelayed, hlast, htick.ge, ?_, fun j _ => by simp [hlog]⟩
    rcases hrest with ⟨-, hloop⟩ | ⟨hposter, -, hloop⟩
    · rw [hloop]
    · rw [hloop, hinv.noLoop (by simp [stage, hs]) hposter]
      rfl
  | invoke | expire =>
    have hnone : ∀ {request : HandlerRequest} {task : TelOsTaskId},
        Call.outcome { request := request, task := task } = none := rfl
    exact hstill ⟨.append (handle_of_outcome (by simp [hnone]))
      (removed_of_outcome (by simp [hnone])), rfl, rfl, le_rfl, rfl, fun _ _ => rfl⟩
  | call hi hm => exact h.call hinv hstraight hi hm rfl htimely.few
  | loop _ hm => exact h.loop hinv hstraight hm
  | receive hposter hidle hk =>
    exact hstill ⟨.refl _, rfl, rfl, le_rfl, by rw [hidle]; rfl, fun _ _ => rfl⟩
  | callStop hs =>
    have hrunning := htimely.running hs
    cases hrunning
  | stop hm =>
    have hidle := hinv.stop_idle hstraight.unstopped
    cases hm with
    | poll => exact hstill ⟨.refl _, rfl, rfl, le_rfl, rfl, fun _ _ => rfl⟩
    | giveUp hpc | waitAgain hpc => simp [hidle] at hpc
    | _ hpc =>
      rw [hidle] at hpc
      cases hpc
  | tick => exact hstill ⟨.refl _, rfl, rfl, Nat.le_succ _, rfl, fun _ _ => rfl⟩
  | bindLoopTask | nothing => exact hstill ⟨.refl _, rfl, rfl, le_rfl, rfl, fun _ _ => rfl⟩

theorem Ordered.step (h : s.Ordered agenda) (hinv : s.Inv config) (hstraight : s.Straight config)
    (hstep : s.step? config a = some s')
    (htimely : Timely config a s s' (schedule config a s s' agenda)) :
    Ordered (schedule config a s s' agenda) s' ∧ Straight config s' := by
  obtain ⟨me, -, rfl⟩ | ⟨l, hl, hm⟩ := step_cases hstep
  · have hnoted : schedule config a s { s with lock := some (some me) } agenda = agenda :=
      schedule_same rfl rfl
    have hordered : Ordered agenda { s with lock := some (some me) } := { h with }
    exact ⟨hnoted.symm ▸ hordered, { hstraight with }⟩
  · -- who holds the lock is not noted
    have hnoted : schedule config a { s with lock := l } s' agenda =
        schedule config a s s' agenda := by cases a <;> rfl
    have htimely' : Timely config a { s with lock := l } s'
        (schedule config a { s with lock := l } s' agenda) := by
      rw [hnoted]
      exact { htimely with }
    have hstraight' : Straight config { s with lock := l } := { hstraight with }
    have hordered : Ordered agenda { s with lock := l } := { h with }
    exact ⟨hnoted ▸ hordered.move (hinv.locked hl) hstraight' hm htimely',
      hstraight'.move (hinv.locked hl) hm htimely'⟩

/-- A handler that was constructed has an empty table. -/
theorem ordered_constructed : Ordered {} {} where
  entries := by simp
  near := by simp
  late := by simp
  sorted := .nil
  lastTaskId := rfl
  few := by decide
  handles := by simp [handle]
  orders := by simp [handle]
  removals := by simp [LosEventHandler.removals]
  once _ _ := rfl
  changers := by simp

theorem Scheduled.ordered {p : LosEventHandler × Agenda} (h : Scheduled config p) :
    Reachable config p.1 ∧ p.1.Ordered p.2 ∧ p.1.Straight config := by
  induction h with
  | start hp =>
    subst hp
    refine ⟨.start rfl, ordered_constructed, by simp, by simp, by simp, fun j hj => ?_⟩
    rcases hj with hflight | hrun
    · cases hflight
    · cases hrun
  | @next p p' _ hstep ih =>
    obtain ⟨hreach, hordered, hstraight⟩ := ih
    obtain ⟨a, hstep⟩ := hstep
    obtain ⟨s', hs', hnote⟩ := Option.bind_eq_some_iff.mp hstep
    dsimp only at hnote
    split at hnote
    next htimely =>
      obtain rfl := Option.some.inj hnote
      exact ⟨hreach.next ⟨a, hs'⟩, hordered.step (reachable_inv hreach) hstraight hs' htimely⟩
    · cases hnote

/-- What is due by the counter is due. -/
theorem Ordered.isDue_eq (h : s.Ordered agenda) {entry : DelayedTask} (hentry : entry ∈ s.delayed) :
    isDue entry.dueTick s.tickCount = decide (agenda.due entry.call ≤ s.tick) := by
  have := h.near entry hentry
  have := h.late entry hentry
  rw [(h.entries entry hentry).2]
  exact isDue_ofNat (by omega) (by omega)

theorem Ordered.inOrder (h : s.Ordered agenda) : InOrder config agenda s := by
  have hprefix : s.delayed.Pairwise fun entry entry' =>
      decide (agenda.due entry'.call ≤ s.tick) = true →
        decide (agenda.due entry.call ≤ s.tick) = true :=
    h.sorted.imp fun hbefore hdue => by
      have := hbefore.le
      simp only [decide_eq_true_eq] at hdue ⊢
      omega
  refine
    { entries := h.entries
      sorted := h.sorted
      taken := ?_
      left := ?_
      once := fun i hi => ?_
      unchanged := fun i c taskId hc hreq hout hi => ?_
      nonzero := fun i hi => ?_
      distinct := fun i j taskId => h.handle_inj }
  · rw [takeDueLocked_loop, dueTasks,
      SortedInsert.takeWhile_congr fun entry hentry => h.isDue_eq hentry,
      SortedInsert.takeWhile_eq_filter hprefix]
  · obtain ⟨t, -, heq⟩ := takeDueLocked_eq config s
    rw [heq]
    dsimp only
    rw [SortedInsert.dropWhile_congr fun entry hentry => h.isDue_eq hentry,
      SortedInsert.dropWhile_eq_filter hprefix]
    exact List.filter_congr fun entry _ => by
      rw [← decide_not]
      exact decide_eq_decide.mpr not_le
  · have himm : ¬s.Immediate i := by
      rintro ⟨c, hc, himm⟩
      rw [handle, hc] at hi
      exact hi (handle_of_immediate himm)
    obtain ⟨taskId, htask⟩ := Option.ne_none_iff_exists'.mp hi
    have honce := h.once i himm
    rwa [htask] at honce
  · obtain ⟨d, hd, hwhy⟩ := h.changers i hi
    obtain rfl := Option.some.inj (hc.symm.trans hd)
    rcases hwhy with hdelayed | hremoved
    · simp [Call.isDelayed, hreq] at hdelayed
    · exact hremoved (removed_of_outcome (by simp [hout]))
  · obtain ⟨hid, hlo, hhi⟩ := h.handles i _ hi
    have hnat := congrArg BitVec.toNat hid
    have := h.few
    rw [BitVec.toNat_ofNat, Nat.mod_eq_of_lt (by omega)] at hnat
    have hzero : telMiniInvalidTaskId.toNat = 0 := rfl
    omega

/-- **The table of delayed tasks is in order** in every state of every such run, however often the
counter has wrapped. -/
theorem table_inOrder {p : LosEventHandler × Agenda} (h : Scheduled config p) :
    InOrder config p.2 p.1 :=
  h.ordered.2.1.inOrder

/-- Several such steps. -/
def scheduledRun? (config : Config) (as : List Act) (p : LosEventHandler × Agenda) :
    Option (LosEventHandler × Agenda) :=
  as.foldlM (fun p a => scheduledStep? config a p) p

/-- Two tasks are posted, the later one to be due first.  One is run, the other one removed, and
a third remove comes too late. -/
def twoTasks : List Act :=
  List.flatten [
    [.init true, .invoke (.postAsyncTask 30#32) 1, .invoke (.postAsyncTask 10#32) 2],
    List.replicate 5 (.call 0 true), List.replicate 5 (.call 1 true), [.tick, .expire 3],
    List.replicate 6 (.call 2 true), [.receive 0], List.replicate 6 .loop,
    [.invoke (.removeAsyncTask 1#32) 4, .invoke (.removeAsyncTask 2#32) 4],
    List.replicate 5 (.call 3 true), List.replicate 5 (.call 4 true)]

theorem scheduled_run {as : List Act} {p p' : LosEventHandler × Agenda} (hp : Scheduled config p)
    (h : scheduledRun? config as p = some p') : Scheduled config p' :=
  Runs.Reachable.foldlM hp h

theorem table_inOrder_two :
    (scheduledRun? smallConfig twoTasks ({}, {})).elim False fun p =>
      (p.1.delayed = [] ∧ p.1.handle 0 = some 1#32 ∧ p.1.handle 1 = some 2#32 ∧
        p.1.removals 1#32 = 1 ∧ p.1.removals 2#32 = 0) ∧ InOrder smallConfig p.2 p.1 := by
  have hrun : (scheduledRun? smallConfig twoTasks ({}, {})).map (fun p =>
      decide (p.1.delayed = [] ∧ p.1.handle 0 = some 1#32 ∧ p.1.handle 1 = some 2#32 ∧
        p.1.removals 1#32 = 1 ∧ p.1.removals 2#32 = 0)) = some true := by decide +kernel
  obtain ⟨p, hp, hboth⟩ := Option.map_eq_some_iff.mp hrun
  rw [hp]
  exact ⟨of_decide_eq_true hboth, table_inOrder (scheduled_run (.start rfl) hp)⟩

end CallManagerMini.LosEventHandler
