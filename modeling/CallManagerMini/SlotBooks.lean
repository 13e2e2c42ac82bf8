import CallManagerMini.TaskCustody

/-! # The books of the waiter slots

A caller of `PostSyncTask` waits at a slot it has acquired; the slot is given back by the caller
when it goes on, or by `Complete` when the caller has given up.  Both are noted, and at any time
the calls that hold a slot are those of which more was noted that they acquired it than that it was
given back (`reachable_booked`).
-/

namespace CallManagerMini

open SlotPool (Phase)

/-- The waiter slot it holds. -/
def Call.slot (c : Call) : Option Nat := c.hold.map Prod.fst

/-- It may still acquire a slot. -/
def Call.mayAcquire (c : Call) : Bool :=
  match c.pc with
  | .called | .counted | .onLoop | .acquire => true
  | _ => false

/-- The call `i` acquires a slot. -/
def HandlerEvent.acquiredBy (i : Nat) : HandlerEvent → Bool
  | .acquired j _ => i = j
  | _ => false

namespace LosEventHandler

variable {config : Config} {s s' s₁ : LosEventHandler} {i k : Nat} {c c' : Call} {a : Act}

/-! ## What is noted of the slots -/

/-- The slot the call `i` holds. -/
def slotOf (s : LosEventHandler) (i : Nat) : Option Nat := (s.holder i).map Prod.fst

/-- What the calls were asked for. -/
def requests (s : LosEventHandler) : List HandlerRequest := s.calls.map Call.request

/-- What was noted of the slots tells who holds them. -/
structure Booked (s : LosEventHandler) : Prop where
  books : ∀ i k, s.log.count (.acquired i k) =
    s.log.count (.released i k) + if s.slotOf i = some k then 1 else 0
  once : Agents.Once s.calls Call.mayAcquire fun i => s.log.countP (HandlerEvent.acquiredBy i)
  /-- Only a synchronous call acquires a slot. -/
  acquirers : ∀ i k, .acquired i k ∈ s.log →
    ∃ timeoutMs, s.requests[i]? = some (.postSyncTask timeoutMs)

/-- What a move notes of the slots, if the call `i` holds the one before and the other after it. -/
inductive SlotNote (i : Nat) (log log' : List HandlerEvent) : Option Nat → Option Nat → Prop where
  | none {x : Option Nat} :
    (∀ j k, log'.count (.acquired j k) = log.count (.acquired j k)) →
    (∀ j k, log'.count (.released j k) = log.count (.released j k)) → SlotNote i log log' x x
  | acquired {k : Nat} : log' = log ++ [.acquired i k] → SlotNote i log log' none (some k)
  | released {k : Nat} : log' = log ++ [.released i k] → SlotNote i log log' (some k) none

/-- Where no slot comes into use or is given back, the call holds what it held. -/
theorem SlotMove.slot_eq {x y : Option (Nat × Phase)} (hm : SlotMove i s s₁ x y)
    (hheld : ∀ k p, x = some (k, p) → s.waiterInUse[k]? = some true)
    (hused : s₁.waiterInUse = s.waiterInUse) : y.map Prod.fst = x.map Prod.fst := by
  cases hm with
  | stay => rfl
  | claim _ hfree hset =>
    obtain ⟨hlt, -⟩ := List.getElem?_eq_some_iff.mp hfree
    rw [← hused, hset, List.getElem?_set_self hlt] at hfree
    cases hfree
  | send hslot =>
    rw [hslot]
    rfl
  | wake hslot =>
    rw [hslot]
    rfl
  | release hslot _ hset | collect hslot hset =>
    have htrue := hheld _ _ hslot
    obtain ⟨hlt, -⟩ := List.getElem?_eq_some_iff.mp htrue
    rw [← hused, hset, List.getElem?_set_self hlt] at htrue
    cases htrue

/-- **A call notes the slot it acquires and the slot it gives back.** -/
theorem CallMove.slotNote (hm : CallMove config i s c s₁ c') (hfits : c.Fits config)
    (htidy : c.Tidy) (hheld : ∀ k p, c.hold = some (k, p) → s.waiterInUse[k]? = some true) :
    SlotNote i s.log s₁.log c.slot c'.slot := by
  have hslot := hm.slotMove hfits htidy
  have hgoal : ∀ {x y}, c.slot = x → c'.slot = y → SlotNote i s.log s₁.log x y →
      SlotNote i s.log s₁.log c.slot c'.slot := by
    rintro x y rfl rfl h
    exact h
  have hnone : s₁.waiterInUse = s.waiterInUse →
      (∀ j k, s₁.log.count (.acquired j k) = s.log.count (.acquired j k)) →
      (∀ j k, s₁.log.count (.released j k) = s.log.count (.released j k)) →
      SlotNote i s.log s₁.log c.slot c'.slot := by
    intro hused hacquired hreleased
    exact hgoal rfl (hslot.slot_eq hheld hused) (.none hacquired hreleased)
  have hcaller : (∀ outcome, c.pc ≠ .leaving outcome ∧ c.pc ≠ .returned outcome) →
      c.context.abandoned = false := by
    intro hpc
    by_contra habandoned
    obtain ⟨outcome, hleft⟩ := htidy.1 (Bool.eq_true_of_not_eq_false habandoned)
    exact hleft.elim (hpc outcome).1 (hpc outcome).2
  cases hm with
  | acquire hpc =>
    simp only [Call.Fits, hpc] at hfits
    obtain ⟨timeoutMs, hreq⟩ := hfits
    refine hgoal ?_ ?_ (.acquired rfl)
    · rw [Call.slot, hold_none hpc (by simp)]
      rfl
    · simp [Call.slot, Call.hold, hreq]
  | freeSlot hpc | settle hpc | settleDone hpc =>
    have habandoned := hcaller (by simp [hpc])
    simp only [Call.Fits, hpc] at hfits
    obtain ⟨timeoutMs, hreq⟩ := hfits
    refine hgoal ?_ ?_ (.released rfl)
    · simp [Call.slot, Call.hold, hreq, hpc]
    · simp [Call.slot, Call.hold, hreq, habandoned]
  | insert =>
    obtain ⟨t, heq⟩ := enterDelayed_table config i _ s
    rw [heq] at hnone ⊢
    exact hnone rfl (fun _ _ => rfl) fun _ _ => rfl
  | @remove _ k =>
    refine hnone (sameSignals_eraseDelayed ..).waiterInUse ?_ ?_ <;> intro j l <;>
      rw [eraseDelayed_log] <;> cases s.delayed[k]? <;> simp
  | rearm =>
    obtain ⟨t, -, heq⟩ := startTimer_eq config (ticksToMs config.tickFreq 1#32) s
    rw [heq] at hnone ⊢
    exact hnone rfl (fun _ _ => rfl) fun _ _ => rfl
  | _ => exact hnone rfl (by simp [note, postQueueSem]) (by simp [note, postQueueSem])

theorem slotOf_set (c' : Call) (hcalls : s'.calls = s.calls.set i c') (hi : s.calls[i]? = some c) :
    s'.slotOf = Function.update s.slotOf i c'.slot := by
  funext j
  rw [slotOf, holder, hcalls]
  by_cases hji : j = i
  · subst hji
    rw [Function.update_self, Agents.getElem?_set_self c' hi]
    rfl
  · rw [Function.update_of_ne hji, List.getElem?_set_ne (Ne.symm hji)]
    rfl

theorem slotOf_eq (hcalls : s'.calls = s.calls) : s'.slotOf = s.slotOf := by
  funext j
  rw [slotOf, slotOf, holder, holder, hcalls]

/-- **`Complete` gives back the slot of a caller that has given up**, and the loop no other. -/
theorem LoopMove.slotNote (hm : LoopMove config s s') (hinv : s.Inv config) :
    ∃ i y, SlotNote i s.log s'.log (s.slotOf i) y ∧ s'.slotOf = Function.update s.slotOf i y := by
  have hnone : s'.calls = s.calls →
      (∀ j k, s'.log.count (.acquired j k) = s.log.count (.acquired j k)) →
      (∀ j k, s'.log.count (.released j k) = s.log.count (.released j k)) →
      ∃ i y, SlotNote i s.log s'.log (s.slotOf i) y ∧ s'.slotOf = Function.update s.slotOf i y := by
    intro hcalls hacquired hreleased
    refine ⟨0, s.slotOf 0, .none hacquired hreleased, ?_⟩
    rw [Function.update_eq_self, slotOf_eq hcalls]
  cases hm with
  | @complete drained i status hpc =>
    obtain ⟨c, hi, hhold, htidy⟩ := hinv.completing hpc
    have hslot : s.slotOf i = some c.context.slot := by rw [slotOf, holder_eq hi, hhold]; rfl
    have hupdate : slotOf { s.completeLocked i status with loop := .behind drained } =
        Function.update s.slotOf i (c.completed status).slot :=
      slotOf_set (c.completed status) (completeLocked_calls hi) hi
    refine ⟨i, _, ?_, hupdate⟩
    rw [Call.slot, (hold_completed status hhold htidy).2, hslot]
    cases habandoned : c.context.abandoned with
    | true =>
      rw [completeLocked_abandoned hi habandoned]
      exact .released rfl
    | false =>
      rw [completeLocked_waiting hi habandoned]
      exact .none (fun _ _ => rfl) fun _ _ => rfl
  | takeDue =>
    obtain ⟨t, -, heq⟩ := takeDueLocked_eq config s
    rw [heq] at hnone ⊢
    exact hnone rfl (fun _ _ => rfl) fun _ _ => rfl
  | _ => exact hnone rfl (by simp [note]) (by simp [note])

/-! ## The books -/

/-- What a note has to do with the events of one call and one slot. -/
theorem SlotNote.counts {log log' : List HandlerEvent} {x y : Option Nat}
    (hn : SlotNote i log log' x y) (j k : Nat) :
    log'.count (.acquired j k) + log.count (.released j k) +
        (if i = j ∧ x = some k then 1 else 0) =
      log.count (.acquired j k) + log'.count (.released j k) +
        if i = j ∧ y = some k then 1 else 0 := by
  cases hn with
  | none hacquired hreleased => rw [hacquired, hreleased]
  | @acquired l hlog =>
    rw [hlog]
    simp only [List.count_append, List.count_singleton, beq_iff_eq, HandlerEvent.acquired.injEq,
      Option.some.injEq, reduceCtorEq, and_false, if_false]
    omega
  | @released l hlog =>
    rw [hlog]
    simp only [List.count_append, List.count_singleton, beq_iff_eq, HandlerEvent.released.injEq,
      Option.some.injEq, reduceCtorEq, and_false, if_false]
    omega

/-- **The books stay true.** -/
theorem SlotNote.books {log : List HandlerEvent} {y : Option Nat}
    (hn : SlotNote i s.log log (s.slotOf i) y) (hslot : s'.slotOf = Function.update s.slotOf i y)
    (h : ∀ j k, s.log.count (.acquired j k) =
      s.log.count (.released j k) + if s.slotOf j = some k then 1 else 0) (j k : Nat) :
    log.count (.acquired j k) =
      log.count (.released j k) + if s'.slotOf j = some k then 1 else 0 := by
  have hcounts := hn.counts j k
  have hbefore := h j k
  rw [hslot]
  by_cases hij : i = j
  · subst hij
    simp only [true_and] at hcounts
    rw [Function.update_self]
    omega
  · simp only [hij, false_and, if_false] at hcounts
    rw [Function.update_of_ne (Ne.symm hij)]
    omega

theorem acquiredBy_pos {l : List HandlerEvent} :
    0 < l.countP (HandlerEvent.acquiredBy i) ↔ ∃ k, .acquired i k ∈ l := by
  rw [List.countP_pos_iff]
  constructor
  · rintro ⟨e, he, hby⟩
    cases e with
    | acquired j k =>
      obtain rfl : i = j := of_decide_eq_true hby
      exact ⟨k, he⟩
    | _ => cases hby
  · rintro ⟨k, hk⟩
    exact ⟨_, hk, decide_eq_true rfl⟩

theorem SlotNote.mem {log log' : List HandlerEvent} {x y : Option Nat}
    (hn : SlotNote i log log' x y) {j k : Nat} (h : .acquired j k ∈ log') :
    .acquired j k ∈ log ∨ (j = i ∧ y = some k) := by
  cases hn with
  | none hacquired =>
    rw [← List.count_pos_iff, hacquired, List.count_pos_iff] at h
    exact .inl h
  | acquired hlog =>
    rw [hlog, List.mem_append, List.mem_singleton] at h
    refine h.imp id fun heq => ?_
    obtain ⟨rfl, rfl⟩ := HandlerEvent.acquired.inj heq
    exact ⟨rfl, rfl⟩
  | released hlog =>
    rw [hlog, List.mem_append, List.mem_singleton] at h
    exact h.imp id (by simp)

theorem requests_set (hi : s.calls[i]? = some c) (hreq : c'.request = c.request) :
    (s.calls.set i c').map Call.request = s.requests := by
  obtain ⟨hlt, hc⟩ := List.getElem?_eq_some_iff.mp hi
  rw [List.map_set, hreq, ← hc, ← List.getElem_map Call.request (h := by rwa [List.length_map]),
    List.set_getElem_self, requests]

theorem LoopMove.requests (hm : LoopMove config s s') : s'.requests = s.requests := by
  rcases hm.calls with hcalls | ⟨i, c, status, hi, hcalls⟩
  · rw [LosEventHandler.requests, LosEventHandler.requests, hcalls]
  · rw [LosEventHandler.requests, hcalls]
    exact requests_set hi rfl

/-- **A call acquires a slot at most once.** -/
theorem CallMove.acquires (hm : CallMove config i s c s₁ c') (j : Nat) :
    (if i = j then c'.mayAcquire.toNat else 0) +
        s₁.log.countP (HandlerEvent.acquiredBy j) ≤
      (if i = j then c.mayAcquire.toNat else 0) +
        s.log.countP (HandlerEvent.acquiredBy j) := by
  have hsame : (c'.mayAcquire = true → c.mayAcquire = true) →
      s₁.log.countP (HandlerEvent.acquiredBy j) = s.log.countP (HandlerEvent.acquiredBy j) →
      (if i = j then c'.mayAcquire.toNat else 0) + s₁.log.countP (HandlerEvent.acquiredBy j) ≤
        (if i = j then c.mayAcquire.toNat else 0) + s.log.countP (HandlerEvent.acquiredBy j) := by
    intro hmay hlog
    have hle : c'.mayAcquire.toNat ≤ c.mayAcquire.toNat := Bool.toNat_le_toNat hmay
    split <;> omega
  have henqueued : ∀ ret, (c.goto (c.request.enqueued ret)).mayAcquire = true →
      c.mayAcquire = true := by
    intro ret hmay
    unfold HandlerRequest.enqueued at hmay
    cases hreq : c.request with
    | postSyncTask | onTimerExpired =>
      simp only [hreq] at hmay
      split at hmay <;> cases hmay
    | _ =>
      simp only [hreq] at hmay
      cases hmay
  cases hm with
  | acquire hpc =>
    simp only [note, List.countP_append, List.countP_singleton, HandlerEvent.acquiredBy,
      Call.mayAcquire, hpc, Bool.toNat_true, Bool.toNat_false, decide_eq_true_eq, eq_comm (a := j)]
    split <;> omega
  | insert =>
    obtain ⟨t, heq⟩ := enterDelayed_table config i _ s
    rw [heq] at hsame ⊢
    exact hsame (by simp [Call.mayAcquire]) rfl
  | @remove _ k =>
    refine hsame (by simp [Call.mayAcquire]) ?_
    rw [eraseDelayed_log]
    cases s.delayed[k]? <;> simp [HandlerEvent.acquiredBy]
  | rearm =>
    obtain ⟨t, -, heq⟩ := startTimer_eq config (ticksToMs config.tickFreq 1#32) s
    rw [heq] at hsame ⊢
    exact hsame (by simp [Call.mayAcquire]) rfl
  | starve | enqueueStopped | post | postRefused | pushFull => exact hsame (henqueued _) rfl
  | signal => exact hsame (henqueued _) rfl
  | enqueue =>
    refine hsame ?_ rfl
    cases config.poster <;> simp [Call.mayAcquire]
  | _ hpc =>
    exact hsame (by simp [Call.mayAcquire, hpc])
      (by simp [note, releaseWaiter, pollWaiterSem, HandlerEvent.acquiredBy])

theorem LoopMove.acquires (hm : LoopMove config s s') (j : Nat) :
    s'.log.countP (HandlerEvent.acquiredBy j) = s.log.countP (HandlerEvent.acquiredBy j) := by
  cases hm with
  | takeDue =>
    obtain ⟨t, -, heq⟩ := takeDueLocked_eq config s
    rw [heq]
  | complete =>
    unfold completeLocked
    split
    · rfl
    · dsimp only
      split <;> simp [releaseWaiter, note, postWaiterSem, HandlerEvent.acquiredBy]
  | _ => simp [note, HandlerEvent.acquiredBy]

/-! ## Every step -/

theorem Booked.call (h : s.Booked) (hinv : s.Inv config) (hi : s.calls[i]? = some c)
    (hm : CallMove config i s c s₁ c') : Booked { s₁ with calls := s₁.calls.set i c' } := by
  have hmem := List.mem_of_getElem? hi
  have hhold := holder_eq hi
  have hcalls : s₁.calls.set i c' = s.calls.set i c' := by rw [hm.frame.calls]
  have hslot : s.slotOf i = c.slot := by rw [slotOf, hhold]; rfl
  have hnote := hm.slotNote (hinv.fits c hmem) (hinv.tidy c hmem)
    fun k p hk => hinv.pool.held i k p (hhold.trans hk)
  have hrequests : requests { s₁ with calls := s₁.calls.set i c' } = s.requests := by
    rw [requests, hcalls]
    exact requests_set hi hm.request
  refine ⟨?_, ?_, fun j k hj => ?_⟩
  · rw [← hslot] at hnote
    exact hnote.books (slotOf_set c' hcalls hi) h.books
  · rw [hcalls]
    exact Agents.Once.set h.once hi hm.acquires
  · rw [hrequests]
    rcases hnote.mem hj with hold | ⟨rfl, hk⟩
    · exact h.acquirers j k hold
    · by_contra hnone
      have hne : ∀ timeoutMs, c'.request ≠ .postSyncTask timeoutMs := by
        intro timeoutMs hreq
        refine hnone ⟨timeoutMs, ?_⟩
        rw [requests, List.getElem?_map, hi, Option.map_some, ← hm.request, hreq]
      rw [Call.slot, hold_of_ne hne] at hk
      cases hk

theorem Booked.loop (h : s.Booked) (hinv : s.Inv config) (hm : LoopMove config s s') :
    s'.Booked := by
  obtain ⟨i, y, hnote, hslot⟩ := hm.slotNote hinv
  refine ⟨hnote.books hslot h.books, ?_, fun j k hj => ?_⟩
  · have honce := h.once.mono fun j => (hm.acquires j).le
    rcases hm.calls with hcalls | ⟨i, c, status, hi, hcalls⟩
    · rwa [hcalls]
    · rw [hcalls]
      refine honce.set hi fun j => ?_
      exact Nat.le_refl _
  · rw [hm.requests]
    have hpos := acquiredBy_pos.mpr ⟨k, hj⟩
    rw [hm.acquires, acquiredBy_pos] at hpos
    obtain ⟨l, hl⟩ := hpos
    exact h.acquirers j l hl

/-- Where nothing is noted of the slots. -/
theorem Booked.noted (h : s.Booked) {es : List HandlerEvent} (hcalls : s'.calls = s.calls)
    (hlog : s'.log = s.log ++ es) (hes : ∀ e ∈ es, ∀ i k, e ≠ .acquired i k ∧ e ≠ .released i k) :
    s'.Booked := by
  have hacquired : ∀ i k, s'.log.count (.acquired i k) = s.log.count (.acquired i k) := by
    intro i k
    rw [hlog, List.count_append, List.count_eq_zero.mpr fun he => (hes _ he i k).1 rfl,
      Nat.add_zero]
  have hreleased : ∀ i k, s'.log.count (.released i k) = s.log.count (.released i k) := by
    intro i k
    rw [hlog, List.count_append, List.count_eq_zero.mpr fun he => (hes _ he i k).2 rfl,
      Nat.add_zero]
  have hby : ∀ i, s'.log.countP (HandlerEvent.acquiredBy i) =
      s.log.countP (HandlerEvent.acquiredBy i) := by
    intro i
    have hzero : es.countP (HandlerEvent.acquiredBy i) = 0 := by
      refine Nat.eq_zero_of_not_pos fun hpos => ?_
      obtain ⟨k, hk⟩ := acquiredBy_pos.mp hpos
      exact (hes _ hk i k).1 rfl
    rw [hlog, List.countP_append, hzero, Nat.add_zero]
  refine ⟨fun i k => ?_, ?_, fun i k hi => ?_⟩
  · rw [hacquired, hreleased, slotOf_eq hcalls]
    exact h.books i k
  · rw [hcalls]
    exact h.once.mono fun i => (hby i).le
  · rw [requests, hcalls]
    rw [← List.count_pos_iff, hacquired, List.count_pos_iff] at hi
    exact h.acquirers i k hi

/-- A new call holds no slot. -/
theorem Booked.enter (h : s.Booked) {request : HandlerRequest} {task : TelOsTaskId}
    (hcalls : s'.calls = s.calls ++ [{ request := request, task := task }])
    (hlog : s'.log = s.log) : s'.Booked := by
  have hslot : s'.slotOf = s.slotOf := by
    funext i
    rw [slotOf, slotOf, holder, holder, hcalls]
    rcases Nat.lt_trichotomy i s.calls.length with hlt | rfl | hgt
    · rw [List.getElem?_append_left hlt]
    · rw [List.getElem?_concat_length, List.getElem?_eq_none (Nat.le_refl _)]
      cases request <;> rfl
    · rw [List.getElem?_eq_none (by rw [List.length_append, List.length_singleton]; exact hgt),
        List.getElem?_eq_none (Nat.le_of_lt hgt)]
  refine ⟨fun i k => ?_, ?_, fun i k hi => ?_⟩
  · rw [hlog, hslot]
    exact h.books i k
  · rw [hcalls, hlog]
    exact h.once.append _ fun _ => Nat.le_refl _
  · rw [hlog] at hi
    obtain ⟨timeoutMs, hreq⟩ := h.acquirers i k hi
    obtain ⟨hlt, -⟩ := List.getElem?_eq_some_iff.mp hreq
    refine ⟨timeoutMs, ?_⟩
    rw [requests, hcalls, List.map_append]
    change (s.requests ++ _)[i]? = _
    rwa [List.getElem?_append_left hlt]

/-- `Stop` notes what it drops, and that it is over. -/
theorem StopMove.log {timeUp : Bool} (hm : StopMove config s timeUp s') :
    ∃ es, s'.log = s.log ++ es ∧ ∀ e ∈ es, e = .stopped ∨ ∃ i, e = .dropped i := by
  cases hm with
  | dropDelayed =>
    refine ⟨_, rfl, fun e he => ?_⟩
    obtain ⟨entry, -, rfl⟩ := List.mem_map.mp he
    exact .inr ⟨_, rfl⟩
  | finish => exact ⟨_, rfl, fun e he => .inl (List.mem_singleton.mp he)⟩
  | _ => exact ⟨[], (List.append_nil _).symm, by simp⟩

/-- **A move of the system keeps the books.** -/
theorem Booked.move (h : s.Booked) (hinv : s.Inv config) (hm : Move config s a s') :
    s'.Booked := by
  cases hm with
  | init =>
    obtain ⟨-, hcalls, -, -, -, hlog, -⟩ := initialized_frame config s
    refine h.noted hcalls hlog fun e he => ?_
    rw [List.mem_singleton.mp he]
    exact fun _ _ => ⟨by simp, by simp⟩
  | invoke | expire => exact h.enter rfl rfl
  | call hi hm => exact h.call hinv hi hm
  | loop _ hm => exact h.loop hinv hm
  | stop hm =>
    obtain ⟨es, hlog, hes⟩ := hm.log
    refine h.noted hm.calls hlog fun e he => ?_
    rcases hes e he with rfl | ⟨i, rfl⟩
    · exact fun _ _ => ⟨by simp, by simp⟩
    · exact fun _ _ => ⟨by simp, by simp⟩
  | receive | bindLoopTask | callStop | tick | nothing => exact ⟨h.books, h.once, h.acquirers⟩

theorem Booked.step (h : s.Booked) (hinv : s.Inv config) (hstep : s.step? config a = some s') :
    s'.Booked := by
  obtain ⟨me, -, rfl⟩ | ⟨l, hl, hm⟩ := step_cases hstep
  · exact ⟨h.books, h.once, h.acquirers⟩
  · have hlocked : Booked { s with lock := l } := ⟨h.books, h.once, h.acquirers⟩
    exact hlocked.move (hinv.locked hl) hm

/-- **What is noted of the slots tells who holds them**, in every state of every run. -/
theorem reachable_booked (h : Reachable config s) : s.Booked := by
  refine h.invariant_of (fun s hs => reachable_inv hs) (fun s hs => ?_)
    fun s s' hinv hs hstep => ?_
  · subst hs
    exact ⟨fun _ _ => rfl, Agents.once_nil fun _ => rfl, by simp⟩
  · obtain ⟨a, ha⟩ := hstep
    exact hs.step hinv ha

theorem Booked.acquired_of_slot (h : s.Booked) (hslot : s.slotOf i = some k) :
    .acquired i k ∈ s.log := by
  have hbooks := h.books i k
  rw [if_pos hslot] at hbooks
  exact List.count_pos_iff.mp (by omega)

end LosEventHandler

end CallManagerMini
