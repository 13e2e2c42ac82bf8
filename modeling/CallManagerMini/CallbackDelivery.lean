import CallManagerMini.CallbackProtocol
import Mathlib.Data.List.TakeWhile

/-! # What a callback receives

A report is numbered when it is broadcast, and its task names the callback that was
registered then.  The main loop runs the tasks in the order of their numbers, so a callback
receives the reports broadcast while it was registered, in that order, as far as they were
posted and their tasks ran before it was unregistered (`reachable_delivered`).

The invariant follows one callback: its window is what the log shows from its registration
to its unregistration, and what is queued is either for it or was not broadcast in the
window.
-/

namespace CallManagerMini

/-- A notice that is about no report. -/
def Notice.IsSilent : Notice → Prop
  | .broadcast .. | .dispatched _ | .received .. => False
  | _ => True

namespace Registration

variable {trust : TrustModel} {s s' : Registration} {p : Ref}

/-! ## Reading the log -/

/-- What the callback received. -/
def receivedBy (p : Ref) (l : List Notice) : List (Nat × Report) :=
  l.filterMap fun
    | .received q n r => if q = p then some (n, r) else none
    | _ => none

/-- The broadcasts. -/
def broadcasts (l : List Notice) : List Nat :=
  l.filterMap fun
    | .broadcast n _ _ => some n
    | _ => none

/-- The broadcasts whose post succeeded. -/
def posted (l : List Notice) : List (Nat × Report) :=
  l.filterMap fun
    | .broadcast n r true => some (n, r)
    | _ => none

/-- Those of them whose task ran. -/
def dispatched (l : List Notice) : List (Nat × Report) :=
  (posted l).filter fun b => .dispatched b.1 ∈ l

/-- What happens until the callback is unregistered. -/
def registration (p : Ref) (l : List Notice) : List Notice :=
  l.takeWhile fun e => e ≠ .unregistered p

/-- The reports queued. -/
def queued (queue : List MainLoopTask) : List Nat :=
  queue.filterMap fun
    | .report _ n _ => some n
    | _ => none

theorem receivedBy_append (l l' : List Notice) :
    receivedBy p (l ++ l') = receivedBy p l ++ receivedBy p l' :=
  List.filterMap_append

theorem broadcasts_append (l l' : List Notice) :
    broadcasts (l ++ l') = broadcasts l ++ broadcasts l' :=
  List.filterMap_append

theorem posted_append (l l' : List Notice) : posted (l ++ l') = posted l ++ posted l' :=
  List.filterMap_append

theorem queued_append (q q' : List MainLoopTask) : queued (q ++ q') = queued q ++ queued q' :=
  List.filterMap_append

theorem mem_queued {n : Nat} {queue : List MainLoopTask} :
    n ∈ queued queue ↔ ∃ p r, .report p n r ∈ queue := by
  constructor
  · intro h
    obtain ⟨t, ht, hn⟩ := List.mem_filterMap.mp h
    cases t with
    | report q m r =>
      obtain rfl : m = n := Option.some.inj hn
      exact ⟨q, r, ht⟩
    | _ => cases hn
  · rintro ⟨p, r, h⟩
    exact List.mem_filterMap.mpr ⟨_, h, rfl⟩

/-- The posted broadcasts are broadcasts. -/
theorem posted_sublist (l : List Notice) : ((posted l).map Prod.fst).Sublist (broadcasts l) := by
  induction l with
  | nil => exact List.Sublist.refl _
  | cons e l ih =>
    cases e with
    | broadcast n r b =>
      cases b with
      | false => exact ih.cons _
      | true => exact ih.cons_cons _
    | _ => exact ih

/-! ## Moves without reports -/

/-- A move that adds `es` to the log, and makes nothing of any report but that it may drop its
task.  It may unregister a callback. -/
structure Silent (es : List Notice) (s s' : Registration) : Prop where
  log : s'.log = s.log ++ es
  silent : ∀ e ∈ es, e.IsSilent
  queue : (queued s'.queue).Sublist (queued s.queue)
  tasks : ∀ q n r, .report q n r ∈ s'.queue → .report q n r ∈ s.queue
  nextReport : s'.nextReport = s.nextReport
  next : s'.callbacks.next = s.callbacks.next
  registered : ∀ p, .registered p ∉ es
  opened : ∀ p, .unregistered p ∉ es → s'.isOpen p = s.isOpen p
  closed : ∀ p, .unregistered p ∈ es → es = [.destroyed p, .unregistered p] ∧ s'.isOpen p = false
  held : ∀ p, .unregistered p ∉ es → .stopped ∉ es → s.callbackPtr = some p →
    s'.callbackPtr = some p

section Silent
variable {es w : List Notice}

theorem receivedBy_silent (h : ∀ e ∈ es, e.IsSilent) : receivedBy p es = [] := by
  refine List.filterMap_eq_nil_iff.mpr fun e he => ?_
  have hsilent := h e he
  cases e with
  | received => cases hsilent
  | _ => rfl

theorem broadcasts_silent (h : ∀ e ∈ es, e.IsSilent) : broadcasts es = [] := by
  refine List.filterMap_eq_nil_iff.mpr fun e he => ?_
  have hsilent := h e he
  cases e with
  | broadcast => cases hsilent
  | _ => rfl

theorem posted_silent (h : ∀ e ∈ es, e.IsSilent) : posted es = [] := by
  refine List.filterMap_eq_nil_iff.mpr fun e he => ?_
  have hsilent := h e he
  cases e with
  | broadcast => cases hsilent
  | _ => rfl

theorem not_dispatched_silent (h : ∀ e ∈ es, e.IsSilent) (n : Nat) : .dispatched n ∉ es :=
  fun hn => h _ hn

theorem dispatched_append_silent (h : ∀ e ∈ es, e.IsSilent) :
    dispatched (w ++ es) = dispatched w := by
  simp [dispatched, posted_append, posted_silent h, not_dispatched_silent h]

end Silent

/-- The callbacks stay as they are. -/
theorem Silent.of_callbacks {es : List Notice} (hlog : s'.log = s.log ++ es)
    (hes : ∀ e ∈ es, e = .stopped ∨ ∃ q n, e = .returned q n)
    (hqueue : (queued s'.queue).Sublist (queued s.queue))
    (htasks : ∀ q n r, .report q n r ∈ s'.queue → .report q n r ∈ s.queue)
    (hnext : s'.nextReport = s.nextReport) (hcallbacks : s'.callbacks = s.callbacks)
    (hheld : .stopped ∉ es → s'.callbackPtr = s.callbackPtr) : Silent es s s' := by
  have hno (p : Ref) : .unregistered p ∉ es := by
    intro h
    rcases hes _ h with h | ⟨_, _, h⟩ <;> cases h
  refine ⟨hlog, ?_, hqueue, htasks, hnext, by rw [hcallbacks], ?_, ?_, fun p h => absurd h (hno p),
    ?_⟩
  · intro e he
    rcases hes e he with rfl | ⟨_, _, rfl⟩ <;> trivial
  · intro p h
    rcases hes _ h with h | ⟨_, _, h⟩ <;> cases h
  · exact fun p _ => by rw [isOpen, isOpen, hcallbacks]
  · exact fun p _ hstop hp => (hheld hstop).trans hp

/-- The callback that is held is given up. -/
theorem Silent.giveUp (h : Inv trust s) :
    Silent (s.callAbilityCallbackPtr.toList.flatMap fun p => [.destroyed p, .unregistered p]) s
      { s.giveUp with callbackPtr := none } := by
  have hfields := s.giveUp_fields
  cases hheld : s.callAbilityCallbackPtr with
  | none =>
    have hnone : s.callbackPtr = none := by
      cases hp : s.callbackPtr with
      | none => rfl
      | some p => simp [h.held p hp] at hheld
    rw [giveUp_of_none hheld]
    exact ⟨by simp, by simp, List.Sublist.refl _, fun _ _ _ hr => hr, rfl, rfl, by simp,
      fun _ _ => rfl, by simp, by simp [hnone]⟩
  | some q =>
    have hq := h.alloc q hheld
    have howns : (s.callbacks.get q).callbackPtr = true :=
      (isOpen_iff.mp ((h.owner q hq).mpr hheld)).2
    have hclosed := h.giveUp_owner hq
    rw [giveUp_of_some hheld] at hclosed ⊢
    refine ⟨by simp [howns], ?_, List.Sublist.refl _, fun _ _ _ hr => hr, rfl, rfl, by simp, ?_, ?_,
      ?_⟩
    · simp [Notice.IsSilent]
    · intro p hp
      have hne : p ≠ q := by simpa using hp
      simp [isOpen, hne]
    · intro p hp
      obtain rfl : p = q := by simpa using hp
      exact ⟨rfl, hclosed⟩
    · intro p hp _ hheld'
      have hpq : s.callAbilityCallbackPtr = some p := h.held p hheld'
      rw [hheld] at hpq
      simp [Option.some.inj hpq] at hp

/-- **The moves**: a silent one, a registration, a post, or the task of a report. -/
theorem Move.silent_or (hinv : Inv trust s) (h : Move trust s s') :
    (∃ es, Silent es s s') ∨
      (s' = s.register trust ∧ s.callbackPtr = none) ∨
      (∃ accepted r, s' = (CallAbilityReportProxy.post accepted r s).2) ∨
      ∃ p n r rest, s.queue = .report p n r :: rest ∧ s' = s.deliver p n r rest := by
  have hsame : (queued s.queue).Sublist (queued s.queue) := List.Sublist.refl _
  have htasks : ∀ q n r, .report q n r ∈ s.queue → .report q n r ∈ s.queue := fun _ _ _ h => h
  cases h with
  | initStatus | loopInit =>
    exact .inl ⟨[], .of_callbacks (by simp) (by simp) hsame htasks rfl rfl fun _ => rfl⟩
  | loopStop =>
    exact .inl ⟨[], .of_callbacks (by simp) (by simp) (List.nil_sublist _) (by simp) rfl rfl
      fun _ => rfl⟩
  | @calls calling tasks _ hcalls =>
    have hnone : queued tasks = [] := by
      refine List.filterMap_eq_nil_iff.mpr fun t ht => ?_
      have hcall := hcalls t ht
      cases t with
      | report => cases hcall
      | _ => rfl
    refine .inl ⟨[], .of_callbacks (by simp) (by simp) ?_ ?_ rfl rfl fun _ => rfl⟩
    · simp [queued_append, hnone]
    · intro q n r hr
      rcases List.mem_append.mp hr with hr | hr
      · exact hr
      · cases hcalls _ hr
  | register _ _ hheld => exact .inr (.inl ⟨rfl, hheld⟩)
  | unRegister =>
    rw [hinv.keptFor]
    exact .inl ⟨_, .giveUp hinv⟩
  | unInit =>
    rw [hinv.dropped]
    exact .inl ⟨_, .giveUp hinv⟩
  | serviceUnInit =>
    exact .inl ⟨[.stopped], .of_callbacks rfl (by simp) hsame htasks rfl rfl (by simp)⟩
  | post accepted r => exact .inr (.inr (.inl ⟨accepted, r, rfl⟩))
  | @take t rest hqueue ht =>
    have hnone : queued [t] = [] := by
      cases t with
      | report => cases ht
      | _ => rfl
    refine .inl ⟨[], .of_callbacks (by simp) (by simp) ?_ ?_ rfl rfl fun _ => rfl⟩
    · rw [hqueue, ← List.singleton_append, queued_append, hnone]
      exact List.Sublist.refl _
    · exact fun q n r hr => hqueue ▸ List.mem_cons_of_mem _ hr
  | deliver hqueue => exact .inr (.inr (.inr ⟨_, _, _, _, hqueue, rfl⟩))
  | returned => exact .inl ⟨_, .of_callbacks rfl (by simp) hsame htasks rfl rfl fun _ => rfl⟩

/-! ## Numbers -/

/-- Broadcasts are numbered in order, and tasks are queued and run in that order. -/
structure Numbers (s : Registration) : Prop where
  broadcasts : (broadcasts s.log).Pairwise (· < ·)
  fresh : ∀ n ∈ Registration.broadcasts s.log, n < s.nextReport
  queue : (queued s.queue).Pairwise (· < ·)
  queueFresh : ∀ n ∈ queued s.queue, n < s.nextReport
  ran : ∀ m, .dispatched m ∈ s.log → m < s.nextReport ∧ ∀ n ∈ queued s.queue, m < n

theorem Numbers.silent {es : List Notice} (hs : Silent es s s') (h : Numbers s) : Numbers s' := by
  have hlog : Registration.broadcasts s'.log = Registration.broadcasts s.log := by
    simp [hs.log, broadcasts_append, broadcasts_silent hs.silent]
  refine ⟨hlog ▸ h.broadcasts, ?_, h.queue.sublist hs.queue, ?_, ?_⟩
  · rw [hlog, hs.nextReport]
    exact h.fresh
  · rw [hs.nextReport]
    exact fun n hn => h.queueFresh n (hs.queue.subset hn)
  · intro m hm
    rw [hs.log] at hm
    rcases List.mem_append.mp hm with hm | hm
    · rw [hs.nextReport]
      exact ⟨(h.ran m hm).1, fun n hn => (h.ran m hm).2 n (hs.queue.subset hn)⟩
    · exact absurd hm (not_dispatched_silent hs.silent m)

theorem pairwise_concat {l : List Nat} {n : Nat} (h : l.Pairwise (· < ·)) (hn : ∀ m ∈ l, m < n) :
    (l ++ [n]).Pairwise (· < ·) :=
  List.pairwise_append.mpr ⟨h, List.pairwise_singleton _ _, by simpa using hn⟩

theorem Numbers.post (h : Numbers s) (accepted : Bool) (r : Report) :
    Numbers (CallAbilityReportProxy.post accepted r s).2 := by
  obtain ⟨target, -, hstate⟩ := post_eq accepted r s
  have hlog : Registration.broadcasts (s.log ++ [.broadcast s.nextReport r target.isSome]) =
      Registration.broadcasts s.log ++ [s.nextReport] := broadcasts_append _ _
  have hran : ∀ m, .dispatched m ∈ s.log ++ [.broadcast s.nextReport r target.isSome] →
      .dispatched m ∈ s.log := by simp
  have hbroadcasts := pairwise_concat h.broadcasts h.fresh
  have hfresh : ∀ n ∈ Registration.broadcasts s.log ++ [s.nextReport], n < s.nextReport + 1 := by
    intro n hn
    rcases List.mem_append.mp hn with hn | hn
    · exact Nat.lt_succ_of_lt (h.fresh n hn)
    · exact Nat.lt_succ_of_le (Nat.le_of_eq (List.mem_singleton.mp hn))
  rw [hstate]
  cases target with
  | none =>
    have hqueue : s.queue ++ [] = s.queue := List.append_nil _
    refine ⟨by rwa [hlog], by rwa [hlog], ?_, ?_, ?_⟩
    · simpa [hqueue] using h.queue
    · intro n hn
      exact Nat.lt_succ_of_lt (h.queueFresh n (by simpa using hn))
    · intro m hm
      obtain ⟨hlt, hqueued⟩ := h.ran m (hran m hm)
      exact ⟨Nat.lt_succ_of_lt hlt, by simpa using hqueued⟩
  | some p =>
    have hqueue : queued (s.queue ++ [.report p s.nextReport r]) =
        queued s.queue ++ [s.nextReport] := queued_append _ _
    refine ⟨by rwa [hlog], by rwa [hlog], ?_, ?_, ?_⟩
    · change (queued (s.queue ++ [.report p s.nextReport r])).Pairwise _
      rw [hqueue]
      exact pairwise_concat h.queue h.queueFresh
    · change ∀ n ∈ queued (s.queue ++ [.report p s.nextReport r]), n < s.nextReport + 1
      rw [hqueue]
      intro n hn
      rcases List.mem_append.mp hn with hn | hn
      · exact Nat.lt_succ_of_lt (h.queueFresh n hn)
      · exact Nat.lt_succ_of_le (Nat.le_of_eq (List.mem_singleton.mp hn))
    · intro m hm
      obtain ⟨hlt, hqueued⟩ := h.ran m (hran m hm)
      refine ⟨Nat.lt_succ_of_lt hlt, ?_⟩
      change ∀ n ∈ queued (s.queue ++ [.report p s.nextReport r]), m < n
      rw [hqueue]
      intro n hn
      rcases List.mem_append.mp hn with hn | hn
      · exact hqueued n hn
      · exact (List.mem_singleton.mp hn) ▸ hlt

theorem Numbers.deliver {n : Nat} {r : Report} {rest : List MainLoopTask} (h : Numbers s)
    (hqueue : s.queue = .report p n r :: rest) : Numbers (s.deliver p n r rest) := by
  have hqueued : queued s.queue = n :: queued rest := by
    rw [hqueue]
    rfl
  have hnew : ∀ e ∈ (.dispatched n :: if s.isOpen p then [.received p n r] else [] : List Notice),
      e = .dispatched n ∨ e = .received p n r := by
    intro e he
    split at he <;> simp_all
  have hlog : Registration.broadcasts (s.deliver p n r rest).log =
    Registration.broadcasts s.log := by
    have hnone : Registration.broadcasts
        (.dispatched n :: if s.isOpen p then [.received p n r] else []) = [] := by
      refine List.filterMap_eq_nil_iff.mpr fun e he => ?_
      rcases hnew e he with rfl | rfl <;> rfl
    simp [Registration.deliver, broadcasts_append, hnone]
  have hsorted := h.queue
  rw [hqueued] at hsorted
  obtain ⟨hfirst, hrest⟩ := List.pairwise_cons.mp hsorted
  refine ⟨by rw [hlog]; exact h.broadcasts, by rw [hlog]; exact h.fresh, hrest, ?_, ?_⟩
  · exact fun m hm => h.queueFresh m (hqueued ▸ List.mem_cons_of_mem _ hm)
  · intro m hm
    rcases List.mem_append.mp hm with hm | hm
    · obtain ⟨hlt, hall⟩ := h.ran m hm
      exact ⟨hlt, fun k hk => hall k (hqueued ▸ List.mem_cons_of_mem _ hk)⟩
    · rcases hnew _ hm with heq | heq
      · obtain rfl : m = n := Notice.dispatched.inj heq
        exact ⟨h.queueFresh m (hqueued ▸ List.mem_cons_self), hfirst⟩
      · cases heq

theorem Numbers.register (h : Numbers s) : Numbers (s.register trust) := by
  have hlog : Registration.broadcasts (s.register trust).log = Registration.broadcasts s.log := by
    simp [Registration.register, Registration.broadcasts]
  refine ⟨by rw [hlog]; exact h.broadcasts, by rw [hlog]; exact h.fresh, h.queue, h.queueFresh, ?_⟩
  intro m hm
  exact h.ran m (by simpa [Registration.register] using hm)

theorem Numbers.move (hinv : Inv trust s) (hmove : Move trust s s') (h : Numbers s) :
    Numbers s' := by
  rcases hmove.silent_or hinv with ⟨es, hs⟩ | ⟨rfl, -⟩ | ⟨accepted, r, rfl⟩ |
    ⟨p, n, r, rest, hqueue, rfl⟩
  · exact h.silent hs
  · exact h.register
  · exact h.post accepted r
  · exact h.deliver hqueue

/-- A callback is registered once, and receives nothing before. -/
structure Births (s : Registration) : Prop where
  registered : ∀ p, .registered p ∈ s.log → p < s.callbacks.next
  received : ∀ p n r, .received p n r ∈ s.log → p < s.callbacks.next
  once : ∀ p, s.log.count (.registered p) ≤ 1

theorem Births.of_log {es : List Notice} (h : Births s) (hlog : s'.log = s.log ++ es)
    (hnext : s'.callbacks.next = s.callbacks.next) (hregistered : ∀ p, .registered p ∉ es)
    (hreceived : ∀ p n r, .received p n r ∈ es → p < s.callbacks.next) : Births s' := by
  refine ⟨?_, ?_, ?_⟩
  · intro p hp
    rw [hlog] at hp
    rw [hnext]
    exact h.registered p ((List.mem_append.mp hp).resolve_right (hregistered p))
  · intro p n r hp
    rw [hlog] at hp
    rw [hnext]
    rcases List.mem_append.mp hp with hp | hp
    · exact h.received p n r hp
    · exact hreceived p n r hp
  · intro p
    rw [hlog, List.count_append, List.count_eq_zero_of_not_mem (hregistered p)]
    exact h.once p

theorem Births.move (hinv : Inv trust s) (hmove : Move trust s s') (h : Births s) : Births s' := by
  rcases hmove.silent_or hinv with ⟨es, hs⟩ | ⟨rfl, -⟩ | ⟨accepted, r, rfl⟩ |
    ⟨p, n, r, rest, hqueue, rfl⟩
  · exact h.of_log hs.log hs.next hs.registered fun p n r hr => absurd (hs.silent _ hr) nofun
  · refine ⟨?_, ?_, ?_⟩
    · intro p hp
      rcases List.mem_append.mp hp with hp | hp
      · exact Nat.lt_succ_of_lt (h.registered p hp)
      · obtain rfl : p = s.callbacks.next := by simpa using hp
        exact Nat.lt_succ_self _
    · intro p n r hp
      have hp' : .received p n r ∈ s.log := by simpa [Registration.register] using hp
      exact Nat.lt_succ_of_lt (h.received p n r hp')
    · intro p
      simp only [Registration.register, List.count_append]
      by_cases hp : p = s.callbacks.next
      · have hnone : s.log.count (.registered p) = 0 :=
          List.count_eq_zero_of_not_mem fun hmem => Nat.lt_irrefl _ (hp ▸ h.registered p hmem)
        rw [hnone, Nat.zero_add]
        exact List.count_le_length
      · have hnone : List.count (Notice.registered p) [.registered s.callbacks.next] = 0 :=
          List.count_eq_zero_of_not_mem (by simpa using hp)
        rw [hnone]
        exact h.once p
  · obtain ⟨target, -, hstate⟩ := post_eq accepted r s
    rw [hstate]
    exact h.of_log rfl rfl (by simp) (by simp)
  · have hlt := hinv.queue p n r (hqueue ▸ List.mem_cons_self)
    have hlog : (s.deliver p n r rest).log =
        s.log ++ .dispatched n :: if s.isOpen p then [.received p n r] else [] := rfl
    refine h.of_log hlog rfl ?_ ?_
    · intro q hq
      split at hq <;> simp at hq
    · intro q m r' hq
      split at hq
      · obtain rfl : q = p := by
          have h : q = p ∧ m = n ∧ r' = r := by simpa using hq
          exact h.1
        exact hlt
      · simp at hq

/-! ## Windows -/

/-- What holds of the window `w` in which the callback is registered, as far as it goes. -/
structure Window (p : Ref) (w : List Notice) (s : Registration) : Prop where
  received : .stopped ∉ w → receivedBy p w = dispatched w
  /-- What was posted in the window and is still queued is for this callback. -/
  target : .stopped ∉ w → ∀ q n r, .report q n r ∈ s.queue → ∀ r', (n, r') ∈ posted w → q = p
  /-- What is queued for this callback was posted in the window. -/
  tasks : ∀ n r, .report p n r ∈ s.queue → (n, r) ∈ posted w

section Window
variable {w : List Notice}

theorem Window.of_tasks (h : Window p w s)
    (htasks : ∀ q n r, .report q n r ∈ s'.queue → .report q n r ∈ s.queue) : Window p w s' :=
  ⟨h.received, fun hw q n r hr => h.target hw q n r (htasks q n r hr),
    fun n r hr => h.tasks n r (htasks p n r hr)⟩

theorem Window.silent {es : List Notice} (hes : ∀ e ∈ es, e.IsSilent) (h : Window p w s) :
    Window p (w ++ es) s := by
  have hposted : posted (w ++ es) = posted w := by
    rw [posted_append, posted_silent hes, List.append_nil]
  have hreceived : receivedBy p (w ++ es) = receivedBy p w := by
    rw [receivedBy_append, receivedBy_silent hes, List.append_nil]
  refine ⟨?_, ?_, ?_⟩
  · intro hw
    rw [hreceived, dispatched_append_silent hes]
    exact h.received fun hstop => hw (List.mem_append_left _ hstop)
  · intro hw
    rw [hposted]
    exact h.target fun hstop => hw (List.mem_append_left _ hstop)
  · rw [hposted]
    exact h.tasks

/-- The next number is none of a broadcast of the log. -/
theorem Numbers.not_posted (h : Numbers s) (hw : w ⊆ s.log) (r : Report) :
    (s.nextReport, r) ∉ posted w := by
  intro hr
  have hmem : s.nextReport ∈ Registration.broadcasts w :=
    (posted_sublist w).subset (List.mem_map.mpr ⟨_, hr, rfl⟩)
  exact Nat.lt_irrefl _ (h.fresh _ ((List.filterMap_subset _ hw) hmem))

/-- What a post adds to the log and to the queue. -/
theorem post_cases (accepted : Bool) (r : Report) (s : Registration) :
    ∃ target : Option Ref, (∀ q ∈ target, s.callbackPtr = some q) ∧
      (CallAbilityReportProxy.post accepted r s).2.log =
        s.log ++ [.broadcast s.nextReport r target.isSome] ∧
      ∀ q n r', .report q n r' ∈ (CallAbilityReportProxy.post accepted r s).2.queue →
        .report q n r' ∈ s.queue ∨ target = some q ∧ n = s.nextReport ∧ r' = r := by
  obtain ⟨target, htarget, hstate⟩ := post_eq accepted r s
  refine ⟨target, htarget, by rw [hstate], ?_⟩
  intro q n r' hr
  rw [hstate] at hr
  rcases List.mem_append.mp hr with hr | hr
  · exact .inl hr
  · obtain ⟨q', hq', heq⟩ := List.mem_map.mp hr
    obtain ⟨rfl, rfl, rfl⟩ := MainLoopTask.report.inj heq
    exact .inr ⟨Option.mem_toList.mp hq', rfl, rfl⟩

/-- A post while the callback is registered. -/
theorem Window.post (accepted : Bool) (r : Report) (hnum : Numbers s) (hw : w ⊆ s.log)
    (hheld : .stopped ∉ w → s.callbackPtr = some p) (h : Window p w s) :
    ∃ b, (CallAbilityReportProxy.post accepted r s).2.log =
        s.log ++ [.broadcast s.nextReport r b] ∧
      Window p (w ++ [.broadcast s.nextReport r b])
        (CallAbilityReportProxy.post accepted r s).2 := by
  obtain ⟨target, htarget, hlog, hqueue⟩ := post_cases accepted r s
  have hposted : ∀ b, b ∈ posted w → b ∈ posted (w ++ [.broadcast s.nextReport r target.isSome]) :=
    fun b hb => posted_append w _ ▸ List.mem_append_left _ hb
  have hnew : ∀ b, b ∈ posted (w ++ [.broadcast s.nextReport r target.isSome]) →
      b ∈ posted w ∨ target.isSome = true ∧ b = (s.nextReport, r) := by
    intro b hb
    rw [posted_append] at hb
    refine (List.mem_append.mp hb).imp id fun hb => ?_
    cases target with
    | none => simp [posted] at hb
    | some q => exact ⟨rfl, by simpa [posted] using hb⟩
  have hstopped (hstop : .stopped ∉ w ++ [.broadcast s.nextReport r target.isSome]) :
      .stopped ∉ w := fun h => hstop (List.mem_append_left _ h)
  refine ⟨target.isSome, hlog, ?_, ?_, ?_⟩
  · intro hstop
    have hnone : receivedBy p [.broadcast s.nextReport r target.isSome] = [] := rfl
    rw [receivedBy_append, hnone, List.append_nil, h.received (hstopped hstop)]
    have hlast : (posted [.broadcast s.nextReport r target.isSome]).filter
        (fun b => .dispatched b.1 ∈ w) = [] := by
      refine List.filter_eq_nil_iff.mpr fun b hb => ?_
      have hb : b = (s.nextReport, r) := by
        cases target with
        | none => simp [posted] at hb
        | some q => simpa [posted] using hb
      rw [hb]
      simp only [decide_eq_true_eq]
      exact fun hran => Nat.lt_irrefl _ (hnum.ran _ (hw hran)).1
    simp [dispatched, posted_append, hlast]
  · intro hstop q n r' hr r'' hb
    have hold := hstopped hstop
    rcases hqueue q n r' hr with hr | ⟨hq, -, -⟩
    · rcases hnew _ hb with hb | ⟨-, hb⟩
      · exact h.target hold q n r' hr r'' hb
      · have hlt := hnum.queueFresh n (mem_queued.mpr ⟨q, r', hr⟩)
        exact absurd (Prod.mk.inj hb).1 (Nat.ne_of_lt hlt)
    · exact Option.some.inj ((htarget q hq).symm.trans (hheld hold))
  · intro n r' hr
    rcases hqueue p n r' hr with hr | ⟨hq, rfl, rfl⟩
    · exact hposted _ (h.tasks n r' hr)
    · subst hq
      rw [posted_append]
      exact List.mem_append_right _ (by simp [posted])

/-- A post once another callback, or none, is registered. -/
theorem Window.post_other {accepted : Bool} {r : Report} (hnum : Numbers s) (hw : w ⊆ s.log)
    (hheld : s.callbackPtr ≠ some p) (h : Window p w s) :
    Window p w (CallAbilityReportProxy.post accepted r s).2 := by
  obtain ⟨target, htarget, -, hqueue⟩ := post_cases accepted r s
  refine ⟨h.received, ?_, ?_⟩
  · intro hstop q n r' hr r'' hb
    rcases hqueue q n r' hr with hr | ⟨-, rfl, -⟩
    · exact h.target hstop q n r' hr r'' hb
    · exact absurd hb (hnum.not_posted hw r'')
  · intro n r' hr
    rcases hqueue p n r' hr with hr | ⟨hq, -⟩
    · exact h.tasks n r' hr
    · exact absurd (htarget p hq) hheld

/-- The next one dispatched comes after those dispatched before it. -/
theorem filter_next {l : List (Nat × Report)} {ran : Nat → Prop} [DecidablePred ran] {n : Nat}
    {r : Report} (hsorted : (l.map Prod.fst).Pairwise (· < ·)) (hmem : (n, r) ∈ l)
    (hran : ∀ m, ran m → m < n) :
    l.filter (fun b => ran b.1 ∨ b.1 = n) = l.filter (fun b => ran b.1) ++ [(n, r)] := by
  induction l with
  | nil => cases hmem
  | cons b l ih =>
    obtain ⟨hfirst, hrest⟩ := List.pairwise_cons.mp hsorted
    have hlater : ∀ c ∈ l, b.1 < c.1 := fun c hc => hfirst c.1 (List.mem_map.mpr ⟨c, hc, rfl⟩)
    rcases List.mem_cons.mp hmem with rfl | hmem
    · have hnot : ¬ran n := fun h => Nat.lt_irrefl n (hran n h)
      have hall : ∀ c ∈ l, ¬ran c.1 ∧ c.1 ≠ n := fun c hc =>
        ⟨fun h => Nat.lt_asymm (hlater c hc) (hran c.1 h), Nat.ne_of_gt (hlater c hc)⟩
      rw [List.filter_cons_of_pos (by simp), List.filter_cons_of_neg (by simpa using hnot),
        List.filter_eq_nil_iff.mpr fun c hc => by simp [hall c hc],
        List.filter_eq_nil_iff.mpr fun c hc => by simp [hall c hc], List.nil_append]
    · have hne : b.1 ≠ n := Nat.ne_of_lt (hlater _ hmem)
      have hrec := ih hrest hmem
      by_cases hb : ran b.1
      · rw [List.filter_cons_of_pos (by simp [hb]), List.filter_cons_of_pos (by simp [hb]), hrec,
          List.cons_append]
      · rw [List.filter_cons_of_neg (by simp [hb, hne]), List.filter_cons_of_neg (by simp [hb]),
          hrec]

/-- The task of a report runs while the callback is registered. -/
theorem Window.deliver {q : Ref} {n : Nat} {r : Report} {rest : List MainLoopTask}
    (hnum : Numbers s) (hw : ∃ before, s.log = before ++ w)
    (hqueue : s.queue = .report q n r :: rest) (hopen : s.isOpen p = true) (h : Window p w s) :
    Window p (w ++ .dispatched n :: if s.isOpen q then [.received q n r] else [])
      (s.deliver q n r rest) := by
  have hhead : .report q n r ∈ s.queue := hqueue ▸ List.mem_cons_self
  have htasks : ∀ q' n' r', .report q' n' r' ∈ (s.deliver q n r rest).queue →
      .report q' n' r' ∈ s.queue := fun q' n' r' hr => hqueue ▸ List.mem_cons_of_mem _ hr
  have hposted : posted (w ++ .dispatched n :: if s.isOpen q then [.received q n r] else []) =
      posted w := by
    rw [posted_append]
    split <;> exact List.append_nil _
  have hstopped (hstop : .stopped ∉ w ++ .dispatched n ::
      if s.isOpen q then [.received q n r] else []) : .stopped ∉ w :=
    fun h => hstop (List.mem_append_left _ h)
  have hdispatched :
      dispatched (w ++ .dispatched n :: if s.isOpen q then [.received q n r] else []) =
        (posted w).filter fun b => .dispatched b.1 ∈ w ∨ b.1 = n := by
    rw [dispatched, hposted]
    refine List.filter_congr fun b _ => ?_
    split <;> simp
  have hold := h.of_tasks htasks
  refine ⟨?_, ?_, ?_⟩
  · intro hstop
    have hreceived := h.received (hstopped hstop)
    rw [hdispatched, receivedBy_append, hreceived]
    by_cases hq : q = p
    · subst hq
      obtain ⟨before, hlog⟩ := hw
      have hsorted : ((posted w).map Prod.fst).Pairwise (· < ·) := by
        refine List.Pairwise.sublist ?_ hnum.broadcasts
        rw [hlog, broadcasts_append]
        exact (posted_sublist w).trans (List.sublist_append_right _ _)
      have hran : ∀ m, .dispatched m ∈ w → m < n := fun m hm =>
        (hnum.ran m (hlog ▸ List.mem_append_right _ hm)).2 n (mem_queued.mpr ⟨q, r, hhead⟩)
      rw [filter_next hsorted (h.tasks n r hhead) hran]
      simp [hopen, receivedBy, dispatched]
    · have hnone : receivedBy p (.dispatched n :: if s.isOpen q then [.received q n r] else []) =
          [] := by
        split <;> simp [receivedBy, hq]
      rw [hnone, List.append_nil]
      refine List.filter_congr fun b hb => ?_
      have hne : b.1 ≠ n := fun hbn =>
        hq (h.target (hstopped hstop) q n r hhead b.2 (hbn ▸ hb))
      simp [hne]
  · intro hstop
    rw [hposted]
    exact hold.target (hstopped hstop)
  · rw [hposted]
    exact hold.tasks

end Window

/-! ## Lives -/

/-- The life of a callback, as the log shows it. -/
inductive Life (p : Ref) (s : Registration) : Prop where
  /-- It is registered. -/
  | alive (before w : List Notice) (hlog : s.log = before ++ .registered p :: w)
    (hbefore : receivedBy p before = []) (hwindow : Window p w s) (hw : .unregistered p ∉ w)
    (hopen : s.isOpen p = true) (hheld : .stopped ∉ w → s.callbackPtr = some p)
  /-- It was unregistered. -/
  | ended (before w after : List Notice)
    (hlog : s.log = before ++ .registered p :: (w ++ .unregistered p :: after))
    (hbefore : receivedBy p before = []) (hwindow : Window p w s) (hw : .unregistered p ∉ w)
    (hclosed : s.isOpen p = false) (hafter : receivedBy p after = [])

theorem Life.silent {es : List Notice} (hs : Silent es s s') (h : Life p s) : Life p s' := by
  cases h with
  | alive before w hlog hbefore hwindow hw hopen hheld =>
    have hwindow' := hwindow.of_tasks hs.tasks
    by_cases hp : .unregistered p ∈ es
    · obtain ⟨hes, hclosed⟩ := hs.closed p hp
      have hdestroyed : ∀ e ∈ [Notice.destroyed p], e.IsSilent := fun e he =>
        hs.silent e (by simp_all)
      refine .ended before (w ++ [.destroyed p]) [] ?_ hbefore
        (hwindow'.silent hdestroyed) ?_ hclosed
        rfl
      · rw [hs.log, hlog, hes]
        simp
      · simpa using hw
    · refine .alive before (w ++ es) ?_ hbefore (hwindow'.silent hs.silent) ?_ ?_ ?_
      · rw [hs.log, hlog]
        simp
      · simp [hw, hp]
      · rw [hs.opened p hp, hopen]
      · intro hstop
        obtain ⟨hstop, hstop'⟩ := not_or.mp (mt List.mem_append.mpr hstop)
        exact hs.held p hp hstop' (hheld hstop)
  | ended before w after hlog hbefore hwindow hw hclosed hafter =>
    have hclosed' : s'.isOpen p = false := by
      by_cases hp : .unregistered p ∈ es
      · exact (hs.closed p hp).2
      · rw [hs.opened p hp, hclosed]
    refine .ended before w (after ++ es) ?_ hbefore (hwindow.of_tasks hs.tasks) hw hclosed' ?_
    · rw [hs.log, hlog]
      simp
    · rw [receivedBy_append, hafter, receivedBy_silent hs.silent, List.append_nil]

/-- Another callback is registered. -/
theorem Life.register (hp : p < s.callbacks.next) (hnone : s.callbackPtr = none) (h : Life p s) :
    Life p (s.register trust) := by
  have hisOpen : (s.register trust).isOpen p = s.isOpen p := by
    simp [Registration.register, isOpen, Heap.get_alloc_of_lt _ _ hp]
  have hsilent : ∀ e ∈ [Notice.registered s.callbacks.next], e.IsSilent := by
    simp [Notice.IsSilent]
  have htasks : ∀ q n r, .report q n r ∈ (s.register trust).queue → .report q n r ∈ s.queue :=
    fun _ _ _ hr => hr
  cases h with
  | alive before w hlog hbefore hwindow hw hopen hheld =>
    refine .alive before (w ++ [.registered s.callbacks.next]) ?_ hbefore
      ((hwindow.silent hsilent).of_tasks htasks) ?_ (hisOpen.trans hopen) ?_
    · simp [Registration.register, hlog]
    · simpa using hw
    · intro hstop
      have hheld := hheld fun h => hstop (List.mem_append_left _ h)
      rw [hnone] at hheld
      cases hheld
  | ended before w after hlog hbefore hwindow hw hclosed hafter =>
    refine .ended before w (after ++ [.registered s.callbacks.next]) ?_ hbefore
      (hwindow.of_tasks htasks) hw (hisOpen.trans hclosed) ?_
    · simp [Registration.register, hlog]
    · rw [receivedBy_append, hafter, receivedBy_silent hsilent, List.append_nil]

/-- The callback itself is. -/
theorem Life.born (hinv : Inv trust s) (h : Births s) :
    Life s.callbacks.next (s.register trust) := by
  have hbefore : receivedBy s.callbacks.next s.log = [] := by
    refine List.filterMap_eq_nil_iff.mpr fun e he => ?_
    cases e with
    | received q n r => simp [Nat.ne_of_lt (h.received q n r he)]
    | _ => rfl
  refine .alive s.log [] rfl hbefore ⟨fun _ => rfl, ?_, ?_⟩ (by simp) ?_ fun _ => rfl
  · exact fun _ _ _ _ _ _ hr => absurd hr (List.not_mem_nil)
  · exact fun n r hr => absurd (hinv.queue _ n r hr) (Nat.lt_irrefl _)
  · simp [Registration.register, isOpen]

theorem Life.post (hinv : Inv trust s) (hnum : Numbers s) (hp : p < s.callbacks.next)
    (accepted : Bool) (r : Report) (h : Life p s) :
    Life p (CallAbilityReportProxy.post accepted r s).2 := by
  obtain ⟨target, htarget, hstate⟩ := post_eq accepted r s
  have hisOpen : (CallAbilityReportProxy.post accepted r s).2.isOpen p = s.isOpen p := by
    rw [hstate]
    rfl
  have hptr : (CallAbilityReportProxy.post accepted r s).2.callbackPtr = s.callbackPtr := by
    rw [hstate]
  cases h with
  | alive before w hlog hbefore hwindow hw hopen hheld =>
    have hsub : w ⊆ s.log := fun e he =>
      hlog ▸ List.mem_append_right _ (List.mem_cons_of_mem _ he)
    obtain ⟨b, hlog', hwindow'⟩ := hwindow.post accepted r hnum hsub hheld
    refine .alive before (w ++ [.broadcast s.nextReport r b]) ?_ hbefore hwindow' ?_
      (hisOpen.trans hopen) ?_
    · rw [hlog', hlog]
      simp
    · simpa using hw
    · intro hstop
      exact hptr.trans (hheld fun h => hstop (List.mem_append_left _ h))
  | ended before w after hlog hbefore hwindow hw hclosed hafter =>
    have hsub : w ⊆ s.log := fun e he =>
      hlog ▸ List.mem_append_right _ (List.mem_cons_of_mem _ (List.mem_append_left _ he))
    have hheld : s.callbackPtr ≠ some p := by
      intro hptr
      have hopen := (hinv.owner p hp).mpr (hinv.held p hptr)
      rw [hclosed] at hopen
      cases hopen
    refine .ended before w (after ++ [.broadcast s.nextReport r target.isSome]) ?_ hbefore
      (hwindow.post_other hnum hsub hheld) hw (hisOpen.trans hclosed) ?_
    · rw [hstate]
      simp [hlog]
    · rw [receivedBy_append, hafter]
      rfl

theorem Life.deliver {q : Ref} {n : Nat} {r : Report} {rest : List MainLoopTask}
    (hnum : Numbers s) (hqueue : s.queue = .report q n r :: rest) (h : Life p s) :
    Life p (s.deliver q n r rest) := by
  have htasks : ∀ q' n' r', .report q' n' r' ∈ (s.deliver q n r rest).queue →
      .report q' n' r' ∈ s.queue := fun q' n' r' hr => hqueue ▸ List.mem_cons_of_mem _ hr
  cases h with
  | alive before w hlog hbefore hwindow hw hopen hheld =>
    have hsuffix : ∃ before, s.log = before ++ w := ⟨before ++ [.registered p], by simp [hlog]⟩
    refine .alive before (w ++ .dispatched n :: if s.isOpen q then [.received q n r] else []) ?_
      hbefore (hwindow.deliver hnum hsuffix hqueue hopen) ?_ hopen ?_
    · simp [Registration.deliver, hlog]
    · split <;> simpa using hw
    · exact fun hstop => hheld fun h => hstop (List.mem_append_left _ h)
  | ended before w after hlog hbefore hwindow hw hclosed hafter =>
    refine .ended before w
      (after ++ .dispatched n :: if s.isOpen q then [.received q n r] else []) ?_ hbefore
      (hwindow.of_tasks htasks) hw hclosed ?_
    · simp [Registration.deliver, hlog]
    · rw [receivedBy_append, hafter]
      by_cases hq : q = p
      · subst hq
        rw [if_neg (by simp [hclosed])]
        rfl
      · split <;> simp [receivedBy, hq]

/-! ## Every run -/

/-- What the log records. -/
structure Records (s : Registration) : Prop where
  numbers : Numbers s
  births : Births s
  life : ∀ p, .registered p ∈ s.log → Life p s

theorem Records.move (hinv : Inv trust s) (hmove : Move trust s s') (h : Records s) :
    Records s' := by
  refine ⟨h.numbers.move hinv hmove, h.births.move hinv hmove, fun p hp => ?_⟩
  rcases hmove.silent_or hinv with ⟨es, hs⟩ | ⟨rfl, hnone⟩ | ⟨accepted, r, rfl⟩ |
    ⟨q, n, r, rest, hqueue, rfl⟩
  · rw [hs.log] at hp
    exact (h.life p ((List.mem_append.mp hp).resolve_right (hs.registered p))).silent hs
  · rcases List.mem_append.mp hp with hp | hp
    · exact (h.life p hp).register (h.births.registered p hp) hnone
    · obtain rfl : p = s.callbacks.next := by simpa using hp
      exact Life.born hinv h.births
  · obtain ⟨target, -, hstate⟩ := post_eq accepted r s
    have hp' : .registered p ∈ s.log := by simpa [hstate] using hp
    exact (h.life p hp').post hinv h.numbers (h.births.registered p hp') accepted r
  · have hp' : .registered p ∈ s.log := by
      refine (List.mem_append.mp hp).resolve_right fun hp => ?_
      split at hp <;> simp at hp
    exact (h.life p hp').deliver h.numbers hqueue

theorem Records.moveTo (hinv : Inv trust s) (hmoves : MoveTo trust s s') (h : Records s) :
    Records s' := by
  induction hmoves with
  | refl => exact h
  | tail hmoves hmove ih => exact ih.move (hinv.moveTo hmoves) hmove

theorem Records.started (h : Records s) : Records s.started := by
  have hs : Silent [] s s.started := by
    refine .of_callbacks (by simp [Registration.started]) (by simp) ?_ ?_ rfl rfl fun _ => rfl
    · exact (List.tail_sublist s.queue).filterMap _
    · exact fun _ _ _ hr => List.mem_of_mem_tail hr
  refine ⟨h.numbers.silent hs, h.births.of_log hs.log rfl (by simp) (by simp), ?_⟩
  exact fun p hp => (h.life p hp).silent hs

theorem Reachable.records (hs : Reachable trust s) : Records s := by
  refine Runs.Reachable.invariant_of (fun _ h => Reachable.inv h) ?_ ?_ hs
  · rintro s rfl
    refine ⟨⟨List.Pairwise.nil, by simp [broadcasts], List.Pairwise.nil, by simp [queued], by simp⟩,
      ⟨by simp, by simp, by simp⟩, by simp⟩
  · rintro s s' hinv h ⟨a, -, rfl⟩
    rcases step_moves trust hinv.calling a with ⟨-, hstart⟩ | hmoves
    · rw [hstart]
      exact h.started
    · exact h.moveTo hinv hmoves

/-- What the callback registered after `before` receives. -/
structure Delivered (p : Ref) (before later : List Notice) : Prop where
  /-- The reports posted while it was registered whose tasks ran while it was, in the order
  they were broadcast in. -/
  exactly : receivedBy p (before ++ .registered p :: later) = dispatched (registration p later)
  once : (receivedBy p (before ++ .registered p :: later)).Nodup
  /-- It receives nothing once it is unregistered. -/
  unregistered : ∀ l₁ l₂, later = l₁ ++ .unregistered p :: l₂ → receivedBy p l₂ = []
  /-- It receives nothing broadcast before it was registered. -/
  registered : ∀ n ∈ broadcasts before, ∀ r,
    (n, r) ∉ receivedBy p (before ++ .registered p :: later)

/-- A list is cut in one way only at a notice that occurs in it once. -/
theorem cut_unique {e : Notice} {l₁ l₂ m₁ m₂ : List Notice} (h : l₁ ++ e :: l₂ = m₁ ++ e :: m₂)
    (honce : (l₁ ++ e :: l₂).count e ≤ 1) : l₁ = m₁ ∧ l₂ = m₂ := by
  have hcount : ∀ l₁ l₂ : List Notice, (l₁ ++ e :: l₂).count e ≤ 1 → e ∉ l₁ ∧ e ∉ l₂ := by
    intro l₁ l₂ h
    rw [List.count_append, List.count_cons_self] at h
    exact ⟨List.count_eq_zero.mp (by omega), List.count_eq_zero.mp (by omega)⟩
  obtain ⟨hl₁, hl₂⟩ := hcount l₁ l₂ honce
  obtain ⟨rfl, -, rfl⟩ := (List.append_cons_inj_of_notMem hl₁ hl₂).mp h
  exact ⟨rfl, rfl⟩

theorem registration_of_not_mem {l : List Notice} (h : .unregistered p ∉ l) :
    registration p l = l :=
  List.takeWhile_eq_self_iff.mpr fun e he => by
    simp only [ne_eq, decide_not, Bool.not_eq_true', decide_eq_false_iff_not]
    rintro rfl
    exact h he

theorem registration_of_append {w l : List Notice} (h : .unregistered p ∉ w) :
    registration p (w ++ .unregistered p :: l) = w := by
  have hw := registration_of_not_mem h
  unfold registration at hw ⊢
  rw [List.takeWhile_append_of_pos fun e he => ?_]
  · simp
  · simp only [ne_eq, decide_not, Bool.not_eq_true', decide_eq_false_iff_not]
    rintro rfl
    exact h he

/-- What follows an unregistration is part of what follows the first. -/
theorem receivedBy_after {w after l₁ l₂ : List Notice} (hw : .unregistered p ∉ w)
    (hafter : receivedBy p after = [])
    (h : l₁ ++ .unregistered p :: l₂ = w ++ .unregistered p :: after) : receivedBy p l₂ = [] := by
  rcases List.append_eq_append_iff.mp h with ⟨c, rfl, hc⟩ | ⟨c, rfl, hc⟩
  · cases c with
    | nil =>
      obtain ⟨-, rfl⟩ := List.cons.inj hc
      exact hafter
    | cons e c =>
      obtain ⟨rfl, -⟩ := List.cons.inj hc
      exact absurd (List.mem_append_right _ List.mem_cons_self) hw
  · cases c with
    | nil =>
      obtain ⟨-, rfl⟩ := List.cons.inj hc
      exact hafter
    | cons e c =>
      have hc : after = c ++ .unregistered p :: l₂ := (List.cons.inj hc).2
      rw [hc, receivedBy_append] at hafter
      exact (List.append_eq_nil_iff.mp hafter).2

/-- **What a callback receives**: exactly the reports broadcast while it was registered that
were posted and dispatched before it was unregistered, in the order of the broadcasts, each
once; the service stays ready meanwhile. -/
theorem reachable_delivered (hs : Reachable trust s) {before later : List Notice}
    (hlog : s.log = before ++ .registered p :: later) (hready : .stopped ∉ registration p later) :
    Delivered p before later := by
  obtain ⟨hnum, hbirths, hlife⟩ := hs.records
  have honce := hbirths.once p
  rw [hlog] at honce
  have hmem : .registered p ∈ s.log := hlog ▸ List.mem_append_right _ List.mem_cons_self
  -- The life of the callback cuts the log at the same place.
  obtain ⟨w, after, hlater, hbefore, hwindow, hw, hafter⟩ :
      ∃ w after, (later = w ∧ after = [] ∨ later = w ++ .unregistered p :: after) ∧
        receivedBy p before = [] ∧ Window p w s ∧ .unregistered p ∉ w ∧
        receivedBy p after = [] := by
    cases hlife p hmem with
    | alive before' w hlog' hbefore hwindow hw hopen hheld =>
      obtain ⟨rfl, rfl⟩ := cut_unique (hlog.symm.trans hlog') honce
      exact ⟨later, [], .inl ⟨rfl, rfl⟩, hbefore, hwindow, hw, rfl⟩
    | ended before' w after hlog' hbefore hwindow hw hclosed hafter =>
      obtain ⟨rfl, rfl⟩ := cut_unique (hlog.symm.trans hlog') honce
      exact ⟨w, after, .inr rfl, hbefore, hwindow, hw, hafter⟩
  have hregistration : registration p later = w := by
    rcases hlater with ⟨rfl, -⟩ | rfl
    · exact registration_of_not_mem hw
    · exact registration_of_append hw
  have hreceived : receivedBy p later = receivedBy p w := by
    rcases hlater with ⟨rfl, -⟩ | rfl
    · rfl
    · have hcut : receivedBy p (.unregistered p :: after) = receivedBy p after := rfl
      rw [receivedBy_append, hcut, hafter, List.append_nil]
  have hexactly : receivedBy p (before ++ .registered p :: later) = dispatched w := by
    have hcut : receivedBy p (.registered p :: later) = receivedBy p later := rfl
    rw [receivedBy_append, hbefore, List.nil_append, hcut, hreceived]
    exact hwindow.received (hregistration ▸ hready)
  have hsub : ((dispatched w).map Prod.fst).Sublist (broadcasts later) := by
    have hw : (broadcasts w).Sublist (broadcasts later) := by
      rcases hlater with ⟨rfl, -⟩ | rfl
      · exact List.Sublist.refl _
      · exact (List.sublist_append_left _ _).filterMap _
    exact ((List.filter_sublist.map Prod.fst).trans (posted_sublist w)).trans hw
  have hsorted := hnum.broadcasts
  rw [hlog, broadcasts_append] at hsorted
  obtain ⟨-, hsorted, hbetween⟩ := List.pairwise_append.mp hsorted
  refine ⟨hregistration ▸ hexactly, ?_, ?_, ?_⟩
  · rw [hexactly]
    have hincreasing : ((dispatched w).map Prod.fst).Pairwise (· < ·) := hsorted.sublist hsub
    exact List.Nodup.of_map Prod.fst (hincreasing.imp Nat.ne_of_lt)
  · rintro l₁ l₂ rfl
    rcases hlater with ⟨rfl, -⟩ | hlater
    · exact absurd (List.mem_append_right _ List.mem_cons_self) hw
    · exact receivedBy_after hw hafter hlater
  · intro n hn r hr
    rw [hexactly] at hr
    have hlater : n ∈ broadcasts later := hsub.subset (List.mem_map.mpr ⟨_, hr, rfl⟩)
    exact Nat.lt_irrefl n (hbetween n hn n hlater)

/-- Two reports are posted; the second is dispatched too late. -/
theorem reachable_delivered_twice :
    Delivered 0 []
      [.broadcast 0 (.disconnectedCause 1) true, .broadcast 1 (.disconnectedCause 2) true,
        .dispatched 0, .received 0 0 (.disconnectedCause 1), .returned 0 0, .destroyed 0,
        .unregistered 0, .dispatched 1] :=
  @reachable_delivered trustedApp
    (run trustedApp (registersCallBack ++ [.service [(.callDestroyed 1, true)],
      .call .unRegisterCallBack, .post 0 true, .service [(.callDestroyed 2, true)], .dispatch [],
      .dispatch [], .dispatch []])) 0
    (.run (.start rfl) (by decide +kernel)) _ _ (by decide +kernel) (by decide +kernel)

end Registration

end CallManagerMini
