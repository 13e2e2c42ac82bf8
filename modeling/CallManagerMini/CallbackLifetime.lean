import CallManagerMini.CallbackProtocol

/-! # A callback that gives itself up

A call made from inside a callback runs in place.  `UnInit` and `UnRegisterCallBack` close
the callback at once, and closing destroys the application's object, although one of its
methods is still executing.  Nothing else a callback can call does
(`callback_outlives_iff`).
-/

namespace CallManagerMini

open Prog (Moves Post)
open Relation (ReflTransGen)

/-- What a call makes of `initStatus_`. -/
def ClientCall.initStatus : ClientCall → Bool → Bool
  | .init, _ => true
  | .unInit, _ => false
  | _, initStatus => initStatus

/-- The task a call posts, if it gets that far. -/
def ClientCall.task : ClientCall → Bool → Option MainLoopTask
  | .init, _ => none
  | .unInit, initStatus => if initStatus then some .unInit else none
  | .registerCallBack callback, initStatus =>
    if initStatus && callback then some .registerCallBack else none
  | .unRegisterCallBack, initStatus => if initStatus then some .unRegisterCallBack else none
  | .call events, initStatus => if initStatus then some (.call events) else none

theorem enter_apply (c : ClientCall) (s : Registration) :
    CallManagerProxy.enter c s =
      (c.task s.initStatus, { s with initStatus := c.initStatus s.initStatus }) := by
  cases c <;> rfl

namespace Registration

variable {trust : TrustModel} {s s' : Registration} {p : Ref}

/-- The service lets the client unregister. -/
def MayGiveUp (trust : TrustModel) (s : Registration) : Prop :=
  s.ready = true ∧ s.callbackPtr.isSome = true ∧ trust.mayUnRegister = true

/-- The call makes the proxy close its callback: `UnInit` of an initialised proxy, or an
`UnRegisterCallBack` that succeeds. -/
def GivesUp (mayGiveUp : Prop) (initStatus : Bool) : ClientCall → Prop
  | .unInit => initStatus = true
  | .unRegisterCallBack => initStatus = true ∧ mayGiveUp
  | _ => False

/-- One of the calls does. -/
def Closes (mayGiveUp : Prop) : Bool → List ClientCall → Prop
  | _, [] => False
  | initStatus, c :: cs =>
    GivesUp mayGiveUp initStatus c ∨ Closes mayGiveUp (c.initStatus initStatus) cs

instance (mayGiveUp : Prop) [Decidable mayGiveUp] (initStatus : Bool) (c : ClientCall) :
    Decidable (GivesUp mayGiveUp initStatus c) := by
  unfold GivesUp
  split <;> infer_instance

/-! ## What a call leaves in place -/

/-- Reports are posted and recorded. -/
def Posts (s s' : Registration) : Prop :=
  ∃ queue nextReport l, s' = { s with queue, nextReport, log := s.log ++ l } ∧
    ∀ p, .destroyed p ∉ l

instance : Std.Refl Posts := ⟨fun s => ⟨s.queue, s.nextReport, [], by simp, by simp⟩⟩

instance : IsTrans Registration Posts := by
  refine ⟨?_⟩
  rintro s _ _ ⟨_, _, l, rfl, hl⟩ ⟨queue, nextReport, l', rfl, hl'⟩
  exact ⟨queue, nextReport, l ++ l', by simp, fun p => by simp [hl p, hl' p]⟩

instance (accepted : Bool) (r : Report) : Moves Posts (CallAbilityReportProxy.post accepted r) := by
  refine ⟨fun s => ?_⟩
  obtain ⟨posted, -, hstate⟩ := post_eq accepted r s
  rw [hstate]
  exact ⟨_, _, _, rfl, by simp⟩

instance (events : List (Event × Bool)) : Moves Posts (CallManagerProxy.callTask events) := by
  unfold CallManagerProxy.callTask CallManagerProxy.runOnService CallAbilityReportProxy.notify
  infer_instance

/-- A method of the callback is executing. -/
structure Serving (p : Ref) (s : Registration) : Prop where
  running : s.running = true
  registered : s.registerStatus = true
  held : s.callAbilityCallbackPtr = some p
  owns : (s.callbacks.get p).callbackPtr = true

/-- The callback is still there after a call. -/
structure Kept (trust : TrustModel) (p : Ref) (c : ClientCall) (s s' : Registration) : Prop where
  serving : Serving p s'
  initStatus : s'.initStatus = c.initStatus s.initStatus
  mayGiveUp : s'.MayGiveUp trust ↔ s.MayGiveUp trust
  log : ∃ l, s'.log = s.log ++ l ∧ .destroyed p ∉ l

/-- The callback is given up, and its object destroyed. -/
theorem Serving.giveUp_log (h : Serving p s) :
    s.giveUp.log = s.log ++ [.destroyed p, .unregistered p] := by
  simp [giveUp_of_some h.held, h.owns]

theorem Serving.kept (trust : TrustModel) (c : ClientCall) (h : Serving p s) :
    Kept trust p c s { s with initStatus := c.initStatus s.initStatus } :=
  ⟨⟨h.running, h.registered, h.held, h.owns⟩, rfl, Iff.rfl, [], by simp, by simp⟩

/-- A call made on the main loop runs in place. -/
theorem runInPlace_state (h : s.running = true) (c : ClientCall) :
    (CallManagerProxy.runInPlace trust c s).2 =
      (Prog.forSome (c.task s.initStatus) (CallManagerProxy.runTask trust)
        { s with initStatus := c.initStatus s.initStatus }).2 := by
  simp [CallManagerProxy.runInPlace, enter_apply, Prog.when_apply, h]

/-- A call that gives the callback up destroys its object. -/
theorem Serving.destroyed (h : Serving p s) {c : ClientCall}
    (hc : GivesUp (s.MayGiveUp trust) s.initStatus c) :
    ∃ l, (CallManagerProxy.runInPlace trust c s).2.log = s.log ++ l ∧ .destroyed p ∈ l := by
  refine ⟨[.destroyed p, .unregistered p], ?_, List.mem_cons_self⟩
  rw [← h.giveUp_log, runInPlace_state h.running]
  cases c with
  | unInit =>
    have hinit : s.initStatus = true := hc
    have hserving : Serving p { s with initStatus := false } :=
      ⟨h.running, h.registered, h.held, h.owns⟩
    have htask : (ClientCall.unInit).task s.initStatus = some .unInit := if_pos hinit
    rw [htask, Prog.forSome_some, CallManagerProxy.runTask, unInitTask_state]
    exact hserving.giveUp_log.trans h.giveUp_log.symm
  | unRegisterCallBack =>
    obtain ⟨hinit, hready, hheld, htrust⟩ := hc
    have hstate := unRegisterTask_state trust s
    rw [if_pos ⟨hready, h.registered, htrust, hheld⟩] at hstate
    have hself : { s with initStatus := true } = s := by rw [← hinit]
    simp [ClientCall.task, ClientCall.initStatus, hinit, CallManagerProxy.runTask, hself, hstate]
  | _ => cases hc

/-- A call that posts nothing leaves the callback alone. -/
theorem Serving.kept_of_none (h : Serving p s) {c : ClientCall} (hc : c.task s.initStatus = none) :
    Kept trust p c s (CallManagerProxy.runInPlace trust c s).2 := by
  rw [runInPlace_state h.running, hc]
  exact h.kept trust c

/-- So does one whose task changes nothing. -/
theorem Serving.kept_of_some (h : Serving p s) {c : ClientCall} {t : MainLoopTask}
    (hc : c.task s.initStatus = some t) (hinit : c.initStatus s.initStatus = s.initStatus)
    (ht : (CallManagerProxy.runTask trust t s).2 = s) :
    Kept trust p c s (CallManagerProxy.runInPlace trust c s).2 := by
  have hself : { s with initStatus := c.initStatus s.initStatus } = s := by rw [hinit]
  have hkept := h.kept trust c
  rw [hself] at hkept
  rwa [runInPlace_state h.running, hc, hself, Prog.forSome_some, ht]

/-- Every call that does not give the callback up leaves it alone. -/
theorem Serving.runInPlace (h : Serving p s) {c : ClientCall}
    (hc : ¬GivesUp (s.MayGiveUp trust) s.initStatus c) :
    Kept trust p c s (CallManagerProxy.runInPlace trust c s).2 := by
  cases c with
  | init => exact h.kept_of_none rfl
  | unInit =>
    have hinit : s.initStatus = false := by simpa [GivesUp] using hc
    exact h.kept_of_none (by simp [ClientCall.task, hinit])
  | registerCallBack callback =>
    by_cases henter : (s.initStatus && callback) = true
    · have hstate := registerTask_state trust s
      rw [if_neg (by simp [h.registered])] at hstate
      exact h.kept_of_some (if_pos henter) rfl hstate
    · exact h.kept_of_none (if_neg henter)
  | unRegisterCallBack =>
    by_cases hinit : s.initStatus = true
    · have hstate := unRegisterTask_state trust s
      rw [if_neg fun ⟨hready, _, htrust, hheld⟩ => hc ⟨hinit, hready, hheld, htrust⟩] at hstate
      exact h.kept_of_some (if_pos hinit) rfl hstate
    · exact h.kept_of_none (if_neg hinit)
  | call events =>
    by_cases hinit : s.initStatus = true
    · obtain ⟨queue, nextReport, l, hposts, hl⟩ : Posts s (CallManagerProxy.callTask events s).2 :=
        Moves.rel s
      have htask : (ClientCall.call events).task s.initStatus = some (.call events) := if_pos hinit
      have hstate : (CallManagerProxy.runInPlace trust (.call events) s).2 =
          { s with queue, nextReport, log := s.log ++ l } := by
        rw [runInPlace_state h.running, htask]
        exact hposts
      rw [hstate]
      exact ⟨⟨h.running, h.registered, h.held, h.owns⟩, rfl, Iff.rfl, l, rfl, hl p⟩
    · exact h.kept_of_none (if_neg hinit)

/-! ## A whole callback -/

/-- Nothing that happens is taken back. -/
theorem Move.log (h : Move trust s s') : s.log <+: s'.log := by
  cases h with
  | post accepted r =>
    obtain ⟨posted, -, hstate⟩ := post_eq accepted r s
    rw [hstate]
    exact List.prefix_append _ _
  | unRegister | unInit =>
    unfold giveUp
    split
    · exact List.prefix_rfl
    · exact List.prefix_append _ _
  | register | serviceUnInit | deliver | returned => exact List.prefix_append _ _
  | _ => exact List.prefix_rfl

theorem MoveTo.log (h : MoveTo trust s s') : s.log <+: s'.log := by
  induction h with
  | refl => exact List.prefix_rfl
  | tail _ hmove ih => exact ih.trans hmove.log

/-- The calls of a callback destroy its object exactly if one of them gives it up. -/
theorem Serving.forEach (trust : TrustModel) (h : Serving p s) (nested : List ClientCall) :
    ∃ l, (Prog.forEach nested (CallManagerProxy.runInPlace trust) s).2.log = s.log ++ l ∧
      (.destroyed p ∈ l ↔ Closes (s.MayGiveUp trust) s.initStatus nested) := by
  induction nested generalizing s with
  | nil => exact ⟨[], by simp, by simp [Closes]⟩
  | cons c cs ih =>
    rw [Prog.forEach_cons]
    by_cases hc : GivesUp (s.MayGiveUp trust) s.initStatus c
    · obtain ⟨l, hlog, hl⟩ := h.destroyed hc
      have hrest : MoveTo trust (CallManagerProxy.runInPlace trust c s).2
          (Prog.forEach cs (CallManagerProxy.runInPlace trust)
            (CallManagerProxy.runInPlace trust c s).2).2 := Moves.rel _
      obtain ⟨l', hlog'⟩ := hrest.log
      refine ⟨l ++ l', by rw [← hlog', hlog, List.append_assoc], ?_⟩
      exact iff_of_true (List.mem_append_left _ hl) (.inl hc)
    · have hkept := h.runInPlace hc
      obtain ⟨l, hlog, hl⟩ := hkept.log
      obtain ⟨l', hlog', hl'⟩ := ih hkept.serving
      refine ⟨l ++ l', by rw [hlog', hlog, List.append_assoc], ?_⟩
      rw [List.mem_append, hl', hkept.initStatus, propext hkept.mayGiveUp]
      simp [Closes, hc, hl]

/-- The task of the report calls the callback, which returns with its object still there. -/
def Outlives (p : Ref) (n : Nat) (r : Report) (s s' : Registration) : Prop :=
  ∃ l, s'.log = s.log ++ .dispatched n :: .received p n r :: l ++ [.returned p n] ∧
    .destroyed p ∉ l

/-- **The callback object outlives the call** that a report makes to it, whatever came before,
exactly if none of the calls it makes gives it up. -/
theorem callback_outlives_iff {n : Nat} {r : Report} {rest : List MainLoopTask}
    (hs : Reachable trust s) (hrunning : s.running = true)
    (hqueue : s.queue = .report p n r :: rest) (hopen : s.isOpen p = true)
    (nested : List ClientCall) :
    Outlives p n r s (step trust (.dispatch nested) s) ↔
      ¬Closes (s.MayGiveUp trust) s.initStatus nested := by
  have hinv := hs.inv
  have hheld : s.callAbilityCallbackPtr = some p :=
    (hinv.owner p (hinv.queue p n r (hqueue ▸ List.mem_cons_self))).mp hopen
  have hserving : Serving p (s.deliver p n r rest) :=
    ⟨hrunning, by simp [deliver, hinv.status, hheld], hheld, (isOpen_iff.mp hopen).2⟩
  obtain ⟨l, hlog, hl⟩ := hserving.forEach trust nested
  have hstate : step trust (.dispatch nested) s =
      (nestedCalls trust p n nested (s.deliver p n r rest)).2 := by
    have h := onReport_state trust p n r rest nested s
    rw [if_pos hopen] at h
    simpa [step, act, Prog.when_apply, hrunning, hqueue, dispatch] using h
  have hdone : (step trust (.dispatch nested) s).log =
      s.log ++ .dispatched n :: .received p n r :: l ++ [.returned p n] := by
    have hdeliver : (s.deliver p n r rest).log = s.log ++ [.dispatched n, .received p n r] := by
      simp [deliver, hopen]
    rw [hdeliver] at hlog
    simp [hstate, nestedCalls, note, hlog]
  have hcloses : .destroyed p ∈ l ↔ Closes (s.MayGiveUp trust) s.initStatus nested := hl
  rw [← hcloses]
  constructor
  · rintro ⟨l', hdone', hl'⟩
    obtain rfl : l = l' := by simpa [hdone] using hdone'
    exact hl'
  · exact fun hl' => ⟨l, hdone, hl'⟩

/-- A registered client, and a report on its way to the callback. -/
def reports : Registration := run trustedApp (registersCallBack ++
    [.service [(.callDestroyed 0, true)]])

theorem reports_reachable : Reachable trustedApp reports := .run (.start rfl) (by decide +kernel)

theorem callback_outlives_registering :
    Outlives 0 0 (.disconnectedCause 0) reports
      (step trustedApp (.dispatch [.registerCallBack true, .init, .call []]) reports) :=
  (@callback_outlives_iff _ _ _ _ _ [] reports_reachable
    (by decide +kernel) (by decide +kernel) (by decide +kernel) _).mpr
    (by simp [Closes, GivesUp])

/-- A callback unregisters itself: its object is destroyed before its method returns. -/
theorem callback_unregisters_itself :
    ∃ s, Reachable trustedApp s ∧ s.running = true ∧
      s.queue = [.report 0 0 (.disconnectedCause 0)] ∧ s.isOpen 0 = true ∧
      ¬Outlives 0 0 (.disconnectedCause 0) s (step trustedApp (.dispatch [.unRegisterCallBack]) s) := by
  refine ⟨reports, reports_reachable, by decide +kernel, by decide +kernel, by decide +kernel, ?_⟩
  rintro ⟨l, hlog, hl⟩
  have hdone : (step trustedApp (.dispatch [.unRegisterCallBack]) reports).log =
      reports.log ++ .dispatched 0 :: .received 0 0 (.disconnectedCause 0) ::
        [.destroyed 0, .unregistered 0] ++
        [.returned 0 0] := by decide +kernel
  have heq : [.destroyed 0, .unregistered 0] ++ [.returned 0 0] = l ++ [Notice.returned 0 0] := by
    simpa [hdone] using hlog
  obtain rfl := List.append_cancel_right heq
  exact hl List.mem_cons_self

end Registration

end CallManagerMini
