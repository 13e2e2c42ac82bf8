import CallManagerMini.CallManagerProxy

/-! # The registration protocol

What the proxies, the service and the main loop can do to the registration, move by move
(`Move`).  Every action of the model is a few moves, or the start of the service
(`step_moves`), so that an invariant is checked against the moves and not against the
programs.  `Inv` says who holds what.
-/

namespace CallManagerMini

open Prog (Moves Post)
open Relation (ReflTransGen)

/-- The permissions `RegisterCallBack` asks for. -/
def TrustModel.mayRegister (trust : TrustModel) : Bool :=
  trust.grants .setTelephonyState || trust.grants .getTelephonyState ||
    trust.grants .getCallTransferInfo

/-- The permissions `UnRegisterCallBack` asks for. -/
def TrustModel.mayUnRegister (trust : TrustModel) : Bool :=
  trust.isSystemApp && trust.grants .setTelephonyState

/-- A task that is no report. -/
def MainLoopTask.IsCall : MainLoopTask → Prop
  | .report .. => False
  | _ => True

theorem MainLoopTask.IsClient.isCall {t : MainLoopTask} (h : t.IsClient) : t.IsCall := by
  cases t with
  | report => cases h
  | _ => trivial

namespace Registration

variable {trust : TrustModel} {s s' : Registration}

/-! ## What the tasks do -/

/-- A new callback is registered. -/
def register (trust : TrustModel) (s : Registration) : Registration :=
  { s with
    callbacks := s.callbacks.alloc { bundleInfo := trust.bundleName }
    callbackPtr := some s.callbacks.next
    callAbilityCallbackPtr := some s.callbacks.next
    registerStatus := true
    log := s.log ++ [.registered s.callbacks.next] }

/-- The proxy closes its callback and lets go of it. -/
def giveUp (s : Registration) : Registration :=
  match s.callAbilityCallbackPtr with
  | none => { s with callAbilityCallbackPtr := none, registerStatus := false }
  | some p =>
    { s with
      callbacks := s.callbacks.set p { s.callbacks.get p with closed := true, callbackPtr := false }
      callAbilityCallbackPtr := none
      registerStatus := false
      log := s.log ++ ((if (s.callbacks.get p).callbackPtr then [.destroyed p] else []) ++
        [.unregistered p]) }

/-- The callback the report proxy is left with when a bundle's callback is unregistered. -/
def keptFor (trust : TrustModel) (s : Registration) : Option Ref :=
  s.callbackPtr.filter fun p => (s.callbacks.get p).bundleInfo ≠ trust.bundleName

theorem eq_self_of_callbackPtr {held : Option Ref} (h : s.callbackPtr = held) :
    { s with callbackPtr := held } = s := by
  subst h
  rfl

theorem unRegisterCallBack_apply (trust : TrustModel) (s : Registration) :
    CallAbilityReportProxy.unRegisterCallBack trust.bundleName s =
      (if s.callbackPtr.isSome then .success else .errLocalPtrNull,
        { s with callbackPtr := s.keptFor trust }) := by
  unfold CallAbilityReportProxy.unRegisterCallBack keptFor
  simp only [Prog.bind_apply, Prog.gets_apply]
  cases hp : s.callbackPtr with
  | none => simp [eq_self_of_callbackPtr hp]
  | some p =>
    by_cases hb : (s.callbacks.get p).bundleInfo = trust.bundleName
    · simp [hb, getCallback, Prog.when_apply, Option.filter]
    · simp [hb, getCallback, Prog.when_apply, Option.filter, eq_self_of_callbackPtr hp]

theorem registerTask_state (trust : TrustModel) (s : Registration) :
    (CallManagerProxy.registerTask trust s).2 =
      if s.ready = true ∧ s.registerStatus = false ∧ trust.mayRegister = true ∧
        s.callbackPtr = none then s.register trust else s := by
  have hmay : (!trust.grants .setTelephonyState && !trust.grants .getTelephonyState &&
      !trust.grants .getCallTransferInfo) = !trust.mayRegister := by
    simp [TrustModel.mayRegister]
  simp only [CallManagerProxy.registerTask, CallManagerProxy.runOnService, Prog.bind_apply,
    Prog.gets_apply, CallManagerService.registerCallBack, hmay]
  by_cases hready : s.ready = true
  · by_cases hstatus : s.registerStatus = true
    · simp [hready, hstatus]
    · by_cases htrust : trust.mayRegister = true
      · cases hp : s.callbackPtr with
        | none =>
          simp [hready, hstatus, htrust, CallAbilityReportProxy.registerCallBack, hp,
            register, note]
        | some p => simp [hready, hstatus, htrust, CallAbilityReportProxy.registerCallBack, hp]
      · simp [hready, hstatus, htrust]
  · simp [hready]

theorem giveUp_of_none (h : s.callAbilityCallbackPtr = none) :
    s.giveUp = { s with callAbilityCallbackPtr := none, registerStatus := false } := by
  simp [giveUp, h]

theorem giveUp_of_some {p : Ref} (h : s.callAbilityCallbackPtr = some p) :
    s.giveUp =
      { s with
        callbacks := s.callbacks.set p
          { s.callbacks.get p with closed := true, callbackPtr := false }
        callAbilityCallbackPtr := none
        registerStatus := false
        log := s.log ++ ((if (s.callbacks.get p).callbackPtr then [.destroyed p] else []) ++
          [.unregistered p]) } := by
  simp [giveUp, h]

theorem unRegisterTask_state (trust : TrustModel) (s : Registration) :
    (CallManagerProxy.unRegisterTask trust s).2 =
      if s.ready = true ∧ s.registerStatus = true ∧ trust.mayUnRegister = true ∧
        s.callbackPtr.isSome = true then
          { s.giveUp with callbackPtr := s.keptFor trust } else s := by
  simp only [CallManagerProxy.unRegisterTask, CallManagerProxy.runOnService, Prog.bind_apply,
    Prog.gets_apply, CallManagerService.unRegisterCallBack]
  by_cases hready : s.ready = true
  · by_cases hstatus : s.registerStatus = true
    · by_cases htrust : trust.mayUnRegister = true
      · obtain ⟨happ, hset⟩ : trust.isSystemApp = true ∧
            trust.grants .setTelephonyState = true := by
          simpa [TrustModel.mayUnRegister] using htrust
        cases hp : s.callbackPtr with
        | none =>
          have hdrop : CallAbilityReportProxy.unRegisterCallBack trust.bundleName s =
              (.errLocalPtrNull, s) := by
            simp [unRegisterCallBack_apply, keptFor, hp, eq_self_of_callbackPtr hp]
          simp [hready, hstatus, happ, hset, hdrop]
        | some q =>
          cases hheld : s.callAbilityCallbackPtr with
          | none =>
            simp [hready, hstatus, happ, hset, htrust, unRegisterCallBack_apply, hp,
              giveUp_of_none hheld, hheld]
          | some p =>
            cases hc : (s.callbacks.get p).callbackPtr <;>
              simp [hready, hstatus, happ, hset, htrust, unRegisterCallBack_apply, hp,
                giveUp_of_some hheld, hheld, CallAbilityCallback.close, getCallback,
                Prog.when_apply, note, hc]
      · by_cases happ : trust.isSystemApp = true
        · have hset : trust.grants .setTelephonyState = false := by
            simpa [TrustModel.mayUnRegister, happ] using htrust
          simp [hready, hstatus, happ, hset, htrust]
        · simp [hready, hstatus, happ, htrust]
    · simp [hready, hstatus]
  · simp [hready]

theorem unInitTask_state (s : Registration) :
    (CallManagerProxy.unInitTask s).2 =
      { s.giveUp with
        callbackPtr := if s.callbackPtr = s.callAbilityCallbackPtr then none
          else s.callbackPtr } := by
  cases hheld : s.callAbilityCallbackPtr with
  | none =>
    cases hp : s.callbackPtr <;>
      simp [CallManagerProxy.unInitTask, hheld, giveUp_of_none hheld, hp]
  | some p =>
    cases hc : (s.callbacks.get p).callbackPtr <;>
      simp [CallManagerProxy.unInitTask, hheld, giveUp_of_some hheld, CallAbilityCallback.close,
        getCallback, Prog.when_apply, note, hc, CallAbilityReportProxy.dropCallBack]

theorem serviceUnInit_state (trust : TrustModel) (s : Registration) :
    (CallManagerService.unInit trust s).2 =
      if s.ready = true then
        { s with ready := false, callbackPtr := s.keptFor trust, log := s.log ++ [.stopped] }
      else s := by
  have hdrop := unRegisterCallBack_apply trust { s with ready := false }
  by_cases hready : s.ready = true
  · simp [CallManagerService.unInit, Prog.when_apply, hready, hdrop, note, keptFor]
  · simp [CallManagerService.unInit, Prog.when_apply, hready]

/-! ## Moves -/

/-- The callback still has its object, and passes reports on. -/
def isOpen (s : Registration) (p : Ref) : Bool :=
  !((s.callbacks.get p).closed || !(s.callbacks.get p).callbackPtr)

/-- The task of a report, up to the callback's own calls. -/
def deliver (p : Ref) (n : Nat) (r : Report) (rest : List MainLoopTask) (s : Registration) :
    Registration :=
  { s with
    queue := rest
    log := s.log ++ (.dispatched n :: if s.isOpen p then [.received p n r] else []) }

/-- The moves. -/
inductive Move (trust : TrustModel) : Registration → Registration → Prop where
  | initStatus {s : Registration} (initStatus : Bool) : Move trust s { s with initStatus }
  | loopInit {s : Registration} : Move trust s { s with running := true }
  | loopStop {s : Registration} : Move trust s { s with running := false, queue := [] }
  | calls {s : Registration} (calling : List MainLoopTask)
    {tasks : List MainLoopTask} (hcalling : ∀ t ∈ calling, t.IsClient)
      (htasks : ∀ t ∈ tasks, t.IsCall) :
    Move trust s { s with calling, queue := s.queue ++ tasks }
  | register {s : Registration} (hready : s.ready = true) (hstatus : s.registerStatus = false)
    (hheld : s.callbackPtr = none) : Move trust s (s.register trust)
  | unRegister {s : Registration} (hready : s.ready = true) (hstatus : s.registerStatus = true)
    (hheld : s.callbackPtr.isSome = true) :
    Move trust s { s.giveUp with callbackPtr := s.keptFor trust }
  | unInit {s : Registration} : Move trust s
      { s.giveUp with
        callbackPtr := if s.callbackPtr = s.callAbilityCallbackPtr then none else s.callbackPtr }
  | serviceUnInit {s : Registration} (hready : s.ready = true) : Move trust s
      { s with ready := false, callbackPtr := s.keptFor trust, log := s.log ++ [.stopped] }
  | post {s : Registration} (accepted : Bool) (r : Report) :
    Move trust s (CallAbilityReportProxy.post accepted r s).2
  | take {s : Registration} {t : MainLoopTask} {rest : List MainLoopTask}
    (hqueue : s.queue = t :: rest) (ht : t.IsCall) : Move trust s { s with queue := rest }
  | deliver {s : Registration} {p : Ref} {n : Nat} {r : Report} {rest : List MainLoopTask}
    (hqueue : s.queue = .report p n r :: rest) : Move trust s (s.deliver p n r rest)
  | returned {s : Registration} (p : Ref) (n : Nat) :
    Move trust s { s with log := s.log ++ [.returned p n] }

/-- A few moves. -/
def MoveTo (trust : TrustModel) : Registration → Registration → Prop := ReflTransGen (Move trust)

instance : Std.Refl (MoveTo trust) := ⟨fun _ => .refl⟩

instance : IsTrans Registration (MoveTo trust) := ⟨fun _ _ _ => ReflTransGen.trans⟩

theorem Move.to (h : Move trust s s') : MoveTo trust s s' := .single h

instance : Moves (MoveTo trust) (CallManagerProxy.registerTask trust) := by
  refine ⟨fun s => ?_⟩
  rw [registerTask_state]
  split
  · next h => exact (Move.register h.1 h.2.1 h.2.2.2).to
  · exact .refl

instance : Moves (MoveTo trust) (CallManagerProxy.unRegisterTask trust) := by
  refine ⟨fun s => ?_⟩
  rw [unRegisterTask_state]
  split
  · next h => exact (Move.unRegister h.1 h.2.1 h.2.2.2).to
  · exact .refl

instance : Moves (MoveTo trust) CallManagerProxy.unInitTask := by
  refine ⟨fun s => ?_⟩
  rw [unInitTask_state]
  exact Move.unInit.to

instance : Moves (MoveTo trust) (CallManagerService.unInit trust) := by
  refine ⟨fun s => ?_⟩
  rw [serviceUnInit_state]
  split
  · next h => exact (Move.serviceUnInit h).to
  · exact .refl

instance (accepted : Bool) (r : Report) :
    Moves (MoveTo trust) (CallAbilityReportProxy.post accepted r) :=
  ⟨fun _ => (Move.post accepted r).to⟩

instance (events : List (Event × Bool)) :
    Moves (MoveTo trust) (CallAbilityReportProxy.notify events) := by
  unfold CallAbilityReportProxy.notify
  infer_instance

instance (events : List (Event × Bool)) :
    Moves (MoveTo trust) (CallManagerProxy.callTask events) := by
  unfold CallManagerProxy.callTask CallManagerProxy.runOnService
  infer_instance

instance (c : ClientCall) : Moves (MoveTo trust) (CallManagerProxy.enter c) := by
  have hset : ∀ b, Moves (MoveTo trust) (Prog.modify
    fun s : Registration => { s with initStatus := b }) :=
    fun b => ⟨fun s => (Move.initStatus b).to⟩
  cases c <;> (unfold CallManagerProxy.enter; infer_instance)

/-- The tasks a client call posts. -/
theorem enter_isClient (c : ClientCall) (s : Registration) :
    ∀ t ∈ (CallManagerProxy.enter c s).1, t.IsClient := by
  intro t ht
  cases c with
  | init => cases ht
  | _ =>
    obtain ⟨-, ht⟩ := Option.mem_ite_none_right.mp ht
    cases ht
    trivial

theorem runClient_moves {t : MainLoopTask} (ht : t.IsClient) :
    Moves (MoveTo trust) (CallManagerProxy.runTask trust t) := by
  cases t with
  | serviceInit => cases ht
  | serviceUnInit => cases ht
  | report => cases ht
  | _ => unfold CallManagerProxy.runTask; infer_instance

instance (c : ClientCall) : Moves (MoveTo trust) (CallManagerProxy.runInPlace trust c) := by
  refine ⟨fun s => ?_⟩
  change Post (CallManagerProxy.runInPlace trust c) s fun _ s' => MoveTo trust s s'
  refine Post.bind (Q := fun task s₁ => MoveTo trust s s₁ ∧ ∀ t ∈ task, MainLoopTask.IsClient t)
    ⟨Moves.rel s, enter_isClient c s⟩ ?_
  rintro task s₁ ⟨h₁, htask⟩
  refine Post.bind_gets (Post.when (fun _ => ?_) fun _ => h₁)
  cases task with
  | none => exact h₁
  | some t =>
    have hrun : MoveTo trust s₁ (CallManagerProxy.runTask trust t s₁).2 :=
      (runClient_moves (htask t rfl)).rel s₁
    exact h₁.trans hrun

/-! ## Actions -/

theorem isOpen_iff {p : Ref} :
    s.isOpen p = true ↔
      (s.callbacks.get p).closed = false ∧ (s.callbacks.get p).callbackPtr = true := by
  simp [isOpen]

/-- What a callback does once it is called. -/
def nestedCalls (trust : TrustModel) (p : Ref) (n : Nat) (nested : List ClientCall) :
    Prog Registration Unit := do
  Prog.forEach nested (CallManagerProxy.runInPlace trust)
  note (.returned p n)

instance (p : Ref) (n : Nat) : Moves (MoveTo trust) (note (.returned p n)) :=
  ⟨fun _ => (Move.returned p n).to⟩

instance (p : Ref) (n : Nat) (nested : List ClientCall) :
    Moves (MoveTo trust) (nestedCalls trust p n nested) := by
  unfold nestedCalls
  infer_instance

/-- The task of a report: it is delivered, and an open callback makes its calls. -/
theorem onReport_state (trust : TrustModel) (p : Ref) (n : Nat) (r : Report)
    (rest : List MainLoopTask) (nested : List ClientCall) (s : Registration) :
    (CallAbilityCallback.onReport trust p n r nested { s with queue := rest }).2 =
      if s.isOpen p then (nestedCalls trust p n nested (s.deliver p n r rest)).2
      else s.deliver p n r rest := by
  by_cases hopen : s.isOpen p = true
  · obtain ⟨hclosed, howns⟩ := isOpen_iff.mp hopen
    simp [CallAbilityCallback.onReport, note, getCallback, nestedCalls, deliver, hopen, hclosed,
      howns]
  · have hc : (s.callbacks.get p).closed = true ∨ (s.callbacks.get p).callbackPtr = false := by
      by_contra h
      exact hopen (isOpen_iff.mpr (by simpa using h))
    simp [CallAbilityCallback.onReport, note, getCallback, deliver, hopen, hc]

theorem onReport_moves {p : Ref} {n : Nat} {r : Report} {rest : List MainLoopTask}
    (hqueue : s.queue = .report p n r :: rest) (nested : List ClientCall) :
    MoveTo trust s (CallAbilityCallback.onReport trust p n r nested { s with queue := rest }).2 := by
  have hdeliver : MoveTo trust s (s.deliver p n r rest) := (Move.deliver hqueue).to
  rw [onReport_state]
  split
  · have hnested : MoveTo trust (s.deliver p n r rest)
        (nestedCalls trust p n nested (s.deliver p n r rest)).2 := Moves.rel _
    exact hdeliver.trans hnested
  · exact hdeliver

/-- The action starts the service. -/
def Starts (a : Action) (s : Registration) : Prop :=
  match a with
  | .dispatch _ =>
    s.running = true ∧ s.queue.head? = some (.serviceInit true) ∧ s.ready = false
  | _ => False

instance (a : Action) (s : Registration) : Decidable (Starts a s) := by
  unfold Starts
  split <;> infer_instance

/-- The start of the service. -/
def started (s : Registration) : Registration := { s with queue := s.queue.tail, ready := true }

theorem enter_calling (c : ClientCall) (s : Registration) :
    (CallManagerProxy.enter c s).2.calling = s.calling := by
  cases c <;> rfl

/-- Tasks are handed to the main loop. -/
theorem enqueue_moves {calling tasks : List MainLoopTask} (hcalling : ∀ t ∈ calling, t.IsClient)
    (htasks : ∀ t ∈ tasks, t.IsCall) (accepted : Bool) :
    MoveTo trust s (enqueue accepted tasks { s with calling }).2 := by
  have h : MoveTo trust s { s with calling, queue := s.queue ++ tasks } :=
    (Move.calls calling hcalling htasks).to
  have h' : MoveTo trust s { s with calling, queue := s.queue ++ [] } :=
    (Move.calls calling hcalling (by simp)).to
  simp only [enqueue, Prog.modify_apply]
  split
  · exact h
  · simpa using h'

/-- The task at the head of the queue runs. -/
theorem dispatch_moves (trust : TrustModel) {t : MainLoopTask} {rest : List MainLoopTask}
    (hqueue : s.queue = t :: rest) (nested : List ClientCall) :
    t = .serviceInit true ∧ s.ready = false ∨
      MoveTo trust s (dispatch trust nested t { s with queue := rest }).2 := by
  have htake (ht : t.IsCall) : MoveTo trust s { s with queue := rest } := (Move.take hqueue ht).to
  have hclient (ht : t.IsClient) (htask : dispatch trust nested t =
    CallManagerProxy.runTask trust t) :
      MoveTo trust s (dispatch trust nested t { s with queue := rest }).2 := by
    rw [htask]
    exact (htake ht.isCall).trans ((runClient_moves ht).rel _)
  cases t with
  | report p n r => exact .inr (onReport_moves hqueue nested)
  | serviceUnInit =>
    have hstop : MoveTo trust { s with queue := rest }
        (CallManagerService.unInit trust { s with queue := rest }).2 := Moves.rel _
    exact .inr ((htake trivial).trans hstop)
  | serviceInit ok =>
    have hstate : (dispatch trust nested (.serviceInit ok) { s with queue := rest }).2 =
        if s.ready = false ∧ ok = true then { s with queue := rest, ready := true }
        else { s with queue := rest } := by
      cases s.ready <;> cases ok <;>
        simp [dispatch, CallManagerProxy.runTask, CallManagerService.init]
    by_cases h : s.ready = false ∧ ok = true
    · exact .inl ⟨by rw [h.2], h.1⟩
    · rw [hstate, if_neg h]
      exact .inr (htake trivial)
  | _ => exact .inr (hclient trivial rfl)

/-- **What one action can do**: a few moves, or the start of the service. -/
theorem step_moves (trust : TrustModel) (hcalling : ∀ t ∈ s.calling, t.IsClient) (a : Action) :
    Starts a s ∧ step trust a s = s.started ∨ MoveTo trust s (step trust a s) := by
  cases a with
  | call c =>
    have henter : MoveTo trust s (CallManagerProxy.enter c s).2 := Moves.rel s
    have hcalls : ∀ t ∈ s.calling ++ (CallManagerProxy.enter c s).1.toList, t.IsClient := by
      intro t ht
      rcases List.mem_append.mp ht with ht | ht
      · exact hcalling t ht
      · exact enter_isClient c s t (Option.mem_toList.mp ht)
    have hstate : step trust (.call c) s =
        { (CallManagerProxy.enter c s).2 with
          calling := s.calling ++ (CallManagerProxy.enter c s).1.toList
          queue := (CallManagerProxy.enter c s).2.queue ++ [] } := by
      simp [step, act, enter_calling]
    rw [hstate]
    exact .inr (henter.trans (Move.calls _ hcalls (by simp)).to)
  | post k accepted =>
    have hcalls : ∀ t ∈ s.calling.eraseIdx k, t.IsClient :=
      fun t ht => hcalling t (List.mem_of_mem_eraseIdx ht)
    have htasks : ∀ t ∈ s.calling[k]?.toList, t.IsCall := fun t ht =>
      (hcalling t (List.mem_of_getElem? (Option.mem_toList.mp ht))).isCall
    exact .inr (enqueue_moves hcalls htasks accepted)
  | loopInit => exact .inr Move.loopInit.to
  | loopStop => exact .inr Move.loopStop.to
  | start ok accepted =>
    have htasks : ∀ t ∈ [MainLoopTask.serviceInit ok], t.IsCall := by simp [MainLoopTask.IsCall]
    exact .inr (enqueue_moves hcalling htasks accepted)
  | stop accepted =>
    have htasks : ∀ t ∈ [MainLoopTask.serviceUnInit], t.IsCall := by simp [MainLoopTask.IsCall]
    exact .inr (enqueue_moves hcalling htasks accepted)
  | dispatch nested =>
    cases hrunning : s.running with
    | false =>
      have hstate : step trust (.dispatch nested) s = s := by
        simp [step, act, Prog.when_apply, hrunning]
      rw [hstate]
      exact .inr .refl
    | true =>
      cases hqueue : s.queue with
      | nil =>
        have hstate : step trust (.dispatch nested) s = s := by
          simp [step, act, Prog.when_apply, hqueue]
        rw [hstate]
        exact .inr .refl
      | cons t rest =>
        have hstate : step trust (.dispatch nested) s =
            (dispatch trust nested t { s with queue := rest }).2 := by
          simp [step, act, Prog.when_apply, hrunning, hqueue]
        rw [hstate]
        rcases dispatch_moves trust hqueue nested with ⟨rfl, hready⟩ | h
        · refine .inl ⟨⟨hrunning, by simp [hqueue], hready⟩, ?_⟩
          simp [dispatch, CallManagerProxy.runTask, CallManagerService.init, hready,
            started, hqueue]
        · exact .inr h
  | service events =>
    have hnotify : MoveTo trust s (CallAbilityReportProxy.notify events s).2 := Moves.rel s
    cases hrunning : s.running with
    | false =>
      have hstate : step trust (.service events) s = s := by
        simp [step, act, Prog.when_apply, hrunning]
      rw [hstate]
      exact .inr .refl
    | true =>
      have hstate : step trust (.service events) s =
          (CallAbilityReportProxy.notify events s).2 := by
        simp [step, act, Prog.when_apply, hrunning]
      rw [hstate]
      exact .inr hnotify

/-! ## Who holds what -/

/-- What holds between the actions, and during them. -/
structure Inv (trust : TrustModel) (s : Registration) : Prop where
  status : s.registerStatus = s.callAbilityCallbackPtr.isSome
  calling : ∀ t ∈ s.calling, t.IsClient
  /-- Without a ready service the report proxy holds no callback. -/
  ready : s.ready = false → s.callbackPtr = none
  /-- What the report proxy holds, the proxy holds. -/
  held : ∀ p, s.callbackPtr = some p → s.callAbilityCallbackPtr = some p
  bundle : ∀ p, s.callbackPtr = some p → (s.callbacks.get p).bundleInfo = trust.bundleName
  alloc : ∀ p, s.callAbilityCallbackPtr = some p → p < s.callbacks.next
  /-- The open callbacks are those the proxy holds. -/
  owner : ∀ p < s.callbacks.next, s.isOpen p = true ↔ s.callAbilityCallbackPtr = some p
  queue : ∀ p n r, .report p n r ∈ s.queue → p < s.callbacks.next

theorem Inv.keptFor (h : Inv trust s) : s.keptFor trust = none := by
  unfold Registration.keptFor
  cases hp : s.callbackPtr with
  | none => rfl
  | some p => simp [Option.filter, h.bundle p hp]

/-- What giving the callback up changes. -/
theorem Inv.giveUp_owner (h : Inv trust s) {p : Ref} (hp : p < s.callbacks.next) :
    s.giveUp.isOpen p = false := by
  cases hheld : s.callAbilityCallbackPtr with
  | none =>
    have hclosed : ¬s.isOpen p = true := by simp [h.owner p hp, hheld]
    simpa [giveUp, hheld, isOpen] using hclosed
  | some q =>
    by_cases hpq : p = q
    · subst hpq
      simp [giveUp, hheld, isOpen]
    · have hclosed : ¬s.isOpen p = true := by simp [h.owner p hp, hheld, Ne.symm hpq]
      simpa [giveUp, hheld, isOpen, hpq] using hclosed

theorem giveUp_fields (s : Registration) :
    s.giveUp.callAbilityCallbackPtr = none ∧ s.giveUp.registerStatus = false ∧
      s.giveUp.calling = s.calling ∧ s.giveUp.callbacks.next = s.callbacks.next ∧
      s.giveUp.queue = s.queue := by
  unfold giveUp
  split <;> exact ⟨rfl, rfl, rfl, rfl, rfl⟩

/-- Once given up, no callback is held. -/
theorem Inv.giveUp (h : Inv trust s) : Inv trust { s.giveUp with callbackPtr := none } := by
  obtain ⟨hheld, hstatus, hcalling, hnext, hqueue⟩ := s.giveUp_fields
  refine ⟨by simp [hheld, hstatus], ?_, fun _ => rfl, ?_, ?_, ?_, ?_, ?_⟩
  · simpa [hcalling] using h.calling
  · simp
  · simp
  · simp [hheld]
  · intro p hp
    have hclosed := h.giveUp_owner (hnext ▸ hp)
    simpa [hheld, isOpen] using hclosed
  · simpa [hqueue, hnext] using h.queue

theorem Inv.dropped (h : Inv trust s) :
    (if s.callbackPtr = s.callAbilityCallbackPtr then none else s.callbackPtr) = none := by
  cases hp : s.callbackPtr with
  | none => simp
  | some p => simp [h.held p hp]

theorem Inv.register (h : Inv trust s) (hready : s.ready = true)
    (hstatus : s.registerStatus = false) :
    Inv trust (s.register trust) := by
  have hnone : s.callAbilityCallbackPtr = none := by simpa [hstatus] using h.status
  refine ⟨rfl, h.calling, ?_, ?_, ?_, ?_, ?_, ?_⟩
  · intro hnot
    exact absurd hready (by simpa [Registration.register] using hnot)
  · exact fun p hp => hp
  · intro p hp
    obtain rfl : s.callbacks.next = p := Option.some.inj hp
    simp [Registration.register]
  · intro p hp
    obtain rfl : s.callbacks.next = p := Option.some.inj hp
    simp [Registration.register]
  · intro p hp
    by_cases hpn : p = s.callbacks.next
    · subst hpn
      simp [Registration.register, isOpen]
    · have hlt : p < s.callbacks.next := Nat.lt_of_le_of_ne (Nat.le_of_lt_succ hp) hpn
      have hclosed : ¬s.isOpen p = true := by simp [h.owner p hlt, hnone]
      simpa [Registration.register, isOpen, Heap.get_alloc_of_lt _ _ hlt, Ne.symm hpn] using hclosed
  · exact fun p n r hr => Nat.lt_succ_of_lt (h.queue p n r hr)

/-- A report is posted to the callback that is held. -/
theorem post_eq (accepted : Bool) (r : Report) (s : Registration) :
    ∃ posted : Option Ref, (∀ p ∈ posted, s.callbackPtr = some p) ∧
      (CallAbilityReportProxy.post accepted r s).2 =
        { s with
          nextReport := s.nextReport + 1
          queue := s.queue ++ posted.toList.map fun p => .report p s.nextReport r
          log := s.log ++ [.broadcast s.nextReport r posted.isSome] } := by
  simp only [CallAbilityReportProxy.post, Prog.modify_apply]
  cases hp : s.callbackPtr with
  | none => exact ⟨none, by simp, by simp⟩
  | some p =>
    by_cases hpost : (s.running && accepted) = true
    · exact ⟨some p, by simp, by simp [hpost]⟩
    · exact ⟨none, by simp, by simp [hpost]⟩

/-- Tasks that leave or join the queue. -/
theorem Inv.withQueue (h : Inv trust s) {queue : List MainLoopTask}
    (hqueue : ∀ p n r, .report p n r ∈ queue → p < s.callbacks.next) {running initStatus : Bool}
    {nextReport : Nat} {log : List Notice} :
    Inv trust { s with queue, running, initStatus, nextReport, log } :=
  ⟨h.status, h.calling, h.ready, h.held, h.bundle, h.alloc, h.owner, hqueue⟩

theorem Inv.move (hmove : Move trust s s') (h : Inv trust s) : Inv trust s' := by
  cases hmove with
  | initStatus => exact h.withQueue h.queue
  | loopInit => exact h.withQueue h.queue
  | loopStop => exact h.withQueue (by simp)
  | calls calling hcalling htasks =>
    refine ⟨h.status, hcalling, h.ready, h.held, h.bundle, h.alloc, h.owner, ?_⟩
    intro p n r hr
    rcases List.mem_append.mp hr with hr | hr
    · exact h.queue p n r hr
    · cases htasks _ hr
  | register hready hstatus hheld => exact h.register hready hstatus
  | unRegister =>
    rw [h.keptFor]
    exact h.giveUp
  | unInit =>
    rw [h.dropped]
    exact h.giveUp
  | serviceUnInit =>
    rw [h.keptFor]
    exact ⟨h.status, h.calling, fun _ => rfl, by simp, by simp, h.alloc, h.owner, h.queue⟩
  | post accepted r =>
    obtain ⟨posted, hposted, hstate⟩ := post_eq accepted r s
    rw [hstate]
    refine h.withQueue fun p n r' hr => ?_
    rcases List.mem_append.mp hr with hr | hr
    · exact h.queue p n r' hr
    · obtain ⟨q, hq, heq⟩ := List.mem_map.mp hr
      obtain rfl : q = p := (MainLoopTask.report.inj heq).1
      exact h.alloc q (h.held q (hposted q (Option.mem_toList.mp hq)))
  | take hqueue =>
    exact h.withQueue fun p n r hr => h.queue p n r (hqueue ▸ List.mem_cons_of_mem _ hr)
  | deliver hqueue =>
    exact h.withQueue fun p n r hr => h.queue p n r (hqueue ▸ List.mem_cons_of_mem _ hr)
  | returned => exact h.withQueue h.queue

theorem Inv.moveTo (hmoves : MoveTo trust s s') (h : Inv trust s) : Inv trust s' := by
  induction hmoves with
  | refl => exact h
  | tail _ hmove ih => exact ih.move hmove

theorem Inv.started (h : Inv trust s) : Inv trust s.started :=
  ⟨h.status, h.calling, nofun, h.held, h.bundle, h.alloc, h.owner,
    fun p n r hr => h.queue p n r (List.mem_of_mem_tail hr)⟩

theorem Inv.step (h : Inv trust s) (a : Action) : Inv trust (step trust a s) := by
  rcases step_moves trust h.calling a with ⟨-, hstart⟩ | hmoves
  · rw [hstart]
    exact h.started
  · exact h.moveTo hmoves

theorem inv_init : Inv trust {} :=
  ⟨rfl, by simp, fun _ => rfl, by simp, by simp, by simp, by simp, by simp⟩

theorem Reachable.inv (hs : Reachable trust s) : Inv trust s := by
  refine Runs.Reachable.invariant ?_ ?_ hs
  · rintro s rfl
    exact inv_init
  · rintro s s' h ⟨a, -, rfl⟩
    exact h.step a

/-- The service starts, and a client registers its callback. -/
def registersCallBack : List Action :=
  [.loopInit, .start true true, .dispatch [], .call .init, .call (.registerCallBack true),
    .post 0 true, .dispatch []]

end Registration

end CallManagerMini
