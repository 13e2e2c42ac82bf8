import CallManagerMini.Lib.Agents
import CallManagerMini.Lib.Runs
import Mathlib.Logic.Function.Basic

/-! # Ready listeners

`CellularCallLiteRegistry` keeps the instance of the stack under one lock and the table of listeners
under another.  `Register` writes the instance and then reads the table; `AddReadyListener` writes
the table and then reads the instance.  What either does under a lock is one step here, and so is
each call of a listener; any number of calls of both functions, and of `RemoveReadyListener`, take
their steps in any order.

Of the two reads, one comes after both writes, so that the listener is called by one of the two
(`CellularCallLiteRegistry.Inv`).  It finds the instance there, or a later one, if nobody has
unregistered it (`CellularCallLiteRegistry.listener_notified`); a listener may miss an instance that
was unregistered before it was notified (`CellularCallLiteRegistry.notification_lost`). -/

namespace CallManagerMini

/-- The address of a function. -/
abbrev CellularCallLiteReadyListener := Nat

/-- `g_readyListeners`, or a copy of it. -/
abbrev ReadyTable := List (Option CellularCallLiteReadyListener)

/-- `CellularCallLiteRegistry::MAX_LISTENERS`. -/
def maxListeners : Nat := 2

namespace ReadyTable

/-- The second loop of `AddReadyListener`: the first free slot is taken. -/
def takeFree (listener : CellularCallLiteReadyListener) : ReadyTable → Option ReadyTable
  | [] => none
  | none :: slots => some (some listener :: slots)
  | some other :: slots => (takeFree listener slots).map (some other :: ·)

/-- What `AddReadyListener` does under the lock, where it does not find the table full. -/
def add (listener : CellularCallLiteReadyListener) (table : ReadyTable) : Option ReadyTable :=
  if some listener ∈ table then some table else takeFree listener table

/-- What `RemoveReadyListener` does. -/
def remove (listener : Option CellularCallLiteReadyListener) (table : ReadyTable) : ReadyTable :=
  table.map fun slot => if slot = listener then none else slot

end ReadyTable

/-- The next step of a call of `Register`. -/
inductive RegisterPc where
  | exchange
  /-- The listeners are copied. -/
  | takeSnapshot
  /-- `NotifyReady` has these listeners before it. -/
  | notify (listeners : ReadyTable)
  | returned
  deriving DecidableEq, Repr

/-- A call of `Register`. -/
structure RegisterCall where
  stack : Option Nat
  pc : RegisterPc := .exchange
  /-- When it replaced the instance. -/
  exchangedAt : Nat := 0
  deriving DecidableEq, Repr

/-- The next step of a call of `AddReadyListener`. -/
inductive AddListenerPc where
  | add
  | get
  | call
  | returned (added : Bool)
  deriving DecidableEq, Repr

/-- A call of `AddReadyListener`. -/
structure AddListenerCall where
  listener : Option CellularCallLiteReadyListener
  pc : AddListenerPc := .add
  /-- When it went through the table. -/
  addedAt : Nat := 0
  /-- The listener was not in the table, and there was no free slot. -/
  full : Bool := false
  deriving DecidableEq, Repr

/-- A call of a listener: what `Get` returns at this moment, and since when. -/
structure ReadyCall where
  listener : CellularCallLiteReadyListener
  stack : Option Nat
  registeredAt : Nat
  deriving DecidableEq, Repr

/-- The registry, and the calls of its functions.  The clock counts the steps. -/
structure CellularCallLiteRegistry where
  /-- `g_cellularCall`. -/
  stack : Option Nat := none
  readyListeners : ReadyTable := List.replicate maxListeners none
  registrations : List RegisterCall := []
  additions : List AddListenerCall := []
  clock : Nat := 0
  /-- When the instance was last replaced. -/
  registeredAt : Nat := 0
  /-- When it was last replaced by null. -/
  unregisteredAt : Nat := 0
  /-- When a listener was last removed. -/
  removedAt : CellularCallLiteReadyListener → Nat := fun _ => 0
  /-- The calls of listeners, the last one first. -/
  calls : List ReadyCall := []

/-- What happens: one of the functions is called, or takes its next step. -/
inductive ReadyAct where
  | register (stack : Option Nat)
  | addReadyListener (listener : Option CellularCallLiteReadyListener)
  | removeReadyListener (listener : Option CellularCallLiteReadyListener)
  | registration (i : Nat)
  | addition (i : Nat)
  deriving DecidableEq, Repr

namespace CellularCallLiteRegistry

/-- `Slot::Exchange`. -/
def exchange (stack : Option Nat) (s : CellularCallLiteRegistry) : CellularCallLiteRegistry :=
  { s with
    stack := stack
    registeredAt := s.clock
    unregisteredAt := if stack = none then s.clock else s.unregisteredAt }

/-- A listener is called. -/
def call (listener : CellularCallLiteReadyListener) (s : CellularCallLiteRegistry) :
    CellularCallLiteRegistry :=
  { s with calls := { listener, stack := s.stack, registeredAt := s.registeredAt } :: s.calls }

/-- The `i`-th call of `Register` is now there. -/
def putRegistration (i : Nat) (r : RegisterCall) (s : CellularCallLiteRegistry) :
    CellularCallLiteRegistry :=
  { s with registrations := s.registrations.set i r }

def putAddition (i : Nat) (a : AddListenerCall) (s : CellularCallLiteRegistry) :
    CellularCallLiteRegistry :=
  { s with additions := s.additions.set i a }

/-- The next step of a call of `Register`. -/
def registrationStep (i : Nat) (s : CellularCallLiteRegistry) : Option CellularCallLiteRegistry :=
  match s.registrations[i]? with
  | none => none
  | some r =>
    match r.pc with
    | .exchange =>
      some ((s.exchange r.stack).putRegistration i
        { r with
          exchangedAt := s.clock
          pc := if r.stack = none then .returned else .takeSnapshot })
    | .takeSnapshot => some (s.putRegistration i { r with pc := .notify s.readyListeners })
    | .notify [] => some (s.putRegistration i { r with pc := .returned })
    | .notify (none :: listeners) => some (s.putRegistration i { r with pc := .notify listeners })
    | .notify (some listener :: listeners) =>
      some ((s.call listener).putRegistration i { r with pc := .notify listeners })
    | .returned => none

/-- The next step of a call of `AddReadyListener`. -/
def additionStep (i : Nat) (s : CellularCallLiteRegistry) : Option CellularCallLiteRegistry :=
  match s.additions[i]? with
  | none => none
  | some a =>
    match a.pc, a.listener with
    | .add, none => some (s.putAddition i { a with pc := .returned false })
    | .add, some listener =>
      some (match s.readyListeners.add listener with
        | some table =>
          ({ s with readyListeners := table }).putAddition
            i { a with addedAt := s.clock, pc := .get }
        | none =>
          s.putAddition i { a with addedAt := s.clock, full := true, pc := .returned false })
    | .get, _ =>
      some (s.putAddition i { a with pc := if s.stack = none then .returned true else .call })
    | .call, none => none
    | .call, some listener =>
      some ((s.call listener).putAddition i { a with pc := .returned true })
    | .returned _, _ => none

/-- What happens at the time of the clock. -/
def act? (a : ReadyAct) (s : CellularCallLiteRegistry) : Option CellularCallLiteRegistry :=
  match a with
  | .register stack => some { s with registrations := s.registrations ++ [{ stack }] }
  | .addReadyListener listener => some { s with additions := s.additions ++ [{ listener }] }
  | .removeReadyListener listener =>
    some { s with
      readyListeners := s.readyListeners.remove listener
      removedAt := fun l => if listener = some l then s.clock else s.removedAt l }
  | .registration i => s.registrationStep i
  | .addition i => s.additionStep i

/-- A step: the clock goes on, and something happens. -/
def step? (a : ReadyAct) (s : CellularCallLiteRegistry) : Option CellularCallLiteRegistry :=
  act? a { s with clock := s.clock + 1 }

/-- The states of all runs. -/
def Reachable : CellularCallLiteRegistry → Prop :=
  Runs.Reachable (· = {}) fun s s' => ∃ a, s.step? a = some s'

/-- Both calls have returned: `Register` with an instance, and `AddReadyListener`, which found room
in the table, with a listener that nobody has removed since then. -/
structure BothReturned (s : CellularCallLiteRegistry) (r : RegisterCall) (a : AddListenerCall)
    (listener : CellularCallLiteReadyListener) : Prop where
  registration : r ∈ s.registrations
  stack : r.stack.isSome
  registered : r.pc = .returned
  addition : a ∈ s.additions
  listens : a.listener = some listener
  room : a.full = false
  added : ∃ added, a.pc = .returned added
  kept : s.removedAt listener ≤ a.addedAt

/-- The listener was called when `Get` returned the instance of this registration, or a later
one. -/
def Notified (s : CellularCallLiteRegistry) (r : RegisterCall)
    (listener : CellularCallLiteReadyListener) : Prop :=
  ∃ call ∈ s.calls,
    call.listener = listener ∧ call.stack.isSome ∧ r.exchangedAt ≤ call.registeredAt

end CellularCallLiteRegistry

/-! ## The table -/

namespace ReadyTable
variable {listener l : CellularCallLiteReadyListener} {table table' : ReadyTable}

theorem mem_takeFree (h : takeFree listener table = some table') :
    some listener ∈ table' ∧ ∀ l, some l ∈ table → some l ∈ table' := by
  induction table generalizing table' with
  | nil => cases h
  | cons slot slots ih =>
    cases slot with
    | none =>
      cases h
      refine ⟨List.mem_cons_self, fun l hl => ?_⟩
      rcases List.mem_cons.mp hl with hnone | hl
      · cases hnone
      · exact List.mem_cons_of_mem _ hl
    | some other =>
      obtain ⟨slots', hslots, rfl⟩ := Option.map_eq_some_iff.mp h
      obtain ⟨hnew, hold⟩ := ih hslots
      refine ⟨List.mem_cons_of_mem _ hnew, fun l hl => ?_⟩
      rcases List.mem_cons.mp hl with hother | hl
      · exact hother ▸ List.mem_cons_self
      · exact List.mem_cons_of_mem _ (hold l hl)

/-- The listener is in the table, and so are those that were. -/
theorem mem_add (h : table.add listener = some table') :
    some listener ∈ table' ∧ ∀ l, some l ∈ table → some l ∈ table' := by
  unfold add at h
  split at h
  · next hmem =>
    cases h
    exact ⟨hmem, fun _ hl => hl⟩
  · exact mem_takeFree h

theorem mem_remove {listener : Option CellularCallLiteReadyListener} (hl : some l ∈ table)
    (hne : listener ≠ some l) : some l ∈ table.remove listener :=
  List.mem_map.mpr ⟨some l, hl, if_neg (Ne.symm hne)⟩

end ReadyTable

/-! ## The invariant -/

namespace CellularCallLiteRegistry
variable {s s' : CellularCallLiteRegistry} {r r' : RegisterCall} {a a' : AddListenerCall}
  {l : CellularCallLiteReadyListener} {i : Nat}

/-- The instance of a registration was put into place, and nobody has unregistered it. -/
structure Stands (s : CellularCallLiteRegistry) (r : RegisterCall) : Prop where
  exchanged : r.pc ≠ .exchange
  stack : r.stack.isSome
  kept : s.unregisteredAt ≤ r.exchangedAt

/-- A listener was put into the table, and nobody has removed it. -/
structure Listens (s : CellularCallLiteRegistry) (a : AddListenerCall)
    (l : CellularCallLiteReadyListener) : Prop where
  added : a.pc ≠ .add
  listener : a.listener = some l
  room : a.full = false
  kept : s.removedAt l ≤ a.addedAt

/-- The listener has been notified, or one of the two calls is still going to do it. -/
def Pending (s : CellularCallLiteRegistry) (r : RegisterCall) (a : AddListenerCall)
    (l : CellularCallLiteReadyListener) : Prop :=
  s.Notified r l ∨ r.pc = .takeSnapshot ∨ (∃ listeners, r.pc = .notify listeners ∧
    some l ∈ listeners) ∨
    a.pc = .get ∨ a.pc = .call

/-- What holds of every registration. -/
structure Registered (s : CellularCallLiteRegistry) (r : RegisterCall) : Prop where
  timely : r.exchangedAt ≤ s.clock
  /-- `Get` returns its instance, or a later one. -/
  visible : s.Stands r → s.stack.isSome ∧ r.exchangedAt ≤ s.registeredAt

/-- What holds of every listener that is added. -/
structure Added (s : CellularCallLiteRegistry) (a : AddListenerCall) : Prop where
  timely : a.addedAt ≤ s.clock
  listed : ∀ l, s.Listens a l → some l ∈ s.readyListeners

structure Inv (s : CellularCallLiteRegistry) : Prop where
  registered : ∀ r ∈ s.registrations, s.Registered r
  added : ∀ a ∈ s.additions, s.Added a
  pending : ∀ r ∈ s.registrations, ∀ a ∈ s.additions, ∀ l, s.Stands r → s.Listens a l →
    s.Pending r a l

/-- What a step does to the registry, the calls of its functions apart. -/
structure Passes (s s' : CellularCallLiteRegistry) : Prop where
  clock : s'.clock = s.clock + 1
  unregistered : s'.unregisteredAt = s.unregisteredAt ∨ s'.unregisteredAt = s'.clock
  removed : ∀ l, s'.removedAt l = s.removedAt l ∨ s'.removedAt l = s'.clock
  calls : s.calls ⊆ s'.calls
  stack : s'.stack = s.stack ∧ s'.registeredAt = s.registeredAt ∨
    s'.registeredAt = s'.clock ∧ (s'.stack.isSome ∨ s'.unregisteredAt = s'.clock)
  table : ∀ l, some l ∈ s.readyListeners →
    some l ∈ s'.readyListeners ∨ s'.removedAt l = s'.clock

theorem Passes.stands (h : s.Passes s') (htimely : r.exchangedAt ≤ s.clock) (hr : s'.Stands r) :
    s.Stands r := by
  refine ⟨hr.exchanged, hr.stack, ?_⟩
  have := hr.kept
  have := h.clock
  rcases h.unregistered with hsame | hnow <;> omega

theorem Passes.listens (h : s.Passes s') (htimely : a.addedAt ≤ s.clock) (ha : s'.Listens a l) :
    s.Listens a l := by
  refine ⟨ha.added, ha.listener, ha.room, ?_⟩
  have := ha.kept
  have := h.clock
  rcases h.removed l with hsame | hnow <;> omega

theorem Passes.registered (h : s.Passes s') (hr : s.Registered r) : s'.Registered r := by
  refine ⟨?_, fun hstands => ?_⟩
  · have := hr.timely
    have := h.clock
    omega
  · obtain ⟨hstack, hsince⟩ := hr.visible (h.stands hr.timely hstands)
    have := hr.timely
    have := h.clock
    rcases h.stack with ⟨hsame, hat⟩ | ⟨hat, hsome | hnone⟩
    · exact ⟨hsame ▸ hstack, by omega⟩
    · exact ⟨hsome, by omega⟩
    · have := hstands.kept
      omega

theorem Passes.added (h : s.Passes s') (ha : s.Added a) : s'.Added a := by
  refine ⟨?_, fun l hlistens => ?_⟩
  · have := ha.timely
    have := h.clock
    omega
  · rcases h.table l (ha.listed l (h.listens ha.timely hlistens)) with hl | hnow
    · exact hl
    · have := hlistens.kept
      have := ha.timely
      have := h.clock
      omega

theorem Notified.mono (h : s.Passes s') (hnot : s.Notified r l) : s'.Notified r l := by
  obtain ⟨call, hcall, hrest⟩ := hnot
  exact ⟨call, h.calls hcall, hrest⟩

/-- The instance is there when the listener of a registration that stands is called. -/
theorem Registered.notified (hr : s.Registered r) (hstands : s.Stands r) :
    (s.call l).Notified r l := by
  obtain ⟨hstack, hsince⟩ := hr.visible hstands
  exact ⟨_, List.mem_cons_self, rfl, hstack, hsince⟩

/-- A step keeps the invariant if it does so for the call that takes it. -/
theorem Inv.passes (h : s.Inv) (hp : s.Passes s')
    (hr : ∀ r ∈ s'.registrations, r ∈ s.registrations ∨ s'.Registered r ∧
      ∀ a ∈ s'.additions, ∀ l, s'.Stands r → s'.Listens a l → s'.Pending r a l)
    (ha : ∀ a ∈ s'.additions, a ∈ s.additions ∨ s'.Added a ∧
      ∀ r ∈ s'.registrations, ∀ l, s'.Stands r → s'.Listens a l → s'.Pending r a l) : s'.Inv where
  registered r hmem := by
    rcases hr r hmem with hold | ⟨hnew, -⟩
    · exact hp.registered (h.registered r hold)
    · exact hnew
  added a hmem := by
    rcases ha a hmem with hold | ⟨hnew, -⟩
    · exact hp.added (h.added a hold)
    · exact hnew
  pending r hrmem a hamem l hstands hlistens := by
    rcases hr r hrmem with hrold | ⟨-, hnew⟩
    · rcases ha a hamem with haold | ⟨-, hnew⟩
      · have hbefore := h.pending r hrold a haold l
          (hp.stands (h.registered r hrold).timely hstands)
          (hp.listens (h.added a haold).timely hlistens)
        exact hbefore.imp_left fun hnot => hnot.mono hp
      · exact hnew r hrmem l hstands hlistens
    · exact hnew a hamem l hstands hlistens

/-- Neither the instance nor the table is written. -/
theorem passes_agents (registrations : List RegisterCall) (additions : List AddListenerCall) :
    s.Passes { s with clock := s.clock + 1, registrations, additions } :=
  ⟨rfl, .inl rfl, fun _ => .inl rfl, List.Subset.refl _, .inl ⟨rfl, rfl⟩, fun _ hl => .inl hl⟩

theorem passes_call (registrations : List RegisterCall) (additions : List AddListenerCall) :
    s.Passes { s.call l with clock := s.clock + 1, registrations, additions } :=
  ⟨rfl, .inl rfl, fun _ => .inl rfl, List.subset_cons_self _ _,
    .inl ⟨rfl, rfl⟩, fun _ hl => .inl hl⟩

theorem passes_exchange (stack : Option Nat) (registrations : List RegisterCall) :
    s.Passes { exchange stack { s with clock := s.clock + 1 } with registrations } := by
  refine ⟨rfl, ?_, fun _ => .inl rfl, List.Subset.refl _, .inr ⟨rfl, ?_⟩, fun _ hl => .inl hl⟩
  · cases stack with
    | none => exact .inr rfl
    | some stack => exact .inl rfl
  · cases stack with
    | none => exact .inr rfl
    | some stack => exact .inl rfl

/-- A call of `Register` that has replaced the instance goes on. -/
theorem Inv.registerOn {pc : RegisterPc} (h : s.Inv) (hp : s.Passes s')
    (hmem : r ∈ s.registrations) (hpc : r.pc ≠ .exchange)
    (hregs : s'.registrations = s.registrations.set i { r with pc })
    (hadds : s'.additions = s.additions)
    (hpending : ∀ a ∈ s.additions, ∀ l, s.Stands r → s.Listens a l → s.Pending r a l →
      s'.Pending { r with pc } a l) : s'.Inv := by
  have hr := h.registered r hmem
  have hbefore : ∀ {s : CellularCallLiteRegistry}, s.Stands { r with pc } → s.Stands r :=
    fun hstands => ⟨hpc, hstands.stack, hstands.kept⟩
  refine h.passes hp (fun r' hr' => ?_) fun a ha => .inl (hadds ▸ ha)
  rw [hregs] at hr'
  refine (List.mem_or_eq_of_mem_set hr').imp_right ?_
  rintro rfl
  refine ⟨hp.registered ⟨hr.timely, fun hstands => hr.visible (hbefore hstands)⟩, ?_⟩
  intro a ha l hstands hlistens
  rw [hadds] at ha
  have hstood := hp.stands hr.timely (hbefore hstands)
  have hlistened := hp.listens (h.added a ha).timely hlistens
  exact hpending a ha l hstood hlistened (h.pending r hmem a ha l hstood hlistened)

/-- A call of `AddReadyListener` that has its listener in the table goes on. -/
theorem Inv.addOn {pc : AddListenerPc} (h : s.Inv) (hp : s.Passes s')
    (hmem : a ∈ s.additions) (hpc : a.pc ≠ .add)
    (hadds : s'.additions = s.additions.set i { a with pc })
    (hregs : s'.registrations = s.registrations)
    (hpending : ∀ r ∈ s.registrations, ∀ l, s.Stands r → s.Listens a l → s.Pending r a l →
      s'.Pending r { a with pc } l) : s'.Inv := by
  have ha := h.added a hmem
  have hbefore : ∀ {s : CellularCallLiteRegistry} {l : CellularCallLiteReadyListener},
      s.Listens { a with pc } l → s.Listens a l :=
    fun hlistens => ⟨hpc, hlistens.listener, hlistens.room, hlistens.kept⟩
  refine h.passes hp (fun r hr => .inl (hregs ▸ hr)) fun a' ha' => ?_
  rw [hadds] at ha'
  refine (List.mem_or_eq_of_mem_set ha').imp_right ?_
  rintro rfl
  refine ⟨hp.added ⟨ha.timely, fun l hlistens => ha.listed l (hbefore hlistens)⟩, ?_⟩
  intro r hr l hstands hlistens
  rw [hregs] at hr
  have hstood := hp.stands (h.registered r hr).timely hstands
  have hlistened := hp.listens ha.timely (hbefore hlistens)
  exact hpending r hr l hstood hlistened (h.pending r hr a hmem l hstood hlistened)

theorem Inv.registration (h : s.Inv)
    (hstep : registrationStep i { s with clock := s.clock + 1 } = some s') : s'.Inv := by
  unfold registrationStep at hstep
  split at hstep
  · cases hstep
  next r hi =>
  have hmem : r ∈ s.registrations := List.mem_of_getElem? hi
  obtain ⟨stack, pc, exchangedAt⟩ := r
  cases pc with
  | exchange =>
    cases hstep
    refine h.passes (passes_exchange stack _) (fun r' hr' => ?_) fun a ha => .inl ha
    refine (List.mem_or_eq_of_mem_set hr').imp_right ?_
    rintro rfl
    cases stack with
    | none =>
      refine ⟨⟨Nat.le_refl (s.clock + 1), fun hstands => ?_⟩, fun _ _ _ hstands _ => ?_⟩
      · cases hstands.stack
      · cases hstands.stack
    | some stack =>
      exact ⟨⟨Nat.le_refl (s.clock + 1), fun _ => ⟨rfl, Nat.le_refl (s.clock + 1)⟩⟩,
        fun _ _ _ _ _ => .inr (.inl rfl)⟩
  | takeSnapshot =>
    cases hstep
    refine h.registerOn (passes_agents _ _) hmem nofun rfl rfl fun a ha l _ hlistens _ => ?_
    exact .inr (.inr (.inl ⟨_, rfl, (h.added a ha).listed l hlistens⟩))
  | notify listeners =>
    cases listeners with
    | nil =>
      cases hstep
      refine h.registerOn (passes_agents _ _) hmem nofun rfl rfl fun a ha l _ _ hpending => ?_
      rcases hpending with hnot | hsnapshot | ⟨listeners, heq, hl⟩ | hadding
      · exact .inl hnot
      · cases hsnapshot
      · cases heq
        cases hl
      · exact .inr (.inr (.inr hadding))
    | cons slot listeners =>
      cases slot with
      | none =>
        cases hstep
        refine h.registerOn (passes_agents _ _) hmem nofun rfl rfl fun a ha l _ _ hpending => ?_
        rcases hpending with hnot | hsnapshot | ⟨_, heq, hl⟩ | hadding
        · exact .inl hnot
        · cases hsnapshot
        · cases heq
          exact .inr (.inr (.inl ⟨_, rfl, List.mem_of_ne_of_mem (Option.some_ne_none l) hl⟩))
        · exact .inr (.inr (.inr hadding))
      | some listener =>
        cases hstep
        refine h.registerOn (passes_call _ _) hmem nofun rfl rfl
          fun a ha l hstands _ hpending => ?_
        rcases hpending with ⟨call, hcall, hrest⟩ | hsnapshot | ⟨_, heq, hl⟩ | hadding
        · exact .inl ⟨call, List.mem_cons_of_mem _ hcall, hrest⟩
        · cases hsnapshot
        · cases heq
          rcases List.mem_cons.mp hl with heq | hl
          · cases heq
            exact .inl ((h.registered _ hmem).notified hstands)
          · exact .inr (.inr (.inl ⟨_, rfl, hl⟩))
        · exact .inr (.inr (.inr hadding))
  | returned => cases hstep

theorem Inv.addition (h : s.Inv)
    (hstep : additionStep i { s with clock := s.clock + 1 } = some s') : s'.Inv := by
  unfold additionStep at hstep
  split at hstep
  · cases hstep
  next a hi =>
  have hmem : a ∈ s.additions := List.mem_of_getElem? hi
  obtain ⟨listener, pc, addedAt, full⟩ := a
  cases pc with
  | add =>
    cases listener with
    | none =>
      cases hstep
      refine h.passes (passes_agents _ _) (fun r hr => .inl hr) fun a' ha' => ?_
      refine (List.mem_or_eq_of_mem_set ha').imp_right ?_
      rintro rfl
      have htimely := (h.added _ hmem).timely
      refine ⟨⟨Nat.le_succ_of_le htimely, fun l hlistens => ?_⟩, fun _ _ l _ hlistens => ?_⟩
      · cases hlistens.listener
      · cases hlistens.listener
    | some listener =>
      dsimp only at hstep
      split at hstep
      · next table htable =>
        obtain ⟨hnew, hold⟩ := ReadyTable.mem_add htable
        cases hstep
        refine h.passes ⟨rfl, .inl rfl, fun _ => .inl rfl, List.Subset.refl _, .inl ⟨rfl, rfl⟩,
          fun l hl => .inl (hold l hl)⟩ (fun r hr => .inl hr) fun a' ha' => ?_
        refine (List.mem_or_eq_of_mem_set ha').imp_right ?_
        rintro rfl
        refine ⟨⟨Nat.le_refl (s.clock + 1), fun l hlistens => ?_⟩, fun _ _ _ _ _ => ?_⟩
        · cases hlistens.listener
          exact hnew
        · exact .inr (.inr (.inr (.inl rfl)))
      · cases hstep
        refine h.passes (passes_agents _ _) (fun r hr => .inl hr) fun a' ha' => ?_
        refine (List.mem_or_eq_of_mem_set ha').imp_right ?_
        rintro rfl
        refine ⟨⟨Nat.le_refl (s.clock + 1), fun l hlistens => ?_⟩, fun _ _ l _ hlistens => ?_⟩
        · cases hlistens.room
        · cases hlistens.room
  | get =>
    cases hstep
    refine h.addOn (passes_agents _ _) hmem nofun rfl rfl fun r hr l hstands _ hpending => ?_
    obtain ⟨hstack, -⟩ := (h.registered r hr).visible hstands
    have hnone : s.stack ≠ none := fun hnone => by rw [hnone] at hstack; cases hstack
    exact .inr (.inr (.inr (.inr (if_neg hnone))))
  | call =>
    cases listener with
    | none => cases hstep
    | some listener =>
      cases hstep
      refine h.addOn (passes_call _ _) hmem nofun rfl rfl fun r hr l hstands hlistens _ => ?_
      cases hlistens.listener
      exact .inl ((h.registered r hr).notified hstands)
  | returned added => cases hstep

/-- **Every step keeps the invariant.** -/
theorem Inv.step {act : ReadyAct} (h : s.Inv) (hstep : s.step? act = some s') : s'.Inv := by
  cases act with
  | register stack =>
    cases hstep
    refine h.passes (passes_agents _ _) (fun r hr => ?_) fun a ha => .inl ha
    rcases List.mem_append.mp hr with hold | hnew
    · exact .inl hold
    · obtain rfl := List.mem_singleton.mp hnew
      refine .inr ⟨⟨Nat.zero_le _, fun hstands => ?_⟩, fun _ _ _ hstands _ => ?_⟩
      · exact absurd rfl hstands.exchanged
      · exact absurd rfl hstands.exchanged
  | addReadyListener listener =>
    cases hstep
    refine h.passes (passes_agents _ _) (fun r hr => .inl hr) fun a ha => ?_
    rcases List.mem_append.mp ha with hold | hnew
    · exact .inl hold
    · obtain rfl := List.mem_singleton.mp hnew
      refine .inr ⟨⟨Nat.zero_le _, fun l hlistens => ?_⟩, fun _ _ _ _ hlistens => ?_⟩
      · exact absurd rfl hlistens.added
      · exact absurd rfl hlistens.added
  | removeReadyListener listener =>
    cases hstep
    refine h.passes ⟨rfl, .inl rfl, fun l => ?_, List.Subset.refl _, .inl ⟨rfl, rfl⟩,
      fun l hl => ?_⟩ (fun r hr => .inl hr) fun a ha => .inl ha
    · dsimp only
      split
      · exact .inr rfl
      · exact .inl rfl
    · by_cases hremoved : listener = some l
      · exact .inr (if_pos hremoved)
      · exact .inl (ReadyTable.mem_remove hl hremoved)
  | registration i => exact h.registration hstep
  | addition i => exact h.addition hstep

theorem Reachable.inv (hs : s.Reachable) : s.Inv :=
  hs.invariant (by rintro _ rfl; exact ⟨nofun, nofun, nofun⟩) fun _ _ h ⟨_, hstep⟩ => h.step hstep

/-- **No notification is lost** where nobody has unregistered the instance. -/
theorem listener_notified (hs : s.Reachable) (h : s.BothReturned r a l)
    (hkept : s.unregisteredAt ≤ r.exchangedAt) : s.Notified r l := by
  obtain ⟨added, hadded⟩ := h.added
  have hstands : s.Stands r := ⟨by rw [h.registered]; nofun, h.stack, hkept⟩
  have hlistens : s.Listens a l := ⟨by rw [hadded]; nofun, h.listens, h.room, h.kept⟩
  rcases hs.inv.pending r h.registration a h.addition l hstands hlistens with
    hnot | hpc | ⟨_, hpc, -⟩ | hpc | hpc
  · exact hnot
  · rw [h.registered] at hpc
    cases hpc
  · rw [h.registered] at hpc
    cases hpc
  · rw [hadded] at hpc
    cases hpc
  · rw [hadded] at hpc
    cases hpc

/-- The table is read before the listener is in it, and the instance after it was written. -/
def addedLate : List ReadyAct :=
  [.register (some 7), .addReadyListener (some 1), .registration 0, .registration 0, .addition 0,
    .addition 0, .addition 0, .registration 0, .registration 0, .registration 0]

theorem listener_notified_addedLate :
    (addedLate.foldlM (fun s act => step? act s) {}).elim False fun s =>
      s.Notified { stack := some 7, pc := .returned, exchangedAt := 3 } 1 := by
  have hrun : (addedLate.foldlM (fun s act => step? act s) {}).map (fun s =>
      decide (s.registrations = [{ stack := some 7, pc := .returned, exchangedAt := 3 }] ∧
        s.additions = [{ listener := some 1, pc := .returned true, addedAt := 5 }] ∧
          s.removedAt 1 = 0 ∧ s.unregisteredAt = 0)) = some true := by decide +kernel
  obtain ⟨s, hs, hend⟩ := Option.map_eq_some_iff.mp hrun
  obtain ⟨hregistrations, hadditions, hremoved, hunregistered⟩ := of_decide_eq_true hend
  have hboth : s.BothReturned { stack := some 7, pc := .returned, exchangedAt := 3 }
      { listener := some 1, pc := .returned true, addedAt := 5 } 1 :=
    ⟨hregistrations ▸ List.mem_singleton_self _, rfl, rfl,
      hadditions ▸ List.mem_singleton_self _, rfl, rfl, ⟨true, rfl⟩, hremoved ▸ Nat.zero_le _⟩
  rw [hs]
  exact listener_notified (Runs.Reachable.foldlM (.start rfl) hs) hboth
    (hunregistered ▸ Nat.zero_le _)

/-- The instance is unregistered between the two writes. -/
def unregisteredBetween : List ReadyAct :=
  [.register (some 7), .addReadyListener (some 1), .register none, .registration 0,
    .registration 1, .registration 0, .registration 0, .registration 0, .registration 0,
    .addition 0, .addition 0]

theorem notification_lost :
    ¬ ∀ s : CellularCallLiteRegistry, s.Reachable → ∀ r a l, s.BothReturned r a l →
      s.Notified r l := by
  intro hclaim
  have hrun : (unregisteredBetween.foldlM (fun s act => step? act s) {}).map (fun s =>
      decide (({ stack := some 7, pc := .returned, exchangedAt := 4 } ∈ s.registrations) ∧
        s.additions = [{ listener := some 1, pc := .returned true, addedAt := 10 }] ∧
          s.removedAt 1 = 0 ∧ s.calls = [])) = some true := by decide +kernel
  obtain ⟨s, hs, hend⟩ := Option.map_eq_some_iff.mp hrun
  obtain ⟨hregistration, hadditions, hremoved, hcalls⟩ := of_decide_eq_true hend
  obtain ⟨call, hcall, -⟩ := hclaim s (Runs.Reachable.foldlM (.start rfl) hs) _ _ 1
    ⟨hregistration, rfl, rfl, hadditions ▸ List.mem_singleton_self _, rfl, rfl, ⟨true, rfl⟩,
      hremoved ▸ Nat.zero_le _⟩
  rw [hcalls] at hcall
  cases hcall

end CellularCallLiteRegistry

end CallManagerMini
