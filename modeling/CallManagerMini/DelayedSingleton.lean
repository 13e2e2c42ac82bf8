import CallManagerMini.Lib.Agents
import CallManagerMini.Lib.OnceCell
import CallManagerMini.Lib.Runs

/-! # Delayed singletons

`GetInstance` constructs the instance when it is first asked for it.  The one of its callers that
turns `state_` from `EMPTY` to `BUSY` constructs; the others spin until the state is `READY`, or
`EMPTY` again because there was no memory.  `DestroyInstance` takes the state from `READY` back to
`EMPTY`, and is called while nobody asks for the instance.  Any number of tasks take their steps in
any order.
-/

namespace CallManagerMini

open OnceCell (Event)

/-- `SingletonState`. -/
inductive SingletonState where
  | empty
  | busy
  | ready
  deriving DecidableEq, Repr

/-- `DelayedSingleton`, with the log of what has become of its instances.  They are numbered in the
order in which they are made. -/
structure DelayedSingleton where
  /-- `state_`. -/
  state : SingletonState := .empty
  /-- `instance_`. -/
  inst : Option Nat := none
  made : Nat := 0
  log : List (Event Nat) := []
  deriving DecidableEq, Repr

/-- The next step of a task. -/
inductive SingletonPc where
  | idle
  /-- `AcquireOrWait` reads the state. -/
  | load
  /-- It has read `EMPTY`, and compares and exchanges. -/
  | exchange
  | yield
  /-- The caller has won, and `new` is at work. -/
  | construct
  /-- There was no memory, and the state is to be `EMPTY` again. -/
  | rollback
  | setInstance (created : Nat)
  | storeReady (created : Nat)
  /-- `GetInstance` returns `instance_`. -/
  | getInstance
  /-- `DestroyInstance` compares and exchanges. -/
  | destroy
  | reset
  | storeEmpty
  deriving DecidableEq, Repr

namespace SingletonPc

/-- The task is in `GetInstance`. -/
def calling : SingletonPc → Bool
  | .load | .exchange | .yield | .construct | .rollback | .setInstance _ | .storeReady _
  | .getInstance => true
  | .idle | .destroy | .reset | .storeEmpty => false

/-- The task is in `DestroyInstance`. -/
def destroying : SingletonPc → Bool
  | .destroy | .reset | .storeEmpty => true
  | _ => false

/-- The task has won the right to construct, and has not given it up. -/
def constructing : SingletonPc → Bool
  | .construct | .rollback | .setInstance _ | .storeReady _ => true
  | _ => false

/-- The next step of a task.  `granted` is whether there is memory for `new`. -/
def step (granted : Bool) (pc : SingletonPc) (s : DelayedSingleton) :
    Option (SingletonPc × DelayedSingleton) :=
  match pc with
  | .idle => none
  | .load =>
    some (match s.state with
      | .ready => .getInstance
      | .empty => .exchange
      | .busy => .yield, s)
  | .exchange =>
    some (if s.state = .empty then (.construct, { s with state := .busy }) else (.yield, s))
  | .yield => some (.load, s)
  | .construct =>
    some (if granted then
        (.setInstance s.made,
          { s with made := s.made + 1, log := s.log ++ [.constructed s.made] })
      else (.rollback, s))
  | .rollback => some (.idle, { s with state := .empty, log := s.log ++ [.returned none] })
  | .setInstance created => some (.storeReady created, { s with inst := some created })
  | .storeReady created =>
    some (.getInstance, { s with state := .ready, log := s.log ++ [.published created] })
  | .getInstance => some (.idle, { s with log := s.log ++ [.returned s.inst] })
  | .destroy =>
    some (if s.state = .ready then (.reset, { s with state := .busy }) else (.idle, s))
  | .reset =>
    some (.storeEmpty,
      { s with inst := none, log := s.log ++ s.inst.toList.map Event.destroyed })
  | .storeEmpty => some (.idle, { s with state := .empty })

end SingletonPc

/-- The singleton with the tasks that use it. -/
structure SingletonSystem where
  singleton : DelayedSingleton := {}
  pcs : List SingletonPc := []
  deriving DecidableEq, Repr

/-- What happens: a task comes into being, calls a function, or takes its next step. -/
inductive SingletonAct where
  | spawn
  | getInstance (task : Nat)
  | destroyInstance (task : Nat)
  | step (task : Nat) (granted : Bool)
  deriving DecidableEq, Repr

namespace SingletonSystem

/-- `DestroyInstance` runs only while nobody is in `GetInstance`. -/
def step? (a : SingletonAct) (s : SingletonSystem) : Option SingletonSystem :=
  match a with
  | .spawn => some { s with pcs := s.pcs ++ [.idle] }
  | .getInstance i =>
    if s.pcs[i]? = some .idle ∧ s.pcs.all (!·.destroying) then
      some { s with pcs := s.pcs.set i .load }
    else none
  | .destroyInstance i =>
    if s.pcs[i]? = some .idle ∧ s.pcs.all (!·.calling) then
      some { s with pcs := s.pcs.set i .destroy }
    else none
  | .step i granted =>
    match s.pcs[i]? with
    | none => none
    | some pc =>
      (pc.step granted s.singleton).map fun (pc', singleton) =>
        { singleton, pcs := s.pcs.set i pc' }

/-- The states of all runs. -/
def Reachable : SingletonSystem → Prop :=
  Runs.Reachable (· = {}) fun s s' => ∃ a, s.step? a = some s'

end SingletonSystem

end CallManagerMini
