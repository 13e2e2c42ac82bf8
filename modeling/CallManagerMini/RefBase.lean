import CallManagerMini.Lib.Runs

/-! # Reference counting

`RefCounter` counts the strong references to an object in `strong_`, and in `weak_` the weak ones,
one for each strong one, and one for the living object.  The two are atomics of their own: every
operation on a reference is several steps, between which other tasks take theirs.  Each step is
given here for one task (`RefTask.step`); any number of tasks take them in any order.
-/

namespace CallManagerMini

/-- The object and its `RefCounter`, and how often each of the two has gone. -/
structure RefBase where
  /-- `strong_`; there is no memory for as many references as an `int32_t` cannot count. -/
  strong : Int := 0
  /-- `weak_`. -/
  weak : Int := 1
  /-- How often the destructor was entered. -/
  destroyed : Nat := 0
  /-- How often the memory of the object was freed. -/
  objectFreed : Nat := 0
  /-- How often the counter was deleted. -/
  counterFreed : Nat := 0
  deriving DecidableEq, Repr

/-- What `IncStrongRef` is called for. -/
inductive RefGoal where
  /-- The first `sptr`, made of what `new` has returned. -/
  | create
  /-- An `sptr` made of another one. -/
  | copy
  /-- The `sptr` that `promote` returns. -/
  | promote
  deriving DecidableEq, Repr

/-- The next step of a task.  `promoted` says of the steps of `DecStrongRef` whether it is `promote`
that gives up a reference, to return another one. -/
inductive RefPc where
  | idle
  /-- `IncStrongRef` looks whether it is the first. -/
  | getStrongCount (goal : RefGoal)
  | incWeak (goal : RefGoal) (first : Bool)
  | incStrong (goal : RefGoal) (first : Bool)
  | onFirstStrongRef (goal : RefGoal)
  /-- `DecStrongRef` reads `refs_` and gives up the strong reference. -/
  | decStrong (promoted : Bool)
  | onLastStrongRef (promoted : Bool)
  /-- `delete this` enters the destructor. -/
  | destroy (promoted : Bool)
  /-- `~RefBase` calls `DecWeak`. -/
  | objectWeak (promoted : Bool)
  /-- This was the last one, and `DecWeak` deletes the counter. -/
  | objectCounter (promoted : Bool)
  /-- `delete this` frees the memory of the object. -/
  | freeObject (promoted : Bool)
  /-- `DecStrongRef` calls `DecWeak`. -/
  | decWeak (promoted : Bool)
  | deleteCounter (promoted : Bool)
  /-- `Attach` reads `refs_`. -/
  | getRefCounter
  | attach
  /-- A `wptr` is made of another one. -/
  | copyWeak
  /-- `Detach` calls `DecWeak`. -/
  | detach
  | detachCounter
  /-- `AttemptIncStrong` reads `strong_`. -/
  | attemptLoad
  /-- It compares and exchanges what it has read. -/
  | attemptExchange (current : Int)
  | attemptWeak
  deriving DecidableEq, Repr

/-- A task: the references it owns, and what it is doing. -/
structure RefTask where
  sptrs : Nat := 0
  wptrs : Nat := 0
  pc : RefPc := .idle
  deriving DecidableEq, Repr

namespace RefTask

/-- `IncStrongRef` returns: there is an `sptr` more, and `promote` has one to give up. -/
def counted (goal : RefGoal) (task : RefTask) : RefTask :=
  match goal with
  | .create | .copy => { task with sptrs := task.sptrs + 1, pc := .idle }
  | .promote => { task with pc := .decStrong true }

/-- `DecStrongRef` returns, and `promote` returns the `sptr` it has made. -/
def dropped (promoted : Bool) (task : RefTask) : RefTask :=
  if promoted then { task with sptrs := task.sptrs + 1, pc := .idle } else { task with pc := .idle }

/-- The condition of the loop of `AttemptIncStrong`; where it fails `promote` returns null. -/
def attempt (current : Int) (task : RefTask) : RefTask :=
  if current > 0 then { task with pc := .attemptExchange current } else { task with pc := .idle }

/-- The next step of a task.  `granted` is whether `compare_exchange_weak` may succeed. -/
def step (granted : Bool) (task : RefTask) (s : RefBase) : Option (RefTask × RefBase) :=
  match task.pc with
  | .idle => none
  | .getStrongCount goal => some ({ task with pc := .incWeak goal (s.strong = 0) }, s)
  | .incWeak goal first =>
    some ({ task with pc := .incStrong goal first }, { s with weak := s.weak + 1 })
  | .incStrong goal first =>
    some (if first then { task with pc := .onFirstStrongRef goal } else task.counted goal,
      { s with strong := s.strong + 1 })
  | .onFirstStrongRef goal => some (task.counted goal, s)
  | .decStrong promoted =>
    some ({ task with pc := if s.strong = 1 then .onLastStrongRef promoted else .decWeak promoted },
      { s with strong := s.strong - 1 })
  | .onLastStrongRef promoted => some ({ task with pc := .destroy promoted }, s)
  | .destroy promoted =>
    some ({ task with pc := .objectWeak promoted }, { s with destroyed := s.destroyed + 1 })
  | .objectWeak promoted =>
    some ({ task with pc := if s.weak = 1 then .objectCounter promoted else .freeObject promoted },
      { s with weak := s.weak - 1 })
  | .objectCounter promoted =>
    some ({ task with pc := .freeObject promoted }, { s with counterFreed := s.counterFreed + 1 })
  | .freeObject promoted =>
    some ({ task with pc := .decWeak promoted }, { s with objectFreed := s.objectFreed + 1 })
  | .decWeak promoted =>
    some (if s.weak = 1 then { task with pc := .deleteCounter promoted } else task.dropped promoted,
      { s with weak := s.weak - 1 })
  | .deleteCounter promoted =>
    some (task.dropped promoted, { s with counterFreed := s.counterFreed + 1 })
  | .getRefCounter => some ({ task with pc := .attach }, s)
  | .attach | .copyWeak =>
    some ({ task with wptrs := task.wptrs + 1, pc := .idle }, { s with weak := s.weak + 1 })
  | .detach =>
    some ({ task with pc := if s.weak = 1 then .detachCounter else .idle },
      { s with weak := s.weak - 1 })
  | .detachCounter =>
    some ({ task with pc := .idle }, { s with counterFreed := s.counterFreed + 1 })
  | .attemptLoad => some (task.attempt s.strong, s)
  | .attemptExchange current =>
    some (if granted ∧ s.strong = current then
        ({ task with pc := .attemptWeak }, { s with strong := current + 1 })
      else (task.attempt s.strong, s))
  | .attemptWeak =>
    some ({ task with pc := .getStrongCount .promote }, { s with weak := s.weak + 1 })

end RefTask

/-- What a task may begin with the references it owns. -/
inductive RefOp where
  | copySptr
  | dropSptr
  | makeWptr
  | copyWptr
  | dropWptr
  | promote
  deriving DecidableEq, Repr

/-- An idle task begins an operation. -/
def RefTask.start (op : RefOp) (task : RefTask) : Option RefTask :=
  if task.pc ≠ .idle then none else
    match op with
    | .copySptr => if 0 < task.sptrs then some { task with pc := .getStrongCount .copy } else none
    | .dropSptr =>
      if 0 < task.sptrs then some { task with sptrs := task.sptrs - 1, pc := .decStrong false }
      else none
    | .makeWptr => if 0 < task.sptrs then some { task with pc := .getRefCounter } else none
    | .copyWptr => if 0 < task.wptrs then some { task with pc := .copyWeak } else none
    | .dropWptr =>
      if 0 < task.wptrs then some { task with wptrs := task.wptrs - 1, pc := .detach } else none
    | .promote => if 0 < task.wptrs then some { task with pc := .attemptLoad } else none

/-- The object with the tasks that have references to it. -/
structure RefSystem where
  object : RefBase := {}
  tasks : List RefTask := []
  deriving DecidableEq, Repr

/-- What happens: a task begins an operation, takes its next step, comes into being, or hands a
reference it owns to another one. -/
inductive RefAct where
  | start (task : Nat) (op : RefOp)
  | step (task : Nat) (granted : Bool)
  | spawn
  | giveSptr (source target : Nat)
  | giveWptr (source target : Nat)
  deriving DecidableEq, Repr

namespace RefSystem

/-- An idle task parts with a reference, and another one has it. -/
def give (take add : RefTask → RefTask) (source target : Nat) (s : RefSystem) : Option RefSystem :=
  match s.tasks[source]? with
  | none => none
  | some task =>
    match (s.tasks.set source (take task))[target]? with
    | none => none
    | some receiver =>
      some { s with tasks := (s.tasks.set source (take task)).set target (add receiver) }

def step? (a : RefAct) (s : RefSystem) : Option RefSystem :=
  match a with
  | .start i op =>
    match s.tasks[i]? with
    | none => none
    | some task => (task.start op).map fun task' => { s with tasks := s.tasks.set i task' }
  | .step i granted =>
    match s.tasks[i]? with
    | none => none
    | some task =>
      (task.step granted s.object).map fun (task', object') =>
        { object := object', tasks := s.tasks.set i task' }
  | .spawn => some { s with tasks := s.tasks ++ [{}] }
  | .giveSptr i j =>
    if s.tasks[i]?.any fun task => task.pc = .idle && 0 < task.sptrs then
      s.give (fun task => { task with sptrs := task.sptrs - 1 })
        (fun task => { task with sptrs := task.sptrs + 1 }) i j
    else none
  | .giveWptr i j =>
    if s.tasks[i]?.any fun task => task.pc = .idle && 0 < task.wptrs then
      s.give (fun task => { task with wptrs := task.wptrs - 1 })
        (fun task => { task with wptrs := task.wptrs + 1 }) i j
    else none

/-- `new` has returned, and the task that called it is to make the first `sptr`. -/
def initial : RefSystem := { tasks := [{ pc := .getStrongCount .create }] }

/-- The states of all runs. -/
def Reachable : RefSystem → Prop :=
  Runs.Reachable (· = initial) fun s s' => ∃ a, s.step? a = some s'

end RefSystem

end CallManagerMini
