import CallManagerMini.Lib.Heap
import CallManagerMini.Lib.Keyed
import CallManagerMini.Types

/-! # The call table as a machine of its own

What the call manager is for, seen from its callers: a short list of calls, each
with an id that is its own, a place on the network side (slot and index) once the
network has numbered it, and a state whose changes are announced.

A `CallTable` is that list with the announcements made so far.  Every report is a
function on it: no object, no observer, no clock.  The functions of
`CallStatusManager` compute exactly this (`TableRefinement`), so what is proved
of the table here holds of the service.

The parts are built up as the service builds them: a row changes (`update`),
leaves (`remove`), enters (`enter`), announces a state (`announce`), or changes
between CS and IMS (`refresh`); a report is a composition of these.
-/

namespace CallManagerMini

/-- The running state that goes with a call state. -/
def runningOf : TelCallState → CallRunningState
  | .dialing | .alerting => .dialing
  | .incoming | .waiting => .ringing
  | .active => .active
  | .holding => .hold
  | .disconnected => .ended
  | .disconnecting => .ending
  | .unknown | .idle | .answered => .create

/-- The states a call of the table can be in. -/
def TelCallState.IsLive (st : TelCallState) : Prop :=
  st = .active ∨ st = .holding ∨ st = .dialing ∨ st = .alerting ∨ st = .incoming ∨
    st = .waiting ∨ st = .disconnecting

instance (st : TelCallState) : Decidable st.IsLive := by
  unfold TelCallState.IsLive; infer_instance

/-- A call of the table; `obj` tells the objects apart that had the same id one
after the other. -/
structure Row where
  obj : Ref
  callId : Int
  callType : CallType
  videoState : VideoStateType
  accountNumber : Bytes
  callRunningState : CallRunningState
  direction : CallDirection
  callState : TelCallState
  slotId : Int
  index : Int
  isEcc : Bool
  deriving DecidableEq, Repr

/-- What the table has announced: a call entered it, a call changed its state, a
Dial command went out. -/
inductive Mark where
  | added (callId : Int) (callState : TelCallState)
  | changed (callId : Int) (priorState nextState : TelCallState)
  | dialed (info : CellularCallInfo) (reply : Option Int)
  deriving DecidableEq, Repr

/-- The calls, the counters of what was handed out, the emergency flag of the
saved dial, and the announcements. -/
structure CallTable where
  rows : List Row := []
  nextObj : Ref := 0
  lastCallId : Int := 0
  dialEcc : Bool := false
  history : List Mark := []
  deriving DecidableEq, Repr

namespace Row

/-- The row with its state changed. -/
def setState (next : TelCallState) (r : Row) : Row :=
  { r with callState := next, callRunningState := runningOf next }

/-- The row with the video state an IMS call takes from a report. -/
def restyle (info : CallDetailInfo) (r : Row) : Row :=
  if r.callType = .ims then { r with videoState := info.callMode } else r

/-- The row with the place and type a report gives to a call without an index. -/
def numbered (info : CallDetailInfo) (number : Bytes) (r : Row) : Row :=
  { r.setState .dialing with
    index := info.index
    slotId := info.accountId
    videoState := info.callMode
    callType := info.callType
    accountNumber := number }

/-- The report that ends the call. -/
def disconnectedInfo (r : Row) : CallDetailInfo :=
  { callType := r.callType
    accountId := r.slotId
    index := r.index
    state := .disconnected
    callMode := r.videoState
    phoneNum := r.accountNumber }

end Row

namespace CallTable

/-! ## The parts of a report -/

/-- The first call at a place. -/
def callAt (t : CallTable) (index slotId : Int) : Option Row :=
  t.rows.find? fun r => r.index = index && r.slotId = slotId

/-- The first call the network has not numbered, of whatever slot. -/
def pending (t : CallTable) : Option Row := t.rows.find? fun r => r.index = 0

/-- Change the row of a call. -/
def update (callId : Int) (f : Row → Row) (t : CallTable) : CallTable :=
  { t with rows := Keyed.update Row.callId callId f t.rows }

/-- Take a call out. -/
def remove (callId : Int) (t : CallTable) : CallTable :=
  { t with rows := Keyed.remove Row.callId callId t.rows }

/-- The row of a call made from a report. -/
def newRow (t : CallTable) (info : CallDetailInfo) (direction : CallDirection) : Row :=
  { obj := t.nextObj
    callId := t.lastCallId + 1
    callType := info.callType
    videoState := info.callMode
    accountNumber := info.phoneNum
    callRunningState := .create
    direction := direction
    callState := info.state
    slotId := info.accountId
    index := info.index
    isEcc := direction = .outgoing && t.dialEcc }

/-- The object and the id of a new row are used up. -/
def created (t : CallTable) : CallTable :=
  { t with nextObj := t.nextObj + 1, lastCallId := t.lastCallId + 1 }

/-- The number of calls among which one more may stand. -/
def limit (isEcc : Bool) : Nat :=
  if isEcc then miniMaxCallObjects else miniMaxCallObjects - miniEccReservedCallObjects

/-- The code of an attempt to enter a call. -/
def admission (t : CallTable) (r : Row) : RetCode :=
  if t.rows.any fun q => q.callId = r.callId then .callErrPhoneCallAlreadyExists
  else if limit r.isEcc ≤ t.rows.length then .callErrCallCountsExceedLimit
  else .success

/-- Enter a call at the end. -/
def insert (r : Row) (t : CallTable) : CallTable :=
  { t with rows := t.rows ++ [r], history := t.history ++ [.added r.callId r.callState] }

/-- Enter a call, if it is admitted. -/
def enter (r : Row) (t : CallTable) : CallTable :=
  if t.admission r = .success then t.insert r else t

/-- The announcement of a state, unless it is the state the call was in. -/
def stateChange (callId : Int) (prior next : TelCallState) : List Mark :=
  if prior = next then [] else [.changed callId prior next]

/-- Change a call's state and announce it. -/
def announce (r : Row) (next : TelCallState) (t : CallTable) : CallTable :=
  { t.update r.callId (Row.setState next) with
    history := t.history ++ stateChange r.callId r.callState next }

/-- The row that replaces `r` in a refresh, before it takes over `r`'s state. -/
def replacement (t : CallTable) (r : Row) (info : CallDetailInfo) : Row :=
  { t.newRow info r.direction with callId := r.callId }

/-- Replace `r` by a new call with the same id, which has to be admitted; if it is
not, `r` has to be admitted again. -/
def replaceCall (r : Row) (info : CallDetailInfo) (t : CallTable) : Row × CallTable :=
  let e := t.replacement r info
  let t := t.created.remove r.callId
  if t.admission e = .success then
    let e' := { e with callState := r.callState, callRunningState := r.callRunningState }
    (e', (t.insert e).update r.callId fun _ => e')
  else (r, t.enter r)

/-- **The refresh.**  A report of the call's own type only updates it; a report of
the other type replaces it.  The result is the row the report goes on with. -/
def refresh (r : Row) (info : CallDetailInfo) (t : CallTable) : Row × CallTable :=
  let t := t.update r.callId (Row.restyle info)
  let r := r.restyle info
  if r.callType = info.callType then (r, t) else t.replaceCall r info

/-- The first call without an index becomes the reported one. -/
def adopt (info : CallDetailInfo) (t : CallTable) : RetCode × CallTable :=
  match t.pending with
  | none => (.errLocalPtrNull, t)
  | some r =>
    let x := t.refresh r info
    (.success, x.2.update x.1.callId (Row.numbered info r.accountNumber))

/-! ## The reports -/

/-- A dialed call nobody dialed here, or the local report of a dial. -/
def addDialing (info : CallDetailInfo) (t : CallTable) : RetCode × CallTable :=
  let e := t.newRow { info with state := .dialing } .outgoing
  if t.created.admission e = .success then
    (.success, (t.created.insert e).update e.callId (Row.setState .dialing))
  else (t.created.admission e, t.created)

/-- A dialed call the network reports by its index. -/
def updateDialing (info : CallDetailInfo) (t : CallTable) : RetCode × CallTable :=
  match t.callAt info.index info.accountId with
  | some r => (.success, (t.refresh r info).2)
  | none => t.adopt info

/-- `DIALING`. -/
def dialing (info : CallDetailInfo) (t : CallTable) : RetCode × CallTable :=
  if 0 < info.index ∧
      ((t.callAt 0 info.accountId).isSome ∨ (t.callAt info.index info.accountId).isSome) then
    t.updateDialing { info with state := .dialing }
  else t.addDialing info

/-- The call a report is about. -/
def reported (info : CallDetailInfo) (t : CallTable) : Option Row × CallTable :=
  match t.callAt info.index info.accountId with
  | some r => (some r, t)
  | none =>
    if t.pending.isSome then
      let t := (t.dialing info).2
      (t.callAt info.index info.accountId, t)
    else (none, t)

/-- A report that only moves its call to another state. -/
def moveTo (next : TelCallState) (info : CallDetailInfo) (r : Row) (t : CallTable) :
    RetCode × CallTable :=
  let x := t.refresh r info
  (.success, x.2.announce x.1 next)

/-- `ACTIVE`. -/
def active (info : CallDetailInfo) (t : CallTable) : RetCode × CallTable :=
  match t.reported info with
  | (none, t) => (.errLocalPtrNull, t)
  | (some r, t) => t.moveTo .active info r

/-- `HOLDING` and `DISCONNECTING`, which know their call or fail. -/
def moveKnown (next : TelCallState) (info : CallDetailInfo) (t : CallTable) : RetCode × CallTable :=
  match t.callAt info.index info.accountId with
  | none => (.errLocalPtrNull, t)
  | some r => t.moveTo next info r

/-- `ALERTING`. -/
def alerting (info : CallDetailInfo) (t : CallTable) : RetCode × CallTable :=
  match t.reported info with
  | (none, t) => (.errLocalPtrNull, t)
  | (some r, t) =>
    if r.callState = .disconnecting then (.callErrCallStateMismatchOperation, t)
    else t.moveTo .alerting info r

/-- The end of a known call: announced, and out of the table. -/
def disconnect (info : CallDetailInfo) (r : Row) (t : CallTable) : CallTable :=
  let x := t.refresh r info
  (x.2.announce x.1 .disconnected).remove x.1.callId

/-- `DISCONNECTED`. -/
def disconnected (info : CallDetailInfo) (t : CallTable) : RetCode × CallTable :=
  match t.reported info with
  | (none, t) => (.errLocalPtrNull, t)
  | (some r, t) => (.success, t.disconnect info r)

/-- A call that failed locally is reported disconnected. -/
def failCall (r : Row) (t : CallTable) : RetCode × CallTable := t.disconnected r.disconnectedInfo

/-- The first call without an index fails. -/
def failPending (t : CallTable) : CallTable :=
  match t.pending with
  | none => t
  | some r => (t.failCall r).2

/-- A ringing call that is not in the table yet. -/
def addIncoming (info : CallDetailInfo) (t : CallTable) : RetCode × CallTable :=
  let e := t.newRow info .incoming
  if t.created.admission e = .success then
    (.success, (t.created.insert e).update e.callId (Row.setState info.state))
  else (t.created.admission e, t.created)

/-- An `INCOMING` or `WAITING` report about a call of the table. -/
def oldIncoming (info : CallDetailInfo) (r : Row) (t : CallTable) : CallTable :=
  if r.callType ≠ info.callType ∨ r.callState ≠ info.state ∨ r.videoState ≠ info.callMode then
    let x := t.refresh r info
    if r.callType ≠ info.callType ∨ r.videoState ≠ info.callMode then x.2.announce x.1 info.state
    else x.2
  else t

/-- `INCOMING` and `WAITING`. -/
def incoming (info : CallDetailInfo) (t : CallTable) : RetCode × CallTable :=
  let t := t.failPending
  match t.callAt info.index info.accountId with
  | some r => (.success, t.oldIncoming info r)
  | none => t.addIncoming info

/-- A report. -/
def report (info : CallDetailInfo) (t : CallTable) : RetCode × CallTable :=
  match info.state with
  | .active => t.active info
  | .holding => t.moveKnown .holding info
  | .dialing => t.dialing info
  | .alerting => t.alerting info
  | .incoming | .waiting => t.incoming info
  | .disconnected => t.disconnected info
  | .disconnecting => t.moveKnown .disconnecting info
  | _ => (.errFail, t)

/-- Reports, one after the other. -/
def reports (infos : List CallDetailInfo) (t : CallTable) : CallTable :=
  infos.foldl (fun t info => (t.report info).2) t

end CallTable

end CallManagerMini
