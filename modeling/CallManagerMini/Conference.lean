import Mathlib.Data.List.Sort
import CallManagerMini.Types

/-! # Conferences

`ConferenceBase` with the operations of `CsConference` and `ImsConference`,
whose bodies are the same; only `UpdateConferenceId` is `CsConference`'s alone.
A `std::set<int32_t>` is the ascending list of its elements.
-/

namespace CallManagerMini

inductive ConferenceState where
  | idle
  | creating
  | holding
  | active
  | leaving
  deriving DecidableEq, Repr, Inhabited

/-- The state of one conference. -/
structure ConferenceBase where
  mainCallId : Int := errId
  state : ConferenceState := .idle
  oldState : ConferenceState := .idle
  subCallIdSet : List Int := []
  beginTime : Int := 0
  deriving DecidableEq, Repr, Inhabited

namespace ConferenceBase

/-- `std::set::insert`. -/
def insertSubCall (callId : Int) (subCallIdSet : List Int) : List Int :=
  if callId ∈ subCallIdSet then subCallIdSet else subCallIdSet.orderedInsert (· ≤ ·) callId

/-- `SetMainCall`; an id below `ERR_ID` is refused. -/
def setMainCall (callId : Int) (c : ConferenceBase) : ConferenceBase :=
  if callId < errId then c else { c with mainCallId := callId }

def setConferenceState (state : ConferenceState) (c : ConferenceBase) : ConferenceBase :=
  { c with state := state }

/-- The fields `LeaveFromConference` and `HoldConference` reset once nobody is
left in the conference. -/
def reset (c : ConferenceBase) : ConferenceBase :=
  { c with mainCallId := errId, state := .idle, oldState := .idle, beginTime := 0 }

def joinToConference (now : Int) (callId : Int) (c : ConferenceBase) : RetCode × ConferenceBase :=
  if c.state ≠ .creating ∧ c.state ≠ .active ∧ c.state ≠ .leaving ∧ c.state ≠ .holding then
    (.callErrIllegalCallOperation, c)
  else
    (.success,
      { c with
        subCallIdSet := insertSubCall callId c.subCallIdSet
        state := .active, oldState := .active, beginTime := now })

def leaveFromConference (callId : Int) (c : ConferenceBase) : RetCode × ConferenceBase :=
  if callId ∈ c.subCallIdSet then
    let c := { c with subCallIdSet := c.subCallIdSet.erase callId }
    let c :=
      match c.subCallIdSet with
      | [] => c
      | first :: _ => if c.mainCallId = callId then { c with mainCallId := first } else c
    (.success, if c.subCallIdSet = [] then c.reset else c)
  else (.callErrConferenceSeperateFailed, c)

def holdConference (callId : Int) (c : ConferenceBase) : RetCode × ConferenceBase :=
  if c.state = .holding then (.success, c)
  else if callId ∉ c.subCallIdSet then (.callErrConferenceSeperateFailed, c)
  else if c.subCallIdSet = [] then (.callErrConferenceSeperateFailed, c.reset)
  else (.success, { c with state := .holding, oldState := .holding })

/-- `GetSubCallIdList(callId, …)`: the members, if `callId` is one of them. -/
def getSubCallIdList (callId : Int) (c : ConferenceBase) : RetCode × List Int :=
  if callId ∈ c.subCallIdSet then (.success, c.subCallIdSet)
  else (.callErrTheCallIsNotInTheConference, [])

/-- `CsConference::UpdateConferenceId`. -/
def updateConferenceId (callId : Int) (c : ConferenceBase) : ConferenceBase :=
  let c := { c with subCallIdSet := insertSubCall callId c.subCallIdSet }
  if c.mainCallId = errId then { c with mainCallId := callId } else c

/-- `HandleCombineConferenceFailEvent`: the main call becomes the first member
again, and the state the one before the failed merge. -/
def combineConferenceFailed (c : ConferenceBase) : ConferenceBase :=
  let c :=
    match c.subCallIdSet with
    | [] => c.setMainCall errId
    | first :: _ => c.setMainCall first
  c.setConferenceState c.oldState

end ConferenceBase

end CallManagerMini
