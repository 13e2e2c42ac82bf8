import Mathlib.Order.Defs.Unbundled
import CallManagerMini.CallTableReports
import CallManagerMini.PlainRelations

/-! # The table behind the service

`CallManager.table` is the call table of a state of the service: the row of each
listed object, the counters, the emergency flag of the saved dial, and the part of
the log that announces something about a call.

Most of what a handler does is `Quiet`: it talks to the stack, plays a tone, keeps
a task or a conference, and leaves the table and every row alone.
-/

namespace CallManagerMini

/-- The row of a call object. -/
def CallBase.row (p : Ref) (c : CallBase) : Row :=
  { obj := p
    callId := c.callId
    callType := c.callType
    videoState := c.videoState
    accountNumber := c.accountNumber
    callRunningState := c.callRunningState
    direction := c.direction
    callState := c.callState
    slotId := c.slotId
    index := c.index
    isEcc := c.isEcc }

/-- What an event announces.  The `ANSWERED` marker is no state of a call, and a
broadcast of the state the call was in announces nothing. -/
def Event.mark : Event → Option Mark
  | .callAdded callId callState => some (.added callId callState)
  | .callStateUpdated call priorState nextState =>
    if nextState = .answered ∨ priorState = nextState then none
    else some (.changed call.callId priorState nextState)
  | .command (.dial info) reply => some (.dialed info reply)
  | _ => none

namespace CallManager

/-- The row of the object behind `p`. -/
def row (s : CallManager) (p : Ref) : Row := (s.call p).row p

/-- The announcements of the log. -/
def history (s : CallManager) : List Mark := s.log.filterMap Event.mark

/-- The call table of a state. -/
def table (s : CallManager) : CallTable :=
  { rows := s.callObjectPtrList.map s.row
    nextObj := s.calls.next
    lastCallId := s.callId
    dialEcc := s.dialSrcInfo.isEcc
    history := s.history }

@[simp] theorem row_callId (s : CallManager) (p : Ref) : (s.row p).callId = (s.call p).callId := rfl

@[simp] theorem row_callType (s : CallManager) (p : Ref) :
    (s.row p).callType = (s.call p).callType := rfl

@[simp] theorem row_callState (s : CallManager) (p : Ref) :
    (s.row p).callState = (s.call p).callState := rfl

@[simp] theorem row_obj (s : CallManager) (p : Ref) : (s.row p).obj = p := rfl

theorem row_injective (s : CallManager) {p q : Ref} (h : s.row p = s.row q) : p = q :=
  congrArg Row.obj h

theorem mem_table_rows {s : CallManager} {r : Row} :
    r ∈ s.table.rows ↔ ∃ p ∈ s.callObjectPtrList, s.row p = r := List.mem_map

theorem row_mem_table {s : CallManager} {p : Ref} (hp : p ∈ s.callObjectPtrList) :
    s.row p ∈ s.table.rows := List.mem_map_of_mem hp

/-- The listed objects are the objects of the rows. -/
theorem list_eq_map_obj (s : CallManager) : s.callObjectPtrList = s.table.rows.map Row.obj := by
  simp [table, Function.comp_def]

theorem row_of_mem {s : CallManager} {r : Row} (hr : r ∈ s.table.rows) :
    r.obj ∈ s.callObjectPtrList ∧ s.row r.obj = r := by
  obtain ⟨p, hp, rfl⟩ := mem_table_rows.mp hr
  exact ⟨hp, rfl⟩

end CallManager

/-- What every report leaves alone: the saved dial, the recorded lists, and that
no dial is in progress. -/
structure Frame (s s' : CallManager) : Prop where
  dialSrcInfo : s'.dialSrcInfo = s.dialSrcInfo
  callDetailsInfo : s'.callDetailsInfo = s.callDetailsInfo
  dialing : s.helper.isDialingCallProcessing = false → s'.helper.isDialingCallProcessing = false

theorem Frame.refl (s : CallManager) : Frame s s := ⟨rfl, rfl, id⟩

theorem Frame.trans {s s' s'' : CallManager} (h : Frame s s') (h' : Frame s' s'') : Frame s s'' :=
  ⟨h'.dialSrcInfo.trans h.dialSrcInfo, h'.callDetailsInfo.trans h.callDetailsInfo,
    fun hs => h'.dialing (h.dialing hs)⟩

/-- The table and every row are as they were. -/
structure Quiet (s s' : CallManager) : Prop extends Frame s s' where
  list : s'.callObjectPtrList = s.callObjectPtrList
  next : s'.calls.next = s.calls.next
  callId : s'.callId = s.callId
  row : ∀ p, s'.row p = s.row p
  history : s'.history = s.history

namespace Quiet

theorem refl (s : CallManager) : Quiet s s :=
  { Frame.refl s with
    list := rfl
    next := rfl
    callId := rfl
    row := fun _ => rfl
    history := rfl }

theorem trans {s s' s'' : CallManager} (h : Quiet s s') (h' : Quiet s' s'') : Quiet s s'' :=
  { h.toFrame.trans h'.toFrame with
    list := h'.list.trans h.list
    next := h'.next.trans h.next
    callId := h'.callId.trans h.callId
    row := fun p => (h'.row p).trans (h.row p)
    history := h'.history.trans h.history }

theorem table {s s' : CallManager} (h : Quiet s s') : s'.table = s.table := by
  have hrow : s'.row = s.row := funext h.row
  simp [CallManager.table, h.list, h.next, h.callId, hrow, h.history, h.dialSrcInfo]

end Quiet

/-! ## The quiet programs -/

open Prog (Moves)

variable {p : Ref}

/-- A row shows nothing but the face of its call. -/
theorem row_of_face {c c' : CallBase} (h : c'.face = c.face) : c'.row p = c.row p := by
  simp only [CallBase.face, Prod.mk.injEq] at h
  obtain ⟨⟨h₁, h₂, -, h₃, h₄, h₅, h₆⟩, h₇, h₈, -, -, h₉, h₁₀⟩ := h
  simp only [CallBase.row, h₁, h₂, h₃, h₄, h₅, h₆, h₇, h₈, h₉, h₁₀]

theorem row_updateCall_ne (s : CallManager) (p q : Ref) (f : CallBase → CallBase) (h : q ≠ p) :
    (s.updateCall p f).row q = s.row q := by
  simp [CallManager.row, CallManager.call, CallManager.updateCall, h]

theorem row_updateCall_self (s : CallManager) (p : Ref) (f : CallBase → CallBase) :
    (s.updateCall p f).row p = (f (s.call p)).row p := by
  simp [CallManager.row, CallManager.call, CallManager.updateCall]

/-- A change of an object that its row does not show. -/
theorem quiet_updateCall {s : CallManager} {p : Ref} {f : CallBase → CallBase}
    (hf : (f (s.call p)).row p = s.row p) : Quiet s (s.updateCall p f) := by
  refine ⟨⟨rfl, rfl, id⟩, rfl, rfl, rfl, fun q => ?_, rfl⟩
  by_cases h : q = p
  · subst h
    rw [row_updateCall_self, hf]
  · exact row_updateCall_ne s p q f h

theorem quiet_modifyCall {p : Ref} {f : CallBase → CallBase} (hf : ∀ c, (f c).row p = c.row p) :
    Moves Quiet (modifyCall p f) :=
  Moves.of_modify fun s => quiet_updateCall (hf (s.call p))

theorem quiet_logged {s : CallManager} {e : Event} (he : e.mark = none) : Quiet s (s.logged e) :=
  { Frame.refl s with
    list := rfl
    next := rfl
    callId := rfl
    row := fun _ => rfl
    history := by simp [CallManager.history, CallManager.logged, he] }

theorem quiet_emit {e : Event} (he : e.mark = none) : Moves Quiet (emit e) :=
  Moves.of_modify fun _ => quiet_logged he

/-- A change of the parts of the state that are neither calls, log nor saved dial. -/
theorem quiet_of_eq {s s' : CallManager} (hl : s'.callObjectPtrList = s.callObjectPtrList)
    (hc : s'.calls = s.calls) (hi : s'.callId = s.callId) (hd : s'.dialSrcInfo = s.dialSrcInfo)
    (hr : s'.callDetailsInfo = s.callDetailsInfo) (hh : s'.log = s.log)
    (hp : s.helper.isDialingCallProcessing = false → s'.helper.isDialingCallProcessing = false) :
    Quiet s s' where
  dialSrcInfo := hd
  callDetailsInfo := hr
  dialing := hp
  list := hl
  next := by rw [hc]
  callId := hi
  row p := by simp [CallManager.row, CallManager.call, hc]
  history := by simp [CallManager.history, hh]

/-- A note announces nothing. -/
theorem Event.IsNote.mark_eq {e : Event} (he : e.IsNote) : e.mark = none := by
  unfold Event.mark
  split
  · exact he.elim
  · exact he.elim
  · exact he.elim
  · rfl

instance : Meek Quiet where
  refl := Quiet.refl
  trans _ _ _ := Quiet.trans
  note _ _ he := quiet_logged he.mark_eq
  object h := quiet_updateCall (row_of_face h)

instance : Toneless Quiet where
  tones _ _ := quiet_of_eq rfl rfl rfl rfl rfl rfl id
  sound _ _ _ := quiet_logged rfl

/-- That a call is answered is no news about its state. -/
instance : Answering Quiet where
  answered env p prior := by
    have (c : CallBase) : Moves Quiet (emit (.callStateUpdated c prior .answered)) := quiet_emit rfl
    unfold notifyCallStateUpdated
    infer_instance

instance : Patient Quiet where
  tasks _ _ _ _ := quiet_of_eq rfl rfl rfl rfl rfl rfl id
  drops h := quiet_of_eq rfl rfl rfl rfl rfl rfl h.dialing
  flags h := quiet_of_eq rfl rfl rfl rfl rfl rfl h.trans

instance : Flagging Quiet where
  flag _ _ := quiet_modifyCall fun _ => rfl

instance : Posting Quiet where
  requests _ _ := quiet_of_eq rfl rfl rfl rfl rfl rfl id

/-! ## Conferences -/

section Conferences
variable (env : Env) (p : Ref)

instance (state : TelConferenceState) : Moves Quiet (setTelConferenceState p state) :=
  quiet_modifyCall fun _ => rfl

instance {α : Type} (isIMSCall : Bool) (f : Int → ConferenceBase → α × ConferenceBase) :
    Moves Quiet (onConference isIMSCall f env) := by
  refine ⟨fun s => ?_⟩
  unfold onConference CallManager.setConference
  dsimp only
  split <;> exact quiet_of_eq rfl rfl rfl rfl rfl rfl id

instance : Moves Quiet (launchConference env p) := by unfold launchConference; infer_instance

instance : Moves Quiet (exitConference env p) := by unfold exitConference; infer_instance

instance : Moves Quiet (holdConference env p) := by unfold holdConference; infer_instance

instance : Moves Quiet (getSubCallIdList env p) := by unfold getSubCallIdList; infer_instance

instance : Moves Quiet (handleCombineConferenceFailEvent env p) := by
  unfold handleCombineConferenceFailEvent; infer_instance

end Conferences

end CallManagerMini
