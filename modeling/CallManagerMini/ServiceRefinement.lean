import CallManagerMini.MainLoopRefinement

/-! # The service as a machine on the table

What the main loop does to the calls can be said without the service.  Its abstract machine has
the call table and what was recorded of the slots (`Board`), and its steps name what each input
may do to them (`Board.Step`): a report that got past the guard is handled as the table handles
it, a result ends the call that is being dialed, a dial adds one call at most, and a control
operation changes nothing until the stack reports.  Every run of the service is a run of this
machine with the same inputs (`service_refines`), so that what is proved of its runs holds of the
service.
-/

namespace CallManagerMini

open Prog (Post)

/-- The last call that is being dialed fails. -/
def CallTable.failDialing (t : CallTable) : CallTable :=
  match t.rows.reverse.find? fun r => r.callRunningState = .dialing with
  | none => t
  | some r => (t.failCall r).2

/-- An input that asks the stack for something, or tells the application something.  The calls
change when the stack reports. -/
def Input.asks : Input → Bool
  | .disconnectedCause _ | .answerCall .. | .rejectCall .. | .hangUpCall _ | .holdCall _
  | .unHoldCall _ | .switchCall _ | .endCall | .nextRequest => true
  | _ => false

/-- The call table, and what was last recorded of each slot. -/
structure Board where
  table : CallTable := {}
  recorded : Int → List CallDetailInfo := fun _ => []

namespace Board

/-- The board after a report, if the guard accepts it. -/
def callReport (info : CallReportInfo) (b : Board) : Board :=
  if isValidReport info then { b with table := (b.table.report info.toDetail).2 } else b

/-- The board after a list of reports, if the guard accepts it: the entries that are new or have
changed, and then the recorded ones the list lacks. -/
def callsReport (slotId : Int) (callVec : List CallReportInfo) (b : Board) : Board :=
  if isValidReportList slotId callVec then
    let entries := callVec.map CallReportInfo.toListDetail
    { table := b.table.reports (handledReports (b.recorded slotId) entries)
      recorded := Function.update b.recorded slotId (recordedOf entries) }
  else b

/-- **What an input does to the board.** -/
inductive Step : Input → Board → Board → Prop where
  | callReport (info : CallReportInfo) (b : Board) : Step (.callReport info) b (b.callReport info)
  | callsReport (slotId : Int) (callVec : List CallReportInfo) (b : Board) :
    Step (.callsReport slotId callVec) b (b.callsReport slotId callVec)
  | eventResult (eventId : RequestResultEventId) (b : Board) :
    Step (.eventResult eventId) b { b with table := b.table.failDialing }
  | dialCall (caller : Caller) (number : List UInt16) (extras : PacMap) (b : Board)
    {env : Env} {table : CallTable} {dialed : Bytes} {ret : RetCode} :
    DialOutcome env b.table table (dialSlot (buildDialInfo extras)) dialed ret →
    Step (.dialCall caller number extras) b { b with table }
  /-- The task has nothing to do with a call, or its call is gone. -/
  | taskIdle (taskId : Nat) (b : Board) : Step (.delayedTask taskId) b b
  | taskFails (taskId : Nat) (b : Board) {r : Row} : r ∈ b.table.rows →
    Step (.delayedTask taskId) b { b with table := (b.table.failCall r).2 }
  | asks {input : Input} (b : Board) : input.asks = true → Step input b b

end Board

namespace CallManager

/-- The board of a state. -/
def board (s : CallManager) : Board := ⟨s.table, s.callDetailsInfo⟩

/-- A step of the main loop, labelled with its input. -/
def InputStep (input : Input) (s s' : CallManager) : Prop :=
  ∃ env, s' = (mainLoopStep env input s).2

end CallManager

variable {s s' : CallManager} {env : Env}

/-! ## Each step of the main loop is one of the board -/

theorem board_of_frame {t : CallTable} (ht : s'.table = t) (hf : Frame s s') :
    s'.board = { s.board with table := t } := by
  unfold CallManager.board
  rw [ht, hf.callDetailsInfo]

theorem board_of_quiet (hq : Quiet s s') : s'.board = s.board := board_of_frame hq.table hq.toFrame

theorem callReport_board (env : Env) (h : ServiceInv s) (info : CallReportInfo) :
    Post (mainLoopStep env (.callReport info)) s fun _ s' =>
      s'.board = s.board.callReport info := by
  unfold Board.callReport
  refine Post.when (fun hv => ?_) fun hv => ?_
  · rw [if_pos hv]
    refine Post.ignore (Post.mono (handleCallReportInfo_refines env h.table (isCarried_toDetail hv)) ?_)
    rintro ret s' ⟨hs', hf⟩
    exact board_of_frame (congrArg Prod.snd hs') hf
  · rw [if_neg hv]

theorem callsReport_board (env : Env) (h : ServiceInv s) (slotId : Int)
    (callVec : List CallReportInfo) :
    Post (mainLoopStep env (.callsReport slotId callVec)) s fun _ s' =>
      s'.board = s.board.callsReport slotId callVec := by
  unfold Board.callsReport
  refine Post.when (fun hv => ?_) fun hv => ?_
  · rw [if_pos hv]
    simp only [isValidReportList, Bool.and_eq_true, List.all_eq_true, decide_eq_true_eq] at hv
    have hinfo : ∀ it ∈ callVec.map CallReportInfo.toListDetail, it.IsCarried := by
      intro it hit
      obtain ⟨c, hc, rfl⟩ := List.mem_map.mp hit
      exact isCarried_toListDetail (hv.2 c hc).1
    refine Post.ignore (Post.mono (handleCallsReportInfo_post env h hv.1.2 hinfo) ?_)
    rintro ret s' ⟨htable, -, hrecorded, -⟩
    unfold CallManager.board
    rw [htable, hrecorded]
  · rw [if_neg hv]

/-- The call `GetOneCallObject` finds in a state is the last one of the table in it. -/
theorem failDialing_eq (s : CallManager) : s.table.failDialing =
    match getOneCallObjectByState s .dialing with
    | none => s.table
    | some p => (s.table.failCall (s.row p)).2 := by
  have hfind : (s.table.rows.reverse.find? fun r => r.callRunningState = .dialing) =
      (getOneCallObjectByState s .dialing).map s.row := by
    unfold getOneCallObjectByState CallManager.findLastCall CallManager.table
    rw [← List.map_reverse, List.find?_map]
    rfl
  unfold CallTable.failDialing
  rw [hfind]
  cases getOneCallObjectByState s .dialing <;> rfl

theorem eventResult_board (env : Env) (h : ServiceInv s) (eventId : RequestResultEventId) :
    Post (mainLoopStep env (.eventResult eventId)) s fun _ s' =>
      s'.board = { s.board with table := s.board.table.failDialing } := by
  refine Post.ignore (Post.bind_gets (Post.bind (Q := fun _ s₁ =>
    s₁.table = s.table.failDialing ∧ Frame s s₁) ?_ ?_))
  · rw [failDialing_eq]
    cases hfound : getOneCallObjectByState s .dialing with
    | none => exact ⟨rfl, Frame.refl s⟩
    | some p =>
      refine Post.ignore (Post.mono (dealFailDial_computes env h.table (mem_of_findLastCall hfound)) ?_)
      rintro ret s₁ ⟨hs₁, hf⟩
      exact ⟨congrArg Prod.snd hs₁, hf⟩
  · rintro _ s₁ ⟨ht₁, hf₁⟩
    have hquiet : ∀ (m : Prog CallManager RetCode) [Prog.Moves Quiet m], Post m s₁ fun _ s' =>
        s'.board = { s.board with table := s.table.failDialing } := by
      intro m _
      refine Post.mono (Post.of_moves (R := Quiet) m s₁) fun _ s₂ hq => ?_
      exact board_of_frame (hq.table.trans ht₁) (hf₁.trans hq.toFrame)
    split <;> exact hquiet _

theorem dialCall_board (env : Env) (h : ServiceInv s) (caller : Caller) (number : List UInt16)
    (extras : PacMap) :
    Post (mainLoopStep env (.dialCall caller number extras)) s fun _ s' =>
      Board.Step (.dialCall caller number extras) s.board s'.board := by
  have hdenied : ∀ ret : RetCode, ret ≠ .success →
    Board.Step (.dialCall caller number extras) s.board s.board :=
    fun ret hret => @Board.Step.dialCall caller number extras s.board env s.table [] ret
      (.inl ⟨hret, rfl⟩)
  refine Post.ignore ?_
  unfold CallManagerService.dialCall
  refine Post.ite (fun _ => hdenied .callErrNumberOutOfRange (by decide)) fun _ => ?_
  refine Post.ite (fun _ => hdenied .errIllegalUseOfSystemApi (by decide)) fun _ => ?_
  refine Post.ite (fun _ => hdenied .errPermissionErr (by decide)) fun _ => ?_
  refine Post.mono (dialCall_post env h.table h.dialing h.index number _) ?_
  rintro ret s' ⟨hk, dialed, hout⟩
  rw [show s'.board = { s.board with table := s'.table } by
    unfold CallManager.board
    rw [hk.callDetailsInfo]]
  exact .dialCall caller number extras s.board hout

/-- A delayed task lets one call fail at most. -/
theorem delayedTask_board (env : Env) (h : ServiceInv s) (taskId : Nat) :
    Post (mainLoopStep env (.delayedTask taskId)) s fun _ s' =>
      Board.Step (.delayedTask taskId) s.board s'.board := by
  have hidle : ∀ s', Quiet s s' → Board.Step (.delayedTask taskId) s.board s'.board := by
    intro s' hq
    rw [board_of_quiet hq]
    exact .taskIdle taskId s.board
  refine Post.bind_gets ?_
  cases s.delayed.find? fun t => t.1 = taskId with
  | none => exact hidle s (Quiet.refl s)
  | some task =>
    refine Post.bind (Post.of_moves (R := Quiet) _ _) fun _ s₁ (hq₁ : Quiet s s₁) => ?_
    cases task.2 with
    | restoreDialingFlag =>
      refine Post.bind (Post.of_moves (R := Quiet) _ _) fun _ s₂ (hq₂ : Quiet s₁ s₂) => ?_
      exact hidle _ ((hq₁.trans hq₂).trans (Prog.Moves.rel (m := restoreDialingFlag false) s₂))
    | pendingHangupProtect callId =>
      refine Post.bind (Post.of_moves (R := Quiet) _ _) fun _ s₂ (hq₂ : Quiet s₁ s₂) => ?_
      have hq := hq₁.trans hq₂
      refine Post.bind_gets (Post.when (fun _ => ?_) fun _ => hidle s₂ hq)
      refine Post.bind_gets (Post.bind (Q := fun _ s₃ =>
        Board.Step (.delayedTask taskId) s.board s₃.board) ?_ fun _ s₃ hstep => ?_)
      · have h₂ : s₂.table.Inv := hq.table ▸ h.table
        cases hfound : getOneCallObject s₂ callId with
        | none => exact hidle s₂ hq
        | some p =>
          have hp := mem_of_findCall hfound
          refine Post.ignore (Post.mono (dealFailDial_computes env h₂ hp) ?_)
          rintro ret s₃ ⟨hs₃, hf⟩
          have ht₃ : s₃.table = (s.table.failCall (s₂.row p)).2 := by
            rw [← hq.table]
            exact congrArg Prod.snd hs₃
          rw [board_of_frame ht₃ (hq.toFrame.trans hf)]
          have hmem : s₂.row p ∈ s.table.rows := hq.table ▸ s₂.row_mem_table hp
          exact .taskFails taskId s.board hmem
      · refine Post.mono (Post.of_moves (R := Quiet) _ s₃) fun _ s₄ hq₄ => ?_
        rw [board_of_quiet hq₄]
        exact hstep

/-- **One step.** -/
theorem mainLoopStep_board (env : Env) (h : ServiceInv s) (input : Input) :
    Board.Step input s.board (mainLoopStep env input s).2.board := by
  have hasks : ∀ {α : Type} (m : Prog CallManager α) [Prog.Moves Quiet m], input.asks = true →
      Board.Step input s.board (m s).2.board := by
    intro α m _ hinput
    rw [board_of_quiet (Prog.Moves.rel (m := m) s)]
    exact .asks s.board hinput
  cases input with
  | callReport info =>
    rw [callReport_board env h info]
    exact .callReport info s.board
  | callsReport slotId callVec =>
    rw [callsReport_board env h slotId callVec]
    exact .callsReport slotId callVec s.board
  | eventResult eventId =>
    rw [eventResult_board env h eventId]
    exact .eventResult eventId s.board
  | dialCall caller number extras => exact dialCall_board env h caller number extras
  | delayedTask taskId => exact delayedTask_board env h taskId
  | disconnectedCause reason => exact hasks (handleDisconnectedCause reason).ignore rfl
  | answerCall callId videoState isRTT =>
    exact hasks (CallControlManager.answerCall env callId videoState isRTT).ignore rfl
  | rejectCall callId rejectWithMessage =>
    exact hasks (CallControlManager.rejectCall env callId rejectWithMessage).ignore rfl
  | hangUpCall callId => exact hasks (CallControlManager.hangUpCall env callId).ignore rfl
  | holdCall callId => exact hasks (CallControlManager.holdCall env callId).ignore rfl
  | unHoldCall callId => exact hasks (CallControlManager.unHoldCall env callId).ignore rfl
  | switchCall callId => exact hasks (CallControlManager.switchCall env callId).ignore rfl
  | endCall => exact hasks (CallControlManager.endCall env).ignore rfl
  | nextRequest => exact hasks (CallManagerMini.nextRequest env) rfl

theorem inputStep_board {input : Input} (h : ServiceInv s) (hstep : s.InputStep input s') :
    ServiceInv s' ∧ Board.Step input s.board s'.board := by
  obtain ⟨env, rfl⟩ := hstep
  exact ⟨h.step ⟨env, input, rfl⟩, mainLoopStep_board env h input⟩

/-- The steps of a run, with their inputs. -/
theorem labelled_run (steps : List (Env × Input)) (s : CallManager) :
    Runs.Labelled CallManager.InputStep (steps.map Prod.snd) s
      (steps.foldl (fun s step => (mainLoopStep step.1 step.2 s).2) s) := by
  induction steps generalizing s with
  | nil => exact .nil
  | cons step steps ih => exact .cons ⟨step.1, rfl⟩ (ih _)

/-- How a run goes on. -/
theorem labelled_run_append (steps more : List (Env × Input)) :
    Runs.Labelled CallManager.InputStep (more.map Prod.snd) (CallManager.run steps)
      (CallManager.run (steps ++ more)) := by
  rw [show CallManager.run (steps ++ more) = _ from List.foldl_append ..]
  exact labelled_run more _

/-- **The service refines the machine on the table**: for every run, whatever the environment
answers, the calls and the recorded reports go through a run of the machine with the same
inputs. -/
theorem service_refines (steps : List (Env × Input)) :
    Runs.Labelled Board.Step (steps.map Prod.snd) {} (CallManager.run steps).board :=
  (labelled_run steps .init).refines (fun _ _ _ h hstep => inputStep_board h hstep) serviceInv_init

end CallManagerMini
