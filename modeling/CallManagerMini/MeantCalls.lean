import CallManagerMini.ServiceLives
import CallManagerMini.Tones

/-! # The call an operation is for

An application names the call it means, or leaves that to the service: `AnswerCall`, `RejectCall`
and `HangUpCall` then look for the call themselves, and so does `EndCall`.  Which call that is, and
whether the operation may be done to it, is a matter of the table alone (`meant`, `Suits`).  An
operation that is refused leaves the service as it was, but for the broadcast of an answer; one that
is not posts its request for this call, or puts it off until the network has numbered the call
(`operation_comes`).  `EndCall` is one of the other two, and is never refused (`endCall_ends`).
-/

namespace CallManagerMini

open Prog (Post Moves)
open CallTable (Rings)

namespace CallTable

/-- The call in a running state that entered the table last. -/
def latest (t : CallTable) (running : CallRunningState) : Option Row :=
  t.rows.reverse.find? fun r => r.callRunningState = running

/-- The latest call in the first of the running states that has one. -/
def firstIn (t : CallTable) (states : List CallRunningState) : Option Row :=
  states.findSome? t.latest

/-- The call with the id. -/
def callOf (t : CallTable) (callId : Int) : Option Row := t.rows.find? fun r => r.callId = callId

/-- Every call is on its way out. -/
def AllEnding (t : CallTable) : Prop := ∀ r ∈ t.rows, r.callState = .disconnecting

end CallTable

namespace ControlOperation

/-- The id the application gave. -/
def callId : ControlOperation → Int
  | .answerCall callId _ _ | .rejectCall callId _ | .hangUpCall callId | .holdCall callId
  | .unHoldCall callId | .switchCall callId => callId

/-- Where the operation looks for its call if it was given no id. -/
def searched : ControlOperation → List CallRunningState
  | .answerCall .. | .rejectCall .. => [.ringing]
  | .hangUpCall _ => [.active, .dialing, .connecting, .hold]
  | .holdCall _ | .unHoldCall _ | .switchCall _ => []

/-- **The call an operation is for.** -/
def meant (op : ControlOperation) (t : CallTable) : Option Row :=
  if op.callId = invalidCallId then t.firstIn op.searched else t.callOf op.callId

/-- What has to be so for the operation to be done to the call. -/
def Suits (t : CallTable) (r : Row) : ControlOperation → Prop
  | .answerCall _ videoState _ =>
    Rings r.callState ∧
      (videoState = VideoStateType.voice.toInt ∨ videoState = VideoStateType.video.toInt)
  | .rejectCall .. => Rings r.callState
  | .hangUpCall _ => r.callState ≠ .disconnecting
  | .holdCall _ => r.callState = .active
  | .unHoldCall _ => r.callState = .holding
  | .switchCall _ =>
    r.callState = .holding ∧ 2 ≤ t.rows.length ∧
      ∀ q ∈ t.rows, q.callState ≠ .dialing ∧ q.callState ≠ .alerting

/-- The request the operation posts for a call. -/
def request (callId : Int) : ControlOperation → Request
  | .answerCall _ videoState isRTT => .answer callId videoState isRTT
  | .rejectCall _ rejectWithMessage => .reject callId rejectWithMessage
  | .hangUpCall _ => .hangUp callId
  | .holdCall _ => .hold callId
  | .unHoldCall _ => .unHold callId
  | .switchCall _ => .switch callId

/-- A hang-up waits for the network to number the call that is being dialed. -/
def PutOff (s : CallManager) (r : Row) : ControlOperation → Prop
  | .hangUpCall _ => s.helper.hasPendingMo r.callId = true
  | _ => False

/-- The operation is for a call, and may be done to it. -/
def For (op : ControlOperation) (t : CallTable) (r : Row) : Prop :=
  op.meant t = some r ∧ op.Suits t r

/-- **What an operation comes to**, with its code.  The cases exclude each other. -/
inductive Comes (env : Env) (op : ControlOperation) (s s' : CallManager) : RetCode → Prop where
  /-- There is no such call, or the operation does not suit it. -/
  | refused {ret : RetCode} : (∀ r, ¬op.For s.table r) → ret ≠ .success →
    s'.requests = s.requests → Comes env op s s' ret
  /-- The call is hung up once it has its index. -/
  | putOff (r : Row) : op.For s.table r → op.PutOff s r → s'.requests = s.requests →
    s'.helper.hasPendingHangup r.callId = true → Comes env op s s' .success
  /-- The request waits for its turn. -/
  | posted (r : Row) : op.For s.table r → ¬op.PutOff s r →
    s'.requests = s.requests ++ [op.request r.callId] → Comes env op s s' .success
  /-- The main loop does not take the request, and this is its code. -/
  | turnedAway {ret : RetCode} (r : Row) : op.For s.table r → ¬op.PutOff s r → ret ≠ .success →
    (∃ log, env.post log = ret) → s'.requests = s.requests → Comes env op s s' ret

end ControlOperation

/-! ## The table the lookups read -/

variable {s s' : CallManager} {env : Env} {p : Ref} {r : Row} {callId : Int}

theorem latest_eq (s : CallManager) (running : CallRunningState) :
    s.table.latest running = (getOneCallObjectByState s running).map s.row := by
  unfold CallTable.latest CallManager.table
  rw [← List.map_reverse, List.find?_map]
  rfl

theorem callOf_eq (s : CallManager) (callId : Int) :
    s.table.callOf callId = (getOneCallObject s callId).map s.row := by
  unfold CallTable.callOf CallManager.table
  rw [List.find?_map]
  rfl

theorem callOf_eq_some (h : ServiceInv s) :
    s.table.callOf callId = some r ↔ r ∈ s.table.rows ∧ r.callId = callId :=
  Keyed.find?_eq_some_iff h.table.ids

theorem latest_eq_some {t : CallTable} {running : CallRunningState}
    (h : t.latest running = some r) :
    r ∈ t.rows ∧ r.callRunningState = running :=
  ⟨List.mem_reverse.mp (List.mem_of_find?_eq_some h), by simpa using List.find?_some h⟩

theorem latest_eq_none {t : CallTable} {running : CallRunningState} (h : t.latest running = none)
    (hr : r ∈ t.rows) : r.callRunningState ≠ running := by
  simpa using List.find?_eq_none.mp h r (List.mem_reverse.mpr hr)

theorem firstIn_cons (t : CallTable) (running : CallRunningState) (states : List CallRunningState) :
    t.firstIn (running :: states) = (t.latest running).orElse fun _ => t.firstIn states := by
  unfold CallTable.firstIn
  rw [List.findSome?_cons]
  cases t.latest running <;> rfl

/-! ### The running state of a call of the table -/

section Running
variable {lastCallId : Int} {nextObj : Ref} {dialEcc : Bool}

theorem Row.Ok.running_ringing (h : r.Ok nextObj lastCallId dialEcc) :
    r.callRunningState = .ringing ↔ Rings r.callState := by
  rw [h.running]
  cases r.callState <;> simp [runningOf, Rings]

theorem Row.Ok.running_active (h : r.Ok nextObj lastCallId dialEcc) :
    r.callRunningState = .active ↔ r.callState = .active := by
  rw [h.running]
  cases r.callState <;> simp [runningOf]

theorem Row.Ok.running_hold (h : r.Ok nextObj lastCallId dialEcc) :
    r.callRunningState = .hold ↔ r.callState = .holding := by
  rw [h.running]
  cases r.callState <;> simp [runningOf]

/-- A call that is not on its way out is in a running state in which it can be ended. -/
theorem Row.Ok.running_ends (h : r.Ok nextObj lastCallId dialEcc) :
    r.callRunningState ∈ [.active, .ringing, .dialing, .connecting, .hold] ↔
      r.callState ≠ .disconnecting := by
  rw [h.running]
  rcases h.live with hst | hst | hst | hst | hst | hst | hst <;> simp [hst, runningOf]

end Running

/-! ## What the policies ask -/

theorem isCallExist_eq (s : CallManager) (callId : Int) :
    isCallExist s callId = (s.table.callOf callId).isSome := by
  rw [callOf_eq, Option.isSome_map]
  unfold isCallExist CallManager.anyCall getOneCallObject CallManager.findCall
  rw [Bool.eq_iff_iff, List.any_eq_true, List.find?_isSome]

theorem getCallState_eq (s : CallManager) (callId : Int) :
    getCallState s callId = ((s.table.callOf callId).map Row.callState).getD .idle := by
  rw [callOf_eq]
  unfold getCallState
  cases getOneCallObject s callId <;> rfl

theorem ringingCallPolicy_iff (s : CallManager) (callId : Int) :
    ringingCallPolicy s callId = .success ↔
      ∃ r, s.table.callOf callId = some r ∧ Rings r.callState := by
  unfold ringingCallPolicy
  rw [isCallExist_eq, getCallState_eq]
  cases s.table.callOf callId with
  | none => simp
  | some r => by_cases hi : r.callState = .incoming <;> simp [Rings, hi]

theorem answerCallPolicy_iff (s : CallManager) (callId videoState : Int) :
    answerCallPolicy s callId videoState = .success ↔ ∃ r, s.table.callOf callId = some r ∧
      Rings r.callState ∧
        (videoState = VideoStateType.voice.toInt ∨ videoState = VideoStateType.video.toInt) := by
  unfold answerCallPolicy
  split
  · next hbad =>
    simp only [reduceCtorEq, false_iff, not_exists, not_and]
    intro r _ _ hgood
    omega
  · next hgood =>
    have hstate : videoState = VideoStateType.voice.toInt ∨
      videoState = VideoStateType.video.toInt := by
      omega
    simp only [ringingCallPolicy_iff, hstate, and_true]

theorem hangUpPolicy_iff (h : ServiceInv s) (callId : Int) :
    hangUpPolicy s callId = .success ↔
      ∃ r, s.table.callOf callId = some r ∧ r.callState ≠ .disconnecting := by
  unfold hangUpPolicy
  rw [isCallExist_eq, getCallState_eq]
  cases hr : s.table.callOf callId with
  | none => simp
  | some r =>
    have hlive := (h.table.ok r ((callOf_eq_some h).mp hr).1).live
    rcases hlive with hst | hst | hst | hst | hst | hst | hst <;> simp [hst]

theorem holdCallPolicy_iff (h : ServiceInv s) (callId : Int) :
    holdCallPolicy s callId = .success ↔
      ∃ r, s.table.callOf callId = some r ∧ r.callState = .active := by
  unfold holdCallPolicy
  rw [callOf_eq]
  cases hp : getOneCallObject s callId with
  | none => simp
  | some p =>
    have hrow := (h.table.ok _ (s.row_mem_table (mem_of_findCall hp))).running_active
    by_cases hact : (s.call p).callRunningState = .active <;>
      simpa [hact, CallManager.row, CallBase.row] using hrow

theorem unHoldCallPolicy_iff (h : ServiceInv s) (callId : Int) :
    unHoldCallPolicy s callId = .success ↔
      ∃ r, s.table.callOf callId = some r ∧ r.callState = .holding := by
  unfold unHoldCallPolicy
  rw [callOf_eq]
  cases hp : getOneCallObject s callId with
  | none => simp
  | some p =>
    have hrow := (h.table.ok _ (s.row_mem_table (mem_of_findCall hp))).running_hold
    by_cases hheld : (s.call p).callRunningState = .hold <;>
      simpa [hheld, CallManager.row, CallBase.row] using hrow

/-- Every call of the table is a carrier call. -/
theorem getCarrierCallList_length (h : ServiceInv s) :
    (getCarrierCallList s).length = s.table.rows.length := by
  unfold getCarrierCallList CallManager.table
  rw [List.length_map, List.length_map, List.filter_eq_self.mpr]
  intro p hp
  rcases h.table.carrier hp with ht | ht <;> simp [ht, CallType.isCarrierListed]

theorem isCallExistInState_iff (s : CallManager) (callState : TelCallState) :
    isCallExistInState s callState = true ↔ ∃ q ∈ s.table.rows, q.callState = callState := by
  unfold isCallExistInState CallManager.anyCall CallManager.table
  simp [CallManager.row, CallBase.row]

theorem switchCallPolicy_iff (h : ServiceInv s) (callId : Int) :
    switchCallPolicy s callId = .success ↔ ∃ r, s.table.callOf callId = some r ∧
      r.callState = .holding ∧ 2 ≤ s.table.rows.length ∧
        ∀ q ∈ s.table.rows, q.callState ≠ .dialing ∧ q.callState ≠ .alerting := by
  have hdialing := isCallExistInState_iff s .dialing
  have halerting := isCallExistInState_iff s .alerting
  unfold switchCallPolicy
  rw [isCallExist_eq, getCallState_eq, getCarrierCallList_length h]
  cases s.table.callOf callId with
  | none => simp
  | some r =>
    by_cases hfew : s.table.rows.length < 2
    · simp [hfew]
    · simp only [Option.isSome_some, Bool.not_true, Bool.false_eq_true, if_false, hfew]
      grind

/-! ## Which call is meant -/

namespace ControlOperation

variable {op : ControlOperation} {q : Row}

/-- Without an id, the operation is for the call it finds; that call's id means the call, too. -/
theorem meant_eq_callOf (h : ServiceInv s)
    (hfound : op.callId = invalidCallId → s.table.firstIn op.searched = some q)
    (hq : q ∈ s.table.rows) : op.meant s.table =
      s.table.callOf (if op.callId = invalidCallId then q.callId else op.callId) := by
  unfold meant
  split
  · next hid => rw [hfound hid, (callOf_eq_some h).mpr ⟨hq, rfl⟩]
  · rfl

/-- No call has the id `INVALID_CALLID`. -/
theorem callOf_invalid (h : ServiceInv s) : s.table.callOf invalidCallId = none := by
  refine Option.eq_none_iff_forall_ne_some.mpr fun r hr => ?_
  obtain ⟨hmem, hid⟩ := (callOf_eq_some h).mp hr
  exact absurd (h.table.ok r hmem).id_pos (by rw [hid]; decide)

/-- An operation that does not search needs an id. -/
theorem meant_of_searched_nil (h : ServiceInv s) (hs : op.searched = []) :
    op.meant s.table = s.table.callOf op.callId := by
  unfold meant
  split
  · next hid => rw [hs, hid, callOf_invalid h, CallTable.firstIn, List.findSome?_nil]
  · rfl

theorem meant_mem (h : ServiceInv s) (hr : op.meant s.table = some r) : r ∈ s.table.rows := by
  unfold meant at hr
  split at hr
  · obtain ⟨running, -, hfound⟩ := List.exists_of_findSome?_eq_some hr
    exact (latest_eq_some hfound).1
  · exact ((callOf_eq_some h).mp hr).1

/-! ## What becomes of the request -/

/-- An operation that may be done fails only if the main loop does not take its request. -/
theorem Comes.of_fails {ret : RetCode} (hcomes : op.Comes env s s' ret) (hr : op.For s.table r)
    (hret : ret ≠ .success) : ∃ log, env.post log = ret := by
  cases hcomes with
  | refused hno => exact absurd hr (hno r)
  | putOff => exact absurd rfl hret
  | posted => exact absurd rfl hret
  | turnedAway _ _ _ _ hfull => exact hfull

theorem Comes.of_postRequest {s₀ : CallManager} (hsame : SameRequests s₀ s) (hr : op.For s₀.table r)
    (hput : ¬op.PutOff s₀ r) (env : Env) :
    Post (postRequest env (op.request r.callId)) s fun ret s' => Comes env op s₀ s' ret := by
  show Comes env op s₀ (postRequest env (op.request r.callId) s).2
    (postRequest env (op.request r.callId) s).1
  unfold postRequest
  dsimp only
  split
  · next haccepted =>
    rw [haccepted]
    refine .posted r hr hput ?_
    exact congrArg (fun l => l ++ [op.request r.callId]) hsame
  · next hfull => exact .turnedAway r hr hput hfull ⟨s.log, rfl⟩ hsame

/-- A policy that lets the operation through exactly if it may be done to the call meant. -/
theorem Comes.of_policy {s₀ : CallManager} {policy : CallManager → RetCode}
    {m : Prog CallManager RetCode} (hsame : SameRequests s₀ s)
    (hpolicy : policy s = .success ↔ ∃ r, op.For s₀.table r)
    (hm : ∀ r, op.For s₀.table r → Post m s fun ret s' => Comes env op s₀ s' ret) :
    Post (do
      let ret ← Prog.gets policy
      if ret ≠ .success then pure ret else m) s fun ret s' => Comes env op s₀ s' ret := by
  refine Post.bind_gets (Post.ite (fun hbad => ?_) fun hok => ?_)
  · exact .refused (fun r hr => hbad (hpolicy.mpr ⟨r, hr⟩)) hbad hsame
  · obtain ⟨r, hr⟩ := hpolicy.mp (not_not.mp hok)
    exact hm r hr

/-- An operation for a ringing call finds none if nothing rings. -/
theorem Comes.of_silence (h : ServiceInv s) (hrings : ∀ r, op.Suits s.table r → Rings r.callState)
    (hnone : getOneCallObjectByState s .ringing = none) {ret : RetCode} (hret : ret ≠ .success) :
    Comes env op s s ret := by
  refine .refused (fun r hr => ?_) hret rfl
  have hlatest : s.table.latest .ringing = none := by rw [latest_eq, hnone, Option.map_none]
  have hmem := meant_mem h hr.1
  exact latest_eq_none hlatest hmem ((h.table.ok r hmem).running_ringing.mpr (hrings r hr.2))

/-- The id under which an operation for a ringing call looks for it. -/
theorem meant_of_ringing (op : ControlOperation) (h : ServiceInv s) (hs : op.searched = [.ringing])
    (hp : getOneCallObjectByState s .ringing = some p) : op.meant s.table =
      s.table.callOf (if op.callId = invalidCallId then (s.call p).callId else op.callId) := by
  have hlatest : s.table.latest .ringing = some (s.row p) := by rw [latest_eq, hp, Option.map_some]
  refine meant_eq_callOf h (fun _ => ?_) (latest_eq_some hlatest).1
  rw [hs, firstIn_cons, hlatest]
  rfl

/-! ## The operations -/

theorem rejectCall_comes (h : ServiceInv s) (env : Env) (callId : Int) (rejectWithMessage : Bool) :
    Post (CallControlManager.rejectCall env callId rejectWithMessage) s fun ret s' =>
      Comes env (.rejectCall callId rejectWithMessage) s s' ret := by
  refine Post.bind_gets ?_
  cases hp : getOneCallObjectByState s .ringing with
  | none =>
    have hrings : ∀ r, Suits s.table r (.rejectCall callId rejectWithMessage) → Rings r.callState :=
      fun _ hr => hr
    refine .of_silence h hrings hp ?_
    show RetCode.errLocalPtrNull ≠ .success
    decide
  | some p =>
    have hmeant := meant_of_ringing (.rejectCall callId rejectWithMessage) h rfl hp
    refine Post.bind_gets (.of_policy rfl ?_ fun r hr => ?_)
    · refine (ringingCallPolicy_iff s _).trans (exists_congr fun r => and_congr_left' ?_)
      rw [hmeant]
      rfl
    · have hid := ((callOf_eq_some h).mp (hmeant.symm.trans hr.1)).2
      have hpost := Comes.of_postRequest rfl hr (fun hput => hput) env
      rw [hid] at hpost
      exact hpost

/-- `GetRingCall` finds the call that is meant, provided that some call rings. -/
theorem meant_of_getRingCall (h : ServiceInv s) {q : Ref} (callId videoState : Int) (isRTT : Bool)
    (hq : getOneCallObjectByState s .ringing = some q) :
    meant (.answerCall callId videoState isRTT) s.table =
      (CallControlManager.getRingCall s callId).map s.row := by
  rw [meant_of_ringing (.answerCall callId videoState isRTT) h rfl hq, callOf_eq]
  unfold CallControlManager.getRingCall
  rw [hq]
  rfl

/-- The answer is broadcast first; that changes neither the table nor the requests. -/
theorem answerCall_comes (h : ServiceInv s) (env : Env) (callId videoState : Int) (isRTT : Bool) :
    Post (CallControlManager.answerCall env callId videoState isRTT) s fun ret s' =>
      Comes env (.answerCall callId videoState isRTT) s s' ret := by
  cases hp : CallControlManager.getRingCall s callId with
  | none =>
    refine Post.bind_gets ?_
    rw [hp]
    show Comes env (.answerCall callId videoState isRTT) s s .errLocalPtrNull
    cases hq : getOneCallObjectByState s .ringing with
    | none =>
      have hrings : ∀ r, Suits s.table r (.answerCall callId videoState isRTT) →
        Rings r.callState :=
        fun _ hr => hr.1
      exact .of_silence h hrings hq (by decide)
    | some q =>
      have hmeant := meant_of_getRingCall h callId videoState isRTT hq
      rw [hp, Option.map_none] at hmeant
      refine .refused (fun r hr => ?_) (by decide) rfl
      exact absurd (hmeant.symm.trans hr.1) (by simp)
  | some p =>
    obtain ⟨q, hq⟩ : ∃ q, getOneCallObjectByState s .ringing = some q := by
      refine Option.ne_none_iff_exists'.mp fun hnone => ?_
      simp [CallControlManager.getRingCall, hnone] at hp
    have hmeant := meant_of_getRingCall h callId videoState isRTT hq
    rw [hp, Option.map_some] at hmeant
    have hset : Moves SameRequests (modifyCall p fun c => { c with isAnswered := true }) :=
      bare_modifyCall fun _ => ⟨rfl, rfl, id⟩
    have hannounce : Moves SameRequests (announceAnswer env p) := by
      unfold announceAnswer
      infer_instance
    refine Post.congr (answerCall_eq env videoState isRTT hp) (Post.bind
      (Post.and (Post.of_moves (R := SameRequests) (announceAnswer env p) s)
        (Post.of_moves (R := Quiet) (announceAnswer env p) s)) ?_)
    rintro _ s₁ ⟨hsame, hq₁⟩
    have hcall : s.table.callOf (s.call p).callId = some (s.row p) :=
      (callOf_eq_some h).mpr ⟨meant_mem h hmeant, rfl⟩
    refine Comes.of_policy hsame ?_ fun r hr => ?_
    · rw [answerCallPolicy_quiet hq₁, answerCallPolicy_iff, hcall, ← hmeant]
      rfl
    · obtain rfl := Option.some.inj (hmeant.symm.trans hr.1)
      exact Comes.of_postRequest hsame hr (fun hput => hput) env

/-! ### Hanging up -/

theorem firstCallIn_eq (s : CallManager) (states : List CallRunningState) :
    CallControlManager.firstCallIn s states =
      ((s.table.firstIn states).map Row.callId).getD invalidCallId := by
  induction states with
  | nil => rfl
  | cons running states ih =>
    rw [firstIn_cons, latest_eq]
    unfold CallControlManager.firstCallIn
    cases getOneCallObjectByState s running with
    | none => exact ih
    | some p => rfl

/-- The id under which `HangUpCall` looks for its call; it is invalid only if there is none. -/
theorem meant_of_hangUp (h : ServiceInv s) (callId : Int) :
    meant (.hangUpCall callId) s.table = s.table.callOf (if callId = invalidCallId then
      CallControlManager.firstCallIn s [.active, .dialing, .connecting, .hold] else callId) := by
  by_cases hid : callId = invalidCallId
  · rw [if_pos hid, firstCallIn_eq, meant]
    rw [if_pos (show (hangUpCall callId).callId = invalidCallId from hid)]
    show s.table.firstIn [.active, .dialing, .connecting, .hold] = _
    cases hr : s.table.firstIn [.active, .dialing, .connecting, .hold] with
    | none => exact (callOf_invalid h).symm
    | some r =>
      obtain ⟨running, -, hfound⟩ := List.exists_of_findSome?_eq_some hr
      exact ((callOf_eq_some h).mpr ⟨(latest_eq_some hfound).1, rfl⟩).symm
  · rw [if_neg hid, meant]
    exact if_neg hid

/-- The flags of the dial are what they were. -/
def SameHelper (s s' : CallManager) : Prop := s'.helper = s.helper

instance : Std.Refl SameHelper := ⟨fun _ => rfl⟩

instance : IsTrans CallManager SameHelper := ⟨fun _ _ _ h h' => Eq.trans h' h⟩

instance (callId : Int) :
    Moves SameHelper (CallControlManager.postPendingHangupProtectTask env callId) := by
  have hpost (t : DelayedTask) : Moves SameHelper (postDelayed env t) := by
    refine ⟨fun s => ?_⟩
    unfold postDelayed
    dsimp only
    split <;> rfl
  have hset (id : Nat) : Moves SameHelper (Prog.modify fun s : CallManager =>
      { s with pendingHangupTaskId := id }) := .of_modify fun _ => rfl
  unfold CallControlManager.postPendingHangupProtectTask
  infer_instance

/-- The hang-up is remembered for the call, and a task is posted to guard it. -/
theorem putOff_post (env : Env) (callId : Int) (s : CallManager) :
    Post (do
      setPendingMo false (-1)
      setPendingHangup true callId
      CallControlManager.postPendingHangupProtectTask env callId
      pure RetCode.success : Prog CallManager RetCode) s fun ret s' =>
        ret = .success ∧ s'.requests = s.requests ∧ s'.helper.hasPendingHangup callId = true := by
  refine Post.bind_modify (Post.bind_modify (Post.bind (Post.and
    (Post.of_moves (R := SameRequests) _ _) (Post.of_moves (R := SameHelper) _ _)) ?_))
  rintro _ s₁ ⟨hrequests, hhelper⟩
  refine Post.pure ⟨rfl, hrequests, ?_⟩
  rw [hhelper]
  simp [CallRequestEventHandlerHelper.hasPendingHangup]

theorem hangUpCall_comes (h : ServiceInv s) (env : Env) (callId : Int) :
    Post (CallControlManager.hangUpCall env callId) s fun ret s' =>
      Comes env (.hangUpCall callId) s s' ret := by
  have hmeant := meant_of_hangUp h callId
  refine Post.bind_gets ?_
  generalize (if callId = invalidCallId then
    CallControlManager.firstCallIn s [.active, .dialing, .connecting, .hold] else callId) =
      id at hmeant ⊢
  refine Post.ite (fun hid => ?_) fun _ => ?_
  · show Comes env (.hangUpCall callId) s s .errArgumentInvalid
    refine .refused (fun r hr => ?_) (by decide) rfl
    rw [hid, callOf_invalid h] at hmeant
    exact absurd (hmeant.symm.trans hr.1) (by simp)
  refine Comes.of_policy rfl ?_ fun r hr => ?_
  · refine (hangUpPolicy_iff h id).trans (exists_congr fun r => and_congr_left' ?_)
    rw [hmeant]
  · obtain ⟨-, rfl⟩ := (callOf_eq_some h).mp (hmeant.symm.trans hr.1)
    refine Post.bind_gets (Post.ite (fun hput => ?_) fun hput =>
      Comes.of_postRequest rfl hr hput env)
    refine Post.mono (putOff_post env r.callId s) ?_
    rintro ret s' ⟨rfl, hrequests, hpending⟩
    exact .putOff r hr hput hrequests hpending

/-! ### Hold, resume, switch -/

/-- An operation that needs an id. -/
theorem comes_of_id (op : ControlOperation) (h : ServiceInv s) (env : Env) (hs : op.searched = [])
    (hput : ∀ r, ¬op.PutOff s r) {policy : CallManager → RetCode}
    (hpolicy : policy s = .success ↔ ∃ r, s.table.callOf op.callId = some r ∧ op.Suits s.table r) :
    Post (do
      let ret ← Prog.gets policy
      if ret ≠ .success then pure ret else postRequest env (op.request op.callId)) s
      fun ret s' => Comes env op s s' ret := by
  have hmeant := meant_of_searched_nil h hs
  refine Comes.of_policy rfl ?_ fun r hr => ?_
  · refine hpolicy.trans (exists_congr fun r => and_congr_left' ?_)
    rw [hmeant]
  · have hid := ((callOf_eq_some h).mp (hmeant.symm.trans hr.1)).2
    rw [← hid]
    exact Comes.of_postRequest rfl hr (hput r) env

/-! ### Every operation -/

theorem comes (h : ServiceInv s) (env : Env) (op : ControlOperation) :
    Post (op.perform env) s fun ret s' => op.Comes env s s' ret := by
  cases op with
  | answerCall callId videoState isRTT => exact answerCall_comes h env callId videoState isRTT
  | rejectCall callId rejectWithMessage => exact rejectCall_comes h env callId rejectWithMessage
  | hangUpCall callId => exact hangUpCall_comes h env callId
  | holdCall callId =>
    exact comes_of_id (.holdCall callId) h env rfl (fun _ => id) (holdCallPolicy_iff h callId)
  | unHoldCall callId =>
    exact comes_of_id (.unHoldCall callId) h env rfl (fun _ => id) (unHoldCallPolicy_iff h callId)
  | switchCall callId =>
    exact comes_of_id (.switchCall callId) h env rfl (fun _ => id) (switchCallPolicy_iff h callId)

end ControlOperation

instance (op : ControlOperation) : Moves Quiet (op.perform env) := by
  cases op <;> dsimp only [ControlOperation.perform] <;> infer_instance

/-- **An operation is for one call, and does to it what may be done.** -/
theorem operation_comes {x : Service} (hx : x.Reachable) (env : Env) (op : ControlOperation) :
    op.Comes env x.manager (op.perform env x.manager).2 (op.perform env x.manager).1 ∧
      (op.perform env x.manager).2.table = x.manager.table :=
  ⟨op.comes (Service.reachable_inv hx).manager env,
    (Moves.rel (R := Quiet) (m := op.perform env) x.manager).table⟩

/-! ## Ending whatever goes on -/

namespace CallControlManager

/-- Where `EndCall` looks for a call. -/
def endOrder : List CallRunningState := [.active, .ringing, .dialing, .connecting, .hold]

/-- What `EndCall` does to the call it finds. -/
def endOperation (r : Row) : ControlOperation :=
  if r.callRunningState = .ringing then .rejectCall r.callId false else .hangUpCall r.callId

theorem endFirstCall_eq (h : ServiceInv s) (env : Env) (states : List CallRunningState) :
    endFirstCall env states s =
      match s.table.firstIn states with
      | none => (.success, s)
      | some r => (endOperation r).perform env s := by
  induction states with
  | nil => rfl
  | cons running states ih =>
    have hlatest := latest_eq s running
    rw [firstIn_cons, hlatest]
    unfold endFirstCall
    rw [Prog.bind_apply, Prog.gets_apply]
    cases hp : getOneCallObjectByState s running with
    | none => exact ih
    | some p =>
      rw [hp, Option.map_some] at hlatest
      obtain ⟨hmem, hrunning⟩ := latest_eq_some hlatest
      have hid : (s.call p).callId ≠ invalidCallId := (Int.ne_of_lt (h.table.ok _ hmem).id_pos).symm
      show (if (s.call p).callId = invalidCallId then endFirstCall env states
        else if running = .ringing then rejectCall env (s.call p).callId false
        else hangUpCall env (s.call p).callId) s = (endOperation (s.row p)).perform env s
      rw [if_neg hid, ← hrunning]
      unfold endOperation
      split <;> rfl

/-- There is nothing to end once every call is on its way out. -/
theorem firstIn_endOrder (h : ServiceInv s) :
    s.table.firstIn endOrder = none ↔ s.table.AllEnding := by
  unfold CallTable.firstIn
  rw [List.findSome?_eq_none_iff]
  constructor
  · intro hnone r hr
    by_contra hst
    have hends := (h.table.ok r hr).running_ends.mpr hst
    exact latest_eq_none (hnone _ hends) hr rfl
  · intro hall running hrunning
    refine Option.eq_none_iff_forall_ne_some.mpr fun r hr => ?_
    obtain ⟨hmem, rfl⟩ := latest_eq_some hr
    exact (h.table.ok r hmem).running_ends.mp hrunning (hall r hmem)

/-- What `EndCall` does may be done to the call it finds. -/
theorem endOperation_for (h : ServiceInv s) (hr : s.table.firstIn endOrder = some r) :
    (endOperation r).For s.table r := by
  obtain ⟨running, hrunning, hfound⟩ := List.exists_of_findSome?_eq_some hr
  obtain ⟨hmem, rfl⟩ := latest_eq_some hfound
  have hok := h.table.ok r hmem
  have hid : r.callId ≠ invalidCallId := (Int.ne_of_lt hok.id_pos).symm
  have hcall : s.table.callOf r.callId = some r := (callOf_eq_some h).mpr ⟨hmem, rfl⟩
  unfold endOperation
  split
  · next hring => exact ⟨(if_neg hid).trans hcall, hok.running_ringing.mp hring⟩
  · exact ⟨(if_neg hid).trans hcall, hok.running_ends.mp hrunning⟩

end CallControlManager

open CallControlManager in
/-- **What `EndCall` does, and what an application is told of the calls before it.** -/
structure EndsOneCall (env : Env) (s : CallManager) : Prop where
  /-- The application is told that the line is idle exactly if every call is on its way out. -/
  idle : CallControlManager.getCallState s = .idle ↔ s.table.AllEnding
  hasCall : hasCall s = true ↔ ¬s.table.AllEnding
  ringing : CallControlManager.getCallState s = .ringing ↔ ∃ r ∈ s.table.rows, Rings r.callState
  /-- Then there is nothing to end. -/
  nothing : s.table.AllEnding → endCall env s = (.success, s)
  /-- Otherwise one call is rejected or hung up, for which the operation is allowed. -/
  one : ¬s.table.AllEnding → ∃ r, s.table.firstIn endOrder = some r ∧
    (endOperation r).For s.table r ∧ endCall env s = (endOperation r).perform env s
  /-- It fails only if the main loop does not take the request, and with its code. -/
  fails : (endCall env s).1 ≠ .success → ∃ log, env.post log = (endCall env s).1

theorem hasCellularCallExist_iff (h : ServiceInv s) :
    hasCellularCallExist s = true ↔ ¬s.table.AllEnding := by
  rw [hasCellularCallExist_eq, List.any_eq_true]
  unfold CallTable.AllEnding
  push Not
  refine exists_congr fun r => and_congr_right fun hr => ?_
  have hok := h.table.ok r hr
  have hcarrier : r.callType.isCarrierListed = true := by
    rcases hok.carrier with ht | ht <;> rw [ht] <;> rfl
  have hlive : r.callState ≠ .disconnected := by
    rcases hok.live with hst | hst | hst | hst | hst | hst | hst <;> simp [hst]
  simp [hcarrier, hlive]

theorem hasRingingCall_iff (h : ServiceInv s) :
    hasRingingCall s = true ↔ ∃ r ∈ s.table.rows, Rings r.callState := by
  unfold hasRingingCall CallManager.anyCall
  rw [List.any_eq_true]
  constructor
  · rintro ⟨p, hp, hrings⟩
    have hmem := s.row_mem_table hp
    exact ⟨s.row p, hmem, (h.table.ok _ hmem).running_ringing.mp (of_decide_eq_true hrings)⟩
  · rintro ⟨r, hr, hrings⟩
    obtain ⟨p, hp, rfl⟩ := CallManager.mem_table_rows.mp hr
    exact ⟨p, hp, decide_eq_true ((h.table.ok _ hr).running_ringing.mpr hrings)⟩

open CallControlManager in
/-- **`EndCall` ends one call, and the right one.** -/
theorem endCall_ends {x : Service} (hx : x.Reachable) (env : Env) : EndsOneCall env x.manager := by
  have h := (Service.reachable_inv hx).manager
  have hexist := hasCellularCallExist_iff h
  have hring := hasRingingCall_iff h
  have hfirst := firstIn_endOrder h
  have heq := endFirstCall_eq h env endOrder
  have hone : ¬x.manager.table.AllEnding → ∃ r, x.manager.table.firstIn endOrder = some r ∧
      (endOperation r).For x.manager.table r ∧
        endCall env x.manager = (endOperation r).perform env x.manager := by
    intro hleft
    obtain ⟨r, hr⟩ := Option.ne_none_iff_exists'.mp (mt hfirst.mp hleft)
    rw [hr] at heq
    exact ⟨r, hr, endOperation_for h hr, heq⟩
  -- a call that rings is not on its way out
  have hrings_left : (∃ r ∈ x.manager.table.rows, Rings r.callState) →
    ¬x.manager.table.AllEnding := by
    rintro ⟨r, hr, hrings⟩ hall
    rw [hall r hr] at hrings
    rcases hrings with hst | hst <;> cases hst
  refine ⟨?_, hexist, ?_, fun hall => ?_, hone, fun hfail => ?_⟩
  · unfold CallControlManager.getCallState
    by_cases hleft : hasCellularCallExist x.manager = true
    · simp only [hleft, Bool.not_true, Bool.false_eq_true, if_false]
      refine iff_of_false ?_ (hexist.mp hleft)
      split <;> exact fun h => by cases h
    · simp only [hleft, Bool.not_false, if_true, true_iff]
      exact not_not.mp (mt hexist.mpr hleft)
  · unfold CallControlManager.getCallState
    rw [← hring]
    by_cases hleft : hasCellularCallExist x.manager = true
    · cases hr : hasRingingCall x.manager <;> simp [hleft]
    · have hsilent : ¬hasRingingCall x.manager = true := fun hr =>
        hleft (hexist.mpr (hrings_left (hring.mp hr)))
      simp [hleft, hsilent]
  · rw [hfirst.mpr hall] at heq
    exact heq
  · by_cases hall : x.manager.table.AllEnding
    · rw [hfirst.mpr hall] at heq
      exact absurd (congrArg (fun a => a.1) heq) hfail
    · obtain ⟨r, -, hfor, hdo⟩ := hone hall
      rw [hdo] at hfail ⊢
      exact ((endOperation r).comes h env).of_fails hfor hfail

/-- Call 1 is active, and call 2 rings. -/
def talksAndRings : List (Env × ServiceInput) :=
  [(.obliging, .init none), (.obliging, .report (.callReport (ringingReport 1))),
    (.obliging, .report (.callReport activeReport)),
    (.obliging, .report (.callReport (ringingReport 2)))]

theorem operation_comes_noId :
    let s := (Service.run talksAndRings {}).2.manager
    let op := ControlOperation.hangUpCall invalidCallId
    (op.meant s.table).map Row.callId = some 1 ∧
      op.Comes .obliging s (op.perform .obliging s).2 (op.perform .obliging s).1 ∧
        (op.perform .obliging s).2.table = s.table :=
  ⟨by decide +kernel, operation_comes (Service.reachable_run _) _ _⟩

theorem endCall_ends_active :
    let s := (Service.run talksAndRings {}).2.manager
    (s.table.firstIn CallControlManager.endOrder).map Row.callId = some 1 ∧
      CallControlManager.getCallState s = .ringing ∧ EndsOneCall .obliging s :=
  ⟨by decide +kernel, by decide +kernel, endCall_ends (Service.reachable_run _) _⟩

end CallManagerMini
