import CallManagerMini.ServiceLives

/-! # Requests and their calls

Between the moment a control operation posts a request and the moment the request runs, the main
loop may do anything: the call may end, its place may be given to another call, and the service may
be taken down and brought up again with the calls of a new life.  Still the request acts on the very
call it was posted for, or on none (`requests_meet`): ids are handed out once over all lives, and
the request keeps the id.  Requests are served in the order of their posts, and none is lost but by
a main loop that is stopped (`queue_balance`). -/

namespace CallManagerMini

namespace Service

variable {s s' s'' : Service} {env : Env} {r : Request} {callId : Int}

/-! ## The queue over the lives -/

/-- What is in the queue was posted for calls whose ids have been handed out. -/
def Known (s : Service) : Prop :=
  ∀ r ∈ s.manager.requests, 0 < r.callId ∧ r.callId ≤ s.manager.callId

theorem handedOut_of_lists {m : CallManager} (h : m.table.Inv) (hlists : m.Lists callId) :
    0 < callId ∧ callId ≤ m.callId := by
  obtain ⟨p, hp, rfl⟩ := hlists
  have hok := h.ok _ (m.row_mem_table hp)
  exact ⟨hok.id_pos, hok.id_le⟩

theorem Move.known (h : s.Inv) (hknown : s.Known) (hm : Move s s') : s'.Known := by
  have hlast : s.manager.callId ≤ s'.manager.callId := (hm.descends h).last
  -- the requests that are still there are known, and no others come
  have hkeep : ∀ taken, s'.manager.requests = s.manager.requests.drop taken → s'.Known := by
    intro taken heq r hr
    have hold := hknown r (List.mem_of_mem_drop (heq ▸ hr))
    exact ⟨hold.1, Int.le_trans hold.2 hlast⟩
  cases hm with
  | stay heq => exact hkeep 0 (by rw [heq]; rfl)
  | run env input heq _ =>
    rcases mainLoopStep_queued env input s.manager with hsame | ⟨-, r, hposted, hlists⟩
    · exact hkeep input.takes (by rw [heq]; exact hsame)
    · have hreqs : s'.manager.requests = s.manager.requests ++ [r] := by rw [heq]; exact hposted
      intro q hq
      rcases List.mem_append.mp (hreqs ▸ hq) with hq | hq
      · exact ⟨(hknown q hq).1, Int.le_trans (hknown q hq).2 hlast⟩
      · obtain rfl := List.mem_singleton.mp hq
        have hout := handedOut_of_lists h.manager.table hlists
        exact ⟨hout.1, Int.le_trans hout.2 hlast⟩
  | up env failing hready heq =>
    exact hkeep 0 (by rw [heq, (h.idle hready).bringUp env failing]; rfl)
  | down env hready heq =>
    obtain ⟨d, es, hrelease, -⟩ := release_eq env s.manager
    exact hkeep 0 (by rw [heq, hrelease]; rfl)
  | drop heq => exact hkeep s.manager.requests.length (by rw [heq, List.drop_length])

theorem reachable_known (h : Reachable s) : s.Known := by
  refine Runs.Reachable.invariant_of (J := Inv) (fun _ => reachable_inv) (fun s hs => ?_)
    (fun s s' hinv hknown hstep => ?_) h
  · subst hs
    intro r hr
    cases hr
  · obtain ⟨a, rfl⟩ := hstep
    exact (act_move a s).known hinv hknown

/-! ## Served and posted -/

/-- The request a step serves: the oldest one. -/
def servedBy (s : Service) : ServiceInput → List Request
  | .nextRequest => s.manager.requests.take 1
  | _ => []

/-- The requests a step posts: those it leaves behind the ones that were there. -/
def postedBy (a : Env × ServiceInput) (s : Service) : List Request :=
  (s.act a).2.manager.requests.drop s.manager.requests.length

/-- The requests a run serves, one after the other. -/
def served : List (Env × ServiceInput) → Service → List Request
  | [], _ => []
  | a :: as, s => s.servedBy a.2 ++ served as (s.act a).2

/-- The requests a run posts. -/
def posted : List (Env × ServiceInput) → Service → List Request
  | [], _ => []
  | a :: as, s => postedBy a s ++ posted as (s.act a).2

/-- A step that neither serves a request nor stops the main loop leaves the queue as it is, but for
what it posts. -/
theorem act_keepsQueue (h : s.Inv) {a : Env × ServiceInput} (hnext : a.2 ≠ .nextRequest)
    (hloop : a.2 ≠ .stopLoop) : s.manager.requests <+: (s.act a).2.manager.requests := by
  have hstep (env : Env) (input : Input) (htakes : input.takes = 0) :
      s.manager.requests <+: (mainLoopStep env input s.manager).2.requests := by
    rcases mainLoopStep_queued env input s.manager with hsame | ⟨-, r, hposted, -⟩
    · rw [hsame, htakes]
      exact List.prefix_refl _
    · exact ⟨[r], hposted.symm⟩
  obtain ⟨env, input⟩ := a
  -- a step of the main loop puts at most one request at the end; `Init` and `UnInit` put none
  cases input with
  | nextRequest => exact absurd rfl hnext
  | stopLoop => exact absurd rfl hloop
  | delayedTask taskId => exact hstep env (.delayedTask taskId) rfl
  | report report =>
    unfold Service.act
    dsimp only
    split
    · exact hstep env report.input (by cases report <;> rfl)
    · exact List.prefix_refl _
  | init failing =>
    unfold Service.act Service.init
    dsimp only
    split
    · exact List.prefix_refl _
    next hready =>
      have hdown : s.ready = false := by simpa using hready
      rw [(h.idle hdown).bringUp env failing]
      cases failing <;> exact List.prefix_refl _
  | unInit =>
    unfold Service.act Service.unInit
    dsimp only
    split
    · obtain ⟨d, es, hrelease, -⟩ := release_eq env s.manager
      simp only [hrelease, List.prefix_rfl]
    · exact List.prefix_refl _
  | request trust request =>
    unfold Service.act Entry.serve
    dsimp only
    cases hdenial : (request.entry trust).denial with
    | some reply => exact List.prefix_refl _
    | none =>
      dsimp only
      split
      · rcases request.ask_cases hdenial env s.manager with hsame | ⟨input, htakes, hinput⟩
        · simp only [hsame, List.prefix_rfl]
        · rw [hinput]
          exact hstep env input htakes
      · exact List.prefix_refl _

/-- What was in the queue or comes into it is served, or is still there, in this order. -/
theorem act_balance (h : s.Inv) {a : Env × ServiceInput} (hloop : a.2 ≠ .stopLoop) :
    s.manager.requests ++ postedBy a s = s.servedBy a.2 ++ (s.act a).2.manager.requests := by
  by_cases hnext : a.2 = .nextRequest
  · obtain ⟨env, input⟩ := a
    obtain rfl : input = .nextRequest := hnext
    have htail : (s.act (env, .nextRequest)).2.manager.requests = s.manager.requests.drop 1 := by
      rcases mainLoopStep_queued env .nextRequest s.manager with hsame | ⟨htakes, -⟩
      · exact hsame
      · cases htakes
    have hnone : postedBy (env, .nextRequest) s = [] := by
      unfold postedBy
      rw [htail, List.drop_drop, List.drop_eq_nil_of_le (Nat.le_add_left ..)]
    rw [hnone, htail, List.append_nil]
    exact (List.take_append_drop 1 _).symm
  · obtain ⟨new, hnew⟩ := act_keepsQueue h hnext hloop
    have hnone : s.servedBy a.2 = [] := by
      unfold servedBy
      split
      · next heq => exact absurd heq hnext
      · rfl
    unfold postedBy
    rw [hnone, ← hnew, List.drop_left, List.nil_append]

/-- **The queue of a run**: the requests that were there or are posted are those that are served and
then those that are still there, in the same order, unless the main loop is stopped. -/
theorem queue_balance (h : Reachable s) {as : List (Env × ServiceInput)}
    (hloop : ∀ a ∈ as, a.2 ≠ .stopLoop) :
    s.manager.requests ++ posted as s = served as s ++ (run as s).2.manager.requests := by
  induction as generalizing s with
  | nil => exact List.append_nil _
  | cons a as ih =>
    have hfirst := act_balance (reachable_inv h) (hloop a List.mem_cons_self)
    have hrest := ih (h.next ⟨a, rfl⟩) fun b hb => hloop b (List.mem_cons_of_mem a hb)
    calc s.manager.requests ++ (postedBy a s ++ posted as (s.act a).2)
        = s.servedBy a.2 ++ ((s.act a).2.manager.requests ++ posted as (s.act a).2) := by
          rw [← List.append_assoc, hfirst, List.append_assoc]
      _ = s.servedBy a.2 ++ served as (s.act a).2 ++ (run as (s.act a).2).2.manager.requests := by
          rw [hrest, List.append_assoc]

/-! ## The calls of the requests -/

/-- The oldest request is taken off the queue, and runs. -/
theorem nextRequest_eq (env : Env) {m : CallManager} (hhead : m.requests.head? = some r) :
    nextRequest env m = runRequest env r { m with requests := m.requests.tail } := by
  unfold nextRequest
  rw [Prog.bind_apply, Prog.gets_apply, hhead]
  rfl

/-- **What becomes of a request** that was in the queue in the state `s`, where it is the oldest one
in the state `s'`. -/
structure Meets (env : Env) (r : Request) (s s' : Service) : Prop where
  /-- Its call had been given its id. -/
  known : 0 < r.callId ∧ r.callId ≤ s.manager.callId
  /-- The call that has the id is the one that had it. -/
  same : ∀ p' ∈ s'.manager.callObjectPtrList, (s'.manager.call p').callId = r.callId →
    ∃ p ∈ s.manager.callObjectPtrList, (s.manager.call p).callId = r.callId ∧
      (s'.manager.call p').direction = (s.manager.call p).direction
  /-- The request sends what it is to send for this call, as the call is now, if there is a
  stack. -/
  sends : ∀ p', getOneCallObject s'.manager r.callId = some p' →
    (s'.step env .nextRequest).manager.commands =
        s'.manager.commands ++ ((r.command s'.manager p').filter (env.takes s'.manager)).toList ∧
      ∀ c ∈ r.command s'.manager p', c.callInfo.callId = r.callId ∧
        c.callInfo.index = (s'.manager.call p').index ∧
        c.callInfo.slotId = (s'.manager.call p').slotId
  /-- If the call is gone, the request is gone, and nothing else. -/
  gone : ¬s'.manager.Lists r.callId → s'.step env .nextRequest =
    { s' with manager := { s'.manager with requests := s'.manager.requests.tail } }

/-- **A request acts on the call it was posted for, or on none**, over any number of lives; and
requests are served in the order of their posts, and all of them are, unless the main loop is
stopped. -/
theorem requests_meet (h : Reachable s) (hr : r ∈ s.manager.requests)
    (as : List (Env × ServiceInput)) (hhead : (run as s).2.manager.requests.head? = some r)
    (env : Env) :
    Meets env r s (run as s).2 ∧ ((∀ a ∈ as, a.2 ≠ .stopLoop) →
      s.manager.requests ++ posted as s = served as s ++ (run as s).2.manager.requests) := by
  refine ⟨?_, queue_balance h⟩
  generalize hs' : (run as s).2 = s' at hhead ⊢
  have hdesc := later_descends h (hs' ▸ later_run as s)
  have hknown := reachable_known h r hr
  have hstep : s'.step env .nextRequest = { s' with
      manager := (runRequest env r { s'.manager with requests := s'.manager.requests.tail }).2 } := by
    unfold Service.step
    exact congrArg (fun x => { s' with manager := x.2 }) (nextRequest_eq env hhead)
  refine ⟨hknown, fun p' hp' hid => ?_, fun p' hp' => ⟨?_, fun c hc => ?_⟩, fun hgone => ?_⟩
  · rcases hdesc.rows _ (s'.manager.row_mem_table hp') with ⟨q, hq, hqid, hdir⟩ | hnew
    · obtain ⟨p, hp, rfl⟩ := CallManager.mem_table_rows.mp hq
      exact ⟨p, hp, hqid.trans hid, hdir.symm⟩
    · have hlt : s.manager.callId < r.callId := hid ▸ hnew
      exact absurd (Int.lt_of_lt_of_le hlt hknown.2) (Int.lt_irrefl _)
  · rw [hstep]
    exact runRequest_sends env (s := { s'.manager with requests := s'.manager.requests.tail }) hp'
  · have hid := callId_of_getOneCallObject hp'
    cases r with
    | answer | unHold =>
      unfold Request.command at hc
      dsimp only at hc
      split at hc <;> cases hc
      exact ⟨hid, rfl, rfl⟩
    | reject | hangUp | hold | switch =>
      cases hc
      exact ⟨hid, rfl, rfl⟩
  · rw [hstep, runRequest_gone]
    refine Option.eq_none_iff_forall_ne_some.mpr fun p hp => hgone ?_
    exact lists_of_getOneCallObject (s := { s'.manager with requests := s'.manager.requests.tail }) hp

/-- A call rings, and an application hangs it up. -/
def hangsUp : List (Env × ServiceInput) :=
  [(.obliging, .init none), (.obliging, .report (.callReport (ringingReport 1))),
    (.obliging, .request trustedApp (.hangUpCall 1))]

/-- The service is restarted, another call rings at the same place, and that is hung up as well. -/
def restarts : List (Env × ServiceInput) :=
  [(.obliging, .unInit), (.obliging, .init none),
    (.obliging, .report (.callReport (ringingReport 1))),
    (.obliging, .request trustedApp (.hangUpCall 2))]

theorem requests_meet_restarted :
    let s := (run hangsUp {}).2
    let s' := (run restarts s).2
    s'.manager.requests = [.hangUp 1, .hangUp 2] ∧ posted restarts s = [.hangUp 2] ∧
      s'.manager.callObjectPtrList.map (fun p => (s'.manager.call p).callId) = [2] ∧
      Meets .obliging (.hangUp 1) s s' ∧
      s.manager.requests ++ posted restarts s = served restarts s ++ s'.manager.requests := by
  intro s s'
  have hmeets := requests_meet (s := s) (r := .hangUp 1) (reachable_run hangsUp) (by decide +kernel)
    restarts (by decide +kernel) .obliging
  refine ⟨by decide +kernel, by decide +kernel, by decide +kernel, hmeets.1, hmeets.2 ?_⟩
  simp [restarts]

end Service

end CallManagerMini
