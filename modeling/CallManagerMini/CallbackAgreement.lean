import CallManagerMini.CallbackProtocol

/-! # Client and service agree about the callback

The proxy and the report proxy hold the same callback until the service is stopped: that
takes it from the report proxy alone, and the proxy goes on thinking that it is registered.
They agree again only if the client had given its callback up before the service starts
(`cleanReachable_agrees`, `started_agrees_iff`).
-/

namespace CallManagerMini

open Prog (Moves Post)

namespace Registration

variable {trust : TrustModel} {s s' : Registration}

/-- The client is registered exactly if the report proxy holds the callback the proxy holds. -/
def Agrees (s : Registration) : Prop :=
  s.registerStatus = true ↔ ∃ p, s.callAbilityCallbackPtr = some p ∧ s.callbackPtr = some p

/-- No client call is queued or in progress. -/
def Quiescent (s : Registration) : Prop := s.calling = [] ∧ ∀ t ∈ s.queue, ¬t.IsClient

instance (s : Registration) : Decidable s.Quiescent :=
  inferInstanceAs (Decidable (s.calling = [] ∧ ∀ t ∈ s.queue, ¬t.IsClient))

/-- The service is started only when the client holds no registration. -/
def StartsClean (a : Action) (s : Registration) : Prop := Starts a s → s.registerStatus = false

instance (a : Action) (s : Registration) : Decidable (StartsClean a s) :=
  inferInstanceAs (Decidable (Starts a s → s.registerStatus = false))

/-- The states of the runs all of whose starts are clean. -/
def CleanReachable (trust : TrustModel) : Registration → Prop :=
  Runs.Reachable (· = {}) (Runs.Step (step trust) StartsClean)

theorem CleanReachable.reachable (hs : CleanReachable trust s) : Reachable trust s := by
  refine hs.mono ?_
  rintro s s' ⟨a, -, rfl⟩
  exact ⟨a, trivial, rfl⟩

/-- The two sides hold the same callback, or none, while the service is ready. -/
def Paired (s : Registration) : Prop := s.ready = true → s.callbackPtr = s.callAbilityCallbackPtr

theorem Paired.agrees (h : s.Paired) (hinv : Inv trust s) (hready : s.ready = true) : s.Agrees := by
  unfold Agrees
  rw [hinv.status, h hready]
  simp [Option.isSome_iff_exists]

theorem Paired.move (hmove : Move trust s s') (hinv : Inv trust s) (h : s.Paired) : s'.Paired := by
  cases hmove with
  | register => exact fun _ => rfl
  | unRegister =>
    rw [hinv.keptFor]
    exact fun _ => (s.giveUp_fields).1.symm
  | unInit =>
    rw [hinv.dropped]
    exact fun _ => (s.giveUp_fields).1.symm
  | serviceUnInit => exact nofun
  | post accepted r =>
    simp only [CallAbilityReportProxy.post, Prog.modify_apply]
    split
    · exact h
    · split <;> exact h
  | _ => exact h

theorem Paired.moveTo (hmoves : MoveTo trust s s') (hinv : Inv trust s) (h : s.Paired) :
    s'.Paired := by
  induction hmoves with
  | refl => exact h
  | tail hmoves hmove ih => exact ih.move hmove (hinv.moveTo hmoves)

/-- The start of the service makes the two sides disagree exactly if the client still thinks
it is registered: a stopped service has let go of every callback. -/
theorem started_agrees_iff (hs : Reachable trust s) {a : Action} (ha : Starts a s) :
    (step trust a s).Agrees ↔ s.registerStatus = false := by
  have hinv := hs.inv
  cases a with
  | dispatch nested =>
    obtain ⟨hrunning, hhead, hready⟩ := ha
    obtain ⟨rest, hqueue⟩ := List.head?_eq_some_iff.mp hhead
    have hstart : step trust (.dispatch nested) s = s.started := by
      simp [step, act, Prog.when_apply, hrunning, hqueue, dispatch, CallManagerProxy.runTask,
        CallManagerService.init, hready, started]
    rw [hstart]
    simp [Agrees, started, hinv.ready hready]
  | _ => cases ha

/-- **Client and service agree** about the registered callback in every state with a ready
service, if no start of the service finds a client that thinks it is registered. -/
theorem cleanReachable_agrees (hs : CleanReachable trust s) (hready : s.ready = true) :
    s.Agrees := by
  have hpaired : s.Paired := by
    refine Runs.Reachable.invariant_of (fun _ h => (CleanReachable.reachable h).inv) ?_ ?_ hs
    · rintro s rfl
      exact nofun
    · rintro s s' hinv h ⟨a, ha, rfl⟩
      rcases step_moves trust hinv.calling a with ⟨hstarts, hstart⟩ | hmoves
      · have hnone : s.callAbilityCallbackPtr = none := by
          simpa [ha hstarts] using hinv.status
        have hready : s.ready = false := by
          cases a with
          | dispatch => exact hstarts.2.2
          | _ => cases hstarts
        rw [hstart]
        exact fun _ => (hinv.ready hready).trans hnone.symm
      · exact h.moveTo hmoves hinv
  exact hpaired.agrees hs.reachable.inv hready

theorem cleanReachable_agrees_registered :
    (run trustedApp registersCallBack).registerStatus = true ∧
      (run trustedApp registersCallBack).Agrees :=
  ⟨by decide +kernel,
    @cleanReachable_agrees trustedApp _ (.run (.start rfl) (by decide +kernel)) (by decide +kernel)⟩

/-- The service is stopped and started again under a registered callback: the client still
thinks it is registered, and the report proxy holds nothing. -/
theorem restart_disagrees :
    ∃ s, Reachable trustedApp s ∧ s.initStatus = true ∧ s.ready = true ∧ s.Quiescent ∧
      ¬s.Agrees := by
  refine ⟨run trustedApp (registersCallBack ++ [.stop true, .dispatch [], .start true true,
    .dispatch []]), .run (.start rfl) (by decide +kernel), by decide +kernel, by decide +kernel,
    by decide +kernel, ?_⟩
  have hstatus : (run trustedApp (registersCallBack ++ [.stop true, .dispatch [], .start true true,
      .dispatch []])).registerStatus = true := by decide +kernel
  have hheld : (run trustedApp (registersCallBack ++ [.stop true, .dispatch [], .start true true,
      .dispatch []])).callbackPtr = none := by decide +kernel
  simp [Agrees, hstatus, hheld]

end Registration

end CallManagerMini
