import CallManagerMini.MainLoopRefinement

/-! # What a refresh does to the table

A call that changes between CS and IMS is taken out and entered again.  Without
room for it (`CallTable.Room`) neither the replacement nor the old object is
admitted, and the call is gone (`refreshCall_keeps_iff`).
-/

namespace CallManagerMini

open Prog (Post Moves)

variable {s : CallManager} {env : Env} {info : CallDetailInfo} {p : Ref}

/-- Between `s` and `s'` no call was lost: one object has the id of the call behind
`p`, and every other object of the table is still there, unchanged. -/
structure KeepsCalls (s s' : CallManager) (p : Ref) : Prop where
  one : (s'.callObjectPtrList.countP fun q => (s'.call q).callId = (s.call p).callId) = 1
  others : ∀ q ∈ s.callObjectPtrList, q ≠ p → q ∈ s'.callObjectPtrList ∧ s'.row q = s.row q

instance (s s' : CallManager) (p : Ref) : Decidable (KeepsCalls s s' p) :=
  decidable_of_iff (_ ∧ _) ⟨fun h => KeepsCalls.mk h.1 h.2, fun h => ⟨h.one, h.others⟩⟩

/-- The objects of a table with some id, counted by their rows. -/
theorem countP_callId (s : CallManager) (callId : Int) :
    (s.callObjectPtrList.countP fun q => (s.call q).callId = callId) =
      s.table.rows.countP fun r => r.callId = callId := by
  rw [CallManager.table, List.countP_map]
  rfl

/-- A row that stays is an object that stays. -/
theorem mem_of_row_mem {s s' : CallManager} {q : Ref} (h : s.row q ∈ s'.table.rows) :
    q ∈ s'.callObjectPtrList ∧ s'.row q = s.row q := CallManager.row_of_mem h

namespace CallTable

variable {t : CallTable} {r q : Row}

/-- The other calls outlive the refresh. -/
theorem replaceCall_others (h : t.Inv) (hr : r ∈ t.rows) (hq : q ∈ t.rows) (hne : q ≠ r) :
    q ∈ (t.replaceCall r info).2.rows := by
  have hmem : q ∈ (t.created.remove r.callId).rows :=
    h.created.mem_remove.mpr ⟨hq, fun hid => hne (h.eq_of_callId hq hr hid)⟩
  by_cases hroom : t.Room r
  · rw [replaceCall_replaced h hr hroom]
    exact List.mem_append_left _ hmem
  · rw [replaceCall_lost h hr hroom]
    exact hmem

/-- The refreshed call is in the table once if there is room, and gone otherwise. -/
theorem countP_replaceCall (h : t.Inv) (hr : r ∈ t.rows) :
    ((t.replaceCall r info).2.rows.countP fun q => q.callId = r.callId) =
      if t.Room r then 1 else 0 := by
  have hgone : ((t.created.remove r.callId).rows.countP fun q => q.callId = r.callId) = 0 :=
    List.countP_eq_zero.mpr fun q hq => by simpa using (h.created.mem_remove.mp hq).2
  split
  · next hroom =>
    rw [replaceCall_replaced h hr hroom]
    simp only [insert, List.countP_append, hgone, List.countP_singleton, refreshed_callId,
      decide_true, if_true]
  · next hroom => rw [replaceCall_lost h hr hroom, hgone]

end CallTable

/-- **A refresh loses no call exactly if there is room.**  The table is not full, or
the call is an outgoing one and may take the place kept for emergency calls.
`RefreshCall` itself does not ask whether the types differ. -/
theorem refreshCall_keeps_iff (env : Env) (hs : Reachable s) (hinfo : info.IsAccepted)
    (hp : getOneCallObjectByIndexSlotIdAndCallType s info.index info.accountId = some p) :
    KeepsCalls s (refreshCall env p info s).2 p ↔
      s.callObjectPtrList.length < miniMaxCallObjects ∨ (s.call p).direction = .outgoing := by
  have h := (reachable_inv hs).table
  have hmem := mem_of_callAt hp
  have hr := s.row_mem_table hmem
  have htab : (refreshCall env p info s).2.table = (s.table.replaceCall (s.row p) info).2 :=
    congrArg Prod.snd (refreshCall_post env h hmem hinfo.isCarried).1
  have hroom : s.table.Room (s.row p) ↔
      s.callObjectPtrList.length < miniMaxCallObjects ∨ (s.call p).direction = .outgoing := by
    simp [CallTable.Room, CallManager.table, CallManager.row, CallBase.row]
  have hcount := @CallTable.countP_replaceCall info s.table _ h hr
  rw [← htab, CallManager.row_callId, ← countP_callId] at hcount
  rw [← hroom]
  constructor
  · intro hk
    by_contra hno
    rw [hk.one, if_neg hno] at hcount
    cases hcount
  · refine fun hyes => ⟨by rw [hcount, if_pos hyes], fun q hq hne => mem_of_row_mem ?_⟩
    rw [htab]
    exact CallTable.replaceCall_others h hr (s.row_mem_table hq) fun heq =>
      hne (s.row_injective heq)

/-- Four incoming calls, and an emergency call dialed next to them. -/
def fullTable : CallManager :=
  .run <| ([1, 2, 3, 4].map fun index => (Env.obliging, .callReport (ringingReport index))) ++
    [(.obliging, .dialCall ⟨true, true⟩ [49, 49, 50] fun _ => none)]

/-- A full table loses an incoming call that becomes an IMS call. -/
theorem refreshCall_loses :
    ∃ s info p, Reachable s ∧ info.IsAccepted ∧
      getOneCallObjectByIndexSlotIdAndCallType s info.index info.accountId = some p ∧
      info.callType ≠ (s.call p).callType ∧
      ¬KeepsCalls s (refreshCall .obliging p info s).2 p :=
  ⟨fullTable, CallReportInfo.toDetail { ringingReport 1 with callType := 1, state := 0 }, 0,
    reachable_run _, .single (by decide), by decide +kernel, by decide +kernel, by decide +kernel⟩

/-- Three incoming calls. -/
def threeCalls : CallManager :=
  .run <| [1, 2, 3].map fun index => (Env.obliging, .callReport (ringingReport index))

/-- Next to two other calls there is room, and both stay. -/
theorem refreshCall_keeps_second :
    KeepsCalls threeCalls
      (refreshCall .obliging 1
        (CallReportInfo.toDetail { ringingReport 2 with callType := 1, state := 0 })
          threeCalls).2 1 :=
  (refreshCall_keeps_iff .obliging (reachable_run _) (.single (by decide))
    (by decide +kernel)).mpr (.inl (by decide +kernel))

end CallManagerMini
