import CallManagerMini.CallTable

/-! # The invariant of the call table

`CallTable.Inv` is what every report and every dial keeps: ids are distinct, no
two calls share a numbered place, the table is never overfull, and every call is
in a state that goes with its running state.

The refresh is the one operation whose outcome is not read off its definition.
Under the invariant it has three outcomes: the call is only updated
(`refresh_same`), it is replaced (`refresh_replaced`), or it is lost
(`refresh_lost`), and `Room` tells the last two apart.
-/

namespace CallManagerMini

/-- What a report carries once the guard let it through: a CS or IMS call and a
number within the limit. -/
structure CallDetailInfo.IsCarried (info : CallDetailInfo) : Prop where
  carrier : info.callType = .cs ∨ info.callType = .ims
  number : info.phoneNum.length ≤ kMaxNumberLen

theorem CallDetailInfo.IsCarried.withState {info : CallDetailInfo} (h : info.IsCarried)
    (st : TelCallState) : ({ info with state := st } : CallDetailInfo).IsCarried :=
  ⟨h.carrier, h.number⟩

namespace Row

/-- What holds of each call of a table that has handed out the objects below
`nextObj` and the ids up to `lastCallId`. -/
structure Ok (nextObj : Ref) (lastCallId : Int) (dialEcc : Bool) (r : Row) : Prop where
  obj_lt : r.obj < nextObj
  id_pos : 0 < r.callId
  id_le : r.callId ≤ lastCallId
  carrier : r.callType = .cs ∨ r.callType = .ims
  live : r.callState.IsLive
  running : r.callRunningState = runningOf r.callState
  number : r.accountNumber.length ≤ kMaxNumberLen
  ecc : r.isEcc = true → dialEcc = true ∧ r.direction = .outgoing

@[simp] theorem restyle_callId (info : CallDetailInfo) (r : Row) :
    (r.restyle info).callId = r.callId := by unfold restyle; split <;> rfl

@[simp] theorem restyle_obj (info : CallDetailInfo) (r : Row) :
    (r.restyle info).obj = r.obj := by unfold restyle; split <;> rfl

@[simp] theorem restyle_callType (info : CallDetailInfo) (r : Row) :
    (r.restyle info).callType = r.callType := by unfold restyle; split <;> rfl

@[simp] theorem restyle_callState (info : CallDetailInfo) (r : Row) :
    (r.restyle info).callState = r.callState := by unfold restyle; split <;> rfl

@[simp] theorem restyle_callRunningState (info : CallDetailInfo) (r : Row) :
    (r.restyle info).callRunningState = r.callRunningState := by unfold restyle; split <;> rfl

@[simp] theorem restyle_direction (info : CallDetailInfo) (r : Row) :
    (r.restyle info).direction = r.direction := by unfold restyle; split <;> rfl

@[simp] theorem restyle_isEcc (info : CallDetailInfo) (r : Row) :
    (r.restyle info).isEcc = r.isEcc := by unfold restyle; split <;> rfl

@[simp] theorem restyle_slotId (info : CallDetailInfo) (r : Row) :
    (r.restyle info).slotId = r.slotId := by unfold restyle; split <;> rfl

@[simp] theorem restyle_index (info : CallDetailInfo) (r : Row) :
    (r.restyle info).index = r.index := by unfold restyle; split <;> rfl

@[simp] theorem restyle_accountNumber (info : CallDetailInfo) (r : Row) :
    (r.restyle info).accountNumber = r.accountNumber := by unfold restyle; split <;> rfl

namespace Ok

variable {n : Ref} {m : Int} {b : Bool} {r : Row}

theorem restyle (h : r.Ok n m b) (info : CallDetailInfo) : (r.restyle info).Ok n m b :=
  { obj_lt := by simpa using h.obj_lt
    id_pos := by simpa using h.id_pos
    id_le := by simpa using h.id_le
    carrier := by simpa using h.carrier
    live := by simpa using h.live
    running := by simpa using h.running
    number := by simpa using h.number
    ecc := by simpa using h.ecc }

theorem setState (h : r.Ok n m b) {st : TelCallState} (hst : st.IsLive) :
    (r.setState st).Ok n m b :=
  { h with live := hst, running := rfl }

theorem created (h : r.Ok n m b) : r.Ok (n + 1) (m + 1) b :=
  { h with obj_lt := Nat.lt_succ_of_lt h.obj_lt, id_le := by have := h.id_le; omega }

/-- A state that goes with its running state is set again without effect. -/
theorem setState_self (h : r.Ok n m b) : r.setState r.callState = r := by
  cases r
  simp [Row.setState, ← h.running]

end Ok

end Row

namespace CallTable

/-- **The invariant of the call table.** -/
structure Inv (t : CallTable) : Prop where
  ids : (t.rows.map Row.callId).Nodup
  places : ∀ r ∈ t.rows, ∀ q ∈ t.rows, 0 < r.index → r.slotId = q.slotId → r.index = q.index →
    r.callId = q.callId
  length_le : t.rows.length ≤ miniMaxCallObjects
  nonEcc_le : (t.rows.countP fun r => !r.isEcc) ≤ miniMaxCallObjects - miniEccReservedCallObjects
  counter : 0 ≤ t.lastCallId
  ok : ∀ r ∈ t.rows, r.Ok t.nextObj t.lastCallId t.dialEcc

/-- A call the code holds on to: if the table has its id at all, it has this call. -/
structure Holds (t : CallTable) (r : Row) : Prop where
  ok : r.Ok t.nextObj t.lastCallId t.dialEcc
  only : ∀ q ∈ t.rows, q.callId = r.callId → q = r

/-- The place a report is about belongs to `r` or to nobody. -/
def Fits (t : CallTable) (r : Row) (info : CallDetailInfo) : Prop :=
  ∀ q ∈ t.rows, 0 < info.index → q.slotId = info.accountId → q.index = info.index →
    q.callId = r.callId

variable {t : CallTable} {r : Row} {info : CallDetailInfo}

theorem inv_empty : ({} : CallTable).Inv where
  ids := List.nodup_nil
  places := by simp
  length_le := by simp
  nonEcc_le := by simp
  counter := Int.le_refl _
  ok := by simp

/-! ## Looking up -/

theorem callAt_eq_none {index slotId : Int} (h : t.callAt index slotId = none) :
    ∀ r ∈ t.rows, ¬(r.slotId = slotId ∧ r.index = index) := by
  intro r hr hp
  have := List.find?_eq_none.mp h r hr
  simp [hp.1, hp.2] at this

theorem callAt_eq_some {index slotId : Int} (h : t.callAt index slotId = some r) :
    r ∈ t.rows ∧ r.slotId = slotId ∧ r.index = index := by
  have := List.find?_some h
  simp only [Bool.and_eq_true, decide_eq_true_eq] at this
  exact ⟨List.mem_of_find?_eq_some h, this.2, this.1⟩

theorem callAt_isSome {index slotId : Int} :
    (t.callAt index slotId).isSome ↔ ∃ r ∈ t.rows, r.slotId = slotId ∧ r.index = index := by
  simp [callAt, List.find?_isSome, and_comm]

theorem pending_eq_some (h : t.pending = some r) : r ∈ t.rows ∧ r.index = 0 :=
  ⟨List.mem_of_find?_eq_some h, by simpa using List.find?_some h⟩

/-- A place nobody has fits every call. -/
theorem fits_of_none (h : t.callAt info.index info.accountId = none) : t.Fits r info :=
  fun q hq _ hs hi => absurd ⟨hs, hi⟩ (callAt_eq_none h q hq)

namespace Inv

theorem eq_of_callId (h : t.Inv) {q : Row} (hr : r ∈ t.rows) (hq : q ∈ t.rows)
    (hid : r.callId = q.callId) : r = q :=
  List.inj_on_of_nodup_map h.ids hr hq hid

theorem holds (h : t.Inv) (hr : r ∈ t.rows) : t.Holds r :=
  ⟨h.ok r hr, fun _ hq hid => h.eq_of_callId hq hr hid⟩

theorem mem_remove (h : t.Inv) {callId : Int} :
    r ∈ (t.remove callId).rows ↔ r ∈ t.rows ∧ r.callId ≠ callId :=
  Keyed.mem_remove h.ids

/-- The call found at a place is the only one there. -/
theorem fits (h : t.Inv) (hr : t.callAt info.index info.accountId = some r) : t.Fits r info := by
  obtain ⟨hm, hs, hi⟩ := callAt_eq_some hr
  intro q hq hpos hqs hqi
  exact h.places q hq r hm (hqi ▸ hpos) (hqs.trans hs.symm) (hqi.trans hi.symm)

/-! ## The parts of a report keep the invariant -/

/-- The invariant does not look at the announcements. -/
theorem withHistory (h : t.Inv) (history : List Mark) :
    ({ t with history := history } : CallTable).Inv :=
  ⟨h.ids, h.places, h.length_le, h.nonEcc_le, h.counter, h.ok⟩

theorem created (h : t.Inv) : t.created.Inv :=
  { h with
    counter := by have := h.counter; simp only [CallTable.created]; omega
    ok := fun r hr => (h.ok r hr).created }

theorem remove (h : t.Inv) (callId : Int) : (t.remove callId).Inv where
  ids := Keyed.nodup_remove h.ids
  places r hr q hq := h.places r (h.mem_remove.mp hr).1 q (h.mem_remove.mp hq).1
  length_le := Nat.le_trans Keyed.remove_sublist.length_le h.length_le
  nonEcc_le := Nat.le_trans Keyed.remove_sublist.countP_le h.nonEcc_le
  counter := h.counter
  ok r hr := h.ok r (h.mem_remove.mp hr).1

/-- A call may be changed as long as it keeps its id and its emergency flag, and
takes no place that another call has. -/
theorem update (h : t.Inv) {callId : Int} {f : Row → Row}
    (hid : ∀ q, (f q).callId = q.callId) (hecc : ∀ q, (f q).isEcc = q.isEcc)
    (hok : ∀ q ∈ t.rows, q.callId = callId → (f q).Ok t.nextObj t.lastCallId t.dialEcc)
    (hplace : ∀ q ∈ t.rows, q.callId = callId → ∀ p ∈ t.rows, 0 < (f q).index →
      p.slotId = (f q).slotId → p.index = (f q).index → p.callId = q.callId) :
    (t.update callId f).Inv where
  ids := by
    have := h.ids
    rwa [← Keyed.map_key_update (k := callId) (f := f) fun q _ _ => hid q] at this
  places := by
    intro r hr q hq hpos hs hi
    obtain ⟨a, ha, rfl⟩ := Keyed.mem_update.mp hr
    obtain ⟨b, hb, rfl⟩ := Keyed.mem_update.mp hq
    by_cases h1 : a.callId = callId <;> by_cases h2 : b.callId = callId
    · simp only [h1, h2, if_true, hid]
    · simp only [h1, h2, if_true, if_false, hid] at hpos hs hi ⊢
      exact h1.symm.trans (hplace a ha h1 b hb hpos hs.symm hi.symm).symm
    · simp only [h1, h2, if_true, if_false, hid] at hpos hs hi ⊢
      exact h1 ((hplace b hb h2 a ha (hi ▸ hpos) hs hi).trans h2)
    · simp only [h1, h2, if_false] at hpos hs hi ⊢
      exact h.places a ha b hb hpos hs hi
  length_le := by simpa [CallTable.update] using h.length_le
  nonEcc_le := by
    refine le_of_eq_of_le ?_ h.nonEcc_le
    rw [CallTable.update, Keyed.update, List.countP_map]
    refine List.countP_congr fun q _ => ?_
    by_cases hk : q.callId = callId <;> simp [hk, hecc]
  counter := h.counter
  ok := by
    intro r hr
    obtain ⟨a, ha, rfl⟩ := Keyed.mem_update.mp hr
    split
    · next hk => exact hok a ha hk
    · exact h.ok a ha

/-- A change that leaves a call at its place. -/
theorem update_inPlace (h : t.Inv) {callId : Int} {f : Row → Row}
    (hid : ∀ q, (f q).callId = q.callId) (hecc : ∀ q, (f q).isEcc = q.isEcc)
    (hat : ∀ q, (f q).slotId = q.slotId ∧ (f q).index = q.index)
    (hok : ∀ q ∈ t.rows, q.callId = callId → (f q).Ok t.nextObj t.lastCallId t.dialEcc) :
    (t.update callId f).Inv := by
  refine h.update hid hecc hok fun q hq _ p hp hpos hs hi => ?_
  rw [(hat q).1] at hs
  rw [(hat q).2] at hpos hi
  exact h.places p hp q hq (hi ▸ hpos) hs hi

theorem restyle (h : t.Inv) (callId : Int) (info : CallDetailInfo) :
    (t.update callId (Row.restyle info)).Inv :=
  h.update_inPlace (by simp) (by simp) (by simp) fun q hq _ => (h.ok q hq).restyle info

theorem announce (h : t.Inv) (r : Row) {next : TelCallState} (hn : next.IsLive) :
    (t.announce r next).Inv :=
  (h.update_inPlace (f := Row.setState next) (fun _ => rfl) (fun _ => rfl) (fun _ => ⟨rfl, rfl⟩)
    fun q hq _ => (h.ok q hq).setState hn).withHistory _

/-- Admission makes sure that a call with a new id finds room. -/
theorem insert (h : t.Inv) (hr : r.Ok t.nextObj t.lastCallId t.dialEcc)
    (hadm : t.admission r = .success)
    (hplace : ∀ q ∈ t.rows, 0 < r.index → q.slotId = r.slotId → q.index ≠ r.index) :
    (t.insert r).Inv := by
  have hfresh : ∀ q ∈ t.rows, q.callId ≠ r.callId := by
    intro q hq hid
    have : (t.rows.any fun q => q.callId = r.callId) = true :=
      List.any_eq_true.mpr ⟨q, hq, by simpa using hid⟩
    simp [admission, this] at hadm
  have hroom : t.rows.length < limit r.isEcc := by
    unfold admission at hadm
    split at hadm
    · cases hadm
    split at hadm
    · cases hadm
    · omega
  exact {
    ids := Keyed.nodup_append_singleton h.ids hfresh
    places := by
      intro p hp q hq hpos hs hi
      rcases List.mem_append.mp hp with hp | hp <;> rcases List.mem_append.mp hq with hq | hq
      · exact h.places p hp q hq hpos hs hi
      · cases List.mem_singleton.mp hq
        exact absurd hi (hplace p hp (hi ▸ hpos) hs)
      · cases List.mem_singleton.mp hp
        exact absurd hi.symm (hplace q hq hpos hs.symm)
      · rw [List.mem_singleton.mp hp, List.mem_singleton.mp hq]
    length_le := by
      have : limit r.isEcc ≤ miniMaxCallObjects := by unfold limit; split <;> decide
      simp only [CallTable.insert, List.length_append, List.length_singleton]
      omega
    nonEcc_le := by
      have h1 := h.nonEcc_le
      have h2 : (t.rows.countP fun r => !r.isEcc) ≤ t.rows.length := List.countP_le_length
      simp only [CallTable.insert, List.countP_append, List.countP_singleton]
      cases he : r.isEcc
      · simp only [he, limit, Bool.false_eq_true, if_false] at hroom
        simp only [Bool.not_false, if_true]
        omega
      · simpa [he] using h1
    counter := h.counter
    ok := by
      intro q hq
      rcases List.mem_append.mp hq with hq | hq
      · exact h.ok q hq
      · cases List.mem_singleton.mp hq
        exact hr }

end Inv

end CallTable

end CallManagerMini
