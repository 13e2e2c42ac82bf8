import CallManagerMini.DelayedSingleton

/-! # A delayed singleton is constructed once

The state is `BUSY` as long as one task owns it, which constructs or destroys; the others are then
neither at work on the instance nor about to return it (`SingletonSystem.Inv`).  So the log of the
instances is orderly, and what holds of orderly logs holds of every run
(`SingletonSystem.constructed_once`).
-/

namespace CallManagerMini

open OnceCell (Event Phase phase)

namespace DelayedSingleton

/-- There is no instance. -/
def Absent (s : DelayedSingleton) : Prop := phase s.log = some .absent ∧ s.inst = none

/-- There is an instance, and callers may return it. -/
def Published (s : DelayedSingleton) : Prop :=
  ∃ created, phase s.log = some (.published created) ∧ s.inst = some created

variable {s s' : DelayedSingleton}

theorem Absent.congr (h : s.Absent) (hinst : s'.inst = s.inst)
    (hphase : phase s'.log = phase s.log) : s'.Absent :=
  ⟨hphase.trans h.1, hinst.trans h.2⟩

theorem Published.congr (h : s.Published) (hinst : s'.inst = s.inst)
    (hphase : phase s'.log = phase s.log) : s'.Published :=
  h.imp fun _ h => ⟨hphase.trans h.1, hinst.trans h.2⟩

/-- How many tasks own the state. -/
def owners (s : DelayedSingleton) : Nat := if s.state = .busy then 1 else 0

end DelayedSingleton

namespace SingletonPc

/-- The task has turned the state to `BUSY`, and has still to turn it to something else. -/
def owns : SingletonPc → Bool
  | .construct | .rollback | .setInstance _ | .storeReady _ | .reset | .storeEmpty => true
  | _ => false

/-- The next step reads or writes `instance_`. -/
def usesInstance : SingletonPc → Bool
  | .setInstance _ | .getInstance | .reset => true
  | _ => false

/-- What a task may rely on. -/
def Holds (s : DelayedSingleton) : SingletonPc → Prop
  | .construct | .rollback | .storeEmpty => s.Absent
  | .setInstance created => phase s.log = some (.made created) ∧ s.inst = none
  | .storeReady created => phase s.log = some (.made created) ∧ s.inst = some created
  | .getInstance => s.state = .ready
  | .reset => s.Published
  | .idle | .load | .exchange | .yield | .destroy => True

variable {pc pc' : SingletonPc} {s s' : DelayedSingleton} {granted : Bool}

/-- What a task relies on is a matter of the state, the instance, and the phase of the log. -/
theorem Holds.congr (h : pc.Holds s) (hstate : s'.state = s.state) (hinst : s'.inst = s.inst)
    (hphase : phase s'.log = phase s.log) : pc.Holds s' := by
  unfold Holds DelayedSingleton.Absent DelayedSingleton.Published at *
  rw [hstate, hinst, hphase]
  exact h

/-- A task that neither owns the state nor returns the instance relies on nothing. -/
theorem holds_of_aside (howns : pc.owns = false) (hget : pc ≠ .getInstance) : pc.Holds s := by
  cases pc with
  | getInstance => exact absurd rfl hget
  | construct | rollback | setInstance _ | storeReady _ | reset | storeEmpty => cases howns
  | idle | load | exchange | yield | destroy => trivial

theorem not_destroying_of_calling (pc : SingletonPc) (h : pc.calling) : pc.destroying = false := by
  cases pc with
  | destroy | reset | storeEmpty => cases h
  | idle | load | exchange | yield | construct | rollback | setInstance _ | storeReady _
  | getInstance => rfl

theorem owns_of_constructing (h : pc.constructing) : pc.owns := by
  cases pc with
  | construct | rollback | setInstance _ | storeReady _ => rfl
  | idle | load | exchange | yield | getInstance | destroy | reset | storeEmpty => cases h

/-- A step stays in the function. -/
theorem step_within (h : pc.step granted s = some (pc', s')) :
    (pc'.calling → pc.calling) ∧ (pc'.destroying → pc.destroying) := by
  cases pc with
  | idle => cases h
  | exchange | construct | destroy =>
    obtain h := Option.some.inj h
    split at h <;> cases h <;> simp [calling, destroying]
  | load =>
    cases h
    cases s.state <;> simp [calling, destroying]
  | yield | rollback | setInstance _ | storeReady _ | getInstance | reset | storeEmpty =>
    cases h
    simp [calling, destroying]

/-- The kinds of steps: one that leaves the singleton as it is, and those by which a task comes to
own the state, does its work, and gives the state up. -/
inductive Move (pc pc' : SingletonPc) (s s' : DelayedSingleton) : Prop where
  | quiet (howns : pc'.owns = pc.owns) (hstate : s'.state = s.state) (hinst : s'.inst = s.inst)
      (hphase : phase s'.log = phase s.log)
  | take (howns : pc.owns = false) (howns' : pc'.owns) (hbusy : s'.state = .busy)
      (hfree : s.state = .empty ∨ s.state = .ready ∧ pc.destroying)
  | work (howns : pc.owns) (howns' : pc'.owns) (hstate : s'.state = s.state)
  | release (howns : pc.owns) (howns' : pc'.owns = false) (hbusy : s'.state ≠ .busy)
      (hempty : s'.state = .empty → s'.Absent) (hready : s'.state = .ready → s'.Published)

/-- **What a step can do.** -/
theorem step_move (hpc : pc.Holds s) (hempty : s.state = .empty → s.Absent)
    (hready : s.state = .ready → s.Published) (h : pc.step granted s = some (pc', s')) :
    Move pc pc' s s' ∧ pc'.Holds s' := by
  cases pc with
  | idle => cases h
  | load =>
    cases h
    cases hs : s.state with
    | empty => exact ⟨.quiet rfl rfl rfl rfl, trivial⟩
    | busy => exact ⟨.quiet rfl rfl rfl rfl, trivial⟩
    | ready => exact ⟨.quiet rfl rfl rfl rfl, hs⟩
  -- whoever finds the word empty owns the construction
  | exchange =>
    obtain h := Option.some.inj h
    split at h
    · next hs =>
      cases h
      exact ⟨.take rfl rfl rfl (.inl hs), hempty hs⟩
    · cases h
      exact ⟨.quiet rfl rfl rfl rfl, trivial⟩
  | yield =>
    cases h
    exact ⟨.quiet rfl rfl rfl rfl, trivial⟩
  | construct =>
    obtain h := Option.some.inj h
    split at h
    · cases h
      refine ⟨.work rfl rfl rfl, ?_, hpc.2⟩
      rw [OnceCell.phase_append_event, hpc.1]
      rfl
    · cases h
      exact ⟨.work rfl rfl rfl, hpc⟩
  | rollback =>
    cases h
    refine ⟨.release rfl rfl (fun h => by cases h) (fun _ => ⟨?_, hpc.2⟩) (fun h => by cases h),
      trivial⟩
    rw [OnceCell.phase_append_event, hpc.1]
    rfl
  | setInstance created =>
    cases h
    exact ⟨.work rfl rfl rfl, hpc.1, rfl⟩
  | storeReady created =>
    cases h
    refine ⟨.release rfl rfl (fun h => by cases h) (fun h => by cases h)
      fun _ => ⟨created, ?_, hpc.2⟩, rfl⟩
    rw [OnceCell.phase_append_event, hpc.1]
    exact if_pos rfl
  -- the word was seen ready, and stays so: nobody destroys meanwhile
  | getInstance =>
    cases h
    obtain ⟨created, hphase, hinst⟩ := hready hpc
    refine ⟨.quiet rfl rfl rfl ?_, trivial⟩
    rw [OnceCell.phase_append_event, hphase, hinst]
    exact if_pos rfl
  | destroy =>
    obtain h := Option.some.inj h
    split at h
    · next hs =>
      cases h
      exact ⟨.take rfl rfl rfl (.inr ⟨hs, rfl⟩), hready hs⟩
    · cases h
      exact ⟨.quiet rfl rfl rfl rfl, trivial⟩
  | reset =>
    cases h
    obtain ⟨created, hphase, hinst⟩ := hpc
    refine ⟨.work rfl rfl rfl, ?_, rfl⟩
    rw [hinst]
    refine (OnceCell.phase_append_event ..).trans ?_
    rw [hphase]
    exact if_pos rfl
  | storeEmpty =>
    cases h
    exact ⟨.release rfl rfl (fun h => by cases h) (fun _ => hpc) (fun h => by cases h), trivial⟩

end SingletonPc

namespace SingletonSystem

/-- The state is owned by one task while it is `BUSY`, every task has what it relies on, and callers
and destroyers are not there together. -/
structure Inv (s : SingletonSystem) : Prop where
  owners : s.pcs.countP SingletonPc.owns = s.singleton.owners
  holds : ∀ (i : Nat) (pc : SingletonPc), s.pcs[i]? = some pc → pc.Holds s.singleton
  empty : s.singleton.state = .empty → s.singleton.Absent
  ready : s.singleton.state = .ready → s.singleton.Published
  apart : (∀ pc ∈ s.pcs, pc.calling = false) ∨ ∀ pc ∈ s.pcs, pc.destroying = false

variable {s s' : SingletonSystem} {i j : Nat} {pc pc' q : SingletonPc} {granted : Bool}
  {a : SingletonAct}

theorem Inv.owners_le (h : s.Inv) : s.pcs.countP SingletonPc.owns ≤ 1 := by
  rw [h.owners, DelayedSingleton.owners]
  split <;> simp

/-- A task that returns the instance does so while the state is `READY`. -/
theorem Inv.ne_getInstance (h : s.Inv) (hstate : s.singleton.state ≠ .ready)
    (hj : s.pcs[j]? = some q) : q ≠ .getInstance := by
  rintro rfl
  exact hstate (h.holds j _ hj)

theorem Inv.busy_of_owns (h : s.Inv) (hi : s.pcs[i]? = some pc) (howns : pc.owns) :
    s.singleton.state = .busy := by
  by_contra hstate
  have hcount := h.owners
  rw [DelayedSingleton.owners, if_neg hstate] at hcount
  exact List.countP_eq_zero.mp hcount pc (List.mem_of_getElem? hi) howns

theorem Inv.not_owns (h : s.Inv) (hstate : s.singleton.state ≠ .busy) (hj : s.pcs[j]? = some q) :
    q.owns = false :=
  Bool.eq_false_iff.mpr fun howns => hstate (h.busy_of_owns hj howns)

/-- Before a step by which a task comes to own the state, or of a task that owns it, the others
neither own it nor return the instance. -/
theorem Inv.others_aside (h : s.Inv) (hi : s.pcs[i]? = some pc)
    (hpc : pc.owns ∨ s.singleton.state = .empty ∨ s.singleton.state = .ready ∧ pc.destroying)
    (hj : s.pcs[j]? = some q) (hji : j ≠ i) : q.owns = false ∧ q ≠ .getInstance := by
  obtain howns | hempty | ⟨hready, hdestroying⟩ := hpc
  · have hbusy := h.busy_of_owns hi howns
    exact ⟨Agents.not_of_countP_le_one h.owners_le hi howns hj hji,
      h.ne_getInstance (by rw [hbusy]; simp) hj⟩
  · exact ⟨h.not_owns (by rw [hempty]; simp) hj, h.ne_getInstance (by rw [hempty]; simp) hj⟩
  · refine ⟨h.not_owns (by rw [hready]; simp) hj, ?_⟩
    rintro rfl
    obtain hcalling | hdest := h.apart
    · cases hcalling _ (List.mem_of_getElem? hj)
    · rw [hdest pc (List.mem_of_getElem? hi)] at hdestroying
      cases hdestroying

/-- Callers and destroyers stay apart. -/
theorem Inv.apart_set (h : s.Inv) (hi : s.pcs[i]? = some pc)
    (hcalling : pc'.calling → pc.calling ∨ ∀ q ∈ s.pcs, q.destroying = false)
    (hdestroying : pc'.destroying → pc.destroying ∨ ∀ q ∈ s.pcs, q.calling = false) :
    (∀ q ∈ s.pcs.set i pc', q.calling = false) ∨ ∀ q ∈ s.pcs.set i pc', q.destroying = false := by
  have hmem := List.mem_of_getElem? hi
  have hone : ∀ p : SingletonPc → Bool, p pc' = false → (∀ q ∈ s.pcs, p q = false) →
      ∀ q ∈ s.pcs.set i pc', p q = false := by
    intro p hpc' hall q hq
    obtain hq | rfl := List.mem_or_eq_of_mem_set hq
    · exact hall q hq
    · exact hpc'
  have hnot := pc'.not_destroying_of_calling
  by_cases hcall : pc'.calling = true
  · have hdest : ∀ q ∈ s.pcs, q.destroying = false := by
      obtain hpc | hdest := hcalling hcall
      · refine h.apart.resolve_left fun hall => ?_
        rw [hall pc hmem] at hpc
        cases hpc
      · exact hdest
    exact .inr (hone _ (hnot hcall) hdest)
  by_cases hdest : pc'.destroying = true
  · have hcalls : ∀ q ∈ s.pcs, q.calling = false := by
      obtain hpc | hcalls := hdestroying hdest
      · refine h.apart.resolve_right fun hall => ?_
        rw [hall pc hmem] at hpc
        cases hpc
      · exact hcalls
    exact .inl (hone _ (Bool.eq_false_iff.mpr hcall) hcalls)
  · exact h.apart.imp (hone _ (Bool.eq_false_iff.mpr hcall))
      (hone _ (Bool.eq_false_iff.mpr hdest))

/-- The tasks after one of them has moved. -/
theorem Inv.set (h : s.Inv) (hi : s.pcs[i]? = some pc) {singleton : DelayedSingleton}
    (hmove : pc.Move pc' s.singleton singleton) (hpc' : pc'.Holds singleton)
    (hcalling : pc'.calling → pc.calling ∨ ∀ q ∈ s.pcs, q.destroying = false)
    (hdestroying : pc'.destroying → pc.destroying ∨ ∀ q ∈ s.pcs, q.calling = false) :
    Inv { singleton, pcs := s.pcs.set i pc' } := by
  have hcount := Agents.countP_set_add SingletonPc.owns pc' hi
  have howners := h.owners
  have hholds : (∀ j q, s.pcs[j]? = some q → j ≠ i → q.Holds singleton) →
      ∀ (j : Nat) (q : SingletonPc), (s.pcs.set i pc')[j]? = some q → q.Holds singleton := by
    intro hothers j q hj
    obtain ⟨-, rfl⟩ | ⟨hji, hj⟩ := Agents.of_getElem?_set hj
    · exact hpc'
    · exact hothers j q hj hji
  -- while one task owns the word, all others stand aside and keep what they know
  have haside : pc.owns ∨ s.singleton.state = .empty ∨
      s.singleton.state = .ready ∧ pc.destroying →
        ∀ (j : Nat) (q : SingletonPc), (s.pcs.set i pc')[j]? = some q → q.Holds singleton := by
    intro hpc
    refine hholds fun j q hj hji => ?_
    obtain ⟨hq, hget⟩ := h.others_aside hi hpc hj hji
    exact SingletonPc.holds_of_aside hq hget
  have hapart := h.apart_set hi hcalling hdestroying
  -- the owner is counted: taking the word adds one, letting it go takes one away
  cases hmove with
  | quiet howns hstate hinst hphase =>
    refine ⟨?_, hholds fun j q hj _ => (h.holds j q hj).congr hstate hinst hphase, ?_, ?_, hapart⟩
    · rw [howns] at hcount
      change (s.pcs.set i pc').countP _ = singleton.owners
      rw [DelayedSingleton.owners, hstate, ← DelayedSingleton.owners]
      omega
    · exact fun hempty => (h.empty (hstate ▸ hempty)).congr hinst hphase
    · exact fun hready => (h.ready (hstate ▸ hready)).congr hinst hphase
  | take howns howns' hbusy hfree =>
    refine ⟨?_, haside (.inr hfree), ?_, ?_, hapart⟩
    · have hstate : s.singleton.state ≠ .busy := by
        obtain hempty | ⟨hready, -⟩ := hfree
        · rw [hempty]
          simp
        · rw [hready]
          simp
      rw [DelayedSingleton.owners, if_neg hstate] at howners
      rw [howns, howns', howners] at hcount
      change (s.pcs.set i pc').countP _ = singleton.owners
      rw [DelayedSingleton.owners, if_pos hbusy]
      exact hcount
    · intro hempty
      cases hbusy.symm.trans hempty
    · intro hready
      cases hbusy.symm.trans hready
  | work howns howns' hstate =>
    have hbusy := h.busy_of_owns hi howns
    refine ⟨?_, haside (.inl howns), ?_, ?_, hapart⟩
    · rw [howns, howns'] at hcount
      change (s.pcs.set i pc').countP _ = singleton.owners
      rw [DelayedSingleton.owners, hstate, ← DelayedSingleton.owners]
      omega
    · intro hempty
      cases (hstate.trans hbusy).symm.trans hempty
    · intro hready
      cases (hstate.trans hbusy).symm.trans hready
  | release howns howns' hbusy hempty hready =>
    refine ⟨?_, haside (.inl howns), hempty, hready, hapart⟩
    rw [DelayedSingleton.owners, if_pos (h.busy_of_owns hi howns)] at howners
    rw [howns, howns', howners] at hcount
    change (s.pcs.set i pc').countP _ = singleton.owners
    rw [DelayedSingleton.owners, if_neg hbusy]
    exact Nat.succ.inj hcount

/-- **The step lemma.** -/
theorem Inv.step (h : s.Inv) (hstep : s.step? a = some s') : s'.Inv := by
  cases a with
  | spawn =>
    cases hstep
    refine ⟨?_, fun j q hj => ?_, h.empty, h.ready, ?_⟩
    · have hidle : [SingletonPc.idle].countP SingletonPc.owns = 0 := rfl
      rw [List.countP_append, hidle]
      exact h.owners
    · obtain ⟨-, rfl⟩ | hj := Agents.of_getElem?_append hj
      · trivial
      · exact h.holds j q hj
    · refine h.apart.imp (fun hall => ?_) fun hall => ?_
      · exact List.forall_mem_append.mpr ⟨hall, List.forall_mem_singleton.mpr rfl⟩
      · exact List.forall_mem_append.mpr ⟨hall, List.forall_mem_singleton.mpr rfl⟩
  | getInstance i =>
    obtain ⟨⟨hi, hall⟩, hstep⟩ := Option.ite_none_right_eq_some.mp hstep
    cases hstep
    refine h.set hi (.quiet rfl rfl rfl rfl) trivial (fun _ => .inr ?_) (fun hd => by cases hd)
    simpa using hall
  | destroyInstance i =>
    obtain ⟨⟨hi, hall⟩, hstep⟩ := Option.ite_none_right_eq_some.mp hstep
    cases hstep
    refine h.set hi (.quiet rfl rfl rfl rfl) trivial (fun hc => by cases hc) (fun _ => .inr ?_)
    simpa using hall
  | step i granted =>
    unfold step? at hstep
    dsimp only at hstep
    split at hstep
    · cases hstep
    next pc hi =>
    obtain ⟨⟨pc', singleton⟩, hpc, hs'⟩ := Option.map_eq_some_iff.mp hstep
    cases hs'
    obtain ⟨hmove, hholds⟩ := SingletonPc.step_move (h.holds i pc hi) h.empty h.ready hpc
    obtain ⟨hcalling, hdestroying⟩ := SingletonPc.step_within hpc
    exact h.set hi hmove hholds (fun hc => .inl (hcalling hc)) fun hd => .inl (hdestroying hd)

theorem Reachable.inv (hs : s.Reachable) : s.Inv :=
  Runs.Reachable.invariant
    (by rintro _ rfl; exact ⟨rfl, fun i pc h => (by cases h), fun _ => ⟨rfl, rfl⟩,
      fun h => (by cases h), .inl fun _ h => (by cases h)⟩)
    (fun _ _ h ⟨_, hstep⟩ => h.step hstep) hs

/-! ## What follows -/

theorem Inv.orderly (h : s.Inv) : phase s.singleton.log ≠ none := by
  cases hstate : s.singleton.state with
  | empty =>
    rw [(h.empty hstate).1]
    simp
  | ready =>
    obtain ⟨created, hphase, -⟩ := h.ready hstate
    rw [hphase]
    simp
  | busy =>
    have hcount := h.owners
    rw [DelayedSingleton.owners, if_pos hstate] at hcount
    obtain ⟨pc, hmem, howns⟩ := List.countP_pos_iff.mp (hcount ▸ Nat.one_pos)
    obtain ⟨i, hi⟩ := List.getElem?_of_mem hmem
    have hholds := h.holds i pc hi
    cases pc with
    | construct | rollback | storeEmpty | setInstance _ | storeReady _ =>
      rw [hholds.1]
      simp
    | reset =>
      obtain ⟨created, hphase, -⟩ := hholds
      rw [hphase]
      simp
    | idle | load | exchange | yield | getInstance | destroy => cases howns

/-- `instance_` is no atomic; nobody else uses it while a task writes it. -/
theorem Reachable.writes_alone (hs : s.Reachable) (hi : s.pcs[i]? = some pc) (howns : pc.owns)
    (hj : s.pcs[j]? = some q) (hji : j ≠ i) : q.usesInstance = false := by
  obtain ⟨hq, hget⟩ := hs.inv.others_aside hi (.inl howns) hj hji
  cases q with
  | getInstance => exact absurd rfl hget
  | setInstance _ | reset => cases hq
  | idle | load | exchange | yield | construct | rollback | storeReady _ | destroy
  | storeEmpty => rfl

/-- A task takes steps of its own, while the others wait. -/
theorem foldlM_step {grants : List Bool} {singleton : DelayedSingleton} (hi : s.pcs[i]? = some pc)
    (hrun : grants.foldlM (fun x granted => SingletonPc.step granted x.1 x.2) (pc, s.singleton) =
      some (pc', singleton)) :
    (grants.map (SingletonAct.step i)).foldlM (fun s a => step? a s) s =
      some { singleton, pcs := s.pcs.set i pc' } := by
  induction grants generalizing s pc with
  | nil =>
    cases hrun
    obtain ⟨hlt, rfl⟩ := List.getElem?_eq_some_iff.mp hi
    rw [List.set_getElem_self]
    rfl
  | cons granted grants ih =>
    obtain ⟨⟨pc₁, singleton₁⟩, hstep, hrest⟩ := Option.bind_eq_some_iff.mp hrun
    have hfirst : s.step? (.step i granted) =
        some { singleton := singleton₁, pcs := s.pcs.set i pc₁ } := by
      unfold step?
      dsimp only
      rw [hi]
      exact Option.map_eq_some_iff.mpr ⟨_, hstep, rfl⟩
    have hnext := ih (s := { singleton := singleton₁, pcs := s.pcs.set i pc₁ })
      (Agents.getElem?_set_self pc₁ hi) hrest
    rw [List.set_set] at hnext
    rw [List.map_cons, List.foldlM_cons, hfirst]
    exact hnext

/-- `GetInstance` of a task that nobody disturbs, and for which there is memory. -/
def undisturbed (i : Nat) : List SingletonAct :=
  .getInstance i :: (List.replicate 6 true).map (.step i)

/-- While the state is `EMPTY`, whoever asks for the instance constructs it. -/
theorem constructs (hstate : s.singleton.state = .empty)
    (hall : ∀ pc ∈ s.pcs, pc.destroying = false) (hi : s.pcs[i]? = some .idle) :
    ∃ s', (undisturbed i).foldlM (fun s a => step? a s) s = some s' ∧
      s'.singleton.log = s.singleton.log ++
        [.constructed s.singleton.made, .published s.singleton.made,
          .returned (some s.singleton.made)] := by
  have hcall : s.step? (.getInstance i) = some { s with pcs := s.pcs.set i .load } :=
    if_pos ⟨hi, by simpa using hall⟩
  have hrun : (List.replicate 6 true).foldlM
      (fun x granted => SingletonPc.step granted x.1 x.2) (.load, s.singleton) =
        some (.idle,
          { state := .ready
            inst := some s.singleton.made
            made := s.singleton.made + 1
            log := s.singleton.log ++ [.constructed s.singleton.made] ++
              [.published s.singleton.made] ++ [.returned (some s.singleton.made)] }) := by
    simp [List.replicate, SingletonPc.step, hstate]
  have halone := foldlM_step (s := { s with pcs := s.pcs.set i .load })
    (Agents.getElem?_set_self _ hi) hrun
  have hfold : (undisturbed i).foldlM (fun s a => step? a s) s =
      ((List.replicate 6 true).map (SingletonAct.step i)).foldlM (fun s a => step? a s)
        { s with pcs := s.pcs.set i .load } := by
    rw [undisturbed, List.foldlM_cons, hcall]
    rfl
  exact ⟨_, hfold.trans halone, by simp⟩

/-- What holds in every state of a run. -/
structure ConstructedOnce (s : SingletonSystem) : Prop where
  /-- At most one construction is in progress. -/
  alone : s.pcs.countP SingletonPc.constructing ≤ 1
  /-- At most one construction succeeds between two destructions. -/
  once : ∀ a b l₁ l₂ l₃,
    s.singleton.log = l₁ ++ .constructed a :: (l₂ ++ .constructed b :: l₃) → .destroyed a ∈ l₂
  /-- What is returned is the instance of the last construction, and it was published. -/
  returned : ∀ created l₁ l₂, s.singleton.log = l₁ ++ .returned (some created) :: l₂ →
    ∃ l₀ l, l₁ = l₀ ++ .constructed created :: l ∧ (∀ e ∈ l, e.Neutral) ∧ .published created ∈ l
  /-- A failed allocation ends with the state `EMPTY`, and nobody is destroying. -/
  rollback : ∀ i granted, s.pcs[i]? = some .rollback →
    ∃ s', s.step? (.step i granted) = some s' ∧ s'.singleton.state = .empty ∧
      ∀ pc ∈ s'.pcs, pc.destroying = false
  /-- Then whoever asks for the instance constructs it. -/
  constructs : s.singleton.state = .empty → (∀ pc ∈ s.pcs, pc.destroying = false) →
    ∀ i, s.pcs[i]? = some .idle → ∃ s', (undisturbed i).foldlM (fun s a => step? a s) s = some s' ∧
      s'.singleton.log = s.singleton.log ++
        [.constructed s.singleton.made, .published s.singleton.made,
          .returned (some s.singleton.made)]

/-- **A delayed singleton is constructed once**, whatever the order of the steps. -/
theorem constructed_once (hs : s.Reachable) : s.ConstructedOnce where
  alone := Nat.le_trans (List.countP_mono_left fun pc _ => SingletonPc.owns_of_constructing)
    hs.inv.owners_le
  once a b l₁ l₂ l₃ hlog := OnceCell.destroyed_between (hlog ▸ hs.inv.orderly)
  returned created l₁ l₂ hlog := OnceCell.published_before (hlog ▸ hs.inv.orderly)
  rollback i granted hi := by
    have hdest : ∀ pc ∈ s.pcs, pc.destroying = false := by
      refine hs.inv.apart.resolve_left fun hcalling => ?_
      cases hcalling _ (List.mem_of_getElem? hi)
    refine ⟨{ singleton := { s.singleton with
        state := .empty, log := s.singleton.log ++ [.returned none] }
              pcs := s.pcs.set i .idle }, ?_, rfl, fun pc hpc => ?_⟩
    · unfold step?
      dsimp only
      rw [hi]
      rfl
    · obtain hpc | rfl := List.mem_or_eq_of_mem_set hpc
      · exact hdest pc hpc
      · rfl
  constructs hstate hall i hi := SingletonSystem.constructs hstate hall hi

/-- Task 0 finds no memory while task 1 waits for it; then task 1 constructs. -/
def failedRun : List SingletonAct :=
  List.flatten [[.spawn, .spawn, .getInstance 0, .getInstance 1],
    [.step 0 true, .step 1 true, .step 0 true, .step 1 true, .step 0 false, .step 1 true],
    [.step 1 true, .step 0 true, .step 1 true], List.replicate 6 (.step 1 true)]

theorem constructed_once_failedRun :
    (failedRun.foldlM (fun s a => step? a s) {}).elim False fun s =>
      s.singleton.log =
        [.returned none, .constructed 0, .published 0, .returned (some 0)] ∧
        s.ConstructedOnce := by
  have hrun : (failedRun.foldlM (fun s a => step? a s) {}).map (·.singleton.log) =
      some [.returned none, .constructed 0, .published 0, .returned (some 0)] := by
    decide +kernel
  obtain ⟨s, hs, hlog⟩ := Option.map_eq_some_iff.mp hrun
  rw [hs]
  exact ⟨hlog, constructed_once (Runs.Reachable.foldlM (.start rfl) hs)⟩

end SingletonSystem

end CallManagerMini
