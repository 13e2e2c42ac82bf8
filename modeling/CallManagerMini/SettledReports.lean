import CallManagerMini.Leftovers
import CallManagerMini.ReportEffects

/-! # Reports and the notes about calls

A state is settled if every note is about a call of the table: what a pending flag names is an
outgoing call, and the members of the CS conference are CS calls.  A refresh, which replaces the
object of a call, may bring a call into the CS conference but takes none out of it, so what the
handlers settle depends on what the reports say of the members.
-/

namespace CallManagerMini

open Prog (Post Moves)

variable {s s' s'' : CallManager} {env : Env} {info : CallDetailInfo} {p : Ref}

/-! ## Calls that stay -/

namespace CallTable

variable {t t' t'' : CallTable} {r : Row} {leaving : Int → Prop}

/-- An outgoing call of the table has the id. -/
def HasOutgoing (t : CallTable) (callId : Int) : Prop :=
  ∃ r ∈ t.rows, r.callId = callId ∧ r.direction = .outgoing

/-- A CS call of the table has the id. -/
def HasCs (t : CallTable) (callId : Int) : Prop :=
  ∃ r ∈ t.rows, r.callId = callId ∧ r.callType = .cs

/-- The calls that are not about to leave stay, with their direction and their type. -/
def Keeps (leaving : Int → Prop) (t t' : CallTable) : Prop :=
  ∀ r ∈ t.rows, ¬leaving r.callId →
    ∃ r' ∈ t'.rows, r'.callId = r.callId ∧ r'.direction = r.direction ∧ r'.callType = r.callType

theorem Keeps.refl (t : CallTable) : Keeps leaving t t :=
  fun r hr _ => ⟨r, hr, rfl, rfl, rfl⟩

theorem Keeps.trans (h : Keeps leaving t t') (h' : Keeps leaving t' t'') :
    Keeps leaving t t'' := by
  intro r hr hstay
  obtain ⟨r', hr', hid, hdir, htype⟩ := h r hr hstay
  obtain ⟨r'', hr'', hid', hdir', htype'⟩ := h' r' hr' (hid ▸ hstay)
  exact ⟨r'', hr'', hid'.trans hid, hdir'.trans hdir, htype'.trans htype⟩

theorem HasOutgoing.keeps {c : Int} (h : t.HasOutgoing c) (hk : Keeps leaving t t')
    (hc : ¬leaving c) : t'.HasOutgoing c := by
  obtain ⟨r, hr, rfl, hdir⟩ := h
  obtain ⟨r', hr', hid, hdir', -⟩ := hk r hr hc
  exact ⟨r', hr', hid, hdir'.trans hdir⟩

theorem HasCs.keeps {c : Int} (h : t.HasCs c) (hk : Keeps leaving t t') (hc : ¬leaving c) :
    t'.HasCs c := by
  obtain ⟨r, hr, rfl, htype⟩ := h
  obtain ⟨r', hr', hid, -, htype'⟩ := hk r hr hc
  exact ⟨r', hr', hid, htype'.trans htype⟩

theorem keeps_of_rows (h : ∀ r ∈ t.rows, r ∈ t'.rows) : Keeps leaving t t' :=
  fun r hr _ => ⟨r, h r hr, rfl, rfl, rfl⟩

theorem keeps_update {callId : Int} {f : Row → Row}
    (hf : ∀ r, (f r).callId = r.callId ∧ (f r).direction = r.direction ∧
      (f r).callType = r.callType) : Keeps leaving t (t.update callId f) := by
  intro r hr _
  by_cases hid : r.callId = callId
  · exact ⟨f r, Keyed.mem_update.mpr ⟨r, hr, if_pos hid⟩, hf r⟩
  · exact ⟨r, Keyed.mem_update.mpr ⟨r, hr, if_neg hid⟩, rfl, rfl, rfl⟩

theorem keeps_announce (r : Row) (next : TelCallState) :
    Keeps leaving t (t.announce r next) := by
  have hk : Keeps leaving t (t.update r.callId (Row.setState next)) :=
    keeps_update fun _ => ⟨rfl, rfl, rfl⟩
  exact hk

/-- Only calls with the id are removed. -/
theorem mem_remove_of_ne {callId : Int} (hr : r ∈ t.rows) (hne : r.callId ≠ callId) :
    r ∈ (t.remove callId).rows :=
  (List.mem_eraseP_of_neg (by simpa using hne)).mpr hr

theorem keeps_remove {callId : Int} : Keeps (fun c => c = callId) t (t.remove callId) :=
  fun r hr hne => ⟨r, mem_remove_of_ne hr hne, rfl, rfl, rfl⟩

/-- A refresh keeps the other calls. -/
theorem keeps_refresh (h : t.Inv) (hr : r ∈ t.rows) (info : CallDetailInfo) :
    Keeps (fun c => c = r.callId) t (t.refresh r info).2 := by
  refine refresh_cases h hr info (fun _ => ?_) (fun _ _ _ => ?_) fun _ _ => ?_
  · exact keeps_update fun r => ⟨by simp, by simp, by simp⟩
  · intro q hq hne
    exact ⟨q, List.mem_append_left _ (mem_remove_of_ne hq hne), rfl, rfl, rfl⟩
  · exact fun q hq hne => ⟨q, mem_remove_of_ne hq hne, rfl, rfl, rfl⟩

/-- The refreshed call has the reported type, unless it was lost. -/
theorem refresh_own (h : t.Inv) (hr : r ∈ t.rows) (info : CallDetailInfo)
    (hroom : r.callType = info.callType ∨ t.Room r) :
    (t.refresh r info).1 ∈ (t.refresh r info).2.rows ∧
      (t.refresh r info).1.direction = r.direction ∧
      (t.refresh r info).1.callType = info.callType := by
  refine refresh_cases h hr info (fun htype => ?_) (fun _ _ _ => ?_) fun hne hno => ?_
  · exact ⟨Keyed.mem_update.mpr ⟨r, hr, if_pos rfl⟩, by simp, by simpa using htype⟩
  · exact ⟨List.mem_append_right _ (List.mem_singleton.mpr rfl), rfl, rfl⟩
  · exact absurd hroom (not_or.mpr ⟨hne, hno⟩)

/-- There is a call after a refresh. -/
theorem refresh_ne_nil (h : t.Inv) (hr : r ∈ t.rows) (info : CallDetailInfo) :
    (t.refresh r info).2.rows ≠ [] := by
  by_cases hroom : r.callType = info.callType ∨ t.Room r
  · exact List.ne_nil_of_mem (refresh_own h hr info hroom).1
  · obtain ⟨hne, hno⟩ := not_or.mp hroom
    rw [refresh_lost h hr hne hno]
    have hlen : (t.created.remove r.callId).rows.length = t.rows.length - 1 :=
      Keyed.length_remove hr
    have hfull : miniMaxCallObjects ≤ t.rows.length := Nat.le_of_not_lt fun h => hno (.inl h)
    have hmax : 1 < miniMaxCallObjects := by decide
    refine List.ne_nil_of_length_pos ?_
    show 0 < (t.created.remove r.callId).rows.length
    omega

/-- A new call does not disturb the others. -/
theorem keeps_insertNew (info : CallDetailInfo) (direction : CallDirection) (st : TelCallState) :
    Keeps leaving t ((t.created.insert (t.newRow info direction)).update
      (t.newRow info direction).callId (Row.setState st)) :=
  (keeps_of_rows (t := t) fun _ hr => List.mem_append_left _ hr).trans
    (keeps_update fun _ => ⟨rfl, rfl, rfl⟩)

theorem keeps_addDialing (info : CallDetailInfo) : Keeps leaving t (t.addDialing info).2 := by
  unfold addDialing
  dsimp only
  split
  · exact keeps_insertNew _ _ _
  · exact keeps_of_rows fun _ hr => hr

theorem keeps_addIncoming (info : CallDetailInfo) : Keeps leaving t (t.addIncoming info).2 := by
  unfold addIncoming
  dsimp only
  split
  · exact keeps_insertNew _ _ _
  · exact keeps_of_rows fun _ hr => hr

/-- A call that is refused is refused for the calls that are there. -/
theorem ne_nil_of_refused {r : Row} (h : t.admission r ≠ .success) : t.rows ≠ [] := by
  intro hempty
  apply h
  unfold admission limit miniMaxCallObjects miniEccReservedCallObjects
  rw [hempty]
  cases r.isEcc <;> rfl

theorem insertNew_ne_nil (r : Row) (callId : Int) (f : Row → Row) :
    ((t.insert r).update callId f).rows ≠ [] := by
  simp [update, insert, Keyed.update]

theorem addDialing_ne_nil (info : CallDetailInfo) : (t.addDialing info).2.rows ≠ [] := by
  unfold addDialing
  dsimp only
  split
  · exact insertNew_ne_nil _ _ _
  · next hno => exact ne_nil_of_refused hno

theorem addIncoming_ne_nil (info : CallDetailInfo) : (t.addIncoming info).2.rows ≠ [] := by
  unfold addIncoming
  dsimp only
  split
  · exact insertNew_ne_nil _ _ _
  · next hno => exact ne_nil_of_refused hno

/-- A dial that is admitted is an outgoing call of the table. -/
theorem addDialing_hasOutgoing
    (hadm : t.created.admission (t.newRow { info with state := .dialing } .outgoing) = .success) :
    (t.addDialing info).2.HasOutgoing (t.lastCallId + 1) := by
  unfold addDialing
  dsimp only
  rw [if_pos hadm]
  refine ⟨_, Keyed.mem_update.mpr ⟨_, List.mem_append_right _ (List.mem_singleton.mpr rfl), rfl⟩, ?_⟩
  rw [if_pos rfl]
  exact ⟨rfl, rfl⟩

end CallTable

/-! ## Settled states -/

/-- Every note about a call that is not about to leave is about a call of the table. -/
structure SettledBut (leaving : Int → Prop) (s : CallManager) : Prop where
  proper : ∀ p ∈ s.callObjectPtrList, s.Proper p
  awaited : ∀ c, ¬leaving c → s.Awaits c → s.table.HasOutgoing c
  members : ∀ c, ¬leaving c → c ∈ s.csConference.subCallIdSet → s.table.HasCs c
  cs : s.csConference.Tidy
  ims : s.imsConference.Unused

/-- Every note is about a call of the table. -/
abbrev Settled (s : CallManager) : Prop := SettledBut (fun _ => False) s

/-- Neither the table nor a note changes. -/
structure Tame (s s' : CallManager) : Prop
    extends Quiet s s', Frugal (fun _ => False) (fun _ => False) s s'

instance : Std.Refl Tame := ⟨fun s => ⟨.refl s, .refl s⟩⟩

instance : IsTrans CallManager Tame :=
  ⟨fun _ _ _ h h' => ⟨h.toQuiet.trans h'.toQuiet, h.toFrugal.trans h'.toFrugal⟩⟩

instance {α : Type} (m : Prog CallManager α) [Moves Quiet m]
    [Moves (Frugal (fun _ => False) fun _ => False) m] : Moves Tame m :=
  ⟨fun s => ⟨Moves.rel s, Moves.rel s⟩⟩

/-- A change of an object that shows neither in the table nor in its class. -/
theorem tame_modifyCall {f : CallBase → CallBase}
    (hf : ∀ c, (f c).row p = c.row p ∧ (f c).isIMSCall = c.isIMSCall) :
    Moves Tame (modifyCall p f) := by
  have hquiet : Moves Quiet (modifyCall p f) := quiet_modifyCall fun c => (hf c).1
  have hmodest : Moves (Modest (fun _ => False) fun _ => False) (modifyCall p f) :=
    modest_modifyCall fun c => ⟨(hf c).2, congrArg Row.callType (hf c).1⟩
  infer_instance

namespace SettledBut

variable {leaving : Int → Prop} {c : Int}

/-- What a frugal program that keeps the staying calls settles. -/
theorem step (h : SettledBut leaving s) {leaving' pending joined : Int → Prop}
    (hf : Frugal pending joined s s') (hle : ∀ c, leaving c → leaving' c)
    (hk : s.table.Keeps leaving' s'.table)
    (hp : ∀ c, ¬leaving' c → pending c → s'.table.HasOutgoing c)
    (hj : ∀ c, ¬leaving' c → joined c → s'.table.HasCs c) : SettledBut leaving' s' where
  proper p hp := (hf.listed p hp).elim (fun hl => hf.proper p (h.proper p hl)) id
  awaited c hc ha := by
    rcases hf.awaits c ha with hnew | hold
    · exact hp c hc hnew
    · exact (h.awaited c (fun hl => hc (hle c hl)) hold).keeps hk hc
  members c hc hm := by
    rcases hf.members c hm with hnew | hold
    · exact hj c hc hnew
    · exact (h.members c (fun hl => hc (hle c hl)) hold).keeps hk hc
  cs := hf.cs h.cs
  ims := hf.ims h.ims

theorem tame (h : SettledBut leaving s) (ht : Tame s s') : SettledBut leaving s' :=
  h.step ht.toFrugal (fun _ hc => hc) (ht.toQuiet.table ▸ .refl _) (fun _ _ hc => hc.elim)
    fun _ _ hc => hc.elim

theorem announced (h : SettledBut leaving s) {next : TelCallState} (ha : Announced s s' p next)
    (hf : Frugal (fun _ => False) (fun _ => False) s s') : SettledBut leaving s' :=
  h.step hf (fun _ hc => hc) (ha.table ▸ CallTable.keeps_announce _ _) (fun _ _ hc => hc.elim)
    fun _ _ hc => hc.elim

/-- The state is settled if the leaving call is, in what is noted about it. -/
theorem whole (h : SettledBut (fun c' => c' = c) s) (ha : s.Awaits c → s.table.HasOutgoing c)
    (hm : c ∈ s.csConference.subCallIdSet → s.table.HasCs c) : Settled s where
  proper := h.proper
  awaited c' _ hc' := by
    by_cases heq : c' = c
    · exact heq ▸ ha (heq ▸ hc')
    · exact h.awaited c' heq hc'
  members c' _ hc' := by
    by_cases heq : c' = c
    · exact heq ▸ hm (heq ▸ hc')
    · exact h.members c' heq hc'
  cs := h.cs
  ims := h.ims

/-- Nothing is noted about a call that has left. -/
theorem left (h : SettledBut (fun c' => c' = c) s) (ha : ¬s.Awaits c)
    (hm : c ∉ s.csConference.subCallIdSet) : Settled s :=
  h.whole (fun hc => absurd hc ha) fun hc => absurd hc hm

end SettledBut

/-! ## The refresh -/

/-- What a refresh leaves of the notes: all are settled but those about its call, and the call
has joined the CS conference only as a CS call. -/
structure RefreshSettled (s s' : CallManager) (p q : Ref) (info : CallDetailInfo) : Prop
    extends Refreshed s s' p q info where
  proper : s'.Proper q
  settled : SettledBut (fun c => c = (s.call p).callId) s'
  awaits : ∀ c, s'.Awaits c → s.Awaits c
  joined : (s.call p).callId ∈ s'.csConference.subCallIdSet →
    (s.call p).callId ∈ s.csConference.subCallIdSet ∨ s'.table.HasCs (s.call p).callId
  others : ∀ c, c ≠ (s.call p).callId → c ∈ s'.csConference.subCallIdSet →
    c ∈ s.csConference.subCallIdSet

theorem refresh_settles (env : Env) (h : s.table.Inv) (hinfo : info.IsCarried)
    (hp : p ∈ s.callObjectPtrList) (hfit : s.table.Fits (s.row p) info) (hs : Settled s) :
    Post (refreshCallIfNecessary env p info) s fun q s' => RefreshSettled s s' p q info := by
  have hr := s.row_mem_table hp
  refine Post.mono (Post.and (refreshed_post env h hinfo hp hfit)
    (@refreshCallIfNecessary_frugal s p (fun _ => False) env info (h.lt_next hp)
      (hs.proper p hp))) ?_
  rintro q s' ⟨href, hproper, hf⟩
  refine { href with
    proper := hproper
    settled := hs.step hf (fun _ hc => hc.elim) ?_ (fun _ _ hc => hc.elim)
      fun _ hne hc => absurd hc.1 hne
    awaits := fun c hc => (hf.awaits c hc).resolve_left id
    joined := fun hc => ?_
    others := fun c hne hc => (hf.members c hc).resolve_left fun hj => hne hj.1 }
  · rw [href.table]
    exact CallTable.keeps_refresh h hr info
  · rcases hf.members _ hc with ⟨-, hqp, hcs⟩ | hold
    · by_cases hroom : (s.row p).callType = info.callType ∨ s.table.Room (s.row p)
      · obtain ⟨hmem, -, htype⟩ := CallTable.refresh_own h hr info hroom
        rw [← href.table] at hmem
        exact .inr ⟨_, hmem, CallTable.refresh_callId h hr info, htype.trans hcs⟩
      · -- a call that is lost keeps its object
        obtain ⟨hne, hno⟩ := not_or.mp hroom
        have hobj := congrArg Row.obj href.row
        rw [CallTable.refresh_lost h hr hne hno] at hobj
        exact absurd (hobj.trans (by simp)) hqp
    · exact .inl hold

/-- A refresh settles everything if no member of the CS conference is reported as an IMS call. -/
theorem RefreshSettled.whole {q : Ref} (hq : RefreshSettled s s' p q info) (h : s.table.Inv)
    (hp : p ∈ s.callObjectPtrList) (hs : Settled s)
    (hcs : (s.call p).callId ∈ s.csConference.subCallIdSet → info.callType = .cs) :
    Settled s' := by
  have hr := s.row_mem_table hp
  have hown {r : Row} (hr' : r ∈ s.table.rows) (hid : r.callId = (s.call p).callId) :
      r = s.row p := h.eq_of_callId hr' hr hid
  refine hq.settled.whole (fun ha => ?_) fun hm => ?_
  · obtain ⟨r, hr', hid, hdir⟩ := hs.awaited _ id (hq.awaits _ ha)
    rw [hown hr' hid] at hdir
    obtain ⟨hmem, hdir', -⟩ := CallTable.refresh_own h hr info (.inr (.inr hdir))
    rw [← hq.table] at hmem
    exact ⟨_, hmem, CallTable.refresh_callId h hr info, hdir'.trans hdir⟩
  · rcases hq.joined hm with hold | hnew
    · obtain ⟨r, hr', hid, htype⟩ := hs.members _ id hold
      rw [hown hr' hid] at htype
      obtain ⟨hmem, -, htype'⟩ := CallTable.refresh_own h hr info
        (.inl (htype.trans (hcs hold).symm))
      rw [← hq.table] at hmem
      exact ⟨_, hmem, CallTable.refresh_callId h hr info, htype'.trans (hcs hold)⟩
    · exact hnew

/-- A refreshed call that is listed has the reported type. -/
theorem Refreshed.callType {q : Ref} (hq : Refreshed s s' p q info) (h : s.table.Inv)
    (hp : p ∈ s.callObjectPtrList) (hlist : q ∈ s'.callObjectPtrList) :
    (s'.call q).callType = info.callType := by
  have hr := s.row_mem_table hp
  change (s'.row q).callType = _
  by_cases hroom : (s.row p).callType = info.callType ∨ s.table.Room (s.row p)
  · rw [hq.row]
    exact (CallTable.refresh_own h hr info hroom).2.2
  · obtain ⟨hne, hno⟩ := not_or.mp hroom
    have hmem := s'.row_mem_table hlist
    have hid : (s'.row q).callId = (s.row p).callId := by
      rw [hq.row]
      exact CallTable.refresh_callId h hr info
    rw [hq.table, CallTable.refresh_lost h hr hne hno] at hmem
    exact absurd hid (h.created.mem_remove.mp hmem).2

/-- There is a call after a refresh. -/
theorem Refreshed.ne_nil {q : Ref} (hq : Refreshed s s' p q info) (h : s.table.Inv)
    (hp : p ∈ s.callObjectPtrList) : s'.callObjectPtrList ≠ [] := by
  intro hempty
  have hrows : s'.table.rows = [] := congrArg (List.map s'.row) hempty
  rw [hq.table] at hrows
  exact CallTable.refresh_ne_nil h (s.row_mem_table hp) info hrows

/-! ## Dialing -/

/-- Every note is about a call of the table, and without calls there is nothing to be heard. -/
structure Orderly (s : CallManager) : Prop where
  settled : Settled s
  silent : s.Silent

theorem Orderly.of_ne_nil (h : Settled s) (hne : s.callObjectPtrList ≠ []) : Orderly s :=
  ⟨h, fun hempty => absurd hempty hne⟩

/-- Nothing is noted of the fields that are written here. -/
theorem SettledBut.updateCall {leaving : Int → Prop} (h : SettledBut leaving s)
    {f : CallBase → CallBase} (hf : p ∈ s.callObjectPtrList →
      (f (s.call p)).isIMSCall = (s.call p).isIMSCall ∧
      (f (s.call p)).callType = (s.call p).callType ∧ (f (s.call p)).callId = (s.call p).callId ∧
      (f (s.call p)).direction = (s.call p).direction) :
    SettledBut leaving (s.updateCall p f) := by
  have hself := call_updateCall_self s p f
  have hother {q : Ref} (hq : q ≠ p) : (s.updateCall p f).call q = s.call q :=
    Heap.get_set_ne _ _ hq
  have hkeeps : s.table.Keeps leaving (s.updateCall p f).table := by
    intro r hr _
    obtain ⟨q, hq, rfl⟩ := CallManager.mem_table_rows.mp hr
    refine ⟨_, CallManager.row_mem_table (s := s.updateCall p f) hq, ?_⟩
    unfold CallManager.row
    by_cases hqp : q = p
    · rw [hqp, hself]
      obtain ⟨-, htype, hid, hdir⟩ := hf (hqp ▸ hq)
      exact ⟨hid, hdir, htype⟩
    · rw [hother hqp]
      exact ⟨rfl, rfl, rfl⟩
  exact {
    proper := by
      intro q hq
      have hproper := h.proper q hq
      unfold CallManager.Proper at *
      by_cases hqp : q = p
      · obtain ⟨hims, htype, -, -⟩ := hf (hqp ▸ hq)
        rw [hqp] at hproper ⊢
        rw [hself, hims, htype]
        exact hproper
      · rw [hother hqp]
        exact hproper
    awaited := fun c hc ha => (h.awaited c hc ha).keeps hkeeps hc
    members := fun c hc hm => (h.members c hc hm).keeps hkeeps hc
    cs := h.cs
    ims := h.ims }

/-- `UpdateDialingCallInfo` once a pending call was found. -/
theorem adoptCall_settles (env : Env) (h : s.table.Inv) (hinfo : info.IsCarried)
    (hp : p ∈ s.callObjectPtrList) (hnone : s.table.callAt info.index info.accountId = none)
    (hs : Settled s)
    (hcs : (s.call p).callId ∈ s.csConference.subCallIdSet → info.callType = .cs) :
    Post (do
      let oriNum := (← getCall p).accountNumber
      let p ← refreshCallIfNecessary env p info
      modifyCall p fun c => { c with index := info.index }
      modifyCall p fun c => { c with slotId := info.accountId }
      let _ ← setTelCallState env p info.state
      modifyCall p fun c => { c with videoState := info.callMode }
      modifyCall p fun c => { c with callType := info.callType }
      modifyCall p fun c => { c with accountNumber := oriNum }
      modifyCall p fun c => { c with imsDomain := info.imsDomain }
      clearPendingState env p
      pure RetCode.success) s fun _ s' => Orderly s' := by
  have hfit := CallTable.fits_of_none (r := s.row p) hnone
  refine Post.bind_gets (Post.bind (refresh_settles env h hinfo hp hfit hs) fun q s₁ h₁ => ?_)
  have hs₁ : Settled s₁ := h₁.whole h hp hs hcs
  have hne₁ : s₁.callObjectPtrList ≠ [] := h₁.ne_nil h hp
  refine Post.bind_modify (Post.bind_modify ?_)
  simp only [updateCall_updateCall]
  refine Post.bind (setTelCallState_post env q info.state _) ?_
  rintro _ s₂ ⟨-, hs₂⟩
  refine Post.bind_modify (Post.bind_modify (Post.bind_modify (Post.bind_modify ?_)))
  simp only [hs₂, updateCall_updateCall]
  refine Post.bind (Post.of_moves (R := Tame) _ _) fun _ s₃ hq₃ => Post.pure ?_
  have hs₃ := (hs₁.updateCall (p := q) (f := _) ?_).tame hq₃
  · exact .of_ne_nil hs₃ (hq₃.list ▸ hne₁)
  · intro hlist
    have hkept := setTelCallState_milder
      ({ s₁.call q with index := info.index, slotId := info.accountId } : CallBase)
      (env.time s₁.log) info.state
    exact ⟨hkept.isIMSCall, (h₁.callType h hp hlist).symm, hkept.callId, hkept.direction⟩

/-- The call that `DialingHandle` adds may be noted as pending. -/
theorem addDialingCall_frugal (env : Env) (h : s.table.Inv) (hinfo : info.IsCarried) :
    Post (addDialingCall env info) s fun _ s' =>
      Frugal (fun c => c = s.table.lastCallId + 1 ∧
        s.table.created.admission (s.table.newRow info .outgoing) = .success)
        (fun _ => False) s s' := by
  set pending : Int → Prop := fun c => c = s.table.lastCallId + 1 ∧
    s.table.created.admission (s.table.newRow info .outgoing) = .success with hpending
  have hcreate : Post (createNewCall env info .outgoing) s fun created s₁ =>
      (created = some s.calls.next ∧ Created s s₁ info .outgoing) ∧
        (∀ q, created = some q → q = s.calls.next ∧ s₁.Proper q) ∧
          Frugal pending (fun _ => False) s s₁ :=
    ⟨createNewCall_post env h hinfo _, createNewCall_proper env info _ s, Moves.rel s⟩
  refine Post.bind hcreate ?_
  rintro _ s₁ ⟨⟨rfl, h₁⟩, hproper, hf₁⟩
  dsimp only
  set p := s.calls.next
  have hadd : Post (addOneCallObject p) s₁ fun ret s₂ =>
      (ret = s₁.table.admission (s₁.row p) ∧ s₂.calls = s₁.calls) ∧
        Frugal pending (fun _ => False) s₁ s₂ :=
    ⟨⟨(addOneCallObject_post s₁ p).1, (addOneCallObject_post s₁ p).2.2.1⟩,
      addOneCallObject_frugal (hproper p rfl).2⟩
  refine Post.bind hadd ?_
  rintro ret s₂ ⟨⟨hret, hc₂⟩, hf₂⟩
  have hf : Frugal pending (fun _ => False) s s₂ := hf₁.trans hf₂
  rw [h₁.table, h₁.row] at hret
  refine Post.ite (fun _ => Post.pure hf) fun heq => ?_
  have hadm : s.table.created.admission (s.table.newRow info .outgoing) = .success :=
    hret.symm.trans (not_not.mp heq)
  have hid : (s₂.call p).callId = s.table.lastCallId + 1 := by
    have hcall : s₂.call p = s₁.call p := by simp only [CallManager.call, hc₂]
    rw [hcall]
    exact congrArg Row.callId h₁.row
  -- only a call that was admitted becomes pending
  have hmo : Moves (Modest pending fun _ => False) (setPendingMo true (s₂.call p).callId) :=
    modest_setPendingMo ⟨hid, hadm⟩
  have hphone : Moves (Modest pending fun _ => False)
      (modifyCall p fun c => { c with phoneOrWatch := 1 }) := modest_modifyCall fun _ => ⟨rfl, rfl⟩
  refine Post.bind (Q := fun _ s₃ => Frugal pending (fun _ => False) s₂ s₃) ?_ fun _ s₃ hf₃ => ?_
  · refine Post.when (fun _ => Post.bind_gets ?_) fun _ => .refl s₂
    exact Post.of_moves (R := Frugal pending fun _ => False) (do
      setPendingMo true (s₂.call p).callId
      modifyCall p fun c => { c with phoneOrWatch := 1 }) s₂
  · refine Post.mono (Post.of_moves (R := Frugal pending fun _ => False) _ s₃) ?_
    exact fun _ s₄ hf₄ => (hf.trans hf₃).trans hf₄

/-- The part of `DialingHandle` that adds a call. -/
theorem addDialingCall_settles (env : Env) (h : s.table.Inv) (hinfo : info.IsCarried)
    (hst : info.state = .dialing) (hs : Settled s) :
    Post (addDialingCall env info) s fun _ s' => Orderly s' := by
  refine Post.mono (Post.and (addDialingCall_computes env h hinfo hst)
    (addDialingCall_frugal env h hinfo)) ?_
  rintro ret s' ⟨⟨hret, -⟩, hf⟩
  have ht : s'.table = (s.table.addDialing info).2 := congrArg Prod.snd hret
  refine .of_ne_nil (hs.step hf (fun _ hc => hc) ?_ ?_ fun _ _ hc => hc.elim) ?_
  · rw [ht]
    exact CallTable.keeps_addDialing info
  · rintro c - ⟨rfl, hadm⟩
    rw [ht]
    refine CallTable.addDialing_hasOutgoing ?_
    rw [dialing_state hst]
    exact hadm
  · intro hempty
    have hrows : s'.table.rows = [] := congrArg (List.map s'.row) hempty
    rw [ht] at hrows
    exact CallTable.addDialing_ne_nil info hrows

/-- `UpdateDialingCallInfo`. -/
theorem updateDialingCallInfo_settles (env : Env) (h : s.table.Inv) (hinfo : info.IsCarried)
    (hs : Orderly s)
    (hcs : ∀ r, (s.table.callAt info.index info.accountId).or s.table.pending = some r →
      r.callId ∈ s.csConference.subCallIdSet → info.callType = .cs) :
    Post (updateDialingCallInfo env info) s fun _ s' => Orderly s' := by
  refine Post.bind_gets ?_
  have hat := callAt_eq h info.index info.accountId
  cases hknown : getOneCallObjectByIndexSlotIdAndCallType s info.index info.accountId with
  | some p =>
    rw [hknown] at hat
    have hp := mem_of_callAt hknown
    refine Post.bind (refresh_settles env h hinfo hp (h.fits hat.symm) hs.settled) fun q s₁ h₁ => ?_
    refine Post.pure (.of_ne_nil (h₁.whole h hp hs.settled fun hm => ?_) (h₁.ne_nil h hp))
    exact hcs (s.row p) (by rw [← hat]; rfl) hm
  | none =>
    rw [hknown] at hat
    refine Post.bind_gets ?_
    have hpend := pending_eq h
    cases hp : getOneCallObjectByIndex s initIndex with
    | none => exact Post.pure hs
    | some p =>
      rw [hp] at hpend
      refine adoptCall_settles env h hinfo (mem_of_findCall hp) hat.symm hs.settled fun hm => ?_
      exact hcs (s.row p) (by rw [← hat, ← hpend]; rfl) hm

/-- The call a report is taken for: the one at its place, or else a pending one that it
numbers. -/
def CallTable.taken (info : CallDetailInfo) (t : CallTable) : Option Row :=
  (t.callAt info.index info.accountId).or
    (if 0 < info.index ∧ (t.callAt 0 info.accountId).isSome then t.pending else none)

/-- `DialingHandle`. -/
theorem dialingHandle_settles (env : Env) (h : s.table.Inv) (hinfo : info.IsCarried)
    (hst : info.state = .dialing) (hs : Orderly s)
    (hcs : 0 < info.index → ∀ r, s.table.taken info = some r →
      r.callId ∈ s.csConference.subCallIdSet → info.callType = .cs) :
    Post (dialingHandle env info) s fun _ s' => Orderly s' := by
  refine Post.bind_gets (Post.ite (fun hc => ?_) fun _ => ?_)
  · simp only [updateDialingHandle, Bool.and_eq_true, decide_eq_true_eq, Bool.or_eq_true] at hc
    obtain ⟨hpos, hplace⟩ := hc
    refine updateDialingCallInfo_settles env h hinfo hs fun r hr => hcs hpos r ?_
    rw [← hr, CallTable.taken]
    cases hat : s.table.callAt info.index info.accountId with
    | some r => rfl
    | none =>
      have hnone : getOneCallObjectByIndexSlotIdAndCallType s info.index info.accountId = none :=
        Option.map_eq_none_iff.mp ((callAt_eq h _ _).trans hat)
      rw [hnone] at hplace
      have hzero : (s.table.callAt 0 info.accountId).isSome := by
        rw [← callAt_eq h, Option.isSome_map]
        exact hplace.resolve_right (by simp)
      rw [if_pos ⟨hpos, hzero⟩]
  · exact addDialingCall_settles env h hinfo hst hs.settled

/-- What a handler knows of the call it found: either it was at the reported place and nothing
has changed, or it has come there, and is not a member of the CS conference as an IMS call. -/
structure Found (s s' : CallManager) (info : CallDetailInfo) (p : Ref) : Prop where
  listed : p ∈ s'.callObjectPtrList
  fits : s'.table.Fits (s'.row p) info
  known : (s' = s ∧ s.table.callAt info.index info.accountId = some (s.row p)) ∨
    ((s'.call p).callId ∈ s'.csConference.subCallIdSet → info.callType = .cs)

namespace Found

variable {s₁ s₂ : CallManager}

theorem fits_tame (hf : Found s s₁ info p) (ht : Tame s₁ s₂) :
    s₂.table.Fits (s₂.row p) info := by
  rw [ht.toQuiet.table, ht.row]
  exact hf.fits

/-- What holds of a member of the CS conference if it holds where the call was found. -/
theorem member (hf : Found s s₁ info p) (ht : Tame s₁ s₂) {P : Prop}
    (hcs : info.callType = .cs → P)
    (hknown : s₁ = s → s.table.callAt info.index info.accountId = some (s.row p) →
      (s.call p).callId ∈ s.csConference.subCallIdSet → P)
    (hm : (s₂.call p).callId ∈ s₂.csConference.subCallIdSet) : P := by
  have hm₁ := (ht.members _ hm).resolve_left id
  have hid : (s₂.call p).callId = (s₁.call p).callId := congrArg Row.callId (ht.row p)
  rw [hid] at hm₁
  rcases hf.known with ⟨rfl, hat⟩ | hcame
  · exact hknown rfl hat hm₁
  · exact hcs (hcame hm₁)

end Found

theorem reportedCall_settles (env : Env) (h : s.table.Inv) (hinfo : info.IsCarried)
    (hs : Orderly s)
    (hcs : s.table.callAt info.index info.accountId = none → ∀ r, s.table.taken info = some r →
      r.callId ∈ s.csConference.subCallIdSet → info.callType = .cs) :
    Post (reportedCall env info) s fun found s' =>
      s'.table.Inv ∧ Orderly s' ∧ ∀ p, found = some p → Found s s' info p := by
  refine Post.bind_gets ?_
  have hat := callAt_eq h info.index info.accountId
  cases hknown : getOneCallObjectByIndexSlotIdAndCallType s info.index info.accountId with
  | some p =>
    rw [hknown] at hat
    refine Post.pure ⟨h, hs, ?_⟩
    rintro _ ⟨⟩
    exact ⟨mem_of_callAt hknown, h.fits hat.symm, .inl ⟨rfl, hat.symm⟩⟩
  | none =>
    rw [hknown] at hat
    refine Post.bind_gets ?_
    cases getOneCallObjectByIndex s initIndex with
    | none => exact Post.pure ⟨h, hs, by simp⟩
    | some q =>
      refine Post.bind (Post.and (dialingHandle_computes env h (hinfo.withState .dialing) rfl)
        (dialingHandle_settles env h (hinfo.withState .dialing) rfl hs
          fun _ r hr => hcs hat.symm r hr)) ?_
      rintro _ s₁ ⟨⟨hret, -⟩, hs₁⟩
      have ht₁ : s₁.table = (s.table.dialing info).2 := congrArg Prod.snd hret
      have h₁ : s₁.table.Inv := ht₁ ▸ h.dialing hinfo
      refine Post.gets ⟨h₁, hs₁, fun p hp => ?_⟩
      have hrow := callAt_eq h₁ info.index info.accountId
      rw [hp] at hrow
      refine ⟨mem_of_callAt hp, h₁.fits hrow.symm, .inr fun hm => ?_⟩
      -- a member is a CS call, and this one is of the reported type
      obtain ⟨r, hr, hid, htype⟩ := hs₁.settled.members _ id hm
      rw [h₁.eq_of_callId hr (s₁.row_mem_table (mem_of_callAt hp)) hid] at htype
      rw [ht₁] at hrow
      exact (CallTable.dialing_callType h hat.symm hrow.symm).symm.trans htype

/-! ## Active, holding, alerting -/

/-- What the handlers of `HOLDING`, `ALERTING` and `DISCONNECTING` do with their call. -/
theorem moveCall_settles (env : Env) (h : s.table.Inv) (hinfo : info.IsCarried)
    (hp : p ∈ s.callObjectPtrList) (hfit : s.table.Fits (s.row p) info)
    {next : TelCallState} (hn : next.IsEntered) (m : Ref → Prog CallManager Unit)
    [∀ q, Moves Tame (m q)] (hs : Settled s)
    (hcs : (s.call p).callId ∈ s.csConference.subCallIdSet → info.callType = .cs) :
    Post (do
      let p ← refreshCallIfNecessary env p info
      m p
      updateCallState env p next) s fun _ s' => Orderly s' := by
  refine Post.bind (refresh_settles env h hinfo hp hfit hs) fun q s₁ h₁ => ?_
  have hs₁ : Settled s₁ := h₁.whole h hp hs hcs
  refine Post.bind (Post.of_moves (R := Tame) _ _) fun _ s₂ (hq₂ : Tame s₁ s₂) => ?_
  have hholds : s₂.table.Holds (s₂.row q) := by
    rw [hq₂.toQuiet.table, hq₂.row]
    exact h₁.holds
  refine Post.mono (Post.and (announce_post env hn hholds)
    (Post.of_moves (R := Frugal (fun _ => False) fun _ => False) _ s₂)) ?_
  rintro _ s₃ ⟨⟨-, ha⟩, hf⟩
  refine .of_ne_nil ((hs₁.tame hq₂).announced ha hf) ?_
  rw [ha.list, hq₂.list]
  exact h₁.ne_nil h hp

/-- What `HoldingHandle` and `DisconnectingHandle` do. -/
theorem moveKnown_settles (env : Env) (h : s.table.Inv) (hinfo : info.IsCarried)
    {next : TelCallState} (hn : next.IsEntered) (m : Ref → Prog CallManager Unit)
    [∀ q, Moves Tame (m q)] (hs : Orderly s)
    (hcs : ∀ r, s.table.callAt info.index info.accountId = some r →
      r.callId ∈ s.csConference.subCallIdSet → info.callType = .cs) :
    Post (do
      let found ← Prog.gets fun s =>
        getOneCallObjectByIndexSlotIdAndCallType s info.index info.accountId
      match found with
      | none => pure RetCode.errLocalPtrNull
      | some p => do
        let p ← refreshCallIfNecessary env p info
        m p
        updateCallState env p next) s fun _ s' => Orderly s' := by
  refine Post.bind_gets ?_
  have hat := callAt_eq h info.index info.accountId
  cases hknown : getOneCallObjectByIndexSlotIdAndCallType s info.index info.accountId with
  | none => exact Post.pure hs
  | some p =>
    rw [hknown] at hat
    exact moveCall_settles env h hinfo (mem_of_callAt hknown) (h.fits hat.symm) hn m hs.settled
      (hcs (s.row p) hat.symm)

theorem holdingHandle_settles (env : Env) (h : s.table.Inv) (hinfo : info.IsCarried)
    (hs : Orderly s)
    (hcs : ∀ r, s.table.callAt info.index info.accountId = some r →
      r.callId ∈ s.csConference.subCallIdSet → info.callType = .cs) :
    Post (holdingHandle env info) s fun _ s' => Orderly s' :=
  moveKnown_settles env h hinfo (.inl (by decide))
    (fun p => Prog.when (info.mpty = 1) (holdConference env p).ignore) hs hcs

theorem disconnectingHandle_settles (env : Env) (h : s.table.Inv) (hinfo : info.IsCarried)
    (hs : Orderly s)
    (hcs : ∀ r, s.table.callAt info.index info.accountId = some r →
      r.callId ∈ s.csConference.subCallIdSet → info.callType = .cs) :
    Post (disconnectingHandle env info) s fun _ s' => Orderly s' :=
  moveKnown_settles env h hinfo (.inl (by decide)) setOriginalCallTypeForDisconnectState hs hcs

/-- `AlertHandle`; it does not look at a call that is disconnecting. -/
theorem alertHandle_settles (env : Env) (h : s.table.Inv) (hinfo : info.IsCarried)
    (hs : Orderly s)
    (hcs : ∀ r, s.table.taken info = some r →
      r.callState ≠ .disconnecting ∨ s.table.callAt info.index info.accountId = none →
      r.callId ∈ s.csConference.subCallIdSet → info.callType = .cs) :
    Post (alertHandle env info) s fun _ s' => Orderly s' := by
  refine Post.bind (reportedCall_settles env h hinfo hs
    fun hnone r hr => hcs r hr (.inr hnone)) ?_
  rintro found s₁ ⟨h₁, hs₁, hfound⟩
  cases found with
  | none => exact Post.pure hs₁
  | some p =>
    have hp := hfound p rfl
    refine Post.bind (Post.of_moves (R := Tame) _ _) fun _ s₂ (hq₂ : Tame s₁ s₂) => ?_
    have hs₂ : Settled s₂ := hs₁.settled.tame hq₂
    have hp₂ : p ∈ s₂.callObjectPtrList := hq₂.list ▸ hp.listed
    refine Post.bind_gets (Post.ite (fun _ => Post.pure ?_) fun hdis => ?_)
    · exact .of_ne_nil hs₂ (List.ne_nil_of_mem hp₂)
    · refine moveCall_settles env (hq₂.toQuiet.table ▸ h₁) hinfo hp₂ (hp.fits_tame hq₂)
        (.inl (by decide)) (fun _ => pure ()) hs₂ (hp.member hq₂ id ?_)
      rintro rfl hat
      have hstate : (s₂.row p).callState ≠ .disconnecting := hdis
      rw [hq₂.row] at hstate
      exact hcs _ (by rw [CallTable.taken, hat]; rfl) (.inl hstate)

/-- A member of the CS conference is still a CS call after a refresh, if it was not reported as
an IMS call or the refresh failed. -/
theorem RefreshSettled.isCs {q : Ref} (hq : RefreshSettled s s' p q info) (h : s.table.Inv)
    (hp : p ∈ s.callObjectPtrList) (hs : Settled s)
    (hcs : (s.call p).callId ∈ s.csConference.subCallIdSet →
      info.callType = .cs ∨ ¬s.table.Room (s.row p))
    (hm : (s.call p).callId ∈ s'.csConference.subCallIdSet) : (s'.call q).callType = .cs := by
  have hr := s.row_mem_table hp
  have hid : (s'.row q).callId = (s.row p).callId := by
    rw [hq.row]
    exact CallTable.refresh_callId h hr info
  change (s'.row q).callType = .cs
  rcases hq.joined hm with hold | ⟨r, hr', hid', htype⟩
  · obtain ⟨r, hr', hid', htype⟩ := hs.members _ id hold
    rw [h.eq_of_callId hr' hr hid'] at htype
    rw [hq.row]
    by_cases hsame : (s.row p).callType = info.callType
    · exact (CallTable.refresh_own h hr info (.inl hsame)).2.2.trans (hsame.symm.trans htype)
    · have hno : ¬s.table.Room (s.row p) :=
        (hcs hold).resolve_left fun hinfo => hsame (htype.trans hinfo.symm)
      rw [CallTable.refresh_lost h hr hsame hno]
      exact (Row.restyle_callType _ _).trans htype
  · rw [hq.holds.only r hr' (hid'.trans hid.symm)] at htype
    exact htype

/-- A CS call, and a call that is no member, exit the CS conference. -/
theorem exitConference_settles (env : Env) {q : Ref} {c : Int} (hcs : s.csConference.Tidy)
    (hq : s.Proper q) (hid : (s.call q).callId = c)
    (htype : c ∈ s.csConference.subCallIdSet → (s.call q).callType = .cs) :
    Post (exitConference env q) s fun _ s' => Tame s s' ∧ c ∉ s'.csConference.subCallIdSet := by
  refine Post.and (Post.of_moves (R := Tame) _ s) ?_
  by_cases hm : c ∈ s.csConference.subCallIdSet
  · have hims : (s.call q).isIMSCall = false := by
      rw [hq, htype hm]
      rfl
    exact hid ▸ exitConference_leaves env hcs hims
  · refine Post.mono (Post.of_moves (R := Tame) _ s) ?_
    exact fun _ s' ht hm' => hm ((ht.members _ hm').resolve_left id)

/-- `ActiveHandle`; a call that is reported outside a conference leaves it. -/
theorem activeHandle_settles (env : Env) (h : s.table.Inv) (hinfo : info.IsCarried)
    (hs : Orderly s)
    (hcs : ∀ r, s.table.taken info = some r → r.callId ∈ s.csConference.subCallIdSet →
      info.callType = .cs ∨ info.mpty ≠ 1 ∧
        s.table.callAt info.index info.accountId = some r ∧ ¬s.table.Room r) :
    Post (activeHandle env info) s fun _ s' => Orderly s' := by
  refine Post.bind (reportedCall_settles env h hinfo hs fun hnone r hr hm => ?_) ?_
  · rcases hcs r hr hm with hinfo | ⟨-, hat, -⟩
    · exact hinfo
    · rw [hnone] at hat
      cases hat
  rintro found s₁ ⟨h₁, hs₁, hfound⟩
  cases found with
  | none => exact Post.pure hs₁
  | some p =>
    have hp := hfound p rfl
    refine Post.bind (Post.and (Post.of_moves (R := Tame) _ _) (clearPendingState_forgets env p s₁)) ?_
    rintro _ s₂ ⟨hq₂, hforgot⟩
    have hid₂ : (s₂.call p).callId = (s₁.call p).callId := congrArg Row.callId (hq₂.row p)
    have h₂ : s₂.table.Inv := hq₂.toQuiet.table ▸ h₁
    have hs₂ : Settled s₂ := hs₁.settled.tame hq₂
    have hp₂ : p ∈ s₂.callObjectPtrList := hq₂.list ▸ hp.listed
    have hcs₂ : (s₂.call p).callId ∈ s₂.csConference.subCallIdSet →
        info.callType = .cs ∨ info.mpty ≠ 1 ∧ ¬s₂.table.Room (s₂.row p) := by
      refine hp.member hq₂ .inl ?_
      rintro rfl hat hm
      rw [hq₂.toQuiet.table, hq₂.row]
      exact (hcs _ (by rw [CallTable.taken, hat]; rfl) hm).imp id fun hlost => ⟨hlost.1, hlost.2.2⟩
    refine Post.bind (refresh_settles env h₂ hinfo hp₂ (hp.fits_tame hq₂) hs₂) fun q s₃ h₃ => ?_
    set c := (s₂.call p).callId
    have hid₃ : (s₃.call q).callId = c := by
      have hrow := CallTable.refresh_callId h₂ (s₂.row_mem_table hp₂) info
      rw [← h₃.row] at hrow
      exact hrow
    have htype₃ : c ∈ s₃.csConference.subCallIdSet → (s₃.call q).callType = .cs :=
      h₃.isCs h₂ hp₂ hs₂ fun hm => (hcs₂ hm).imp id And.right
    refine Post.bind (Post.of_moves (R := Tame) _ _) fun _ s₄ (hq₄ : Tame s₃ s₄) => ?_
    refine Post.bind_gets (Post.bind (Q := fun _ s₅ => Tame s₄ s₅) ?_ fun _ s₅ hq₅ => ?_)
    · refine Post.when (fun _ => ?_) fun _ => refl_of Tame s₄
      have h₄ : s₄.table.Inv := hq₄.toQuiet.table ▸ h₃.inv
      exact Post.mono (Post.and (setConferenceCall_post env h₄
        fun p hp => mem_of_conferenceCallList hp)
        (Post.of_moves (R := Frugal (fun _ => False) fun _ => False) _ s₄))
        fun _ s₅ hq => ⟨hq.1, hq.2⟩
    have ht₅ : Tame s₃ s₅ := trans_of Tame hq₄ hq₅
    refine Post.bind (Q := fun _ s₆ => Tame s₅ s₆ ∧
      (info.mpty ≠ 1 → c ∉ s₆.csConference.subCallIdSet)) ?_ ?_
    · have hid₅ : (s₅.call q).callId = c := (congrArg Row.callId (ht₅.row q)).trans hid₃
      have htype₅ : c ∈ s₅.csConference.subCallIdSet → (s₅.call q).callType = .cs := fun hm =>
        (congrArg Row.callType (ht₅.row q)).trans (htype₃ ((ht₅.members _ hm).resolve_left id))
      refine Post.when (fun _ => Post.ignore (Post.mono (exitConference_settles env
        (ht₅.cs h₃.settled.cs) (ht₅.proper q h₃.proper) hid₅ htype₅) ?_)) fun hconf => ?_
      · exact fun _ s₆ hout => ⟨hout.1, fun _ => hout.2⟩
      · exact ⟨refl_of Tame s₅, fun hmpty => absurd (fun hc => hmpty hc.1) hconf⟩
    rintro _ s₆ ⟨hq₆, hout⟩
    have ht₆ : Tame s₃ s₆ := trans_of Tame ht₅ hq₆
    have hs₆ : Settled s₆ := by
      by_cases hsafe : c ∈ s₂.csConference.subCallIdSet → info.callType = .cs
      · exact (h₃.whole h₂ hp₂ hs₂ hsafe).tame ht₆
      · -- the refresh failed, and the call has left the conference
        obtain ⟨hm, hims⟩ := Classical.not_imp.mp hsafe
        obtain ⟨hmpty, -⟩ := (hcs₂ hm).resolve_left hims
        refine (h₃.settled.tame ht₆).left (fun ha => ?_) (hout hmpty)
        have ha₂ := h₃.awaits _ ((ht₆.awaits _ ha).resolve_left id)
        exact hforgot (hid₂ ▸ ha₂)
    have hholds : s₆.table.Holds (s₆.row q) := by
      rw [ht₆.toQuiet.table, ht₆.row]
      exact h₃.holds
    refine Post.bind (Post.and (announce_post env (.inl (by decide)) hholds)
      (Post.of_moves (R := Frugal (fun _ => False) fun _ => False) _ s₆)) ?_
    rintro _ s₇ ⟨⟨rfl, ha⟩, hf⟩
    rw [if_neg (by decide)]
    have hne₇ : s₇.callObjectPtrList ≠ [] := by
      rw [ha.list, ht₆.list]
      exact h₃.ne_nil h₂ hp₂
    have hswitch : ∀ h, Moves Tame (modifyCall h fun c => { c with canSwitchCallState := true }) :=
      fun h => tame_modifyCall fun _ => ⟨rfl, rfl⟩
    refine Post.bind_gets (Post.bind (Post.of_moves (R := Tame) _ _)
      fun _ s₈ (hq₈ : Tame s₇ s₈) => Post.pure ?_)
    exact .of_ne_nil ((hs₆.announced ha hf).tame hq₈) (hq₈.list ▸ hne₇)

/-! ## Calls that end -/

/-- Nothing of the tones and the call audio changes. -/
def SameAudio (s s' : CallManager) : Prop := s'.audio = s.audio

instance : Std.Refl SameAudio := ⟨fun _ => rfl⟩

instance : IsTrans CallManager SameAudio := ⟨fun _ _ _ h h' => Eq.trans h' h⟩

instance : Moves SameAudio (unHoldCall env p) := ⟨fun _ => rfl⟩

instance (callId : Int) : Moves SameAudio (deleteOneCallObject callId) := ⟨fun _ => rfl⟩

instance (callIdList : List Int) (previousState : CallRunningState) (priorState : TelCallState) :
    Moves SameAudio
      (handleHoldCallOrAutoAnswerCall env p callIdList previousState priorState) := by
  have hget (p : Ref) : Moves SameAudio (getCall p) := ⟨fun _ => rfl⟩
  unfold handleHoldCallOrAutoAnswerCall
  infer_instance

instance (callIdList : List Int) (previousState : CallRunningState) (priorState : TelCallState) :
    Moves (Frugal (fun _ => False) fun _ => False)
      (handleHoldCallOrAutoAnswerCall env p callIdList previousState priorState) := by
  unfold handleHoldCallOrAutoAnswerCall
  infer_instance

/-- Once a call is disconnected, there is another one or nothing is heard any more. -/
theorem updateCallState_disconnected (env : Env) (q : Ref) (s : CallManager) :
    Post (updateCallState env q .disconnected) s fun _ s' =>
      hasCellularCallExist s' = true ∨ s'.audio = {} := by
  refine Post.bind_gets (Post.bind (setTelCallState_post env q _ s) ?_)
  rintro ret s₁ ⟨hret, -⟩
  refine Post.bind (Q := fun _ _ => True) trivial fun _ s₂ _ => ?_
  refine Post.ite (fun hbad => absurd hret (not_or.mpr hbad)) fun _ => ?_
  refine Post.bind (Q := fun _ s₃ => hasCellularCallExist s₃ = true ∨ s₃.audio = {}) ?_
    fun _ s₃ h₃ => Post.pure h₃
  refine Post.bind_gets (Post.bind_modify ?_)
  refine Post.bind (Q := fun _ _ => True) trivial fun _ s₃ _ => ?_
  refine Post.bind (Q := fun _ _ => True) trivial fun _ s₄ _ => ?_
  refine Post.bind_gets (Post.when (fun _ => .inr ?_) fun hbusy => .inl (by simpa using hbusy))
  rfl

/-- Without calls there is no conference with just one left. -/
theorem leftOneConferenceCall_empty (hempty : s.callObjectPtrList = []) (slotId : Int) :
    leftOneConferenceCall (getConferenceCallList s slotId) = none := by
  have hnone : getConferenceCallList s slotId = [] := by
    refine List.eq_nil_iff_forall_not_mem.mpr fun p hp => ?_
    have hmem := mem_of_conferenceCallList hp
    rw [hempty] at hmem
    cases hmem
  rw [hnone]
  rfl

/-- A call that is removed leaves another one, if one is heard of. -/
theorem silent_of_removed {q : Ref} (ha : Announced s s' q .disconnected)
    (honly : s.table.Only (s.row q)) (hheard : hasCellularCallExist s' = true ∨ s'.audio = {})
    (ht : s''.table = s'.table.remove (s'.row q).callId) (haudio : s''.audio = s'.audio) :
    s''.Silent := by
  intro hempty
  rcases hheard with hbusy | hquiet
  · obtain ⟨p, hp, hlive⟩ := List.any_eq_true.mp hbusy
    have hne : (s'.row p).callId ≠ (s'.row q).callId := by
      intro hid
      have honly' := honly.update (f := Row.setState .disconnected) fun _ => rfl
      have hmem : s'.row p ∈ (s.table.update (s.row q).callId (Row.setState .disconnected)).rows := by
        have hmem := s'.row_mem_table hp
        rw [ha.table] at hmem
        exact hmem
      have heq := honly' _ hmem (hid.trans (congrArg Row.callId ha.row))
      have hstate : (s'.call p).callState = .disconnected := congrArg Row.callState heq
      simp [hstate] at hlive
    have hmem := CallTable.mem_remove_of_ne (s'.row_mem_table hp) hne
    rw [← ht, CallManager.table, hempty] at hmem
    cases hmem
  · rw [haudio, hquiet]

/-- `DisconnectedHandle` once the call is known: nothing is noted about it any more. -/
theorem disconnectCall_settles (env : Env) (h : s.table.Inv) (hinfo : info.IsCarried)
    (hp : p ∈ s.callObjectPtrList) (hfit : s.table.Fits (s.row p) info) (hs : Settled s)
    (hcs : (s.call p).callId ∈ s.csConference.subCallIdSet →
      info.callType = .cs ∨ ¬s.table.Room (s.row p)) :
    Post (disconnectCall env p info) s fun _ s' => Orderly s' ∧
      ∀ c ∈ s'.csConference.subCallIdSet, c ∈ s.csConference.subCallIdSet := by
  refine Post.bind (refresh_settles env h hinfo hp hfit hs) fun q s₁ h₁ => ?_
  set c := (s.call p).callId
  have hid₁ : (s₁.row q).callId = c := by
    rw [h₁.row]
    exact CallTable.refresh_callId h (s.row_mem_table hp) info
  refine Post.bind (Post.of_moves (R := Tame) _ _) fun _ s₂ (hq₂ : Tame s₁ s₂) => ?_
  refine Post.bind (Post.and (Post.of_moves (R := Tame) _ _) (clearPendingState_forgets env q s₂)) ?_
  rintro _ s₃ ⟨hq₃, hforgot⟩
  have hid₂ : (s₂.call q).callId = c := (congrArg Row.callId (hq₂.row q)).trans hid₁
  rw [hid₂] at hforgot
  refine Post.bind (Post.of_moves (R := Tame) _ _) fun _ s₄ (hq₄ : Tame s₃ s₄) => ?_
  refine Post.bind (Post.of_moves (R := Tame) _ _) fun _ s₅ (hq₅ : Tame s₄ s₅) => ?_
  refine Post.bind_gets ?_
  have ht₃ : Tame s₁ s₃ := trans_of Tame hq₂ hq₃
  have ht₃₅ : Tame s₃ s₅ := trans_of Tame hq₄ hq₅
  have ht₅ : Tame s₁ s₅ := trans_of Tame ht₃ ht₃₅
  -- the call exits the conference it is a member of
  have htype₅ : c ∈ s₅.csConference.subCallIdSet → (s₅.call q).callType = .cs := fun hm =>
    (congrArg Row.callType (ht₅.row q)).trans
      (h₁.isCs h hp hs hcs ((ht₅.members _ hm).resolve_left id))
  refine Post.bind (exitConference_settles env (ht₅.cs h₁.settled.cs) (ht₅.proper q h₁.proper)
    ((congrArg Row.callId (ht₅.row q)).trans hid₁) htype₅) ?_
  rintro _ s₆ ⟨hq₆, hout⟩
  refine Post.bind_gets ?_
  have ht₆ : Tame s₁ s₆ := trans_of Tame ht₅ hq₆
  have hs₆ : SettledBut (fun c' => c' = c) s₆ := h₁.settled.tame ht₆
  have hholds : s₆.table.Holds (s₆.row q) := by
    rw [ht₆.toQuiet.table, ht₆.row]
    exact h₁.holds
  refine Post.bind (Post.and (Post.and (announce_post env (.inr rfl) hholds)
    (Post.of_moves (R := Frugal (fun _ => False) fun _ => False) _ s₆))
    (updateCallState_disconnected env q s₆)) ?_
  rintro _ s₇ ⟨⟨⟨-, ha⟩, hf₇⟩, hheard⟩
  refine Post.bind (Post.and (Post.and (handleHoldCallOrAutoAnswerCall_post env s₇ q _ _ _)
    (Post.of_moves (R := Frugal (fun _ => False) fun _ => False) _ s₇))
    (Post.of_moves (R := SameAudio) _ s₇)) ?_
  rintro _ s₈ ⟨⟨⟨ht₈, -⟩, hf₈⟩, haudio⟩
  have hid₇ : (s₇.row q).callId = c := by
    rw [ha.row, ht₆.row]
    exact hid₁
  have hf₆₈ : Frugal (fun _ => False) (fun _ => False) s₆ s₈ := hf₇.trans hf₈
  have hf₃₈ : Frugal (fun _ => False) (fun _ => False) s₃ s₈ :=
    (ht₃₅.toFrugal.trans hq₆.toFrugal).trans hf₆₈
  have hout₈ : c ∉ s₈.csConference.subCallIdSet := fun hm =>
    hout ((hf₆₈.members _ hm).resolve_left id)
  have hs₈ : Settled s₈ := by
    have hleaving : SettledBut (fun c' => c' = c) s₈ := by
      refine (hs₆.announced ha hf₇).step hf₈ (fun _ hc => hc) ?_ (fun _ _ hc => hc.elim)
        fun _ _ hc => hc.elim
      rw [ht₈, hid₇]
      exact CallTable.keeps_remove
    exact hleaving.left (fun hawaits => hforgot ((hf₃₈.awaits _ hawaits).resolve_left id)) hout₈
  have hsilent₈ : s₈.Silent := silent_of_removed ha hholds.toOnly hheard ht₈ haudio
  have ht₈' : s₈.table = s.table.disconnect info (s.row p) := by
    rw [ht₈, ha.table, ha.row, ht₆.toQuiet.table, ht₆.row, h₁.table, h₁.row]
    rfl
  have h₈ : s₈.table.Inv := ht₈' ▸ h.disconnect hinfo (s.row_mem_table hp) hfit
  -- the call that is left of a conference is told so, if there is one
  refine Post.bind_gets (Post.bind (Q := fun _ s₉ => Tame s₈ s₉ ∧
    (s₈.callObjectPtrList = [] → s₉ = s₈)) ⟨⟨?_, Moves.rel s₈⟩, fun hempty => ?_⟩ ?_)
  · exact leftOneConferenceCall_post env h₈ fun p hp => mem_of_conferenceCallList hp
  · rw [leftOneConferenceCall_empty hempty]
    rfl
  rintro _ s₉ ⟨ht₉, hsame⟩
  refine Post.pure ⟨⟨hs₈.tame ht₉, fun hempty => ?_⟩, fun c' hm => ?_⟩
  · have hempty₈ : s₈.callObjectPtrList = [] := ht₉.list ▸ hempty
    rw [hsame hempty₈]
    exact hsilent₈ hempty₈
  · have hm₈ := (ht₉.members _ hm).resolve_left id
    have hne : c' ≠ c := fun heq => hout₈ (heq ▸ hm₈)
    have hm₁ := (((ht₆.toFrugal.trans hf₆₈).members _ hm₈).resolve_left id)
    exact h₁.others c' hne hm₁

/-- `DisconnectedHandle`. -/
theorem disconnectedHandle_settles (env : Env) (h : s.table.Inv) (hinfo : info.IsCarried)
    (hs : Orderly s)
    (hcs : ∀ r, s.table.taken info = some r → r.callId ∈ s.csConference.subCallIdSet →
      info.callType = .cs ∨
        s.table.callAt info.index info.accountId = some r ∧ ¬s.table.Room r) :
    Post (disconnectedHandle env info) s fun _ s' => Orderly s' := by
  refine Post.bind (reportedCall_settles env h hinfo hs fun hnone r hr hm => ?_) ?_
  · refine (hcs r hr hm).resolve_right fun hlost => ?_
    rw [hnone] at hlost
    cases hlost.1
  rintro found s₁ ⟨h₁, hs₁, hfound⟩
  cases found with
  | none => exact Post.pure hs₁
  | some p =>
    have hp := hfound p rfl
    refine Post.mono (disconnectCall_settles env h₁ hinfo hp.listed hp.fits hs₁.settled
      (hp.member (refl_of Tame s₁) .inl ?_)) fun _ s' hs' => hs'.1
    rintro rfl hat hm
    exact (hcs _ (by rw [CallTable.taken, hat]; rfl) hm).imp id And.right

/-- A call at the reported place is the one that is disconnected. -/
theorem disconnectedHandle_known (env : Env) {q : Ref}
    (hq : getOneCallObjectByIndexSlotIdAndCallType s info.index info.accountId = some q) :
    disconnectedHandle env info s = disconnectCall env q info s := by
  simp [disconnectedHandle, reportedCall, hq]

/-- `DealFailDial`, for a call of the table; the call that is found at its place may be another
one, of another type. -/
theorem dealFailDial_settles (env : Env) (h : s.table.Inv) (hp : p ∈ s.callObjectPtrList)
    (hs : Orderly s)
    (hcs : ∀ r, s.table.callAt (s.call p).index (s.call p).slotId = some r →
      r.callId ∈ s.csConference.subCallIdSet → (s.call p).callType = .cs ∨ ¬s.table.Room r) :
    Post (dealFailDial env p) s fun _ s' => Orderly s' ∧
      ∀ c ∈ s'.csConference.subCallIdSet, c ∈ s.csConference.subCallIdSet := by
  have hrow := s.row_mem_table hp
  refine Post.bind_gets (Post.ite (fun _ => Post.pure ⟨hs, fun _ hc => hc⟩) fun _ => ?_)
  have hsome : (s.table.callAt (s.call p).index (s.call p).slotId).isSome :=
    CallTable.callAt_isSome.mpr ⟨s.row p, hrow, rfl, rfl⟩
  have hat := callAt_eq h (s.call p).index (s.call p).slotId
  cases hq : getOneCallObjectByIndexSlotIdAndCallType s (s.call p).index (s.call p).slotId with
  | none =>
    rw [← hat, hq] at hsome
    cases hsome
  | some q =>
    rw [hq] at hat
    exact Post.congr (disconnectedHandle_known env hq) (disconnectCall_settles env h
      (h.disconnectedInfo_isCarried hrow) (mem_of_callAt hq)
      (@CallTable.Inv.fits s.table (s.row q) (s.call p).disconnectedInfo h hat.symm) hs.settled
      (hcs _ hat.symm))

/-! ## Incoming calls -/

/-- The first part of `RefreshOldCall`: a pending dial fails as the call that it is. -/
theorem failPending_settles (env : Env) (h : s.table.Inv) (hs : Orderly s)
    {k : Prog CallManager (RetCode × Bool)} {Q : RetCode × Bool → CallManager → Prop}
    (hk : ∀ s', s'.table = s.table.failPending → Orderly s' →
      (∀ c ∈ s'.csConference.subCallIdSet, c ∈ s.csConference.subCallIdSet) → Post k s' Q) :
    Post (do
      let initCall ← Prog.gets fun s => getOneCallObjectByIndex s initIndex
      Prog.forSome initCall fun p => (dealFailDial env p).ignore
      k) s Q := by
  refine Post.bind_gets ?_
  have hpend := pending_eq h
  cases hp : getOneCallObjectByIndex s initIndex with
  | none =>
    rw [hp] at hpend
    refine hk s ?_ hs fun _ hc => hc
    rw [CallTable.failPending, ← hpend]
    rfl
  | some p =>
    rw [hp] at hpend
    have hmem := mem_of_findCall hp
    have hself : s.table.callAt (s.row p).index (s.row p).slotId = some (s.row p) :=
      CallTable.callAt_of_pending hpend.symm
    refine Post.bind (Q := fun _ s₁ => s₁.table = (s.table.failCall (s.row p)).2 ∧ Orderly s₁ ∧
      ∀ c ∈ s₁.csConference.subCallIdSet, c ∈ s.csConference.subCallIdSet)
      (Post.ignore (Post.mono (Post.and (dealFailDial_computes env h hmem)
        (dealFailDial_settles env h hmem hs fun r hr hm => .inl ?_)) ?_)) ?_
    · obtain rfl : s.row p = r := Option.some.inj (hself.symm.trans hr)
      obtain ⟨r', hr', hid, htype⟩ := hs.settled.members _ id hm
      rw [h.eq_of_callId hr' (s.row_mem_table hmem) hid] at htype
      exact htype
    · exact fun _ s₁ hs₁ => ⟨congrArg Prod.snd hs₁.1.1, hs₁.2⟩
    · rintro _ s₁ ⟨ht₁, hs₁, hsub⟩
      refine hk s₁ ?_ hs₁ hsub
      rw [CallTable.failPending, ← hpend]
      exact ht₁

/-- `RefreshOldCall`. -/
theorem refreshOldCall_settles (env : Env) (h : s.table.Inv) (hinfo : info.IsCarried)
    (hst : info.state.IsLive) (hs : Orderly s)
    (hcs : ∀ r, s.table.failPending.callAt info.index info.accountId = some r →
      r.callId ∈ s.csConference.subCallIdSet → info.callType = .cs) :
    Post (refreshOldCall env info) s fun _ s' => Orderly s' := by
  refine failPending_settles env h hs fun s₁ ht₁ hs₁ hsub => ?_
  have h₁ : s₁.table.Inv := ht₁ ▸ h.failPending
  refine Post.bind_gets ?_
  have hat := callAt_eq h₁ info.index info.accountId
  cases hknown : getOneCallObjectByIndexSlotIdAndCallType s₁ info.index info.accountId with
  | none => exact Post.pure hs₁
  | some p =>
    rw [hknown] at hat
    have hp := mem_of_callAt hknown
    refine Post.bind_gets (Post.ite (fun _ => ?_) fun _ => Post.pure hs₁)
    refine Post.bind (refresh_settles env h₁ hinfo hp (h₁.fits hat.symm) hs₁.settled) ?_
    intro q s₂ h₂
    have hs₂ : Settled s₂ := h₂.whole h₁ hp hs₁.settled fun hm =>
      hcs (s₁.row p) (ht₁ ▸ hat.symm) (hsub _ hm)
    have hne₂ : s₂.callObjectPtrList ≠ [] := h₂.ne_nil h₁ hp
    refine Post.ite (fun _ => ?_) fun _ => Post.pure (.of_ne_nil hs₂ hne₂)
    refine Post.bind (Post.and (announce_post env (.inl hst) h₂.holds)
      (Post.of_moves (R := Frugal (fun _ => False) fun _ => False) _ s₂)) ?_
    rintro _ s₃ ⟨⟨-, ha⟩, hf⟩
    exact Post.pure (.of_ne_nil (hs₂.announced ha hf) (ha.list ▸ hne₂))

instance (next : TelCallState) : Moves (Frugal (fun _ => False) fun _ => False)
    (finalizeIncomingState env p next) := by
  unfold finalizeIncomingState
  infer_instance

/-- The part of `IncomingHandle` about a call that is not in the table yet. -/
theorem addIncomingCall_settles (env : Env) (h : s.table.Inv) (hinfo : info.IsCarried)
    (hst : info.state = .incoming ∨ info.state = .waiting)
    (hnone : s.table.callAt info.index info.accountId = none) (hs : Settled s) :
    Post (do
      let created ← createNewCall env info .incoming
      match created with
      | none => pure RetCode.callErrCallObjectIsNull
      | some p => do
        let ret ← addOneCallObject p
        if ret ≠ .success then do
          let _ ← handleRejectCall env p
          pure ret
        else do
          notifyNewCallCreated p
          finalizeIncomingState env p info.state) s fun _ s' => Orderly s' := by
  refine Post.mono (Post.and (addIncomingCall_computes env h hinfo hst hnone)
    (?_ : Post _ s fun _ s' => Frugal (fun _ => False) (fun _ => False) s s')) ?_
  · refine Post.bind (Post.and (createNewCall_proper env info .incoming s)
      (Post.of_moves (R := Frugal (fun _ => False) fun _ => False) _ s)) ?_
    rintro created s₁ ⟨hproper, hf₁⟩
    cases created with
    | none => exact Post.pure hf₁
    | some p =>
      refine Post.bind (Q := fun _ s₂ => Frugal (fun _ => False) (fun _ => False) s₁ s₂)
        (addOneCallObject_frugal (hproper p rfl).2) fun ret s₂ hf₂ => ?_
      refine Post.mono (Post.of_moves (R := Frugal (fun _ => False) fun _ => False) _ s₂) ?_
      exact fun _ s₃ hf₃ => (hf₁.trans hf₂).trans hf₃
  · rintro ret s' ⟨⟨hret, -⟩, hf⟩
    have ht : s'.table = (s.table.addIncoming info).2 := congrArg Prod.snd hret
    refine .of_ne_nil (hs.step hf (fun _ hc => hc) ?_ (fun _ _ hc => hc.elim)
      fun _ _ hc => hc.elim) fun hempty => ?_
    · rw [ht]
      exact CallTable.keeps_addIncoming info
    · have hrows : s'.table.rows = [] := congrArg (List.map s'.row) hempty
      rw [ht] at hrows
      exact CallTable.addIncoming_ne_nil info hrows

/-- `IncomingHandle`, and `WaitingHandle`. -/
theorem incomingHandle_settles (env : Env) (h : s.table.Inv) (hinfo : info.IsCarried)
    (hst : info.state = .incoming ∨ info.state = .waiting) (hs : Orderly s)
    (hcs : ∀ r, s.table.failPending.callAt info.index info.accountId = some r →
      r.callId ∈ s.csConference.subCallIdSet → info.callType = .cs) :
    Post (incomingHandle env info) s fun _ s' => Orderly s' := by
  have hlive : info.state.IsLive := by rcases hst with hs | hs <;> rw [hs] <;> decide
  refine Post.bind (Post.and (refreshOldCall_post env h hinfo hlive)
    (refreshOldCall_settles env h hinfo hlive hs hcs)) ?_
  rintro ⟨code, old⟩ s₁ ⟨⟨hcode, -, hold⟩, hs₁⟩
  dsimp only at hcode hold ⊢
  subst hcode
  refine Post.ite (fun _ => Post.pure hs₁) fun hnew => ?_
  cases hat : s.table.failPending.callAt info.index info.accountId with
  | some r =>
    rw [hat] at hold
    exact absurd (.inl hold.1) hnew
  | none =>
    rw [hat] at hold
    have h₁ : s₁.table.Inv := hold.2 ▸ h.failPending
    exact addIncomingCall_settles env h₁ hinfo hst (hold.2 ▸ hat) hs₁.settled

/-! ## Reports -/

/-- The call of the table that a report refreshes, if it refreshes one.  A `DIALING` report
without an index adds a call, and an `ALERTING` report leaves a call alone that is
disconnecting. -/
def CallTable.refreshedBy (info : CallDetailInfo) (t : CallTable) : Option Row :=
  match info.state with
  | .active | .disconnected => t.taken info
  | .dialing => if 0 < info.index then t.taken info else none
  | .alerting => (t.taken info).filter fun r =>
      r.callState ≠ .disconnecting || (t.callAt info.index info.accountId).isNone
  | .holding | .disconnecting => t.callAt info.index info.accountId
  | .incoming | .waiting => t.failPending.callAt info.index info.accountId
  | _ => none

/-- The report has its call leave the conference in any case. -/
def CallDetailInfo.leavesConference (info : CallDetailInfo) : Bool :=
  info.state = .disconnected || info.state = .active && info.mpty ≠ 1

/-- A member of the CS conference that the report refreshes is reported as a CS call.  It may be
reported as an IMS call if there is no room for a new object, so that the refresh fails, and the
report has the call leave the conference as the CS call it still is. -/
def KeepsConference (info : CallDetailInfo) (s : CallManager) : Prop :=
  ∀ r, s.table.refreshedBy info = some r → r.callId ∈ s.csConference.subCallIdSet →
    info.callType = .cs ∨ info.leavesConference = true ∧
      s.table.callAt info.index info.accountId = some r ∧ ¬s.table.Room r

instance (info : CallDetailInfo) (s : CallManager) : Decidable (KeepsConference info s) := by
  unfold KeepsConference CallTable.Room
  exact inferInstanceAs (Decidable (∀ r ∈ s.table.refreshedBy info, _))

/-- **Every handler keeps the notes in order**, if the report keeps the conference. -/
theorem handleCallReportInfo_settles (env : Env) (h : s.table.Inv) (hinfo : info.IsCarried)
    (hs : Orderly s) (hkeeps : KeepsConference info s) :
    Post (handleCallReportInfo env info) s fun _ s' => Orderly s' := by
  have hstays (hno : info.leavesConference = false) (r : Row)
      (hr : s.table.refreshedBy info = some r) (hm : r.callId ∈ s.csConference.subCallIdSet) :
      info.callType = .cs := (hkeeps r hr hm).resolve_right fun hlost => by simp [hno] at hlost
  unfold handleCallReportInfo
  unfold CallDetailInfo.leavesConference at hstays
  cases hst : info.state with
  | active =>
    refine activeHandle_settles env h hinfo hs fun r hr hm => ?_
    refine (hkeeps r (by rw [CallTable.refreshedBy, hst]; exact hr) hm).imp id ?_
    rintro ⟨hleaves, hlost⟩
    exact ⟨by simpa [CallDetailInfo.leavesConference, hst] using hleaves, hlost⟩
  | holding =>
    refine holdingHandle_settles env h hinfo hs fun r hr => hstays (by simp [hst]) r ?_
    rw [CallTable.refreshedBy, hst]
    exact hr
  | dialing =>
    refine dialingHandle_settles env h hinfo hst hs fun hpos r hr => hstays (by simp [hst]) r ?_
    rw [CallTable.refreshedBy, hst]
    exact (if_pos hpos).trans hr
  | alerting =>
    refine alertHandle_settles env h hinfo hs fun r hr hdis => hstays (by simp [hst]) r ?_
    rw [CallTable.refreshedBy, hst]
    exact Option.filter_eq_some_iff.mpr ⟨hr, by simpa using hdis⟩
  | incoming =>
    refine incomingHandle_settles env h hinfo (.inl hst) hs fun r hr => hstays (by simp [hst]) r ?_
    rw [CallTable.refreshedBy, hst]
    exact hr
  | waiting =>
    refine incomingHandle_settles env h hinfo (.inr hst) hs fun r hr => hstays (by simp [hst]) r ?_
    rw [CallTable.refreshedBy, hst]
    exact hr
  | disconnected =>
    refine disconnectedHandle_settles env h hinfo hs fun r hr hm => ?_
    refine (hkeeps r (by rw [CallTable.refreshedBy, hst]; exact hr) hm).imp id And.right
  | disconnecting =>
    refine disconnectingHandle_settles env h hinfo hs fun r hr => hstays (by simp [hst]) r ?_
    rw [CallTable.refreshedBy, hst]
    exact hr
  | unknown | idle | answered => exact Post.pure hs

end CallManagerMini
