import CallManagerMini.Lib.CString
import CallManagerMini.Types

/-! # Granted permissions

The permissions that are granted to callers within the image are a string of the build, with a
separator between them.  `ListContains` looks for one of them from segment to segment.  It never
leaves the string, and finds exactly the segments of it (`checkPermission_eq`).
-/

namespace CallManagerMini

/-- `PERMISSION_SEPARATOR`, a semicolon. -/
def permissionSeparator : UInt8 := 59

/-- The comparison of `ListContains`: `stop` is how far away the next separator is, if there is
one. -/
def matchesSegment (item : Bytes) (start : List UInt8) (stop : Option Nat) : Option Bool :=
  match (match stop with
    | none => CString.strlen start
    | some n => some n) with
  | none => none
  | some length =>
    if length = item.length then
      (CString.strncmp length start (item ++ [0])).map fun r => decide (r = 0)
    else some false

/-- The loop of `ListContains` from `start` on; `none` is a read outside of the list. -/
def findPermission (item : Bytes) (start : List UInt8) : Option Bool :=
  match start with
  | [] => none
  | c :: rest =>
    if c = 0 then some false
    else
      match CString.strchr permissionSeparator (c :: rest) with
      | none => none
      | some stop =>
        match matchesSegment item (c :: rest) stop with
        | none => none
        | some true => some true
        | some false =>
          match stop with
          | none => some false
          | some n =>
            match _h : CString.advance (n + 1) (c :: rest) with
            | none => none
            | some next => findPermission item next
termination_by start.length
decreasing_by
  obtain ⟨-, h⟩ := Option.ite_none_right_eq_some.mp _h
  cases h
  simp only [List.drop_succ_cons, List.length_cons, List.length_drop]
  omega

/-- `ListContains`; the list may be a null pointer. -/
def listContains (list : Option (List UInt8)) (item : Bytes) : Option Bool :=
  match list with
  | none => some false
  | some list => if item = [] then some false else findPermission item list

/-- The list of the permissions that are granted. -/
structure GrantedPermissions where
  /-- `granted`, a string or a null pointer. -/
  granted : Option CString

/-- `CheckPermission`. -/
def checkPermission (trust : GrantedPermissions) (permission : Bytes) : Option Bool :=
  listContains (trust.granted.map CString.block) permission

/-- The permissions the call manager asks for. -/
inductive Permission where
  | setTelephonyState
  | getTelephonyState
  | placeCall
  | answerCall
  | manageCallForDevices
  | getCallTransferInfo
  | sendMessages
  deriving DecidableEq, Repr

/-- The bytes of an ASCII text. -/
def asciiBytes (text : String) : Bytes := text.toList.map fun c => UInt8.ofNat c.toNat

/-- `OHOS_PERMISSION_…`. -/
def Permission.name : Permission → Bytes
  | .setTelephonyState => asciiBytes "ohos.permission.SET_TELEPHONY_STATE"
  | .getTelephonyState => asciiBytes "ohos.permission.GET_TELEPHONY_STATE"
  | .placeCall => asciiBytes "ohos.permission.PLACE_CALL"
  | .answerCall => asciiBytes "ohos.permission.ANSWER_CALL"
  | .manageCallForDevices => asciiBytes "ohos.permission.MANAGE_CALL_FOR_DEVICES"
  | .getCallTransferInfo => asciiBytes "ohos.permission.GET_CALL_TRANSFER_INFO"
  | .sendMessages => asciiBytes "ohos.permission.SEND_MESSAGES"

/-- `TrustModel`: what the build says of the callers within the image. -/
structure TrustModel extends GrantedPermissions where
  isSystemApp : Bool
  /-- What `GetCallerBundleName` returns. -/
  bundleName : Bytes

/-- `TelephonyPermission::CheckPermission`. -/
def TrustModel.grants (trust : TrustModel) (permission : Permission) : Bool :=
  checkPermission trust.toGrantedPermissions permission.name = some true

/-- The segments of the list, empty ones included. -/
def GrantedPermissions.segments (trust : GrantedPermissions) : List Bytes :=
  match trust.granted with
  | none => []
  | some list => list.chars.splitOn permissionSeparator

/-! ## What is found -/

variable {item s u v : Bytes}

/-- A segment is compared as a whole. -/
theorem matchesSegment_eq (item : Bytes) (stop : Option Nat) (rest : List UInt8) (hu : 0 ∉ u)
    (hlength : (match stop with
      | none => CString.strlen (u ++ rest)
      | some n => some n) = some u.length) :
    matchesSegment item (u ++ rest) stop = some (decide (u = item)) := by
  unfold matchesSegment
  rw [hlength]
  dsimp only
  by_cases hsame : u.length = item.length
  · obtain ⟨r, hr, hiff⟩ := CString.strncmp_append hu rest item []
    have heq : r = 0 ↔ u = item := hiff.trans
      ⟨fun hpre => hpre.eq_of_length hsame, fun h => h ▸ List.prefix_rfl⟩
    rw [if_pos hsame, hr, Option.map_some]
    exact congrArg some (decide_eq_decide.mpr heq)
  · rw [if_neg hsame, decide_eq_false fun h => hsame (congrArg List.length h)]

/-- A segment that is not the permission is passed over. -/
theorem findPermission_next (hu0 : 0 ∉ u) (hu : permissionSeparator ∉ u) (p : List UInt8) :
    findPermission item (u ++ permissionSeparator :: p) =
      if u = item then some true else findPermission item p := by
  have hstop := CString.strchr_append hu0 hu p
  have hmatch := matchesSegment_eq item (some u.length) (permissionSeparator :: p) hu0 rfl
  have hnext : CString.advance (u.length + 1) (u ++ permissionSeparator :: p) = some p := by
    have := CString.advance_append (u ++ [permissionSeparator]) p
    rwa [List.length_append, List.length_singleton, List.append_assoc] at this
  obtain ⟨c, rest, hcons, hc⟩ : ∃ c rest, u ++ permissionSeparator :: p = c :: rest ∧ c ≠ 0 := by
    cases u with
    | nil => exact ⟨_, _, rfl, by decide⟩
    | cons c u => exact ⟨_, _, rfl, (List.ne_of_not_mem_cons hu0).symm⟩
  rw [hcons] at hstop hmatch hnext ⊢
  rw [findPermission, if_neg hc, hstop]
  dsimp only
  rw [hmatch]
  by_cases hfound : u = item
  · rw [decide_eq_true hfound, if_pos hfound]
  · rw [decide_eq_false hfound, if_neg hfound]
    dsimp only
    split
    · next hnone => rw [hnext] at hnone; cases hnone
    · next next hsome =>
      rw [hnext] at hsome
      cases hsome
      rfl

theorem findPermission_last (hitem : item ≠ []) (hs : 0 ∉ s) (hsep : permissionSeparator ∉ s) :
    findPermission item (s ++ [0]) = some (decide (s = item)) := by
  cases s with
  | nil =>
    rw [List.nil_append, findPermission, if_pos rfl]
    exact congrArg some (decide_eq_false (Ne.symm hitem)).symm
  | cons c rest =>
    have hc : c ≠ 0 := (List.ne_of_not_mem_cons hs).symm
    have hstop := CString.strchr_append_none hs hsep (by decide) []
    have hmatch := matchesSegment_eq item none [0] hs (CString.strlen_append hs [])
    rw [List.cons_append] at hstop hmatch ⊢
    rw [findPermission, if_neg hc, hstop]
    dsimp only
    rw [hmatch]
    by_cases hfound : c :: rest = item
    · rw [decide_eq_true hfound]
    · rw [decide_eq_false hfound]

/-- The loop goes from one segment to the next; the induction is on the rest of the list. -/
theorem findPermission_eq (hitem : item ≠ []) (hs : 0 ∉ s) :
    findPermission item (s ++ [0]) = some (decide (item ∈ s.splitOn permissionSeparator)) := by
  induction hn : s.length using Nat.strongRecOn generalizing s with
  | ind n ih =>
    subst hn
    by_cases hsep : permissionSeparator ∈ s
    · obtain ⟨u, v, rfl, hu⟩ := List.eq_append_cons_of_mem hsep
      have hu0 : 0 ∉ u := fun h => hs (List.mem_append_left _ h)
      have hv0 : 0 ∉ v := fun h => hs (List.mem_append_right _ (List.mem_cons_of_mem _ h))
      have hless : v.length < (u ++ permissionSeparator :: v).length := by
        rw [List.length_append, List.length_cons]
        omega
      rw [List.splitOn_append_cons_self_of_not_mem hu, List.append_assoc, List.cons_append,
        findPermission_next hu0 hu, ih _ hless hv0 rfl]
      by_cases hfound : u = item
      · rw [if_pos hfound, decide_eq_true (hfound ▸ List.mem_cons_self)]
      · rw [if_neg hfound]
        exact congrArg some (decide_eq_decide.mpr (by simp [Ne.symm hfound]))
    · rw [List.splitOn_eq_singleton hsep, findPermission_last hitem hs hsep]
      exact congrArg some (decide_eq_decide.mpr (by simp [eq_comm]))

/-- **The check grants exactly the segments of the list**, and never leaves it. -/
theorem checkPermission_eq (trust : GrantedPermissions) (permission : Bytes) :
    checkPermission trust permission =
      some (decide (permission ≠ [] ∧ permission ∈ trust.segments)) := by
  obtain ⟨granted⟩ := trust
  cases granted with
  | none => simp [checkPermission, listContains, GrantedPermissions.segments]
  | some list =>
    by_cases hempty : permission = []
    · simp [checkPermission, listContains, hempty]
    · refine (if_neg hempty).trans ?_
      rw [CString.block, findPermission_eq hempty list.noZero]
      exact congrArg some (decide_eq_decide.mpr (by simp [hempty, GrantedPermissions.segments]))

/-! ## What is granted -/

/-- The build grants the permission: it is a segment of the list. -/
def TrustModel.Has (trust : TrustModel) (permission : Permission) : Prop :=
  permission.name ∈ trust.segments

theorem Permission.name_ne_nil (permission : Permission) : permission.name ≠ [] := by
  cases permission <;> decide

variable {trust : TrustModel}

/-- The check finds the segments of the list. -/
theorem grants_iff (permission : Permission) :
    trust.grants permission = true ↔ trust.Has permission := by
  obtain ⟨⟨granted⟩, isSystemApp, bundleName⟩ := trust
  unfold TrustModel.grants TrustModel.Has checkPermission GrantedPermissions.segments
  cases granted with
  | none => simp [listContains]
  | some list =>
    have hname := permission.name_ne_nil
    simp only [Option.map_some, listContains, if_neg hname, CString.block,
      findPermission_eq hname list.noZero]
    simp

theorem any_grants_iff {permissions : List Permission} :
    permissions.any trust.grants = true ↔ ∃ permission ∈ permissions, trust.Has permission := by
  simp [grants_iff]

/-- A system application that may set the telephony state. -/
def trustedApp : TrustModel where
  granted := some ⟨Permission.setTelephonyState.name, by decide⟩
  isSystemApp := true
  bundleName := []

end CallManagerMini
