import CallManagerMini.Lib.BoundedMap
import CallManagerMini.ServiceEntries

/-! # The dial extras as the code keeps them

`AppExecFwk::PacMap` maps texts to values with a type, and takes no new key once it is full.  An
application hands one over with its dial; the service copies the keys it knows into one of its own
(`BuildDialInfo`), and `DialCall` reads and overwrites these on its way.  The rest of the
development has a record instead (`DialExtras`).  They agree: whatever the application hands over,
the dial on the service's map is the dial on the record (`dial_extras_refine`). -/

namespace CallManagerMini

open Prog (Post)

/-- `MINI_PACMAP_MAX_ENTRIES`. -/
def miniPacmapMaxEntries : Nat := 32

namespace AppExecFwk

/-! ## `PacMap` -/

inductive ValueType where
  | int
  | long
  | boolean
  | string
  deriving DecidableEq, Repr

structure Value where
  type : ValueType := .int
  number : Int64 := 0
  text : Bytes := []
  deriving DecidableEq

abbrev PacMap := BoundedMap Bytes Value miniPacmapMaxEntries

namespace PacMap

/-- `Find`. -/
def find (m : PacMap) (key : Bytes) (type : ValueType) : Option Value :=
  (m.get key).filter fun v => v.type = type

def putIntValue (m : PacMap) (key : Bytes) (value : Int32) : PacMap :=
  m.put key { type := .int, number := value.toInt64 }

def putBooleanValue (m : PacMap) (key : Bytes) (value : Bool) : PacMap :=
  m.put key { type := .boolean, number := if value then 1 else 0 }

def putStringValue (m : PacMap) (key : Bytes) (value : Bytes) : PacMap :=
  m.put key { type := .string, text := value }

def getIntValue (m : PacMap) (key : Bytes) (defaultValue : Int32 := 0) : Int32 :=
  match m.find key .int with
  | none => defaultValue
  | some entry => entry.number.toInt32

def getBooleanValue (m : PacMap) (key : Bytes) (defaultValue : Bool := false) : Bool :=
  match m.find key .boolean with
  | none => defaultValue
  | some entry => entry.number ≠ 0

def getStringValue (m : PacMap) (key : Bytes) (defaultValue : Bytes := []) : Bytes :=
  match m.find key .string with
  | none => defaultValue
  | some entry => entry.text

end PacMap

/-! ## What the service makes of it -/

/-- The keys of the record, as the code spells them. -/
def extraName : ExtraKey → Bytes
  | .accountId => asciiBytes "accountId"
  | .videoState => asciiBytes "videoState"
  | .dialScene => asciiBytes "dialScene"
  | .dialType => asciiBytes "dialType"
  | .callType => asciiBytes "callType"
  | .isRTT => asciiBytes "isRTT"
  | .phoneIndex => asciiBytes "phoneIndex"

def extraParams : Bytes := asciiBytes "extraParams"

def bundleNameKey : Bytes := asciiBytes "bundleName"

def btSlotIdUnknown : Bytes := asciiBytes "btSlotIdUnknown"

/-- An `int` of the map by its key. -/
def PacMap.int (m : PacMap) (key : ExtraKey) : Int := (m.getIntValue (extraName key)).toInt

/-- `PutIntValue` under a key of the record. -/
def PacMap.putInt (m : PacMap) (key : ExtraKey) (n : Int) : PacMap :=
  m.putIntValue (extraName key) (Int32.ofInt n)

/-- `BuildDialInfo`. -/
def buildDialInfo (extras : PacMap) (bundleName : Bytes) : PacMap :=
  let dialInfo : PacMap := .empty
  let dialInfo := dialInfo.putIntValue (extraName .accountId)
    (extras.getIntValue (extraName .accountId))
  let dialInfo := dialInfo.putIntValue (extraName .videoState)
    (extras.getIntValue (extraName .videoState))
  let dialInfo := dialInfo.putIntValue (extraName .dialScene)
    (extras.getIntValue (extraName .dialScene))
  let dialInfo := dialInfo.putIntValue (extraName .dialType)
    (extras.getIntValue (extraName .dialType))
  let dialInfo := dialInfo.putIntValue (extraName .callType)
    (extras.getIntValue (extraName .callType))
  let dialInfo := dialInfo.putBooleanValue (extraName .isRTT)
    (extras.getBooleanValue (extraName .isRTT))
  let dialInfo := dialInfo.putIntValue (extraName .phoneIndex)
    (extras.getIntValue (extraName .phoneIndex))
  let dialInfo := dialInfo.putStringValue extraParams (extras.getStringValue extraParams)
  let dialInfo := dialInfo.putStringValue bundleNameKey bundleName
  dialInfo.putBooleanValue btSlotIdUnknown (extras.getBooleanValue btSlotIdUnknown false)

/-- `SelectAccountIdForCarrier`. -/
def selectAccountIdForCarrier (dialType : DialType) (extras : PacMap) : PacMap :=
  if dialType = .carrier ∧ !isValidSlotId (extras.int .accountId) then extras.putInt .accountId 0
  else extras

/-- `DialPolicy`. -/
def dialPolicy (env : Env) (extras : PacMap) (isEcc : Bool) :
    Prog CallManager (RetCode × PacMap) := do
  let hasEccCall ← Prog.gets hasEmergencyCall
  let dialType := DialType.ofInt (extras.int .dialType)
  if checkDialType dialType ≠ .success then pure (checkDialType dialType, extras)
  else do
    let extras := selectAccountIdForCarrier dialType extras
    let callType := CallType.ofInt (extras.int .callType)
    if validateCallType callType ≠ .success then pure (validateCallType callType, extras)
    else if validateDialScene (extras.int .dialScene) ≠ .success then
      pure (validateDialScene (extras.int .dialScene), extras)
    else if validateVideoState (extras.int .videoState) ≠ .success then
      pure (validateVideoState (extras.int .videoState), extras)
    else if !isEcc && hasEccCall then pure (.callErrCallCountsExceedLimit, extras)
    else do
      let ret ← hasNormalCall env isEcc (extras.int .accountId)
      pure (ret, extras)

/-- `CanDialMulityCall`. -/
def canDialMulityCall (s : CallManager) (extras : PacMap) (isEcc : Bool) : RetCode :=
  if extras.int .videoState = VideoStateType.video.toInt && hasCellularCallExist s
    then .callErrDialIsBusy
  else if !isEcc && extras.int .videoState = VideoStateType.voice.toInt && hasVideoCall s then
    .callErrDialIsBusy
  else .success

/-- `CanDial`. -/
def canDial (env : Env) (extras : PacMap) (isEcc : Bool) : Prog CallManager (RetCode × PacMap) := do
  let policy ← dialPolicy env extras isEcc
  if policy.1 ≠ .success then pure policy
  else do
    let ret ← Prog.gets fun s => canDialMulityCall s policy.2 isEcc
    pure (ret, policy.2)

/-- `IsSupportVideoCall`: the carrier's video flag is never set. -/
def isSupportVideoCall (extras : PacMap) : Bool :=
  let vtEnabled := false
  vtEnabled && extras.int .dialScene = DialScene.normal.toInt

/-- `SetCallTypeExtras`. -/
def setCallTypeExtras (extras : PacMap) : PacMap :=
  let dialType := DialType.ofInt (extras.int .dialType)
  if dialType = .carrier ∨ dialType = .voiceMail then
    let extras :=
      if !isSupportVideoCall extras then extras.putInt .videoState VideoStateType.voice.toInt
      else extras
    if extras.int .videoState = VideoStateType.video.toInt then extras.putInt
      .callType 1 else extras
  else extras

/-! ## The map as a record -/

/-- A value with its type. -/
def Value.toPac (v : Value) : PacValue :=
  match v.type with
  | .int => .int v.number.toInt32.toInt
  | .long => .long v.number.toInt
  | .boolean => .boolean (v.number ≠ 0)
  | .string => .string v.text

/-- What a map holds under the keys of the record. -/
def PacMap.view (m : PacMap) : CallManagerMini.PacMap := fun key =>
    (m.get (extraName key)).map Value.toPac

/-- What the dial reads of a map. -/
def PacMap.record (m : PacMap) : DialExtras := CallManagerMini.buildDialInfo m.view

/-- `PackageDialInformation`. -/
def packageDialInformation (extras : PacMap) (accountNumber : Bytes) (isEcc : Bool) :
    Prog CallManager Unit := Prog.modify fun s =>
  { s with
    dialSrcInfo :=
      { s.dialSrcInfo with
        callId := errId
        number := accountNumber
        isDialing := true
        isEcc := isEcc
        isRTT := extras.getBooleanValue (extraName .isRTT)
        callType := CallType.ofInt (extras.int .callType)
        accountId := extras.int .accountId
        dialType := DialType.ofInt (extras.int .dialType)
        videoState := VideoStateType.ofInt (extras.int .videoState)
        originalCallType := extras.int .videoState
        phoneIndex := extras.int .phoneIndex }
    extras := extras.record }

/-- `CallControlManager::DialCall` once the number is legal. -/
def dialLegalNumber (env : Env) (accountNumber : Bytes) (extras : PacMap) :
    Prog CallManager RetCode := do
  let newPhoneNum := removeSeparatorsPhoneNumber accountNumber
  let isEcc ← ask env (.isEmergencyPhoneNumber newPhoneNum (extras.int .accountId))
  let extras := if isEcc then extras.putInt .dialScene DialScene.emergency.toInt else extras
  let policy ← canDial env extras isEcc
  if policy.1 ≠ .success then pure policy.1
  else do
    let busy ← Prog.gets hasNewCall
    if !isEcc && busy then pure .callErrCallCountsExceedLimit
    else do
      packageDialInformation (setCallTypeExtras policy.2) newPhoneNum isEcc
      dialRequest env

/-- `CallControlManager::DialCall`. -/
def dialCall (env : Env) (number : List UInt16) (extras : PacMap) : Prog CallManager RetCode :=
  match CallManagerMini.numberLegalityCheck (str16ToStr8 number) with
  | .error ret => pure ret
  | .ok accountNumber => dialLegalNumber env accountNumber extras

/-- `CallManagerService::DialCall`, for a caller with this bundle name. -/
def serviceDialCall (env : Env) (caller : Caller) (bundleName : Bytes) (number : List UInt16)
    (extras : PacMap) : Prog CallManager RetCode :=
  if number.length > CallManagerService.accountNumberMaxLength then pure .callErrNumberOutOfRange
  else if !caller.isSystemCaller then pure .errIllegalUseOfSystemApi
  else if !caller.placeCall then pure .errPermissionErr
  else dialCall env number (buildDialInfo extras bundleName)

/-! ## Reading and writing -/

variable {m : PacMap} {key key' : ExtraKey}

theorem extraName_injective : Function.Injective extraName := by
  intro key key' h
  cases key <;> cases key' <;> first | rfl | exact absurd h (by decide)

/-- A map with all the keys of the record takes any of them. -/
def PacMap.Complete (m : PacMap) : Prop := ∀ key, (m.get (extraName key)).isSome

theorem PacMap.Complete.accepts (h : m.Complete) (key : ExtraKey) : m.Accepts (extraName key) :=
  .inl (AList.lookup_isSome.mp (h key))

theorem int_eq (m : PacMap) (key : ExtraKey) : m.int key = m.view.getIntValue key := by
  unfold PacMap.int PacMap.getIntValue PacMap.find CallManagerMini.PacMap.getIntValue PacMap.view
  cases m.get (extraName key) with
  | none => rfl
  | some v => cases htype : v.type <;> simp [Option.filter, Value.toPac, htype]

theorem boolean_eq (m : PacMap) (key : ExtraKey) :
    m.getBooleanValue (extraName key) = m.view.getBooleanValue key := by
  unfold PacMap.getBooleanValue PacMap.find CallManagerMini.PacMap.getBooleanValue PacMap.view
  cases m.get (extraName key) with
  | none => rfl
  | some v => cases htype : v.type <;> simp [Option.filter, Value.toPac, htype]

/-- A number that is written is read again. -/
theorem PacMap.Complete.view_putInt (h : m.Complete) (key : ExtraKey) {n : Int}
    (hn : (Int32.ofInt n).toInt = n) :
    (m.putInt key n).view = Function.update m.view key (some (.int n)) := by
  funext key'
  unfold PacMap.view PacMap.putInt PacMap.putIntValue
  rw [BoundedMap.get_put (h.accepts key)]
  by_cases hk : key' = key
  · subst hk
    rw [Function.update_self, Function.update_self, Option.map_some, Value.toPac]
    simp only [Int32.toInt32_toInt64, hn]
  · rw [Function.update_of_ne hk, Function.update_of_ne fun h => hk (extraName_injective h)]

theorem PacMap.Complete.putInt (h : m.Complete) (key : ExtraKey) (n : Int) :
    (m.putInt key n).Complete := by
  intro key'
  unfold PacMap.putInt PacMap.putIntValue
  rw [BoundedMap.get_put (h.accepts key)]
  by_cases hk : extraName key' = extraName key
  · rw [hk, Function.update_self]
    rfl
  · rw [Function.update_of_ne hk]
    exact h key'

/-! ### The fields of the record -/

section Fields
variable (m : PacMap)

@[simp] theorem record_accountId : m.record.accountId = m.int .accountId := (int_eq m _).symm

@[simp] theorem record_videoState : m.record.videoState = m.int .videoState := (int_eq m _).symm

@[simp] theorem record_dialScene : m.record.dialScene = m.int .dialScene := (int_eq m _).symm

@[simp] theorem record_dialType : m.record.dialType = m.int .dialType := (int_eq m _).symm

@[simp] theorem record_callType : m.record.callType = m.int .callType := (int_eq m _).symm

@[simp] theorem record_phoneIndex : m.record.phoneIndex = m.int .phoneIndex := (int_eq m _).symm

@[simp] theorem record_isRTT : m.record.isRTT = m.getBooleanValue (extraName .isRTT) :=
  (boolean_eq m _).symm

end Fields

/-- What a write does to the record. -/
theorem record_putInt (h : m.Complete) (key : ExtraKey) {n : Int} (hn : (Int32.ofInt n).toInt = n) :
    (m.putInt key n).record =
      CallManagerMini.buildDialInfo (Function.update m.view key (some (.int n))) :=
  congrArg CallManagerMini.buildDialInfo (h.view_putInt key hn)

/-! ## The dial on the map is the dial on the record -/

theorem selectAccountIdForCarrier_record (h : m.Complete) (dialType : DialType) :
    (selectAccountIdForCarrier dialType m).record =
        CallManagerMini.selectAccountIdForCarrier dialType m.record ∧
      (selectAccountIdForCarrier dialType m).Complete := by
  unfold selectAccountIdForCarrier CallManagerMini.selectAccountIdForCarrier
  rw [record_accountId]
  split
  · exact ⟨record_putInt h .accountId (by decide), h.putInt _ _⟩
  · exact ⟨rfl, h⟩

theorem setCallTypeExtras_record (h : m.Complete) :
    (setCallTypeExtras m).record = CallManagerMini.setCallTypeExtras m.record := by
  have hvoice : (m.putInt .videoState VideoStateType.voice.toInt).record =
      { m.record with videoState := VideoStateType.voice.toInt } :=
    record_putInt h .videoState (by decide)
  have hcomplete := h.putInt .videoState VideoStateType.voice.toInt
  have hread : (m.putInt .videoState VideoStateType.voice.toInt).int .videoState =
      VideoStateType.voice.toInt := by rw [← record_videoState, hvoice]
  unfold setCallTypeExtras CallManagerMini.setCallTypeExtras
  refine (apply_ite PacMap.record _ _ _).trans (if_congr (by rw [record_dialType]) ?_ rfl)
  -- video is not supported, so the call is a voice call and its type stays
  show (if (m.putInt .videoState VideoStateType.voice.toInt).int .videoState =
    VideoStateType.video.toInt
    then _ else m.putInt .videoState VideoStateType.voice.toInt).record = _
  rw [hread, if_neg (by decide), hvoice]
  rfl

/-- A check of the dial on the map, and the same check on the record: the code it gives, and what it
hands on, are the same. -/
def Records (p : Prog CallManager (RetCode × PacMap))
    (q : Prog CallManager (RetCode × DialExtras)) :
    Prop :=
  ∀ s, (p s).1.2.Complete ∧ q s = (((p s).1.1, (p s).1.2.record), (p s).2)

section Records
variable {α : Type} {p p' : Prog CallManager (RetCode × PacMap)}
  {q q' : Prog CallManager (RetCode × DialExtras)}

theorem Records.pure (h : m.Complete) (ret : RetCode) :
    Records (Pure.pure (ret, m)) (Pure.pure (ret, m.record)) := fun _ => ⟨h, rfl⟩

theorem Records.ite {c : Prop} [Decidable c] (h : Records p q) (h' : Records p' q') :
    Records (if c then p else p') (if c then q else q') := by
  by_cases hc : c
  · rw [if_pos hc, if_pos hc]
    exact h
  · rw [if_neg hc, if_neg hc]
    exact h'

/-- What both ask first. -/
theorem Records.bind (r : Prog CallManager α) {f : α → Prog CallManager (RetCode × PacMap)}
    {g : α → Prog CallManager (RetCode × DialExtras)} (h : ∀ a, Records (f a) (g a)) :
    Records (r >>= f) (r >>= g) := fun s => h (r s).1 (r s).2

/-- What goes on with the result of a check. -/
theorem Records.andThen {f : RetCode × PacMap → Prog CallManager (RetCode × PacMap)}
    {g : RetCode × DialExtras → Prog CallManager (RetCode × DialExtras)} (h : Records p q)
    (hnext : ∀ ret m, m.Complete → Records (f (ret, m)) (g (ret, m.record))) :
    Records (p >>= f) (q >>= g) := by
  intro s
  obtain ⟨hcomplete, hq⟩ := h s
  rw [Prog.bind_apply, Prog.bind_apply, hq]
  exact hnext _ _ hcomplete _

theorem Records.bind_eq {f : RetCode × PacMap → Prog CallManager α}
    {g : RetCode × DialExtras → Prog CallManager α} (h : Records p q)
    (hnext : ∀ ret m, m.Complete → f (ret, m) = g (ret, m.record)) (s : CallManager) :
    (p >>= f) s = (q >>= g) s := by
  obtain ⟨hcomplete, hq⟩ := h s
  rw [Prog.bind_apply, Prog.bind_apply, hq]
  exact congrFun (hnext _ _ hcomplete) _

/-- What both ask of the modem first. -/
theorem Records.ask_eq {β : Type} {r r' : Prog CallManager β} {f g : β → Prog CallManager α}
    (hr : r = r') (s : CallManager) (h : ∀ a s₁, f a s₁ = g a s₁) : (r >>= f) s = (r' >>= g) s := by
  subst hr
  exact h _ _

end Records

theorem dialPolicy_records (env : Env) (h : m.Complete) (isEcc : Bool) :
    Records (dialPolicy env m isEcc) (CallManagerMini.dialPolicy env m.record isEcc) := by
  obtain ⟨hselect, hcomplete⟩ :=
    selectAccountIdForCarrier_record h (DialType.ofInt (m.int .dialType))
  unfold dialPolicy CallManagerMini.dialPolicy
  simp only [record_dialType, ← hselect, record_accountId, record_callType, record_dialScene,
    record_videoState]
  refine Records.bind _ fun hasEccCall => Records.ite (Records.pure h _) ?_
  refine Records.ite (Records.pure hcomplete _) (Records.ite (Records.pure hcomplete _) ?_)
  refine Records.ite (Records.pure hcomplete _) (Records.ite (Records.pure hcomplete _) ?_)
  exact Records.bind _ fun ret => Records.pure hcomplete ret

theorem canDial_records (env : Env) (h : m.Complete) (isEcc : Bool) :
    Records (canDial env m isEcc) (CallManagerMini.canDial env m.record isEcc) := by
  refine Records.andThen (dialPolicy_records env h isEcc) fun ret m hm => ?_
  refine Records.ite (Records.pure hm ret) ?_
  have hmany (s : CallManager) :
      CallManagerMini.canDialMulityCall s m.record isEcc = canDialMulityCall s m isEcc := by
    unfold canDialMulityCall CallManagerMini.canDialMulityCall
    rw [record_videoState]
  simp only [hmany]
  exact Records.bind _ fun ret => Records.pure hm ret

theorem packageDialInformation_record (m : PacMap) (accountNumber : Bytes) (isEcc : Bool) :
    packageDialInformation m accountNumber isEcc =
      CallControlManager.packageDialInformation m.record accountNumber isEcc := by
  unfold packageDialInformation CallControlManager.packageDialInformation
  simp only [record_isRTT, record_callType, record_accountId, record_dialType, record_videoState,
    record_phoneIndex]

/-- A number the modem calls an emergency marks the extras, in both. -/
theorem markEmergency_record (h : m.Complete) (isEcc : Bool) :
    (if isEcc then m.putInt .dialScene DialScene.emergency.toInt else m).Complete ∧
      (if isEcc then m.putInt .dialScene DialScene.emergency.toInt else m).record =
        if isEcc then { m.record with dialScene := DialScene.emergency.toInt } else m.record := by
  cases isEcc with
  | false => exact ⟨h, rfl⟩
  | true => exact ⟨h.putInt _ _, record_putInt h .dialScene (by decide)⟩

theorem dialLegalNumber_record (env : Env) (h : m.Complete) (accountNumber : Bytes)
    (s : CallManager) : dialLegalNumber env accountNumber m s =
      CallControlManager.dialLegalNumber env accountNumber m.record s := by
  unfold dialLegalNumber CallControlManager.dialLegalNumber
  refine Records.ask_eq (by rw [record_accountId]) s fun isEcc s₁ => ?_
  obtain ⟨hcomplete, hrecord⟩ := markEmergency_record h isEcc
  have hchecked := canDial_records env hcomplete isEcc
  rw [hrecord] at hchecked
  refine hchecked.bind_eq (fun ret m hm => ?_) s₁
  rw [packageDialInformation_record, setCallTypeExtras_record hm]

theorem dialCall_record (env : Env) (h : m.Complete) (number : List UInt16) (s : CallManager) :
    dialCall env number m s = CallControlManager.dialCall env number m.record s := by
  unfold dialCall CallControlManager.dialCall
  cases CallManagerMini.numberLegalityCheck (str16ToStr8 number) with
  | error ret => rfl
  | ok accountNumber => exact dialLegalNumber_record env h accountNumber s

/-! ## The copy -/

/-- What `BuildDialInfo` puts in, in order. -/
def dialInfoEntries (extras : PacMap) (bundleName : Bytes) : List (Bytes × Value) :=
  [(extraName .accountId, { number := (extras.getIntValue (extraName .accountId)).toInt64 }),
    (extraName .videoState, { number := (extras.getIntValue (extraName .videoState)).toInt64 }),
    (extraName .dialScene, { number := (extras.getIntValue (extraName .dialScene)).toInt64 }),
    (extraName .dialType, { number := (extras.getIntValue (extraName .dialType)).toInt64 }),
    (extraName .callType, { number := (extras.getIntValue (extraName .callType)).toInt64 }),
    (extraName .isRTT,
      { type := .boolean, number := if extras.getBooleanValue (extraName .isRTT) then 1 else 0 }),
    (extraName .phoneIndex, { number := (extras.getIntValue (extraName .phoneIndex)).toInt64 }),
    (extraParams, { type := .string, text := extras.getStringValue extraParams }),
    (bundleNameKey, { type := .string, text := bundleName }),
    (btSlotIdUnknown,
      { type := .boolean, number := if extras.getBooleanValue btSlotIdUnknown false then 1 else 0 })]

theorem buildDialInfo_eq (extras : PacMap) (bundleName : Bytes) :
    buildDialInfo extras bundleName = BoundedMap.empty.putAll
      (dialInfoEntries extras bundleName) := by
  simp only [buildDialInfo, dialInfoEntries, BoundedMap.putAll, List.foldl_cons, List.foldl_nil,
    PacMap.putIntValue, PacMap.putBooleanValue, PacMap.putStringValue]

theorem dialInfoEntries_keys (extras : PacMap) (bundleName : Bytes) :
    (dialInfoEntries extras bundleName).map (fun kv => kv.1) =
      [extraName .accountId, extraName .videoState, extraName .dialScene, extraName .dialType,
        extraName .callType, extraName .isRTT, extraName .phoneIndex, extraParams, bundleNameKey,
        btSlotIdUnknown] := rfl

theorem dialInfoEntries_nodup (extras : PacMap) (bundleName : Bytes) :
    ((dialInfoEntries extras bundleName).map fun kv => kv.1).Nodup := by
  rw [dialInfoEntries_keys]
  decide

/-- There is room for all of it, so nothing is dropped, and nothing else is in there. -/
theorem get_buildDialInfo_iff {extras : PacMap} {bundleName key : Bytes} {v : Value} :
    (buildDialInfo extras bundleName).get key = some v ↔
      (key, v) ∈ dialInfoEntries extras bundleName := by
  have hroom : (dialInfoEntries extras bundleName).length ≤ miniPacmapMaxEntries := by
    show 10 ≤ 32
    decide
  rw [buildDialInfo_eq]
  exact BoundedMap.get_putAll_empty_iff (dialInfoEntries_nodup extras bundleName) hroom

/-- A number that is written is read again. -/
theorem getIntValue_of_get {key : Bytes} {n : Int32}
    (h : m.get key = some { number := n.toInt64 }) :
    m.getIntValue key = n := by
  unfold PacMap.getIntValue PacMap.find
  rw [h]
  exact Int32.toInt32_toInt64 n

theorem getBooleanValue_of_get {key : Bytes} {b : Bool}
    (h : m.get key = some { type := .boolean, number := if b then 1 else 0 }) :
    m.getBooleanValue key = b := by
  unfold PacMap.getBooleanValue PacMap.find
  rw [h]
  cases b <;> rfl

theorem buildDialInfo_complete (extras : PacMap) (bundleName : Bytes) :
    (buildDialInfo extras bundleName).Complete := by
  intro key
  have hmem : ∃ v, (extraName key, v) ∈ dialInfoEntries extras bundleName := by
    have hkey : extraName key ∈ (dialInfoEntries extras bundleName).map fun kv => kv.1 := by
      rw [dialInfoEntries_keys]
      cases key <;> simp
    obtain ⟨⟨k, v⟩, hkv, rfl⟩ := List.mem_map.mp hkey
    exact ⟨v, hkv⟩
  obtain ⟨v, hv⟩ := hmem
  rw [get_buildDialInfo_iff.mpr hv]
  rfl

/-- The copy reads as the application's map does. -/
theorem buildDialInfo_record (extras : PacMap) (bundleName : Bytes) :
    (buildDialInfo extras bundleName).record = extras.record := by
  have hint (key : ExtraKey)
      (h : (extraName key, { number := (extras.getIntValue (extraName key)).toInt64 }) ∈
        dialInfoEntries extras bundleName) :
      (buildDialInfo extras bundleName).int key = extras.int key := by
    unfold PacMap.int
    rw [getIntValue_of_get (get_buildDialInfo_iff.mpr h)]
  have hrtt : (buildDialInfo extras bundleName).getBooleanValue (extraName .isRTT) =
      extras.getBooleanValue (extraName .isRTT) :=
    getBooleanValue_of_get (get_buildDialInfo_iff.mpr (by simp [dialInfoEntries]))
  have hfields (m : PacMap) : m.record =
      { accountId := m.int .accountId, videoState := m.int .videoState,
        dialScene := m.int .dialScene, dialType := m.int .dialType, callType := m.int .callType,
        isRTT := m.getBooleanValue (extraName .isRTT), phoneIndex := m.int .phoneIndex } := by
    simp only [← record_accountId, ← record_videoState, ← record_dialScene, ← record_dialType,
      ← record_callType, ← record_isRTT, ← record_phoneIndex]
  rw [hfields, hfields extras, hrtt, hint .accountId (by simp [dialInfoEntries]),
    hint .videoState (by simp [dialInfoEntries]), hint .dialScene (by simp [dialInfoEntries]),
    hint .dialType (by simp [dialInfoEntries]), hint .callType (by simp [dialInfoEntries]),
    hint .phoneIndex (by simp [dialInfoEntries])]

/-- Whatever an application hands over with its dial: the service keeps its own keys and no others,
drops none of them for want of room, and the dial that follows, which reads its map under the keys'
names, checks the types and overwrites values in it, is the dial on the record. -/
theorem dial_extras_refine (env : Env) (caller : Caller) (bundleName : Bytes) (number : List UInt16)
    (extras : PacMap) (s : CallManager) :
    (∀ key v, (buildDialInfo extras bundleName).get key = some v ↔
      (key, v) ∈ dialInfoEntries extras bundleName) ∧
    serviceDialCall env caller bundleName number extras s =
      CallManagerService.dialCall env caller number extras.view s := by
  refine ⟨fun key v => get_buildDialInfo_iff, ?_⟩
  have hdial := dialCall_record env (buildDialInfo_complete extras bundleName) number s
  rw [buildDialInfo_record] at hdial
  unfold serviceDialCall CallManagerService.dialCall
  simp only [Prog.ite_apply', hdial]
  rfl

end AppExecFwk

end CallManagerMini
