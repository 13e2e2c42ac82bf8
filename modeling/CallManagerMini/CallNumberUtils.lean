import Mathlib.Tactic.SplitIfs
import CallManagerMini.Types

/-! # Phone numbers

The conversions a dialed number goes through before the policy sees it:
`Str16ToStr8` of `string_ex.cpp`, the legality check of `CallControlManager`, and
`RemoveSeparatorsPhoneNumber` of `CallNumberUtils`.
-/

namespace CallManagerMini

/-- `AppendUtf8`: the UTF-8 bytes of a code point. -/
def appendUtf8 (cp : Nat) : Bytes :=
  if cp < 0x80 then [UInt8.ofNat cp]
  else if cp < 0x800 then
    [UInt8.ofNat (0xC0 ||| (cp >>> 6)), UInt8.ofNat (0x80 ||| (cp &&& 0x3F))]
  else if cp < 0x10000 then
    [UInt8.ofNat (0xE0 ||| (cp >>> 12)), UInt8.ofNat (0x80 ||| ((cp >>> 6) &&& 0x3F)),
      UInt8.ofNat (0x80 ||| (cp &&& 0x3F))]
  else
    [UInt8.ofNat (0xF0 ||| (cp >>> 18)), UInt8.ofNat (0x80 ||| ((cp >>> 12) &&& 0x3F)),
      UInt8.ofNat (0x80 ||| ((cp >>> 6) &&& 0x3F)), UInt8.ofNat (0x80 ||| (cp &&& 0x3F))]

/-- The loop of `Str16ToStr8`; `none` where the source returns the empty string. -/
def encodeUtf16 : List UInt16 → Option Bytes
  | [] => some []
  | unit :: rest =>
    if 0xD800 ≤ unit.toNat ∧ unit.toNat < 0xDC00 then
      match rest with
      | [] => none
      | low :: rest =>
        if low.toNat < 0xDC00 ∨ 0xDFFF < low.toNat then none
        else
          (encodeUtf16 rest).map
            (appendUtf8 (0x10000 + (((unit.toNat - 0xD800) <<< 10) ||| (low.toNat - 0xDC00))) ++ ·)
    else if 0xDC00 ≤ unit.toNat ∧ unit.toNat ≤ 0xDFFF then none
    else (encodeUtf16 rest).map (appendUtf8 unit.toNat ++ ·)

theorem length_appendUtf8_pos (cp : Nat) : 0 < (appendUtf8 cp).length := by
  unfold appendUtf8
  split_ifs <;> simp

/-- A code point that takes two units takes two bytes and more. -/
theorem length_appendUtf8_supplementary (n : Nat) : 1 < (appendUtf8 (0x10000 + n)).length := by
  unfold appendUtf8
  split_ifs
  · omega
  all_goals simp

/-- The encoding of a number is at least as long as the number. -/
theorem length_le_encodeUtf16 {units : List UInt16} {bytes : Bytes}
    (h : encodeUtf16 units = some bytes) : units.length ≤ bytes.length := by
  fun_induction encodeUtf16 units generalizing bytes with
  | case1 => simp
  | case2 => cases h
  | case3 => cases h
  | case4 unit _ low rest _ ih =>
    obtain ⟨tail, htail, rfl⟩ := Option.map_eq_some_iff.mp h
    have h1 := ih htail
    have h2 := length_appendUtf8_supplementary
      (((unit.toNat - 0xD800) <<< 10) ||| (low.toNat - 0xDC00))
    simp only [List.length_cons, List.length_append]
    omega
  | case5 => cases h
  | case6 unit rest _ _ ih =>
    obtain ⟨tail, htail, rfl⟩ := Option.map_eq_some_iff.mp h
    have h1 := ih htail
    have h2 := length_appendUtf8_pos unit.toNat
    simp only [List.length_cons, List.length_append]
    omega

/-- `Str16ToStr8`. -/
def str16ToStr8 (str16 : List UInt16) : Bytes := (encodeUtf16 str16).getD []

/-- `','`. -/
def comma : UInt8 := 44

/-- `NumberLegalityCheck`: an error, or the number up to its first comma. -/
def numberLegalityCheck (number : Bytes) : Except RetCode Bytes :=
  if number = [] then .error .callErrPhoneNumberEmpty
  else if kMaxNumberLen < number.length then .error .callErrNumberOutOfRange
  else .ok (number.takeWhile (· ≠ comma))

/-- The characters `RemoveSeparatorsPhoneNumber` keeps: `0`-`9`, `*`, `#`, `+`, `N`,
`,` and `;`. -/
def isDialable (c : UInt8) : Bool :=
  (48 ≤ c && c ≤ 57) || c = 42 || c = 35 || c = 43 || c = 78 || c = comma || c = 59

/-- `RemoveSeparatorsPhoneNumber`. -/
def removeSeparatorsPhoneNumber (phoneString : Bytes) : Bytes := phoneString.filter isDialable

theorem removeSeparatorsPhoneNumber_idem (b : Bytes) :
    removeSeparatorsPhoneNumber (removeSeparatorsPhoneNumber b) =
      removeSeparatorsPhoneNumber b := by
  simp [removeSeparatorsPhoneNumber]

/-- A number that passes the check is within the limit of the service. -/
theorem length_le_of_legal {number : List UInt16} {cut : Bytes}
    (h : numberLegalityCheck (str16ToStr8 number) = .ok cut) : number.length ≤ kMaxNumberLen := by
  unfold numberLegalityCheck at h
  split at h
  · cases h
  next hne =>
  split at h
  · cases h
  next hle =>
  unfold str16ToStr8 at hne hle
  cases hb : encodeUtf16 number with
  | none => exact absurd (by rw [hb]; rfl) hne
  | some bytes =>
    rw [hb] at hle
    exact Nat.le_trans (length_le_encodeUtf16 hb) (Nat.le_of_not_lt hle)

/-- A number that passed the check stays within the limit once it is cut and
stripped. -/
theorem length_removeSeparators_le {number cut : Bytes}
    (h : numberLegalityCheck number = .ok cut) :
    (removeSeparatorsPhoneNumber cut).length ≤ kMaxNumberLen := by
  unfold numberLegalityCheck at h
  split at h
  · cases h
  split at h
  · cases h
  · injection h with h
    subst h
    have h1 := List.length_filter_le isDialable (number.takeWhile (· ≠ comma))
    have h2 := (List.takeWhile_prefix (· ≠ comma) (l := number)).length_le
    unfold removeSeparatorsPhoneNumber
    omega

end CallManagerMini
