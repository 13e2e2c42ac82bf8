import CallManagerMini.CallNumberUtils
import CallManagerMini.Lib.Unicode

/-! # String conversions

`Str8ToStr16` and `Str16ToStr8`, by which numbers and operator names pass between the bytes of the
modem and the units of the interface.  Each converts what is well-formed to the encoding of the same
characters and the rest to the empty string, so they are inverse to each other on the well-formed
strings (`conversions_codec`).  A read outside of the bytes is `none`; there is none.
-/

namespace CallManagerMini

open Unicode

/-- The loop of `DecodeUtf8` over the bytes behind the first one; `some none` where it returns
false. -/
def decodeNext (str : Bytes) (pos : Nat) : Nat → Nat → Option (Option Nat)
  | 0, cp => some (some cp)
  | extra + 1, cp =>
    match str[pos]? with
    | none => none
    | some next =>
      if next &&& 0xC0 ≠ 0x80 then some none
      else decodeNext str (pos + 1) extra ((cp <<< 6) ||| (next &&& 0x3F).toNat)

/-- What `DecodeUtf8` does when it knows the length from the first byte. -/
def decodeLong (str : Bytes) (pos extra cp minValue : Nat) : Option (Option (Nat × Nat)) :=
  if pos + extra ≥ str.length then some none
  else
    match decodeNext str (pos + 1) extra cp with
    | none => none
    | some none => some none
    | some (some cp) =>
      if cp < minValue ∨ cp > 0x10FFFF ∨ 0xD800 ≤ cp ∧ cp ≤ 0xDFFF then some none
      else some (some (cp, pos + (extra + 1)))

/-- `DecodeUtf8`: the code point and the next position. -/
def decodeUtf8 (str : Bytes) (pos : Nat) : Option (Option (Nat × Nat)) :=
  match str[pos]? with
  | none => none
  | some lead =>
    if lead < 0x80 then some (some (lead.toNat, pos + 1))
    else if lead &&& 0xE0 = 0xC0 then decodeLong str pos 1 (lead &&& 0x1F).toNat 0x80
    else if lead &&& 0xF0 = 0xE0 then decodeLong str pos 2 (lead &&& 0x0F).toNat 0x800
    else if lead &&& 0xF8 = 0xF0 then decodeLong str pos 3 (lead &&& 0x07).toNat 0x10000
    else some none

/-- A code point is skipped when it is read. -/
theorem decodeUtf8_lt {str : Bytes} {pos cp next : Nat}
    (h : decodeUtf8 str pos = some (some (cp, next))) : pos < str.length ∧ pos < next := by
  have hlong : ∀ extra cp' minValue,
      decodeLong str pos extra cp' minValue = some (some (cp, next)) → pos < next := by
    intro extra cp' minValue h
    unfold decodeLong at h
    split at h
    · cases h
    split at h
    · cases h
    · cases h
    split at h
    · cases h
    · cases h
      omega
  unfold decodeUtf8 at h
  split at h
  · cases h
  next lead hlead =>
  refine ⟨(List.getElem?_eq_some_iff.mp hlead).1, ?_⟩
  split at h
  · cases h
    omega
  split at h
  · exact hlong _ _ _ h
  split at h
  · exact hlong _ _ _ h
  split at h
  · exact hlong _ _ _ h
  · cases h

/-- What `Str8ToStr16` appends for a code point. -/
def appendUtf16 (cp : Nat) : List UInt16 :=
  if cp ≥ 0x10000 then
    [UInt16.ofNat (0xD800 + ((cp - 0x10000) >>> 10)),
      UInt16.ofNat (0xDC00 + ((cp - 0x10000) &&& 0x3FF))]
  else [UInt16.ofNat cp]

/-- The loop of `Str8ToStr16`; `some none` where it returns the empty string. -/
def convertUtf8 (str : Bytes) (pos : Nat) : Option (Option (List UInt16)) :=
  if pos < str.length then
    match _hcp : decodeUtf8 str pos with
    | none => none
    | some none => some none
    | some (some (cp, next)) => (convertUtf8 str next).map (Option.map (appendUtf16 cp ++ ·))
  else some (some [])
termination_by str.length - pos
decreasing_by
  have := decodeUtf8_lt _hcp
  omega

/-- `Str8ToStr16`. -/
def str8ToStr16 (str : Bytes) : Option (List UInt16) := (convertUtf8 str 0).map (·.getD [])

/-! ## Bits of a byte -/

theorem byte_cases {p : UInt8 → Prop} (h : ∀ n < 256, p (UInt8.ofNat n)) (b : UInt8) : p b := by
  have := h b.toNat b.toNat_lt
  rwa [UInt8.ofNat_toNat] at this

/-- A byte that is not the first one of a sequence. -/
def IsTail (b : UInt8) : Prop := 0x80 ≤ b.toNat ∧ b.toNat < 0xC0

instance (b : UInt8) : Decidable (IsTail b) := inferInstanceAs (Decidable (_ ∧ _))

theorem isTail_iff : ∀ b : UInt8, b &&& 0xC0 = 0x80 ↔ IsTail b :=
  byte_cases (by decide +kernel)

theorem lead_two_iff : ∀ b : UInt8, b &&& 0xE0 = 0xC0 ↔ 0xC0 ≤ b.toNat ∧ b.toNat < 0xE0 :=
  byte_cases (by decide +kernel)

theorem lead_three_iff : ∀ b : UInt8, b &&& 0xF0 = 0xE0 ↔ 0xE0 ≤ b.toNat ∧ b.toNat < 0xF0 :=
  byte_cases (by decide +kernel)

theorem lead_four_iff : ∀ b : UInt8, b &&& 0xF8 = 0xF0 ↔ 0xF0 ≤ b.toNat ∧ b.toNat < 0xF8 :=
  byte_cases (by decide +kernel)

theorem toNat_low_six : ∀ b : UInt8, (b &&& 0x3F).toNat = b.toNat % 0x40 :=
  byte_cases (by decide +kernel)

theorem toNat_low_five : ∀ b : UInt8, (b &&& 0x1F).toNat = b.toNat % 0x20 :=
  byte_cases (by decide +kernel)

theorem toNat_low_four : ∀ b : UInt8, (b &&& 0x0F).toNat = b.toNat % 0x10 :=
  byte_cases (by decide +kernel)

theorem toNat_low_three : ∀ b : UInt8, (b &&& 0x07).toNat = b.toNat % 0x08 :=
  byte_cases (by decide +kernel)

/-! ## One code point is read -/

/-- The value of a sequence: of the first byte and of those behind it. -/
def tailValue (cp : Nat) (tail : Bytes) : Nat :=
  tail.foldl (fun cp b => cp * 0x40 + b.toNat % 0x40) cp

/-- The value is one of a character, and the sequence is not longer than it has to be. -/
def Accepted (minValue cp : Nat) : Prop :=
  minValue ≤ cp ∧ (cp < 0xD800 ∨ 0xDFFF < cp ∧ cp < 0x110000)

instance (minValue cp : Nat) : Decidable (Accepted minValue cp) :=
  inferInstanceAs (Decidable (_ ∧ _))

variable {c : Char} {lead b₁ b₂ b₃ : UInt8} {pos next extra cp minValue : Nat} {cs : List Char}

theorem getElem?_length_append (before : Bytes) (b : UInt8) (rest : Bytes) :
    (before ++ b :: rest)[before.length]? = some b := by
  rw [List.getElem?_append_right (Nat.le_refl _), Nat.sub_self]
  rfl

theorem decodeNext_eq (before rest : Bytes) (cp : Nat) (h : extra ≤ rest.length) :
    decodeNext (before ++ rest) before.length extra cp =
      some (if (rest.take extra).all (IsTail ·) then some (tailValue cp (rest.take extra))
        else none) := by
  induction extra generalizing before rest cp with
  | zero => simp [decodeNext, tailValue]
  | succ extra ih =>
    cases rest with
    | nil => exact absurd h (by simp)
    | cons b rest =>
      have hrest := ih (before ++ [b]) rest (cp * 0x40 + b.toNat % 0x40)
        (Nat.le_of_succ_le_succ h)
      rw [List.append_assoc, List.singleton_append, List.length_append, List.length_singleton]
        at hrest
      have hvalue : (cp <<< 6) ||| (b &&& 0x3F).toNat = cp * 0x40 + b.toNat % 0x40 := by
        rw [toNat_low_six, ← Nat.shiftLeft_add_eq_or_of_lt (show b.toNat % 0x40 < 2 ^ 6 by omega),
          Nat.shiftLeft_eq]
      rw [decodeNext, getElem?_length_append]
      dsimp only
      rw [hvalue, List.take_succ_cons]
      by_cases hb : IsTail b
      · rw [if_neg (not_not.mpr ((isTail_iff b).mpr hb)), hrest, List.all_cons,
          decide_eq_true hb, Bool.true_and]
        rfl
      · rw [if_pos fun h => hb ((isTail_iff b).mp h), List.all_cons, decide_eq_false hb,
          Bool.false_and]
        rfl

theorem decodeLong_eq (before rest : Bytes) :
    decodeLong (before ++ lead :: rest) before.length extra cp minValue =
      some (if extra ≤ rest.length ∧ (rest.take extra).all (IsTail ·) ∧
          Accepted minValue (tailValue cp (rest.take extra)) then
        some (tailValue cp (rest.take extra), before.length + (extra + 1)) else none) := by
  unfold decodeLong
  have hlength : (before ++ lead :: rest).length = before.length + (rest.length + 1) := by
    rw [List.length_append, List.length_cons]
  by_cases hlen : extra ≤ rest.length
  · have hnext := decodeNext_eq (before ++ [lead]) rest cp hlen
    rw [List.append_assoc, List.singleton_append, List.length_append,
      List.length_singleton] at hnext
    rw [if_neg (by omega), hnext]
    by_cases htail : (rest.take extra).all (IsTail ·)
    · rw [if_pos htail]
      dsimp only
      by_cases hacc : Accepted minValue (tailValue cp (rest.take extra))
      · have hall := And.intro hlen (And.intro htail hacc)
        unfold Accepted at hacc
        rw [if_neg (by omega), if_pos hall]
      · have hall : ¬ (extra ≤ rest.length ∧ (rest.take extra).all (IsTail ·) ∧ _) :=
          fun h => hacc h.2.2
        unfold Accepted at hacc
        rw [if_pos (by omega), if_neg hall]
    · rw [if_neg htail, if_neg fun h => htail h.2.1]
  · rw [if_pos (by omega), if_neg fun h => hlen h.1]

/-! Which bytes encode a character, by their number. -/

theorem utf8_one (hlead : lead.toNat < 0x80) (hc : c.toNat = lead.toNat) :
    String.utf8EncodeChar c = [lead] := by
  rw [utf8EncodeChar_one (by omega), hc, UInt8.ofNat_toNat]

theorem utf8_two (hlead : 0xC0 ≤ lead.toNat ∧ lead.toNat < 0xE0) (h₁ : IsTail b₁)
    (hc : c.toNat = lead.toNat % 0x20 * 0x40 + b₁.toNat % 0x40) (hmin : 0x80 ≤ c.toNat) :
    String.utf8EncodeChar c = [lead, b₁] := by
  unfold IsTail at h₁
  have e₀ : 0xC0 + c.toNat / 0x40 = lead.toNat := by omega
  have e₁ : 0x80 + c.toNat % 0x40 = b₁.toNat := by omega
  rw [utf8EncodeChar_two hmin (by omega), e₀, e₁, UInt8.ofNat_toNat, UInt8.ofNat_toNat]

theorem utf8_three (hlead : 0xE0 ≤ lead.toNat ∧ lead.toNat < 0xF0) (h₁ : IsTail b₁)
    (h₂ : IsTail b₂)
    (hc : c.toNat = (lead.toNat % 0x10 * 0x40 + b₁.toNat % 0x40) * 0x40 + b₂.toNat % 0x40)
    (hmin : 0x800 ≤ c.toNat) : String.utf8EncodeChar c = [lead, b₁, b₂] := by
  unfold IsTail at h₁ h₂
  have e₀ : 0xE0 + c.toNat / 0x1000 = lead.toNat := by omega
  have e₁ : 0x80 + c.toNat / 0x40 % 0x40 = b₁.toNat := by omega
  have e₂ : 0x80 + c.toNat % 0x40 = b₂.toNat := by omega
  rw [utf8EncodeChar_three hmin (by omega), e₀, e₁, e₂, UInt8.ofNat_toNat, UInt8.ofNat_toNat,
    UInt8.ofNat_toNat]

theorem utf8_four (hlead : 0xF0 ≤ lead.toNat ∧ lead.toNat < 0xF8) (h₁ : IsTail b₁)
    (h₂ : IsTail b₂) (h₃ : IsTail b₃)
    (hc : c.toNat = ((lead.toNat % 0x08 * 0x40 + b₁.toNat % 0x40) * 0x40 + b₂.toNat % 0x40) * 0x40
      + b₃.toNat % 0x40) (hmin : 0x10000 ≤ c.toNat) :
    String.utf8EncodeChar c = [lead, b₁, b₂, b₃] := by
  unfold IsTail at h₁ h₂ h₃
  have e₀ : 0xF0 + c.toNat / 0x40000 = lead.toNat := by omega
  have e₁ : 0x80 + c.toNat / 0x1000 % 0x40 = b₁.toNat := by omega
  have e₂ : 0x80 + c.toNat / 0x40 % 0x40 = b₂.toNat := by omega
  have e₃ : 0x80 + c.toNat % 0x40 = b₃.toNat := by omega
  rw [utf8EncodeChar_four hmin, e₀, e₁, e₂, e₃, UInt8.ofNat_toNat, UInt8.ofNat_toNat,
    UInt8.ofNat_toNat, UInt8.ofNat_toNat]

/-- What is read by the first byte alone. -/
theorem decodeUtf8_eq (before rest : Bytes) :
    decodeUtf8 (before ++ lead :: rest) before.length =
      if lead.toNat < 0x80 then some (some (lead.toNat, before.length + 1))
      else if lead.toNat < 0xC0 then some none
      else if lead.toNat < 0xE0 then
        decodeLong (before ++ lead :: rest) before.length 1 (lead.toNat % 0x20) 0x80
      else if lead.toNat < 0xF0 then
        decodeLong (before ++ lead :: rest) before.length 2 (lead.toNat % 0x10) 0x800
      else if lead.toNat < 0xF8 then
        decodeLong (before ++ lead :: rest) before.length 3 (lead.toNat % 0x08) 0x10000
      else some none := by
  have hsmall : lead < 0x80 ↔ lead.toNat < 0x80 := Iff.rfl
  unfold decodeUtf8
  rw [getElem?_length_append]
  simp only [hsmall, lead_two_iff, lead_three_iff, lead_four_iff, toNat_low_five, toNat_low_four,
    toNat_low_three]
  split
  · rfl
  split
  · rw [if_neg (by omega), if_pos (by omega)]
  split
  · rw [if_neg (by omega), if_neg (by omega), if_pos (by omega)]
  split
  · rw [if_neg (by omega), if_neg (by omega), if_neg (by omega), if_pos (by omega)]
  · by_cases hlow : lead.toNat < 0xC0
    · rw [if_pos hlow]
    · rw [if_neg hlow, if_neg (by omega), if_neg (by omega), if_neg (by omega)]

/-- Whatever stands there, it is refused or it begins with a character. -/
theorem decodeUtf8_cases (before : Bytes) (lead : UInt8) (rest : Bytes) :
    decodeUtf8 (before ++ lead :: rest) before.length = some none ∨
      ∃ c after, lead :: rest = String.utf8EncodeChar c ++ after := by
  have hlong : ∀ extra cp minValue,
      decodeLong (before ++ lead :: rest) before.length extra cp minValue = some none ∨
        ∃ tail after, rest = tail ++ after ∧ tail.length = extra ∧ (∀ b ∈ tail, IsTail b) ∧
          minValue ≤ tailValue cp tail ∧ ∃ c : Char, c.toNat = tailValue cp tail := by
    intro extra cp minValue
    rw [decodeLong_eq]
    split
    · next h =>
      obtain ⟨hlen, htail, hmin, hrange⟩ := h
      exact .inr ⟨_, _, (List.take_append_drop extra rest).symm, List.length_take_of_le hlen,
        by simpa using htail, hmin, exists_char hrange⟩
    · exact .inl rfl
  rw [decodeUtf8_eq]
  split
  · next hlead =>
    obtain ⟨c, hc⟩ := exists_char (n := lead.toNat) (.inl (by omega))
    exact .inr ⟨c, rest, by rw [utf8_one hlead hc, List.singleton_append]⟩
  split
  · exact .inl rfl
  split
  · next hlo hhi =>
    refine (hlong _ _ _).imp id ?_
    rintro ⟨tail, after, rfl, hlen, htail, hmin, c, hc⟩
    obtain ⟨b₁, rfl⟩ := List.length_eq_one_iff.mp hlen
    simp only [List.forall_mem_cons] at htail
    refine ⟨c, after, ?_⟩
    rw [utf8_two ⟨Nat.le_of_not_lt hlo, hhi⟩ htail.1 hc (hc ▸ hmin)]
    rfl
  split
  · next hlo hhi =>
    refine (hlong _ _ _).imp id ?_
    rintro ⟨tail, after, rfl, hlen, htail, hmin, c, hc⟩
    obtain ⟨b₁, b₂, rfl⟩ := List.length_eq_two.mp hlen
    simp only [List.forall_mem_cons] at htail
    refine ⟨c, after, ?_⟩
    rw [utf8_three ⟨Nat.le_of_not_lt hlo, hhi⟩ htail.1 htail.2.1 hc (hc ▸ hmin)]
    rfl
  split
  · next hlo hhi =>
    refine (hlong _ _ _).imp id ?_
    rintro ⟨tail, after, rfl, hlen, htail, hmin, c, hc⟩
    obtain ⟨b₁, b₂, b₃, rfl⟩ := List.length_eq_three.mp hlen
    simp only [List.forall_mem_cons] at htail
    refine ⟨c, after, ?_⟩
    rw [utf8_four ⟨Nat.le_of_not_lt hlo, hhi⟩ htail.1 htail.2.1 htail.2.2.1 hc (hc ▸ hmin)]
    rfl
  · exact .inl rfl

theorem decodeLong_encoded (before tail after : Bytes) (htail : ∀ b ∈ tail, IsTail b)
    (hc : tailValue cp tail = c.toNat) (hmin : minValue ≤ c.toNat) :
    decodeLong (before ++ lead :: (tail ++ after)) before.length tail.length cp minValue =
      some (some (c.toNat, before.length + (tail.length + 1))) := by
  have htake : (tail ++ after).take tail.length = tail := List.take_left
  rw [decodeLong_eq, htake, hc, if_pos ⟨by simp, by simpa using htail, hmin, toNat_range c⟩]

/-- An encoded character is read. -/
theorem decodeUtf8_encoded (before : Bytes) (c : Char) (after : Bytes) :
    decodeUtf8 (before ++ (String.utf8EncodeChar c ++ after)) before.length =
      some (some (c.toNat, before.length + (String.utf8EncodeChar c).length)) := by
  have hrange := toNat_range c
  have hbyte : ∀ n < 256, (UInt8.ofNat n).toNat = n := fun n h => UInt8.toNat_ofNat_of_lt' h
  have htail : ∀ n, IsTail (UInt8.ofNat (0x80 + n % 0x40)) := by
    intro n
    unfold IsTail
    rw [hbyte _ (by omega)]
    omega
  have hvalue : ∀ n, (UInt8.ofNat (0x80 + n % 0x40)).toNat % 0x40 = n % 0x40 := by
    intro n
    rw [hbyte _ (by omega)]
    omega
  by_cases h1 : c.toNat < 0x80
  · rw [utf8EncodeChar_one h1, List.singleton_append, decodeUtf8_eq, hbyte _ (by omega),
      if_pos h1]
    rfl
  by_cases h2 : c.toNat < 0x800
  · rw [utf8EncodeChar_two (by omega) h2, List.cons_append, decodeUtf8_eq, hbyte _ (by omega),
      if_neg (by omega), if_neg (by omega), if_pos (by omega)]
    refine decodeLong_encoded before [_] after ?_ ?_ (by omega)
    · simp only [List.forall_mem_cons, htail, true_and]
      exact List.forall_mem_nil _
    · simp only [tailValue, List.foldl_cons, List.foldl_nil, hvalue]
      omega
  by_cases h3 : c.toNat < 0x10000
  · rw [utf8EncodeChar_three (by omega) h3, List.cons_append, decodeUtf8_eq, hbyte _ (by omega),
      if_neg (by omega), if_neg (by omega), if_neg (by omega), if_pos (by omega)]
    refine decodeLong_encoded before [_, _] after ?_ ?_ (by omega)
    · simp only [List.forall_mem_cons, htail, true_and]
      exact List.forall_mem_nil _
    · simp only [tailValue, List.foldl_cons, List.foldl_nil, hvalue]
      omega
  · rw [utf8EncodeChar_four (by omega), List.cons_append, decodeUtf8_eq, hbyte _ (by omega),
      if_neg (by omega), if_neg (by omega), if_neg (by omega), if_neg (by omega),
      if_pos (by omega)]
    refine decodeLong_encoded before [_, _, _] after ?_ ?_ (by omega)
    · simp only [List.forall_mem_cons, htail, true_and]
      exact List.forall_mem_nil _
    · simp only [tailValue, List.foldl_cons, List.foldl_nil, hvalue]
      omega

/-! ## From UTF-8 to UTF-16 -/

theorem decodeUtf8_front (c : Char) (after : Bytes) :
    decodeUtf8 (String.utf8EncodeChar c ++ after) 0 =
      some (some (c.toNat, (String.utf8EncodeChar c).length)) := by
  have h := decodeUtf8_encoded [] c after
  rwa [List.length_nil, Nat.zero_add] at h

/-- The first character of a string is told by its bytes. -/
theorem isUtf8_append_iff (c : Char) (after : Bytes) :
    IsUtf8 (String.utf8EncodeChar c ++ after) ↔ IsUtf8 after := by
  constructor
  · rintro ⟨cs, hcs⟩
    cases cs with
    | nil => exact absurd (List.append_eq_nil_iff.mp hcs.symm).1 String.utf8EncodeChar_ne_nil
    | cons c' cs =>
      have hcs : String.utf8EncodeChar c' ++ utf8 cs = String.utf8EncodeChar c ++ after := hcs
      have hread := decodeUtf8_front c' (utf8 cs)
      rw [hcs, decodeUtf8_front, Option.some.injEq, Option.some.injEq, Prod.mk.injEq] at hread
      obtain rfl : c = c' := Char.toNat_inj.mp hread.1
      exact ⟨cs, List.append_cancel_left hcs⟩
  · rintro ⟨cs, rfl⟩
    exact ⟨c :: cs, rfl⟩

theorem appendUtf16_toNat (c : Char) : appendUtf16 c.toNat = utf16Char c := by
  unfold appendUtf16 utf16Char
  by_cases h : c.toNat < 0x10000
  · rw [if_neg (Nat.not_le_of_lt h), if_pos h]
  · rw [if_pos (Nat.le_of_not_lt h), if_neg h, Nat.shiftRight_eq_div_pow,
      Nat.and_two_pow_sub_one_eq_mod _ 10]

/-- One round of the loop. -/
theorem convertUtf8_encoded (before : Bytes) (c : Char) (after : Bytes) :
    convertUtf8 (before ++ (String.utf8EncodeChar c ++ after)) before.length =
      (convertUtf8 (before ++ String.utf8EncodeChar c ++ after)
        (before ++ String.utf8EncodeChar c).length).map (Option.map (utf16Char c ++ ·)) := by
  have hpos := List.length_pos_iff.mpr (String.utf8EncodeChar_ne_nil (c := c))
  rw [convertUtf8, if_pos (by simp only [List.length_append]; omega)]
  split
  · next hnone =>
    rw [decodeUtf8_encoded] at hnone
    cases hnone
  · next hnone =>
    rw [decodeUtf8_encoded] at hnone
    cases hnone
  · next hsome =>
    rw [decodeUtf8_encoded] at hsome
    cases hsome
    rw [appendUtf16_toNat, List.append_assoc, List.length_append]

/-- The loop on well-formed bytes, wherever they begin. -/
theorem convertUtf8_utf8 (before : Bytes) (cs : List Char) :
    convertUtf8 (before ++ utf8 cs) before.length = some (some (utf16 cs)) := by
  induction cs generalizing before with
  | nil =>
    rw [convertUtf8, utf8, List.flatMap_nil, List.append_nil, if_neg (Nat.lt_irrefl _)]
    rfl
  | cons c cs ih =>
    have hrest := ih (before ++ String.utf8EncodeChar c)
    rw [utf8, List.flatMap_cons, ← utf8, convertUtf8_encoded, hrest]
    rfl

/-- The loop on other bytes; the induction is on how many there are. -/
theorem convertUtf8_illFormed (before rest : Bytes) (hill : ¬ IsUtf8 rest) :
    convertUtf8 (before ++ rest) before.length = some none := by
  induction hn : rest.length using Nat.strongRecOn generalizing before rest with
  | ind n ih =>
    subst hn
    cases rest with
    | nil => exact absurd ⟨[], rfl⟩ hill
    | cons lead rest =>
      obtain hrefused | ⟨c, after, hc⟩ := decodeUtf8_cases before lead rest
      · rw [convertUtf8, if_pos (by simp)]
        split
        · next h =>
          rw [hrefused] at h
          cases h
        · rfl
        · next h =>
          rw [hrefused] at h
          cases h
      · have hpos := List.length_pos_iff.mpr (String.utf8EncodeChar_ne_nil (c := c))
        have hless : after.length < (lead :: rest).length := by
          rw [hc, List.length_append]
          omega
        rw [hc, isUtf8_append_iff] at hill
        rw [hc, convertUtf8_encoded, ih _ hless (before ++ String.utf8EncodeChar c) after hill rfl]
        rfl

/-! ## From UTF-16 to UTF-8 -/

theorem appendUtf8_toNat (c : Char) : appendUtf8 c.toNat = String.utf8EncodeChar c := by
  have hrange := toNat_range c
  have hand : ∀ n : Nat, n &&& 0x3F = n % 0x40 := fun n => Nat.and_two_pow_sub_one_eq_mod n 6
  have htail : ∀ n : Nat, 0x80 ||| n % 0x40 = 0x80 + n % 0x40 := fun n =>
    (Nat.two_pow_add_eq_or_of_lt (i := 7) (by omega) 1).symm
  unfold appendUtf8
  split
  · next h => exact (utf8EncodeChar_one h).symm
  split
  · next h =>
    have hlead : 0xC0 ||| c.toNat / 0x40 = 0xC0 + c.toNat / 0x40 :=
      (Nat.two_pow_add_eq_or_of_lt (i := 6) (by omega) 3).symm
    rw [utf8EncodeChar_two (by omega) h, Nat.shiftRight_eq_div_pow, hand, htail, hlead]
  split
  · next h =>
    have hlead : 0xE0 ||| c.toNat / 0x1000 = 0xE0 + c.toNat / 0x1000 :=
      (Nat.two_pow_add_eq_or_of_lt (i := 5) (by omega) 7).symm
    rw [utf8EncodeChar_three (by omega) h, Nat.shiftRight_eq_div_pow, Nat.shiftRight_eq_div_pow,
      hand, hand, htail, htail, hlead]
  · have hlead : 0xF0 ||| c.toNat / 0x40000 = 0xF0 + c.toNat / 0x40000 :=
      (Nat.two_pow_add_eq_or_of_lt (i := 4) (by omega) 15).symm
    rw [utf8EncodeChar_four (by omega), Nat.shiftRight_eq_div_pow, Nat.shiftRight_eq_div_pow,
      Nat.shiftRight_eq_div_pow, hand, hand, hand, htail, htail, htail, hlead]

theorem encodeUtf16_encoded (c : Char) (after : List UInt16) :
    encodeUtf16 (utf16Char c ++ after) =
      (encodeUtf16 after).map (String.utf8EncodeChar c ++ ·) := by
  have hrange := toNat_range c
  have hunit : ∀ n < 0x10000, (UInt16.ofNat n).toNat = n := fun n h => UInt16.toNat_ofNat_of_lt' h
  unfold utf16Char
  by_cases h : c.toNat < 0x10000
  · rw [if_pos h, List.singleton_append, encodeUtf16.eq_def]
    dsimp only
    rw [hunit _ h, if_neg (by omega), if_neg (by omega), appendUtf8_toNat]
  · have hvalue : 0x10000 + (((0xD800 + (c.toNat - 0x10000) / 0x400 - 0xD800) <<< 10) |||
        (0xDC00 + (c.toNat - 0x10000) % 0x400 - 0xDC00)) = c.toNat := by
      rw [Nat.add_sub_cancel_left, Nat.add_sub_cancel_left, ← Nat.shiftLeft_add_eq_or_of_lt
        (show (c.toNat - 0x10000) % 0x400 < 2 ^ 10 by omega), Nat.shiftLeft_eq]
      omega
    rw [if_neg h, List.cons_append, List.singleton_append, encodeUtf16]
    rw [hunit _ (by omega), hunit _ (by omega), if_pos (by omega), if_neg (by omega), hvalue,
      appendUtf8_toNat]

/-- The loop on units whose surrogates are paired. -/
theorem encodeUtf16_utf16 (cs : List Char) : encodeUtf16 (utf16 cs) = some (utf8 cs) := by
  induction cs with
  | nil => rfl
  | cons c cs ih =>
    rw [utf16, List.flatMap_cons, ← utf16, encodeUtf16_encoded, ih]
    rfl

/-- The loop on other units; the cases are those of the source. -/
theorem encodeUtf16_unpaired {str16 : List UInt16} (hill : ¬ Paired str16) :
    encodeUtf16 str16 = none := by
  fun_induction encodeUtf16 str16 with
  | case1 => exact absurd paired_nil hill
  | case2 => rfl
  | case3 => rfl
  | case4 unit hhigh low rest hlow ih =>
    have hlow : IsLow low := ⟨by omega, by omega⟩
    rw [ih fun h => hill ((paired_pair_iff hhigh hlow).mpr h)]
    rfl
  | case5 => rfl
  | case6 unit rest hhigh hlow ih =>
    rw [ih fun h => hill ((paired_cons_iff hhigh hlow).mpr h)]
    rfl

/-! ## The codec -/

theorem str8ToStr16_utf8 (cs : List Char) : str8ToStr16 (utf8 cs) = some (utf16 cs) := by
  have h := convertUtf8_utf8 [] cs
  rw [List.nil_append, List.length_nil] at h
  rw [str8ToStr16, h]
  rfl

theorem str16ToStr8_utf16 (cs : List Char) : str16ToStr8 (utf16 cs) = utf8 cs := by
  rw [str16ToStr8, encodeUtf16_utf16]
  rfl

/-- **The conversions are a codec**: of the characters of a well-formed string each gives the other
encoding, of any other string it gives the empty one, and no byte is read outside of the string; on
the well-formed strings each undoes the other. -/
theorem conversions_codec :
    ((∀ cs, str8ToStr16 (utf8 cs) = some (utf16 cs)) ∧
      ∀ str, ¬ IsUtf8 str → str8ToStr16 str = some []) ∧
    ((∀ str16, Paired str16 ↔ ∃ cs, utf16 cs = str16) ∧
      (∀ cs, str16ToStr8 (utf16 cs) = utf8 cs) ∧
        ∀ str16, ¬ Paired str16 → str16ToStr8 str16 = []) ∧
    (∀ str, IsUtf8 str →
      ∃ str16, str8ToStr16 str = some str16 ∧ Paired str16 ∧ str16ToStr8 str16 = str) ∧
    ∀ str16, Paired str16 →
      IsUtf8 (str16ToStr8 str16) ∧ str8ToStr16 (str16ToStr8 str16) = some str16 := by
  refine ⟨⟨str8ToStr16_utf8, fun str hill => ?_⟩,
    ⟨paired_iff, str16ToStr8_utf16, fun str16 hill => ?_⟩, ?_, fun str16 hpaired => ?_⟩
  · have h := convertUtf8_illFormed [] str hill
    rw [List.nil_append, List.length_nil] at h
    rw [str8ToStr16, h]
    rfl
  · rw [str16ToStr8, encodeUtf16_unpaired hill]
    rfl
  · rintro str ⟨cs, rfl⟩
    exact ⟨utf16 cs, str8ToStr16_utf8 cs, paired_utf16 cs, str16ToStr8_utf16 cs⟩
  · obtain ⟨cs, rfl⟩ := (paired_iff str16).mp hpaired
    rw [str16ToStr8_utf16, str8ToStr16_utf8]
    exact ⟨⟨cs, rfl⟩, rfl⟩

/-- A character of three bytes and one of four; the latter becomes a pair of surrogates. -/
example : str8ToStr16 [0xE4, 0xB8, 0xAD, 0xF0, 0x9F, 0x93, 0x9E] =
    some [0x4E2D, 0xD83D, 0xDCDE] := by decide +kernel

end CallManagerMini
