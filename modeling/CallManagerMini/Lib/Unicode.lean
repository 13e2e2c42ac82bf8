import Mathlib.Data.List.Basic

/-! # UTF-8 and UTF-16

A `Char` is a Unicode scalar value: a code point up to `U+10FFFF` that is no surrogate.  The UTF-8
of a character is core's `String.utf8EncodeChar`, the shortest of the forms that would hold it.  A
string of UTF-16 units encodes characters iff its surrogates are paired (`paired_iff`).
-/

namespace Unicode

/-- UTF-8. -/
def utf8 (cs : List Char) : List UInt8 := cs.flatMap String.utf8EncodeChar

/-- UTF-16 of a character. -/
def utf16Char (c : Char) : List UInt16 :=
  if c.toNat < 0x10000 then [UInt16.ofNat c.toNat]
  else [UInt16.ofNat (0xD800 + (c.toNat - 0x10000) / 0x400),
    UInt16.ofNat (0xDC00 + (c.toNat - 0x10000) % 0x400)]

/-- UTF-16. -/
def utf16 (cs : List Char) : List UInt16 := cs.flatMap utf16Char

/-- The string is well-formed UTF-8: the encoding of some characters. -/
def IsUtf8 (str : List UInt8) : Prop := ∃ cs, utf8 cs = str

/-- A high surrogate. -/
def IsHigh (u : UInt16) : Prop := 0xD800 ≤ u.toNat ∧ u.toNat < 0xDC00

/-- A low surrogate. -/
def IsLow (u : UInt16) : Prop := 0xDC00 ≤ u.toNat ∧ u.toNat ≤ 0xDFFF

/-- A low surrogate comes next after every high one, and every low one comes next after a high
one. -/
structure Paired (str16 : List UInt16) : Prop where
  high : ∀ i u, str16[i]? = some u → IsHigh u → ∃ v, str16[i + 1]? = some v ∧ IsLow v
  low : ∀ i v, str16[i]? = some v → IsLow v →
    ∃ j u, i = j + 1 ∧ str16[j]? = some u ∧ IsHigh u

theorem toNat_range (c : Char) : c.toNat < 0xD800 ∨ 0xDFFF < c.toNat ∧ c.toNat < 0x110000 :=
  c.valid

theorem exists_char {n : Nat} (h : n < 0xD800 ∨ 0xDFFF < n ∧ n < 0x110000) :
    ∃ c : Char, c.toNat = n := by
  refine ⟨Char.ofNat n, ?_⟩
  unfold Char.ofNat
  rw [dif_pos h]
  rfl

/-! ## UTF-8 of a character, by its length -/

variable {c : Char}

theorem utf8EncodeChar_one (h : c.toNat < 0x80) :
    String.utf8EncodeChar c = [UInt8.ofNat c.toNat] :=
  if_pos (Nat.le_of_lt_succ h)

theorem utf8EncodeChar_two (hlo : 0x80 ≤ c.toNat) (hhi : c.toNat < 0x800) :
    String.utf8EncodeChar c =
      [UInt8.ofNat (0xC0 + c.toNat / 0x40), UInt8.ofNat (0x80 + c.toNat % 0x40)] := by
  have h : c.toNat / 64 % 0x20 + 0xc0 = 0xC0 + c.toNat / 0x40 := by omega
  refine (if_neg (Nat.not_le_of_lt hlo)).trans ((if_pos (Nat.le_of_lt_succ hhi)).trans ?_)
  change [UInt8.ofNat (c.toNat / 64 % 0x20 + 0xc0), UInt8.ofNat (c.toNat % 0x40 + 0x80)] = _
  rw [h, Nat.add_comm (c.toNat % 0x40)]

theorem utf8EncodeChar_three (hlo : 0x800 ≤ c.toNat) (hhi : c.toNat < 0x10000) :
    String.utf8EncodeChar c =
      [UInt8.ofNat (0xE0 + c.toNat / 0x1000), UInt8.ofNat (0x80 + c.toNat / 0x40 % 0x40),
        UInt8.ofNat (0x80 + c.toNat % 0x40)] := by
  have h : c.toNat / 4096 % 0x10 + 0xe0 = 0xE0 + c.toNat / 0x1000 := by omega
  have h1 : ¬ c.toNat ≤ 0x7f := by omega
  refine (if_neg h1).trans ((if_neg (Nat.not_le_of_lt hlo)).trans
    ((if_pos (Nat.le_of_lt_succ hhi)).trans ?_))
  change [UInt8.ofNat (c.toNat / 4096 % 0x10 + 0xe0), UInt8.ofNat (c.toNat / 64 % 0x40 + 0x80),
    UInt8.ofNat (c.toNat % 0x40 + 0x80)] = _
  rw [h, Nat.add_comm (c.toNat / 64 % 0x40), Nat.add_comm (c.toNat % 0x40)]

theorem utf8EncodeChar_four (hlo : 0x10000 ≤ c.toNat) :
    String.utf8EncodeChar c =
      [UInt8.ofNat (0xF0 + c.toNat / 0x40000), UInt8.ofNat (0x80 + c.toNat / 0x1000 % 0x40),
        UInt8.ofNat (0x80 + c.toNat / 0x40 % 0x40), UInt8.ofNat (0x80 + c.toNat % 0x40)] := by
  have hrange := toNat_range c
  have h : c.toNat / 262144 % 0x08 + 0xf0 = 0xF0 + c.toNat / 0x40000 := by omega
  have h1 : ¬ c.toNat ≤ 0x7f := by omega
  have h2 : ¬ c.toNat ≤ 0x7ff := by omega
  refine (if_neg h1).trans ((if_neg h2).trans ((if_neg (Nat.not_le_of_lt hlo)).trans ?_))
  change [UInt8.ofNat (c.toNat / 262144 % 0x08 + 0xf0), UInt8.ofNat (c.toNat / 4096 % 0x40 + 0x80),
    UInt8.ofNat (c.toNat / 64 % 0x40 + 0x80), UInt8.ofNat (c.toNat % 0x40 + 0x80)] = _
  rw [h, Nat.add_comm (c.toNat / 4096 % 0x40), Nat.add_comm (c.toNat / 64 % 0x40),
    Nat.add_comm (c.toNat % 0x40)]

/-! ## Paired surrogates -/

variable {u v : UInt16} {str16 : List UInt16}

theorem paired_nil : Paired [] :=
  ⟨fun _ _ h => (by cases h), fun _ _ h => (by cases h)⟩

/-- A unit that is no surrogate says nothing about the others. -/
theorem paired_cons_iff (hu : ¬ IsHigh u) (hu' : ¬ IsLow u) :
    Paired (u :: str16) ↔ Paired str16 := by
  constructor
  · rintro ⟨high, low⟩
    refine ⟨fun i w hw => high (i + 1) w hw, fun i w hw hlow => ?_⟩
    obtain ⟨j, x, hij, hx, hhigh⟩ := low (i + 1) w hw hlow
    obtain rfl : i = j := Nat.succ.inj hij
    cases i with
    | zero =>
      cases hx
      exact absurd hhigh hu
    | succ i => exact ⟨i, x, rfl, hx, hhigh⟩
  · rintro ⟨high, low⟩
    constructor
    · intro i w hw hhigh
      cases i with
      | zero =>
        cases hw
        exact absurd hhigh hu
      | succ i => exact high i w hw hhigh
    · intro i w hw hlow
      cases i with
      | zero =>
        cases hw
        exact absurd hlow hu'
      | succ i =>
        obtain ⟨j, x, rfl, hx, hhigh⟩ := low i w hw hlow
        exact ⟨j + 1, x, rfl, hx, hhigh⟩

theorem not_isHigh_of_isLow (h : IsLow u) : ¬ IsHigh u := fun h' => by
  unfold IsLow IsHigh at *
  omega

/-- A pair says nothing about the others. -/
theorem paired_pair_iff (hu : IsHigh u) (hv : IsLow v) :
    Paired (u :: v :: str16) ↔ Paired str16 := by
  constructor
  · rintro ⟨high, low⟩
    refine ⟨fun i w hw => high (i + 2) w hw, fun i w hw hlow => ?_⟩
    obtain ⟨j, x, hij, hx, hhigh⟩ := low (i + 2) w hw hlow
    obtain rfl : i + 1 = j := Nat.succ.inj hij
    cases i with
    | zero =>
      cases hx
      exact absurd hhigh (not_isHigh_of_isLow hv)
    | succ i => exact ⟨i, x, rfl, hx, hhigh⟩
  · rintro ⟨high, low⟩
    constructor
    · intro i w hw hhigh
      match i, hw with
      | 0, _ => exact ⟨v, rfl, hv⟩
      | 1, hw =>
        cases hw
        exact absurd hhigh (not_isHigh_of_isLow hv)
      | i + 2, hw => exact high i w hw hhigh
    · intro i w hw hlow
      match i, hw with
      | 0, hw =>
        cases hw
        exact absurd hu (not_isHigh_of_isLow hlow)
      | 1, _ => exact ⟨0, u, rfl, rfl, hu⟩
      | i + 2, hw =>
        obtain ⟨j, x, rfl, hx, hhigh⟩ := low i w hw hlow
        exact ⟨j + 2, x, rfl, hx, hhigh⟩

theorem not_paired_of_isLow (hu : IsLow u) : ¬ Paired (u :: str16) := fun h => by
  obtain ⟨j, _, hj, -⟩ := h.low 0 u rfl hu
  cases hj

/-- After a high surrogate comes a low one. -/
theorem Paired.next (h : Paired (u :: str16)) (hu : IsHigh u) :
    ∃ v rest, str16 = v :: rest ∧ IsLow v := by
  obtain ⟨v, hv, hlow⟩ := h.high 0 u rfl hu
  cases str16 with
  | nil => cases hv
  | cons w rest =>
    cases hv
    exact ⟨v, rest, rfl, hlow⟩

/-- The character of two surrogates. -/
theorem exists_char_pair (hu : IsHigh u) (hv : IsLow v) : ∃ c : Char, utf16Char c = [u, v] := by
  unfold IsHigh at hu
  unfold IsLow at hv
  obtain ⟨c, hc⟩ := exists_char
    (n := 0x10000 + ((u.toNat - 0xD800) * 0x400 + (v.toNat - 0xDC00))) (by omega)
  have h1 : 0xD800 + (c.toNat - 0x10000) / 0x400 = u.toNat := by omega
  have h2 : 0xDC00 + (c.toNat - 0x10000) % 0x400 = v.toNat := by omega
  refine ⟨c, ?_⟩
  rw [utf16Char, if_neg (by omega), h1, h2, UInt16.ofNat_toNat, UInt16.ofNat_toNat]

/-- The character of a unit that is no surrogate. -/
theorem exists_char_unit (hu : ¬ IsHigh u) (hu' : ¬ IsLow u) :
    ∃ c : Char, utf16Char c = [u] := by
  unfold IsHigh at hu
  unfold IsLow at hu'
  have hlt := u.toNat_lt
  obtain ⟨c, hc⟩ := exists_char (n := u.toNat) (by omega)
  refine ⟨c, ?_⟩
  rw [utf16Char, if_pos (by omega), hc, UInt16.ofNat_toNat]

theorem paired_utf16Char_append (c : Char) : Paired (utf16Char c ++ str16) ↔ Paired str16 := by
  have hrange := toNat_range c
  unfold utf16Char
  split
  · next h =>
    have hu : (UInt16.ofNat c.toNat).toNat = c.toNat := UInt16.toNat_ofNat_of_lt' h
    refine paired_cons_iff (fun h => ?_) fun h => ?_
    · unfold IsHigh at h
      omega
    · unfold IsLow at h
      omega
  · next h =>
    refine paired_pair_iff ?_ ?_
    · unfold IsHigh
      rw [UInt16.toNat_ofNat_of_lt' (show _ < 0x10000 by omega)]
      omega
    · unfold IsLow
      rw [UInt16.toNat_ofNat_of_lt' (show _ < 0x10000 by omega)]
      omega

/-- What encodes characters has its surrogates paired. -/
theorem paired_utf16 (cs : List Char) : Paired (utf16 cs) := by
  induction cs with
  | nil => exact paired_nil
  | cons c cs ih => exact (paired_utf16Char_append c).mpr ih

/-- A string encodes characters iff its surrogates are paired. -/
theorem paired_iff (str16 : List UInt16) : Paired str16 ↔ ∃ cs, utf16 cs = str16 := by
  refine ⟨fun h => ?_, fun ⟨cs, hcs⟩ => hcs ▸ paired_utf16 cs⟩
  induction hn : str16.length using Nat.strongRecOn generalizing str16 with
  | ind n ih =>
    subst hn
    cases str16 with
    | nil => exact ⟨[], rfl⟩
    | cons u str16 =>
      by_cases hhigh : IsHigh u
      · obtain ⟨v, rest, rfl, hlow⟩ := h.next hhigh
        obtain ⟨c, hc⟩ := exists_char_pair hhigh hlow
        have hless : rest.length < (u :: v :: rest).length := by
          rw [List.length_cons, List.length_cons]
          omega
        obtain ⟨cs, rfl⟩ := ih _ hless rest ((paired_pair_iff hhigh hlow).mp h) rfl
        exact ⟨c :: cs, by rw [utf16, List.flatMap_cons, hc]; rfl⟩
      · have hlow : ¬ IsLow u := fun hlow => not_paired_of_isLow hlow h
        obtain ⟨c, hc⟩ := exists_char_unit hhigh hlow
        obtain ⟨cs, rfl⟩ := ih _ (by simp) str16 ((paired_cons_iff hhigh hlow).mp h) rfl
        exact ⟨c :: cs, by rw [utf16, List.flatMap_cons, hc]; rfl⟩

end Unicode
