import Mathlib.Data.List.Basic

/-! # Strings that end in a zero byte

A pointer into a block of memory is given by the bytes of the block from there on.  What reads or
writes outside of the block is `none`; so are the functions of `<cstring>` here, one byte after the
other.  On a block that ends with the zero byte of a string they do not leave it (`strlen_append`,
`strchr_append`, `strncmp_append`).
-/

/-- The bytes of a string, none of which is zero. -/
structure CString where
  chars : List UInt8
  noZero : 0 ∉ chars

namespace CString

/-- The block of memory that holds the string, and nothing more. -/
def block (s : CString) : List UInt8 := s.chars ++ [0]

/-- The pointer moved on; it may not be moved beyond the end of the block. -/
def advance (n : Nat) (p : List UInt8) : Option (List UInt8) :=
  if n ≤ p.length then some (p.drop n) else none

/-- `strlen`. -/
def strlen : List UInt8 → Option Nat
  | [] => none
  | c :: p => if c = 0 then some 0 else (strlen p).map (· + 1)

/-- `strchr`: how far away the character is, if it is there. -/
def strchr (ch : UInt8) : List UInt8 → Option (Option Nat)
  | [] => none
  | c :: p =>
    if c = ch then some (some 0)
    else if c = 0 then some none
    else (strchr ch p).map (Option.map (· + 1))

/-- `strncmp`. -/
def strncmp : Nat → List UInt8 → List UInt8 → Option Int
  | 0, _, _ => some 0
  | _ + 1, [], _ => none
  | _ + 1, _ :: _, [] => none
  | n + 1, c :: p, d :: q =>
    if c ≠ d then some ((c.toNat : Int) - d.toNat) else if c = 0 then some 0 else strncmp n p q

/-- A byte is written into a block. -/
def store (block : List UInt8) (i : Nat) (c : UInt8) : Option (List UInt8) :=
  if i < block.length then some (block.set i c) else none

/-- `memcpy` of `n` bytes to the place `i` of a block. -/
def memcpy : Nat → List UInt8 → Nat → List UInt8 → Option (List UInt8)
  | 0, block, _, _ => some block
  | _ + 1, _, _, [] => none
  | n + 1, block, i, c :: p => (store block i c).bind fun block => memcpy n block (i + 1) p

variable {s t u v : List UInt8} {c ch : UInt8} {n : Nat}

theorem advance_append (s t : List UInt8) : advance s.length (s ++ t) = some t := by
  rw [advance, if_pos (by simp), List.drop_left]

theorem advance_of_le (h : n ≤ s.length) (t : List UInt8) :
    advance n (s ++ t) = some (s.drop n ++ t) := by
  rw [advance, if_pos (by rw [List.length_append]; omega), List.drop_append_of_le_length h]

theorem strlen_append (hs : 0 ∉ s) (t : List UInt8) : strlen (s ++ 0 :: t) = some s.length := by
  induction s with
  | nil => rfl
  | cons c s ih =>
    obtain ⟨hc, hs⟩ := List.ne_and_not_mem_of_not_mem_cons hs
    rw [List.cons_append, strlen, if_neg (Ne.symm hc), ih hs]
    rfl

/-- The character is found where it is first. -/
theorem strchr_append (hs : 0 ∉ s) (hch : ch ∉ s) (t : List UInt8) :
    strchr ch (s ++ ch :: t) = some (some s.length) := by
  induction s with
  | nil => exact if_pos rfl
  | cons c s ih =>
    obtain ⟨hc, hs⟩ := List.ne_and_not_mem_of_not_mem_cons hs
    obtain ⟨hne, hch⟩ := List.ne_and_not_mem_of_not_mem_cons hch
    rw [List.cons_append, strchr, if_neg (Ne.symm hne), if_neg (Ne.symm hc), ih hs hch]
    rfl

theorem strchr_append_none (hs : 0 ∉ s) (hch : ch ∉ s) (hne : ch ≠ 0) (t : List UInt8) :
    strchr ch (s ++ 0 :: t) = some none := by
  induction s with
  | nil => rw [List.nil_append, strchr, if_neg hne.symm, if_pos rfl]
  | cons c s ih =>
    obtain ⟨hc, hs⟩ := List.ne_and_not_mem_of_not_mem_cons hs
    obtain ⟨hcne, hch⟩ := List.ne_and_not_mem_of_not_mem_cons hch
    rw [List.cons_append, strchr, if_neg (Ne.symm hcne), if_neg (Ne.symm hc), ih hs hch]
    rfl

/-- The bytes of one string, as many as it has, compared with another string; it may hold zeros. -/
theorem strncmp_append (hs : 0 ∉ s) (t u v : List UInt8) :
    ∃ r, strncmp s.length (s ++ t) (u ++ 0 :: v) = some r ∧ (r = 0 ↔ s <+: u) := by
  induction s generalizing u with
  | nil => exact ⟨0, rfl, iff_of_true rfl (List.nil_prefix)⟩
  | cons c s ih =>
    obtain ⟨hc, hs⟩ := List.ne_and_not_mem_of_not_mem_cons hs
    cases u with
    | nil =>
      refine ⟨_, if_pos (Ne.symm hc), iff_of_false (fun hzero => hc ?_) (by simp)⟩
      have hzero : c.toNat = 0 := by simpa using hzero
      exact (UInt8.toNat_inj.mp hzero).symm
    | cons d u =>
      by_cases hcd : c = d
      · subst hcd
        obtain ⟨r, hr, hiff⟩ := ih hs u
        refine ⟨r, ?_, hiff.trans (by simp [List.cons_prefix_cons])⟩
        rw [List.length_cons, List.cons_append, List.cons_append, strncmp,
          if_neg (not_not.mpr rfl), if_neg (Ne.symm hc), hr]
      · refine ⟨_, if_pos hcd, iff_of_false (fun hzero => hcd ?_) fun hpre => hcd ?_⟩
        · exact UInt8.toNat_inj.mp (by omega)
        · exact (List.cons_prefix_cons.mp hpre).1

theorem strncmp_swap (n : Nat) (p q : List UInt8) :
    strncmp n p q = (strncmp n q p).map fun r => -r := by
  induction n generalizing p q with
  | zero => rfl
  | succ n ih =>
    cases p with
    | nil => cases q <;> rfl
    | cons c p =>
      cases q with
      | nil => rfl
      | cons d q =>
        by_cases hcd : c = d
        · subst hcd
          simp only [strncmp, ne_eq, not_true_eq_false, if_false]
          split
          · rfl
          · exact ih p q
        · simp only [strncmp, ne_eq, hcd, Ne.symm hcd, not_false_eq_true, if_true, Option.map_some]
          congr 1
          omega

/-- Bytes that are copied behind others. -/
theorem memcpy_append (s t : List UInt8) (block : List UInt8) (i : Nat)
    (hfits : i + s.length ≤ block.length) :
    memcpy s.length block i (s ++ t) =
      some (block.take i ++ s ++ block.drop (i + s.length)) := by
  induction s generalizing block i with
  | nil => simp [memcpy]
  | cons c s ih =>
    rw [List.length_cons] at hfits
    have htake : (block.set i c).take (i + 1) = block.take i ++ [c] := by
      rw [List.take_add_one, List.take_set_of_le (Nat.le_refl i), List.getElem?_set_self (by omega)]
      rfl
    have hdrop : (block.set i c).drop (i + 1 + s.length) = block.drop (i + (s.length + 1)) := by
      rw [List.drop_set_of_lt (by omega)]
      congr 1
      omega
    rw [List.length_cons, List.cons_append, memcpy, store, if_pos (by omega), Option.bind_some,
      ih (block.set i c) (i + 1) (by rw [List.length_set]; omega), htake, hdrop,
      List.append_assoc (block.take i), List.singleton_append]

end CString
