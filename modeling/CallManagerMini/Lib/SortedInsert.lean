import Mathlib.Data.List.TakeWhile
import Mathlib.Order.Lattice

/-! # Sorted lists with equal keys in order

A list sorted by a key, elements with equal keys one after the other as they came.  What lies in
front of a place is told by a loop from the front that goes on while the key is smaller, and then
while it is the same (`takeWhile_two_phases`); an element inserted there keeps the order
(`insert_pairwise`), and a loop that takes elements from the front takes exactly those it would
take anywhere (`takeWhile_eq_filter`).
-/

namespace SortedInsert

variable {α κ : Type} {l : List α}

/-- A loop over a list depends on what it finds there. -/
theorem takeWhile_congr {p q : α → Bool} (h : ∀ a ∈ l, p a = q a) :
    l.takeWhile p = l.takeWhile q := by
  induction l with
  | nil => rfl
  | cons a l ih =>
    have ih := ih fun b hb => h b (List.mem_cons_of_mem a hb)
    rw [List.takeWhile_cons, List.takeWhile_cons, h a List.mem_cons_self, ih]

theorem dropWhile_congr {p q : α → Bool} (h : ∀ a ∈ l, p a = q a) :
    l.dropWhile p = l.dropWhile q := by
  induction l with
  | nil => rfl
  | cons a l ih =>
    have ih := ih fun b hb => h b (List.mem_cons_of_mem a hb)
    rw [List.dropWhile_cons, List.dropWhile_cons, h a List.mem_cons_self, ih]

/-- Where `p` holds of everything in front of what it holds of, the loop finds all of it. -/
theorem takeWhile_eq_filter {p : α → Bool} (h : l.Pairwise fun a b => p b = true → p a = true) :
    l.takeWhile p = l.filter p := by
  induction l with
  | nil => rfl
  | cons a l ih =>
    obtain ⟨hhead, htail⟩ := List.pairwise_cons.mp h
    rw [List.takeWhile_cons, List.filter_cons, ih htail]
    split
    · rfl
    next ha => exact (List.filter_eq_nil_iff.mpr fun b hb hp => ha (hhead b hb hp)).symm

theorem dropWhile_eq_filter {p : α → Bool} (h : l.Pairwise fun a b => p b = true → p a = true) :
    l.dropWhile p = l.filter fun a => !p a := by
  induction l with
  | nil => rfl
  | cons a l ih =>
    obtain ⟨hhead, htail⟩ := List.pairwise_cons.mp h
    by_cases ha : p a = true
    · rw [List.dropWhile_cons_of_pos ha, List.filter_cons_of_neg (by simp [ha]), ih htail]
    · have hrest : (l.filter fun b => !p b) = l :=
        List.filter_eq_self.mpr fun b hb => by simpa using mt (hhead b hb) ha
      rw [List.dropWhile_cons_of_neg ha, List.filter_cons_of_pos (by simpa using ha), hrest]

variable [LinearOrder κ] {key : α → κ}

/-- **Two phases find one place**: behind everything with a smaller key, and everything with the
same. -/
theorem takeWhile_two_phases (h : l.Pairwise fun a b => key a ≤ key b) (k : κ) :
    l.takeWhile (fun a => key a < k) ++
        (l.dropWhile fun a => key a < k).takeWhile (fun a => key a = k) =
      l.takeWhile fun a => key a ≤ k := by
  induction l with
  | nil => rfl
  | cons a l ih =>
    obtain ⟨hhead, htail⟩ := List.pairwise_cons.mp h
    rcases lt_trichotomy (key a) k with hlt | heq | hgt
    · rw [List.takeWhile_cons_of_pos (by simpa using hlt), List.dropWhile_cons_of_pos
        (by simpa using hlt), List.takeWhile_cons_of_pos (by simpa using hlt.le), List.cons_append,
        ih htail]
    · have hsame : l.takeWhile (fun b => key b = k) = l.takeWhile fun b => key b ≤ k :=
        takeWhile_congr fun b hb => by
          have := hhead b hb
          simp only [heq] at this
          simp only [decide_eq_decide]
          exact ⟨fun h => h.le, fun h => le_antisymm h this⟩
      rw [List.takeWhile_cons_of_neg (by simp [heq]), List.dropWhile_cons_of_neg (by simp [heq]),
        List.takeWhile_cons_of_pos (by simpa using heq), List.takeWhile_cons_of_pos
        (by simp [heq]), hsame]
      rfl
    · rw [List.takeWhile_cons_of_neg (by simpa using hgt.le), List.dropWhile_cons_of_neg
        (by simpa using hgt.le), List.takeWhile_cons_of_neg (by simpa using hgt.ne'),
        List.takeWhile_cons_of_neg (by simpa using hgt)]
      rfl

/-- Before in the order: by the key, and by the number where the keys are the same. -/
def Before (key : α → κ) (number : α → Nat) (a b : α) : Prop :=
  key a < key b ∨ key a = key b ∧ number a < number b

theorem Before.le {number : α → Nat} {a b : α} (h : Before key number a b) : key a ≤ key b :=
  h.elim le_of_lt fun h => h.1.le

/-- **An element with a new number keeps the order** behind everything that has its key. -/
theorem insert_pairwise {number : α → Nat} {a : α} (h : l.Pairwise (Before key number))
    (hnew : ∀ b ∈ l, number b < number a) :
    (l.takeWhile (fun b => key b ≤ key a) ++
      a :: l.dropWhile fun b => key b ≤ key a).Pairwise (Before key number) := by
  induction l with
  | nil => exact List.pairwise_singleton _ a
  | cons b l ih =>
    obtain ⟨hhead, htail⟩ := List.pairwise_cons.mp h
    by_cases hle : key b ≤ key a
    · rw [List.takeWhile_cons_of_pos (by simpa using hle), List.dropWhile_cons_of_pos
        (by simpa using hle), List.cons_append]
      refine List.pairwise_cons.mpr ⟨fun c hc => ?_, ih htail fun c hc =>
        hnew c (List.mem_cons_of_mem b hc)⟩
      rcases List.mem_append.mp hc with hc | hc
      · exact hhead c (List.takeWhile_subset _ hc)
      · rcases List.mem_cons.mp hc with rfl | hc
        · exact hle.lt_or_eq.imp id fun heq => ⟨heq, hnew b List.mem_cons_self⟩
        · exact hhead c (List.dropWhile_subset _ hc)
    · rw [List.takeWhile_cons_of_neg (by simpa using hle), List.dropWhile_cons_of_neg
        (by simpa using hle), List.nil_append]
      have hlt : key a < key b := lt_of_not_ge hle
      refine List.pairwise_cons.mpr ⟨fun c hc => .inl ?_, h⟩
      rcases List.mem_cons.mp hc with rfl | hc
      · exact hlt
      · exact hlt.trans_le (hhead c hc).le

end SortedInsert
