import Mathlib.Data.List.Nodup

/-! # Lists of entries with a key

A list used as a table: each entry has a key, and an entry is changed or taken
out by its key.  As long as the keys are distinct, the operations act on one
entry and say so without mentioning positions.
-/

namespace Keyed

variable {α κ : Type} [DecidableEq κ] (key : α → κ)

/-- Apply `f` to the entries with key `k`. -/
def update (k : κ) (f : α → α) (l : List α) : List α := l.map fun a => if key a = k then f a else a

/-- Take out the first entry with key `k`. -/
def remove (k : κ) (l : List α) : List α := l.eraseP fun a => key a = k

variable {key} {k : κ} {f g : α → α} {l : List α} {a b : α}

/-! ## Changing an entry -/

theorem mem_update : b ∈ update key k f l ↔ ∃ a ∈ l, (if key a = k then f a else a) = b := by
  simp [update]

/-- An entry with another key is in the updated table exactly if it was in the table. -/
theorem mem_update_of_ne (hf : ∀ a, key (f a) = key a) (h : key b ≠ k) :
    b ∈ update key k f l ↔ b ∈ l := by
  refine ⟨fun hb => ?_, fun hb => mem_update.mpr ⟨b, hb, if_neg h⟩⟩
  obtain ⟨a, ha, rfl⟩ := mem_update.mp hb
  by_cases hk : key a = k
  · rw [if_pos hk, hf] at h
    exact absurd hk h
  · rwa [if_neg hk]

@[simp] theorem length_update : (update key k f l).length = l.length := by simp [update]

theorem update_append (l' : List α) :
    update key k f (l ++ l') = update key k f l ++ update key k f l' := by
  simp [update]

@[simp] theorem update_singleton_self : update key (key a) f [a] = [f a] := by simp [update]

theorem update_of_forall_ne (h : ∀ a ∈ l, key a ≠ k) : update key k f l = l := by
  unfold update
  conv_rhs => rw [← List.map_id l]
  exact List.map_congr_left fun a ha => if_neg (h a ha)

/-- Two updates of the same key are one, if the first keeps the key. -/
theorem update_update (hf : ∀ a, key (f a) = key a) :
    update key k g (update key k f l) = update key k (fun a => g (f a)) l := by
  simp only [update, List.map_map]
  refine List.map_congr_left fun a _ => ?_
  by_cases h : key a = k <;> simp [h, hf]

theorem update_congr (h : ∀ a ∈ l, key a = k → f a = g a) :
    update key k f l = update key k g l := by
  refine List.map_congr_left fun a ha => ?_
  by_cases hk : key a = k
  · simp only [if_pos hk, h a ha hk]
  · simp only [if_neg hk]

/-- An update that changes nothing about the entry it meets. -/
theorem update_eq_self (h : ∀ a ∈ l, key a = k → f a = a) : update key k f l = l := by
  rw [update_congr (g := id) h]
  simp [update]

/-- An update keeps the keys if `f` does. -/
theorem map_key_update (hf : ∀ a ∈ l, key a = k → key (f a) = key a) :
    (update key k f l).map key = l.map key := by
  simp only [update, List.map_map]
  refine List.map_congr_left fun a ha => ?_
  by_cases h : key a = k <;> simp [h, hf a ha]

/-! ## Taking an entry out -/

theorem remove_sublist : (remove key k l).Sublist l := List.eraseP_sublist

/-- With distinct keys, taking out a key leaves the entries with another key. -/
theorem remove_eq_filter (h : (l.map key).Nodup) :
    remove key k l = l.filter fun a => key a ≠ k := by
  induction l with
  | nil => rfl
  | cons b l ih =>
    obtain ⟨hb, hl⟩ := List.nodup_cons.mp h
    by_cases hk : key b = k
    · have hne : ∀ a ∈ l, key a ≠ k := fun a ha hka =>
        hb (List.mem_map.mpr ⟨a, ha, hka.trans hk.symm⟩)
      rw [remove, List.eraseP_cons_of_pos (by simpa using hk),
        List.filter_cons_of_neg (by simpa using hk)]
      exact (List.filter_eq_self.mpr fun a ha => by simpa using hne a ha).symm
    · rw [remove, List.eraseP_cons_of_neg (by simpa using hk),
        List.filter_cons_of_pos (by simpa using hk)]
      exact congrArg (b :: ·) (ih hl)

theorem mem_remove (h : (l.map key).Nodup) : a ∈ remove key k l ↔ a ∈ l ∧ key a ≠ k := by
  simp [remove_eq_filter h]

theorem length_remove (ha : a ∈ l) : (remove key (key a) l).length = l.length - 1 :=
  List.length_eraseP_of_mem ha (by simp)

/-- What an update did to the entry is gone once the entry is taken out. -/
theorem remove_update (h : (l.map key).Nodup) (hf : ∀ a, key (f a) = key a) :
    remove key k (update key k f l) = remove key k l := by
  have hm : ((update key k f l).map key).Nodup := by
    rwa [map_key_update fun a _ _ => hf a]
  rw [remove_eq_filter hm, remove_eq_filter h, update, List.filter_map]
  conv_rhs => rw [← List.map_id (l.filter _)]
  have hp : ((fun a => decide (key a ≠ k)) ∘ fun a => if key a = k then f a else a) =
      fun a => decide (key a ≠ k) := by
    funext a
    by_cases hk : key a = k <;> simp [hk, hf]
  rw [hp]
  refine List.map_congr_left fun a ha => ?_
  simp only [List.mem_filter, decide_eq_true_eq] at ha
  exact if_neg ha.2

/-! ## Distinct keys -/

omit [DecidableEq κ] in
theorem nodup_append_singleton (h : (l.map key).Nodup) (ha : ∀ b ∈ l, key b ≠ key a) :
    ((l ++ [a]).map key).Nodup := by
  rw [List.map_append, List.map_singleton]
  refine List.nodup_append.mpr ⟨h, List.nodup_singleton _, ?_⟩
  intro k hk k' hk' heq
  obtain ⟨b, hb, rfl⟩ := List.mem_map.mp hk
  exact ha b hb (heq.trans (List.mem_singleton.mp hk'))

theorem nodup_remove (h : (l.map key).Nodup) : ((remove key k l).map key).Nodup :=
  h.sublist (remove_sublist.map key)

/-- A key finds its entry. -/
theorem find?_eq_some_iff (h : (l.map key).Nodup) :
    (l.find? fun b => key b = k) = some a ↔ a ∈ l ∧ key a = k := by
  refine ⟨fun ha => ⟨List.mem_of_find?_eq_some ha, by simpa using List.find?_some ha⟩, ?_⟩
  rintro ⟨ha, rfl⟩
  cases hb : l.find? fun b => key b = key a with
  | none => simpa using List.find?_eq_none.mp hb a ha
  | some b =>
    have hkey : key b = key a := by simpa using List.find?_some hb
    rw [List.inj_on_of_nodup_map h (List.mem_of_find?_eq_some hb) ha hkey]

/-! ## The other entries -/

section Others
variable {P : α → Bool}

/-- An update of entries that are filtered out, and still are, does not show. -/
theorem filter_update (h : ∀ a ∈ l, key a = k → P a = false ∧ P (f a) = false) :
    (update key k f l).filter P = l.filter P := by
  induction l with
  | nil => rfl
  | cons b l ih =>
    have hl := ih fun a ha => h a (List.mem_cons_of_mem _ ha)
    simp only [update, List.map_cons] at hl ⊢
    by_cases hk : key b = k
    · obtain ⟨hb, hfb⟩ := h b List.mem_cons_self hk
      simpa [hk, hb, hfb] using hl
    · simp only [if_neg hk, List.filter_cons]
      rw [hl]

/-- An entry that is filtered out may leave. -/
theorem filter_remove (h : ∀ a ∈ l, key a = k → P a = false) :
    (remove key k l).filter P = l.filter P := by
  induction l with
  | nil => rfl
  | cons b l ih =>
    have hl := ih fun a ha => h a (List.mem_cons_of_mem _ ha)
    by_cases hk : key b = k
    · have hb := h b List.mem_cons_self hk
      rw [remove, List.eraseP_cons_of_pos (by simpa using hk),
        List.filter_cons_of_neg (by simpa using hb)]
    · rw [remove, List.eraseP_cons_of_neg (by simpa using hk), List.filter_cons, List.filter_cons]
      unfold remove at hl
      rw [hl]

end Others

end Keyed
