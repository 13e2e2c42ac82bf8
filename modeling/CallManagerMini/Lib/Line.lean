import Mathlib.Data.List.Basic

/-! # A line that is served from its front

Who has been served and who waits behind them, in this order, is a list.  Somebody may leave it, one
may join it at its end, and some are served without waiting: they come into it at any place
(`Shift`).  Whoever stands in the line is not overtaken by somebody who joins it later and has to
wait as well (`Shift.not_overtaken`).
-/

namespace Line

variable {α : Type} {free joining : α → Prop} {x y z : α} {l l' : List α}

/-- `x` comes before `y`. -/
abbrev Ahead (x y : α) (l : List α) : Prop := List.Sublist [x, y] l

/-- **What a step does to the line.** -/
inductive Shift (free joining : α → Prop) : List α → List α → Prop where
  | less {l l' : List α} : List.Sublist l' l → Shift free joining l l'
  | joins {z : α} {l : List α} : joining z → Shift free joining l (l ++ [z])
  | pushesIn {front ks back : List α} : (∀ k ∈ ks, free k) →
    Shift free joining (front ++ back) (front ++ ks ++ back)

theorem Shift.same (h : l' = l) : Shift free joining l l' := .less (h ▸ List.Sublist.refl l)

/-- Somebody else at the end of the line is ahead of nobody. -/
theorem ahead_of_concat (hz : z ≠ y) (h : Ahead x y (l ++ [z])) : Ahead x y l := by
  have hreverse : List.Sublist [y, x] (z :: l.reverse) := by simpa using h.reverse
  have hrest : List.Sublist [y, x] l.reverse :=
    (List.sublist_cons_iff.mp hreverse).resolve_right fun hhead => by
      obtain ⟨r, hr, -⟩ := hhead
      exact hz (List.cons.inj hr).1.symm
  simpa using hrest.reverse

/-- Some others in the midst of the line do not matter. -/
theorem ahead_of_insert {front ks back : List α} (hx : x ∉ ks) (hy : y ∉ ks)
    (h : Ahead x y (front ++ ks ++ back)) : Ahead x y (front ++ back) := by
  classical
  have hfiltered := h.filter fun a => decide (a ∉ ks)
  have hpair : [x, y].filter (fun a => decide (a ∉ ks)) = [x, y] :=
    List.filter_eq_self.mpr (by simp [hx, hy])
  have hnone : ks.filter (fun a => decide (a ∉ ks)) = [] := by simp
  rw [hpair, List.filter_append, List.filter_append, hnone, List.append_nil,
    ← List.filter_append] at hfiltered
  exact hfiltered.trans List.filter_sublist

/-- **Who comes later does not overtake.** -/
theorem Shift.not_overtaken (h : Shift free joining l l') (hx : ¬free x) (hy : ¬free y)
    (hjoined : ¬joining y) (hnot : ¬Ahead x y l) : ¬Ahead x y l' := by
  intro hahead
  cases h with
  | less hsub => exact hnot (hahead.trans hsub)
  | @joins z _ hz => exact hnot (ahead_of_concat (by rintro rfl; exact hjoined hz) hahead)
  | pushesIn hks =>
    exact hnot (ahead_of_insert (fun hmem => hx (hks x hmem)) (fun hmem => hy (hks y hmem)) hahead)

/-- Nobody behind a part of the line is ahead of somebody in it. -/
theorem not_ahead_of_prefix {l rest : List α} (hnodup : (l ++ rest).Nodup) (hy : y ∈ l)
    (hx : x ∉ l) : ¬Ahead x y (l ++ rest) := by
  induction l with
  | nil => cases hy
  | cons a l ih =>
    obtain ⟨hfresh, hnodup⟩ := List.nodup_cons.mp hnodup
    intro hahead
    rcases List.sublist_cons_iff.mp hahead with htail | ⟨r, hr, -⟩
    · rcases List.mem_cons.mp hy with rfl | hy
      · exact hfresh (htail.subset (by simp))
      · exact ih hnodup hy (fun h => hx (List.mem_cons_of_mem _ h)) htail
    · exact hx ((List.cons.inj hr).1 ▸ List.mem_cons_self ..)

end Line
