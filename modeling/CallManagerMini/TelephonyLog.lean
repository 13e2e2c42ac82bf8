import CallManagerMini.Lib.CString

/-! # Privacy tags of log formats

A log format marks its arguments as public or private behind the percent sign; the `printf` of the
image knows no such marks.  `StripPrivacyTags` copies the format without them into a buffer.  It
writes what one reads off the format from left to right (`withoutTags`), if this and a terminator
fit, and stays within both blocks of memory (`stripPrivacyTags_eq`).
-/

namespace CallManagerMini

/-- `'%'`. -/
def percent : UInt8 := 37

/-- `"{public}"`. -/
def publicTag : List UInt8 := [123, 112, 117, 98, 108, 105, 99, 125]

/-- `"{private}"`. -/
def privateTag : List UInt8 := [123, 112, 114, 105, 118, 97, 116, 101, 125]

/-- The two comparisons behind a percent sign: how many characters are not copied. -/
def tagLength (fmt : List UInt8) : Option Nat :=
  (CString.strncmp publicTag.length fmt (publicTag ++ [0])).bind fun r =>
    if r = 0 then some publicTag.length
    else
      (CString.strncmp privateTag.length fmt (privateTag ++ [0])).map fun r =>
        if r = 0 then privateTag.length else 0

/-- `copyLen` and `skipLen`. -/
def copyAndSkip (c : UInt8) (fmt : List UInt8) : Option (Nat × Nat) :=
  if c = percent then
    match fmt with
    | [] => none
    | d :: _ => if d = percent then some (2, 0) else (tagLength fmt).map fun skip => (1, skip)
  else some (1, 0)

/-- At least one character is copied. -/
theorem copyLen_pos {c : UInt8} {fmt : List UInt8} {copyLen skipLen : Nat}
    (h : copyAndSkip c fmt = some (copyLen, skipLen)) : 1 ≤ copyLen := by
  unfold copyAndSkip at h
  split at h
  · cases fmt with
    | nil => cases h
    | cons d fmt =>
      dsimp only at h
      split at h
      · cases h
        decide
      · obtain ⟨_, -, h⟩ := Option.map_eq_some_iff.mp h
        cases h
        decide
  · cases h
    decide

/-- The loop of `StripPrivacyTags`; `none` is a read or a write outside of a block. -/
def stripFrom (fmt : List UInt8) (outPos : Nat) (out : List UInt8) : Option (Bool × List UInt8) :=
  match fmt with
  | [] => none
  | c :: rest =>
    if c = 0 then (CString.store out outPos 0).map fun out => (true, out)
    else
      match _hcopy : copyAndSkip c rest with
      | none => none
      | some (copyLen, skipLen) =>
        if outPos + copyLen ≥ out.length then some (false, out)
        else
          match CString.memcpy copyLen out outPos (c :: rest) with
          | none => none
          | some out =>
            match _hnext : CString.advance (copyLen + skipLen) (c :: rest) with
            | none => none
            | some next => stripFrom next (outPos + copyLen) out
termination_by fmt.length
decreasing_by
  have hpos := copyLen_pos _hcopy
  obtain ⟨-, hnext⟩ := Option.ite_none_right_eq_some.mp _hnext
  cases hnext
  rw [List.length_drop, List.length_cons]
  omega

/-- `StripPrivacyTags`; the length of the buffer is its size. -/
def stripPrivacyTags (fmt : List UInt8) (out : List UInt8) : Option (Bool × List UInt8) :=
  stripFrom fmt 0 out

/-! ## What is copied -/

/-- The format without its tags, as one reads it from left to right. -/
def withoutTags (fmt : List UInt8) : List UInt8 :=
  match fmt with
  | [] => []
  | c :: rest =>
    if c = percent then
      if [percent] <+: rest then percent :: percent :: withoutTags (rest.drop 1)
      else if publicTag <+: rest then percent :: withoutTags (rest.drop publicTag.length)
      else if privateTag <+: rest then percent :: withoutTags (rest.drop privateTag.length)
      else percent :: withoutTags rest
    else c :: withoutTags rest
termination_by fmt.length

variable {c : UInt8} {s : List UInt8} {out : List UInt8} {p : Nat}

theorem tagLength_eq (s : List UInt8) : tagLength (s ++ [0]) =
    some (if publicTag <+: s then publicTag.length
      else if privateTag <+: s then privateTag.length else 0) := by
  obtain ⟨r, hr, hpublic⟩ := CString.strncmp_append (s := publicTag) (by decide) [0] s []
  obtain ⟨r', hr', hprivate⟩ := CString.strncmp_append (s := privateTag) (by decide) [0] s []
  rw [tagLength, CString.strncmp_swap, hr, CString.strncmp_swap privateTag.length, hr']
  rw [Option.map_some, Option.bind_some, Option.map_some, Option.map_some]
  simp only [Int.neg_eq_zero, hpublic, hprivate]
  split <;> rfl

/-- A percent sign that is not followed by another one. -/
theorem copyAndSkip_tag (hs : ¬ [percent] <+: s) : copyAndSkip percent (s ++ [0]) =
    some (1, if publicTag <+: s then publicTag.length
      else if privateTag <+: s then privateTag.length else 0) := by
  have hd : ∀ d q, s ++ [0] = d :: q → d ≠ percent := by
    rintro d q hq rfl
    cases s with
    | nil => cases hq
    | cons d' s =>
      cases hq
      exact hs (List.cons_prefix_cons.mpr ⟨rfl, List.nil_prefix⟩)
  have htag := tagLength_eq s
  unfold copyAndSkip
  rw [if_pos rfl]
  cases hq : s ++ [0] with
  | nil => exact absurd hq (by simp)
  | cons d q =>
    dsimp only
    rw [if_neg (hd d q hq), ← hq, htag]
    rfl

/-- One round of the loop does one step of the reading. -/
theorem copyAndSkip_eq (c : UInt8) (s : List UInt8) :
    ∃ copyLen skipLen, copyAndSkip c (s ++ [0]) = some (copyLen, skipLen) ∧
      copyLen + skipLen ≤ (c :: s).length ∧
        withoutTags (c :: s) = (c :: s).take copyLen ++
          withoutTags ((c :: s).drop (copyLen + skipLen)) := by
  rw [withoutTags]
  by_cases hc : c = percent
  · subst hc
    rw [if_pos rfl]
    by_cases hpair : [percent] <+: s
    · obtain ⟨rest, rfl⟩ := hpair
      refine ⟨2, 0, rfl, by simp, ?_⟩
      rw [if_pos (List.prefix_append _ _)]
      rfl
    · refine ⟨1, _, copyAndSkip_tag hpair, ?_, ?_⟩
      · split
        · next hpublic =>
          have := hpublic.length_le
          rw [List.length_cons]
          omega
        · split
          · next hprivate =>
            have := hprivate.length_le
            rw [List.length_cons]
            omega
          · simp
      · rw [if_neg hpair]
        split
        · rfl
        · split
          · rfl
          · rfl
  · refine ⟨1, 0, if_neg hc, by simp, ?_⟩
    rw [if_neg hc]
    rfl

/-- One round of the loop. -/
theorem stripFrom_cons {copyLen skipLen : Nat} (hc : c ≠ 0)
    (hcopy : copyAndSkip c (s ++ [0]) = some (copyLen, skipLen))
    (hle : copyLen + skipLen ≤ (c :: s).length) :
    stripFrom (c :: s ++ [0]) p out =
      if p + copyLen ≥ out.length then some (false, out)
      else stripFrom ((c :: s).drop (copyLen + skipLen) ++ [0]) (p + copyLen)
        (out.take p ++ (c :: s).take copyLen ++ out.drop (p + copyLen)) := by
  rw [List.cons_append, stripFrom, if_neg hc]
  split
  · next hnone =>
    rw [hcopy] at hnone
    cases hnone
  · next hsome =>
    rw [hcopy] at hsome
    cases hsome
    by_cases hfull : p + copyLen ≥ out.length
    · rw [if_pos hfull, if_pos hfull]
    · have htake : ((c :: s).take copyLen).length = copyLen := List.length_take_of_le (by omega)
      have hmemcpy := CString.memcpy_append ((c :: s).take copyLen)
        ((c :: s).drop copyLen ++ [0]) out p (by omega)
      rw [← List.append_assoc, List.take_append_drop, htake] at hmemcpy
      have hnext := CString.advance_of_le hle [0]
      rw [List.cons_append] at hmemcpy hnext
      rw [if_neg hfull, if_neg hfull, hmemcpy]
      dsimp only
      split
      · next hnone =>
        rw [hnext] at hnone
        cases hnone
      · next hsome =>
        rw [hnext] at hsome
        cases hsome
        rfl

/-- What the loop has written and what it is still to write; the induction is on the rest of the
format. -/
theorem stripFrom_eq (hs : 0 ∉ s) (hp : p < out.length) :
    ∃ out', stripFrom (s ++ [0]) p out =
        some (decide (p + (withoutTags s).length < out.length), out') ∧
      out'.length = out.length ∧ (p + (withoutTags s).length < out.length →
        out' = out.take p ++ withoutTags s ++ 0 :: out.drop (p + (withoutTags s).length + 1)) := by
  induction hn : s.length using Nat.strongRecOn generalizing s p out with
  | ind n ih =>
    subst hn
    cases s with
    | nil =>
      refine ⟨out.set p 0, ?_, List.length_set, fun _ => ?_⟩
      · rw [List.nil_append, stripFrom, if_pos rfl, CString.store, if_pos hp, Option.map_some,
          withoutTags, List.length_nil, Nat.add_zero, decide_eq_true hp]
      · rw [withoutTags, List.append_nil, List.length_nil, Nat.add_zero]
        exact List.set_eq_take_append_cons_drop.trans (if_pos hp)
    | cons c s =>
      obtain ⟨copyLen, skipLen, hcopy, hle, hwithout⟩ := copyAndSkip_eq c s
      have hpos := copyLen_pos hcopy
      have htake : ((c :: s).take copyLen).length = copyLen := List.length_take_of_le (by omega)
      have hlength := congrArg List.length hwithout
      rw [List.length_append, htake] at hlength
      rw [stripFrom_cons (List.ne_of_not_mem_cons hs).symm hcopy hle]
      by_cases hfull : p + copyLen ≥ out.length
      · refine ⟨out, ?_, rfl, fun hfits => by omega⟩
        rw [if_pos hfull, decide_eq_false (by omega)]
      · rw [if_neg hfull]
        have hrest : 0 ∉ (c :: s).drop (copyLen + skipLen) := fun h => hs (List.mem_of_mem_drop h)
        have hless : ((c :: s).drop (copyLen + skipLen)).length < (c :: s).length := by
          rw [List.length_drop, List.length_cons]
          omega
        have hwritten : (out.take p ++ (c :: s).take copyLen).length = p + copyLen := by
          rw [List.length_append, htake, List.length_take_of_le (by omega)]
        have hsize : (out.take p ++ (c :: s).take copyLen ++ out.drop (p + copyLen)).length =
            out.length := by
          rw [List.length_append, hwritten, List.length_drop]
          omega
        have hskip : ∀ k, (out.take p ++ (c :: s).take copyLen ++ out.drop (p + copyLen)).drop
            (p + copyLen + k) = out.drop (p + copyLen + k) := by
          intro k
          rw [← List.drop_drop, List.drop_left' hwritten, List.drop_drop]
        obtain ⟨out', hrun, hsame, hout⟩ := ih _ hless hrest
          (hsize.symm ▸ Nat.lt_of_not_le hfull) rfl
        refine ⟨out', ?_, hsame.trans hsize, fun hfits => ?_⟩
        · rw [hrun, hsize, hlength, Nat.add_assoc p]
        · rw [hout (by omega), hwithout, List.length_append, htake, List.take_left' hwritten,
            ← List.append_assoc (out.take p), Nat.add_assoc (p + copyLen), hskip]
          congr 3
          omega

/-- **Privacy tags are stripped exactly**, for a buffer of any size but none. -/
theorem stripPrivacyTags_eq (fmt : CString) (out : List UInt8) (hout : 1 ≤ out.length) :
    ∃ out', stripPrivacyTags fmt.block out =
        some (decide ((withoutTags fmt.chars).length < out.length), out') ∧
      out'.length = out.length ∧ ((withoutTags fmt.chars).length < out.length →
        out' = withoutTags fmt.chars ++ 0 :: out.drop ((withoutTags fmt.chars).length + 1)) := by
  have h := stripFrom_eq (p := 0) fmt.noZero hout
  rwa [Nat.zero_add, List.take_zero, List.nil_append] at h

/-- A format of a public number, into a buffer of four. -/
theorem stripPrivacyTags_public :
    stripPrivacyTags (CString.block ⟨percent :: publicTag ++ [100], by decide⟩) [1, 2, 3, 4] =
      some (true, [percent, 100, 0, 4]) := by
  have hstrip : withoutTags (percent :: publicTag ++ [100]) = [percent, 100] := by decide +kernel
  obtain ⟨out', hrun, -, hout⟩ := stripPrivacyTags_eq
    ⟨percent :: publicTag ++ [100], by decide⟩ [1, 2, 3, 4] (by decide)
  rw [hstrip] at hrun hout
  rw [hrun, hout (by decide)]
  rfl

end CallManagerMini
