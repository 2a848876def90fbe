import SecMail.IndexSet.Add

/-!
# Removing from an index set

`removeRange` cuts the range out of those that do not begin below it, up to the first one that it
does not reach.  A range that begins below is never looked at, even if it holds numbers that are to
be removed.

* `IndexSet.removeRange_wellFormed` : the ranges stay apart;
* `IndexSet.removeRange_between` : no other number is lost, and none appears;
* `IndexSet.removeRange_indexes_iff` : the numbers are removed exactly if the range `Fits`.
-/

namespace SecMail

theorem hasIntersection_comm (range1 range2 : Range) :
    RangeHasIntersection range1 range2 = RangeHasIntersection range2 range1 := by
  rw [Bool.eq_iff_iff, hasIntersection_iff, hasIntersection_iff, max_comm]
  tauto

namespace IndexSet

variable {s : IndexSet} {r x y : Range} {i : ℕ} {bounds : Option (ℕ × ℕ)}
  {A B B₁ B₂ C : List Range}

/-- In an empty set there is nothing to merge with. -/
theorem indexSet_addRange (r : Range) : indexSet.addRange r = ⟨[r]⟩ := by
  have hmerge : mergeRanges ⟨[r]⟩ 0 = ⟨[r]⟩ := by
    have hlen : (([r].drop 0).takeWhile (RangeHasIntersection (range ⟨[r]⟩ 0))).length - 1 = 0 :=
      Nat.sub_eq_zero_of_le (List.takeWhile_prefix _).length_le
    rw [mergeRanges]
    exact if_pos (by rw [hlen])
  simp [addRange, leftRangeIndexForIndex, addRangeIndex, setRange, indexSet, hmerge]

/-- The union of two ranges that have an intersection is one range. -/
theorem rangeUnion_eq {range1 range2 : Range} (h : RangeHasIntersection range1 range2 = true) :
    RangeUnion range1 range2 = ⟨[unionOfIntersecting range1 range2]⟩ := by
  simp [RangeUnion, h, indexSetWithRange, indexSet_addRange]

/-- The last entry that is taken. -/
theorem getD_takeWhile_length {α : Type*} {f : α → Bool} {l : List α} {d : α}
    (hpos : 0 < (l.takeWhile f).length) :
    f (l.getD ((l.takeWhile f).length - 1) d) = true := by
  have hlt : (l.takeWhile f).length - 1 < (l.takeWhile f).length := by omega
  have hmem := List.mem_takeWhile_imp (List.getElem_mem hlt)
  rw [(List.takeWhile_prefix f).getElem hlt] at hmem
  rwa [List.getD_eq_getElem]

/-- The range that `mergeRanges` sets is the first one of `RangeUnion`. -/
theorem mergeRanges_eq_rangeUnion (rangeIndex : ℕ) :
    s.mergeRanges rangeIndex =
      let intersecting :=
        (s.mRanges.drop rangeIndex).takeWhile (RangeHasIntersection (s.range rangeIndex))
      let right := rangeIndex + (intersecting.length - 1)
      if right = rangeIndex then s
      else (s.removeRangeIndex (rangeIndex + 1) (right - rangeIndex)).setRange rangeIndex
        ((RangeUnion (s.range rangeIndex) (s.range right)).range 0) := by
  simp only [mergeRanges]
  split_ifs with hright
  · rfl
  · -- the last of the ranges that are merged has an intersection, as all of them have
    have hlast := getD_takeWhile_length (d := RangeEmpty)
      (f := RangeHasIntersection (s.range rangeIndex)) (l := s.mRanges.drop rangeIndex) (by omega)
    rw [List.getD_eq_getElem?_getD, List.getElem?_drop, ← List.getD_eq_getElem?_getD] at hlast
    change RangeHasIntersection (s.range rangeIndex) (s.range (rangeIndex + _)) = true at hlast
    rw [rangeUnion_eq hlast]
    rfl

/-- What `removeRange` leaves of a range that reaches beyond `r`. -/
def rest (r x : Range) : Range :=
  if RangeRightBound x = UINT64_MAX then ⟨RangeRightBound r + 1, UINT64_MAX⟩
  else ⟨RangeRightBound r + 1, RangeRightBound x - (RangeRightBound r + 1)⟩

theorem rest_bounds (h : RangeRightBound r < RangeRightBound x) :
    (rest r x).bounds = (RangeRightBound r + 1, RangeRightBound x) := by
  rw [rest]
  split_ifs with hmax
  · rw [hmax]
    exact Prod.ext rfl (rightBound_max (RangeRightBound r + 1))
  · exact Prod.ext rfl (rightBound_sub (by grind))

theorem intersection_bounds (h : RangeHasIntersection x r = true) (hx : x.Valid)
    (hle : r.location ≤ x.location) :
    (RangeIntersection x r).bounds =
      (x.location, min (RangeRightBound x) (RangeRightBound r)) := by
  obtain ⟨h₁, h₂, -⟩ := hasIntersection_iff.1 h
  rw [RangeIntersection, if_neg (not_lt.2 h₁), if_neg (not_lt.2 h₂)]
  have hmin : x.location ≤ min (RangeRightBound x) (RangeRightBound r) := le_min hx h₁
  simp only [max_eq_left hle]
  split_ifs with hmax
  · rw [hmax]
    exact Prod.ext rfl (rightBound_max x.location)
  · exact Prod.ext rfl (rightBound_sub hmin)

/-- What is left of a range that does not begin below `r`. -/
theorem rangeRemoveRange_eq (h : RangeHasIntersection x r = true) (hx : x.Valid)
    (hle : r.location ≤ x.location) :
    (RangeRemoveRange x r).mRanges =
      if RangeRightBound r < RangeRightBound x then [rest r x] else [] := by
  obtain ⟨hloc, hright⟩ := Prod.ext_iff.1 (intersection_bounds h hx hle)
  change (RangeIntersection x r).location = x.location at hloc
  change RangeRightBound (RangeIntersection x r) = min _ _ at hright
  have hxmax := SecMail.le_max (RangeRightBound x)
  simp only [RangeRemoveRange, h, RangeLeftBound, hloc, hright, lt_irrefl, Bool.not_true,
    Bool.false_eq_true, if_false]
  rcases lt_or_ge (RangeRightBound r) (RangeRightBound x) with hlt | hge
  · rw [min_eq_right hlt.le, if_pos hlt, if_pos (hlt.trans_le hxmax).ne, if_pos hlt, rest]
    split_ifs <;> rw [indexSet_addRange]
  · rw [min_eq_left hge, if_neg (not_lt.2 hge), if_neg (lt_irrefl _)]
    split_ifs <;> rfl

/-! ### The loop -/

theorem removeRangeLoop_stop (h : ∀ x ∈ B.head?, RangeHasIntersection x r = false) :
    removeRangeLoop r i bounds B = (B, bounds) := by
  cases B with
  | nil => rfl
  | cons x B =>
    rw [removeRangeLoop.eq_def]
    exact if_neg (by simp [h x rfl])

theorem removeRangeLoop_rest (h : RangeHasIntersection x r = true) (hx : x.Valid)
    (hle : r.location ≤ x.location) (hlt : RangeRightBound r < RangeRightBound x)
    (hB : ∀ x ∈ B.head?, RangeHasIntersection x r = false) :
    removeRangeLoop r i bounds (x :: B) = (rest r x :: B, bounds) := by
  rw [removeRangeLoop.eq_def]
  simp only [h, if_true, rangeRemoveRange_eq h hx hle, hlt, removeRangeLoop_stop hB]

/-- The first and the last range that are removed, after those of `C`. -/
def removedBounds (i : ℕ) (bounds : Option (ℕ × ℕ)) (C : List Range) : Option (ℕ × ℕ) :=
  match C with
  | [] => bounds
  | _ :: C => some ((bounds.map Prod.fst).getD i, i + C.length)

theorem removeRangeLoop_append
    (hC : ∀ x ∈ C, RangeHasIntersection x r = true ∧ x.Valid ∧ r.location ≤ x.location ∧
      RangeRightBound x ≤ RangeRightBound r) :
    removeRangeLoop r i bounds (C ++ B) =
      (C.map (fun _ => RangeEmpty) ++
          (removeRangeLoop r (i + C.length) (removedBounds i bounds C) B).1,
        (removeRangeLoop r (i + C.length) (removedBounds i bounds C) B).2) := by
  induction C generalizing i bounds with
  | nil => rfl
  | cons x C ih =>
    obtain ⟨⟨hx, hvalid, hle, hright⟩, hC⟩ := List.forall_mem_cons.1 hC
    have hbounds : removedBounds (i + 1) (some (removedAt i bounds)) C =
        removedBounds i bounds (x :: C) := by
      have hleft : (removedAt i bounds).1 = (bounds.map Prod.fst).getD i := by
        cases bounds <;> rfl
      cases C with
      | nil =>
        refine congrArg some (Prod.ext hleft ?_)
        cases bounds <;> rfl
      | cons y C =>
        refine congrArg some (Prod.ext hleft ?_)
        simp only [List.length_cons]
        omega
    rw [List.cons_append, removeRangeLoop.eq_def]
    simp only [hx, if_true, rangeRemoveRange_eq hx hvalid hle, not_lt.2 hright, if_false,
      ih hC, hbounds, List.map_cons, List.cons_append, List.length_cons]
    rw [show i + 1 + C.length = i + (C.length + 1) by omega]

/-! ### `removeRange` -/

/-- The ranges that `removeRange` leaves of those that it reaches. -/
def rests (r : Range) (B : List Range) : List Range :=
  (B.dropWhile fun x => decide (RangeRightBound x ≤ RangeRightBound r)).map (rest r)

/-- Of the ranges that `r` reaches, only the last one can reach beyond it. -/
theorem exists_rests (hB : WellFormed ⟨B⟩) (h : ∀ x ∈ B, RangeHasIntersection r x = true) :
    ∃ C D, B = C ++ D ∧ (∀ x ∈ C, RangeRightBound x ≤ RangeRightBound r) ∧
      rests r B = D.map (rest r) ∧
      (D = [] ∨ ∃ y, D = [y] ∧ RangeRightBound r < RangeRightBound y) := by
  let f : Range → Bool := fun x => decide (RangeRightBound x ≤ RangeRightBound r)
  refine ⟨B.takeWhile f, B.dropWhile f, (List.takeWhile_append_dropWhile).symm,
    fun x hx => ?_, rfl, ?_⟩
  · have hfx : f x = true := List.mem_takeWhile_imp hx
    exact of_decide_eq_true hfx
  have hsplit := List.takeWhile_append_dropWhile (p := f) (l := B)
  have hnot := List.head?_dropWhile_not f B
  generalize B.takeWhile f = C at hsplit
  generalize B.dropWhile f = D at hsplit hnot
  obtain _ | ⟨y, _ | ⟨z, D⟩⟩ := D
  · exact .inl rfl
  · exact .inr ⟨y, rfl, not_le.1 (of_decide_eq_false hnot)⟩
  · exfalso
    have hy : RangeRightBound r < RangeRightBound y := not_le.1 (of_decide_eq_false hnot)
    rw [← hsplit, wellFormed_append] at hB
    have hyz := (wellFormed_cons.1 hB.2.1).2.1 z List.mem_cons_self
    have hz := (hasIntersection_iff.1 (h z (by simp [← hsplit]))).2.1
    exact absurd (hy.trans hyz) (not_lt.2 hz)

theorem removeRange_eq (hs : s.WellFormed) (h : Inserted s r A B₁ B₂) :
    s.removeRange r = ⟨A ++ (rests r B₁ ++ B₂)⟩ := by
  have hwf := hs
  rw [h.eq, wellFormed_append, wellFormed_append] at hwf
  obtain ⟨C, D, hCD, hC, hrests, hD⟩ := exists_rests hwf.2.1.1 h.reached
  have hdrop : s.mRanges.drop A.length = C ++ (D ++ B₂) := by
    rw [h.split, List.drop_left, hCD, List.append_assoc]
  have htake : s.mRanges.take A.length = A := by rw [h.split, List.take_left]
  have hall : ∀ x ∈ C ++ D,
      RangeHasIntersection x r = true ∧ x.Valid ∧ r.location ≤ x.location := by
    intro x hx
    rw [← hCD] at hx
    rw [hasIntersection_comm]
    exact ⟨h.reached x hx, hwf.2.1.1.valid hx, h.above x (List.mem_append_left _ hx)⟩
  have hstop : ∀ x ∈ B₂.head?, RangeHasIntersection x r = false := by
    intro x hx
    rw [hasIntersection_comm]
    exact h.next x hx
  have hloop : removeRangeLoop r A.length none (C ++ (D ++ B₂)) =
      (C.map (fun _ => RangeEmpty) ++ (rests r B₁ ++ B₂), removedBounds A.length none C) := by
    rw [removeRangeLoop_append fun x hx => ?_]
    · have hrest : ∀ j b, removeRangeLoop r j b (D ++ B₂) = (rests r B₁ ++ B₂, b) := by
        intro j b
        rw [hrests]
        obtain rfl | ⟨y, rfl, hlt⟩ := hD
        · exact removeRangeLoop_stop hstop
        · obtain ⟨hy, hv, hle⟩ := hall y (by simp)
          exact removeRangeLoop_rest hy hv hle hlt hstop
      rw [hrest]
    · obtain ⟨hx', hv, hle⟩ := hall x (List.mem_append_left _ hx)
      exact ⟨hx', hv, hle, hC x hx⟩
  simp only [removeRange, h.index, hdrop, htake, hloop]
  cases C with
  | nil => rfl
  | cons x C =>
    simp only [removedBounds, Option.map_none, Option.getD_none]
    rw [show A.length + C.length - A.length + 1 =
      ((x :: C).map fun _ => RangeEmpty).length by simp]
    exact removeRangeIndex_length rfl

/-- The ranges stay apart. -/
theorem removeRange_wellFormed (hs : s.WellFormed) (r : Range) :
    (s.removeRange r).WellFormed := by
  obtain ⟨A, B₁, B₂, h⟩ := exists_inserted hs r
  rw [removeRange_eq hs h]
  rw [h.eq, wellFormed_append, wellFormed_append] at hs
  obtain ⟨hA, ⟨hB₁, hB₂, hB₁₂⟩, hAB⟩ := hs
  obtain ⟨C, D, rfl, -, hrests, hD⟩ := exists_rests hB₁ h.reached
  rw [hrests]
  obtain rfl | ⟨y, rfl, hlt⟩ := hD
  · exact wellFormed_append.2
      ⟨hA, hB₂, fun a ha b hb => hAB a ha b (List.mem_append_right _ hb)⟩
  · obtain ⟨hloc, hright⟩ := Prod.ext_iff.1 (rest_bounds hlt)
    change (rest r y).location = RangeRightBound r + 1 at hloc
    change RangeRightBound (rest r y) = RangeRightBound y at hright
    have hy : y ∈ C ++ [y] := by simp
    have hyr := (hasIntersection_iff.1 (h.reached y hy)).2.1
    rw [List.map_singleton, List.singleton_append, wellFormed_append, wellFormed_cons]
    refine ⟨hA, ⟨?_, fun b hb => hright ▸ hB₁₂ y hy b hb, hB₂⟩, fun a ha b hb => ?_⟩
    · change (rest r y).location ≤ _
      rw [hloc, hright]
      grind
    · obtain rfl | hb := List.mem_cons.1 hb
      · have hay := hAB a ha y (by simp)
        rw [hloc]
        grind
      · exact hAB a ha b (List.mem_append_right _ hb)

theorem indexes_rests (hB : WellFormed ⟨B⟩) (h : ∀ x ∈ B, RangeHasIntersection r x = true)
    (hle : ∀ x ∈ B, r.location ≤ x.location) :
    indexes ⟨rests r B⟩ = indexes ⟨B⟩ \ Set.Icc r.bounds.1 r.bounds.2 := by
  obtain ⟨C, D, rfl, hC, hrests, hD⟩ := exists_rests hB h
  have hCr : indexes ⟨C⟩ ⊆ Set.Icc r.bounds.1 r.bounds.2 := by
    rintro n ⟨p, hp, hn⟩
    obtain ⟨x, hx, rfl⟩ := List.mem_map.1 hp
    exact ⟨(hle x (List.mem_append_left _ hx)).trans hn.1, hn.2.trans (hC x hx)⟩
  rw [hrests, indexes_append, Set.union_sdiff_distrib, Set.sdiff_eq_empty.2 hCr, Set.empty_union]
  obtain rfl | ⟨y, rfl, hlt⟩ := hD
  · simp [indexes, intervals]
  · have hy : y ∈ C ++ [y] := by simp
    have hyr := (hasIntersection_iff.1 (h y hy)).2.1
    have hyl := hle y hy
    rw [List.map_singleton, indexes_cons, indexes_cons, rest_bounds hlt]
    ext n
    simp only [indexes, intervals, List.map_nil, Intervals.points_nil, Set.union_empty,
      Set.mem_Icc, Set.mem_sdiff, Range.bounds, RangeLeftBound]
    grind

/-- Nothing but numbers of the range is removed, and no number is added. -/
theorem removeRange_between (hs : s.WellFormed) (r : Range) :
    s.indexes \ Set.Icc r.bounds.1 r.bounds.2 ⊆ (s.removeRange r).indexes ∧
      (s.removeRange r).indexes ⊆ s.indexes := by
  obtain ⟨A, B₁, B₂, h⟩ := exists_inserted hs r
  have hwf := hs
  rw [h.eq, wellFormed_append, wellFormed_append] at hwf
  rw [removeRange_eq hs h, indexes_append, indexes_append, h.eq, indexes_append,
    indexes_append, indexes_rests hwf.2.1.1 h.reached
      fun x hx => h.above x (List.mem_append_left _ hx)]
  constructor
  · rintro n ⟨hn | hn | hn, hnr⟩
    · exact .inl hn
    · exact .inr (.inl ⟨hn, hnr⟩)
    · exact .inr (.inr hn)
  · exact Set.union_subset_union_right _ (Set.union_subset_union_left _ Set.sdiff_subset)

/-- The numbers of the range are removed exactly if no range reaches into it from below. -/
theorem removeRange_indexes_iff (hs : s.WellFormed) (hr : r.Valid) :
    (s.removeRange r).indexes = s.indexes \ Set.Icc r.bounds.1 r.bounds.2 ↔ s.Fits r := by
  obtain ⟨A, B₁, B₂, h⟩ := exists_inserted hs r
  have hwf := hs
  rw [h.eq, wellFormed_append, wellFormed_append] at hwf
  have hrests := indexes_rests hwf.2.1.1 h.reached
    fun x hx => h.above x (List.mem_append_left _ hx)
  have hremove : (s.removeRange r).indexes =
      indexes ⟨A⟩ ∪ (indexes ⟨B₁⟩ \ Set.Icc r.bounds.1 r.bounds.2 ∪ indexes ⟨B₂⟩) := by
    rw [removeRange_eq hs h, indexes_append, indexes_append, hrests]
  constructor
  · intro heq
    -- a number of the range that is still in the set
    have hstays : ∀ {x : Range} {n : UInt64}, x ∈ A ∨ x ∈ B₂ →
        n ∈ Set.Icc x.bounds.1 x.bounds.2 → n ∉ Set.Icc r.bounds.1 r.bounds.2 := by
      intro x n hx hn
      have hmem : n ∈ (s.removeRange r).indexes := by
        rw [hremove]
        obtain hx | hx := hx
        · exact .inl (Intervals.mem_points (List.mem_map_of_mem hx) hn)
        · exact .inr (.inr (Intervals.mem_points (List.mem_map_of_mem hx) hn))
      rw [heq] at hmem
      exact hmem.2
    refine ⟨fun x hx hlt => ?_, fun hmax x hx hxmax => ?_⟩
    · rw [h.split] at hx
      obtain hx | hx := List.mem_append.1 hx
      · by_contra hge
        exact hstays (.inl hx) ⟨hlt.le, not_lt.1 hge⟩ ⟨le_rfl, hr⟩
      · exact absurd hlt (not_lt.2 (h.above x hx))
    · refine hstays (.inr (h.mem_of_max hx hxmax)) (n := UINT64_MAX) ⟨hxmax.le, ?_⟩
        ⟨SecMail.le_max _, hmax.ge⟩
      have hv := hs.valid hx
      rw [Range.Valid, RangeLeftBound, hxmax] at hv
      exact hv
  · intro hfits
    have hA : Disjoint (indexes ⟨A⟩) (Set.Icc r.bounds.1 r.bounds.2) := by
      rw [Set.disjoint_left]
      rintro n ⟨p, hp, hn⟩ hnr
      obtain ⟨x, hx, rfl⟩ := List.mem_map.1 hp
      have hreach := hfits.1 x (h.split ▸ List.mem_append_left _ hx) (h.below x hx)
      exact absurd (hnr.1.trans hn.2) (not_le.2 hreach)
    have hB₂ : Disjoint (indexes ⟨B₂⟩) (Set.Icc r.bounds.1 r.bounds.2) := by
      rw [Set.disjoint_left]
      rintro n ⟨p, hp, hn⟩ hnr
      obtain ⟨x, hx, rfl⟩ := List.mem_map.1 hp
      exact absurd (hn.1.trans hnr.2) (not_le.2 (h.lt_location hs hfits x hx))
    rw [hremove, h.eq, indexes_append, indexes_append, Set.union_sdiff_distrib,
      Set.union_sdiff_distrib, hA.sdiff_eq_left, hB₂.sdiff_eq_left]

end IndexSet

end SecMail
