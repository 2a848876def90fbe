import SecMail.IndexSet.Search
import Mathlib.Data.List.TakeWhile
import Mathlib.Order.MinMax

/-!
# Adding to an index set

`addRange` puts the range in front of those that do not begin below it, merges it with those of
them that it reaches, and with its neighbours if it is adjacent to them.  It never looks at whether
a range that begins below reaches into the new one.

* `IndexSet.Fits` : none does, and the new range does not end with one at `UINT64_MAX`;
* `IndexSet.addRange_indexes` : the numbers of the range are added, always;
* `IndexSet.addRange_wellFormed_iff` : the ranges stay apart exactly if the range fits.
-/

namespace SecMail

/-- The range ends where it begins or above: its right bound has not wrapped around. -/
def Range.Valid (r : Range) : Prop := RangeLeftBound r ≤ RangeRightBound r

instance (r : Range) : Decidable r.Valid := inferInstanceAs (Decidable (_ ≤ _))

section Bounds

variable {l r : UInt64} {range1 range2 : Range}

@[simp] theorem rightBound_max (l : UInt64) : RangeRightBound ⟨l, UINT64_MAX⟩ = UINT64_MAX :=
  if_pos rfl

theorem rightBound_sub (h : l ≤ r) : RangeRightBound ⟨l, r - l⟩ = r := by
  rw [RangeRightBound, UINT64_MAX]
  split_ifs with hlen <;> grind

theorem le_max (x : UInt64) : x ≤ UINT64_MAX := by
  rw [UINT64_MAX]
  grind

theorem unionOfIntersecting_bounds (h1 : range1.Valid) (range2 : Range) :
    (unionOfIntersecting range1 range2).bounds =
      (min range1.location range2.location,
        max (RangeRightBound range1) (RangeRightBound range2)) := by
  have hle : min range1.location range2.location ≤
      max (RangeRightBound range1) (RangeRightBound range2) :=
    (min_le_left _ _).trans (h1.trans (le_max_left _ _))
  simp only [unionOfIntersecting]
  split_ifs with hmax
  · rw [hmax]
    exact Prod.ext rfl (rightBound_max (min range1.location range2.location))
  · exact Prod.ext rfl (rightBound_sub hle)

/-- Ranges that meet at `UINT64_MAX` only are taken to have no intersection. -/
theorem hasIntersection_iff :
    RangeHasIntersection range1 range2 = true ↔
      range1.location ≤ RangeRightBound range2 ∧ range2.location ≤ RangeRightBound range1 ∧
        max range1.location range2.location ≠ UINT64_MAX := by
  rw [RangeHasIntersection, decide_eq_true_iff, RangeIntersection]
  split_ifs with h21 h12
  · exact iff_of_false (fun hne => hne rfl) fun h => absurd h.1 (not_le.2 h21)
  · exact iff_of_false (fun hne => hne rfl) fun h => absurd h.2.1 (not_le.2 h12)
  · dsimp only
    rw [apply_ite Range.location, ite_self]
    exact ⟨fun h => ⟨not_lt.1 h21, not_lt.1 h12, h⟩, fun h => h.2.2⟩

end Bounds

namespace IndexSet

variable {s : IndexSet} {r p q : Range} {A B B₁ B₂ : List Range}

theorem mk_wellFormed_iff :
    WellFormed ⟨A⟩ ↔ Intervals.Apart (A.map Range.bounds) := Iff.rfl

theorem WellFormed.valid (hs : s.WellFormed) (hr : r ∈ s.mRanges) : r.Valid :=
  hs.le _ (List.mem_map_of_mem hr)

theorem indexes_append : indexes ⟨A ++ B⟩ = indexes ⟨A⟩ ∪ indexes ⟨B⟩ := by
  simp [indexes, intervals]

theorem indexes_cons : indexes ⟨r :: B⟩ = Set.Icc r.bounds.1 r.bounds.2 ∪ indexes ⟨B⟩ := by
  simp [indexes, intervals]

theorem wellFormed_append : WellFormed ⟨A ++ B⟩ ↔ WellFormed ⟨A⟩ ∧ WellFormed ⟨B⟩ ∧
    ∀ a ∈ A, ∀ b ∈ B, RangeRightBound a < b.location := by
  simp only [mk_wellFormed_iff, List.map_append, Intervals.apart_append, List.forall_mem_map]
  exact Iff.rfl

theorem wellFormed_cons : WellFormed ⟨r :: B⟩ ↔
    r.Valid ∧ (∀ b ∈ B, RangeRightBound r < b.location) ∧ WellFormed ⟨B⟩ := by
  simp only [mk_wellFormed_iff, List.map_cons, Intervals.apart_cons, List.forall_mem_map]
  exact Iff.rfl

/-! ### Merging neighbours -/

theorem range_length (hs : s.mRanges = A ++ p :: B) : s.range A.length = p := by simp [range, hs]

theorem addRangeIndex_length (hs : s.mRanges = A ++ B) :
    s.addRangeIndex A.length = ⟨A ++ ⟨0, 0⟩ :: B⟩ := by
  rw [addRangeIndex, hs]
  congr 1
  clear hs
  induction A with
  | nil => rfl
  | cons a A ih => rw [List.cons_append, List.length_cons, List.insertIdx_succ_cons, ih]; rfl

theorem setRange_length (hs : s.mRanges = A ++ p :: B) :
    s.setRange A.length q = ⟨A ++ q :: B⟩ := by simp [setRange, hs]

theorem removeRangeIndex_length (hs : s.mRanges = A ++ (B₁ ++ B₂)) :
    s.removeRangeIndex A.length B₁.length = ⟨A ++ B₂⟩ := by
  rw [removeRangeIndex, hs, List.take_left, ← List.drop_drop, List.drop_left, List.drop_left]

/-- The removal of the ranges behind `p`. -/
theorem removeRangeIndex_length_succ (hs : s.mRanges = A ++ p :: (B₁ ++ B₂)) :
    s.removeRangeIndex (A.length + 1) B₁.length = ⟨A ++ p :: B₂⟩ := by
  have hs' : s.mRanges = (A ++ [p]) ++ (B₁ ++ B₂) := by simp [hs]
  have hremove := removeRangeIndex_length hs'
  rw [List.length_append, List.length_singleton] at hremove
  simpa using hremove

theorem tryToMergeAdjacentRanges_eq (hs : s.mRanges = A ++ p :: q :: B) :
    s.tryToMergeAdjacentRanges A.length =
      if RangeRightBound p ≠ UINT64_MAX ∧ RangeRightBound p + 1 = q.location then
        ⟨A ++ ⟨p.location, RangeRightBound q - p.location⟩ :: B⟩
      else s := by
  have hp : s.range A.length = p := range_length hs
  have hq : s.range (A.length + 1) = q := by simp [range, hs]
  have hremove : s.removeRangeIndex (A.length + 1) [q].length = ⟨A ++ p :: B⟩ :=
    removeRangeIndex_length_succ hs
  rw [List.length_singleton] at hremove
  rw [tryToMergeAdjacentRanges, hp, hq]
  by_cases hmax : RangeRightBound p = UINT64_MAX
  · rw [if_pos hmax, if_neg fun h => h.1 hmax]
  · by_cases hadj : RangeRightBound p + 1 = q.location
    · rw [if_neg hmax, if_neg (not_not.2 hadj), if_pos ⟨hmax, hadj⟩, hremove]
      dsimp only
      rw [range_length rfl]
      exact setRange_length rfl
    · rw [if_neg hmax, if_pos hadj, if_neg fun h => hadj h.2]

/-- Merging two adjacent ranges changes neither the numbers nor whether the ranges are apart. -/
theorem tryToMergeAdjacentRanges_spec {i : ℕ} (hi : i + 1 < s.mRanges.length)
    (hv : ∀ r ∈ s.mRanges, r.Valid) :
    (s.tryToMergeAdjacentRanges i).indexes = s.indexes ∧
      ((s.tryToMergeAdjacentRanges i).WellFormed ↔ s.WellFormed) ∧
      ∀ r ∈ (s.tryToMergeAdjacentRanges i).mRanges, r.Valid := by
  obtain ⟨A, p, q, B, hs, rfl⟩ : ∃ A p q B, s.mRanges = A ++ p :: q :: B ∧ A.length = i := by
    refine ⟨s.mRanges.take i, s.mRanges[i], s.mRanges[i + 1], s.mRanges.drop (i + 2), ?_, ?_⟩
    · rw [← List.drop_eq_getElem_cons hi, ← List.drop_eq_getElem_cons (Nat.lt_of_succ_lt hi),
        List.take_append_drop]
    · rw [List.length_take]
      omega
  rw [tryToMergeAdjacentRanges_eq hs]
  split_ifs with hif
  · obtain ⟨hmax, hadj⟩ := hif
    have hp : p.Valid := hv p (by simp [hs])
    have hq : q.Valid := hv q (by simp [hs])
    simp only [Range.Valid, RangeLeftBound] at hp hq
    have hlt : RangeRightBound p < q.location := by
      rw [UINT64_MAX] at hmax
      grind
    have hle : p.location ≤ RangeRightBound q := hp.trans (hlt.le.trans hq)
    have hbound := rightBound_sub hle
    have heq : s = ⟨A ++ p :: q :: B⟩ := congrArg IndexSet.mk hs
    have hjoin : Set.Icc p.location (RangeRightBound q) =
        Set.Icc p.location (RangeRightBound p) ∪ Set.Icc q.location (RangeRightBound q) := by
      ext x
      simp only [Set.mem_Icc, Set.mem_union]
      grind
    refine ⟨?_, ?_, ?_⟩
    · rw [heq, indexes_append, indexes_append, indexes_cons, indexes_cons, indexes_cons]
      simp only [Range.bounds, RangeLeftBound, hbound, hjoin, Set.union_assoc]
    · rw [heq]
      simp only [wellFormed_append, wellFormed_cons, List.forall_mem_cons, Range.Valid,
        RangeLeftBound, hbound]
      constructor
      · rintro ⟨hA, ⟨-, hqB, hB⟩, hAB⟩
        exact ⟨hA, ⟨hp, ⟨hlt, fun b hb => hlt.trans (hq.trans_lt (hqB b hb))⟩, hq, hqB, hB⟩,
          fun a ha => ⟨(hAB a ha).1, (hAB a ha).1.trans (hp.trans_lt hlt), (hAB a ha).2⟩⟩
      · rintro ⟨hA, ⟨-, -, -, hqB, hB⟩, hAB⟩
        exact ⟨hA, ⟨hle, hqB, hB⟩, fun a ha => ⟨(hAB a ha).1, (hAB a ha).2.2⟩⟩
    · intro x hx
      simp only [List.mem_append, List.mem_cons] at hx
      obtain hx | rfl | hx := hx
      · exact hv x (by simp [hs, hx])
      · exact hle.trans_eq hbound.symm
      · exact hv x (by simp [hs, hx])
  · exact ⟨rfl, Iff.rfl, hv⟩

/-! ### Merging with the ranges behind -/

/-- The range that `mergeRanges` leaves of `r` and the ranges that it merges with it. -/
def mergedWith (r : Range) (B : List Range) : Range :=
  match B.getLast? with
  | none => r
  | some x => unionOfIntersecting r x

theorem takeWhile_append_of_head {f : Range → Bool} (h₁ : ∀ x ∈ B₁, f x = true)
    (h₂ : ∀ x ∈ B₂.head?, f x = false) : (B₁ ++ B₂).takeWhile f = B₁ := by
  rw [List.takeWhile_append_of_pos h₁]
  cases B₂ with
  | nil => simp
  | cons x B₂ => simp [h₂ x rfl]

theorem mergeRanges_eq (hs : s.mRanges = A ++ r :: (B₁ ++ B₂)) (hr : r.Valid)
    (h₁ : ∀ x ∈ B₁, RangeHasIntersection r x = true)
    (h₂ : ∀ x ∈ B₂.head?, RangeHasIntersection r x = false) :
    s.mergeRanges A.length = ⟨A ++ mergedWith r B₁ :: B₂⟩ := by
  have hrange : s.range A.length = r := range_length hs
  have hlength : ((s.mRanges.drop A.length).takeWhile (RangeHasIntersection r)).length - 1 =
      B₁.length := by
    rw [hs, List.drop_left, List.takeWhile_cons]
    split_ifs with hself
    · rw [takeWhile_append_of_head h₁ h₂]
      rfl
    · -- a range at `UINT64_MAX` has no intersection with any range
      cases B₁ with
      | nil => rfl
      | cons x B₁ =>
        refine absurd ?_ hself
        obtain ⟨-, -, hmax⟩ := hasIntersection_iff.1 (h₁ x List.mem_cons_self)
        refine hasIntersection_iff.2 ⟨hr, hr, fun heq => hmax ?_⟩
        rw [max_self] at heq
        rw [heq]
        exact max_eq_left (SecMail.le_max _)
  simp only [mergeRanges, hrange, hlength]
  cases hB : B₁.getLast? with
  | none =>
    obtain rfl := List.getLast?_eq_none_iff.1 hB
    rw [List.length_nil, Nat.add_zero, if_pos rfl]
    exact congrArg IndexSet.mk hs
  | some x =>
    obtain ⟨B, rfl⟩ := List.getLast?_eq_some_iff.1 hB
    have hx : s.range (A.length + (B ++ [x]).length) = x := by simp [range, hs]
    rw [if_neg (by simp), hx, Nat.add_sub_cancel_left, removeRangeIndex_length_succ hs]
    simpa [mergedWith] using setRange_length rfl

/-- The merged range reaches as far as `r` and the last of the ranges merged with it. -/
theorem mergedWith_bounds (hr : r.Valid) (hB : WellFormed ⟨B⟩)
    (hle : ∀ x ∈ B, r.location ≤ x.location) :
    (mergedWith r B).location = r.location ∧
      RangeRightBound r ≤ RangeRightBound (mergedWith r B) ∧
      (∀ x ∈ B, RangeRightBound x ≤ RangeRightBound (mergedWith r B)) ∧
      (RangeRightBound (mergedWith r B) = RangeRightBound r ∨
        ∃ x ∈ B, RangeRightBound x = RangeRightBound (mergedWith r B)) := by
  rw [mergedWith]
  cases hlast : B.getLast? with
  | none =>
    obtain rfl := List.getLast?_eq_none_iff.1 hlast
    simp
  | some x =>
    obtain ⟨B, rfl⟩ := List.getLast?_eq_some_iff.1 hlast
    have hx : x ∈ B ++ [x] := List.mem_append_right _ (List.mem_singleton_self x)
    have hbounds := unionOfIntersecting_bounds hr x
    obtain ⟨hloc, hright⟩ := Prod.ext_iff.1 hbounds
    change (unionOfIntersecting r x).location = min r.location x.location at hloc
    change RangeRightBound (unionOfIntersecting r x) = max _ _ at hright
    rw [min_eq_left (hle x hx)] at hloc
    refine ⟨hloc, ?_, ?_, ?_⟩ <;> simp only [hright]
    · exact le_max_left _ _
    · intro y hy
      obtain hy | rfl := List.mem_append.1 hy |>.imp_right List.mem_singleton.1
      · have hlt := (wellFormed_append.1 hB).2.2 y hy x (List.mem_singleton_self x)
        exact hlt.le.trans ((hB.valid hx).trans (le_max_right _ _))
      · exact le_max_right _ _
    · rcases max_choice (RangeRightBound r) (RangeRightBound x) with h | h
      · exact .inl h
      · exact .inr ⟨x, hx, h.symm⟩

/-! ### `addRange` -/

/-- No range that begins below `range` reaches into it, and it does not end with one that begins
at `UINT64_MAX`. -/
def Fits (s : IndexSet) (range : Range) : Prop :=
  (∀ x ∈ s.mRanges, x.location < range.location → RangeRightBound x < range.location) ∧
    (RangeRightBound range = UINT64_MAX → ∀ x ∈ s.mRanges, x.location ≠ UINT64_MAX)

instance (range : Range) : Decidable (s.Fits range) := inferInstanceAs (Decidable (_ ∧ _))

/-- The ranges of `s` on both sides of a new one, and what is made of it before it is merged with
its neighbours. -/
structure Inserted (s : IndexSet) (r : Range) (A B₁ B₂ : List Range) : Prop where
  split : s.mRanges = A ++ (B₁ ++ B₂)
  index : s.leftRangeIndexForIndex r.location = A.length
  below : ∀ x ∈ A, x.location < r.location
  above : ∀ x ∈ B₁ ++ B₂, r.location ≤ x.location
  reached : ∀ x ∈ B₁, RangeHasIntersection r x = true
  next : ∀ x ∈ B₂.head?, RangeHasIntersection r x = false

theorem exists_inserted (hs : s.WellFormed) (r : Range) : ∃ A B₁ B₂, Inserted s r A B₁ B₂ := by
  obtain ⟨hle, hbelow, habove⟩ := leftRangeIndexForIndex_spec hs r.location
  let f := RangeHasIntersection r
  let B := s.mRanges.drop (s.leftRangeIndexForIndex r.location)
  refine ⟨s.mRanges.take (s.leftRangeIndexForIndex r.location), B.takeWhile f, B.dropWhile f,
    ?_, ?_, hbelow, ?_, fun x hx => List.mem_takeWhile_imp hx, ?_⟩
  · rw [List.takeWhile_append_dropWhile, List.take_append_drop]
  · rw [List.length_take, min_eq_left hle]
  · rwa [List.takeWhile_append_dropWhile]
  · intro x hx
    have hnot := List.head?_dropWhile_not f B
    rwa [show (B.dropWhile f).head? = some x from hx] at hnot

namespace Inserted

theorem eq (h : Inserted s r A B₁ B₂) : s = ⟨A ++ (B₁ ++ B₂)⟩ := congrArg IndexSet.mk h.split

theorem mergedWith (h : Inserted s r A B₁ B₂) (hs : s.WellFormed) (hr : r.Valid) :
    (mergedWith r B₁).location = r.location ∧
      RangeRightBound r ≤ RangeRightBound (IndexSet.mergedWith r B₁) ∧
      (∀ x ∈ B₁, RangeRightBound x ≤ RangeRightBound (IndexSet.mergedWith r B₁)) ∧
      (RangeRightBound (IndexSet.mergedWith r B₁) = RangeRightBound r ∨
        ∃ x ∈ B₁, RangeRightBound x = RangeRightBound (IndexSet.mergedWith r B₁)) := by
  rw [h.eq] at hs
  exact mergedWith_bounds hr (wellFormed_append.1 (wellFormed_append.1 hs).2.1).1
    fun x hx => h.above x (List.mem_append_left _ hx)

/-- The numbers before the range is merged with its neighbours. -/
theorem indexes (h : Inserted s r A B₁ B₂) (hs : s.WellFormed) (hr : r.Valid) :
    IndexSet.indexes ⟨A ++ IndexSet.mergedWith r B₁ :: B₂⟩ =
      s.indexes ∪ Set.Icc r.bounds.1 r.bounds.2 := by
  obtain ⟨hloc, hle, hB, hright⟩ := h.mergedWith hs hr
  have hmerged : Set.Icc r.location (RangeRightBound (IndexSet.mergedWith r B₁)) =
      Set.Icc r.location (RangeRightBound r) ∪ IndexSet.indexes ⟨B₁⟩ := by
    refine Intervals.icc_union_points (List.forall_mem_map.2 fun x hx => ⟨?_, ?_, hB x hx⟩) hle
      (hright.imp_right fun ⟨x, hx, heq⟩ => ⟨_, List.mem_map_of_mem hx, heq⟩)
    · exact h.above x (List.mem_append_left _ hx)
    · exact (hasIntersection_iff.1 (h.reached x hx)).2.1
  rw [h.eq, indexes_append, indexes_append, indexes_append, indexes_cons]
  simp only [Range.bounds, RangeLeftBound, hloc, hmerged]
  ext x
  simp only [Set.mem_union]
  tauto

/-- A range that begins at `UINT64_MAX` is not reached. -/
theorem mem_of_max {x : Range} (h : Inserted s r A B₁ B₂) (hx : x ∈ s.mRanges)
    (hmax : x.location = UINT64_MAX) : x ∈ B₂ := by
  rw [h.split] at hx
  obtain hx | hx := List.mem_append.1 hx
  · exact absurd (h.below x hx) (not_lt.2 (hmax ▸ SecMail.le_max _))
  · obtain hx | hx := List.mem_append.1 hx
    · refine absurd ?_ (hasIntersection_iff.1 (h.reached x hx)).2.2
      rw [hmax]
      exact max_eq_right (SecMail.le_max _)
    · exact hx

/-- The other ranges begin behind one that fits. -/
theorem lt_location (h : Inserted s r A B₁ B₂) (hs : s.WellFormed) (hfits : s.Fits r) :
    ∀ b ∈ B₂, RangeRightBound r < b.location := by
  intro b hb
  rw [h.eq, wellFormed_append, wellFormed_append] at hs
  obtain ⟨-, ⟨-, hB₂, -⟩, -⟩ := hs
  cases hB : B₂ with
  | nil => simp [hB] at hb
  | cons c C =>
    rw [hB] at hb hB₂
    have hcb : c.location ≤ b.location := by
      obtain rfl | hb := List.mem_cons.1 hb
      · exact le_rfl
      · exact (hB₂.valid List.mem_cons_self).trans ((wellFormed_cons.1 hB₂).2.1 b hb).le
    refine lt_of_lt_of_le (not_le.1 fun hcr => ?_) hcb
    have hrc : r.location ≤ c.location := h.above c (by simp [hB])
    have hnot := h.next c (by rw [hB]; rfl)
    rw [← Bool.not_eq_true, hasIntersection_iff] at hnot
    refine hnot ⟨hrc.trans (hB₂.valid List.mem_cons_self), hcr, fun hc => ?_⟩
    rw [max_eq_right hrc] at hc
    refine hfits.2 ?_ c (by simp [h.split, hB]) hc
    exact le_antisymm (SecMail.le_max _) (hc ▸ hcr)

/-- When the ranges are apart before the range is merged with its neighbours. -/
theorem wellFormed_iff (h : Inserted s r A B₁ B₂) (hs : s.WellFormed) (hr : r.Valid) :
    WellFormed ⟨A ++ IndexSet.mergedWith r B₁ :: B₂⟩ ↔ s.Fits r := by
  obtain ⟨hloc, hle, hB, hright⟩ := h.mergedWith hs hr
  have hwf := hs
  rw [h.eq, wellFormed_append, wellFormed_append] at hwf
  obtain ⟨hA, ⟨hB₁, hB₂, hB₁₂⟩, hAB⟩ := hwf
  have hmerged : r.location ≤ RangeRightBound (IndexSet.mergedWith r B₁) := le_trans hr hle
  rw [wellFormed_append, wellFormed_cons, Fits, h.split]
  constructor
  · rintro ⟨-, ⟨-, hlt, -⟩, hbelow⟩
    refine ⟨fun x hx hxr => ?_, fun hmax x hx hxmax => ?_⟩
    · obtain hx | hx := List.mem_append.1 hx
      · exact hloc ▸ hbelow x hx _ List.mem_cons_self
      · exact absurd hxr (not_lt.2 (h.above x hx))
    · have hlt' := hlt x (h.mem_of_max (h.split ▸ hx) hxmax)
      rw [hxmax] at hlt'
      exact absurd (hmax ▸ hle) (not_le.2 hlt')
  · rintro ⟨hreach, hmax⟩
    refine ⟨hA, ⟨hloc.trans_le hmerged, fun b hb => ?_, hB₂⟩, fun a ha b hb => ?_⟩
    · have hrb := h.lt_location hs (by rw [Fits, h.split]; exact ⟨hreach, hmax⟩) b hb
      obtain heq | ⟨x, hx, heq⟩ := hright
      · rwa [heq]
      · rw [← heq]
        exact hB₁₂ x hx b hb
    · obtain rfl | hb := List.mem_cons.1 hb
      · rw [hloc]
        exact hreach a (List.mem_append_left _ ha) (h.below a ha)
      · exact hAB a ha b (List.mem_append_right _ hb)

end Inserted

/-- What `addRange` does apart from merging neighbours. -/
theorem addRange_spec (hs : s.WellFormed) (hr : r.Valid) {A B₁ B₂ : List Range}
    (h : Inserted s r A B₁ B₂) :
    (s.addRange r).indexes = indexes ⟨A ++ mergedWith r B₁ :: B₂⟩ ∧
      ((s.addRange r).WellFormed ↔ WellFormed ⟨A ++ mergedWith r B₁ :: B₂⟩) := by
  have hinsert : (s.addRangeIndex A.length).setRange A.length r = ⟨A ++ r :: (B₁ ++ B₂)⟩ := by
    rw [addRangeIndex_length h.split]
    exact setRange_length rfl
  have hmerge : mergeRanges ⟨A ++ r :: (B₁ ++ B₂)⟩ A.length = ⟨A ++ mergedWith r B₁ :: B₂⟩ :=
    mergeRanges_eq rfl hr h.reached h.next
  have hvalid : ∀ x ∈ A ++ mergedWith r B₁ :: B₂, x.Valid := by
    have hmem : ∀ x ∈ A ++ (B₁ ++ B₂), x.Valid := fun x hx => hs.valid (h.split ▸ hx)
    obtain ⟨hloc, hle, -⟩ := h.mergedWith hs hr
    intro x hx
    simp only [List.mem_append, List.mem_cons] at hx hmem
    obtain hx | rfl | hx := hx
    · exact hmem x (.inl hx)
    · exact hloc.trans_le (le_trans hr hle)
    · exact hmem x (.inr (.inr hx))
  have hstep : ∀ t : IndexSet, (∀ x ∈ t.mRanges, x.Valid) → ∀ i, i + 1 < t.mRanges.length →
      (t.tryToMergeAdjacentRanges i).indexes = t.indexes ∧
        ((t.tryToMergeAdjacentRanges i).WellFormed ↔ t.WellFormed) ∧
        ∀ x ∈ (t.tryToMergeAdjacentRanges i).mRanges, x.Valid :=
    fun t ht i hi => tryToMergeAdjacentRanges_spec hi ht
  simp only [addRange, h.index, hinsert, hmerge]
  generalize hm : (⟨A ++ mergedWith r B₁ :: B₂⟩ : IndexSet) = m
  have hlen : A.length < m.mRanges.length := by simp [← hm]
  replace hvalid : ∀ x ∈ m.mRanges, x.Valid := by rwa [← hm]
  have hfirst : ∀ t, t = (if 0 < A.length then m.tryToMergeAdjacentRanges (A.length - 1) else m) →
      t.indexes = m.indexes ∧ (t.WellFormed ↔ m.WellFormed) ∧ ∀ x ∈ t.mRanges, x.Valid := by
    rintro t rfl
    split_ifs with hpos
    · exact hstep m hvalid _ (by omega)
    · exact ⟨rfl, Iff.rfl, hvalid⟩
  generalize ht : (if 0 < A.length then m.tryToMergeAdjacentRanges (A.length - 1) else m) = t
  obtain ⟨htindexes, htwf, htvalid⟩ := hfirst t ht.symm
  split_ifs with hlast
  · obtain ⟨hindexes, hwf, -⟩ := hstep t htvalid A.length (by omega)
    exact ⟨hindexes.trans htindexes, hwf.trans htwf⟩
  · exact ⟨htindexes, htwf⟩

/-- The numbers of the range are added. -/
theorem addRange_indexes (hs : s.WellFormed) (hr : r.Valid) :
    (s.addRange r).indexes = s.indexes ∪ Set.Icc r.bounds.1 r.bounds.2 := by
  obtain ⟨A, B₁, B₂, h⟩ := exists_inserted hs r
  rw [(addRange_spec hs hr h).1, h.indexes hs hr]

/-- The ranges stay apart exactly if no range reaches into the new one from below. -/
theorem addRange_wellFormed_iff (hs : s.WellFormed) (hr : r.Valid) :
    (s.addRange r).WellFormed ↔ s.Fits r := by
  obtain ⟨A, B₁, B₂, h⟩ := exists_inserted hs r
  rw [(addRange_spec hs hr h).2, h.wellFormed_iff hs hr]

end IndexSet

end SecMail
