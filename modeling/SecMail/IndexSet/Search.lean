import SecMail.IndexSet.Model
import Mathlib.Data.List.GetD

/-!
# Searching an index set

The binary searches of `IndexSet` are right on ranges that are in order and apart.

* `IndexSet.intervals`, `IndexSet.indexes` : the bounds of the ranges, and the numbers in them;
* `IndexSet.leftRangeIndexForIndex_spec` : where the ranges that begin at an index or above start;
* `IndexSet.containsIndex_iff` : a number is found exactly if it is in the set.
-/

namespace SecMail

instance linearOrderUInt64 : LinearOrder UInt64 where
  le_refl := UInt64.le_refl
  le_trans _ _ _ := UInt64.le_trans
  le_antisymm _ _ := UInt64.le_antisymm
  le_total := UInt64.le_total
  lt_iff_le_not_ge a b := by grind
  toDecidableLE := inferInstance
  toDecidableEq := inferInstance
  toDecidableLT := inferInstance

/-- The first and the last number of a range. -/
def Range.bounds (r : Range) : UInt64 × UInt64 := (RangeLeftBound r, RangeRightBound r)

namespace IndexSet

/-- The bounds of the ranges. -/
def intervals (s : IndexSet) : List (UInt64 × UInt64) := s.mRanges.map Range.bounds

/-- The numbers in the set. -/
def indexes (s : IndexSet) : Set UInt64 := Intervals.points s.intervals

/-- The ranges are in order and apart. -/
def WellFormed (s : IndexSet) : Prop := Intervals.Apart s.intervals

variable {s : IndexSet} {idx : UInt64} {left right i j : ℕ}

theorem range_eq_getElem (h : i < s.mRanges.length) : s.range i = s.mRanges[i] :=
  List.getD_eq_getElem _ _ h

namespace WellFormed

theorem location_mono (hs : s.WellFormed) (hj : j < s.mRanges.length) (hij : i ≤ j) :
    (s.range i).location ≤ (s.range j).location := by
  have hi : i < s.mRanges.length := hij.trans_lt hj
  have hmono := hs.fst_mono (i := i) (j := j) (by simpa [intervals] using hi)
    (by simpa [intervals] using hj) hij
  rw [range_eq_getElem hi, range_eq_getElem hj]
  simp only [intervals, List.getElem_map] at hmono
  exact hmono

theorem rightBound_lt (hs : s.WellFormed) (hj : j < s.mRanges.length) (hij : i < j) :
    RangeRightBound (s.range i) < (s.range j).location := by
  have hi : i < s.mRanges.length := hij.trans hj
  have hlt := hs.snd_lt_fst (i := i) (j := j) (by simpa [intervals] using hi)
    (by simpa [intervals] using hj) hij
  rw [range_eq_getElem hi, range_eq_getElem hj]
  simp only [intervals, List.getElem_map] at hlt
  exact hlt

end WellFormed

/-- The search for the first range that does not begin below `idx`. -/
theorem leftRangeIndexForIndexWithBounds_spec (hs : s.WellFormed) (idx : UInt64)
    (hlr : left ≤ right) (hr : right < s.mRanges.length) :
    let i := s.leftRangeIndexForIndexWithBounds idx left right
    left ≤ i ∧ i ≤ right + 1 ∧ (∀ j, left ≤ j → j < i → (s.range j).location < idx) ∧
      ∀ j, i ≤ j → j ≤ right → idx ≤ (s.range j).location := by
  fun_induction s.leftRangeIndexForIndexWithBounds idx left right with
  | case1 left right middle middleRange hlt hle ih =>
    obtain ⟨h₁, h₂, h₃, h₄⟩ := ih (by omega) (by omega)
    refine ⟨h₁, by omega, h₃, fun j hj hjr => ?_⟩
    rcases le_or_gt j middle with hjm | hjm
    · exact h₄ j hj hjm
    · exact hle.trans (hs.location_mono (by omega) hjm.le)
  | case2 left right middle middleRange hlt hle ih =>
    obtain ⟨h₁, h₂, h₃, h₄⟩ := ih (by omega) hr
    refine ⟨by omega, h₂, fun j hj hji => ?_, h₄⟩
    rcases le_or_gt j middle with hjm | hjm
    · exact (hs.location_mono (by omega) hjm).trans_lt (not_le.1 hle)
    · exact h₃ j hjm hji
  | case3 left right middle middleRange hlt hle =>
    obtain rfl : left = right := by omega
    have hmid : middle = left := by omega
    refine ⟨le_rfl, by omega, fun j hj hji => by omega, fun j hj hjr => ?_⟩
    rw [show j = middle by omega]
    exact hle
  | case4 left right middle middleRange hlt hle =>
    obtain rfl : left = right := by omega
    have hmid : middle = left := by omega
    refine ⟨by omega, le_rfl, fun j hj hji => ?_, fun j hj hjr => by omega⟩
    rw [show j = middle by omega]
    exact not_le.1 hle

/-- The ranges are cut in two: those that begin below `idx`, and the others. -/
theorem leftRangeIndexForIndex_spec (hs : s.WellFormed) (idx : UInt64) :
    s.leftRangeIndexForIndex idx ≤ s.mRanges.length ∧
      (∀ r ∈ s.mRanges.take (s.leftRangeIndexForIndex idx), r.location < idx) ∧
      ∀ r ∈ s.mRanges.drop (s.leftRangeIndexForIndex idx), idx ≤ r.location := by
  rw [leftRangeIndexForIndex]
  split_ifs with hlen
  · simp [List.length_eq_zero_iff.1 hlen]
  · obtain ⟨-, hle, hbelow, habove⟩ :=
      leftRangeIndexForIndexWithBounds_spec hs idx (Nat.zero_le _)
        (show s.mRanges.length - 1 < s.mRanges.length by omega)
    refine ⟨by omega, fun r hr => ?_, fun r hr => ?_⟩
    · obtain ⟨j, hj, rfl⟩ := List.getElem_of_mem hr
      rw [List.length_take] at hj
      rw [List.getElem_take, ← range_eq_getElem]
      exact hbelow j (Nat.zero_le _) (by omega)
    · obtain ⟨j, hj, rfl⟩ := List.getElem_of_mem hr
      rw [List.length_drop] at hj
      rw [List.getElem_drop, ← range_eq_getElem]
      exact habove _ (by omega) (by omega)

/-- The search for the range that holds `idx`. -/
theorem rangeIndexForIndexWithBounds_isSome_iff (hs : s.WellFormed) (hlr : left ≤ right)
    (hr : right < s.mRanges.length) :
    (s.rangeIndexForIndexWithBounds idx left right).isSome = true ↔
      ∃ j, left ≤ j ∧ j ≤ right ∧ idx ∈ Set.Icc (s.range j).bounds.1 (s.range j).bounds.2 := by
  fun_induction s.rangeIndexForIndexWithBounds idx left right with
  | case1 left right middle middleRange hlt hmem =>
    exact iff_of_true rfl ⟨middle, by omega, by omega, hmem⟩
  | case2 left right middle middleRange hlt hmem hbelow ih =>
    rw [ih (by omega) (by omega)]
    constructor
    · rintro ⟨j, hj, hjm, hidx⟩
      exact ⟨j, hj, by omega, hidx⟩
    · rintro ⟨j, hj, hjr, hidx⟩
      refine ⟨j, hj, ?_, hidx⟩
      by_contra hjm
      exact absurd (hidx.1.trans_lt hbelow) (not_lt.2 (hs.location_mono (by omega) (by omega)))
  | case3 left right middle middleRange hlt hmem hbelow ih =>
    rw [ih (by omega) hr]
    constructor
    · rintro ⟨j, hj, hjr, hidx⟩
      exact ⟨j, by omega, hjr, hidx⟩
    · rintro ⟨j, hj, hjr, hidx⟩
      refine ⟨j, ?_, hjr, hidx⟩
      by_contra hjm
      -- the ranges up to the middle end below `idx`
      have hmid : RangeRightBound middleRange < idx := by
        by_contra hle
        exact hmem ⟨not_lt.1 hbelow, not_lt.1 hle⟩
      obtain rfl | hlt' := (show j ≤ middle by omega).eq_or_lt
      · exact absurd hidx.2 (not_le.2 hmid)
      · exact absurd (hidx.2.trans_lt (hs.rightBound_lt (by omega) hlt')) hbelow
  | case4 left right middle middleRange hlt hmem =>
    exact iff_of_true rfl ⟨middle, by omega, by omega, hmem⟩
  | case5 left right middle middleRange hlt hmem =>
    refine iff_of_false (by simp) ?_
    rintro ⟨j, hj, hjr, hidx⟩
    rw [show j = middle by omega] at hidx
    exact hmem hidx

theorem mem_indexes_iff :
    idx ∈ s.indexes ↔
      ∃ j < s.mRanges.length, idx ∈ Set.Icc (s.range j).bounds.1 (s.range j).bounds.2 := by
  constructor
  · rintro ⟨p, hp, hidx⟩
    obtain ⟨r, hr, rfl⟩ := List.mem_map.1 hp
    obtain ⟨j, hj, rfl⟩ := List.getElem_of_mem hr
    exact ⟨j, hj, by rwa [range_eq_getElem hj]⟩
  · rintro ⟨j, hj, hidx⟩
    rw [range_eq_getElem hj] at hidx
    exact ⟨_, List.mem_map_of_mem (List.getElem_mem hj), hidx⟩

/-- A number is found exactly if it is in the set. -/
theorem containsIndex_iff (hs : s.WellFormed) : s.containsIndex idx = true ↔ idx ∈ s.indexes := by
  rw [containsIndex, rangeIndexForIndex, mem_indexes_iff]
  split_ifs with hlen
  · simp [hlen]
  · rw [rangeIndexForIndexWithBounds_isSome_iff hs (Nat.zero_le _) (by omega)]
    constructor
    · rintro ⟨j, -, hj, hidx⟩
      exact ⟨j, by omega, hidx⟩
    · rintro ⟨j, hj, hidx⟩
      exact ⟨j, Nat.zero_le _, by omega, hidx⟩

end IndexSet

end SecMail
