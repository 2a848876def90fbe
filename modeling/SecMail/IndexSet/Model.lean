import SecMail.Interval.Basic

/-!
# Index sets

`IndexSet` keeps a set of 64-bit numbers as a sorted array of ranges.  The numbers of a request, the
UIDs that a search has found and the capabilities of a session are sets of this kind.

A range holds the `length + 1` numbers from `location` on; the length `UINT64_MAX` stands for "and
everything above".  All numbers are `uint64_t`, and their arithmetic wraps around.
-/

namespace SecMail

/-- The largest `uint64_t`. -/
def UINT64_MAX : UInt64 := 0xFFFFFFFFFFFFFFFF

/-- A range of numbers. -/
structure Range where
  location : UInt64
  length : UInt64
  deriving DecidableEq

/-- The range that stands for none. -/
def RangeEmpty : Range := ⟨UINT64_MAX, 0⟩

/-- The first number of a range. -/
def RangeLeftBound (range : Range) : UInt64 := range.location

/-- The last number of a range, with the wrap-around of the addition. -/
def RangeRightBound (range : Range) : UInt64 :=
  if range.length = UINT64_MAX then UINT64_MAX else range.location + range.length

/-- The numbers that are in both ranges. -/
def RangeIntersection (range1 range2 : Range) : Range :=
  if RangeRightBound range2 < range1.location then RangeEmpty
  else if RangeRightBound range1 < range2.location then RangeEmpty
  else
    let leftResult := max range1.location range2.location
    let rightResult := min (RangeRightBound range1) (RangeRightBound range2)
    if rightResult = UINT64_MAX then ⟨leftResult, UINT64_MAX⟩
    else ⟨leftResult, rightResult - leftResult⟩

/-- The intersection is told from `RangeEmpty` by its location alone. -/
def RangeHasIntersection (range1 range2 : Range) : Bool :=
  decide ((RangeIntersection range1 range2).location ≠ UINT64_MAX)

/-- The range that `RangeUnion` makes of two ranges that have an intersection. -/
def unionOfIntersecting (range1 range2 : Range) : Range :=
  let resultLeft := min range1.location range2.location
  let resultRight := max (RangeRightBound range1) (RangeRightBound range2)
  if resultRight = UINT64_MAX then ⟨resultLeft, UINT64_MAX⟩
  else ⟨resultLeft, resultRight - resultLeft⟩

/-- A set of indexes.  `mCount` is the length of `mRanges`. -/
structure IndexSet where
  mRanges : List Range
  deriving DecidableEq

namespace IndexSet

/-- The empty set. -/
def indexSet : IndexSet := ⟨[]⟩

variable (s : IndexSet)

/-- `mRanges[i]` -/
def range (i : ℕ) : Range := s.mRanges.getD i RangeEmpty

/-! ### Searching -/

/-- The source returns `-1` where there is none. -/
def rangeIndexForIndexWithBounds (idx : UInt64) (left right : ℕ) : Option ℕ :=
  let middle := (left + right) / 2
  let middleRange := s.range middle
  if left < right then
    if RangeLeftBound middleRange ≤ idx ∧ idx ≤ RangeRightBound middleRange then some middle
    else if idx < middleRange.location then rangeIndexForIndexWithBounds idx left middle
    else rangeIndexForIndexWithBounds idx (middle + 1) right
  else if RangeLeftBound middleRange ≤ idx ∧ idx ≤ RangeRightBound middleRange then some left
  else none
termination_by right - left

/-- The range that holds `idx`. -/
def rangeIndexForIndex (idx : UInt64) : Option ℕ :=
  if s.mRanges.length = 0 then none
  else s.rangeIndexForIndexWithBounds idx 0 (s.mRanges.length - 1)

/-- The binary search for the first range that does not begin below `idx`. -/
def leftRangeIndexForIndexWithBounds (idx : UInt64) (left right : ℕ) : ℕ :=
  let middle := (left + right) / 2
  let middleRange := s.range middle
  if left < right then
    if idx ≤ middleRange.location then leftRangeIndexForIndexWithBounds idx left middle
    else leftRangeIndexForIndexWithBounds idx (middle + 1) right
  else if idx ≤ middleRange.location then left
  else left + 1
termination_by right - left

/-- The first range that does not begin below `idx`. -/
def leftRangeIndexForIndex (idx : UInt64) : ℕ :=
  if s.mRanges.length = 0 then 0
  else s.leftRangeIndexForIndexWithBounds idx 0 (s.mRanges.length - 1)

/-- The set has a range that holds `idx`. -/
def containsIndex (idx : UInt64) : Bool := (s.rangeIndexForIndex idx).isSome

/-! ### Adding -/

/-- Make room for a range. -/
def addRangeIndex (rangeIndex : ℕ) : IndexSet := ⟨s.mRanges.insertIdx rangeIndex ⟨0, 0⟩⟩

/-- `mRanges[i] = range` -/
def setRange (i : ℕ) (range : Range) : IndexSet := ⟨s.mRanges.set i range⟩

/-- Remove `count` ranges. -/
def removeRangeIndex (rangeIndex count : ℕ) : IndexSet :=
  ⟨s.mRanges.take rangeIndex ++ s.mRanges.drop (rangeIndex + count)⟩

/-- Merge a range with the next one if that begins where it ends. -/
def tryToMergeAdjacentRanges (rangeIndex : ℕ) : IndexSet :=
  if RangeRightBound (s.range rangeIndex) = UINT64_MAX then s
  else if RangeRightBound (s.range rangeIndex) + 1 ≠ (s.range (rangeIndex + 1)).location then s
  else
    let right := RangeRightBound (s.range (rangeIndex + 1))
    let s := s.removeRangeIndex (rangeIndex + 1) 1
    s.setRange rangeIndex ⟨(s.range rangeIndex).location, right - (s.range rangeIndex).location⟩

/-- Merge the range with those behind it that it has an intersection with.  The merged range is the
first one of `RangeUnion` (`mergeRanges_eq_rangeUnion`). -/
def mergeRanges (rangeIndex : ℕ) : IndexSet :=
  let intersecting :=
    (s.mRanges.drop rangeIndex).takeWhile (RangeHasIntersection (s.range rangeIndex))
  let right := rangeIndex + (intersecting.length - 1)
  if right = rangeIndex then s
  else
    let range := unionOfIntersecting (s.range rangeIndex) (s.range right)
    (s.removeRangeIndex (rangeIndex + 1) (right - rangeIndex)).setRange rangeIndex range

/-- Add the numbers of a range: insert it, and merge it with its neighbours. -/
def addRange (range : Range) : IndexSet :=
  let rangeIndex := s.leftRangeIndexForIndex range.location
  let s := (s.addRangeIndex rangeIndex).setRange rangeIndex range
  let s := s.mergeRanges rangeIndex
  let s := if 0 < rangeIndex then s.tryToMergeAdjacentRanges (rangeIndex - 1) else s
  if rangeIndex < s.mRanges.length - 1 then s.tryToMergeAdjacentRanges rangeIndex else s

/-- Add one number. -/
def addIndex (idx : UInt64) : IndexSet := s.addRange ⟨idx, 0⟩

/-- The set of one range. -/
def indexSetWithRange (range : Range) : IndexSet := indexSet.addRange range

end IndexSet

/-- The numbers that are in one of the ranges. -/
def RangeUnion (range1 range2 : Range) : IndexSet :=
  if !RangeHasIntersection range1 range2 then
    (IndexSet.indexSet.addRange range1).addRange range2
  else .indexSetWithRange (unionOfIntersecting range1 range2)

/-- The numbers of the first range that are not in the second one. -/
def RangeRemoveRange (range1 range2 : Range) : IndexSet :=
  if !RangeHasIntersection range1 range2 then .indexSetWithRange range1
  else
    let range2 := RangeIntersection range1 range2
    let left1 := RangeLeftBound range1
    let right1 := RangeRightBound range1
    let left2 := RangeLeftBound range2
    let right2 := RangeRightBound range2
    let result := IndexSet.indexSet
    let result := if left1 < left2 then result.addRange ⟨left1, left2 - left1 - 1⟩ else result
    if right2 ≠ UINT64_MAX then
      if right1 = UINT64_MAX then result.addRange ⟨right2 + 1, UINT64_MAX⟩
      else if right2 < right1 then result.addRange ⟨right2 + 1, right1 - (right2 + 1)⟩
      else result
    else result

namespace IndexSet

/-! ### Removing -/

/-- `left` and `right` in `removeRange`, which are `-1` in the source as long as nothing is removed,
once the range at `i` is removed. -/
def removedAt (i : ℕ) : Option (ℕ × ℕ) → ℕ × ℕ
  | none => (i, i)
  | some (left, _) => (left, i)

/-- The loop of `removeRange` from `i` on: the ranges there afterwards, and the first and the last
one to be removed. -/
def removeRangeLoop (range : Range) :
    ℕ → Option (ℕ × ℕ) → List Range → List Range × Option (ℕ × ℕ)
  | _, bounds, [] => ([], bounds)
  | i, bounds, r :: rs =>
    if RangeHasIntersection r range then
      match (RangeRemoveRange r range).mRanges with
      | [] =>
        let (rs, bounds) := removeRangeLoop range (i + 1) (some (removedAt i bounds)) rs
        (RangeEmpty :: rs, bounds)
      | [r'] =>
        let (rs, bounds) := removeRangeLoop range (i + 1) bounds rs
        (r' :: rs, bounds)
      -- the loop ends at the second piece, which lies beyond `range`
      | r₁ :: r₂ :: _ => (r₁ :: r₂ :: rs, bounds)
    else (r :: rs, bounds)

variable (s : IndexSet)

/-- Remove the numbers of a range. -/
def removeRange (range : Range) : IndexSet :=
  let leftRangeIndex := s.leftRangeIndexForIndex range.location
  let (rs, bounds) :=
    removeRangeLoop range leftRangeIndex none (s.mRanges.drop leftRangeIndex)
  let s : IndexSet := ⟨s.mRanges.take leftRangeIndex ++ rs⟩
  match bounds with
  | none => s
  | some (left, right) => s.removeRangeIndex left (right - left + 1)

/-- Remove one number. -/
def removeIndex (idx : UInt64) : IndexSet := s.removeRange ⟨idx, 0⟩

end IndexSet

end SecMail
