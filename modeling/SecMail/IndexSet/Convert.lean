import SecMail.IndexSet.Add
import SecMail.Text.Components
import Mathlib.Algebra.Group.Nat.Defs

/-!
# Other forms of an index set

An index set goes to a server as a list of intervals, ten in a command, and comes back as one; and
it is saved as an array of texts.

* `setFromIndexSet`, `splitSet`, `indexSetFromSet` : the way to the server and back;
* `RangeToString`, `RangeFromString`, `IndexSet.serializable`, `IndexSet.importSerializable` : the
  texts;
* `IndexSet.foldl_addRange` : ranges that are added in order;
* `sent_exact` : the commands name the numbers of the set;
* `importSerializable_serializable` : a saved set is read back.
-/

namespace SecMail

/-- An interval of `struct mailimap_set`; the number 0 in `set_last` stands for `*`. -/
structure SetItem where
  set_first : UInt32
  set_last : UInt32
  deriving DecidableEq

/-- The interval that `setFromIndexSet` adds for a range. -/
def Range.item (range : Range) : SetItem :=
  let left := RangeLeftBound range
  let right := RangeRightBound range
  let right := if right = UINT64_MAX then 0 else right
  ⟨left.toUInt32, right.toUInt32⟩

/-- The items of an index set. -/
def setFromIndexSet (indexSet : IndexSet) : List SetItem := indexSet.mRanges.map Range.item

/-- The range that `indexSetFromSet` adds for an interval. -/
def SetItem.range (item : SetItem) : Range :=
  if item.set_last = 0 then ⟨item.set_first.toUInt64, UINT64_MAX⟩
  else ⟨item.set_first.toUInt64, (item.set_last - item.set_first).toUInt64⟩

/-- The index set of some items. -/
def indexSetFromSet (imap_set : List SetItem) : IndexSet :=
  imap_set.foldl (fun indexSet item => indexSet.addRange item.range) .indexSet

/-- The loop of `splitSet`, with the items of `current_set`. -/
def splitSetLoop (splitCount : ℕ) : List SetItem → List SetItem → List (List SetItem)
  | current_set, [] => if current_set = [] then [] else [current_set]
  | current_set, item :: items =>
    let current_set := current_set ++ [item]
    if splitCount ≤ current_set.length then current_set :: splitSetLoop splitCount [] items
    else splitSetLoop splitCount current_set items

/-- The items in parts of `splitCount` each. -/
def splitSet (set : List SetItem) (splitCount : ℕ) : List (List SetItem) :=
  splitSetLoop splitCount [] set

/-! ### Texts -/

/-- The characters that `strtoull` skips. -/
def isspace (c : Char) : Bool := decide (c ∈ [' ', '\t', '\n', '\x0b', '\x0c', '\r'])

/-- `strtoull` in base 10. -/
def unsignedLongLongValue (s : List Char) : UInt64 :=
  let s := s.dropWhile isspace
  let value (digits : List Char) : UInt64 :=
    .ofNat (min (Nat.ofDigitChars 10 (digits.takeWhile Char.isDigit) 0) UINT64_MAX.toNat)
  match s with
  | '-' :: digits => 0 - value digits
  | '+' :: digits => value digits
  | digits => value digits

/-- The format `%llu-%llu`. -/
def RangeToString (range : Range) : List Char :=
  Nat.toDigits 10 range.location.toNat ++ '-' :: Nat.toDigits 10 range.length.toNat

/-- The range of a text; one that is not of two parts is empty. -/
def RangeFromString (rangeString : List Char) : Range :=
  match rangeString.splitOn '-' with
  | [locationString, lengthString] =>
    ⟨unsignedLongLongValue locationString, unsignedLongLongValue lengthString⟩
  | _ => RangeEmpty

namespace IndexSet

/-- The array `ranges` of the serialized set. -/
def serializable (s : IndexSet) : List (List Char) := s.mRanges.map RangeToString

/-- Add the ranges of some texts to the set. -/
def importSerializable (s : IndexSet) (ranges : List (List Char)) : IndexSet :=
  ranges.foldl (fun s rangeStr => s.addRange (RangeFromString rangeStr)) s

/-! ### Ranges that are added in order -/

/-- Ranges that are apart, and behind the numbers of the set, are added one after the other. -/
theorem foldl_addRange {s : IndexSet} (hs : s.WellFormed) (rs : List Range)
    (hrs : WellFormed ⟨rs⟩) (hlt : ∀ n ∈ s.indexes, ∀ r ∈ rs, n < r.location) :
    (rs.foldl addRange s).WellFormed ∧
      (rs.foldl addRange s).indexes = s.indexes ∪ indexes ⟨rs⟩ := by
  induction rs generalizing s with
  | nil => exact ⟨hs, by simp [indexes, intervals]⟩
  | cons r rs ih =>
    obtain ⟨hr, hnext, hrs⟩ := wellFormed_cons.1 hrs
    have hbound : ∀ x ∈ s.mRanges, RangeRightBound x < r.location := fun x hx =>
      hlt _ (Intervals.mem_points (List.mem_map_of_mem hx) ⟨hs.valid hx, le_rfl⟩) r
        List.mem_cons_self
    have hfits : s.Fits r := by
      refine ⟨fun x hx _ => hbound x hx, fun _ x hx hmax => ?_⟩
      have hxr := (hs.valid hx).trans_lt (hbound x hx)
      rw [RangeLeftBound, hmax] at hxr
      exact absurd hxr (not_lt.2 (SecMail.le_max _))
    have hindexes := addRange_indexes hs hr
    obtain ⟨hwf, heq⟩ := ih ((addRange_wellFormed_iff hs hr).2 hfits) hrs fun n hn x hx => by
      rw [hindexes] at hn
      obtain hn | hn := hn
      · exact hlt n hn x (List.mem_cons_of_mem _ hx)
      · exact hn.2.trans_lt (hnext x hx)
    refine ⟨hwf, ?_⟩
    rw [List.foldl_cons, heq, hindexes, indexes_cons, Set.union_assoc]

/-- The ranges of a set, added to an empty one. -/
theorem foldl_addRange_indexSet {s : IndexSet} (hs : s.WellFormed) :
    (s.mRanges.foldl addRange indexSet).WellFormed ∧
      (s.mRanges.foldl addRange indexSet).indexes = s.indexes := by
  have hempty : indexSet.indexes = ∅ := by simp [indexSet, indexes, intervals]
  obtain ⟨hwf, heq⟩ := foldl_addRange (s := indexSet) Intervals.apart_nil s.mRanges hs
    fun n hn => by simp [hempty] at hn
  exact ⟨hwf, by rw [heq, hempty, Set.empty_union]⟩

end IndexSet

/-! ### The way to the server and back -/

theorem splitSetLoop_flatten (splitCount : ℕ) (current_set items : List SetItem) :
    (splitSetLoop splitCount current_set items).flatten = current_set ++ items := by
  induction items generalizing current_set with
  | nil =>
    rw [splitSetLoop]
    split_ifs with hnil <;> simp [hnil]
  | cons item items ih =>
    rw [splitSetLoop]
    split_ifs <;> simp [ih]

theorem length_of_mem_splitSetLoop {splitCount : ℕ} (hpos : 0 < splitCount)
    {current_set items : List SetItem} (hlt : current_set.length < splitCount) :
    ∀ part ∈ splitSetLoop splitCount current_set items,
      part ≠ [] ∧ part.length ≤ splitCount := by
  induction items generalizing current_set with
  | nil =>
    rw [splitSetLoop]
    split_ifs with hnil
    · simp
    · simpa using ⟨hnil, hlt.le⟩
  | cons item items ih =>
    rw [splitSetLoop]
    split_ifs with hle
    · refine List.forall_mem_cons.2 ⟨⟨by simp, ?_⟩, ih hpos⟩
      rw [List.length_append, List.length_singleton]
      omega
    · exact ih (not_le.1 hle)

/-- The largest `uint32_t`. -/
def UINT32_MAX : UInt64 := 0xFFFFFFFF

/-- The range can be named in a command: its bounds have 32 bits, and it does not end with 0. -/
def Range.Sendable (r : Range) : Prop :=
  r.location ≤ UINT32_MAX ∧ RangeRightBound r ≠ 0 ∧
    (RangeRightBound r ≤ UINT32_MAX ∨ RangeRightBound r = UINT64_MAX)

instance (r : Range) : Decidable r.Sendable := inferInstanceAs (Decidable (_ ∧ _ ∧ _))

theorem toUInt64_toUInt32 {x : UInt64} (hx : x ≤ UINT32_MAX) : x.toUInt32.toUInt64 = x := by
  have hx' : x.toNat < 4294967296 := Nat.lt_succ_of_le (UInt64.le_iff_toNat_le.1 hx)
  apply UInt64.toNat.inj
  simp [Nat.mod_eq_of_lt hx']

/-- The way to the server and back keeps the bounds. -/
theorem Range.item_range_bounds {r : Range} (hr : r.Valid) (hs : r.Sendable) :
    r.item.range.bounds = r.bounds := by
  obtain ⟨hloc, hne, hright⟩ := hs
  have hfirst : r.item.set_first.toUInt64 = r.location := toUInt64_toUInt32 hloc
  by_cases hmax : RangeRightBound r = UINT64_MAX
  · have hlast : r.item.set_last = 0 := by
      rw [Range.item]
      simp only [hmax, if_true]
      rfl
    rw [SetItem.range, if_pos hlast, hfirst, Range.bounds, Range.bounds, hmax]
    exact Prod.ext rfl (rightBound_max r.location)
  · have hright := hright.resolve_right hmax
    have hlast : r.item.set_last.toUInt64 = RangeRightBound r := by
      rw [Range.item]
      simp only [hmax, if_false]
      exact toUInt64_toUInt32 hright
    have hlast0 : r.item.set_last ≠ 0 := by
      intro heq
      rw [heq] at hlast
      exact hne hlast.symm
    have hle : r.item.set_first ≤ r.item.set_last := by
      rw [UInt32.le_iff_toNat_le, ← UInt32.toNat_toUInt64, ← UInt32.toNat_toUInt64, hfirst, hlast]
      exact UInt64.le_iff_toNat_le.1 hr
    have hlength : (r.item.set_last - r.item.set_first).toUInt64 =
        RangeRightBound r - r.location := by
      rw [← hfirst, ← hlast]
      apply UInt64.toNat.inj
      rw [UInt64.toNat_sub_of_le _ _ ?_, UInt32.toNat_toUInt64, UInt32.toNat_sub_of_le _ _ hle]
      · simp
      · rw [hfirst, hlast]
        exact hr
    rw [SetItem.range, if_neg hlast0, hfirst, hlength]
    exact Prod.ext rfl (rightBound_sub hr)

open IndexSet

/-- **What is asked for in parts is what was asked for.**  The commands for a set name its numbers,
and no others; each of them has up to `splitCount` intervals, and none is empty. -/
theorem sent_exact {s : IndexSet} (hs : s.WellFormed) (hsend : ∀ r ∈ s.mRanges, r.Sendable)
    {splitCount : ℕ} (hpos : 0 < splitCount) :
    (indexSetFromSet (splitSet (setFromIndexSet s) splitCount).flatten).indexes = s.indexes ∧
      (indexSetFromSet (splitSet (setFromIndexSet s) splitCount).flatten).WellFormed ∧
      ∀ part ∈ splitSet (setFromIndexSet s) splitCount,
        part ≠ [] ∧ part.length ≤ splitCount := by
  have hintervals : (s.mRanges.map fun r => r.item.range).map Range.bounds = s.intervals := by
    rw [List.map_map]
    exact List.map_congr_left fun r hr => r.item_range_bounds (hs.valid hr) (hsend r hr)
  let t : IndexSet := ⟨s.mRanges.map fun r => r.item.range⟩
  have ht : t.WellFormed := by
    rw [WellFormed, intervals, hintervals]
    exact hs
  have hindexes : t.indexes = s.indexes := by
    rw [indexes, intervals, hintervals]
    rfl
  have hback : indexSetFromSet (splitSet (setFromIndexSet s) splitCount).flatten =
      t.mRanges.foldl addRange .indexSet := by
    rw [splitSet, splitSetLoop_flatten, List.nil_append, indexSetFromSet, setFromIndexSet,
      List.foldl_map, List.foldl_map]
  rw [hback]
  obtain ⟨hwf, heq⟩ := foldl_addRange_indexSet ht
  exact ⟨heq.trans hindexes, hwf, length_of_mem_splitSetLoop hpos hpos⟩

/-- Messages 1 to 3, 7 and from 12 on, asked for in two commands. -/
theorem sent_exact_three :
    (indexSetFromSet (splitSet (setFromIndexSet ⟨[⟨1, 2⟩, ⟨7, 0⟩, ⟨12, UINT64_MAX⟩]⟩) 2).flatten
      ).indexes = indexes ⟨[⟨1, 2⟩, ⟨7, 0⟩, ⟨12, UINT64_MAX⟩]⟩ := by
  refine (sent_exact (s := ⟨[⟨1, 2⟩, ⟨7, 0⟩, ⟨12, UINT64_MAX⟩]⟩) ?_ ?_ (Nat.succ_pos 1)).1
  · simp only [wellFormed_cons, List.mem_cons, List.not_mem_nil, or_false, forall_eq_or_imp,
      forall_eq, IsEmpty.forall_iff, implies_true, true_and]
    exact ⟨by decide, by decide, by decide, by decide, by decide, Intervals.apart_nil⟩
  · simp only [List.mem_cons, List.not_mem_nil, or_false, forall_eq_or_imp, forall_eq]
    decide

/-! ### Texts -/

theorem unsignedLongLongValue_toDigits (x : UInt64) :
    unsignedLongLongValue (Nat.toDigits 10 x.toNat) = x := by
  have hdigit : ∀ c ∈ Nat.toDigits 10 x.toNat, c.isDigit = true :=
    fun c hc => Nat.isDigit_of_mem_toDigits (by omega) (by omega) hc
  have hvalue : UInt64.ofNat (min (Nat.ofDigitChars 10 ((Nat.toDigits 10 x.toNat).takeWhile
      Char.isDigit) 0) UINT64_MAX.toNat) = x := by
    rw [List.takeWhile_eq_self_iff.2 hdigit, Nat.ofDigitChars_ten_toDigits,
      min_eq_left (UInt64.le_iff_toNat_le.1 (le_max x)), UInt64.ofNat_toNat]
  obtain ⟨c, l, hcl⟩ := List.exists_cons_of_ne_nil (Nat.toDigits_ne_nil (b := 10) (n := x.toNat))
  have hc : c.isDigit = true := hdigit c (by simp [hcl])
  have hspace : isspace c = false := by
    rw [isspace, decide_eq_false_iff_not]
    intro hmem
    simp only [List.mem_cons, List.not_mem_nil, or_false] at hmem
    rcases hmem with rfl | rfl | rfl | rfl | rfl | rfl <;> exact absurd hc (by decide)
  rw [hcl] at hvalue ⊢
  simp only [unsignedLongLongValue, List.dropWhile_cons, hspace, Bool.false_eq_true, if_false]
  split
  · rename_i heq
    cases heq
    exact absurd hc (by decide)
  · rename_i heq
    cases heq
    exact absurd hc (by decide)
  · exact hvalue

theorem rangeFromString_rangeToString (r : Range) : RangeFromString (RangeToString r) = r := by
  have hminus : ∀ n : ℕ, '-' ∉ Nat.toDigits 10 n := by
    intro n hmem
    have := Nat.isDigit_of_mem_toDigits (b := 10) (by omega) (by omega) hmem
    exact absurd this (by decide)
  rw [RangeFromString, RangeToString, List.splitOn_append_cons_self_of_not_mem (hminus _),
    List.splitOn_eq_singleton (hminus _)]
  simp only [unsignedLongLongValue_toDigits]

/-- **A saved set is read back.**  The set may have fewer ranges, but it has the same numbers, and
is still in order. -/
theorem importSerializable_serializable {s : IndexSet} (hs : s.WellFormed) :
    (indexSet.importSerializable s.serializable).indexes = s.indexes ∧
      (indexSet.importSerializable s.serializable).WellFormed := by
  have heq : indexSet.importSerializable s.serializable = s.mRanges.foldl addRange indexSet := by
    simp only [importSerializable, serializable, List.foldl_map, rangeFromString_rangeToString]
  rw [heq]
  exact (foldl_addRange_indexSet hs).symm

/-- The first two ranges are adjacent, and are read back as one. -/
theorem importSerializable_serializable_three :
    (indexSet.importSerializable (serializable ⟨[⟨1, 5⟩, ⟨7, 2⟩, ⟨20, UINT64_MAX⟩]⟩)).indexes =
      indexes ⟨[⟨1, 5⟩, ⟨7, 2⟩, ⟨20, UINT64_MAX⟩]⟩ := by
  refine (importSerializable_serializable
    (s := ⟨[⟨1, 5⟩, ⟨7, 2⟩, ⟨20, UINT64_MAX⟩]⟩) ?_).1
  simp only [wellFormed_cons, List.mem_cons, List.not_mem_nil, or_false, forall_eq_or_imp,
    forall_eq, IsEmpty.forall_iff, implies_true, true_and]
  exact ⟨by decide, by decide, by decide, by decide, by decide, Intervals.apart_nil⟩

end SecMail
