import SecMail.IndexSet.Remove
import SecMail.LTS.Basic

/-!
# Index sets over whole runs

What becomes of a set to which ranges are added and from which they are removed, and what
`containsIndex` says of it.

* `indexSetSystem` : a set under calls of its methods;
* `contents` : the numbers that a history leaves in the set;
* `contains_exact_iff` : the runs in which the set holds these numbers, and finds them;
* `search_exact` : the numbers of a search.
-/

namespace SecMail

/-- The calls of an index set. -/
inductive IndexSetAction
  | addRange (range : Range)
  | addIndex (idx : UInt64)
  | removeRange (range : Range)
  | removeIndex (idx : UInt64)
  | containsIndex (idx : UInt64)
  deriving DecidableEq

namespace IndexSetAction

/-- The set after the call, and the answer of `containsIndex`. -/
def perform (s : IndexSet) : IndexSetAction → IndexSet × Option Bool
  | addRange range => (s.addRange range, none)
  | addIndex idx => (s.addIndex idx, none)
  | removeRange range => (s.removeRange range, none)
  | removeIndex idx => (s.removeIndex idx, none)
  | containsIndex idx => (s, some (s.containsIndex idx))

/-- The range of the call has not wrapped around. -/
def Valid : IndexSetAction → Prop
  | addRange range | removeRange range => range.Valid
  | _ => True

/-- The range of the call fits the set. -/
def Fits (s : IndexSet) : IndexSetAction → Prop
  | addRange range | removeRange range => s.Fits range
  | addIndex idx | removeIndex idx => s.Fits ⟨idx, 0⟩
  | containsIndex _ => True

/-- What the call should do to the numbers. -/
def apply (n : Set UInt64) : IndexSetAction → Set UInt64
  | addRange range => n ∪ Set.Icc range.bounds.1 range.bounds.2
  | addIndex idx => n ∪ {idx}
  | removeRange range => n \ Set.Icc range.bounds.1 range.bounds.2
  | removeIndex idx => n \ {idx}
  | containsIndex _ => n

instance : DecidablePred Valid := fun a => by
  cases a <;> unfold Valid <;> infer_instance

instance (s : IndexSet) : DecidablePred (Fits s) := fun a => by
  cases a <;> unfold Fits <;> infer_instance

end IndexSetAction

/-- An index set as a transition system. -/
def indexSetSystem : System IndexSet IndexSetAction (Option Bool) where
  next s a := some (a.perform s)

/-- The numbers that the calls should leave in the set. -/
def contents (h : List (IndexSetAction × Option Bool)) : Set UInt64 :=
  h.foldl (fun n e => e.1.apply n) ∅

/-- The answers of `containsIndex` are right. -/
def Answered (h : List (IndexSetAction × Option Bool)) : Prop :=
  ∀ h₁ idx b, h₁ ++ [(.containsIndex idx, some b)] <+: h → (b = true ↔ idx ∈ contents h₁)

namespace IndexSet

variable {s s' : IndexSet} {a : IndexSetAction} {b : Option Bool}
  {h : List (IndexSetAction × Option Bool)}

theorem contents_snoc : contents (h ++ [(a, b)]) = a.apply (contents h) := by
  rw [contents, List.foldl_append]
  rfl

theorem answered_snoc : Answered (h ++ [(a, b)]) ↔ Answered h ∧
    ∀ idx c, a = .containsIndex idx → b = some c → (c = true ↔ idx ∈ contents h) := by
  constructor
  · intro hall
    refine ⟨fun h₁ idx c hpre => hall h₁ idx c (hpre.trans (List.prefix_append _ _)), ?_⟩
    rintro idx c rfl rfl
    exact hall h idx c (List.prefix_refl _)
  · rintro ⟨hall, hlast⟩ h₁ idx c hpre
    obtain heq | hpre := List.prefix_concat_iff.1 hpre
    · obtain ⟨rfl, hlast'⟩ := List.append_inj' heq rfl
      cases hlast'
      exact hlast idx c rfl rfl
    · exact hall h₁ idx c hpre

theorem rightBound_index (idx : UInt64) : RangeRightBound ⟨idx, 0⟩ = idx := by
  have hne : (0 : UInt64) ≠ UINT64_MAX := by decide
  rw [RangeRightBound, if_neg hne]
  exact UInt64.add_zero idx

theorem index_valid (idx : UInt64) : Range.Valid ⟨idx, 0⟩ := (rightBound_index idx).ge

/-- A range of length 0 is one number. -/
theorem icc_index (idx : UInt64) :
    Set.Icc (Range.bounds ⟨idx, 0⟩).1 (Range.bounds ⟨idx, 0⟩).2 = {idx} := by
  rw [Range.bounds, rightBound_index]
  exact Set.Icc_self idx

/-- A call keeps the set well-formed and does what it should exactly if its range fits. -/
theorem perform_iff (hs : s.WellFormed) (ha : a.Valid) :
    a.Fits s ↔ (a.perform s).1.WellFormed ∧ (a.perform s).1.indexes = a.apply s.indexes := by
  have hadd : ∀ r : Range, r.Valid → (s.Fits r ↔ (s.addRange r).WellFormed ∧
      (s.addRange r).indexes = s.indexes ∪ Set.Icc r.bounds.1 r.bounds.2) := fun r hr => by
    rw [addRange_wellFormed_iff hs hr, and_iff_left (addRange_indexes hs hr)]
  have hremove : ∀ r : Range, r.Valid → (s.Fits r ↔ (s.removeRange r).WellFormed ∧
      (s.removeRange r).indexes = s.indexes \ Set.Icc r.bounds.1 r.bounds.2) := fun r hr => by
    rw [removeRange_indexes_iff hs hr, and_iff_right (removeRange_wellFormed hs r)]
  cases a with
  | addRange range => exact hadd range ha
  | removeRange range => exact hremove range ha
  | addIndex idx =>
    have hidx := hadd ⟨idx, 0⟩ (index_valid idx)
    rw [icc_index] at hidx
    exact hidx
  | removeIndex idx =>
    have hidx := hremove ⟨idx, 0⟩ (index_valid idx)
    rw [icc_index] at hidx
    exact hidx
  | containsIndex idx => exact iff_of_true trivial ⟨hs, rfl⟩

theorem indexes_indexSet : indexSet.indexes = ∅ := by simp [indexSet, indexes, intervals]

theorem wellFormed_indexSet : indexSet.WellFormed := Intervals.apart_nil

end IndexSet

open IndexSet

variable {s : IndexSet} {h : List (IndexSetAction × Option Bool)}

/-- **When an index set is right.**  All along a run its ranges are in order and apart, it holds the
numbers that have been added and not removed, and it finds these numbers and no others, exactly if
every range added or removed fits the set it meets. -/
theorem contains_exact_iff (hr : indexSetSystem.RunWhere (fun _ a => a.Valid) indexSet h s) :
    indexSetSystem.Along (fun h s => s.WellFormed ∧ s.indexes = contents h ∧ Answered h)
        indexSet h ↔
      indexSetSystem.RunWhere (fun s a => a.Fits s) indexSet h s := by
  refine hr.along_iff (I := fun _ _ => True) trivial ?_ ?_
  · refine ⟨wellFormed_indexSet, indexes_indexSet, fun h₁ idx b hpre => ?_⟩
    exact absurd (List.prefix_nil.1 hpre) (by simp)
  · rintro h s a b s' - ⟨hs, hindexes, hanswered⟩ ha hnext
    obtain ⟨rfl, rfl⟩ := Prod.ext_iff.1 (Option.some.inj hnext)
    refine ⟨fun _ => trivial, ?_⟩
    rw [perform_iff hs ha, contents_snoc, answered_snoc, hindexes]
    refine and_congr_right fun _ => (and_iff_left ⟨hanswered, ?_⟩).symm
    rintro idx c rfl hc
    obtain rfl := Option.some.inj hc
    rw [← hindexes]
    exact containsIndex_iff hs

/-- A range at either end of the other, one that covers both, and a number taken from the left. -/
theorem contains_exact_merge_remove :
    ∃ h s, indexSetSystem.RunWhere (fun _ a => a.Valid) indexSet h s ∧
      h.map Prod.fst = [.addRange ⟨5, 3⟩, .addIndex 9, .addIndex 10, .addRange ⟨2, 4⟩,
        .removeIndex 2, .addRange ⟨20, 80⟩, .containsIndex 50] ∧
      s = ⟨[⟨3, 7⟩, ⟨20, 80⟩]⟩ ∧
      indexSetSystem.Along (fun h s => s.WellFormed ∧ s.indexes = contents h ∧ Answered h)
        indexSet h := by
  have hexact (h : List (IndexSetAction × Option Bool)) (s : IndexSet)
      (hr : indexSetSystem.RunWhere (fun s a => a.Valid ∧ a.Fits s) indexSet h s) :
      indexSetSystem.RunWhere (fun _ a => a.Valid) indexSet h s ∧ indexSetSystem.Along
        (fun h s => s.WellFormed ∧ s.indexes = contents h ∧ Answered h) indexSet h := by
    have hvalid := hr.mono fun _ _ hC => hC.1
    exact ⟨hvalid, (contains_exact_iff hvalid).2 (hr.mono fun _ _ hC => hC.2)⟩
  obtain ⟨h, s, -, hactions, hs, hvalid, halong⟩ := indexSetSystem.exists_run_of_actions
    (fun s a => a.Valid ∧ a.Fits s) indexSet
    [.addRange ⟨5, 3⟩, .addIndex 9, .addIndex 10, .addRange ⟨2, 4⟩, .removeIndex 2,
      .addRange ⟨20, 80⟩, .containsIndex 50] (P := fun _ s => s = ⟨[⟨3, 7⟩, ⟨20, 80⟩]⟩)
    (by decide +kernel) hexact
  exact ⟨h, s, hvalid, hactions, hs, halong⟩

/-! ### Searching -/

/-- What `IMAPSession::search` makes of the UIDs that the server has found. -/
def searchResult (uids : List UInt32) : IndexSet :=
  uids.foldl (fun result uid => result.addIndex uid.toUInt64) .indexSet

/-- A number that is not in the set fits it. -/
theorem IndexSet.fits_of_not_mem {s : IndexSet} (hs : s.WellFormed) {idx : UInt64}
    (hidx : idx ∉ s.indexes) : s.Fits ⟨idx, 0⟩ := by
  refine ⟨fun x hx hlt => not_le.1 fun hle => hidx ?_, fun hmax x hx hxmax => hidx ?_⟩
  · exact Intervals.mem_points (List.mem_map_of_mem hx) ⟨hlt.le, hle⟩
  · rw [rightBound_index] at hmax
    rw [hmax, ← hxmax]
    exact Intervals.mem_points (List.mem_map_of_mem hx) ⟨le_rfl, hs.valid hx⟩

theorem IndexSet.addIndex_spec {s : IndexSet} (hs : s.WellFormed) {idx : UInt64}
    (hidx : idx ∉ s.indexes) :
    (s.addIndex idx).WellFormed ∧ (s.addIndex idx).indexes = s.indexes ∪ {idx} := by
  refine ⟨(addRange_wellFormed_iff hs (index_valid idx)).2 (fits_of_not_mem hs hidx), ?_⟩
  rw [addIndex, addRange_indexes hs (index_valid idx), icc_index]

/-- Numbers that are added one by one, none of them twice. -/
theorem IndexSet.foldl_addIndex {uids : List UInt32} {s : IndexSet} (hs : s.WellFormed)
    (hnodup : uids.Nodup) (hnew : ∀ uid ∈ uids, uid.toUInt64 ∉ s.indexes) :
    (uids.foldl (fun s uid => s.addIndex uid.toUInt64) s).WellFormed ∧
      (uids.foldl (fun s uid => s.addIndex uid.toUInt64) s).indexes =
        s.indexes ∪ {idx | ∃ uid ∈ uids, uid.toUInt64 = idx} := by
  induction uids generalizing s with
  | nil => exact ⟨hs, by simp⟩
  | cons uid uids ih =>
    obtain ⟨hnot, hnodup⟩ := List.nodup_cons.1 hnodup
    obtain ⟨hwf, hadd⟩ := addIndex_spec hs (hnew uid List.mem_cons_self)
    obtain ⟨hwf', hindexes⟩ := ih hwf hnodup fun uid' huid' => by
      rw [hadd]
      rintro (hmem | heq)
      · exact hnew uid' (List.mem_cons_of_mem _ huid') hmem
      · exact hnot (UInt32.toUInt64_inj.1 heq ▸ huid')
    refine ⟨hwf', ?_⟩
    rw [List.foldl_cons, hindexes, hadd, Set.union_assoc]
    congr 1
    ext idx
    simp [eq_comm]

/-- **The result of a search.**  If the server names no UID twice, the result has the UIDs that it
names and no others, in whatever order they come. -/
theorem search_exact {uids : List UInt32} (hnodup : uids.Nodup) :
    (searchResult uids).WellFormed ∧
      ∀ idx, (searchResult uids).containsIndex idx = true ↔ ∃ uid ∈ uids, uid.toUInt64 = idx := by
  obtain ⟨hwf, hindexes⟩ := foldl_addIndex wellFormed_indexSet hnodup
    fun uid _ => by simp [indexes_indexSet]
  refine ⟨hwf, fun idx => ?_⟩
  rw [searchResult, containsIndex_iff hwf, hindexes, indexes_indexSet, Set.empty_union]
  exact Iff.rfl

theorem search_exact_four : (searchResult [9, 4, 10, 5]).containsIndex 10 = true :=
  ((search_exact (by decide)).2 10).2 ⟨10, by decide, by decide⟩

end SecMail
