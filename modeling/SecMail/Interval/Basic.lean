import Mathlib.Order.Interval.Set.Basic
import Mathlib.Data.List.Basic

/-!
# Lists of intervals

A set given by the closed intervals of a list, over any linear order.  Operations on such lists
are right if they get the points right and keep the intervals in order and apart.

* `Intervals.points l` : the points of the intervals of `l`;
* `Intervals.Apart l` : the intervals are not empty, in order, and do not meet;
* `Intervals.icc_union_points` : an interval absorbs those that begin inside it.
-/

namespace SecMail

namespace Intervals

variable {α : Type*} [LinearOrder α]

/-- The points of the intervals. -/
def points (l : List (α × α)) : Set α := {x | ∃ p ∈ l, x ∈ Set.Icc p.1 p.2}

/-- The intervals are not empty, and each ends before the next one begins. -/
structure Apart (l : List (α × α)) : Prop where
  le : ∀ p ∈ l, p.1 ≤ p.2
  lt : l.Pairwise fun p q => p.2 < q.1

variable {l m : List (α × α)} {p q : α × α} {a b c x : α}

/-! ### Points -/

@[simp] theorem points_nil : points ([] : List (α × α)) = ∅ := by
  simp [points]

@[simp] theorem points_cons : points (p :: l) = Set.Icc p.1 p.2 ∪ points l := by
  ext x
  simp [points]

@[simp] theorem points_append : points (l ++ m) = points l ∪ points m := by
  ext x
  simp [points, or_and_right, exists_or]

theorem mem_points (hp : p ∈ l) (hx : x ∈ Set.Icc p.1 p.2) : x ∈ points l := ⟨p, hp, hx⟩

/-- An interval together with intervals that begin inside it, when they reach up to `c`. -/
theorem icc_union_points (hl : ∀ p ∈ l, a ≤ p.1 ∧ p.1 ≤ b ∧ p.2 ≤ c) (hbc : b ≤ c)
    (hc : c = b ∨ ∃ p ∈ l, p.2 = c) : Set.Icc a c = Set.Icc a b ∪ points l := by
  ext x
  constructor
  · rintro ⟨hax, hxc⟩
    rcases le_or_gt x b with hxb | hbx
    · exact .inl ⟨hax, hxb⟩
    · obtain rfl | ⟨p, hp, rfl⟩ := hc
      · exact .inl ⟨hax, hxc⟩
      · exact .inr (mem_points hp ⟨(hl p hp).2.1.trans hbx.le, hxc⟩)
  · rintro (⟨hax, hxb⟩ | ⟨p, hp, hpx, hxp⟩)
    · exact ⟨hax, hxb.trans hbc⟩
    · exact ⟨(hl p hp).1.trans hpx, hxp.trans (hl p hp).2.2⟩

/-! ### Intervals that are apart -/

theorem apart_nil : Apart ([] : List (α × α)) := ⟨by simp, List.Pairwise.nil⟩

theorem apart_cons : Apart (p :: l) ↔ p.1 ≤ p.2 ∧ (∀ q ∈ l, p.2 < q.1) ∧ Apart l := by
  constructor
  · rintro ⟨hle, hlt⟩
    exact ⟨hle p List.mem_cons_self, (List.pairwise_cons.1 hlt).1,
      fun q hq => hle q (List.mem_cons_of_mem _ hq), (List.pairwise_cons.1 hlt).2⟩
  · rintro ⟨hp, hpq, hl⟩
    refine ⟨?_, List.pairwise_cons.2 ⟨hpq, hl.lt⟩⟩
    rintro q (_ | ⟨_, hq⟩)
    · exact hp
    · exact hl.le q hq

theorem apart_append :
    Apart (l ++ m) ↔ Apart l ∧ Apart m ∧ ∀ p ∈ l, ∀ q ∈ m, p.2 < q.1 := by
  constructor
  · rintro ⟨hle, hlt⟩
    obtain ⟨hl, hm, hlm⟩ := List.pairwise_append.1 hlt
    exact ⟨⟨fun p hp => hle p (List.mem_append_left _ hp), hl⟩,
      ⟨fun p hp => hle p (List.mem_append_right _ hp), hm⟩, hlm⟩
  · rintro ⟨hl, hm, hlm⟩
    refine ⟨fun p hp => ?_, List.pairwise_append.2 ⟨hl.lt, hm.lt, hlm⟩⟩
    obtain hp | hp := List.mem_append.1 hp
    · exact hl.le p hp
    · exact hm.le p hp

namespace Apart

/-- The intervals begin in order. -/
theorem sorted (h : Apart l) : l.Pairwise fun p q => p.1 < q.1 :=
  h.lt.imp_of_mem fun hp _ hpq => (h.le _ hp).trans_lt hpq

theorem fst_mono (h : Apart l) {i j : ℕ} (hi : i < l.length) (hj : j < l.length) (hij : i ≤ j) :
    l[i].1 ≤ l[j].1 := by
  obtain rfl | hlt := hij.eq_or_lt
  · exact le_rfl
  · exact (List.pairwise_iff_getElem.1 h.sorted i j hi hj hlt).le

theorem snd_lt_fst (h : Apart l) {i j : ℕ} (hi : i < l.length) (hj : j < l.length) (hij : i < j) :
    l[i].2 < l[j].1 :=
  List.pairwise_iff_getElem.1 h.lt i j hi hj hij

end Apart

end Intervals

end SecMail
