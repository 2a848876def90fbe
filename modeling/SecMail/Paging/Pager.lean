import SecMail.LTS.Basic
import Mathlib.Data.List.DropRight
import Mathlib.Data.Multiset.AddSub
import Mathlib.Data.Multiset.MapFold
import Mathlib.Data.Multiset.UnionInter

/-!
# Paging backwards through a list that changes

A `Pager` shows the newest entries of a list `source`, which is kept oldest first and may change
whenever nothing is being fetched.  A load asks for `k` entries more than are shown, counts the
source, and fetches either the page before what is shown, if the count is the one remembered, or
everything it asked for.

* `rtake_eq_page_append` : a page in front of what is shown;
* `Pager.shown_of_fetched` : if the source only changes together with its length, and fetches are
  complete, every fetch leaves exactly the newest entries shown;
* `Pager.nodup_of_run` : whatever the source and the fetches do, no key is shown twice as long as
  no key that is shown is in the page a load is about to fetch.
-/

namespace SecMail

/-! ### Pages -/

section Page

variable {α : Type*}

/-- The newest `r` entries of `l` less the newest `c`. -/
def page (l : List α) (r c : ℕ) : List α := (l.rdrop c).rtake (r - c)

theorem page_eq_drop (l : List α) (r c : ℕ) (h : c ≤ r) :
    page l r c = (l.take (l.length - c)).drop (l.length - r) := by
  have hr : (l.take (l.length - c)).length - (r - c) = l.length - r := by
    rw [List.length_take]
    omega
  rw [page, List.rdrop, List.rtake, hr]

theorem page_sublist (l : List α) (r c : ℕ) : (page l r c).Sublist l :=
  (List.drop_sublist _ _).trans (List.take_sublist _ _)

/-- The newest `r` entries are a page and the newest `c`. -/
theorem rtake_eq_page_append (l : List α) {r c : ℕ} (h : c ≤ r) :
    l.rtake r = page l r c ++ l.rtake c := by
  have hdrop : l.length - c - (l.length - r) + (l.length - r) = l.length - c := by omega
  calc l.rtake r
      = ((l.drop (l.length - r)).take (l.length - c - (l.length - r))) ++
          (l.drop (l.length - r)).drop (l.length - c - (l.length - r)) :=
        (List.take_append_drop _ _).symm
    _ = page l r c ++ l.rtake c := by
        rw [page_eq_drop l r c h, List.drop_take, List.drop_drop, Nat.add_comm, hdrop]
        rfl

theorem length_rtake (l : List α) (r : ℕ) : (l.rtake r).length = min l.length r := by
  rw [List.rtake, List.length_drop]
  omega

theorem rtake_min_length (l : List α) (r : ℕ) : l.rtake (min l.length r) = l.rtake r := by
  have h : l.length - min l.length r = l.length - r := by omega
  rw [List.rtake, h, List.rtake]

end Page

/-! ### Pagers -/

/-- What a pager is doing. -/
inductive Load
  | idle
  | asking
  | fetching
  deriving DecidableEq

/-- A pager and the list it pages through. -/
structure Pager (α : Type*) where
  /-- The list, oldest entry first. -/
  source : List α
  /-- The list at the last count, empty before the first. -/
  last : List α
  shown : Multiset α
  /-- The count it remembers. -/
  count : ℕ
  /-- How many entries the last load asked for. -/
  requested : ℕ
  load : Load

/-- What can happen to a pager. -/
inductive PagerAction (α : Type*)
  | evolve (source : List α)
  | ask
  | count (n : ℕ)
  | fetched (entries : Multiset α)
  | cancel

namespace Pager

variable {α κ : Type*} {k : ℕ}

def init (source : List α) : Pager α := ⟨source, [], 0, 0, 0, .idle⟩

variable (p : Pager α)

/-- The entries a load is fetching. -/
def page : List α := SecMail.page p.source p.requested p.shown.card

/-- The source was found to have `n` entries. -/
def counted (n : ℕ) : Pager α :=
  if n = 0 then { p with count := 0, last := p.source, load := .idle }
  else { p with
    count := n
    last := p.source
    shown := if n = p.count then p.shown else 0
    load := .fetching }

/-- What an action does. -/
def perform (k : ℕ) : PagerAction α → Option (Pager α)
  | .evolve source => if p.load = .fetching then none else some { p with source }
  | .ask =>
    if p.load = .idle ∧ (p.shown.card = 0 ∨ p.shown.card < p.count) then
      some { p with load := .asking, requested := p.shown.card + k }
    else none
  | .count n => if p.load = .asking then some (p.counted n) else none
  | .fetched entries =>
    if p.load = .fetching then some { p with shown := entries + p.shown, load := .idle } else none
  | .cancel => if p.load = .fetching then some { p with load := .idle } else none

end Pager

/-- Pagers as a transition system. -/
def pagerSystem (α : Type*) (k : ℕ) : System (Pager α) (PagerAction α) Unit where
  next p a := (p.perform k a).map fun p' => (p', ())

namespace Pager

variable {α κ : Type*} {k : ℕ} {p p' : Pager α} {a : PagerAction α} {source : List α}
  {h : List (PagerAction α × Unit)}

/-- The cases of a step. -/
inductive Step (k : ℕ) (p : Pager α) : PagerAction α → Pager α → Prop
  | evolve (hl : p.load ≠ .fetching) (source : List α) : Step k p (.evolve source) { p with source }
  | ask (hl : p.load = .idle) (hc : p.shown.card = 0 ∨ p.shown.card < p.count) :
      Step k p .ask { p with load := .asking, requested := p.shown.card + k }
  | count (hl : p.load = .asking) (n : ℕ) : Step k p (.count n) (p.counted n)
  | fetched (hl : p.load = .fetching) (entries : Multiset α) :
      Step k p (.fetched entries) { p with shown := entries + p.shown, load := .idle }
  | cancel (hl : p.load = .fetching) : Step k p .cancel { p with load := .idle }

theorem step_of_perform (h : p.perform k a = some p') : Step k p a p' := by
  cases a with
  | evolve source =>
    by_cases hl : p.load = .fetching
    · rw [perform, if_pos hl] at h; cases h
    · rw [perform, if_neg hl] at h; cases h; exact .evolve hl source
  | ask =>
    by_cases hc : p.load = .idle ∧ (p.shown.card = 0 ∨ p.shown.card < p.count)
    · rw [perform, if_pos hc] at h; cases h; exact .ask hc.1 hc.2
    · rw [perform, if_neg hc] at h; cases h
  | count n =>
    by_cases hl : p.load = .asking
    · rw [perform, if_pos hl] at h; cases h; exact .count hl n
    · rw [perform, if_neg hl] at h; cases h
  | fetched entries =>
    by_cases hl : p.load = .fetching
    · rw [perform, if_pos hl] at h; cases h; exact .fetched hl entries
    · rw [perform, if_neg hl] at h; cases h
  | cancel =>
    by_cases hl : p.load = .fetching
    · rw [perform, if_pos hl] at h; cases h; exact .cancel hl
    · rw [perform, if_neg hl] at h; cases h

theorem step_of_next {o : Unit} (h : (pagerSystem α k).next p a = some (p', o)) :
    Step k p a p' := by
  obtain ⟨p₁, hp, heq⟩ := Option.map_eq_some_iff.1 h
  cases heq
  exact step_of_perform hp

theorem counted_of_zero : p.counted 0 = { p with count := 0, last := p.source, load := .idle } :=
  rfl

theorem counted_of_ne_zero {n : ℕ} (hn : n ≠ 0) : p.counted n = { p with
    count := n
    last := p.source
    shown := if n = p.count then p.shown else 0
    load := .fetching } :=
  if_neg hn

/-- A load asks for `k` entries more than are shown, and only when there may be more. -/
theorem asked_of_run {C : Pager α → PagerAction α → Prop}
    (hr : (pagerSystem α k).RunWhere C (.init source) h p) (hl : p.load = .asking) :
    p.requested = p.shown.card + k ∧ (p.shown.card = 0 ∨ p.shown.card < p.count) := by
  refine hr.invariant_state (I := fun p => p.load = .asking → p.requested = p.shown.card + k ∧
    (p.shown.card = 0 ∨ p.shown.card < p.count)) (fun hl => nomatch hl) ?_ hl
  intro p a o p' ih _ hs
  cases step_of_next hs with
  | evolve _ source => exact ih
  | ask hl hc => exact fun _ => ⟨rfl, hc⟩
  | count hl n =>
    intro hasking
    by_cases hn : n = 0
    · subst hn
      cases hasking
    · rw [counted_of_ne_zero hn] at hasking
      cases hasking
  | fetched hl entries => exact fun hl => nomatch hl
  | cancel hl => exact fun hl => nomatch hl

/-! ### Complete fetches of a source that keeps still -/

/-- Counts and fetches are exact, and two counts of different sources differ. -/
def ExactStep (p : Pager α) : PagerAction α → Prop
  | .count n => n = p.source.length ∧ (p.last = p.source ∨ p.last.length ≠ p.source.length)
  | .fetched entries => entries = ↑p.page
  | _ => True

/-- The entries shown are the newest of the source last counted. -/
structure Newest (p : Pager α) : Prop where
  shown : p.count = 0 ∨
    p.count = p.last.length ∧ p.shown = ↑(p.last.rtake p.shown.card)
  fetching : p.load = .fetching → p.last = p.source ∧ p.count ≠ 0 ∧ p.shown.card ≤ p.requested

/-- What a fetch brings completes what is shown to the entries asked for. -/
theorem Newest.page_add (hp : p.Newest) (hl : p.load = .fetching) :
    (p.page : Multiset α) + p.shown = ↑(p.source.rtake p.requested) := by
  obtain ⟨hlast, hc, hle⟩ := hp.fetching hl
  obtain ⟨-, hs⟩ := hp.shown.resolve_left hc
  rw [hlast] at hs
  rw [rtake_eq_page_append p.source hle, ← Multiset.coe_add, ← hs]
  rfl

theorem Newest.step {C : Pager α → PagerAction α → Prop}
    (hr : (pagerSystem α k).RunWhere C (.init source) h p) (hp : p.Newest)
    (hC : p.ExactStep a) (hs : Step k p a p') : p'.Newest := by
  cases hs with
  | evolve hl source => exact ⟨hp.shown, fun hl' => absurd hl' hl⟩
  | ask hl hc => exact ⟨hp.shown, fun hl => nomatch hl⟩
  | count hl n =>
    obtain ⟨rfl, hlast⟩ := hC
    by_cases hn : p.source.length = 0
    · rw [hn, counted_of_zero]
      exact ⟨.inl rfl, fun hl => nomatch hl⟩
    · rw [counted_of_ne_zero hn]
      by_cases hc : p.source.length = p.count
      · -- the same length: the source has not changed, and what is shown is kept
        obtain ⟨hcount, hs⟩ := hp.shown.resolve_left fun h0 => hn (hc.trans h0)
        have heq : p.last = p.source :=
          hlast.resolve_right fun hne => hne (hcount.symm.trans hc.symm)
        have hreq := (asked_of_run hr hl).1
        refine ⟨.inr ⟨rfl, ?_⟩, fun _ => ⟨rfl, hn, ?_⟩⟩
        · show (if _ then _ else _) = _
          simp only [if_pos hc]
          rw [← heq]
          exact hs
        · show (if _ then _ else _ : Multiset α).card ≤ _
          rw [if_pos hc, hreq]
          exact Nat.le_add_right _ _
      · refine ⟨.inr ⟨rfl, ?_⟩, fun _ => ⟨rfl, hn, ?_⟩⟩
        · simp [if_neg hc]
        · simp [if_neg hc]
  | fetched hl entries =>
    have hadd := hp.page_add hl
    obtain ⟨hlast, hc, -⟩ := hp.fetching hl
    obtain ⟨hcount, -⟩ := hp.shown.resolve_left hc
    have hC : entries = ↑p.page := hC
    refine ⟨.inr ⟨hcount, ?_⟩, fun hl => nomatch hl⟩
    show entries + p.shown = ↑(p.last.rtake (entries + p.shown).card)
    rw [hC, hadd, hlast, Multiset.coe_card, length_rtake, rtake_min_length]
  | cancel hl => exact ⟨hp.shown, fun hl => nomatch hl⟩

theorem newest_of_run (hr : (pagerSystem α k).RunWhere ExactStep (.init source) h p) :
    p.Newest := by
  induction hr with
  | nil => exact ⟨.inl rfl, fun hl => nomatch hl⟩
  | snoc hr hC hs hp => exact hp.step hr hC (step_of_next hs)

/-- **Every complete fetch leaves exactly the newest entries shown.** -/
theorem shown_of_fetched (hr : (pagerSystem α k).RunWhere ExactStep (.init source) h p)
    (hl : p.load = .fetching) :
    (p.page : Multiset α) + p.shown = ↑(p.source.rtake p.requested) :=
  (newest_of_run hr).page_add hl

/-! ### Arbitrary sources and fetches -/

/-- Keys are unique in every source and fetches bring entries of their page only. -/
def SubStep (key : α → κ) (p : Pager α) : PagerAction α → Prop
  | .evolve source => (source.map key).Nodup
  | .fetched entries => entries ≤ ↑p.page
  | _ => True

/-- No entry of the page that a load is about to fetch has a key that is shown and kept. -/
def FreshStep (key : α → κ) (k : ℕ) (p : Pager α) : PagerAction α → Prop
  | .count n => n ≠ 0 → n = p.count →
      ∀ a ∈ SecMail.page p.source (p.shown.card + k) p.shown.card, key a ∉ p.shown.map key
  | _ => True

/-- No key is shown twice, and none is about to be. -/
structure Unique (key : α → κ) (p : Pager α) : Prop where
  source : (p.source.map key).Nodup
  shown : (p.shown.map key).Nodup
  fetching : p.load = .fetching → ∀ a ∈ p.page, key a ∉ p.shown.map key

theorem Unique.step {key : α → κ} {C : Pager α → PagerAction α → Prop}
    (hr : (pagerSystem α k).RunWhere C (.init source) h p) (hp : p.Unique key)
    (hC : p.SubStep key a) (hF : p.FreshStep key k a) (hs : Step k p a p') : p'.Unique key := by
  cases hs with
  | evolve hl source => exact ⟨hC, hp.shown, fun hl' => absurd hl' hl⟩
  | ask hl hc => exact ⟨hp.source, hp.shown, fun hl => nomatch hl⟩
  | count hl n =>
    by_cases hn : n = 0
    · subst hn
      exact ⟨hp.source, hp.shown, fun hl => nomatch hl⟩
    · rw [counted_of_ne_zero hn]
      by_cases hc : n = p.count
      · have hreq := (asked_of_run hr hl).1
        simp only [if_pos hc]
        refine ⟨hp.source, hp.shown, fun _ a ha => hF hn hc a ?_⟩
        rw [← hreq]
        exact ha
      · simp only [if_neg hc]
        exact ⟨hp.source, Multiset.nodup_zero, fun _ a _ => Multiset.notMem_zero _⟩
  | fetched hl entries =>
    have hC : entries ≤ ↑p.page := hC
    refine ⟨hp.source, ?_, fun hl => nomatch hl⟩
    have hpage : ((p.page : Multiset α).map key).Nodup :=
      Multiset.coe_nodup.2 (hp.source.sublist ((page_sublist _ _ _).map key))
    have hentries : (entries.map key).Nodup := Multiset.nodup_of_le (Multiset.map_le_map hC) hpage
    show ((entries + p.shown).map key).Nodup
    rw [Multiset.map_add, Multiset.nodup_add]
    refine ⟨hentries, hp.shown, Multiset.disjoint_left.2 fun {u} hu => ?_⟩
    obtain ⟨a, ha, rfl⟩ := Multiset.mem_map.1 hu
    exact hp.fetching hl a (Multiset.mem_coe.1 (Multiset.mem_of_le hC ha))
  | cancel hl => exact ⟨hp.source, hp.shown, fun hl => nomatch hl⟩

theorem unique_of_run {key : α → κ} (h₀ : (source.map key).Nodup)
    (hr : (pagerSystem α k).RunWhere (fun p a => p.SubStep key a ∧ p.FreshStep key k a)
      (.init source) h p) : p.Unique key := by
  induction hr with
  | nil => exact ⟨h₀, Multiset.nodup_zero, fun hl => nomatch hl⟩
  | snoc hr hC hs hp => exact hp.step hr hC.1 hC.2 (step_of_next hs)

/-- **No key is shown twice** as long as every page is fresh. -/
theorem nodup_of_run {key : α → κ} (h₀ : (source.map key).Nodup)
    (hr : (pagerSystem α k).RunWhere (fun p a => p.SubStep key a ∧ p.FreshStep key k a)
      (.init source) h p) : (p.shown.map key).Nodup :=
  (unique_of_run h₀ hr).shown

end Pager

end SecMail
