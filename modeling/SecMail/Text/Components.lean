import Mathlib.Data.List.Infix
import Mathlib.Data.List.Basic

/-!
# Texts as lists of characters

Two pieces of text handling that the models share, for lists over any type where possible:

* `Text.components a b l` splits `l` at the two-character separator `a b`, and
  `Text.components_append_sep` and `Text.infix_iff_components` describe what a split sees of
  an appended component and of a search for a substring free of separator characters;
* `Text.decimal` is the decimal notation of an integer, which `%d` prints
  (`Text.decimal_injective`).
-/

namespace SecMail

namespace Text

section Components

variable {α : Type*}

/-- Put `c` in front of the first component. -/
def push (c : α) (l : List (List α)) : List (List α) := (c :: l.headD []) :: l.tail

theorem push_append (c : α) {l m : List (List α)} (h : l ≠ []) :
    push c (l ++ m) = push c l ++ m := by
  cases l with
  | nil => exact absurd rfl h
  | cons w ws => rfl

variable [DecidableEq α]

/-- The components of a list separated by `a b`; there is always at least one. -/
def components (a b : α) : List α → List (List α)
  | [] => [[]]
  | [c] => [[c]]
  | c :: d :: l =>
    if c = a ∧ d = b then [] :: components a b l else push c (components a b (d :: l))

variable {a b : α}

theorem components_ne_nil (l : List α) : components a b l ≠ [] := by
  fun_cases components a b l <;> simp [push]

/-- A separator always splits, whatever stands before it. -/
theorem components_append_sep (hab : a ≠ b) (l m : List α) :
    components a b (l ++ a :: b :: m) = components a b l ++ components a b m := by
  induction l using components.induct a b with
  | case1 => simp [components]
  | case2 c =>
    have hc : ¬ (c = a ∧ a = b) := fun h => hab h.2
    simp [components, hc, push]
  | case3 c d l hsep ih => simp [components, hsep, ih]
  | case4 c d l hsep ih =>
    simp only [List.cons_append, components, hsep, if_false] at ih ⊢
    rw [ih, push_append c (components_ne_nil _)]

theorem components_of_not_mem {l : List α} (h : a ∉ l) : components a b l = [l] := by
  induction l using components.induct a b with
  | case1 => rfl
  | case2 c => rfl
  | case3 c d l hsep => exact absurd (hsep.1 ▸ List.mem_cons_self) h
  | case4 c d l hsep ih =>
    simp [components, hsep, ih fun hm => h (List.mem_cons_of_mem _ hm), push]

/-- A list without `a` is a prefix iff it is a prefix of the first component. -/
theorem prefix_iff_components {k l : List α} (ha : a ∉ k) :
    k <+: l ↔ k <+: (components a b l).headD [] := by
  induction l using components.induct a b generalizing k with
  | case1 => rfl
  | case2 c => rfl
  | case3 c d l hsep =>
    cases k with
    | nil => simp
    | cons x k =>
      have hx : x ≠ a := fun h => ha (h ▸ List.mem_cons_self)
      simp [components, hsep, List.cons_prefix_cons, hx]
  | case4 c d l hsep ih =>
    cases k with
    | nil => simp
    | cons x k =>
      have hk := ih fun hm => ha (List.mem_cons_of_mem x hm)
      simp only [components, hsep, if_false, push, List.headD_cons, List.cons_prefix_cons, hk]

/-- **Searching is searching the components**, for a word without separator characters. -/
theorem infix_iff_components {k l : List α} (hk : k ≠ []) (ha : a ∉ k) (hb : b ∉ k) :
    k <:+: l ↔ ∃ w ∈ components a b l, k <:+: w := by
  induction l using components.induct a b with
  | case1 => simp [components]
  | case2 c => simp [components]
  | case3 c d l hsep ih =>
    obtain ⟨rfl, rfl⟩ := hsep
    have hpre : ∀ {x : α} {m : List α}, x ∉ k → ¬ k <+: x :: m := by
      intro x m hx h
      cases k with
      | nil => exact hk rfl
      | cons y k => exact hx ((List.cons_prefix_cons.1 h).1 ▸ List.mem_cons_self)
    simp [components, List.infix_cons_iff, hpre ha, hpre hb, ih, hk]
  | case4 c d l hsep ih =>
    obtain ⟨w, ws, hw⟩ := List.exists_cons_of_ne_nil (components_ne_nil (a := a) (b := b) (d :: l))
    have hpre := prefix_iff_components (b := b) (l := c :: d :: l) ha
    simp only [components, hsep, if_false, push, hw, List.headD_cons, List.tail_cons] at hpre ih ⊢
    have hw : k <:+: c :: w ↔ k <+: c :: w ∨ k <:+: w := List.infix_cons_iff
    rw [List.infix_cons_iff, hpre, ih]
    simp only [List.mem_cons, exists_eq_or_imp, hw, or_assoc]

end Components

/-! ### Decimal notation -/

/-- The decimal notation of an integer. -/
def decimal : ℤ → List Char
  | .ofNat n => Nat.toDigits 10 n
  | .negSucc n => '-' :: Nat.toDigits 10 (n + 1)

theorem mem_decimal {n : ℤ} {c : Char} (h : c ∈ decimal n) : c = '-' ∨ c.isDigit = true := by
  have hdig : ∀ {m : ℕ}, c ∈ Nat.toDigits 10 m → c.isDigit = true :=
    fun hm => Nat.isDigit_of_mem_toDigits (by omega) (by omega) hm
  cases n with
  | ofNat m => exact .inr (hdig h)
  | negSucc m => exact (List.mem_cons.1 h).imp id hdig

theorem not_mem_decimal {n : ℤ} {c : Char} (hm : c ≠ '-') (hd : c.isDigit = false) :
    c ∉ decimal n := by
  intro h
  rcases mem_decimal h with h | h
  · exact hm h
  · simp [hd] at h

theorem decimal_ne_nil (n : ℤ) : decimal n ≠ [] := by
  cases n with
  | ofNat m => exact Nat.toDigits_ne_nil
  | negSucc m => exact List.cons_ne_nil _ _

theorem toDigits_injective {m n : ℕ} (h : Nat.toDigits 10 m = Nat.toDigits 10 n) : m = n := by
  rw [← Nat.ofDigitChars_ten_toDigits (n := m), h, Nat.ofDigitChars_ten_toDigits]

theorem toDigits_ne_minus {m : ℕ} {l : List Char} : Nat.toDigits 10 m ≠ '-' :: l := by
  intro h
  have := Nat.isDigit_of_mem_toDigits (b := 10) (n := m) (c := '-') (by omega) (by omega)
    (h ▸ List.mem_cons_self)
  exact absurd this (by decide)

theorem decimal_injective : Function.Injective decimal := by
  intro m n h
  cases m with
  | ofNat m =>
    cases n with
    | ofNat n => exact congrArg Int.ofNat (toDigits_injective h)
    | negSucc n => exact absurd h toDigits_ne_minus
  | negSucc m =>
    cases n with
    | ofNat n => exact absurd h.symm toDigits_ne_minus
    | negSucc n =>
      have := toDigits_injective (List.cons.inj h).2
      exact congrArg Int.negSucc (by omega)

end Text

end SecMail
