import Mathlib.Data.List.Induction

/-!
# Observed transition systems

The objects of this development are driven by calls and completions that arrive in any order.
Each of them is given a semantics as a `System`: a partial function from a state and an action
to the next state and what an observer sees of the step.  A property of "every run" is then an
invariant of `System.RunWhere`, whose history records every action with its observation.

## Main definitions

* `System S A O` : a deterministic transition system, `next s a = none` when `a` cannot happen.
* `System.RunWhere C s₀ h s` : the run with history `h` leads from `s₀` to `s`, and every step
  of it meets the condition `C` (on the state before the step and the action).
* `System.Run` : the unconditional runs; `RunWhere.project` transports them to another system,
  and `RunWhere.unique` says that a history determines where it leads.
* `System.Along P s₀ h` : `P` holds all along the run with history `h`; `along_iff` characterizes
  these runs by a condition on their steps.
* `System.Throughout Q s₀ h` : `Q` holds of all steps of the run; `throughout_iff` characterizes
  these runs in the same way.
* `System.exec` : executable runs, used to *refute* properties of runs, and to exhibit the run of
  some actions (`System.exists_run_of_actions`).
-/

namespace SecMail

/-- A deterministic transition system with states `S`, actions `A` and observations `O`. -/
structure System (S A O : Type*) where
  /-- The state after action `a` in `s` and the observation made of the step. -/
  next : S → A → Option (S × O)

namespace System

variable {S A O : Type*} (M : System S A O)

/-- Runs from `s₀` all of whose steps meet `C`, with the history of actions and observations. -/
inductive RunWhere (C : S → A → Prop) (s₀ : S) : List (A × O) → S → Prop
  | nil : RunWhere C s₀ [] s₀
  | snoc {h : List (A × O)} {s s' : S} {a : A} {o : O} : RunWhere C s₀ h s → C s a →
      M.next s a = some (s', o) → RunWhere C s₀ (h ++ [(a, o)]) s'

/-- Runs without a condition on their steps. -/
abbrev Run (s₀ : S) (h : List (A × O)) (s : S) : Prop := M.RunWhere (fun _ _ => True) s₀ h s

variable {M} {C D : S → A → Prop} {s₀ s s' : S} {h h' : List (A × O)}

namespace RunWhere

/-- Runs satisfy every predicate on histories and states that holds initially and is preserved
by every step meeting the condition (an *inductive invariant*). -/
theorem invariant {I : List (A × O) → S → Prop} (hr : M.RunWhere C s₀ h s) (h₀ : I [] s₀)
    (hstep : ∀ h s a o s', I h s → C s a → M.next s a = some (s', o) → I (h ++ [(a, o)]) s') :
    I h s := by
  induction hr with
  | nil => exact h₀
  | snoc _ hC hs ih => exact hstep _ _ _ _ _ ih hC hs

/-- The form of `invariant` for predicates on states. -/
theorem invariant_state {I : S → Prop} (hr : M.RunWhere C s₀ h s) (h₀ : I s₀)
    (hstep : ∀ s a o s', I s → C s a → M.next s a = some (s', o) → I s') : I s :=
  hr.invariant (I := fun _ s => I s) h₀ fun _ s a o s' => hstep s a o s'

theorem mono_of_next (hr : M.RunWhere C s₀ h s)
    (hCD : ∀ s a o s', M.next s a = some (s', o) → C s a → D s a) : M.RunWhere D s₀ h s := by
  induction hr with
  | nil => exact nil
  | snoc _ hC hs ih => exact ih.snoc (hCD _ _ _ _ hs hC) hs

theorem mono (hr : M.RunWhere C s₀ h s) (hCD : ∀ s a, C s a → D s a) : M.RunWhere D s₀ h s :=
  hr.mono_of_next fun s a _ _ _ => hCD s a

theorem run (hr : M.RunWhere C s₀ h s) : M.Run s₀ h s := hr.mono fun _ _ _ => trivial

theorem single {a : A} {o : O} (hC : C s a) (hs : M.next s a = some (s', o)) :
    M.RunWhere C s [(a, o)] s' :=
  nil.snoc hC hs

theorem append (hr : M.RunWhere C s₀ h s) (hr' : M.RunWhere C s h' s') :
    M.RunWhere C s₀ (h ++ h') s' := by
  induction hr' with
  | nil => simpa using hr
  | snoc _ hC hs ih => simpa using ih.snoc hC hs

theorem of_snoc {a : A} {o : O} (hr : M.RunWhere C s₀ (h ++ [(a, o)]) s') :
    ∃ s, M.RunWhere C s₀ h s ∧ C s a ∧ M.next s a = some (s', o) := by
  generalize hk : h ++ [(a, o)] = k at hr
  cases hr with
  | nil => simp at hk
  | snoc hr hC hs =>
    obtain ⟨rfl, heq⟩ := List.append_inj' hk rfl
    cases heq
    exact ⟨_, hr, hC, hs⟩

/-- A history determines the state it leads to. -/
theorem unique (hr : M.RunWhere C s₀ h s) (hr' : M.RunWhere D s₀ h s') : s = s' := by
  induction hr generalizing s' with
  | nil =>
    generalize hk : ([] : List (A × O)) = k at hr'
    cases hr' with
    | nil => rfl
    | snoc => simp at hk
  | snoc _ _ hs ih =>
    obtain ⟨s₁, hr₁, -, hs₁⟩ := hr'.of_snoc
    rw [ih hr₁, hs₁] at hs
    cases hs
    rfl

/-- Runs can be cut in two. -/
theorem of_append (hr : M.RunWhere C s₀ (h ++ h') s') :
    ∃ s, M.RunWhere C s₀ h s ∧ M.RunWhere C s h' s' := by
  induction h' using List.reverseRecOn generalizing s' with
  | nil => exact ⟨s', by simpa using hr, nil⟩
  | append_singleton h' e ih =>
    rw [← List.append_assoc] at hr
    obtain ⟨s₁, hr₁, hC, hs⟩ := hr.of_snoc
    obtain ⟨s, hr, hr'⟩ := ih hr₁
    exact ⟨s, hr, hr'.snoc hC hs⟩

/-- A run with silent actions begins with some of them, up to the first one that is not silent. -/
theorem of_filter_cons {p : A → Bool} {a : A} {as : List A} (hr : M.RunWhere C s₀ h s')
    (hf : (h.map Prod.fst).filter p = a :: as) :
    ∃ h₁ s₁ o s₂ h₂, M.RunWhere C s₀ h₁ s₁ ∧ (∀ e ∈ h₁, ¬ p e.1 = true) ∧ C s₁ a ∧
      M.next s₁ a = some (s₂, o) ∧ M.RunWhere C s₂ h₂ s' ∧ (h₂.map Prod.fst).filter p = as := by
  obtain ⟨as₁, as₂, heq, hsilent, -, hrest⟩ := List.filter_eq_cons_iff.1 hf
  obtain ⟨h₁, h', rfl, rfl, hcons⟩ := List.map_eq_append_iff.1 heq
  obtain ⟨⟨a', o⟩, h₂, rfl, rfl, rfl⟩ := List.map_eq_cons_iff.1 hcons
  rw [List.append_cons] at hr
  obtain ⟨s₂, hr, hr₂⟩ := hr.of_append
  obtain ⟨s₁, hr₁, hC, hs⟩ := hr.of_snoc
  exact ⟨h₁, s₁, o, s₂, h₂, hr₁, fun e he => hsilent e.1 (List.mem_map_of_mem he), hC, hs, hr₂,
    hrest⟩

/-- **Refinement.**  If every step of `M` is a run of `N`, every run of `M` is a run of `N`. -/
theorem project {S' A' O' : Type*} {N : System S' A' O'} (f : S → S')
    (g : A × O → List (A' × O'))
    (hstep : ∀ s a o s', M.next s a = some (s', o) → N.Run (f s) (g (a, o)) (f s'))
    (hr : M.RunWhere C s₀ h s) : N.Run (f s₀) (h.flatMap g) (f s) := by
  induction hr with
  | nil => exact nil
  | snoc _ _ hs ih =>
    rw [List.flatMap_append, List.flatMap_singleton]
    exact ih.append (hstep _ _ _ _ hs)

end RunWhere

/-! ### Properties that hold all along a run -/

variable (M) in
/-- `P` holds in every state that the run from `s₀` with history `h` goes through. -/
def Along (P : List (A × O) → S → Prop) (s₀ : S) (h : List (A × O)) : Prop :=
  ∀ h₁ s₁, h₁ <+: h → M.Run s₀ h₁ s₁ → P h₁ s₁

namespace Along

variable {P : List (A × O) → S → Prop}

/-- At the beginning there is only one state. -/
theorem nil_iff : M.Along P s₀ [] ↔ P [] s₀ := by
  constructor
  · exact fun h => h [] s₀ (List.prefix_refl _) .nil
  · intro h h₁ s₁ hpre hr
    obtain rfl := List.prefix_nil.1 hpre
    rwa [← (RunWhere.nil : M.Run s₀ [] s₀).unique hr]

/-- A step adds one state. -/
theorem snoc_iff {a : A} {o : O} (hr : M.Run s₀ h s) (hs : M.next s a = some (s', o)) :
    M.Along P s₀ (h ++ [(a, o)]) ↔ M.Along P s₀ h ∧ P (h ++ [(a, o)]) s' := by
  have hr' : M.Run s₀ (h ++ [(a, o)]) s' := hr.snoc trivial hs
  constructor
  · intro h
    exact ⟨fun h₁ s₁ hpre => h h₁ s₁ (hpre.trans (List.prefix_append _ _)),
      h _ s' (List.prefix_refl _) hr'⟩
  · rintro ⟨hall, hP⟩ h₁ s₁ hpre hr₁
    rcases List.prefix_concat_iff.1 hpre with rfl | hpre
    · rwa [← hr'.unique hr₁]
    · exact hall h₁ s₁ hpre hr₁

theorem last (hP : M.Along P s₀ h) (hr : M.Run s₀ h s) : P h s := hP h s (List.prefix_refl _) hr

end Along

/-- **Which runs keep a property.**  Let `I` be an invariant of the steps between states with `P`,
by which a step keeps `P` exactly if it meets `C`.  Then `P` holds all along a run exactly if
every step of the run meets `C`. -/
theorem RunWhere.along_iff {I P : List (A × O) → S → Prop} (hr : M.RunWhere D s₀ h s)
    (hI : I [] s₀) (hP : P [] s₀)
    (hstep : ∀ h s a o s', I h s → P h s → D s a → M.next s a = some (s', o) →
      (P (h ++ [(a, o)]) s' → I (h ++ [(a, o)]) s') ∧ (C s a ↔ P (h ++ [(a, o)]) s')) :
    M.Along P s₀ h ↔ M.RunWhere C s₀ h s := by
  have hboth : (M.Along P s₀ h ↔ M.RunWhere C s₀ h s) ∧ (M.Along P s₀ h → I h s) := by
    induction hr with
    | nil => exact ⟨⟨fun _ => .nil, fun _ => Along.nil_iff.2 hP⟩, fun _ => hI⟩
    | @snoc h s s' a o hr hD hs ih =>
      obtain ⟨hiff, hI⟩ := ih
      rw [Along.snoc_iff hr.run hs]
      refine ⟨⟨fun hall => ?_, fun hC => ?_⟩, fun hall => ?_⟩
      · obtain ⟨-, hCP⟩ := hstep h s a o s' (hI hall.1) (hall.1.last hr.run) hD hs
        exact (hiff.1 hall.1).snoc (hCP.2 hall.2) hs
      · obtain ⟨s₁, hr₁, hC, -⟩ := hC.of_snoc
        obtain rfl := hr.unique hr₁
        have hall := hiff.2 hr₁
        obtain ⟨-, hCP⟩ := hstep h s a o s' (hI hall) (hall.last hr.run) hD hs
        exact ⟨hall, hCP.1 hC⟩
      · exact (hstep h s a o s' (hI hall.1) (hall.1.last hr.run) hD hs).1 hall.2
  exact hboth.1

/-- The form of `along_iff` for properties of single events. -/
theorem RunWhere.along_forall_iff {Q : A × O → Prop} (hr : M.RunWhere D s₀ h s)
    (hstep : ∀ s a o s', D s a → M.next s a = some (s', o) → (C s a ↔ Q (a, o))) :
    M.Along (fun h _ => ∀ e ∈ h, Q e) s₀ h ↔ M.RunWhere C s₀ h s := by
  refine hr.along_iff (I := fun _ _ => True) trivial (List.forall_mem_nil Q) ?_
  intro h s a o s' _ hall hD hs
  rw [List.forall_mem_append, List.forall_mem_singleton, hstep s a o s' hD hs]
  exact ⟨fun _ => trivial, fun hQ => ⟨hall, hQ⟩, fun hQ => hQ.2⟩

/-! ### Properties of the steps of a run -/

variable (M) in
/-- `Q` relates the states before and after every step of the run from `s₀` with history `h`. -/
def Throughout (Q : S → A → S → Prop) (s₀ : S) (h : List (A × O)) : Prop :=
  ∀ h₁ s a o s', h₁ ++ [(a, o)] <+: h → M.Run s₀ h₁ s → M.next s a = some (s', o) → Q s a s'

namespace Throughout

variable {Q : S → A → S → Prop}

theorem nil : M.Throughout Q s₀ [] := by
  intro h₁ s a o s' hpre
  exact absurd (List.prefix_nil.1 hpre) (by simp)

theorem snoc_iff {a : A} {o : O} (hr : M.Run s₀ h s) (hs : M.next s a = some (s', o)) :
    M.Throughout Q s₀ (h ++ [(a, o)]) ↔ M.Throughout Q s₀ h ∧ Q s a s' := by
  constructor
  · intro hall
    exact ⟨fun h₁ s₁ a₁ o₁ s₂ hpre => hall h₁ s₁ a₁ o₁ s₂ (hpre.trans (List.prefix_append _ _)),
      hall h s a o s' (List.prefix_refl _) hr hs⟩
  · rintro ⟨hall, hQ⟩ h₁ s₁ a₁ o₁ s₂ hpre hr₁ hs₁
    rcases List.prefix_concat_iff.1 hpre with heq | hpre
    · obtain ⟨rfl, hlast⟩ := List.append_inj' heq rfl
      cases hlast
      obtain rfl := hr₁.unique hr
      cases hs₁.symm.trans hs
      exact hQ
    · exact hall h₁ s₁ a₁ o₁ s₂ hpre hr₁ hs₁

end Throughout

/-- **Which runs have good steps.**  If, under an invariant `I`, a step is as `Q` says exactly if it
meets `C`, then all steps of a run are as `Q` says exactly if all of them meet `C`. -/
theorem RunWhere.throughout_iff {I : S → Prop} {Q : S → A → S → Prop} (hr : M.RunWhere D s₀ h s)
    (hI : I s₀)
    (hstep : ∀ s a o s', I s → M.next s a = some (s', o) → I s' ∧ (C s a ↔ Q s a s')) :
    M.Throughout Q s₀ h ↔ M.RunWhere C s₀ h s := by
  induction hr with
  | nil => exact ⟨fun _ => .nil, fun _ => .nil⟩
  | @snoc h s s' a o hr _ hs ih =>
    have hinv : I s := hr.invariant_state hI fun s a o s' hIs _ hs => (hstep s a o s' hIs hs).1
    obtain ⟨-, hCQ⟩ := hstep s a o s' hinv hs
    rw [Throughout.snoc_iff hr.run hs, ih, ← hCQ]
    constructor
    · exact fun ⟨hr, hC⟩ => hr.snoc hC hs
    · intro hC
      obtain ⟨s₁, hr₁, hC, -⟩ := hC.of_snoc
      obtain rfl := hr.unique hr₁
      exact ⟨hr₁, hC⟩

/-! ### Executable runs -/

section Exec

variable (M) (C) [∀ s a, Decidable (C s a)]

/-- Perform a list of actions, failing (`none`) if one of them cannot happen or does not meet
`C`. -/
def exec : S → List A → Option (S × List (A × O))
  | s, [] => some (s, [])
  | s, a :: as =>
    if C s a then
      match M.next s a with
      | none => none
      | some (s', o) => (exec s' as).map fun r => (r.1, (a, o) :: r.2)
    else none

variable {M} {C}

theorem runWhere_of_exec {as : List A} (he : M.exec C s as = some (s', h)) :
    M.RunWhere C s h s' := by
  induction as generalizing s h with
  | nil => cases he; exact RunWhere.nil
  | cons a as ih =>
    simp only [exec] at he
    split_ifs at he with hC
    split at he
    · cases he
    · rename_i s₁ o hs
      obtain ⟨⟨s₂, h₂⟩, he₂, heq⟩ := Option.map_eq_some_iff.1 he
      cases heq
      exact (RunWhere.single hC hs).append (ih he₂)

/-- An executable run performs the actions it is given. -/
theorem actions_of_exec {as : List A} (he : M.exec C s as = some (s', h)) :
    h.map Prod.fst = as := by
  induction as generalizing s h with
  | nil => cases he; rfl
  | cons a as ih =>
    simp only [exec] at he
    split_ifs at he with hC
    split at he
    · cases he
    · rename_i s₁ o hs
      obtain ⟨⟨s₂, h₂⟩, he₂, heq⟩ := Option.map_eq_some_iff.1 he
      cases heq
      rw [List.map_cons, ih he₂]

variable (M C) in
/-- An executable run that ends well is a run that ends well. -/
theorem exists_run_of_exec (s : S) (as : List A) (P : List (A × O) → S → Prop)
    [∀ h s, Decidable (P h s)] (he : (M.exec C s as).any (fun r => decide (P r.2 r.1)) = true) :
    ∃ h s', M.RunWhere C s h s' ∧ P h s' := by
  obtain ⟨⟨s', h⟩, hr, hP⟩ := (Option.any_eq_true _ _).1 he
  exact ⟨h, s', runWhere_of_exec hr, of_decide_eq_true hP⟩

variable (M C) in
/-- An executable run exhibits what holds of every run with its actions. -/
theorem exists_run_of_actions (s : S) (as : List A) {P Q : List (A × O) → S → Prop}
    [∀ h s, Decidable (P h s)] (he : (M.exec C s as).any (fun r => decide (P r.2 r.1)) = true)
    (hQ : ∀ h s', M.RunWhere C s h s' → Q h s') :
    ∃ h s', M.Run s h s' ∧ h.map Prod.fst = as ∧ P h s' ∧ Q h s' := by
  obtain ⟨⟨s', h⟩, hr, hP⟩ := (Option.any_eq_true _ _).1 he
  exact ⟨h, s', (runWhere_of_exec hr).run, actions_of_exec hr, of_decide_eq_true hP,
    hQ h s' (runWhere_of_exec hr)⟩

end Exec

end System

end SecMail
