import SecMail.LTS.Basic

/-!
# Runs that come to an end

A rank that every step of a kind lowers bounds the length of the runs with such steps, and each
state has such a run to a state where no step of that kind is left.

* `System.Quiescent C s` : no action that meets `C` can happen in `s`;
* `System.RunWhere.length_add_rank_le` : the bound;
* `System.exists_quiescent` : the run to the end.
-/

namespace SecMail

namespace System

variable {S A O : Type*} (M : System S A O)

/-- No action that meets `C` can happen. -/
def Quiescent (C : S → A → Prop) (s : S) : Prop := ∀ a, C s a → M.next s a = none

variable {M} {C : S → A → Prop} {I : S → Prop} {rank : S → ℕ} {s₀ s : S} {h : List (A × O)}

/-- A run is no longer than the rank it uses up. -/
theorem RunWhere.length_add_rank_le (hr : M.RunWhere C s₀ h s) (hI : I s₀)
    (hstep : ∀ s a o s', I s → C s a → M.next s a = some (s', o) → I s' ∧ rank s' < rank s) :
    h.length + rank s ≤ rank s₀ := by
  have hboth : I s ∧ h.length + rank s ≤ rank s₀ := by
    refine hr.invariant (I := fun h s => I s ∧ h.length + rank s ≤ rank s₀) ⟨hI, ?_⟩ ?_
    · simp
    · rintro h s a o s' ⟨hIs, hle⟩ hC hs
      obtain ⟨hIs', hlt⟩ := hstep s a o s' hIs hC hs
      rw [List.length_append, List.length_singleton]
      exact ⟨hIs', by omega⟩
  exact hboth.2

/-- A run can be continued as long as there is something left to do. -/
theorem exists_quiescent (hI : I s₀)
    (hstep : ∀ s a o s', I s → C s a → M.next s a = some (s', o) → I s' ∧ rank s' < rank s) :
    ∃ h s, M.RunWhere C s₀ h s ∧ M.Quiescent C s := by
  induction hn : rank s₀ using Nat.strongRecOn generalizing s₀ with
  | ind n ih =>
    by_cases hquiet : M.Quiescent C s₀
    · exact ⟨[], s₀, .nil, hquiet⟩
    · obtain ⟨a, hC, hne⟩ : ∃ a, C s₀ a ∧ M.next s₀ a ≠ none := by
        simpa [Quiescent] using hquiet
      obtain ⟨⟨s₁, o⟩, hs⟩ := Option.ne_none_iff_exists'.1 hne
      obtain ⟨hI₁, hlt⟩ := hstep s₀ a o s₁ hI hC hs
      obtain ⟨h, s, hr, hquiet⟩ := ih (rank s₁) (hn ▸ hlt) hI₁ rfl
      exact ⟨_, s, (RunWhere.single hC hs).append hr, hquiet⟩

end System

end SecMail
