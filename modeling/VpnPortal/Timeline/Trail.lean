/-
Runs of a step relation, with the steps they took.

A trail keeps every step as the pair of its two states, so that a law about the
states of a run can be compared with a condition on its steps. If, on the states
of an invariant, a step keeps the law exactly when it meets the condition, then
a run keeps the law throughout exactly when all its steps meet it
(`Trail.law_iff`).

* `Trail`, `Trail.invariant`: an invariant that the steps keep holds at the end;
* `Trail.states`, `Trail.law_iff`: a law holds in every state of the run exactly if every
  step meets its condition.
-/
import Mathlib.Data.List.Basic
import Mathlib.Tactic

namespace Timeline

variable {σ : Type}

/-- A run from `s₀` with its steps, in order. -/
inductive Trail (S : σ → σ → Prop) (s₀ : σ) : List (σ × σ) → σ → Prop where
  | nil : Trail S s₀ [] s₀
  | snoc {steps : List (σ × σ)} {s t : σ} :
      Trail S s₀ steps s → S s t → Trail S s₀ (steps ++ [(s, t)]) t

namespace Trail

variable {S : σ → σ → Prop} {s₀ s : σ} {steps : List (σ × σ)}

/-- What holds at the start and is kept by every step that meets the condition
`C` holds at the end of a run whose steps all meet it. -/
lemma invariant {I : σ → Prop} {C : σ → σ → Prop} (h : Trail S s₀ steps s) (h₀ : I s₀)
    (hstep : ∀ u v, S u v → C u v → I u → I v) (hC : ∀ x ∈ steps, C x.1 x.2) : I s := by
  induction h with
  | nil => exact h₀
  | @snoc steps u v _ hs ih =>
      have hbefore : I u := ih fun x hx => hC x (by simp [hx])
      exact hstep u v hs (hC (u, v) (by simp)) hbefore

/-- The states a run went through, the first and the last among them. -/
def states (s₀ : σ) (steps : List (σ × σ)) : List σ := s₀ :: steps.map Prod.snd

lemma mem_states_snoc {x u v : σ} :
    x ∈ states s₀ (steps ++ [(u, v)]) ↔ x ∈ states s₀ steps ∨ x = v := by
  simp [states, or_assoc]

/-- The end of a run is one of its states. -/
lemma last_mem (h : Trail S s₀ steps s) : s ∈ states s₀ steps := by
  cases h with
  | nil => simp [states]
  | snoc _ _ => exact mem_states_snoc.mpr (Or.inr rfl)

/-- **The law of a run.** Let `I` be an invariant of the steps, and let a step
out of a lawful state lead to a lawful one exactly when it meets `C`. Then all
states of a run are lawful exactly when all its steps meet `C`. -/
theorem law_iff {I Law : σ → Prop} {C : σ → σ → Prop} (hI₀ : I s₀) (h₀ : Law s₀)
    (hI : ∀ u v, S u v → I u → I v)
    (hlaw : ∀ u v, S u v → I u → Law u → (Law v ↔ C u v)) (h : Trail S s₀ steps s) :
    (∀ x ∈ states s₀ steps, Law x) ↔ ∀ x ∈ steps, C x.1 x.2 := by
  induction h with
  | nil => simpa [states] using h₀
  | @snoc steps u v htrail hs ih =>
      have hinv : I u := htrail.invariant (C := fun _ _ => True) hI₀
        (fun a b hab _ ha => hI a b hab ha) fun _ _ => trivial
      constructor
      · intro hall x hx
        have hbefore : ∀ x ∈ states s₀ steps, Law x := fun x hx =>
          hall x (mem_states_snoc.mpr (Or.inl hx))
        rcases List.mem_append.mp hx with hx | hx
        · exact ih.mp hbefore x hx
        · rw [List.mem_singleton.mp hx]
          exact (hlaw u v hs hinv (hbefore u htrail.last_mem)).mp
            (hall v (mem_states_snoc.mpr (Or.inr rfl)))
      · intro hC x hx
        have hbefore := ih.mpr fun x hx => hC x (by simp [hx])
        rcases mem_states_snoc.mp hx with hx | rfl
        · exact hbefore x hx
        · exact (hlaw u x hs hinv (hbefore u htrail.last_mem)).mpr (hC (u, x) (by simp))

end Trail

end Timeline
