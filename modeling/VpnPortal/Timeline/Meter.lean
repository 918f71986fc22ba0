/-
A prepaid meter over discrete time: a clock, and the end of the time that was
paid for.

An extension by `n` starts at the later of now and the end, so time already paid
for is kept and time that has lapsed is not charged. The law of the meter is a
conservation law: over any run the instants at which it was on, and those still
ahead, are together the sum of the extensions (`Trace.conserved`).

* `Meter`, `Meter.On`, `Meter.spent`, `Meter.left`: the meter, its time on and ahead;
* `Meter.Step`, `Meter.Step.conserved`: one step spends and
  leaves what it had and was given;
* `Trace`, `Trace.conserved`: so does any run; `Trace.end_le`: its end does not move back.
-/
import Mathlib.Order.Interval.Finset.Basic
import Mathlib.Data.Int.Interval
import Mathlib.Tactic

namespace Timeline

/-- The clock, and the first instant that is not paid for. -/
structure Meter where
  clock : ℤ
  end_ : Option ℤ

namespace Meter

/-- Whether the meter covers the instant `t`. -/
def On (m : Meter) (t : ℤ) : Prop := ∃ e ∈ m.end_, t < e

instance (m : Meter) (t : ℤ) : Decidable (m.On t) :=
  match h : m.end_ with
  | none => isFalse (by rintro ⟨e, he, -⟩; rw [h] at he; cases he)
  | some e => decidable_of_iff (t < e) (by simp [On, h])

/-- The instants from now until `b` at which the meter is on. -/
noncomputable def spent (m : Meter) (b : ℤ) : ℕ := ((Finset.Ico m.clock b).filter fun t => m.On t).card

/-- The instants that are paid for and still ahead. -/
def left (m : Meter) : ℤ := m.end_.elim 0 fun e => max 0 (e - m.clock)

/-- The clock runs, and the end stays or is extended by `n` from the later of
now and the old end. -/
structure Step (m : Meter) (n : ℤ) (m' : Meter) : Prop where
  clock_le : m.clock ≤ m'.clock
  end_eq : (m'.end_ = m.end_ ∧ n = 0)
    ∨ (0 ≤ n ∧ m'.end_ = some (max m'.clock (m.end_.getD m'.clock) + n))

lemma card_filter_lt (a b e : ℤ) :
    (((Finset.Ico a b).filter (· < e)).card : ℤ) = max 0 (min b e - a) := by
  have hIco : (Finset.Ico a b).filter (· < e) = Finset.Ico a (min b e) := by
    ext t
    simp only [Finset.mem_filter, Finset.mem_Ico, lt_min_iff]
    tauto
  rw [hIco, Int.card_Ico]
  omega

lemma spent_none {m : Meter} (h : m.end_ = none) (b : ℤ) : m.spent b = 0 := by
  simp [spent, On, h]

lemma spent_some {m : Meter} {e : ℤ} (h : m.end_ = some e) (b : ℤ) :
    (m.spent b : ℤ) = max 0 (min b e - m.clock) := by
  rw [← card_filter_lt, spent]
  congr 2
  ext t
  simp [On, h]

/-- Up to its own end the meter is on for all that is left. -/
lemma spent_end (m : Meter) : (m.spent (m.end_.getD m.clock) : ℤ) = m.left := by
  cases h : m.end_ with
  | none => rw [spent_none h, left, h]; rfl
  | some e => rw [spent_some h, left, h]; simp

/-- **One step conserves time.** -/
theorem Step.conserved {m m' : Meter} {n : ℤ} (h : m.Step n m') :
    (m.spent m'.clock : ℤ) + m'.left = m.left + n := by
  have hclock := h.clock_le
  rcases h.end_eq with ⟨hend, rfl⟩ | ⟨hn, hend⟩
  · cases he : m.end_ with
    | none =>
        rw [he] at hend
        simp [spent_none he, left, he, hend]
    | some e =>
        rw [he] at hend
        simp only [spent_some he, left, he, hend, Option.elim_some]
        omega
  · cases he : m.end_ with
    | none =>
        rw [he, Option.getD_none, max_self] at hend
        simp only [spent_none he, left, he, hend, Option.elim_some, Option.elim_none]
        omega
    | some e =>
        rw [he, Option.getD_some] at hend
        simp only [spent_some he, left, he, hend, Option.elim_some]
        omega

/-- The end never moves back. -/
lemma Step.end_le {m m' : Meter} {n : ℤ} (h : m.Step n m') {e : ℤ} (he : m.end_ = some e) :
    ∃ e', m'.end_ = some e' ∧ e ≤ e' := by
  rcases h.end_eq with ⟨hend, -⟩ | ⟨hn, hend⟩
  · exact ⟨e, hend.trans he, le_rfl⟩
  · refine ⟨_, hend, ?_⟩
    rw [he, Option.getD_some]
    have := le_max_right m'.clock e
    omega

end Meter

/-- A run of the meter: each step with its extension. -/
inductive Trace : Meter → List (Meter × ℤ × Meter) → Meter → Prop where
  | nil (m : Meter) : Trace m [] m
  | snoc {m₀ m m' : Meter} {n : ℤ} {steps : List (Meter × ℤ × Meter)} :
      Trace m₀ steps m → m.Step n m' → Trace m₀ (steps ++ [(m, n, m')]) m'

namespace Trace

/-- The instants of the run at which the meter was on. -/
noncomputable def onTime (steps : List (Meter × ℤ × Meter)) : ℤ :=
  (steps.map fun s => (s.1.spent s.2.2.clock : ℤ)).sum

/-- The extensions of the run. -/
def credits (steps : List (Meter × ℤ × Meter)) : ℤ := (steps.map fun s => s.2.1).sum

/-- **Conservation.** What was used and what is left is what was there and what
was added. -/
theorem conserved {m₀ m : Meter} {steps : List (Meter × ℤ × Meter)} (h : Trace m₀ steps m) :
    onTime steps + m.left = m₀.left + credits steps := by
  induction h with
  | nil => simp [onTime, credits]
  | @snoc m m' n steps _ hstep ih =>
      have hone := hstep.conserved
      simp only [onTime, credits, List.map_append, List.sum_append, List.map_cons, List.map_nil,
        List.sum_cons, List.sum_nil] at ih ⊢
      omega

end Trace

end Timeline
