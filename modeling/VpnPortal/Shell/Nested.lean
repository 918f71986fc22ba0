/-
Scripts that run other scripts.

* `zoom`: a script on a part of the state; `orTrue`: `m || true`; `call`: a command of
  which it is known what it leaves when it fails;
* `Triple.zoom`, `Triple.orTrue`, `Triple.call`: their rules;
* `Along`: what the state after a script has to do with the state before it, however
  the script ends; no measure is needed for a loop.
-/
import VpnPortal.Shell.Script

namespace Shell

variable {σ τ : Type} {α β : Type}

/-- `m || true` -/
def orTrue (m : Sh σ Unit) : Sh σ Unit := fun w => (some (), (m w).2)

/-- A command that tells whether it succeeded and what it leaves; a failure ends the script. -/
def call (f : σ → Bool × σ) : Sh σ Unit := fun w =>
  let r := f w.point.node
  (if r.1 then some () else none,
    { w with point := ⟨r.2, w.point.failed || !r.1⟩, seen := r.2 :: w.seen })

/-- A script on a part of the state. -/
def zoom (get : σ → τ) (put : τ → σ → σ) (m : Sh τ α) : Sh σ α := fun w =>
  let r := m { point := ⟨get w.point.node, w.point.failed⟩, faults := w.faults, seen := [] }
  (r.1, { point := ⟨put r.2.point.node w.point.node, r.2.point.failed⟩, faults := r.2.faults,
          seen := r.2.seen.map (put · w.point.node) ++ w.seen })

section Rules

variable {faulty : Bool} {I I' : σ → Prop} {P P' E E' : Point σ → Prop}

lemma Triple.orTrue {m : Sh σ Unit} {Q : Point σ → Prop} (h : Triple faulty I P m (fun _ => Q) Q) :
    Triple faulty I P (Shell.orTrue m) (fun _ => Q) E := by
  intro w hw hp
  have hm := h w hw hp
  unfold Shell.orTrue
  rcases hmw : m w with ⟨_ | u, w'⟩ <;> rw [hmw] at hm <;> exact hm

lemma Triple.call {f : σ → Bool × σ} {Q : Unit → Point σ → Prop} (hI : ∀ p, P p → I (f p.node).2)
    (hok : ∀ p, P p → (f p.node).1 = true → Q () { p with node := (f p.node).2 })
    (hno : ∀ p, P p → (f p.node).1 = false → E ⟨(f p.node).2, true⟩) :
    Triple faulty I P (Shell.call f) Q E := by
  intro w hw hp
  have hwithin : ∀ p : Point σ, p.node = (f w.point.node).2 →
      Within faulty I { w with point := p, seen := (f w.point.node).2 :: w.seen } := by
    refine fun p hnode => ⟨fun s hs => ?_, hw.faults⟩
    rcases List.mem_cons.mp hs with rfl | hs
    · exact hI _ hp
    · exact hw.seen s hs
  unfold Shell.call
  dsimp only
  cases hf : (f w.point.node).1 with
  | true =>
    rw [if_pos rfl]
    refine ⟨hwithin _ rfl, ?_⟩
    simpa using hok _ hp hf
  | false =>
    rw [if_neg (by simp)]
    refine ⟨hwithin _ rfl, ?_⟩
    simpa using hno _ hp hf

/-- The rule of a script on a part: it starts from the part of a known state. -/
lemma Triple.zoom {get : σ → τ} {put : τ → σ → σ} {J : τ → Prop} {m : Sh τ α} {Q : α → Point σ → Prop}
    (h : ∀ p, P p → Triple faulty J (fun q => q = ⟨get p.node, p.failed⟩) m
      (fun a q => Q a ⟨put q.node p.node, q.failed⟩) (fun q => E ⟨put q.node p.node, q.failed⟩))
    (hI : ∀ p t, P p → J t → I (put t p.node)) : Triple faulty I P (Shell.zoom get put m) Q E := by
  intro w hw hp
  have hm := h w.point hp { point := ⟨get w.point.node, w.point.failed⟩, faults := w.faults, seen := [] }
    ⟨fun s hs => absurd hs List.not_mem_nil, hw.faults⟩ rfl
  have hwithin : ∀ w' : World τ, Within faulty J w' → Within faulty I
      { point := ⟨put w'.point.node w.point.node, w'.point.failed⟩, faults := w'.faults,
        seen := w'.seen.map (put · w.point.node) ++ w.seen } := by
    refine fun w' hw' => ⟨fun s hs => ?_, hw'.faults⟩
    rcases List.mem_append.mp hs with hs | hs
    · obtain ⟨t, ht, rfl⟩ := List.mem_map.mp hs
      exact hI _ t hp (hw'.seen t ht)
    · exact hw.seen s hs
  unfold Shell.zoom
  rcases hmw : m { point := ⟨get w.point.node, w.point.failed⟩, faults := w.faults, seen := [] }
    with ⟨_ | a, w'⟩ <;> rw [hmw] at hm
  · exact ⟨hwithin w' hm.1, hm.2⟩
  · exact ⟨hwithin w' hm.1, hm.2⟩

/-- Two facts about one script. -/
lemma Triple.and {m : Sh σ α} {Q Q' : α → Point σ → Prop} (h : Triple faulty I P m Q E)
    (h' : Triple faulty I' P' m Q' E') :
    Triple faulty (fun s => I s ∧ I' s) (fun p => P p ∧ P' p) m (fun a p => Q a p ∧ Q' a p)
      (fun p => E p ∧ E' p) := by
  intro w hw hp
  have hm := h w ⟨fun s hs => (hw.seen s hs).1, hw.faults⟩ hp.1
  have hm' := h' w ⟨fun s hs => (hw.seen s hs).2, hw.faults⟩ hp.2
  rcases hmw : m w with ⟨_ | a, w'⟩ <;> rw [hmw] at hm hm' <;>
    exact ⟨⟨fun s hs => ⟨hm.1.seen s hs, hm'.1.seen s hs⟩, hm.1.faults⟩, hm.2, hm'.2⟩

end Rules

/-! ### Along a script -/

/-- However the script ends, the state after it is in this relation to the state before. -/
def Along (R : σ → σ → Prop) (m : Sh σ α) : Prop := ∀ w, R w.point.node (m w).2.point.node

namespace Along

variable {R : σ → σ → Prop}

lemma act {f : σ → Option σ} (hrefl : ∀ s, R s s) (h : ∀ s t, f s = some t → R s t) :
    Along R (Shell.act f) := by
  intro w
  unfold Shell.act
  split
  · exact hrefl _
  · split
    · rename_i s hs
      exact h _ _ hs
    · exact hrefl _

lemma attempt {f : σ → Option σ} (hrefl : ∀ s, R s s) (h : ∀ s t, f s = some t → R s t) :
    Along R (Shell.attempt f) := by
  intro w
  unfold Shell.attempt
  split
  · exact hrefl _
  · split
    · rename_i s hs
      exact h _ _ hs
    · exact hrefl _

lemma pure (hrefl : ∀ s, R s s) (a : α) : Along R (Pure.pure a : Sh σ α) := fun _ => hrefl _

lemma look (hrefl : ∀ s, R s s) (g : σ → α) : Along R (Shell.look g) := fun _ => hrefl _

lemma assign (hrefl : ∀ s, R s s) (o : Option α) : Along R (Shell.assign o) := fun _ => hrefl _

lemma bind (htrans : ∀ s t u, R s t → R t u → R s u) {m : Sh σ α} {f : α → Sh σ β}
    (hm : Along R m) (hf : ∀ a, Along R (f a)) : Along R (m >>= f) := by
  intro w
  have hm' := hm w
  show R _ (Sh.bind m f w).2.point.node
  unfold Sh.bind
  rcases hmw : m w with ⟨_ | a, w'⟩ <;> rw [hmw] at hm'
  · exact hm'
  · exact htrans _ _ _ hm' (hf a w')

lemma ifRead (hrefl : ∀ s, R s s) {g : σ → Bool} {m : Sh σ Unit} (h : Along R m) :
    Along R (Shell.ifRead g m) := by
  intro w
  unfold Shell.ifRead
  rw [look_bind]
  split
  · exact h w
  · exact hrefl _

lemma readOr (hrefl : ∀ s, R s s) {g : σ → Bool} {m : Sh σ Unit} (h : Along R m) :
    Along R (Shell.readOr g m) := by
  intro w
  unfold Shell.readOr
  rw [look_bind]
  split
  · exact hrefl _
  · exact h w

lemma whileDo (hrefl : ∀ s, R s s) (htrans : ∀ s t u, R s t → R t u → R s u) {measure : σ → ℕ}
    {c : Sh σ Bool} {b : Sh σ Unit} (hc : Along R c) (hb : Along R b) :
    Along R (Shell.whileDo measure c b) := by
  have hround : Along R (round c b) := by
    refine bind htrans hc fun more => ?_
    cases more with
    | true => exact bind htrans hb fun _ => pure hrefl _
    | false => exact pure hrefl _
  have hrounds : ∀ k, Along R (rounds c b k) := by
    intro k
    induction k with
    | zero => exact pure hrefl ()
    | succ k ih =>
      refine bind htrans hround fun more => ?_
      cases more with
      | true => exact ih
      | false => exact pure hrefl ()
  exact fun w => hrounds _ w

lemma trapExit (htrans : ∀ s t u, R s t → R t u → R s u) {body : Sh σ α} {teardown : Sh σ Unit}
    (hb : Along R body) (ht : Along R teardown) : Along R (Shell.trapExit body teardown) := by
  intro w
  have hbody := hb w
  unfold Shell.trapExit
  rcases hbw : body w with ⟨_ | a, w'⟩ <;> rw [hbw] at hbody
  · exact htrans _ _ _ hbody (ht w')
  · exact hbody

/-- A fact about the states of a script, with what holds along it. -/
lemma triple (htrans : ∀ s t u, R s t → R t u → R s u) {faulty : Bool} {I : σ → Prop}
    {P E : Point σ → Prop} {m : Sh σ α} {Q : α → Point σ → Prop} (h : Along R m)
    (hm : Triple faulty I P m Q E) (s : σ) :
    Triple faulty I (fun p => P p ∧ R s p.node) m (fun a p => Q a p ∧ R s p.node)
      (fun p => E p ∧ R s p.node) := by
  intro w hw hp
  have hends := hm w hw hp.1
  have hlast := htrans _ _ _ hp.2 (h w)
  rcases hmw : m w with ⟨_ | a, w'⟩ <;> rw [hmw] at hends hlast <;> exact ⟨hends.1, hends.2, hlast⟩

end Along

end Shell
