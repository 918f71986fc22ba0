/-
Sessions that look before they take a place.

The state has places, and some sessions take one: they look whether there is a
free place, go on for a while and then take it without looking again. Between
the look and the taking another session may take the last place. It does not if
the last place is only taken while every other such session has ended or has
not looked yet.

* `Proc.Keeps`, `Proc.Takes`, `Proc.Careful`, `Proc.CarefulAfter`: what a
  program does with the places, from its end back to its beginning;
* `stepsOf`, `Spaced`, `SpacedBy`: schedules in which the last place is taken
  alone;
* `ok_of_spaced`: **spaced runs stay good**. The invariant is that a session
  which has looked and not yet taken still has a free place before it.
-/
import VpnPortal.Sessions.Pool

namespace Sessions

variable {κ σ ι ε α β : Type}

namespace Proc

section Places

variable (Ok Free : σ → Prop)

/-- A step that takes no place. -/
def Keeps (s t : σ) : Prop := Ok t ∧ (Free s → Free t)

/-- No step of the program takes a place. -/
abbrev Spares (C : Except ε α → Prop) (p : Proc σ ι ε α) : Prop :=
  Within (fun s _ => Ok s) (Keeps Ok Free) C p

/-- The program takes at most one place, without a look. -/
def Takes : Proc σ ι ε α → Prop
  | ret _ => True
  | raise _ => True
  | step act next => ∀ s i, Ok s → (Keeps Ok Free s (act s i) ∧ Takes (next s i))
      ∨ ((Free s → Ok (act s i)) ∧ Spares Ok Free (fun _ => True) (next s i))

/-- The program takes a place only after it has seen a free one. -/
def Careful : Proc σ ι ε α → Prop
  | ret _ => True
  | raise _ => True
  | step act next => ∀ s i, Ok s → Keeps Ok Free s (act s i)
      ∧ (Careful (next s i) ∨ (Free s ∧ Takes Ok Free (next s i)))

/-- The same, and its first `n` steps do not look. -/
def CarefulAfter : ℕ → Proc σ ι ε α → Prop
  | 0, p => Careful Ok Free p
  | _ + 1, ret _ => True
  | _ + 1, raise _ => True
  | n + 1, step act next => ∀ s i, Ok s → Keeps Ok Free s (act s i) ∧ CarefulAfter n (next s i)

variable {Ok Free}

lemma Keeps.refl {s : σ} (h : Ok s) : Keeps Ok Free s s := ⟨h, fun h => h⟩

/-- A prefix that takes nothing. -/
lemma Takes.bind {C : Except ε α → Prop} {p : Proc σ ι ε α} {f : α → Proc σ ι ε β}
    (hp : Spares Ok Free C p) (hf : ∀ a, C (.ok a) → Takes Ok Free (f a)) :
    Takes Ok Free (p >>= f) := by
  induction p with
  | ret a => exact hf a hp
  | raise e => trivial
  | step act next ih => exact fun s i hs => Or.inl ⟨(hp s i hs).1, ih s i (hp s i hs).2⟩

lemma Careful.of_spares {C : Except ε α → Prop} {p : Proc σ ι ε α} (hp : Spares Ok Free C p) :
    Careful Ok Free p := by
  induction p with
  | ret a => trivial
  | raise e => trivial
  | step act next ih => exact fun s i hs => ⟨(hp s i hs).1, Or.inl (ih s i (hp s i hs).2)⟩

/-- The look itself. -/
lemma Careful.look {g : σ → α} {f : α → Proc σ ι ε β}
    (hf : ∀ s, Ok s → Careful Ok Free (f (g s)) ∨ (Free s ∧ Takes Ok Free (f (g s)))) :
    Careful Ok Free (Proc.look g >>= f) :=
  fun s _ hs => ⟨Keeps.refl hs, hf s hs⟩

lemma CarefulAfter.exchange {n : ℕ} {g : σ → ι → α × σ} {f : α → Proc σ ι ε β}
    (hf : ∀ s i, Ok s → Keeps Ok Free s (g s i).2 ∧ CarefulAfter Ok Free n (f (g s i).1)) :
    CarefulAfter Ok Free (n + 1) (Proc.exchange g >>= f) := hf

/-- The value at the end does not matter. -/
lemma Takes.map {p : Proc σ ι ε α} (hp : Takes Ok Free p) (g : α → β) :
    Takes Ok Free (p >>= fun a => pure (g a)) := by
  induction p with
  | ret a => trivial
  | raise e => trivial
  | step act next ih =>
      intro s i hs
      rcases hp s i hs with ⟨hkeeps, hnext⟩ | ⟨hfill, hnext⟩
      · exact Or.inl ⟨hkeeps, ih s i hnext⟩
      · exact Or.inr ⟨hfill, hnext.bind (fun _ _ => trivial) fun _ _ => trivial⟩

lemma Careful.map {p : Proc σ ι ε α} (hp : Careful Ok Free p) (g : α → β) :
    Careful Ok Free (p >>= fun a => pure (g a)) := by
  induction p with
  | ret a => trivial
  | raise e => trivial
  | step act next ih =>
      intro s i hs
      obtain ⟨hkeeps, hnext | ⟨hfree, hnext⟩⟩ := hp s i hs
      · exact ⟨hkeeps, Or.inl (ih s i hnext)⟩
      · exact ⟨hkeeps, Or.inr ⟨hfree, hnext.map g⟩⟩

lemma CarefulAfter.map {n : ℕ} {p : Proc σ ι ε α} (hp : CarefulAfter Ok Free n p) (g : α → β) :
    CarefulAfter Ok Free n (p >>= fun a => pure (g a)) := by
  induction n generalizing p with
  | zero => exact Careful.map hp g
  | succ n ih =>
      cases p with
      | ret a => trivial
      | raise e => trivial
      | step act next => exact fun s i hs => ⟨(hp s i hs).1, ih (hp s i hs).2⟩

/-- An ended program. -/
lemma CarefulAfter.of_result {p : Proc σ ι ε α} {r : Except ε α} (h : p.result? = some r) (n : ℕ) :
    CarefulAfter Ok Free n p := by
  cases p with
  | ret a => cases n <;> trivial
  | raise e => cases n <;> trivial
  | step act next => cases h

end Places

end Proc

open Proc

variable [DecidableEq κ]

/-- How many steps of the schedule are those of session `k`. -/
def stepsOf (k : κ) (sched : List (κ × ι)) : ℕ := sched.countP fun ki => ki.1 = k

lemma stepsOf_snoc_self (k : κ) (i : ι) (sched : List (κ × ι)) :
    stepsOf k (sched ++ [(k, i)]) = stepsOf k sched + 1 := by
  simp [stepsOf, List.countP_append]

lemma stepsOf_snoc_of_ne {k l : κ} (h : l ≠ k) (i : ι) (sched : List (κ × ι)) :
    stepsOf l (sched ++ [(k, i)]) = stepsOf l sched := by
  simp [stepsOf, List.countP_append, Ne.symm h]

/-- Session `l` has ended, or has not gone further than its first `n` steps. -/
def Apart (n : ℕ) (c₀ : Cfg κ σ ι ε α) (sched : List (κ × ι)) (l : κ) : Prop :=
  stepsOf l sched ≤ n ∨ ∃ r, (c₀.run sched).Ended l r

/-- The last place is taken only while every other session of `A` is apart. -/
inductive Spaced (Free : σ → Prop) (A : Set κ) (n : ℕ) (c₀ : Cfg κ σ ι ε α) :
    List (κ × ι) → Prop where
  | nil : Spaced Free A n c₀ []
  | snoc {sched : List (κ × ι)} {k : κ} {i : ι} : Spaced Free A n c₀ sched →
      (Free (c₀.run sched).state → ¬ Free ((c₀.run sched).step k i).state →
        ∀ l ∈ A, l ≠ k → Apart n c₀ sched l) →
      Spaced Free A n c₀ (sched ++ [(k, i)])

/-- The same where each session looks after a number of steps of its own. -/
inductive SpacedBy (Free : σ → Prop) (A : Set κ) (n : κ → ℕ) (c₀ : Cfg κ σ ι ε α) :
    List (κ × ι) → Prop where
  | nil : SpacedBy Free A n c₀ []
  | snoc {sched : List (κ × ι)} {k : κ} {i : ι} : SpacedBy Free A n c₀ sched →
      (Free (c₀.run sched).state → ¬ Free ((c₀.run sched).step k i).state →
        ∀ l ∈ A, l ≠ k → Apart (n l) c₀ sched l) →
      SpacedBy Free A n c₀ (sched ++ [(k, i)])

lemma spaced_iff {Free : σ → Prop} {A : Set κ} {n : ℕ} {c₀ : Cfg κ σ ι ε α}
    {sched : List (κ × ι)} : Spaced Free A n c₀ sched ↔ SpacedBy Free A (fun _ => n) c₀ sched := by
  constructor
  · intro h
    induction h with
    | nil => exact .nil
    | snoc _ hspaced ih => exact ih.snoc hspaced
  · intro h
    induction h with
    | nil => exact .nil
    | snoc _ hspaced ih => exact ih.snoc hspaced

/-- One session goes on while the others are apart. -/
lemma SpacedBy.alone {Free : σ → Prop} {A : Set κ} {n : κ → ℕ} {c₀ : Cfg κ σ ι ε α} {k : κ} {i : ι}
    (m : ℕ) : ∀ {sched : List (κ × ι)}, SpacedBy Free A n c₀ sched →
      (∀ l ∈ A, l ≠ k → Apart (n l) c₀ sched l) →
      SpacedBy Free A n c₀ (sched ++ List.replicate m (k, i)) := by
  induction m with
  | zero =>
      intro sched h _
      rw [List.replicate_zero, List.append_nil]
      exact h
  | succ m ih =>
      intro sched h hapart
      rw [List.replicate_succ, List.append_cons]
      refine ih (h.snoc fun _ _ => hapart) fun l hl hne => ?_
      rcases hapart l hl hne with hsteps | ⟨r, hr⟩
      · exact Or.inl (by rw [stepsOf_snoc_of_ne hne]; exact hsteps)
      · refine Or.inr ⟨r, ?_⟩
        rw [Cfg.run_snoc, Cfg.Ended, Cfg.step_pool_of_ne _ hne]
        exact hr

lemma Spaced.alone {Free : σ → Prop} {A : Set κ} {n : ℕ} {c₀ : Cfg κ σ ι ε α} {k : κ} {i : ι}
    (m : ℕ) {sched : List (κ × ι)} (h : Spaced Free A n c₀ sched)
    (hapart : ∀ l ∈ A, l ≠ k → Apart n c₀ sched l) :
    Spaced Free A n c₀ (sched ++ List.replicate m (k, i)) :=
  spaced_iff.mpr ((spaced_iff.mp h).alone m hapart)

section Run

variable {Ok Free : σ → Prop} {A : Set κ} {n : ℕ}

/-- Where session `k` of `A` is: it has not looked, or it has seen a free place
and there still is one. -/
def Awaits (Ok Free : σ → Prop) (n : ℕ) (c : Cfg κ σ ι ε α) (sched : List (κ × ι)) (k : κ) : Prop :=
  CarefulAfter Ok Free (n - stepsOf k sched) (c.pool k)
    ∨ (n < stepsOf k sched ∧ Free c.state ∧ Takes Ok Free (c.pool k))

/-- The invariant of a spaced run. -/
structure Orderly (Ok Free : σ → Prop) (A : Set κ) (n : κ → ℕ) (c : Cfg κ σ ι ε α)
    (sched : List (κ × ι)) : Prop where
  ok : Ok c.state
  awaits : ∀ k ∈ A, Awaits Ok Free (n k) c sched k
  spares : ∀ k ∉ A, Spares Ok Free (fun _ => True) (c.pool k)

variable {c : Cfg κ σ ι ε α} {sched : List (κ × ι)} {k : κ} {i : ι}

/-- The session that steps: it takes no place, or it takes the one it has seen. -/
lemma Awaits.step (h : Awaits Ok Free n c sched k) (hok : Ok c.state) :
    Ok (c.step k i).state ∧ Awaits Ok Free n (c.step k i) (sched ++ [(k, i)]) k := by
  cases hp : c.pool k with
  | ret a =>
      have hstep : c.step k i = c := by rw [Cfg.step, hp]
      rw [hstep]
      exact ⟨hok, Or.inl (CarefulAfter.of_result (r := .ok a) (by rw [hp]; rfl) _)⟩
  | raise e =>
      have hstep : c.step k i = c := by rw [Cfg.step, hp]
      rw [hstep]
      exact ⟨hok, Or.inl (CarefulAfter.of_result (r := .error e) (by rw [hp]; rfl) _)⟩
  | step act next =>
      unfold Awaits at h ⊢
      rw [Cfg.step_of_step hp, stepsOf_snoc_self]
      simp only [Function.update_self]
      rw [hp] at h
      rcases h with hcareful | ⟨hlooked, hfree, htakes⟩
      · cases hm : n - stepsOf k sched with
        | zero =>
            rw [hm] at hcareful
            obtain ⟨hkeeps, hnext⟩ := hcareful c.state i hok
            refine ⟨hkeeps.1, ?_⟩
            have hzero : n - (stepsOf k sched + 1) = 0 := by omega
            rw [hzero]
            rcases hnext with hnext | ⟨hfree, htakes⟩
            · exact Or.inl hnext
            · exact Or.inr ⟨by omega, hkeeps.2 hfree, htakes⟩
        | succ m =>
            rw [hm] at hcareful
            obtain ⟨hkeeps, hnext⟩ := hcareful c.state i hok
            have hrest : n - (stepsOf k sched + 1) = m := by omega
            rw [hrest]
            exact ⟨hkeeps.1, Or.inl hnext⟩
      · have hzero : n - (stepsOf k sched + 1) = 0 := by omega
        rw [hzero]
        rcases htakes c.state i hok with ⟨hkeeps, hnext⟩ | ⟨hfill, hnext⟩
        · exact ⟨hkeeps.1, Or.inr ⟨by omega, hkeeps.2 hfree, hnext⟩⟩
        · exact ⟨hfill hfree, Or.inl (Careful.of_spares hnext)⟩

/-- A session that did not step: its place is still there, unless it is apart. -/
lemma Awaits.other {c₀ : Cfg κ σ ι ε α} {l : κ} (h : Awaits Ok Free n c sched l) (hl : l ≠ k)
    (hc : c = c₀.run sched)
    (hapart : Free c.state → ¬ Free (c.step k i).state → Apart n c₀ sched l) :
    Awaits Ok Free n (c.step k i) (sched ++ [(k, i)]) l := by
  unfold Awaits
  rw [c.step_pool_of_ne hl i, stepsOf_snoc_of_ne hl]
  rcases h with hcareful | ⟨hlooked, hfree, htakes⟩
  · exact Or.inl hcareful
  · by_cases hstill : Free (c.step k i).state
    · exact Or.inr ⟨hlooked, hstill, htakes⟩
    · rcases hapart hfree hstill with hsteps | ⟨r, hr⟩
      · exact absurd hsteps (not_le.mpr hlooked)
      · rw [← hc] at hr
        exact Or.inl (CarefulAfter.of_result hr _)

/-- A session outside `A` steps. -/
lemma spares_step (h : Spares Ok Free (fun _ => True) (c.pool k)) (hok : Ok c.state) :
    Keeps Ok Free c.state (c.step k i).state
      ∧ Spares Ok Free (fun _ => True) ((c.step k i).pool k) := by
  cases hp : c.pool k with
  | ret a =>
      have hstep : c.step k i = c := by rw [Cfg.step, hp]
      rw [hstep]
      exact ⟨Keeps.refl hok, h⟩
  | raise e =>
      have hstep : c.step k i = c := by rw [Cfg.step, hp]
      rw [hstep]
      exact ⟨Keeps.refl hok, h⟩
  | step act next =>
      rw [hp] at h
      rw [Cfg.step_of_step hp]
      simp only [Function.update_self]
      exact h c.state i hok

/-- **One spaced step.** -/
lemma Orderly.step {m : κ → ℕ} {c₀ : Cfg κ σ ι ε α} (h : Orderly Ok Free A m c sched)
    (hc : c = c₀.run sched)
    (hspaced : Free c.state → ¬ Free (c.step k i).state → ∀ l ∈ A, l ≠ k → Apart (m l) c₀ sched l) :
    Orderly Ok Free A m (c.step k i) (sched ++ [(k, i)]) := by
  have hothers : ∀ l ∈ A, l ≠ k → Awaits Ok Free (m l) (c.step k i) (sched ++ [(k, i)]) l :=
    fun l hl hne => (h.awaits l hl).other hne hc fun hfree hfull => hspaced hfree hfull l hl hne
  have hrest : ∀ l ∉ A, l ≠ k → Spares Ok Free (fun _ => True) ((c.step k i).pool l) := by
    intro l hl hne
    rw [c.step_pool_of_ne hne i]
    exact h.spares l hl
  by_cases hk : k ∈ A
  · obtain ⟨hok, hawaits⟩ := (h.awaits k hk).step (i := i) h.ok
    refine ⟨hok, fun l hl => ?_, fun l hl => hrest l hl fun heq => hl (heq ▸ hk)⟩
    by_cases hl' : l = k
    · rw [hl']
      exact hawaits
    · exact hothers l hl hl'
  · obtain ⟨hkeeps, hspares⟩ := spares_step (i := i) (h.spares k hk) h.ok
    refine ⟨hkeeps.1, fun l hl => hothers l hl fun heq => hk (heq ▸ hl), fun l hl => ?_⟩
    by_cases hl' : l = k
    · rw [hl']
      exact hspares
    · exact hrest l hl hl'

/-- **Spaced runs stay good**, whenever each session looks. -/
theorem ok_of_spacedBy {m : κ → ℕ} {c₀ : Cfg κ σ ι ε α} (hok : Ok c₀.state)
    (hA : ∀ k ∈ A, CarefulAfter Ok Free (m k) (c₀.pool k))
    (hrest : ∀ k ∉ A, Spares Ok Free (fun _ => True) (c₀.pool k)) {sched : List (κ × ι)}
    (h : SpacedBy Free A m c₀ sched) : Ok (c₀.run sched).state := by
  suffices horderly : Orderly Ok Free A m (c₀.run sched) sched from horderly.ok
  induction h with
  | nil => exact ⟨hok, fun k hk => Or.inl (hA k hk), hrest⟩
  | snoc _ hspaced ih =>
      rw [Cfg.run_snoc]
      exact ih.step rfl hspaced

/-- **Spaced runs stay good.** -/
theorem ok_of_spaced {c₀ : Cfg κ σ ι ε α} (hok : Ok c₀.state)
    (hA : ∀ k ∈ A, CarefulAfter Ok Free n (c₀.pool k))
    (hrest : ∀ k ∉ A, Spares Ok Free (fun _ => True) (c₀.pool k)) {sched : List (κ × ι)}
    (h : Spaced Free A n c₀ sched) : Ok (c₀.run sched).state :=
  ok_of_spacedBy hok hA hrest (spaced_iff.mp h)

end Run

end Sessions
