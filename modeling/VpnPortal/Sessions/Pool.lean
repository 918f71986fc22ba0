/-
Sessions side by side: a pool of programs over one shared state, advanced one
atomic step at a time in an order the schedule chooses.

* `Cfg`, `Cfg.step`, `Cfg.run`: a configuration and its run along a schedule, a
  list of sessions with the input each step receives;
* `Idle`: a session that has not begun or has ended;
* `Exclusive`: a run in which a session changes the observation `π` only while
  every other session has not begun, has finished, or has already made its own
  change; `Exclusive.alone`: a session that runs while the others are idle;
* `Serial`: values of `π` linked by one step of `E k` for each session `k` of a
  list, in that order;
* `serial_of_exclusive`: the pool of `Once` programs, run exclusively, has
  changed `π` along a serial chain. The invariant behind it is that a session
  which has begun and not yet made its step has read nothing but the present
  value of `π`.
-/
import VpnPortal.Sessions.Proc

namespace Sessions

variable {κ σ ι ε α D : Type}

/-- The shared state and what is left of each session's program. -/
structure Cfg (κ σ ι ε α : Type) where
  state : σ
  pool : κ → Proc σ ι ε α

namespace Cfg

variable [DecidableEq κ]

/-- Session `k` takes its next step with input `i`; a finished session stays. -/
def step (c : Cfg κ σ ι ε α) (k : κ) (i : ι) : Cfg κ σ ι ε α :=
  match c.pool k with
  | .step act next => ⟨act c.state i, Function.update c.pool k (next c.state i)⟩
  | _ => c

/-- The run along a schedule. -/
def run (c : Cfg κ σ ι ε α) (sched : List (κ × ι)) : Cfg κ σ ι ε α :=
  sched.foldl (fun c ki => c.step ki.1 ki.2) c

/-- Session `k` has ended with the result `r`. -/
def Ended (c : Cfg κ σ ι ε α) (k : κ) (r : Except ε α) : Prop :=
  (c.pool k).result? = some r

instance [DecidableEq ε] [DecidableEq α] (c : Cfg κ σ ι ε α) (k : κ) (r : Except ε α) :
    Decidable (c.Ended k r) :=
  inferInstanceAs (Decidable ((c.pool k).result? = some r))

@[simp] lemma run_nil (c : Cfg κ σ ι ε α) : c.run [] = c := rfl

@[simp] lemma run_snoc (c : Cfg κ σ ι ε α) (sched : List (κ × ι)) (k : κ) (i : ι) :
    c.run (sched ++ [(k, i)]) = (c.run sched).step k i := by
  simp [run, List.foldl_append]

lemma run_append (c : Cfg κ σ ι ε α) (before during : List (κ × ι)) :
    c.run (before ++ during) = (c.run before).run during :=
  List.foldl_append

lemma step_of_step {c : Cfg κ σ ι ε α} {k : κ} {act : σ → ι → σ}
    {next : σ → ι → Proc σ ι ε α} (h : c.pool k = .step act next) (i : ι) :
    c.step k i = ⟨act c.state i, Function.update c.pool k (next c.state i)⟩ := by
  rw [step, h]

/-- A session other than the one that steps keeps its program. -/
lemma step_pool_of_ne (c : Cfg κ σ ι ε α) {k l : κ} (h : l ≠ k) (i : ι) :
    (c.step k i).pool l = c.pool l := by
  unfold step
  split
  · simp [Function.update_of_ne h]
  · rfl

/-- A session that has not begun has its whole program before it. -/
lemma run_pool_of_notMem (c : Cfg κ σ ι ε α) {sched : List (κ × ι)} {k : κ}
    (h : ∀ i, (k, i) ∉ sched) : (c.run sched).pool k = c.pool k := by
  induction sched using List.reverseRecOn with
  | nil => rfl
  | append_singleton sched li ih =>
      have hne : k ≠ li.1 := fun heq => h li.2 (by rw [heq]; simp)
      rw [run_snoc, step_pool_of_ne _ hne]
      exact ih fun i hi => h i (List.mem_append_left _ hi)

end Cfg

section Idle

variable [DecidableEq κ]

/-- Session `k` has not begun or has ended. -/
def Idle (c₀ : Cfg κ σ ι ε α) (sched : List (κ × ι)) (k : κ) : Prop :=
  (∀ i, (k, i) ∉ sched) ∨ ∃ r, (c₀.run sched).Ended k r

/-- A step of another session leaves it idle. -/
lemma Idle.other {c₀ : Cfg κ σ ι ε α} {sched : List (κ × ι)} {k m : κ} (h : Idle c₀ sched m)
    (hm : m ≠ k) (i : ι) : Idle c₀ (sched ++ [(k, i)]) m := by
  rcases h with hfresh | ⟨r, hr⟩
  · refine Or.inl fun j hj => ?_
    rcases List.mem_append.mp hj with hj | hj
    · exact hfresh j hj
    · exact hm (Prod.mk.inj (List.mem_singleton.mp hj)).1
  · refine Or.inr ⟨r, ?_⟩
    rw [Cfg.run_snoc, Cfg.Ended, Cfg.step_pool_of_ne _ hm]
    exact hr

lemma Idle.others {c₀ : Cfg κ σ ι ε α} {sched : List (κ × ι)} {k m : κ} (h : Idle c₀ sched m)
    (hm : m ≠ k) (i : ι) (n : ℕ) : Idle c₀ (sched ++ List.replicate n (k, i)) m := by
  induction n with
  | zero =>
      rw [List.replicate_zero, List.append_nil]
      exact h
  | succ n ih =>
      rw [List.replicate_succ', ← List.append_assoc]
      exact ih.other hm i

end Idle

section Exclusive

variable [DecidableEq κ] (J : σ → ι → Prop) (π : σ → D)

/-- `Exclusive J π c₀ sched W`: the run along `sched`, in which exactly the
sessions of `W` have changed `π`, and each of them while no other session was
under way with its own change still to come. -/
inductive Exclusive (c₀ : Cfg κ σ ι ε α) : List (κ × ι) → Set κ → Prop where
  | nil : Exclusive c₀ [] ∅
  | keep {sched : List (κ × ι)} {W : Set κ} {k : κ} {i : ι} :
      Exclusive c₀ sched W → J (c₀.run sched).state i →
      π ((c₀.run sched).step k i).state = π (c₀.run sched).state →
      Exclusive c₀ (sched ++ [(k, i)]) W
  | write {sched : List (κ × ι)} {W : Set κ} {k : κ} {i : ι} :
      Exclusive c₀ sched W → J (c₀.run sched).state i →
      π ((c₀.run sched).step k i).state ≠ π (c₀.run sched).state →
      (∀ l, l ≠ k → l ∈ W ∨ (∀ j, (l, j) ∉ sched) ∨ ∃ r, (c₀.run sched).Ended l r) →
      Exclusive c₀ (sched ++ [(k, i)]) (insert k W)

/-- A chain of values of `π`, one step of `E k` for each `k` of the list. -/
inductive Serial (E : κ → σ → σ → Prop) : List κ → D → D → Prop where
  | nil (d : D) : Serial E [] d d
  | snoc {l : List κ} {d : D} {k : κ} {s t : σ} :
      Serial E l d (π s) → E k s t → Serial E (l ++ [k]) d (π t)

variable {J π} {E : κ → σ → σ → Prop} {N C : κ → Except ε α → Prop}

/-- What the program of session `k` is in the course of an exclusive run: still
before its step and in agreement with the present value of `π`, or past it. -/
def Stage (J : σ → ι → Prop) (π : σ → D) (E : κ → σ → σ → Prop)
    (N C : κ → Except ε α → Prop) (c₀ c : Cfg κ σ ι ε α) (sched : List (κ × ι))
    (l : List κ) (k : κ) : Prop :=
  (k ∉ l ∧ (c.pool k).Once J π (π c.state) (E k) (fun s t => π t = π s) (N k) (C k)
      ∧ ((∀ j, (k, j) ∉ sched) → c.pool k = c₀.pool k))
    ∨ (k ∈ l ∧ (c.pool k).Within J (fun s t => π t = π s) (C k))

/-- An ended program that was `Once` for one value of `π` is so for any. -/
lemma once_of_ended {p : Proc σ ι ε α} {d d' : D} {E R : σ → σ → Prop}
    {N C : Except ε α → Prop} {r : Except ε α} (h : p.Once J π d E R N C)
    (hr : p.result? = some r) : p.Once J π d' E R N C := by
  cases p with
  | ret a => exact h
  | raise e => exact h
  | step act next => simp [Proc.result?] at hr

/-- A step that keeps `π` keeps the stage of every other session. -/
lemma Stage.keep_other {c₀ c : Cfg κ σ ι ε α} {sched : List (κ × ι)} {l : List κ}
    {k m : κ} {i : ι} (h : Stage J π E N C c₀ c sched l m) (hm : m ≠ k)
    (hπ : π (c.step k i).state = π c.state) :
    Stage J π E N C c₀ (c.step k i) (sched ++ [(k, i)]) l m := by
  unfold Stage
  rw [c.step_pool_of_ne hm i, hπ]
  rcases h with ⟨h1, h2, h3⟩ | h
  · exact Or.inl ⟨h1, h2, fun hj => h3 fun j hmem => hj j (by simp [hmem])⟩
  · exact Or.inr h

/-- A step that changes `π` keeps the stage of a session that has not begun,
has ended, or has already made its own step. -/
lemma Stage.write_other {c₀ c : Cfg κ σ ι ε α} {sched : List (κ × ι)} {l : List κ}
    {k m : κ} {i : ι} (h : Stage J π E N C c₀ c sched l m) (hm : m ≠ k)
    (hrest : m ∈ l ∨ (∀ j, (m, j) ∉ sched) ∨ ∃ r, c.Ended m r)
    (hspec : ∀ d, (c₀.pool m).Once J π d (E m) (fun s t => π t = π s) (N m) (C m)) :
    Stage J π E N C c₀ (c.step k i) (sched ++ [(k, i)]) (l ++ [k]) m := by
  unfold Stage
  rw [c.step_pool_of_ne hm i]
  rcases h with ⟨h1, h2, h3⟩ | ⟨h1, h2⟩
  · have hj : (∀ j, (m, j) ∉ sched ++ [(k, i)]) → c.pool m = c₀.pool m :=
      fun hj => h3 fun j hmem => hj j (by simp [hmem])
    refine Or.inl ⟨by simp [h1, hm], ?_, hj⟩
    rcases hrest with h4 | h4 | ⟨r, h4⟩
    · exact absurd h4 h1
    · rw [h3 h4]; exact hspec _
    · exact once_of_ended h2 h4
  · exact Or.inr ⟨by simp [h1], h2⟩

/-- The session that steps before its own change: it keeps `π`, or it makes the
step of `E` and is past it. -/
lemma Stage.advance {c₀ c : Cfg κ σ ι ε α} {sched : List (κ × ι)} {l : List κ}
    {k : κ} {i : ι} (h : Stage J π E N C c₀ c sched l k) (hJ : J c.state i) :
    (π (c.step k i).state = π c.state
        ∧ Stage J π E N C c₀ (c.step k i) (sched ++ [(k, i)]) l k)
      ∨ (k ∉ l ∧ E k c.state (c.step k i).state
        ∧ Stage J π E N C c₀ (c.step k i) (sched ++ [(k, i)]) (l ++ [k]) k) := by
  have hbegun : ¬ ∀ j, (k, j) ∉ sched ++ [(k, i)] := fun hj => hj i (by simp)
  cases hp : c.pool k with
  | ret a =>
      have hstep : c.step k i = c := by rw [Cfg.step, hp]
      rw [hstep]
      refine Or.inl ⟨rfl, ?_⟩
      rcases h with ⟨h1, h2, -⟩ | h
      · exact Or.inl ⟨h1, h2, fun hj => absurd hj hbegun⟩
      · exact Or.inr h
  | raise e =>
      have hstep : c.step k i = c := by rw [Cfg.step, hp]
      rw [hstep]
      refine Or.inl ⟨rfl, ?_⟩
      rcases h with ⟨h1, h2, -⟩ | h
      · exact Or.inl ⟨h1, h2, fun hj => absurd hj hbegun⟩
      · exact Or.inr h
  | step act next =>
      rw [Cfg.step_of_step hp]
      rcases h with ⟨h1, h2, -⟩ | ⟨h1, h2⟩
      · rw [hp] at h2
        rcases h2 c.state i hJ rfl with ⟨h4, h5⟩ | ⟨h4, h5⟩
        · refine Or.inl ⟨h4, Or.inl ⟨h1, ?_, fun hj => absurd hj hbegun⟩⟩
          simp only [Function.update_self, h4]
          exact h5
        · refine Or.inr ⟨h1, h4, Or.inr ⟨by simp, ?_⟩⟩
          simp only [Function.update_self]
          exact h5
      · rw [hp] at h2
        obtain ⟨h4, h5⟩ := h2 c.state i hJ
        refine Or.inl ⟨h4, Or.inr ⟨h1, ?_⟩⟩
        simp only [Function.update_self]
        exact h5

/-- **Exclusive runs are serial.** When every program of the pool makes its
change of `π` in a single step, a run in which these steps exclude each other
has changed `π` along a serial chain; a session that has ended did so with a
result of `C` if it is in the chain and with one of `N` if it is not. -/
theorem serial_of_exclusive {c₀ : Cfg κ σ ι ε α}
    (hspec : ∀ k d, (c₀.pool k).Once J π d (E k) (fun s t => π t = π s) (N k) (C k))
    {sched : List (κ × ι)} {W : Set κ} (h : Exclusive J π c₀ sched W) :
    ∃ l : List κ, l.Nodup ∧ (∀ k ∈ W, k ∈ l)
      ∧ Serial π E l (π c₀.state) (π (c₀.run sched).state)
      ∧ ∀ k, Stage J π E N C c₀ (c₀.run sched) sched l k := by
  induction h with
  | nil =>
      refine ⟨[], List.nodup_nil, by simp, Serial.nil _, fun k => Or.inl ?_⟩
      exact ⟨by simp, hspec k _, fun _ => rfl⟩
  | @keep sched W k i _ hJ hπ ih =>
      obtain ⟨l, hnd, hW, hser, hst⟩ := ih
      rw [Cfg.run_snoc]
      rcases (hst k).advance hJ with ⟨-, hk⟩ | ⟨hkl, hE, hk⟩
      · refine ⟨l, hnd, hW, by rw [hπ]; exact hser, fun m => ?_⟩
        by_cases hm : m = k
        · rw [hm]; exact hk
        · exact (hst m).keep_other hm hπ
      · refine ⟨l ++ [k], ?_, fun m hm => by simp [hW m hm], hser.snoc hE, fun m => ?_⟩
        · simpa using hnd.concat hkl
        by_cases hm : m = k
        · rw [hm]; exact hk
        · -- `π` did not move, so the sessions under way still agree with it
          rcases (hst m).keep_other (i := i) hm hπ with ⟨h1, h2⟩ | ⟨h1, h2⟩
          · exact Or.inl ⟨by simp [h1, hm], h2⟩
          · exact Or.inr ⟨by simp [h1], h2⟩
  | @write sched W k i _ hJ hπ hexcl ih =>
      obtain ⟨l, hnd, hW, hser, hst⟩ := ih
      rw [Cfg.run_snoc]
      rcases (hst k).advance hJ with ⟨h1, -⟩ | ⟨hkl, hE, hk⟩
      · exact absurd h1 hπ
      refine ⟨l ++ [k], ?_, ?_, hser.snoc hE, fun m => ?_⟩
      · simpa using hnd.concat hkl
      · intro m hm
        rcases hm with rfl | hm
        · simp
        · simp [hW m hm]
      by_cases hm : m = k
      · rw [hm]; exact hk
      · refine (hst m).write_other hm ?_ (hspec m)
        rcases hexcl m hm with h1 | h1 | h1
        · exact Or.inl (hW m h1)
        · exact Or.inr (Or.inl h1)
        · exact Or.inr (Or.inr h1)

/-- One session goes on alone while the others are idle. -/
lemma Exclusive.alone {c₀ : Cfg κ σ ι ε α} {sched : List (κ × ι)} {W : Set κ} {k : κ} {i : ι}
    (h : Exclusive J π c₀ sched W) (hidle : ∀ l, l ≠ k → Idle c₀ sched l) (n : ℕ)
    (hJ : ∀ m < n, J (c₀.run (sched ++ List.replicate m (k, i))).state i) :
    ∃ W', Exclusive J π c₀ (sched ++ List.replicate n (k, i)) W' := by
  induction n with
  | zero =>
      rw [List.replicate_zero, List.append_nil]
      exact ⟨W, h⟩
  | succ n ih =>
      obtain ⟨W', hW'⟩ := ih fun m hm => hJ m (Nat.lt_succ_of_lt hm)
      have hn := hJ n (Nat.lt_succ_self n)
      rw [List.replicate_succ', ← List.append_assoc]
      by_cases hπ : π ((c₀.run (sched ++ List.replicate n (k, i))).step k i).state
          = π (c₀.run (sched ++ List.replicate n (k, i))).state
      · exact ⟨W', hW'.keep hn hπ⟩
      · exact ⟨insert k W', hW'.write hn hπ fun l hl => Or.inr ((hidle l hl).others hl i n)⟩

end Exclusive

end Sessions
