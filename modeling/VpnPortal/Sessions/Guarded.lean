/-
Sessions whose writes do not overlap.

A schedule is guarded when a session changes the state only while every other
session has not begun or has ended. Along such a schedule the state is that of
whole sessions run one after another, followed by the part of at most one
session that is still under way, and the sessions that have only read so far
have read the present state.

* `Proc.Reaches`: a session alone, part of the way;
* `SerialRuns`: whole sessions one after another;
* `Guarded`, `serial_of_guarded`: **a guarded schedule is such a run**, followed by the part
  of at most one session.
-/
import VpnPortal.Sessions.Pool

namespace Sessions

variable {κ σ ι ε α : Type}

namespace Proc

/-- Alone from `s`, the program can come to `q` in the state `t`. -/
inductive Reaches (p : Proc σ ι ε α) (s : σ) : Proc σ ι ε α → σ → Prop where
  | refl : Reaches p s p s
  | step {act : σ → ι → σ} {next : σ → ι → Proc σ ι ε α} {t : σ} (i : ι) :
      Reaches p s (.step act next) t → Reaches p s (next t i) (act t i)

/-- What is left can be run to the end. -/
lemma Reaches.runs {p q : Proc σ ι ε α} {s t u : σ} {r : Except ε α} (h : Reaches p s q t)
    (hq : Runs (fun _ _ => True) q t r u) : Runs (fun _ _ => True) p s r u := by
  induction h with
  | refl => exact hq
  | step i _ ih => exact ih ⟨i, trivial, hq⟩

/-- Where the program is after it has been fed with the inputs. -/
def after : List ι → Proc σ ι ε α → σ → Proc σ ι ε α × σ
  | i :: is, step act next, s => after is (next s i) (act s i)
  | _, p, s => (p, s)

lemma Reaches.after {p q : Proc σ ι ε α} {s t : σ} (is : List ι) (h : Reaches p s q t) :
    Reaches p s (after is q t).1 (after is q t).2 := by
  induction is generalizing q t with
  | nil => exact h
  | cons i is ih =>
      cases q with
      | ret a => exact h
      | raise e => exact h
      | step act next => exact ih (h.step i)

lemma reaches_after (is : List ι) (p : Proc σ ι ε α) (s : σ) :
    Reaches p s (after is p s).1 (after is p s).2 :=
  Reaches.refl.after is

lemma runs_of_result {q : Proc σ ι ε α} {r : Except ε α} (h : q.result? = some r) (t : σ) :
    Runs (fun _ _ => True) q t r t := by
  cases q with
  | ret a => obtain rfl := Option.some.inj h; exact ⟨rfl, rfl⟩
  | raise e => obtain rfl := Option.some.inj h; exact ⟨rfl, rfl⟩
  | step act next => cases h

end Proc

open Proc

/-- The sessions of the list, each run alone from start to end with that result,
lead from one state to the other. -/
inductive SerialRuns (p : κ → Proc σ ι ε α) (s : σ) : List (κ × Except ε α) → σ → Prop where
  | nil : SerialRuns p s [] s
  | snoc {l : List (κ × Except ε α)} {t u : σ} {k : κ} {r : Except ε α} :
      SerialRuns p s l t → Runs (fun _ _ => True) (p k) t r u → SerialRuns p s (l ++ [(k, r)]) u

variable [DecidableEq κ]

/-- The state is changed only while every other session is idle. -/
inductive Guarded (c₀ : Cfg κ σ ι ε α) : List (κ × ι) → Prop where
  | nil : Guarded c₀ []
  | snoc {sched : List (κ × ι)} {k : κ} {i : ι} : Guarded c₀ sched →
      (((c₀.run sched).step k i).state = (c₀.run sched).state ∨ ∀ l, l ≠ k → Idle c₀ sched l) →
      Guarded c₀ (sched ++ [(k, i)])

/-- One session goes on alone. -/
lemma Guarded.alone {c₀ : Cfg κ σ ι ε α} {k : κ} {i : ι} (n : ℕ) :
    ∀ {sched : List (κ × ι)}, Guarded c₀ sched → (∀ m, m ≠ k → Idle c₀ sched m) →
      Guarded c₀ (sched ++ List.replicate n (k, i)) := by
  induction n with
  | zero =>
      intro sched h _
      rw [List.replicate_zero, List.append_nil]
      exact h
  | succ n ih =>
      intro sched h hidle
      rw [List.replicate_succ, List.append_cons]
      exact ih (h.snoc (Or.inr hidle)) fun m hm => (hidle m hm).other hm i

/-- A session that has changed nothing: it has read the present state, or has
ended. -/
def Reading (c₀ c : Cfg κ σ ι ε α) (k : κ) : Prop :=
  ∃ u, Reaches (c₀.pool k) u (c.pool k) u ∧ (u = c.state ∨ ∃ r, c.Ended k r)

/-- The invariant: `l` has been run in series and led to `b`, and the sessions
outside it read, except for `w` if one is writing. -/
structure Progress (c₀ c : Cfg κ σ ι ε α) (sched : List (κ × ι)) (l : List (κ × Except ε α)) (b : σ)
    (w : Option κ) : Prop where
  serial : SerialRuns c₀.pool c₀.state l b
  nodup : (l.map Prod.fst).Nodup
  ended : ∀ k r, (k, r) ∈ l → c.Ended k r
  fresh : ∀ k, (∀ i, (k, i) ∉ sched) → c.pool k = c₀.pool k ∧ ∀ r, (k, r) ∉ l
  reading : ∀ k, w ≠ some k → (∀ r, (k, r) ∉ l) → Reading c₀ c k
  calm : w = none → c.state = b
  writing : ∀ k, w = some k → Reaches (c₀.pool k) b (c.pool k) c.state ∧ (∀ r, ¬ c.Ended k r)
    ∧ (∀ r, (k, r) ∉ l) ∧ ∃ i, (k, i) ∈ sched

section Step

variable {c₀ c : Cfg κ σ ι ε α} {sched : List (κ × ι)} {l : List (κ × Except ε α)} {b : σ}
variable {w : Option κ} {k : κ} {i : ι}

lemma ended_step_of_ne {m : κ} (hm : m ≠ k) {r : Except ε α} :
    (c.step k i).Ended m r ↔ c.Ended m r := by
  unfold Cfg.Ended
  rw [c.step_pool_of_ne hm i]

/-- A step of an ended session. -/
lemma Progress.stay (h : Progress c₀ c sched l b w) (hstay : c.step k i = c) :
    Progress c₀ (c.step k i) (sched ++ [(k, i)]) l b w := by
  rw [hstay]
  refine ⟨h.serial, h.nodup, h.ended, fun m hm => h.fresh m fun j hj => hm j (by simp [hj]),
    h.reading, h.calm, fun m hm => ?_⟩
  obtain ⟨hreach, hrun, hnot, j, hj⟩ := h.writing m hm
  exact ⟨hreach, hrun, hnot, j, by simp [hj]⟩

/-- A session that did not step still reads, unless the state moved under it. -/
lemma Reading.of_other {m : κ} (h : Reading c₀ c m) (hm : m ≠ k)
    (hstate : (c.step k i).state = c.state ∨ (c.pool m = c₀.pool m ∨ ∃ r, c.Ended m r)) :
    Reading c₀ (c.step k i) m := by
  obtain ⟨u, hreach, hu⟩ := h
  unfold Reading
  simp only [c.step_pool_of_ne hm i, ended_step_of_ne hm]
  rcases hu with rfl | hended
  · rcases hstate with hsame | hfresh | hended
    · exact ⟨c.state, hreach, Or.inl hsame.symm⟩
    · exact ⟨(c.step k i).state, by rw [hfresh]; exact .refl, Or.inl rfl⟩
    · exact ⟨c.state, hreach, Or.inr hended⟩
  · exact ⟨u, hreach, Or.inr hended⟩

/-- The session that writes goes on, or ends and joins the series. -/
lemma Progress.advance (h : Progress c₀ c sched l b w) (hw : ∀ m, w = some m → m = k)
    (hk : ∀ r, (k, r) ∉ l)
    (hreach : Reaches (c₀.pool k) b ((c.step k i).pool k) (c.step k i).state)
    (hothers : ∀ m, m ≠ k → (∀ r, (m, r) ∉ l) → Reading c₀ (c.step k i) m) :
    ∃ l' b' w', Progress c₀ (c.step k i) (sched ++ [(k, i)]) l' b' w' := by
  have hended : ∀ m r, (m, r) ∈ l → (c.step k i).Ended m r := by
    intro m r hm
    have hne : m ≠ k := by
      rintro rfl
      exact hk r hm
    exact (ended_step_of_ne hne).mpr (h.ended m r hm)
  have hfresh : ∀ m, (∀ j, (m, j) ∉ sched ++ [(k, i)]) →
      m ≠ k ∧ (c.step k i).pool m = c₀.pool m ∧ ∀ r, (m, r) ∉ l := by
    intro m hm
    have hne : m ≠ k := by
      rintro rfl
      exact hm i (by simp)
    obtain ⟨hpool, hnot⟩ := h.fresh m fun j hj => hm j (by simp [hj])
    exact ⟨hne, by rw [c.step_pool_of_ne hne i]; exact hpool, hnot⟩
  cases hr : ((c.step k i).pool k).result? with
  | none =>
      refine ⟨l, b, some k, h.serial, h.nodup, hended, fun m hm => (hfresh m hm).2, ?_,
        fun hnone => (by cases hnone), ?_⟩
      · intro m hm hnot
        exact hothers m (fun heq => hm (by rw [heq])) hnot
      · rintro m ⟨⟩
        refine ⟨hreach, fun r hend => ?_, hk, i, by simp⟩
        rw [Cfg.Ended, hr] at hend
        cases hend
  | some r =>
      refine ⟨l ++ [(k, r)], (c.step k i).state, none,
        h.serial.snoc (hreach.runs (runs_of_result hr _)), ?_, ?_, ?_, ?_, fun _ => rfl,
        fun m hm => (by cases hm)⟩
      · rw [List.map_append, List.map_singleton]
        refine h.nodup.append (List.nodup_singleton _) ?_
        rw [List.disjoint_singleton]
        intro hmem
        obtain ⟨⟨m, r'⟩, hmem', rfl⟩ := List.mem_map.mp hmem
        exact hk r' hmem'
      · intro m r' hm
        rcases List.mem_append.mp hm with hm | hm
        · exact hended m r' hm
        · obtain ⟨rfl, rfl⟩ := Prod.mk.inj (List.mem_singleton.mp hm)
          exact hr
      · intro m hm
        obtain ⟨hne, hpool, hnot⟩ := hfresh m hm
        refine ⟨hpool, fun r' hmem => ?_⟩
        rcases List.mem_append.mp hmem with hmem | hmem
        · exact hnot r' hmem
        · exact hne (Prod.mk.inj (List.mem_singleton.mp hmem)).1
      · intro m _ hnot
        have hne : m ≠ k := by
          rintro rfl
          exact hnot r (by simp)
        exact hothers m hne fun r' hmem => hnot r' (by simp [hmem])

/-- **One guarded step.** -/
lemma Progress.step (h : Progress c₀ c sched l b w) (hc : c = c₀.run sched)
    (hguard : (c.step k i).state = c.state ∨ ∀ m, m ≠ k → Idle c₀ sched m) :
    ∃ l' b' w', Progress c₀ (c.step k i) (sched ++ [(k, i)]) l' b' w' := by
  cases hp : c.pool k with
  | ret a => exact ⟨l, b, w, h.stay (by rw [Cfg.step, hp])⟩
  | raise e => exact ⟨l, b, w, h.stay (by rw [Cfg.step, hp])⟩
  | step act next =>
      have hrunning : ∀ r, ¬ c.Ended k r := fun r hr => by
        rw [Cfg.Ended, hp] at hr
        cases hr
      have hk : ∀ r, (k, r) ∉ l := fun r hr => hrunning r (h.ended k r hr)
      have hnext : (c.step k i).pool k = next c.state i ∧ (c.step k i).state = act c.state i := by
        rw [Cfg.step_of_step hp]
        exact ⟨by simp, rfl⟩
      have hothers : ∀ m, m ≠ k → w ≠ some m → (∀ r, (m, r) ∉ l) → Reading c₀ (c.step k i) m := by
        intro m hm hwm hnot
        refine (h.reading m hwm hnot).of_other hm ?_
        rcases hguard with hsame | hidle
        · exact Or.inl hsame
        · rcases hidle m hm with hfresh | hended
          · exact Or.inr (Or.inl (h.fresh m hfresh).1)
          · rw [← hc] at hended
            exact Or.inr (Or.inr hended)
      by_cases hwk : w = some k
      · -- the writer itself
        obtain ⟨hreach, -, -, -⟩ := h.writing k hwk
        rw [hp] at hreach
        refine h.advance (fun m hm => Option.some.inj (hm.symm.trans hwk)) hk ?_ fun m hm hnot =>
          hothers m hm (fun hwm => hm (Option.some.inj (hwm.symm.trans hwk))) hnot
        rw [hnext.1, hnext.2]
        exact hreach.step i
      · obtain ⟨u, hreach, hu⟩ := h.reading k hwk hk
        have hus : u = c.state := hu.resolve_right (not_exists.mpr hrunning)
        subst hus
        rw [hp] at hreach
        have hreach' : Reaches (c₀.pool k) c.state ((c.step k i).pool k) (c.step k i).state := by
          rw [hnext.1, hnext.2]
          exact hreach.step i
        rcases hguard with hsame | hidle
        · -- a session that goes on reading
          refine ⟨l, b, w, h.serial, h.nodup, fun m r hm => ?_, fun m hm => ?_, fun m hwm hnot => ?_,
            fun hnone => hsame.trans (h.calm hnone), fun m hwm => ?_⟩
          · have hne : m ≠ k := by
              rintro rfl
              exact hk r hm
            exact (ended_step_of_ne hne).mpr (h.ended m r hm)
          · have hne : m ≠ k := by
              rintro rfl
              exact hm i (by simp)
            rw [c.step_pool_of_ne hne i]
            exact h.fresh m fun j hj => hm j (by simp [hj])
          · by_cases hm : m = k
            · subst hm
              exact ⟨c.state, by rw [hsame] at hreach'; exact hreach', Or.inl hsame.symm⟩
            · exact hothers m hm hwm hnot
          · have hne : m ≠ k := by
              rintro rfl
              exact hwk hwm
            obtain ⟨hreachm, hrun, hnot, j, hj⟩ := h.writing m hwm
            rw [c.step_pool_of_ne hne i, hsame]
            exact ⟨hreachm, fun r hr => hrun r ((ended_step_of_ne hne).mp hr), hnot, j, by simp [hj]⟩
        · -- a session that begins to write: nobody else does
          have hnone : w = none := by
            cases hw : w with
            | none => rfl
            | some m =>
                obtain ⟨-, hrun, -, j, hj⟩ := h.writing m hw
                have hne : m ≠ k := by
                  rintro rfl
                  exact hwk hw
                rcases hidle m hne with hfresh | ⟨r, hr⟩
                · exact absurd hj (hfresh j)
                · rw [← hc] at hr
                  exact absurd hr (hrun r)
          rw [h.calm hnone] at hreach'
          exact h.advance (fun m hm => by rw [hnone] at hm; cases hm) hk hreach' fun m hm hnot =>
            hothers m hm (by rw [hnone]; simp) hnot

end Step

/-- **Guarded runs are serial.** When every session is idle the state is that of
whole sessions run one after another, and the sessions that have ended outside
the series have changed nothing. -/
theorem serial_of_guarded {c₀ : Cfg κ σ ι ε α} {sched : List (κ × ι)} (h : Guarded c₀ sched)
    (hidle : ∀ k, Idle c₀ sched k) :
    ∃ l, SerialRuns c₀.pool c₀.state l (c₀.run sched).state ∧ (l.map Prod.fst).Nodup
      ∧ (∀ k r, (k, r) ∈ l → (c₀.run sched).Ended k r)
      ∧ ∀ k r, (c₀.run sched).Ended k r → (∀ r', (k, r') ∉ l) →
        ∃ u, Runs (fun _ _ => True) (c₀.pool k) u r u := by
  have hprogress : ∃ l b w, Progress c₀ (c₀.run sched) sched l b w := by
    clear hidle
    induction h with
    | nil =>
        refine ⟨[], c₀.state, none, .nil, List.nodup_nil, fun _ _ h => (by cases h),
          fun _ _ => ⟨rfl, fun _ h => (by cases h)⟩, fun k _ _ => ⟨c₀.state, .refl, Or.inl rfl⟩,
          fun _ => rfl, fun _ h => (by cases h)⟩
    | @snoc sched k i _ hguard ih =>
        obtain ⟨l, b, w, hprogress⟩ := ih
        rw [Cfg.run_snoc]
        exact hprogress.step rfl hguard
  obtain ⟨l, b, w, hprogress⟩ := hprogress
  have hnone : w = none := by
    cases hw : w with
    | none => rfl
    | some k =>
        obtain ⟨-, hrun, -, j, hj⟩ := hprogress.writing k hw
        rcases hidle k with hfresh | ⟨r, hr⟩
        · exact absurd hj (hfresh j)
        · exact absurd hr (hrun r)
  refine ⟨l, by rw [hprogress.calm hnone]; exact hprogress.serial, hprogress.nodup,
    hprogress.ended, fun k r hr hnot => ?_⟩
  obtain ⟨u, hreach, -⟩ := hprogress.reading k (by rw [hnone]; simp) hnot
  exact ⟨u, hreach.runs (runs_of_result hr u)⟩

end Sessions
