/-
Sessions that keep to a protocol.

Every session has a private value besides its program, its account of what it
has done and not yet settled. `Follows` says that each step of a program, in
whatever state it is taken, is a transition `T` between such values and states.
An invariant of the state and of the values of all sessions that every
transition of one session keeps then holds along every interleaving
(`exists_accounts`).

* `Proc.Follows` and its rules, `Proc.Within.follows`;
* `Admitted`: schedules whose inputs are possible, and `scheduleBy`, one of them;
* `exists_accounts`: the invariant along a run; `Visits`: the states it comes
  through;
* `Marks`, `steps_of_unmarked`: a session whose end shows that it never left a
  relation.
-/
import VpnPortal.Sessions.Pool

namespace Sessions

variable {κ σ ι ε α β G : Type}

namespace Proc

section Follows

variable (J : σ → ι → Prop) (T : G → σ → G → σ → Prop)

/-- Every step of the program is a transition from the value `g` on, and the
value and the result at the end lie in `C`. -/
def Follows (C : G → Except ε α → Prop) : Proc σ ι ε α → G → Prop
  | ret a, g => C g (.ok a)
  | raise e, g => C g (.error e)
  | step act next, g => ∀ s i, J s i → ∃ g', T g s g' (act s i) ∧ Follows C (next s i) g'

variable {J T}

lemma Follows.bind {C : G → Except ε α → Prop} {C' : G → Except ε β → Prop} {p : Proc σ ι ε α}
    {f : α → Proc σ ι ε β} {g : G} (hp : Follows J T C p g)
    (hf : ∀ g a, C g (.ok a) → Follows J T C' (f a) g)
    (he : ∀ g e, C g (.error e) → C' g (.error e)) : Follows J T C' (p >>= f) g := by
  induction p generalizing g with
  | ret a => exact hf g a hp
  | raise e => exact he g e hp
  | step act next ih =>
      intro s i hi
      obtain ⟨g', hT, hnext⟩ := hp s i hi
      exact ⟨g', hT, ih s i hnext⟩

lemma Follows.mono {C C' : G → Except ε α → Prop} {p : Proc σ ι ε α} {g : G}
    (hp : Follows J T C p g) (hC : ∀ g r, C g r → C' g r) : Follows J T C' p g := by
  induction p generalizing g with
  | ret a => exact hC g _ hp
  | raise e => exact hC g _ hp
  | step act next ih =>
      intro s i hi
      obtain ⟨g', hT, hnext⟩ := hp s i hi
      exact ⟨g', hT, ih s i hnext⟩

/-- Fewer inputs are possible. -/
lemma Follows.weaken {J' : σ → ι → Prop} {C : G → Except ε α → Prop} {p : Proc σ ι ε α} {g : G}
    (hp : Follows J T C p g) (hJ : ∀ s i, J' s i → J s i) : Follows J' T C p g := by
  induction p generalizing g with
  | ret a => exact hp
  | raise e => exact hp
  | step act next ih =>
      intro s i hi
      obtain ⟨g', hT, hnext⟩ := hp s i (hJ s i hi)
      exact ⟨g', hT, ih s i hnext⟩

/-- A handler takes over where the program raised. -/
lemma Follows.tryCatch {C C' : G → Except ε α → Prop} {p : Proc σ ι ε α} {h : ε → Proc σ ι ε α}
    {g : G} (hp : Follows J T C p g) (ha : ∀ g a, C g (.ok a) → C' g (.ok a))
    (he : ∀ g e, C g (.error e) → Follows J T C' (h e) g) : Follows J T C' (p.tryCatch h) g := by
  induction p generalizing g with
  | ret a => exact ha g a hp
  | raise e => exact he g e hp
  | step act next ih =>
      intro s i hi
      obtain ⟨g', hT, hnext⟩ := hp s i hi
      exact ⟨g', hT, ih s i hnext⟩

/-- The same steps under a coarser account. -/
lemma Follows.map {H : Type} {T' : H → σ → H → σ → Prop} {C : G → Except ε α → Prop}
    {C' : H → Except ε α → Prop} (f : G → H) {p : Proc σ ι ε α} {g : G} (hp : Follows J T C p g)
    (hT : ∀ g s g' t, T g s g' t → T' (f g) s (f g') t) (hC : ∀ g r, C g r → C' (f g) r) :
    Follows J T' C' p (f g) := by
  induction p generalizing g with
  | ret a => exact hC g _ hp
  | raise e => exact hC g _ hp
  | step act next ih =>
      intro s i hi
      obtain ⟨g', hstep, hnext⟩ := hp s i hi
      exact ⟨f g', hT _ _ _ _ hstep, ih s i hnext⟩

lemma Follows.look {C : G → Except ε β → Prop} {q : σ → α} {f : α → Proc σ ι ε β} {g : G}
    (h : ∀ s, ∃ g', T g s g' s ∧ Follows J T C (f (q s)) g') :
    Follows J T C (Proc.look q >>= f) g :=
  fun s _ _ => h s

lemma Follows.ask {C : G → Except ε β → Prop} {q : ι → α} {f : α → Proc σ ι ε β} {g : G}
    (hT : ∀ s, T g s g s) (h : ∀ s i, J s i → Follows J T C (f (q i)) g) :
    Follows J T C (Proc.ask q >>= f) g :=
  fun s i hi => ⟨g, hT s, h s i hi⟩

lemma Follows.exchange {C : G → Except ε β → Prop} {q : σ → ι → α × σ} {f : α → Proc σ ι ε β}
    {g : G} (h : ∀ s i, J s i → ∃ g', T g s g' (q s i).2 ∧ Follows J T C (f (q s i).1) g') :
    Follows J T C (Proc.exchange q >>= f) g :=
  fun s i hi => h s i hi

lemma Follows.change {C : G → Except ε β → Prop} {q : σ → σ} {f : Unit → Proc σ ι ε β} {g : G}
    (h : ∀ s, ∃ g', T g s g' (q s) ∧ Follows J T C (f ()) g') :
    Follows J T C (Proc.change q >>= f) g :=
  fun s _ _ => h s

/-- A program whose steps are transitions that keep the value. -/
lemma Within.follows {R : σ → σ → Prop} {C : Except ε α → Prop} {p : Proc σ ι ε α}
    (hp : Within J R C p) {g : G} (hT : ∀ s t, R s t → T g s g t) :
    Follows J T (fun g' r => g' = g ∧ C r) p g := by
  induction p with
  | ret a => exact ⟨rfl, hp⟩
  | raise e => exact ⟨rfl, hp⟩
  | step act next ih => exact fun s i hi => ⟨g, hT _ _ (hp s i hi).1, ih s i (hp s i hi).2⟩

/-- The end of a program that has ended. -/
lemma Follows.result {C : G → Except ε α → Prop} {p : Proc σ ι ε α} {g : G} {r : Except ε α}
    (hp : Follows J T C p g) (hr : p.result? = some r) : C g r := by
  cases p with
  | ret a => obtain rfl := Option.some.inj hr; exact hp
  | raise e => obtain rfl := Option.some.inj hr; exact hp
  | step act next => cases hr

end Follows

end Proc

section Runs

variable [DecidableEq κ]

/-- A schedule every input of which is possible for its session when it is
received. -/
inductive Admitted (J : κ → σ → ι → Prop) (c₀ : Cfg κ σ ι ε α) : List (κ × ι) → Prop where
  | nil : Admitted J c₀ []
  | snoc {sched : List (κ × ι)} {k : κ} {i : ι} :
      Admitted J c₀ sched → J k (c₀.run sched).state i → Admitted J c₀ (sched ++ [(k, i)])

/-- Where every input is possible, so is every schedule. -/
lemma Admitted.of_forall {J : κ → σ → ι → Prop} (hJ : ∀ k s i, J k s i) (c₀ : Cfg κ σ ι ε α)
    (sched : List (κ × ι)) : Admitted J c₀ sched := by
  induction sched using List.reverseRecOn with
  | nil => exact .nil
  | append_singleton sched ki ih => exact ih.snoc (hJ _ _ _)

variable {J : κ → σ → ι → Prop} {T : κ → G → σ → G → σ → Prop}
variable {C : κ → G → Except ε α → Prop} {Inv : σ → (κ → G) → Prop}

/-- **The invariant along a run.** Every session still follows the protocol from
its present value, and one that has not begun has the value it began with. -/
theorem exists_accounts {c₀ : Cfg κ σ ι ε α} {γ₀ : κ → G} (h₀ : Inv c₀.state γ₀)
    (hpool : ∀ k, Proc.Follows (J k) (T k) (C k) (c₀.pool k) (γ₀ k))
    (hstep : ∀ s γ k g' s', Inv s γ → T k (γ k) s g' s' → Inv s' (Function.update γ k g'))
    {sched : List (κ × ι)} (h : Admitted J c₀ sched) :
    ∃ γ, Inv (c₀.run sched).state γ
      ∧ ∀ k, Proc.Follows (J k) (T k) (C k) ((c₀.run sched).pool k) (γ k)
        ∧ ((∀ i, (k, i) ∉ sched) → γ k = γ₀ k) := by
  induction h with
  | nil => exact ⟨γ₀, h₀, fun k => ⟨hpool k, fun _ => rfl⟩⟩
  | @snoc sched k i _ hJ ih =>
      obtain ⟨γ, hinv, hγ⟩ := ih
      rw [Cfg.run_snoc]
      have hbegun : ∀ l, (∀ j, (l, j) ∉ sched ++ [(k, i)]) → l ≠ k ∧ ∀ j, (l, j) ∉ sched := by
        intro l hl
        refine ⟨?_, fun j hj => hl j (by simp [hj])⟩
        rintro rfl
        exact hl i (by simp)
      cases hp : (c₀.run sched).pool k with
      | ret a =>
          have hsame : (c₀.run sched).step k i = c₀.run sched := by rw [Cfg.step, hp]
          rw [hsame]
          exact ⟨γ, hinv, fun l => ⟨(hγ l).1, fun hl => (hγ l).2 (hbegun l hl).2⟩⟩
      | raise e =>
          have hsame : (c₀.run sched).step k i = c₀.run sched := by rw [Cfg.step, hp]
          rw [hsame]
          exact ⟨γ, hinv, fun l => ⟨(hγ l).1, fun hl => (hγ l).2 (hbegun l hl).2⟩⟩
      | step act next =>
          have hk := (hγ k).1
          rw [hp] at hk
          obtain ⟨g', hT, hnext⟩ := hk _ i hJ
          rw [Cfg.step_of_step hp]
          refine ⟨Function.update γ k g', hstep _ _ _ _ _ hinv hT, fun l => ?_⟩
          by_cases hl : l = k
          · subst hl
            simp only [Function.update_self]
            exact ⟨hnext, fun hj => absurd rfl (hbegun l hj).1⟩
          · simp only [Function.update_of_ne hl]
            exact ⟨(hγ l).1, fun hj => (hγ l).2 (hbegun l hj).2⟩

section Invariant

variable {I : σ → Prop} {R : σ → σ → Prop} {D : κ → Except ε α → Prop}
variable {c₀ : Cfg κ σ ι ε α} {sched : List (κ × ι)}

/-- What every step of every session keeps. -/
lemma Admitted.invariant (h : Admitted J c₀ sched) (h₀ : I c₀.state)
    (hpool : ∀ k, Proc.Within (J k) R (D k) (c₀.pool k)) (hstep : ∀ s t, I s → R s t → I t) :
    I (c₀.run sched).state := by
  -- sessions with nothing on their account
  have hfollows : ∀ k, Proc.Follows (J k) (fun _ s _ t => R s t) (fun g r => g = () ∧ D k r)
      (c₀.pool k) () := fun k => (hpool k).follows fun _ _ hR => hR
  have hstart : (fun s (_ : κ → Unit) => I s) c₀.state fun _ => () := h₀
  obtain ⟨-, hI, -⟩ := exists_accounts (T := fun _ _ s _ t => R s t) hstart hfollows
    (fun s _ _ _ t hs hR => hstep s t hs hR) h
  exact hI

/-- The invariant is there whenever an input comes in. -/
lemma Admitted.and_invariant (h : Admitted J c₀ sched) (h₀ : I c₀.state)
    (hpool : ∀ k, Proc.Within (J k) R (D k) (c₀.pool k)) (hstep : ∀ s t, I s → R s t → I t) :
    Admitted (fun k s i => J k s i ∧ I s) c₀ sched := by
  induction h with
  | nil => exact .nil
  | snoc h hJ ih => exact ih.snoc ⟨hJ, h.invariant h₀ hpool hstep⟩

end Invariant

lemma Admitted.mono {J' : κ → σ → ι → Prop} {c₀ : Cfg κ σ ι ε α} {sched : List (κ × ι)}
    (h : Admitted J c₀ sched) (hJ : ∀ k s i, J k s i → J' k s i) : Admitted J' c₀ sched := by
  induction h with
  | nil => exact .nil
  | snoc _ hi ih => exact ih.snoc (hJ _ _ _ hi)

/-- A schedule in two parts. -/
lemma Admitted.of_append {c₀ : Cfg κ σ ι ε α} {before during : List (κ × ι)}
    (h : Admitted J c₀ (before ++ during)) :
    Admitted J c₀ before ∧ Admitted J (c₀.run before) during := by
  induction during using List.reverseRecOn with
  | nil => exact ⟨by rwa [List.append_nil] at h, .nil⟩
  | append_singleton during ki ih =>
      rw [← List.append_assoc] at h
      generalize hsched : (before ++ during) ++ [ki] = sched at h
      cases h with
      | nil => exact absurd hsched (by simp)
      | snoc h hi =>
          obtain ⟨rfl, hlast⟩ := List.append_inj' hsched rfl
          obtain rfl := List.singleton_inj.mp hlast
          obtain ⟨hbefore, hduring⟩ := ih h
          rw [Cfg.run_append] at hi
          exact ⟨hbefore, hduring.snoc hi⟩

/-- Every input is one of the schedule. -/
lemma Admitted.and_mem {c₀ : Cfg κ σ ι ε α} {sched : List (κ × ι)} (h : Admitted J c₀ sched) :
    Admitted (fun k s i => J k s i ∧ (k, i) ∈ sched) c₀ sched := by
  induction h with
  | nil => exact .nil
  | snoc h hi ih =>
      exact (ih.mono fun _ _ _ hj => ⟨hj.1, List.mem_append_left _ hj.2⟩).snoc ⟨hi, by simp⟩

/-- The state is one that the run along the schedule comes through. -/
def Visits (c₀ : Cfg κ σ ι ε α) (sched : List (κ × ι)) (s : σ) : Prop :=
  ∃ pre, pre <+: sched ∧ (c₀.run pre).state = s

lemma admitted_visits (c₀ : Cfg κ σ ι ε α) (sched : List (κ × ι)) :
    Admitted (fun k s i => Visits c₀ sched s ∧ (k, i) ∈ sched) c₀ sched := by
  suffices h : ∀ pre, pre <+: sched →
      Admitted (fun k s i => Visits c₀ sched s ∧ (k, i) ∈ sched) c₀ pre from h sched List.prefix_rfl
  intro pre
  induction pre using List.reverseRecOn with
  | nil => exact fun _ => .nil
  | append_singleton pre ki ih =>
      intro hpre
      have hpre' : pre <+: sched := (List.prefix_append pre [ki]).trans hpre
      exact (ih hpre').snoc ⟨⟨pre, hpre', rfl⟩, hpre.subset (by simp)⟩

/-! ### Sessions that touch nothing -/

/-- A step marks the session or lies in `R`; a mark stays. -/
def Marks (R : σ → σ → Prop) (b : Bool) (s : σ) (b' : Bool) (t : σ) : Prop :=
  b' = true ∨ (b' = b ∧ R s t)

/-- All steps of session `k` along the schedule lie in `R`. -/
def StepsWithin (R : σ → σ → Prop) (c₀ : Cfg κ σ ι ε α) (sched : List (κ × ι)) (k : κ) : Prop :=
  ∀ pre i post, sched = pre ++ (k, i) :: post →
    R (c₀.run pre).state ((c₀.run pre).step k i).state

lemma StepsWithin.snoc {R : σ → σ → Prop} {c₀ : Cfg κ σ ι ε α} {sched : List (κ × ι)} {k l : κ}
    {i : ι} (h : StepsWithin R c₀ sched k)
    (hlast : l = k → R (c₀.run sched).state ((c₀.run sched).step k i).state) :
    StepsWithin R c₀ (sched ++ [(l, i)]) k := by
  intro pre j post heq
  rcases List.eq_nil_or_concat post with rfl | ⟨post, last, rfl⟩
  · obtain ⟨rfl, hlast'⟩ := List.append_inj' heq rfl
    obtain ⟨rfl, rfl⟩ := Prod.mk.inj (List.singleton_inj.mp hlast')
    exact hlast rfl
  · rw [List.concat_eq_append, ← List.cons_append, ← List.append_assoc] at heq
    exact h pre j post (List.append_inj' heq rfl).1

/-- **A session that ends unmarked** has made steps of `R` only, whatever the
others do. -/
theorem steps_of_unmarked {R : σ → σ → Prop} (hrefl : ∀ s, R s s) {J : σ → ι → Prop}
    {c₀ : Cfg κ σ ι ε α} {k : κ} {r : Except ε α}
    (hp : Proc.Follows J (Marks R) (fun b r' => r' = r → b = false) (c₀.pool k) false)
    {sched : List (κ × ι)} (h : Admitted (fun l s i => l = k → J s i) c₀ sched)
    (hr : (c₀.run sched).Ended k r) : StepsWithin R c₀ sched k := by
  suffices hmark : ∃ b, Proc.Follows J (Marks R) (fun b r' => r' = r → b = false)
      ((c₀.run sched).pool k) b ∧ (b = false → StepsWithin R c₀ sched k) by
    obtain ⟨b, hb, hsteps⟩ := hmark
    exact hsteps (hb.result hr rfl)
  clear hr
  induction h with
  | nil => exact ⟨false, hp, fun _ pre i post heq => by simp at heq⟩
  | @snoc sched l i _ hJ ih =>
      obtain ⟨b, hb, hsteps⟩ := ih
      rw [Cfg.run_snoc]
      by_cases hl : l = k
      · subst hl
        have hended : (c₀.run sched).step l i = c₀.run sched → ∃ b,
            Proc.Follows J (Marks R) (fun b r' => r' = r → b = false)
              (((c₀.run sched).step l i).pool l) b
            ∧ (b = false → StepsWithin R c₀ (sched ++ [(l, i)]) l) := by
          intro hsame
          rw [hsame]
          refine ⟨b, hb, fun hfalse => (hsteps hfalse).snoc fun _ => ?_⟩
          rw [hsame]
          exact hrefl _
        cases hpool : (c₀.run sched).pool l with
        | ret a => exact hended (by rw [Cfg.step, hpool])
        | raise e => exact hended (by rw [Cfg.step, hpool])
        | step act next =>
            rw [hpool] at hb
            obtain ⟨b', hmark, hnext⟩ := hb _ i (hJ rfl)
            refine ⟨b', ?_, fun hfalse => ?_⟩
            · rw [Cfg.step_of_step hpool]
              simpa using hnext
            · rcases hmark with htrue | ⟨hsame, hR⟩
              · rw [htrue] at hfalse
                cases hfalse
              · refine (hsteps (hsame ▸ hfalse)).snoc fun _ => ?_
                rw [Cfg.step_of_step hpool]
                exact hR
      · rw [Cfg.step_pool_of_ne _ (Ne.symm hl)]
        exact ⟨b, hb, fun hfalse => (hsteps hfalse).snoc fun h => absurd h hl⟩

/-! ### A schedule for an order of sessions -/

/-- The sessions take their steps in this order, each with the input `π` gives
it. -/
def scheduleBy (π : κ → σ → ι) (c : Cfg κ σ ι ε α) : List κ → List (κ × ι)
  | [] => []
  | k :: ks => (k, π k c.state) :: scheduleBy π (c.step k (π k c.state)) ks

@[simp] lemma map_fst_scheduleBy (π : κ → σ → ι) (c : Cfg κ σ ι ε α) (ks : List κ) :
    (scheduleBy π c ks).map Prod.fst = ks := by
  induction ks generalizing c with
  | nil => rfl
  | cons k ks ih => rw [scheduleBy, List.map_cons, ih]

/-- Every input is the one `π` gives in some state. -/
lemma exists_of_mem_scheduleBy {π : κ → σ → ι} {c : Cfg κ σ ι ε α} {ks : List κ} {k : κ} {i : ι}
    (h : (k, i) ∈ scheduleBy π c ks) : ∃ s, i = π k s := by
  induction ks generalizing c with
  | nil => cases h
  | cons l ks ih =>
      rcases List.mem_cons.mp h with heq | h
      · obtain ⟨rfl, rfl⟩ := Prod.mk.inj heq
        exact ⟨c.state, rfl⟩
      · exact ih h

lemma scheduleBy_concat (π : κ → σ → ι) (c : Cfg κ σ ι ε α) (ks : List κ) (k : κ) :
    scheduleBy π c (ks ++ [k])
      = scheduleBy π c ks ++ [(k, π k (c.run (scheduleBy π c ks)).state)] := by
  induction ks generalizing c with
  | nil => rfl
  | cons l ks ih =>
      rw [List.cons_append, scheduleBy, ih]
      rfl

/-- The inputs need to be possible only in the states the run comes through. -/
lemma admitted_scheduleBy_of {J : κ → σ → ι → Prop} {π : κ → σ → ι} {I : σ → Prop}
    (hπ : ∀ k s, I s → J k s (π k s)) {c₀ : Cfg κ σ ι ε α} {ks : List κ}
    (hI : ∀ m < ks.length, I (c₀.run (scheduleBy π c₀ (ks.take m))).state) :
    Admitted J c₀ (scheduleBy π c₀ ks) := by
  induction ks using List.reverseRecOn with
  | nil => exact .nil
  | append_singleton ks k ih =>
      rw [scheduleBy_concat]
      refine (ih fun m hm => ?_).snoc (hπ _ _ ?_)
      · have hlt : m < (ks ++ [k]).length := by
          rw [List.length_append]
          exact Nat.lt_succ_of_lt hm
        have hm' := hI m hlt
        rwa [List.take_append_of_le_length hm.le] at hm'
      · have hlast := hI ks.length (by simp)
        rwa [List.take_left] at hlast

lemma admitted_scheduleBy {J : κ → σ → ι → Prop} {π : κ → σ → ι} (hπ : ∀ k s, J k s (π k s))
    (c₀ : Cfg κ σ ι ε α) (ks : List κ) : Admitted J c₀ (scheduleBy π c₀ ks) :=
  admitted_scheduleBy_of (I := fun _ => True) (fun k s _ => hπ k s) fun _ _ => trivial

end Runs

end Sessions
