/-
Session programs: the small language in which a request handler is written once
and then read in two ways, alone from start to end and interleaved with others.

A program is a tree of atomic steps over a shared state `σ`. Each step also
receives an input `ι` from outside (a clock reading, an answer over the
network), and a program may end with a value or with an exception `ε`.

* `Proc`, its monad structure and the atomic actions `look`, `ask`, `change`,
  `exchange`;
* `Runs`: the big-step relation of a program that runs alone, with its
  inversion lemmas (`runs_bind`, `runs_look`, `runs_ask`);
* `Alone`: every step of every run from a given state lies in a relation, and
  its end in a postcondition; one rule for each action;
* `Within`: every step of the program, whatever the others do in between, lies
  in a given relation;
* `Once`: as long as an observation `π` of the state keeps the value `d`, the
  program leaves `π` alone until one step, which lies in `E`, and from then on
  it stays within `R`. `Once.bind` composes such facts along the text of a
  program and `Once.alone` reads them off the runs of the program alone.
-/
import Mathlib.Logic.Relation
import Mathlib.Tactic

namespace Sessions

/-- A session program: a value, an exception, or an atomic step of the shared
state whose continuation depends on what the step saw. -/
inductive Proc (σ ι ε α : Type) where
  | ret (a : α)
  | raise (e : ε)
  | step (act : σ → ι → σ) (next : σ → ι → Proc σ ι ε α)

namespace Proc

variable {σ ι ε α β δ : Type}

/-- Sequencing; an exception skips the continuation. -/
def bind : Proc σ ι ε α → (α → Proc σ ι ε β) → Proc σ ι ε β
  | ret a, f => f a
  | raise e, _ => raise e
  | step act next, f => step act fun s i => bind (next s i) f

/-- `try … except`: the handler takes over where the program raised. -/
def tryCatch : Proc σ ι ε α → (ε → Proc σ ι ε α) → Proc σ ι ε α
  | ret a, _ => ret a
  | raise e, h => h e
  | step act next, h => step act fun s i => tryCatch (next s i) h

instance : Monad (Proc σ ι ε) where
  pure := ret
  bind := bind

/-- One atomic step that reads and writes the state at once. -/
def exchange (f : σ → ι → α × σ) : Proc σ ι ε α :=
  step (fun s i => (f s i).2) fun s i => ret (f s i).1

/-- An atomic read of the shared state. -/
def look (g : σ → α) : Proc σ ι ε α := step (fun s _ => s) fun s _ => ret (g s)

/-- An input taken from outside; the state stays as it is. -/
def ask (g : ι → α) : Proc σ ι ε α := step (fun s _ => s) fun _ i => ret (g i)

/-- An atomic write of the shared state. -/
def change (f : σ → σ) : Proc σ ι ε Unit := step (fun s _ => f s) fun _ _ => ret ()

/-- The program has ended, with this result. -/
def result? : Proc σ ι ε α → Option (Except ε α)
  | ret a => some (.ok a)
  | raise e => some (.error e)
  | step _ _ => none

@[simp] lemma pure_eq (a : α) : (pure a : Proc σ ι ε α) = ret a := rfl

@[simp] lemma ret_bind (a : α) (f : α → Proc σ ι ε β) : (ret a >>= f) = f a := rfl

@[simp] lemma raise_bind (e : ε) (f : α → Proc σ ι ε β) :
    ((raise e : Proc σ ι ε α) >>= f) = raise e := rfl

@[simp] lemma step_bind (act : σ → ι → σ) (next : σ → ι → Proc σ ι ε α)
    (f : α → Proc σ ι ε β) :
    (step act next >>= f) = step act fun s i => next s i >>= f := rfl

/-! ### A program that runs alone -/

section Runs

variable (J : σ → ι → Prop)

/-- `Runs J p s r t`: alone from `s`, fed only with inputs that `J` allows, the
program can end in `t` with the result `r`. -/
def Runs : Proc σ ι ε α → σ → Except ε α → σ → Prop
  | ret a, s, r, t => r = .ok a ∧ t = s
  | raise e, s, r, t => r = .error e ∧ t = s
  | step act next, s, r, t => ∃ i, J s i ∧ Runs (next s i) (act s i) r t

variable {J} {s t : σ} {r : Except ε β}

@[simp] lemma runs_ret {a : α} {r : Except ε α} :
    Runs J (ret a) s r t ↔ r = .ok a ∧ t = s := Iff.rfl

@[simp] lemma runs_raise {e : ε} {r : Except ε α} :
    Runs J (raise e) s r t ↔ r = .error e ∧ t = s := Iff.rfl

/-- A run of a sequence either raises in the first part or splits at a state
between the two. -/
lemma runs_bind {p : Proc σ ι ε α} {f : α → Proc σ ι ε β} :
    Runs J (p >>= f) s r t ↔
      (∃ e, Runs J p s (.error e) t ∧ r = .error e)
        ∨ ∃ a u, Runs J p s (.ok a) u ∧ Runs J (f a) u r t := by
  induction p generalizing s with
  | ret a => simp [runs_ret]
  | raise e => simp [runs_raise, and_comm]
  | step act next ih =>
      simp only [step_bind, Runs, ih]
      constructor
      · rintro ⟨i, hi, ⟨e, h, rfl⟩ | ⟨a, u, h, h'⟩⟩
        · exact Or.inl ⟨e, ⟨i, hi, h⟩, rfl⟩
        · exact Or.inr ⟨a, u, ⟨i, hi, h⟩, h'⟩
      · rintro (⟨e, ⟨i, hi, h⟩, rfl⟩ | ⟨a, u, ⟨i, hi, h⟩, h'⟩)
        · exact ⟨i, hi, Or.inl ⟨e, h, rfl⟩⟩
        · exact ⟨i, hi, Or.inr ⟨a, u, h, h'⟩⟩

lemma runs_look {g : σ → α} {f : α → Proc σ ι ε β} :
    Runs J (look g >>= f) s r t ↔ (∃ i, J s i) ∧ Runs J (f (g s)) s r t := by
  simp [look, Runs]

lemma runs_ask {g : ι → α} {f : α → Proc σ ι ε β} :
    Runs J (ask g >>= f) s r t ↔ ∃ i, J s i ∧ Runs J (f (g i)) s r t := by
  simp [ask, Runs]

/-- A program always ends: as long as some input is allowed in every state,
there is a run. -/
lemma exists_runs (hJ : ∀ s, ∃ i, J s i) (p : Proc σ ι ε α) (s : σ) :
    ∃ r t, Runs J p s r t := by
  induction p generalizing s with
  | ret a => exact ⟨.ok a, s, rfl, rfl⟩
  | raise e => exact ⟨.error e, s, rfl, rfl⟩
  | step act next ih =>
      obtain ⟨i, hi⟩ := hJ s
      obtain ⟨r, t, h⟩ := ih s i (act s i)
      exact ⟨r, t, i, hi, h⟩

/-- The run in which a step in the state `s` receives the input `π s`. -/
def playBy (π : σ → ι) : Proc σ ι ε α → σ → Except ε α × σ
  | ret a, s => (.ok a, s)
  | raise e, s => (.error e, s)
  | step act next, s => playBy π (next s (π s)) (act s (π s))

lemma runs_playBy {π : σ → ι} (hπ : ∀ s, J s (π s)) (p : Proc σ ι ε α) (s : σ) :
    Runs J p s (playBy π p s).1 (playBy π p s).2 := by
  induction p generalizing s with
  | ret a => exact ⟨rfl, rfl⟩
  | raise e => exact ⟨rfl, rfl⟩
  | step act next ih => exact ⟨π s, hπ s, ih s (π s) (act s (π s))⟩

/-- The run in which every step receives the input `i`. -/
def play (i : ι) (p : Proc σ ι ε α) (s : σ) : Except ε α × σ := playBy (fun _ => i) p s

lemma runs_play {i : ι} (hi : ∀ s, J s i) (p : Proc σ ι ε α) (s : σ) :
    Runs J p s (play i p s).1 (play i p s).2 := runs_playBy hi p s

end Runs

/-! ### Every run from one state -/

section Alone

variable (J : σ → ι → Prop)

/-- Alone from the given state, every step of the program lies in `R` and the
result and the state at its end lie in `C`. -/
def Alone (R : σ → σ → Prop) (C : Except ε α → σ → Prop) : Proc σ ι ε α → σ → Prop
  | ret a, s => C (.ok a) s
  | raise e, s => C (.error e) s
  | step act next, s => ∀ i, J s i → R s (act s i) ∧ Alone R C (next s i) (act s i)

variable {J} {R : σ → σ → Prop} {s : σ}

lemma Alone.bind {C : Except ε α → σ → Prop} {C' : Except ε β → σ → Prop}
    {p : Proc σ ι ε α} {f : α → Proc σ ι ε β} (hp : Alone J R C p s)
    (hf : ∀ a t, C (.ok a) t → Alone J R C' (f a) t)
    (he : ∀ e t, C (.error e) t → C' (.error e) t) : Alone J R C' (p >>= f) s := by
  induction p generalizing s with
  | ret a => exact hf a s hp
  | raise e => exact he e s hp
  | step act next ih => exact fun i hi => ⟨(hp i hi).1, ih s i (hp i hi).2⟩

lemma Alone.mono {R' : σ → σ → Prop} {C C' : Except ε α → σ → Prop} {p : Proc σ ι ε α}
    (hp : Alone J R C p s) (hR : ∀ s t, R s t → R' s t) (hC : ∀ r t, C r t → C' r t) :
    Alone J R' C' p s := by
  induction p generalizing s with
  | ret a => exact hC _ _ hp
  | raise e => exact hC _ _ hp
  | step act next ih =>
      exact fun i hi => ⟨hR _ _ (hp i hi).1, ih s i (hp i hi).2⟩

/-- A handler takes over where the program raised. -/
lemma Alone.tryCatch {C C' : Except ε α → σ → Prop} {p : Proc σ ι ε α}
    {h : ε → Proc σ ι ε α} (hp : Alone J R C p s) (ha : ∀ a t, C (.ok a) t → C' (.ok a) t)
    (he : ∀ e t, C (.error e) t → Alone J R C' (h e) t) : Alone J R C' (p.tryCatch h) s := by
  induction p generalizing s with
  | ret a => exact ha a s hp
  | raise e => exact he e s hp
  | step act next ih => exact fun i hi => ⟨(hp i hi).1, ih s i (hp i hi).2⟩

lemma Alone.and {C C' : Except ε α → σ → Prop} {p : Proc σ ι ε α} (hp : Alone J R C p s)
    (hp' : Alone J R C' p s) : Alone J R (fun r t => C r t ∧ C' r t) p s := by
  induction p generalizing s with
  | ret a => exact ⟨hp, hp'⟩
  | raise e => exact ⟨hp, hp'⟩
  | step act next ih => exact fun i hi => ⟨(hp i hi).1, ih s i (hp i hi).2 (hp' i hi).2⟩

lemma Alone.look {C' : Except ε β → σ → Prop} {g : σ → α} {f : α → Proc σ ι ε β}
    (hR : R s s) (hf : Alone J R C' (f (g s)) s) : Alone J R C' (Proc.look g >>= f) s :=
  fun _ _ => ⟨hR, hf⟩

lemma Alone.ask {C' : Except ε β → σ → Prop} {g : ι → α} {f : α → Proc σ ι ε β}
    (hR : R s s) (hf : ∀ i, J s i → Alone J R C' (f (g i)) s) :
    Alone J R C' (Proc.ask g >>= f) s :=
  fun i hi => ⟨hR, hf i hi⟩

lemma Alone.change {C' : Except ε β → σ → Prop} {g : σ → σ} {f : Unit → Proc σ ι ε β}
    (hR : R s (g s)) (hf : Alone J R C' (f ()) (g s)) :
    Alone J R C' (Proc.change g >>= f) s :=
  fun _ _ => ⟨hR, hf⟩

lemma Alone.exchange {C' : Except ε β → σ → Prop} {g : σ → ι → α × σ}
    {f : α → Proc σ ι ε β} (hR : ∀ i, J s i → R s (g s i).2)
    (hf : ∀ i, J s i → Alone J R C' (f (g s i).1) (g s i).2) :
    Alone J R C' (Proc.exchange g >>= f) s :=
  fun i hi => ⟨hR i hi, hf i hi⟩

/-- What holds of every run holds of each. -/
lemma Alone.runs {C : Except ε α → σ → Prop} {p : Proc σ ι ε α} (hp : Alone J R C p s)
    {t : σ} {r : Except ε α} (h : Runs J p s r t) : Relation.ReflTransGen R s t ∧ C r t := by
  induction p generalizing s with
  | ret a => obtain ⟨rfl, rfl⟩ := h; exact ⟨.refl, hp⟩
  | raise e => obtain ⟨rfl, rfl⟩ := h; exact ⟨.refl, hp⟩
  | step act next ih =>
      obtain ⟨i, hi, h'⟩ := h
      obtain ⟨h1, h2⟩ := ih s i (hp i hi).2 h'
      exact ⟨.head (hp i hi).1 h1, h2⟩

/-- The program runs to its end, and every end lies in `C`. -/
def Ends (J : σ → ι → Prop) (C : Except ε α → σ → Prop) (p : Proc σ ι ε α) (s : σ) : Prop :=
  (∃ r t, Runs J p s r t) ∧ ∀ r t, Runs J p s r t → C r t

lemma Alone.ends {C : Except ε α → σ → Prop} {p : Proc σ ι ε α} (hp : Alone J R C p s)
    (hJ : ∀ s, ∃ i, J s i) : Ends J C p s :=
  ⟨exists_runs hJ p s, fun _ _ h => (hp.runs h).2⟩

/-- Two accounts of the ends of one program meet. -/
lemma Ends.exists_and {C C' : Except ε α → σ → Prop} {p : Proc σ ι ε α} (h : Ends J C p s)
    (h' : Ends J C' p s) : ∃ r t, C r t ∧ C' r t := by
  obtain ⟨r, t, hrun⟩ := h.1
  exact ⟨r, t, h.2 r t hrun, h'.2 r t hrun⟩

lemma Ends.mono {C C' : Except ε α → σ → Prop} {p : Proc σ ι ε α} (h : Ends J C p s)
    (hC : ∀ r t, C r t → C' r t) : Ends J C' p s :=
  ⟨h.1, fun r t hrun => hC r t (h.2 r t hrun)⟩

end Alone

/-! ### Steps under interference -/

section Interference

variable (J : σ → ι → Prop)

/-- Every step of the program lies in `R`, whatever the state is when it is
taken, and every result lies in `C`. -/
def Within (R : σ → σ → Prop) (C : Except ε α → Prop) : Proc σ ι ε α → Prop
  | ret a => C (.ok a)
  | raise e => C (.error e)
  | step act next => ∀ s i, J s i → R s (act s i) ∧ Within R C (next s i)

variable {D : Type} (π : σ → D)

/-- Seen from states with `π = d` the program keeps `π` and ends in `N`, or
makes one step of `E` and then stays within `R` and ends in `C`. -/
def Once (d : D) (E R : σ → σ → Prop) (N C : Except ε α → Prop) : Proc σ ι ε α → Prop
  | ret a => N (.ok a)
  | raise e => N (.error e)
  | step act next => ∀ s i, J s i → π s = d →
      (π (act s i) = d ∧ Once d E R N C (next s i))
        ∨ (E s (act s i) ∧ Within J R C (next s i))

/-- A program that, seen from `π = d`, never changes `π`. -/
abbrev Reads (d : D) (N : Except ε α → Prop) (p : Proc σ ι ε α) : Prop :=
  Once J π d (fun _ _ => False) (fun _ _ => False) N (fun _ => True) p

variable {J π}

lemma Within.bind {R : σ → σ → Prop} {C : Except ε α → Prop} {C' : Except ε β → Prop}
    {p : Proc σ ι ε α} {f : α → Proc σ ι ε β} (hp : Within J R C p)
    (hf : ∀ a, C (.ok a) → Within J R C' (f a)) (he : ∀ e, C (.error e) → C' (.error e)) :
    Within J R C' (p >>= f) := by
  induction p with
  | ret a => exact hf a hp
  | raise e => exact he e hp
  | step act next ih => exact fun s i hi => ⟨(hp s i hi).1, ih s i (hp s i hi).2⟩

lemma Within.mono {R R' : σ → σ → Prop} {C C' : Except ε α → Prop} {p : Proc σ ι ε α}
    (hp : Within J R C p) (hR : ∀ s t, R s t → R' s t) (hC : ∀ r, C r → C' r) :
    Within J R' C' p := by
  induction p with
  | ret a => exact hC _ hp
  | raise e => exact hC _ hp
  | step act next ih =>
      exact fun s i hi => ⟨hR _ _ (hp s i hi).1, ih s i (hp s i hi).2⟩

/-- The relation may use what is known where the step is taken. -/
lemma Within.mono_of {R R' : σ → σ → Prop} {C : Except ε α → Prop} {p : Proc σ ι ε α}
    (hp : Within J R C p) (hR : ∀ s i t, J s i → R s t → R' s t) : Within J R' C p := by
  induction p with
  | ret a => exact hp
  | raise e => exact hp
  | step act next ih =>
      exact fun s i hi => ⟨hR _ _ _ hi (hp s i hi).1, ih s i (hp s i hi).2⟩

/-- Fewer inputs, fewer steps. -/
lemma Within.restrict {J' : σ → ι → Prop} {R : σ → σ → Prop} {C : Except ε α → Prop}
    {p : Proc σ ι ε α} (hp : Within J R C p) (hJ : ∀ s i, J' s i → J s i) : Within J' R C p := by
  induction p with
  | ret a => exact hp
  | raise e => exact hp
  | step act next ih =>
      exact fun s i hi => ⟨(hp s i (hJ s i hi)).1, ih s i (hp s i (hJ s i hi)).2⟩

lemma Within.look {R : σ → σ → Prop} {C' : Except ε β → Prop} {g : σ → α} {f : α → Proc σ ι ε β}
    (hf : ∀ s i, J s i → R s s ∧ Within J R C' (f (g s))) : Within J R C' (Proc.look g >>= f) := hf

lemma Within.ask {R : σ → σ → Prop} {C' : Except ε β → Prop} {g : ι → α} {f : α → Proc σ ι ε β}
    (hf : ∀ s i, J s i → R s s ∧ Within J R C' (f (g i))) : Within J R C' (Proc.ask g >>= f) := hf

lemma Within.exchange {R : σ → σ → Prop} {C' : Except ε β → Prop} {g : σ → ι → α × σ}
    {f : α → Proc σ ι ε β} (hf : ∀ s i, J s i → R s (g s i).2 ∧ Within J R C' (f (g s i).1)) :
    Within J R C' (Proc.exchange g >>= f) := hf

lemma Within.change {R : σ → σ → Prop} {C' : Except ε β → Prop} {g : σ → σ}
    {f : Unit → Proc σ ι ε β} (hf : ∀ s i, J s i → R s (g s) ∧ Within J R C' (f ())) :
    Within J R C' (Proc.change g >>= f) := hf

variable {d : D} {E R : σ → σ → Prop}

/-- The rule of composition: before the step of `E` the continuation may still
make it, after it the continuation has to stay within `R`. -/
lemma Once.bind {N C : Except ε α → Prop} {N' C' : Except ε β → Prop}
    {p : Proc σ ι ε α} {f : α → Proc σ ι ε β} (hp : Once J π d E R N C p)
    (hN : ∀ a, N (.ok a) → Once J π d E R N' C' (f a))
    (hNe : ∀ e, N (.error e) → N' (.error e))
    (hC : ∀ a, C (.ok a) → Within J R C' (f a))
    (hCe : ∀ e, C (.error e) → C' (.error e)) : Once J π d E R N' C' (p >>= f) := by
  induction p with
  | ret a => exact hN a hp
  | raise e => exact hNe e hp
  | step act next ih =>
      intro s i hi hs
      rcases hp s i hi hs with ⟨h1, h2⟩ | ⟨h1, h2⟩
      · exact Or.inl ⟨h1, ih s i h2⟩
      · exact Or.inr ⟨h1, h2.bind hC hCe⟩

/-- Composition behind a reading prefix. -/
lemma Reads.bind {N : Except ε α → Prop} {N' C' : Except ε β → Prop}
    {p : Proc σ ι ε α} {f : α → Proc σ ι ε β} (hp : Reads J π d N p)
    (hN : ∀ a, N (.ok a) → Once J π d E R N' C' (f a))
    (hNe : ∀ e, N (.error e) → N' (.error e)) : Once J π d E R N' C' (p >>= f) := by
  induction p with
  | ret a => exact hN a hp
  | raise e => exact hNe e hp
  | step act next ih =>
      intro s i hi hs
      rcases hp s i hi hs with ⟨h1, h2⟩ | ⟨h1, -⟩
      · exact Or.inl ⟨h1, ih s i h2⟩
      · exact h1.elim

lemma Once.mono {E' R' : σ → σ → Prop} {N C N' C' : Except ε α → Prop}
    {p : Proc σ ι ε α} (hp : Once J π d E R N C p) (hE : ∀ s t, π s = d → E s t → E' s t)
    (hR : ∀ s t, R s t → R' s t) (hN : ∀ r, N r → N' r) (hC : ∀ r, C r → C' r) :
    Once J π d E' R' N' C' p := by
  induction p with
  | ret a => exact hN _ hp
  | raise e => exact hN _ hp
  | step act next ih =>
      intro s i hi hs
      rcases hp s i hi hs with ⟨h1, h2⟩ | ⟨h1, h2⟩
      · exact Or.inl ⟨h1, ih s i h2⟩
      · exact Or.inr ⟨hE _ _ hs h1, h2.mono hR hC⟩

/-- A step that only looks: the continuation is checked at the value read from
some state with `π = d`. -/
lemma Once.look {N' C' : Except ε β → Prop} {g : σ → α} {f : α → Proc σ ι ε β}
    (hf : ∀ s, π s = d → Once J π d E R N' C' (f (g s))) :
    Once J π d E R N' C' (Proc.look g >>= f) :=
  fun s _ _ hs => Or.inl ⟨hs, hf s hs⟩

lemma Once.ask {N' C' : Except ε β → Prop} {g : ι → α} {f : α → Proc σ ι ε β}
    (hf : ∀ s i, J s i → Once J π d E R N' C' (f (g i))) :
    Once J π d E R N' C' (Proc.ask g >>= f) :=
  fun s i hi hs => Or.inl ⟨hs, hf s i hi⟩

/-- A step that changes the state outside `π`. -/
lemma Once.exchange {N' C' : Except ε β → Prop} {g : σ → ι → α × σ}
    {f : α → Proc σ ι ε β} (hg : ∀ s i, J s i → π (g s i).2 = π s)
    (hf : ∀ s i, J s i → π s = d → Once J π d E R N' C' (f (g s i).1)) :
    Once J π d E R N' C' (Proc.exchange g >>= f) :=
  fun s i hi hs => Or.inl ⟨(hg s i hi).trans hs, hf s i hi hs⟩

/-- A program within a relation that keeps `π`. -/
lemma Within.reads {C : Except ε α → Prop} {p : Proc σ ι ε α} (hp : Within J R C p)
    (hR : ∀ s t, R s t → π t = π s) : Reads J π d C p := by
  induction p with
  | ret a => exact hp
  | raise e => exact hp
  | step act next ih =>
      exact fun s i hi hs => Or.inl ⟨(hR _ _ (hp s i hi).1).trans hs, ih s i (hp s i hi).2⟩

/-- Alone, a `Within` program moves along `R` from any state. -/
lemma Within.alone {C : Except ε α → Prop} {p : Proc σ ι ε α} (hp : Within J R C p) (s : σ) :
    Alone J R (fun r t => Relation.ReflTransGen R s t ∧ C r) p s := by
  suffices h : ∀ u, Relation.ReflTransGen R s u →
      Alone J R (fun r t => Relation.ReflTransGen R s t ∧ C r) p u from h s .refl
  induction p with
  | ret a => exact fun u hu => ⟨hu, hp⟩
  | raise e => exact fun u hu => ⟨hu, hp⟩
  | step act next ih =>
      intro u hu i hi
      obtain ⟨h1, h2⟩ := hp u i hi
      exact ⟨h1, ih u i h2 _ (hu.tail h1)⟩

/-- Alone, a `Once` program ends with `π` as it was, or passes through exactly
one step of `E`: up to that step `π` is unchanged, after it the run is within
`R`. -/
lemma Once.alone {N C : Except ε α → Prop} {p : Proc σ ι ε α}
    (hp : Once J π d E R N C p) {s : σ} (hs : π s = d) :
    Alone J (fun x y => (π x = d ∧ π y = d) ∨ (π x = d ∧ E x y) ∨ R x y)
      (fun r t => (π t = d ∧ N r)
        ∨ ∃ u v, π u = d ∧ E u v ∧ Relation.ReflTransGen R v t ∧ C r) p s := by
  induction p generalizing s with
  | ret a => exact Or.inl ⟨hs, hp⟩
  | raise e => exact Or.inl ⟨hs, hp⟩
  | step act next ih =>
      intro i hi
      rcases hp s i hi hs with ⟨h1, h2⟩ | ⟨h1, h2⟩
      · exact ⟨Or.inl ⟨hs, h1⟩, ih s i h2 h1⟩
      · refine ⟨Or.inr (Or.inl ⟨hs, h1⟩), (h2.alone _).mono (fun _ _ h => Or.inr (Or.inr h)) ?_⟩
        rintro r t ⟨h3, h4⟩
        exact Or.inr ⟨s, act s i, hs, h1, h3, h4⟩

end Interference

end Proc

end Sessions
