/-
Shell scripts under `set -e`, and rules for what they keep.

A script is a function of the world: the state its commands work on, which of
the changing commands to come are made to fail, and the states passed so far. A
command that changes something either takes effect or fails without effect; a
plain one that fails ends the script, one in a condition decides the condition.

* `Sh`, with `act`, `attempt`, `look`, `assign`, `ifRead`, `whileDo` and `trapExit`;
* `Triple`: from a state with `P` the script passes only states with `I`, and
  ends with `Q` if it reaches its end and with `E` if it ends early. With faults
  ruled out and `E` false this is total correctness;
* one rule per command: `Triple.act`, `Triple.attempt`, `Triple.look`,
  `Triple.assign`, `Triple.status`, `Triple.bind`, `Triple.whileDo`, `Triple.trapExit`,
  and for the usual shapes `Triple.ifRead`, `Triple.readOr`, `Triple.whileLook`,
  `Triple.whileAttempt`.
-/
import Mathlib.Tactic

namespace Shell

variable {σ : Type*} {α β : Type}

/-! ### Scripts -/

/-- The state between two commands, and whether a command has failed that should
not have: a plain one, or one that would have taken effect. -/
structure Point (σ : Type*) where
  node : σ
  failed : Bool

/-- What a script runs in. -/
structure World (σ : Type*) where
  point : Point σ
  /-- Which of the changing commands to come are made to fail; none after the end. -/
  faults : List Bool
  /-- The states between the commands so far, the last one first. -/
  seen : List σ

/-- A script; `none` if it ended early with a non-zero status. -/
def Sh (σ : Type*) (α : Type) := World σ → Option α × World σ

namespace Sh

/-- Run `m` and go on with `f` unless `m` ended the script. -/
def bind (m : Sh σ α) (f : α → Sh σ β) : Sh σ β := fun w =>
  match m w with
  | (some a, w') => f a w'
  | (none, w') => (none, w')

instance : Monad (Sh σ) where
  pure a := fun w => (some a, w)
  bind := Sh.bind

end Sh

/-- The world after a changing command that left `p`. -/
def World.passed (w : World σ) (p : Point σ) : World σ :=
  { point := p, faults := w.faults.tail, seen := p.node :: w.seen }

/-- A changing command on its own line: a failure ends the script. -/
def act (f : σ → Option σ) : Sh σ Unit := fun w =>
  if w.faults.head? = some true then (none, w.passed { w.point with failed := true })
  else match f w.point.node with
    | some s => (some (), w.passed { w.point with node := s })
    | none => (none, w.passed { w.point with failed := true })

/-- A changing command as a condition: it tells whether it took effect. -/
def attempt (f : σ → Option σ) : Sh σ Bool := fun w =>
  if w.faults.head? = some true then
    (some false,
      w.passed { w.point with failed := w.point.failed || (f w.point.node).isSome })
  else match f w.point.node with
    | some s => (some true, w.passed { w.point with node := s })
    | none => (some false, w.passed w.point)

/-- A command that only reads. -/
def look (g : σ → α) : Sh σ α := fun w => (some (g w.point.node), w)

/-- `if READ; then m; fi` -/
def ifRead (g : σ → Bool) (m : Sh σ Unit) : Sh σ Unit := do
  if ← look g then m else pure ()

/-- `READ || m` -/
def readOr (g : σ → Bool) (m : Sh σ Unit) : Sh σ Unit := do
  if ← look g then pure () else m

/-- `x="$(...)"`: without a value the pipeline failed, and the assignment ends the script. -/
def assign (o : Option α) : Sh σ α := fun w => (o, w)

@[simp] lemma look_bind (g : σ → α) (f : α → Sh σ β) (w : World σ) :
    (look g >>= f) w = f (g w.point.node) w := rfl

@[simp] lemma assign_some_bind (a : α) (f : α → Sh σ β) (w : World σ) :
    (assign (some a) >>= f) w = f a w := rfl

@[simp] lemma assign_none_bind (f : α → Sh σ β) (w : World σ) :
    (assign none >>= f) w = (none, w) := rfl

/-- A test whose failure ends the script. -/
def status (ok : Bool) : Sh σ Unit := assign (if ok then some () else none)

/-- One round of `while c; do b; done`: whether there is another. -/
def round (c : Sh σ Bool) (b : Sh σ Unit) : Sh σ Bool := do
  if ← c then
    b
    pure true
  else pure false

/-- At most `k` rounds. -/
def rounds (c : Sh σ Bool) (b : Sh σ Unit) : ℕ → Sh σ Unit
  | 0 => pure ()
  | k + 1 => do
    if ← round c b then rounds c b k

/-- `while c; do b; done`, where the measure `m` falls in every round but the last
(`Triple.whileDo`). -/
def whileDo (m : σ → ℕ) (c : Sh σ Bool) (b : Sh σ Unit) : Sh σ Unit := fun w =>
  rounds c b (m w.point.node + 1) w

/-- `body` under an `EXIT` trap that is disarmed at its end. -/
def trapExit (body : Sh σ α) (teardown : Sh σ Unit) : Sh σ α := fun w =>
  match body w with
  | (some a, w') => (some a, w')
  | (none, w') => (none, (teardown w').2)

/-! ### What a script keeps -/

/-- No changing command is made to fail. -/
def NoFault (faults : List Bool) : Prop := ∀ b ∈ faults, b = false

/-- The states passed so far have `I`, and faults are still to come only if `faulty`. -/
structure Within (faulty : Bool) (I : σ → Prop) (w : World σ) : Prop where
  seen : ∀ s ∈ w.seen, I s
  faults : faulty = false → NoFault w.faults

/-- How a script ended: `Q` at its end, `E` if it ended early. -/
def Ends (faulty : Bool) (I : σ → Prop) (Q : α → Point σ → Prop) (E : Point σ → Prop) :
    Option α × World σ → Prop
  | (some a, w) => Within faulty I w ∧ Q a w.point
  | (none, w) => Within faulty I w ∧ E w.point

/-- From a state with `P` the script passes only states with `I`, and ends with
`Q` at its end and with `E` if it ends early. -/
def Triple (faulty : Bool) (I : σ → Prop) (P : Point σ → Prop) (m : Sh σ α)
    (Q : α → Point σ → Prop) (E : Point σ → Prop) : Prop :=
  ∀ w, Within faulty I w → P w.point → Ends faulty I Q E (m w)

section Rules

variable {faulty : Bool} {I : σ → Prop} {P P' E E' : Point σ → Prop}

lemma Within.passed {w : World σ} {p : Point σ} (h : Within faulty I w) (hI : I p.node) :
    Within faulty I (w.passed p) where
  seen s hs := by
    rcases List.mem_cons.mp hs with rfl | hs'
    · exact hI
    · exact h.seen s hs'
  faults hf b hb := h.faults hf b (List.mem_of_mem_tail hb)

/-- A command is made to fail only where faults are allowed. -/
lemma Within.faulty_of_head {w : World σ} (h : Within faulty I w) (hb : w.faults.head? = some true) :
    faulty = true := by
  by_contra hne
  have hfalse := h.faults (by simpa using hne) true (List.mem_of_mem_head? hb)
  cases hfalse

/-- The rule of consequence. -/
lemma Triple.conseq {m : Sh σ α} {Q Q' : α → Point σ → Prop} (h : Triple faulty I P m Q E)
    (hP : ∀ p, P' p → P p) (hQ : ∀ a p, Q a p → Q' a p) (hE : ∀ p, E p → E' p) :
    Triple faulty I P' m Q' E' := by
  intro w hw hp
  have hm := h w hw (hP _ hp)
  unfold Ends at hm ⊢
  split at hm
  · exact ⟨hm.1, hQ _ _ hm.2⟩
  · exact ⟨hm.1, hE _ hm.2⟩

lemma Triple.pure {Q : α → Point σ → Prop} {a : α} (h : ∀ p, P p → Q a p) :
    Triple faulty I P (Pure.pure a : Sh σ α) Q E :=
  fun _ hw hp => ⟨hw, h _ hp⟩

lemma Triple.bind {m : Sh σ α} {f : α → Sh σ β} {R : α → Point σ → Prop}
    {Q : β → Point σ → Prop} (hm : Triple faulty I P m R E)
    (hf : ∀ a, Triple faulty I (R a) (f a) Q E) : Triple faulty I P (m >>= f) Q E := by
  intro w hw hp
  have hm' := hm w hw hp
  show Ends faulty I Q E (Sh.bind m f w)
  unfold Sh.bind
  rcases hmw : m w with ⟨_ | a, w'⟩ <;> rw [hmw] at hm'
  · exact hm'
  · exact hf a w' hm'.1 hm'.2

/-- A plain command: it takes effect, or ends the script with the state unchanged. -/
lemma Triple.act {f : σ → Option σ} {Q : Unit → Point σ → Prop} (hI : ∀ p, P p → I p.node)
    (hok : ∀ p s, P p → f p.node = some s → I s ∧ Q () { p with node := s })
    (hno : ∀ p, P p → faulty = true ∨ f p.node = none → E { p with failed := true }) :
    Triple faulty I P (Shell.act f) Q E := by
  intro w hw hp
  unfold Shell.act
  by_cases hb : w.faults.head? = some true
  · have hfaulty := hw.faulty_of_head hb
    rw [if_pos hb]
    exact ⟨hw.passed (hI w.point hp), hno _ hp (.inl hfaulty)⟩
  · rw [if_neg hb]
    cases hf : f w.point.node with
    | none => exact ⟨hw.passed (hI w.point hp), hno _ hp (.inr hf)⟩
    | some s =>
      obtain ⟨hs, hQ⟩ := hok _ s hp hf
      exact ⟨hw.passed hs, hQ⟩

/-- A changing command in a condition never ends the script. -/
lemma Triple.attempt {f : σ → Option σ} {Q : Bool → Point σ → Prop}
    (hI : ∀ p, P p → I p.node)
    (hok : ∀ p s, P p → f p.node = some s → I s ∧ Q true { p with node := s })
    (hno : ∀ p, P p → f p.node = none → Q false p)
    (hfault : faulty = true → ∀ p, P p → (f p.node).isSome → Q false { p with failed := true }) :
    Triple faulty I P (Shell.attempt f) Q E := by
  intro w hw hp
  unfold Shell.attempt
  by_cases hb : w.faults.head? = some true
  · have hfaulty := hw.faulty_of_head hb
    rw [if_pos hb]
    refine ⟨hw.passed (hI w.point hp), ?_⟩
    cases hf : f w.point.node with
    | none => simpa [World.passed, hf] using hno _ hp hf
    | some s => simpa [World.passed, hf] using hfault hfaulty _ hp (by simp [hf])
  · rw [if_neg hb]
    cases hf : f w.point.node with
    | none => exact ⟨hw.passed (hI w.point hp), hno _ hp hf⟩
    | some s =>
      obtain ⟨hs, hQ⟩ := hok _ s hp hf
      exact ⟨hw.passed hs, hQ⟩

/-- After a read its value is known. -/
lemma Triple.look {g : σ → α} {Q : α → Point σ → Prop} (h : ∀ p, P p → Q (g p.node) p) :
    Triple faulty I P (Shell.look g) Q E :=
  fun _ hw hp => ⟨hw, h _ hp⟩

lemma Triple.assign {o : Option α} {Q : α → Point σ → Prop} (hok : ∀ p a, P p → o = some a → Q a p)
    (hno : ∀ p, P p → o = none → E p) : Triple faulty I P (Shell.assign o) Q E := by
  intro w hw hp
  unfold Shell.assign
  cases o with
  | none => exact ⟨hw, hno _ hp rfl⟩
  | some a => exact ⟨hw, hok _ a hp rfl⟩

lemma Triple.status {ok : Bool} {Q : Unit → Point σ → Prop} (hok : ok = true → ∀ p, P p → Q () p)
    (hno : ok = false → ∀ p, P p → E p) : Triple faulty I P (Shell.status ok) Q E := by
  cases ok with
  | true => exact Triple.assign (fun p _ hp _ => hok rfl p hp) (fun p hp h => absurd h (by simp))
  | false => exact Triple.assign (fun p _ hp h => absurd h (by simp)) (fun p hp _ => hno rfl p hp)

/-- **The loop rule**: an invariant that every round keeps while the measure
falls, and that the last round turns into `Q`. -/
lemma Triple.whileDo {m : σ → ℕ} {c : Sh σ Bool} {b : Sh σ Unit} {Q : Unit → Point σ → Prop}
    (h : ∀ k, Triple faulty I (fun p => P p ∧ m p.node = k) (round c b)
      (fun more p => if more then P p ∧ m p.node < k else Q () p) E) :
    Triple faulty I P (Shell.whileDo m c b) Q E := by
  -- with `k` rounds to go and the measure below `k` the rounds do not run out
  have hrounds : ∀ k, Triple faulty I (fun p => P p ∧ m p.node < k) (rounds c b k) Q E := by
    intro k
    induction k with
    | zero => exact fun w _ hp => absurd hp.2 (Nat.not_lt_zero _)
    | succ k ih =>
      intro w hw hp
      have hround := Triple.bind (Q := Q) (h (m w.point.node))
        (f := fun more => if more = true then rounds c b k else Pure.pure ()) (fun more => by
          cases more with
          | false => exact Triple.pure (fun p hq => by simpa using hq)
          | true =>
            simp only [if_true]
            refine ih.conseq (fun p hq => ⟨hq.1, ?_⟩) (fun _ _ hq => hq) (fun _ he => he)
            have := hq.2
            have := hp.2
            omega)
      exact hround w hw ⟨hp.1, rfl⟩
  intro w hw hp
  exact hrounds _ w hw ⟨hp, Nat.lt_succ_self _⟩

/-- A command that keeps `P` whenever it takes effect. -/
lemma Triple.act_keep {f : σ → Option σ} (hI : ∀ p, P p → I p.node)
    (hok : ∀ p s, P p → f p.node = some s → P { p with node := s })
    (hno : ∀ p, P p → faulty = true ∨ f p.node = none → E { p with failed := true }) :
    Triple faulty I P (Shell.act f) (fun _ => P) E :=
  Triple.act hI (fun p s hp hf => ⟨hI _ (hok p s hp hf), hok p s hp hf⟩) hno

/-- A command that only reads decides between two. -/
lemma Triple.branch {g : σ → Bool} {m₁ m₂ : Sh σ α} {Q : α → Point σ → Prop}
    (h₁ : Triple faulty I (fun p => P p ∧ g p.node = true) m₁ Q E)
    (h₂ : Triple faulty I (fun p => P p ∧ g p.node = false) m₂ Q E) :
    Triple faulty I P (Shell.look g >>= fun b => if b = true then m₁ else m₂) Q E := by
  refine Triple.bind (R := fun b p => P p ∧ g p.node = b) (Triple.look fun p hp => ⟨hp, rfl⟩)
    fun b => ?_
  cases b with
  | true => simpa using h₁
  | false => simpa using h₂

lemma Triple.ifRead {g : σ → Bool} {m : Sh σ Unit} {Q : Unit → Point σ → Prop}
    (h : Triple faulty I (fun p => P p ∧ g p.node = true) m Q E)
    (hno : ∀ p, P p → g p.node = false → Q () p) : Triple faulty I P (Shell.ifRead g m) Q E :=
  Triple.branch h (Triple.pure fun p hp => hno p hp.1 hp.2)

lemma Triple.readOr {g : σ → Bool} {m : Sh σ Unit} {Q : Unit → Point σ → Prop}
    (h : Triple faulty I (fun p => P p ∧ g p.node = false) m Q E)
    (hyes : ∀ p, P p → g p.node = true → Q () p) : Triple faulty I P (Shell.readOr g m) Q E :=
  Triple.branch (Triple.pure fun p hp => hyes p hp.1 hp.2) h

/-- `while READ; do CMD; done` -/
lemma Triple.whileLook {m : σ → ℕ} {g : σ → Bool} {f : σ → Option σ}
    {Q : Unit → Point σ → Prop} (hI : ∀ p, P p → I p.node)
    (hok : ∀ p s, P p → g p.node = true → f p.node = some s →
      P { p with node := s } ∧ m s < m p.node)
    (hno : ∀ p, P p → g p.node = true → faulty = true ∨ f p.node = none →
      E { p with failed := true })
    (hdone : ∀ p, P p → g p.node = false → Q () p) :
    Triple faulty I P (Shell.whileDo m (Shell.look g) (Shell.act f)) Q E := by
  refine Triple.whileDo fun k => Triple.branch ?_ (Triple.pure fun p hp => ?_)
  · refine Triple.bind (R := fun _ p => P p ∧ m p.node < k) (Triple.act (fun p hp => hI p hp.1.1)
      (fun p s hp hf => ?_) (fun p hp hf => hno p hp.1.1 hp.2 hf))
      (fun _ => Triple.pure fun p hp => by simpa using hp)
    obtain ⟨hs, hlt⟩ := hok p s hp.1.1 hp.2 hf
    exact ⟨hI _ hs, hs, hp.1.2 ▸ hlt⟩
  · simpa using hdone p hp.1.1 hp.2

/-- `while CMD; do :; done` with a changing command. -/
lemma Triple.whileAttempt {m : σ → ℕ} {f : σ → Option σ} {Q : Unit → Point σ → Prop}
    (hI : ∀ p, P p → I p.node)
    (hok : ∀ p s, P p → f p.node = some s → P { p with node := s } ∧ m s < m p.node)
    (hno : ∀ p, P p → f p.node = none → Q () p)
    (hfault : faulty = true → ∀ p, P p → (f p.node).isSome → Q () { p with failed := true }) :
    Triple faulty I P (Shell.whileDo m (Shell.attempt f) (Pure.pure ())) Q E := by
  refine Triple.whileDo fun k => Triple.bind
    (R := fun more p => if more then P p ∧ m p.node < k else Q () p) (Triple.attempt
      (fun p hp => hI p hp.1) (fun p s hp hf => ?_) (fun p hp hf => by simpa using hno p hp.1 hf)
      (fun hb p hp hf => by simpa using hfault hb p hp.1 hf)) fun more => ?_
  · obtain ⟨hs, hlt⟩ := hok p s hp.1 hf
    exact ⟨hI _ hs, by simpa using ⟨hs, hp.2 ▸ hlt⟩⟩
  · cases more with
    | true =>
      exact Triple.bind (R := fun _ p => P p ∧ m p.node < k)
        (Triple.pure fun p hp => by simpa using hp)
        (fun _ => Triple.pure fun p hp => by simpa using hp)
    | false => exact Triple.pure fun p hp => by simpa using hp

/-- A script under a trap: what an early end leaves is what the teardown starts from. -/
lemma Triple.trapExit {body : Sh σ α} {teardown : Sh σ Unit} {Q : α → Point σ → Prop}
    (hb : Triple faulty I P body Q E) (ht : Triple faulty I E teardown (fun _ => E') E') :
    Triple faulty I P (Shell.trapExit body teardown) Q E' := by
  intro w hw hp
  have hbody := hb w hw hp
  unfold Shell.trapExit
  rcases hbw : body w with ⟨_ | a, w'⟩ <;> rw [hbw] at hbody
  · have hdown := ht w' hbody.1 hbody.2
    show Within faulty I (teardown w').2 ∧ E' (teardown w').2.point
    rcases htw : teardown w' with ⟨_ | u, w''⟩ <;> rw [htw] at hdown <;> exact hdown
  · exact hbody

end Rules

end Shell
