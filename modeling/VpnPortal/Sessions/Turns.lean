/-
Sessions that change one thing in turn.

A session is overtaken when another one changes the observation `π` while it is
under way. In a schedule where an overtaken session leaves `π` alone, the changes
of `π` are those of the sessions one after another, each made from the value its
session has read. Everything else of the state may change at any time, and a
session that only reads may be overtaken.

* `ChangesAt`, `Overtaken`, `InTurn`;
* `InTurn.of_sessions`: no session comes back after another;
* `serial_of_inTurn`: the pool of `Once` programs, run in turn, has changed `π`
  along a serial chain; `holds_of_inTurn`: what the chain keeps.
-/
import VpnPortal.Sessions.Protocol

namespace Sessions

variable {κ σ ι ε α D : Type} [DecidableEq κ]

section InTurn

variable (π : σ → D) (c₀ : Cfg κ σ ι ε α)

/-- The step of session `k` after `pre` changes `π`. -/
def ChangesAt (pre : List (κ × ι)) (k : κ) (i : ι) : Prop :=
  π ((c₀.run pre).step k i).state ≠ π (c₀.run pre).state

/-- Another session has changed `π` since `k` began. -/
def Overtaken (sched : List (κ × ι)) (k : κ) : Prop :=
  ∃ pre l i post, sched = pre ++ (l, i) :: post ∧ l ≠ k ∧ ChangesAt π c₀ pre l i
    ∧ ∃ j, (k, j) ∈ pre

/-- An overtaken session leaves `π` alone. -/
def InTurn (sched : List (κ × ι)) : Prop :=
  ∀ pre k i post, sched = pre ++ (k, i) :: post → Overtaken π c₀ pre k → ¬ ChangesAt π c₀ pre k i

variable {π c₀} {sched : List (κ × ι)} {k : κ} {i : ι}

lemma Overtaken.append (h : Overtaken π c₀ sched k) (more : List (κ × ι)) :
    Overtaken π c₀ (sched ++ more) k := by
  obtain ⟨pre, l, i, post, rfl, hrest⟩ := h
  exact ⟨pre, l, i, post ++ more, by simp, hrest⟩

lemma InTurn.init (h : InTurn π c₀ (sched ++ [(k, i)])) : InTurn π c₀ sched := by
  intro pre l j post heq
  exact h pre l j (post ++ [(k, i)]) (by rw [heq]; simp)

lemma InTurn.last (h : InTurn π c₀ (sched ++ [(k, i)])) (hover : Overtaken π c₀ sched k) :
    ¬ ChangesAt π c₀ sched k i :=
  h sched k i [] rfl hover

/-- A schedule in which no session comes back after another one. -/
lemma InTurn.of_sessions (h : ∀ k l, l ≠ k → ¬ List.Sublist [k, l, k] (sched.map Prod.fst)) :
    InTurn π c₀ sched := by
  rintro pre k i post rfl ⟨first, l, j, mid, rfl, hne, -, i', hbegun⟩ -
  refine h k l hne ?_
  have hfirst : List.Sublist [k] (first.map Prod.fst) :=
    List.singleton_sublist.mpr (List.mem_map.mpr ⟨_, hbegun, rfl⟩)
  have hmid : List.Sublist [l] (((l, j) :: mid).map Prod.fst) :=
    List.singleton_sublist.mpr List.mem_cons_self
  have hlast : List.Sublist [k] (((k, i) :: post).map Prod.fst) :=
    List.singleton_sublist.mpr List.mem_cons_self
  rw [List.map_append, List.map_append]
  exact (hfirst.append hmid).append hlast

end InTurn

section Serial

variable {J : σ → ι → Prop} {π : σ → D} {E : κ → σ → σ → Prop} {N C : κ → Except ε α → Prop}
variable {c₀ c : Cfg κ σ ι ε α} {sched : List (κ × ι)} {l : List κ} {k m : κ} {i : ι}

/-- A change leaves every other session in its stage, or overtakes it. -/
lemma Stage.change_other (h : Stage J π E N C c₀ (c₀.run sched) sched l m) (hm : m ≠ k)
    (hchange : ChangesAt π c₀ sched k i)
    (hspec : ∀ d, (c₀.pool m).Once J π d (E m) (fun s t => π t = π s) (N m) (C m)) :
    Stage J π E N C c₀ ((c₀.run sched).step k i) (sched ++ [(k, i)]) (l ++ [k]) m
      ∨ (m ∉ l ++ [k] ∧ Overtaken π c₀ (sched ++ [(k, i)]) m) := by
  by_cases hl : m ∈ l
  · exact Or.inl (h.write_other hm (Or.inl hl) hspec)
  · by_cases hbegun : ∃ j, (m, j) ∈ sched
    · exact Or.inr ⟨by simp [hl, hm], sched, k, i, [], rfl, hm.symm, hchange, hbegun⟩
    · push Not at hbegun
      exact Or.inl (h.write_other hm (Or.inr (Or.inl hbegun)) hspec)

/-- **Sessions in turn are serial.** When every program of the pool makes its
change of `π` in a single step, a run in turn has changed `π` along a serial
chain. -/
theorem serial_of_inTurn
    (hspec : ∀ k d, (c₀.pool k).Once J π d (E k) (fun s t => π t = π s) (N k) (C k))
    (hJ : Admitted (fun _ => J) c₀ sched) (hturn : InTurn π c₀ sched) :
    ∃ l : List κ, l.Nodup ∧ Serial π E l (π c₀.state) (π (c₀.run sched).state)
      ∧ ∀ k, Stage J π E N C c₀ (c₀.run sched) sched l k ∨ (k ∉ l ∧ Overtaken π c₀ sched k) := by
  induction hJ with
  | nil =>
      refine ⟨[], List.nodup_nil, Serial.nil _, fun k => Or.inl (Or.inl ?_)⟩
      exact ⟨by simp, hspec k _, fun _ => rfl⟩
  | @snoc sched k i _ hJ ih =>
      obtain ⟨l, hnodup, hserial, hstage⟩ := ih hturn.init
      rw [Cfg.run_snoc]
      by_cases hchange : ChangesAt π c₀ sched k i
      · -- a session that changes `π` has not been overtaken
        have hk := (hstage k).resolve_right fun h => hturn.last h.2 hchange
        rcases hk.advance hJ with ⟨hsame, -⟩ | ⟨hkl, hE, hk'⟩
        · exact absurd hsame hchange
        refine ⟨l ++ [k], by simpa using hnodup.concat hkl, hserial.snoc hE, fun m => ?_⟩
        by_cases hm : m = k
        · rw [hm]
          exact Or.inl hk'
        · rcases hstage m with hm' | ⟨hml, hover⟩
          · exact hm'.change_other hm hchange (hspec m)
          · exact Or.inr ⟨by simp [hml, hm], hover.append _⟩
      · have hsame : π ((c₀.run sched).step k i).state = π (c₀.run sched).state := not_not.mp hchange
        have hothers : ∀ m, m ≠ k → Stage J π E N C c₀ ((c₀.run sched).step k i) (sched ++ [(k, i)]) l m
            ∨ (m ∉ l ∧ Overtaken π c₀ (sched ++ [(k, i)]) m) := fun m hm =>
          (hstage m).imp (fun h => h.keep_other hm hsame) fun h => ⟨h.1, h.2.append _⟩
        rcases hstage k with hk | ⟨hkl, hover⟩
        · rcases hk.advance hJ with ⟨-, hk'⟩ | ⟨hkl, hE, hk'⟩
          · refine ⟨l, hnodup, by rw [hsame]; exact hserial, fun m => ?_⟩
            by_cases hm : m = k
            · rw [hm]
              exact Or.inl hk'
            · exact hothers m hm
          · -- a step of `E` that happens to keep `π`
            refine ⟨l ++ [k], by simpa using hnodup.concat hkl, hserial.snoc hE, fun m => ?_⟩
            by_cases hm : m = k
            · rw [hm]
              exact Or.inl hk'
            · rcases hothers m hm with (⟨h1, h2⟩ | ⟨h1, h2⟩) | ⟨h1, h2⟩
              · exact Or.inl (Or.inl ⟨by simp [h1, hm], h2⟩)
              · exact Or.inl (Or.inr ⟨by simp [h1], h2⟩)
              · exact Or.inr ⟨by simp [h1, hm], h2⟩
        · refine ⟨l, hnodup, by rw [hsame]; exact hserial, fun m => ?_⟩
          by_cases hm : m = k
          · rw [hm]
            exact Or.inr ⟨hkl, hover.append _⟩
          · exact hothers m hm

/-- What holds of `π` at the beginning and after every change that a session makes
from a value it has read holds at the end of a run in turn. -/
theorem holds_of_inTurn {P : D → Prop} (h₀ : P (π c₀.state))
    (hspec : ∀ k d, (c₀.pool k).Once J π d (fun _ t => P (π t)) (fun s t => π t = π s) (N k) (C k))
    (hJ : Admitted (fun _ => J) c₀ sched) (hturn : InTurn π c₀ sched) : P (π (c₀.run sched).state) := by
  obtain ⟨l, -, hserial, -⟩ := serial_of_inTurn (E := fun _ _ t => P (π t)) hspec hJ hturn
  generalize π (c₀.run sched).state = d at hserial
  cases hserial with
  | nil => exact h₀
  | snoc _ hlast => exact hlast

end Serial

end Sessions
