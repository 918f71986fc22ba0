/-
How a problem comes to be announced.

A problem is announced once its count has reached `confirm_runs`. The count goes
up on every run that has the problem, also on one that only carried it over from
a host that did not answer, and it is saved only with the message of the run: a
refused message keeps the count where it was, whether the run saw the problem or
saw that it is gone. What matters of a count for the announcements is its rung,
the count up to `confirm_runs`; runs that are spared these two cases move the
rung by what they see alone.

* `sightings`: the runs that saw a problem since it was last seen absent;
* `rung`, `nextRung`, `rung_newState`: a saved run moves the rung of a problem one up if
  it has it, and to the ground if it does not;
* `announced_sighted`: **what is announced was seen often enough**, in runs spared the two
  cases; `carried_announced`: a problem seen once;
* `reports_agree`: **the reports do not depend on Telegram**, in runs whose refused
  messages cost nothing; `report_behind_refused`: one that does.
-/
import VpnPortal.Monitor.Report

namespace VpnPortal.Monitor

open Tables

/-! ### What the runs saw -/

/-- The run observed the problem. -/
def Round.sees (r : Round) (key : String) : Bool := (r.observed.get? key).isSome

/-- The run could not look for the problem: its host did not answer. -/
def Round.blind (r : Round) (key : String) : Bool :=
  r.probes.entries.any fun x => x.2.isNone && OfHost x.1 key

/-- A run that sees the problem counts; one that looks and does not see it starts
the count again. -/
def sighting (key : String) (n : ℕ) (r : Round) : ℕ :=
  if r.sees key then n + 1 else if r.blind key then n else 0

/-- The runs that saw the problem since it was last observed absent. -/
def sightings (key : String) (rs : List Round) : ℕ := rs.foldl (sighting key) 0

/-- The state the runs leave, from no state at all. -/
def stateAfter (cfg : Config) (rs : List Round) : State := rs.foldl (fun st r => (run cfg st r).after) {}

lemma sightings_concat (key : String) (rs : List Round) (r : Round) :
    sightings key (rs ++ [r]) = sighting key (sightings key rs) r := by
  simp [sightings]

lemma stateAfter_concat (cfg : Config) (rs : List Round) (r : Round) :
    stateAfter cfg (rs ++ [r]) = (run cfg (stateAfter cfg rs) r).after := by
  simp [stateAfter]

/-! ### What the runs announce -/

/-- The problems a run's report carries. -/
def reportKeys (cfg : Config) (st : State) (r : Round) : List String :=
  (confirmed cfg (newState cfg st r)).map Problem.key

/-- The run sends a red message about the problem or puts it in its report. -/
def Announces (cfg : Config) (st : State) (r : Round) (key : String) : Prop :=
  (.first ∈ told key (run cfg st r).msgs ∨ .reminder ∈ told key (run cfg st r).msgs)
    ∨ key ∈ reportKeys cfg st r

/-- Telegram was asked to take the message of the run and refused. -/
def Refused (cfg : Config) (st : State) (r : Round) : Prop :=
  r.sends = false ∧ (run cfg st r).msgs ≠ []

section Run

variable {cfg : Config} {st : State} {r : Round} {key : String}

lemma after_of_not_refused (h : ¬ Refused cfg st r) : (run cfg st r).after = newState cfg st r := by
  have hmsgs : (run cfg st r).msgs = [] ∨ r.sends = true := by
    by_contra hne
    rw [not_or, Bool.not_eq_true] at hne
    exact h ⟨hne.2, hne.1⟩
  simp only [run] at hmsgs ⊢
  split_ifs at hmsgs ⊢ with hsent
  · rfl
  · simp only [List.isEmpty_iff] at hsent
    exact absurd hmsgs hsent

lemma after_of_refused (h : Refused cfg st r) : (run cfg st r).after = st := by
  refine after_of_failed ?_
  obtain ⟨hsends, hmsgs⟩ := h
  simp only [run] at hmsgs ⊢
  split_ifs at hmsgs ⊢ with hsent
  · simp only [List.isEmpty_iff, hsends, Bool.false_eq_true, or_false] at hsent
    exact absurd hsent hmsgs
  · rfl

lemma mem_confirmed {state : State} : key ∈ (confirmed cfg state).map Problem.key
    ↔ ∃ s, state.problems.get? key = some s ∧ cfg.confirmRuns ≤ s.count := by
  simp only [confirmed, Dict.collect, List.mem_map, List.mem_filterMap, Option.ite_none_right_eq_some]
  constructor
  · rintro ⟨p, ⟨x, hx, hcount, hp⟩, rfl⟩
    obtain rfl := Option.some.inj hp
    exact ⟨x.2, Dict.get?_eq_some_iff.mpr hx, hcount⟩
  · rintro ⟨s, hs, hcount⟩
    exact ⟨_, ⟨(key, s), Dict.get?_eq_some_iff.mp hs, hcount, rfl⟩, rfl⟩

lemma count_keepSeen (old : Dict String Entry) (now : ℚ) (text : String) :
    (keepSeen cfg now old key text).count = ((old.get? key).map Entry.count).getD 0 + 1 := by
  have hseen : (Entry.seen now (old.get? key) text).count
      = ((old.get? key).map Entry.count).getD 0 + 1 := by
    cases old.get? key <;> rfl
  simp only [keepSeen]
  split_ifs <;> exact hseen

lemma blind_iff : r.blind key = true ↔ ∃ name, (name, none) ∈ r.probes.entries ∧ OfHost name key := by
  simp only [Round.blind, List.any_eq_true, Bool.and_eq_true, Option.isNone_iff_eq_none,
    decide_eq_true_eq]
  constructor
  · rintro ⟨⟨name, probe⟩, hx, hnone, hof⟩
    cases hnone
    exact ⟨name, hx, hof⟩
  · rintro ⟨name, hname, hof⟩
    exact ⟨_, hname, rfl, hof⟩

/-- The problems of a run are those it saw and the remembered ones it could not look for. -/
lemma problems_iff : (r.problems st).get? key ≠ none
    ↔ r.sees key = true ∨ (st.problems.get? key ≠ none ∧ r.blind key = true) := by
  rw [ne_eq, get?_carryOver, Round.sees, Option.isSome_iff_ne_none, blind_iff, Carried, not_and_or,
    not_not]

/-! ### Rungs -/

/-- What is remembered of a problem, as far as it matters for the announcements. -/
def rung (cfg : Config) (state : State) (key : String) : Option ℤ :=
  (state.problems.get? key).map fun s => min s.count cfg.confirmRuns

/-- One rung up, from the ground if nothing is remembered. -/
def climb (cfg : Config) (old : Option ℤ) : ℤ := min (old.getD 0 + 1) cfg.confirmRuns

/-- What a run that is saved does to the rung of a problem. -/
def nextRung (cfg : Config) (r : Round) (key : String) (old : Option ℤ) : Option ℤ :=
  if r.sees key then some (climb cfg old)
  else if r.blind key then old.map fun v => climb cfg (some v) else none

lemma min_count_eq_climb (old : Option Entry) :
    min ((old.map Entry.count).getD 0 + 1) cfg.confirmRuns
      = climb cfg (old.map fun s => min s.count cfg.confirmRuns) := by
  cases old with
  | none => rfl
  | some s =>
      simp only [climb, Option.map_some, Option.getD_some]
      omega

/-- What the run is about to save of a problem. -/
lemma rung_newState : rung cfg (newState cfg st r) key = nextRung cfg r key (rung cfg st key) := by
  have hnew : rung cfg (newState cfg st r) key
      = ((r.problems st).get? key).map fun _ => climb cfg (rung cfg st key) := by
    rw [rung, problems_newState, Dict.get?_mapVal, Option.map_map]
    refine congrArg (fun f => Option.map f ((r.problems st).get? key)) (funext fun text => ?_)
    rw [Function.comp_apply, count_keepSeen, min_count_eq_climb]
    rfl
  rw [hnew, nextRung]
  split_ifs with hsees hblind
  · obtain ⟨text, htext⟩ := Option.ne_none_iff_exists'.mp (problems_iff.mpr (Or.inl hsees))
    rw [htext, Option.map_some]
  · cases hold : st.problems.get? key with
    | none =>
        have hgone : (r.problems st).get? key = none := by
          by_contra hne
          rcases problems_iff.mp hne with h | ⟨h, -⟩
          · exact hsees h
          · exact h hold
        rw [hgone]
        simp [rung, hold]
    | some s =>
        obtain ⟨text, htext⟩ := Option.ne_none_iff_exists'.mp
          (problems_iff.mpr (Or.inr ⟨by rw [hold]; exact Option.some_ne_none s, hblind⟩))
        rw [htext]
        simp [rung, hold]
  · have hgone : (r.problems st).get? key = none := by
      by_contra hne
      rcases problems_iff.mp hne with h | ⟨-, h⟩
      · exact hsees h
      · exact hblind h
    rw [hgone]
    rfl

/-- The report carries the problems on the top rung. -/
lemma mem_reportKeys : key ∈ reportKeys cfg st r
    ↔ ∃ v, nextRung cfg r key (rung cfg st key) = some v ∧ cfg.confirmRuns ≤ v := by
  rw [reportKeys, mem_confirmed, ← rung_newState]
  constructor
  · rintro ⟨s, hs, hcount⟩
    exact ⟨_, by rw [rung, hs, Option.map_some], le_min hcount le_rfl⟩
  · rintro ⟨v, hv, hle⟩
    obtain ⟨s, hs, rfl⟩ := Option.map_eq_some_iff.mp hv
    exact ⟨s, hs, hle.trans (min_le_left _ _)⟩

/-- What is announced is in the report. -/
lemma Announces.mem_reportKeys (h : Announces cfg st r key) : key ∈ reportKeys cfg st r := by
  rcases h with hred | h
  · have hred' : ∃ kind ∈ told key (run cfg st r).msgs, kind ≠ Kind.cleared :=
      hred.elim (fun h => ⟨_, h, by decide⟩) fun h => ⟨_, h, by decide⟩
    obtain ⟨kind, htold, hkind⟩ := hred'
    rw [told_run] at htold
    cases hp : (r.problems st).get? key with
    | none =>
        rw [told_step_of_none hp] at htold
        split_ifs at htold
        · exact absurd (List.mem_singleton.mp htold) hkind
        · cases htold
    | some text =>
        rw [told_step_of_some hp, kind_tellSeen] at htold
        by_cases hdue : (Entry.seen r.now (st.problems.get? key) text).Due cfg r.now
        · refine mem_confirmed.mpr ⟨keepSeen cfg r.now st.problems key text, ?_, ?_⟩
          · rw [problems_newState, Dict.get?_mapVal, hp, Option.map_some]
          · rw [count_keepSeen]
            exact (due_seen.mp hdue).1
        · rw [if_neg hdue] at htold
          cases htold
  · exact h

end Run

/-! ### What is announced was seen -/

/-- The run moves no rung without a sighting: a problem it carries over is
confirmed already, and if its message is refused it sees no remembered problem
gone. -/
structure Grounded (cfg : Config) (st : State) (r : Round) : Prop where
  carried : ∀ key s, st.problems.get? key = some s → r.sees key = false → r.blind key = true →
    cfg.confirmRuns ≤ s.count
  refused : Refused cfg st r → ∀ key s, st.problems.get? key = some s →
    r.sees key = true ∨ r.blind key = true

section Sighted

variable {cfg : Config} {st : State} {r : Round} {key : String}

/-- A rung that a saved run reaches was reached by sightings. -/
lemma nextRung_le_sighting {n : ℕ} (hr : Grounded cfg st r) (hst : ∀ v, rung cfg st key = some v → v ≤ n)
    {v : ℤ} (hv : nextRung cfg r key (rung cfg st key) = some v) : v ≤ sighting key n r := by
  rw [nextRung] at hv
  rw [sighting]
  split_ifs at hv ⊢ with hsees hblind
  · obtain rfl := Option.some.inj hv
    have hold : (rung cfg st key).getD 0 ≤ n := by
      cases hrung : rung cfg st key with
      | none => simp
      | some w => simpa using hst w hrung
    rw [climb]
    push_cast
    omega
  · -- carried over: it stood on the top rung already
    obtain ⟨w, hw, rfl⟩ := Option.map_eq_some_iff.mp hv
    obtain ⟨s, hs, rfl⟩ := Option.map_eq_some_iff.mp hw
    have htop := hr.carried key s hs (by simpa using hsees) hblind
    have hle := hst _ hw
    rw [climb, Option.getD_some]
    omega

lemma rung_after_le_sighting {n : ℕ} (hr : Grounded cfg st r)
    (hst : ∀ v, rung cfg st key = some v → v ≤ n) {v : ℤ}
    (hv : rung cfg (run cfg st r).after key = some v) : v ≤ sighting key n r := by
  by_cases hrefused : Refused cfg st r
  · rw [after_of_refused hrefused] at hv
    obtain ⟨s, hs, -⟩ := Option.map_eq_some_iff.mp hv
    have hle := hst v hv
    rw [sighting]
    split_ifs with hsees hblind
    · push_cast
      omega
    · exact hle
    · rcases hr.refused hrefused key s hs with h | h
      · exact absurd h hsees
      · exact absurd h hblind
  · rw [after_of_not_refused hrefused, rung_newState] at hv
    exact nextRung_le_sighting hr hst hv

/-- No rung is higher than the sightings. -/
lemma rung_stateAfter_le {rs : List Round}
    (h : ∀ pre r post, rs = pre ++ r :: post → Grounded cfg (stateAfter cfg pre) r) :
    ∀ v, rung cfg (stateAfter cfg rs) key = some v → v ≤ sightings key rs := by
  induction rs using List.reverseRecOn with
  | nil =>
      intro v hv
      cases hv
  | append_singleton rs r ih =>
      intro v hv
      rw [stateAfter_concat] at hv
      rw [sightings_concat]
      refine rung_after_le_sighting (h rs r [] rfl) (ih fun pre r' post heq => ?_) hv
      exact h pre r' (post ++ [r]) (by rw [heq, List.append_assoc, List.cons_append])

/-- **What is announced was seen often enough.** Along every sequence of runs,
whatever they observe, whichever hosts answer and whichever messages are taken,
in which a run carries over only problems that are confirmed already and a run
whose message is refused sees no remembered problem gone: a run that sends a red
message about a problem or puts it in its report has, with the runs before it,
observed the problem at least `confirm_runs` times since it was last observed
absent. -/
theorem announced_sighted {rs : List Round}
    (h : ∀ pre r post, rs = pre ++ r :: post → Grounded cfg (stateAfter cfg pre) r) :
    ∀ pre r post, rs = pre ++ r :: post → ∀ key, Announces cfg (stateAfter cfg pre) r key →
      cfg.confirmRuns ≤ sightings key (pre ++ [r]) := by
  intro pre r post heq key hann
  obtain ⟨v, hv, hle⟩ := mem_reportKeys.mp hann.mem_reportKeys
  have hpre : ∀ w, rung cfg (stateAfter cfg pre) key = some w → w ≤ sightings key pre := by
    refine rung_stateAfter_le fun pre' r' post' heq' => h pre' r' (post' ++ r :: post) ?_
    rw [heq, heq', List.append_assoc, List.cons_append]
  rw [sightings_concat]
  exact hle.trans (nextRung_le_sighting (h pre r post heq) hpre hv)

end Sighted

/-- The exit's disk is nearly full. -/
def diskCall : Call := .done "host=exit\ndisk_root_pct=90\nuptime_s=86400\n"

/-- The round of a look at the exit. -/
def exitSeen (now : ℚ) (call : Call) (sends : Bool) (h : (observe exitSetup (exitLook now call sends)).isSome) :
    Round :=
  (observe exitSetup (exitLook now call sends)).get h

/-- One run after another meets the condition. -/
def Along (cfg : Config) (P : State → Round → Prop) : State → List Round → Prop
  | _, [] => True
  | st, r :: rest => P st r ∧ Along cfg P (run cfg st r).after rest

lemma Along.split {cfg : Config} {P : State → Round → Prop} {st : State} {rs : List Round}
    (h : Along cfg P st rs) (pre : List Round) (r : Round) (post : List Round)
    (heq : rs = pre ++ r :: post) : P (pre.foldl (fun st r => (run cfg st r).after) st) r := by
  subst heq
  induction pre generalizing st with
  | nil => exact h.1
  | cons x pre ih => exact ih h.2

/-- A run whose message is taken is grounded if what it carries over is confirmed. -/
lemma grounded_of_sends {cfg : Config} {st : State} {r : Round} (hsends : r.sends = true)
    (h : ∀ x ∈ st.problems.entries, r.sees x.1 = true ∨ r.blind x.1 = false ∨
      cfg.confirmRuns ≤ x.2.count) : Grounded cfg st r := by
  refine ⟨fun key s hs hsees hblind => ?_, fun hrefused => ?_⟩
  · rcases h _ (Dict.get?_eq_some_iff.mp hs) with h | h | h
    · exact absurd h (by simp [hsees])
    · exact absurd h (by simp [hblind])
    · exact h
  · exact absurd hrefused.1 (by simp [hsends])

lemma observe_exitSeen {now : ℚ} {call : Call} {sends : Bool}
    (h : (observe exitSetup (exitLook now call sends)).isSome) :
    observe exitSetup (exitLook now call sends) = some (exitSeen now call sends h) :=
  (Option.some_get h).symm

/-- The disk was seen full, and then the exit does not answer. -/
def diskOnce : Round := exitSeen 120 diskCall true (by decide)

def diskTwice : Round := exitSeen 240 diskCall true (by decide +kernel)

def exitGone : Round := exitSeen 360 .timeout true (by decide)

/-- Seen twice and then carried over: it is announced on the second and on the
third run, with two sightings. -/
theorem announced_sighted_exit :
    Announces usual (stateAfter usual [diskOnce, diskTwice]) exitGone "exit:disk"
      ∧ usual.confirmRuns ≤ sightings "exit:disk" [diskOnce, diskTwice, exitGone] := by
  have hann : Announces usual (stateAfter usual [diskOnce, diskTwice]) exitGone "exit:disk" :=
    Or.inr (by decide +kernel)
  have halong : Along usual (Grounded usual) {} [diskOnce, diskTwice, exitGone] :=
    ⟨grounded_of_sends (by decide) (by decide),
      grounded_of_sends (by decide) (by decide),
      grounded_of_sends (by decide) (by decide), trivial⟩
  exact ⟨hann, announced_sighted halong.split [diskOnce, diskTwice] exitGone [] rfl "exit:disk" hann⟩

/-- **A problem that was seen once is announced.** The exit's disk is nearly full
on one run and the exit does not answer on the next: the second run carries the
problem over, counts it again and puts it in its report. -/
theorem carried_announced :
    ¬ ∀ (looks : List (Look ℚ)) (pre : List Round) (r : Round) (post : List Round),
      looks.filterMap (observe exitSetup) = pre ++ r :: post → ∀ key,
      Announces usual (stateAfter usual pre) r key →
      usual.confirmRuns ≤ sightings key (pre ++ [r]) := by
  intro h
  have hlooks : [exitLook 120 diskCall true, exitLook 360 .timeout true].filterMap (observe exitSetup)
      = [diskOnce] ++ exitGone :: [] := by
    rw [List.filterMap_cons_some (observe_exitSeen (by decide)),
      List.filterMap_cons_some (observe_exitSeen (by decide))]
    rfl
  have hann : Announces usual (stateAfter usual [diskOnce]) exitGone "exit:disk" :=
    Or.inr (by decide)
  exact absurd (h _ _ _ _ hlooks "exit:disk" hann) (by decide)

/-! ### The reports without Telegram -/

/-- A refused message costs the run nothing: every problem of the run is one the
state has as confirmed, and none of the remembered ones is gone. -/
structure Harmless (cfg : Config) (st : State) (r : Round) : Prop where
  known : ∀ key, r.sees key = true →
    ∃ s, st.problems.get? key = some s ∧ cfg.confirmRuns ≤ s.count
  carried : ∀ key s, st.problems.get? key = some s → r.sees key = false → r.blind key = true →
    cfg.confirmRuns ≤ s.count
  kept : ∀ key s, st.problems.get? key = some s → r.sees key = true ∨ r.blind key = true

/-- The rung of a problem after runs that are all saved. -/
def rungAfter (cfg : Config) (key : String) (rs : List Round) : Option ℤ :=
  rs.foldl (fun old r => nextRung cfg r key old) none

/-- The same runs, but for what Telegram takes. -/
def SameLooks (rs rs' : List Round) : Prop :=
  List.Forall₂ (fun r r' => r' = { r with sends := r'.sends }) rs rs'

section Telegram

variable {cfg : Config} {st : State} {r : Round} {key : String}

lemma climb_top {v : ℤ} (h : cfg.confirmRuns ≤ v) :
    climb cfg (some (min v cfg.confirmRuns)) = min v cfg.confirmRuns := by
  rw [climb, Option.getD_some]
  omega

/-- A harmless run leaves the rungs where a saved one does. -/
lemma rung_after (h : Refused cfg st r → Harmless cfg st r) :
    rung cfg (run cfg st r).after key = nextRung cfg r key (rung cfg st key) := by
  by_cases hrefused : Refused cfg st r
  · obtain ⟨hknown, hcarried, hkept⟩ := h hrefused
    rw [after_of_refused hrefused, nextRung]
    split_ifs with hsees hblind
    · obtain ⟨s, hs, htop⟩ := hknown key hsees
      rw [rung, hs, Option.map_some, climb_top htop]
    · cases hs : st.problems.get? key with
      | none => simp [rung, hs]
      | some s =>
          have htop := hcarried key s hs (by simpa using hsees) hblind
          rw [rung, hs, Option.map_some, Option.map_some, climb_top htop]
    · cases hs : st.problems.get? key with
      | none => simp [rung, hs]
      | some s =>
          rcases hkept key s hs with h | h
          · exact absurd h hsees
          · exact absurd h hblind
  · rw [after_of_not_refused hrefused, rung_newState]

/-- So after harmless runs every rung is where what they saw puts it. -/
lemma rung_stateAfter {rs : List Round} (h : ∀ pre r post, rs = pre ++ r :: post →
    Refused cfg (stateAfter cfg pre) r → Harmless cfg (stateAfter cfg pre) r) :
    rung cfg (stateAfter cfg rs) key = rungAfter cfg key rs := by
  induction rs using List.reverseRecOn with
  | nil => rfl
  | append_singleton rs r ih =>
      have hrs := ih fun pre r' post heq =>
        h pre r' (post ++ [r]) (by rw [heq, List.append_assoc, List.cons_append])
      rw [stateAfter_concat, rung_after (h rs r [] rfl), hrs]
      simp [rungAfter]

lemma SameLooks.rungAfter_eq {rs rs' : List Round} (h : SameLooks rs rs') (key : String) :
    rungAfter cfg key rs = rungAfter cfg key rs' := by
  have hfold : ∀ old, rs.foldl (fun old r => nextRung cfg r key old) old
      = rs'.foldl (fun old r => nextRung cfg r key old) old := by
    induction h with
    | nil => exact fun old => rfl
    | @cons r r' rs rs' hr _ ih =>
        intro old
        rw [List.foldl_cons, List.foldl_cons, ih, hr]
        rfl
  exact hfold none

/-- What is remembered was counted at least once. -/
lemma one_le_rungAfter {rs : List Round} {v : ℤ} (h : rungAfter cfg key rs = some v) :
    min 1 cfg.confirmRuns ≤ v := by
  induction rs using List.reverseRecOn generalizing v with
  | nil => cases h
  | append_singleton rs r ih =>
      have hlow : min 1 cfg.confirmRuns ≤ climb cfg (rungAfter cfg key rs) := by
        rw [climb]
        cases hold : rungAfter cfg key rs with
        | none => simp
        | some w =>
            have hw := ih hold
            rw [Option.getD_some]
            omega
      rw [rungAfter, List.foldl_append, List.foldl_cons, List.foldl_nil, nextRung] at h
      split_ifs at h
      · obtain rfl := Option.some.inj h
        exact hlow
      · obtain ⟨w, hw, rfl⟩ := Option.map_eq_some_iff.mp h
        rw [rungAfter, hw] at hlow
        exact hlow

/-- Runs that all see a problem climb to the top. -/
lemma le_rungAfter {rs : List Round} (pre : List Round) (hne : rs ≠ [])
    (hsees : ∀ r ∈ rs, r.sees key = true) (hlong : cfg.confirmRuns ≤ rs.length) :
    ∃ v, rungAfter cfg key (pre ++ rs) = some v ∧ cfg.confirmRuns ≤ v := by
  have hclimb : ∀ rs : List Round, rs ≠ [] → (∀ r ∈ rs, r.sees key = true) →
      ∃ v, rungAfter cfg key (pre ++ rs) = some v ∧ min (rs.length : ℤ) cfg.confirmRuns ≤ v := by
    intro rs
    induction rs using List.reverseRecOn with
    | nil => exact fun h => absurd rfl h
    | append_singleton rs r ih =>
        intro _ hall
        have hlast : rungAfter cfg key (pre ++ (rs ++ [r]))
            = some (climb cfg (rungAfter cfg key (pre ++ rs))) := by
          rw [← List.append_assoc, rungAfter, List.foldl_append, List.foldl_cons, List.foldl_nil, nextRung,
            if_pos (hall r (by simp))]
          rfl
        refine ⟨_, hlast, ?_⟩
        rcases eq_or_ne rs [] with rfl | hrs
        · have hone := one_le_rungAfter hlast
          simpa using hone
        · rw [climb, List.length_append, List.length_singleton]
          obtain ⟨v, hv, hle⟩ := ih hrs fun r hr => hall r (by simp [hr])
          rw [hv, Option.getD_some]
          push_cast
          omega
  obtain ⟨v, hv, hle⟩ := hclimb rs hne hsees
  exact ⟨v, hv, by omega⟩

/-- The problem was observed on the last `confirm_runs` runs, the last one at
least. -/
def LastSeen (cfg : Config) (key : String) (rs : List Round) : Prop :=
  ∃ a b, rs = a ++ b ∧ b ≠ [] ∧ cfg.confirmRuns ≤ b.length ∧ ∀ r ∈ b, r.sees key = true

/-- The report of a run after harmless ones carries what they and it saw. -/
lemma mem_reportKeys_of_harmless {pre : List Round} (r : Round)
    (h : ∀ a r b, pre = a ++ r :: b → Refused cfg (stateAfter cfg a) r →
      Harmless cfg (stateAfter cfg a) r) :
    key ∈ reportKeys cfg (stateAfter cfg pre) r
      ↔ ∃ v, rungAfter cfg key (pre ++ [r]) = some v ∧ cfg.confirmRuns ≤ v := by
  rw [mem_reportKeys, rung_stateAfter h]
  simp [rungAfter]

/-- **The reports do not depend on Telegram.** For every sequence of runs and
every two patterns of what Telegram takes, in which a refused message always
costs nothing: the problem keys of the reports are the same after every run, and
a problem that was observed on the last `confirm_runs` runs is in the report,
whatever was refused. -/
theorem reports_agree {rs rs' : List Round} (hsame : SameLooks rs rs')
    (h : ∀ a r b, rs = a ++ r :: b → Refused cfg (stateAfter cfg a) r →
      Harmless cfg (stateAfter cfg a) r)
    (h' : ∀ a r b, rs' = a ++ r :: b → Refused cfg (stateAfter cfg a) r →
      Harmless cfg (stateAfter cfg a) r) :
    (∀ pre r post pre' r' post', rs = pre ++ r :: post → rs' = pre' ++ r' :: post' →
        pre.length = pre'.length → ∀ key,
        key ∈ reportKeys cfg (stateAfter cfg pre) r ↔ key ∈ reportKeys cfg (stateAfter cfg pre') r')
      ∧ ∀ pre r post, rs = pre ++ r :: post → ∀ key, LastSeen cfg key (pre ++ [r]) →
        key ∈ reportKeys cfg (stateAfter cfg pre) r := by
  -- the runs before one of them are harmless too
  have hpre : ∀ {rs pre : List Round} {r : Round} {post : List Round}, rs = pre ++ r :: post →
      (∀ a r b, rs = a ++ r :: b → Refused cfg (stateAfter cfg a) r →
        Harmless cfg (stateAfter cfg a) r) →
      ∀ a r' b, pre = a ++ r' :: b → Refused cfg (stateAfter cfg a) r' →
        Harmless cfg (stateAfter cfg a) r' := by
    intro rs pre r post heq hall a r' b hab
    exact hall a r' (b ++ r :: post) (by rw [heq, hab, List.append_assoc, List.cons_append])
  refine ⟨?_, ?_⟩
  · intro pre r post pre' r' post' heq heq' hlen key
    rw [mem_reportKeys_of_harmless r (hpre heq h), mem_reportKeys_of_harmless r' (hpre heq' h')]
    have hlooks : SameLooks (pre ++ [r]) (pre' ++ [r']) := by
      subst heq heq'
      have htake := List.forall₂_take (pre.length + 1) hsame
      rw [List.append_cons, List.append_cons pre', List.take_left' (by simp),
        List.take_left' (by simp [hlen])] at htake
      exact htake
    rw [hlooks.rungAfter_eq]
  · rintro pre r post heq key ⟨a, b, hab, hne, hlong, hsees⟩
    rw [mem_reportKeys_of_harmless r (hpre heq h), hab]
    exact le_rungAfter a hne hsees hlong

/-- A run is harmless if every problem it saw and every remembered one is
confirmed already, and it looked for none of these in vain. -/
lemma harmless_of_entries
    (hknown : ∀ x ∈ r.observed.entries, (st.problems.get? x.1).any (cfg.confirmRuns ≤ ·.count) = true)
    (hkept : ∀ x ∈ st.problems.entries, cfg.confirmRuns ≤ x.2.count ∧
      (r.sees x.1 = true ∨ r.blind x.1 = true)) : Harmless cfg st r := by
  refine ⟨fun key hsees => ?_, fun key s hs _ _ => (hkept _ (Dict.get?_eq_some_iff.mp hs)).1,
    fun key s hs => (hkept _ (Dict.get?_eq_some_iff.mp hs)).2⟩
  obtain ⟨text, htext⟩ := Option.isSome_iff_exists.mp hsees
  have hany := hknown _ (Dict.get?_eq_some_iff.mp htext)
  cases hs : st.problems.get? key with
  | none => simp [hs] at hany
  | some s => exact ⟨s, rfl, by simpa [hs] using hany⟩

end Telegram

/-- The exit is down on three runs; whether or not the reminder on the third is
taken, it is in the report. -/
theorem reports_agree_exit :
    (∀ key, key ∈ reportKeys usual (stateAfter usual [exitRound 120 true true, exitRound 240 true true])
        (exitRound 21840 true true)
      ↔ key ∈ reportKeys usual (stateAfter usual [exitRound 120 true true, exitRound 240 true true])
        (exitRound 21840 true false))
      ∧ "exit:down" ∈ reportKeys usual
        (stateAfter usual [exitRound 120 true true, exitRound 240 true true])
        (exitRound 21840 true true) := by
  have hboth : ∀ sends, Along usual (fun st r => Refused usual st r → Harmless usual st r) {}
      [exitRound 120 true true, exitRound 240 true true, exitRound 21840 true sends] := by
    intro sends
    refine ⟨fun h => absurd h.1 (by decide), fun h => absurd h.1 (by decide), fun _ => ?_, trivial⟩
    cases sends <;> exact harmless_of_entries (by decide) (by decide)
  have hsame : SameLooks [exitRound 120 true true, exitRound 240 true true, exitRound 21840 true true]
      [exitRound 120 true true, exitRound 240 true true, exitRound 21840 true false] :=
    .cons rfl (.cons rfl (.cons rfl .nil))
  obtain ⟨hkeys, hseen⟩ := reports_agree hsame (hboth true).split (hboth false).split
  refine ⟨hkeys _ _ [] _ _ [] rfl rfl rfl, hseen _ _ [] rfl "exit:down" ⟨[], _, rfl, by simp, ?_, ?_⟩⟩
  all_goals decide

/-! ### A disk behind a message that is refused -/

/-- The entry and the exit. -/
def pairSetup : Setup ℚ :=
  { cfg := usual, limits := usualLimits, hosts := ⟨[("entry", {}), ("exit", {})], by simp⟩ }

/-- The entry does not answer; the exit does. -/
def pairLook (now : ℚ) (exit : Call) (sends : Bool) : Look ℚ :=
  ⟨now, fun name => if name = "exit" then exit else .timeout, fun _ => (now, now), fun _ => "",
    fun _ => .ok 60, sends⟩

def fineCall : Call := .done "host=exit\ndisk_root_pct=40\nuptime_s=86400\n"

/-- The entry is down on four runs; the exit's disk is nearly full on the last two. -/
def pairLooks (sends : Bool) : List (Look ℚ) :=
  [pairLook 120 fineCall sends, pairLook 240 fineCall sends, pairLook 360 diskCall sends,
    pairLook 480 diskCall sends]

/-- The rounds of these looks. -/
def pairRounds (sends : Bool) : List Round := (pairLooks sends).filterMap (observe pairSetup)

lemma pairRounds_ne (sends : Bool) : pairRounds sends ≠ [] := by
  have hlong : (pairRounds sends).length = 4 := by cases sends <;> decide +kernel
  exact List.ne_nil_of_length_pos (by omega)

/-- **The report depends on an unrelated message.** The entry is down, and its red
message is refused on every run. While it waits, nothing is saved: the exit's
disk, seen on the last two runs, is counted once on each, and is in the report
only if the entry's message was taken. -/
theorem report_behind_refused :
    ¬ ∀ looks looks' : List (Look ℚ),
      List.Forall₂ (fun l l' => l' = { l with sends := l'.sends }) looks looks' →
      ∀ pre r post pre' r' post', looks.filterMap (observe pairSetup) = pre ++ r :: post →
      looks'.filterMap (observe pairSetup) = pre' ++ r' :: post' → pre.length = pre'.length → ∀ key,
      key ∈ reportKeys usual (stateAfter usual pre) r
        ↔ key ∈ reportKeys usual (stateAfter usual pre') r' := by
  intro h
  have hlooks : List.Forall₂ (fun l l' : Look ℚ => l' = { l with sends := l'.sends }) (pairLooks true)
      (pairLooks false) := .cons rfl (.cons rfl (.cons rfl (.cons rfl .nil)))
  have hsplit : ∀ sends, pairRounds sends
      = (pairRounds sends).dropLast ++ (pairRounds sends).getLast (pairRounds_ne sends) :: [] :=
    fun sends => (List.dropLast_append_getLast _).symm
  have hkey := h _ _ hlooks _ _ _ _ _ _ (hsplit true) (hsplit false) (by decide) "exit:disk"
  exact absurd (hkey.mp (by decide +kernel)) (by decide +kernel)

end VpnPortal.Monitor
