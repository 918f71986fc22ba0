/-
Delivered alerts form episodes.

For one problem, what Telegram has taken is a first red message, reminders, and
one green message, over and over; the state that is saved after a run that
completed says where in this pattern the problem stands (`Ran.episodes`). A run
that did not complete has changed nothing, so the next one says the same again
as long as there is reason to.

* `delivered`: what was delivered about a problem; `Episodes`: the pattern;
* `told_run`: what one run says about one problem, by what is remembered and seen;
* `alerts_in_episodes`: along every sequence of runs the deliveries are such episodes, with
  reminders far enough apart, and a green message comes with the first completed run that
  does not have the problem.
-/
import VpnPortal.Monitor.Watch

namespace VpnPortal.Monitor

open Tables

/-! ### The pattern -/

/-- What a message says about a problem. -/
def Message.kindFor (key : String) (m : Message) : Option Kind :=
  m.about.bind fun x => if x.1 = key then some x.2 else none

/-- What the messages say about a problem. -/
def told (key : String) (msgs : List Message) : List Kind := msgs.filterMap (Message.kindFor key)

/-- What a run delivered about a problem, with its time. -/
def Outcome.delivered (key : String) (o : Outcome) : List (ℚ × Kind) :=
  if o.completed then (told key o.msgs).map fun kind => (o.round.now, kind) else []

/-- What the runs delivered about a problem. -/
def delivered (key : String) (h : List Outcome) : List (ℚ × Kind) := h.flatMap (Outcome.delivered key)

/-- Episodes one after another: a first red message, reminders at least `gap`
after the red message before them, a green message. The second argument is the
time of the last red message of an episode that is still open. -/
inductive Episodes (gap : ℚ) : List (ℚ × Kind) → Option ℚ → Prop where
  | nil : Episodes gap [] none
  | first {l : List (ℚ × Kind)} {t : ℚ} : Episodes gap l none →
      Episodes gap (l ++ [(t, .first)]) (some t)
  | reminder {l : List (ℚ × Kind)} {t t' : ℚ} : Episodes gap l (some t) → gap ≤ t' - t →
      Episodes gap (l ++ [(t', .reminder)]) (some t')
  | cleared {l : List (ℚ × Kind)} {t t' : ℚ} : Episodes gap l (some t) →
      Episodes gap (l ++ [(t', .cleared)]) none

/-- The last message about the problem was a red one. -/
def RedLast (l : List (ℚ × Kind)) : Prop := ∃ x, l.getLast? = some x ∧ x.2 ≠ .cleared

lemma Episodes.open_of_redLast {gap : ℚ} {l : List (ℚ × Kind)} {o : Option ℚ} (h : Episodes gap l o)
    (hl : RedLast l) : o ≠ none := by
  obtain ⟨x, hx, hkind⟩ := hl
  cases h with
  | nil => simp at hx
  | first => simp
  | reminder => simp
  | cleared =>
      rw [List.getLast?_concat] at hx
      obtain rfl := Option.some.inj hx
      exact absurd rfl hkind

/-! ### What one run says -/

/-- The time of the last red message about the problem, if it is open. -/
def State.openSince (state : State) (key : String) : Option ℚ :=
  (state.problems.get? key).bind fun s => if s.sent = 0 then none else some s.sent

/-- A remembered problem that the run keeps although it could not look. -/
def Carried (state : State) (probes : Dict String (Option Probe)) (key : String) : Prop :=
  state.problems.get? key ≠ none ∧ ∃ name, (name, none) ∈ probes.entries ∧ OfHost name key

/-- The run observed the problem or carried it over. -/
def Outcome.Active (o : Outcome) (key : String) : Prop :=
  o.round.observed.get? key ≠ none ∨ Carried o.before o.round.probes key

section CarryOver

variable {state : State} {key : String}

lemma get?_foldl_setdefault (name : String) (l : List (String × Entry)) (d : Dict String String) :
    (l.foldl (fun acc x => if OfHost name x.1 then acc.setdefault x.1 x.2.text else acc) d).get? key
        = none
      ↔ d.get? key = none ∧ ∀ s, (key, s) ∈ l → ¬ OfHost name key := by
  induction l generalizing d with
  | nil => simp
  | cons x rest ih =>
      rw [List.foldl_cons, ih]
      have hhead : (if OfHost name x.1 then d.setdefault x.1 x.2.text else d).get? key = none
          ↔ d.get? key = none ∧ (key = x.1 → ¬ OfHost name key) := by
        split_ifs with hx
        · rw [Dict.get?_setdefault]
          refine and_congr_right fun _ => ⟨fun hne heq => absurd heq hne, ?_⟩
          rintro himp rfl
          exact himp rfl hx
        · refine (and_iff_left ?_).symm
          rintro rfl
          exact hx
      rw [hhead, and_assoc]
      refine and_congr_right fun _ => ⟨?_, fun h => ⟨?_, fun s hs => h s (List.mem_cons_of_mem _ hs)⟩⟩
      · rintro ⟨hx, hrest⟩ s hs
        rcases List.mem_cons.mp hs with rfl | hs
        · exact hx rfl
        · exact hrest s hs
      · rintro rfl
        exact h x.2 List.mem_cons_self

lemma get?_keepHost (name : String) (d : Dict String String) :
    (keepHost state name d).get? key = none
      ↔ d.get? key = none ∧ (state.problems.get? key ≠ none → ¬ OfHost name key) := by
  rw [keepHost, get?_foldl_setdefault]
  refine and_congr_right fun _ => ⟨fun h hne => ?_, fun h s hs => h ?_⟩
  · obtain ⟨s, hs⟩ := Option.ne_none_iff_exists'.mp hne
    exact h s (Dict.get?_eq_some_iff.mp hs)
  · rw [Dict.get?_eq_some_iff.mpr hs]
    simp

/-- A problem is on the run exactly when it was observed or carried over. -/
lemma get?_carryOver (probes : Dict String (Option Probe)) (observed : Dict String String) :
    (carryOver state probes observed).get? key = none
      ↔ observed.get? key = none ∧ ¬ Carried state probes key := by
  have hfold : ∀ (l : List (String × Option Probe)) (d : Dict String String),
      (l.foldl (carryHost state) d).get? key = none
      ↔ d.get? key = none ∧ ∀ name, (name, none) ∈ l → state.problems.get? key ≠ none →
        ¬ OfHost name key := by
    intro l
    induction l with
    | nil => simp
    | cons x rest ih =>
        intro d
        obtain ⟨name, probe⟩ := x
        rw [List.foldl_cons, ih]
        cases probe with
        | none =>
            rw [carryHost, get?_keepHost, and_assoc]
            simp only [List.mem_cons, Prod.mk.injEq, and_true]
            refine and_congr_right fun _ => ⟨?_, fun h => ⟨h name (Or.inl rfl), fun n hn =>
              h n (Or.inr hn)⟩⟩
            rintro ⟨hhead, hrest⟩ n (rfl | hn)
            · exact hhead
            · exact hrest n hn
        | some p => simp [carryHost]
  rw [carryOver, hfold]
  refine and_congr_right fun _ => ⟨?_, fun h name hname hne hof => h ⟨hne, name, hname, hof⟩⟩
  rintro h ⟨hne, name, hname, hof⟩
  exact h name hname hne hof

end CarryOver

section Told

variable {cfg : Config} {now : ℚ} {state : State} {problems : Dict String String} {key : String}

lemma kindFor_tellSeen {old : Dict String Entry} {l text : String} {m : Message}
    (h : tellSeen cfg now old l text = some m) : ∃ kind, m.about = some (l, kind) := by
  simp only [tellSeen] at h
  split_ifs at h with hdue hsent
  · cases h
    exact ⟨_, rfl⟩
  · cases h
    exact ⟨_, rfl⟩

lemma kindFor_tellGone {l : String} {s : Entry} {m : Message}
    (h : tellGone now problems l s = some m) : ∃ kind, m.about = some (l, kind) := by
  simp only [tellGone] at h
  split_ifs at h
  cases h
  exact ⟨_, rfl⟩

lemma kindFor_of_ne {l : String} {m : Message} (h : ∃ kind, m.about = some (l, kind)) (hne : l ≠ key) :
    m.kindFor key = none := by
  obtain ⟨kind, hm⟩ := h
  simp [Message.kindFor, hm, hne]

/-- What `step` says about a problem of this run. -/
lemma told_step_of_some {text : String} (h : problems.get? key = some text) :
    told key (step cfg now state problems).1
      = ((tellSeen cfg now state.problems key text).bind (Message.kindFor key)).toList := by
  have hgone : ∀ s, (tellGone now problems key s).bind (Message.kindFor key) = none := by
    intro s
    simp [tellGone, h]
  rw [step, told, List.filterMap_append,
    Dict.filterMap_collect fun l v m hne hm => kindFor_of_ne (kindFor_tellSeen hm) hne,
    Dict.filterMap_collect fun l v m hne hm => kindFor_of_ne (kindFor_tellGone hm) hne, h]
  cases state.problems.get? key with
  | none => simp
  | some s => simp [hgone s]

/-- What `step` says about a problem that this run does not have. -/
lemma told_step_of_none (h : problems.get? key = none) :
    told key (step cfg now state problems).1
      = if (state.openSince key).isSome then [.cleared] else [] := by
  rw [step, told, List.filterMap_append,
    Dict.filterMap_collect fun l v m hne hm => kindFor_of_ne (kindFor_tellSeen hm) hne,
    Dict.filterMap_collect fun l v m hne hm => kindFor_of_ne (kindFor_tellGone hm) hne, h]
  cases hold : state.problems.get? key with
  | none => simp [State.openSince, hold]
  | some s =>
      by_cases hs : s.sent = 0
      · simp [State.openSince, hold, tellGone, h, hs]
      · simp [State.openSince, hold, tellGone, h, hs, Message.kindFor]

/-- What the red message about a problem of this run is. -/
lemma kind_tellSeen (old : Dict String Entry) (text : String) :
    (tellSeen cfg now old key text).bind (Message.kindFor key)
      = if (Entry.seen now (old.get? key) text).Due cfg now then
          some (if (Entry.seen now (old.get? key) text).sent = 0 then .first else .reminder)
        else none := by
  simp only [tellSeen]
  split_ifs <;> simp [Message.kindFor]

lemma sent_seen (old : Option Entry) (text : String) :
    (Entry.seen now old text).sent = (old.map Entry.sent).getD 0 := by
  cases old <;> rfl

lemma sent_keepSeen (old : Dict String Entry) (text : String) :
    (keepSeen cfg now old key text).sent
      = if (Entry.seen now (old.get? key) text).Due cfg now then now
        else ((old.get? key).map Entry.sent).getD 0 := by
  simp only [keepSeen]
  split_ifs
  · rfl
  · exact sent_seen _ _

lemma openSince_eq (state : State) (key : String) :
    state.openSince key = (if ((state.problems.get? key).map Entry.sent).getD 0 = 0 then none
      else some (((state.problems.get? key).map Entry.sent).getD 0)) := by
  unfold State.openSince
  cases state.problems.get? key with
  | none => simp
  | some s => simp

end Told

/-! ### One run -/

section Run

variable {cfg : Config} {state : State} {r : Round} {key : String}

lemma told_of_none (key : String) {msgs : List Message} (h : ∀ m ∈ msgs, m.about = none) : told key msgs = [] := by
  refine List.filterMap_eq_nil_iff.mpr fun m hm => ?_
  simp [Message.kindFor, h m hm]

lemma about_reboots (state : State) (probes : Dict String (Option Probe)) (now : ℚ) :
    ∀ m ∈ (reboots state probes now).1, m.about = none := by
  have hfold : ∀ (l : List (String × Option Probe)) (acc : List Message × List Notice × Dict String ℚ),
      (∀ m ∈ acc.1, m.about = none) →
      ∀ m ∈ (l.foldl (fun acc x => rebootOf now acc x.1 x.2) acc).1, m.about = none := by
    intro l
    induction l with
    | nil => exact fun acc h => h
    | cons x rest ih =>
        intro acc h
        refine ih _ ?_
        show ∀ m ∈ (rebootOf now acc x.1 x.2).1, m.about = none
        simp only [rebootOf]
        split
        · exact h
        · split
          · exact h
          · split_ifs
            · intro m hm
              rcases List.mem_append.mp hm with hm | hm
              · exact h m hm
              · rw [List.mem_singleton.mp hm]
            · exact h
  exact hfold probes.entries _ (by simp)

lemma about_withDigest (cfg : Config) (state : State) (probes : Dict String (Option Probe))
    (problems : Dict String String) (now : ℚ) :
    ∀ m ∈ (withDigest cfg state probes problems now).1, m.about = none := by
  unfold withDigest
  split_ifs
  · intro m hm
    rw [List.mem_singleton.mp hm]
  · simp

lemma problems_withDigest (state : State) (probes : Dict String (Option Probe))
    (problems : Dict String String) (now : ℚ) :
    (withDigest cfg state probes problems now).2.problems = state.problems := by
  unfold withDigest
  split_ifs <;> rfl

/-- The problems of the run. -/
abbrev Round.problems (r : Round) (state : State) : Dict String String :=
  carryOver state r.probes r.observed

@[simp] lemma run_before : (run cfg state r).before = state := by
  simp only [run]
  split_ifs <;> rfl

@[simp] lemma run_round : (run cfg state r).round = r := by
  simp only [run]
  split_ifs <;> rfl

/-- What a run has to say about a problem is what `step` says about it. -/
lemma told_run : told key (run cfg state r).msgs
    = told key (step cfg r.now state (r.problems state)).1 := by
  have hmsgs : (run cfg state r).msgs = (step cfg r.now state (r.problems state)).1
      ++ (reboots (step cfg r.now state (r.problems state)).2 r.probes r.now).1
      ++ (withDigest cfg (reboots (step cfg r.now state (r.problems state)).2 r.probes r.now).2
          r.probes (r.problems state) r.now).1 := by
    simp only [run]
    split_ifs <;> rfl
  rw [hmsgs, told, List.filterMap_append, List.filterMap_append]
  have hboots := told_of_none key
    (about_reboots (step cfg r.now state (r.problems state)).2 r.probes r.now)
  have hdigest := told_of_none key (about_withDigest cfg
    (reboots (step cfg r.now state (r.problems state)).2 r.probes r.now).2 r.probes
    (r.problems state) r.now)
  rw [told] at hboots hdigest
  rw [hboots, hdigest, List.append_nil, List.append_nil, told]

lemma after_of_completed (h : (run cfg state r).completed = true) :
    (run cfg state r).after.problems
      = (r.problems state).mapVal (keepSeen cfg r.now state.problems) := by
  simp only [run] at h ⊢
  split_ifs at h ⊢
  rw [problems_withDigest]
  rfl

lemma after_of_failed (h : (run cfg state r).completed = false) :
    (run cfg state r).after = state := by
  simp only [run] at h ⊢
  split_ifs at h ⊢
  rfl

end Run

/-! ### Sequences of runs -/

section Runs

variable {cfg : Config} {state : State} {r : Round} {key : String} {h : List Outcome}

lemma active_iff : (run cfg state r).Active key ↔ (r.problems state).get? key ≠ none := by
  rw [Outcome.Active, run_round, run_before, ne_eq, ne_eq, get?_carryOver]
  tauto

/-- A completed run moves the problem along the pattern. -/
lemma Episodes.step {l : List (ℚ × Kind)} (hl : Episodes cfg.remindS l (state.openSince key))
    (hnow : 0 < r.now) (hdone : (run cfg state r).completed = true) :
    Episodes cfg.remindS (l ++ (run cfg state r).delivered key)
      ((run cfg state r).after.openSince key) := by
  rw [Outcome.delivered, if_pos hdone, told_run, run_round, openSince_eq, after_of_completed hdone,
    Dict.get?_mapVal]
  rw [openSince_eq] at hl
  cases hp : (r.problems state).get? key with
  | none =>
      rw [told_step_of_none hp, openSince_eq]
      by_cases hsent : ((state.problems.get? key).map Entry.sent).getD 0 = 0
      · simpa [hsent] using hl
      · rw [if_neg hsent] at hl ⊢
        simpa using hl.cleared
  | some text =>
      rw [told_step_of_some hp, kind_tellSeen, sent_seen, Option.map_some, Option.map_some,
        Option.getD_some, sent_keepSeen]
      by_cases hdue : (Entry.seen r.now (state.problems.get? key) text).Due cfg r.now
      · have hgap := hdue.2
        rw [sent_seen] at hgap
        simp only [if_pos hdue, if_neg hnow.ne']
        by_cases hsent : ((state.problems.get? key).map Entry.sent).getD 0 = 0
        · rw [if_pos hsent] at hl
          simpa [hsent] using hl.first
        · rw [if_neg hsent] at hl
          simpa [hsent] using hl.reminder (hgap.resolve_left hsent)
      · simpa [if_neg hdue] using hl

/-- The saved state stands where the delivered messages do. -/
lemma Ran.episodes (hran : Ran cfg h state) (key : String) :
    Episodes cfg.remindS (Monitor.delivered key h) (state.openSince key) := by
  induction hran with
  | nil => exact .nil
  | @snoc h state r _ hnow _ ih =>
      have hsnoc : Monitor.delivered key (h ++ [run cfg state r])
          = Monitor.delivered key h ++ (run cfg state r).delivered key := by
        simp [Monitor.delivered]
      rw [hsnoc]
      cases hdone : (run cfg state r).completed with
      | true => exact ih.step hnow hdone
      | false =>
          have hnone : (run cfg state r).delivered key = [] := by simp [Outcome.delivered, hdone]
          rw [hnone, List.append_nil, after_of_failed hdone]
          exact ih

/-- Every run of a sequence was made on the state the runs before it left, and
later than they were. -/
lemma Ran.split {pre post : List Outcome} {o : Outcome} (hran : Ran cfg (pre ++ o :: post) state) :
    ∃ st r, Ran cfg pre st ∧ o = run cfg st r ∧ ∀ x ∈ pre, x.round.now < r.now := by
  generalize hl : pre ++ o :: post = l at hran
  induction hran generalizing post with
  | nil => simp at hl
  | @snoc h st r hran _ hlater ih =>
      rcases List.eq_nil_or_concat post with rfl | ⟨post, y, rfl⟩
      · obtain ⟨rfl, rfl⟩ := List.append_inj' hl rfl |>.imp id fun h => (List.cons_eq_cons.mp h).1
        exact ⟨st, r, hran, rfl, hlater⟩
      · rw [List.concat_eq_append, ← List.cons_append, ← List.append_assoc] at hl
        exact ih (List.append_inj' hl rfl).1

/-- A run that failed left the state to the next one, which is later. -/
lemma Ran.split_failed {pre post : List Outcome} {o o' : Outcome}
    (hran : Ran cfg (pre ++ o :: o' :: post) state) (hfail : o.completed = false) :
    ∃ st r r', o = run cfg st r ∧ o' = run cfg st r' ∧ r.now < r'.now := by
  have hran' : Ran cfg ((pre ++ [o]) ++ o' :: post) state := by simpa using hran
  obtain ⟨st', r', hbefore, rfl, hlater⟩ := hran'.split
  generalize hl : pre ++ [o] = l at hbefore
  cases hbefore with
  | nil => simp at hl
  | @snoc h st r _ _ _ =>
      obtain rfl : o = run cfg st r := (List.cons_eq_cons.mp (List.append_inj' hl rfl).2).1
      refine ⟨st, r, r', rfl, by rw [after_of_failed hfail], ?_⟩
      simpa using hlater (run cfg st r) (by simp)

/-- A problem is due by what is remembered of it and by the time alone. -/
lemma due_seen {now : ℚ} {old : Option Entry} {text : String} :
    (Entry.seen now old text).Due cfg now
      ↔ cfg.confirmRuns ≤ (old.map Entry.count).getD 0 + 1
        ∧ ((old.map Entry.sent).getD 0 = 0 ∨ cfg.remindS ≤ now - (old.map Entry.sent).getD 0) := by
  cases old <;> rfl

/-- What holds at the cause of a message: a red one is about a problem of the run,
a green one about a problem the run does not have. -/
def Outcome.Cause (o : Outcome) (key : String) : Kind → Prop
  | .first | .reminder => o.Active key
  | .cleared => ¬ o.Active key

/-- The same state says the same again, later. -/
lemma told_again {r' : Round} {kind : Kind} (hlater : r.now < r'.now)
    (htold : kind ∈ told key (run cfg state r).msgs)
    (hcause : (run cfg state r').Cause key kind) : kind ∈ told key (run cfg state r').msgs := by
  rw [told_run] at htold ⊢
  cases hp : (r.problems state).get? key with
  | none =>
      rw [told_step_of_none hp] at htold
      split_ifs at htold with hopen
      · obtain rfl := List.mem_singleton.mp htold
        have hp' : (r'.problems state).get? key = none := by
          by_contra hne
          exact hcause (active_iff.mpr hne)
        rw [told_step_of_none hp', if_pos hopen]
        exact htold
      · cases htold
  | some text =>
      rw [told_step_of_some hp, kind_tellSeen, sent_seen] at htold
      by_cases hdue : (Entry.seen r.now (state.problems.get? key) text).Due cfg r.now
      · rw [if_pos hdue] at htold
        have hkind : kind = if ((state.problems.get? key).map Entry.sent).getD 0 = 0 then .first
            else .reminder := by simpa using htold
        have hactive : (run cfg state r').Active key := by
          rw [hkind] at hcause
          split_ifs at hcause <;> exact hcause
        obtain ⟨text', hp'⟩ := Option.ne_none_iff_exists'.mp (active_iff.mp hactive)
        have hdue' : (Entry.seen r'.now (state.problems.get? key) text').Due cfg r'.now := by
          rw [due_seen] at hdue ⊢
          refine ⟨hdue.1, hdue.2.imp_right fun hgap => ?_⟩
          linarith
        rw [told_step_of_some hp', kind_tellSeen, sent_seen, if_pos hdue', hkind]
        simp
      · rw [if_neg hdue] at htold
        cases htold

/-- **Delivered alerts form episodes.** Along every sequence of runs at increasing
positive times, whatever the runs observe, whichever hosts answer and whichever
messages are taken: what was delivered about a problem is a sequence of episodes,
each one first red message, reminders at least the reminder time after the red
message before them, and one green message; a completed run that neither observes
nor carries over a problem whose last message was red delivers the green one; and
what a failed run had to say the next run says again, if there is still cause. -/
theorem alerts_in_episodes (hran : Ran cfg h state) :
    (∀ key, ∃ last, Episodes cfg.remindS (delivered key h) last)
      ∧ (∀ key pre o post, h = pre ++ o :: post → o.completed = true →
          RedLast (delivered key pre) → ¬ o.Active key → (o.round.now, .cleared) ∈ o.delivered key)
      ∧ ∀ key kind pre o o' post, h = pre ++ o :: o' :: post → o.completed = false →
          kind ∈ told key o.msgs → o'.Cause key kind → kind ∈ told key o'.msgs := by
  refine ⟨fun key => ⟨_, hran.episodes key⟩, ?_, ?_⟩
  · rintro key pre o post rfl hdone hred hgone
    obtain ⟨st, r, hbefore, rfl, -⟩ := hran.split
    have hopen : st.openSince key ≠ none := (hbefore.episodes key).open_of_redLast hred
    have hp : (r.problems st).get? key = none := by
      by_contra hne
      exact hgone (active_iff.mpr hne)
    rw [Outcome.delivered, if_pos hdone, told_run, told_step_of_none hp,
      if_pos (Option.isSome_iff_ne_none.mpr hopen)]
    exact List.mem_singleton_self _
  · rintro key kind pre o o' post rfl hfail htold hcause
    obtain ⟨st, r, r', rfl, rfl, hlater⟩ := hran.split_failed hfail
    exact told_again hlater htold hcause

end Runs

/-! ### One alert -/

/-- Two runs to confirm, six hours to a reminder, no summary. -/
def usual : Config := ⟨2, 6, -1, fun _ => ⟨"2026-10-01", 0, "01.10 00:00 МСК"⟩⟩

def exitDown : Dict String String := ⟨[("exit:down", "exit: не отвечает")], by simp⟩

/-- The exit does not answer, or does. -/
def exitRound (now : ℚ) (down sends : Bool) : Round :=
  ⟨now, ⟨[("exit", if down then none else some ⟨some 86400, .empty⟩)], by simp⟩,
    if down then exitDown else .empty, sends⟩

def exitRuns : State → List Round → List Outcome
  | _, [] => []
  | state, r :: rest => run usual state r :: exitRuns (run usual state r).after rest

/-- Down on three runs, up on the fourth; the message of the second is refused. -/
def exitRounds : List Round :=
  [exitRound 120 true true, exitRound 240 true false, exitRound 360 true true,
    exitRound 480 false true]

lemma ran_exitRuns : ∃ state, Ran usual (exitRuns {} exitRounds) state := by
  refine ⟨_, (((Ran.nil.snoc (exitRound 120 true true) ?_ ?_).snoc (exitRound 240 true false) ?_ ?_).snoc
    (exitRound 360 true true) ?_ ?_).snoc (exitRound 480 false true) ?_ ?_⟩
  all_goals simp [exitRound]
  all_goals norm_num

/-- The red message goes out on the third run, the green one on the fourth. -/
theorem alerts_in_episodes_exit :
    delivered "exit:down" (exitRuns {} exitRounds) = [(360, .first), (480, .cleared)]
      ∧ ∃ last, Episodes usual.remindS (delivered "exit:down" (exitRuns {} exitRounds)) last := by
  obtain ⟨state, hran⟩ := ran_exitRuns
  exact ⟨by decide, (alerts_in_episodes hran).1 "exit:down"⟩

end VpnPortal.Monitor
