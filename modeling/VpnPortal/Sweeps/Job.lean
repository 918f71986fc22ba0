/-
The hourly job and a call that raises.

Both sweeps promise to go on after a single failure, and a refusal is handled
so. An exception out of a node call is not: nothing catches it, the session is
closed without its commit and the job ends. So a sweep does what it promises
exactly when no call for one of its due devices raises.

* `within_remindDue`, `alone_applyDueRewards`: the other stages never raise;
* `sweeps_survive_iff`: **each sweep keeps its promise, and the job runs all its stages**,
  exactly when no call for one of the due devices raises;
* `one_raise_ends_the_job`: a call that does.
-/
import VpnPortal.Lifecycle.Rewards
import VpnPortal.Sweeps.Effect

namespace VpnPortal

open Sessions Tables

/-! ### Stages that never raise -/

/-- A step that at most adds messages and letters and lets the clock run. -/
structure NoticeStep (s t : World) : Prop where
  db : t.db = { s.db with notifications := t.db.notifications }
  clock : s.clock ≤ t.clock
  removals : t.removals = s.removals
  node : t.node = s.node

lemma NoticeStep.refl (s : World) : NoticeStep s s := ⟨rfl, le_rfl, rfl, rfl⟩

lemma NoticeStep.db_of_star {s t : World} (h : Relation.ReflTransGen NoticeStep s t) :
    t.db = { s.db with notifications := t.db.notifications } := by
  induction h with
  | refl => rfl
  | tail _ hstep ih => rw [hstep.db, ih]

section

variable {J : World → Input → Prop}

lemma within_letter (email : Option String) (kind : NoticeKind) (until_ : Time) :
    Proc.Within J NoticeStep (fun r => ∃ a, r = .ok a) (sendLater email kind until_) := by
  unfold sendLater
  split
  · exact ⟨(), rfl⟩
  · split
    · exact ⟨(), rfl⟩
    · exact fun s i _ => ⟨⟨rfl, le_rfl, rfl, rfl⟩, (), rfl⟩

lemma within_remind (sent : List NewNotice) (user : User) (kind : NoticeKind) (key : DedupeKey)
    (letter : Bool) (until_ : Time) :
    Proc.Within J NoticeStep (fun r => ∃ a, r = .ok a) (remind sent user kind key letter until_) := by
  refine Proc.Within.bind (C := fun r => ∃ a, r = .ok a) ?_ ?_ ?_
  · intro s i _
    refine ⟨NoticeStep.refl s, ?_⟩
    change Proc.Within J NoticeStep _ (ite _ _ _)
    split <;> exact ⟨_, rfl⟩
  · intro o _
    cases o with
    | none => exact ⟨_, rfl⟩
    | some n =>
        dsimp only
        split
        · exact (within_letter _ _ _).bind (fun _ _ => ⟨_, rfl⟩) (fun e ⟨_, h⟩ => by cases h)
        · exact ⟨_, rfl⟩
  · rintro e ⟨a, h⟩
    cases h

lemma within_remindSubs (t : Time) (us : List User) (sent : List NewNotice) :
    Proc.Within J NoticeStep (fun r => ∃ a, r = .ok a) (remindSubs t us sent) := by
  induction us generalizing sent with
  | nil => exact ⟨_, rfl⟩
  | cons u rest ih =>
      unfold remindSubs
      dsimp only
      split
      · exact (within_remind _ _ _ _ _ _).bind (fun sent _ => ih sent) fun e ⟨_, h⟩ => by cases h
      · exact (within_remind _ _ _ _ _ _).bind (fun sent _ => ih sent) fun e ⟨_, h⟩ => by cases h

lemma within_remindTrials (t : Time) (us : List User) (sent : List NewNotice) :
    Proc.Within J NoticeStep (fun r => ∃ a, r = .ok a) (remindTrials t us sent) := by
  induction us generalizing sent with
  | nil => exact ⟨_, rfl⟩
  | cons u rest ih =>
      unfold remindTrials
      dsimp only
      split
      · exact ih sent
      · exact (within_remind _ _ _ _ _ _).bind (fun sent _ => ih sent) fun e ⟨_, h⟩ => by cases h

/-- The reminders touch the bell only, and never raise. -/
lemma within_remindDue :
    Proc.Within J NoticeStep (fun r => ∃ a, r = .ok a) remindDue := by
  intro s i _
  refine ⟨⟨rfl, le_max_left _ _, rfl, rfl⟩, fun s' i' _ => ⟨NoticeStep.refl s', ?_⟩⟩
  refine (within_remindSubs _ _ _).bind ?_ fun e ⟨_, h⟩ => by cases h
  rintro sent -
  intro s'' i'' _
  refine ⟨NoticeStep.refl s'', ?_⟩
  refine (within_remindTrials _ _ _).bind ?_ fun e ⟨_, h⟩ => by cases h
  rintro sent' -
  intro s₃ i₃ _
  refine ⟨⟨?_, le_rfl, rfl, rfl⟩, _, rfl⟩
  dsimp only
  rw [writeNotices_eq]

lemma alone_applyDueRewards (w : World) :
    Proc.Alone J (fun _ _ => True) (fun r _ => ∃ stats, r = .ok stats) applyDueRewards w := by
  refine Proc.Alone.exchange (fun _ _ => trivial) fun i _ => ?_
  have honce := once_applyDueRewardsAt (J := J) (π := World.db) (d := w.db) (b := w.db.books)
    (R := fun _ _ => True) (fun s hs => by rw [hs]) (max w.clock i.now)
  refine Proc.Alone.mono (honce.alone rfl) (fun _ _ _ => trivial) ?_
  rintro r t (⟨-, hN⟩ | ⟨-, -, -, -, -, hC⟩)
  · exact hN.elim
  · exact hC

end

/-! ### The sweeps of the job -/

/-- What the clock shows at the next reading. -/
def reading (tick : Time → Time) (t : Time) : Time := max t (tick t)

/-- No call of the job raises: not for a device of a due account, and not for a
trial device that the first sweep left active, which is called again if its
owner was due. -/
def JobQuiet (cfg : Settings) (tick : Time → Time) (ans : ℕ → String → Config → Reply)
    (w : World) : Prop :=
  (∀ c ∈ w.db.configs.rows, paidDue w.db (reading tick w.clock) c = true →
      replies cfg ans w c ≠ .raised)
    ∧ ∀ c ∈ w.db.configs.rows,
      trialDue w.db (reading tick (reading tick w.clock)) c = true →
      (paidDue w.db (reading tick w.clock) c && confirmed (replies cfg ans w) c) = false →
      replyFor cfg (ans (w.removals.count c.id
        + if paidDue w.db (reading tick w.clock) c then 2 else 1)) c ≠ .raised

/-- What the two sweeps of the job leave, up to messages: the second meets the
tables of the first, and its calls are further ones for the same devices. -/
def JobEffect (cfg : Settings) (tick : Time → Time) (ans : ℕ → String → Config → Reply)
    (w : World) (db' : Db) : Prop :=
  ∃ (stats : SweepStats) (mid : Db) (reply : Config → Reply) (stats' : TrialStats) (db : Db),
    SubsEffect (replies cfg ans w) (reading tick w.clock) w.db stats mid
      ∧ (∀ c ∈ w.db.configs.rows, reply c = replyFor cfg (ans (w.removals.count c.id
        + if paidDue w.db (reading tick w.clock) c then 2 else 1)) c)
      ∧ TrialsEffect reply (reading tick (reading tick w.clock)) mid stats' db
      ∧ db' = { db with notifications := db'.notifications }

/-- The trial devices that are due after the first sweep. -/
lemma mem_trialDue_after {reply : Config → Reply} {t t' : Time} {db db' : Db} {stats : SweepStats}
    (h : SubsEffect reply t db stats db') {c : Config} :
    (c ∈ db'.configs.rows ∧ trialDue db' t' c = true)
      ↔ c ∈ db.configs.rows ∧ trialDue db t' c = true
        ∧ (paidDue db t c && confirmed reply c) = false := by
  have husers : ∀ n, (db'.users.find n).any (fun u => u.trialUntil.any (· ≤ t'))
      = (db.users.find n).any fun u => u.trialUntil.any (· ≤ t') := by
    intro n
    rw [h.find_user, Option.any_map]
    simp only [User.swept_trialUntil]
  have hdue : ∀ c, trialDue db' t' c = trialDue db t' c := by
    intro c
    rw [trialDue, trialDue, husers]
  rw [hdue, h.devices, List.mem_map]
  constructor
  · rintro ⟨⟨x, hx, hxc⟩, htrial⟩
    cases hoff : paidDue db t x && confirmed reply x with
    | true =>
        rw [hoff, if_pos rfl] at hxc
        rw [← hxc] at htrial
        simp [trialDue, Config.off] at htrial
    | false =>
        rw [hoff, if_neg (by simp)] at hxc
        subst hxc
        exact ⟨hx, htrial, hoff⟩
  · rintro ⟨hc, htrial, hoff⟩
    exact ⟨⟨c, hc, by rw [hoff, if_neg (by simp)]⟩, htrial⟩

/-- The first sweep calls each due device once more. -/
lemma count_after {w w' : World} {due : Config → Bool} {ids : List ℕ}
    (hrem : w'.removals = w.removals ++ ids)
    (hids : ids.Perm ((w.db.configs.rows.filter due).map Config.id)) {c : Config}
    (hc : c ∈ w.db.configs.rows) :
    w'.removals.count c.id = w.removals.count c.id + if due c then 1 else 0 := by
  rw [hrem, List.count_append, hids.count_eq]
  congr 1
  have hnodup : ((w.db.configs.rows.filter due).map Config.id).Nodup :=
    w.db.configs.nodup.sublist (List.filter_sublist.map _)
  cases hdue : due c with
  | true =>
      refine List.count_eq_one_of_mem hnodup (List.mem_map_of_mem ?_)
      exact List.mem_filter.mpr ⟨hc, hdue⟩
  | false =>
      refine List.count_eq_zero_of_not_mem fun hmem => ?_
      obtain ⟨x, hx, hid⟩ := List.mem_map.mp hmem
      obtain ⟨hrow, hxdue⟩ := List.mem_filter.mp hx
      obtain rfl : x = c := Table.eq_of_num_eq hrow hc hid
      rw [hdue] at hxdue
      cases hxdue

section

variable {cfg : Settings} {tick : Time → Time} {ans : ℕ → String → Config → Reply}

/-- After the rewards the job ends well when none of its calls raises, and with
the exception of the first one that does. -/
lemma alone_sweepStages (w : World) :
    Proc.Alone (Answers tick ans) (fun _ _ => True)
      (fun r w' => (JobQuiet cfg tick ans w ∧ r = .ok () ∧ JobEffect cfg tick ans w w'.db)
        ∨ (¬ JobQuiet cfg tick ans w ∧ r = .error .crash)) (sweepStages cfg) w := by
  refine Proc.Alone.exchange (fun _ _ => trivial) fun i hi => ?_
  dsimp only
  rw [hi.1]
  -- the first sweep starts in `w` with the clock moved on
  refine Proc.Alone.bind (alone_expireDueSubscriptions (w := { w with clock := _ })
    nodes_answers trivial (reading tick w.clock)) ?_ ?_
  · intro stats w₂ hend
    obtain ⟨hclock, ⟨-, h, -⟩ | ⟨hquiet, ⟨ids, hrem, hids⟩, stats', -, heffect⟩⟩ := hend.of_replies
    · cases h
    refine Proc.Alone.exchange (fun _ _ => trivial) fun i' hi' => ?_
    dsimp only
    have htime : max w₂.clock i'.now = reading tick (reading tick w.clock) := by
      rw [hi'.1, hclock]
      rfl
    rw [htime]
    -- what the second sweep meets, in terms of `w`
    have hsecond : ∀ c, (c ∈ w₂.db.configs.rows
          ∧ trialDue w₂.db (reading tick (reading tick w.clock)) c = true)
        ↔ c ∈ w.db.configs.rows
          ∧ trialDue w.db (reading tick (reading tick w.clock)) c = true
          ∧ (paidDue w.db (reading tick w.clock) c && confirmed (replies cfg ans w) c) = false :=
      fun c => mem_trialDue_after heffect
    have hreply : ∀ c ∈ w.db.configs.rows, replies cfg ans w₂ c
        = replyFor cfg (ans (w.removals.count c.id
          + if paidDue w.db (reading tick w.clock) c then 2 else 1)) c := by
      intro c hc
      unfold replies
      rw [count_after hrem hids hc]
      dsimp only
      split <;> rfl
    refine Proc.Alone.bind (alone_expireDueTrials (w := { w₂ with clock := _ })
      nodes_answers trivial (reading tick (reading tick w.clock))) ?_ ?_
    · intro stats₃ w₃ hend₃
      obtain ⟨-, ⟨-, h, -⟩ | ⟨hquiet₃, -, stats₃', -, heffect₃⟩⟩ := hend₃.of_replies
      · cases h
      have hjob : JobQuiet cfg tick ans w := by
        refine ⟨hquiet, fun c hc htrial hoff => ?_⟩
        obtain ⟨hc', htrial'⟩ := (hsecond c).mpr ⟨hc, htrial, hoff⟩
        rw [← hreply c hc]
        exact hquiet₃ c hc' htrial'
      refine Proc.Alone.bind ((within_remindDue.alone w₃).mono (fun _ _ _ => trivial)
        fun _ _ h => h) ?_ ?_
      · rintro _ w₄ ⟨hstar, -⟩
        exact Or.inl ⟨hjob, rfl, stats', w₂.db, _, stats₃', w₃.db, heffect, hreply, heffect₃,
          NoticeStep.db_of_star hstar⟩
      · rintro e t ⟨-, a, h⟩
        cases h
    · intro e w₃ hend₃
      obtain ⟨-, ⟨⟨c, hc, htrial, hraised⟩, h, -⟩ | ⟨-, -, stats, h, -⟩⟩ := hend₃.of_replies
      · refine Or.inr ⟨fun hjob => ?_, by cases h; rfl⟩
        obtain ⟨hc', htrial', hoff⟩ := (hsecond c).mp ⟨hc, htrial⟩
        have hne := hjob.2 c hc' htrial' hoff
        rw [← hreply c hc'] at hne
        exact hne hraised
      · cases h
  · intro e w₂ hend
    obtain ⟨-, ⟨⟨c, hc, hdue, hraised⟩, h, -⟩ | ⟨-, -, stats, h, -⟩⟩ := hend.of_replies
    · exact Or.inr ⟨fun hjob => hjob.1 c hc hdue hraised, by cases h; rfl⟩
    · cases h

/-- What a sweep over the devices `due` promises: it ends without an exception,
tries each of them, and leaves inactive exactly the rows whose removal was
confirmed. -/
def Survives {α : Type} (reply : Config → Reply) (due : Config → Bool) (w : World)
    (r : Except Exn α) (w' : World) : Prop :=
  (∃ stats, r = .ok stats)
    ∧ (∃ ids, w'.removals = w.removals ++ ids
      ∧ ∀ c ∈ w.db.configs.rows, due c = true → c.id ∈ ids)
    ∧ w'.db.configs.rows = w.db.configs.rows.map fun c =>
      if due c && confirmed reply c then c.off else c

/-- A sweep keeps its promise when no call for a due device raises, and fails it
otherwise. -/
lemma survives_iff {α : Type} {due : Config → Bool} {E : (Config → Reply) → α → Db → Prop}
    {p : Portal α} {w : World}
    (hp : Proc.Alone (Answers tick ans) (fun _ _ => True)
      (SweepEnd (fun _ => True) (fun c a => a = replies cfg ans w c) due E w) p w)
    (hE : ∀ stats db', E (replies cfg ans w) stats db' → db'.configs.rows
      = w.db.configs.rows.map fun c => if due c && confirmed (replies cfg ans w) c then c.off else c) :
    Proc.Ends (Answers tick ans) (Survives (replies cfg ans w) due w) p w
      ↔ ∀ c ∈ w.db.configs.rows, due c = true → replies cfg ans w c ≠ .raised := by
  have hends := (hp.ends (exists_answers tick ans)).mono fun r t h => h.of_replies
  constructor
  · intro h
    obtain ⟨r, t, ⟨⟨stats, hr⟩, -⟩, -, ⟨-, hr', -⟩ | ⟨hquiet, -⟩⟩ := h.exists_and hends
    · rw [hr] at hr'
      cases hr'
    · exact hquiet
  · intro hquiet
    refine hends.mono ?_
    rintro r t ⟨-, ⟨⟨c, hc, hdue, hraised⟩, -⟩ | ⟨-, ⟨ids, hrem, hids⟩, stats, hr, hdb⟩⟩
    · exact absurd hraised (hquiet c hc hdue)
    · refine ⟨⟨stats, hr⟩, ⟨ids, hrem, fun c hc hdue => ?_⟩, hE stats _ hdb⟩
      exact hids.mem_iff.mpr (List.mem_map_of_mem (List.mem_filter.mpr ⟨hc, hdue⟩))

/-- **A raise ends the sweep.** Whatever each call is answered, each sweep keeps
its promise exactly when no call for one of its due devices raises; and the job
runs all its stages exactly when no call of its two sweeps does. -/
theorem sweeps_survive_iff (cfg : Settings) (tick : Time → Time)
    (ans : ℕ → String → Config → Reply) (w : World) (t : Time) :
    (Proc.Ends (Answers tick ans) (Survives (replies cfg ans w) (paidDue w.db t) w)
        (expireDueSubscriptions cfg t) w
      ↔ ∀ c ∈ w.db.configs.rows, paidDue w.db t c = true → replies cfg ans w c ≠ .raised)
    ∧ (Proc.Ends (Answers tick ans) (Survives (replies cfg ans w) (trialDue w.db t) w)
        (expireDueTrials cfg t) w
      ↔ ∀ c ∈ w.db.configs.rows, trialDue w.db t c = true → replies cfg ans w c ≠ .raised)
    ∧ (Proc.Ends (Answers tick ans) (fun r _ => r = .ok ()) (hourlyJob cfg) w
      ↔ ∀ stats w₁, Proc.Runs (Answers tick ans) applyDueRewards w (.ok stats) w₁ →
        JobQuiet cfg tick ans w₁) := by
  have hJ := exists_answers tick ans
  refine ⟨?_, ?_, ?_⟩
  · exact survives_iff (alone_expireDueSubscriptions nodes_answers trivial t)
      fun stats db' h => h.devices
  · exact survives_iff (alone_expireDueTrials nodes_answers trivial t)
      fun stats db' h => h.devices
  · constructor
    · intro h stats w₁ hrun
      obtain ⟨r, w', hrun'⟩ := Proc.exists_runs hJ (sweepStages cfg) w₁
      have hok : r = .ok () :=
        h.2 r w' (Proc.runs_bind.mpr (Or.inr ⟨stats, w₁, hrun, hrun'⟩))
      rcases ((alone_sweepStages w₁).runs hrun').2 with ⟨hjob, -, -⟩ | ⟨-, hr⟩
      · exact hjob
      · rw [hok] at hr
        cases hr
    · intro hjob
      refine ⟨Proc.exists_runs hJ _ w, fun r w' hrun => ?_⟩
      rcases Proc.runs_bind.mp hrun with ⟨e, hrun', -⟩ | ⟨stats, w₁, hrun', hrest⟩
      · obtain ⟨stats, h⟩ := ((alone_applyDueRewards w).runs hrun').2
        cases h
      · rcases ((alone_sweepStages w₁).runs hrest).2 with ⟨-, hr, -⟩ | ⟨hnot, -⟩
        · exact hr
        · exact absurd (hjob stats w₁ hrun') hnot

/-- Ann's node confirms and bob's times out. -/
def oneTimeout : ℕ → String → Config → Reply := fun _ _ c => if c.id = 2 then .raised else .ok

/-- The outside of that run. -/
def timeoutInput : Input where
  now := 20
  del := fun host c => (oneTimeout 0 host c, {})

/-- **One raise ends the job.** Ann's device is taken off the node and her row
stays active, her account stays flagged, and no trial or reminder stage runs. -/
theorem one_raise_ends_the_job :
    ¬ Proc.Ends (Answers (fun _ => 20) oneTimeout)
        (Survives (replies {} oneTimeout endedAccounts) (paidDue endedAccounts.db 20)
          endedAccounts) (expireDueSubscriptions {} 20) endedAccounts
      ∧ (∀ r w', Proc.Runs (Answers (fun _ => 20) oneTimeout) (expireDueSubscriptions {} 20)
          endedAccounts r w' → r = .error .crash ∧ w'.db = endedAccounts.db)
      ∧ confirmed (replies {} oneTimeout endedAccounts) endedAccounts.db.configs.rows[0] = true
      ∧ ¬ Proc.Ends (Answers (fun _ => 20) oneTimeout) (fun r _ => r = .ok ()) (hourlyJob {})
        endedAccounts := by
  have hraised : ∃ c ∈ endedAccounts.db.configs.rows, paidDue endedAccounts.db 20 c = true
      ∧ replies {} oneTimeout endedAccounts c = .raised := by decide
  have hJ : ∀ s, Answers (fun _ => 20) oneTimeout s timeoutInput := fun s => ⟨rfl, fun _ _ => rfl⟩
  refine ⟨?_, ?_, by decide, ?_⟩
  · rw [survives_iff (alone_expireDueSubscriptions nodes_answers trivial 20)
      fun stats db' h => h.devices]
    intro hquiet
    obtain ⟨c, hc, hdue, hr⟩ := hraised
    exact hquiet c hc hdue hr
  · intro r w' hrun
    have hend := ((alone_expireDueSubscriptions nodes_answers trivial 20).runs hrun).2
    obtain ⟨-, ⟨-, h⟩ | ⟨hquiet, -⟩⟩ := hend.of_replies
    · exact h
    · obtain ⟨c, hc, hdue, hr⟩ := hraised
      exact absurd hr (hquiet c hc hdue)
  · intro h
    have hcrash : (Proc.play timeoutInput (hourlyJob {}) endedAccounts).1 = .error .crash := by rfl
    have hok := h.2 _ _ (Proc.runs_play hJ (hourlyJob {}) endedAccounts)
    rw [hcrash] at hok
    cases hok

end

end VpnPortal
