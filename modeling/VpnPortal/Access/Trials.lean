/-
Sweeps take off only what the account no longer covers.

The sweep over the trials looks at the trial and the sweep over the paid periods
at the paid period, but the latter takes every device of the account, the trial
device as well. That is right only while no trial outlasts a paid period. A
purchase ends the trial; `assign_peer` does not, so it has to grant a period
that lasts as long as the trial.

* `Removing`: the calls a sweep makes; `removing_expireDueSubscriptions`,
  `removing_expireDueTrials`: they are for devices whose period, or whose trial, is over;
* `Onward`, `Spanned`: dates move on, and no running trial outlasts a paid
  period; `Spanned.step`: every operation keeps that, `assign_peer` if it grants enough;
* `sweeps_spare_covered`: **no sweep removes a covered device** in a world that such
  operations lead to;
* `running_trial_removed`: a period shorter than the trial takes the trial device off.
-/
import VpnPortal.Access.Devices
import VpnPortal.Access.Time

namespace VpnPortal

open Sessions Tables

/-! ### The calls of a sweep -/

/-- At most one device is called, one of those in `P`. -/
def Removing (P : ℕ → Prop) (w w' : World) : Prop :=
  w'.removals = w.removals ∨ ∃ id, P id ∧ w'.removals = w.removals ++ [id]

lemma Removing.of_star {P : ℕ → Prop} {w w' : World}
    (h : Relation.ReflTransGen (Removing P) w w') :
    ∃ ids, w'.removals = w.removals ++ ids ∧ ∀ id ∈ ids, P id := by
  induction h with
  | refl => exact ⟨[], by simp, by simp⟩
  | tail _ hstep ih =>
      obtain ⟨ids, hids, hall⟩ := ih
      rcases hstep with hsame | ⟨id, hid, hone⟩
      · exact ⟨ids, hsame.trans hids, hall⟩
      · refine ⟨ids ++ [id], ?_, ?_⟩
        · rw [hone, hids, List.append_assoc]
        · intro x hx
          rcases List.mem_append.mp hx with hx | hx
          · exact hall x hx
          · rw [List.mem_singleton.mp hx]
            exact hid

section Calls

variable {J : World → Input → Prop} {cfg : Settings} {P : ℕ → Prop}

/-- Messages and letters leave the tables and the calls alone. -/
lemma within_ended (sent : List NewNotice) (user : User) (kind : NoticeKind) (until_ : Time) :
    Proc.Within J (fun s t => t.db = s.db ∧ Removing P s t) (fun _ => True)
      (ended sent user kind until_) := by
  have hletter : Proc.Within J (fun s t => t.db = s.db ∧ Removing P s t) (fun _ => True)
      (sendLater user.email kind until_) := by
    unfold sendLater
    split
    · trivial
    · split
      · trivial
      · exact fun s _ _ => ⟨⟨rfl, Or.inl rfl⟩, trivial⟩
  refine Proc.Within.bind (C := fun _ => True) ?_ (fun o _ => ?_) fun _ _ => trivial
  · refine Proc.Within.look fun s _ _ => ⟨⟨rfl, Or.inl rfl⟩, ?_⟩
    split <;> trivial
  · cases o with
    | none => trivial
    | some n =>
        dsimp only
        split
        · exact hletter.bind (fun _ _ => trivial) fun _ _ => trivial
        · trivial

lemma within_removePeerFor {c : Config} (hc : P c.id) :
    Proc.Within J (fun s t => t.db = s.db ∧ Removing P s t) (fun _ => True)
      (removePeerFor cfg c) := by
  refine Proc.Within.change fun s _ _ => ⟨⟨rfl, Or.inr ⟨c.id, hc, rfl⟩⟩, ?_⟩
  split
  · trivial
  · refine Proc.Within.exchange fun s i _ => ⟨⟨rfl, Or.inl rfl⟩, ?_⟩
    dsimp only
    split <;> trivial

/-- The devices that will be switched off are among those called. -/
lemma within_revokeDevices (cs : List Config) (hcs : ∀ c ∈ cs, P c.id) (work : SweepWork)
    (all : Bool) :
    Proc.Within J (fun s t => t.db = s.db ∧ Removing P s t)
      (fun r => ∀ x, r = .ok x →
        (∀ id ∈ x.1.off, id ∈ work.off ∨ P id) ∧ x.1.revoked = work.revoked)
      (revokeDevices cfg cs work all) := by
  induction cs generalizing work all with
  | nil =>
      rintro x hx
      obtain rfl := Except.ok.inj hx
      exact ⟨fun _ hid => Or.inl hid, rfl⟩
  | cons c rest ih =>
      have hc : P c.id := hcs c List.mem_cons_self
      have hrest : ∀ c ∈ rest, P c.id := fun x hx => hcs x (List.mem_cons_of_mem _ hx)
      refine (within_removePeerFor hc).bind (fun ok _ => ?_) fun _ _ _ hx => (by cases hx)
      split
      · refine (ih hrest _ _).mono (fun _ _ h => h) fun r hr x hx => ?_
        obtain ⟨hoff, hrevoked⟩ := hr x hx
        refine ⟨fun id hid => ?_, hrevoked⟩
        rcases hoff id hid with hid | hid
        · rcases List.mem_append.mp hid with hid | hid
          · exact Or.inl hid
          · rw [List.mem_singleton.mp hid]
            exact Or.inr hc
        · exact Or.inr hid
      · exact ih hrest { work with failures := work.failures + 1 } false

/-- Under any interference, the devices that will be switched off are those of
the accounts in the list, as they were when their turn came. -/
lemma within_revokeUsers (us : List User)
    (hus : ∀ s i, J s i → ∀ u ∈ us, ∀ c ∈ heldBy s.db.configs.rows u.id, P c.id)
    (work : SweepWork) :
    Proc.Within J (fun s t => t.db = s.db ∧ Removing P s t)
      (fun r => ∀ x, r = .ok x →
        (∀ id ∈ x.off, id ∈ work.off ∨ P id) ∧ ∀ u ∈ x.revoked, u ∈ work.revoked ∨ u ∈ us)
      (revokeUsers cfg us work) := by
  induction us generalizing work with
  | nil =>
      rintro x hx
      obtain rfl := Except.ok.inj hx
      exact ⟨fun _ hid => Or.inl hid, fun _ hu => Or.inl hu⟩
  | cons u rest ih =>
      have hrest : ∀ s i, J s i → ∀ v ∈ rest, ∀ c ∈ heldBy s.db.configs.rows v.id, P c.id :=
        fun s i hi v hv => hus s i hi v (List.mem_cons_of_mem _ hv)
      refine Proc.Within.look fun s i hi => ⟨⟨rfl, Or.inl rfl⟩, ?_⟩
      refine (within_revokeDevices _ (hus s i hi u List.mem_cons_self) work true).bind ?_
        fun _ _ _ hx => (by cases hx)
      rintro ⟨done, allRemoved⟩ hdone
      obtain ⟨hoff, hrevoked⟩ := hdone _ rfl
      dsimp only at hoff hrevoked ⊢
      split
      · refine (within_ended _ _ _ _).bind (fun sent _ => ?_) fun _ _ _ hx => (by cases hx)
        refine (ih hrest _).mono (fun _ _ h => h) fun r hr x hx => ?_
        obtain ⟨hoff', hrevoked'⟩ := hr x hx
        refine ⟨fun id hid => (hoff' id hid).elim (hoff id) Or.inr, fun v hv => ?_⟩
        rcases hrevoked' v hv with hv | hv
        · rcases List.mem_append.mp hv with hv | hv
          · rw [hrevoked] at hv
            exact Or.inl hv
          · rw [List.mem_singleton.mp hv]
            exact Or.inr List.mem_cons_self
        · exact Or.inr (List.mem_cons_of_mem _ hv)
      · refine (ih hrest _).mono (fun _ _ h => h) fun r hr x hx => ?_
        obtain ⟨hoff', hrevoked'⟩ := hr x hx
        refine ⟨fun id hid => (hoff' id hid).elim (hoff id) Or.inr, fun v hv => ?_⟩
        rcases hrevoked' v hv with hv | hv
        · rw [hrevoked] at hv
          exact Or.inl hv
        · exact Or.inr (List.mem_cons_of_mem _ hv)

lemma within_expireTrials (t : Time) (rows : List (Config × User)) (hrows : ∀ r ∈ rows, P r.1.id)
    (work : SweepWork) :
    Proc.Within J (fun s t => t.db = s.db ∧ Removing P s t) (fun _ => True)
      (expireTrials cfg t rows work) := by
  induction rows generalizing work with
  | nil => trivial
  | cons r rest ih =>
      obtain ⟨c, user⟩ := r
      have hrest : ∀ r ∈ rest, P r.1.id := fun x hx => hrows x (List.mem_cons_of_mem _ hx)
      refine (within_removePeerFor (hrows (c, user) List.mem_cons_self)).bind (fun ok _ => ?_)
        fun _ _ => trivial
      split
      · split
        · exact (within_ended _ _ _ _).bind (fun _ _ => ih hrest _) fun _ _ => trivial
        · exact ih hrest _
      · exact ih hrest _

lemma alone_of_calls {α : Type} {p : Portal α} {C : Except Exn α → Prop} {s : World}
    (h : Proc.Within J (fun s t => t.db = s.db ∧ Removing P s t) C p) :
    Proc.Alone J (Removing P) (fun _ t => t.db = s.db) p s := by
  refine (h.alone s).mono (fun _ _ h => h.2) ?_
  rintro r t ⟨hstar, -⟩
  clear h
  induction hstar with
  | refl => rfl
  | tail _ hstep ih => exact hstep.1.trans ih

lemma alone_revokeUsers {d : Db} (us : List User)
    (hus : ∀ u ∈ us, ∀ c ∈ heldBy d.configs.rows u.id, P c.id) (work : SweepWork) {s : World}
    (hs : s.db = d) :
    Proc.Alone J (Removing P) (fun _ _ => True) (revokeUsers cfg us work) s := by
  induction us generalizing work s with
  | nil => trivial
  | cons u rest ih =>
      have hrest : ∀ v ∈ rest, ∀ c ∈ heldBy d.configs.rows v.id, P c.id :=
        fun v hv => hus v (List.mem_cons_of_mem _ hv)
      have hheld : ∀ c ∈ heldBy s.db.configs.rows u.id, P c.id := by
        rw [hs]
        exact hus u List.mem_cons_self
      refine Proc.Alone.look (Or.inl rfl) ?_
      refine (alone_of_calls (within_revokeDevices _ hheld work true)).bind ?_ fun _ _ _ => trivial
      rintro ⟨done, allRemoved⟩ s₁ hs₁
      dsimp only
      split
      · refine (alone_of_calls (within_ended _ _ _ _)).bind ?_ fun _ _ _ => trivial
        intro sent s₂ hs₂
        exact ih hrest _ (hs₂.trans (hs₁.trans hs))
      · exact ih hrest _ (hs₁.trans hs)

/-- The sweep over the paid periods calls devices of due accounts. -/
lemma removing_expireDueSubscriptions (t : Time) {w : World} :
    Proc.Alone J (Removing fun id => ∃ c, w.db.configs.find id = some c ∧ paidDue w.db t c = true)
      (fun _ _ => True) (expireDueSubscriptions cfg t) w := by
  refine Proc.Alone.look (Or.inl rfl) ?_
  refine Proc.Alone.bind (alone_revokeUsers _ ?_ {} rfl) ?_ fun _ _ _ => trivial
  · intro u hu c hc
    have hdevice : c ∈ devicesOf w.db (dueUsers w.db t) := List.mem_flatMap.mpr ⟨u, hu, hc⟩
    obtain ⟨hrow, hdue⟩ := mem_devicesOf_dueUsers.mp hdevice
    exact ⟨c, Table.find_of_mem hrow, hdue⟩
  · intro work s _
    exact Proc.Alone.change (Or.inl rfl) (Proc.Alone.look (Or.inl rfl) trivial)

/-- The sweep over the trials calls trial devices of ended trials. -/
lemma removing_expireDueTrials (t : Time) {w : World} :
    Proc.Alone J (Removing fun id => ∃ c, w.db.configs.find id = some c ∧ trialDue w.db t c = true)
      (fun _ _ => True) (expireDueTrials cfg t) w := by
  refine Proc.Alone.look (Or.inl rfl) ?_
  refine Proc.Alone.bind (alone_of_calls (within_expireTrials t _ ?_ {})) ?_ fun _ _ _ => trivial
  · intro r hr
    have hmem : r.1 ∈ w.db.configs.rows.filter (trialDue w.db t) := by
      rw [← map_fst_dueTrials]
      exact List.mem_map_of_mem hr
    obtain ⟨hrow, hdue⟩ := List.mem_filter.mp hmem
    exact ⟨r.1, Table.find_of_mem hrow, hdue⟩
  · intro work s _
    exact Proc.Alone.change (Or.inl rfl) trivial

end Calls

/-! ### Dates along a run -/

/-- Rewards stay what they are worth, no trial date changes, and no paid end
moves back. -/
structure Onward (w w' : World) : Prop where
  clock : w.clock ≤ w'.clock
  rewards : RewardsNonneg w.db → RewardsNonneg w'.db
  dates : RewardsNonneg w.db → ∀ n u', w'.db.users.find n = some u' →
    ∃ u, w.db.users.find n = some u ∧ u'.trialUntil = u.trialUntil
      ∧ ∀ x', u'.subscribedUntil = some x' → ∃ x, u.subscribedUntil = some x ∧ x ≤ x'

lemma Onward.trans {w₁ w₂ w₃ : World} (h : Onward w₁ w₂) (h' : Onward w₂ w₃) : Onward w₁ w₃ where
  clock := h.clock.trans h'.clock
  rewards hr := h'.rewards (h.rewards hr)
  dates hr n u₃ hu₃ := by
    obtain ⟨u₂, hu₂, htrial₂, hpaid₂⟩ := h'.dates (h.rewards hr) n u₃ hu₃
    obtain ⟨u₁, hu₁, htrial₁, hpaid₁⟩ := h.dates hr n u₂ hu₂
    refine ⟨u₁, hu₁, htrial₂.trans htrial₁, fun x₃ hx₃ => ?_⟩
    obtain ⟨x₂, hx₂, hle₂⟩ := hpaid₂ x₃ hx₃
    obtain ⟨x₁, hx₁, hle₁⟩ := hpaid₁ x₂ hx₂
    exact ⟨x₁, hx₁, hle₁.trans hle₂⟩

/-- Accounts keep their dates and rewards are not touched. -/
lemma Onward.of_dates {w w' : World} (hclock : w.clock ≤ w'.clock)
    (hrewards : w'.db.referralRewards = w.db.referralRewards)
    (hdates : ∀ n u', w'.db.users.find n = some u' → ∃ u, w.db.users.find n = some u
      ∧ u'.trialUntil = u.trialUntil ∧ u'.subscribedUntil = u.subscribedUntil) : Onward w w' where
  clock := hclock
  rewards hr r hmem := hr r (by rw [← hrewards]; exact hmem)
  dates _ n u' hu' := by
    obtain ⟨u, hu, htrial, hpaid⟩ := hdates n u' hu'
    exact ⟨u, hu, htrial, fun x hx => ⟨x, by rw [← hpaid]; exact hx, le_rfl⟩⟩

lemma Onward.of_users {w w' : World} (hclock : w.clock ≤ w'.clock)
    (hrewards : w'.db.referralRewards = w.db.referralRewards) (husers : w'.db.users = w.db.users) :
    Onward w w' :=
  Onward.of_dates hclock hrewards fun n u' hu' => ⟨u', by rw [← husers]; exact hu', rfl, rfl⟩

lemma staged_onward : Staged Onward where
  trans := Onward.trans
  still hclock hdb := Onward.of_users hclock (by rw [hdb]) (by rw [hdb])
  subs hclock heffect := by
    refine Onward.of_dates hclock (by rw [heffect.rest]) fun n u' hu' => ?_
    rw [heffect.find_user] at hu'
    obtain ⟨u, hu, rfl⟩ := Option.map_eq_some_iff.mp hu'
    exact ⟨u, hu, User.swept_trialUntil .., User.swept_subscribedUntil ..⟩
  trials hclock heffect :=
    Onward.of_users hclock (by rw [heffect.rest]) (by rw [heffect.rest])
  notices hstep := Onward.of_users hstep.clock (by rw [hstep.db]) (by rw [hstep.db])

/-- The reward stage adds days, never takes them. -/
lemma onward_rewards {w w' : World} {sent : List NewNotice} (hclock : w.clock ≤ w'.clock)
    (hdb : w'.db = writeNotices sent
      ((drawWork w.db.books w'.clock).foldl (RewardWork.write w'.clock) w.db)) : Onward w w' where
  clock := hclock
  rewards hr := (rewardsMarked_drawWork hdb).nonneg hr
  dates hr n u' hu' := by
    obtain ⟨users, notices, hrows, hcommit⟩ := rewards_commit_eq w'.clock sent w.db
    have husers : w'.db.users = users := by rw [hdb, hcommit]
    rw [husers, Table.find_of_rows_map (g := credited w.db.books w'.clock)
      (credited_id w.db.books w'.clock) hrows] at hu'
    obtain ⟨u, hu, rfl⟩ := Option.map_eq_some_iff.mp hu'
    refine ⟨u, hu, rfl, fun x' hx' => ?_⟩
    obtain ⟨x, hx, rfl⟩ := Option.map_eq_some_iff.mp hx'
    have hdays : 0 ≤ rewardDays (creditsFor w.db.books w'.clock u) := by
      refine rewardDays_nonneg fun r hmem => ?_
      unfold creditsFor at hmem
      split at hmem
      · exact hr r (List.mem_filter.mp hmem).1
      · cases hmem
    exact ⟨x, hx, le_add_of_nonneg_right (days_nonneg hdays)⟩

/-- A trial that still runs does not outlast the paid period. -/
structure Spanned (w : World) : Prop where
  rewards : RewardsNonneg w.db
  trial : ∀ n u, w.db.users.find n = some u → ∀ e x, u.trialUntil = some e →
    u.subscribedUntil = some x → e ≤ x ∨ e ≤ w.clock

lemma Onward.spanned {w w' : World} (h : Onward w w') (hw : Spanned w) : Spanned w' where
  rewards := h.rewards hw.rewards
  trial n u' hu' e x' he hx' := by
    obtain ⟨u, hu, htrial, hpaid⟩ := h.dates hw.rewards n u' hu'
    obtain ⟨x, hx, hle⟩ := hpaid x' hx'
    rw [htrial] at he
    rcases hw.trial n u hu e x he hx with hspan | hover
    · exact Or.inl (hspan.trans hle)
    · exact Or.inr (hover.trans h.clock)

/-- One account is written, and its dates are in order. -/
lemma Spanned.of_save {w w' : World} (hw : Spanned w) (hclock : w.clock ≤ w'.clock)
    (hrewards : RewardsNonneg w'.db) {user new : User}
    (hself : w'.db.users.find user.id = some new)
    (hothers : ∀ n, n ≠ user.id → w'.db.users.find n = w.db.users.find n)
    (hnew : ∀ e x, new.trialUntil = some e → new.subscribedUntil = some x → e ≤ x ∨ e ≤ w'.clock) :
    Spanned w' where
  rewards := hrewards
  trial n u hu e x he hx := by
    by_cases hn : n = user.id
    · subst hn
      obtain rfl := Option.some.inj (hself.symm.trans hu)
      exact hnew e x he hx
    · rw [hothers n hn] at hu
      exact (hw.trial n u hu e x he hx).imp id fun hover => hover.trans hclock

/-! ### Every operation -/

lemma spanned_startTrial {cfg : Settings} {w w' : World} (hw : Spanned w)
    (h : MovedBy (StartsTrial cfg) w w') : Spanned w' := by
  obtain ⟨hclock, hdb | ⟨user, device, norm, ip, began, hu, hnew, -, hdb⟩⟩ := h
  · exact (staged_onward.still hclock hdb).spanned hw
  · have husers : w'.db.users
        = saveAccount w.db.users user { user with trialUntil := some (trialEnd cfg w'.clock) } := by
      rw [hdb]
      rfl
    have hrewards : w'.db.referralRewards = w.db.referralRewards := by
      rw [hdb]
      rfl
    have hself := find_saveAccount_self { user with trialUntil := some (trialEnd cfg w'.clock) } hu
    rw [← husers] at hself
    refine hw.of_save hclock (fun r hr => hw.rewards r (by rw [← hrewards]; exact hr)) hself
      (fun n hn => by rw [husers]; exact find_saveAccount_of_ne hn) fun e x _ hx => ?_
    -- a trial is given only to an account that has never paid
    simp [User.merge, hnew.2] at hx

lemma Activation.Drawn.trial_le {b : Books} {user : User} {payment : Payment} {a : Activation}
    (ha : a.Drawn b user payment) {e : Time} (he : a.new.trialUntil = some e) : e ≤ a.at_ := by
  obtain ⟨info, -, hnew⟩ := ha.new_eq
  rw [hnew] at he
  unfold closeTrial at he
  split at he
  · rw [← Option.some.inj he]
  · rename_i hover
    rw [he] at hover
    simpa using hover

lemma spanned_activation {w w' : World} {user : User} {payment : Payment} {a : Activation}
    {ids : List ℕ} (hw : Spanned w) (hclock : w.clock ≤ w'.clock)
    (hu : w.db.users.find user.id = some user) (ha : a.Drawn w.db.books user payment)
    (hat : a.at_ = w'.clock) (hoff : SwitchesOff ids (a.write w.db) w'.db) : Spanned w' := by
  obtain ⟨off, -, hdb⟩ := hoff
  rw [Db.foldl_deactivate] at hdb
  have husers : w'.db.users = (a.write w.db).users := by rw [hdb]
  have hrewards : w'.db.referralRewards = (a.write w.db).referralRewards := by rw [hdb]
  refine hw.of_save hclock (fun r hr => ?_) (by rw [husers]; exact ha.find_user hu)
    (fun n hn => by rw [husers]; exact ha.find_user_of_ne hn) fun e x he _ => Or.inr ?_
  · rw [hrewards] at hr
    exact (rewardsMarked_activation ha).nonneg hw.rewards r hr
  · rw [← hat]
    exact ha.trial_le he

/-- The period that `assign_peer` grants at the time `t` lasts as long as the
trial of the account. -/
def AssignPeerRequest.SpansTrial (req : AssignPeerRequest) (db : Db) (t : Time) : Prop :=
  ∀ u ∈ db.users.rows, u.username = req.username → ∀ e, u.trialUntil = some e →
    e ≤ extendedUntil u t req.days

lemma spanned_assignPeer {w w' : World} {user : User} {req : AssignPeerRequest} (hw : Spanned w)
    (hspans : req.SpansTrial w.db w'.clock) (hclock : w.clock ≤ w'.clock)
    (hu : w.db.users.find user.id = some user) (hname : user.username = req.username)
    (hdb : w'.db = w.db.saveUser user (assigned user req.peerIp req.days w'.clock)) :
    Spanned w' := by
  have husers : w'.db.users
      = saveAccount w.db.users user (assigned user req.peerIp req.days w'.clock) := by
    rw [hdb]
    rfl
  have hrewards : w'.db.referralRewards = w.db.referralRewards := by
    rw [hdb]
    rfl
  have hself := find_saveAccount_self (assigned user req.peerIp req.days w'.clock) hu
  rw [← husers] at hself
  refine hw.of_save hclock (fun r hr => hw.rewards r (by rw [← hrewards]; exact hr)) hself
    (fun n hn => by rw [husers]; exact find_saveAccount_of_ne hn) fun e x he hx => Or.inl ?_
  have htrial : user.trialUntil = some e := by simpa [User.merge, assigned] using he
  have hend : extendedUntil user w'.clock req.days = x := by
    simpa [User.merge, assigned] using hx
  rw [← hend]
  exact hspans user (Table.mem_of_find hu).1 hname e htrial

lemma onward_addConfig {w w' : World} (h : MovedBy AddsDevice w w') : Onward w w' := by
  obtain ⟨hclock, hdb | ⟨user, device, -, -, -, -, hdb⟩⟩ := h
  · exact staged_onward.still hclock hdb
  · exact Onward.of_users hclock (by rw [hdb]) (by rw [hdb])

lemma onward_deleteConfig {w w' : World} (h : MovedBy DropsDevice w w') : Onward w w' := by
  obtain ⟨hclock, hdb | ⟨user, device, others, hu, hdb⟩⟩ := h
  · exact staged_onward.still hclock hdb
  · have husers : w'.db.users = saveAccount w.db.users user (afterRemoval user device others) := by
      rw [hdb]
      rfl
    have hsame : (afterRemoval user device others).trialUntil = user.trialUntil
        ∧ (afterRemoval user device others).subscribedUntil = user.subscribedUntil := by
      unfold afterRemoval
      split <;> exact ⟨rfl, rfl⟩
    refine Onward.of_dates hclock (by rw [hdb]; rfl) fun n u' hu' => ?_
    rw [husers] at hu'
    by_cases hn : n = user.id
    · subst hn
      obtain rfl := Option.some.inj ((find_saveAccount_self _ hu).symm.trans hu')
      exact ⟨user, hu, by simp [User.merge, hsame.1], by simp [User.merge, hsame.2]⟩
    · rw [find_saveAccount_of_ne hn] at hu'
      exact ⟨u', hu', rfl, rfl⟩

/-- An operation of a run; an `assign_peer` grants as long as the trial lasts. -/
def Op.SpansTrial (w w' : World) : Op → Prop
  | .assignPeer req => req.SpansTrial w.db w'.clock
  | _ => True

/-- **Every such operation keeps the dates in order.** -/
theorem Spanned.step {J : World → Input → Prop} {cfg : Settings} {w w' : World} {op : Op}
    {r : Except Exn (Option ℕ)} (hw : Spanned w) (hop : op.SpansTrial w w')
    (hrun : Proc.Runs J (op.run cfg) w r w') : Spanned w' := by
  cases op with
  | startTrial username ip =>
      exact spanned_startTrial hw ((alone_forget (alone_startTrial username ip)).runs hrun).2
  | activate payment =>
      obtain ⟨hclock, ⟨-, hdb⟩ | ⟨-, user, a, ids, -, hu, ha, -, hat, hoff⟩⟩ :=
        ((alone_activateOrder payment).runs hrun).2
      · exact (staged_onward.still hclock hdb).spanned hw
      · exact spanned_activation hw hclock hu ha hat hoff
  | assignPeer req =>
      suffices halone : Proc.Alone J (fun _ _ => True)
          (fun _ w' => req.SpansTrial w.db w'.clock → Spanned w') ((Op.assignPeer req).run cfg) w from
        (halone.runs hrun).2 hop
      refine (alone_assignPeer req).bind ?_ ?_
      · rintro u v ⟨hclock, ⟨-, hdb⟩ | ⟨user, hu, hname, -, hdb⟩⟩ hspans
        · exact (staged_onward.still hclock hdb).spanned hw
        · exact spanned_assignPeer hw hspans hclock hu hname hdb
      · rintro e v ⟨hclock, ⟨-, hdb⟩ | ⟨user, -, -, h, -⟩⟩ _
        · exact (staged_onward.still hclock hdb).spanned hw
        · cases h
  | addConfig username req =>
      exact (onward_addConfig ((alone_forget (alone_addConfig username req)).runs hrun).2).spanned hw
  | deleteConfig username id =>
      exact (onward_deleteConfig ((alone_forget (alone_deleteConfig username id)).runs hrun).2).spanned hw
  | applyDueRewards =>
      obtain ⟨⟨i, -, hclock⟩, sent, hdb⟩ := ((alone_forget (alone_applyDueRewards_at.mono
        (fun _ _ h => h) fun _ w' h => And.intro h.1 h.2.2)).runs hrun).2
      exact (onward_rewards (by rw [hclock]; exact le_max_left _ _) hdb).spanned hw
  | expireDueSubscriptions =>
      exact (staged_onward.of_subs ((alone_forget (p := now >>= VpnPortal.expireDueSubscriptions cfg)
        alone_now_subs).runs hrun).2).spanned hw
  | expireDueTrials =>
      exact (staged_onward.of_trials ((alone_forget (p := now >>= VpnPortal.expireDueTrials cfg)
        alone_now_trials).runs hrun).2).spanned hw
  | hourlyJob =>
      have hjob : Proc.Alone J (fun _ _ => True) (fun _ w' => Onward w w') (VpnPortal.hourlyJob cfg) w :=
        alone_hourlyJob_by staged_onward fun w w' sent hclock hdb => onward_rewards hclock hdb
      exact ((alone_forget hjob).runs hrun).2.spanned hw

/-- The worlds that such operations, one after another, lead to. The stages of the
hourly job are operations of their own as well, so these are also the worlds in
which its sweeps begin. -/
inductive ReachesSpanning (cfg : Settings) (w₀ : World) : World → Prop where
  | start : ReachesSpanning cfg w₀ w₀
  | step {w w' : World} {r : Except Exn (Option ℕ)} (op : Op) :
      ReachesSpanning cfg w₀ w → op.SpansTrial w w' → Proc.Runs anyInput (op.run cfg) w r w' →
      ReachesSpanning cfg w₀ w'

lemma ReachesSpanning.spanned {cfg : Settings} {w₀ w : World} (h : ReachesSpanning cfg w₀ w)
    (h₀ : Spanned w₀) : Spanned w := by
  induction h with
  | start => exact h₀
  | step op _ hop hrun ih => exact ih.step hop hrun

/-- Nothing was sold or tried yet. -/
lemma Unused.spanned {w : World} (h : Unused w.db) : Spanned w where
  rewards r hr := (h.rewards r hr).2
  trial n u hu e x _ hx := by
    rw [h.until_ u (Table.mem_of_find hu).1] at hx
    cases hx

/-- At the time `t` the account of the device does not cover it: a trial device
needs a running trial, any other a running paid period. -/
def Uncovered (db : Db) (t : Time) (id : ℕ) : Prop :=
  ∃ c u, db.configs.find id = some c ∧ db.users.find c.userId = some u
    ∧ (c.kind = .trial → trialActive u t = false)
    ∧ (c.kind ≠ .trial → hasActiveSubscription u t = false)

/-- A due account whose dates are in order has no running period left. -/
lemma uncovered_of_paidDue {w : World} {t : Time} {id : ℕ} (hw : Spanned w) (ht : w.clock ≤ t)
    (h : ∃ c, w.db.configs.find id = some c ∧ paidDue w.db t c = true) : Uncovered w.db t id := by
  obtain ⟨c, hc, hdue⟩ := h
  rw [paidDue, Bool.and_eq_true, Option.any_eq_true] at hdue
  obtain ⟨-, u, hu, hdue⟩ := hdue
  rw [User.isDue, Bool.and_eq_true, Option.any_eq_true] at hdue
  obtain ⟨-, x, hx, hended⟩ := hdue
  have hended' : x < t := of_decide_eq_true hended
  refine ⟨c, u, hc, hu, fun _ => ?_, fun _ => ?_⟩
  · unfold trialActive
    cases he : u.trialUntil with
    | none => rfl
    | some e =>
        have hover : e ≤ t := by
          rcases hw.trial c.userId u hu e x he hx with hspan | hover
          · exact hspan.trans hended'.le
          · exact hover.trans ht
        simpa using hover
  · unfold hasActiveSubscription
    rw [hx]
    split
    · rfl
    · exact decide_eq_false (not_lt.mpr hended'.le)

lemma uncovered_of_trialDue {db : Db} {t : Time} {id : ℕ}
    (h : ∃ c, db.configs.find id = some c ∧ trialDue db t c = true) : Uncovered db t id := by
  obtain ⟨c, hc, hdue⟩ := h
  rw [trialDue, Bool.and_eq_true, Bool.and_eq_true, Option.any_eq_true] at hdue
  obtain ⟨⟨hkind, -⟩, u, hu, hdue⟩ := hdue
  obtain ⟨e, he, hended⟩ := Option.any_eq_true _ _ |>.mp hdue
  refine ⟨c, u, hc, hu, fun _ => ?_, fun hpaid => absurd (of_decide_eq_true hkind) hpaid⟩
  rw [trialActive, he]
  simpa using hended

/-- **Sweeps take off only what the account no longer covers.** In every world
that a run reaches in which each `assign_peer` grants a period as long as the
trial of the account, every device that a sweep run at the time `t` calls is
one that its owner's account does not cover then. -/
theorem sweeps_spare_covered (cfg : Settings) {w₀ w : World} (h₀ : Unused w₀.db)
    (h : ReachesSpanning cfg w₀ w) {t : Time} (ht : w.clock ≤ t) :
    (∀ r w', Proc.Runs anyInput (expireDueSubscriptions cfg t) w r w' →
        ∃ ids, w'.removals = w.removals ++ ids ∧ ∀ id ∈ ids, Uncovered w.db t id)
      ∧ ∀ r w', Proc.Runs anyInput (expireDueTrials cfg t) w r w' →
        ∃ ids, w'.removals = w.removals ++ ids ∧ ∀ id ∈ ids, Uncovered w.db t id := by
  have hw : Spanned w := h.spanned h₀.spanned
  refine ⟨fun r w' hrun => ?_, fun r w' hrun => ?_⟩
  · obtain ⟨ids, hids, hall⟩ := Removing.of_star ((removing_expireDueSubscriptions t).runs hrun).1
    exact ⟨ids, hids, fun id hid => uncovered_of_paidDue hw ht (hall id hid)⟩
  · obtain ⟨ids, hids, hall⟩ := Removing.of_star ((removing_expireDueTrials t).runs hrun).1
    exact ⟨ids, hids, fun id hid => uncovered_of_trialDue (hall id hid)⟩

/-! ### A period shorter than the trial -/

/-- Trials are switched on. -/
def withTrials : Settings := { trialEnabled := true }

/-- An account that may try. -/
def newcomerRow : User := { id := 0, username := "ann", telegramId := some 7 }

/-- Nobody else is there. -/
def newcomer : World where
  db := { users := ⟨[newcomerRow], 1, by decide, by decide⟩ }

/-- Keys are made and the nodes confirm. -/
def obliging : Input where
  keys := some ("K", "P")
  add := fun _ _ => (.ok, {})
  del := fun _ _ => (.ok, {})

/-- The trial is started, and then days are assigned. -/
def onTrial : World :=
  (Proc.play obliging ((Op.startTrial "ann" "192.0.2.1").run withTrials) newcomer).2

def assignOne : AssignPeerRequest := { username := "ann", peerIp := "10.88.88.42", days := 1 }
def assignThree : AssignPeerRequest := { username := "ann", peerIp := "10.88.88.42", days := 3 }

def assignedOn (req : AssignPeerRequest) : World :=
  (Proc.play obliging ((Op.assignPeer req).run withTrials) onTrial).2

/-- The sweep on the second day. -/
def sweptOn (req : AssignPeerRequest) : World :=
  (Proc.play obliging (expireDueSubscriptions withTrials (days 2)) (assignedOn req)).2

lemma unused_newcomer : Unused newcomer.db where
  until_ := by decide
  flag := by decide
  rewards := by decide

/-- With three days assigned the sweep of the second day calls nothing that the
account covers. -/
theorem sweeps_spare_covered_assignThree :
    (onTrial.db.users.find 0).bind User.trialUntil = some (days 3)
      ∧ ∀ r w', Proc.Runs anyInput (expireDueSubscriptions withTrials (days 2)) (assignedOn assignThree)
          r w' →
        ∃ ids, w'.removals = (assignedOn assignThree).removals ++ ids
          ∧ ∀ id ∈ ids, Uncovered (assignedOn assignThree).db (days 2) id := by
  refine ⟨by decide, ?_⟩
  have hspans : (Op.assignPeer assignThree).SpansTrial onTrial (assignedOn assignThree) := by
    intro u hu _ e he
    have hall : ∀ u ∈ onTrial.db.users.rows, u.trialUntil = some (days 3)
        ∧ extendedUntil u (assignedOn assignThree).clock assignThree.days = days 3 := by
      decide
    obtain ⟨htrial, hend⟩ := hall u hu
    rw [hend]
    exact (Option.some.inj (htrial.symm.trans he)).ge
  have hreach : ReachesSpanning withTrials newcomer (assignedOn assignThree) :=
    .step (.assignPeer assignThree)
      (.step (.startTrial "ann" "192.0.2.1") .start trivial (Proc.runs_play (fun _ => trivial) _ _))
      hspans (Proc.runs_play (fun _ => trivial) _ _)
  have hclock : (assignedOn assignThree).clock ≤ days 2 := by decide
  exact (sweeps_spare_covered withTrials unused_newcomer hreach hclock).1

/-- **A running trial loses its device.** A trial of three days, one day assigned:
on the second day the sweep over the paid periods takes the trial device off. -/
theorem running_trial_removed :
    Unused newcomer.db ∧ Reaches withTrials newcomer (assignedOn assignOne)
      ∧ (assignedOn assignOne).clock ≤ days 2
      ∧ (∃ r, Proc.Runs anyInput (expireDueSubscriptions withTrials (days 2)) (assignedOn assignOne) r
        (sweptOn assignOne))
      ∧ (sweptOn assignOne).removals = (assignedOn assignOne).removals ++ [0]
      ∧ ((assignedOn assignOne).db.configs.find 0).map (fun c => (c.userId, c.kind, c.isActive))
        = some (0, .trial, true)
      ∧ ((sweptOn assignOne).db.configs.find 0).map Config.isActive = some false
      ∧ ((assignedOn assignOne).db.users.find 0).map (fun u => trialActive u (days 2)) = some true := by
  have hreach : Reaches withTrials newcomer (assignedOn assignOne) :=
    .step (.assignPeer assignOne)
      (.step (.startTrial "ann" "192.0.2.1") .start (Proc.runs_play (fun _ => trivial) _ _))
      (Proc.runs_play (fun _ => trivial) _ _)
  refine ⟨unused_newcomer, hreach, ?_, ⟨_, Proc.runs_play (fun _ => trivial) _ _⟩, ?_, ?_, ?_, ?_⟩
  · decide
  · decide
  · decide
  · decide
  · decide

end VpnPortal
