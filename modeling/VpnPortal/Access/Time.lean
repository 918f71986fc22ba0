/-
Time is conserved.

Seen through its clock and its recorded end an account is a prepaid meter, and
every operation is a step of that meter: a purchase or a grant extends it by the
days of the plan, the reward stage by the days of the rewards it marks, and the
sweeps leave it alone. The flag follows the date, because a sweep clears it only
after the end has passed.

* `AccountStep`, `RewardsMarked`: what one operation does to an account and to
  the rewards; `advances_op`: every operation extends accounts by what it grants or
  leaves them alone;
* `Log`: sequential runs, with their worlds;
* `time_conservation`: **the law over any run**: no end moves back, an account is active
  exactly until its end, its active time and the time ahead are the days of its plans,
  grants and rewards, and each reward is applied once, vested and to a live account.
-/
import VpnPortal.Access.Operations
import VpnPortal.Timeline.Meter

namespace VpnPortal

open Sessions Tables Timeline

/-! ### Rewards -/

/-- A reward is due at `t`. -/
def ReferralReward.isDue (r : ReferralReward) (t : Time) : Bool :=
  decide (r.appliedAt = none) && decide (r.vestsAt ≤ t)

/-- The days of the applied rewards of an account. -/
def appliedDays (rewards : List ReferralReward) (n : ℕ) : ℤ :=
  rewardDays (rewards.filter fun r => r.referrerUserId = n ∧ r.appliedAt ≠ none)

/-- A reward after the due rewards of the accounts `p` were marked at `t`. -/
def ReferralReward.marked (t : Time) (p : ℕ → Bool) (r : ReferralReward) : ReferralReward :=
  if p r.referrerUserId && r.isDue t then { r with appliedAt := some t } else r

@[simp] lemma ReferralReward.marked_id (t : Time) (p : ℕ → Bool) (r : ReferralReward) :
    (r.marked t p).id = r.id := by
  unfold ReferralReward.marked; split <;> rfl

@[simp] lemma ReferralReward.marked_referrer (t : Time) (p : ℕ → Bool) (r : ReferralReward) :
    (r.marked t p).referrerUserId = r.referrerUserId := by
  unfold ReferralReward.marked; split <;> rfl

@[simp] lemma ReferralReward.marked_days (t : Time) (p : ℕ → Bool) (r : ReferralReward) :
    (r.marked t p).days = r.days := by
  unfold ReferralReward.marked; split <;> rfl

/-- At `t` the due rewards of the accounts `p` are marked, all others stay, and
new ones are open. -/
def RewardsMarked (t : Time) (p : ℕ → Bool) (rewards rewards' : List ReferralReward) : Prop :=
  ∃ new : List ReferralReward, rewards' = rewards.map (ReferralReward.marked t p) ++ new
    ∧ ∀ r ∈ new, r.appliedAt = none ∧ 0 ≤ r.days

/-- The days that such a step adds to an account. -/
def markedDays (t : Time) (p : ℕ → Bool) (rewards : List ReferralReward) (n : ℕ) : ℤ :=
  if p n then rewardDays (dueRewards rewards n t) else 0

lemma rewardDays_cons (r : ReferralReward) (rs : List ReferralReward) :
    rewardDays (r :: rs) = r.days + rewardDays rs := by simp [rewardDays]

lemma rewardDays_nonneg {rs : List ReferralReward} (h : ∀ r ∈ rs, 0 ≤ r.days) :
    0 ≤ rewardDays rs := by
  refine List.sum_nonneg fun d hd => ?_
  obtain ⟨r, hr, rfl⟩ := List.mem_map.mp hd
  exact h r hr

lemma appliedDays_cons (r : ReferralReward) (rest : List ReferralReward) (n : ℕ) :
    appliedDays (r :: rest) n
      = (if r.referrerUserId = n ∧ r.appliedAt ≠ none then r.days else 0) + appliedDays rest n := by
  unfold appliedDays
  by_cases h : r.referrerUserId = n ∧ r.appliedAt ≠ none
  · rw [List.filter_cons_of_pos (by simpa using h), rewardDays_cons, if_pos h]
  · rw [List.filter_cons_of_neg (by simpa using h), if_neg h, zero_add]

lemma rewardDays_dueRewards_cons (r : ReferralReward) (rest : List ReferralReward) (n : ℕ)
    (t : Time) : rewardDays (dueRewards (r :: rest) n t)
      = (if r.referrerUserId = n ∧ r.isDue t = true then r.days else 0)
        + rewardDays (dueRewards rest n t) := by
  have hiff : (r.referrerUserId = n ∧ r.appliedAt = none ∧ r.vestsAt ≤ t)
      ↔ (r.referrerUserId = n ∧ r.isDue t = true) := by simp [ReferralReward.isDue]
  unfold dueRewards
  by_cases h : r.referrerUserId = n ∧ r.isDue t = true
  · rw [List.filter_cons_of_pos (by simpa using hiff.mpr h), rewardDays_cons, if_pos h]
  · have hnot : ¬ (r.referrerUserId = n ∧ r.appliedAt = none ∧ r.vestsAt ≤ t) :=
      fun h' => h (hiff.mp h')
    rw [List.filter_cons_of_neg (by simpa using hnot), if_neg h, zero_add]

/-- Marking adds the days of the marked rewards. -/
lemma appliedDays_map (t : Time) (p : ℕ → Bool) (rewards : List ReferralReward) (n : ℕ) :
    appliedDays (rewards.map (ReferralReward.marked t p)) n
      = appliedDays rewards n + markedDays t p rewards n := by
  unfold markedDays
  induction rewards with
  | nil => simp [appliedDays, dueRewards, rewardDays]
  | cons r rest ih =>
      rw [List.map_cons, appliedDays_cons, appliedDays_cons, ih, rewardDays_dueRewards_cons,
        ReferralReward.marked_referrer, ReferralReward.marked_days]
      by_cases hn : r.referrerUserId = n
      · subst hn
        unfold ReferralReward.marked
        cases hp : p r.referrerUserId with
        | false => simp
        | true =>
            cases hdue : r.isDue t with
            | false => simp; ring
            | true =>
                have hopen : r.appliedAt = none := by
                  simp only [ReferralReward.isDue, Bool.and_eq_true, decide_eq_true_eq] at hdue
                  exact hdue.1
                simp [hopen]
                ring
      · simp [hn]

lemma appliedDays_marked {t : Time} {p : ℕ → Bool} {rewards rewards' : List ReferralReward}
    (h : RewardsMarked t p rewards rewards') (n : ℕ) :
    appliedDays rewards' n = appliedDays rewards n + markedDays t p rewards n := by
  obtain ⟨new, rfl, hnew⟩ := h
  have hopen : new.filter (fun r => r.referrerUserId = n ∧ r.appliedAt ≠ none) = [] := by
    refine List.filter_eq_nil_iff.mpr fun r hr => ?_
    simp [(hnew r hr).1]
  rw [← appliedDays_map, appliedDays, List.filter_append, hopen, List.append_nil]
  rfl

/-! ### One operation -/

/-- What one operation at the time `t` does to an account: nothing, or the flag is
cleared after the end, or the end is extended by `g` days of plans and grants
and `r` days of rewards. Rewards are marked (`m`) only on an account that is
live without them. -/
def AccountStep (t : Time) (g r : ℤ) (m : Bool) (u u' : User) : Prop :=
  (u'.subscribedUntil = u.subscribedUntil ∧ g = 0 ∧ r = 0 ∧ m = false
      ∧ (u'.isSubscribed = u.isSubscribed ∨ (u.isDue t = true ∧ u'.isSubscribed = false)))
    ∨ (u'.isSubscribed = true ∧ 0 ≤ g ∧ 0 ≤ r
      ∧ u'.subscribedUntil = some (max t (u.subscribedUntil.getD t) + days g + days r)
      ∧ t < max t (u.subscribedUntil.getD t) + days g)

/-- What one operation does that grants `g n` days to the account `n`: the
rewards of the accounts `p` are marked, at the time the clock shows. -/
structure Advances (w : World) (g : ℕ → ℤ) (p : ℕ → Bool) (w' : World) : Prop where
  clock_le : w.clock ≤ w'.clock
  rewards : RewardsMarked w'.clock p w.db.referralRewards.rows w'.db.referralRewards.rows
  known : ∀ n, p n = true → ∃ u, w.db.users.find n = some u
  accounts : ∀ n u, w.db.users.find n = some u → ∃ u', w'.db.users.find n = some u'
    ∧ AccountStep w'.clock (g n) (markedDays w'.clock p w.db.referralRewards.rows n) (p n) u u'
  absent : ∀ n, w.db.users.find n = none → w'.db.users.find n = none

/-- Rewards are not debts. -/
def RewardsNonneg (db : Db) : Prop := ∀ r ∈ db.referralRewards.rows, 0 ≤ r.days

lemma markedDays_nonneg {db : Db} (h : RewardsNonneg db) (t : Time) (p : ℕ → Bool) (n : ℕ) :
    0 ≤ markedDays t p db.referralRewards.rows n := by
  unfold markedDays
  split
  · exact rewardDays_nonneg fun r hr => h r (List.mem_filter.mp hr).1
  · exact le_rfl

lemma RewardsMarked.nonneg {t : Time} {p : ℕ → Bool} {rewards rewards' : List ReferralReward}
    (h : RewardsMarked t p rewards rewards') (hr : ∀ r ∈ rewards, 0 ≤ r.days) :
    ∀ r ∈ rewards', 0 ≤ r.days := by
  obtain ⟨new, rfl, hnew⟩ := h
  intro r hmem
  rcases List.mem_append.mp hmem with hmem | hmem
  · obtain ⟨x, hx, rfl⟩ := List.mem_map.mp hmem
    rw [ReferralReward.marked_days]
    exact hr x hx
  · exact (hnew r hmem).2

lemma Advances.nonneg {w w' : World} {g : ℕ → ℤ} {p : ℕ → Bool} (h : Advances w g p w')
    (hr : RewardsNonneg w.db) : RewardsNonneg w'.db := h.rewards.nonneg hr

lemma RewardsMarked.refl (t : Time) (rewards : List ReferralReward) :
    RewardsMarked t (fun _ => false) rewards rewards := by
  have hid : ReferralReward.marked t (fun _ => false) = id := by
    funext r
    simp [ReferralReward.marked]
  exact ⟨[], by rw [hid]; simp, by simp⟩

lemma markedDays_false (t : Time) (rewards : List ReferralReward) (n : ℕ) :
    markedDays t (fun _ => false) rewards n = 0 := by simp [markedDays]

/-- An account that keeps its date and its flag. -/
lemma AccountStep.same {u u' : User} (hdate : u'.subscribedUntil = u.subscribedUntil)
    (hflag : u'.isSubscribed = u.isSubscribed) (t : Time) : AccountStep t 0 0 false u u' :=
  Or.inl ⟨hdate, rfl, rfl, rfl, Or.inl hflag⟩

/-- Nothing is granted and no reward marked. -/
lemma Advances.quiet {w w' : World} (hclock : w.clock ≤ w'.clock)
    (hrewards : w'.db.referralRewards = w.db.referralRewards)
    (haccounts : ∀ n u, w.db.users.find n = some u → ∃ u', w'.db.users.find n = some u'
      ∧ AccountStep w'.clock 0 0 false u u')
    (habsent : ∀ n, w.db.users.find n = none → w'.db.users.find n = none) :
    Advances w (fun _ => 0) (fun _ => false) w' where
  clock_le := hclock
  rewards := by rw [hrewards]; exact RewardsMarked.refl _ _
  known := by simp
  accounts n u hu := by
    rw [markedDays_false]
    exact haccounts n u hu
  absent := habsent

lemma Advances.of_same {w w' : World} (hclock : w.clock ≤ w'.clock) (hdb : w'.db = w.db) :
    Advances w (fun _ => 0) (fun _ => false) w' := by
  refine Advances.quiet hclock (by rw [hdb]) ?_ ?_
  · intro n u hu
    rw [hdb]
    exact ⟨u, hu, AccountStep.same rfl rfl _⟩
  · intro n hn
    rw [hdb]
    exact hn

/-- The rewards after an activation: those of the buyer that are due are marked,
and a new one is open. -/
lemma rewardsMarked_activation {db : Db} {user : User} {payment : Payment} {a : Activation}
    (ha : a.Drawn db.books user payment) :
    RewardsMarked a.at_ (fun n => decide (n = user.id)) db.referralRewards.rows
      (a.write db).referralRewards.rows := by
  have hids : ∀ r ∈ db.referralRewards.rows, r.id ∈ a.applied.map ReferralReward.id
      ↔ (decide (r.referrerUserId = user.id) && r.isDue a.at_) = true := by
    intro r hr
    rw [ha.applied_eq]
    constructor
    · intro hmem
      obtain ⟨x, hx, hid⟩ := List.mem_map.mp hmem
      obtain ⟨hrow, hdue⟩ := List.mem_filter.mp hx
      obtain rfl : x = r := Table.eq_of_num_eq hrow hr hid
      simpa [ReferralReward.isDue] using hdue
    · intro hdue
      refine List.mem_map_of_mem (List.mem_filter.mpr ⟨hr, ?_⟩)
      simpa [ReferralReward.isDue] using hdue
  have hmark : ∀ r ∈ db.referralRewards.rows,
      (if r.id ∈ a.applied.map ReferralReward.id then { r with appliedAt := some a.at_ } else r)
        = r.marked a.at_ fun n => decide (n = user.id) := by
    intro r hr
    unfold ReferralReward.marked
    simp only [hids r hr]
  rw [Activation.write_eq]
  dsimp only
  rw [rows_foldl_markApplied]
  unfold Activation.addReward
  cases hreward : a.reward with
  | none => exact ⟨[], by rw [List.append_nil]; exact List.map_congr_left hmark, by simp⟩
  | some x =>
      dsimp only
      split
      · exact ⟨[], by rw [List.append_nil]; exact List.map_congr_left hmark, by simp⟩
      · -- the new reward has a number of its own, so it is not among the marked ones
        have hnew : db.referralRewards.next ∉ a.applied.map ReferralReward.id := by
          rw [ha.applied_eq]
          intro hmem
          obtain ⟨y, hy, hid⟩ := List.mem_map.mp hmem
          have hlt := db.referralRewards.lt_next y (List.mem_filter.mp hy).1
          rw [num_referralReward] at hlt
          omega
        refine ⟨[{ x with id := db.referralRewards.next }], ?_, ?_⟩
        · rw [Table.rows_insert, List.map_append, List.map_singleton, if_neg hnew,
            List.map_congr_left hmark]
        · intro r hr
          rw [List.mem_singleton.mp hr]
          have hdrawn := ha.reward_eq
          rw [hreward] at hdrawn
          unfold rewardOf at hdrawn
          split at hdrawn
          · cases hdrawn
          · split at hdrawn
            · cases hdrawn
            · obtain rfl := Option.some.inj hdrawn
              exact ⟨rfl, (by decide : (0 : ℤ) ≤ referralRewardDays)⟩

/-- The days an operation granted to an account. -/
def Op.grants (op : Op) (r : Except Exn (Option ℕ)) (n : ℕ) : ℤ :=
  match op, r with
  | .activate payment, .ok (some m) =>
      if m = n then ((planInfo (some payment.plan)).map PlanInfo.days).getD 0 else 0
  | .assignPeer req, .ok (some m) => if m = n then req.days else 0
  | _, _ => 0

lemma advances_activation {w w' : World} {user : User} {payment : Payment} {a : Activation}
    {ids : List ℕ} (hid : user.id = payment.userId) (hclock : w.clock ≤ w'.clock)
    (hu : w.db.users.find user.id = some user) (ha : a.Drawn w.db.books user payment)
    (hat : a.at_ = w'.clock) (hoff : SwitchesOff ids (a.write w.db) w'.db)
    (hr : RewardsNonneg w.db) :
    Advances w ((Op.activate payment).grants (.ok (some payment.userId)))
      (fun n => decide (n = user.id)) w' := by
  obtain ⟨off, -, hdb⟩ := hoff
  rw [Db.foldl_deactivate] at hdb
  have husers : w'.db.users = (a.write w.db).users := by rw [hdb]
  have hrewards : w'.db.referralRewards = (a.write w.db).referralRewards := by rw [hdb]
  obtain ⟨info, hinfo, -⟩ := ha.new_eq
  refine ⟨hclock, ?_, ?_, ?_, ?_⟩
  · rw [hrewards, ← hat]
    exact rewardsMarked_activation ha
  · intro n hn
    rw [of_decide_eq_true hn]
    exact ⟨user, hu⟩
  · intro n u hn
    rw [husers]
    by_cases heq : n = user.id
    · subst heq
      obtain rfl := Option.some.inj (hu.symm.trans hn)
      refine ⟨a.new, ha.find_user hu, Or.inr ⟨ha.isSubscribed, ?_, markedDays_nonneg hr _ _ _, ?_, ?_⟩⟩
      · simp only [Op.grants, hid, if_pos, hinfo, Option.map_some, Option.getD_some]
        exact (planInfo_days_pos hinfo).le
      · rw [ha.until_eq hinfo, ha.applied_eq, ← hat]
        simp [Op.grants, hid, hinfo, extendedUntil, markedDays, Db.books]
      · simp only [Op.grants, hid, if_pos, hinfo, Option.map_some, Option.getD_some]
        have hpos : 0 < days info.days := days_pos (planInfo_days_pos hinfo)
        have hmax := le_max_left w'.clock (user.subscribedUntil.getD w'.clock)
        linarith
    · have hne : payment.userId ≠ n := fun h => heq (by rw [hid, h])
      refine ⟨u, by rw [ha.find_user_of_ne heq]; exact hn, ?_⟩
      simp only [Op.grants, if_neg hne, markedDays, heq, decide_false, Bool.false_eq_true, if_false]
      exact AccountStep.same rfl rfl _
  · intro n hn
    rw [husers, ha.find_user_of_ne ?_]
    · exact hn
    · rintro rfl
      rw [hu] at hn
      cases hn

lemma advances_assignPeer {w w' : World} {user : User} {req : AssignPeerRequest}
    (hclock : w.clock ≤ w'.clock) (hu : w.db.users.find user.id = some user)
    (hdb : w'.db = w.db.saveUser user (assigned user req.peerIp req.days w'.clock)) :
    Advances w ((Op.assignPeer req).grants (.ok (some user.id))) (fun _ => false) w' := by
  have hfind : ∀ n, n ≠ user.id → w'.db.users.find n = w.db.users.find n := by
    intro n hn
    rw [hdb]
    exact find_saveAccount_of_ne hn
  have hmerge : User.merge user (assigned user req.peerIp req.days w'.clock) user
      = assigned user req.peerIp req.days w'.clock := by simp [User.merge, assigned]
  refine ⟨hclock, ?_, by simp, ?_, ?_⟩
  · rw [hdb]
    exact RewardsMarked.refl _ _
  · intro n u hn
    rw [markedDays_false]
    by_cases heq : n = user.id
    · subst heq
      obtain rfl := Option.some.inj (hu.symm.trans hn)
      have hself : w'.db.users.find user.id
          = some (User.merge user (assigned user req.peerIp req.days w'.clock) user) := by
        conv_lhs => rw [hdb]
        exact find_saveAccount_self _ hu
      rw [hmerge] at hself
      have hone := req.one_le
      refine ⟨_, hself, Or.inr ⟨rfl, ?_, le_rfl, ?_, ?_⟩⟩
      · simp only [Op.grants, if_pos]
        omega
      · simp [Op.grants, assigned, extendedUntil]
      · simp only [Op.grants, if_pos]
        have hpos : 0 < days req.days := days_pos (by omega)
        have hmax := le_max_left w'.clock (user.subscribedUntil.getD w'.clock)
        linarith
    · have hne : user.id ≠ n := fun h => heq h.symm
      refine ⟨u, by rw [hfind n heq]; exact hn, ?_⟩
      simp only [Op.grants, if_neg hne]
      exact AccountStep.same rfl rfl _
  · intro n hn
    rw [hfind n ?_]
    · exact hn
    · rintro rfl
      rw [hu] at hn
      cases hn

/-- The accounts whose rewards the job marks. -/
def liveAccounts (db : Db) (t : Time) (n : ℕ) : Bool :=
  (db.users.find n).any fun u => subscribed u t

/-- The rewards after the reward stage. -/
lemma rewardsMarked_drawWork {w w' : World} {sent : List NewNotice}
    (hdb : w'.db = writeNotices sent
      ((drawWork w.db.books w'.clock).foldl (RewardWork.write w'.clock) w.db)) :
    RewardsMarked w'.clock (liveAccounts w.db w'.clock) w.db.referralRewards.rows
      w'.db.referralRewards.rows := by
  obtain ⟨users, notices, -, hcommit⟩ := rewards_commit_eq w'.clock sent w.db
  rw [hcommit] at hdb
  have hrewards : w'.db.referralRewards
      = (markedAt w.db w'.clock).foldl (markApplied w'.clock) w.db.referralRewards := by
    conv_lhs => rw [hdb]
  refine ⟨[], ?_, by simp⟩
  rw [hrewards, rows_foldl_markApplied, List.append_nil]
  refine List.map_congr_left fun r hmem => ?_
  have hiff : r.id ∈ markedAt w.db w'.clock
      ↔ (liveAccounts w.db w'.clock r.referrerUserId && r.isDue w'.clock) = true := by
    rw [mem_markedAt hmem, DueAt, liveAccounts, Bool.and_eq_true, Option.any_eq_true,
      ReferralReward.isDue, Bool.and_eq_true, decide_eq_true_eq, decide_eq_true_eq]
    tauto
  unfold ReferralReward.marked
  simp only [hiff]

lemma advances_rewards {w w' : World} {sent : List NewNotice} (hclock : w.clock ≤ w'.clock)
    (hdb : w'.db = writeNotices sent
      ((drawWork w.db.books w'.clock).foldl (RewardWork.write w'.clock) w.db))
    (hr : RewardsNonneg w.db) :
    Advances w (fun _ => 0) (liveAccounts w.db w'.clock) w' := by
  have hmarked := rewardsMarked_drawWork hdb
  obtain ⟨users, notices, hrows, hcommit⟩ := rewards_commit_eq w'.clock sent w.db
  rw [hcommit] at hdb
  have hfind : ∀ n, w'.db.users.find n
      = (w.db.users.find n).map (credited w.db.books w'.clock) := by
    intro n
    conv_lhs => rw [hdb]
    exact Table.find_of_rows_map (g := credited w.db.books w'.clock) (fun _ => rfl) hrows n
  refine ⟨hclock, hmarked, ?_, ?_, ?_⟩
  · intro n hn
    rw [liveAccounts, Option.any_eq_true] at hn
    obtain ⟨u, hu, -⟩ := hn
    exact ⟨u, hu⟩
  · intro n u hu
    refine ⟨credited w.db.books w'.clock u, by rw [hfind, hu]; rfl, ?_⟩
    have hid : u.id = n := (Table.mem_of_find hu).2
    cases hlive : subscribed u w'.clock with
    | false =>
        have hp : liveAccounts w.db w'.clock n = false := by simp [liveAccounts, hu, hlive]
        have hsame : credited w.db.books w'.clock u = u := by
          simp [credited, creditsFor, hlive, rewardDays]
        rw [markedDays, hp, hsame]
        exact AccountStep.same rfl rfl _
    | true =>
        have hp : liveAccounts w.db w'.clock n = true := by simp [liveAccounts, hu, hlive]
        have hflag := hlive
        rw [subscribed, Bool.and_eq_true, Option.any_eq_true] at hflag
        obtain ⟨hsub, x, hx, hlt⟩ := hflag
        have hlt' : w'.clock < x := of_decide_eq_true hlt
        have hmax : max w'.clock (u.subscribedUntil.getD w'.clock) = x := by
          rw [hx, Option.getD_some]
          exact max_eq_right hlt'.le
        refine Or.inr ⟨hsub, le_rfl, markedDays_nonneg hr _ _ _, ?_, ?_⟩
        · rw [hmax, days_zero, add_zero, markedDays, if_pos hp]
          simp [credited, creditsFor, hlive, User.extend, hx, hid, Db.books]
        · rw [hmax, days_zero, add_zero]
          exact hlt'
  · intro n hn
    rw [hfind, hn]
    rfl

lemma advances_subs {w w' : World} (h : w.clock ≤ w'.clock ∧ (w'.db = w.db
    ∨ ∃ reply stats, SubsEffect reply w'.clock w.db stats w'.db)) :
    Advances w (fun _ => 0) (fun _ => false) w' := by
  obtain ⟨hclock, hdb | ⟨reply, stats, he⟩⟩ := h
  · exact Advances.of_same hclock hdb
  · refine Advances.quiet hclock (by rw [he.rest]) ?_ ?_
    · intro n u hu
      refine ⟨u.swept w.db reply w'.clock, by rw [he.find_user, hu]; rfl, Or.inl ⟨?_, rfl, rfl, rfl, ?_⟩⟩
      · exact User.swept_subscribedUntil u
      · rw [User.swept_isSubscribed]
        cases hdue : u.isDue w'.clock with
        | false => simp
        | true => cases cleared w.db reply u <;> simp
    · intro n hn
      rw [he.find_user, hn]
      rfl

lemma advances_trials {w w' : World} (h : w.clock ≤ w'.clock ∧ (w'.db = w.db
    ∨ ∃ reply stats, TrialsEffect reply w'.clock w.db stats w'.db)) :
    Advances w (fun _ => 0) (fun _ => false) w' := by
  obtain ⟨hclock, hdb | ⟨reply, stats, he⟩⟩ := h
  · exact Advances.of_same hclock hdb
  · have husers : w'.db.users = w.db.users := by rw [he.rest]
    refine Advances.quiet hclock (by rw [he.rest]) ?_ ?_
    · intro n u hu
      exact ⟨u, by rw [husers]; exact hu, AccountStep.same rfl rfl _⟩
    · intro n hn
      rw [husers]
      exact hn

/-- The operations that the law of time is about. -/
def Op.Timed : Op → Prop
  | .activate _ => True
  | .assignPeer _ => True
  | .applyDueRewards => True
  | .expireDueSubscriptions => True
  | .expireDueTrials => True
  | _ => False

/-- **Every operation extends or leaves alone.** -/
theorem advances_op {J : World → Input → Prop} {cfg : Settings} {op : Op} (hop : op.Timed)
    {w w' : World} {r : Except Exn (Option ℕ)} (hrun : Proc.Runs J (op.run cfg) w r w')
    (hr : RewardsNonneg w.db) : ∃ p, Advances w (op.grants r) p w' := by
  cases op with
  | activate payment =>
      obtain ⟨hclock, ⟨hnone, hdb⟩ | ⟨hsome, user, a, ids, hid, hu, ha, -, hat, hoff⟩⟩ :=
        ((alone_activateOrder payment).runs hrun).2
      · have hgrants : (Op.activate payment).grants r = fun _ => 0 := by
          funext n
          unfold Op.grants
          split
          · rename_i h; exact absurd rfl (hnone _)
          · rename_i h; cases h
          · rfl
        rw [hgrants]
        exact ⟨_, Advances.of_same hclock hdb⟩
      · rw [hsome]
        exact ⟨_, advances_activation hid hclock hu ha hat hoff hr⟩
  | assignPeer req =>
      suffices halone : Proc.Alone J (fun _ _ => True)
          (fun r w' => ∃ p, Advances w ((Op.assignPeer req).grants r) p w')
          ((Op.assignPeer req).run cfg) w from (halone.runs hrun).2
      refine (alone_assignPeer req).bind ?_ ?_
      · rintro u v ⟨hclock, ⟨hno, -⟩ | ⟨user, hu, -, h, hdb⟩⟩
        · exact absurd rfl (hno u)
        · obtain rfl := Except.ok.inj h
          exact ⟨_, @advances_assignPeer w v user req hclock hu hdb⟩
      · rintro e v ⟨hclock, ⟨-, hdb⟩ | ⟨user, -, -, h, -⟩⟩
        · exact ⟨_, Advances.of_same hclock hdb⟩
        · cases h
  | applyDueRewards =>
      obtain ⟨⟨i, -, hclock⟩, sent, hdb⟩ := ((alone_forget (alone_applyDueRewards_at.mono
        (fun _ _ h => h) fun _ w' h => And.intro h.1 h.2.2)).runs hrun).2
      exact ⟨_, advances_rewards (by rw [hclock]; exact le_max_left _ _) hdb hr⟩
  | expireDueSubscriptions =>
      exact ⟨_, advances_subs ((alone_forget (p := now >>= VpnPortal.expireDueSubscriptions cfg)
        alone_now_subs).runs hrun).2⟩
  | expireDueTrials =>
      exact ⟨_, advances_trials ((alone_forget (p := now >>= VpnPortal.expireDueTrials cfg)
        alone_now_trials).runs hrun).2⟩
  | startTrial _ _ => exact hop.elim
  | addConfig _ _ => exact hop.elim
  | deleteConfig _ _ => exact hop.elim
  | hourlyJob => exact hop.elim

/-! ### Whole runs -/

/-- One operation of a run, with the worlds before and after it. -/
structure Entry where
  before : World
  op : Op
  result : Except Exn (Option ℕ)
  after : World

/-- A sequential run of the operations on time, of any length. -/
inductive Log (cfg : Settings) (w₀ : World) : List Entry → World → Prop where
  | nil : Log cfg w₀ [] w₀
  | snoc {log : List Entry} {w w' : World} {op : Op} {r : Except Exn (Option ℕ)} :
      Log cfg w₀ log w → op.Timed → Proc.Runs anyInput (op.run cfg) w r w' →
      Log cfg w₀ (log ++ [⟨w, op, r, w'⟩]) w'

/-- The instants from now until `b` at which the account is active. -/
noncomputable def activeIn (w : World) (n : ℕ) (b : Time) : ℕ :=
  ((Finset.Ico w.clock b).filter fun t =>
    (w.db.users.find n).any (fun u => hasActiveSubscription u t) = true).card

/-- The instants of a run at which the account was active. -/
noncomputable def activeTime (log : List Entry) (n : ℕ) : ℤ :=
  (log.map fun e => (activeIn e.before n e.after.clock : ℤ)).sum

/-- The days of plans and grants that a run gave to the account. -/
def granted (log : List Entry) (n : ℕ) : ℤ := (log.map fun e => e.op.grants e.result n).sum

/-- The flag follows the date: it is off only for an account without an end or
with one that has passed. -/
def FlagFollows (c : Time) (u : User) : Prop :=
  (u.subscribedUntil = none → u.isSubscribed = false)
    ∧ ∀ x, u.subscribedUntil = some x → u.isSubscribed = true ∨ x < c

/-- The invariant of the run. -/
structure Dated (w : World) : Prop where
  flags : ∀ n u, w.db.users.find n = some u → FlagFollows w.clock u
  rewards : RewardsNonneg w.db

lemma AccountStep.flagFollows {c t : Time} {g r : ℤ} {m : Bool} {u u' : User}
    (h : AccountStep t g r m u u') (hu : FlagFollows c u) (hc : c ≤ t) : FlagFollows t u' := by
  rcases h with ⟨hdate, -, -, -, hflag⟩ | ⟨hflag, -, -, hdate, -⟩
  · constructor
    · intro hnone
      rw [hdate] at hnone
      rcases hflag with hflag | ⟨-, hflag⟩
      · rw [hflag]; exact hu.1 hnone
      · exact hflag
    · intro x hx
      rw [hdate] at hx
      rcases hflag with hflag | ⟨hdue, -⟩
      · rw [hflag]
        rcases hu.2 x hx with hon | hlt
        · exact Or.inl hon
        · exact Or.inr (lt_of_lt_of_le hlt hc)
      · rw [User.isDue, Bool.and_eq_true, hx] at hdue
        exact Or.inr (of_decide_eq_true hdue.2)
  · refine ⟨fun hnone => ?_, fun _ _ => Or.inl hflag⟩
    rw [hdate] at hnone
    cases hnone

lemma Advances.dated {w w' : World} {g : ℕ → ℤ} {p : ℕ → Bool} (h : Advances w g p w')
    (hw : Dated w) : Dated w' where
  flags n u' hu' := by
    cases hu : w.db.users.find n with
    | none => rw [h.absent n hu] at hu'; cases hu'
    | some u =>
        obtain ⟨v, hv, hstep⟩ := h.accounts n u hu
        obtain rfl := Option.some.inj (hv.symm.trans hu')
        exact hstep.flagFollows (hw.flags n u hu) h.clock_le
  rewards := h.nonneg hw.rewards

lemma Log.dated {cfg : Settings} {w₀ w : World} {log : List Entry} (h : Log cfg w₀ log w)
    (h₀ : Dated w₀) : Dated w := by
  induction h with
  | nil => exact h₀
  | snoc _ hop hrun ih =>
      obtain ⟨p, hadv⟩ := advances_op hop hrun ih.rewards
      exact hadv.dated ih

/-- At every instant from now on the flag and the date agree with the date
alone. -/
lemma FlagFollows.hasActive_iff {c t : Time} {u : User} (h : FlagFollows c u) (hc : c ≤ t) :
    hasActiveSubscription u t = true ↔ ∃ x, u.subscribedUntil = some x ∧ t < x := by
  unfold hasActiveSubscription
  cases hsub : u.isSubscribed with
  | true => cases u.subscribedUntil <;> simp
  | false =>
      simp only [Bool.not_false, if_true, Bool.false_eq_true, false_iff, not_exists, not_and, not_lt]
      intro x hx
      rcases h.2 x hx with hon | hlt
      · rw [hsub] at hon; cases hon
      · exact (lt_of_lt_of_le hlt hc).le

/-- An account as a meter. -/
def meterOf (n : ℕ) (w : World) : Meter := ⟨w.clock, (w.db.users.find n).bind User.subscribedUntil⟩

lemma activeIn_eq_spent {w : World} (hw : Dated w) (n : ℕ) (b : Time) :
    activeIn w n b = (meterOf n w).spent b := by
  unfold activeIn Meter.spent
  congr 1
  refine Finset.filter_congr fun t ht => ?_
  have hle : w.clock ≤ t := (Finset.mem_Ico.mp ht).1
  unfold Meter.On meterOf
  cases hu : w.db.users.find n with
  | none => simp
  | some u =>
      rw [Option.any_some, (hw.flags n u hu).hasActive_iff hle]
      simp

/-- The extension an entry gives to an account. -/
def Entry.credit (n : ℕ) (e : Entry) : ℤ :=
  days (e.op.grants e.result n + (appliedDays e.after.db.referralRewards.rows n
    - appliedDays e.before.db.referralRewards.rows n))

/-- An entry as a step of the meter. -/
def Entry.meterStep (n : ℕ) (e : Entry) : Meter × ℤ × Meter :=
  (meterOf n e.before, e.credit n, meterOf n e.after)

lemma days_nonneg {n : ℤ} (h : 0 ≤ n) : 0 ≤ days n := by
  unfold days; positivity

/-- **An operation is a step of the meter.** -/
lemma Advances.meter {w w' : World} {g : ℕ → ℤ} {p : ℕ → Bool} (h : Advances w g p w') {n : ℕ}
    {u : User} (hu : w.db.users.find n = some u) :
    (meterOf n w).Step (days (g n + (appliedDays w'.db.referralRewards.rows n
      - appliedDays w.db.referralRewards.rows n))) (meterOf n w') := by
  obtain ⟨u', hu', hstep⟩ := h.accounts n u hu
  have hsum : appliedDays w'.db.referralRewards.rows n - appliedDays w.db.referralRewards.rows n
      = markedDays w'.clock p w.db.referralRewards.rows n := by
    rw [appliedDays_marked h.rewards]
    ring
  rw [hsum]
  have hend : (meterOf n w).end_ = u.subscribedUntil := by simp [meterOf, hu]
  have hend' : (meterOf n w').end_ = u'.subscribedUntil := by simp [meterOf, hu']
  refine ⟨h.clock_le, ?_⟩
  rw [hend, hend']
  rcases hstep with ⟨hdate, hg, hr, -, -⟩ | ⟨-, hg, hr, hdate, -⟩
  · exact Or.inl ⟨hdate, by rw [hg, hr]; simp⟩
  · refine Or.inr ⟨days_nonneg (add_nonneg hg hr), ?_⟩
    rw [hdate, days_add, ← add_assoc]
    rfl

lemma Log.trace {cfg : Settings} {w₀ w : World} {log : List Entry} (h : Log cfg w₀ log w)
    (h₀ : Dated w₀) {n : ℕ} {u : User} (hu : w.db.users.find n = some u) :
    Trace (meterOf n w₀) (log.map (Entry.meterStep n)) (meterOf n w) := by
  induction h generalizing u with
  | nil => exact .nil _
  | snoc hlog hop hrun ih =>
      obtain ⟨p, hadv⟩ := advances_op hop hrun (hlog.dated h₀).rewards
      rename_i w₁ w₂ _ _
      cases hv : w₁.db.users.find n with
      | none => rw [hadv.absent n hv] at hu; cases hu
      | some v =>
          rw [List.map_append]
          exact .snoc (ih hv) (hadv.meter hv)

lemma Log.credits {cfg : Settings} {w₀ w : World} {log : List Entry} (h : Log cfg w₀ log w)
    (n : ℕ) : Trace.credits (log.map (Entry.meterStep n))
      = days (granted log n + (appliedDays w.db.referralRewards.rows n
        - appliedDays w₀.db.referralRewards.rows n)) := by
  induction h with
  | nil => simp [Trace.credits, granted]
  | @snoc log w w' op r hlog _ _ ih =>
      simp only [Trace.credits, granted, List.map_append, List.sum_append, List.map_cons,
        List.map_nil, List.sum_cons, List.sum_nil, add_zero] at ih ⊢
      rw [ih, Entry.meterStep, Entry.credit, ← days_add]
      congr 1
      ring

lemma Log.onTime {cfg : Settings} {w₀ w : World} {log : List Entry} (h : Log cfg w₀ log w)
    (h₀ : Dated w₀) (n : ℕ) :
    Trace.onTime (log.map (Entry.meterStep n)) = activeTime log n := by
  induction h with
  | nil => rfl
  | @snoc log w w' op r hlog _ _ ih =>
      simp only [Trace.onTime, activeTime, List.map_append, List.sum_append, List.map_cons,
        List.map_nil, List.sum_cons, List.sum_nil, add_zero] at ih ⊢
      rw [ih, activeIn_eq_spent (hlog.dated h₀)]
      rfl

/-- Every entry of a run is an operation that extends or leaves alone, in a world
that keeps the invariant. -/
lemma Log.advances {cfg : Settings} {w₀ w : World} {log : List Entry} (h : Log cfg w₀ log w)
    (h₀ : Dated w₀) : ∀ e ∈ log, ∃ p, Advances e.before (e.op.grants e.result) p e.after := by
  induction h with
  | nil => simp
  | snoc hlog hop hrun ih =>
      intro e he
      rcases List.mem_append.mp he with he | he
      · exact ih e he
      · rw [List.mem_singleton.mp he]
        exact advances_op hop hrun (hlog.dated h₀).rewards

/-! ### The law of time -/

/-- Nothing was sold yet: no account has an end or the flag, and no reward was
applied. -/
structure Unused (db : Db) : Prop where
  until_ : ∀ u ∈ db.users.rows, u.subscribedUntil = none
  flag : ∀ u ∈ db.users.rows, u.isSubscribed = false
  rewards : ∀ r ∈ db.referralRewards.rows, r.appliedAt = none ∧ 0 ≤ r.days

lemma Unused.dated {w : World} (h : Unused w.db) : Dated w where
  flags n u hu := by
    have hmem := (Table.mem_of_find hu).1
    refine ⟨fun _ => h.flag u hmem, fun x hx => ?_⟩
    rw [h.until_ u hmem] at hx
    cases hx
  rewards r hr := (h.rewards r hr).2

lemma Unused.appliedDays_eq {db : Db} (h : Unused db) (n : ℕ) :
    appliedDays db.referralRewards.rows n = 0 := by
  have hopen : db.referralRewards.rows.filter
      (fun r => r.referrerUserId = n ∧ r.appliedAt ≠ none) = [] := by
    refine List.filter_eq_nil_iff.mpr fun r hr => ?_
    simp [(h.rewards r hr).1]
  rw [appliedDays, hopen]
  rfl

lemma Unused.left_eq {w : World} (h : Unused w.db) (n : ℕ) : (meterOf n w).left = 0 := by
  unfold meterOf Meter.left
  cases hu : w.db.users.find n with
  | none => rfl
  | some u => simp [h.until_ u (Table.mem_of_find hu).1]

/-- The entry does not move an end back. -/
def Entry.KeepsEnds (e : Entry) : Prop :=
  ∀ n u x, e.before.db.users.find n = some u → u.subscribedUntil = some x →
    ∃ u' x', e.after.db.users.find n = some u' ∧ u'.subscribedUntil = some x' ∧ x ≤ x'

/-- The account is live at the end of the entry, even without the `d` days of
rewards it was given there. -/
def Entry.LiveWithout (e : Entry) (n : ℕ) (d : ℤ) : Prop :=
  ∃ u x, e.after.db.users.find n = some u ∧ u.isSubscribed = true
    ∧ u.subscribedUntil = some x ∧ e.after.clock < x - days d

/-- What the entry does to a reward: it stays as it is, or it was open, has
vested, its referrer is live, and it gets the time of the entry. -/
def Entry.AppliesOnce (e : Entry) (r r' : ReferralReward) : Prop :=
  r' = r ∨ (r.appliedAt = none ∧ r' = { r with appliedAt := some e.after.clock }
    ∧ r.vestsAt ≤ e.after.clock
    ∧ e.LiveWithout r.referrerUserId
        (appliedDays e.after.db.referralRewards.rows r.referrerUserId
          - appliedDays e.before.db.referralRewards.rows r.referrerUserId))

/-- Every reward is kept and applied at most once, and new ones are open. -/
def Entry.RewardsApplied (e : Entry) : Prop :=
  ∃ (step : ReferralReward → ReferralReward) (new : List ReferralReward),
    e.after.db.referralRewards.rows = e.before.db.referralRewards.rows.map step ++ new
    ∧ (∀ r ∈ e.before.db.referralRewards.rows, e.AppliesOnce r (step r))
    ∧ ∀ r ∈ new, r.appliedAt = none

lemma Advances.keepsEnds {e : Entry} {g : ℕ → ℤ} {p : ℕ → Bool}
    (h : Advances e.before g p e.after) : e.KeepsEnds := by
  intro n u x hu hx
  obtain ⟨u', hu', -⟩ := h.accounts n u hu
  have hend : (meterOf n e.before).end_ = some x := by simp [meterOf, hu, hx]
  obtain ⟨x', hx', hle⟩ := (h.meter hu).end_le hend
  refine ⟨u', x', hu', ?_, hle⟩
  simpa [meterOf, hu'] using hx'

lemma Advances.liveWithout {e : Entry} {g : ℕ → ℤ} {p : ℕ → Bool}
    (h : Advances e.before g p e.after) {n : ℕ} (hn : p n = true) :
    e.LiveWithout n (appliedDays e.after.db.referralRewards.rows n
      - appliedDays e.before.db.referralRewards.rows n) := by
  obtain ⟨u, hu⟩ := h.known n hn
  obtain ⟨u', hu', ⟨-, -, -, hm, -⟩ | ⟨hflag, -, -, hdate, hlive⟩⟩ := h.accounts n u hu
  · rw [hn] at hm
    cases hm
  · refine ⟨u', _, hu', hflag, hdate, ?_⟩
    rw [appliedDays_marked h.rewards, add_sub_cancel_left, add_sub_cancel_right]
    exact hlive

lemma Advances.rewardsApplied {e : Entry} {g : ℕ → ℤ} {p : ℕ → Bool}
    (h : Advances e.before g p e.after) : e.RewardsApplied := by
  obtain ⟨new, hrows, hnew⟩ := h.rewards
  refine ⟨ReferralReward.marked e.after.clock p, new, hrows, ?_, fun r hr => (hnew r hr).1⟩
  intro r _
  unfold ReferralReward.marked
  split
  · rename_i hmark
    obtain ⟨hp, hdue⟩ := Bool.and_eq_true_iff.mp hmark
    simp only [ReferralReward.isDue, Bool.and_eq_true, decide_eq_true_eq] at hdue
    exact Or.inr ⟨hdue.1, rfl, hdue.2, h.liveWithout hp⟩
  · exact Or.inl rfl

/-- **Time is conserved.** In every sequential run from a portal that sold
nothing yet: no end moves back; an account is active from now on exactly until
its end; the instants at which it was active, and those still ahead up to its
end, are the days of its plans, of its grants and of its applied rewards; and
every reward is applied at most once, after it vested and to an account that is
live. -/
theorem time_conservation (cfg : Settings) {w₀ w : World} {log : List Entry}
    (h₀ : Unused w₀.db) (h : Log cfg w₀ log w) :
    (∀ e ∈ log, e.KeepsEnds ∧ e.RewardsApplied)
    ∧ ∀ n u, w.db.users.find n = some u →
      (∀ t, w.clock ≤ t → (hasActiveSubscription u t = true
        ↔ ∃ x, u.subscribedUntil = some x ∧ t < x))
      ∧ activeTime log n + activeIn w n (u.subscribedUntil.getD w.clock)
        = days (granted log n + appliedDays w.db.referralRewards.rows n) := by
  have hdated := h.dated h₀.dated
  refine ⟨?_, fun n u hu => ⟨fun t ht => (hdated.flags n u hu).hasActive_iff ht, ?_⟩⟩
  · intro e he
    obtain ⟨p, hadv⟩ := h.advances h₀.dated e he
    exact ⟨hadv.keepsEnds, hadv.rewardsApplied⟩
  · have hend : (meterOf n w).end_ = u.subscribedUntil := by simp [meterOf, hu]
    have hahead : (activeIn w n (u.subscribedUntil.getD w.clock) : ℤ) = (meterOf n w).left := by
      rw [activeIn_eq_spent hdated, ← hend]
      exact (meterOf n w).spent_end
    calc activeTime log n + activeIn w n (u.subscribedUntil.getD w.clock)
        = Trace.onTime (log.map (Entry.meterStep n)) + (meterOf n w).left := by
          rw [hahead, h.onTime h₀.dated]
      _ = (meterOf n w₀).left + Trace.credits (log.map (Entry.meterStep n)) :=
          (h.trace h₀.dated hu).conserved
      _ = days (granted log n + appliedDays w.db.referralRewards.rows n) := by
          rw [h₀.left_eq, h.credits, h₀.appliedDays_eq, zero_add, sub_zero]

/-- The run of one purchase. -/
def purchaseLog : List Entry :=
  [⟨oneAccount, .activate monthOrder, .ok (some 0), afterPurchase⟩]

/-- The month that was bought is the month ahead. -/
theorem time_conservation_purchase :
    granted purchaseLog 0 = 30
      ∧ activeTime purchaseLog 0 + activeIn afterPurchase 0 (days 30) = days 30 := by
  have hunused : Unused oneAccount.db := ⟨by decide, by decide, by decide⟩
  have hresult : (Proc.play issuing ((Op.activate monthOrder).run {}) oneAccount).1
      = .ok (some 0) := by decide
  have hrun := Proc.runs_play (J := anyInput) (i := issuing) (fun _ => trivial)
    ((Op.activate monthOrder).run {}) oneAccount
  rw [hresult] at hrun
  have hlog : Log {} oneAccount purchaseLog afterPurchase := .snoc .nil trivial hrun
  have hrow : (afterPurchase.db.users.find 0).bind User.subscribedUntil = some (days 30) := by
    decide
  obtain ⟨u, hu, hend⟩ := Option.bind_eq_some_iff.mp hrow
  have hlaw := ((time_conservation {} hunused hlog).2 0 u hu).2
  rw [hend, Option.getD_some] at hlaw
  have hgranted : granted purchaseLog 0 = 30 := by decide
  have happlied : appliedDays afterPurchase.db.referralRewards.rows 0 = 0 := by decide
  rw [hgranted, happlied, add_zero] at hlaw
  exact ⟨hgranted, hlaw⟩

end VpnPortal
