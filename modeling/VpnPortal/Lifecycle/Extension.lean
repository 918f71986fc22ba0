/-
Purchases of one account and the reward job, side by side.

Each of these sessions loads the recorded end once and writes an absolute value,
so a commit can be overwritten by a session that loaded before it:
`lost_extension` has two purchases that are both marked paid and one period.

When the commits exclude each other, the recorded end is the one some order of
the same operations gives (`no_lost_extension_of_exclusive`): the list of what
each session added is a sequential account of the whole run, it holds the plan
of every order that is marked paid, and every reward that was marked once.

* `Credit`, `Renewal`, `NothingLost`: what a session adds, and a sequential account of
  the run so far;
* `mem_appliedIds_markApplied`: which rewards count as applied after a commit;
* `NothingLost.purchase`, `NothingLost.rewards`: one commit more, of an activation and
  of the reward job, adds its credits to the account;
* `no_lost_extension_of_exclusive`: **no extension is lost**; `lost_extension`: one that is.
-/
import VpnPortal.Lifecycle.Delivery
import VpnPortal.Lifecycle.Rewards

namespace VpnPortal

open Sessions Tables

/-- One addition to the recorded end of an account: a plan bought at a time, or
the days of a reward. -/
inductive Credit where
  | plan (t : Time) (n : ℤ)
  | reward (r : ReferralReward)

/-- The recorded end with one addition. -/
def Credit.add : Option Time → Credit → Option Time
  | until_, .plan t n => some (max t (until_.getD t) + days n)
  | until_, .reward r => until_.map (· + days r.days)

/-- The rewards of a list of additions. -/
def rewardsIn (cs : List Credit) : List ReferralReward :=
  cs.filterMap fun
    | .plan _ _ => none
    | .reward r => some r

/-- A session that extends accounts: the confirmation of an order, or the reward
job. -/
inductive Renewal where
  | purchase (p : Payment)
  | rewards

/-- The program of such a session. -/
def Renewal.run (cfg : Settings) : Renewal → Portal Unit
  | .purchase p => do
      let _ ← confirm cfg p
      pure ()
  | .rewards => do
      let _ ← applyDueRewards
      pure ()

/-- What such a session commits. -/
def Renewal.Commits (P : Time → Prop) : Renewal → Db → Db → Prop
  | .purchase p => Confirms P p
  | .rewards => RewardsStep P

/-- What such a session adds to an account by the time `T`. -/
def Renewal.Adds (T : Time) : Renewal → List Credit → Prop
  | .purchase p, cs => ∃ t info, ∃ rs : List ReferralReward, t ≤ T
      ∧ planInfo (some p.plan) = some info ∧ cs = .plan t info.days :: rs.map .reward
  | .rewards, cs => ∃ rs : List ReferralReward, cs = rs.map .reward

/-- The recorded end of an account. -/
def Books.untilOf (b : Books) (user : ℕ) : Option Time :=
  (b.users.find user).bind User.subscribedUntil

/-- The rewards of an account that are marked as applied. -/
def appliedIds (rewards : Table ReferralReward) (user : ℕ) : Set ℕ :=
  { n | ∃ r ∈ rewards.rows, r.id = n ∧ r.referrerUserId = user ∧ r.appliedAt ≠ none }

/-- The additions `order`, session by session, account for the books `b`: taken
one after another from the old end they give the new one; the order of every
payment that is marked paid is among them; and the rewards among them are the
ones that were marked, each once. -/
structure NothingLost {κ : Type} (T : Time) (ops : κ → Renewal) (user : ℕ) (b₀ b : Books)
    (order : List (κ × List Credit)) : Prop where
  nodup : (order.map Prod.fst).Nodup
  adds : ∀ k cs, (k, cs) ∈ order → (ops k).Adds T cs
  until_eq : b.untilOf user = (order.flatMap Prod.snd).foldl Credit.add (b₀.untilOf user)
  paid : ∀ k p, ops k = .purchase p →
    ∀ q, b.payments.find p.id = some q → q.status = "paid" → k ∈ order.map Prod.fst
  rewards_nodup : ((rewardsIn (order.flatMap Prod.snd)).map ReferralReward.id).Nodup
  rewards_iff : ∀ n, n ∈ appliedIds b.referralRewards user ↔ n ∈ appliedIds b₀.referralRewards user
    ∨ n ∈ (rewardsIn (order.flatMap Prod.snd)).map ReferralReward.id
  rewards_new : ∀ n ∈ (rewardsIn (order.flatMap Prod.snd)).map ReferralReward.id,
    n ∉ appliedIds b₀.referralRewards user

lemma View.ofBooks (T : Time) (b : Books) :
    View (Before T) World.books b b (· ≤ T) (fun s t => t.books = s.books) where
  of_db := fun s t h => by rw [World.books, h]; rfl
  books := fun s hs => hs
  off := by
    rintro ids s t ⟨-, off, -, hdb⟩
    rw [World.books, hdb, books_foldl_deactivate]
    rfl
  time := fun s i h => max_le h.1 h.2

lemma once_renewal {D : Type} {π : World → D} {J : World → Input → Prop} {d : D} {b : Books}
    {P : Time → Prop} {R : World → World → Prop} (v : View J π d b P R) (cfg : Settings)
    (op : Renewal) :
    Proc.Once J π d (fun s t => op.Commits P s.db t.db) R (fun _ => True) (fun _ => True)
      (op.run cfg) := by
  cases op with
  | purchase p =>
      exact (once_confirm v cfg p).bind (fun _ _ => trivial) (fun _ _ => trivial)
        (fun _ _ => trivial) (fun _ _ => trivial)
  | rewards =>
      exact (once_applyDueRewards v).bind (fun _ h => h.elim) (fun _ h => h.elim)
        (fun _ _ => trivial) (fun _ _ => trivial)

/-! ### Which rewards are applied -/

/-- Marking adds the marked rewards of the account. -/
lemma mem_appliedIds_markApplied {t : Time} {ids : List ℕ} {rewards : Table ReferralReward}
    {user n : ℕ} :
    n ∈ appliedIds (ids.foldl (markApplied t) rewards) user ↔ n ∈ appliedIds rewards user
      ∨ (n ∈ ids ∧ ∃ r ∈ rewards.rows, r.id = n ∧ r.referrerUserId = user) := by
  unfold appliedIds
  simp only [Set.mem_ofPred_eq, rows_foldl_markApplied, List.mem_map]
  constructor
  · rintro ⟨r, ⟨r₀, hr₀, rfl⟩, hid, hown, happ⟩
    by_cases hmem : r₀.id ∈ ids
    · rw [if_pos hmem] at hid hown
      refine Or.inr ⟨by rw [← hid]; exact hmem, r₀, hr₀, hid, hown⟩
    · rw [if_neg hmem] at hid hown happ
      exact Or.inl ⟨r₀, hr₀, hid, hown, happ⟩
  · rintro (⟨r, hr, hid, hown, happ⟩ | ⟨hmem, r, hr, hid, hown⟩)
    · refine ⟨_, ⟨r, hr, rfl⟩, ?_⟩
      by_cases hmem : r.id ∈ ids
      · rw [if_pos hmem]; exact ⟨hid, hown, by simp⟩
      · rw [if_neg hmem]; exact ⟨hid, hown, happ⟩
    · refine ⟨_, ⟨r, hr, rfl⟩, ?_⟩
      rw [if_pos (by rw [hid]; exact hmem)]
      exact ⟨hid, hown, by simp⟩

/-- A new reward is not applied. -/
lemma appliedIds_addReward {b : Books} {user : User} {p : Payment} {a : Activation}
    (ha : a.Drawn b user p) (rewards : Table ReferralReward) (u : ℕ) :
    appliedIds (a.addReward rewards) u = appliedIds rewards u := by
  have hnone : ∀ r, a.reward = some r → r.appliedAt = none := by
    intro r hr
    rw [ha.reward_eq, rewardOf] at hr
    split at hr
    · cases hr
    · split at hr
      · cases hr
      · obtain rfl := Option.some.inj hr
        rfl
  unfold Activation.addReward
  cases hrew : a.reward with
  | none => rfl
  | some r =>
      dsimp only
      split
      · rfl
      · ext n
        unfold appliedIds
        simp only [Set.mem_ofPred_eq, Table.rows_insert, List.mem_append, List.mem_singleton]
        constructor
        · rintro ⟨x, hx | rfl, hid, hown, happ⟩
          · exact ⟨x, hx, hid, hown, happ⟩
          · exact absurd (hnone r hrew) happ
        · rintro ⟨x, hx, hid, hown, happ⟩
          exact ⟨x, Or.inl hx, hid, hown, happ⟩

lemma mem_addReward {a : Activation} {rewards : Table ReferralReward} {r : ReferralReward}
    (hr : r ∈ rewards.rows) : r ∈ (a.addReward rewards).rows := by
  unfold Activation.addReward
  split
  · exact hr
  · split
    · exact hr
    · simp [hr]

/-- The due rewards of an account: unapplied rows of its own, each once. -/
lemma mem_dueRewards {rewards : List ReferralReward} {user : ℕ} {t : Time} {r : ReferralReward} :
    r ∈ dueRewards rewards user t ↔ r ∈ rewards ∧ r.referrerUserId = user ∧ r.appliedAt = none
      ∧ r.vestsAt ≤ t := by
  unfold dueRewards
  rw [List.mem_filter]
  simp

lemma nodup_dueRewards (rewards : Table ReferralReward) (user : ℕ) (t : Time) :
    ((dueRewards rewards.rows user t).map ReferralReward.id).Nodup :=
  rewards.nodup.sublist (List.filter_sublist.map ReferralReward.id)

/-! ### One commit more -/

lemma foldl_add_rewards (rs : List ReferralReward) (o : Option Time) :
    (rs.map Credit.reward).foldl Credit.add o = o.map (· + days (rewardDays rs)) := by
  induction rs generalizing o with
  | nil => cases o <;> simp [rewardDays]
  | cons r rest ih =>
      rw [List.map_cons, List.foldl_cons, ih]
      cases o with
      | none => rfl
      | some x => simp [Credit.add, rewardDays, days_add, add_assoc]

lemma rewardsIn_append (xs ys : List Credit) : rewardsIn (xs ++ ys) = rewardsIn xs ++ rewardsIn ys :=
  List.filterMap_append

lemma rewardsIn_map_reward (rs : List ReferralReward) : rewardsIn (rs.map Credit.reward) = rs := by
  unfold rewardsIn
  rw [List.filterMap_map]
  exact List.filterMap_some

lemma rewardsIn_plan_cons (t : Time) (n : ℤ) (cs : List Credit) :
    rewardsIn (Credit.plan t n :: cs) = rewardsIn cs := rfl

section

variable {κ : Type} {T : Time} {ops : κ → Renewal} {user : ℕ} {b₀ b b' : Books}
variable {order : List (κ × List Credit)}

lemma NothingLost.nil (hopen : ∀ k p, ops k = .purchase p →
    ∀ q, b.payments.find p.id = some q → q.status ≠ "paid") : NothingLost T ops user b b [] where
  nodup := List.nodup_nil
  adds := fun _ _ h => by cases h
  until_eq := rfl
  paid := fun k p hk q hq hpaid => absurd hpaid (hopen k p hk q hq)
  rewards_nodup := List.nodup_nil
  rewards_iff := fun n => by simp [rewardsIn]
  rewards_new := fun n h => by cases h

/-- A session that adds `cs`, among them the rewards `due`, which were not
applied before. -/
lemma NothingLost.snoc (h : NothingLost T ops user b₀ b order) {k : κ} {cs : List Credit}
    (hk : k ∉ order.map Prod.fst) (hadds : (ops k).Adds T cs)
    (huntil : b'.untilOf user = cs.foldl Credit.add (b.untilOf user))
    (hpaid : ∀ k' p, k' ≠ k → ops k' = .purchase p → b'.payments.find p.id = b.payments.find p.id)
    (hdue : ∀ r ∈ rewardsIn cs, r ∈ b.referralRewards.rows ∧ r.appliedAt = none)
    (hdue_nodup : ((rewardsIn cs).map ReferralReward.id).Nodup)
    (happlied : ∀ n, n ∈ appliedIds b'.referralRewards user ↔ n ∈ appliedIds b.referralRewards user
      ∨ n ∈ (rewardsIn cs).map ReferralReward.id) :
    NothingLost T ops user b₀ b' (order ++ [(k, cs)]) := by
  have hflat : (order ++ [(k, cs)]).flatMap Prod.snd = order.flatMap Prod.snd ++ cs := by simp
  have hunapplied : ∀ n ∈ (rewardsIn cs).map ReferralReward.id,
      n ∉ appliedIds b.referralRewards user := by
    rintro n hn ⟨r, hr, hid, -, happ⟩
    obtain ⟨x, hx, hxid⟩ := List.mem_map.mp hn
    obtain ⟨hxrow, hxapp⟩ := hdue x hx
    obtain rfl : x = r := Table.eq_of_num_eq hxrow hr (hxid.trans hid.symm)
    exact happ hxapp
  constructor
  · rw [List.map_append, List.map_singleton]
    exact List.nodup_append.mpr ⟨h.nodup, by simp, fun x hx y hy => by
      rw [List.mem_singleton.mp hy]; rintro rfl; exact hk hx⟩
  · intro k' cs' hmem
    rcases List.mem_append.mp hmem with hmem | hmem
    · exact h.adds k' cs' hmem
    · obtain ⟨rfl, rfl⟩ := Prod.mk.inj (List.mem_singleton.mp hmem)
      exact hadds
  · rw [hflat, List.foldl_append, ← h.until_eq, huntil]
  · intro k' p hk' q hq hstatus
    by_cases hkk : k' = k
    · simp [hkk]
    · rw [hpaid k' p hkk hk'] at hq
      have hold := h.paid k' p hk' q hq hstatus
      rw [List.map_append]
      exact List.mem_append_left _ hold
  · rw [hflat, rewardsIn_append, List.map_append]
    refine List.nodup_append.mpr ⟨h.rewards_nodup, hdue_nodup, fun x hx y hy => ?_⟩
    rintro rfl
    exact hunapplied x hy ((h.rewards_iff x).mpr (Or.inr hx))
  · intro n
    rw [happlied n, h.rewards_iff n, hflat, rewardsIn_append, List.map_append, List.mem_append,
      or_assoc]
  · intro n hn
    rw [hflat, rewardsIn_append, List.map_append] at hn
    rcases List.mem_append.mp hn with hn | hn
    · exact h.rewards_new n hn
    · intro hold
      exact hunapplied n hn ((h.rewards_iff n).mpr (Or.inl hold))

/-- The commit of a purchase. -/
lemma NothingLost.purchase {db db' : Db} (h : NothingLost T ops user b₀ db.books order) {k : κ}
    {p : Payment} (hk : k ∉ order.map Prod.fst) (hop : ops k = .purchase p) (hp : p.userId = user)
    (hdistinct : ∀ k' p', k' ≠ k → ops k' = .purchase p' → p'.id ≠ p.id)
    (hc : Confirms (· ≤ T) p db db') :
    ∃ cs, NothingLost T ops user b₀ db'.books (order ++ [(k, cs)]) := by
  obtain ⟨u, hu, a, ha, hT, rfl⟩ := hc
  obtain ⟨info, hinfo, -⟩ := ha.new_eq
  have hid : u.id = user := (Table.mem_of_find hu).2.trans hp
  have hdue : a.applied = dueRewards db.referralRewards.rows user a.at_ := by
    rw [ha.applied_eq, hid]; rfl
  refine ⟨.plan a.at_ info.days :: a.applied.map .reward, h.snoc hk ?_ ?_ ?_ ?_ ?_ ?_⟩
  · rw [hop]
    exact ⟨a.at_, info, a.applied, hT, hinfo, rfl⟩
  · have hold : db.books.untilOf user = u.subscribedUntil := by
      show (db.users.find user).bind User.subscribedUntil = _
      rw [← hp, hu]; rfl
    have hnew : (a.write db).books.untilOf user = a.new.subscribedUntil := by
      show ((a.write db).users.find user).bind User.subscribedUntil = _
      rw [← hid, ha.find_user (by rw [hid, ← hp]; exact hu)]; rfl
    rw [hnew, ha.until_eq hinfo, hold, List.foldl_cons, foldl_add_rewards]
    rfl
  · intro k' p' hne hop'
    exact ha.find_payment_of_ne (hdistinct k' p' hne hop')
  · intro r hr
    rw [rewardsIn_plan_cons, rewardsIn_map_reward, hdue] at hr
    obtain ⟨hrow, -, happ, -⟩ := mem_dueRewards.mp hr
    exact ⟨hrow, happ⟩
  · rw [rewardsIn_plan_cons, rewardsIn_map_reward, hdue]
    exact nodup_dueRewards _ _ _
  · intro n
    have hrew : (a.write db).books.referralRewards = (a.applied.map ReferralReward.id).foldl
        (markApplied a.at_) (a.addReward db.referralRewards) := by rw [Activation.write_eq]; rfl
    rw [hrew, mem_appliedIds_markApplied, appliedIds_addReward ha, rewardsIn_plan_cons,
      rewardsIn_map_reward]
    refine or_congr_right ⟨fun hn => hn.1, fun hn => ⟨hn, ?_⟩⟩
    obtain ⟨r, hr, hrid⟩ := List.mem_map.mp hn
    rw [hdue] at hr
    obtain ⟨hrow, hown, -⟩ := mem_dueRewards.mp hr
    exact ⟨r, mem_addReward hrow, hrid, hown⟩

/-- The commit of the reward job. -/
lemma NothingLost.rewards {db db' : Db} (h : NothingLost T ops user b₀ db.books order) {k : κ}
    (hk : k ∉ order.map Prod.fst) (hop : ops k = .rewards) (hc : RewardsStep (· ≤ T) db db') :
    ∃ cs, NothingLost T ops user b₀ db'.books (order ++ [(k, cs)]) := by
  obtain ⟨t, sent, -, rfl⟩ := hc
  obtain ⟨users, notices, husers, heq⟩ := rewards_commit_eq t sent db
  rw [heq]
  -- what this account is given: nothing if it does not exist
  obtain ⟨rs, hrs⟩ : ∃ rs, rs = ((db.users.find user).map (creditsFor db.books t)).getD [] := ⟨_, rfl⟩
  have hmem : ∀ r, r ∈ rs ↔ r ∈ db.referralRewards.rows ∧ r.referrerUserId = user
      ∧ DueAt db t r := by
    intro r
    rw [hrs]
    cases hu : db.users.find user with
    | none =>
        refine ⟨fun hr => (List.not_mem_nil hr).elim, ?_⟩
        rintro ⟨-, hown, -, -, u, hfind, -⟩
        rw [hown, hu] at hfind
        cases hfind
    | some u =>
        have huid : u.id = user := (Table.mem_of_find hu).2
        rw [Option.map_some, Option.getD_some, creditsFor]
        split
        · rename_i hlive
          rw [mem_dueRewards, huid]
          constructor
          · rintro ⟨hrow, hown, happ, hvest⟩
            exact ⟨hrow, hown, happ, hvest, u, by rw [hown]; exact hu, hlive⟩
          · rintro ⟨hrow, hown, happ, hvest, -⟩
            exact ⟨hrow, hown, happ, hvest⟩
        · rename_i hlive
          refine ⟨fun hr => (List.not_mem_nil hr).elim, ?_⟩
          rintro ⟨-, hown, -, -, u', hfind, hlive'⟩
          rw [hown, hu] at hfind
          obtain rfl := Option.some.inj hfind
          exact absurd hlive' hlive
  refine ⟨rs.map .reward, h.snoc hk ?_ ?_ ?_ ?_ ?_ ?_⟩
  · rw [hop]
    exact ⟨rs, rfl⟩
  · rw [foldl_add_rewards]
    show (users.find user).bind User.subscribedUntil
      = ((db.users.find user).bind User.subscribedUntil).map _
    rw [Table.find_of_rows_map (g := credited db.books t) (fun _ => rfl) husers, hrs]
    cases db.users.find user with
    | none => rfl
    | some u => rfl
  · intro k' p hne hop'
    rfl
  · intro r hr
    rw [rewardsIn_map_reward] at hr
    obtain ⟨hrow, -, hdue⟩ := (hmem r).mp hr
    exact ⟨hrow, hdue.1⟩
  · rw [rewardsIn_map_reward, hrs]
    cases db.users.find user with
    | none => exact List.nodup_nil
    | some u =>
        rw [Option.map_some, Option.getD_some, creditsFor]
        split
        · exact nodup_dueRewards _ _ _
        · exact List.nodup_nil
  · intro n
    rw [rewardsIn_map_reward]
    show n ∈ appliedIds ((markedAt db t).foldl (markApplied t) db.referralRewards) user ↔ _
    rw [mem_appliedIds_markApplied]
    refine or_congr_right ?_
    constructor
    · rintro ⟨hmark, r, hrow, rfl, hown⟩
      exact List.mem_map_of_mem ((hmem r).mpr ⟨hrow, hown, (mem_markedAt hrow).mp hmark⟩)
    · intro hn
      obtain ⟨r, hr, rfl⟩ := List.mem_map.mp hn
      obtain ⟨hrow, hown, hdue⟩ := (hmem r).mp hr
      exact ⟨(mem_markedAt hrow).mpr hdue, r, hrow, rfl, hown⟩

/-! ### Commits that exclude each other -/

/-- Along a serial chain of commits nothing is lost. -/
lemma nothingLost_of_serial {w₀ : World}
    (hops : ∀ k p, ops k = .purchase p →
      p.userId = user ∧ w₀.db.payments.find p.id = some p ∧ p.status ≠ "paid")
    (hdistinct : ∀ k k' p p', ops k = .purchase p → ops k' = .purchase p' → p.id = p'.id → k = k')
    {l : List κ} (hnodup : l.Nodup)
    (h : Serial World.books (fun k s t => (ops k).Commits (· ≤ T) s.db t.db) l w₀.books b) :
    ∃ order, order.map Prod.fst = l ∧ NothingLost T ops user w₀.books b order := by
  generalize hb₀ : w₀.books = b₀ at h ⊢
  induction h with
  | nil b =>
      refine ⟨[], rfl, NothingLost.nil fun k p hk q hq => ?_⟩
      obtain ⟨-, hp, hopen⟩ := hops k p hk
      rw [← hb₀] at hq
      obtain rfl := Option.some.inj (hp.symm.trans hq)
      exact hopen
  | @snoc l b k s t _ hE ih =>
      obtain ⟨hl, -, hdisj⟩ := List.nodup_append.mp hnodup
      obtain ⟨order, hmap, hlost⟩ := ih hl hb₀
      have hk : k ∉ order.map Prod.fst := by
        rw [hmap]
        exact fun hmem => hdisj k hmem k (by simp) rfl
      cases hop : ops k with
      | purchase p =>
          rw [hop] at hE
          have hne : ∀ k' p', k' ≠ k → ops k' = .purchase p' → p'.id ≠ p.id :=
            fun k' p' hkk hop' hid => hkk (hdistinct k' k p' p hop' hop hid)
          obtain ⟨cs, hcs⟩ := hlost.purchase hk hop (hops k p hop).1 hne hE
          exact ⟨_, by rw [List.map_append, hmap]; rfl, hcs⟩
      | rewards =>
          rw [hop] at hE
          obtain ⟨cs, hcs⟩ := hlost.rewards hk hop hE
          exact ⟨_, by rw [List.map_append, hmap]; rfl, hcs⟩

/-- **No lost extension, when commits exclude each other.** Distinct open orders
of one account are confirmed and reward jobs run, interleaved in any way in
which a session commits only while no other one is under way with its own commit
still to come. In every state reached by the time `T`, the recorded end is the
one a sequential order of these operations gives: it contains the plan of every
order that is marked paid, and the days of every reward that was marked, once. -/
theorem no_lost_extension_of_exclusive [DecidableEq κ] (cfg : Settings) (T : Time)
    (ops : κ → Renewal) (w₀ : World) (user : ℕ)
    (hops : ∀ k p, ops k = .purchase p →
      p.userId = user ∧ w₀.db.payments.find p.id = some p ∧ p.status ≠ "paid")
    (hdistinct : ∀ k k' p p', ops k = .purchase p → ops k' = .purchase p' → p.id = p'.id → k = k')
    {sched : List (κ × Input)} {W : Set κ}
    (h : Exclusive (Before T) World.books ⟨w₀, fun k => (ops k).run cfg⟩ sched W) :
    ∃ order, NothingLost T ops user w₀.books
      ((Cfg.mk w₀ fun k => (ops k).run cfg).run sched).state.books order := by
  have hspec : ∀ k d, ((ops k).run cfg).Once (Before T) World.books d
      (fun s t => (ops k).Commits (· ≤ T) s.db t.db) (fun s t => t.books = s.books) (fun _ => True) (fun _ => True) :=
    fun k d => once_renewal (View.ofBooks T d) cfg (ops k)
  obtain ⟨l, hnodup, -, hser, -⟩ := serial_of_exclusive (N := fun _ _ => True)
    (C := fun _ _ => True) hspec h
  obtain ⟨order, -, horder⟩ := nothingLost_of_serial hops hdistinct hnodup hser
  exact ⟨order, horder⟩

end

/-! ### Two purchases that overlap -/

/-- One of two open orders of an account. -/
def renewalOrder (n : ℕ) : Payment :=
  { id := n, userId := 0, plan := "basic-1m", amount := 350 }

/-- An account with ten days left, its device, and two open orders. -/
def twoOrders : World where
  db := {
    users := (default : Table User).insert (fun n =>
      { id := n, username := "ann", isSubscribed := true, plan := some "basic-1m",
        subscribedUntil := some (days 10) }) fun _ => rfl
    configs := (default : Table Config).insert (fun n =>
      { id := n, userId := 0, name := "device-1", peerIp := "10.88.88.42",
        publicKey := "pub-a" }) fun _ => rfl
    payments := ((default : Table Payment).insert renewalOrder fun _ => rfl).insert renewalOrder
      fun _ => rfl }

/-- The two purchases. -/
def twoPurchases (k : Bool) : Renewal := .purchase (renewalOrder (if k then 0 else 1))

/-- Nothing is asked of gateway or node. -/
def silent : Input where
  now := 0

/-- `true` loads the account, `false` runs from start to end, `true` goes on. -/
def lateWriter : List (Bool × Input) :=
  [(true, silent)] ++ List.replicate 8 (false, silent) ++ List.replicate 8 (true, silent)

/-- The sessions of the two purchases. -/
def purchaseSessions : Cfg Bool World Input Exn Unit :=
  ⟨twoOrders, fun k => (twoPurchases k).run {}⟩

lemma planInfo_basic : planInfo (some "basic-1m")
    = some { tier := .basic, configs := 2, days := 30, amount := 350 } := by decide

/-- Every session of a sequential order of the two purchases adds its 30 days. -/
lemma le_foldl_purchases (order : List (Bool × List Credit)) (x : Time)
    (h : ∀ k cs, (k, cs) ∈ order → ∃ t, cs = [.plan t 30]) :
    ∃ y, (order.flatMap Prod.snd).foldl Credit.add (some x) = some y
      ∧ x + order.length * days 30 ≤ y := by
  induction order generalizing x with
  | nil => exact ⟨x, rfl, by simp⟩
  | cons kc rest ih =>
      obtain ⟨t, ht⟩ := h kc.1 kc.2 (by simp)
      obtain ⟨y, hy, hle⟩ := ih (max t x + days 30) fun k cs hmem => h k cs (by simp [hmem])
      refine ⟨y, ?_, ?_⟩
      · rw [List.flatMap_cons, ht, List.foldl_append]
        exact hy
      · have hmax : x ≤ max t x := le_max_right t x
        rw [List.length_cons]
        push_cast
        linarith

/-- No sequential order of the two purchases ends after 40 days. -/
lemma not_nothingLost {b : Books} (hpaid : b.payments.rows.map Payment.status = ["paid", "paid"])
    (hids : b.payments.rows.map Payment.id = [0, 1]) (hrewards : b.referralRewards.rows = [])
    (huntil : b.untilOf 0 = some (days 40)) (order : List (Bool × List Credit)) :
    ¬ NothingLost 0 twoPurchases 0 twoOrders.books b order := by
  intro h
  have hnone : rewardsIn (order.flatMap Prod.snd) = [] := by
    refine List.eq_nil_iff_forall_not_mem.mpr fun r hr => ?_
    obtain ⟨x, hx, -⟩ := (h.rewards_iff r.id).mpr (Or.inr (List.mem_map_of_mem hr))
    rw [hrewards] at hx
    cases hx
  have hplans : ∀ k cs, (k, cs) ∈ order → ∃ t, cs = [.plan t 30] := by
    intro k cs hmem
    obtain ⟨t, info, rs, -, hinfo, rfl⟩ := h.adds k cs hmem
    obtain rfl := Option.some.inj (planInfo_basic.symm.trans hinfo)
    refine ⟨t, ?_⟩
    cases rs with
    | nil => rfl
    | cons r rest =>
        have hin : r ∈ rewardsIn (order.flatMap Prod.snd) := by
          unfold rewardsIn
          refine List.mem_filterMap.mpr ⟨.reward r, List.mem_flatMap.mpr ⟨_, hmem, ?_⟩, rfl⟩
          simp
        rw [hnone] at hin
        cases hin
  have hboth : ∀ k : Bool, k ∈ order.map Prod.fst := by
    intro k
    obtain ⟨q, hq, hid⟩ : ∃ q ∈ b.payments.rows, q.id = (renewalOrder (if k then 0 else 1)).id := by
      have : (renewalOrder (if k then 0 else 1)).id ∈ b.payments.rows.map Payment.id := by
        rw [hids]; cases k <;> simp [renewalOrder]
      exact List.mem_map.mp this
    have hstatus : q.status = "paid" := by
      have : q.status ∈ b.payments.rows.map Payment.status := List.mem_map_of_mem hq
      rw [hpaid] at this
      simpa using this
    exact h.paid k _ rfl q (by rw [← hid]; exact Table.find_of_mem hq) hstatus
  have hlen : 2 ≤ order.length := by
    have hsub : [true, false] ⊆ order.map Prod.fst := by
      intro k _
      exact hboth k
    have := ((by decide : [true, false].Nodup).subperm hsub).length_le
    simpa using this
  obtain ⟨y, hy, hle⟩ := le_foldl_purchases order (days 10) hplans
  have huntil₀ : twoOrders.books.untilOf 0 = some (days 10) := by decide
  have hend := h.until_eq
  rw [huntil, huntil₀, hy] at hend
  obtain rfl := Option.some.inj hend
  have hcast : (2 : ℤ) ≤ order.length := by exact_mod_cast hlen
  unfold days at hle
  linarith

/-- Two purchases that overlap: both have loaded the account before either
commits, both orders are marked paid, and the account has one period of 30 days
on top of its ten. No sequential order of the two gives that. -/
theorem lost_extension :
    (∀ k, (purchaseSessions.run lateWriter).Ended k (.ok ()))
      ∧ (purchaseSessions.run lateWriter).state.db.payments.rows.map Payment.status
        = ["paid", "paid"]
      ∧ (purchaseSessions.run lateWriter).state.books.untilOf 0 = some (days 40)
      ∧ ¬ ∃ order, NothingLost 0 twoPurchases 0 twoOrders.books
        (purchaseSessions.run lateWriter).state.books order := by
  have hpaid : (purchaseSessions.run lateWriter).state.db.payments.rows.map Payment.status
      = ["paid", "paid"] := by decide
  have huntil : (purchaseSessions.run lateWriter).state.books.untilOf 0 = some (days 40) := by
    decide
  refine ⟨fun k => by cases k <;> rfl, hpaid, huntil, ?_⟩
  rintro ⟨order, horder⟩
  exact not_nothingLost hpaid (by decide) (by decide) huntil order horder

/-- One purchase runs from start to end, then the other does. -/
def inTurnWriters : List (Bool × Input) :=
  List.replicate 8 (true, silent) ++ List.replicate 8 (false, silent)

/-- The two purchases in turn: 70 days, all accounted for. -/
theorem no_lost_extension_in_turn :
    (purchaseSessions.run inTurnWriters).state.db.payments.rows.map Payment.status = ["paid", "paid"]
      ∧ (purchaseSessions.run inTurnWriters).state.books.untilOf 0 = some (days 70)
      ∧ ∃ order, NothingLost 0 twoPurchases 0 twoOrders.books
        (purchaseSessions.run inTurnWriters).state.books order := by
  have hfirst : ∀ m < 8, (purchaseSessions.run (List.replicate m (true, silent))).state.clock ≤ 0 := by
    decide
  have hsecond : ∀ m < 8, (purchaseSessions.run (List.replicate 8 (true, silent)
      ++ List.replicate m (false, silent))).state.clock ≤ 0 := by decide
  have hnil : Exclusive (Before 0) World.books purchaseSessions [] ∅ := .nil
  obtain ⟨V, hV⟩ := hnil.alone (k := true) (i := silent)
    (fun _ _ => Or.inl fun _ => List.not_mem_nil) 8 fun m hm => ⟨hfirst m hm, le_refl (0 : ℤ)⟩
  obtain ⟨W, hW⟩ := hV.alone (k := false) (i := silent)
    (fun l hl => Or.inr ⟨.ok (), by cases l <;> first | rfl | exact absurd rfl hl⟩) 8
    fun m hm => ⟨hsecond m hm, le_refl (0 : ℤ)⟩
  have hrows : ∀ k p, twoPurchases k = .purchase p →
      p.userId = 0 ∧ twoOrders.db.payments.find p.id = some p ∧ p.status ≠ "paid" := by
    intro k p hk
    cases k <;> (obtain rfl := Renewal.purchase.inj hk; decide)
  have hdistinct : ∀ k k' p p', twoPurchases k = .purchase p → twoPurchases k' = .purchase p' →
      p.id = p'.id → k = k' := by
    intro k k' p p' hk hk' hid
    obtain rfl := Renewal.purchase.inj hk
    obtain rfl := Renewal.purchase.inj hk'
    cases k <;> cases k' <;> simp_all [renewalOrder]
  exact ⟨by decide, by decide,
    no_lost_extension_of_exclusive {} 0 twoPurchases twoOrders 0 hrows hdistinct hW⟩

end VpnPortal
