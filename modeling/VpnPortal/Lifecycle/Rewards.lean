/-
What the hourly reward job reads and writes.

Like an activation, `apply_due_rewards` decides on its books and commits once.
Table by table the commit is plain: every account is extended by the days of
its own due rewards (`creditsFor`, none unless its subscription is live), and
exactly these rewards are marked.

* `drawWork`, `RewardsStep`: the work of the job, and its commit;
* `once_applyDueRewardsAt`, `once_applyDueRewards`: the job leaves its books alone until
  that one commit;
* `rewards_commit_eq`, `mem_markedAt`: after it every account has the days of its due
  rewards, and exactly these are marked.
-/
import VpnPortal.Lifecycle.Activation

namespace VpnPortal

open Sessions Tables

/-- What the job does for one referrer. -/
def workFor (b : Books) (t : Time) (uid : ℕ) : Option RewardWork :=
  (b.users.find uid).map fun user => ⟨user, credited b t user, creditsFor b t user⟩

/-- What the job does, read off the books. -/
def drawWork (b : Books) (t : Time) : List RewardWork :=
  (rewardOwners b.referralRewards.rows t).filterMap (workFor b t)

/-- The commit of the job, at a time of `P`. -/
def RewardsStep (P : Time → Prop) (db db' : Db) : Prop :=
  ∃ t sent, P t ∧ db' = writeNotices sent ((drawWork db.books t).foldl (RewardWork.write t) db)

section

variable {D : Type} {π : World → D} {J : World → Input → Prop} {d : D} {b : Books}
variable {P : Time → Prop} {R : World → World → Prop}

/-- The loop over the referrers draws the work of each from the books. -/
lemma reads_rewardEach (hb : ∀ s, π s = d → s.db.books = b) (t : Time) (owners : List ℕ)
    (work : List RewardWork) (sent : List NewNotice) :
    Proc.Reads J π d (fun r => ∃ out, r = .ok (work ++ owners.filterMap (workFor b t), out))
      (rewardEach t owners work sent) := by
  induction owners generalizing work sent with
  | nil => exact ⟨sent, by simp⟩
  | cons uid rest ih =>
      refine once_select (v := b.users.find uid) (fun s hs => by rw [← hb s hs]; rfl) ?_
      cases hu : b.users.find uid with
      | none =>
          have hnone : workFor b t uid = none := by rw [workFor, hu]; rfl
          rw [List.filterMap_cons_none hnone]
          exact ih work sent
      | some user =>
          have hsome : workFor b t uid
              = some ⟨user, credited b t user, creditsFor b t user⟩ := by rw [workFor, hu]; rfl
          rw [List.filterMap_cons_some hsome]
          refine Proc.Reads.bind (reads_applyRewardsFor hb user t sent) ?_ ?_
          · rintro ⟨new, applied, out⟩ ⟨out', h, -⟩
            obtain ⟨rfl, hrest⟩ := Prod.mk.inj (Except.ok.inj h)
            obtain ⟨rfl, rfl⟩ := Prod.mk.inj hrest
            have := ih (work ++ [⟨user, credited b t user, creditsFor b t user⟩]) out
            rw [List.append_assoc] at this
            exact this
          · rintro e ⟨out, h, -⟩
            cases h

/-- After the clock reading the job commits once and ends. -/
lemma once_applyDueRewardsAt (hb : ∀ s, π s = d → s.db.books = b) (t : Time) :
    Proc.Once J π d
      (fun s s' => s'.clock = s.clock ∧ ∃ sent, s'.db
        = writeNotices sent ((drawWork s.db.books t).foldl (RewardWork.write t) s.db))
      R (fun _ => False) (fun r => ∃ stats, r = .ok stats) (applyDueRewardsAt t) := by
  refine once_select (v := rewardOwners b.referralRewards.rows t)
    (fun s hs => by rw [← hb s hs]; rfl) ?_
  refine Proc.Reads.bind (reads_rewardEach hb t _ [] []) ?_ ?_
  · rintro ⟨work, sent⟩ ⟨sent', h⟩
    obtain ⟨rfl, rfl⟩ := Prod.mk.inj (Except.ok.inj h)
    intro s i _ hs
    refine Or.inr ⟨⟨rfl, sent, ?_⟩, ⟨_, rfl⟩⟩
    rw [hb s hs]
    rfl
  · rintro e ⟨out, h⟩
    cases h

lemma once_applyDueRewards (v : View J π d b P R) :
    Proc.Once J π d (fun s t => RewardsStep P s.db t.db) R (fun _ => False) (fun _ => True)
      applyDueRewards := by
  refine Proc.Once.exchange (fun s i _ => v.of_db _ _ rfl) fun s i hi _ => ?_
  refine (once_applyDueRewardsAt v.books _).mono ?_ (fun _ _ h => h) (fun _ h => h)
    (fun _ _ => trivial)
  rintro s' t' - ⟨-, sent, hdb⟩
  exact ⟨_, sent, v.time s i hi, hdb⟩

end

/-! ### The rows after the commit -/

/-- A reward that the job applies at the time `t`. -/
def DueAt (db : Db) (t : Time) (r : ReferralReward) : Prop :=
  r.appliedAt = none ∧ r.vestsAt ≤ t
    ∧ ∃ user, db.users.find r.referrerUserId = some user ∧ subscribed user t = true

@[simp] lemma credited_id (b : Books) (t : Time) (user : User) : (credited b t user).id = user.id :=
  rfl

lemma merge_credited (b : Books) (t : Time) (user : User) :
    User.merge user (credited b t user) user = credited b t user := by
  simp [User.merge, credited, User.extend]

lemma RewardWork.write_eq (t : Time) (db : Db) (w : RewardWork) :
    RewardWork.write t db w = { db with
      users := saveAccount db.users w.old w.new
      referralRewards := (w.applied.map ReferralReward.id).foldl (markApplied t)
        db.referralRewards } := by
  rw [RewardWork.write, Db.foldl_applyReward]
  rfl

/-- The writes of the job, table by table. -/
lemma foldl_write_eq (t : Time) (work : List RewardWork) (db : Db) :
    work.foldl (RewardWork.write t) db = { db with
      users := work.foldl (fun us w => saveAccount us w.old w.new) db.users
      referralRewards := (work.flatMap fun w => w.applied.map ReferralReward.id).foldl
        (markApplied t) db.referralRewards } := by
  induction work generalizing db with
  | nil => rfl
  | cons w rest ih =>
      rw [List.foldl_cons, ih, RewardWork.write_eq, List.flatMap_cons, List.foldl_append]
      rfl

lemma mem_drawWork {b : Books} {t : Time} {w : RewardWork} :
    w ∈ drawWork b t ↔ w.old.id ∈ rewardOwners b.referralRewards.rows t
      ∧ b.users.find w.old.id = some w.old ∧ w.new = credited b t w.old
      ∧ w.applied = creditsFor b t w.old := by
  unfold drawWork
  rw [List.mem_filterMap]
  constructor
  · rintro ⟨uid, huid, hw⟩
    obtain ⟨user, hu, rfl⟩ := Option.map_eq_some_iff.mp hw
    have hid : user.id = uid := (Table.mem_of_find hu).2
    refine ⟨?_, ?_, rfl, rfl⟩
    · rw [hid]; exact huid
    · rw [hid]; exact hu
  · rintro ⟨huid, hu, hnew, happlied⟩
    refine ⟨w.old.id, huid, ?_⟩
    rw [workFor, hu, Option.map_some, ← hnew, ← happlied]

/-- The job visits every account once. -/
lemma nodup_drawWork (b : Books) (t : Time) : ((drawWork b t).map fun w => w.old.id).Nodup := by
  have hids : (drawWork b t).map (fun w => w.old.id)
      = (rewardOwners b.referralRewards.rows t).filter fun uid => (b.users.find uid).isSome := by
    unfold drawWork
    induction rewardOwners b.referralRewards.rows t with
    | nil => rfl
    | cons uid rest ih =>
        cases hu : b.users.find uid with
        | none =>
            have hnone : workFor b t uid = none := by rw [workFor, hu]; rfl
            rw [List.filterMap_cons_none hnone, List.filter_cons_of_neg (by simp [hu]), ih]
        | some user =>
            have hid : user.id = uid := (Table.mem_of_find hu).2
            have hsome : workFor b t uid
                = some ⟨user, credited b t user, creditsFor b t user⟩ := by rw [workFor, hu]; rfl
            rw [List.filterMap_cons_some hsome, List.filter_cons_of_pos (by simp [hu]),
              List.map_cons, ih, hid]
  rw [hids]
  exact (List.nodup_dedup _).filter _

/-- An account without a due reward is left as it is. -/
lemma credited_of_not_owner {b : Books} {t : Time} {user : User}
    (h : user.id ∉ rewardOwners b.referralRewards.rows t) : credited b t user = user := by
  have hnil : dueRewards b.referralRewards.rows user.id t = [] := by
    refine List.filter_eq_nil_iff.mpr fun r hr hdue => h ?_
    obtain ⟨hown, happ, hvest⟩ := of_decide_eq_true hdue
    unfold rewardOwners
    rw [List.mem_dedup, List.mem_map]
    exact ⟨r, List.mem_filter.mpr ⟨hr, by simp [happ, hvest]⟩, hown⟩
  unfold credited creditsFor
  rw [hnil]
  simp [rewardDays]

/-- The accounts after the job: each with its due rewards on top. -/
lemma rows_users_drawWork (t : Time) (db : Db) :
    ((drawWork db.books t).foldl (RewardWork.write t) db).users.rows
      = db.users.rows.map (credited db.books t) := by
  rw [foldl_write_eq]
  dsimp only
  rw [rows_foldl_saveAccount RewardWork.old RewardWork.new (f := credited db.books t) _ db.users
    (nodup_drawWork db.books t)
    (fun w hw => (mem_drawWork.mp hw).2.1)
    (fun w hw => by rw [(mem_drawWork.mp hw).2.2.1, merge_credited])]
  refine List.map_congr_left fun u hu => ?_
  split
  · rfl
  · rename_i hnot
    rw [credited_of_not_owner]
    intro howner
    have hwork : (⟨u, credited db.books t u, creditsFor db.books t u⟩ : RewardWork)
        ∈ drawWork db.books t := mem_drawWork.mpr ⟨howner, Table.find_of_mem hu, rfl, rfl⟩
    exact hnot (List.mem_map.mpr ⟨_, hwork, rfl⟩)

/-- The rewards the job marks. -/
def markedAt (db : Db) (t : Time) : List ℕ :=
  (drawWork db.books t).flatMap fun w => w.applied.map ReferralReward.id

/-- A reward is marked by the job exactly when it is due. -/
lemma mem_markedAt {t : Time} {db : Db} {r : ReferralReward}
    (hr : r ∈ db.referralRewards.rows) : r.id ∈ markedAt db t ↔ DueAt db t r := by
  unfold markedAt
  rw [List.mem_flatMap]
  constructor
  · rintro ⟨w, hw, hmem⟩
    obtain ⟨-, hu, -, happlied⟩ := mem_drawWork.mp hw
    obtain ⟨r', hr', hid⟩ := List.mem_map.mp hmem
    rw [happlied, creditsFor] at hr'
    split at hr'
    · rename_i hlive
      obtain ⟨hrow, hdue⟩ := List.mem_filter.mp hr'
      obtain ⟨hown, happ, hvest⟩ := of_decide_eq_true hdue
      obtain rfl : r' = r := Table.eq_of_num_eq hrow hr hid
      exact ⟨happ, hvest, w.old, by rw [hown]; exact hu, hlive⟩
    · cases hr'
  · rintro ⟨happ, hvest, user, hu, hlive⟩
    have hid : user.id = r.referrerUserId := (Table.mem_of_find hu).2
    refine ⟨⟨user, credited db.books t user, creditsFor db.books t user⟩,
      mem_drawWork.mpr ⟨?_, by rw [hid]; exact hu, rfl, rfl⟩, ?_⟩
    · unfold rewardOwners
      rw [List.mem_dedup, List.mem_map]
      exact ⟨r, List.mem_filter.mpr ⟨hr, by simp [happ, hvest]⟩, hid.symm⟩
    · refine List.mem_map.mpr ⟨r, ?_, rfl⟩
      rw [creditsFor, if_pos hlive]
      exact List.mem_filter.mpr ⟨hr, by simp [hid, happ, hvest]⟩

/-- The tables after the commit of the job. -/
lemma rewards_commit_eq (t : Time) (sent : List NewNotice) (db : Db) :
    ∃ users notices, users.rows = db.users.rows.map (credited db.books t)
      ∧ writeNotices sent ((drawWork db.books t).foldl (RewardWork.write t) db) = { db with
          users := users
          referralRewards := (markedAt db t).foldl (markApplied t) db.referralRewards
          notifications := notices } := by
  refine ⟨((drawWork db.books t).foldl (RewardWork.write t) db).users,
    sent.foldl (fun t n => post t n.userId n.kind n.dedupeKey) db.notifications,
    rows_users_drawWork t db, ?_⟩
  rw [writeNotices_eq, foldl_write_eq]
  rfl

end VpnPortal
