/-
The tables of the portal (`pwa/db/models.py`), with the columns that the
modelled functions read or write.

Times are microseconds since the epoch, UTC: a `datetime` has that resolution
and every stored one is UTC, so `_aware` is the identity here and `timedelta`
is an integer. A row's number stands for its uuid.

A session writes only the columns it changed. `User.merge old new cur` is that
`UPDATE`: the columns in which `new` differs from the loaded row `old`, written
over the row `cur` that is there at the commit (`Payment.merge` likewise). When
nobody wrote in between, `cur = old` and the merged columns are those of `new`.
-/
import VpnPortal.Tables.Table

namespace VpnPortal

open Tables

/-- Microseconds since the epoch, UTC. -/
abbrev Time := ℤ

/-- `timedelta(days=n)`. -/
def days (n : ℤ) : Time := n * 86400000000

/-- `users` -/
structure User where
  id : ℕ
  username : String
  email : Option String := none
  isActive : Bool := true
  isSubscribed : Bool := false
  peerIp : Option String := none
  plan : Option String := none
  subscribedUntil : Option Time := none
  emailVerifiedAt : Option Time := none
  trialUntil : Option Time := none
  referredCode : Option String := none
  telegramId : Option ℤ := none
  telegramLinkHash : Option String := none
  telegramLinkExpires : Option Time := none
  googleSub : Option String := none
  passwordHash : String := ""
  deriving DecidableEq, Repr

/-- `Config.kind` -/
inductive Kind where
  | paid | trial
  deriving DecidableEq, Repr

/-- `configs`: one device of a customer. Rows stand in the order of
`created_at`. -/
structure Config where
  id : ℕ
  userId : ℕ
  name : String
  peerIp : String
  kind : Kind := .paid
  location : String := "de"
  publicKey : String
  isActive : Bool := true
  deriving DecidableEq, Repr

/-- `payments` -/
structure Payment where
  id : ℕ
  userId : ℕ
  plan : String
  amount : ℤ
  currency : String := "RUB"
  status : String := "pending"
  heleketInvoiceId : Option String := none
  provider : Option String := none
  providerRef : Option String := none
  promoCode : Option String := none
  creditSpent : ℤ := 0
  paidAt : Option Time := none
  deriving DecidableEq, Repr

/-- `promo_codes` -/
structure PromoCode where
  id : ℕ
  code : String
  ownerUserId : Option ℕ := none
  discountPercent : ℤ := 10
  maxUses : Option ℤ := none
  isActive : Bool := true
  expiresAt : Option Time := none
  deriving DecidableEq, Repr

/-- `CreditEntry.reason` -/
inductive CreditReason where
  | referralReward | spend | expiry | adjustment
  deriving DecidableEq, Repr

/-- `credit_entries`: one movement of account credit. -/
structure CreditEntry where
  id : ℕ
  userId : ℕ
  delta : ℤ
  reason : CreditReason
  paymentId : Option ℕ := none
  sourcePaymentId : Option ℕ := none
  vestsAt : Option Time := none
  expiresAt : Option Time := none
  deriving DecidableEq, Repr

/-- `referral_rewards` -/
structure ReferralReward where
  id : ℕ
  referrerUserId : ℕ
  sourcePaymentId : ℕ
  days : ℤ
  vestsAt : Time
  appliedAt : Option Time := none
  deriving DecidableEq, Repr

/-- `trial_grants` -/
structure TrialGrant where
  id : ℕ
  emailNorm : Option String := none
  telegramId : Option ℤ := none
  userId : Option ℕ := none
  sourceIp : Option String := none
  grantedAt : Time := 0
  deriving DecidableEq, Repr

/-- `Notification.kind` -/
inductive NoticeKind where
  | paid | granted | trialStarted | trialEnds1d | trialEnded
  | subEnds3d | subEnds1d | subEnded | service | referralBonus
  deriving DecidableEq, Repr

/-- `Notification.dedupe_key`. The source writes it as a text, the tag followed
by an ISO date or a row id. -/
inductive DedupeKey where
  | sub1 (until_ : Time)
  | sub3 (until_ : Time)
  | trial1 (until_ : Time)
  | ended (kind : NoticeKind) (until_ : Time)
  | referral (reward : ℕ)
  deriving DecidableEq, Repr

/-- `notifications`. The rendered texts are not kept. -/
structure Notification where
  id : ℕ
  userId : ℕ
  kind : NoticeKind
  dedupeKey : Option DedupeKey := none
  deriving DecidableEq, Repr

instance : Row User := ⟨User.id⟩
instance : Row Config := ⟨Config.id⟩
instance : Row Payment := ⟨Payment.id⟩
instance : Row PromoCode := ⟨PromoCode.id⟩
instance : Row CreditEntry := ⟨CreditEntry.id⟩
instance : Row ReferralReward := ⟨ReferralReward.id⟩
instance : Row TrialGrant := ⟨TrialGrant.id⟩
instance : Row Notification := ⟨Notification.id⟩

@[simp] lemma num_user (u : User) : Row.num u = u.id := rfl
@[simp] lemma num_config (c : Config) : Row.num c = c.id := rfl
@[simp] lemma num_payment (p : Payment) : Row.num p = p.id := rfl
@[simp] lemma num_creditEntry (e : CreditEntry) : Row.num e = e.id := rfl
@[simp] lemma num_referralReward (r : ReferralReward) : Row.num r = r.id := rfl
@[simp] lemma num_notification (n : Notification) : Row.num n = n.id := rfl

lemma Config.num_withId (c : Config) (n : ℕ) : Row.num { c with id := n } = n := rfl
lemma CreditEntry.num_withId (e : CreditEntry) (n : ℕ) : Row.num { e with id := n } = n := rfl

/-- The committed contents of the database. -/
@[ext]
structure Db where
  users : Table User := default
  configs : Table Config := default
  payments : Table Payment := default
  promoCodes : Table PromoCode := default
  creditEntries : Table CreditEntry := default
  referralRewards : Table ReferralReward := default
  trialGrants : Table TrialGrant := default
  notifications : Table Notification := default

/-! ### Column-wise writes -/

/-- The value an `UPDATE` leaves in one column: written only when the session
changed it. -/
def column {γ : Type} [DecidableEq γ] (old new cur : γ) : γ := if new = old then cur else new

@[simp] lemma column_self {γ : Type} [DecidableEq γ] (old new : γ) : column old new old = new := by
  unfold column
  split
  · rename_i h; exact h.symm
  · rfl

@[simp] lemma column_same {γ : Type} [DecidableEq γ] (old cur : γ) : column old old cur = cur :=
  if_pos rfl

/-- The columns of the account that the modelled sessions write. -/
def User.merge (old new cur : User) : User :=
  { cur with
    isSubscribed := column old.isSubscribed new.isSubscribed cur.isSubscribed
    peerIp := column old.peerIp new.peerIp cur.peerIp
    plan := column old.plan new.plan cur.plan
    subscribedUntil := column old.subscribedUntil new.subscribedUntil cur.subscribedUntil
    trialUntil := column old.trialUntil new.trialUntil cur.trialUntil }

/-- The columns of the order that the modelled sessions write. -/
def Payment.merge (old new cur : Payment) : Payment :=
  { cur with
    status := column old.status new.status cur.status
    heleketInvoiceId := column old.heleketInvoiceId new.heleketInvoiceId cur.heleketInvoiceId
    provider := column old.provider new.provider cur.provider
    providerRef := column old.providerRef new.providerRef cur.providerRef
    paidAt := column old.paidAt new.paidAt cur.paidAt }

@[simp] lemma User.merge_id (old new cur : User) : (User.merge old new cur).id = cur.id := rfl

@[simp] lemma Payment.merge_id (old new cur : Payment) :
    (Payment.merge old new cur).id = cur.id := rfl

lemma User.num_merge (old new cur : User) : Row.num (User.merge old new cur) = Row.num cur := rfl

lemma Payment.num_merge (old new cur : Payment) :
    Row.num (Payment.merge old new cur) = Row.num cur := rfl

/-- The changed columns of one account, written to its row. -/
def saveAccount (users : Table User) (old new : User) : Table User :=
  users.update old.id (User.merge old new) (User.num_merge old new)

/-- The changed columns of one order, written to its row. -/
def saveOrder (payments : Table Payment) (old new : Payment) : Table Payment :=
  payments.update old.id (Payment.merge old new) (Payment.num_merge old new)

lemma find_saveAccount_self {users : Table User} {old cur : User} (new : User)
    (h : users.find old.id = some cur) :
    (saveAccount users old new).find old.id = some (User.merge old new cur) :=
  Table.find_update_self (User.num_merge old new) h

lemma find_saveAccount_of_ne {users : Table User} {old new : User} {m : ℕ} (h : m ≠ old.id) :
    (saveAccount users old new).find m = users.find m :=
  Table.find_update_of_ne (User.num_merge old new) h

lemma find_saveOrder_self {payments : Table Payment} {old cur : Payment} (new : Payment)
    (h : payments.find old.id = some cur) :
    (saveOrder payments old new).find old.id = some (Payment.merge old new cur) :=
  Table.find_update_self (Payment.num_merge old new) h

lemma find_saveOrder_of_ne {payments : Table Payment} {old new : Payment} {m : ℕ}
    (h : m ≠ old.id) : (saveOrder payments old new).find m = payments.find m :=
  Table.find_update_of_ne (Payment.num_merge old new) h

/-- A device row switched off. -/
def Config.off (c : Config) : Config := { c with isActive := false }

@[simp] lemma Config.off_id (c : Config) : c.off.id = c.id := rfl

/-- One device of the table switched off. -/
def switchOff (configs : Table Config) (c : ℕ) : Table Config :=
  configs.update c Config.off fun _ => rfl

/-- One reward marked as applied. -/
def markApplied (now : Time) (rewards : Table ReferralReward) (r : ℕ) : Table ReferralReward :=
  rewards.update r (fun x => { x with appliedAt := some now }) fun _ => rfl

/-- One message added under the unique `(user_id, dedupe_key)`: a duplicate
fails alone, inside its savepoint. -/
def post (notices : Table Notification) (user : ℕ) (kind : NoticeKind)
    (dedupe : Option DedupeKey) : Table Notification :=
  if dedupe ≠ none ∧ ∃ n ∈ notices.rows, n.userId = user ∧ n.dedupeKey = dedupe then notices
  else notices.insert (fun n => ⟨n, user, kind, dedupe⟩) fun _ => rfl

namespace Db

/-- `UPDATE users`: the changed columns of one account. -/
def saveUser (old new : User) (db : Db) : Db :=
  { db with users := saveAccount db.users old new }

/-- `UPDATE payments`: the changed columns of one order. -/
def savePayment (old new : Payment) (db : Db) : Db :=
  { db with payments := saveOrder db.payments old new }

/-- `UPDATE configs SET is_active = false` of one device. -/
def deactivate (db : Db) (c : ℕ) : Db := { db with configs := switchOff db.configs c }

/-- `UPDATE referral_rewards SET applied_at` of one reward. -/
def applyReward (now : Time) (db : Db) (r : ℕ) : Db :=
  { db with referralRewards := markApplied now db.referralRewards r }

/-- `INSERT INTO notifications`. -/
def addNotification (db : Db) (user : ℕ) (kind : NoticeKind) (dedupe : Option DedupeKey) : Db :=
  { db with notifications := post db.notifications user kind dedupe }

/-- Switching devices off touches the devices only. -/
lemma foldl_deactivate (off : List ℕ) (db : Db) :
    off.foldl deactivate db = { db with configs := off.foldl switchOff db.configs } := by
  induction off generalizing db with
  | nil => rfl
  | cons c off ih => rw [List.foldl_cons, ih]; rfl

/-- Marking rewards touches the rewards only. -/
lemma foldl_applyReward (now : Time) (ids : List ℕ) (db : Db) :
    ids.foldl (applyReward now) db
      = { db with referralRewards := ids.foldl (markApplied now) db.referralRewards } := by
  induction ids generalizing db with
  | nil => rfl
  | cons r ids ih => rw [List.foldl_cons, ih]; rfl

end Db

/-- The devices after some were switched off. -/
lemma rows_foldl_switchOff (off : List ℕ) (configs : Table Config) :
    (off.foldl switchOff configs).rows
      = configs.rows.map fun c => if c.id ∈ off then c.off else c :=
  Table.rows_foldl_update (f := Config.off) (fun _ => rfl) off configs

/-- The rewards after some were marked. -/
lemma rows_foldl_markApplied (now : Time) (ids : List ℕ) (rewards : Table ReferralReward) :
    (ids.foldl (markApplied now) rewards).rows
      = rewards.rows.map fun r => if r.id ∈ ids then { r with appliedAt := some now } else r :=
  Table.rows_foldl_update (f := fun r : ReferralReward => { r with appliedAt := some now })
    (fun _ => rfl) ids rewards

/-- Accounts saved by a session that loaded them as they are, each once. -/
lemma rows_foldl_saveAccount {β : Type} (old new : β → User) {f : User → User} (work : List β)
    (users : Table User) (hnodup : (work.map fun w => (old w).id).Nodup)
    (hold : ∀ w ∈ work, users.find (old w).id = some (old w))
    (hnew : ∀ w ∈ work, User.merge (old w) (new w) (old w) = f (old w)) :
    (work.foldl (fun us w => saveAccount us (old w) (new w)) users).rows
      = users.rows.map fun u => if u.id ∈ work.map (fun w => (old w).id) then f u else u := by
  induction work generalizing users with
  | nil => simp
  | cons w rest ih =>
      obtain ⟨hnot, hrest⟩ := List.nodup_cons.mp hnodup
      have hold' : ∀ x ∈ rest, (saveAccount users (old w) (new w)).find (old x).id
          = some (old x) := by
        intro x hx
        have hne : (old x).id ≠ (old w).id := by
          intro heq
          exact hnot (List.mem_map.mpr ⟨x, hx, heq⟩)
        rw [find_saveAccount_of_ne hne]
        exact hold x (by simp [hx])
      rw [List.foldl_cons, ih _ hrest hold' fun x hx => hnew x (by simp [hx]), saveAccount,
        Table.rows_update, List.map_map]
      refine List.map_congr_left fun u hu => ?_
      dsimp only [Function.comp, num_user]
      by_cases hid : u.id = (old w).id
      · -- the row of `w` is the one that was loaded
        have hrow : u = old w := Table.eq_of_num_eq hu (Table.mem_of_find (hold w (by simp))).1 hid
        subst hrow
        have hnot' : (old w).id ∉ rest.map fun w => (old w).id := hnot
        have hnew' : User.merge (old w) (new w) (old w) = f (old w) := hnew w (by simp)
        have hid' : (f (old w)).id = (old w).id := by rw [← hnew']; rfl
        simp only [↓reduceIte, hnew', hid', hnot', List.map_cons, List.mem_cons, true_or]
      · simp [hid]

end VpnPortal
