/-
Account credit and referral rewards (`pwa/services/credit.py`): the balance,
the price of an order, and what an activation writes to the ledger and to the
rewards.

A function that adds a row to the session returns the row it would add; its
number is given at the commit. `apply_rewards_for` changes the account in
memory, so it returns the changed account together with the rewards it marked.
-/
import VpnPortal.Services.Notify
import VpnPortal.Services.Plans

namespace VpnPortal

open Sessions

/-- `REFERRAL_REWARD_DAYS` -/
def referralRewardDays : ℤ := 30

/-- `REWARD_VESTING_DAYS` -/
def rewardVestingDays : ℤ := 14

/-! ### Pricing an order -/

/-- `balance`: vested, not expired, summed from the ledger. -/
def balance (db : Db) (user : ℕ) (t : Time) : ℤ :=
  ((db.creditEntries.rows.filter fun e =>
    e.userId = user ∧ e.vestsAt.all (· ≤ t) ∧ e.expiresAt.all (t < ·)).map CreditEntry.delta).sum

/-- `uses_of`: how many paid orders carried a code. -/
def usesOf (db : Db) (code : String) : ℤ :=
  (db.payments.rows.filter fun p => p.promoCode = some code ∧ p.status = "paid").length

/-- `is_first_purchase`: no paid order yet; a manual grant is not one. -/
def isFirstPurchase (db : Db) (user : ℕ) : Bool :=
  !db.payments.rows.any fun p =>
    p.userId = user ∧ (p.status = "paid" ∨ p.status = "paid_over") ∧ p.provider ≠ some "manual"

/-- The reasons `resolve_code` refuses a code for. -/
inductive Refusal where
  | unknown | inactive | expired | usedUp | ownCode | notFirst
  deriving DecidableEq, Repr

/-- `REFUSAL_TEXT` -/
def Refusal.text : Refusal → String
  | .unknown => "Unknown code"
  | .inactive => "This code is no longer active"
  | .expired => "This code has expired"
  | .usedUp => "This code has been used up"
  | .ownCode => "You cannot use your own referral code"
  | .notFirst => "A friend's code applies to the first purchase only"

/-- `code.strip().upper()` -/
def normaliseCode (cfg : Settings) (code : String) : String := cfg.upper (strip code)

/-- Whether a code with a ceiling has reached it. -/
def isUsedUp (promo : PromoCode) : Portal Bool :=
  match promo.maxUses with
  | none => pure false
  | some m => do
      let n ← select fun db => usesOf db promo.code
      pure (decide (m ≤ n))

/-- `resolve_code`: a usable code, or the reason it is not. -/
def resolveCode (cfg : Settings) (code : Option String) (buyer : User) :
    Portal (Option PromoCode × Option Refusal) :=
  match code with
  | none => pure (none, none)
  | some "" => pure (none, none)
  | some code => do
      let t ← now
      let promo ← select fun db => db.promoCodes.rows.find? fun c => c.code = normaliseCode cfg code
      match promo with
      | none => pure (none, some .unknown)
      | some promo =>
          if !promo.isActive then pure (none, some .inactive)
          else if promo.expiresAt.any (· ≤ t) then pure (none, some .expired)
          else do
            let used ← isUsedUp promo
            if used then pure (none, some .usedUp)
            else if promo.ownerUserId = some buyer.id then pure (none, some .ownCode)
            else if promo.ownerUserId.isSome then do
              let first ← select fun db => isFirstPurchase db buyer.id
              if first then pure (some promo, none) else pure (none, some .notFirst)
            else pure (some promo, none)

/-- `round(n * percent / 100)`: to the nearest, halves to even. -/
def roundPercent (n percent : ℤ) : ℤ :=
  let q := (n * percent) / 100
  let r := (n * percent) % 100
  if r < 50 then q else if 50 < r then q + 1 else if q % 2 = 0 then q else q + 1

/-- `discounted_price` -/
def discountedPrice (info : PlanInfo) (promo : Option PromoCode) : ℤ :=
  match promo with
  | none => info.amount
  | some promo => info.amount - roundPercent info.amount promo.discountPercent

/-- `max_credit_for`: half the order, `int` cutting towards zero. -/
def maxCreditFor (amount : ℤ) : ℤ := amount.tdiv 2

/-- The fields of a quote that an order is opened with. -/
structure Quote where
  promoCode : Option String
  promoRefused : Option Refusal
  creditSpent : ℤ
  amount : ℤ
  deriving DecidableEq, Repr

/-- Without a typed code, the one the account was registered with applies to the
first purchase; `promo` is what the typed code resolved to. -/
def registeredPromo (cfg : Settings) (user : User) (code : Option String) (promo : Option PromoCode) :
    Portal (Option PromoCode) :=
  if (code = none ∨ code = some "") ∧ user.referredCode ≠ none ∧ user.referredCode ≠ some ""
  then do
    let first ← select fun db => isFirstPurchase db user.id
    if first then do
      let (promo, _) ← resolveCode cfg user.referredCode user
      pure promo
    else pure promo
  else pure promo

/-- `price_order`: what an order costs and what it consumes. -/
def priceOrder (cfg : Settings) (user : User) (info : PlanInfo) (code : Option String)
    (useCredit : ℤ) : Portal Quote := do
  let (promo, refusal) ← resolveCode cfg code user
  let promo ← registeredPromo cfg user code promo
  let afterDiscount := discountedPrice info promo
  let t ← now
  let available ← select fun db => balance db user.id t
  let credit := max 0 (min useCredit (min available (maxCreditFor afterDiscount)))
  pure { promoCode := promo.map PromoCode.code, promoRefused := refusal,
         creditSpent := credit, amount := afterDiscount - credit }

/-! ### Ledger writes -/

/-- The 'spend' entries an order already has. -/
def spendsOf (entries : List CreditEntry) (payment : ℕ) : List CreditEntry :=
  entries.filter fun e => e.reason = .spend ∧ e.paymentId = some payment

/-- The entry by which an order consumes its credit. -/
def spendEntry (payment : Payment) : CreditEntry where
  id := 0
  userId := payment.userId
  delta := -payment.creditSpent
  reason := .spend
  paymentId := some payment.id

/-- `spend_on_payment`: the entry added to the session, if any. -/
def spendOnPayment (payment : Payment) : Portal (Option CreditEntry) :=
  if payment.creditSpent ≤ 0 then pure none
  else do
    let already ← select fun db => spendsOf db.creditEntries.rows payment.id
    if already.isEmpty then pure (some (spendEntry payment)) else pure none

/-- `reward_for_payment`: the reward added to the session, if any. -/
def rewardForPayment (payment : Payment) (t : Time) : Portal (Option ReferralReward) :=
  match payment.promoCode.filter (· ≠ "") with
  | none => pure none
  | some code => do
      let promo ← select fun db => db.promoCodes.rows.find? fun c => c.code = code
      match promo.bind PromoCode.ownerUserId with
      | none => pure none
      | some owner =>
          if owner = payment.userId then pure none
          else if (planInfo (some payment.plan)).isNone then pure none
          else if payment.amount ≤ 0 then pure none
          else do
            let already ← select fun db =>
              db.referralRewards.rows.any fun r => r.sourcePaymentId = payment.id
            if already then pure none
            else pure (some { id := 0, referrerUserId := owner, sourcePaymentId := payment.id,
                              days := referralRewardDays, vestsAt := t + days rewardVestingDays })

/-- `_subscribed` -/
def subscribed (user : User) (t : Time) : Bool :=
  user.isSubscribed && user.subscribedUntil.any (t < ·)

/-- The rewards `apply_rewards_for` finds due. -/
def dueRewards (rewards : List ReferralReward) (user : ℕ) (t : Time) : List ReferralReward :=
  rewards.filter fun r => r.referrerUserId = user ∧ r.appliedAt = none ∧ r.vestsAt ≤ t

/-- `n` days on top of the recorded end. -/
def User.extend (user : User) (n : ℤ) : User :=
  { user with subscribedUntil := user.subscribedUntil.map (· + days n) }

/-- The loop of `apply_rewards_for`. -/
def applyEach : User → List ReferralReward → List NewNotice → Portal (User × List NewNotice)
  | user, [], sent => pure (user, sent)
  | user, r :: rest, sent => do
      let user := user.extend r.days
      match ← notify sent user .referralBonus (some (.referral r.id)) with
      | none => applyEach user rest sent
      | some n => applyEach user rest (sent ++ [n])

/-- `apply_rewards_for`: the account with the days of its vested rewards, the
rewards marked as applied, and the messages so far. -/
def applyRewardsFor (user : User) (t : Time) (sent : List NewNotice) :
    Portal (User × List ReferralReward × List NewNotice) :=
  if subscribed user t then do
    let due ← select fun db => dueRewards db.referralRewards.rows user.id t
    let (user, sent) ← applyEach user due sent
    pure (user, due, sent)
  else pure (user, [], sent)

/-- What `apply_due_rewards` did for one referrer. -/
structure RewardWork where
  old : User
  new : User
  applied : List ReferralReward
  deriving DecidableEq, Repr

/-- The changed rows of one referrer. -/
def RewardWork.write (t : Time) (db : Db) (w : RewardWork) : Db :=
  (w.applied.map ReferralReward.id).foldl (Db.applyReward t) (db.saveUser w.old w.new)

/-- The loop of `apply_due_rewards` over the referrers. -/
def rewardEach (t : Time) : List ℕ → List RewardWork → List NewNotice →
    Portal (List RewardWork × List NewNotice)
  | [], work, sent => pure (work, sent)
  | uid :: rest, work, sent => do
      match ← select fun db => db.users.find uid with
      | none => rewardEach t rest work sent
      | some user => do
          let (new, applied, sent) ← applyRewardsFor user t sent
          rewardEach t rest (work ++ [⟨user, new, applied⟩]) sent

/-- The referrers with a vested reward that is not applied, each once. -/
def rewardOwners (rewards : List ReferralReward) (t : Time) : List ℕ :=
  ((rewards.filter fun r => r.appliedAt = none ∧ r.vestsAt ≤ t).map
    ReferralReward.referrerUserId).dedup

/-- The days added for one referrer. -/
def RewardWork.added (w : RewardWork) : ℤ := (w.applied.map ReferralReward.days).sum

/-- The counts `apply_due_rewards` returns. -/
structure RewardStats where
  referrersRewarded : ℕ
  referralDaysAdded : ℤ
  deriving DecidableEq, Repr

/-- `apply_due_rewards` after the clock reading `t`. -/
def applyDueRewardsAt (t : Time) : Portal RewardStats := do
  let owners ← select fun db => rewardOwners db.referralRewards.rows t
  let (work, sent) ← rewardEach t owners [] []
  commit fun db => writeNotices sent (work.foldl (RewardWork.write t) db)
  pure ⟨(work.filter fun w => w.added ≠ 0).length, (work.map RewardWork.added).sum⟩

/-- `apply_due_rewards`: every vested reward whose referrer has a live
subscription. -/
def applyDueRewards : Portal RewardStats := do
  let t ← now
  applyDueRewardsAt t

end VpnPortal
