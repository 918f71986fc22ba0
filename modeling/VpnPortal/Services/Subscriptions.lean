/-
When a subscription is active and what ends it (`pwa/services/subscriptions.py`),
and the hourly job that runs the sweeps (`pwa/expire_subscriptions.py`).

A sweep loads its due rows, calls a node for each device, and commits once at
the end. What it has to write by then is its `SweepWork`: the devices whose
removal was confirmed, the accounts all of whose devices were, and the
messages.
-/
import VpnPortal.Services.Provisioner

namespace VpnPortal

open Sessions

/-- `has_active_subscription` -/
def hasActiveSubscription (user : User) (t : Time) : Bool :=
  if !user.isSubscribed then false
  else match user.subscribedUntil with
    | none => false
    | some until_ => decide (t < until_)

/-- `trial_active` -/
def trialActive (user : User) (t : Time) : Bool := user.trialUntil.any (t < ·)

/-- `has_access` -/
def hasAccess (user : User) (t : Time) : Bool :=
  hasActiveSubscription user t || trialActive user t

/-- What a sweep has in its session when it commits. -/
structure SweepWork where
  off : List ℕ := []
  revoked : List User := []
  sent : List NewNotice := []
  failures : ℕ := 0
  deriving DecidableEq, Repr

/-- The commit of a sweep. -/
def SweepWork.write (w : SweepWork) (db : Db) : Db :=
  writeNotices w.sent
    (w.revoked.foldl (fun db u => db.saveUser u { u with isSubscribed := false })
      (w.off.foldl Db.deactivate db))

/-! ### Ended trials -/

/-- The active trial devices whose owner's trial has ended, with the owner. -/
def dueTrials (db : Db) (t : Time) : List (Config × User) :=
  db.configs.rows.filterMap fun c =>
    if c.kind = .trial ∧ c.isActive then
      (db.users.find c.userId).bind fun u =>
        if u.trialUntil.any (· ≤ t) then some (c, u) else none
    else none

/-- The loop of `expire_due_trials`. -/
def expireTrials (cfg : Settings) (t : Time) : List (Config × User) → SweepWork → Portal SweepWork
  | [], w => pure w
  | (c, user) :: rest, w => do
      let ok ← removePeerFor cfg c
      if ok then do
        -- a trial cut short by a purchase is not news to the customer
        let sent ← if !hasActiveSubscription user t
          then ended w.sent user .trialEnded (user.trialUntil.getD t)
          else pure w.sent
        expireTrials cfg t rest { w with off := w.off ++ [c.id], sent := sent }
      else expireTrials cfg t rest { w with failures := w.failures + 1 }

structure TrialStats where
  trialsDue : ℕ
  trialPeersRemoved : ℕ
  trialFailures : ℕ
  deriving DecidableEq, Repr

/-- `expire_due_trials` -/
def expireDueTrials (cfg : Settings) (t : Time) : Portal TrialStats := do
  let rows ← select fun db => dueTrials db t
  let w ← expireTrials cfg t rows {}
  commit w.write
  pure ⟨rows.length, w.off.length, w.failures⟩

/-! ### Ended subscriptions -/

/-- A paid period that has ended and is still flagged. -/
def User.isDue (user : User) (t : Time) : Bool :=
  user.isSubscribed && user.subscribedUntil.any (· < t)

/-- The devices of one due account; the flag says that every removal was
confirmed. -/
def revokeDevices (cfg : Settings) : List Config → SweepWork → Bool → Portal (SweepWork × Bool)
  | [], w, all => pure (w, all)
  | c :: rest, w, all => do
      let ok ← removePeerFor cfg c
      if ok then revokeDevices cfg rest { w with off := w.off ++ [c.id] } all
      else revokeDevices cfg rest { w with failures := w.failures + 1 } false

/-- The loop of `expire_due_subscriptions` over the due accounts. -/
def revokeUsers (cfg : Settings) : List User → SweepWork → Portal SweepWork
  | [], w => pure w
  | user :: rest, w => do
      let configs ← select fun db => heldBy db.configs.rows user.id
      let (w, allRemoved) ← revokeDevices cfg configs w true
      if allRemoved then do
        let sent ← ended w.sent user .subEnded (user.subscribedUntil.getD 0)
        revokeUsers cfg rest { w with revoked := w.revoked ++ [user], sent := sent }
      else revokeUsers cfg rest w

structure SweepStats where
  usersDue : ℕ
  usersRevoked : ℕ
  peersRemoved : ℕ
  failures : ℕ
  undated : List String
  deriving DecidableEq, Repr

/-- `expire_due_subscriptions` -/
def expireDueSubscriptions (cfg : Settings) (t : Time) : Portal SweepStats := do
  let due ← select fun db => db.users.rows.filter fun u => u.isDue t
  let w ← revokeUsers cfg due {}
  commit w.write
  let undated ← select fun db => (db.users.rows.filter fun u =>
    u.isSubscribed ∧ u.subscribedUntil = none).map User.username
  pure ⟨due.length, w.revoked.length, w.off.length, w.failures, undated⟩

/-! ### The hourly job -/

/-- The stages of the job after the rewards: paid periods, trials, reminders. -/
def sweepStages (cfg : Settings) : Portal Unit := do
  let t ← now
  let _ ← expireDueSubscriptions cfg t
  let t ← now
  let _ ← expireDueTrials cfg t
  let _ ← remindDue
  pure ()

/-- `expire_subscriptions.main`. An exception in one stage ends the job. -/
def hourlyJob (cfg : Settings) : Portal Unit := do
  let _ ← applyDueRewards
  sweepStages cfg

end VpnPortal
