/-
The account endpoints that change devices or periods: starting the trial
(`pwa/api/trial.py`), adding and removing a device (`pwa/api/config.py`) and the
admin's manual grant of a peer (`pwa/api/register.py`).

A refusal raises before anything is committed. `start_trial` flushes its grant
before the device is issued, under the unique constraints of `trial_grants`; the
row is held against other sessions until the commit or the rollback.
-/
import VpnPortal.Services.Trial
import VpnPortal.Api.Payment

namespace VpnPortal

open Sessions Tables

/-! ### Starting the trial -/

/-- The grant of a trial. `granted_at` is the start of the transaction. -/
def newGrant (user : User) (norm : Option String) (ip : String) (t : Time) (n : ℕ) : TrialGrant where
  id := n
  emailNorm := norm
  telegramId := user.telegramId
  userId := some user.id
  sourceIp := if ip = "" then none else some (String.ofList (ip.toList.take 64))
  grantedAt := t

/-- The query for an earlier grant of this mailbox or Telegram account. With
neither there is no condition left, and every grant counts. -/
def grantUsed (grants : List TrialGrant) (norm : Option String) (telegram : Option ℤ) : Bool :=
  if norm = none ∧ telegram = none then !grants.isEmpty
  else grants.any fun g => (norm ≠ none ∧ g.emailNorm = norm)
    ∨ (telegram ≠ none ∧ g.telegramId = telegram)

/-- The unique constraints on `email_norm`, `telegram_id` and `user_id`. -/
def grantConflict (grants : List TrialGrant) (new : TrialGrant) : Bool :=
  grants.any fun g => (new.emailNorm ≠ none ∧ g.emailNorm = new.emailNorm)
    ∨ (new.telegramId ≠ none ∧ g.telegramId = new.telegramId)
    ∨ (new.userId ≠ none ∧ g.userId = new.userId)

/-- The commit of `start_trial`. -/
def writeTrial (user : User) (until_ : Time) (norm : Option String) (ip : String) (began : Time)
    (device : Config) (db : Db) : Db :=
  { db with
    users := saveAccount db.users user { user with trialUntil := some until_ }
    trialGrants := db.trialGrants.insert (newGrant user norm ip began) fun _ => rfl
    configs := db.configs.insert (fun n => { device with id := n }) device.num_withId
    notifications := post db.notifications user.id .trialStarted none }

/-- What `start_trial` has written when it succeeds, and the account as it was
read. -/
structure StartedTrial where
  user : User
  grant : TrialGrant
  until_ : Time
  device : Config
  deriving DecidableEq, Repr

/-- How the `INSERT` of a flush ends. -/
inductive Flush where
  | done
  | integrityError
  | interrupted
  deriving DecidableEq, Repr

/-- `db.flush()` of a new grant. A committed row with one of its keys is an
`IntegrityError`. A row with one of its keys that another session has flushed
makes the `INSERT` wait until that session is over, so the step stands for the
moment the wait ends; a step before that moment is a wait cut short, by a
deadlock or a lost connection. -/
def flushGrant (new : TrialGrant) : Portal Flush :=
  Proc.exchange fun w _ =>
    if grantConflict w.db.trialGrants.rows new then (.integrityError, w)
    else if grantConflict w.flushed new then (.interrupted, w)
    else (.done, { w with flushed := w.flushed ++ [new] })

/-- `db.rollback()`, or the end of a session that never committed: the row it
has flushed is gone. -/
def rollback (new : TrialGrant) : Portal Unit :=
  Proc.change fun w => { w with flushed := w.flushed.erase new }

/-- `db.commit()` of a trial, with the rows it has stored. -/
def commitTrial (user : User) (until_ : Time) (norm : Option String) (ip : String) (began : Time)
    (device : Config) : Portal StartedTrial :=
  Proc.exchange fun w _ =>
    ({ user := user
       grant := newGrant user norm ip began w.db.trialGrants.next
       until_ := until_
       device := { device with id := w.db.configs.next } },
      { w with
        db := writeTrial user until_ norm ip began device w.db
        flushed := w.flushed.erase (newGrant user norm ip began 0) })

/-- The device of a trial whose grant is flushed; an exception on the way ends
the session and its transaction. -/
def issueTrialDevice (cfg : Settings) (user : User) (row : TrialGrant) : Portal (Option Config) :=
  (issueConfig cfg user "trial" .trial Settings.defaultLocation).tryCatch fun e => do
    rollback row
    .raise e

/-- `start_trial` past the limits: the grant is flushed and the device issued. -/
def issueTrial (cfg : Settings) (user : User) (norm : Option String) (ip : String) (began : Time) :
    Portal StartedTrial := do
  let t ← now
  let row := newGrant user norm ip began 0
  match ← flushGrant row with
  | .integrityError => .raise (.http 409 (.text "trial_used"))
  | .interrupted => .raise .crash
  | .done => do
      match ← issueTrialDevice cfg user row with
      | none => do
          rollback row
          .raise (.http 503 (.text "trial_busy"))
      | some device => commitTrial user (trialEnd cfg t) norm ip began device

/-- `start_trial` past the checks of the account: the ceilings. -/
def grantTrial (cfg : Settings) (user : User) (ip : String) (began : Time) :
    Portal StartedTrial := do
  match ← Proc.ask Input.rateLimit with
  | some wait => .raise (.http 429 (.retryAfter wait))
  | none => do
      let norm := user.confirmedEmail.map (normaliseEmail cfg)
      let used ← select fun db => grantUsed db.trialGrants.rows norm user.telegramId
      if used then .raise (.http 409 (.text "trial_used"))
      else do
        let t ← now
        let today ← select fun db =>
          (db.trialGrants.rows.filter fun g => t - days 1 ≤ g.grantedAt).length
        if cfg.trialDailyCap ≤ today then .raise (.http 503 (.text "trial_busy"))
        else issueTrial cfg user norm ip began

/-- `start_trial` -/
def startTrial (cfg : Settings) (username ip : String) : Portal StartedTrial := do
  let began ← now
  let user ← currentUser username
  if !cfg.trialEnabled then .raise (.http 403 (.text "trial_off"))
  else if !verified user then .raise (.http 403 (.text "email_not_verified"))
  else do
    let t ← now
    if trialActive user t then .raise (.http 409 (.text "trial_active"))
    else if user.trialUntil.isSome || user.subscribedUntil.isSome then
      .raise (.http 409 (.text "trial_used"))
    else if user.confirmedEmail.any (isDisposable cfg) then
      .raise (.http 403 (.text "trial_unavailable"))
    else grantTrial cfg user ip began

/-! ### Devices -/

structure NewConfigRequest where
  name : String := "device"
  location : Option String := none
  deriving DecidableEq, Repr

/-- What `add_config` answers. -/
structure AddedDevice where
  device : Config
  used : ℕ
  limit : ℕ
  deriving DecidableEq, Repr

/-- The text of the refusal when the plan has no room. -/
def noRoom (limit : ℕ) : String :=
  "Plan allows " ++ toString limit ++ " device(s) in this location; remove one first"

/-- `add_config` once the location is known: the plan's room, then the node. -/
def addDevice (cfg : Settings) (user : User) (name location : String) : Portal AddedDevice := do
  let held ← activeConfigs user.id
  let configs := held.filter fun c => c.kind ≠ .trial ∧ c.locationKey = location
  let limit := configLimit user.plan
  if limit ≤ configs.length then .raise (.http 409 (.text (noRoom limit)))
  else match ← issueConfig cfg user name .paid location with
    | none => .raise (.http 503 (.text "Could not provision a device"))
    | some device => do
        let row ← commitWith fun db =>
          ({ device with id := db.configs.next },
            { db with configs := db.configs.insert (fun n => { device with id := n }) device.num_withId })
        pure ⟨row, configs.length + 1, limit⟩

/-- `add_config`: a device, provided the plan has room for it. -/
def addConfig (cfg : Settings) (username : String) (req : NewConfigRequest) :
    Portal AddedDevice := do
  let user ← currentUser username
  let t ← now
  if !hasActiveSubscription user t then .raise (.http 402 (.text "No active subscription"))
  else
    let location := (req.location.filter (· ≠ "")).getD cfg.defaultForNew
    if (cfg.getLocation location).isNone then .raise (.http 422 (.text "Unknown location"))
    else if location ∈ cfg.paused then .raise (.http 409 (.text "location_paused"))
    else addDevice cfg user req.name location

/-- The account after one of its devices is gone: its address moves to the
newest of the others. -/
def afterRemoval (user : User) (device : Config) (others : List Config) : User :=
  if user.peerIp = some device.peerIp then { user with peerIp := others.head?.map Config.peerIp }
  else user

/-- `delete_config` once the node has confirmed. -/
def dropDevice (user : User) (device : Config) : Portal ℕ := do
  let held ← activeConfigs user.id
  let new := afterRemoval user device (held.filter fun c => c.id ≠ device.id)
  commit fun db => (db.deactivate device.id).saveUser user new
  pure device.id

/-- `delete_config`: the row is marked only once the node confirms. -/
def deleteConfig (cfg : Settings) (username : String) (id : ℕ) : Portal ℕ := do
  let user ← currentUser username
  match ← select fun db =>
      (db.configs.find id).filter fun c => c.userId = user.id ∧ c.isActive with
  | none => .raise (.http 404 (.text "Config not found"))
  | some device =>
      if device.kind = .trial then .raise (.http 409 (.text "trial_device"))
      else do
        let ok ← removePeerFor cfg device
        if ok then dropDevice user device
        else .raise (.http 503 (.text "Could not remove the device"))

/-! ### The admin's grant of a peer -/

/-- A request to `assign_peer`; the model of the request bounds the days. -/
structure AssignPeerRequest where
  username : String
  peerIp : String
  days : ℤ := 30
  one_le : 1 ≤ days := by decide
  le_year : days ≤ 365 := by decide

/-- The account after `assign_peer`. -/
def assigned (user : User) (peerIp : String) (n : ℤ) (t : Time) : User :=
  { user with
    peerIp := some peerIp
    isSubscribed := true
    subscribedUntil := some (extendedUntil user t n) }

/-- `assign_peer` -/
def assignPeer (req : AssignPeerRequest) : Portal User := do
  let rows ← select fun db => db.users.rows.filter fun u => u.username = req.username
  match ← scalarOneOrNone rows with
  | none => .raise (.http 404 (.text ("User '" ++ req.username ++ "' not found")))
  | some user => do
      let t ← now
      commit (Db.saveUser user (assigned user req.peerIp req.days t))
      pure (assigned user req.peerIp req.days t)

end VpnPortal
