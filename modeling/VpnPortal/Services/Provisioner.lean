/-
Issuing devices and activating payments (`pwa/services/provisioner.py`).

`issue_config` adds its row to the session and leaves the commit to the caller,
so it returns the row. `activate_payment` keeps everything it changes in the
session until one commit: `Activation` is that unit of work, computed from what
the session read, and `Activation.write` is what its commit does to the rows
that are there at that moment. After the commit the trial peers are taken off
the node (`removeTrials`) and a second commit marks their rows.
-/
import VpnPortal.Services.Credit

namespace VpnPortal

open Sessions Tables

/-! ### Addresses -/

/-- An address pool: the network, the first and the last host. -/
structure AddressPool where
  net : String
  first : ℕ
  last : ℕ
  deriving DecidableEq, Repr

/-- `CLIENT_POOL` -/
def clientPool : AddressPool := ⟨"10.88.88", 42, 199⟩

/-- `TRIAL_POOL` -/
def trialPool : AddressPool := ⟨"10.88.89", 10, 250⟩

/-- The addresses of a pool, in the order they are tried. -/
def AddressPool.addresses (pool : AddressPool) : List String :=
  (List.range' pool.first (pool.last + 1 - pool.first)).map fun i => pool.net ++ "." ++ toString i

/-- `_entry_used_ips`: the addresses the node reports, none if it cannot be
read. -/
def entryUsedIps (host : String) : Portal (List String) := Proc.ask fun i => (i.used host).getD []

/-- `_find_free_ip`: the next free address of the pool on that location. -/
def findFreeIp (exclude : List String) (pool : AddressPool) (location : String) :
    Portal (Option String) :=
  select fun db =>
    let used := (db.configs.rows.filter fun c => c.isActive ∧ c.location = location).map Config.peerIp
    pool.addresses.find? fun ip => ip ∉ used ∧ ip ∉ exclude

/-! ### Issuing a device -/

/-- The retry loop of `issue_config`, at most ten rounds. -/
def addWithRetry (loc : Location) (pool : AddressPool) (pub psk name : String) :
    ℕ → List String → Portal (Option String)
  | 0, _ => pure none
  | n + 1, tried => do
      match ← findFreeIp tried pool loc.key with
      | none => pure none
      | some ip =>
          match ← addPeerAt loc.host ⟨pub, psk, ip ++ "/32", name⟩ with
          | .ok => pure (some ip)
          | .refused reason =>
              if hasText "ip in use" reason
              then addWithRetry loc pool pub psk name n (ip :: tried)
              else pure none
          | .raised => .raise .crash

/-- The node's label of a peer: the user name behind a tag, cut to 32. -/
def clientName (user : User) (kind : Kind) : String :=
  String.ofList (((if kind = .trial then "trial-" else "auto-") ++ user.username).toList.take 32)

/-- `issue_config`: keys, free address, node, row. The row's number is given at
the caller's commit. -/
def issueConfig (cfg : Settings) (user : User) (name : String) (kind : Kind)
    (location : String) : Portal (Option Config) := do
  let location := if kind = .trial then Settings.defaultLocation else location
  match cfg.getLocation location with
  | none => pure none
  | some loc =>
      match ← Proc.ask Input.keys with
      | none => pure none
      | some (pub, psk) =>
          let tried ← entryUsedIps loc.host
          let pool := if kind = .trial then trialPool else clientPool
          match ← addWithRetry loc pool pub psk (clientName user kind) 10 tried with
          | none => pure none
          | some ip =>
              pure (some { id := 0, userId := user.id, name := name, peerIp := ip, kind := kind,
                           location := loc.key, publicKey := pub })

/-! ### Removing a peer -/

/-- `remove_peer_for`: take a device off the entry of its own location. A
location that is no longer configured counts as refused. -/
def removePeerFor (cfg : Settings) (c : Config) : Portal Bool := do
  Proc.change fun w => { w with removals := w.removals ++ [c.id] }
  match cfg.getLocation c.locationKey with
  | none => pure false
  | some loc =>
      match ← removePeerAt loc.host c with
      | .ok => pure true
      | .refused _ => pure false
      | .raised => .raise .crash

/-! ### Activating a payment -/

/-- The devices an account holds. -/
def heldBy (configs : List Config) (user : ℕ) : List Config :=
  configs.filter fun c => c.userId = user ∧ c.isActive

/-- What one activation has in its session when it commits. -/
structure Activation where
  old : User
  new : User
  payment : Payment
  at_ : Time
  device : Option Config
  spend : Option CreditEntry
  reward : Option ReferralReward
  applied : List ReferralReward
  sent : List NewNotice
  deriving DecidableEq, Repr

namespace Activation

/-- The order as the activation leaves it. -/
def paid (a : Activation) : Payment := { a.payment with status := "paid", paidAt := some a.at_ }

/-- A device row, if one was issued. -/
def addDevice (a : Activation) (configs : Table Config) : Table Config :=
  match a.device with
  | none => configs
  | some c => configs.insert (fun n => { c with id := n }) c.num_withId

/-- The spend entry, if one was added. -/
def addSpend (a : Activation) (entries : Table CreditEntry) : Table CreditEntry :=
  match a.spend with
  | none => entries
  | some e => entries.insert (fun n => { e with id := n }) e.num_withId

/-- The reward, in its savepoint: the unique `source_payment_id` makes a second
one fail alone. -/
def addReward (a : Activation) (rewards : Table ReferralReward) : Table ReferralReward :=
  match a.reward with
  | none => rewards
  | some r =>
      if ∃ x ∈ rewards.rows, x.sourcePaymentId = r.sourcePaymentId then rewards
      else rewards.insert (fun n => { r with id := n }) fun _ => rfl

/-- The rows an activation adds. -/
def addRows (a : Activation) (db : Db) : Db :=
  { db with
    configs := a.addDevice db.configs
    creditEntries := a.addSpend db.creditEntries
    referralRewards := a.addReward db.referralRewards }

/-- The commit of an activation. -/
def write (a : Activation) (db : Db) : Db :=
  writeNotices a.sent
    ((a.applied.map ReferralReward.id).foldl (Db.applyReward a.at_)
      (((a.addRows db).saveUser a.old a.new).savePayment a.payment a.paid))

/-- The commit, table by table. -/
lemma write_eq (a : Activation) (db : Db) :
    a.write db = { db with
      users := saveAccount db.users a.old a.new
      payments := saveOrder db.payments a.payment a.paid
      configs := a.addDevice db.configs
      creditEntries := a.addSpend db.creditEntries
      referralRewards := (a.applied.map ReferralReward.id).foldl (markApplied a.at_)
        (a.addReward db.referralRewards)
      notifications := a.sent.foldl (fun t n => post t n.userId n.kind n.dedupeKey)
        db.notifications } := by
  rw [write, writeNotices_eq, Db.foldl_applyReward]
  rfl

end Activation

/-- The extension: from whichever is later, now or the recorded end. -/
def extendedUntil (user : User) (t : Time) (n : ℤ) : Time :=
  max t (user.subscribedUntil.getD t) + days n

/-- The account after the purchase and before the rewards. -/
def activated (user : User) (payment : Payment) (info : PlanInfo) (device : Option Config)
    (t : Time) : User :=
  { user with
    peerIp := match device with
      | none => user.peerIp
      | some c => some c.peerIp
    isSubscribed := true
    plan := some payment.plan
    subscribedUntil := some (extendedUntil user t info.days) }

/-- The purchase ends a trial that is still running. -/
def closeTrial (user : User) (t : Time) : User :=
  if user.trialUntil.any (t < ·) then { user with trialUntil := some t } else user

/-- The trial peers are taken off after the commit, best effort: the ones the
node confirmed. -/
def removeTrials (cfg : Settings) : List Config → List ℕ → Portal (List ℕ)
  | [], off => pure off
  | c :: rest, off => do
      match ← removePeerAt cfg.bridgeIp c with
      | .ok => removeTrials cfg rest (off ++ [c.id])
      | .refused _ => removeTrials cfg rest off
      | .raised => removeTrials cfg rest off

/-- The tail of `activate_payment`, after the commit: the trial peers, and the
receipt. -/
def finishActivation (cfg : Settings) (a : Activation) (kind : NoticeKind)
    (trials : List Config) : Portal Bool := do
  let off ← removeTrials cfg trials []
  if !trials.isEmpty then commit fun db => off.foldl Db.deactivate db
  sendLater a.new.email kind (a.new.subscribedUntil.getD a.at_)
  pure true

/-- `activate_payment` after the clock reading `t`. -/
def completeActivation (cfg : Settings) (user : User) (payment : Payment) (info : PlanInfo)
    (trials : List Config) (device : Option Config) (t : Time) : Portal Bool := do
  let bought := activated user payment info device t
  let spend ← spendOnPayment payment
  let reward ← rewardForPayment payment t
  let (rewarded, applied, sent) ← applyRewardsFor bought t []
  let kind := if payment.provider = some "manual" then NoticeKind.granted else .paid
  let sent := sent ++ [⟨user.id, kind, none⟩]
  let a : Activation :=
    { old := user, new := closeTrial rewarded t, payment := payment, at_ := t, device := device,
      spend := spend, reward := reward, applied := applied, sent := sent }
  commit a.write
  finishActivation cfg a kind trials

/-- `activate_payment`: turn a confirmed payment into subscription time. A first
purchase gets one device, a renewal none. -/
def activatePayment (cfg : Settings) (user : User) (payment : Payment) : Portal Bool :=
  match planInfo (some payment.plan) with
  | none => pure false
  | some info => do
      let held ← select fun db => heldBy db.configs.rows user.id
      let trials := held.filter fun c => c.kind = .trial
      if (held.filter fun c => c.kind ≠ .trial).isEmpty then do
        match ← issueConfig cfg user "device-1" .paid cfg.defaultForNew with
        | none => pure false
        | some c => do
            let t ← now
            completeActivation cfg user payment info trials (some c) t
      else do
        let t ← now
        completeActivation cfg user payment info trials none t

/-- `active_configs`: the devices an account holds, newest first. -/
def activeConfigs (user : ℕ) : Portal (List Config) :=
  select fun db => (heldBy db.configs.rows user).reverse

end VpnPortal
