/-
The operations on accounts and devices, run one after another.

`Commit` lists what a commit of the portal can do to the accounts, the devices
and the rewards, with all that holds when it is made. Each operation alone is a
few clock readings and, at most, such commits (`Moves`), so an invariant of all
runs is checked once for each kind of commit.

* `Op`, `Op.run`: the operations;
* `Commit`, `Moved`, `Moves`: what a commit can do, and what a run of such commits does;
* `alone_activatePayment_off`, `alone_assignPeer`, `alone_startTrial`,
  `alone_addConfig`, `alone_deleteConfig`: each operation alone leaves the database as
  it was or makes the one commit it is for; an activation may then switch trial devices
  off;
* `moves_op`: every run of an operation moves by commits of these kinds only.
-/
import VpnPortal.Api.Account
import VpnPortal.Lifecycle.Sequential
import VpnPortal.Sweeps.Job

namespace VpnPortal

open Sessions Tables

/-- The operations on accounts and devices. An activation is given the order it
is called with. -/
inductive Op where
  | startTrial (username ip : String)
  | activate (payment : Payment)
  | assignPeer (req : AssignPeerRequest)
  | addConfig (username : String) (req : NewConfigRequest)
  | deleteConfig (username : String) (id : ℕ)
  | applyDueRewards
  | expireDueSubscriptions
  | expireDueTrials
  | hourlyJob

/-- `activate_payment` for the account of the order: the account that received
its plan. -/
def activateOrder (cfg : Settings) (payment : Payment) : Portal (Option ℕ) := do
  match ← select fun db => db.users.find payment.userId with
  | none => pure none
  | some user => do
      let ok ← activatePayment cfg user payment
      pure (if ok then some user.id else none)

/-- The program of an operation. It returns the account to which an activation
or the admin granted time. -/
def Op.run (cfg : Settings) : Op → Portal (Option ℕ)
  | .startTrial username ip => do
      let _ ← VpnPortal.startTrial cfg username ip
      pure none
  | .activate payment => activateOrder cfg payment
  | .assignPeer req => do
      let user ← VpnPortal.assignPeer req
      pure (some user.id)
  | .addConfig username req => do
      let _ ← VpnPortal.addConfig cfg username req
      pure none
  | .deleteConfig username id => do
      let _ ← VpnPortal.deleteConfig cfg username id
      pure none
  | .applyDueRewards => do
      let _ ← VpnPortal.applyDueRewards
      pure none
  | .expireDueSubscriptions => do
      let t ← now
      let _ ← VpnPortal.expireDueSubscriptions cfg t
      pure none
  | .expireDueTrials => do
      let t ← now
      let _ ← VpnPortal.expireDueTrials cfg t
      pure none
  | .hourlyJob => do
      VpnPortal.hourlyJob cfg
      pure none

/-! ### Commits -/

/-- What a commit at the time `t` can do. -/
inductive Commit (cfg : Settings) (t : Time) (db : Db) : Db → Prop where
  | activation {user : User} {payment : Payment} {a : Activation}
      (hu : db.users.find user.id = some user) (ha : a.Drawn db.books user payment)
      (hat : a.at_ = t) : Commit cfg t db (a.write db)
  | off {ids : List ℕ} {db' : Db} (h : SwitchesOff ids db db') : Commit cfg t db db'
  | assign {user : User} (hu : db.users.find user.id = some user) (req : AssignPeerRequest) :
      Commit cfg t db (db.saveUser user (assigned user req.peerIp req.days t))
  | rewards (sent : List NewNotice) :
      Commit cfg t db (writeNotices sent ((drawWork db.books t).foldl (RewardWork.write t) db))
  | subs {reply : Config → Reply} {stats : SweepStats} {db' : Db}
      (h : SubsEffect reply t db stats db') : Commit cfg t db db'
  | trials {reply : Config → Reply} {stats : TrialStats} {db' : Db}
      (h : TrialsEffect reply t db stats db') : Commit cfg t db db'
  | notices {db' : Db} (h : db' = { db with notifications := db'.notifications }) :
      Commit cfg t db db'
  | trial {user : User} {device : Config} {norm : Option String} {ip : String} {began : Time}
      (hu : db.users.find user.id = some user)
      (hnew : user.trialUntil = none ∧ user.subscribedUntil = none)
      (hd : device.userId = user.id ∧ device.kind = .trial ∧ device.isActive = true) :
      Commit cfg t db (writeTrial user (trialEnd cfg t) norm ip began device db)
  | add {user : User} {device : Config} (hu : db.users.find user.id = some user)
      (hlive : hasActiveSubscription user t = true)
      (hd : device.userId = user.id ∧ device.kind = .paid ∧ device.isActive = true) :
      Commit cfg t db
        { db with configs := db.configs.insert (fun n => { device with id := n }) device.num_withId }
  | drop {user : User} {device : Config} (hu : db.users.find user.id = some user)
      (others : List Config) :
      Commit cfg t db ((db.deactivate device.id).saveUser user (afterRemoval user device others))

/-- The clock has run on and at most one commit was made, at the time it shows. -/
def Moved (cfg : Settings) (w w' : World) : Prop :=
  w.clock ≤ w'.clock ∧ (w'.db = w.db ∨ Commit cfg w'.clock w.db w'.db)

/-- Several such moves. -/
abbrev Moves (cfg : Settings) : World → World → Prop := Relation.ReflTransGen (Moved cfg)

lemma Moved.still {cfg : Settings} {w w' : World} (hclock : w.clock ≤ w'.clock)
    (hdb : w'.db = w.db) : Moved cfg w w' := ⟨hclock, Or.inl hdb⟩

/-- The clock has run on and at most one commit of the kind `E` was made. -/
def MovedBy (E : Time → Db → Db → Prop) (w w' : World) : Prop :=
  w.clock ≤ w'.clock ∧ (w'.db = w.db ∨ E w'.clock w.db w'.db)

/-- A move that begins later on the same data. -/
lemma MovedBy.of_later {E : Time → Db → Db → Prop} {w v w' : World} (h : MovedBy E v w')
    (hdb : v.db = w.db) (hclock : w.clock ≤ v.clock) : MovedBy E w w' := by
  refine ⟨hclock.trans h.1, ?_⟩
  rw [← hdb]
  exact h.2

lemma MovedBy.still {E : Time → Db → Db → Prop} {w w' : World} (hclock : w.clock ≤ w'.clock)
    (hdb : w'.db = w.db) : MovedBy E w w' := ⟨hclock, Or.inl hdb⟩

lemma MovedBy.moved {E : Time → Db → Db → Prop} {cfg : Settings} {w w' : World} (h : MovedBy E w w')
    (hE : ∀ t db db', E t db db' → Commit cfg t db db') : Moved cfg w w' :=
  ⟨h.1, h.2.imp id (hE _ _ _)⟩

section

variable {J : World → Input → Prop} {w : World} {cfg : Settings}

/-! ### Parts -/

/-- The world at two moments between which only the nodes and letters moved. -/
def SameData (w w' : World) : Prop := w'.db = w.db ∧ w'.clock = w.clock

lemma alone_scalarOneOrNone {α : Type} (rows : List α) :
    Proc.Alone J (fun _ _ => True) (fun r w' => w' = w ∧ ∀ a, r = .ok (some a) → a ∈ rows)
      (scalarOneOrNone rows) w := by
  unfold scalarOneOrNone
  split
  · exact ⟨rfl, fun a h => by cases h⟩
  · refine ⟨rfl, fun a h => ?_⟩
    cases h
    simp
  · exact ⟨rfl, fun a h => by cases h⟩

lemma alone_currentUser (username : String) :
    Proc.Alone J (fun _ _ => True)
      (fun r w' => w' = w ∧ ∀ u, r = .ok u → w.db.users.find u.id = some u)
      (currentUser username) w := by
  refine Proc.Alone.look trivial ((alone_scalarOneOrNone _).bind ?_ ?_)
  · rintro o w' ⟨rfl, ho⟩
    cases o with
    | none => exact ⟨rfl, fun u h => by cases h⟩
    | some user =>
        refine ⟨rfl, fun u h => ?_⟩
        obtain rfl := Except.ok.inj h
        exact Table.find_of_mem (List.mem_filter.mp (ho user rfl)).1
  · rintro e w' ⟨rfl, -⟩
    exact ⟨rfl, fun u h => by cases h⟩

lemma SameData.of_star {w w' : World}
    (h : Relation.ReflTransGen (fun s t : World => t.db = s.db ∧ t.clock = s.clock) w w') :
    SameData w w' := by
  induction h with
  | refl => exact ⟨rfl, rfl⟩
  | tail _ hstep ih => exact ⟨hstep.1.trans ih.1, hstep.2.trans ih.2⟩

lemma alone_issueConfig (user : User) (name : String) (kind : Kind) (location : String) :
    Proc.Alone J (fun _ _ => True)
      (fun r w' => SameData w w' ∧ ∀ c, r = .ok (some c) →
        c.userId = user.id ∧ c.kind = kind ∧ c.isActive = true)
      (issueConfig cfg user name kind location) w := by
  refine ((within_issueConfig cfg user name kind location).alone w).mono (fun _ _ _ => trivial) ?_
  rintro r w' ⟨hstar, hr⟩
  exact ⟨SameData.of_star hstar, fun c hc => (hr c hc).1⟩

/-- A removal leaves the database and the clock alone. -/
lemma alone_removePeerFor (c : Config) :
    Proc.Alone J (fun _ _ => True) (fun _ w' => SameData w w') (removePeerFor cfg c) w := by
  refine Proc.Alone.change trivial ?_
  split
  · exact ⟨rfl, rfl⟩
  · refine Proc.Alone.exchange (fun _ _ => trivial) fun i _ => ?_
    dsimp only
    split <;> exact ⟨rfl, rfl⟩

/-! ### The operations alone -/

/-- The devices of an account that count against its plan. -/
def paidDevices (db : Db) (n : ℕ) : List Config :=
  (heldBy db.configs.rows n).filter fun c => c.kind ≠ .trial

/-- An activation alone: without success the database is as it was; with success
one commit at the time the clock shows, and of the trial devices at most `ids`
switched off. A device is issued to an account that holds none. -/
lemma alone_activatePayment_off (user : User) (payment : Payment) {ids : List ℕ}
    (htrials : ConfirmsOnly J cfg
      ((heldBy w.db.configs.rows user.id).filter fun c => c.kind = .trial) ids) :
    Proc.Alone J (fun _ _ => True)
      (fun r w' => w.clock ≤ w'.clock ∧ ((r ≠ .ok true ∧ w'.db = w.db)
        ∨ (r = .ok true ∧ ∃ a : Activation, a.Drawn w.db.books user payment
          ∧ (a.device ≠ none ↔ paidDevices w.db user.id = [])
          ∧ a.at_ = w'.clock ∧ SwitchesOff ids (a.write w.db) w'.db)))
      (activatePayment cfg user payment) w := by
  have hnow : ∀ (v : World) (info : PlanInfo) (device : Option Config),
      SameData w v → planInfo (some payment.plan) = some info →
      (∀ c, device = some c → c.FirstFor user) → (device ≠ none ↔ paidDevices w.db user.id = []) →
      Proc.Alone J (fun _ _ => True)
        (fun r w' => w.clock ≤ w'.clock ∧ ((r ≠ .ok true ∧ w'.db = w.db)
          ∨ (r = .ok true ∧ ∃ a : Activation, a.Drawn w.db.books user payment
            ∧ (a.device ≠ none ↔ paidDevices w.db user.id = [])
            ∧ a.at_ = w'.clock ∧ SwitchesOff ids (a.write w.db) w'.db)))
        (now >>= fun t => completeActivation cfg user payment info
          ((heldBy w.db.configs.rows user.id).filter fun c => c.kind = .trial) device t) v := by
    intro v info device hv hinfo hdevice hfirst
    refine Proc.Alone.exchange (fun _ _ => trivial) fun i _ => ?_
    have honce := once_completeActivation (J := J) (π := fun s => (s.db, s.clock))
      (d := (v.db, max v.clock i.now)) (b := w.db.books)
      (fun s hs => by rw [(Prod.mk.inj hs).1, hv.1]) cfg hinfo htrials hdevice (max v.clock i.now)
    refine Proc.Alone.mono (honce.alone rfl) (fun _ _ _ => trivial) ?_
    rintro r w' (⟨-, hN⟩ | ⟨s, s', hs, ⟨hclock, a, ha, hat, hdev, hdb⟩, hoff, hr⟩)
    · exact hN.elim
    obtain ⟨hsdb, hsclock⟩ := Prod.mk.inj hs
    obtain ⟨hclock', hoff'⟩ := OffStep.of_star hoff
    have htime : w'.clock = max v.clock i.now := hclock'.trans (hclock.trans hsclock)
    rw [hsdb, hv.1] at ha hdb
    rw [hdb] at hoff'
    rw [← hdev] at hfirst
    refine ⟨?_, Or.inr ⟨hr, a, ha, hfirst, hat.trans htime.symm, hoff'⟩⟩
    rw [htime, hv.2]
    exact le_max_left _ _
  have hfail : ∀ (v : World) (r : Except Exn Bool), SameData w v → r ≠ .ok true →
      w.clock ≤ v.clock ∧ ((r ≠ .ok true ∧ v.db = w.db)
        ∨ (r = .ok true ∧ ∃ a : Activation, a.Drawn w.db.books user payment
          ∧ (a.device ≠ none ↔ paidDevices w.db user.id = [])
          ∧ a.at_ = v.clock ∧ SwitchesOff ids (a.write w.db) v.db)) :=
    fun v r hv hr => ⟨hv.2.ge, Or.inl ⟨hr, hv.1⟩⟩
  unfold activatePayment
  split
  · exact hfail w _ ⟨rfl, rfl⟩ (by simp)
  · rename_i info hinfo
    refine Proc.Alone.look trivial ?_
    dsimp only
    split
    · rename_i hnone
      have hnone' : paidDevices w.db user.id = [] := List.isEmpty_iff.mp hnone
      refine (alone_issueConfig user _ _ _).bind ?_ ?_
      · rintro o v ⟨hv, ho⟩
        cases o with
        | none => exact hfail v _ hv (by simp)
        | some c =>
            refine hnow v info (some c) hv hinfo (fun c' hc' => ?_) (by simp [hnone'])
            obtain rfl := Option.some.inj hc'
            exact ho c rfl
      · rintro e v ⟨hv, -⟩
        exact hfail v _ hv (by simp)
    · rename_i hheld
      have hheld' : paidDevices w.db user.id ≠ [] := fun h => hheld (List.isEmpty_iff.mpr h)
      exact hnow w info none ⟨rfl, rfl⟩ hinfo (fun c hc => (by cases hc)) (by simp [hheld'])

/-- Whichever removals the node confirms. -/
lemma alone_activatePayment_at (user : User) (payment : Payment) :
    Proc.Alone J (fun _ _ => True)
      (fun r w' => w.clock ≤ w'.clock ∧ ((r ≠ .ok true ∧ w'.db = w.db)
        ∨ (r = .ok true ∧ ∃ (a : Activation) (ids : List ℕ), a.Drawn w.db.books user payment
          ∧ (a.device ≠ none → paidDevices w.db user.id = [])
          ∧ a.at_ = w'.clock ∧ SwitchesOff ids (a.write w.db) w'.db)))
      (activatePayment cfg user payment) w := by
  refine (alone_activatePayment_off user payment (confirmsOnly_all cfg _)).mono (fun _ _ h => h) ?_
  rintro r w' ⟨hclock, hfail | ⟨hr, a, ha, hfirst, hat, hoff⟩⟩
  · exact ⟨hclock, Or.inl hfail⟩
  · exact ⟨hclock, Or.inr ⟨hr, a, _, ha, hfirst.mp, hat, hoff⟩⟩

lemma alone_activateOrder (payment : Payment) :
    Proc.Alone J (fun _ _ => True)
      (fun r w' => w.clock ≤ w'.clock ∧ (((∀ n, r ≠ .ok (some n)) ∧ w'.db = w.db)
        ∨ (r = .ok (some payment.userId) ∧ ∃ (user : User) (a : Activation) (ids : List ℕ),
          user.id = payment.userId ∧ w.db.users.find user.id = some user
          ∧ a.Drawn w.db.books user payment
          ∧ (a.device ≠ none → paidDevices w.db user.id = [])
          ∧ a.at_ = w'.clock ∧ SwitchesOff ids (a.write w.db) w'.db)))
      (activateOrder cfg payment) w := by
  refine Proc.Alone.look trivial ?_
  dsimp only
  cases hu : w.db.users.find payment.userId with
  | none => exact ⟨le_rfl, Or.inl ⟨fun n h => (by cases h), rfl⟩⟩
  | some user =>
      have hid : user.id = payment.userId := (Table.mem_of_find hu).2
      refine (alone_activatePayment_at user payment).bind ?_ ?_
      · rintro ok w' ⟨hclock, ⟨hok, hdb⟩ | ⟨hok, a, ids, ha, hfirst, hat, hoff⟩⟩
        · have hfalse : ok = false := by
            cases ok with
            | true => exact absurd rfl hok
            | false => rfl
          subst hfalse
          exact ⟨hclock, Or.inl ⟨fun n h => (by cases h), hdb⟩⟩
        · obtain rfl := Except.ok.inj hok
          refine ⟨hclock, Or.inr ⟨by rw [← hid]; rfl, user, a, ids, hid, ?_, ha, hfirst, hat, hoff⟩⟩
          rw [hid]
          exact hu
      · rintro e w' ⟨hclock, ⟨-, hdb⟩ | ⟨h, -⟩⟩
        · exact ⟨hclock, Or.inl ⟨fun n h => (by cases h), hdb⟩⟩
        · cases h

lemma alone_assignPeer (req : AssignPeerRequest) :
    Proc.Alone J (fun _ _ => True)
      (fun r w' => w.clock ≤ w'.clock ∧ (((∀ u, r ≠ .ok u) ∧ w'.db = w.db)
        ∨ ∃ user, w.db.users.find user.id = some user ∧ user.username = req.username
          ∧ r = .ok (assigned user req.peerIp req.days w'.clock)
          ∧ w'.db = w.db.saveUser user (assigned user req.peerIp req.days w'.clock)))
      (assignPeer req) w := by
  refine Proc.Alone.look trivial ((alone_scalarOneOrNone _).bind ?_ ?_)
  · rintro o w' ⟨rfl, ho⟩
    cases o with
    | none => exact ⟨le_rfl, Or.inl ⟨fun u h => (by cases h), rfl⟩⟩
    | some user =>
        refine Proc.Alone.exchange (fun _ _ => trivial) fun i _ => ?_
        obtain ⟨hrow, hname⟩ := List.mem_filter.mp (ho user rfl)
        refine Proc.Alone.change trivial ⟨le_max_left _ _, Or.inr ⟨user, ?_, ?_, rfl, rfl⟩⟩
        · exact Table.find_of_mem hrow
        · exact of_decide_eq_true hname
  · rintro e w' ⟨rfl, -⟩
    exact ⟨le_rfl, Or.inl ⟨fun u h => (by cases h), rfl⟩⟩

/-- From a later world on the same data. -/
lemma alone_later {α : Type} {E : Time → Db → Db → Prop} {p : Portal α} {v : World}
    (hdb : v.db = w.db) (hclock : w.clock ≤ v.clock)
    (h : Proc.Alone J (fun _ _ => True) (fun _ w' => MovedBy E v w') p v) :
    Proc.Alone J (fun _ _ => True) (fun _ w' => MovedBy E w w') p v :=
  h.mono (fun _ _ h => h) fun _ _ h => h.of_later hdb hclock

/-- The commit of `start_trial`: a trial device, and the end of the trial. -/
def StartsTrial (cfg : Settings) (t : Time) (db db' : Db) : Prop :=
  ∃ (user : User) (device : Config) (norm : Option String) (ip : String) (began : Time),
    db.users.find user.id = some user ∧ (user.trialUntil = none ∧ user.subscribedUntil = none)
    ∧ (device.userId = user.id ∧ device.kind = .trial ∧ device.isActive = true)
    ∧ db' = writeTrial user (trialEnd cfg t) norm ip began device db

lemma StartsTrial.commit {t : Time} {db db' : Db} (h : StartsTrial cfg t db db') :
    Commit cfg t db db' := by
  obtain ⟨user, device, norm, ip, began, hu, hnew, hd, rfl⟩ := h
  exact Commit.trial hu hnew hd

lemma alone_issueTrialDevice (user : User) (row : TrialGrant) :
    Proc.Alone J (fun _ _ => True) (fun r w' => w'.db = w.db ∧ w'.clock = w.clock
        ∧ ∀ device, r = .ok (some device) →
          device.userId = user.id ∧ device.kind = .trial ∧ device.isActive = true)
      (issueTrialDevice cfg user row) w := by
  refine (alone_issueConfig user _ _ _).tryCatch ?_ ?_
  · rintro o v ⟨⟨hdb, hclock⟩, ho⟩
    exact ⟨hdb, hclock, ho⟩
  · rintro e v ⟨⟨hdb, hclock⟩, -⟩
    exact Proc.Alone.change trivial ⟨hdb, hclock, nofun⟩

lemma alone_issueTrial {user : User} (hu : w.db.users.find user.id = some user)
    (hnew : user.trialUntil = none ∧ user.subscribedUntil = none) (norm : Option String)
    (ip : String) (began : Time) :
    Proc.Alone J (fun _ _ => True) (fun _ w' => MovedBy (StartsTrial cfg) w w')
      (issueTrial cfg user norm ip began) w := by
  refine Proc.Alone.exchange (fun _ _ => trivial) fun i _ => ?_
  refine Proc.Alone.exchange (fun _ _ => trivial) fun j _ => ?_
  have hnow : w.clock ≤ max w.clock i.now := le_max_left _ _
  dsimp only
  split_ifs
  · exact MovedBy.still hnow rfl
  · exact MovedBy.still hnow rfl
  · refine (alone_issueTrialDevice user _).bind ?_ ?_
    · rintro o v ⟨hdb, hclock, ho⟩
      have hlate : w.clock ≤ v.clock := by rw [hclock]; exact hnow
      cases o with
      | none => exact Proc.Alone.change trivial (MovedBy.still hlate hdb)
      | some device =>
          refine Proc.Alone.exchange (fun _ _ => trivial) fun _ _ => ⟨hlate, Or.inr ?_⟩
          dsimp only
          rw [hdb, hclock]
          exact ⟨user, device, norm, ip, began, hu, hnew, ho device rfl, rfl⟩
    · rintro e v ⟨hdb, hclock, -⟩
      exact MovedBy.still (by rw [hclock]; exact hnow) hdb

lemma alone_grantTrial {user : User} (hu : w.db.users.find user.id = some user)
    (hnew : user.trialUntil = none ∧ user.subscribedUntil = none) (ip : String) (began : Time) :
    Proc.Alone J (fun _ _ => True) (fun _ w' => MovedBy (StartsTrial cfg) w w')
      (grantTrial cfg user ip began) w := by
  have hstill : MovedBy (StartsTrial cfg) w w := MovedBy.still le_rfl rfl
  refine Proc.Alone.ask trivial fun i _ => ?_
  split
  · exact hstill
  · refine Proc.Alone.look trivial ?_
    dsimp only
    split
    · exact hstill
    · refine Proc.Alone.exchange (fun _ _ => trivial) fun i' _ => ?_
      refine Proc.Alone.look trivial ?_
      dsimp only
      split
      · exact MovedBy.still (le_max_left _ _) rfl
      · exact alone_later rfl (le_max_left _ _)
          (alone_issueTrial (w := { w with clock := max w.clock i'.now }) hu hnew _ ip began)

lemma alone_startTrial (username ip : String) :
    Proc.Alone J (fun _ _ => True) (fun _ w' => MovedBy (StartsTrial cfg) w w') (startTrial cfg username ip) w := by
  refine Proc.Alone.exchange (fun _ _ => trivial) fun i _ => ?_
  refine alone_later rfl (le_max_left _ _) ?_
  generalize { w with clock := max w.clock i.now } = v
  refine (alone_currentUser username).bind ?_ ?_
  · rintro user v' ⟨rfl, hu⟩
    have hstill : MovedBy (StartsTrial cfg) v' v' := MovedBy.still le_rfl rfl
    dsimp only
    split
    · exact hstill
    split
    · exact hstill
    refine Proc.Alone.exchange (fun _ _ => trivial) fun i' _ => ?_
    refine alone_later rfl (le_max_left _ _) ?_
    dsimp only
    split
    · exact MovedBy.still le_rfl rfl
    split
    · exact MovedBy.still le_rfl rfl
    rename_i hused
    split
    · exact MovedBy.still le_rfl rfl
    have hnew : user.trialUntil = none ∧ user.subscribedUntil = none := by
      simpa [Option.isSome_iff_ne_none] using hused
    exact alone_grantTrial (w := { v' with clock := max v'.clock i'.now }) (hu user rfl) hnew ip _
  · rintro e v' ⟨rfl, -⟩
    exact MovedBy.still le_rfl rfl

/-- How many devices of an account count against its plan in a location. -/
def deviceCount (db : Db) (n : ℕ) (location : String) : ℕ :=
  ((paidDevices db n).filter fun c => c.locationKey = location).length

/-- The devices that `add_config` counts. -/
lemma length_held_eq (db : Db) (n : ℕ) (location : String) :
    ((heldBy db.configs.rows n).reverse.filter
      fun c => c.kind ≠ .trial ∧ c.locationKey = location).length = deviceCount db n location := by
  rw [deviceCount, paidDevices, List.filter_filter, List.filter_reverse, List.length_reverse]
  congr 2
  funext c
  simp [Bool.and_comm]

/-- The commit of `add_config`: a device in a location where the plan has room. -/
def AddsDevice (t : Time) (db db' : Db) : Prop :=
  ∃ (user : User) (device : Config), db.users.find user.id = some user
    ∧ hasActiveSubscription user t = true
    ∧ (device.userId = user.id ∧ device.kind = .paid ∧ device.isActive = true)
    ∧ deviceCount db user.id device.locationKey < configLimit user.plan
    ∧ db' = { db with configs := db.configs.insert (fun n => { device with id := n }) device.num_withId }

lemma AddsDevice.commit {t : Time} {db db' : Db} (h : AddsDevice t db db') :
    Commit cfg t db db' := by
  obtain ⟨user, device, hu, hlive, hd, -, rfl⟩ := h
  exact Commit.add hu hlive hd

/-- The device goes to the location that was asked for. -/
lemma alone_issueConfig_location (user : User) (name : String) (location : String) :
    Proc.Alone J (fun _ _ => True)
      (fun r _ => ∀ c, r = .ok (some c) → ∃ loc, cfg.getLocation location = some loc
        ∧ c.location = loc.key)
      (issueConfig cfg user name .paid location) w := by
  refine ((within_issueConfig cfg user name .paid location).alone w).mono (fun _ _ _ => trivial) ?_
  rintro r w' ⟨-, hr⟩ c hc
  exact (hr c hc).2

/-- A location is found under the key that was asked for. -/
lemma key_of_getLocation {location : String} {loc : Location} (hne : location ≠ "")
    (h : cfg.getLocation location = some loc) : loc.key = location := by
  have hkey := List.find?_some h
  rw [if_neg hne] at hkey
  exact of_decide_eq_true hkey

lemma alone_addDevice {user : User} (hu : w.db.users.find user.id = some user)
    (hlive : hasActiveSubscription user w.clock = true) (name : String) {location : String}
    (hne : location ≠ "") :
    Proc.Alone J (fun _ _ => True) (fun _ w' => MovedBy AddsDevice w w') (addDevice cfg user name location) w := by
  refine Proc.Alone.look trivial ?_
  dsimp only
  split
  · exact ⟨le_rfl, Or.inl rfl⟩
  · rename_i hroom
    refine ((alone_issueConfig user _ _ _).and (alone_issueConfig_location user _ _)).bind ?_ ?_
    · rintro o v ⟨⟨⟨hdb, hclock⟩, ho⟩, hplace⟩
      cases o with
      | none => exact ⟨hclock.ge, Or.inl hdb⟩
      | some device =>
          refine Proc.Alone.exchange (fun _ _ => trivial) fun i _ => ⟨hclock.ge, Or.inr ?_⟩
          dsimp only
          rw [hdb, hclock]
          refine ⟨user, device, hu, hlive, ho device rfl, ?_, rfl⟩
          obtain ⟨loc, hloc, hlocation⟩ := hplace device rfl
          have hkey : device.locationKey = location := by
            rw [Config.locationKey, hlocation, key_of_getLocation hne hloc, if_neg hne]
          rw [hkey, ← length_held_eq]
          exact not_le.mp hroom
    · rintro e v ⟨⟨⟨hdb, hclock⟩, -⟩, -⟩
      exact ⟨hclock.ge, Or.inl hdb⟩

/-- A new device always gets a named location. -/
lemma defaultForNew_ne (cfg : Settings) : cfg.defaultForNew ≠ "" := by
  have hkeys : ∀ k ∈ cfg.locationKeys, k ≠ "" := by
    intro k hk
    rw [Settings.locationKeys, Settings.allLocations, List.map_append, List.mem_append] at hk
    rcases hk with hk | hk
    · cases hnl : cfg.nlEntryIp with
      | none => simp [Settings.netherlands, hnl] at hk
      | some host =>
          have hk' : k = "nl" := by simpa [Settings.netherlands, hnl] using hk
          rw [hk']
          decide
    · have hk' : k = "de" := by simpa [Settings.germany] using hk
      rw [hk']
      decide
  unfold Settings.defaultForNew
  split
  · decide
  · unfold Settings.recommended
    split
    · rename_i k hk
      exact hkeys k (List.mem_of_find?_eq_some hk)
    · cases hlist : cfg.locationKeys with
      | nil => decide
      | cons k rest =>
          refine hkeys k ?_
          rw [hlist]
          exact List.mem_cons_self

lemma alone_addConfig (username : String) (req : NewConfigRequest) :
    Proc.Alone J (fun _ _ => True) (fun _ w' => MovedBy AddsDevice w w') (addConfig cfg username req) w := by
  refine (alone_currentUser username).bind ?_ ?_
  · rintro user v ⟨rfl, hu⟩
    refine Proc.Alone.exchange (fun _ _ => trivial) fun i _ => ?_
    have hstill : MovedBy AddsDevice v { v with clock := max v.clock i.now } := ⟨le_max_left _ _, Or.inl rfl⟩
    dsimp only
    split
    · exact hstill
    rename_i hlive
    split
    · exact hstill
    split
    · exact hstill
    have hne : (req.location.filter (· ≠ "")).getD cfg.defaultForNew ≠ "" := by
      cases hfilter : req.location.filter (· ≠ "") with
      | none => exact defaultForNew_ne cfg
      | some location =>
          have := (Option.filter_eq_some_iff.mp hfilter).2
          simpa using this
    refine alone_later rfl (le_max_left _ _)
      (alone_addDevice (w := { v with clock := max v.clock i.now }) (hu user rfl) ?_ _ hne)
    simpa using hlive
  · rintro e v ⟨rfl, -⟩
    exact ⟨le_rfl, Or.inl rfl⟩

/-- The commit of `delete_config`: a device is off, and the account's address
moves on. -/
def DropsDevice (_ : Time) (db db' : Db) : Prop :=
  ∃ (user : User) (device : Config) (others : List Config), db.users.find user.id = some user
    ∧ db' = (db.deactivate device.id).saveUser user (afterRemoval user device others)

lemma DropsDevice.commit {t : Time} {db db' : Db} (h : DropsDevice t db db') :
    Commit cfg t db db' := by
  obtain ⟨user, device, others, hu, rfl⟩ := h
  exact Commit.drop hu others

/-- The same commit with what `delete_config` has read: the device is an active
one of the account, and the others are all that are left, newest first. -/
def DropsOwnDevice (_ : Time) (db db' : Db) : Prop :=
  ∃ user device, db.users.find user.id = some user ∧ device ∈ heldBy db.configs.rows user.id
    ∧ db' = (db.deactivate device.id).saveUser user (afterRemoval user device
      ((heldBy db.configs.rows user.id).reverse.filter fun c => c.id ≠ device.id))

lemma alone_deleteConfig_own (username : String) (id : ℕ) :
    Proc.Alone J (fun _ _ => True) (fun _ w' => MovedBy DropsOwnDevice w w')
      (deleteConfig cfg username id) w := by
  refine (alone_currentUser username).bind ?_ ?_
  · rintro user v ⟨rfl, hu⟩
    refine Proc.Alone.look trivial ?_
    dsimp only
    split
    · exact MovedBy.still le_rfl rfl
    · rename_i device hdevice
      split
      · exact MovedBy.still le_rfl rfl
      · refine (alone_removePeerFor _).bind ?_ ?_
        · rintro ok v' ⟨hdb, hclock⟩
          cases ok with
          | false => exact MovedBy.still hclock.ge hdb
          | true =>
              refine Proc.Alone.look trivial (Proc.Alone.change trivial ⟨hclock.ge, Or.inr ?_⟩)
              obtain ⟨hfind, hown⟩ := Option.filter_eq_some_iff.mp hdevice
              have hheld : device ∈ heldBy v.db.configs.rows user.id :=
                List.mem_filter.mpr ⟨(Table.mem_of_find hfind).1, hown⟩
              dsimp only
              rw [hdb]
              exact ⟨user, device, hu user rfl, hheld, rfl⟩
        · rintro e v' ⟨hdb, hclock⟩
          exact MovedBy.still hclock.ge hdb
  · rintro e v ⟨rfl, -⟩
    exact MovedBy.still le_rfl rfl

lemma alone_deleteConfig (username : String) (id : ℕ) :
    Proc.Alone J (fun _ _ => True) (fun _ w' => MovedBy DropsDevice w w') (deleteConfig cfg username id) w := by
  refine (alone_deleteConfig_own username id).mono (fun _ _ h => h) ?_
  rintro r w' ⟨hclock, hdb | ⟨user, device, hu, -, hdb⟩⟩
  · exact ⟨hclock, Or.inl hdb⟩
  · exact ⟨hclock, Or.inr ⟨user, device, _, hu, hdb⟩⟩

/-! ### The jobs alone -/

/-- A node that may answer anything. -/
lemma nodes_any (db : Db) (base : ℕ → ℕ) :
    Nodes J cfg db base (fun _ => True) fun _ _ => True where
  outbox _ _ _ := trivial
  missing _ _ _ _ _ _ _ _ := ⟨trivial, trivial⟩
  call _ _ _ _ _ _ _ _ _ _ _ := ⟨trivial, trivial⟩

/-- The commit of the reward job, at the time the clock shows. -/
lemma alone_applyDueRewards_at :
    Proc.Alone J (fun _ _ => True)
      (fun r w' => (∃ i, J w i ∧ w'.clock = max w.clock i.now) ∧ (∃ stats, r = .ok stats)
        ∧ ∃ sent, w'.db = writeNotices sent
          ((drawWork w.db.books w'.clock).foldl (RewardWork.write w'.clock) w.db))
      applyDueRewards w := by
  refine Proc.Alone.exchange (fun _ _ => trivial) fun i hi => ?_
  have honce := once_applyDueRewardsAt (J := J) (π := fun s => (s.db, s.clock))
    (d := (w.db, max w.clock i.now)) (b := w.db.books) (R := fun s t => SameData s t)
    (fun s hs => by rw [(Prod.mk.inj hs).1]) (max w.clock i.now)
  refine Proc.Alone.mono (honce.alone rfl) (fun _ _ _ => trivial) ?_
  rintro r w' (⟨-, hN⟩ | ⟨s, s', hs, ⟨hclock, sent, hdb⟩, hstar, hr⟩)
  · exact hN.elim
  have hsame : SameData s' w' := by
    clear hr
    induction hstar with
    | refl => exact ⟨rfl, rfl⟩
    | tail _ h ih => exact ⟨h.1.trans ih.1, h.2.trans ih.2⟩
  obtain ⟨hsdb, hsclock⟩ := Prod.mk.inj hs
  have htime : w'.clock = max w.clock i.now := hsame.2.trans (hclock.trans hsclock)
  refine ⟨⟨i, hi, htime⟩, hr, sent, ?_⟩
  rw [hsame.1, hdb, hsdb, htime]

lemma alone_subs_at (t : Time) (ht : t = w.clock) :
    Proc.Alone J (fun _ _ => True)
      (fun _ w' => w'.clock = w.clock ∧ (w'.db = w.db
        ∨ ∃ reply stats, SubsEffect reply w'.clock w.db stats w'.db))
      (expireDueSubscriptions cfg t) w := by
  refine Proc.Alone.mono (alone_expireDueSubscriptions (nodes_any _ _) trivial t)
    (fun _ _ h => h) ?_
  rintro r w' ⟨hclock, -, ⟨-, -, hdb⟩ | ⟨-, reply, stats, -, -, hE⟩⟩
  · exact ⟨hclock, Or.inl hdb⟩
  · refine ⟨hclock, Or.inr ⟨reply, stats, ?_⟩⟩
    rw [hclock, ← ht]
    exact hE reply fun _ _ _ => rfl

lemma alone_trials_at (t : Time) (ht : t = w.clock) :
    Proc.Alone J (fun _ _ => True)
      (fun _ w' => w'.clock = w.clock ∧ (w'.db = w.db
        ∨ ∃ reply stats, TrialsEffect reply w'.clock w.db stats w'.db))
      (expireDueTrials cfg t) w := by
  refine Proc.Alone.mono (alone_expireDueTrials (nodes_any _ _) trivial t) (fun _ _ h => h) ?_
  rintro r w' ⟨hclock, -, ⟨-, -, hdb⟩ | ⟨-, reply, stats, -, -, hE⟩⟩
  · exact ⟨hclock, Or.inl hdb⟩
  · refine ⟨hclock, Or.inr ⟨reply, stats, ?_⟩⟩
    rw [hclock, ← ht]
    exact hE reply fun _ _ _ => rfl

/-- A clock reading and the sweep over the paid periods. -/
lemma alone_now_subs :
    Proc.Alone J (fun _ _ => True)
      (fun _ w' => w.clock ≤ w'.clock ∧ (w'.db = w.db
        ∨ ∃ reply stats, SubsEffect reply w'.clock w.db stats w'.db))
      (now >>= expireDueSubscriptions cfg) w := by
  refine Proc.Alone.exchange (fun _ _ => trivial) fun i _ => ?_
  refine Proc.Alone.mono (alone_subs_at (w := { w with clock := max w.clock i.now }) _ rfl)
    (fun _ _ h => h) ?_
  rintro r w' ⟨hclock, h⟩
  exact ⟨by rw [hclock]; exact le_max_left _ _, h⟩

/-- A clock reading and the sweep over the trials. -/
lemma alone_now_trials :
    Proc.Alone J (fun _ _ => True)
      (fun _ w' => w.clock ≤ w'.clock ∧ (w'.db = w.db
        ∨ ∃ reply stats, TrialsEffect reply w'.clock w.db stats w'.db))
      (now >>= expireDueTrials cfg) w := by
  refine Proc.Alone.exchange (fun _ _ => trivial) fun i _ => ?_
  refine Proc.Alone.mono (alone_trials_at (w := { w with clock := max w.clock i.now }) _ rfl)
    (fun _ _ h => h) ?_
  rintro r w' ⟨hclock, h⟩
  exact ⟨by rw [hclock]; exact le_max_left _ _, h⟩

/-! ### What the stages of the job keep to -/

/-- A relation that holds along every stage of the hourly job after the first. -/
structure Staged (R : World → World → Prop) : Prop where
  trans : ∀ {w₁ w₂ w₃ : World}, R w₁ w₂ → R w₂ w₃ → R w₁ w₃
  still : ∀ {w w' : World}, w.clock ≤ w'.clock → w'.db = w.db → R w w'
  subs : ∀ {w w' : World} {reply : Config → Reply} {stats : SweepStats}, w.clock ≤ w'.clock →
    SubsEffect reply w'.clock w.db stats w'.db → R w w'
  trials : ∀ {w w' : World} {reply : Config → Reply} {stats : TrialStats}, w.clock ≤ w'.clock →
    TrialsEffect reply w'.clock w.db stats w'.db → R w w'
  notices : ∀ {w w' : World}, NoticeStep w w' → R w w'

section Stages

variable {R : World → World → Prop}

lemma Staged.of_subs (hR : Staged R) {w w' : World} (h : w.clock ≤ w'.clock ∧ (w'.db = w.db
    ∨ ∃ reply stats, SubsEffect reply w'.clock w.db stats w'.db)) : R w w' := by
  obtain ⟨hclock, hdb | ⟨reply, stats, heffect⟩⟩ := h
  · exact hR.still hclock hdb
  · exact hR.subs hclock heffect

lemma Staged.of_trials (hR : Staged R) {w w' : World} (h : w.clock ≤ w'.clock ∧ (w'.db = w.db
    ∨ ∃ reply stats, TrialsEffect reply w'.clock w.db stats w'.db)) : R w w' := by
  obtain ⟨hclock, hdb | ⟨reply, stats, heffect⟩⟩ := h
  · exact hR.still hclock hdb
  · exact hR.trials hclock heffect

lemma Staged.of_notices (hR : Staged R) {w w' : World}
    (h : Relation.ReflTransGen NoticeStep w w') : R w w' := by
  induction h with
  | refl => exact hR.still le_rfl rfl
  | tail _ hstep ih => exact hR.trans ih (hR.notices hstep)

lemma alone_sweepStages_by (hR : Staged R) :
    Proc.Alone J (fun _ _ => True) (fun _ w' => R w w') (sweepStages cfg) w := by
  refine Proc.Alone.bind (p := now >>= expireDueSubscriptions cfg) alone_now_subs ?_
    fun _ _ h => hR.of_subs h
  intro _ w₁ h₁
  have hm₁ : R w w₁ := hR.of_subs h₁
  refine Proc.Alone.bind (p := now >>= expireDueTrials cfg) alone_now_trials ?_
    fun _ _ h => hR.trans hm₁ (hR.of_trials h)
  intro _ w₂ h₂
  have hm₂ : R w w₂ := hR.trans hm₁ (hR.of_trials h₂)
  have hremind : ∀ w₃, Relation.ReflTransGen NoticeStep w₂ w₃ → R w w₃ :=
    fun w₃ h => hR.trans hm₂ (hR.of_notices h)
  exact Proc.Alone.bind ((within_remindDue.alone w₂).mono (fun _ _ _ => trivial) fun _ _ h => h.1)
    (fun _ w₃ h => hremind w₃ h) fun _ w₃ h => hremind w₃ h

/-- The whole job, when its reward stage keeps to the relation too. -/
lemma alone_hourlyJob_by (hR : Staged R)
    (hrewards : ∀ (w w' : World) (sent : List NewNotice), w.clock ≤ w'.clock →
      w'.db = writeNotices sent
        ((drawWork w.db.books w'.clock).foldl (RewardWork.write w'.clock) w.db) → R w w') :
    Proc.Alone J (fun _ _ => True) (fun _ w' => R w w') (hourlyJob cfg) w := by
  have hfirst : ∀ w₁ : World, (∃ i, J w i ∧ w₁.clock = max w.clock i.now) →
      (∃ sent, w₁.db = writeNotices sent
        ((drawWork w.db.books w₁.clock).foldl (RewardWork.write w₁.clock) w.db)) → R w w₁ := by
    rintro w₁ ⟨i, -, hclock⟩ ⟨sent, hdb⟩
    exact hrewards w w₁ sent (by rw [hclock]; exact le_max_left _ _) hdb
  refine Proc.Alone.bind alone_applyDueRewards_at ?_ ?_
  · rintro _ w₁ ⟨hclock, -, hdb⟩
    exact Proc.Alone.mono (alone_sweepStages_by hR) (fun _ _ h => h)
      fun _ _ h => hR.trans (hfirst w₁ hclock hdb) h
  · rintro _ w₁ ⟨hclock, -, hdb⟩
    exact hfirst w₁ hclock hdb

end Stages

/-! ### Every operation moves by commits -/

lemma staged_moves : Staged (Moves cfg) where
  trans := Relation.ReflTransGen.trans
  still hclock hdb := .single (Moved.still hclock hdb)
  subs hclock heffect := .single ⟨hclock, Or.inr (Commit.subs heffect)⟩
  trials hclock heffect := .single ⟨hclock, Or.inr (Commit.trials heffect)⟩
  notices hstep := .single ⟨hstep.clock, Or.inr (Commit.notices hstep.db)⟩

lemma Moves.of_activation {w w' : World} {user : User} {payment : Payment} {a : Activation}
    {ids : List ℕ} (hclock : w.clock ≤ w'.clock) (hu : w.db.users.find user.id = some user)
    (ha : a.Drawn w.db.books user payment) (hat : a.at_ = w'.clock)
    (hoff : SwitchesOff ids (a.write w.db) w'.db) : Moves cfg w w' := by
  have hbuy : Moved cfg w { w' with db := a.write w.db } :=
    ⟨hclock, Or.inr (Commit.activation hu ha hat)⟩
  exact .tail (.single hbuy) ⟨le_rfl, Or.inr (Commit.off hoff)⟩

lemma alone_moves_hourlyJob :
    Proc.Alone J (fun _ _ => True) (fun _ w' => Moves cfg w w') (hourlyJob cfg) w := by
  refine alone_hourlyJob_by staged_moves fun w w' sent hclock hdb => .single ⟨hclock, Or.inr ?_⟩
  rw [hdb]
  exact Commit.rewards sent

/-- The program of an operation that ends with the value `none`. -/
lemma alone_forget {α : Type} {p : Portal α} {C : World → Prop}
    (h : Proc.Alone J (fun _ _ => True) (fun _ w' => C w') p w) :
    Proc.Alone J (fun _ _ => True) (fun _ w' => C w') (p >>= fun _ => pure (none : Option ℕ)) w :=
  h.bind (fun _ _ h => h) fun _ _ h => h

/-- **Every operation moves by commits.** -/
theorem moves_op (op : Op) {r : Except Exn (Option ℕ)} {w' : World}
    (h : Proc.Runs J (op.run cfg) w r w') : Moves cfg w w' := by
  suffices halone : Proc.Alone J (fun _ _ => True) (fun _ w' => Moves cfg w w') (op.run cfg) w from
    (halone.runs h).2
  have hsingle : ∀ w', Moved cfg w w' → Moves cfg w w' := fun w' h => .single h
  cases op with
  | startTrial username ip =>
      exact alone_forget ((alone_startTrial username ip).mono (fun _ _ h => h)
        fun _ w' h => hsingle w' (h.moved fun _ _ _ => StartsTrial.commit))
  | activate payment =>
      refine (alone_activateOrder payment).mono (fun _ _ h => h) ?_
      rintro r w' ⟨hclock, ⟨-, hdb⟩ | ⟨-, user, a, ids, -, hu, ha, -, hat, hoff⟩⟩
      · exact hsingle w' (Moved.still hclock hdb)
      · exact Moves.of_activation hclock hu ha hat hoff
  | assignPeer req =>
      have hmoved : ∀ (r : Except Exn User) (w' : World), (w.clock ≤ w'.clock ∧ (((∀ u, r ≠ .ok u) ∧ w'.db = w.db)
          ∨ ∃ user, w.db.users.find user.id = some user ∧ user.username = req.username
            ∧ r = .ok (assigned user req.peerIp req.days w'.clock)
            ∧ w'.db = w.db.saveUser user (assigned user req.peerIp req.days w'.clock))) →
          Moves cfg w w' := by
        rintro r w' ⟨hclock, ⟨-, hdb⟩ | ⟨user, hu, -, -, hdb⟩⟩
        · exact hsingle w' (Moved.still hclock hdb)
        · refine hsingle w' ⟨hclock, Or.inr ?_⟩
          rw [hdb]
          exact Commit.assign hu req
      exact (alone_assignPeer req).bind (fun u w' h => hmoved _ w' h) fun e w' h => hmoved _ w' h
  | addConfig username req =>
      exact alone_forget ((alone_addConfig username req).mono (fun _ _ h => h)
        fun _ w' h => hsingle w' (h.moved fun _ _ _ => AddsDevice.commit))
  | deleteConfig username id =>
      exact alone_forget ((alone_deleteConfig username id).mono (fun _ _ h => h)
        fun _ w' h => hsingle w' (h.moved fun _ _ _ => DropsDevice.commit))
  | applyDueRewards =>
      refine alone_forget (alone_applyDueRewards_at.mono (fun _ _ h => h) ?_)
      rintro r w' ⟨⟨i, -, hclock⟩, -, sent, hdb⟩
      refine hsingle w' ⟨by rw [hclock]; exact le_max_left _ _, Or.inr ?_⟩
      rw [hdb]
      exact Commit.rewards sent
  | expireDueSubscriptions =>
      exact alone_forget (p := now >>= VpnPortal.expireDueSubscriptions cfg)
        (alone_now_subs.mono (fun _ _ h => h) fun _ _ h => staged_moves.of_subs h)
  | expireDueTrials =>
      exact alone_forget (p := now >>= VpnPortal.expireDueTrials cfg)
        (alone_now_trials.mono (fun _ _ h => h) fun _ _ h => staged_moves.of_trials h)
  | hourlyJob => exact alone_forget alone_moves_hourlyJob

end

/-! ### A first purchase -/

/-- One registered account. -/
def oneAccount : World where
  db := { users := ⟨[{ id := 0, username := "ann" }], 1, by decide, by decide⟩ }

/-- An order of that account. -/
def monthOrder : Payment := { id := 0, userId := 0, plan := "basic-1m", amount := 350 }

/-- Keys are made and the node takes the peer. -/
def issuing : Input where
  keys := some ("K", "P")
  add := fun _ _ => (.ok, {})

/-- The account after its first purchase. -/
def afterPurchase : World := (Proc.play issuing ((Op.activate monthOrder).run {}) oneAccount).2

end VpnPortal
