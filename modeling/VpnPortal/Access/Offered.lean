/-
The free places an account is shown and the devices it is granted
(`list_configs` and `add_config` in `pwa/api/config.py`).

The list counts every device of a location, and `add_config` only those that are
not a trial's. They agree as long as no trial device takes the last place
(`slots_shown_iff`): the device of a trial that a purchase has ended stays on the
account until the node has confirmed that it is gone.

* `locationSlots`, `listConfigs`: what is shown;
* `PastChecks`, `pastChecks_iff`: no answer to a request is a refusal of the checks,
  which is so exactly if its location is configured, not paused and has room;
* `SlotsHonest`: what is shown free is what would be granted;
* `slots_shown_iff`: the two agree exactly if no trial device takes the last place, and
  `trial_hides_slot`: one that does.
-/
import VpnPortal.Access.Operations

namespace VpnPortal

open Sessions Tables

/-! ### What is shown -/

/-- A location in the answer of `list_configs`. -/
structure Slot where
  key : String
  limit : ℕ
  used : ℕ
  recommended : Bool
  paused : Bool := false
  deriving DecidableEq, Repr

/-- The devices that count as being in a location. -/
def usedIn (configs : List Config) (key : String) : ℕ :=
  (configs.filter fun c => c.locationKey = key).length

/-- `_location_slots`: each configured location with its own count. -/
def locationSlots (cfg : Settings) (configs : List Config) (limit : ℕ) : List Slot :=
  cfg.allLocations.map fun loc =>
    { key := loc.key, limit := limit, used := usedIn configs loc.key
      recommended := decide (loc.key = cfg.recommended) && decide (1 < cfg.locationKeys.length)
      paused := decide (loc.key ∈ cfg.paused) }

/-- `_describe` -/
structure DeviceInfo where
  id : ℕ
  name : String
  peerIp : String
  kind : Kind
  location : String
  deriving DecidableEq, Repr

def describeDevice (c : Config) : DeviceInfo := ⟨c.id, c.name, c.peerIp, c.kind, c.locationKey⟩

/-- The answer of `list_configs`. -/
structure DeviceList where
  plan : Option String
  limit : ℕ
  used : ℕ
  locations : List Slot
  configs : List DeviceInfo
  deriving DecidableEq, Repr

/-- The answer for an account with these devices; during a trial alone, the trial
device is the whole allowance. -/
def deviceList (cfg : Settings) (user : User) (configs : List Config) (paid : Bool) : DeviceList :=
  let limit := if paid then configLimit user.plan else 1
  { plan := user.plan
    limit := limit
    used := usedIn configs Settings.defaultLocation
    locations := if paid then locationSlots cfg configs limit
      else [⟨Settings.defaultLocation, 1, configs.length, false, false⟩]
    configs := configs.map describeDevice }

/-- `list_configs` -/
def listConfigs (cfg : Settings) (username : String) : Portal DeviceList := do
  let user ← currentUser username
  let t ← now
  if !hasAccess user t then .raise (.http 402 (.text "No active subscription"))
  else do
    let configs ← activeConfigs user.id
    let t' ← now
    pure (deviceList cfg user configs (hasActiveSubscription user t'))

/-! ### One moment -/

/-- Both requests find the clock where it is. -/
def sameMoment (w : World) (i : Input) : Prop := i.now ≤ w.clock

lemma sameMoment_exists (w : World) : ∃ i, sameMoment w i := ⟨{ now := w.clock }, le_rfl⟩

section Moment

variable {α : Type} {w w' : World} {r : Except Exn α}

lemma runs_now {f : Time → Portal α} :
    Proc.Runs sameMoment (now >>= f) w r w' ↔ Proc.Runs sameMoment (f w.clock) w r w' := by
  have hmax : ∀ i : Input, sameMoment w i → max w.clock i.now = w.clock := fun i hi => max_eq_left hi
  constructor
  · rintro ⟨i, hi, h⟩
    have hrun : Proc.Runs sameMoment (f (max w.clock i.now))
      { w with clock := max w.clock i.now } r w' := h
    rwa [hmax i hi] at hrun
  · intro h
    obtain ⟨i, hi⟩ := sameMoment_exists w
    have hrun : Proc.Runs sameMoment (f (max w.clock i.now))
        { w with clock := max w.clock i.now } r w' := by
      rwa [hmax i hi]
    exact ⟨i, hi, hrun⟩

lemma runs_select {β : Type} {q : Db → β} {f : β → Portal α} :
    Proc.Runs sameMoment (select q >>= f) w r w' ↔ Proc.Runs sameMoment (f (q w.db)) w r w' := by
  rw [select, Proc.runs_look, and_iff_right (sameMoment_exists w)]

lemma runs_currentUser {username : String} {user : User} {f : User → Portal α}
    (hu : (w.db.users.rows.filter fun u => u.username = username) = [user]) :
    Proc.Runs sameMoment (currentUser username >>= f) w r w' ↔
      Proc.Runs sameMoment (f user) w r w' := by
  have hbind : (currentUser username >>= f) = (select fun db =>
      db.users.rows.filter fun u => u.username = username) >>= fun rows =>
        theOneUser rows >>= f := rfl
  rw [hbind, runs_select, hu]
  rfl

end Moment

/-! ### What is granted -/

/-- A refusal by the checks of `add_config` on the location and the plan. -/
def CheckRefusal (e : Exn) : Prop :=
  e = .http 422 (.text "Unknown location") ∨ e = .http 409 (.text "location_paused") ∨
    ∃ limit, e = .http 409 (.text (noRoom limit))

/-- A request for a device in the location gets past the checks. -/
def PastChecks (cfg : Settings) (w : World) (username key : String) : Prop :=
  ∀ name r w', Proc.Runs sameMoment (addConfig cfg username ⟨name, some key⟩) w r w' →
    ∀ e, r = .error e → ¬ CheckRefusal e

/-- Issuing a device ends with an exception only if the call of the node does. -/
lemma issueConfig_error (cfg : Settings) (user : User) (name : String) (kind : Kind)
    (location : String) {J : World → Input → Prop} :
    Proc.Within J (fun _ _ => True) (fun r => ∀ e, r = .error e → e = .crash)
      (issueConfig cfg user name kind location) := by
  have hretry : ∀ loc pool pub psk label n tried, Proc.Within J (fun _ _ => True)
      (fun r => ∀ e, r = .error e → e = .crash) (addWithRetry loc pool pub psk label n tried) := by
    intro loc pool pub psk label n
    induction n with
    | zero => exact fun tried e h => by cases h
    | succ n ih =>
      refine fun tried => Proc.Within.look fun s _ _ => ⟨trivial, ?_⟩
      dsimp only
      split
      · exact fun e h => by cases h
      refine Proc.Within.exchange fun s i _ => ⟨trivial, ?_⟩
      dsimp only
      split
      · exact fun e h => by cases h
      · split
        · exact ih _
        · exact fun e h => by cases h
      · exact fun e h => by cases h; rfl
  unfold issueConfig
  dsimp only
  split
  · exact fun e h => by cases h
  refine Proc.Within.ask fun s i _ => ⟨trivial, ?_⟩
  split
  · exact fun e h => by cases h
  refine Proc.Within.ask fun s' i' _ => ⟨trivial, ?_⟩
  refine (hretry _ _ _ _ _ _ _).bind (fun o _ => ?_) fun e he e' h => ?_
  · cases o with
    | none => exact fun e h => by cases h
    | some ip => exact fun e h => by cases h
  · cases h
    exact he e rfl

section Account

variable {cfg : Settings} {w : World} {username : String} {user : User}

/-- What the list answers. -/
lemma runs_listConfigs (hu : (w.db.users.rows.filter fun u => u.username = username) = [user])
    (hlive : hasActiveSubscription user w.clock = true) {r : Except Exn DeviceList} {w' : World} :
    Proc.Runs sameMoment (listConfigs cfg username) w r w' ↔
      r = .ok (deviceList cfg user (heldBy w.db.configs.rows user.id).reverse true) ∧ w' = w := by
  have haccess : hasAccess user w.clock = true := by rw [hasAccess, hlive, Bool.true_or]
  rw [listConfigs, runs_currentUser hu, runs_now, haccess, Bool.not_true,
    if_neg Bool.false_ne_true, activeConfigs, runs_select, runs_now, hlive]
  rfl

/-- What a request comes to, once the account is known. -/
lemma runs_addConfig (hu : (w.db.users.rows.filter fun u => u.username = username) = [user])
    (hlive : hasActiveSubscription user w.clock = true) {name key : String} (hkey : key ≠ "")
    {r : Except Exn AddedDevice} {w' : World} :
    Proc.Runs sameMoment (addConfig cfg username ⟨name, some key⟩) w r w' ↔
      Proc.Runs sameMoment
        (if (cfg.getLocation key).isNone then .raise (.http 422 (.text "Unknown location"))
         else if key ∈ cfg.paused then .raise (.http 409 (.text "location_paused"))
         else addDevice cfg user name key) w r w' := by
  have hname : ((some key).filter (· ≠ "")).getD cfg.defaultForNew = key := by
    simp [Option.filter, hkey]
  rw [addConfig, runs_currentUser hu, runs_now, hlive, Bool.not_true, if_neg Bool.false_ne_true]
  dsimp only
  rw [hname]

/-- **When a request gets past the checks.** -/
lemma pastChecks_iff (hu : (w.db.users.rows.filter fun u => u.username = username) = [user])
    (hlive : hasActiveSubscription user w.clock = true) {key : String} (hkey : key ≠ "") :
    PastChecks cfg w username key ↔ (cfg.getLocation key).isSome = true ∧ key ∉ cfg.paused ∧
      deviceCount w.db user.id key < configLimit user.plan := by
  unfold PastChecks
  simp only [runs_addConfig hu hlive hkey]
  cases hloc : cfg.getLocation key with
  | none =>
    simp only [Option.isNone_none, if_true, Option.isSome_none, Bool.false_eq_true, false_and,
      iff_false, not_forall]
    exact ⟨"", _, w, ⟨rfl, rfl⟩, _, rfl, fun h => h (.inl rfl)⟩
  | some loc =>
    simp only [Option.isNone_some, Bool.false_eq_true, if_false, Option.isSome_some, true_and]
    by_cases hpaused : key ∈ cfg.paused
    · simp only [not_true, false_and, iff_false, not_forall, hpaused]
      exact ⟨"", _, w, ⟨rfl, rfl⟩, _, rfl, fun h => h (.inr (.inl rfl))⟩
    rw [and_iff_right hpaused]
    simp only [if_neg hpaused, addDevice, activeConfigs, runs_select, length_held_eq]
    by_cases hroom : configLimit user.plan ≤ deviceCount w.db user.id key
    · simp only [if_pos hroom, not_lt.mpr hroom, iff_false, not_forall]
      exact ⟨"", _, w, ⟨rfl, rfl⟩, _, rfl, fun h => h (.inr (.inr ⟨_, rfl⟩))⟩
    simp only [if_neg hroom]
    refine ⟨fun _ => not_le.mp hroom, fun _ name r w' hrun e he => ?_⟩
    subst he
    have hend : e = .crash ∨ e = .http 503 (.text "Could not provision a device") := by
      rcases Proc.runs_bind.mp hrun with ⟨e', hissue, heq⟩ | ⟨o, u, -, hrest⟩
      · left
        rw [Except.error.inj heq]
        exact (((issueConfig_error cfg user name .paid key).alone w).runs hissue).2.2 e' rfl
      · right
        cases o with
        | none => exact Except.error.inj hrest.1
        | some device =>
          obtain ⟨i, -, hend⟩ := hrest
          cases hend.1
    rintro (h | h | ⟨limit, h⟩) <;> rcases hend with hend | hend <;> rw [hend] at h <;> cases h

end Account

/-! ### The two agree -/

/-- The list shows a free place in a location exactly if a device is granted
there, and the places of the whole answer are Germany's. -/
def SlotsHonest (cfg : Settings) (w : World) (username : String) : Prop :=
  ∀ r w', Proc.Runs sameMoment (listConfigs cfg username) w r w' → ∃ list, r = .ok list ∧
    (∀ key, key ≠ "" → ((∃ slot ∈ list.locations, slot.key = key ∧ slot.used < slot.limit ∧
        slot.paused = false) ↔ PastChecks cfg w username key)) ∧
    ∃ slot ∈ list.locations, slot.key = Settings.defaultLocation ∧ slot.limit = list.limit ∧
      slot.used = list.used

/-- A location that is configured is found under its key. -/
lemma getLocation_isSome {cfg : Settings} {key : String} (hkey : key ≠ "") :
    (cfg.getLocation key).isSome = true ↔ ∃ loc ∈ cfg.allLocations, loc.key = key := by
  rw [Settings.getLocation, if_neg hkey, List.find?_isSome]
  simp

lemma key_ne_of_mem {cfg : Settings} {loc : Location} (h : loc ∈ cfg.allLocations) :
    loc.key ≠ "" := by
  rcases List.mem_append.mp h with h | h
  · obtain ⟨host, -, rfl⟩ := Option.map_eq_some_iff.mp (Option.mem_toList.mp h)
    simp
  · rw [List.mem_singleton.mp h]
    simp [Settings.germany]

/-- A location with a free place in the list. -/
lemma shown_iff {cfg : Settings} {user : User} {configs : List Config} {key : String} :
    (∃ slot ∈ (deviceList cfg user configs true).locations, slot.key = key ∧
        slot.used < slot.limit ∧ slot.paused = false) ↔
      (∃ loc ∈ cfg.allLocations, loc.key = key) ∧ key ∉ cfg.paused ∧
        usedIn configs key < configLimit user.plan := by
  simp only [deviceList, locationSlots, if_true, List.mem_map]
  constructor
  · rintro ⟨slot, ⟨loc, hloc, rfl⟩, rfl, hroom, hpaused⟩
    exact ⟨⟨loc, hloc, rfl⟩, by simpa using hpaused, hroom⟩
  · rintro ⟨⟨loc, hloc, rfl⟩, hpaused, hroom⟩
    exact ⟨_, ⟨loc, hloc, rfl⟩, rfl, hroom, by simpa using hpaused⟩

/-- The order of the devices does not count. -/
lemma usedIn_reverse (configs : List Config) (key : String) :
    usedIn configs.reverse key = usedIn configs key := by
  rw [usedIn, List.filter_reverse, List.length_reverse, usedIn]

lemma deviceCount_le_usedIn (db : Db) (n : ℕ) (key : String) :
    deviceCount db n key ≤ usedIn (heldBy db.configs.rows n) key := by
  rw [← length_held_eq, ← usedIn_reverse, usedIn]
  refine (List.monotone_filter_right _ fun c hc => ?_).length_le
  have hboth : c.kind ≠ .trial ∧ c.locationKey = key := of_decide_eq_true hc
  simpa using hboth.2

/-- **Free places shown are free places granted** exactly if no trial device takes
the last place: in every configured location that is not paused and where the
other devices leave room under the plan's limit, all of them together do. -/
theorem slots_shown_iff (cfg : Settings) {w : World} {username : String} {user : User}
    (hu : (w.db.users.rows.filter fun u => u.username = username) = [user])
    (hlive : hasActiveSubscription user w.clock = true) :
    SlotsHonest cfg w username ↔ ∀ loc ∈ cfg.allLocations, loc.key ∉ cfg.paused →
      deviceCount w.db user.id loc.key < configLimit user.plan →
      usedIn (heldBy w.db.configs.rows user.id) loc.key < configLimit user.plan := by
  constructor
  · intro hhonest loc hloc hpaused hroom
    obtain ⟨list, hlist, hslots, -⟩ := hhonest _ w ((runs_listConfigs hu hlive).mpr ⟨rfl, rfl⟩)
    obtain rfl := Except.ok.inj hlist
    have hkey := key_ne_of_mem hloc
    have hpast := (pastChecks_iff hu hlive hkey).mpr
      ⟨(getLocation_isSome hkey).mpr ⟨loc, hloc, rfl⟩, hpaused, hroom⟩
    rw [← usedIn_reverse]
    exact (shown_iff.mp ((hslots loc.key hkey).mpr hpast)).2.2
  · intro hcond r w' hrun
    obtain ⟨rfl, rfl⟩ := (runs_listConfigs hu hlive).mp hrun
    refine ⟨_, rfl, fun key hkey => ?_, ?_⟩
    · rw [shown_iff, pastChecks_iff hu hlive hkey, getLocation_isSome hkey, usedIn_reverse]
      constructor
      · rintro ⟨hloc, hpaused, hroom⟩
        exact ⟨hloc, hpaused, (deviceCount_le_usedIn _ _ _).trans_lt hroom⟩
      · rintro ⟨⟨loc, hloc, rfl⟩, hpaused, hroom⟩
        exact ⟨⟨loc, hloc, rfl⟩, hpaused, hcond loc hloc hpaused hroom⟩
    · refine ⟨_, List.mem_map.mpr ⟨cfg.germany, List.mem_append_right _ List.mem_cons_self, rfl⟩,
        rfl, rfl, rfl⟩

/-- A customer in a month of the basic plan. -/
def basicCustomer : User :=
  { id := 0, username := "ann", isSubscribed := true, plan := some "basic-1m"
    subscribedUntil := some (days 30) }

/-- A device that was bought, and a second one. -/
def phoneAndTablet (kind : Kind) : List Config :=
  [{ id := 0, userId := 0, name := "phone", peerIp := "10.88.88.42", publicKey := "K" },
    { id := 1, userId := 0, name := "tablet", peerIp := "10.88.89.10", kind := kind,
      publicKey := "L" }]

lemma phoneAndTablet_nodup (kind : Kind) : ((phoneAndTablet kind).map Row.num).Nodup := by
  simp [phoneAndTablet]

lemma phoneAndTablet_lt (kind : Kind) : ∀ c ∈ phoneAndTablet kind, Row.num c < 2 := by
  simp [phoneAndTablet]

/-- The customer holds both. -/
def secondDevice (kind : Kind) : World where
  db :=
    { users := ⟨[basicCustomer], 1, by decide, by decide⟩
      configs := ⟨phoneAndTablet kind, 2, phoneAndTablet_nodup kind, phoneAndTablet_lt kind⟩ }

theorem slots_shown_iff_secondDevice :
    hasActiveSubscription basicCustomer (secondDevice .paid).clock = true ∧
      SlotsHonest {} (secondDevice .paid) "ann" := by
  have hlive : hasActiveSubscription basicCustomer (secondDevice .paid).clock = true := by
    decide
  exact ⟨hlive, (slots_shown_iff {} (by decide) hlive).mpr (by decide)⟩

/-- The trial device of a customer who has bought a plan since takes the last
place of the list, while another device is granted. -/
theorem trial_hides_slot : ¬ SlotsHonest {} (secondDevice .trial) "ann" := by
  intro h
  have hu : ((secondDevice .trial).db.users.rows.filter fun u => u.username = "ann") =
    [basicCustomer] := by decide
  have hlive : hasActiveSubscription basicCustomer (secondDevice .trial).clock = true := by
    decide
  obtain ⟨list, hlist, hslots, -⟩ := h _ _ ((runs_listConfigs hu hlive).mpr ⟨rfl, rfl⟩)
  obtain rfl := Except.ok.inj hlist
  have hgranted : PastChecks {} (secondDevice .trial) "ann" "de" :=
    (pastChecks_iff hu hlive (by decide)).mpr (by decide)
  have hshown := shown_iff.mp ((hslots "de" (by decide)).mpr hgranted)
  exact absurd hshown.2.2 (by decide)

end VpnPortal
