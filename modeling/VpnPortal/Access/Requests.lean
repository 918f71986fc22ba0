/-
The device limit under concurrent requests.

`add_config` counts the devices of a location, calls the node and then commits
the new one; it does not count again. Two requests that overlap may both see the
last free place. The limit holds as long as the last place of a location is
taken while every other request for it has ended or has not counted yet.

* `InLimit`, `HasRoom`: the account and its devices in one location;
* `spares_deleteConfig`, `spares_addConfig`: removals, and additions of other accounts
  or elsewhere, take no place there;
* `careful_addConfig`: an addition takes a place only after it has seen one free;
* `device_limit_of_spaced`: **the limit under every interleaving** in which the last
  place is taken while no other request for it is between its look and its end;
* `device_limit_broken_by_overlap`: two requests for one place.
-/
import VpnPortal.Access.Limit
import VpnPortal.Sessions.Slots

namespace VpnPortal

open Sessions Tables

/-- A request to add or to remove a device. -/
def Op.IsDeviceRequest : Op → Prop
  | .addConfig _ _ => True
  | .deleteConfig _ _ => True
  | _ => False

/-- The location that `add_config` takes from a request. -/
def NewConfigRequest.place (cfg : Settings) (req : NewConfigRequest) : String :=
  (req.location.filter (· ≠ "")).getD cfg.defaultForNew

/-- A request of the account `name` to add a device in this location. -/
def Op.AddsTo (cfg : Settings) (name location : String) : Op → Prop
  | .addConfig username req => username = name ∧ req.place cfg = location
  | _ => False

/-- The account `n` has this name and plan, and in the location no more devices
than the plan allows. -/
structure InLimit (n : ℕ) (name : String) (plan : Option String) (location : String) (w : World) :
    Prop where
  account : ∃ u, w.db.users.find n = some u ∧ u.username = name ∧ u.plan = plan
  count : deviceCount w.db n location ≤ configLimit plan

/-- There is room for one more. -/
def HasRoom (n : ℕ) (plan : Option String) (location : String) (w : World) : Prop :=
  deviceCount w.db n location < configLimit plan

section

variable {n : ℕ} {name location : String} {plan : Option String} {cfg : Settings} {α : Type}

/-- The account keeps its name and plan and gains no device in the location. -/
lemma keeps_of_le {w w' : World} (h : InLimit n name plan location w)
    (haccount : ∀ u, w.db.users.find n = some u →
      ∃ u', w'.db.users.find n = some u' ∧ u'.username = u.username ∧ u'.plan = u.plan)
    (hcount : deviceCount w'.db n location ≤ deviceCount w.db n location) :
    Proc.Keeps (InLimit n name plan location) (HasRoom n plan location) w w' := by
  obtain ⟨u, hu, hname, hplan⟩ := h.account
  obtain ⟨u', hu', hname', hplan'⟩ := haccount u hu
  refine ⟨⟨⟨u', hu', hname'.trans hname, hplan'.trans hplan⟩, hcount.trans h.count⟩, ?_⟩
  exact fun hroom => hcount.trans_lt hroom

lemma keeps_of_db {w w' : World} (h : InLimit n name plan location w) (hdb : w'.db = w.db) :
    Proc.Keeps (InLimit n name plan location) (HasRoom n plan location) w w' := by
  refine keeps_of_le h (fun u hu => ⟨u, by rw [hdb]; exact hu, rfl, rfl⟩) ?_
  rw [hdb]

/-- The account that a session loads by name. -/
lemma eq_of_named {w : World} (h : InLimit n name plan location w) {user : User}
    (hrows : (w.db.users.rows.filter fun u => u.username = name) = [user]) :
    user.id = n ∧ user.plan = plan := by
  obtain ⟨u, hu, hname, hplan⟩ := h.account
  obtain ⟨hmem, hid⟩ := Table.mem_of_find hu
  have hfound : u ∈ [user] := by
    rw [← hrows]
    exact List.mem_filter.mpr ⟨hmem, decide_eq_true hname⟩
  rw [← List.mem_singleton.mp hfound]
  exact ⟨hid, hplan⟩

/-! ### Requests that take no place -/

lemma spares_currentUser (username : String) :
    Proc.Spares (InLimit n name plan location) (HasRoom n plan location)
      (fun r => ∀ u, r = .ok u → username ≠ name → u.id ≠ n) (currentUser username) := by
  refine Proc.Within.look fun s _ hs => ⟨keeps_of_db hs rfl, ?_⟩
  obtain ⟨x, hx, hname, -⟩ := hs.account
  have hfound : ∀ u ∈ s.db.users.rows.filter (fun u => u.username = username),
      username ≠ name → u.id ≠ n := by
    rintro u hu hne rfl
    obtain ⟨hmem, huser⟩ := List.mem_filter.mp hu
    obtain rfl := Option.some.inj (hx.symm.trans (Table.find_of_mem hmem))
    exact hne ((of_decide_eq_true huser).symm.trans hname)
  dsimp only
  generalize s.db.users.rows.filter (fun u => u.username = username) = rows at hfound
  unfold scalarOneOrNone
  split
  · intro u h; cases h
  · rename_i user
    intro u h
    obtain rfl := Except.ok.inj h
    exact hfound user (List.mem_singleton.mpr rfl)
  · intro u h; cases h

lemma spares_removePeerFor (c : Config) :
    Proc.Spares (InLimit n name plan location) (HasRoom n plan location) (fun _ => True)
      (removePeerFor cfg c) := by
  refine Proc.Within.change fun s _ hs => ⟨keeps_of_db hs rfl, ?_⟩
  split
  · trivial
  · refine Proc.Within.exchange fun s i hs => ⟨keeps_of_db hs rfl, ?_⟩
    dsimp only
    split <;> trivial

/-- A session that does not change the plan, however old its copy is. -/
lemma account_of_save {users : Table User} {user new u : User} (hplan : new.plan = user.plan)
    (hu : users.find n = some u) :
    ∃ u', (saveAccount users user new).find n = some u' ∧ u'.username = u.username
      ∧ u'.plan = u.plan := by
  by_cases heq : n = user.id
  · subst heq
    refine ⟨_, find_saveAccount_self new hu, ?_, ?_⟩
    · simp [User.merge]
    · simp [User.merge, hplan]
  · exact ⟨u, by rw [find_saveAccount_of_ne heq]; exact hu, rfl, rfl⟩

lemma spares_deleteConfig (username : String) (id : ℕ) :
    Proc.Spares (InLimit n name plan location) (HasRoom n plan location) (fun _ => True)
      (deleteConfig cfg username id) := by
  refine (spares_currentUser username).bind (fun user _ => ?_) fun _ _ => trivial
  refine Proc.Within.look fun s _ hs => ⟨keeps_of_db hs rfl, ?_⟩
  split
  · trivial
  rename_i device _
  split
  · trivial
  refine (spares_removePeerFor device).bind (fun ok _ => ?_) fun _ _ => trivial
  split
  · refine Proc.Within.look fun s _ hs => ⟨keeps_of_db hs rfl, ?_⟩
    refine Proc.Within.change fun s _ hs => ⟨?_, trivial⟩
    have hoff : SwitchesOff [device.id] s.db (s.db.deactivate device.id) :=
      ⟨[device.id], fun _ h => h, rfl⟩
    refine keeps_of_le hs (fun u hu => ?_) (hoff.shrinks.count n location)
    refine account_of_save ?_ hu
    unfold afterRemoval
    split <;> rfl
  · trivial

/-! ### Requests that take one -/

/-- What `add_config` does after it has counted. -/
def issueDevice (cfg : Settings) (user : User) (deviceName location : String) (held limit : ℕ) :
    Portal AddedDevice := do
  match ← issueConfig cfg user deviceName .paid location with
  | none => .raise (.http 503 (.text "Could not provision a device"))
  | some device => do
      let row ← commitWith fun db =>
        ({ device with id := db.configs.next },
          { db with configs := db.configs.insert (fun n => { device with id := n }) device.num_withId })
      pure ⟨row, held + 1, limit⟩

/-- The row that was issued belongs to the account and lies in the location. -/
lemma spares_issueConfig (user : User) (deviceName : String) {place : String} (hplace : place ≠ "") :
    Proc.Spares (InLimit n name plan location) (HasRoom n plan location)
      (fun r => ∀ c, r = .ok (some c) → c.userId = user.id ∧ c.locationKey = place)
      (issueConfig cfg user deviceName .paid place) := by
  have hissue := within_issueConfig (J := fun s _ => InLimit n name plan location s) cfg user
    deviceName .paid place
  refine (hissue.mono_of fun s _ t hs h => keeps_of_db hs h.1).mono (fun _ _ h => h) ?_
  intro r hr c hc
  obtain ⟨⟨hown, -, -⟩, loc, hloc, hlocation⟩ := hr c hc
  refine ⟨hown, ?_⟩
  rw [Config.locationKey, hlocation, key_of_getLocation hplace hloc, if_neg hplace]

/-- A device elsewhere takes no place here. -/
lemma spares_issueDevice {user : User} {place : String} (hplace : place ≠ "")
    (helse : user.id ≠ n ∨ place ≠ location) (deviceName : String) (held limit : ℕ) :
    Proc.Spares (InLimit n name plan location) (HasRoom n plan location) (fun _ => True)
      (issueDevice cfg user deviceName place held limit) := by
  refine (spares_issueConfig user deviceName hplace).bind (fun o ho => ?_) fun _ _ => trivial
  cases o with
  | none => trivial
  | some device =>
      obtain ⟨hown, hkey⟩ := ho device rfl
      refine Proc.Within.exchange fun s _ hs => ⟨?_, trivial⟩
      refine keeps_of_le hs (fun u hu => ⟨u, hu, rfl, rfl⟩) ?_
      have hnot : device.countsFor n location = false := by
        rw [Bool.eq_false_iff]
        intro hcounts
        obtain ⟨huser, -, -, hloc⟩ := Config.countsFor_iff.mp hcounts
        rcases helse with helse | helse
        · exact helse (hown.symm.trans huser)
        · exact helse (hkey.symm.trans hloc)
      dsimp only
      rw [deviceCount_insert, hnot]
      exact le_rfl

/-- Where there is room the device may be added. -/
lemma takes_issueDevice (user : User) {place : String} (hplace : place ≠ "") (deviceName : String)
    (held limit : ℕ) :
    Proc.Takes (InLimit n name plan location) (HasRoom n plan location)
      (issueDevice cfg user deviceName place held limit) := by
  refine Proc.Takes.bind (spares_issueConfig user deviceName hplace) fun o ho => ?_
  cases o with
  | none => trivial
  | some device =>
      refine fun s _ hs => Or.inr ⟨fun hroom => ⟨hs.account, ?_⟩, trivial⟩
      unfold HasRoom at hroom
      dsimp only
      rw [deviceCount_insert]
      split <;> omega

/-- `add_config` counts, and then issues the device. -/
lemma addDevice_eq (user : User) (deviceName place : String) :
    addDevice cfg user deviceName place = (do
      let held ← activeConfigs user.id
      let configs := held.filter fun c => c.kind ≠ .trial ∧ c.locationKey = place
      if configLimit user.plan ≤ configs.length then
        .raise (.http 409 (.text (noRoom (configLimit user.plan))))
      else issueDevice cfg user deviceName place configs.length (configLimit user.plan)) := rfl

lemma place_ne (cfg : Settings) (req : NewConfigRequest) : req.place cfg ≠ "" := by
  unfold NewConfigRequest.place
  cases hfilter : req.location.filter (· ≠ "") with
  | none => exact defaultForNew_ne cfg
  | some place => simpa using (Option.filter_eq_some_iff.mp hfilter).2

/-- `add_config` for another account or another location. -/
lemma spares_addConfig {username : String} {req : NewConfigRequest}
    (helse : ¬ (Op.addConfig username req).AddsTo cfg name location) :
    Proc.Spares (InLimit n name plan location) (HasRoom n plan location) (fun _ => True)
      (addConfig cfg username req) := by
  refine (spares_currentUser username).bind (fun user huser => ?_) fun _ _ => trivial
  have hother : user.id ≠ n ∨ req.place cfg ≠ location := by
    by_cases hname : username = name
    · exact Or.inr fun hplace => helse ⟨hname, hplace⟩
    · exact Or.inl (huser user rfl hname)
  refine Proc.Within.exchange fun s _ hs => ⟨keeps_of_db hs rfl, ?_⟩
  dsimp only
  split
  · trivial
  split
  · trivial
  split
  · trivial
  rw [addDevice_eq]
  refine Proc.Within.look fun s _ hs => ⟨keeps_of_db hs rfl, ?_⟩
  dsimp only
  split
  · trivial
  · exact spares_issueDevice (place_ne cfg req) hother _ _ _

/-- The account is loaded in one step, before anything is counted. -/
lemma careful_currentUser {m : ℕ} {f : User → Portal α}
    (hf : ∀ user, user.id = n → user.plan = plan →
      Proc.CarefulAfter (InLimit n name plan location) (HasRoom n plan location) m (f user)) :
    Proc.CarefulAfter (InLimit n name plan location) (HasRoom n plan location) (m + 1)
      (currentUser name >>= f) := by
  refine fun s i hs => ⟨Proc.Keeps.refl hs, ?_⟩
  have hone : ∀ user, (s.db.users.rows.filter fun u => u.username = name) = [user] →
      user.id = n ∧ user.plan = plan := fun user => eq_of_named hs
  change Proc.CarefulAfter _ _ m
    (theOneUser (s.db.users.rows.filter fun u => u.username = name) >>= f)
  generalize (s.db.users.rows.filter fun u => u.username = name) = rows at hone
  rcases rows with _ | ⟨user, _ | ⟨second, rest⟩⟩
  · exact Proc.CarefulAfter.of_result rfl m
  · obtain ⟨hid, hplan⟩ := hone user rfl
    exact hf user hid hplan
  · exact Proc.CarefulAfter.of_result rfl m

/-- `add_config` for this account and this location: the account and the clock
are read first, then the devices are counted. -/
lemma careful_addConfig {req : NewConfigRequest} (hplace : req.place cfg = location) :
    Proc.CarefulAfter (InLimit n name plan location) (HasRoom n plan location) 2
      (addConfig cfg name req) := by
  refine careful_currentUser fun user hid hplan => ?_
  refine Proc.CarefulAfter.exchange fun s i hs => ⟨keeps_of_db hs rfl, ?_⟩
  dsimp only
  split
  · trivial
  split
  · trivial
  split
  · trivial
  rw [addDevice_eq]
  refine Proc.Careful.look fun s hs => ?_
  dsimp only
  split
  · exact Or.inl trivial
  · rename_i hroom
    refine Or.inr ⟨?_, takes_issueDevice user (place_ne cfg req) _ _ _⟩
    have hcount := length_held_eq s.db user.id (req.place cfg)
    rw [HasRoom, ← hid, ← hplace, ← hplan, ← hcount]
    exact not_le.mp hroom

end

/-! ### Any interleaving -/

/-- **The device limit under concurrent requests.** Requests to add and to remove
devices run side by side, in any order of their steps. If the commit that fills
a location is made while every other `add_config` of the account for it has
ended or has not yet counted, the account never has more devices there than its
plan allows. -/
theorem device_limit_of_spaced {κ : Type} [DecidableEq κ] (cfg : Settings) (ops : κ → Op)
    (hops : ∀ k, (ops k).IsDeviceRequest) {w : World} {n : ℕ} {u : User}
    (hu : w.db.users.find n = some u) (location : String)
    (hlimit : deviceCount w.db n location ≤ configLimit u.plan) {sched : List (κ × Input)}
    (h : Spaced (HasRoom n u.plan location) {k | (ops k).AddsTo cfg u.username location} 2
      ⟨w, fun k => (ops k).run cfg⟩ sched) :
    (∃ u', ((Cfg.mk w fun k => (ops k).run cfg).run sched).state.db.users.find n = some u'
        ∧ u'.plan = u.plan)
      ∧ deviceCount ((Cfg.mk w fun k => (ops k).run cfg).run sched).state.db n location
        ≤ configLimit u.plan := by
  have hstart : InLimit n u.username u.plan location w := ⟨⟨u, hu, rfl, rfl⟩, hlimit⟩
  suffices hend : InLimit n u.username u.plan location
      ((Cfg.mk w fun k => (ops k).run cfg).run sched).state by
    obtain ⟨u', hu', -, hplan⟩ := hend.account
    exact ⟨⟨u', hu', hplan⟩, hend.count⟩
  refine ok_of_spaced hstart ?_ ?_ h
  · intro k hk
    rw [Set.mem_ofPred_eq] at hk
    dsimp only
    cases hop : ops k with
    | addConfig username req =>
        rw [hop] at hk
        obtain ⟨rfl, hplace⟩ := hk
        exact (careful_addConfig hplace).map _
    | _ => rw [hop] at hk; exact hk.elim
  · intro k hk
    rw [Set.mem_ofPred_eq] at hk
    dsimp only
    have hkind := hops k
    cases hop : ops k with
    | addConfig username req =>
        rw [hop] at hk
        exact (spares_addConfig hk).bind (fun _ _ => trivial) fun _ _ => trivial
    | deleteConfig username id =>
        exact (spares_deleteConfig username id).bind (fun _ _ => trivial) fun _ _ => trivial
    | _ => rw [hop] at hkind; exact hkind.elim

/-! ### Two requests for one place -/

/-- An account with a plan for two devices. -/
def onBasic : User where
  id := 0
  username := "ann"
  isSubscribed := true
  subscribedUntil := some (days 30)
  plan := some "basic-1m"

/-- One of its two devices is in use. -/
def onePlaceLeft : World where
  db := {
    users := ⟨[onBasic], 1, by decide, by decide⟩
    configs := ⟨[{ id := 0, userId := 0, name := "a", peerIp := "10.88.88.42", publicKey := "A" }], 1,
      by decide, by decide⟩ }

/-- Two requests to add a device. -/
def bothAdd : Bool → Op := fun _ => .addConfig "ann" {}

def bothAdding : Cfg Bool World Input Exn (Option ℕ) := ⟨onePlaceLeft, fun k => (bothAdd k).run {}⟩

/-- Each gets a key of its own, and the node takes the peer. -/
def ownKey (k : Bool) : Input where
  keys := some (if k then "K1" else "K0", "P")
  add := fun _ _ => (.ok, {})

/-- The steps of one request. -/
def stepsBy (m : ℕ) (k : Bool) : List (Bool × Input) := List.replicate m (k, ownKey k)

/-- One after the other: the second finds no room. -/
theorem device_limit_of_spaced_inTurn :
    deviceCount (bothAdding.run (stepsBy 8 false ++ stepsBy 8 true)).state.db 0 "de" = 2
      ∧ deviceCount (bothAdding.run (stepsBy 8 false ++ stepsBy 8 true)).state.db 0 "de"
        ≤ configLimit (some "basic-1m") := by
  refine ⟨by decide, ?_⟩
  have hfirst : Spaced (HasRoom 0 (some "basic-1m") "de") {k | (bothAdd k).AddsTo {} "ann" "de"} 2
      bothAdding (stepsBy 8 false) :=
    Spaced.nil.alone 8 fun l _ _ => Or.inl (Nat.zero_le 2)
  have hboth := hfirst.alone (i := ownKey true) (k := true) 8 fun l _ hl => by
    obtain rfl : l = false := by simpa using hl
    exact Or.inr ⟨.ok none, by decide⟩
  obtain ⟨-, hcount⟩ := device_limit_of_spaced {} bothAdd (fun _ => trivial) (w := onePlaceLeft)
    (n := 0) (u := onBasic) rfl "de" (by decide) hboth
  exact hcount

/-- **Two requests for one place.** Both count while one place is left; both are
served, and the account has three devices on a plan for two. -/
theorem device_limit_broken_by_overlap :
    (onePlaceLeft.db.users.find 0).map User.plan = some (some "basic-1m")
      ∧ configLimit (some "basic-1m") = 2 ∧ deviceCount onePlaceLeft.db 0 "de" = 1
      ∧ ((bothAdding.run (stepsBy 3 false ++ stepsBy 3 true ++ stepsBy 5 false
        ++ stepsBy 5 true)).state.db.users.find 0).map User.plan = some (some "basic-1m")
      ∧ deviceCount (bothAdding.run (stepsBy 3 false ++ stepsBy 3 true ++ stepsBy 5 false
        ++ stepsBy 5 true)).state.db 0 "de" = 3 := by
  refine ⟨?_, ?_, ?_, ?_, ?_⟩ <;> decide

end VpnPortal
