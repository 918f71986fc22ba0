/-
The device limit along whole runs.

A plan allows a number of devices in each location, trial devices apart. The
limit is checked when an order is opened and when a device is added; the plan
changes later, when the order is confirmed, and by a grant at once. Between the
two the account may have grown, so the limit is kept exactly as far as a plan
is given only to an account that fits it.

* `Config.countsFor`: the devices that count for a location, row by row;
* `Shrinks`: steps that change no plan and add no such device;
* `WithinLimit`, `Shrinks.withinLimit`, `AddsDevice.withinLimit`,
  `Sold.withinLimit`: no account has more devices in a location than its plan allows,
  and each kind of step keeps that, a sale if its plan fits the account;
* `Deal`, `Deals`: runs; `within_limit_of_fits`: **the limit along a run** whose sales
  and grants all fit;
* `limit_exceeded_by_old_order`: an order opened before the devices came, and paid
  after.
-/
import VpnPortal.Access.Calls

namespace VpnPortal

open Sessions Tables

/-! ### Counting devices -/

/-- A device that counts against the plan of the account `n` in a location. -/
def Config.countsFor (n : ℕ) (location : String) (c : Config) : Bool :=
  c.userId = n ∧ c.isActive ∧ c.kind ≠ .trial ∧ c.locationKey = location

lemma Config.countsFor_iff {n : ℕ} {location : String} {c : Config} :
    c.countsFor n location = true
      ↔ c.userId = n ∧ c.isActive = true ∧ c.kind ≠ .trial ∧ c.locationKey = location :=
  decide_eq_true_iff

lemma deviceCount_eq_countP (db : Db) (n : ℕ) (location : String) :
    deviceCount db n location = db.configs.rows.countP (Config.countsFor n location) := by
  rw [deviceCount, paidDevices, heldBy, List.filter_filter, List.filter_filter,
    List.countP_eq_length_filter]
  congr 2
  funext c
  simp [Config.countsFor, Bool.and_comm, Bool.and_assoc, Bool.and_left_comm]

@[simp] lemma Config.countsFor_off (n : ℕ) (location : String) (c : Config) :
    Config.countsFor n location c.off = false := by
  simp [Config.countsFor, Config.off]

/-- Switching devices off makes no count larger. -/
lemma countP_map_off (p : Config → Bool) (rows : List Config) (n : ℕ) (location : String) :
    (rows.map fun c => if p c then c.off else c).countP (Config.countsFor n location)
      ≤ rows.countP (Config.countsFor n location) := by
  rw [List.countP_map]
  refine List.countP_mono_left fun c _ hc => ?_
  rw [Function.comp_apply] at hc
  split at hc
  · rw [Config.countsFor_off] at hc
    cases hc
  · exact hc

/-- A new row counts for its own account and location only. -/
lemma deviceCount_insert (db : Db) (device : Config) (n : ℕ) (location : String) :
    deviceCount { db with configs := db.configs.insert (fun k => { device with id := k }) device.num_withId }
        n location
      = deviceCount db n location + if device.countsFor n location then 1 else 0 := by
  rw [deviceCount_eq_countP, deviceCount_eq_countP, Table.rows_insert, List.countP_append,
    List.countP_singleton]
  rfl

/-- No location holds more than the fullest. -/
lemma deviceCount_le_fullestLocation (db : Db) (n : ℕ) (location : String) :
    deviceCount db n location ≤ fullestLocation db n := by
  rcases Nat.eq_zero_or_pos (deviceCount db n location) with hzero | hpos
  · rw [hzero]
    exact Nat.zero_le _
  · -- some device is held there, so the location is among those compared
    obtain ⟨c, hc⟩ := List.exists_mem_of_length_pos hpos
    obtain ⟨hheld, hloc⟩ := List.mem_filter.mp hc
    refine List.le_max_of_le' 0 (x := deviceCount db n location) ?_ le_rfl
    refine List.mem_map.mpr ⟨location, List.mem_map.mpr ⟨c, hheld, of_decide_eq_true hloc⟩, rfl⟩

/-! ### Steps that add no device -/

/-- No plan changes and no account has more devices in a location. -/
structure Shrinks (db db' : Db) : Prop where
  plan : ∀ n u', db'.users.find n = some u' → ∃ u, db.users.find n = some u ∧ u'.plan = u.plan
  count : ∀ n location, deviceCount db' n location ≤ deviceCount db n location

lemma Shrinks.trans {db₁ db₂ db₃ : Db} (h : Shrinks db₁ db₂) (h' : Shrinks db₂ db₃) :
    Shrinks db₁ db₃ where
  plan n u₃ hu₃ := by
    obtain ⟨u₂, hu₂, hplan₂⟩ := h'.plan n u₃ hu₃
    obtain ⟨u₁, hu₁, hplan₁⟩ := h.plan n u₂ hu₂
    exact ⟨u₁, hu₁, hplan₂.trans hplan₁⟩
  count n location := (h'.count n location).trans (h.count n location)

/-- The same accounts and the same devices. -/
lemma Shrinks.of_eq {db db' : Db} (husers : db'.users = db.users)
    (hconfigs : db'.configs = db.configs) : Shrinks db db' where
  plan n u' hu' := ⟨u', by rw [← husers]; exact hu', rfl⟩
  count n location := by rw [deviceCount_eq_countP, deviceCount_eq_countP, hconfigs]

/-- Accounts rewritten row by row. -/
lemma plan_of_map {users users' : Table User} {g : User → User} (hg : ∀ u, (g u).id = u.id)
    (hrows : users'.rows = users.rows.map g) (hplan : ∀ u, (g u).plan = u.plan) (n : ℕ) (u' : User)
    (hu' : users'.find n = some u') : ∃ u, users.find n = some u ∧ u'.plan = u.plan := by
  rw [Table.find_of_rows_map (g := g) hg hrows] at hu'
  obtain ⟨u, hu, rfl⟩ := Option.map_eq_some_iff.mp hu'
  exact ⟨u, hu, hplan u⟩

/-- An account saved by a session that leaves its plan alone. -/
lemma plan_of_save {users : Table User} {user new : User} (hplan : new.plan = user.plan) (n : ℕ)
    (u' : User) (hu' : (saveAccount users user new).find n = some u') :
    ∃ u, users.find n = some u ∧ u'.plan = u.plan := by
  refine plan_of_map (fun u => ?_) (Table.rows_update _ _ _ _) (fun u => ?_) n u' hu'
  · split <;> rfl
  · split
    · simp [User.merge, hplan]
    · rfl

lemma count_of_map_off {db db' : Db} {p : Config → Bool}
    (hrows : db'.configs.rows = db.configs.rows.map fun c => if p c then c.off else c) (n : ℕ)
    (location : String) : deviceCount db' n location ≤ deviceCount db n location := by
  rw [deviceCount_eq_countP, deviceCount_eq_countP, hrows]
  exact countP_map_off p _ n location

lemma SwitchesOff.shrinks {ids : List ℕ} {db db' : Db} (h : SwitchesOff ids db db') :
    Shrinks db db' := by
  obtain ⟨off, -, rfl⟩ := h
  rw [Db.foldl_deactivate]
  refine ⟨fun n u' hu' => ⟨u', hu', rfl⟩, count_of_map_off (p := fun c => decide (c.id ∈ off)) ?_⟩
  rw [rows_foldl_switchOff]
  simp only [decide_eq_true_eq]

lemma Filed.shrinks {db db' : Db} (h : Filed db db') : Shrinks db db' :=
  Shrinks.of_eq (by rw [h.rest]) (by rw [h.rest])

lemma DropsDevice.shrinks {t : Time} {db db' : Db} (h : DropsDevice t db db') : Shrinks db db' := by
  obtain ⟨user, device, others, -, rfl⟩ := h
  have hoff : SwitchesOff [device.id] db (db.deactivate device.id) :=
    ⟨[device.id], fun _ h => h, rfl⟩
  refine hoff.shrinks.trans ⟨plan_of_save ?_, fun _ _ => le_rfl⟩
  unfold afterRemoval
  split <;> rfl

lemma staged_shrinks : Staged fun w w' : World => Shrinks w.db w'.db where
  trans := Shrinks.trans
  still _ hdb := Shrinks.of_eq (by rw [hdb]) (by rw [hdb])
  subs _ heffect := by
    refine ⟨plan_of_map (fun u => ?_) heffect.accounts fun u => ?_, count_of_map_off heffect.devices⟩
    · split <;> rfl
    · split <;> rfl
  trials _ heffect :=
    ⟨fun n u' hu' => ⟨u', by rw [heffect.rest] at hu'; exact hu', rfl⟩,
      count_of_map_off heffect.devices⟩
  notices hstep := Shrinks.of_eq (by rw [hstep.db]) (by rw [hstep.db])

lemma alone_hourlyJob_shrinks {J : World → Input → Prop} {cfg : Settings} {w : World} :
    Proc.Alone J (fun _ _ => True) (fun _ w' => Shrinks w.db w'.db) (hourlyJob cfg) w := by
  refine alone_hourlyJob_by staged_shrinks fun w w' sent _ hdb => ?_
  obtain ⟨users, notices, hrows, hcommit⟩ := rewards_commit_eq w'.clock sent w.db
  rw [hdb, hcommit]
  refine ⟨plan_of_map (credited_id w.db.books w'.clock) hrows fun u => ?_, fun _ _ => le_rfl⟩
  rfl

/-! ### The limit, step by step -/

/-- No account has more devices in a location than its plan allows. -/
def WithinLimit (db : Db) : Prop :=
  ∀ n u, db.users.find n = some u → ∀ location, deviceCount db n location ≤ configLimit u.plan

lemma Shrinks.withinLimit {db db' : Db} (h : Shrinks db db') (hlimit : WithinLimit db) :
    WithinLimit db' := by
  intro n u' hu' location
  obtain ⟨u, hu, hplan⟩ := h.plan n u' hu'
  rw [hplan]
  exact (h.count n location).trans (hlimit n u hu location)

/-- `add_config` counts before it adds. -/
lemma AddsDevice.withinLimit {t : Time} {db db' : Db} (h : AddsDevice t db db')
    (hlimit : WithinLimit db) : WithinLimit db' := by
  obtain ⟨user, device, hu, -, ⟨hown, -⟩, hroom, rfl⟩ := h
  intro n u hn location
  have hold := hlimit n u hn location
  rw [deviceCount_insert]
  split
  · rename_i hcounts
    obtain ⟨rfl, -, -, rfl⟩ := Config.countsFor_iff.mp hcounts
    rw [hown] at hn ⊢
    obtain rfl := Option.some.inj (hu.symm.trans hn)
    exact hroom
  · exact hold

/-- A plan that has room for the devices an account holds. -/
def Room (db : Db) (n : ℕ) (plan : String) : Prop :=
  ∀ info, planInfo (some plan) = some info → fullestLocation db n ≤ info.configs

lemma Activation.Drawn.plan_eq {b : Books} {user : User} {payment : Payment} {a : Activation}
    (ha : a.Drawn b user payment) : a.new.plan = some payment.plan := by
  obtain ⟨info, -, hnew⟩ := ha.new_eq
  rw [hnew]
  unfold closeTrial
  split <;> rfl

/-- The devices after an activation. -/
lemma deviceCount_activation (a : Activation) (db : Db) (n : ℕ) (location : String) :
    deviceCount (a.write db) n location = deviceCount db n location
      + if a.device.any (Config.countsFor n location) then 1 else 0 := by
  have hconfigs : (a.write db).configs = a.addDevice db.configs := by rw [Activation.write_eq]
  cases hdevice : a.device with
  | none =>
      rw [Activation.addDevice, hdevice] at hconfigs
      simp [deviceCount_eq_countP, hconfigs]
  | some d =>
      rw [Activation.addDevice, hdevice] at hconfigs
      rw [Option.any_some, ← deviceCount_insert, deviceCount_eq_countP, hconfigs]
      rw [deviceCount_eq_countP]

/-- An activation keeps the limit if the new plan has room for the devices that
are held. A first device always has room. -/
lemma withinLimit_activation {db : Db} {user : User} {payment : Payment} {a : Activation}
    (hu : db.users.find user.id = some user) (ha : a.Drawn db.books user payment)
    (hfirst : a.device ≠ none → paidDevices db user.id = []) (hroom : Room db user.id payment.plan)
    (hlimit : WithinLimit db) : WithinLimit (a.write db) := by
  intro n u hn location
  rw [deviceCount_activation]
  by_cases hmine : n = user.id
  · subst hmine
    obtain rfl := Option.some.inj ((ha.find_user hu).symm.trans hn)
    rw [ha.plan_eq]
    cases hdevice : a.device with
    | none =>
        obtain ⟨info, hinfo, -⟩ := ha.new_eq
        calc deviceCount db user.id location + 0
            ≤ fullestLocation db user.id := deviceCount_le_fullestLocation db user.id location
          _ ≤ info.configs := hroom info hinfo
          _ = configLimit (some payment.plan) := by rw [configLimit, hinfo]
    | some d =>
        have hnone : deviceCount db user.id location = 0 := by
          rw [deviceCount, hfirst (by rw [hdevice]; exact Option.some_ne_none d)]
          rfl
        have hpos := configLimit_pos (some payment.plan)
        rw [hnone]
        split <;> omega
  · -- the device belongs to the account of the order
    have hother : a.device.any (Config.countsFor n location) = false := by
      cases hdevice : a.device with
      | none => rfl
      | some d =>
          rw [Option.any_some, Bool.eq_false_iff]
          intro hcounts
          have hown := (ha.device_for d hdevice).1
          exact hmine ((Config.countsFor_iff.mp hcounts).1.symm.trans hown)
    rw [ha.find_user_of_ne hmine] at hn
    rw [hother]
    exact hlimit n u hn location

lemma Sold.withinLimit {t : Time} {user : User} {p : Payment} {db db' : Db}
    (h : Sold t user p db db') (hroom : Room db user.id p.plan) (hlimit : WithinLimit db) :
    WithinLimit db' := by
  obtain ⟨db₁, a, ids, hfiled, -, -, hu, ha, hfirst, -, hoff⟩ := h
  have hroom₁ : Room db₁ user.id p.plan := by
    have hsame : fullestLocation db₁ user.id = fullestLocation db user.id := by
      rw [hfiled.rest]
      rfl
    intro info hinfo
    rw [hsame]
    exact hroom info hinfo
  have hlimit₁ : WithinLimit db₁ := hfiled.shrinks.withinLimit hlimit
  exact hoff.shrinks.withinLimit (withinLimit_activation hu ha hfirst hroom₁ hlimit₁)

/-! ### Runs -/

/-- An order is opened or confirmed, a plan granted, a device added or removed,
or the hourly job runs. -/
inductive Deal where
  | order (username : String) (req : OrderRequest)
  | orderPlatega (username : String) (req : OrderRequest)
  | confirm (payment : Payment)
  | grant (username plan : String)
  | addConfig (username : String) (req : NewConfigRequest)
  | deleteConfig (username : String) (id : ℕ)
  | hourlyJob

/-- The program of a deal. -/
def Deal.run (cfg : Settings) : Deal → Portal Unit
  | .order username req => do
      let _ ← createPayment cfg username req
      pure ()
  | .orderPlatega username req => do
      let _ ← createPaymentPlatega cfg username req
      pure ()
  | .confirm payment => do
      let _ ← VpnPortal.confirm cfg payment
      pure ()
  | .grant username plan => do
      let _ ← VpnPortal.grant cfg username plan
      pure ()
  | .addConfig username req => do
      let _ ← VpnPortal.addConfig cfg username req
      pure ()
  | .deleteConfig username id => do
      let _ ← VpnPortal.deleteConfig cfg username id
      pure ()
  | .hourlyJob => VpnPortal.hourlyJob cfg

/-- Only an open order is confirmed. -/
def Deal.Possible (db : Db) : Deal → Prop
  | .confirm payment => OpenOrder db payment
  | _ => True

/-- Deals one after another, each logged with the world before it. -/
inductive Deals (cfg : Settings) (w₀ : World) : List (World × Deal) → World → Prop where
  | nil : Deals cfg w₀ [] w₀
  | step {log : List (World × Deal)} {w w' : World} {d : Deal} {r : Except Exn Unit} :
      Deals cfg w₀ log w → d.Possible w.db → Proc.Runs anyInput (d.run cfg) w r w' →
      Deals cfg w₀ (log ++ [(w, d)]) w'

/-- A plan is given only to an account whose devices it has room for. -/
def Deal.Fits (db : Db) : Deal → Prop
  | .confirm payment => Room db payment.userId payment.plan
  | .grant username plan => (plans.lookup plan).isSome = true →
      ∀ u ∈ db.users.rows, u.username = strip username → u.isActive = true → Room db u.id plan
  | _ => True

section

variable {J : World → Input → Prop} {cfg : Settings} {w w' : World}

/-- The program of a deal that ends without a value. -/
lemma alone_done {α : Type} {p : Portal α} {C : World → Prop}
    (h : Proc.Alone J (fun _ _ => True) (fun _ w' => C w') p w) :
    Proc.Alone J (fun _ _ => True) (fun _ w' => C w') (p >>= fun _ => pure ()) w :=
  h.bind (fun _ _ h => h) fun _ _ h => h

/-- The step lemma. -/
lemma Deal.withinLimit {d : Deal} {r : Except Exn Unit} (hpossible : d.Possible w.db)
    (hfits : d.Fits w.db) (hlimit : WithinLimit w.db) (hrun : Proc.Runs J (d.run cfg) w r w') :
    WithinLimit w'.db := by
  suffices halone : Proc.Alone J (fun _ _ => True) (fun _ w' => WithinLimit w'.db) (d.run cfg) w from
    (halone.runs hrun).2
  cases d with
  | order username req =>
      exact alone_done ((alone_filed_createPayment username req).mono (fun _ _ h => h)
        fun _ _ h => h.2.shrinks.withinLimit hlimit)
  | orderPlatega username req =>
      exact alone_done ((alone_filed_createPaymentPlatega username req).mono (fun _ _ h => h)
        fun _ _ h => h.2.shrinks.withinLimit hlimit)
  | confirm payment =>
      refine alone_done ((alone_confirm_at hpossible).mono (fun _ _ h => h) ?_)
      rintro r w' ⟨-, hdb | ⟨user, hsold⟩⟩
      · rw [hdb]
        exact hlimit
      · have hid : user.id = payment.userId := by
          obtain ⟨_, _, _, -, -, hid, -⟩ := hsold
          exact hid
        refine hsold.withinLimit ?_ hlimit
        rw [hid]
        exact hfits
  | grant username plan =>
      refine alone_done ((alone_grant_at username plan).mono (fun _ _ h => h) ?_)
      rintro r w' ⟨-, hfiled | ⟨user, p, ⟨hname, hactive, hknown, hplan⟩, hsold⟩⟩
      · exact hfiled.shrinks.withinLimit hlimit
      · have hmem : user ∈ w.db.users.rows := by
          obtain ⟨db₁, _, _, hfiled, -, -, hu, -⟩ := hsold
          rw [hfiled.rest] at hu
          exact (Table.mem_of_find hu).1
        refine hsold.withinLimit ?_ hlimit
        rw [hplan]
        exact hfits hknown user hmem hname hactive
  | addConfig username req =>
      refine alone_done ((alone_addConfig username req).mono (fun _ _ h => h) ?_)
      rintro r w' ⟨-, hdb | hadds⟩
      · rw [hdb]
        exact hlimit
      · exact hadds.withinLimit hlimit
  | deleteConfig username id =>
      refine alone_done ((alone_deleteConfig username id).mono (fun _ _ h => h) ?_)
      rintro r w' ⟨-, hdb | hdrops⟩
      · rw [hdb]
        exact hlimit
      · exact hdrops.shrinks.withinLimit hlimit
  | hourlyJob =>
      exact alone_hourlyJob_shrinks.mono (fun _ _ h => h) fun _ _ h => h.withinLimit hlimit

end

/-- **The device limit along a run.** From a database without devices, if every
plan that is confirmed or granted has room for what the account then holds, no
account ever has more devices in a location than its plan allows. -/
theorem within_limit_of_fits (cfg : Settings) {w₀ w : World} {log : List (World × Deal)}
    (hempty : w₀.db.configs.rows = []) (h : Deals cfg w₀ log w)
    (hfits : ∀ e ∈ log, e.2.Fits e.1.db) (n : ℕ) (u : User) (hu : w.db.users.find n = some u)
    (location : String) : deviceCount w.db n location ≤ configLimit u.plan := by
  suffices hlimit : WithinLimit w.db from hlimit n u hu location
  clear hu
  induction h with
  | nil =>
      intro n u _ location
      rw [deviceCount_eq_countP, hempty]
      exact Nat.zero_le _
  | step _ hpossible hrun ih =>
      obtain ⟨hold, hlast⟩ := List.forall_mem_append.mp hfits
      exact Deal.withinLimit hpossible (hlast _ (List.mem_singleton.mpr rfl)) (ih hold) hrun

/-! ### An order opened before the devices came -/

/-- One account that may order. -/
def oneBuyer : World where
  db := { users := ⟨[{ id := 0, username := "ann", telegramId := some 7 }], 1, by decide, by decide⟩ }

/-- Keys are made, the node takes the peer and the gateway the order. -/
def serving : Input where
  keys := some ("K", "P")
  created := .ok (.obj [])
  add := fun _ _ => (.ok, {})

/-- A deal with these inputs. -/
def Deal.play (d : Deal) (w : World) : World := (Proc.play serving (d.run {}) w).2

lemma Deals.play {w₀ w : World} {log : List (World × Deal)} (h : Deals {} w₀ log w) (d : Deal)
    (hd : d.Possible w.db) : Deals {} w₀ (log ++ [(w, d)]) (d.play w) :=
  .step h hd (Proc.runs_play (fun _ => trivial) _ _)

/-- The large plan is ordered and paid, the small one is ordered. -/
def largeOrder : Payment := { id := 0, userId := 0, plan := "ext-1m", amount := 650 }
def smallOrder : Payment := { id := 1, userId := 0, plan := "basic-1m", amount := 350 }
def largeOpen : World := (Deal.order "ann" { plan := "ext-1m" }).play oneBuyer
def largePaid : World := (Deal.confirm largeOrder).play largeOpen
def smallOpen : World := (Deal.order "ann" { plan := "basic-1m" }).play largePaid

/-- Two more devices are added. -/
def twoHeld : World := (Deal.addConfig "ann" {}).play smallOpen
def threeHeld : World := (Deal.addConfig "ann" {}).play twoHeld

/-- The small plan is paid. -/
def smallPaid : World := (Deal.confirm smallOrder).play threeHeld

/-- The run up to the second payment. -/
def threeHeldLog : List (World × Deal) :=
  [(oneBuyer, .order "ann" { plan := "ext-1m" }), (largeOpen, .confirm largeOrder),
    (largePaid, .order "ann" { plan := "basic-1m" }), (smallOpen, .addConfig "ann" {}),
    (twoHeld, .addConfig "ann" {})]

lemma openOrder_largeOpen : OpenOrder largeOpen.db largeOrder := by
  unfold OpenOrder
  decide

lemma openOrder_threeHeld : OpenOrder threeHeld.db smallOrder := by
  unfold OpenOrder
  decide

lemma deals_threeHeld : Deals {} oneBuyer threeHeldLog threeHeld := by
  have h₀ : Deals {} oneBuyer [] oneBuyer := .nil
  have h₁ := h₀.play (.order "ann" { plan := "ext-1m" }) trivial
  have h₂ := h₁.play (.confirm largeOrder) openOrder_largeOpen
  have h₃ := h₂.play (.order "ann" { plan := "basic-1m" }) trivial
  have h₄ := h₃.play (.addConfig "ann" {}) trivial
  exact h₄.play (.addConfig "ann" {}) trivial

/-- Before the second payment every plan had room. -/
theorem within_limit_of_fits_threeHeld :
    deviceCount threeHeld.db 0 "de" = 3
      ∧ ∀ u, threeHeld.db.users.find 0 = some u →
        deviceCount threeHeld.db 0 "de" ≤ configLimit u.plan := by
  refine ⟨by decide, fun u hu => ?_⟩
  refine within_limit_of_fits {} rfl deals_threeHeld (fun e he => ?_) 0 u hu "de"
  have hempty : fullestLocation largeOpen.db 0 = 0 := by decide
  simp only [threeHeldLog, List.mem_cons, List.not_mem_nil, or_false] at he
  rcases he with rfl | rfl | rfl | rfl | rfl
  · trivial
  · intro info _
    calc fullestLocation largeOpen.db 0
        = 0 := hempty
      _ ≤ info.configs := Nat.zero_le _
  · trivial
  · trivial
  · trivial

/-- **More devices than the plan allows.** The order of the small plan was opened
while one device was held; when it is paid three are, and the account then has
three devices on a plan for two. -/
theorem limit_exceeded_by_old_order :
    oneBuyer.db.configs.rows = []
      ∧ Deals {} oneBuyer (threeHeldLog ++ [(threeHeld, .confirm smallOrder)]) smallPaid
      ∧ (smallPaid.db.users.find 0).map User.plan = some (some "basic-1m")
      ∧ configLimit (some "basic-1m") = 2 ∧ deviceCount smallPaid.db 0 "de" = 3 := by
  refine ⟨rfl, deals_threeHeld.play _ openOrder_threeHeld, ?_, ?_, ?_⟩
  · decide
  · decide
  · decide

end VpnPortal
