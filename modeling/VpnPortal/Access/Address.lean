/-
The address recorded on the account.

`users.peer_ip` is a copy of the address of one device. Issuing the first device
writes it and `delete_config` moves it on, but the sweeps and the end of a trial
inside an activation switch devices off without looking at it. So it stays a
live address exactly as long as none of these takes off the last device that
holds it.

* `AddressesLive`, `AddressesLive.of_kept`: a recorded address is that of an active
  device of the account, and stays one where some device stays at it;
* `DeviceOp`, `DeviceOp.takes`, `DeviceOp.Spares`: the operations, the devices each
  takes off, and when it leaves one at every recorded address it takes from;
* `address_live_of_spares`: **the addresses are live** in every state of a run whose
  operations all spare them; `address_kept_after_expiry`: a sweep that does not.
-/
import VpnPortal.Access.Limit

namespace VpnPortal

open Sessions Tables

/-! ### Live addresses -/

/-- The address of the account, if it has one, is that of an active device of
its own. -/
def User.AddressLive (configs : List Config) (u : User) : Prop :=
  ∀ a ∈ u.peerIp, ∃ c ∈ heldBy configs u.id, c.peerIp = a

/-- So for every account. -/
def AddressesLive (db : Db) : Prop := ∀ u ∈ db.users.rows, u.AddressLive db.configs.rows

/-- The addresses stay, and each is still held by some device. -/
lemma AddressesLive.of_kept {db db' : Db} (h : AddressesLive db)
    (husers : ∀ u' ∈ db'.users.rows, ∃ u ∈ db.users.rows, u'.id = u.id ∧ u'.peerIp = u.peerIp)
    (hheld : ∀ u ∈ db.users.rows, ∀ c ∈ heldBy db.configs.rows u.id, u.peerIp = some c.peerIp →
      ∃ c' ∈ heldBy db'.configs.rows u.id, c'.peerIp = c.peerIp) : AddressesLive db' := by
  intro u' hu' a ha
  obtain ⟨u, hu, hid, hip⟩ := husers u' hu'
  rw [hip] at ha
  obtain ⟨c, hc, rfl⟩ := h u hu a ha
  rw [hid]
  exact hheld u hu c hc ha

lemma mem_heldBy {configs : List Config} {n : ℕ} {c : Config} :
    c ∈ heldBy configs n ↔ c ∈ configs ∧ c.userId = n ∧ c.isActive = true := by
  simp [heldBy]

lemma mem_saveAccount {users : Table User} {user new u' : User} :
    u' ∈ (saveAccount users user new).rows ↔
      (u' ∈ users.rows ∧ u'.id ≠ user.id)
        ∨ ∃ u, users.find user.id = some u ∧ u' = User.merge user new u :=
  Table.mem_update

/-- Saving an account whose address did not change. -/
lemma addresses_of_save {users : Table User} {user new : User} (hip : new.peerIp = user.peerIp)
    {u' : User} (hu' : u' ∈ (saveAccount users user new).rows) :
    ∃ u ∈ users.rows, u'.id = u.id ∧ u'.peerIp = u.peerIp := by
  rcases mem_saveAccount.mp hu' with ⟨hu, -⟩ | ⟨u, hu, rfl⟩
  · exact ⟨u', hu, rfl, rfl⟩
  · exact ⟨u, (Table.mem_of_find hu).1, rfl, by simp [User.merge, hip]⟩

/-- A device that the switched off ones leave. -/
lemma held_of_not_off {configs configs' : List Config} {p : Config → Bool} {n : ℕ} {c : Config}
    (hrows : configs' = configs.map fun c => if p c then c.off else c)
    (hc : c ∈ heldBy configs n) (hp : p c = false) : c ∈ heldBy configs' n := by
  obtain ⟨hrow, hown⟩ := mem_heldBy.mp hc
  refine mem_heldBy.mpr ⟨?_, hown⟩
  rw [hrows]
  exact List.mem_map.mpr ⟨c, hrow, by rw [hp]; rfl⟩

/-! ### The operations -/

/-- The operations on an account's devices; a sweep is given its moment. -/
inductive DeviceOp where
  | activate (payment : Payment)
  | startTrial (username ip : String)
  | addConfig (username : String) (req : NewConfigRequest)
  | deleteConfig (username : String) (id : ℕ)
  | expireDueSubscriptions (t : Time)
  | expireDueTrials (t : Time)

/-- The program of an operation. -/
def DeviceOp.run (cfg : Settings) : DeviceOp → Portal Unit
  | .activate payment => do
      let _ ← activateOrder cfg payment
      pure ()
  | .startTrial username ip => do
      let _ ← VpnPortal.startTrial cfg username ip
      pure ()
  | .addConfig username req => do
      let _ ← VpnPortal.addConfig cfg username req
      pure ()
  | .deleteConfig username id => do
      let _ ← VpnPortal.deleteConfig cfg username id
      pure ()
  | .expireDueSubscriptions t => do
      let _ ← VpnPortal.expireDueSubscriptions cfg t
      pure ()
  | .expireDueTrials t => do
      let _ ← VpnPortal.expireDueTrials cfg t
      pure ()

/-- During one operation the nodes answer removals by `ans`; everything else from
outside is left open. -/
def RemovalsBy (ans : String → Config → Reply) (_ : World) (i : Input) : Prop :=
  ∀ host c, (i.del host c).1 = ans host c

/-- Operations one after another, each logged with the world before it and the
answers of the nodes. -/
inductive DeviceRun (cfg : Settings) (w₀ : World) :
    List (World × DeviceOp × (String → Config → Reply)) → World → Prop where
  | nil : DeviceRun cfg w₀ [] w₀
  | step {log : List (World × DeviceOp × (String → Config → Reply))} {w w' : World}
      {op : DeviceOp} {ans : String → Config → Reply} {r : Except Exn Unit} :
      DeviceRun cfg w₀ log w → Proc.Runs (RemovalsBy ans) (op.run cfg) w r w' →
      DeviceRun cfg w₀ (log ++ [(w, op, ans)]) w'

/-- The devices that an operation takes off although somebody's address may
depend on them: the trial devices of a renewed account, the devices of ended
periods, those of ended trials. Only a confirmed removal counts. -/
def DeviceOp.takes (cfg : Settings) (ans : String → Config → Reply) (db : Db) :
    DeviceOp → Config → Bool
  | .activate payment, c => (planInfo (some payment.plan)).isSome
      && !(paidDevices db payment.userId).isEmpty && decide (c ∈ heldBy db.configs.rows payment.userId)
      && decide (c.kind = .trial) && decide (ans cfg.bridgeIp c = .ok)
  | .expireDueSubscriptions t, c => paidDue db t c && confirmed (replyFor cfg ans) c
  | .expireDueTrials t, c => trialDue db t c && confirmed (replyFor cfg ans) c
  | _, _ => false

/-- A removal raises, and the sweep ends without its commit. -/
def DeviceOp.Raises (cfg : Settings) (ans : String → Config → Reply) (db : Db) : DeviceOp → Prop
  | .expireDueSubscriptions t => ∃ c ∈ db.configs.rows, paidDue db t c = true
      ∧ replyFor cfg ans c = .raised
  | .expireDueTrials t => ∃ c ∈ db.configs.rows, trialDue db t c = true
      ∧ replyFor cfg ans c = .raised
  | _ => False

/-- Of the devices at the address of an account, an operation that takes one
leaves another. -/
def DeviceOp.Spares (cfg : Settings) (ans : String → Config → Reply) (db : Db)
    (op : DeviceOp) : Prop :=
  op.Raises cfg ans db ∨ ∀ u ∈ db.users.rows, ∀ c ∈ heldBy db.configs.rows u.id,
    u.peerIp = some c.peerIp → op.takes cfg ans db c = true →
    ∃ c' ∈ heldBy db.configs.rows u.id, c'.peerIp = c.peerIp ∧ op.takes cfg ans db c' = false

/-- What is left at the address of an account. -/
lemma DeviceOp.Spares.exists_left {cfg : Settings} {ans : String → Config → Reply} {db : Db}
    {op : DeviceOp} (h : op.Spares cfg ans db) (hraises : ¬ op.Raises cfg ans db) {u : User}
    (hu : u ∈ db.users.rows) {c : Config} (hc : c ∈ heldBy db.configs.rows u.id)
    (hip : u.peerIp = some c.peerIp) :
    ∃ c' ∈ heldBy db.configs.rows u.id, c'.peerIp = c.peerIp ∧ op.takes cfg ans db c' = false := by
  cases htakes : op.takes cfg ans db c with
  | false => exact ⟨c, hc, rfl, htakes⟩
  | true => exact h.resolve_left hraises u hu c hc hip htakes

/-! ### What each operation does to the addresses -/

/-- A device more takes nobody's address away. -/
lemma held_insert {configs : Table Config} {device : Config} {n : ℕ} {c : Config}
    (hc : c ∈ heldBy configs.rows n) :
    c ∈ heldBy (configs.insert (fun k => { device with id := k }) device.num_withId).rows n := by
  obtain ⟨hrow, hown⟩ := mem_heldBy.mp hc
  refine mem_heldBy.mpr ⟨?_, hown⟩
  rw [Table.rows_insert]
  exact List.mem_append_left _ hrow

lemma StartsTrial.addressesLive {cfg : Settings} {t : Time} {db db' : Db}
    (h : StartsTrial cfg t db db') (hlive : AddressesLive db) : AddressesLive db' := by
  obtain ⟨user, device, norm, ip, began, -, -, -, rfl⟩ := h
  have hip : ({ user with trialUntil := some (trialEnd cfg t) } : User).peerIp = user.peerIp := rfl
  refine hlive.of_kept (fun u' hu' => addresses_of_save hip hu') fun u _ c hc _ => ?_
  exact ⟨c, held_insert hc, rfl⟩

lemma AddsDevice.addressesLive {t : Time} {db db' : Db} (h : AddsDevice t db db')
    (hlive : AddressesLive db) : AddressesLive db' := by
  obtain ⟨user, device, -, -, -, -, rfl⟩ := h
  refine hlive.of_kept (fun u' hu' => ⟨u', hu', rfl, rfl⟩) fun u _ c hc _ => ?_
  exact ⟨c, held_insert hc, rfl⟩

/-- A device of the account that is not the dropped one. -/
lemma held_of_dropped {db : Db} {device : Config} {n : ℕ} {c : Config}
    (hc : c ∈ heldBy db.configs.rows n) (hne : c.id ≠ device.id) :
    c ∈ heldBy (db.deactivate device.id).configs.rows n := by
  refine held_of_not_off (p := fun c => decide (c.id ∈ [device.id])) ?_ hc (by simpa using hne)
  exact (rows_foldl_switchOff [device.id] db.configs).trans (by simp)

/-- `delete_config` moves the address on to a device that is left, and leaves an
address alone that is not the dropped one's. -/
lemma DropsOwnDevice.addressesLive {t : Time} {db db' : Db} (h : DropsOwnDevice t db db')
    (hlive : AddressesLive db) : AddressesLive db' := by
  obtain ⟨user, device, hu, hdevice, rfl⟩ := h
  obtain ⟨hrow, howner, -⟩ := mem_heldBy.mp hdevice
  intro u' hu' a ha
  rcases mem_saveAccount.mp hu' with ⟨hold, hne⟩ | ⟨u, hfind, rfl⟩
  · -- somebody else's devices are not touched
    obtain ⟨c, hc, hip⟩ := hlive u' hold a ha
    refine ⟨c, held_of_dropped hc fun hid => hne ?_, hip⟩
    obtain ⟨hcrow, hcowner, -⟩ := mem_heldBy.mp hc
    obtain rfl := Table.eq_of_num_eq hcrow hrow hid
    exact hcowner.symm.trans howner
  · obtain rfl := Option.some.inj (hu.symm.trans hfind)
    have hmerge : (User.merge user (afterRemoval user device
        ((heldBy db.configs.rows user.id).reverse.filter fun c => c.id ≠ device.id)) user).peerIp
        = (afterRemoval user device
          ((heldBy db.configs.rows user.id).reverse.filter fun c => c.id ≠ device.id)).peerIp :=
      column_self _ _
    rw [hmerge] at ha
    unfold afterRemoval at ha
    split at ha
    · obtain ⟨c, hhead, rfl⟩ := Option.map_eq_some_iff.mp ha
      obtain ⟨hc, hid⟩ := List.mem_filter.mp (List.mem_of_head? hhead)
      exact ⟨c, held_of_dropped (List.mem_reverse.mp hc) (of_decide_eq_true hid), rfl⟩
    · rename_i hother
      obtain ⟨c, hc, rfl⟩ := hlive user (Table.mem_of_find hu).1 a ha
      refine ⟨c, held_of_dropped hc fun hid => hother ?_, rfl⟩
      rw [← Table.eq_of_num_eq (mem_heldBy.mp hc).1 hrow hid]
      exact ha

/-- Accounts keep their addresses and some devices are switched off. -/
lemma AddressesLive.of_off {db db' : Db} {p : Config → Bool} (hlive : AddressesLive db)
    (husers : ∀ u' ∈ db'.users.rows, ∃ u ∈ db.users.rows, u'.id = u.id ∧ u'.peerIp = u.peerIp)
    (hrows : db'.configs.rows = db.configs.rows.map fun c => if p c then c.off else c)
    (hleft : ∀ u ∈ db.users.rows, ∀ c ∈ heldBy db.configs.rows u.id, u.peerIp = some c.peerIp →
      ∃ c' ∈ heldBy db.configs.rows u.id, c'.peerIp = c.peerIp ∧ p c' = false) :
    AddressesLive db' := by
  refine hlive.of_kept husers fun u hu c hc hip => ?_
  obtain ⟨c', hc', hsame, hp⟩ := hleft u hu c hc hip
  exact ⟨c', held_of_not_off hrows hc' hp, hsame⟩

lemma SubsEffect.addressesLive {reply : Config → Reply} {t : Time} {db db' : Db}
    {stats : SweepStats} (h : SubsEffect reply t db stats db') (hlive : AddressesLive db)
    (hleft : ∀ u ∈ db.users.rows, ∀ c ∈ heldBy db.configs.rows u.id, u.peerIp = some c.peerIp →
      ∃ c' ∈ heldBy db.configs.rows u.id, c'.peerIp = c.peerIp
        ∧ (paidDue db t c' && confirmed reply c') = false) : AddressesLive db' := by
  refine hlive.of_off (fun u' hu' => ?_) h.devices hleft
  rw [h.accounts] at hu'
  obtain ⟨u, hu, rfl⟩ := List.mem_map.mp hu'
  refine ⟨u, hu, ?_⟩
  split <;> exact ⟨rfl, rfl⟩

lemma TrialsEffect.addressesLive {reply : Config → Reply} {t : Time} {db db' : Db}
    {stats : TrialStats} (h : TrialsEffect reply t db stats db') (hlive : AddressesLive db)
    (hleft : ∀ u ∈ db.users.rows, ∀ c ∈ heldBy db.configs.rows u.id, u.peerIp = some c.peerIp →
      ∃ c' ∈ heldBy db.configs.rows u.id, c'.peerIp = c.peerIp
        ∧ (trialDue db t c' && confirmed reply c') = false) : AddressesLive db' := by
  refine hlive.of_off (fun u' hu' => ?_) h.devices hleft
  rw [h.rest] at hu'
  exact ⟨u', hu', rfl, rfl⟩

/-! ### An activation -/

/-- The address after an activation: that of the device it issued, if it did. -/
lemma Activation.Drawn.peerIp_eq {b : Books} {user : User} {payment : Payment} {a : Activation}
    (h : a.Drawn b user payment) :
    a.new.peerIp = match a.device with
      | none => user.peerIp
      | some c => some c.peerIp := by
  obtain ⟨info, -, hnew⟩ := h.new_eq
  rw [hnew]
  unfold closeTrial
  split <;> rfl

/-- The trial devices of an account whose removal the node confirms. -/
def confirmedTrials (cfg : Settings) (ans : String → Config → Reply) (db : Db) (n : ℕ) : List ℕ :=
  (((heldBy db.configs.rows n).filter fun c => c.kind = .trial).filter
    fun c => ans cfg.bridgeIp c = .ok).map Config.id

lemma confirmsOnly_confirmedTrials {cfg : Settings} {ans : String → Config → Reply} (db : Db)
    (n : ℕ) : ConfirmsOnly (RemovalsBy ans) cfg
      ((heldBy db.configs.rows n).filter fun c => c.kind = .trial) (confirmedTrials cfg ans db n) := by
  intro s i hi c hc hok
  rw [hi] at hok
  exact List.mem_map_of_mem (List.mem_filter.mpr ⟨hc, decide_eq_true hok⟩)

section

variable {cfg : Settings} {ans : String → Config → Reply} {db : Db}

/-- A row with the number of a confirmed trial device is that device. -/
lemma mem_confirmedTrials {n : ℕ} {c : Config} (hc : c ∈ db.configs.rows) :
    c.id ∈ confirmedTrials cfg ans db n ↔
      c ∈ heldBy db.configs.rows n ∧ c.kind = .trial ∧ ans cfg.bridgeIp c = .ok := by
  unfold confirmedTrials
  simp only [List.mem_map, List.mem_filter, decide_eq_true_eq]
  constructor
  · rintro ⟨x, ⟨⟨hx, hkind⟩, hok⟩, hid⟩
    obtain rfl := Table.eq_of_num_eq (mem_heldBy.mp hx).1 hc hid
    exact ⟨hx, hkind, hok⟩
  · rintro ⟨hheld, hkind, hok⟩
    exact ⟨c, ⟨⟨hheld, hkind⟩, hok⟩, rfl⟩

/-- A renewal leaves the address alone; a first purchase moves it to the new
device, which is not one of the trial's. -/
lemma activation_addressesLive {db' : Db} {user : User} {payment : Payment} {a : Activation}
    (hid : user.id = payment.userId) (hu : db.users.find user.id = some user)
    (ha : a.Drawn db.books user payment)
    (hfirst : a.device ≠ none ↔ paidDevices db user.id = [])
    (hoff : SwitchesOff (confirmedTrials cfg ans db user.id) (a.write db) db')
    (hlive : AddressesLive db)
    (hleft : ∀ u ∈ db.users.rows, ∀ c ∈ heldBy db.configs.rows u.id, u.peerIp = some c.peerIp →
      ∃ c' ∈ heldBy db.configs.rows u.id, c'.peerIp = c.peerIp
        ∧ (DeviceOp.activate payment).takes cfg ans db c' = false) : AddressesLive db' := by
  obtain ⟨off, hsub, rfl⟩ := hoff
  rw [Db.foldl_deactivate, Activation.write_eq, ha.old_eq]
  have hrows := rows_foldl_switchOff off (a.addDevice db.configs)
  have hip := ha.peerIp_eq
  cases hdevice : a.device with
  | none =>
      rw [hdevice] at hip
      have hadd : a.addDevice db.configs = db.configs := by
        unfold Activation.addDevice
        rw [hdevice]
      rw [hadd] at hrows ⊢
      have hrenewed : paidDevices db user.id ≠ [] := fun h => hfirst.mpr h hdevice
      refine hlive.of_off (p := fun c => decide (c.id ∈ off))
        (fun u' hu' => addresses_of_save hip hu') (by simpa using hrows) ?_
      intro u hrow c hc hsame
      obtain ⟨c', hc', hsame', htakes⟩ := hleft u hrow c hc hsame
      refine ⟨c', hc', hsame', decide_eq_false fun hmem => ?_⟩
      obtain ⟨hheld, hkind, hok⟩ := (mem_confirmedTrials (mem_heldBy.mp hc').1).mp (hsub _ hmem)
      obtain ⟨info, hinfo, -⟩ := ha.new_eq
      rw [hid] at hheld hrenewed
      simp [DeviceOp.takes, hinfo, hrenewed, hheld, hkind, hok] at htakes
  | some d =>
      rw [hdevice] at hip
      obtain ⟨hown, -, hactive⟩ := ha.device_for d hdevice
      have hadd : (a.addDevice db.configs).rows
          = db.configs.rows ++ [{ d with id := db.configs.next }] := by
        unfold Activation.addDevice
        rw [hdevice]
        rfl
      have hkept : ∀ (n : ℕ) (c : Config), c ∈ (a.addDevice db.configs).rows → c.userId = n →
          c.isActive = true → c.id ∉ off →
          c ∈ heldBy (off.foldl switchOff (a.addDevice db.configs)).rows n := by
        intro n c hc howner hact hnot
        refine held_of_not_off (p := fun c => decide (c.id ∈ off)) (by simpa using hrows)
          (mem_heldBy.mpr ⟨hc, howner, hact⟩) (decide_eq_false hnot)
      intro u' hu' address haddress
      rcases mem_saveAccount.mp hu' with ⟨hold, hne⟩ | ⟨u, hfind, rfl⟩
      · -- the confirmed trial devices are all of the account that bought
        obtain ⟨c, hc, rfl⟩ := hlive u' hold address haddress
        obtain ⟨hcrow, hcown, hcact⟩ := mem_heldBy.mp hc
        refine ⟨c, hkept u'.id c ?_ hcown hcact fun hmem => hne ?_, rfl⟩
        · rw [hadd]
          exact List.mem_append_left _ hcrow
        · have hheld := ((mem_confirmedTrials hcrow).mp (hsub _ hmem)).1
          exact hcown.symm.trans (mem_heldBy.mp hheld).2.1
      · obtain rfl := Option.some.inj (hu.symm.trans hfind)
        rw [ha.merge_eq, hip] at haddress
        obtain rfl := Option.some.inj haddress
        refine ⟨{ d with id := db.configs.next }, hkept _ _ ?_ hown hactive fun hmem => ?_, rfl⟩
        · rw [hadd]
          exact List.mem_append_right _ (List.mem_singleton.mpr rfl)
        · -- its number is a new one
          obtain ⟨x, hx, hxid⟩ := List.mem_map.mp (hsub _ hmem)
          have hxrow := (mem_heldBy.mp (List.mem_filter.mp (List.mem_filter.mp hx).1).1).1
          have hlt := Table.lt_next_of_find (Table.find_of_mem hxrow)
          rw [num_config, hxid] at hlt
          exact absurd hlt (lt_irrefl _)

/-! ### Runs -/

/-- Nodes that answer removals by `ans`. -/
lemma nodes_removalsBy (base : ℕ → ℕ) : Nodes (RemovalsBy ans) cfg db base (fun _ => True)
    fun c r => r = replyFor cfg ans c where
  outbox _ _ _ := trivial
  missing _ c _ _ _ _ _ hloc := by
    refine ⟨trivial, ?_⟩
    rw [replyFor, hloc]
  call _ _ c loc _ _ _ _ _ hloc hi := by
    refine ⟨trivial, ?_⟩
    rw [hi, replyFor, hloc]

/-- A sweep ends without its commit, or no removal raised and the answers are
those of the nodes. -/
lemma SweepEnd.db_or {α : Type} {due : Config → Bool} {E : (Config → Reply) → α → Db → Prop}
    {w w' : World} {r : Except Exn α}
    (h : SweepEnd (fun _ => True) (fun c r => r = replyFor cfg ans c) due E w r w') :
    w'.db = w.db ∨ (¬ (∃ c ∈ w.db.configs.rows, due c = true ∧ replyFor cfg ans c = .raised)
      ∧ ∃ stats, E (replyFor cfg ans) stats w'.db) := by
  obtain ⟨-, -, ⟨-, -, hdb⟩ | ⟨-, reply, stats, hok, -, hE⟩⟩ := h
  · exact Or.inl hdb
  · refine Or.inr ⟨?_, stats, hE _ fun c hc hdue => (hok c hc hdue).1.symm⟩
    rintro ⟨c, hc, hdue, hraised⟩
    obtain ⟨hanswer, hne⟩ := hok c hc hdue
    exact hne (hanswer.trans hraised)

/-- **The step lemma.** An operation that spares the addresses keeps them live. -/
lemma DeviceOp.addressesLive {op : DeviceOp} {w w' : World} {r : Except Exn Unit}
    (hspares : op.Spares cfg ans w.db) (hlive : AddressesLive w.db)
    (hrun : Proc.Runs (RemovalsBy ans) (op.run cfg) w r w') : AddressesLive w'.db := by
  suffices halone : Proc.Alone (RemovalsBy ans) (fun _ _ => True)
      (fun _ w' => AddressesLive w'.db) (op.run cfg) w from (halone.runs hrun).2
  have hsame : ∀ w₁ : World, w₁.db = w.db → AddressesLive w₁.db := fun w₁ hdb => hdb ▸ hlive
  cases op with
  | activate payment =>
      refine alone_done (Proc.Alone.look trivial ?_)
      dsimp only
      cases hu : w.db.users.find payment.userId with
      | none => exact hlive
      | some user =>
          have hid : user.id = payment.userId := (Table.mem_of_find hu).2
          have hafter : ∀ (ok : Except Exn Bool) (w₁ : World), (w.clock ≤ w₁.clock
              ∧ ((ok ≠ .ok true ∧ w₁.db = w.db) ∨ (ok = .ok true ∧ ∃ a : Activation,
                a.Drawn w.db.books user payment ∧ (a.device ≠ none ↔ paidDevices w.db user.id = [])
                ∧ a.at_ = w₁.clock
                ∧ SwitchesOff (confirmedTrials cfg ans w.db user.id) (a.write w.db) w₁.db))) →
              AddressesLive w₁.db := by
            rintro ok w₁ ⟨-, ⟨-, hdb⟩ | ⟨-, a, ha, hfirst, -, hoff⟩⟩
            · exact hsame w₁ hdb
            · refine activation_addressesLive hid (by rw [hid]; exact hu) ha hfirst hoff hlive ?_
              intro u hrow c hc hip
              exact hspares.exists_left (fun h => h) hrow hc hip
          exact (alone_activatePayment_off user payment (confirmsOnly_confirmedTrials _ _)).bind
            (fun ok w₁ h => hafter _ w₁ h) fun e w₁ h => hafter _ w₁ h
  | startTrial username ip =>
      refine alone_done ((alone_startTrial username ip).mono (fun _ _ h => h) ?_)
      rintro r w₁ ⟨-, hdb | hstarts⟩
      · exact hsame w₁ hdb
      · exact hstarts.addressesLive hlive
  | addConfig username req =>
      refine alone_done ((alone_addConfig username req).mono (fun _ _ h => h) ?_)
      rintro r w₁ ⟨-, hdb | hadds⟩
      · exact hsame w₁ hdb
      · exact hadds.addressesLive hlive
  | deleteConfig username id =>
      refine alone_done ((alone_deleteConfig_own username id).mono (fun _ _ h => h) ?_)
      rintro r w₁ ⟨-, hdb | hdrops⟩
      · exact hsame w₁ hdb
      · exact hdrops.addressesLive hlive
  | expireDueSubscriptions t =>
      refine alone_done ((alone_expireDueSubscriptions (nodes_removalsBy _) trivial t).mono
        (fun _ _ h => h) fun r w₁ h => ?_)
      rcases h.db_or with hdb | ⟨hquiet, stats, heffect⟩
      · exact hsame w₁ hdb
      · exact heffect.addressesLive hlive fun u hu c hc hip =>
          hspares.exists_left hquiet hu hc hip
  | expireDueTrials t =>
      refine alone_done ((alone_expireDueTrials (nodes_removalsBy _) trivial t).mono
        (fun _ _ h => h) fun r w₁ h => ?_)
      rcases h.db_or with hdb | ⟨hquiet, stats, heffect⟩
      · exact hsame w₁ hdb
      · exact heffect.addressesLive hlive fun u hu c hc hip =>
          hspares.exists_left hquiet hu hc hip

end

/-- **The address on the account is a live one** in every state of a run that
starts with live addresses, if each operation spares them: of the active devices
at the recorded address, one that is taken off with the node's consent leaves
another. -/
theorem address_live_of_spares (cfg : Settings) {w₀ w : World}
    {log : List (World × DeviceOp × (String → Config → Reply))} (h₀ : AddressesLive w₀.db)
    (h : DeviceRun cfg w₀ log w) (hspares : ∀ e ∈ log, e.2.1.Spares cfg e.2.2 e.1.db) :
    AddressesLive w.db := by
  induction h with
  | nil => exact h₀
  | step _ hrun ih =>
      obtain ⟨hold, hlast⟩ := List.forall_mem_append.mp hspares
      exact DeviceOp.addressesLive (hlast _ (List.mem_singleton.mpr rfl)) (ih hold) hrun

/-! ### A period that ends -/

/-- Keys are made, the node takes a peer, and answers every removal alike. -/
def answering (reply : Reply) : Input where
  keys := some ("K", "P")
  add := fun _ _ => (.ok, {})
  del := fun _ _ => (reply, {})

/-- An operation with these inputs. -/
def DeviceOp.play (reply : Reply) (op : DeviceOp) (w : World) : World :=
  (Proc.play (answering reply) (op.run {}) w).2

lemma DeviceRun.play {w₀ w : World} {log : List (World × DeviceOp × (String → Config → Reply))}
    (h : DeviceRun {} w₀ log w) (reply : Reply) (op : DeviceOp) :
    DeviceRun {} w₀ (log ++ [(w, op, fun _ _ => reply)]) (op.play reply w) :=
  .step h (Proc.runs_play (fun _ _ _ => rfl) _ _)

/-- The account of `oneBuyer` has bought its first month. -/
def firstMonth : World := (DeviceOp.activate smallOrder).play .ok oneBuyer

/-- Two months later. -/
def afterMonth : Time := days 60

/-- The sweep over the ended periods, by what the node answers. -/
def periodEnded (reply : Reply) : World :=
  (DeviceOp.expireDueSubscriptions afterMonth).play reply firstMonth

/-- The purchase and the sweep. -/
def endedLog (reply : Reply) : List (World × DeviceOp × (String → Config → Reply)) :=
  [(oneBuyer, .activate smallOrder, fun _ _ => .ok),
    (firstMonth, .expireDueSubscriptions afterMonth, fun _ _ => reply)]

lemma run_ended (reply : Reply) : DeviceRun {} oneBuyer (endedLog reply) (periodEnded reply) := by
  have h₀ : DeviceRun {} oneBuyer [] oneBuyer := .nil
  have h₁ := h₀.play .ok (.activate smallOrder)
  exact h₁.play reply (.expireDueSubscriptions afterMonth)

/-- The node refuses the removal: the device stays, and so does its address. -/
theorem address_live_of_spares_refused :
    (periodEnded (.refused "busy")).db.users.rows.map User.peerIp = [some "10.88.88.42"]
      ∧ AddressesLive (periodEnded (.refused "busy")).db := by
  refine ⟨by decide, ?_⟩
  refine address_live_of_spares {} ?_ (run_ended _) fun e he => ?_
  · intro u hu a ha
    rw [List.mem_singleton.mp hu] at ha
    cases ha
  · simp only [endedLog, List.mem_cons, List.not_mem_nil, or_false] at he
    rcases he with rfl | rfl
    · exact Or.inr (by decide)
    · exact Or.inr (by decide)

/-- **The address outlives the device.** The paid period ends, the node confirms
the removal of the only device, and the account still shows its address. -/
theorem address_kept_after_expiry :
    oneBuyer.db.configs.rows = [] ∧ oneBuyer.db.users.rows.map User.peerIp = [none]
      ∧ DeviceRun {} oneBuyer (endedLog .ok) (periodEnded .ok)
      ∧ (periodEnded .ok).db.users.rows.map User.peerIp = [some "10.88.88.42"]
      ∧ ¬ AddressesLive (periodEnded .ok).db := by
  refine ⟨rfl, rfl, run_ended _, by decide, fun h => ?_⟩
  have hnone : (periodEnded .ok).db.configs.rows.all fun c => !c.isActive := by decide
  obtain ⟨u, hu, hip⟩ : ∃ u ∈ (periodEnded .ok).db.users.rows, u.peerIp = some "10.88.88.42" := by
    decide
  obtain ⟨c, hc, -⟩ := h u hu _ hip
  obtain ⟨hrow, -, hactive⟩ := mem_heldBy.mp hc
  have hoff := List.all_eq_true.mp hnone c hrow
  rw [hactive] at hoff
  cases hoff

end VpnPortal
