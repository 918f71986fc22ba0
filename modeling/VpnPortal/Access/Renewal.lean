/-
A renewal beside the expiry sweep.

The sweep decides on the accounts it has loaded, spends its time on the nodes and
commits once at the end; a renewal reads the devices an account holds, issues one
if there is none, and commits. Each writes from what it has read. When the account
is changed by one of the two only, or by the second one from what the first left
behind, a period that lies ahead is flagged and has a device; when a session that
was overtaken writes as well, the sweep takes away what the renewal has sold.

* `Lineage`: where the device rows of a run come from;
* `standing`, `Fair`: an account with the devices it holds, and what a paid period
  is worth; `once_sweep`, `once_activateOrder`: each session makes one fair change of it;
* `renewal_kept`: **a renewal in turn with the sweep is kept**: a recorded end that lies
  ahead is flagged and has a device with its peer;
* `renewal_undone`: one that the sweep overtakes is left without flag, device and peer.
-/
import VpnPortal.Access.Trials
import VpnPortal.Lifecycle.Delivery
import VpnPortal.Mirror.Concurrent
import VpnPortal.Sessions.Turns

namespace VpnPortal

open Sessions Tables

/-! ### Where the rows come from -/

/-- The device rows of `s` are those of `w`, some of them switched off, and paid
devices that were issued to the account `n` since, in a location that is
configured. -/
structure Lineage (cfg : Settings) (n : ℕ) (w s : World) : Prop where
  rows : ∀ c ∈ s.db.configs.rows,
    (∃ x ∈ w.db.configs.rows, x.off = c.off ∧ (c.isActive = true → x.isActive = true))
      ∨ (w.db.configs.next ≤ c.id ∧ c.userId = n ∧ c.kind = .paid ∧ (c.hostIn cfg).isSome = true)
  next : w.db.configs.next ≤ s.db.configs.next

section Lineage

variable {cfg : Settings} {n : ℕ} {w s t : World}

lemma Config.userId_of_off {c x : Config} (h : x.off = c.off) : x.userId = c.userId := by
  simp only [Config.off, Config.mk.injEq] at h
  exact h.2.1

lemma Lineage.of_configs (h : t.db.configs = s.db.configs) : Lineage cfg n s t where
  rows c hc := Or.inl ⟨c, by rw [← h]; exact hc, rfl, id⟩
  next := by rw [h]

lemma Lineage.refl (s : World) : Lineage cfg n s s := Lineage.of_configs rfl

lemma Lineage.trans (h : Lineage cfg n w s) (h' : Lineage cfg n s t) : Lineage cfg n w t where
  rows c hc := by
    rcases h'.rows c hc with ⟨x, hx, hoff, hact⟩ | ⟨hnew, hrest⟩
    · rcases h.rows x hx with ⟨y, hy, hoff', hact'⟩ | ⟨hnew, hown, hkind, hhost⟩
      · exact Or.inl ⟨y, hy, hoff'.trans hoff, fun hc => hact' (hact hc)⟩
      · rw [(Config.eq_of_off hoff).1] at hnew
        rw [Config.userId_of_off hoff] at hown
        rw [(Config.eq_of_off hoff).2.2.1] at hkind
        rw [Config.hostIn_of_off hoff] at hhost
        exact Or.inr ⟨hnew, hown, hkind, hhost⟩
    · exact Or.inr ⟨h.next.trans hnew, hrest⟩
  next := h.next.trans h'.next

/-- Switching devices off. -/
lemma Lineage.of_off {off : List ℕ} (h : t.db.configs = off.foldl switchOff s.db.configs) :
    Lineage cfg n s t where
  rows c hc := by
    rw [h, rows_foldl_switchOff] at hc
    obtain ⟨x, hx, rfl⟩ := List.mem_map.mp hc
    refine Or.inl ⟨x, hx, ?_, fun hact => ?_⟩
    · split <;> rfl
    · split at hact
      · cases hact
      · exact hact
  next := by
    rw [h]
    exact (Table.next_foldl_update off s.db.configs).ge

/-- A device issued to the account. -/
lemma Lineage.of_addDevice {a : Activation} (h : t.db.configs = a.addDevice s.db.configs)
    (ha : ∀ c, a.device = some c → c.userId = n ∧ c.kind = .paid ∧ (c.hostIn cfg).isSome = true) :
    Lineage cfg n s t where
  rows c hc := by
    rw [h, rows_addDevice] at hc
    rcases List.mem_append.mp hc with hc | hc
    · exact Or.inl ⟨c, hc, rfl, id⟩
    · obtain ⟨x, hx, rfl⟩ := Option.map_eq_some_iff.mp (Option.mem_toList.mp hc)
      exact Or.inr ⟨le_rfl, ha x hx⟩
  next := by
    rw [h, Activation.addDevice]
    split
    · exact le_rfl
    · exact Nat.le_succ _

/-- A row keeps its owner and its kind. -/
lemma Lineage.same (h : Lineage cfg n w s) (h' : Lineage cfg n w t) {c x : Config}
    (hc : c ∈ s.db.configs.rows) (hx : x ∈ t.db.configs.rows) (hid : c.id = x.id) :
    c.userId = x.userId ∧ c.kind = x.kind := by
  have hold : ∀ {c y : Config}, y ∈ w.db.configs.rows → y.off = c.off → c.id < w.db.configs.next := by
    intro c y hy hoff
    rw [← (Config.eq_of_off hoff).1]
    exact w.db.configs.lt_next y hy
  rcases h.rows c hc with ⟨y, hy, hoff, -⟩ | ⟨hnew, hown, hkind, -⟩
  · rcases h'.rows x hx with ⟨y', hy', hoff', -⟩ | ⟨hnew', -⟩
    · have hyid : y.id = y'.id := by
        rw [(Config.eq_of_off hoff).1, (Config.eq_of_off hoff').1, hid]
      obtain rfl : y = y' := Table.eq_of_num_eq hy hy' hyid
      rw [← Config.userId_of_off hoff, ← Config.userId_of_off hoff', ← (Config.eq_of_off hoff).2.2.1,
        ← (Config.eq_of_off hoff').2.2.1]
      exact ⟨rfl, rfl⟩
    · have hlt := hold hy hoff
      omega
  · rcases h'.rows x hx with ⟨y', hy', hoff', -⟩ | ⟨-, hown', hkind', -⟩
    · have hlt := hold hy' hoff'
      omega
    · exact ⟨hown.trans hown'.symm, hkind.trans hkind'.symm⟩

/-! ### The rows of the two sessions -/

variable {J : World → Input → Prop} {α : Type}

lemma Silent.lineage {p : Portal α} (hp : Silent p) :
    Proc.Within J (Lineage cfg n) (fun _ => True) p :=
  (hp.restrict fun _ _ _ => trivial).mono (fun _ _ h => Lineage.of_configs (by rw [h.1]))
    fun _ _ => trivial

lemma lineage_expireDueSubscriptions (t : Time) :
    Proc.Within J (Lineage cfg n) (fun _ => True) (expireDueSubscriptions cfg t) := by
  refine Proc.Within.look fun s _ _ => ⟨Lineage.refl s, ?_⟩
  refine ((within_revokeUsers (P := fun _ => True) _ (fun _ _ _ _ _ _ _ => trivial) {}).mono
    (fun _ _ h => Lineage.of_configs (by rw [h.1])) fun _ h => h).bind (fun work _ => ?_)
    fun _ _ => trivial
  refine Proc.Within.change fun s _ _ => ⟨?_, Proc.Within.look fun s _ _ => ⟨Lineage.refl s, trivial⟩⟩
  have hoff : (work.write s.db).configs = work.off.foldl switchOff s.db.configs := by
    rw [SweepWork.write_eq]
  exact Lineage.of_off hoff

/-- A device an activation issues is for its account and on a node. -/
lemma hostIn_issued {location : String} {loc : Location} {c : Config}
    (hloc : cfg.getLocation location = some loc) (hc : c.location = loc.key) :
    (c.hostIn cfg).isSome = true := by
  obtain ⟨hne, hself, -⟩ := getLocation_key hloc
  rw [Config.hostIn, Config.locationKey, hc, if_neg hne, hself]
  rfl

lemma lineage_completeActivation (user : User) (payment : Payment) (info : PlanInfo)
    (trials : List Config) {device : Option Config}
    (hdevice : ∀ c, device = some c → c.userId = n ∧ c.kind = .paid ∧ (c.hostIn cfg).isSome = true)
    (t : Time) :
    Proc.Within J (Lineage cfg n) (fun _ => True)
      (completeActivation cfg user payment info trials device t) := by
  refine (silent_spendOnPayment payment).lineage.bind (fun spend _ => ?_) fun _ _ => trivial
  refine (silent_rewardForPayment payment t).lineage.bind (fun reward _ => ?_) fun _ _ => trivial
  refine (silent_applyRewardsFor _ t []).lineage.bind (fun x _ => ?_) fun _ _ => trivial
  obtain ⟨rewarded, applied, sent⟩ := x
  refine Proc.Within.change fun s _ _ => ⟨?_, ?_⟩
  · exact Lineage.of_addDevice (congrArg Db.configs (Activation.write_eq _ _)) hdevice
  · refine (within_finishActivation cfg _ _ trials).mono ?_ fun _ _ => trivial
    rintro s t ⟨-, off, -, hdb⟩
    refine Lineage.of_off (?_ : _ = off.foldl switchOff _)
    rw [hdb, Db.foldl_deactivate]

lemma lineage_activateOrder (payment : Payment) :
    Proc.Within J (Lineage cfg payment.userId) (fun _ => True) (activateOrder cfg payment) := by
  refine Proc.Within.look fun s _ _ => ⟨Lineage.refl s, ?_⟩
  dsimp only
  cases hu : s.db.users.find payment.userId with
  | none => trivial
  | some user =>
      have hid : user.id = payment.userId := (Table.mem_of_find hu).2
      refine Proc.Within.bind (C := fun _ => True) ?_ (fun _ _ => trivial) fun _ _ => trivial
      unfold activatePayment
      split
      · trivial
      refine Proc.Within.look fun s _ _ => ⟨Lineage.refl s, ?_⟩
      dsimp only
      split
      · refine ((nodesOnly_issueConfig cfg user _ _ _).mono ?_ fun _ h => h).bind ?_ fun _ _ => trivial
        · rintro s t ⟨node, rfl⟩
          exact Lineage.of_configs rfl
        · intro o ho
          cases o with
          | none => trivial
          | some c =>
              refine Proc.Within.exchange fun s i _ => ⟨Lineage.of_configs rfl, ?_⟩
              refine lineage_completeActivation _ _ _ _ (fun x hx => ?_) _
              obtain rfl := Option.some.inj hx
              obtain ⟨⟨hown, hkind, -⟩, loc, hloc, hat⟩ := ho c rfl
              exact ⟨hown.trans hid, hkind, hostIn_issued hloc hat⟩
      · refine Proc.Within.exchange fun s i _ => ⟨Lineage.of_configs rfl, ?_⟩
        exact lineage_completeActivation _ _ _ _ (fun x hx => (by cases hx)) _

end Lineage

/-! ### An account and its devices -/

/-- The row of an account and the paid devices it holds. -/
def standing (n : ℕ) (w : World) : Option User × List Config :=
  (w.db.users.find n, paidDevices w.db n)

/-- An account whose recorded end lies after `T` is flagged and holds a paid
device. -/
def Fair (T : Time) (d : Option User × List Config) : Prop :=
  ∀ u, d.1 = some u → u.subscribedUntil.any (T < ·) = true → u.isSubscribed = true ∧ d.2 ≠ []

section Standing

variable {cfg : Settings} {n : ℕ} {w s t : World} {T : Time}

lemma mem_paidDevices {db : Db} {c : Config} :
    c ∈ paidDevices db n
      ↔ c ∈ db.configs.rows ∧ c.userId = n ∧ c.isActive = true ∧ c.kind ≠ .trial := by
  simp only [paidDevices, heldBy, List.mem_filter, decide_eq_true_eq, and_assoc]

/-- Devices of others and trial devices may be switched off. -/
lemma paidDevices_switchOff {db db' : Db} {off : List ℕ}
    (hconfigs : db'.configs = off.foldl switchOff db.configs)
    (hoff : ∀ c ∈ db.configs.rows, c.id ∈ off → c.userId ≠ n ∨ c.kind = .trial) :
    paidDevices db' n = paidDevices db n := by
  rw [paidDevices, paidDevices, heldBy, heldBy, hconfigs, rows_foldl_switchOff]
  generalize db.configs.rows = rows at hoff
  induction rows with
  | nil => rfl
  | cons c rest ih =>
      have hrest := ih fun x hx => hoff x (List.mem_cons_of_mem _ hx)
      rw [List.filter_filter] at hrest ⊢
      rw [List.filter_filter] at hrest ⊢
      rw [List.map_cons, List.filter_cons, List.filter_cons, hrest]
      by_cases hid : c.id ∈ off
      · rcases hoff c List.mem_cons_self hid with hown | hkind
        · simp [hid, Config.off, hown]
        · simp [hid, Config.off, hkind]
      · rw [if_neg hid]

lemma standing_switchOff {off : List ℕ} (husers : t.db.users = s.db.users)
    (hconfigs : t.db.configs = off.foldl switchOff s.db.configs)
    (hoff : ∀ c ∈ s.db.configs.rows, c.id ∈ off → c.userId ≠ n ∨ c.kind = .trial) :
    standing n t = standing n s := by
  rw [standing, standing, husers, paidDevices_switchOff hconfigs hoff]

/-- A period that was due before `T` does not reach beyond it. -/
lemma ended_of_isDue {u : User} {t : Time} (h : u.isDue t = true) (htime : t ≤ T) :
    u.subscribedUntil.any (T < ·) = false := by
  rw [User.isDue, Bool.and_eq_true, Option.any_eq_true] at h
  obtain ⟨x, hx, hlt⟩ := h.2
  rw [hx, Option.any_some, decide_eq_false_iff_not, not_lt]
  exact (of_decide_eq_true hlt).le.trans htime

/-- Revoking touches the flag only. -/
lemma find_revoke (us : List User) (users : Table User) {u : User} (hu : users.find n = some u) :
    ∃ u', (us.foldl (fun users v => saveAccount users v { v with isSubscribed := false }) users).find n
        = some u' ∧ u'.subscribedUntil = u.subscribedUntil := by
  induction us generalizing users u with
  | nil => exact ⟨u, hu, rfl⟩
  | cons v rest ih =>
      by_cases hn : n = v.id
      · subst hn
        obtain ⟨u', hu', huntil⟩ := ih _ (find_saveAccount_self { v with isSubscribed := false } hu)
        refine ⟨u', hu', huntil.trans ?_⟩
        simp [User.merge]
      · have hsame : (saveAccount users v { v with isSubscribed := false }).find n = users.find n :=
          find_saveAccount_of_ne hn
        exact ih _ (hsame.trans hu)

/-- An account that is not on the list is not revoked. -/
lemma find_revoke_of_notMem (us : List User) (users : Table User) (h : ∀ u ∈ us, u.id ≠ n) :
    (us.foldl (fun users v => saveAccount users v { v with isSubscribed := false }) users).find n
      = users.find n := by
  induction us generalizing users with
  | nil => rfl
  | cons v rest ih =>
      rw [List.foldl_cons, ih _ fun u hu => h u (List.mem_cons_of_mem _ hu)]
      exact find_saveAccount_of_ne (h v List.mem_cons_self).symm

/-- The clock shows nothing later than `T`, and the rows come from `w`. -/
def Watched (cfg : Settings) (n : ℕ) (T : Time) (w s : World) (i : Input) : Prop :=
  Before T s i ∧ Lineage cfg n w s

variable {d : Option User × List Config}

/-- The sweep and the account: it leaves the account as it is, or takes the flag
and the devices of one whose period it found ended. -/
lemma once_sweep (d : Option User × List Config) :
    Proc.Once (Watched cfg n T w) (standing n) d (fun _ t => Fair T (standing n t))
      (fun s t => standing n t = standing n s) (fun _ => True) (fun _ => True)
      (Op.expireDueSubscriptions.run cfg) := by
  refine Proc.Once.exchange (fun _ _ _ => rfl) fun s i hi _ => ?_
  have htime : max s.clock i.now ≤ T := max_le hi.1.1 hi.1.2
  generalize max s.clock i.now = t at htime
  refine Proc.Once.bind (N := fun _ => True) (C := fun _ => True) ?_ (fun _ _ => trivial)
    (fun _ _ => trivial) (fun _ _ => trivial) fun _ _ => trivial
  refine Proc.Once.look fun s hs => ?_
  -- the devices that will be switched off belong to accounts of the list
  refine Proc.Reads.bind ((within_revokeUsers
    (P := fun id => ∃ v c, Lineage cfg n w v ∧ c ∈ v.db.configs.rows ∧ c.id = id
      ∧ ∃ u ∈ s.db.users.rows.filter fun u => u.isDue t, c.userId = u.id)
    (s.db.users.rows.filter fun u => u.isDue t) (fun v i hv u hu c hc => ?_) {}).reads
      fun s t h => by rw [standing, standing, h.1]) ?_ fun _ _ => trivial
  · obtain ⟨hrow, hheld⟩ := List.mem_filter.mp hc
    exact ⟨v, c, hv.2, hrow, rfl, u, hu, (of_decide_eq_true hheld).1⟩
  · intro work hwork v i hv hvd
    obtain ⟨hoff, hrevoked⟩ := hwork work rfl
    have hdb : (work.write v.db).users = _ := congrArg Db.users (SweepWork.write_eq work v.db)
    have hconfigs : (work.write v.db).configs = _ := congrArg Db.configs (SweepWork.write_eq work v.db)
    have hfind : v.db.users.find n = s.db.users.find n :=
      congrArg Prod.fst (hvd.trans hs.symm)
    by_cases hdue : ∃ u ∈ s.db.users.rows.filter (fun u => u.isDue t), u.id = n
    · -- a period that the sweep found ended
      refine Or.inr ⟨?_, Proc.Within.look fun _ _ _ => ⟨rfl, trivial⟩⟩
      obtain ⟨u, hu, hid⟩ := hdue
      obtain ⟨hrow, hended⟩ := List.mem_filter.mp hu
      have hu' : v.db.users.find n = some u := by
        rw [hfind, ← hid]
        exact Table.find_of_mem hrow
      obtain ⟨x, hx, huntil⟩ := find_revoke work.revoked v.db.users hu'
      intro y hy hahead
      have hxy : some x = some y := hx.symm.trans (((congrArg (Table.find · n) hdb).symm).trans hy)
      rw [← Option.some.inj hxy, huntil, ended_of_isDue hended htime] at hahead
      cases hahead
    · -- an account that is not on the list
      push Not at hdue
      refine Or.inl ⟨?_, Proc.Once.look fun _ _ => trivial⟩
      rw [← hvd]
      have husers : (work.write v.db).users.find n = v.db.users.find n := by
        rw [hdb]
        refine find_revoke_of_notMem _ _ fun u hu => ?_
        rcases hrevoked u hu with hu | hu
        · cases hu
        · exact hdue u hu
      refine Prod.ext husers (paidDevices_switchOff hconfigs fun c hc hmem => Or.inl ?_)
      rcases hoff c.id hmem with hmem | ⟨v', x, hv', hx, hid, u, hu, hown⟩
      · cases hmem
      · rw [(hv.2.same hv' hc hx hid.symm).1, hown]
        exact hdue u hu

/-- The rewards on top of a purchase leave the flag as it is. -/
lemma reads_applyRewardsFor_extend {D : Type} {π : World → D} {d : D} {J : World → Input → Prop}
    (user : User) (t : Time) (sent : List NewNotice) :
    Proc.Reads J π d (fun r => ∃ m applied out, r = .ok (user.extend m, applied, out))
      (applyRewardsFor user t sent) := by
  unfold applyRewardsFor
  split
  · refine Proc.Once.look fun s _ => ?_
    refine Proc.Reads.bind (reads_applyEach user _ sent) ?_ ?_
    · rintro ⟨u, out⟩ ⟨out', h, -⟩
      obtain ⟨rfl, rfl⟩ := Prod.mk.inj (Except.ok.inj h)
      exact ⟨_, _, _, rfl⟩
    · rintro e ⟨out, h, -⟩
      cases h
  · exact ⟨0, [], sent, by rw [User.extend_zero]⟩

lemma Silent.reads {α : Type} {J : World → Input → Prop} {p : Portal α} (hp : Silent p) :
    Proc.Reads J (standing n) d (fun r => ∃ a, r = .ok a) p :=
  (hp.restrict fun _ _ _ => trivial).reads fun _ _ h => by rw [standing, standing, h.1]

/-- The device an activation leaves its account with. -/
lemma paidDevices_addDevice {a : Activation} {db db' : Db} {user : User}
    (hconfigs : db'.configs = a.addDevice db.configs)
    (hdevice : ∀ c, a.device = some c → c.FirstFor user)
    (hheld : a.device = none → paidDevices db user.id ≠ []) : paidDevices db' user.id ≠ [] := by
  have hrows : db'.configs.rows
      = db.configs.rows ++ (a.device.map fun c => { c with id := db.configs.next }).toList := by
    rw [hconfigs, rows_addDevice]
  cases hd : a.device with
  | none =>
      obtain ⟨c, hc⟩ := List.exists_mem_of_ne_nil _ (hheld hd)
      obtain ⟨hrow, hrest⟩ := mem_paidDevices.mp hc
      refine List.ne_nil_of_mem (mem_paidDevices.mpr ⟨?_, hrest⟩)
      rw [hrows]
      exact List.mem_append_left _ hrow
  | some c =>
      obtain ⟨hown, hkind, hact⟩ := hdevice c hd
      have hmem : ({ c with id := db.configs.next } : Config) ∈ db'.configs.rows := by
        rw [hrows, hd]
        exact List.mem_append_right _ (List.mem_singleton_self _)
      refine List.ne_nil_of_mem (mem_paidDevices.mpr ⟨hmem, hown, hact, ?_⟩)
      dsimp only
      rw [hkind]
      decide

/-- The commit of a renewal that has read the account as it is, and what comes
after it: the account is flagged and holds a device. -/
lemma once_completeRenewal {user : User} (hid : user.id = n) (hu : d.1 = some user)
    (payment : Payment) (info : PlanInfo) {trials : List Config}
    (htrials : ∀ c ∈ trials, c.kind = .trial ∧ ∃ v, Lineage cfg n w v ∧ c ∈ v.db.configs.rows)
    {device : Option Config} (hdevice : ∀ c, device = some c → c.FirstFor user)
    (hheld : device = none → d.2 ≠ []) (t : Time) :
    Proc.Once (Watched cfg n T w) (standing n) d (fun _ t => Fair T (standing n t))
      (fun s t => standing n t = standing n s) (fun _ => True) (fun _ => True)
      (completeActivation cfg user payment info trials device t) := by
  subst hid
  refine Proc.Reads.bind (silent_spendOnPayment payment).reads (fun spend _ => ?_) fun _ _ => trivial
  refine Proc.Reads.bind (silent_rewardForPayment payment t).reads (fun reward _ => ?_)
    fun _ _ => trivial
  refine Proc.Reads.bind (reads_applyRewardsFor_extend _ t []) ?_ fun _ _ => trivial
  rintro ⟨rewarded, applied, sent⟩ ⟨m, applied', out, hout⟩
  obtain ⟨rfl, -⟩ := Prod.mk.inj (Except.ok.inj hout)
  intro s i hi hs
  refine Or.inr ⟨?_, ?_⟩
  · have hfind : s.db.users.find user.id = some user := (congrArg Prod.fst hs).trans hu
    have hpaid : paidDevices s.db user.id = d.2 := congrArg Prod.snd hs
    intro u hu' _
    constructor
    · have hu'' := (congrArg (Table.find · user.id)
        (congrArg Db.users (Activation.write_eq _ s.db))).symm.trans hu'
      dsimp only at hu''
      rw [find_saveAccount_self _ hfind] at hu''
      rw [← Option.some.inj hu'']
      simp only [User.merge, closeTrial]
      split <;> simp [User.extend, activated]
    · refine paidDevices_addDevice (congrArg Db.configs (Activation.write_eq _ s.db)) hdevice ?_
      intro hnone
      rw [hpaid]
      exact hheld hnone
  · refine ((within_finishActivation cfg _ _ trials).mono_of ?_).mono (fun _ _ h => h)
      fun _ _ => trivial
    rintro s i t hi ⟨-, off, hoff, hdb⟩
    rw [Db.foldl_deactivate] at hdb
    refine standing_switchOff (by rw [hdb]) (congrArg Db.configs hdb) fun c hc hmem => Or.inr ?_
    obtain ⟨x, hx, hid⟩ := List.mem_map.mp (hoff _ hmem)
    obtain ⟨hkind, v, hv, hrow⟩ := htrials x hx
    rw [← hkind]
    exact (hi.2.same hv hc hrow hid.symm).2

/-- The renewal and the account: it leaves the account as it is, or flagged and
with a device. -/
lemma once_activateOrder {payment : Payment} (hn : payment.userId = n) (d : Option User × List Config) :
    Proc.Once (Watched cfg n T w) (standing n) d (fun _ t => Fair T (standing n t))
      (fun s t => standing n t = standing n s) (fun _ => True) (fun _ => True)
      (activateOrder cfg payment) := by
  subst hn
  refine Proc.Once.look fun s hs => ?_
  dsimp only
  cases hu : s.db.users.find payment.userId with
  | none => trivial
  | some user =>
      have hid : user.id = payment.userId := (Table.mem_of_find hu).2
      have hd : d.1 = some user := by
        rw [← hs]
        exact hu
      refine Proc.Once.bind (N := fun _ => True) (C := fun _ => True) ?_ (fun _ _ => trivial)
        (fun _ _ => trivial) (fun _ _ => trivial) fun _ _ => trivial
      unfold activatePayment
      split
      · trivial
      intro v i hv hvd
      refine Or.inl ⟨hvd, ?_⟩
      have htrials : ∀ c ∈ (heldBy v.db.configs.rows user.id).filter (fun c => c.kind = .trial),
          c.kind = .trial ∧ ∃ v, Lineage cfg payment.userId w v ∧ c ∈ v.db.configs.rows := by
        intro c hc
        obtain ⟨hheld, hkind⟩ := List.mem_filter.mp hc
        exact ⟨of_decide_eq_true hkind, v, hv.2, List.mem_of_mem_filter hheld⟩
      dsimp only [Proc.bind]
      split
      · refine Proc.Reads.bind ((nodesOnly_issueConfig cfg user _ _ _).reads ?_) ?_ fun _ _ => trivial
        · rintro s t ⟨node, rfl⟩
          rfl
        · intro o ho
          cases o with
          | none => trivial
          | some c =>
              refine Proc.Once.exchange (fun _ _ _ => rfl) fun s i _ _ => ?_
              refine once_completeRenewal hid hd _ _ htrials (fun x hx => ?_) (fun h => (by cases h)) _
              obtain rfl := Option.some.inj hx
              exact (ho c rfl).1
      · rename_i hsome
        refine Proc.Once.exchange (fun _ _ _ => rfl) fun s i _ _ => ?_
        refine once_completeRenewal hid hd _ _ htrials (fun x hx => (by cases hx)) (fun _ hnil => ?_) _
        have hpaid : paidDevices v.db user.id = d.2 := by
          rw [← hvd, hid]
          rfl
        rw [hnil] at hpaid
        exact hsome (List.isEmpty_iff.mpr hpaid)

end Standing

/-! ### The two side by side -/

/-- The expiry sweep and the activation of an order. -/
def sweepAndRenewal (payment : Payment) : Bool → Op
  | false => .expireDueSubscriptions
  | true => .activate payment

/-- The two sessions in the world they begin in. -/
def besideSweep (cfg : Settings) (payment : Payment) (w : World) :
    Cfg Bool World Input Exn (Option ℕ) :=
  ⟨w, fun k => (sweepAndRenewal payment k).run cfg⟩

/-- Every active device stands in a location that is configured. -/
def DevicesPlaced (cfg : Settings) (w : World) : Prop :=
  ∀ c ∈ w.db.configs.rows, c.isActive = true → (c.hostIn cfg).isSome = true

/-- If the recorded end of the account lies after `T`, it is flagged and has an
active device that is not a trial, with its peer on its node. -/
def ServedAt (cfg : Settings) (n : ℕ) (T : Time) (w : World) : Prop :=
  ∀ u, w.db.users.find n = some u → u.subscribedUntil.any (T < ·) = true →
    u.isSubscribed = true ∧ ∃ c ∈ w.db.configs.rows, c.userId = n ∧ c.isActive = true
      ∧ c.kind ≠ .trial ∧ ∃ host, c.hostIn cfg = some host ∧ c.entry ∈ w.runtime host

/-- **A renewal in turn with the sweep is kept.** One sweep and one activation run
in any interleaving, the nodes doing what the wrappers do, and by `T` both have
ended. If the old period of the account is over and neither session changes the
account or its paid devices after the other has done so under its eyes, then a
recorded end after `T` is flagged and has a device with its peer. -/
theorem renewal_kept (cfg : Settings) (payment : Payment) {key : Bool → String}
    (hkey : Function.Injective key) {foreign : String → List PeerEntry} {w : World} {T : Time}
    (hw : Ready cfg key foreign w) (hplaced : DevicesPlaced cfg w)
    (hended : ∀ u, w.db.users.find payment.userId = some u →
      u.subscribedUntil.any (T < ·) = false)
    {sched : List (Bool × Input)}
    (h : Admitted (fun k s i => Honest (key k) s i ∧ Before T s i) (besideSweep cfg payment w) sched)
    (hends : ∀ k, ∃ r, ((besideSweep cfg payment w).run sched).Ended k r)
    (hturn : InTurn (standing payment.userId) (besideSweep cfg payment w) sched) :
    ServedAt cfg payment.userId T ((besideSweep cfg payment w).run sched).state := by
  have hrows : ∀ k, Proc.Within (fun s i => Honest (key k) s i ∧ Before T s i)
      (Lineage cfg payment.userId) (fun _ => True) ((besideSweep cfg payment w).pool k) := by
    intro k
    cases k with
    | false =>
        refine Proc.Within.exchange fun _ _ _ => ⟨Lineage.of_configs rfl, ?_⟩
        exact (lineage_expireDueSubscriptions _).bind (fun _ _ => trivial) fun _ _ => trivial
    | true => exact lineage_activateOrder payment
  have hlineage := h.invariant (Lineage.refl w) hrows fun _ _ hs ht => hs.trans ht
  have hwatched : Admitted (fun _ => Watched cfg payment.userId T w) (besideSweep cfg payment w) sched :=
    (h.and_invariant (Lineage.refl w) hrows fun _ _ hs ht => hs.trans ht).mono
      fun _ _ _ hi => ⟨hi.1.2, hi.2⟩
  have hfair : Fair T (standing payment.userId ((besideSweep cfg payment w).run sched).state) := by
    refine holds_of_inTurn (N := fun _ _ => True) (C := fun _ _ => True) ?_ ?_ hwatched hturn
    · intro u hu hahead
      rw [hended u hu] at hahead
      cases hahead
    · intro k d
      cases k with
      | false => exact once_sweep d
      | true => exact once_activateOrder rfl d
  have hagrees : Agrees cfg foreign ((besideSweep cfg payment w).run sched).state :=
    agrees_of_idle (sweepAndRenewal payment) hkey hw (h.mono fun _ _ _ hi => hi.1)
      fun k => Or.inr (hends k)
  intro u hu hahead
  obtain ⟨hflag, hdevices⟩ := hfair u hu hahead
  obtain ⟨c, hc⟩ := List.exists_mem_of_ne_nil _ hdevices
  obtain ⟨hrow, hown, hact, hkind⟩ := mem_paidDevices.mp hc
  have hhost : (c.hostIn cfg).isSome = true := by
    rcases hlineage.rows c hrow with ⟨x, hx, hoff, hact'⟩ | ⟨-, -, -, hhost⟩
    · rw [← Config.hostIn_of_off hoff]
      exact hplaced x hx (hact' hact)
    · exact hhost
  obtain ⟨host, hhost⟩ := Option.isSome_iff_exists.mp hhost
  exact ⟨hflag, c, hrow, hown, hact, hkind, host, hhost,
    ((hagrees.peers host).mapsTo ⟨hrow, hact, hhost⟩).1⟩

/-! ### A month that ran out -/

/-- A device of the account 0. -/
def annDevice : Config where
  id := 0
  userId := 0
  name := "device-1"
  peerIp := "10.88.88.42"
  location := "de"
  publicKey := "CCCCCCCCCCCCCCCCCCCCCCCCCCCCCCCCCCCCCCCCCCC="

/-- Its account, whose month is over. -/
def annCustomer : User :=
  { id := 0, username := "ann", isSubscribed := true, subscribedUntil := some 10 }

/-- The account, the device, and the peer of it on the German entry. -/
def annLapsed : World where
  db :=
    { users := ⟨[annCustomer], 1, by decide, by decide⟩
      configs := ⟨[annDevice], 1, by decide, by decide⟩ }
  node := fun host =>
    { runtime := if host = "de-entry" then [annDevice.entry] else [], conf := some [] }
  clock := 20

/-- The order for another month. -/
def annRenews : Payment := { id := 0, userId := 0, plan := "basic-1m", amount := 350 }

/-- The wrappers answer, at the time 20. -/
def answersAt20 (k : Bool) (w : World) : Input := { wrappersAnswer k w with now := 20 }

/-- The sweep from start to end, and then the renewal. -/
def renewalAfter : List (Bool × Input) :=
  scheduleBy answersAt20 (besideSweep {} annRenews annLapsed)
    (List.replicate 12 false ++ List.replicate 20 true)

/-- The sweep loads its due accounts, the renewal comes and goes, and the sweep
carries on. -/
def renewalBetween : List (Bool × Input) :=
  scheduleBy answersAt20 (besideSweep {} annRenews annLapsed)
    (List.replicate 2 false ++ List.replicate 20 true ++ List.replicate 12 false)

lemma mem_annLapsed {c : Config} (hc : c ∈ annLapsed.db.configs.rows) : c = annDevice :=
  List.mem_singleton.mp hc

lemma mem_annPeers {host : String} {e : PeerEntry} (he : e ∈ annLapsed.runtime host) :
    host = "de-entry" ∧ e = annDevice.entry := by
  simp only [World.runtime, annLapsed] at he
  split at he
  · exact ⟨‹_›, List.mem_singleton.mp he⟩
  · cases he

lemma ready_annLapsed : Ready {} twoKeys (fun _ => []) annLapsed where
  agrees :=
    { peers := fun host => by
        refine ⟨?_, ?_, ?_⟩
        · rintro c ⟨hc, -, hhost⟩
          obtain rfl := mem_annLapsed hc
          obtain rfl : "de-entry" = host := Option.some.inj ((by decide :
            annDevice.hostIn {} = some "de-entry").symm.trans hhost)
          exact ⟨by decide, List.not_mem_nil⟩
        · rintro c ⟨hc, -⟩ x ⟨hx, -⟩ -
          rw [mem_annLapsed hc, mem_annLapsed hx]
        · rintro e ⟨he, -⟩
          obtain ⟨rfl, rfl⟩ := mem_annPeers he
          exact ⟨annDevice, ⟨List.mem_singleton_self _, rfl, by decide⟩, rfl⟩
      addresses := fun _ c hc x hx _ _ _ => by rw [mem_annLapsed hc, mem_annLapsed hx]
      pool := fun c hc => by
        rw [mem_annLapsed hc]
        show annDevice.peerIp ∈ clientPool.addresses
        decide }
  keys c hc x hx _ := by rw [mem_annLapsed hc, mem_annLapsed hx]
  fresh k c hc := by
    rw [mem_annLapsed hc]
    cases k <;> decide
  outside _ e he := absurd he List.not_mem_nil
  addresses host e he x hx _ _ _ := by rw [(mem_annPeers he).2, (mem_annPeers hx).2]

lemma placed_annLapsed : DevicesPlaced {} annLapsed := by
  intro c hc _
  rw [mem_annLapsed hc]
  decide

lemma admitted_answersAt20 {ks : List Bool}
    (hclock : ∀ m < ks.length, ((besideSweep {} annRenews annLapsed).run
      (scheduleBy answersAt20 (besideSweep {} annRenews annLapsed) (ks.take m))).state.clock ≤ 20) :
    Admitted (fun k s i => Honest (twoKeys k) s i ∧ Before 20 s i)
      (besideSweep {} annRenews annLapsed)
      (scheduleBy answersAt20 (besideSweep {} annRenews annLapsed) ks) := by
  refine admitted_scheduleBy_of (I := fun s => s.clock ≤ 20)
    (fun k s hs => ⟨⟨?_, ?_, ?_⟩, hs, le_rfl⟩) hclock
  · exact (honest_wrappersAnswer k s).keys
  · exact (honest_wrappersAnswer k s).add
  · exact (honest_wrappersAnswer k s).del

/-- The sweep takes the device, and the renewal issues another. -/
theorem renewal_kept_renewalAfter :
    ((besideSweep {} annRenews annLapsed).run renewalAfter).state.db.untilOf 0
        = some (20 + days 30)
      ∧ ServedAt {} 0 20 ((besideSweep {} annRenews annLapsed).run renewalAfter).state := by
  refine ⟨by decide, ?_⟩
  refine renewal_kept {} annRenews injective_twoKeys ready_annLapsed placed_annLapsed (by decide)
    (admitted_answersAt20 (by decide)) (fun k => ?_) (InTurn.of_sessions ?_)
  · refine Option.isSome_iff_exists.mp ?_
    cases k <;> decide
  · rw [renewalAfter, map_fst_scheduleBy]
    decide

/-- **A renewal undone.** The sweep has loaded the account when the renewal comes;
the renewal finds the old device and issues none. Both end, the period lies
ahead, and the account has neither the flag nor a device nor a peer. -/
theorem renewal_undone :
    Ready {} twoKeys (fun _ => []) annLapsed ∧ DevicesPlaced {} annLapsed
      ∧ Admitted (fun k s i => Honest (twoKeys k) s i ∧ Before 20 s i)
        (besideSweep {} annRenews annLapsed) renewalBetween
      ∧ (∀ k, ∃ r, ((besideSweep {} annRenews annLapsed).run renewalBetween).Ended k r)
      ∧ ((besideSweep {} annRenews annLapsed).run renewalBetween).state.db.untilOf 0
        = some (20 + days 30)
      ∧ ¬ ServedAt {} 0 20 ((besideSweep {} annRenews annLapsed).run renewalBetween).state := by
  refine ⟨ready_annLapsed, placed_annLapsed, admitted_answersAt20 (by decide), fun k => ?_,
    by decide, fun h => ?_⟩
  · refine Option.isSome_iff_exists.mp ?_
    cases k <;> decide
  · have hrow : ∃ u, ((besideSweep {} annRenews annLapsed).run renewalBetween).state.db.users.find 0
        = some u ∧ u.subscribedUntil.any (20 < ·) = true ∧ u.isSubscribed = false := by
      refine ⟨_, Option.eq_some_of_isSome (by decide), ?_⟩
      decide
    obtain ⟨u, hu, hahead, hflag⟩ := hrow
    have hflag' := (h u hu hahead).1
    rw [hflag] at hflag'
    cases hflag'

end VpnPortal
