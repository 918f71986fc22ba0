/-
Notifications of one order that arrive together.

Every notification runs in its own session and guards itself with the status it
read when it loaded the order. Two of them may both read the order as open, so
an order can be activated twice: `overlapping_notifications` gives two
interleavings, one that extends the subscription twice and one that issues two
devices and spends the credit twice.

When the commits exclude each other, a session that has loaded the order is
still right about it at its commit, and the order goes from open to paid once:
`at_most_once_of_exclusive`. The invariant along the serial chain of commits is
`Untouched` before the activation and `ActivatedOnce` after it.
-/
import VpnPortal.Lifecycle.Sequential

namespace VpnPortal

open Sessions Tables

/-- The recorded end of an account. -/
def Db.untilOf (db : Db) (user : ℕ) : Option Time :=
  (db.users.find user).bind User.subscribedUntil

/-- What one order may have done to its account by the time `T`: the plan's days
are in the recorded end at most once, with the rewards that were due then; at
most one device was issued; at most one entry spends for it. -/
structure AtMostOnce (T : Time) (p : Payment) (db₀ db : Db) : Prop where
  extension : db.untilOf p.userId = db₀.untilOf p.userId
    ∨ ∃ user info t, t ≤ T ∧ db₀.users.find p.userId = some user
      ∧ planInfo (some p.plan) = some info
      ∧ db.untilOf p.userId = some (extendedUntil user t info.days
          + days (rewardDays (dueRewards db₀.referralRewards.rows user.id t)))
  devices : db.configs.rows.length ≤ db₀.configs.rows.length + 1
  spends : (spendsOf db.creditEntries.rows p.id).length ≤ 1

/-- The environment up to the time `T`. -/
def Before (T : Time) : World → Input → Prop := fun w i => w.clock ≤ T ∧ i.now ≤ T

/-- What the notifications decide on, and the number of devices. -/
def booksAndDevices (w : World) : Books × ℕ := (w.db.books, w.db.configs.rows.length)

/-- What a notification may commit. -/
def Call.Commits (J : World → Input → Prop) (P : Time → Prop) (cfg : Settings) :
    Call → Db → Db → Prop
  | .callback req => CallbackStep J P cfg req
  | .webhook (some fields) => HeleketStep P fields
  | _ => fun _ _ => False

lemma length_foldl_switchOff (off : List ℕ) (configs : Table Config) :
    (off.foldl switchOff configs).rows.length = configs.rows.length := by
  rw [rows_foldl_switchOff, List.length_map]

lemma View.booksAndDevices (T : Time) (d : Books × ℕ) :
    View (Before T) VpnPortal.booksAndDevices d d.1 (· ≤ T)
      (fun s t => VpnPortal.booksAndDevices t = VpnPortal.booksAndDevices s) where
  of_db := fun s t h => by unfold VpnPortal.booksAndDevices; rw [h]
  books := fun s hs => by rw [← hs]; rfl
  off := by
    rintro ids s t ⟨-, off, -, hdb⟩
    unfold VpnPortal.booksAndDevices
    rw [hdb, books_foldl_deactivate, Db.foldl_deactivate, length_foldl_switchOff]
  time := fun s i h => max_le h.1 h.2

/-- A notification commits at most once. -/
lemma once_notice {D : Type} {π : World → D} {J : World → Input → Prop} {d : D} {b : Books}
    {P : Time → Prop} {R : World → World → Prop} (v : View J π d b P R) (cfg : Settings)
    {call : Call} (hcall : call.IsNotice) :
    Proc.Once J π d (fun s t => call.Commits J P cfg s.db t.db) R (fun _ => True) (fun _ => True)
      (call.run cfg) := by
  cases call with
  | order _ _ => exact hcall.elim
  | orderPlatega _ _ => exact hcall.elim
  | grant _ _ => exact hcall.elim
  | callback req => exact once_plategaCallback v cfg req
  | webhook data =>
      cases data with
      | none => trivial
      | some fields => exact once_paymentWebhook v cfg fields

/-! ### The order along the chain of commits -/

/-- The columns of an order that no session writes, and the ones that name it
to its gateway. -/
structure SameOrder (p q : Payment) : Prop where
  id : q.id = p.id
  userId : q.userId = p.userId
  plan : q.plan = p.plan
  creditSpent : q.creditSpent = p.creditSpent
  provider : q.provider = p.provider
  providerRef : q.providerRef = p.providerRef

lemma SameOrder.refl (p : Payment) : SameOrder p p := ⟨rfl, rfl, rfl, rfl, rfl, rfl⟩

/-- A notification that names `p` commits to the row of `p`, as it stands and
while it is open. -/
lemma commits_cases {J : World → Input → Prop} {P : Time → Prop} {cfg : Settings} {call : Call}
    {p q : Payment} {db₀ db db' : Db} (hcall : call.IsNotice)
    (habout : Call.About cfg db₀ p call) (hq : db.payments.find p.id = some q)
    (hsame : SameOrder p q) (h : call.Commits J P cfg db db') :
    q.status ≠ "paid" ∧ (Confirms P q db db'
      ∨ ∃ status, status ≠ "paid" ∧ Records q status db db') := by
  have hmem : q ∈ db.payments.rows := (Table.mem_of_find hq).1
  cases call with
  | order _ _ => exact hcall.elim
  | orderPlatega _ _ => exact hcall.elim
  | grant _ _ => exact hcall.elim
  | callback req =>
      obtain ⟨txn, htxn, href, hprov⟩ := habout
      obtain ⟨txn', htxn', -, x, hx, -, -, honly, status, -, hcase⟩ := h
      obtain rfl := Option.some.inj (htxn.symm.trans htxn')
      -- the row of `p` carries the reference, so it is the one that was found
      have hqx : q = x := honly q hmem (hsame.provider.trans hprov) (hsame.providerRef.trans href)
      obtain rfl := hqx
      refine ⟨hx.2, ?_⟩
      rcases hcase with ⟨-, -, hc⟩ | ⟨-, hr⟩ | ⟨-, hr⟩
      · exact Or.inl hc
      · exact Or.inr ⟨_, by decide, hr⟩
      · exact Or.inr ⟨_, by decide, hr⟩
  | webhook data =>
      obtain ⟨fields, rfl, hid⟩ := habout
      obtain ⟨x, hx, hxid, hcase⟩ := h
      have hnum : q.id = x.id := by
        cases hord : Json.get fields "order_id" with
        | str text =>
            rw [hord] at hid hxid
            simp only [Json.isStr, beq_iff_eq] at hid hxid
            exact hsame.id.trans (Nat.repr_injective (hid.symm.trans hxid))
        | _ => rw [hord] at hid; simp [Json.isStr] at hid
      obtain rfl := Table.eq_of_num_eq hmem (Table.mem_of_find hx.1).1 hnum
      exact ⟨hx.2, hcase⟩

/-- Before the activation: only the status of the order may have moved. -/
structure Untouched (p : Payment) (d₀ d : Books × ℕ) : Prop where
  users : d.1.users = d₀.1.users
  ledger : d.1.creditEntries = d₀.1.creditEntries
  rewards : d.1.referralRewards = d₀.1.referralRewards
  devices : d.2 = d₀.2
  order : ∃ q, d.1.payments.find p.id = some q ∧ SameOrder p q

/-- After the activation. -/
structure ActivatedOnce (T : Time) (p : Payment) (d₀ d : Books × ℕ) : Prop where
  order : ∃ q, d.1.payments.find p.id = some q ∧ SameOrder p q ∧ q.status = "paid"
  extension : ∃ user info t, t ≤ T ∧ d₀.1.users.find p.userId = some user
    ∧ planInfo (some p.plan) = some info
    ∧ (d.1.users.find p.userId).bind User.subscribedUntil = some (extendedUntil user t info.days
        + days (rewardDays (dueRewards d₀.1.referralRewards.rows user.id t)))
  devices : d.2 ≤ d₀.2 + 1
  spends : (spendsOf d₀.1.creditEntries.rows p.id).length ≤ 1 →
    (spendsOf d.1.creditEntries.rows p.id).length ≤ 1

lemma Untouched.record {p q : Payment} {d₀ : Books × ℕ} {s t : World} {status : String}
    (h : Untouched p d₀ (booksAndDevices s)) (hq : s.db.payments.find p.id = some q)
    (hsame : SameOrder p q) (hr : Records q status s.db t.db) :
    Untouched p d₀ (booksAndDevices t) := by
  have hbooks : booksAndDevices t = ((s.db.savePayment q { q with status := status }).books,
      s.db.configs.rows.length) := by
    unfold booksAndDevices
    rw [Records] at hr
    rw [hr]
    rfl
  rw [hbooks]
  refine ⟨h.users, h.ledger, h.rewards, h.devices, Payment.merge q { q with status := status } q,
    ?_, ?_⟩
  · have hq' : s.db.payments.find q.id = some q := by rw [hsame.id]; exact hq
    have hfind := find_saveOrder_self { q with status := status } hq'
    rw [hsame.id] at hfind
    exact hfind
  · exact ⟨hsame.id, hsame.userId, hsame.plan, hsame.creditSpent,
      by simpa [Payment.merge] using hsame.provider, by simpa [Payment.merge] using hsame.providerRef⟩

/-- One more entry at most, and none if the order has one. -/
lemma length_spendsOf_addSpend {b : Books} {user : User} {p : Payment} {a : Activation}
    (ha : a.Drawn b user p) (h : (spendsOf b.creditEntries.rows p.id).length ≤ 1) :
    (spendsOf (a.addSpend b.creditEntries).rows p.id).length ≤ 1 := by
  unfold Activation.addSpend
  rw [ha.spend_eq, spendOf]
  by_cases hc : p.creditSpent ≤ 0 ∨ spendsOf b.creditEntries.rows p.id ≠ []
  · rw [if_pos hc]
    exact h
  · rw [if_neg hc]
    have hnil : spendsOf b.creditEntries.rows p.id = [] := by
      by_contra hne
      exact hc (Or.inr hne)
    rw [spendsOf] at hnil ⊢
    rw [Table.rows_insert, List.filter_append, hnil]
    exact (List.length_filter_le _ _).trans (by simp)

lemma length_addDevice_le (a : Activation) (configs : Table Config) :
    (a.addDevice configs).rows.length ≤ configs.rows.length + 1 := by
  unfold Activation.addDevice
  split
  · omega
  · simp

lemma Untouched.confirm {T : Time} {p q : Payment} {d₀ : Books × ℕ} {s t : World}
    (h : Untouched p d₀ (booksAndDevices s)) (hq : s.db.payments.find p.id = some q)
    (hsame : SameOrder p q) (hc : Confirms (· ≤ T) q s.db t.db) :
    ActivatedOnce T p d₀ (booksAndDevices t) := by
  obtain ⟨user, hu, a, ha, hT, hdb⟩ := hc
  obtain ⟨info, hinfo, -⟩ := ha.new_eq
  have hid : user.id = q.userId := (Table.mem_of_find hu).2
  have hq' : s.db.payments.find q.id = some q := by rw [hsame.id]; exact hq
  unfold booksAndDevices
  rw [hdb]
  refine ⟨⟨a.paid, ?_, ?_, rfl⟩, ⟨user, info, a.at_, hT, ?_, ?_, ?_⟩, ?_, ?_⟩
  · rw [← hsame.id]
    exact ha.find_payment hq'
  · have hpay := ha.payment_eq
    exact ⟨by rw [← hsame.id, ← hpay]; rfl, by rw [← hsame.userId, ← hpay]; rfl,
      by rw [← hsame.plan, ← hpay]; rfl, by rw [← hsame.creditSpent, ← hpay]; rfl,
      by rw [← hsame.provider, ← hpay]; rfl, by rw [← hsame.providerRef, ← hpay]; rfl⟩
  · rw [← h.users, ← hsame.userId]
    exact hu
  · rw [← hsame.plan]
    exact hinfo
  · have hfind : (a.write s.db).users.find p.userId = some a.new := by
      rw [← hsame.userId, ← hid]
      exact ha.find_user (by rw [hid]; exact hu)
    have happlied : a.applied = dueRewards d₀.1.referralRewards.rows user.id a.at_ := by
      rw [ha.applied_eq, ← h.rewards]; rfl
    rw [← happlied, ← ha.until_eq hinfo]
    show ((a.write s.db).users.find p.userId).bind User.subscribedUntil = _
    rw [hfind]
    rfl
  · rw [← h.devices]
    have hcfg : (a.write s.db).configs = a.addDevice s.db.configs := by rw [Activation.write_eq]
    show (a.write s.db).configs.rows.length ≤ s.db.configs.rows.length + 1
    rw [hcfg]
    exact length_addDevice_le a s.db.configs
  · intro hle
    have hled : (a.write s.db).books.creditEntries = a.addSpend s.db.books.creditEntries := by
      rw [Activation.write_eq]; rfl
    rw [← h.ledger] at hle
    rw [← hsame.id] at hle ⊢
    rw [hled]
    exact length_spendsOf_addSpend ha hle

/-! ### Commits that exclude each other -/

section

variable {κ : Type} [DecidableEq κ] {T : Time} {cfg : Settings} {notices : κ → Call} {w₀ : World}
variable {p : Payment}

omit [DecidableEq κ] in
/-- Along a serial chain the order is activated once, and after that nothing
more is committed for it. -/
lemma phase_of_serial (hp : w₀.db.payments.find p.id = some p)
    (hnotice : ∀ k, (notices k).IsNotice ∧ Call.About cfg w₀.db p (notices k)) {l : List κ}
    {d : Books × ℕ}
    (h : Serial booksAndDevices (fun k s t => (notices k).Commits (Before T) (· ≤ T) cfg s.db t.db)
      l (booksAndDevices w₀) d) :
    Untouched p (booksAndDevices w₀) d ∨ ActivatedOnce T p (booksAndDevices w₀) d := by
  generalize hd₀ : booksAndDevices w₀ = d₀ at h ⊢
  induction h with
  | nil d =>
      refine Or.inl ⟨rfl, rfl, rfl, rfl, p, ?_, SameOrder.refl p⟩
      rw [← hd₀]
      exact hp
  | @snoc l d k s t _ hE ih =>
      obtain ⟨hcall, habout⟩ := hnotice k
      rcases ih hd₀ with hU | hA
      · obtain ⟨q, hq, hsame⟩ := hU.order
        obtain ⟨-, hc | ⟨status, -, hr⟩⟩ := commits_cases hcall habout hq hsame hE
        · exact Or.inr (hU.confirm hq hsame hc)
        · exact Or.inl (hU.record hq hsame hr)
      · obtain ⟨q, hq, hsame, hpaid⟩ := hA.order
        exact absurd hpaid (commits_cases hcall habout hq hsame hE).1

lemma atMostOnce_of_phase {w : World}
    (hspends : (spendsOf w₀.db.creditEntries.rows p.id).length ≤ 1)
    (h : Untouched p (booksAndDevices w₀) (booksAndDevices w)
      ∨ ActivatedOnce T p (booksAndDevices w₀) (booksAndDevices w)) :
    AtMostOnce T p w₀.db w.db := by
  rcases h with hU | hA
  · have husers : w.db.users = w₀.db.users := hU.users
    have hledger : w.db.creditEntries = w₀.db.creditEntries := hU.ledger
    have hdevices : w.db.configs.rows.length = w₀.db.configs.rows.length := hU.devices
    refine ⟨Or.inl ?_, by omega, ?_⟩
    · unfold Db.untilOf
      rw [husers]
    · rw [hledger]
      exact hspends
  · exact ⟨Or.inr hA.extension, hA.devices, hA.spends hspends⟩

/-- **At most once, when commits exclude each other.** Any number of
notifications of one order, interleaved in any way in which a notification
commits only while no other one has loaded its rows and has its own commit
still to come: in every state reached by the time `T`, the plan's days are in
the account at most once, at most one device was issued, and at most one entry
spends for the order. -/
theorem at_most_once_of_exclusive (cfg : Settings) (T : Time) (notices : κ → Call) (w₀ : World)
    (p : Payment) (hp : w₀.db.payments.find p.id = some p)
    (hspends : (spendsOf w₀.db.creditEntries.rows p.id).length ≤ 1)
    (hnotice : ∀ k, (notices k).IsNotice ∧ Call.About cfg w₀.db p (notices k))
    {sched : List (κ × Input)} {W : Set κ}
    (h : Exclusive (Before T) booksAndDevices ⟨w₀, fun k => (notices k).run cfg⟩ sched W) :
    AtMostOnce T p w₀.db ((Cfg.mk w₀ fun k => (notices k).run cfg).run sched).state.db := by
  have hspec : ∀ k d, ((notices k).run cfg).Once (Before T) booksAndDevices d
      (fun s t => (notices k).Commits (Before T) (· ≤ T) cfg s.db t.db)
      (fun s t => booksAndDevices t = booksAndDevices s) (fun _ => True) (fun _ => True) :=
    fun k d => once_notice (View.booksAndDevices T d) cfg (hnotice k).1
  obtain ⟨l, -, -, hser, -⟩ := serial_of_exclusive (N := fun _ _ => True)
    (C := fun _ _ => True) hspec h
  exact atMostOnce_of_phase hspends (phase_of_serial hp hnotice hser)

end

/-! ### Overlapping notifications -/

/-- An account with nothing but a name. -/
def plainUser (n : ℕ) : User := { id := n, username := "ann" }

/-- One account and one open order that spends 50 of its credit. -/
def creditOrder : World where
  db := {
    users := (default : Table User).insert plainUser fun _ => rfl
    payments := (default : Table Payment).insert (fun n =>
      { id := n, userId := 0, plan := "basic-1m", amount := 300, creditSpent := 50,
        provider := some "platega", providerRef := some "t-1" }) fun _ => rfl }

/-- The order of `creditOrder`. -/
def creditPayment : Payment :=
  { id := 0, userId := 0, plan := "basic-1m", amount := 300, creditSpent := 50,
    provider := some "platega", providerRef := some "t-1" }

/-- The gateway confirms; the node has given the first address to the session
`true`, refuses it to the other one and takes the next. -/
def deliveryInput (k : Bool) : Input where
  keys := some (if k then "pub-a" else "pub-b", "psk")
  gateway := fun _ => some (.obj [("status", .str "CONFIRMED"),
    ("paymentDetails", .obj [("amount", .int 300)])])
  add := fun _ peer =>
    if k then (.ok, { runtime := [⟨"pub-a", [peer.ip]⟩] })
    else if peer.ip = "10.88.88.42/32"
    then (.refused "ip in use: 10.88.88.42/32", { runtime := [⟨"pub-a", [peer.ip]⟩] })
    else (.ok, { runtime := [⟨"pub-a", ["10.88.88.42/32"]⟩, ⟨"pub-b", [peer.ip]⟩] })

/-- Two deliveries of the same notification. -/
def twoDeliveries : Cfg Bool World Input Exn Response :=
  ⟨creditOrder, fun _ => plategaCallback withSecret nudgeOrder⟩

/-- `false` loads the order, `true` runs from start to end, `false` goes on. -/
def lateReader : List (Bool × Input) :=
  [(false, deliveryInput false)] ++ List.replicate 16 (true, deliveryInput true)
    ++ List.replicate 16 (false, deliveryInput false)

/-- `true` reads everything up to its commit, `false` runs from start to end,
`true` commits. -/
def lateCommit : List (Bool × Input) :=
  List.replicate 11 (true, deliveryInput true) ++ List.replicate 16 (false, deliveryInput false)
    ++ List.replicate 5 (true, deliveryInput true)

/-- At the time 0 the account of `creditOrder` gets at most the 30 days of its
plan. -/
lemma untilOf_le_of_atMostOnce {db : Db} {u : Time}
    (h : AtMostOnce 0 creditPayment creditOrder.db db) (hu : db.untilOf 0 = some u) :
    u ≤ days 30 := by
  rcases h.extension with heq | ⟨user, info, t, ht, huser, hinfo, heq⟩
  · rw [show creditPayment.userId = 0 from rfl, hu] at heq
    cases heq
  · rw [show creditPayment.userId = 0 from rfl, hu] at heq
    have hlookup : planInfo (some creditPayment.plan)
        = some { tier := .basic, configs := 2, days := 30, amount := 350 } := by decide
    obtain rfl := Option.some.inj (hlookup.symm.trans hinfo)
    have hfound : creditOrder.db.users.find creditPayment.userId
        = some { id := 0, username := "ann" } := by decide
    obtain rfl := Option.some.inj (hfound.symm.trans huser)
    have hrewards : rewardDays (dueRewards creditOrder.db.referralRewards.rows 0 t) = 0 := rfl
    rw [Option.some.inj heq, hrewards]
    simp [extendedUntil, ht]

/-- Two notifications of one order, interleaved in two ways. In the first, the
second handler has loaded the order before the first one commits and extends
the account again: 60 days for a plan of 30. In the second, both have read the
devices and the ledger before either commits: two devices are issued and the
credit is spent twice. Neither run is at most once. -/
theorem overlapping_notifications :
    ((∀ k, (twoDeliveries.run lateReader).Ended k (.ok .ok))
      ∧ (twoDeliveries.run lateReader).state.db.untilOf 0 = some (days 60)
      ∧ ¬ AtMostOnce 0 creditPayment creditOrder.db (twoDeliveries.run lateReader).state.db)
    ∧ (∀ k, (twoDeliveries.run lateCommit).Ended k (.ok .ok))
      ∧ (twoDeliveries.run lateCommit).state.db.configs.rows.length = 2
      ∧ (spendsOf (twoDeliveries.run lateCommit).state.db.creditEntries.rows 0).length = 2
      ∧ ¬ AtMostOnce 0 creditPayment creditOrder.db (twoDeliveries.run lateCommit).state.db := by
  have huntil : (twoDeliveries.run lateReader).state.db.untilOf 0 = some (days 60) := by
    decide
  have hdevices : (twoDeliveries.run lateCommit).state.db.configs.rows.length = 2 := by
    decide
  have hspends : (spendsOf (twoDeliveries.run lateCommit).state.db.creditEntries.rows 0).length
      = 2 := by
    decide
  refine ⟨⟨?_, huntil, fun h => ?_⟩, ?_, hdevices, hspends, fun h => ?_⟩
  · intro k; cases k <;> rfl
  · have hle := untilOf_le_of_atMostOnce h huntil
    simp [days] at hle
  · intro k; cases k <;> rfl
  · have hle : (spendsOf (twoDeliveries.run lateCommit).state.db.creditEntries.rows 0).length ≤ 1 :=
      h.spends
    omega

/-- `true` runs from start to end, then `false` does. -/
def oneByOne : List (Bool × Input) :=
  List.replicate 16 (true, deliveryInput true) ++ List.replicate 16 (false, deliveryInput false)

/-- Two deliveries in turn: 30 days, once. -/
theorem at_most_once_in_turn :
    (∀ k, (twoDeliveries.run oneByOne).Ended k (.ok .ok))
      ∧ (twoDeliveries.run oneByOne).state.db.untilOf 0 = some (days 30)
      ∧ AtMostOnce 0 creditPayment creditOrder.db (twoDeliveries.run oneByOne).state.db := by
  have hfirst : ∀ m < 16, (twoDeliveries.run
      (List.replicate m (true, deliveryInput true))).state.clock ≤ 0 := by decide
  have hsecond : ∀ m < 16, (twoDeliveries.run (List.replicate 16 (true, deliveryInput true)
      ++ List.replicate m (false, deliveryInput false))).state.clock ≤ 0 := by decide
  have hnil : Exclusive (Before 0) booksAndDevices twoDeliveries [] ∅ := .nil
  obtain ⟨V, hV⟩ := hnil.alone (k := true) (i := deliveryInput true)
    (fun _ _ => Or.inl fun _ => List.not_mem_nil) 16 fun m hm => ⟨hfirst m hm, le_refl (0 : ℤ)⟩
  obtain ⟨W, hW⟩ := hV.alone (k := false) (i := deliveryInput false)
    (fun l hl => Or.inr ⟨.ok .ok, by cases l <;> first | rfl | exact absurd rfl hl⟩) 16
    fun m hm => ⟨hsecond m hm, le_refl (0 : ℤ)⟩
  refine ⟨fun k => by cases k <;> rfl, by decide, ?_⟩
  exact at_most_once_of_exclusive withSecret 0 (fun _ : Bool => .callback nudgeOrder) creditOrder
    creditPayment (by decide) (by decide)
    (fun _ => ⟨trivial, "t-1", by decide, rfl, rfl⟩) hW

end VpnPortal
