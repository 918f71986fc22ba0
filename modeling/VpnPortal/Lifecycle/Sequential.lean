/-
The payment lifecycle when handlers run one after another: orders are opened,
gateways notify, an administrator grants.

A call is read step by step. Every step keeps the orders that are paid, and it
moves accounts, ledger or rewards only by the commit that marks its order paid
(`StepOk`). The invariant that makes the amounts exact is `Settled`: ledger and
rewards name only orders that are paid.

* `Keeps`, `Quiet`, `Pays`, `StepOk`: what one step can do;
* `Settled`, `Settled.step`: the invariant, and that every step keeps it;
* `pays_of_confirms`: in a settled database the commit of an activation pays its order,
  exactly;
* `Call`, `History`, `alone_call`: every step of every call is such a step;
* `payment_lifecycle`: **over whole histories** a paid order never changes, amounts move
  only with the commit that marks an order paid, and by exactly what the order calls for.
-/
import Mathlib
import VpnPortal.Lifecycle.Notification

namespace VpnPortal

open Sessions Tables

/-! ### What a step may do -/

/-- Paid orders stay as they are, and a row that appears has a new number. -/
structure Keeps (db db' : Db) : Prop where
  paid : ∀ n p, db.payments.find n = some p → p.status = "paid" → db'.payments.find n = some p
  fresh : ∀ n p, db'.payments.find n = some p → db.payments.find n = none → db.payments.next ≤ n
  next_le : db.payments.next ≤ db'.payments.next

/-- Accounts, ledger and rewards stay as they are. -/
def Quiet (db db' : Db) : Prop :=
  db'.users = db.users ∧ db'.creditEntries = db.creditEntries
    ∧ db'.referralRewards = db.referralRewards

/-- The reward an order earns, as its source and its referrer: the code belongs
to somebody other than the buyer and something was paid in cash. -/
def earned (db : Db) (p : Payment) : List (ℕ × ℕ) :=
  match codeOwner db.books p with
  | none => []
  | some owner => if owner ≠ p.userId ∧ 0 < p.amount then [(p.id, owner)] else []

/-- The commit that pays the order `p`: the order becomes paid, its credit is
spent, its reward recorded, and nobody else's account is touched. -/
structure Pays (p : Payment) (db db' : Db) : Prop where
  open_ : OpenOrder db p
  paid : ∃ p', db'.payments.find p.id = some p' ∧ p'.status = "paid"
  users : ∀ n, n ≠ p.userId → db'.users.find n = db.users.find n
  spends : db'.creditEntries.rows = db.creditEntries.rows
    ++ if 0 < p.creditSpent then [{ spendEntry p with id := db.creditEntries.next }] else []
  rewards : db'.referralRewards.rows.map (fun r => (r.sourcePaymentId, r.referrerUserId))
    = db.referralRewards.rows.map (fun r => (r.sourcePaymentId, r.referrerUserId)) ++ earned db p

/-- A step of a call: paid orders stay, and accounts, ledger and rewards move
only in the commit that pays an order the call is about. -/
structure StepOk (about : Payment → Prop) (db db' : Db) : Prop where
  keeps : Keeps db db'
  effect : Quiet db db' ∨ ∃ p, about p ∧ Pays p db db'

/-- Ledger and rewards name only orders that are paid, or that are gone. -/
structure Settled (db : Db) : Prop where
  spends : ∀ e ∈ db.creditEntries.rows, e.reason = .spend → ∀ n, e.paymentId = some n →
    n < db.payments.next ∧ ∀ p, db.payments.find n = some p → p.status = "paid"
  rewards : ∀ r ∈ db.referralRewards.rows, r.sourcePaymentId < db.payments.next
    ∧ ∀ p, db.payments.find r.sourcePaymentId = some p → p.status = "paid"

lemma Keeps.of_payments {db db' : Db} (h : db'.payments = db.payments) : Keeps db db' := by
  refine ⟨fun n p hp _ => by rw [h]; exact hp, fun n p hp hn => ?_, by rw [h]⟩
  rw [h, hn] at hp
  cases hp

/-- A write to one open order keeps the others. -/
lemma Keeps.of_open {db db' : Db} {p : Payment} (hopen : OpenOrder db p)
    (hother : ∀ n, n ≠ p.id → db'.payments.find n = db.payments.find n)
    (hnext : db'.payments.next = db.payments.next) : Keeps db db' := by
  obtain ⟨hp, hstatus⟩ := hopen
  refine ⟨fun n q hq hpaid => ?_, fun n q hq hn => ?_, hnext.ge⟩
  · have hne : n ≠ p.id := by
      rintro rfl
      rw [hp] at hq
      obtain rfl := Option.some.inj hq
      exact hstatus hpaid
    rw [hother n hne]
    exact hq
  · have hne : n ≠ p.id := by
      rintro rfl
      rw [hp] at hn
      cases hn
    rw [hother n hne, hn] at hq
    cases hq

lemma StepOk.refl (about : Payment → Prop) (db : Db) : StepOk about db db :=
  ⟨Keeps.of_payments rfl, Or.inl ⟨rfl, rfl, rfl⟩⟩

lemma StepOk.of_switchesOff (about : Payment → Prop) {ids : List ℕ} {db db' : Db}
    (h : SwitchesOff ids db db') : StepOk about db db' := by
  obtain ⟨off, -, rfl⟩ := h
  rw [Db.foldl_deactivate]
  exact ⟨Keeps.of_payments rfl, Or.inl ⟨rfl, rfl, rfl⟩⟩

/-- A number of an old paid order, or of none, is one in the next state too. -/
lemma Keeps.settled_number {db db' : Db} (h : Keeps db db') {n : ℕ}
    (hn : n < db.payments.next ∧ ∀ p, db.payments.find n = some p → p.status = "paid") :
    n < db'.payments.next ∧ ∀ p, db'.payments.find n = some p → p.status = "paid" := by
  refine ⟨hn.1.trans_le h.next_le, fun p hp => ?_⟩
  cases hq : db.payments.find n with
  | none =>
      have hle := h.fresh n p hp hq
      omega
  | some q =>
      have hpaid : q.status = "paid" := hn.2 q hq
      have hkept : db'.payments.find n = some q := h.paid n q hq hpaid
      rw [hp] at hkept
      obtain rfl := Option.some.inj hkept
      exact hpaid

/-- The order that was just paid has a settled number. -/
lemma Pays.settled_number {p : Payment} {db db' : Db} (hk : Keeps db db') (h : Pays p db db') :
    p.id < db'.payments.next ∧ ∀ q, db'.payments.find p.id = some q → q.status = "paid" := by
  refine ⟨(Table.lt_next_of_find h.open_.1).trans_le hk.next_le, fun q hq => ?_⟩
  obtain ⟨p', hp', hpaid⟩ := h.paid
  rw [hq] at hp'
  obtain rfl := Option.some.inj hp'
  exact hpaid

/-- A reward of `db'` names the order just paid, or an order a reward of `db`
names. -/
lemma Pays.source_of_mem {p : Payment} {db db' : Db} (h : Pays p db db') {r : ReferralReward}
    (hr : r ∈ db'.referralRewards.rows) :
    r.sourcePaymentId = p.id
      ∨ ∃ r₀ ∈ db.referralRewards.rows, r₀.sourcePaymentId = r.sourcePaymentId := by
  have hmem : (r.sourcePaymentId, r.referrerUserId) ∈ db'.referralRewards.rows.map
      (fun r => (r.sourcePaymentId, r.referrerUserId)) := List.mem_map_of_mem hr
  rw [h.rewards] at hmem
  rcases List.mem_append.mp hmem with hmem | hmem
  · obtain ⟨r₀, hr₀, heq⟩ := List.mem_map.mp hmem
    exact Or.inr ⟨r₀, hr₀, (Prod.mk.inj heq).1⟩
  · unfold earned at hmem
    split at hmem
    · cases hmem
    · split at hmem
      · exact Or.inl (Prod.mk.inj (List.mem_singleton.mp hmem)).1
      · cases hmem

/-- **The step lemma.** Every step of a call keeps ledger and rewards settled. -/
lemma Settled.step {about : Payment → Prop} {db db' : Db} (h : Settled db)
    (hs : StepOk about db db') : Settled db' := by
  rcases hs.effect with ⟨-, hled, hrew⟩ | ⟨p, -, hp⟩
  · refine ⟨fun e he hspend n hn => ?_, fun r hr => ?_⟩
    · rw [hled] at he
      exact hs.keeps.settled_number (h.spends e he hspend n hn)
    · rw [hrew] at hr
      exact hs.keeps.settled_number (h.rewards r hr)
  · refine ⟨fun e he hspend n hn => ?_, fun r hr => ?_⟩
    · rw [hp.spends] at he
      rcases List.mem_append.mp he with he | he
      · exact hs.keeps.settled_number (h.spends e he hspend n hn)
      · split at he
        · rw [List.mem_singleton.mp he] at hn
          obtain rfl := Option.some.inj hn
          exact hp.settled_number hs.keeps
        · cases he
    · rcases hp.source_of_mem hr with hsrc | ⟨r₀, hr₀, hsrc⟩
      · rw [hsrc]
        exact hp.settled_number hs.keeps
      · rw [← hsrc]
        exact hs.keeps.settled_number (h.rewards r₀ hr₀)

/-! ### The commit of an activation -/

/-- An open order of a settled database has nothing in the ledger yet. -/
lemma Settled.spendsOf_eq_nil {db : Db} (h : Settled db) {p : Payment} (hp : OpenOrder db p) :
    spendsOf db.creditEntries.rows p.id = [] := by
  refine List.filter_eq_nil_iff.mpr fun e he hspend => ?_
  obtain ⟨hreason, hpay⟩ := of_decide_eq_true hspend
  exact hp.2 ((h.spends e he hreason p.id hpay).2 p hp.1)

/-- An open order of a settled database has no reward yet. -/
lemma Settled.no_reward {db : Db} (h : Settled db) {p : Payment} (hp : OpenOrder db p) :
    ∀ r ∈ db.referralRewards.rows, r.sourcePaymentId ≠ p.id := by
  intro r hr hsrc
  exact hp.2 ((h.rewards r hr).2 p (by rw [hsrc]; exact hp.1))

lemma spends_addSpend {db : Db} {p : Payment} {a : Activation} {user : User}
    (ha : a.Drawn db.books user p) (hnone : spendsOf db.creditEntries.rows p.id = []) :
    (a.addSpend db.creditEntries).rows = db.creditEntries.rows
      ++ if 0 < p.creditSpent then [{ spendEntry p with id := db.creditEntries.next }] else [] := by
  have hspend : a.spend = if 0 < p.creditSpent then some (spendEntry p) else none := by
    rw [ha.spend_eq, spendOf]
    by_cases hc : 0 < p.creditSpent
    · rw [if_pos hc, if_neg]
      rintro (h | h)
      · omega
      · exact h hnone
    · rw [if_neg hc, if_pos (Or.inl (by omega))]
  unfold Activation.addSpend
  rw [hspend]
  by_cases hc : 0 < p.creditSpent
  · simp [hc]
  · simp [hc]

lemma rewards_addReward {db : Db} {p : Payment} {a : Activation} {user : User}
    (ha : a.Drawn db.books user p)
    (hnone : ∀ r ∈ db.referralRewards.rows, r.sourcePaymentId ≠ p.id) :
    (a.addReward db.referralRewards).rows.map (fun r => (r.sourcePaymentId, r.referrerUserId))
      = db.referralRewards.rows.map (fun r => (r.sourcePaymentId, r.referrerUserId))
        ++ earned db p := by
  obtain ⟨info, hinfo, -⟩ := ha.new_eq
  have hany : (db.books.referralRewards.rows.any fun r => r.sourcePaymentId = p.id) = false := by
    rw [List.any_eq_false]
    exact fun r hr => by simpa using hnone r hr
  unfold Activation.addReward earned
  rw [ha.reward_eq, rewardOf]
  cases codeOwner db.books p with
  | none => simp
  | some owner =>
      by_cases hc : owner ≠ p.userId ∧ 0 < p.amount
      · have hcond : ¬ (owner = p.userId ∨ (planInfo (some p.plan)).isNone = true ∨ p.amount ≤ 0
            ∨ (db.books.referralRewards.rows.any fun r => r.sourcePaymentId = p.id) = true) := by
          rw [hany, hinfo]
          simp [hc.1, hc.2]
        have hex : ¬ ∃ x ∈ db.referralRewards.rows, x.sourcePaymentId = p.id :=
          fun ⟨x, hx, hsrc⟩ => hnone x hx hsrc
        dsimp only
        rw [if_neg hcond, if_pos hc]
        dsimp only
        rw [if_neg hex]
        simp
      · have hcond : owner = p.userId ∨ (planInfo (some p.plan)).isNone = true ∨ p.amount ≤ 0
            ∨ (db.books.referralRewards.rows.any fun r => r.sourcePaymentId = p.id) = true := by
          by_cases hown : owner = p.userId
          · exact Or.inl hown
          · have hle : p.amount ≤ 0 := by
              by_contra hlt
              exact hc ⟨hown, by omega⟩
            exact Or.inr (Or.inr (Or.inl hle))
        dsimp only
        rw [if_pos hcond, if_neg hc]
        simp

/-- Marking rewards as applied keeps their sources. -/
lemma sources_foldl_markApplied (t : Time) (ids : List ℕ) (rewards : Table ReferralReward) :
    (ids.foldl (markApplied t) rewards).rows.map (fun r => (r.sourcePaymentId, r.referrerUserId))
      = rewards.rows.map fun r => (r.sourcePaymentId, r.referrerUserId) := by
  rw [rows_foldl_markApplied, List.map_map]
  refine List.map_congr_left fun r _ => ?_
  dsimp only [Function.comp]
  split <;> rfl

/-- In a settled database the commit of an activation pays its order, exactly. -/
lemma pays_of_confirms {db db' : Db} {P : Time → Prop} {p : Payment} (h : Settled db)
    (hp : OpenOrder db p) (hc : Confirms P p db db') : Pays p db db' := by
  obtain ⟨user, hu, a, ha, -, rfl⟩ := hc
  have hid : user.id = p.userId := (Table.mem_of_find hu).2
  refine ⟨hp, ⟨a.paid, ha.find_payment hp.1, rfl⟩, fun n hn => ?_, ?_, ?_⟩
  · exact ha.find_user_of_ne (by rw [hid]; exact hn)
  · rw [Activation.write_eq]
    exact spends_addSpend ha (h.spendsOf_eq_nil hp)
  · rw [Activation.write_eq]
    dsimp only
    rw [sources_foldl_markApplied]
    exact rewards_addReward ha (h.no_reward hp)

lemma StepOk.of_confirms {about : Payment → Prop} {P : Time → Prop} {db db' : Db} {p : Payment}
    (h : Settled db) (hp : OpenOrder db p) (habout : about p) (hc : Confirms P p db db') : StepOk about db db' := by
  refine ⟨?_, Or.inr ⟨p, habout, pays_of_confirms h hp hc⟩⟩
  obtain ⟨user, -, a, ha, -, rfl⟩ := hc
  refine Keeps.of_open hp (fun n hn => ha.find_payment_of_ne hn) ?_
  rw [Activation.write_eq]
  rfl

lemma StepOk.of_savePayment {about : Payment → Prop} {db : Db} {p p' : Payment}
    (hp : OpenOrder db p) : StepOk about db (db.savePayment p p') := by
  exact ⟨Keeps.of_open hp (fun n hn => find_saveOrder_of_ne hn) rfl, Or.inl ⟨rfl, rfl, rfl⟩⟩

/-! ### The calls -/

/-- A call of one of the payment endpoints. -/
inductive Call where
  | order (username : String) (req : OrderRequest)
  | orderPlatega (username : String) (req : OrderRequest)
  | callback (req : CallbackRequest)
  | webhook (data : Option (List (String × Json)))
  | grant (username plan : String)

/-- The handler of a call. -/
def Call.run (cfg : Settings) : Call → Portal Response
  | .order username req => createPayment cfg username req
  | .orderPlatega username req => createPaymentPlatega cfg username req
  | .callback req => plategaCallback cfg req
  | .webhook data => paymentWebhook cfg data
  | .grant username plan => VpnPortal.grant cfg username plan

/-- A notification of a gateway. -/
def Call.IsNotice : Call → Prop
  | .callback _ => True
  | .webhook _ => True
  | _ => False

/-- The order a call is about: the one a notification names, or the one a grant
is about to record. -/
def Call.About (cfg : Settings) (db : Db) (p : Payment) : Call → Prop
  | .order _ _ => False
  | .orderPlatega _ _ => False
  | .callback req => ∃ txn, req.txn? cfg = some txn ∧ p.providerRef = some txn
      ∧ p.provider = some "platega"
  | .webhook data => ∃ fields, data = some fields
      ∧ (Json.get fields "order_id").isStr (toString p.id) = true
  | .grant _ _ => p.id = db.payments.next ∧ p.provider = some "manual"

/-- Whatever the clock, the keys, the gateway and the nodes answer. -/
def anyInput : World → Input → Prop := fun _ _ => True

/-- A finite sequence of calls, one after another. -/
inductive History (cfg : Settings) : List Call → World → World → Prop where
  | nil (w : World) : History cfg [] w w
  | snoc {calls : List Call} {call : Call} {w w₁ w₂ : World} {r : Except Exn Response} :
      History cfg calls w w₁ → Proc.Runs anyInput (call.run cfg) w₁ r w₂ →
      History cfg (calls ++ [call]) w w₂

section

variable {α : Type} {J : World → Input → Prop} {w : World} {S : Db → Db → Prop}

/-- A part that keeps the database. -/
lemma alone_of_reads {N : Except Exn α → Prop} {p : Portal α}
    (h : Proc.Reads J World.db w.db N p) (hS : S w.db w.db) :
    Proc.Alone J (fun s t => S s.db t.db) (fun r t => t.db = w.db ∧ N r) p w := by
  refine (h.alone rfl).mono ?_ ?_
  · rintro s t (⟨hs, ht⟩ | ⟨-, h⟩ | h)
    · rw [hs, ht]; exact hS
    · exact h.elim
    · exact h.elim
  · rintro r t (h | ⟨u, v, -, h, -⟩)
    · exact h
    · exact h.elim

/-- A part that commits once, and then only switches devices off. -/
lemma alone_of_once {X : Db → Db → Prop} {N C : Except Exn α → Prop} {p : Portal α}
    (h : Proc.Once J World.db w.db (fun s t => X s.db t.db) (fun s t => ∃ ids, OffStep ids s t)
      N C p)
    (hrefl : S w.db w.db) (hX : ∀ db', X w.db db' → S w.db db')
    (hoff : ∀ ids db db', SwitchesOff ids db db' → S db db') :
    Proc.Alone J (fun s t => S s.db t.db)
      (fun r t => (t.db = w.db ∧ N r)
        ∨ ∃ db₁ off, X w.db db₁ ∧ t.db = List.foldl Db.deactivate db₁ off ∧ C r) p w := by
  refine (h.alone rfl).mono ?_ ?_
  · rintro s t (⟨hs, ht⟩ | ⟨hs, h⟩ | ⟨ids, -, h⟩)
    · rw [hs, ht]; exact hrefl
    · rw [hs] at h ⊢; exact hX _ h
    · exact hoff ids _ _ h
  · rintro r t (h | ⟨u, v, hu, h, hstar, hC⟩)
    · exact Or.inl h
    · rw [hu] at h
      refine Or.inr ?_
      have hoff : ∃ off, t.db = List.foldl Db.deactivate v.db off := by
        induction hstar with
        | refl => exact ⟨[], rfl⟩
        | tail _ hstep ih =>
            obtain ⟨off, ih⟩ := ih
            obtain ⟨ids, -, off', -, hdb⟩ := hstep
            exact ⟨off ++ off', by rw [List.foldl_append, ← ih]; exact hdb⟩
      obtain ⟨off, hoff⟩ := hoff
      exact ⟨v.db, off, h, hoff, hC⟩

/-- Any property of the steps that is kept carries over to the end of a run. -/
lemma invariant_of_alone {I : Db → Prop} {C : Except Exn α → World → Prop} {p : Portal α}
    (h : Proc.Alone J (fun s t => S s.db t.db) C p w) (hI : ∀ db db', I db → S db db' → I db')
    {r : Except Exn α} {w' : World} (hr : Proc.Runs J p w r w') (hw : I w.db) : I w'.db := by
  obtain ⟨hstar, -⟩ := h.runs hr
  clear hr
  induction hstar with
  | refl => exact hw
  | tail _ hstep ih => exact hI _ _ ih hstep

end

/-! ### Opening an order -/

section

variable {J : World → Input → Prop} {db : Db} {E R : World → World → Prop}

lemma reads_isUsedUp (promo : PromoCode) :
    Proc.Reads J World.db db (fun _ => True) (isUsedUp promo) := by
  unfold isUsedUp
  split
  · trivial
  · exact Proc.Once.look fun _ _ => trivial

lemma reads_resolveCode {cfg : Settings} (code : Option String) (buyer : User) :
    Proc.Reads J World.db db (fun _ => True) (resolveCode cfg code buyer) := by
  unfold resolveCode
  split
  · trivial
  · trivial
  refine Proc.Once.exchange (fun s i _ => rfl) fun s i _ _ => ?_
  refine Proc.Once.look fun s' _ => ?_
  split
  · trivial
  split
  · trivial
  split
  · trivial
  refine Proc.Reads.bind (reads_isUsedUp _) ?_ (fun _ _ => trivial)
  intro used _
  split
  · trivial
  split
  · trivial
  split
  · refine Proc.Once.look fun s'' _ => ?_
    split <;> trivial
  · trivial

lemma reads_registeredPromo {cfg : Settings} (user : User) (code : Option String)
    (promo : Option PromoCode) :
    Proc.Reads J World.db db (fun _ => True) (registeredPromo cfg user code promo) := by
  unfold registeredPromo
  split
  · refine Proc.Once.look fun s _ => ?_
    split
    · exact Proc.Reads.bind (reads_resolveCode _ user) (fun _ _ => trivial) (fun _ _ => trivial)
    · trivial
  · trivial

lemma reads_priceOrder {cfg : Settings} (user : User) (info : PlanInfo) (code : Option String)
    (useCredit : ℤ) :
    Proc.Reads J World.db db (fun _ => True) (priceOrder cfg user info code useCredit) := by
  refine Proc.Reads.bind (reads_resolveCode code user) ?_ (fun _ _ => trivial)
  rintro ⟨promo, refusal⟩ -
  refine Proc.Reads.bind (reads_registeredPromo user code promo) ?_ (fun _ _ => trivial)
  intro promo' _
  refine Proc.Once.exchange (fun s i _ => rfl) fun s i _ _ => ?_
  exact Proc.Once.look fun s' _ => trivial

lemma reads_currentUser (username : String) :
    Proc.Reads J World.db db (fun r => ∀ u, r = .ok u → db.users.find u.id = some u)
      (currentUser username) := by
  refine once_select (v := db.users.rows.filter fun u => u.username = username)
    (fun s hs => by rw [hs]) ?_
  cases hrows : db.users.rows.filter fun u => u.username = username with
  | nil => intro u h; cases h
  | cons user rest =>
      cases rest with
      | cons _ _ => intro u h; cases h
      | nil =>
          have hmem : user ∈ db.users.rows.filter fun u => u.username = username := by
            rw [hrows]; simp
          intro u h
          obtain rfl := Except.ok.inj h
          exact Table.find_of_mem (List.mem_filter.mp hmem).1

end

section

variable {J : World → Input → Prop} {about : Payment → Prop} {w : World}

lemma pending_ne_paid : "pending" ≠ "paid" := by decide

/-- Recording an order. -/
lemma StepOk.of_insert {db : Db} {mk : ℕ → Payment} (hmk : ∀ n, Row.num (mk n) = n) :
    StepOk about db { db with payments := db.payments.insert mk hmk } := by
  refine ⟨⟨fun n p hp _ => Table.find_insert_of_some hmk hp, fun n p hp hn => ?_, ?_⟩,
    Or.inl ⟨rfl, rfl, rfl⟩⟩
  · by_contra hlt
    have hne : n ≠ db.payments.next := by omega
    rw [Table.find_insert_of_ne hmk hne, hn] at hp
    cases hp
  · exact Nat.le_succ _

/-- An order that is not paid after a write of its own row is an open one. -/
lemma openOrder_savePayment {db : Db} {p : Payment} (p' : Payment) (hp : OpenOrder db p) (hid : p'.id = p.id)
    (hmerge : Payment.merge p p' p = p') (hstatus : p'.status ≠ "paid") :
    OpenOrder (db.savePayment p p') p' := by
  refine ⟨?_, hstatus⟩
  have hfind := find_saveOrder_self p' hp.1
  rw [hmerge] at hfind
  rw [hid]
  exact hfind

lemma alone_openOrder {cfg : Settings} (user : User) (req : OrderRequest) (info : PlanInfo) :
    Proc.Alone J (fun s t => StepOk about s.db t.db)
      (fun r t => ∀ p, r = .ok p → OpenOrder t.db p) (openOrder cfg user req info) w := by
  unfold openOrder
  split
  · intro p h; cases h
  refine Proc.Alone.look (StepOk.refl _ _) ?_
  dsimp only
  split
  · intro p h; cases h
  refine (alone_of_reads (reads_priceOrder user info req.code req.useCredit)
    (StepOk.refl about _)).bind ?_ ?_
  · intro quote t _
    split
    · intro p h; cases h
    · refine fun i _ => ⟨StepOk.of_insert fun _ => rfl, fun p h => ?_⟩
      obtain rfl := Except.ok.inj h
      exact ⟨Table.find_insert_next _, pending_ne_paid⟩
  · intro e t _ p h
    cases h

lemma alone_orderFailed {p : Payment} (hp : OpenOrder w.db p) (detail : String) :
    Proc.Alone J (fun s t => StepOk about s.db t.db) (fun _ _ => True) (orderFailed p detail) w :=
  fun _ _ => ⟨StepOk.of_savePayment hp, trivial⟩

lemma alone_createPayment {cfg : Settings} (username : String) (req : OrderRequest) :
    Proc.Alone J (fun s t => StepOk about s.db t.db) (fun _ _ => True)
      (createPayment cfg username req) w := by
  unfold createPayment
  split
  · trivial
  refine (alone_of_reads (reads_currentUser username) (StepOk.refl about _)).bind ?_
    (fun _ _ _ => trivial)
  intro user t _
  refine (alone_openOrder user req _).bind ?_ (fun _ _ _ => trivial)
  intro p t hp
  have hopen : OpenOrder t.db p := hp p rfl
  refine Proc.Alone.ask (StepOk.refl _ _) fun i _ => ?_
  split
  · exact alone_orderFailed hopen _
  · split
    · exact fun _ _ => ⟨StepOk.of_savePayment hopen, trivial⟩
    · trivial
    · trivial
  · trivial

lemma alone_createPaymentPlatega {cfg : Settings} (username : String) (req : OrderRequest) :
    Proc.Alone J (fun s t => StepOk about s.db t.db) (fun _ _ => True)
      (createPaymentPlatega cfg username req) w := by
  unfold createPaymentPlatega
  split
  · trivial
  refine (alone_of_reads (reads_currentUser username) (StepOk.refl about _)).bind ?_
    (fun _ _ _ => trivial)
  intro user t _
  refine (alone_openOrder user req _).bind ?_ (fun _ _ _ => trivial)
  intro opened t hp
  have hopen : OpenOrder t.db opened := hp opened rfl
  refine Proc.Alone.change (StepOk.of_savePayment hopen) ?_
  -- the provider is written, the order is still open
  have hopen' := openOrder_savePayment { opened with provider := some "platega" } hopen rfl
    (by simp [Payment.merge]) hopen.2
  refine Proc.Alone.ask (StepOk.refl _ _) fun i _ => ?_
  split
  · exact alone_orderFailed hopen' _
  · dsimp only
    split
    · exact alone_orderFailed hopen' _
    · split
      · exact fun _ _ => ⟨StepOk.of_savePayment hopen', trivial⟩
      · trivial
  · trivial

/-! ### Notifications and grants -/

lemma alone_plategaCallback (cfg : Settings) (req : CallbackRequest) (h : Settled w.db) :
    Proc.Alone J (fun s t => StepOk (Call.About cfg w.db · (.callback req)) s.db t.db)
      (fun _ _ => True) (plategaCallback cfg req) w := by
  have honce := once_plategaCallback (View.db J w.db) cfg req
  refine (alone_of_once honce (StepOk.refl _ _) ?_
    fun ids _ _ hoff => StepOk.of_switchesOff _ hoff).mono (fun _ _ h => h) fun _ _ _ => trivial
  rintro db' ⟨txn, htxn, -, p, hp, hprov, href, -, status, -, hcase⟩
  have habout : Call.About cfg w.db p (.callback req) := ⟨txn, htxn, href, hprov⟩
  rcases hcase with ⟨-, -, hc⟩ | ⟨-, hr⟩ | ⟨-, hr⟩
  · exact StepOk.of_confirms h hp habout hc
  · rw [Records] at hr; rw [hr]; exact StepOk.of_savePayment hp
  · rw [Records] at hr; rw [hr]; exact StepOk.of_savePayment hp

lemma alone_paymentWebhook (cfg : Settings) (data : Option (List (String × Json)))
    (h : Settled w.db) :
    Proc.Alone J (fun s t => StepOk (Call.About cfg w.db · (.webhook data)) s.db t.db)
      (fun _ _ => True) (paymentWebhook cfg data) w := by
  cases data with
  | none => trivial
  | some fields =>
      have honce := once_paymentWebhook (View.db J w.db) cfg fields
      refine (alone_of_once honce (StepOk.refl _ _) ?_
        fun ids _ _ hoff => StepOk.of_switchesOff _ hoff).mono (fun _ _ h => h) fun _ _ _ => trivial
      rintro db' ⟨p, hp, href, hcase⟩
      rcases hcase with hc | ⟨status, -, hr⟩
      · exact StepOk.of_confirms h hp ⟨fields, rfl, href⟩ hc
      · rw [Records] at hr; rw [hr]; exact StepOk.of_savePayment hp

/-- Taking back an order that was not paid. -/
lemma StepOk.of_remove {db : Db} {p : Payment} (hp : OpenOrder db p) :
    StepOk about db { db with payments := db.payments.remove p.id } :=
  ⟨Keeps.of_open hp (fun _ hn => Table.find_remove_of_ne hn) rfl, Or.inl ⟨rfl, rfl, rfl⟩⟩

/-- An activation of an open order, alone. -/
lemma alone_activatePayment (cfg : Settings) {user : User} {p : Payment} (h : Settled w.db)
    (hp : OpenOrder w.db p) (hu : w.db.users.find p.userId = some user) (habout : about p) :
    Proc.Alone J (fun s t => StepOk about s.db t.db)
      (fun r t => r ≠ .ok true → t.db = w.db) (activatePayment cfg user p) w := by
  have honce := once_activatePayment (View.db J w.db) cfg user p
  refine (alone_of_once honce (StepOk.refl _ _) ?_
    fun ids _ _ hoff => StepOk.of_switchesOff _ hoff).mono (fun _ _ h => h) ?_
  · exact fun db' hact => StepOk.of_confirms h hp habout ⟨user, hu, hact⟩
  · rintro r t (⟨ht, -⟩ | ⟨db₁, off, -, -, hr⟩) hne
    · exact ht
    · exact absurd hr hne

lemma alone_grant (cfg : Settings) (username plan : String) (h : Settled w.db) :
    Proc.Alone J (fun s t => StepOk (Call.About cfg w.db · (.grant username plan)) s.db t.db)
      (fun _ _ => True) (VpnPortal.grant cfg username plan) w := by
  unfold VpnPortal.grant
  split
  · trivial
  refine (alone_of_reads (reads_currentUser _) (StepOk.refl _ _)).bind ?_ (fun _ _ _ => trivial)
  rintro user t ⟨ht, hfind⟩
  have hu : w.db.users.find user.id = some user := hfind user rfl
  split
  · trivial
  refine Proc.Alone.exchange (fun i _ => StepOk.of_insert fun _ => rfl) fun i _ => ?_
  have hopen : OpenOrder { t.db with
      payments := t.db.payments.insert (grantPayment user plan) fun _ => rfl }
      (grantPayment user plan t.db.payments.next) :=
    ⟨Table.find_insert_next fun _ => rfl, pending_ne_paid⟩
  have hinsert : StepOk (fun _ => False) t.db { t.db with
      payments := t.db.payments.insert (grantPayment user plan) fun _ => rfl } :=
    StepOk.of_insert fun _ => rfl
  have hsettled := Settled.step (by rw [ht]; exact h) hinsert
  refine (alone_activatePayment cfg hsettled hopen (by rw [ht]; exact hu) ?_).bind ?_
    (fun _ _ _ => trivial)
  · exact ⟨by rw [← ht]; rfl, rfl⟩
  · intro ok t' hpost
    split
    · trivial
    · rename_i hok
      have hdb := hpost (by simpa using hok)
      have hopen' : OpenOrder t'.db (grantPayment user plan t.db.payments.next) := by
        rw [hdb]; exact hopen
      exact fun i _ => ⟨StepOk.of_remove hopen', trivial⟩

/-- Every step of every call from a settled database. -/
lemma alone_call (cfg : Settings) (call : Call) (h : Settled w.db) :
    Proc.Alone J (fun s t => StepOk (Call.About cfg w.db · call) s.db t.db) (fun _ _ => True)
      (call.run cfg) w := by
  cases call with
  | order username req => exact alone_createPayment username req
  | orderPlatega username req => exact alone_createPaymentPlatega username req
  | callback req => exact alone_plategaCallback cfg req h
  | webhook data => exact alone_paymentWebhook cfg data h
  | grant username plan => exact alone_grant cfg username plan h

/-! ### A notification of a paid order -/

/-- Nothing happens: the handler finds the order paid, or finds no single order
and gives up. -/
lemma alone_notified_paid (cfg : Settings) {call : Call} {p : Payment}
    (hp : w.db.payments.find p.id = some p) (hpaid : p.status = "paid")
    (hcall : call.IsNotice) (habout : Call.About cfg w.db p call) :
    Proc.Alone J (fun _ _ => True) (fun _ t => t = w) (call.run cfg) w := by
  have hmem : p ∈ w.db.payments.rows := (Table.mem_of_find hp).1
  cases call with
  | order _ _ => exact hcall.elim
  | orderPlatega _ _ => exact hcall.elim
  | grant _ _ => exact hcall.elim
  | callback req =>
    obtain ⟨txn, htxn, href, hprov⟩ := habout
    show Proc.Alone J _ _ (plategaCallback cfg req) w
    unfold plategaCallback
    split
    · exact rfl
    · exact rfl
    rw [htxn]
    dsimp only [plategaNudge]
    split
    · exact rfl
    refine Proc.Alone.look trivial ?_
    dsimp only
    have hrow : p ∈ w.db.payments.rows.filter fun p =>
        p.providerRef = some txn ∧ p.provider = some "platega" :=
      List.mem_filter.mpr ⟨hmem, by simp [href, hprov]⟩
    cases hrows : w.db.payments.rows.filter fun p =>
        p.providerRef = some txn ∧ p.provider = some "platega" with
    | nil => rw [hrows] at hrow; cases hrow
    | cons q rest =>
        cases rest with
        | cons _ _ => exact rfl
        | nil =>
            rw [hrows] at hrow
            obtain rfl := List.mem_singleton.mp hrow
            show Proc.Alone J _ _ (if p.status = "paid" then pure Response.ok else _) w
            rw [if_pos hpaid]
            exact rfl
  | webhook data =>
    obtain ⟨fields, rfl, hid⟩ := habout
    show Proc.Alone J _ _ (paymentWebhook cfg (some fields)) w
    unfold paymentWebhook
    dsimp only
    split
    · exact rfl
    split
    · rename_i ref href
      rw [href] at hid
      have hid : ref = toString p.id := by simpa [Json.isStr] using hid
      refine Proc.Alone.look trivial ?_
      dsimp only
      split
      · exact rfl
      · rename_i q hq
        have hqmem : q ∈ w.db.payments.rows := List.mem_of_find?_eq_some hq
        have hqid : toString q.id = ref := by simpa using List.find?_some hq
        have heq : q.id = p.id := Nat.repr_injective (hqid.trans hid)
        obtain rfl := Table.eq_of_num_eq hqmem hmem heq
        rw [if_pos hpaid]
        exact rfl
    · exact rfl

end

/-! ### Whole histories -/

/-- The invariant along a history. -/
lemma History.settled {cfg : Settings} {calls : List Call} {w w' : World}
    (h : History cfg calls w w') (hw : Settled w.db) : Settled w'.db := by
  induction h with
  | nil w => exact hw
  | snoc _ hrun ih =>
      exact invariant_of_alone (alone_call cfg _ (ih hw)) (fun _ _ hI hs => hI.step hs) hrun (ih hw)

/-- A paid order along a history. -/
lemma History.find_paid {cfg : Settings} {calls : List Call} {w w' : World}
    (h : History cfg calls w w') (hw : Settled w.db) {n : ℕ} {p : Payment}
    (hp : w.db.payments.find n = some p) (hpaid : p.status = "paid") :
    w'.db.payments.find n = some p := by
  induction h with
  | nil w => exact hp
  | snoc hpre hrun ih =>
      refine invariant_of_alone (I := fun db => db.payments.find n = some p)
        (alone_call cfg _ (hpre.settled hw)) ?_ hrun (ih hw hp)
      exact fun _ _ hfind hs => hs.keeps.paid n p hfind hpaid

/-- **The sequential payment lifecycle.** From a database whose ledger and
rewards name only paid orders, after any sequence of calls:
a paid order never changes again, and a notification of it changes nothing at
all; every single step of the next call moves accounts, ledger or rewards only
if it is the commit that marks its order paid, which adds exactly the spend
entry and the reward the order calls for; and an activation that answers `false`
has left the database as it was. -/
theorem payment_lifecycle (cfg : Settings) {w₀ w : World} {calls : List Call}
    (h₀ : Settled w₀.db) (h : History cfg calls w₀ w) :
    (∀ later w', History cfg later w w' → ∀ n p, w.db.payments.find n = some p →
      p.status = "paid" → w'.db.payments.find n = some p)
    ∧ (∀ call p r w', w.db.payments.find p.id = some p → p.status = "paid" →
      call.IsNotice → Call.About cfg w.db p call → Proc.Runs anyInput (call.run cfg) w r w' → w' = w)
    ∧ (∀ call, Proc.Alone anyInput (fun s t => StepOk (Call.About cfg w.db · call) s.db t.db)
      (fun _ _ => True) (call.run cfg) w)
    ∧ ∀ user payment w',
      Proc.Runs anyInput (activatePayment cfg user payment) w (.ok false) w' → w'.db = w.db := by
  have hw : Settled w.db := h.settled h₀
  refine ⟨?_, ?_, fun call => alone_call cfg call hw, ?_⟩
  · intro later w' hlater n p hp hpaid
    exact hlater.find_paid hw hp hpaid
  · intro call p r w' hp hpaid hcall habout hrun
    exact ((alone_notified_paid cfg hp hpaid hcall habout).runs hrun).2
  · intro user payment w' hrun
    have honce := once_activatePayment (View.db anyInput w.db) cfg user payment
    rcases ((honce.alone rfl).runs hrun).2 with ⟨hdb, -⟩ | ⟨u, v, -, -, -, hr⟩
    · exact hdb
    · cases hr

/-- One account with one open order of Platega. -/
def oneOrder : World where
  db := {
    users := (default : Table User).insert (fun n => { id := n, username := "ann" }) fun _ => rfl
    payments := (default : Table Payment).insert (fun n =>
      { id := n, userId := 0, plan := "basic-1m", amount := 350, provider := some "platega",
        providerRef := some "t-1" }) fun _ => rfl }

/-- The secret is set. -/
def withSecret : Settings := { plategaSecret := "s" }

/-- The notification of that order. -/
def nudgeOrder : CallbackRequest := ⟨some "s", some (.obj [("id", .str "t-1")])⟩

/-- The gateway confirms the full amount and the node takes the device. -/
def confirming : Input where
  keys := some ("pub", "psk")
  gateway := fun _ => some (.obj [("status", .str "CONFIRMED"),
    ("paymentDetails", .obj [("amount", .int 350)])])
  add := fun _ _ => (.ok, {})

lemma settled_oneOrder : Settled oneOrder.db :=
  ⟨fun _ he => (List.not_mem_nil he).elim, fun _ hr => (List.not_mem_nil hr).elim⟩

/-- The order is confirmed and stays paid. -/
theorem payment_lifecycle_oneOrder :
    ((plategaCallback withSecret nudgeOrder).play confirming oneOrder).2.db.payments.rows.map
        Payment.status = ["paid"]
      ∧ ∀ later w', History withSecret later
          ((plategaCallback withSecret nudgeOrder).play confirming oneOrder).2 w' →
        ∀ n p, ((plategaCallback withSecret nudgeOrder).play confirming oneOrder).2.db.payments.find
          n = some p → p.status = "paid" → w'.db.payments.find n = some p := by
  have hist : History withSecret ([] ++ [.callback nudgeOrder]) oneOrder
      ((plategaCallback withSecret nudgeOrder).play confirming oneOrder).2 :=
    (History.nil oneOrder).snoc (Proc.runs_play (fun _ => trivial) _ _)
  exact ⟨by decide, (payment_lifecycle withSecret settled_oneOrder hist).1⟩

end VpnPortal
