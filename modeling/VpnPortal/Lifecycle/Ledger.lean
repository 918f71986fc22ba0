/-
The credit ledger along whole runs: entries are credited, time passes, orders
are opened and paid.

`spend_on_payment` deducts the credit an order was opened with when the order is
paid, and does not look at the balance again. Entries that earn drop out of the
balance at their expiry, entries that spend never do. So a run keeps its ledger
sound exactly as long as each payment is covered when it is made: by credit that
never expires, if the balance is to stay non-negative for good
(`balance_nonneg_iff`), and by the balance of that moment, if nothing expires
(`spent_once_iff`).

* `creditSum`, `lasting`, `spentBy`, `vestedBy`: sums over the ledger;
* `PaidNow`, `LedgerMove`, `ledger_of_call`: a call leaves the ledger alone or pays one
  order, which spends the credit it was opened with;
* `LedgerStep`, `Kept`, `Kept.step`: runs and their invariant;
* `balance_nonneg_iff`, `spent_once_iff`: the two laws along a run, and
  `expired_credit_leaves_debt`, `points_spent_twice`: runs in which a payment breaks them.
-/
import VpnPortal.Access.Calls
import VpnPortal.Timeline.Trail

namespace VpnPortal

open Sessions Tables Timeline

/-! ### Sums over the ledger -/

/-- The sum of the entries that satisfy `p`. -/
def creditSum (p : CreditEntry → Bool) (es : List CreditEntry) : ℤ :=
  ((es.filter p).map CreditEntry.delta).sum

@[simp] lemma creditSum_nil (p : CreditEntry → Bool) : creditSum p [] = 0 := rfl

@[simp] lemma creditSum_cons (p : CreditEntry → Bool) (e : CreditEntry) (es : List CreditEntry) :
    creditSum p (e :: es) = (if p e then e.delta else 0) + creditSum p es := by
  unfold creditSum
  by_cases h : p e = true <;> simp [h]

@[simp] lemma creditSum_append (p : CreditEntry → Bool) (es fs : List CreditEntry) :
    creditSum p (es ++ fs) = creditSum p es + creditSum p fs := by
  simp [creditSum]

/-- Sums are compared entry by entry. -/
lemma creditSum_le {p q : CreditEntry → Bool} {es : List CreditEntry}
    (h : ∀ e ∈ es, (if p e then e.delta else 0) ≤ if q e then e.delta else 0) :
    creditSum p es ≤ creditSum q es := by
  induction es with
  | nil => simp
  | cons e es ih =>
      have hhead := h e (by simp)
      have htail := ih fun x hx => h x (by simp [hx])
      simp only [creditSum_cons]
      omega

/-- The entries of an account that are in force at the time `t`. -/
def inForce (n : ℕ) (t : Time) (e : CreditEntry) : Bool :=
  e.userId = n ∧ e.vestsAt.all (· ≤ t) ∧ e.expiresAt.all (t < ·)

lemma balance_eq (db : Db) (n : ℕ) (t : Time) :
    balance db n t = creditSum (inForce n t) db.creditEntries.rows := by
  rfl

/-- The undated entries of an account. -/
def undated (n : ℕ) (e : CreditEntry) : Bool :=
  e.userId = n ∧ e.vestsAt = none ∧ e.expiresAt = none

/-- The credit of an account that never expires, less what was spent. -/
def lasting (db : Db) (n : ℕ) : ℤ := creditSum (undated n) db.creditEntries.rows

/-- What an account has spent. -/
def spentBy (db : Db) (n : ℕ) : ℤ :=
  -creditSum (fun e => e.userId = n ∧ e.reason = .spend) db.creditEntries.rows

/-- What an account has earned and is vested by the time `t`. -/
def vestedBy (db : Db) (n : ℕ) (t : Time) : ℤ :=
  creditSum (fun e => e.userId = n ∧ 0 < e.delta ∧ e.vestsAt.all (· ≤ t)) db.creditEntries.rows

/-! ### What a call does to the ledger -/

/-- The order `q` is paid by the step. -/
def PaidNow (db db' : Db) (q : Payment) : Prop :=
  db'.payments.find q.id = some q ∧ q.status = "paid" ∧ db.payments.find q.id ≠ some q

lemma not_paidNow_of_payments {db db' : Db} (h : db'.payments = db.payments) (q : Payment) :
    ¬ PaidNow db db' q := by
  rintro ⟨hq, -, hnew⟩
  rw [h] at hq
  exact hnew hq

/-- The entry of a spend names an order that is paid. -/
structure SpendRow (db : Db) (e : CreditEntry) : Prop where
  reason : e.reason = .spend
  neg : e.delta < 0
  vests : e.vestsAt = none
  expires : e.expiresAt = none
  paid : ∃ n q, e.paymentId = some n ∧ db.payments.find n = some q ∧ q.status = "paid"

/-- The entry the order `q` adds when it is paid. -/
def spendsWhenPaid (q : Payment) (n : ℕ) : List CreditEntry :=
  if 0 < q.creditSpent then [{ spendEntry q with id := n }] else []

/-- Paid orders stay paid, and the ledger grows by the spend of the order that
the step pays, if it pays one. -/
structure LedgerMove (db db' : Db) : Prop where
  paid : ∀ n q, q.status = "paid" → db.payments.find n = some q → db'.payments.find n = some q
  entries : (db'.creditEntries = db.creditEntries ∧ ∀ q, ¬ PaidNow db db' q)
    ∨ ∃ q, (∀ q', PaidNow db db' q' ↔ q' = q)
      ∧ db'.creditEntries.rows = db.creditEntries.rows ++ spendsWhenPaid q db.creditEntries.next

/-- Each order in the ledger is paid. -/
def SpendsPaid (db : Db) : Prop :=
  ∀ e ∈ db.creditEntries.rows, e.reason = .spend → SpendRow db e

lemma SpendsPaid.spendsOf_eq_nil {db : Db} (h : SpendsPaid db) {p : Payment} (hp : OpenOrder db p) :
    spendsOf db.creditEntries.rows p.id = [] := by
  refine List.filter_eq_nil_iff.mpr fun e he hspend => ?_
  obtain ⟨hreason, hpay⟩ := of_decide_eq_true hspend
  obtain ⟨n, q, hn, hq, hpaid⟩ := (h e he hreason).paid
  obtain rfl := Option.some.inj (hpay.symm.trans hn)
  obtain rfl := Option.some.inj (hp.1.symm.trans hq)
  exact hp.2 hpaid

lemma ledgerMove_of_filed {db db' : Db} (h : Filed db db') : LedgerMove db db' where
  paid n q hpaid hq := (h.paid n q hpaid).mpr hq
  entries := by
    refine Or.inl ⟨by rw [h.rest], ?_⟩
    rintro q ⟨hq, hpaid, hnew⟩
    exact hnew ((h.paid _ q hpaid).mp hq)

lemma ledgerMove_of_sold {t : Time} {user : User} {p : Payment} {db db' : Db} (hs : SpendsPaid db)
    (h : Sold t user p db db') : LedgerMove db db' := by
  obtain ⟨db₁, a, ids, hfiled, hopen, -, -, ha, -, -, off, -, hdb⟩ := h
  have hpay : db'.payments = (a.write db₁).payments := by rw [hdb, Db.foldl_deactivate]
  have hled : db'.creditEntries = (a.write db₁).creditEntries := by rw [hdb, Db.foldl_deactivate]
  have hsame : db₁.creditEntries = db.creditEntries := by rw [hfiled.rest]
  have hown : db'.payments.find p.id = some a.paid := by
    rw [hpay]
    exact ha.find_payment hopen.1
  have hother : ∀ m, m ≠ p.id → db'.payments.find m = db₁.payments.find m := by
    intro m hm
    rw [hpay]
    exact ha.find_payment_of_ne hm
  have hid : a.paid.id = p.id := by rw [Activation.paid, ha.payment_eq]
  have hold : db.payments.find p.id ≠ some a.paid := by
    intro hrow
    have hrow' := (hfiled.paid p.id a.paid rfl).mpr hrow
    obtain rfl := Option.some.inj (hopen.1.symm.trans hrow')
    exact hopen.2 rfl
  refine ⟨fun n q hpaid hq => ?_, Or.inr ⟨a.paid, fun q' => ⟨?_, ?_⟩, ?_⟩⟩
  · have hq₁ := (hfiled.paid n q hpaid).mpr hq
    have hn : n ≠ p.id := by
      rintro rfl
      obtain rfl := Option.some.inj (hopen.1.symm.trans hq₁)
      exact hopen.2 hpaid
    rw [hother n hn]
    exact hq₁
  · rintro ⟨hq, hpaid, hnew⟩
    by_cases hm : q'.id = p.id
    · rw [hm, hown] at hq
      exact (Option.some.inj hq).symm
    · rw [hother _ hm] at hq
      exact absurd ((hfiled.paid _ q' hpaid).mp hq) hnew
  · rintro rfl
    exact ⟨by rw [hid]; exact hown, rfl, by rw [hid]; exact hold⟩
  · -- an open order has no spend yet, so its credit is deducted now
    have hnone : spendsOf db₁.creditEntries.rows p.id = [] := by
      have hpaid₁ : SpendsPaid db₁ := by
        intro e he hreason
        obtain ⟨hr, hneg, hv, hx, n, q, hn, hq, hpaid⟩ := hs e (by rw [← hsame]; exact he) hreason
        exact ⟨hr, hneg, hv, hx, n, q, hn, (hfiled.paid n q hpaid).mpr hq, hpaid⟩
      exact hpaid₁.spendsOf_eq_nil hopen
    have hrows := spends_addSpend ha hnone
    rw [hled, Activation.write_eq]
    dsimp only
    rw [hrows, hsame, spendsWhenPaid]
    have hcs : a.paid.creditSpent = p.creditSpent := by rw [Activation.paid, ha.payment_eq]
    have hentry : spendEntry a.paid = spendEntry p := by
      rw [Activation.paid, ha.payment_eq]
      rfl
    rw [hcs, hentry]

/-- **What a call does to the ledger.** -/
lemma ledger_of_call {J : World → Input → Prop} {cfg : Settings} {c : Call} {w w' : World}
    {r : Except Exn Response} (hs : SpendsPaid w.db) (h : Proc.Runs J (c.run cfg) w r w') :
    w.clock ≤ w'.clock ∧ LedgerMove w.db w'.db := by
  obtain ⟨hclock, hfiled | ⟨user, p, -, hsold⟩⟩ := effect_of_call c h
  · exact ⟨hclock, ledgerMove_of_filed hfiled⟩
  · exact ⟨hclock, ledgerMove_of_sold hs hsold⟩

/-! ### Runs -/

/-- A positive entry is added to the ledger. -/
def Db.credit (db : Db) (e : CreditEntry) : Db :=
  { db with creditEntries := db.creditEntries.insert (fun n => { e with id := n }) e.num_withId }

/-- An entry that earns. -/
def CreditEntry.Earns (e : CreditEntry) : Prop := 0 < e.delta ∧ e.reason ≠ .spend

/-- One step of a run: an entry of `P` is credited, time passes, or a payment
endpoint is called, whatever its answers. -/
inductive LedgerStep (cfg : Settings) (P : CreditEntry → Prop) (w : World) : World → Prop where
  | credit (e : CreditEntry) : e.Earns → P e → LedgerStep cfg P w { w with db := w.db.credit e }
  | wait (t : Time) : w.clock ≤ t → LedgerStep cfg P w { w with clock := t }
  | call (c : Call) {r : Except Exn Response} {w' : World} :
      Proc.Runs anyInput (c.run cfg) w r w' → LedgerStep cfg P w w'

/-- Every entry earns under `P`, or is the spend of a paid order. -/
def Kept (P : CreditEntry → Prop) (db : Db) : Prop :=
  ∀ e ∈ db.creditEntries.rows, (e.Earns ∧ P e) ∨ SpendRow db e

section

variable {cfg : Settings} {P : CreditEntry → Prop} {w w' : World}

lemma Kept.spendsPaid {db : Db} (h : Kept P db) : SpendsPaid db := by
  intro e he hreason
  rcases h e he with ⟨⟨-, hne⟩, -⟩ | hrow
  · exact absurd hreason hne
  · exact hrow

lemma SpendRow.move {db db' : Db} {e : CreditEntry} (h : SpendRow db e) (hm : LedgerMove db db') :
    SpendRow db' e := by
  obtain ⟨n, q, hn, hq, hpaid⟩ := h.paid
  exact ⟨h.reason, h.neg, h.vests, h.expires, n, q, hn, hm.paid n q hpaid hq, hpaid⟩

lemma spendRow_of_paidNow {db db' : Db} {q : Payment} (hq : PaidNow db db' q) {n : ℕ} {e : CreditEntry}
    (he : e ∈ spendsWhenPaid q n) : SpendRow db' e := by
  unfold spendsWhenPaid at he
  split at he
  · rename_i hpos
    rw [List.mem_singleton.mp he]
    exact ⟨rfl, by dsimp only [spendEntry]; omega, rfl, rfl, q.id, q, rfl, hq.1, hq.2.1⟩
  · cases he

lemma Kept.move {db db' : Db} (h : Kept P db) (hm : LedgerMove db db') : Kept P db' := by
  intro e he
  have hold : ∀ e ∈ db.creditEntries.rows, (e.Earns ∧ P e) ∨ SpendRow db' e := fun e he =>
    (h e he).imp_right fun hrow => hrow.move hm
  rcases hm.entries with ⟨hsame, -⟩ | ⟨q, hq, hrows⟩
  · rw [hsame] at he
    exact hold e he
  · rw [hrows] at he
    rcases List.mem_append.mp he with he | he
    · exact hold e he
    · exact Or.inr (spendRow_of_paidNow ((hq q).mpr rfl) he)

/-- **The step lemma**: the invariant of the ledger. An entry does not change
with its number. -/
lemma Kept.step (hP : ∀ e n, P e → P { e with id := n }) (h : Kept P w.db)
    (hs : LedgerStep cfg P w w') : Kept P w'.db := by
  cases hs with
  | credit e hearns hPe =>
      intro x hx
      rcases List.mem_append.mp hx with hx | hx
      · exact (h x hx).imp_right fun hrow =>
          ⟨hrow.reason, hrow.neg, hrow.vests, hrow.expires, hrow.paid⟩
      · rw [List.mem_singleton.mp hx]
        exact Or.inl ⟨hearns, hP e _ hPe⟩
  | wait t _ => exact h
  | call c hrun => exact h.move (ledger_of_call h.spendsPaid hrun).2

/-- A payment lowers a sum that counts the undated entries of the buyer, and
only that. -/
lemma creditSum_spendsWhenPaid {p : CreditEntry → Bool} {n : ℕ} (q : Payment) (m : ℕ)
    (hp : ∀ e : CreditEntry, e.vestsAt = none → e.expiresAt = none → (p e = true ↔ e.userId = n)) :
    creditSum p (spendsWhenPaid q m) = if q.userId = n then -max 0 q.creditSpent else 0 := by
  have hentry := hp { spendEntry q with id := m } rfl rfl
  unfold spendsWhenPaid
  by_cases hpos : 0 < q.creditSpent
  · have hmax : max 0 q.creditSpent = q.creditSpent := max_eq_right hpos.le
    rw [if_pos hpos, creditSum_cons, creditSum_nil, hmax, add_zero]
    exact if_congr hentry rfl rfl
  · rw [if_neg hpos, creditSum_nil, max_eq_left (by omega)]
    simp

end

/-! ### The balance stays non-negative -/

/-- An entry with a vesting time and a later expiry, or with neither. -/
def CreditEntry.Dated (e : CreditEntry) : Prop :=
  (e.vestsAt = none ∧ e.expiresAt = none)
    ∨ ∃ v x, e.vestsAt = some v ∧ e.expiresAt = some x ∧ v < x

/-- The balance is non-negative at every time, so that a later credit can be
spent in full while it is in force. -/
structure Solvent (db : Db) : Prop where
  nonneg : ∀ n t, 0 ≤ balance db n t
  credit : ∀ e t, inForce e.userId t e = true → e.delta ≤ balance (db.credit e) e.userId t

lemma balance_credit (db : Db) (e : CreditEntry) (n : ℕ) (t : Time) :
    balance (db.credit e) n t = balance db n t + if inForce n t e then e.delta else 0 := by
  rw [balance_eq, balance_eq, Db.credit, Table.rows_insert, creditSum_append, creditSum_cons,
    creditSum_nil, add_zero]
  rfl

lemma solvent_iff (db : Db) : Solvent db ↔ ∀ n t, 0 ≤ balance db n t := by
  refine ⟨Solvent.nonneg, fun h => ⟨h, fun e t he => ?_⟩⟩
  have hbefore := h e.userId t
  rw [balance_credit, if_pos he]
  omega

/-- A time at which everything that can expire has expired. -/
lemma exists_all_expired (es : List CreditEntry) :
    ∃ t : Time, ∀ e ∈ es, ∀ x, e.expiresAt = some x → x ≤ t := by
  induction es with
  | nil => exact ⟨0, fun e he => by cases he⟩
  | cons e es ih =>
      obtain ⟨t, ht⟩ := ih
      refine ⟨max t (e.expiresAt.getD 0), fun y hy x hx => ?_⟩
      rcases List.mem_cons.mp hy with rfl | hy
      · rw [hx]
        exact le_max_right _ _
      · exact (ht y hy x hx).trans (le_max_left _ _)

/-- In the end only the lasting credit is left, and before that there is at
least as much. -/
lemma nonneg_iff_lasting {db : Db} (h : Kept CreditEntry.Dated db) :
    (∀ n t, 0 ≤ balance db n t) ↔ ∀ n, 0 ≤ lasting db n := by
  constructor
  · intro hall n
    obtain ⟨t, ht⟩ := exists_all_expired db.creditEntries.rows
    have hend := hall n t
    rw [balance_eq] at hend
    refine hend.trans (creditSum_le fun e he => ?_)
    rcases h e he with ⟨-, ⟨hv, hx⟩ | ⟨v, x, hv, hx, -⟩⟩ | hrow
    · simp [inForce, undated, hv, hx]
    · have hnot : ¬ t < x := not_lt.mpr (ht e he x hx)
      simp [inForce, undated, hv, hx, hnot]
    · simp [inForce, undated, hrow.vests, hrow.expires]
  · intro hall n t
    rw [balance_eq]
    refine (hall n).trans (creditSum_le fun e he => ?_)
    rcases h e he with ⟨⟨hpos, -⟩, ⟨hv, hx⟩ | ⟨v, x, hv, hx, -⟩⟩ | hrow
    · simp [inForce, undated, hv, hx]
    · have hzero : (if undated n e then e.delta else 0) = 0 := by simp [undated, hv]
      rw [hzero]
      split
      · exact hpos.le
      · exact le_rfl
    · simp [inForce, undated, hrow.vests, hrow.expires]

/-- The credit of an order that is paid comes out of what lasts. -/
def CoveredForGood (w w' : World) : Prop :=
  ∀ q, PaidNow w.db w'.db q → q.creditSpent ≤ lasting w.db q.userId

lemma lasting_of_pays {db db' : Db} {q : Payment}
    (hrows : db'.creditEntries.rows
      = db.creditEntries.rows ++ spendsWhenPaid q db.creditEntries.next) (n : ℕ) :
    lasting db' n = lasting db n + if q.userId = n then -max 0 q.creditSpent else 0 := by
  rw [lasting, hrows, creditSum_append, creditSum_spendsWhenPaid q _ (n := n)]
  · rfl
  · intro e hv hx
    simp [undated, hv, hx]

/-- One step out of a solvent ledger. -/
lemma solvent_step_iff {cfg : Settings} {w w' : World} (hs : LedgerStep cfg CreditEntry.Dated w w')
    (hkept : Kept CreditEntry.Dated w.db) (hkept' : Kept CreditEntry.Dated w'.db)
    (h : ∀ n, 0 ≤ lasting w.db n) : (∀ n, 0 ≤ lasting w'.db n) ↔ CoveredForGood w w' := by
  cases hs with
  | credit e hearns _ =>
      refine iff_of_true (fun n => ?_) fun q hq => absurd hq (not_paidNow_of_payments rfl q)
      have hbefore := h n
      have hpos := hearns.1
      have hsum : lasting (w.db.credit e) n = lasting w.db n + if undated n e then e.delta else 0 := by
        rw [lasting, Db.credit, Table.rows_insert, creditSum_append, creditSum_cons, creditSum_nil,
          add_zero]
        rfl
      dsimp only
      rw [hsum]
      split <;> omega
  | wait t _ => exact iff_of_true h fun q hq => absurd hq (not_paidNow_of_payments rfl q)
  | call c hrun =>
      rcases (ledger_of_call hkept.spendsPaid hrun).2.entries with ⟨hsame, hnone⟩ | ⟨q, hq, hrows⟩
      · refine iff_of_true (fun n => ?_) fun q hq => absurd hq (hnone q)
        rw [lasting, hsame]
        exact h n
      · constructor
        · intro hafter q' hq'
          obtain rfl := (hq q').mp hq'
          have hbuyer := hafter q'.userId
          rw [lasting_of_pays hrows, if_pos rfl] at hbuyer
          have hle := le_max_right 0 q'.creditSpent
          omega
        · intro hcovered n
          have hbefore := h n
          rw [lasting_of_pays hrows]
          split
          · rename_i hn
            have hle := hcovered q ((hq q).mpr rfl)
            rw [hn] at hle
            have hmax : max 0 q.creditSpent ≤ lasting w.db n := max_le hbefore hle
            omega
          · omega

/-- **The balance never goes negative, as long as every payment is covered by
credit that lasts.** Start with an empty ledger, and let entries be credited,
time pass and the payment endpoints be called in any order: the ledger is
solvent in every state of the run exactly when each order, at the moment it is
paid, consumes no more than the account's credit without an expiry, less what
it has spent. -/
theorem balance_nonneg_iff (cfg : Settings) {w₀ w : World} {steps : List (World × World)}
    (h₀ : w₀.db.creditEntries.rows = [])
    (h : Trail (LedgerStep cfg CreditEntry.Dated) w₀ steps w) :
    (∀ v ∈ Trail.states w₀ steps, Solvent v.db) ↔ ∀ s ∈ steps, CoveredForGood s.1 s.2 := by
  have hempty : Kept CreditEntry.Dated w₀.db := by
    intro e he
    rw [h₀] at he
    cases he
  have hstart : Solvent w₀.db := by
    rw [solvent_iff, nonneg_iff_lasting hempty]
    intro n
    rw [lasting, h₀, creditSum_nil]
  have hkeep : ∀ u v, LedgerStep cfg CreditEntry.Dated u v → Kept CreditEntry.Dated u.db →
      Kept CreditEntry.Dated v.db := fun u v hs hu => hu.step (fun _ _ hd => hd) hs
  refine Trail.law_iff (I := fun w => Kept CreditEntry.Dated w.db) (C := CoveredForGood) hempty hstart
    hkeep (fun u v hs hu hlaw => ?_) h
  have hv := hkeep u v hs hu
  rw [solvent_iff, nonneg_iff_lasting hv]
  rw [solvent_iff, nonneg_iff_lasting hu] at hlaw
  exact solvent_step_iff hs hu hv hlaw

/-! A run with one order: an entry is credited, an order opened with all the
credit it takes, and paid. -/

/-- One account that may order, and nothing else. -/
def mayOrder : World where
  db := {
    users := (default : Table User).insert
      (fun n => { id := n, username := "ann", emailVerifiedAt := some 0 }) fun _ => rfl }

/-- The gateway takes the order and the node the device. -/
def atTen : Input where
  now := 10
  keys := some ("pub", "psk")
  created := .ok (.obj [("uuid", .str "u-1")])
  add := fun _ _ => (.ok, {})

/-- The order, with as much credit as it takes. -/
def creditOrderCall : Call := .order "ann" { plan := "basic-1m", useCredit := 1000 }

/-- The gateway's word that an order is paid. -/
def paidCall (ref : String) : Call :=
  .webhook (some [("order_id", .str ref), ("status", .str "paid")])

/-- The world after a call, alone. -/
def World.after (w : World) (c : Call) : World := ((c.run {}).play atTen w).2

/-- The steps of the run with the entry `e`. -/
def creditRun (e : CreditEntry) : List (World × World) :=
  let w₁ := { mayOrder with db := mayOrder.db.credit e }
  let w₂ := w₁.after creditOrderCall
  [(mayOrder, w₁), (w₁, w₂), (w₂, w₂.after (paidCall "0"))]

/-- The end of the run. -/
def creditEnd (e : CreditEntry) : World :=
  ({ mayOrder with db := mayOrder.db.credit e }.after creditOrderCall).after (paidCall "0")

lemma LedgerStep.after {P : CreditEntry → Prop} (w : World) (c : Call) :
    LedgerStep {} P w (w.after c) :=
  .call c (Proc.runs_play (fun _ => trivial) _ _)

lemma trail_creditRun {P : CreditEntry → Prop} {e : CreditEntry} (he : e.Earns) (hP : P e) :
    Trail (LedgerStep {} P) mayOrder (creditRun e) (creditEnd e) :=
  ((Trail.nil.snoc (.credit e he hP)).snoc (.after _ _)).snoc (.after _ _)

/-- 175 points until the time 100. -/
def expiring : CreditEntry where
  id := 0
  userId := 0
  delta := 175
  reason := .adjustment
  vestsAt := some 0
  expiresAt := some 100

/-- 175 points for good. -/
def forGood : CreditEntry := { expiring with vestsAt := none, expiresAt := none }

/-- Points that were spent and expire afterwards are missing from the balance for
ever: 175 new ones then buy nothing. -/
theorem expired_credit_leaves_debt :
    Trail (LedgerStep {} CreditEntry.Dated) mayOrder (creditRun expiring) (creditEnd expiring)
      ∧ mayOrder.db.creditEntries.rows = []
      ∧ balance (creditEnd expiring).db 0 99 = 0 ∧ balance (creditEnd expiring).db 0 100 = -175
      ∧ balance ((creditEnd expiring).db.credit forGood) 0 100 = 0
      ∧ ¬ Solvent (creditEnd expiring).db := by
  have hdebt : balance (creditEnd expiring).db 0 100 = -175 := by decide
  refine ⟨trail_creditRun ⟨by decide, by decide⟩ (Or.inr ⟨0, 100, rfl, rfl, by decide⟩), rfl,
    by decide, hdebt, by decide, fun h => ?_⟩
  have hnonneg := h.nonneg 0 100
  rw [hdebt] at hnonneg
  omega

/-- A payment is covered when every paid order is. -/
lemma coveredForGood_of_rows {w w' : World}
    (h : ∀ q ∈ w'.db.payments.rows, q.status = "paid" → q.creditSpent ≤ lasting w.db q.userId) :
    CoveredForGood w w' :=
  fun q hq => h q (Table.mem_of_find hq.1).1 hq.2.1

/-- With points that last, the same run is solvent throughout. -/
theorem balance_nonneg_forGood :
    balance (creditEnd forGood).db 0 10 = 0
      ∧ ∀ v ∈ Trail.states mayOrder (creditRun forGood), Solvent v.db := by
  refine ⟨by decide, (balance_nonneg_iff {} rfl
    (trail_creditRun ⟨by decide, by decide⟩ (Or.inl ⟨rfl, rfl⟩))).mpr fun s hs => ?_⟩
  simp only [creditRun, List.mem_cons, List.not_mem_nil, or_false] at hs
  rcases hs with rfl | rfl | rfl
  all_goals exact coveredForGood_of_rows (by decide)

/-! ### Credit is spent once -/

/-- An entry that does not expire. -/
def CreditEntry.Unexpiring (e : CreditEntry) : Prop := e.expiresAt = none

/-- No account has spent more than it has earned and is vested by now. -/
def SpentOnce (w : World) : Prop := ∀ n, spentBy w.db n ≤ vestedBy w.db n w.clock

/-- Where nothing expires, the balance is what was earned less what was spent. -/
lemma balance_eq_sub {db : Db} (h : Kept CreditEntry.Unexpiring db) (n : ℕ) (t : Time) :
    balance db n t = vestedBy db n t - spentBy db n := by
  rw [balance_eq, vestedBy, spentBy, sub_neg_eq_add]
  unfold Kept at h
  generalize db.creditEntries.rows = rows at h ⊢
  induction rows with
  | nil => rfl
  | cons e es ih =>
      have hrest := ih fun x hx => h x (by simp [hx])
      simp only [creditSum_cons, hrest]
      rcases h e (by simp) with ⟨⟨hpos, hne⟩, hx⟩ | hrow
      · have hx' : e.expiresAt = none := hx
        simp [inForce, hx', hpos, hne]
        omega
      · have hneg := hrow.neg
        have hnot : ¬ 0 < e.delta := by omega
        simp [inForce, hrow.vests, hrow.expires, hrow.reason, hnot]
        omega

/-- Where nothing expires, the balance grows by itself. -/
lemma balance_mono {db : Db} (h : Kept CreditEntry.Unexpiring db) (n : ℕ) {t t' : Time}
    (ht : t ≤ t') : balance db n t ≤ balance db n t' := by
  rw [balance_eq, balance_eq]
  refine creditSum_le fun e he => ?_
  rcases h e he with ⟨⟨hpos, -⟩, hx⟩ | hrow
  · have hx' : e.expiresAt = none := hx
    have hvest : e.vestsAt.all (· ≤ t) = true → e.vestsAt.all (· ≤ t') = true := by
      cases e.vestsAt with
      | none => exact fun h => h
      | some v => simpa using fun hv : v ≤ t => hv.trans ht
    split
    · rename_i hin
      obtain ⟨hu, hv, -⟩ := of_decide_eq_true hin
      rw [if_pos (by simp [inForce, hu, hvest hv, hx'])]
    · split
      · exact hpos.le
      · exact le_rfl
  · simp [inForce, hrow.vests, hrow.expires]

lemma spentOnce_iff {w : World} (h : Kept CreditEntry.Unexpiring w.db) :
    SpentOnce w ↔ ∀ n, 0 ≤ balance w.db n w.clock := by
  refine forall_congr' fun n => ?_
  rw [balance_eq_sub h]
  exact sub_nonneg.symm

/-- The credit of an order that is paid is there when it is paid. -/
def CoveredNow (w w' : World) : Prop :=
  ∀ q, PaidNow w.db w'.db q → q.creditSpent ≤ balance w.db q.userId w'.clock

lemma balance_of_pays {db db' : Db} {q : Payment}
    (hrows : db'.creditEntries.rows
      = db.creditEntries.rows ++ spendsWhenPaid q db.creditEntries.next) (n : ℕ) (t : Time) :
    balance db' n t = balance db n t + if q.userId = n then -max 0 q.creditSpent else 0 := by
  rw [balance_eq, hrows, creditSum_append, creditSum_spendsWhenPaid q _ (n := n)]
  · rfl
  · intro e hv hx
    simp [inForce, hv, hx]

/-- One step out of a ledger in which nothing was spent twice. -/
lemma spentOnce_step_iff {cfg : Settings} {w w' : World}
    (hs : LedgerStep cfg CreditEntry.Unexpiring w w') (hkept : Kept CreditEntry.Unexpiring w.db)
    (h : ∀ n, 0 ≤ balance w.db n w.clock) :
    (∀ n, 0 ≤ balance w'.db n w'.clock) ↔ CoveredNow w w' := by
  cases hs with
  | credit e hearns _ =>
      refine iff_of_true (fun n => ?_) fun q hq => absurd hq (not_paidNow_of_payments rfl q)
      have hbefore := h n
      have hpos := hearns.1
      dsimp only
      rw [balance_credit]
      split <;> omega
  | wait t ht =>
      refine iff_of_true (fun n => ?_) fun q hq => absurd hq (not_paidNow_of_payments rfl q)
      exact (h n).trans (balance_mono hkept n ht)
  | call c hrun =>
      obtain ⟨hclock, hmove⟩ := ledger_of_call hkept.spendsPaid hrun
      have hlater : ∀ n, 0 ≤ balance w.db n w'.clock := fun n =>
        (h n).trans (balance_mono hkept n hclock)
      rcases hmove.entries with ⟨hsame, hnone⟩ | ⟨q, hq, hrows⟩
      · refine iff_of_true (fun n => ?_) fun q hq => absurd hq (hnone q)
        rw [balance_eq, hsame]
        exact hlater n
      · constructor
        · intro hafter q' hq'
          obtain rfl := (hq q').mp hq'
          have hbuyer := hafter q'.userId
          rw [balance_of_pays hrows, if_pos rfl] at hbuyer
          have hle := le_max_right 0 q'.creditSpent
          omega
        · intro hcovered n
          have hbefore := hlater n
          rw [balance_of_pays hrows]
          split
          · rename_i hn
            have hle := hcovered q ((hq q).mpr rfl)
            rw [hn] at hle
            have hmax : max 0 q.creditSpent ≤ balance w.db n w'.clock := max_le hbefore hle
            omega
          · omega

/-- **Credit is spent once, as long as every payment finds it there.** Start
with an empty ledger, and let entries without an expiry be credited, time pass,
and orders be opened and paid in any order: at every moment of the run no
account has spent more than it has earned and is vested, exactly when each
order, at the moment it is paid, consumes no more than the balance. -/
theorem spent_once_iff (cfg : Settings) {w₀ w : World} {steps : List (World × World)}
    (h₀ : w₀.db.creditEntries.rows = [])
    (h : Trail (LedgerStep cfg CreditEntry.Unexpiring) w₀ steps w) :
    (∀ v ∈ Trail.states w₀ steps, SpentOnce v) ↔ ∀ s ∈ steps, CoveredNow s.1 s.2 := by
  have hempty : Kept CreditEntry.Unexpiring w₀.db := by
    intro e he
    rw [h₀] at he
    cases he
  have hstart : SpentOnce w₀ := by
    rw [spentOnce_iff hempty]
    intro n
    rw [balance_eq, h₀, creditSum_nil]
  have hkeep : ∀ u v, LedgerStep cfg CreditEntry.Unexpiring u v → Kept CreditEntry.Unexpiring u.db →
      Kept CreditEntry.Unexpiring v.db := fun u v hs hu => hu.step (fun _ _ hd => hd) hs
  refine Trail.law_iff (I := fun w => Kept CreditEntry.Unexpiring w.db) (C := CoveredNow) hempty hstart
    hkeep (fun u v hs hu hlaw => ?_) h
  rw [spentOnce_iff (hkeep u v hs hu)]
  rw [spentOnce_iff hu] at hlaw
  exact spentOnce_step_iff hs hu hlaw

/-- Two orders are opened with the same points before either is paid. -/
def twiceRun : List (World × World) :=
  let w₁ := { mayOrder with db := mayOrder.db.credit forGood }
  let w₂ := w₁.after creditOrderCall
  let w₃ := w₂.after creditOrderCall
  let w₄ := w₃.after (paidCall "0")
  [(mayOrder, w₁), (w₁, w₂), (w₂, w₃), (w₃, w₄), (w₄, w₄.after (paidCall "1"))]

/-- The end of that run. -/
def twiceEnd : World :=
  let w₂ := { mayOrder with db := mayOrder.db.credit forGood }.after creditOrderCall
  ((w₂.after creditOrderCall).after (paidCall "0")).after (paidCall "1")

/-- The same 175 points pay for both orders. -/
theorem points_spent_twice :
    Trail (LedgerStep {} CreditEntry.Unexpiring) mayOrder twiceRun twiceEnd
      ∧ mayOrder.db.creditEntries.rows = []
      ∧ spentBy twiceEnd.db 0 = 350 ∧ vestedBy twiceEnd.db 0 twiceEnd.clock = 175
      ∧ ¬ SpentOnce twiceEnd := by
  have hspent : spentBy twiceEnd.db 0 = 350 := by decide
  have hvested : vestedBy twiceEnd.db 0 twiceEnd.clock = 175 := by decide
  have hcredit : LedgerStep {} CreditEntry.Unexpiring mayOrder
      { mayOrder with db := mayOrder.db.credit forGood } := .credit forGood ⟨by decide, by decide⟩ rfl
  refine ⟨((((Trail.nil.snoc hcredit).snoc (.after _ _)).snoc (.after _ _)).snoc (.after _ _)).snoc
    (.after _ _), rfl, hspent, hvested, fun h => ?_⟩
  have hle := h 0
  rw [hspent, hvested] at hle
  omega

/-- The second order is opened with points that are credited after the first is paid. -/
def creditedAgain : World :=
  { creditEnd forGood with db := (creditEnd forGood).db.credit forGood }

/-- The end of that run. -/
def spentAgain : World := (creditedAgain.after creditOrderCall).after (paidCall "1")

def againRun : List (World × World) :=
  creditRun forGood ++ [(creditEnd forGood, creditedAgain),
    (creditedAgain, creditedAgain.after creditOrderCall),
    (creditedAgain.after creditOrderCall, spentAgain)]

lemma trail_againRun : Trail (LedgerStep {} CreditEntry.Unexpiring) mayOrder againRun spentAgain := by
  have hearns : forGood.Earns ∧ forGood.Unexpiring := ⟨⟨by decide, by decide⟩, rfl⟩
  have hcredit : LedgerStep {} CreditEntry.Unexpiring (creditEnd forGood) creditedAgain :=
    .credit forGood hearns.1 hearns.2
  have h := (((trail_creditRun hearns.1 hearns.2).snoc hcredit).snoc (.after _ creditOrderCall)).snoc
    (.after _ (paidCall "1"))
  simpa [againRun, spentAgain] using h

/-- Two orders, each paid with points of its own. -/
theorem spent_once_twice :
    spentBy spentAgain.db 0 = 350 ∧ vestedBy spentAgain.db 0 spentAgain.clock = 350
      ∧ ∀ v ∈ Trail.states mayOrder againRun, SpentOnce v := by
  refine ⟨by decide, by decide,
    (spent_once_iff {} rfl trail_againRun).mpr fun s hs => ?_⟩
  have hrows : ∀ {w w' : World}, (∀ q ∈ w'.db.payments.rows, q.status = "paid" →
      w.db.payments.find q.id ≠ some q → q.creditSpent ≤ balance w.db q.userId w'.clock) →
      CoveredNow w w' := fun h q hq => h q (Table.mem_of_find hq.1).1 hq.2.1 hq.2.2
  simp only [againRun, creditRun, List.cons_append, List.nil_append, List.mem_cons, List.not_mem_nil,
    or_false] at hs
  rcases hs with rfl | rfl | rfl | rfl | rfl | rfl
  all_goals exact hrows (by decide)

end VpnPortal
