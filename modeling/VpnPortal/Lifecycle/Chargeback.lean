/-
Chargebacks.

The callback asks the gateway only about an order that is not paid, so a
chargeback is recorded exactly when it comes before the confirmation of its
order. The one that comes after it, which is the usual one, finds the order paid
and is answered at once.

* `CreatedAs`, `createdAs_of_created`: the orders made through Platega;
* `Callbacks`: a sequence of callbacks, each with the gateway's answers;
* `chargeback_recorded_iff`: **a chargeback is recorded** exactly if the order was not
  paid before the callback;
* `chargeback_of_paid_order_lost`: an order that is confirmed and charged back.
-/
import VpnPortal.Lifecycle.Callback

namespace VpnPortal

open Sessions Tables

/-! ### Orders made through Platega -/

/-- The order `n` carries the transaction `txn` of the gateway. -/
def CreatedAs (db : Db) (n : ℕ) (txn : String) : Prop :=
  ∃ p, db.payments.find n = some p ∧ p.provider = some "platega" ∧ p.providerRef = some txn ∧ txn ≠ ""

/-- The row of an order after one of its columns was written. -/
lemma find_savePayment_own {db : Db} {p : Payment} (p' : Payment)
    (hp : db.payments.find p.id = some p) (hid : p'.id = p.id) (hmerge : Payment.merge p p' p = p') :
    (db.savePayment p p').payments.find p'.id = some p' := by
  have hfind := find_saveOrder_self p' hp
  rw [hmerge] at hfind
  rw [hid]
  exact hfind

lemma alone_createdAs {cfg : Settings} (username : String) (req : OrderRequest) (w : World) :
    Proc.Alone anyInput (fun _ _ => True)
      (fun r t => ∀ n, r = .ok (.created n) → ∃ txn, CreatedAs t.db n txn)
      (createPaymentPlatega cfg username req) w := by
  unfold createPaymentPlatega
  split
  · intro n h
    cases h
  refine (alone_of_reads (S := fun _ _ => True) (reads_currentUser username) trivial).bind ?_ ?_
  · intro user t _
    refine Proc.Alone.bind ((@alone_openOrder _ (fun _ => False) _ _ user req _).mono
      (fun _ _ _ => trivial) fun _ _ h => h) ?_ ?_
    · intro opened t hopen
      refine Proc.Alone.change trivial (Proc.Alone.ask trivial fun i _ => ?_)
      have hp := find_savePayment_own { opened with provider := some "platega" }
        (hopen opened rfl).1 rfl (by simp [Payment.merge])
      split
      · exact fun _ _ => ⟨trivial, fun n h => (by cases h)⟩
      · dsimp only
        split
        · exact fun _ _ => ⟨trivial, fun n h => (by cases h)⟩
        · rename_i htruthy
          split
          · rename_i ref hjson
            refine fun _ _ => ⟨trivial, fun n h => ?_⟩
            obtain rfl : opened.id = n := by
              simpa using h
            have hne : ref ≠ "" := by
              rintro rfl
              simp [hjson, Json.truthy] at htruthy
            exact ⟨ref, _, find_savePayment_own
              { opened with provider := some "platega", providerRef := some ref } hp rfl
              (by simp [Payment.merge]), rfl, rfl, hne⟩
          · intro n h
            cases h
      · intro n h
        cases h
    · intro e t _ n h
      cases h
  · intro e t _ n h
    cases h

/-- An order that was made through Platega carries a transaction. -/
lemma createdAs_of_created {cfg : Settings} {username : String} {req : OrderRequest} {n : ℕ}
    {w w' : World}
    (h : Proc.Runs anyInput (createPaymentPlatega cfg username req) w (.ok (.created n)) w') :
    ∃ txn, CreatedAs w'.db n txn :=
  ((alone_createdAs username req w).runs h).2 n rfl

/-! ### A sequence of callbacks -/

/-- Callbacks one after another, each with what the gateway answers meanwhile. -/
inductive Callbacks (cfg : Settings) :
    List (CallbackRequest × (String → Option Json)) → World → World → Prop where
  | nil (w : World) : Callbacks cfg [] w w
  | snoc {calls : List (CallbackRequest × (String → Option Json))} {req : CallbackRequest}
      {ans : String → Option Json} {w w₁ w₂ : World} {r : Except Exn Response} :
      Callbacks cfg calls w w₁ → Proc.Runs (Answering ans) (plategaCallback cfg req) w₁ r w₂ →
      Callbacks cfg (calls ++ [(req, ans)]) w w₂

/-- A callback leaves the transaction of every order as it is. -/
lemma CreatedAs.callback {cfg : Settings} {ans : String → Option Json} {req : CallbackRequest}
    {w w' : World} {r : Except Exn Response} {n : ℕ} {txn : String} (h : CreatedAs w.db n txn)
    (hrun : Proc.Runs (Answering ans) (plategaCallback cfg req) w r w') : CreatedAs w'.db n txn := by
  obtain ⟨p, hp, hprov, href, hne⟩ := h
  have honce := once_plategaCallback (View.db (Answering ans) w.db) cfg req
  have hend := ((alone_of_once (S := fun _ _ => True) honce trivial (fun _ _ => trivial)
    fun _ _ _ _ => trivial).runs hrun).2
  rcases hend with ⟨hdb, -⟩ | ⟨db₁, off, ⟨_, -, -, q, hq, -, -, -, _, -, hcase⟩, hdb, -⟩
  · rw [hdb]
    exact ⟨p, hp, hprov, href, hne⟩
  · have hpay : w'.db.payments = db₁.payments := by rw [hdb, Db.foldl_deactivate]
    rw [CreatedAs, hpay]
    by_cases hn : n = q.id
    · -- the order of the callback: a new status, and the date of the payment
      subst hn
      obtain rfl := Option.some.inj (hp.symm.trans hq.1)
      rcases hcase with ⟨-, -, user, -, a, ha, -, rfl⟩ | ⟨-, rfl⟩ | ⟨-, rfl⟩
      · have hpaid := ha.find_payment hq.1
        refine ⟨a.paid, hpaid, ?_, ?_, hne⟩
        · rw [Activation.paid, ha.payment_eq]
          exact hprov
        · rw [Activation.paid, ha.payment_eq]
          exact href
      · exact ⟨_, find_savePayment_own { p with status := "chargebacked" } hp rfl
          (by simp [Payment.merge]), hprov, href, hne⟩
      · exact ⟨_, find_savePayment_own { p with status := "canceled" } hp rfl
          (by simp [Payment.merge]), hprov, href, hne⟩
    · have hsame : db₁.payments.find n = w.db.payments.find n := by
        rcases hcase with ⟨-, -, user, -, a, ha, -, rfl⟩ | ⟨-, rfl⟩ | ⟨-, rfl⟩
        · exact ha.find_payment_of_ne hn
        · exact find_saveOrder_of_ne hn
        · exact find_saveOrder_of_ne hn
      exact ⟨p, hsame.trans hp, hprov, href, hne⟩

lemma CreatedAs.callbacks {cfg : Settings} {calls : List (CallbackRequest × (String → Option Json))}
    {w w' : World} (hist : Callbacks cfg calls w w') {n : ℕ} {txn : String}
    (h : CreatedAs w.db n txn) : CreatedAs w'.db n txn := by
  induction hist with
  | nil w => exact h
  | snoc _ hrun ih => exact (ih h).callback hrun

/-! ### The chargeback -/

/-- An open order: the callback that is answered records the chargeback. -/
lemma chargeback_recorded {cfg : Settings} {ans : String → Option Json} {txn : String} {p : Payment}
    {w w' : World} {resp : Response} (hne : txn ≠ "") (hp : OrderOf w.db txn p)
    (hopen : p.status ≠ "paid") (hans : ReportedBy ans txn "CHARGEBACKED")
    (hrun : Proc.Runs (Answering ans) (plategaNudge cfg txn) w (.ok resp) w') :
    w'.db.payments.find p.id = some { p with status := "chargebacked" } := by
  obtain ⟨hfind, hprov, href⟩ := hp
  have hrow : p ∈ w.db.payments.rows.filter fun p =>
      p.providerRef = some txn ∧ p.provider = some "platega" :=
    List.mem_filter.mpr ⟨(Table.mem_of_find hfind).1, by simp [href, hprov]⟩
  rw [plategaNudge, if_neg hne] at hrun
  obtain ⟨-, hrun⟩ := Proc.runs_look.mp hrun
  dsimp only at hrun
  cases hrows : w.db.payments.rows.filter fun p =>
      p.providerRef = some txn ∧ p.provider = some "platega" with
  | nil =>
      rw [hrows] at hrow
      cases hrow
  | cons q rest =>
      rw [hrows] at hrow hrun
      cases rest with
      | cons q' rest =>
          -- two orders with one transaction: the callback is not answered
          obtain ⟨h, -⟩ := hrun
          cases h
      | nil =>
          obtain rfl := List.mem_singleton.mp hrow
          change Proc.Runs _ (if p.status = "paid" then pure Response.ok else _) w _ w' at hrun
          rw [if_neg hopen] at hrun
          obtain ⟨i, hi, hrun⟩ := Proc.runs_ask.mp hrun
          obtain ⟨status, hstatus, hreal⟩ := hans
          have hanswer : i.gateway txn = some (.obj status) := by
            rw [show i.gateway = ans from hi, hstatus]
          have hnot : (Json.get status "status").isStr "CONFIRMED" = false := by
            cases hjson : Json.get status "status" with
            | str s =>
                have hs : s = "CHARGEBACKED" := by simpa [hjson, Json.isStr] using hreal
                rw [hs]
                decide
            | _ => rfl
          rw [hanswer] at hrun
          dsimp only at hrun
          rw [plategaStatus, hnot, if_neg (by simp), if_pos hreal] at hrun
          obtain ⟨-, -, -, rfl⟩ := hrun
          exact find_savePayment_own { p with status := "chargebacked" } hfind rfl
            (by simp [Payment.merge])

/-- **When a chargeback is recorded.** After any sequence of callbacks to an order
made through Platega, a callback for it that is answered while the gateway
reports a chargeback leaves the order 'chargebacked' if and only if it was not
'paid' before. -/
theorem chargeback_recorded_iff (cfg : Settings) {username : String} {order : OrderRequest} {n : ℕ}
    {w w₀ : World}
    (hcreated : Proc.Runs anyInput (createPaymentPlatega cfg username order) w (.ok (.created n)) w₀)
    {calls : List (CallbackRequest × (String → Option Json))} {w₁ : World}
    (hist : Callbacks cfg calls w₀ w₁) :
    ∃ p txn, w₁.db.payments.find n = some p ∧ p.providerRef = some txn
      ∧ ∀ req ans resp w₂, req.txn? cfg = some txn → ReportedBy ans txn "CHARGEBACKED" →
        Proc.Runs (Answering ans) (plategaCallback cfg req) w₁ (.ok resp) w₂ →
        ((∃ q, w₂.db.payments.find n = some q ∧ q.status = "chargebacked") ↔ p.status ≠ "paid") := by
  obtain ⟨txn, hcreatedAs⟩ := createdAs_of_created hcreated
  obtain ⟨p, hp, hprov, href, hne⟩ := hcreatedAs.callbacks hist
  obtain rfl : p.id = n := (Table.mem_of_find hp).2
  refine ⟨p, txn, hp, href, fun req ans resp w₂ htxn hans hrun => ⟨?_, fun hopen => ?_⟩⟩
  · rintro ⟨q, hq, hstatus⟩ hpaid
    have hnotice : Call.IsNotice (.callback req) := trivial
    have hsame : w₂ = w₁ := ((alone_notified_paid (J := Answering ans) cfg hp hpaid hnotice
      ⟨txn, htxn, href, hprov⟩).runs hrun).2
    rw [hsame] at hq
    obtain rfl := Option.some.inj (hp.symm.trans hq)
    rw [hpaid] at hstatus
    exact absurd hstatus (by decide)
  · have hnudge : Proc.Runs (Answering ans) (plategaNudge cfg txn) w₁ (.ok resp) w₂ := by
      unfold plategaCallback at hrun
      split at hrun
      · cases hrun.1
      · cases hrun.1
      · rw [htxn] at hrun
        exact hrun
    exact ⟨_, chargeback_recorded hne ⟨hp, hprov, href⟩ hopen hans hnudge, rfl⟩

/-! ### One order -/

/-- An account that may order. -/
def linkedAccount : World where
  db := {
    users := (default : Table User).insert
      (fun n => { id := n, username := "ann", telegramId := some 7 }) fun _ => rfl }

/-- The gateway takes the order as the transaction "t-1". -/
def taking : Input where
  created := .ok (.obj [("transactionId", .str "t-1"), ("url", .str "https://pay")])

/-- The account with its order. -/
def ordered : World :=
  ((createPaymentPlatega withSecret "ann" { plan := "basic-1m" }).play taking linkedAccount).2

/-- The gateway reports a chargeback. -/
def chargedBack : Input where
  gateway := fun _ => some (.obj [("status", .str "CHARGEBACKED")])

lemma created_ordered : Proc.Runs anyInput (createPaymentPlatega withSecret "ann" { plan := "basic-1m" })
    linkedAccount (.ok (.created 0)) ordered := by
  have hresult : ((createPaymentPlatega withSecret "ann" { plan := "basic-1m" }).play taking linkedAccount).1
      = .ok (.created 0) := by decide
  have hrun := Proc.runs_play (J := anyInput) (i := taking) (fun _ => trivial)
    (createPaymentPlatega withSecret "ann" { plan := "basic-1m" }) linkedAccount
  rw [hresult] at hrun
  exact hrun

/-- An answered callback, alone and with fixed inputs. -/
lemma runs_nudgeOrder (i : Input) (w : World)
    (h : ((plategaCallback withSecret nudgeOrder).play i w).1 = .ok .ok) :
    Proc.Runs (Answering i.gateway) (plategaCallback withSecret nudgeOrder) w (.ok .ok)
      ((plategaCallback withSecret nudgeOrder).play i w).2 := by
  have hrun := Proc.runs_play (J := Answering i.gateway) (i := i) (fun _ => rfl)
    (plategaCallback withSecret nudgeOrder) w
  rw [h] at hrun
  exact hrun

lemma reported_chargedBack : ReportedBy chargedBack.gateway "t-1" "CHARGEBACKED" :=
  ⟨_, rfl, by decide⟩

/-- A chargeback of an order that was never confirmed is recorded. -/
theorem chargeback_recorded_unconfirmed :
    ∃ q, ((plategaCallback withSecret nudgeOrder).play chargedBack ordered).2.db.payments.find 0
      = some q ∧ q.status = "chargebacked" := by
  obtain ⟨p, txn, hp, href, hiff⟩ := chargeback_recorded_iff withSecret created_ordered (.nil _)
  have hrow : (ordered.db.payments.find 0).map (fun p => (p.providerRef, p.status))
      = some (some "t-1", "pending") := by decide
  rw [hp, Option.map_some, href] at hrow
  obtain ⟨htxn, hstatus⟩ := Prod.mk.inj (Option.some.inj hrow)
  obtain rfl := Option.some.inj htxn
  refine (hiff nudgeOrder chargedBack.gateway .ok _ (by decide) reported_chargedBack
    (runs_nudgeOrder chargedBack ordered (by decide))).mpr ?_
  rw [hstatus]
  decide

/-- The order after its confirmation. -/
def confirmedOrder : World := ((plategaCallback withSecret nudgeOrder).play confirming ordered).2

/-- **A chargeback that is lost.** The order is created, confirmed and charged back,
each time in an answered callback; it stays 'paid'. -/
theorem chargeback_of_paid_order_lost :
    Proc.Runs anyInput (createPaymentPlatega withSecret "ann" { plan := "basic-1m" }) linkedAccount
        (.ok (.created 0)) ordered
      ∧ Callbacks withSecret [(nudgeOrder, confirming.gateway)] ordered confirmedOrder
      ∧ ReportedBy chargedBack.gateway "t-1" "CHARGEBACKED"
      ∧ Proc.Runs (Answering chargedBack.gateway) (plategaCallback withSecret nudgeOrder)
        confirmedOrder (.ok .ok)
        ((plategaCallback withSecret nudgeOrder).play chargedBack confirmedOrder).2
      ∧ (((plategaCallback withSecret nudgeOrder).play chargedBack confirmedOrder).2.db.payments.find
        0).map (fun p => (p.providerRef, p.status)) = some (some "t-1", "paid") := by
  refine ⟨created_ordered, ?_, reported_chargedBack, ?_, by decide⟩
  · exact Callbacks.snoc (.nil _) (runs_nudgeOrder confirming ordered (by decide))
  · exact runs_nudgeOrder chargedBack confirmedOrder (by decide)

end VpnPortal
