/-
What a notification of a gateway commits.

A handler loads the order, returns when it is paid, and otherwise commits at
most once: a new status from the gateway, or the activation of the order. Which
of the two, and for which order, is said by `PlategaStep` and `HeleketStep`.

* `OpenOrder`, `Records`, `Confirms`: an order that is not paid, and the two commits;
* `once_confirm`, `once_plategaNudge`, `once_plategaCallback`,
  `once_paymentWebhook`: as long as nobody else changes what a handler reads, it makes
  at most one of them, for its own order.
-/
import VpnPortal.Api.Payment
import VpnPortal.Lifecycle.Activation

namespace VpnPortal

open Sessions Tables

/-- An order as it stands in the database, not paid. -/
def OpenOrder (db : Db) (p : Payment) : Prop :=
  db.payments.find p.id = some p ∧ p.status ≠ "paid"

/-- The commit of a new gateway status. -/
def Records (p : Payment) (status : String) (db db' : Db) : Prop :=
  db' = db.savePayment p { p with status := status }

/-- The commit that activates an order for the account behind it. -/
def Confirms (P : Time → Prop) (p : Payment) (db db' : Db) : Prop :=
  ∃ user, db.users.find p.userId = some user ∧ Activates P user p db db'

/-- What a callback of Platega for the transaction `txn` may commit, when the
gateway gives one of `answers`. -/
def PlategaStep (P : Time → Prop) (cfg : Settings) (txn : String) (answers : List (String × Json) → Prop)
    (db db' : Db) : Prop :=
  ∃ p, OpenOrder db p ∧ p.provider = some "platega" ∧ p.providerRef = some txn
    ∧ (∀ q ∈ db.payments.rows, q.provider = some "platega" → q.providerRef = some txn → q = p)
    ∧ ∃ status, answers status ∧
      (((Json.get status "status").isStr "CONFIRMED" = true
          ∧ paidAmount cfg status = some (some p.amount) ∧ Confirms P p db db')
        ∨ ((Json.get status "status").isStr "CHARGEBACKED" = true ∧ Records p "chargebacked" db db')
        ∨ ((Json.get status "status").isStr "CANCELED" = true ∧ Records p "canceled" db db'))

/-- What a webhook of Heleket with this data may commit. -/
def HeleketStep (P : Time → Prop) (data : List (String × Json)) (db db' : Db) : Prop :=
  ∃ p, OpenOrder db p ∧ (Json.get data "order_id").isStr (toString p.id) = true
    ∧ (Confirms P p db db' ∨ ∃ status, status ≠ "paid" ∧ Records p status db db')

section

variable {D : Type} {π : World → D} {J : World → Input → Prop} {d : D} {b : Books}
variable {P : Time → Prop} {R : World → World → Prop}

lemma once_confirm (v : View J π d b P R) (cfg : Settings) (p : Payment) :
    Proc.Once J π d (fun s t => Confirms P p s.db t.db) R (fun _ => True) (fun _ => True) (confirm cfg p) := by
  refine once_select (v := b.users.find p.userId) (fun s hs => by rw [← v.books s hs]; rfl) ?_
  cases hu : b.users.find p.userId with
  | none => trivial
  | some user =>
      have hfind : ∀ s, π s = d → s.db.users.find p.userId = some user := by
        intro s hs
        rw [← hu, ← v.books s hs]; rfl
      have hact : Proc.Once J π d (fun s t => Confirms P p s.db t.db) R (fun _ => True) (fun _ => True)
          (activatePayment cfg user p) := by
        refine (once_activatePayment v cfg user p).mono ?_ (fun _ _ h => h)
          (fun _ _ => trivial) (fun _ _ => trivial)
        -- the account is still the one that was loaded when the commit comes
        exact fun s t hs h => ⟨user, hfind s hs, h⟩
      exact hact.bind (fun _ _ => trivial) (fun _ h => h) (fun _ _ => trivial) (fun _ h => h)

lemma once_recordStatus {E : World → World → Prop} {p : Payment} {status : String}
    (hE : ∀ s t, π s = d → Records p status s.db t.db → E s t) :
    Proc.Once J π d E R (fun _ => True) (fun _ => True) (recordStatus p status) :=
  fun s _ _ hs => Or.inr ⟨hE s _ hs rfl, trivial⟩

/-- A row that the books show as open is open in every state with these books. -/
lemma openOrder_of_books (hb : ∀ s, π s = d → s.db.books = b) {p : Payment}
    (hp : p ∈ b.payments.rows) (hopen : p.status ≠ "paid") (s : World) (hs : π s = d) :
    OpenOrder s.db p := by
  refine ⟨?_, hopen⟩
  have hpay : s.db.payments = b.payments := by rw [← hb s hs]; rfl
  rw [hpay]
  exact Table.find_of_mem hp

lemma once_plategaStatus (v : View J π d b P R) (cfg : Settings) {txn : String} {answers : List (String × Json) → Prop} {p : Payment}
    (hp : ∀ s, π s = d → OpenOrder s.db p) (hprov : p.provider = some "platega")
    (href : p.providerRef = some txn)
    (honly : ∀ s, π s = d → ∀ q ∈ s.db.payments.rows, q.provider = some "platega" →
      q.providerRef = some txn → q = p) {status : List (String × Json)} (hans : answers status) :
    Proc.Once J π d (fun s t => PlategaStep P cfg txn answers s.db t.db) R (fun _ => True) (fun _ => True)
      (plategaStatus cfg p status) := by
  unfold plategaStatus
  dsimp only
  split
  · rename_i hreal
    split
    · trivial
    · rename_i amount hamount
      split
      · rename_i heq
        refine (once_confirm v cfg p).mono ?_ (fun _ _ h => h) (fun _ h => h) (fun _ h => h)
        intro s t hs h
        refine ⟨p, hp s hs, hprov, href, honly s hs, status, hans, Or.inl ⟨hreal, ?_, h⟩⟩
        rw [hamount, heq]
      · trivial
  · split
    · rename_i hreal
      refine once_recordStatus fun s t hs h => ?_
      exact ⟨p, hp s hs, hprov, href, honly s hs, status, hans, Or.inr (Or.inl ⟨hreal, h⟩)⟩
    · split
      · rename_i hreal
        refine once_recordStatus fun s t hs h => ?_
        exact ⟨p, hp s hs, hprov, href, honly s hs, status, hans, Or.inr (Or.inr ⟨hreal, h⟩)⟩
      · trivial

/-- A nudge commits at most once, on the word of the gateway. -/
lemma once_plategaNudge (v : View J π d b P R) (cfg : Settings) (txn : String) :
    Proc.Once J π d (fun s t => PlategaStep P cfg txn
        (fun status => ∃ s i, J s i ∧ i.gateway txn = some (.obj status)) s.db t.db) R
      (fun _ => True) (fun _ => True) (plategaNudge cfg txn) := by
  unfold plategaNudge
  split
  · trivial
  refine once_select (v := b.payments.rows.filter fun p =>
    p.providerRef = some txn ∧ p.provider = some "platega") (fun s hs => by rw [← v.books s hs]; rfl) ?_
  cases hrows : b.payments.rows.filter fun p =>
      p.providerRef = some txn ∧ p.provider = some "platega" with
  | nil => trivial
  | cons p rest =>
      cases rest with
      | cons q rest => trivial
      | nil =>
          have hmem : p ∈ b.payments.rows.filter fun p =>
              p.providerRef = some txn ∧ p.provider = some "platega" := by rw [hrows]; simp
          obtain ⟨hp, hq⟩ := List.mem_filter.mp hmem
          obtain ⟨href, hprov⟩ := of_decide_eq_true hq
          have honly : ∀ s, π s = d → ∀ q ∈ s.db.payments.rows, q.provider = some "platega" →
              q.providerRef = some txn → q = p := by
            intro s hs q hq hqprov hqref
            have hpay : s.db.payments = b.payments := by rw [← v.books s hs]; rfl
            rw [hpay] at hq
            have hqmem : q ∈ b.payments.rows.filter fun p =>
                p.providerRef = some txn ∧ p.provider = some "platega" :=
              List.mem_filter.mpr ⟨hq, by simp [hqprov, hqref]⟩
            rw [hrows] at hqmem
            exact List.mem_singleton.mp hqmem
          show Proc.Once J π d _ R _ _ (if p.status = "paid" then pure Response.ok else _)
          split
          · trivial
          rename_i hopen
          refine Proc.Once.ask fun s i hi => ?_
          split
          · trivial
          · trivial
          · rename_i status hstatus
            exact once_plategaStatus v cfg (openOrder_of_books v.books hp hopen) hprov href
              honly ⟨s, i, hi, hstatus⟩
          · trivial

/-- What a callback of Platega may commit. -/
def CallbackStep (J : World → Input → Prop) (P : Time → Prop) (cfg : Settings) (req : CallbackRequest)
    (db db' : Db) : Prop :=
  ∃ txn, req.txn? cfg = some txn ∧ secretMatches cfg req.secret = .ok true
    ∧ PlategaStep P cfg txn (fun status => ∃ s i, J s i ∧ i.gateway txn = some (.obj status)) db db'

/-- A callback commits at most once, with a right secret only. -/
lemma once_plategaCallback (v : View J π d b P R) (cfg : Settings) (req : CallbackRequest) :
    Proc.Once J π d (fun s t => CallbackStep J P cfg req s.db t.db) R (fun _ => True) (fun _ => True)
      (plategaCallback cfg req) := by
  unfold plategaCallback
  split
  · trivial
  · trivial
  rename_i hsecret
  cases htxn : req.txn? cfg with
  | none => trivial
  | some txn =>
      refine (once_plategaNudge v cfg txn).mono ?_ (fun _ _ h => h) (fun _ h => h)
        (fun _ h => h)
      exact fun s t _ h => ⟨txn, htxn, hsecret, h⟩

lemma once_heleketStatus (v : View J π d b P R) (cfg : Settings) {data : List (String × Json)} {p : Payment}
    (hp : ∀ s, π s = d → OpenOrder s.db p)
    (href : (Json.get data "order_id").isStr (toString p.id) = true) (status : Json) :
    Proc.Once J π d (fun s t => HeleketStep P data s.db t.db) R (fun _ => True) (fun _ => True)
      (heleketStatus cfg p status) := by
  have hrecord : ∀ status, status ≠ "paid" → Proc.Once J π d (fun s t => HeleketStep P data s.db t.db) R (fun _ => True)
      (fun _ => True) (recordStatus p status) := fun status hne =>
    once_recordStatus fun s t hs h => ⟨p, hp s hs, href, Or.inr ⟨status, hne, h⟩⟩
  unfold heleketStatus
  split
  · rename_i text
    split
    · refine (once_confirm v cfg p).mono ?_ (fun _ _ h => h) (fun _ h => h) (fun _ h => h)
      exact fun s t hs h => ⟨p, hp s hs, href, Or.inl h⟩
    · rename_i hpaid
      split
      · trivial
      · refine hrecord _ ?_
        split
        · decide
        · rintro rfl
          exact hpaid (by decide)
  · trivial
  · trivial
  · split
    · trivial
    · exact hrecord "unknown" (by decide)

/-- A webhook commits at most once. -/
lemma once_paymentWebhook (v : View J π d b P R) (cfg : Settings) (data : List (String × Json)) :
    Proc.Once J π d (fun s t => HeleketStep P data s.db t.db) R (fun _ => True) (fun _ => True)
      (paymentWebhook cfg (some data)) := by
  unfold paymentWebhook
  dsimp only
  split
  · trivial
  split
  · rename_i ref href
    refine once_select (v := b.payments.rows.find? fun p => toString p.id = ref)
      (fun s hs => by rw [← v.books s hs]; rfl) ?_
    cases hfind : b.payments.rows.find? fun p => toString p.id = ref with
    | none => trivial
    | some p =>
        have hmem : p ∈ b.payments.rows := List.mem_of_find?_eq_some hfind
        have hid : toString p.id = ref := by simpa using List.find?_some hfind
        dsimp only
        split
        · trivial
        rename_i hopen
        refine once_heleketStatus v cfg (openOrder_of_books v.books hmem hopen) ?_ _
        rw [href, hid]
        simp [Json.isStr]
  · trivial

end

end VpnPortal
