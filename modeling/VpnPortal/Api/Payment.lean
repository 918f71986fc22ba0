/-
The payment endpoints (`pwa/api/payment.py`, `pwa/services/platega.py`) and the
admin grant (`pwa/api/admin_grant.py`).

The callback of Platega carries no signature, so its body is only a nudge: the
handler reads the transaction id from it and asks the gateway. The webhook of
Heleket is taken after `verify_webhook`, as the dict it returned or `none`.
-/
import VpnPortal.Services.Subscriptions

namespace VpnPortal

open Sessions

/-- What a handler answers. -/
inductive Response where
  | ok
  | created (payment : ℕ)
  | granted (user : ℕ)
  deriving DecidableEq, Repr

/-- `_current_user` -/
def currentUser (username : String) : Portal User := do
  let rows ← select fun db => db.users.rows.filter fun u => u.username = username
  match ← scalarOneOrNone rows with
  | none => .raise (.http 404 (.text "User not found"))
  | some user => pure user

/-- `_current_user` once the rows are read. -/
def theOneUser (rows : List User) : Portal User := do
  match ← scalarOneOrNone rows with
  | none => .raise (.http 404 (.text "User not found"))
  | some user => pure user

/-! ### Opening an order -/

structure OrderRequest where
  plan : String
  code : Option String := none
  useCredit : ℤ := 0
  deriving DecidableEq, Repr

/-- The fullest location of an account, trial devices apart. -/
def fullestLocation (db : Db) (user : ℕ) : ℕ :=
  let held := (heldBy db.configs.rows user).filter fun c => c.kind ≠ .trial
  ((held.map Config.locationKey).map fun k =>
    (held.filter fun c => c.locationKey = k).length).foldr max 0

/-- `_open_order`: price an order and record it as pending. -/
def openOrder (cfg : Settings) (user : User) (req : OrderRequest) (info : PlanInfo) :
    Portal Payment :=
  if user.emailVerifiedAt = none ∧ user.telegramId = none then
    .raise (.http 403 (.text "email_not_verified"))
  else do
    let held ← select fun db => fullestLocation db user.id
    let limit := configLimit (some req.plan)
    if limit < held then .raise (.http 409 (.tooManyDevices held limit))
    else do
      let quote ← priceOrder cfg user info req.code req.useCredit
      match quote.promoRefused with
      | some refusal => .raise (.http 400 (.text refusal.text))
      | none =>
          commitWith fun db =>
            let p : Payment := {
              id := db.payments.next, userId := user.id, plan := req.plan, amount := quote.amount,
              currency := info.currency, promoCode := quote.promoCode,
              creditSpent := quote.creditSpent }
            (p, { db with payments := db.payments.insert (fun n => { p with id := n }) fun _ => rfl })

/-- An order the gateway would not take. -/
def orderFailed (payment : Payment) (detail : String) : Portal Response := do
  commit (Db.savePayment payment { payment with status := "error" })
  .raise (.http 502 (.text detail))

/-- `create_payment` (Heleket). -/
def createPayment (cfg : Settings) (username : String) (req : OrderRequest) : Portal Response :=
  match plans.lookup req.plan with
  | none => .raise (.http 400 (.text "Unknown plan"))
  | some info => do
      let user ← currentUser username
      let payment ← openOrder cfg user req info
      match ← Proc.ask Input.created with
      | .error e => orderFailed payment ("Payment gateway error: " ++ e)
      | .ok (.obj fields) =>
          match Json.get fields "uuid" with
          | .str uuid => do
              commit (Db.savePayment payment { payment with heleketInvoiceId := some uuid })
              pure (.created payment.id)
          | .null => pure (.created payment.id)
          | _ => .raise .crash
      | .ok _ => .raise .crash

/-- `create_payment_platega` -/
def createPaymentPlatega (cfg : Settings) (username : String) (req : OrderRequest) :
    Portal Response :=
  match plans.lookup req.plan with
  | none => .raise (.http 400 (.text "Unknown plan"))
  | some info => do
      let user ← currentUser username
      let opened ← openOrder cfg user req info
      let payment : Payment := { opened with provider := some "platega" }
      commit (Db.savePayment opened payment)
      match ← Proc.ask Input.created with
      | .error _ => orderFailed payment "Payment gateway error"
      | .ok (.obj fields) =>
          let txn := Json.get fields "transactionId"
          if !txn.truthy || !(Json.get fields "url").truthy
          then orderFailed payment "Payment gateway error"
          else match txn with
            | .str ref => do
                commit (Db.savePayment payment { payment with providerRef := some ref })
                pure (.created payment.id)
            | _ => .raise .crash
      | .ok _ => .raise .crash

/-! ### Notifications of the gateways -/

/-- The order and the account behind it, activated. A refusal is only logged:
the gateway is acknowledged either way. -/
def confirm (cfg : Settings) (payment : Payment) : Portal Response := do
  match ← select fun db => db.users.find payment.userId with
  | none => pure .ok
  | some user => do
      let _ ← activatePayment cfg user payment
      pure .ok

/-- A new status from the gateway, committed. -/
def recordStatus (payment : Payment) (status : String) : Portal Response := do
  commit (Db.savePayment payment { payment with status := status })
  pure .ok

/-- `PAID_STATUSES` -/
def paidStatuses : List String := ["paid", "paid_over"]

/-- What the webhook does once the order is found unpaid. A status that is no
text cannot be looked up in a set (a list or a dict) or stored. -/
def heleketStatus (cfg : Settings) (payment : Payment) (status : Json) : Portal Response :=
  match status with
  | .str s =>
      if s ∈ paidStatuses then confirm cfg payment
      else if 32 < s.length then .raise .crash
      else recordStatus payment (if s = "" then "unknown" else s)
  | .arr _ => .raise .crash
  | .obj _ => .raise .crash
  | other => if other.truthy then .raise .crash else recordStatus payment "unknown"

/-- `payment_webhook` (Heleket), after `verify_webhook`. -/
def paymentWebhook (cfg : Settings) (data : Option (List (String × Json))) : Portal Response :=
  match data with
  | none => .raise (.http 400 (.text "Invalid signature"))
  | some data =>
      let orderId := Json.get data "order_id"
      if !orderId.truthy then pure .ok
      else match orderId with
        | .str ref => do
            match ← select fun db => db.payments.rows.find? fun p => toString p.id = ref with
            | none => pure .ok
            | some payment =>
                if payment.status = "paid" then pure .ok
                else heleketStatus cfg payment (Json.get data "status")
        | _ => .raise .crash

/-- `secret_matches`; `compare_digest` raises on a text that is not ASCII. -/
def secretMatches (cfg : Settings) (supplied : Option String) : Except Unit Bool :=
  if cfg.plategaSecret = "" then .ok false
  else
    let given := supplied.getD ""
    if given.toList.all (·.toNat < 128) ∧ cfg.plategaSecret.toList.all (·.toNat < 128)
    then .ok (given = cfg.plategaSecret)
    else .error ()

/-- The amount the gateway says was paid: `none` where the handler raises. -/
def paidAmount (cfg : Settings) (status : List (String × Json)) : Option (Option ℤ) :=
  let details := Json.get status "paymentDetails"
  let fields? : Option (List (String × Json)) :=
    if !details.truthy then some []
    else match details with
      | .obj fields => some fields
      | _ => none
  match fields? with
  | none => none
  | some fields =>
      match Json.get fields "amount" with
      | .null => some none
      | amount => (amount.toInt cfg.readInt).map some

/-- What the callback does with the gateway's own answer. -/
def plategaStatus (cfg : Settings) (payment : Payment) (status : List (String × Json)) :
    Portal Response :=
  let real := Json.get status "status"
  if real.isStr "CONFIRMED" then
    match paidAmount cfg status with
    | none => .raise .crash
    | some amount => if amount = some payment.amount then confirm cfg payment else pure .ok
  else if real.isStr "CHARGEBACKED" then recordStatus payment "chargebacked"
  else if real.isStr "CANCELED" then recordStatus payment "canceled"
  else pure .ok

/-- `platega_callback` past the secret and the body: the transaction is looked
up and the gateway asked. -/
def plategaNudge (cfg : Settings) (txn : String) : Portal Response :=
  if txn = "" then pure .ok
  else do
    let rows ← select fun db => db.payments.rows.filter fun p =>
      p.providerRef = some txn ∧ p.provider = some "platega"
    match ← scalarOneOrNone rows with
    | none => pure .ok
    | some payment =>
        if payment.status = "paid" then pure .ok
        else do
          match ← Proc.ask fun i => i.gateway txn with
          | none => .raise (.http 502 (.text "Could not verify"))
          | some .null => .raise (.http 502 (.text "Could not verify"))
          | some (.obj status) => plategaStatus cfg payment status
          | some _ => .raise .crash

/-- A request to the callback: the header and the parsed body, `none` if it is
not JSON. -/
structure CallbackRequest where
  secret : Option String
  body : Option Json

/-- `str(body.get("id") or "")`: the only thing taken from the body. `none` for
a body that has no `get`. -/
def CallbackRequest.txn? (cfg : Settings) (req : CallbackRequest) : Option String :=
  match req.body with
  | some (.obj body) =>
      let id := Json.get body "id"
      some (if id.truthy then id.toText cfg.reprOf else "")
  | _ => none

/-- `platega_callback` -/
def plategaCallback (cfg : Settings) (req : CallbackRequest) : Portal Response :=
  match secretMatches cfg req.secret with
  | .error () => .raise .crash
  | .ok false => .raise (.http 403 (.text "Forbidden"))
  | .ok true =>
      match req.txn? cfg with
      | none => .raise .crash
      | some txn => plategaNudge cfg txn

/-! ### Admin grant -/

/-- The row of a grant: amount 0, provider "manual". -/
def grantPayment (user : User) (plan : String) (n : ℕ) : Payment :=
  { id := n, userId := user.id, plan := plan, amount := 0, provider := some "manual" }

/-- `grant`: access without a payment, through the same activation. -/
def grant (cfg : Settings) (username plan : String) : Portal Response :=
  if (plans.lookup plan).isNone then .raise (.http 422 (.text "Unknown plan"))
  else do
    let user ← currentUser (strip username)
    if !user.isActive then .raise (.http 409 (.text "Account is disabled"))
    else do
      let payment ← commitWith fun db =>
        (grantPayment user plan db.payments.next,
          { db with payments := db.payments.insert (grantPayment user plan) fun _ => rfl })
      let ok ← activatePayment cfg user payment
      if ok then pure (.granted user.id)
      else do
        commit fun db => { db with payments := db.payments.remove payment.id }
        .raise (.http 502 (.text "No device could be issued; nothing was granted"))

end VpnPortal
