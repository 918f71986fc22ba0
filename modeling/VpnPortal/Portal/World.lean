/-
What a portal session runs in: the committed database, the entry nodes, the
clock and the letters on their way, and the atomic actions it is made of.

Each action is one step of a `Proc`, so that the same text of a handler is read
sequentially and interleaved with other sessions. A `select` sees the rows
committed at that moment (READ COMMITTED), a `commit` writes at once, and
everything that comes from outside, the clock, the keys, the answers of the
gateway and of a node, is in the `Input` of the step. Nothing is assumed about
these answers here; a result that needs an honest node says so.

* `World`, `Input`, `Settings`, `Exn`;
* `select`, `commit`, `now`, `sendLater`, `addPeerAt`, `removePeerAt`.
-/
import VpnPortal.Db.Models
import VpnPortal.Portal.Json
import VpnPortal.Sessions.Pool
import VpnPortal.Text.Words

namespace VpnPortal

open Sessions

/-- A peer of the running interface with its allowed addresses. -/
structure PeerEntry where
  key : String
  allowedIps : List String
  deriving DecidableEq, Repr

/-- An entry node: the running interface, and the lines of its config file if
the file is there. -/
structure NodeState where
  runtime : List PeerEntry := []
  conf : Option (List (List Char)) := none
  deriving DecidableEq, Repr, Inhabited

/-- A letter handed to `mailer.send_later`. -/
structure Letter where
  address : String
  kind : NoticeKind
  until_ : Time
  deriving DecidableEq, Repr

/-- The state all sessions share. `flushed` are the new rows of `trial_grants`
that sessions have sent and neither committed nor rolled back; `removals` lists
the devices for which `remove_peer_for` was called, in order. -/
structure World where
  db : Db := {}
  flushed : List TrialGrant := []
  node : String → NodeState := fun _ => {}
  clock : Time := 0
  outbox : List Letter := []
  removals : List ℕ := []

/-- The answer of a wrapper call over SSH: `ok:`, a refusal with its text, or an
exception out of `_ssh_bridge`. -/
inductive Reply where
  | ok
  | refused (reason : String)
  | raised
  deriving DecidableEq, Repr

/-- The arguments of `pwa-add-peer`. -/
structure NewPeer where
  publicKey : String
  psk : String
  ip : String
  name : String
  deriving DecidableEq, Repr

/-- What comes from outside at one step. A node call is answered by `used`,
`add` or `del`, the latter two with the state the node is in afterwards; `created`
is the gateway's answer to a new order, or the text of the exception. `initData`
and `claims` are what `verify_init_data` and `verify_id_token` make of a request:
the Telegram account, or the Google account and its address; `hash` is the
result of `hash_password` and `token` that of `secrets.token_urlsafe`. -/
structure Input where
  now : Time := 0
  keys : Option (String × String) := none
  gateway : String → Option Json := fun _ => none
  created : Except String Json := .error ""
  rateLimit : Option ℕ := none
  initData : Option ℤ := none
  claims : Option (String × String) := none
  hash : String := ""
  token : String := ""
  used : String → Option (List String) := fun _ => none
  add : String → NewPeer → Reply × NodeState := fun _ _ => (.raised, {})
  del : String → Config → Reply × NodeState := fun _ _ => (.raised, {})

/-- The detail of an HTTP error. -/
inductive Detail where
  | text (s : String)
  | tooManyDevices (held limit : ℕ)
  | retryAfter (seconds : ℕ)
  deriving DecidableEq, Repr

/-- How a session ends without a value: an `HTTPException`, or an exception
nobody catches, which the framework answers with a 500. -/
inductive Exn where
  | http (status : ℕ) (detail : Detail)
  | crash
  deriving DecidableEq, Repr

/-- `services/locations.py`: one entry node of a location. -/
structure Location where
  key : String
  host : String
  deriving DecidableEq, Repr

/-- The environment of the process. `nlEntryIp` is there when every `NL_*`
setting is, `paused` is `LOCATIONS_PAUSED` split; `reprOf`, `readInt`, `lower` and `upper` are
Python's text of a list or dict, its reading of an integer, its `str.lower` and its `str.upper`; `emailStr`
is the address pydantic's `EmailStr` accepts, `verifyPassword` argon2's check, and
`sha256` the hex digest of a token. -/
structure Settings where
  bridgeIp : String := "de-entry"
  nlEntryIp : Option String := none
  paused : List String := []
  trialEnabled : Bool := false
  trialDays : ℤ := 3
  trialDailyCap : ℤ := 30
  plategaSecret : String := ""
  reprOf : Json → String := fun _ => ""
  readInt : String → Option ℤ := fun _ => none
  lower : String → String := fun s => String.ofList (s.toList.map Char.toLower)
  upper : String → String := fun s => String.ofList (s.toList.map Char.toUpper)
  adminUsername : String := "admin"
  adminPasswordHash : String := ""
  botEnabled : Bool := false
  botUsername : String := ""
  sha256 : String → String := id
  googleClientId : String := ""
  emailStr : String → Option String := some
  verifyPassword : String → String → Bool := fun _ _ => false

/-- A session of the portal. -/
abbrev Portal := Proc World Input Exn

/-- A query: the rows committed when it runs. -/
def select {α : Type} (q : Db → α) : Portal α := Proc.look fun w => q w.db

/-- A commit: all writes of the session at once. -/
def commit (f : Db → Db) : Portal Unit := Proc.change fun w => { w with db := f w.db }

/-- A commit that also hands back a value, such as the number of a new row. -/
def commitWith {α : Type} (f : Db → α × Db) : Portal α :=
  Proc.exchange fun w _ => ((f w.db).1, { w with db := (f w.db).2 })

/-- `datetime.now(timezone.utc)`: a clock that never goes back. -/
def now : Portal Time :=
  Proc.exchange fun w i => (max w.clock i.now, { w with clock := max w.clock i.now })

/-- `mailer.send_later`: nothing for an account without a mailbox. -/
def sendLater (email : Option String) (kind : NoticeKind) (until_ : Time) : Portal Unit :=
  match email with
  | none => pure ()
  | some address =>
      if address = "" then pure ()
      else Proc.change fun w => { w with outbox := w.outbox ++ [⟨address, kind, until_⟩] }

/-- `_add_peer_at`: one call of `pwa-add-peer` on the entry at `host`. -/
def addPeerAt (host : String) (peer : NewPeer) : Portal Reply :=
  Proc.exchange fun w i =>
    ((i.add host peer).1, { w with node := Function.update w.node host (i.add host peer).2 })

/-- `_remove_peer_at`: one call of `pwa-del-peer` on the entry at `host`. -/
def removePeerAt (host : String) (c : Config) : Portal Reply :=
  Proc.exchange fun w i =>
    ((i.del host c).1, { w with node := Function.update w.node host (i.del host c).2 })

/-- `scalar_one_or_none`: more than one row is an exception. -/
def scalarOneOrNone {α : Type} : List α → Portal (Option α)
  | [] => pure none
  | [a] => pure (some a)
  | _ => .raise .crash

/-- `str.strip` -/
def strip (s : String) : String := String.ofList (Words.strip s.toList)

/-- Python's `needle in hay` for texts. -/
def hasText (needle hay : String) : Bool := decide (needle.toList <:+: hay.toList)

end VpnPortal
