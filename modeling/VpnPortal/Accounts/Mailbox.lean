/-
Letters that prove an address (`pwa/api/email_verify.py`,
`pwa/api/password_reset.py`): an account's address is confirmed, and its password
set anew, by a token from a letter to that address.

One request after another, over the columns of `users` that these endpoints read
or write. What is stored of a token is its digest; a letter that is not delivered
is a letter all the same. The address of an account is never changed. What the
requests do besides (sessions, refresh tokens, referral codes, the welcome in the
first letter) is left out.

* `Account`, `Letter`, `Call`, `answer`: the requests;
* `run`, `Entry`: histories;
* `confirmMoves`, `resetMoves`: the tokens a history wrote to addresses, and those
  that were used;
* `Shown`, `ByGoogle`: an address was shown to be read, or Google vouched for it.
-/
import VpnPortal.Api.Register
import VpnPortal.Tokens.OneTime

namespace VpnPortal.Mailbox

open OneTime

/-! ### Accounts and letters -/

/-- The columns of `users`. -/
structure Account where
  id : ℕ
  username : String
  email : Option String := none
  passwordHash : String
  isActive : Bool := true
  emailVerifiedAt : Option Time := none
  emailVerifyToken : Option String := none
  emailVerifyExpires : Option Time := none
  resetToken : Option String := none
  resetExpires : Option Time := none
  googleSub : Option String := none
  telegramId : Option ℤ := none
  deriving DecidableEq, Repr

inductive Purpose where
  | confirm | reset
  deriving DecidableEq, Repr

/-- A letter with a link. -/
structure Letter where
  purpose : Purpose
  address : String
  token : String
  deriving DecidableEq, Repr

/-- `VERIFY_TOKEN_TTL`: 48 hours. -/
def verifyTtl : Time := 48 * 3600 * 1000000

/-- `RESET_TOKEN_TTL_HOURS`: one hour. -/
def resetTtl : Time := 3600 * 1000000

/-! ### Requests -/

/-- The bodies, a registration and the addresses after their validators; `sub` and
`email` of a Google token are its claims, `chat` is the Telegram account of signed
data. -/
inductive Request where
  | register (username email : String)
  | resend (username : String)
  | verify (token : String)
  | forgot (email : String)
  | reset (token password : String)
  | google (sub email : String) (username : Option String)
  | telegram (chat : ℤ) (username : String)
  deriving DecidableEq, Repr

/-- A request and what it meets. -/
structure Call where
  request : Request
  now : Time
  /-- `secrets.token_urlsafe(32)` -/
  token : String
  /-- `hash_password` of the password in the request, or of a random one. -/
  hash : String
  /-- A limit that refuses, the first or the second that is taken. -/
  limited : Fin 2 → Bool
  deriving DecidableEq

inductive Answer where
  | done
  | alreadyVerified
  /-- The account is new. -/
  | created
  | signedIn (username : String)
  | refused (code : ℕ) (detail : String)
  /-- More than one row, or an `IntegrityError`. -/
  | crashed
  deriving DecidableEq, Repr

/-- What a request gives. -/
structure Result where
  answer : Answer
  accounts : List Account
  letters : List Letter := []
  deriving DecidableEq

/-- `scalar_one_or_none`; `none` is more than one row. -/
def oneOrNone {α : Type} : List α → Option (Option α)
  | [] => some none
  | [a] => some (some a)
  | _ => none

/-- The row of one account is written. -/
def save (accounts : List Account) (new : Account) : List Account :=
  accounts.map fun a => if a.id = new.id then new else a

/-- The unique constraints on `username`, `email`, `google_sub` and `telegram_id`. -/
def clashes (accounts : List Account) (new : Account) : Bool :=
  accounts.any fun a => a.username = new.username
    ∨ (new.email ≠ none ∧ a.email = new.email)
    ∨ (new.googleSub ≠ none ∧ a.googleSub = new.googleSub)
    ∨ (new.telegramId ≠ none ∧ a.telegramId = new.telegramId)

/-- `INSERT`; the letters go out once it is committed. -/
def insert (accounts : List Account) (new : Account) (letters : List Letter) : Result :=
  if clashes accounts new then ⟨.crashed, accounts, []⟩ else ⟨.created, accounts ++ [new], letters⟩

/-- `mark_verified` -/
def Account.markVerified (a : Account) (now : Time) : Account :=
  { a with emailVerifiedAt := some (a.emailVerifiedAt.getD now),
           emailVerifyToken := none, emailVerifyExpires := none }

section Answers

variable (cfg : Settings) (accounts : List Account) (c : Call)

def refuse (code : ℕ) (detail : String) : Result := ⟨.refused code detail, accounts, []⟩

/-- The account made by a registration, with its confirmation token (`issue_token`). -/
def newAccount (username email : String) : Account where
  id := accounts.length
  username := username
  email := some email
  passwordHash := c.hash
  emailVerifyToken := some (cfg.sha256 c.token)
  emailVerifyExpires := some (c.now + verifyTtl)

/-- `register` -/
def register (username email : String) : Result :=
  if c.limited 0 then refuse accounts 429 ""
  else match oneOrNone (accounts.filter fun a => cfg.lower a.username = cfg.lower username) with
  | none => ⟨.crashed, accounts, []⟩
  | some (some _) => refuse accounts 409 "Username already exists"
  | some none =>
    match oneOrNone (accounts.filter fun a => a.email.map cfg.lower = some email) with
    | none => ⟨.crashed, accounts, []⟩
    | some (some _) => refuse accounts 409 "Email already registered"
    | some none =>
        insert accounts (newAccount cfg accounts c username email) [⟨.confirm, email, c.token⟩]

/-- `resend_verification` -/
def resendVerification (username : String) : Result :=
  match oneOrNone (accounts.filter fun a => a.username = username) with
  | none => ⟨.crashed, accounts, []⟩
  | some none => refuse accounts 404 "User not found"
  | some (some user) =>
    if user.emailVerifiedAt ≠ none then ⟨.alreadyVerified, accounts, []⟩
    else match user.email.filter (· ≠ "") with
    | none => refuse accounts 400 "no_email"
    | some email =>
      if c.limited 0 || c.limited 1 then refuse accounts 429 ""
      else ⟨.done, save accounts { user with
        emailVerifyToken := some (cfg.sha256 c.token), emailVerifyExpires := some (c.now + verifyTtl) },
        [⟨.confirm, email, c.token⟩]⟩

/-- `max_length` of a shown token and of a new password. -/
def maxLength : ℕ := 128

/-- `verify_email`, behind the validator of its body. -/
def verifyEmail (token : String) : Result :=
  if maxLength < token.length then refuse accounts 422 "string_too_long"
  else if c.limited 0 then refuse accounts 429 ""
  else match oneOrNone (accounts.filter fun a => a.emailVerifyToken = some (cfg.sha256 token)) with
  | none => ⟨.crashed, accounts, []⟩
  | some none => refuse accounts 400 "Invalid or used confirmation link"
  | some (some user) =>
    match user.emailVerifyExpires with
    | none => refuse accounts 400 "Invalid or used confirmation link"
    | some expires =>
      if expires < c.now then refuse accounts 400 "Confirmation link has expired"
      else ⟨.done, save accounts (user.markVerified c.now), []⟩

/-- `forgot_password`: the same answer for every address. -/
def forgotPassword (email : String) : Result :=
  if c.limited 0 || c.limited 1 then refuse accounts 429 ""
  else match oneOrNone (accounts.filter fun a => a.email.map cfg.lower = some (cfg.lower email)) with
  | none => ⟨.crashed, accounts, []⟩
  | some none => ⟨.done, accounts, []⟩
  | some (some user) => ⟨.done, save accounts { user with
      resetToken := some (cfg.sha256 c.token), resetExpires := some (c.now + resetTtl) },
      user.email.toList.map fun address => ⟨.reset, address, c.token⟩⟩

/-- The account with a new password. -/
def Account.withPassword (a : Account) (hash : String) (now : Time) : Account :=
  let a := { a with passwordHash := hash, resetToken := none, resetExpires := none }
  if a.emailVerifiedAt = none then a.markVerified now else a

/-- `reset_password`, behind the validator of its body; a token that is too old is
cleared. -/
def resetPassword (token password : String) : Result :=
  if maxLength < token.length ∨ maxLength < password.length then
    refuse accounts 422 "string_too_long"
  else if c.limited 0 then refuse accounts 429 ""
  else if password.length < 8 then refuse accounts 400 "Password must be at least 8 characters"
  else match oneOrNone (accounts.filter fun a => a.resetToken = some (cfg.sha256 token)) with
  | none => ⟨.crashed, accounts, []⟩
  | some none => refuse accounts 400 "Invalid or expired reset link"
  | some (some user) =>
    match user.resetExpires with
    | none => refuse accounts 400 "Invalid or expired reset link"
    | some expires =>
      if expires < c.now then
        ⟨.refused 400 "Invalid or expired reset link",
          save accounts { user with resetToken := none, resetExpires := none }, []⟩
      else ⟨.done, save accounts (user.withPassword c.hash c.now), []⟩

/-- `_signed_in` for an account that may be disabled. -/
def signIn (user : Account) (accounts' : List Account) : Result :=
  if !user.isActive then refuse accounts 403 "Account disabled"
  else ⟨.signedIn user.username, accounts', []⟩

/-- A new account with a username of its own. -/
def createNamed (username : String) (new : String → Account) : Result :=
  let name := strip username
  if !usernameRe name then refuse accounts 422 "bad_username"
  else if accounts.any fun a => cfg.lower a.username = cfg.lower name then
    refuse accounts 409 "username_taken"
  else insert accounts (new name) []

/-- `google_sign_in` -/
def googleSignIn (sub email : String) (username : Option String) : Result :=
  if c.limited 0 then refuse accounts 429 ""
  else match oneOrNone (accounts.filter fun a => a.googleSub = some sub) with
  | none => ⟨.crashed, accounts, []⟩
  | some (some user) => signIn accounts user accounts
  | some none =>
    match oneOrNone (accounts.filter fun a => a.email.map cfg.lower = some email) with
    | none => ⟨.crashed, accounts, []⟩
    | some (some same) =>
      if same.emailVerifiedAt = none then refuse accounts 409 "email_unconfirmed"
      else if same.googleSub = none then
        signIn accounts same (save accounts { same with googleSub := some sub })
      else signIn accounts same accounts
    | some none =>
      match username.filter (· ≠ "") with
      | none => refuse accounts 404 "need_username"
      | some username =>
        if c.limited 1 then refuse accounts 429 ""
        else createNamed cfg accounts username fun name =>
          { id := accounts.length, username := name, email := some email, passwordHash := c.hash,
            emailVerifiedAt := some c.now, googleSub := some sub }

/-- `tg_register` -/
def tgRegister (chat : ℤ) (username : String) : Result :=
  if c.limited 0 then refuse accounts 429 ""
  else match oneOrNone (accounts.filter fun a => a.telegramId = some chat) with
  | none => ⟨.crashed, accounts, []⟩
  | some (some _) => refuse accounts 409 "already_linked"
  | some none => createNamed cfg accounts username fun name =>
      { id := accounts.length, username := name, passwordHash := c.hash, telegramId := some chat }

/-- One request. -/
def answer : Result :=
  match c.request with
  | .register username email => register cfg accounts c username email
  | .resend username => resendVerification cfg accounts c username
  | .verify token => verifyEmail cfg accounts c token
  | .forgot email => forgotPassword cfg accounts c email
  | .reset token password => resetPassword cfg accounts c token password
  | .google sub email username => googleSignIn cfg accounts c sub email username
  | .telegram chat username => tgRegister cfg accounts c chat username

end Answers

/-! ### Histories -/

/-- A request with its answer and the letters it wrote. -/
structure Entry where
  call : Call
  answer : Answer
  letters : List Letter
  deriving DecidableEq

/-- The accounts after some requests, and the history. -/
structure State where
  accounts : List Account := []
  log : List Entry := []
  deriving DecidableEq

def State.next (cfg : Settings) (s : State) (c : Call) : State :=
  let r := Mailbox.answer cfg s.accounts c
  ⟨r.accounts, s.log ++ [⟨c, r.answer, r.letters⟩]⟩

/-- All requests, one after another. -/
def run (cfg : Settings) (calls : List Call) : State := calls.foldl (State.next cfg) {}

/-- The tokens of a letter's purpose: written until `until_`, or used by `token`. -/
def Entry.moves (purpose : Purpose) (ttl : Time) (used : Option String) (x : Entry) :
    List (Move String String) :=
  ((x.letters.filter fun l => l.purpose = purpose).map fun l =>
      .issue l.address l.token (x.call.now + ttl)) ++
    if x.answer = .done then (used.map Move.use).toList else []

/-- The token that a request to confirm shows. -/
def Request.verifies : Request → Option String
  | .verify token => some token
  | _ => none

/-- The token that a request for a new password shows. -/
def Request.resets : Request → Option String
  | .reset token _ => some token
  | _ => none

/-- The tokens of a request: one for a letter, and those it shows. -/
def Call.tokens (c : Call) : List String :=
  c.token :: (c.request.verifies.toList ++ c.request.resets.toList)

/-- The confirmation tokens in a history. -/
def confirmMoves (log : List Entry) : List (Move String String) :=
  log.flatMap fun x => x.moves .confirm verifyTtl x.call.request.verifies

/-- The reset tokens in a history. -/
def resetMoves (log : List Entry) : List (Move String String) :=
  log.flatMap fun x => x.moves .reset resetTtl x.call.request.resets

/-- The entry shows a token from an earlier letter to the address, and is accepted. -/
def Entry.Shows (before : List Entry) (x : Entry) (address : String) : Prop :=
  x.answer = .done ∧ ∃ l ∈ before.flatMap Entry.letters, l.address = address ∧
    ((l.purpose = .confirm ∧ x.call.request.verifies = some l.token) ∨
      (l.purpose = .reset ∧ x.call.request.resets = some l.token))

/-- **The address was shown to be read**: a token from a letter to it was accepted. -/
def Shown (log : List Entry) (address : String) : Prop :=
  ∃ before x after, log = before ++ x :: after ∧ x.Shows before address

/-- An account was made with this address by Google's word. -/
def ByGoogle (log : List Entry) (address : String) : Prop :=
  ∃ x ∈ log, x.answer = .created ∧ ∃ sub username, x.call.request = .google sub address username

/-- **What a run relies on**: a token is never made a second time, the clock does not
go back, and of the tokens made or shown no two have the same digest. -/
structure Regular (cfg : Settings) (calls : List Call) : Prop where
  fresh : (calls.map Call.token).Nodup
  clock : (calls.map Call.now).Pairwise (· ≤ ·)
  digests : Set.InjOn cfg.sha256 {t | t ∈ calls.flatMap Call.tokens}

end VpnPortal.Mailbox
