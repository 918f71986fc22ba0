/-
Accounts: the endpoints that create one (`pwa/api/register.py`,
`pwa/api/telegram.py`, `pwa/api/google_auth.py`) and the sign-in by password
(`pwa/api/auth.py`).

The INSERT of a new account and its commit are one step: other sessions see the
row at the commit, and an INSERT that clashes with one under way waits for it.
The database's `lower` is applied to stored usernames only; these are ASCII,
where it is Python's. The refresh tokens of `app_sessions` and the letter of
`register` are not kept.
-/
import VpnPortal.Api.Payment

namespace VpnPortal

open Sessions Tables

/-- The characters of `USERNAME_RE`. -/
def isNameChar (c : Char) : Bool := c.isAlphanum || c == '_' || c == '-'

/-- `USERNAME_RE.fullmatch`: `[A-Za-z0-9_-]{3,27}`. -/
@[irreducible] def usernameRe (s : String) : Bool :=
  decide (3 ≤ s.length) && decide (s.length ≤ 27) && s.toList.all isNameChar

/-- `RESERVED`: names that would read as the operator. -/
def Settings.reserved (cfg : Settings) : List String :=
  [cfg.lower cfg.adminUsername, "admin", "root", "support", "sovereign", "sovrn"]

/-! ### Requests -/

/-- The body of a registration. -/
structure RegisterBody where
  username : String
  email : String
  password : String
  ref : Option String := none
  deriving DecidableEq, Repr

/-- `RegisterRequest`, after its validators. -/
structure RegisterRequest (cfg : Settings) where
  username : String
  email : String
  ref : Option String
  matches_ : usernameRe username = true
  free : cfg.lower username ∉ cfg.reserved

/-- The validators of `RegisterRequest`: the first error they find. -/
def RegisterBody.validate (cfg : Settings) (body : RegisterBody) :
    Except String (RegisterRequest cfg) :=
  if hname : usernameRe body.username = true then
    if hfree : cfg.lower body.username ∉ cfg.reserved then
      match cfg.emailStr body.email with
      | none => .error "value is not a valid email address"
      | some email =>
          if body.password.length < 8 then .error "String should have at least 8 characters"
          else if 128 < body.password.length then .error "String should have at most 128 characters"
          else if body.ref.any (32 < ·.length) then .error "String should have at most 32 characters"
          else .ok ⟨body.username, cfg.lower email, body.ref, hname, hfree⟩
    else .error "This username is reserved"
  else .error "3-27 characters: Latin letters, digits, - and _"

/-- `TgRegister` -/
structure TgRegister where
  username : String
  ref : Option String := none
  deriving DecidableEq, Repr

/-- The bounds of `TgRegister`. -/
def TgRegister.fits (body : TgRegister) : Bool :=
  decide (3 ≤ body.username.length) && decide (body.username.length ≤ 27)
    && !body.ref.any (32 < ·.length)

/-- `GoogleIn` -/
structure GoogleIn where
  username : Option String := none
  ref : Option String := none
  deriving DecidableEq, Repr

/-- The bounds of `GoogleIn`. -/
def GoogleIn.fits (body : GoogleIn) : Bool :=
  !body.username.any (27 < ·.length) && !body.ref.any (64 < ·.length)

/-! ### Creating an account -/

/-- `ratelimit.take` -/
def takeLimit : Portal Unit := do
  match ← Proc.ask Input.rateLimit with
  | some wait => .raise (.http 429 (.retryAfter wait))
  | none => pure ()

/-- The accounts whose name is this one, whatever the case. -/
def sameName (cfg : Settings) (name : String) (db : Db) : List User :=
  db.users.rows.filter fun u => cfg.lower u.username = cfg.lower name

/-- The unique constraints on `username`, `email`, `telegram_id` and
`google_sub`. -/
def accountConflict (users : List User) (new : User) : Bool :=
  users.any fun u => u.username = new.username
    ∨ (new.email ≠ none ∧ u.email = new.email)
    ∨ (new.telegramId ≠ none ∧ u.telegramId = new.telegramId)
    ∨ (new.googleSub ≠ none ∧ u.googleSub = new.googleSub)

/-- `INSERT INTO users`: the stored account, or `none` for an `IntegrityError`. -/
def Db.addAccount (mk : ℕ → User) (hmk : ∀ n, Row.num (mk n) = n) (db : Db) : Option User × Db :=
  if accountConflict db.users.rows (mk 0) then (none, db)
  else (some (mk db.users.next), { db with users := db.users.insert mk hmk })

/-- The new account is stored, or the `IntegrityError` ends the request. -/
def storeAccount (mk : ℕ → User) (hmk : ∀ n, Row.num (mk n) = n) : Portal User := do
  match ← commitWith (Db.addAccount mk hmk) with
  | none => .raise .crash
  | some user => pure user

/-- `resolve_code` for an account that is only being made: it owns no code and
has no purchase. -/
def resolveForNew (cfg : Settings) (code : String) : Portal (Option String) := do
  let t ← now
  let promo ← select fun db => db.promoCodes.rows.find? fun c => c.code = normaliseCode cfg code
  match promo with
  | none => pure none
  | some promo =>
      if !promo.isActive || promo.expiresAt.any (· ≤ t) then pure none
      else do
        let used ← isUsedUp promo
        pure (if used then none else some promo.code)

/-- The code of the link an account is made through; one that does not resolve
is dropped. -/
def referredCode (cfg : Settings) (ref : Option String) : Portal (Option String) :=
  match ref.filter (· ≠ "") with
  | none => pure none
  | some code => resolveForNew cfg code

/-- `register` -/
def register (cfg : Settings) (req : RegisterRequest cfg) : Portal User := do
  takeLimit
  let named ← select (sameName cfg req.username)
  match ← scalarOneOrNone named with
  | some _ => .raise (.http 409 (.text "Username already exists"))
  | none => do
      let rows ← select fun db => db.users.rows.filter fun u => u.email.map cfg.lower = some req.email
      match ← scalarOneOrNone rows with
      | some _ => .raise (.http 409 (.text "Email already registered"))
      | none => do
          let hash ← Proc.ask Input.hash
          let code ← referredCode cfg req.ref
          storeAccount (fun n =>
            { id := n, username := req.username, email := some req.email, passwordHash := hash,
              referredCode := code }) fun _ => rfl

/-- `_user_by_chat` -/
def userByChat (chat : ℤ) : Portal (Option User) := do
  let rows ← select fun db => db.users.rows.filter fun u => u.telegramId = some chat
  scalarOneOrNone rows

/-- The username of a new account, checked: it fits the node's peer names and
nobody has it. -/
def freeName (cfg : Settings) (username : String) : Portal String :=
  let name := strip username
  if !usernameRe name then .raise (.http 422 (.text "bad_username"))
  else do
    let taken ← select (sameName cfg name)
    if !taken.isEmpty then .raise (.http 409 (.text "username_taken")) else pure name

/-- `tg_register` -/
def tgRegister (cfg : Settings) (body : TgRegister) : Portal User := do
  takeLimit
  if !cfg.botEnabled then .raise (.http 503 (.text "bot is off"))
  else match ← Proc.ask Input.initData with
    | none => .raise (.http 401 (.text "bad init data"))
    | some chat => do
        match ← userByChat chat with
        | some _ => .raise (.http 409 (.text "already_linked"))
        | none => do
            let name ← freeName cfg body.username
            let code ← referredCode cfg body.ref
            let hash ← Proc.ask Input.hash
            storeAccount (fun n =>
              { id := n, username := name, telegramId := some chat, passwordHash := hash,
                referredCode := code }) fun _ => rfl

/-- Someone new from Google, past the checks of the account. The name that is
suggested beside `need_username` is not kept. -/
def googleNew (cfg : Settings) (body : GoogleIn) (sub email : String) : Portal User :=
  match body.username.filter (· ≠ "") with
  | none => .raise (.http 404 (.text "need_username"))
  | some username => do
      takeLimit
      let name ← freeName cfg username
      let code ← referredCode cfg body.ref
      let t ← now
      let hash ← Proc.ask Input.hash
      storeAccount (fun n =>
        { id := n, username := name, email := some email, emailVerifiedAt := some t,
          googleSub := some sub, passwordHash := hash, referredCode := code }) fun _ => rfl

/-- `UPDATE users SET google_sub`, under its unique constraint. -/
def Db.tieGoogle (user : ℕ) (sub : String) (db : Db) : Bool × Db :=
  if db.users.rows.any fun u => u.id ≠ user ∧ u.googleSub = some sub then (false, db)
  else (true, { db with
    users := db.users.update user (fun u => { u with googleSub := some sub }) fun _ => rfl })

/-- A Google account that is known, or becomes known by its address. -/
def googleKnown (user : User) (sub : String) : Portal User :=
  if !user.isActive then .raise (.http 403 (.text "Account disabled"))
  else if user.googleSub = none then do
    match ← commitWith (Db.tieGoogle user.id sub) with
    | false => .raise .crash
    | true => pure { user with googleSub := some sub }
  else pure user

/-- `google_sign_in` -/
def googleSignIn (cfg : Settings) (body : GoogleIn) : Portal User := do
  takeLimit
  if cfg.googleClientId = "" then .raise (.http 503 (.text "google_off"))
  else match ← Proc.ask Input.claims with
    | none => .raise (.http 401 (.text "bad_google_token"))
    | some (sub, address) => do
        let email := cfg.lower (strip address)
        let rows ← select fun db => db.users.rows.filter fun u => u.googleSub = some sub
        match ← scalarOneOrNone rows with
        | some user => googleKnown user sub
        | none => do
            let rows ← select fun db =>
              db.users.rows.filter fun u => u.email.map cfg.lower = some email
            match ← scalarOneOrNone rows with
            | some same =>
                -- an unconfirmed address proves nothing
                if same.emailVerifiedAt = none then
                  .raise (.http 409 (.text "email_unconfirmed"))
                else googleKnown same sub
            | none => googleNew cfg body sub email

/-- A request to one of the endpoints that create accounts. -/
inductive Creation where
  | register (body : RegisterBody)
  | telegram (body : TgRegister)
  | google (body : GoogleIn)
  deriving DecidableEq, Repr

/-- The endpoint, its validators included. -/
def Creation.run (cfg : Settings) : Creation → Portal User
  | .register body =>
      match body.validate cfg with
      | .error e => .raise (.http 422 (.text e))
      | .ok req => VpnPortal.register cfg req
  | .telegram body =>
      if body.fits then tgRegister cfg body else .raise (.http 422 (.text "invalid body"))
  | .google body =>
      if body.fits then googleSignIn cfg body else .raise (.http 422 (.text "invalid body"))

/-! ### Signing in -/

/-- `LoginRequest` -/
structure LoginRequest where
  username : String
  password : String
  deriving DecidableEq, Repr

/-- The subject of a token, and whether it is the operator's. -/
structure Token where
  sub : String
  admin : Bool
  deriving DecidableEq, Repr

/-- `login`, past the bounds of the request. -/
def login (cfg : Settings) (req : LoginRequest) : Portal Token := do
  takeLimit
  -- the failed attempts of this address and name
  takeLimit
  if req.username = cfg.adminUsername then
    if cfg.verifyPassword req.password cfg.adminPasswordHash then pure ⟨req.username, true⟩
    else .raise (.http 401 (.text "Invalid credentials"))
  else do
    let rows ← select (sameName cfg req.username)
    match ← scalarOneOrNone rows with
    | none => .raise (.http 401 (.text "Invalid credentials"))
    | some user =>
        if !cfg.verifyPassword req.password user.passwordHash then
          .raise (.http 401 (.text "Invalid credentials"))
        else if !user.isActive then .raise (.http 403 (.text "Account disabled"))
        else pure ⟨user.username, false⟩

end VpnPortal
