/-
The signed-in session of the phone app (`session/Session.kt`) over the secret
store (`storage/Secrets.kt`) and the client (`api/ApiClient.kt`).

Every `get`, `put` and `remove` of the store and every request is one atomic
step of the phone, so that a process killed at any point has taken a prefix of
the steps. The phone also keeps the log that the tests of the app keep: the
requests with their answers, the tunnel and the wipe of the store.

* `Key`, `Phone`, `Event`: the state;
* `login` … `config`: the requests of the client;
* `Session.signIn` … `Session.signOut`, with `authorized` and `renew`;
* `Session.Op`: the operations as data.
-/
import VpnPortal.App.Models
import VpnPortal.Sessions.Proc

namespace VpnPortal.App

open Sessions Sessions.Proc

/-! ### The phone -/

/-- The names under which the session stores its secrets. -/
inductive Key where
  | token
  | refresh
  | conf
  | deviceId
  | deviceName
deriving DecidableEq, Repr

/-- `Session.Selected` -/
structure Selected where
  id : String
  name : String
deriving DecidableEq, Repr

/-- A request of the client, by what it asks for and what it carries besides the
token. -/
inductive Endpoint where
  | login (username password : String)
  | register (username email password : String)
  | refresh (refreshToken : String)
  | logout (refreshToken : String)
  | profile
  | devices
  | addDevice (name : String)
  | renameDevice (deviceId name : String)
  | deleteDevice (deviceId : String)
  | startTrial
  | resendVerification
  | trialOffer
  | latestRelease
  | config (deviceId : String)
deriving DecidableEq, Repr

/-- A line of the log. -/
inductive Event where
  | sent (endpoint : Endpoint) (token : Option String) (answer : Answer)
  | tunnelUp (conf : String)
  | tunnelDown
  | wipe
deriving DecidableEq

/-- `SignedOut` -/
structure SignedOut where
  notice : Option String
deriving DecidableEq, Repr

/-- `AccountUi` -/
structure AccountUi where
  profile : Option Profile := none
  devices : Option DeviceList := none
  selected : Option Selected := none
  busy : Bool := false
  error : Option String := none
  notice : Option String := none
  trialOffer : Option TrialOffer := none
  release : Option AppRelease := none
  signedOut : Option SignedOut := none

/-- The store, the config the tunnel runs on (`none`: it is down), what the
screens show, and the log. -/
structure Phone where
  secrets : Key → Option String
  tunnel : Option String
  ui : AccountUi
  log : List Event

/-- The app just installed. -/
def newPhone : Phone := ⟨fun _ => none, none, {}, []⟩

/-- What comes from outside at a step: the answer to a request, the clock. -/
structure Outside where
  answer : Answer
  now : ℤ

/-- A piece of the app. -/
abbrev Code (α : Type) := Proc Phone Outside Empty α

namespace Phone

def put (k : Key) (v : String) (s : Phone) : Phone :=
  { s with secrets := Function.update s.secrets k (some v) }

def remove (k : Key) (s : Phone) : Phone :=
  { s with secrets := Function.update s.secrets k none }

/-- `clear`: every value, and the key that could read them. -/
def clear (s : Phone) : Phone := { s with secrets := fun _ => none, log := s.log ++ [.wipe] }

/-- A request has gone out and been answered. -/
def sent (e : Endpoint) (token : Option String) (a : Answer) (s : Phone) : Phone :=
  { s with log := s.log ++ [.sent e token a] }

/-- `isSignedIn` -/
def isSignedIn (s : Phone) : Bool := (s.secrets .token).isSome || (s.secrets .refresh).isSome

/-- `selected()` -/
def selected (s : Phone) : Option Selected :=
  match s.secrets .deviceId, s.secrets .deviceName, s.secrets .conf with
  | some id, some name, some _ => some ⟨id, name⟩
  | _, _, _ => none

/-- `storedConfig()` -/
def storedConfig (s : Phone) : Option String :=
  if s.selected.isSome then s.secrets .conf else none

end Phone

def get (k : Key) : Code (Option String) := look fun s => s.secrets k

def put (k : Key) (v : String) : Code Unit := change (Phone.put k v)

def remove (k : Key) : Code Unit := change (Phone.remove k)

/-! ### The client -/

/-- `transport.send` -/
def send (e : Endpoint) (token : Option String) : Code Answer :=
  exchange fun s i => (i.answer, s.sent e token i.answer)

variable (D : Decoders)

/-- `call` -/
def call {T : Type} (e : Endpoint) (token : Option String)
    (parse : String → Except (Option String) T) : Code (ApiResult T) := do
  return D.read parse (← send e token)

/-- The tokens of an answer, unless they are for another role than a customer's;
that answer is turned into the error `e`. -/
def forClient (e : ApiError) : ApiResult TokenResponse → ApiResult TokenResponse
  | .ok value => if value.role ≠ "client" then .failed e else .ok value
  | .failed e => .failed e

/-- `login`: POST /api/auth/token -/
def login (username password : String) : Code (ApiResult TokenResponse) := do
  return forClient (.rejected "This account cannot be used in the app")
    (← call D (.login username password) none D.tokenResponse)

/-- `register`: POST /api/client/register -/
def register (username email password : String) : Code (ApiResult Unit) :=
  call D (.register username email password) none fun _ => .ok ()

/-- `refresh`: POST /api/auth/refresh -/
def refresh (refreshToken : String) : Code (ApiResult TokenResponse) := do
  return forClient .unauthorized (← call D (.refresh refreshToken) none D.tokenResponse)

/-- `logout`: POST /api/auth/logout -/
def logout (refreshToken : String) : Code (ApiResult Unit) :=
  call D (.logout refreshToken) none fun _ => .ok ()

/-- `profile`: GET /api/client/me -/
def profile (token : String) : Code (ApiResult Profile) := call D .profile (some token) D.profile

/-- `devices`: GET /api/client/configs -/
def devices (token : String) : Code (ApiResult DeviceList) :=
  call D .devices (some token) D.deviceList

def nameRule : String := "Device name must be 1 to 6 Latin letters, digits, - or _"

/-- `addDevice`: POST /api/client/configs -/
def addDevice (token name : String) : Code (ApiResult Device) :=
  if !deviceNameMatches (trim name) then return .failed (.rejected nameRule)
  else call D (.addDevice (trim name)) (some token) D.addedDevice

/-- `renameDevice`: PATCH /api/client/configs/… -/
def renameDevice (token deviceId name : String) : Code (ApiResult Device) :=
  if !deviceIdMatches deviceId then return .failed (.rejected "Not a device id")
  else if !deviceNameMatches (trim name) then return .failed (.rejected nameRule)
  else call D (.renameDevice deviceId (trim name)) (some token) D.renamedDevice

/-- `deleteDevice`: DELETE /api/client/configs/… -/
def deleteDevice (token deviceId : String) : Code (ApiResult Unit) :=
  if !deviceIdMatches deviceId then return .failed (.rejected "Not a device id")
  else call D (.deleteDevice deviceId) (some token) fun body => (D.removedDevice body).map fun _ => ()

/-- `startTrial`: POST /api/client/trial -/
def startTrial (token : String) : Code (ApiResult Device) :=
  call D .startTrial (some token) D.trialStarted

/-- `resendVerification`: POST /api/auth/resend-verification -/
def resendVerification (token : String) : Code (ApiResult Bool) :=
  call D .resendVerification (some token) D.resendResult

/-- `trialOffer`: GET /api/public/trial -/
def trialOffer : Code (ApiResult TrialOffer) := call D .trialOffer none D.trialOffer

/-- `latestRelease`: GET /api/public/android -/
def latestRelease : Code (ApiResult AppRelease) := call D .latestRelease none D.appRelease

/-- `config`: GET /api/client/configs/…/raw -/
def config (token deviceId : String) : Code (ApiResult String) :=
  if !deviceIdMatches deviceId then return .failed (.rejected "Not a device id")
  else call D (.config deviceId) (some token) .ok

/-! ### The session -/

namespace Session

/-- `renew`: a new access token from the refresh token. -/
def renew : Code (ApiResult String) := do
  match ← get .refresh with
  | none => return .failed .unauthorized
  | some r =>
      match ← refresh D r with
      | .ok value => do
          put .token value.accessToken
          return .ok value.accessToken
      | .failed e =>
          if e = .unauthorized then do
            remove .refresh
            return .failed e
          else return .failed e

/-- The second half of `authorized`: a new token, and the call with it. -/
def again {T : Type} (act : String → Code (ApiResult T)) : Code (ApiResult T) := do
  match ← renew D with
  | .ok token => do
      let r ← act token
      if r.isUnauthorized then do
        remove .token
        return r
      else return r
  | .failed e => return .failed e

/-- `authorized` -/
def authorized {T : Type} (act : String → Code (ApiResult T)) : Code (ApiResult T) := do
  match ← get .token with
  | some token => do
      let result ← act token
      if result.isUnauthorized then do
        remove .token
        again D act
      else return result
  | none => again D act

/-- `signIn` -/
def signIn (username password : String) : Code (ApiResult Unit) := do
  match ← login D (trim username) password with
  | .ok value => do
      put .token value.accessToken
      match value.refreshToken with
      | some r => put .refresh r
      | none => remove .refresh
      return .ok ()
  | .failed e => return .failed e

/-- `register` -/
def register (username email password : String) : Code (ApiResult Unit) := do
  match ← App.register D (trim username) (trim email) password with
  | .ok _ => signIn D username password
  | .failed e => return .failed e

/-- `profile` -/
def profile : Code (ApiResult Profile) := authorized D (App.profile D)

/-- `forgetSelection`: the id goes first. -/
def forgetSelection : Code Unit := do
  remove .deviceId
  remove .deviceName
  remove .conf

/-- What `devices` does with a list: the name follows it, and a device that is
not on it is forgotten. -/
def follow (list : DeviceList) : Code Unit := do
  match ← get .deviceId with
  | none => return
  | some id =>
      match list.configs.find? fun d => d.id == id with
      | none => forgetSelection
      | some current =>
          if (← get .deviceName) ≠ some current.name then put .deviceName current.name

/-- `devices` -/
def devices : Code (ApiResult DeviceList) := do
  match ← authorized D (App.devices D) with
  | .ok list => do
      follow list
      return .ok list
  | .failed e => return .failed e

/-- The call inside `deleteDevice`; a 404 counts as done. -/
def deleteCall (deviceId token : String) : Code (ApiResult Unit) := do
  match ← App.deleteDevice D token deviceId with
  | .ok _ => gone
  | .failed e => if e = .notFound then gone else return .failed e
where
  gone : Code (ApiResult Unit) := do
    if (← get .deviceId) = some deviceId then do
      forgetSelection
      return .ok ()
    else return .ok ()

/-- `deleteDevice` -/
def deleteDevice (deviceId : String) : Code (ApiResult Unit) :=
  authorized D (deleteCall D deviceId)

/-- `addDevice` -/
def addDevice (name : String) : Code (ApiResult Device) :=
  authorized D fun token => App.addDevice D token name

/-- `startTrial` -/
def startTrial : Code (ApiResult Device) := authorized D (App.startTrial D)

/-- `resendVerification` -/
def resendVerification : Code (ApiResult Bool) := authorized D (App.resendVerification D)

/-- The call inside `renameDevice`. -/
def renameCall (deviceId name token : String) : Code (ApiResult Device) := do
  match ← App.renameDevice D token deviceId name with
  | .ok renamed =>
      if (← get .deviceId) = some deviceId then do
        put .deviceName renamed.name
        return .ok renamed
      else return .ok renamed
  | .failed e => return .failed e

/-- `renameDevice` -/
def renameDevice (deviceId name : String) : Code (ApiResult Device) :=
  authorized D (renameCall D deviceId name)

/-- A text that may replace a working config. -/
@[irreducible] def isConfig (text : String) : Bool :=
  containsText text "[Interface]" && containsText text "PrivateKey"

/-- The call inside `select`; the id is written last. -/
def selectCall (device : Device) (token : String) : Code (ApiResult Unit) := do
  match ← config D token device.id with
  | .ok text =>
      if !isConfig text then return .failed (.malformed "not a WireGuard config")
      else do
        put .conf text
        put .deviceName device.name
        put .deviceId device.id
        return .ok ()
  | .failed e => return .failed e

/-- `select` -/
def select (device : Device) : Code (ApiResult Unit) := authorized D (selectCall D device)

/-- `selected` -/
def selected : Code (Option Selected) := do
  match ← get .deviceId with
  | none => return none
  | some id =>
      match ← get .deviceName with
      | none => return none
      | some name =>
          if (← get .conf) = none then return none
          else return some ⟨id, name⟩

/-- `storedConfig` -/
def storedConfig : Code (Option String) := do
  if (← selected).isSome then get .conf else return none

/-- `signOut` -/
def signOut : Code Unit := do
  match ← get .refresh with
  | some r => do
      let _ ← logout D r
      change Phone.clear
  | none => change Phone.clear

/-- The operations of a session. -/
inductive Op where
  | signIn (username password : String)
  | register (username email password : String)
  | profile
  | devices
  | deleteDevice (deviceId : String)
  | addDevice (name : String)
  | startTrial
  | resendVerification
  | trialOffer
  | latestRelease
  | renameDevice (deviceId name : String)
  | select (device : Device)
  | signOut

/-- An operation, with its error if it has one. -/
def Op.run : Op → Code (Option ApiError)
  | .signIn username password => ApiResult.error? <$> Session.signIn D username password
  | .register username email password =>
      ApiResult.error? <$> Session.register D username email password
  | .profile => ApiResult.error? <$> Session.profile D
  | .devices => ApiResult.error? <$> Session.devices D
  | .deleteDevice deviceId => ApiResult.error? <$> Session.deleteDevice D deviceId
  | .addDevice name => ApiResult.error? <$> Session.addDevice D name
  | .startTrial => ApiResult.error? <$> Session.startTrial D
  | .resendVerification => ApiResult.error? <$> Session.resendVerification D
  | .trialOffer => ApiResult.error? <$> App.trialOffer D
  | .latestRelease => ApiResult.error? <$> App.latestRelease D
  | .renameDevice deviceId name => ApiResult.error? <$> Session.renameDevice D deviceId name
  | .select device => ApiResult.error? <$> Session.select D device
  | .signOut => (fun _ => none) <$> Session.signOut D

end Session

end VpnPortal.App
