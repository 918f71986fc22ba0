/-
What the phone app and the portal say to each other (`api/Models.kt`, the top of
`api/ApiClient.kt`), and what the screens say about it (`ui/Messages.kt`).

A reply is a status and a text. Turning the text into a value is the work of the
serialization library and is a parameter here (`Decoders`); what the client does
with the value, or with a text that has none, is written out.

* `ApiError`, `ApiResult`, `HttpReply`, `Decoders.read`: one call;
* `Profile.hasAccessAt`, `Device`, `DeviceList`: the answers;
* `validateDeviceName`, `describe`: the texts shown.
-/
import VpnPortal.Text.Words
import Mathlib.Data.List.Infix

namespace VpnPortal.App

/-! ### Kotlin's strings -/

/-- `Char.isWhitespace` on the JVM: Java's white space or a Unicode separator. -/
def isWhitespace (c : Char) : Bool :=
  let n := c.toNat
  (9 ≤ n && n ≤ 13) || (28 ≤ n && n ≤ 32) || n == 0xA0 || n == 0x1680
    || (0x2000 ≤ n && n ≤ 0x200A) || n == 0x2028 || n == 0x2029 || n == 0x202F || n == 0x205F
    || n == 0x3000

/-- `String.trim` -/
def trim (s : String) : String :=
  String.ofList (Words.trim isWhitespace s.toList)

/-- `String.isBlank` -/
def isBlank (s : String) : Bool := s.toList.all isWhitespace

/-- `String.length`, in UTF-16 units. -/
def lengthOf (s : String) : ℕ := (s.toList.map fun c => if 0xFFFF < c.toNat then 2 else 1).sum

/-- `String.contains` -/
def containsText (s part : String) : Bool := decide (part.toList <:+: s.toList)

/-- A character that Kotlin takes for the lower-case Latin letter `b` when the
case is ignored: the dotless and the dotted I and the long s are among them. -/
def sameLetter (b a : Char) : Bool :=
  a == b || a == b.toUpper || (b == 'i' && (a == 'ı' || a == 'İ')) || (b == 's' && a == 'ſ')
    || (b == 'k' && a == 'K')

/-- `String.contains(part, ignoreCase = true)` for a `part` in lower-case Latin
letters. -/
def containsIgnoringCase (s part : String) : Bool :=
  s.toList.tails.any fun rest =>
    part.toList.length ≤ rest.length && (part.toList.zip rest).all fun x => sameLetter x.1 x.2

/-! ### One call -/

/-- The kinds of `IOException` the messages tell apart. -/
inductive NoAnswer where
  | unknownHost
  | socketTimeout
  | ssl
  | other
deriving DecidableEq, Repr

/-- `ApiError` -/
inductive ApiError where
  | unauthorized
  | subscriptionLapsed
  | notFound
  | forbidden (message : String)
  | tooMany
  | conflict (message : String)
  | rejected (message : String)
  | malformed (message : String)
  | server (code : ℤ)
  | network (cause : NoAnswer)
deriving DecidableEq, Repr

/-- `ApiResult` -/
inductive ApiResult (T : Type) where
  | ok (value : T)
  | failed (error : ApiError)
deriving DecidableEq

namespace ApiResult

variable {T : Type}

/-- The error, if there is one. -/
def error? : ApiResult T → Option ApiError
  | ok _ => none
  | failed e => some e

/-- `result is Failed && result.error == Unauthorized` -/
def isUnauthorized (r : ApiResult T) : Bool := r.error? == some .unauthorized

@[simp] lemma isUnauthorized_ok (v : T) : (ok v).isUnauthorized = false := rfl

@[simp] lemma isUnauthorized_failed (e : ApiError) :
    (failed e : ApiResult T).isUnauthorized = true ↔ e = .unauthorized := by
  simp [isUnauthorized, error?]

lemma isUnauthorized_iff {r : ApiResult T} : r.isUnauthorized = true ↔ r = .failed .unauthorized := by
  cases r with
  | ok v => simp
  | failed e => simp

end ApiResult

/-- `HttpReply` -/
structure HttpReply where
  code : ℤ
  body : String
deriving DecidableEq, Repr

/-- What `transport.send` does: a reply, or an `IOException`. -/
abbrev Answer := Except NoAnswer HttpReply

/-! ### The answers -/

/-- `TokenResponse` -/
structure TokenResponse where
  accessToken : String
  role : String
  refreshToken : Option String

/-- `TrialInfo` -/
structure TrialInfo where
  state : Option String
  untilRaw : Option String

/-- `Profile` -/
structure Profile where
  username : String
  email : Option String
  isSubscribed : Bool
  subscribedUntilRaw : Option String
  plan : Option String
  active : Option Bool
  emailVerified : Option Bool
  trial : Option TrialInfo

/-- `Device` -/
structure Device where
  id : String
  name : String
  peerIp : Option String
  createdAt : Option String
  kind : Option String

/-- `DeviceList` -/
structure DeviceList where
  plan : Option String
  limit : ℤ
  used : ℤ
  configs : List Device

/-- `TrialOffer` -/
structure TrialOffer where
  enabled : Bool
  days : ℤ

/-- `AppRelease` -/
structure AppRelease where
  available : Bool
  versionCode : ℤ
  versionName : String
  size : ℤ
  sha256 : String
  url : String

/-- What the library parses a text to. -/
inductive JsonElement where
  | primitive (content : String)
  | array (items : List JsonElement)
  | object (fields : List (String × JsonElement))

/-- The serialization library and the reading of a timestamp: the value a text
decodes to, or the message of the exception (which may have none). -/
structure Decoders where
  tokenResponse : String → Except (Option String) TokenResponse
  profile : String → Except (Option String) Profile
  deviceList : String → Except (Option String) DeviceList
  /-- `AddedDevice(…).config` -/
  addedDevice : String → Except (Option String) Device
  /-- `RenamedDevice(…).config` -/
  renamedDevice : String → Except (Option String) Device
  removedDevice : String → Except (Option String) String
  /-- `TrialStarted(…).config` -/
  trialStarted : String → Except (Option String) Device
  /-- `ResendResult(…).alreadyVerified` -/
  resendResult : String → Except (Option String) Bool
  trialOffer : String → Except (Option String) TrialOffer
  appRelease : String → Except (Option String) AppRelease
  /-- `json.parseToJsonElement`, `none` where it throws. -/
  parseToJsonElement : String → Option JsonElement
  /-- `parseServerTime`, in seconds. -/
  parseServerTime : String → Option ℤ

namespace Decoders

/-- Nothing can be read. -/
def unreadable : Decoders where
  tokenResponse _ := .error none
  profile _ := .error none
  deviceList _ := .error none
  addedDevice _ := .error none
  renamedDevice _ := .error none
  removedDevice _ := .error none
  trialStarted _ := .error none
  resendResult _ := .error none
  trialOffer _ := .error none
  appRelease _ := .error none
  parseToJsonElement _ := none
  parseServerTime _ := none

variable (D : Decoders)

/-- `detail`: the reason FastAPI gives, a text or the first of a list of
objects; the whole body where there is none. -/
def detail (body : String) : String :=
  match D.parseToJsonElement body with
  | some (.object fields) =>
      match fields.lookup "detail" with
      | some (.primitive content) => content
      | some (.array (.object first :: _)) =>
          match first.lookup "msg" with
          | some (.primitive content) => content
          | _ => body
      | _ => body
  | _ => body

/-- `call`: what an answer means, given how a good body is parsed. -/
def read {T : Type} (parse : String → Except (Option String) T) : Answer → ApiResult T
  | .error cause => .failed (.network cause)
  | .ok reply =>
      if 200 ≤ reply.code ∧ reply.code ≤ 299 then
        match parse reply.body with
        | .ok value => .ok value
        | .error message => .failed (.malformed (message.getD "unreadable response"))
      else if reply.code = 401 then .failed .unauthorized
      else if reply.code = 402 then .failed .subscriptionLapsed
      else if reply.code = 403 then .failed (.forbidden (D.detail reply.body))
      else if reply.code = 404 then .failed .notFound
      else if reply.code = 429 then .failed .tooMany
      else if reply.code = 409 then .failed (.conflict (D.detail reply.body))
      else if reply.code = 400 ∨ reply.code = 422 then .failed (.rejected (D.detail reply.body))
      else .failed (.server reply.code)

end Decoders

/-- The answer is a reply with the status 401. -/
def Is401 : Answer → Prop
  | .ok reply => reply.code = 401
  | .error _ => False

instance : DecidablePred Is401
  | .ok reply => inferInstanceAs (Decidable (reply.code = 401))
  | .error _ => inferInstanceAs (Decidable False)

/-- A call reads as unauthorized exactly when the status is 401. -/
lemma Decoders.read_unauthorized_iff (D : Decoders) {T : Type}
    {parse : String → Except (Option String) T} {a : Answer} :
    D.read parse a = .failed .unauthorized ↔ Is401 a := by
  cases a with
  | error cause => simp [Decoders.read, Is401]
  | ok reply =>
      simp only [Decoders.read, Is401]
      by_cases h : 200 ≤ reply.code ∧ reply.code ≤ 299
      · have hcode : reply.code ≠ 401 := by omega
        rw [if_pos h]
        cases parse reply.body with
        | ok value => simp [hcode]
        | error message => simp [hcode]
      · rw [if_neg h]
        split_ifs with h401 <;> simp [h401]

namespace Profile

variable (D : Decoders)

/-- `activeAt`: the server's word when it is sent, else the flag and an end date
still ahead; `none` when the date cannot be read. -/
def activeAt (p : Profile) (now : ℤ) : Option Bool :=
  match p.active with
  | some b => some b
  | none =>
      match p.subscribedUntilRaw with
      | none => some false
      | some raw =>
          if !p.isSubscribed then some false
          else (D.parseServerTime raw).map fun until_ => decide (now < until_)

/-- `trialActiveAt` -/
def trialActiveAt (p : Profile) (_now : ℤ) : Bool :=
  (p.trial.bind TrialInfo.state) == some "active"

/-- `hasAccessAt` -/
def hasAccessAt (p : Profile) (now : ℤ) : Bool :=
  p.activeAt D now == some true || p.trialActiveAt now

end Profile

/-! ### What the screens say -/

/-- `MAX_DEVICE_NAME` -/
def maxDeviceName : ℕ := 6

def isNameChar (c : Char) : Bool := c.isAlphanum || c == '_' || c == '-'

/-- `DEVICE_NAME` of `Models.kt` matches the whole of the text. -/
@[irreducible] def deviceNameMatches (s : String) : Bool :=
  1 ≤ s.toList.length && s.toList.length ≤ maxDeviceName && s.toList.all isNameChar

/-- `DEVICE_ID` of `ApiClient.kt` matches the whole of the text. -/
@[irreducible] def deviceIdMatches (s : String) : Bool :=
  1 ≤ s.toList.length && s.toList.length ≤ 64 && s.toList.all fun c => c.isAlphanum || c == '-'

/-- `validateDeviceName` -/
@[irreducible] def validateDeviceName (name : String) : Option String :=
  if isBlank name then some "Введите название профиля"
  else if maxDeviceName < lengthOf (trim name) then some "Название — не длиннее 6 символов"
  else if !deviceNameMatches (trim name) then some "Только латинские буквы, цифры, - и _"
  else none

/-- `Action` -/
inductive Action where
  | signIn
  | register
  | load
  | trial
  | resend
  | delete
deriving DecidableEq, Repr

/-- `networkLine` -/
def networkLine : NoAnswer → String
  | .unknownHost => "Не удаётся найти сайт. Проверьте, что интернет работает."
  | .socketTimeout => "Сайт не ответил вовремя. Проверьте интернет или повторите позже."
  | .ssl => "Не удалось установить защищённое соединение с сайтом. "
      ++ "Если это Wi-Fi в кафе, гостинице или транспорте, сначала откройте браузер и войдите в сеть."
  | .other => "Нет связи с сайтом. Проверьте интернет."

/-- `describe` -/
def describe (error : ApiError) (action : Action) (tunnelUp : Bool) : String :=
  match error with
  | .unauthorized =>
      if action = .signIn then "Неверное имя пользователя или пароль"
      else "Сессия истекла — войдите снова"
  | .subscriptionLapsed => "Подписка закончилась. Продлить её можно на сайте."
  | .notFound => "Профиль не найден — возможно, его удалили на сайте. Список обновлён."
  | .tooMany =>
      match action with
      | .signIn => "Слишком много попыток. Подождите 15 минут и попробуйте снова."
      | .register => "Слишком много регистраций с этого адреса. Попробуйте через час."
      | .resend => "Письмо уже отправляли несколько раз. Попробуйте через час."
      | .trial => "Слишком много попыток. Попробуйте завтра."
      | _ => "Слишком много запросов. Попробуйте позже."
  | .forbidden message =>
      if message = "email_not_verified" then
        "Сначала подтвердите почту — ссылка в письме, которое пришло после регистрации."
      else if message = "trial_off" then
        "Пробный период сейчас недоступен. Оформить подписку можно на сайте."
      else if message = "trial_unavailable" then
        "Для этой почты пробный период недоступен. Оформить подписку можно на сайте."
      else if containsIgnoringCase message "disabled" then
        "Аккаунт отключён. Напишите в поддержку на сайте."
      else "Сервер отказал в доступе. Попробуйте позже."
  | .conflict message =>
      if message = "trial_device" then
        "Пробный профиль нельзя удалить — он закончится вместе с пробным периодом."
      else if message = "trial_used" then "Пробный период уже был на этом аккаунте или этой почте."
      else if message = "trial_active" then "Пробный период уже идёт."
      else if action ≠ .register then "В тарифе больше нет мест."
      else if containsIgnoringCase message "email" then "Этот email уже зарегистрирован"
      else "Такое имя пользователя уже занято"
  | .rejected message =>
      match action with
      | .signIn => "Этот аккаунт нельзя использовать в приложении"
      | .register =>
          if containsIgnoringCase message "reserved" then
            "Это имя пользователя занято — выберите другое"
          else "Проверьте имя пользователя, email и пароль"
      | _ => "Сервер отклонил запрос"
  | .network cause =>
      networkLine cause ++ if tunnelUp then
        " Запрос шёл через VPN: если выше написано, что сервер не отвечает, отключите VPN и повторите."
      else ""
  | .server code =>
      if action = .trial ∧ code = 503 then
        "Сейчас нет свободных мест для пробного периода. Попробуйте позже."
      else "Сервер временно недоступен (" ++ toString code ++ "). Попробуйте позже."
  | .malformed _ => "Сервер ответил неожиданно — возможно, пора обновить приложение."

/-- `DEVICE_GONE` -/
def deviceGone : String :=
  "Профиль этого телефона удалён с аккаунта, подключение разорвано. "
    ++ "Выберите другой профиль или добавьте новый."

/-- `LETTER_SENT` -/
def letterSent : String :=
  "Письмо отправлено ещё раз. Откройте ссылку из него, затем нажмите «Я подтвердил почту»."

end VpnPortal.App
