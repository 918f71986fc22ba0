/-
The account side of the bot (`pwa/api/telegram.py`): a Telegram account is tied
to an account of the portal, moves to another one, and is taken off again.

An account that loses its Telegram to another is written by the same transaction
as the one that gains it, under the unique constraint on `telegram_id`. The
messages to the chat are not kept.
-/
import VpnPortal.Api.Register

namespace VpnPortal

open Sessions Tables

/-- `LINK_TTL`: fifteen minutes. -/
def linkTtl : Time := 15 * 60 * 1000000

/-- The Telegram columns of the account, written where the session changed them. -/
def User.mergeTelegram (old new cur : User) : User :=
  { cur with
    telegramId := column old.telegramId new.telegramId cur.telegramId
    telegramLinkHash := column old.telegramLinkHash new.telegramLinkHash cur.telegramLinkHash
    telegramLinkExpires :=
      column old.telegramLinkExpires new.telegramLinkExpires cur.telegramLinkExpires }

lemma User.num_mergeTelegram (old new cur : User) :
    Row.num (User.mergeTelegram old new cur) = Row.num cur := rfl

/-- The changed Telegram columns of one account, written to its row. -/
def saveTelegram (users : Table User) (old new : User) : Table User :=
  users.update old.id (User.mergeTelegram old new) (User.num_mergeTelegram old new)

/-- `tg_link`: the one-time link of the account. -/
def tgLink (cfg : Settings) (username : String) : Portal String := do
  if !cfg.botEnabled || cfg.botUsername = "" then .raise (.http 503 (.text "bot is off"))
  else do
    let user ← currentUser username
    let token ← Proc.ask Input.token
    let t ← now
    commit fun db => { db with users := saveTelegram db.users user { user with
      telegramLinkHash := some (cfg.sha256 token), telegramLinkExpires := some (t + linkTtl) } }
    pure ("https://t.me/" ++ cfg.botUsername ++ "?start=" ++ token)

/-- `tg_unlink` -/
def tgUnlink (username : String) : Portal Unit := do
  let user ← currentUser username
  commit fun db => { db with users := saveTelegram db.users user { user with
    telegramId := none, telegramLinkHash := none } }

/-- The accounts once the chat is taken from the one that had it. -/
def freeTelegram (users : Table User) (user : User) (other : Option User) : Table User :=
  match other with
  | none => users
  | some other =>
      if other.id = user.id then users else saveTelegram users other { other with telegramId := none }

/-- The flush and the commit that give the Telegram of `other` to `user`. A third
account that holds it by now is an `IntegrityError`. -/
def Db.tieTelegram (user : User) (other : Option User) (new : User) (db : Db) : Bool × Db :=
  let freed := freeTelegram db.users user other
  if new.telegramId ≠ user.telegramId ∧
      freed.rows.any fun u => u.id ≠ user.id ∧ u.telegramId = new.telegramId then (false, db)
  else (true, { db with users := saveTelegram freed user new })

/-- One chat, one account: a chat that was tied to another account moves here. -/
def tieChat (user : User) (chat : ℤ) (new : User) : Portal Unit := do
  let other ← userByChat chat
  match ← commitWith (Db.tieTelegram user other new) with
  | false => .raise .crash
  | true => pure ()

/-- The answer to a link that is too old. -/
def staleLink : String :=
  "Ссылка устарела или уже использована. Получите новую в личном кабинете: "
    ++ "«Настройки» → «Подключить Telegram»."

/-- `_link`: the bot is started through the one-time link. -/
def link (cfg : Settings) (chat : ℤ) (token : String) : Portal String := do
  let rows ← select fun db =>
    db.users.rows.filter fun u => u.telegramLinkHash = some (cfg.sha256 token)
  match ← scalarOneOrNone rows with
  | none => pure staleLink
  | some user =>
      match user.telegramLinkExpires with
      | none => pure staleLink
      | some expires => do
          let t ← now
          if expires < t then pure staleLink
          else do
            tieChat user chat { user with
              telegramId := some chat, telegramLinkHash := none, telegramLinkExpires := none }
            pure ("Готово: бот подключён к аккаунту " ++ user.username
              ++ ". Уведомления о подписке теперь приходят сюда.")

/-- `tg_link_webapp`: after a sign-in by password inside the Mini App. -/
def tgLinkWebapp (username : String) : Portal Unit := do
  match ← Proc.ask Input.initData with
  | none => .raise (.http 401 (.text "bad init data"))
  | some chat => do
      let user ← currentUser username
      tieChat user chat { user with telegramId := some chat, telegramLinkHash := none }

end VpnPortal
