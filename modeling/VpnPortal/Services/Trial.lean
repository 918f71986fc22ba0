/-
The free trial (`pwa/services/trial.py`): who may have one, and what it is.
-/
import VpnPortal.Services.Subscriptions

namespace VpnPortal

/-- `_DOTLESS`: providers that ignore dots in the local part. -/
def dotless : List String := ["gmail.com", "googlemail.com"]

/-- `_ALIASES` -/
def domainAliases : List (String × String) :=
  [("googlemail.com", "gmail.com"), ("ya.ru", "yandex.ru")]

/-- `DISPOSABLE_DOMAINS` -/
def disposableDomains : List String :=
  ["10minutemail.com", "10minutemail.net", "20minutemail.com", "byom.de",
    "discard.email", "dispostable.com", "dropmail.me", "emailondeck.com",
    "fakeinbox.com", "getairmail.com", "getnada.com", "guerrillamail.com",
    "guerrillamail.net", "guerrillamail.org", "guerrillamailblock.com",
    "inboxkitten.com", "mail.tm", "mailcatch.com", "maildrop.cc",
    "mailinator.com", "mailnesia.com", "mintemail.com", "mohmal.com",
    "mytemp.email", "nada.email", "sharklasers.com", "spamgourmet.com",
    "temp-mail.io", "temp-mail.org", "tempail.com", "tempmail.com",
    "tempmail.net", "tempmailo.com", "tempr.email", "throwawaymail.com",
    "trashmail.com", "trashmail.de", "yopmail.com", "yopmail.fr",
    "yopmail.net", "crazymailing.com", "emailfake.com", "1secmail.com",
    "1secmail.net", "1secmail.org", "internxt.com", "tmpmail.org"]

/-- `s.rpartition("@")` without the separator: all of a text without one is the
second part. -/
def splitAddress (s : String) : String × String :=
  let domain := (s.toList.reverse.takeWhile (· ≠ '@')).reverse
  (String.ofList (s.toList.take (s.length - domain.length - 1)), String.ofList domain)

/-- `normalise_email`: one text per inbox, as far as the address tells. -/
def normaliseEmail (cfg : Settings) (email : String) : String :=
  let (local_, domain) := splitAddress (cfg.lower (strip email))
  let domain := (domainAliases.lookup domain).getD domain
  let local_ := local_.toList.takeWhile (· ≠ '+')
  let local_ := if domain ∈ dotless then local_.filter (· ≠ '.') else local_
  String.ofList local_ ++ "@" ++ domain

/-- `is_disposable` -/
def isDisposable (cfg : Settings) (email : String) : Bool :=
  let domain := (splitAddress (cfg.lower (strip email))).2
  disposableDomains.any fun d => domain = d ∨ ("." ++ d).toList <:+ domain.toList

/-- `verified`: a confirmed mailbox or a linked Telegram account. -/
def verified (user : User) : Bool := user.emailVerifiedAt.isSome || user.telegramId.isSome

/-- `trial_end` -/
def trialEnd (cfg : Settings) (t : Time) : Time := t + days cfg.trialDays

/-- The mailbox of an account, if there is one and it is confirmed. -/
def User.confirmedEmail (user : User) : Option String :=
  if user.emailVerifiedAt.isSome then user.email.filter (· ≠ "") else none

end VpnPortal
