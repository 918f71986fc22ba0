/-
The monitor's report in words (`pwa/services/monitor_view.py`).

`build` turns the report that is stored into the cards of the admin's page: one
for the site, one for the links between the nodes, one for every host. It places
the problems of the report on the cards by the beginnings of their keys. A value
that Python cannot show raises and there is no page: `none`. What a card carries
for the curious (`raw`) is left out, and so is the traffic, which the report does
not have.

* `Moment`, `when`, `ago`, `duration`: times in words;
* `hostLines`: what a host's card says;
* `mine`, `card`, `build`: the problems and the cards.
-/
import VpnPortal.Monitor.Report

namespace VpnPortal.Monitor.View

open Tables Numerals

/-! ### Times -/

/-- A moment in microseconds since 1970, UTC. -/
abbrev Moment := ℤ

def seconds (n : ℤ) : ℤ := n * 1000000

/-- `datetime.min` and `datetime.max` -/
def earliest : Moment := seconds (-62135596800)

def latest : Moment := seconds 253402300800 - 1

/-- A moment that `datetime` can hold. -/
def holdable (t : Moment) : Option Moment := if earliest ≤ t ∧ t ≤ latest then some t else none

/-- The nearest integer, the even one of two. -/
def roundEven (x : ℚ) : ℤ :=
  if x - ⌊x⌋ < 1 / 2 then ⌊x⌋
  else if 1 / 2 < x - ⌊x⌋ then ⌊x⌋ + 1
  else if ⌊x⌋ % 2 = 0 then ⌊x⌋ else ⌊x⌋ + 1

/-- `datetime.fromtimestamp(x, timezone.utc)` -/
def fromTimestamp (x : ℚ) : Option Moment := holdable (roundEven (x * 1000000))

/-- `t.astimezone(MSK)`, three hours ahead. -/
def msk (t : Moment) : Option Moment := holdable (t + seconds 10800)

/-- The day a moment falls on, counted from 1970. -/
def dayOf (t : Moment) : ℤ := t / seconds 86400

/-- Month and day of a day. -/
def dayMonth (day : ℤ) : ℤ × ℤ :=
  let z := day + 719468
  let doe := z % 146097
  let yoe := (doe - doe / 1460 + doe / 36524 - doe / 146096) / 365
  let doy := doe - (365 * yoe + yoe / 4 - yoe / 100)
  let mp := (5 * doy + 2) / 153
  (doy - (153 * mp + 2) / 5 + 1, if mp < 10 then mp + 3 else mp - 9)

/-- `%02d` -/
def twoDigits (n : ℤ) : String := if n < 10 then "0" ++ toString n else toString n

/-- The day of a moment as `when` says it, both in Moscow time. -/
def dayWord (local_ today : Moment) : Option String :=
  if dayOf local_ = dayOf today then some "сегодня"
  -- there is no day before the first
  else if dayOf today = dayOf earliest then none
  else if dayOf local_ = dayOf today - 1 then some "вчера"
  else
    let (d, m) := dayMonth (dayOf local_)
    some (twoDigits d ++ "." ++ twoDigits m)

/-- `when`: the day and the time, Moscow time. -/
def when (at_ now : Moment) : Option String := do
  let local_ ← msk at_
  let today ← msk now
  let day ← dayWord local_ today
  let minutes := local_ % seconds 86400 / seconds 60
  return day ++ " в " ++ twoDigits (minutes / 60) ++ ":" ++ twoDigits (minutes % 60)

/-- `ago` of a number of whole seconds. -/
def ago (n : ℤ) : String :=
  let s := max 0 n
  let m := s / 60
  let h := m / 60
  if s < 60 then toString s ++ " с назад"
  else if m < 60 then toString m ++ " мин назад"
  else if h < 48 then
    if h < 6 ∧ m % 60 ≠ 0 then toString h ++ " ч " ++ toString (m % 60) ++ " мин назад"
    else toString h ++ " ч назад"
  else toString (h / 24) ++ " дн назад"

/-- `duration` -/
def duration (n : ℤ) : String :=
  let m := max 0 (n / 60)
  let h := m / 60
  if m < 1 then "меньше минуты"
  else if m < 60 then toString m ++ " мин"
  else if h < 48 then
    if m % 60 ≠ 0 then toString h ++ " ч " ++ toString (m % 60) ++ " мин" else toString h ++ " ч"
  else toString (h / 24) ++ " дн " ++ toString (h % 24) ++ " ч"

/-! ### The lines of a host -/

/-- The marks `0.7` and `1.5` of `_load_word`. -/
class LoadMarks (F : Type) where
  low : F
  high : F

section Lines

variable {F : Type} [Floats F] [LoadMarks F]

/-- `int(x)` of a number. -/
def whole : Num F → ℤ
  | .int n => n
  | .float x => (Floats.toRat x).num.tdiv (Floats.toRat x).den

/-- `base - timedelta(seconds=age)` -/
def before (base : Moment) (age : Num F) : Option Moment :=
  let micros := match age with
    | .int n => seconds n
    | .float x => roundEven (Floats.toRat x * 1000000)
  if -999999999 ≤ dayOf micros ∧ dayOf micros ≤ 999999999 then holdable (base - micros) else none

/-- `ago(v)` of a value of a probe. -/
def agoOf : Val F → Option String
  | .num x => some (ago (whole x))
  | .text s => (readInt (Words.strip s.toList)).map ago

/-- `ncpu or 1`; a text cannot divide. -/
def orOne : Option (Val F) → Option (Num F)
  | none => some (.int 1)
  | some v => if v.truthy then v.num? else some (.int 1)

/-- `_load_word` -/
def loadWord (load ncpu : Option (Val F)) : Option String :=
  match load.bind Val.num? with
  | none => some "?"
  | some x => do
      let n ← orOne ncpu
      let per ← Floats.div x n
      return if Num.lt (.float per) (.float LoadMarks.low) then "низкая"
        else if Num.lt (.float per) (.float LoadMarks.high) then "средняя" else "высокая"

/-- `p.get(key, '?')`, shown. -/
def shownOr (p : Values F) (key : String) : String := ((p.get? key).map Val.shown).getD "?"

/-- `_resources` -/
def resources (p : Values F) : Option String := do
  let word ← loadWord (p.get? "load1") (p.get? "ncpu")
  return "Диск занят на " ++ shownOr p "disk_root_pct" ++ "% · свободно памяти "
    ++ shownOr p "mem_avail_pct" ++ "% · нагрузка " ++ word

/-- `_stamp` -/
def stamp (base now : Moment) (age : Val F) : Option String :=
  match age.num? with
  | none => some "нет данных"
  | some x => do
      let at_ ← before base x
      let day ← when at_ now
      return day ++ " (" ++ ago (whole x) ++ ")"

/-- `_pool_lines` -/
def poolLines (pools : List PoolUse) : List String :=
  (pools.filter fun pool => pool.size ≠ 0).map fun pool =>
    (if pool.label = "paid" then "Платный пул" else if pool.label = "trial" then "Пробный пул"
      else if pool.label = "" then "Пул" else pool.label)
      ++ ": занято " ++ toString pool.used ++ " из " ++ toString pool.size ++ " ("
      ++ toString pool.pct ++ "%)"

/-- One client interface of a host. -/
def clientLine (p : Values F) (ifname : String) : List String :=
  match p.get? ("awg." ++ ifname ++ ".peers") with
  | none => []
  | some peers =>
      ["Устройств на сервере: " ++ peers.shown
        ++ ((p.get? ("awg." ++ ifname ++ ".active")).map fun active =>
          ", активны сейчас: " ++ active.shown).getD ""]

/-- A line about an age that is there. -/
def ageLine (p : Values F) (key : String) (say : Val F → Option String) : Option (List String) :=
  match p.get? key with
  | none => some []
  | some v => (say v).map fun line => [line]

/-- `_host_lines` -/
def hostLines (p : Values F) (clients : List String) (base now : Moment) (pools : List PoolUse) :
    Option (List String) := do
  let backup ← ageLine p "backup_age" fun v => (stamp base now v).map ("Бэкап базы: " ++ ·)
  let pulled ← ageLine p "pulled_backup_age" fun v =>
    (stamp base now v).map ("Копия бэкапа здесь: " ++ ·)
  let expiry ← ageLine p "expiry_age" fun v => (agoOf v).map fun text =>
    "Подписки проверены " ++ text
      ++ (((p.get? "expiry_failures").filter Val.truthy).map fun n =>
        ", ошибок: " ++ n.shown).getD ""
  let load ← resources p
  return clients.flatMap (clientLine p) ++ poolLines pools ++ backup ++ pulled ++ expiry
    ++ ((p.get? "containers_expected").map fun n =>
      "Контейнеры: работают " ++ shownOr p "containers_up" ++ " из " ++ n.shown).toList
    ++ (if (p.get? "failed_units").any Val.truthy
      then ["Упавшие службы: " ++ shownOr p "failed_unit_names"] else [])
    ++ [load]
    ++ (((p.get? "uptime_s").bind Val.int?).map fun n => "Без перезагрузки " ++ duration n).toList

end Lines

/-! ### The cards -/

/-- The colours of a card. -/
inductive Status where
  | ok
  | unknown
  | warn
  | bad
  deriving DecidableEq, Repr

/-- `RANK` -/
def Status.rank : Status → ℕ
  | ok => 0
  | unknown => 1
  | warn => 2
  | bad => 3

/-- The colour of a problem's level. -/
def Status.ofLevel : Level → Status
  | .bad => bad
  | .warn => warn

/-- `max(…, key=RANK.get, default="ok")`: the first of the highest. -/
def highest (l : List Status) : Status :=
  match l with
  | [] => .ok
  | s :: rest => rest.foldl (fun best s => if best.rank < s.rank then s else best) s

/-- A card of the page. -/
structure Card where
  id : String
  title : String
  status : Status
  lines : List String
  problems : List String

/-- `_card` -/
def card (id title : String) (lines : List String) (problems : List Problem)
    (status : Option Status) : Card :=
  ⟨id, title, status.getD (highest (problems.map fun p => .ofLevel p.level)), lines,
    problems.map Problem.text⟩

/-- `TITLES.get(name, name)` -/
def titleOf (name : String) : String :=
  ([("portal", "Портал"), ("entry", "Вход A (entry)"), ("entry-b", "Вход B (entry-b)"),
    ("exit", "Выход (exit)"), ("am1", "Мониторинг и бэкапы")].lookup name).getD name

/-- `key.startswith(prefix)` -/
def startsWith (key start : String) : Bool := start.toList.isPrefixOf key.toList

/-- `mine(start, only=…, skip=…)` -/
def mine (problems : List Problem) (start : String) (only skip : Option String) : List Problem :=
  problems.filter fun p =>
    startsWith p.key start &&
      (let rest := String.ofList (p.key.toList.drop start.length)
       only.all (startsWith rest ·) && !(skip.any (startsWith rest ·)))

section Cards

variable {F : Type} [Floats F] [LoadMarks F]

/-- The site, from outside. -/
def siteCard (r : Report F) : Card :=
  let lines := (r.urls.map fun x =>
      if x.2 = "" then x.1 ++ " — открывается" else x.1 ++ " — не открывается (" ++ x.2 ++ ")")
    ++ r.certs.map fun x => match x.2 with
      | some days => "Сертификат " ++ x.1 ++ ": ещё " ++ toString (whole (.float days)) ++ " дн"
      | none => "Сертификат " ++ x.1 ++ ": не удалось проверить"
  let problems := r.problems.filter fun p => startsWith p.key "web:" || startsWith p.key "cert:"
  card "site" "Сайт" (if lines = [] then ["нет данных"] else lines) problems
    (if lines = [] ∧ problems = [] then some .unknown else none)

/-- The card of a host. -/
def hostCard (r : Report F) (base now : Moment) (x : String × Option (Values F)) : Option Card :=
  let problems := mine r.problems (x.1 ++ ":") none (some "link:")
  match x.2 with
  | none => some (card x.1 (titleOf x.1)
      ["Не отвечает: " ++ (r.errors.lookup x.1).getD "причина неизвестна"] problems (some .bad))
  | some p => do
      let lines ← hostLines p ((r.clients.lookup x.1).getD []) base now
        ((r.pools.lookup x.1).getD [])
      return card x.1 (titleOf x.1) lines problems none

/-- The line of a link. -/
def linkLine (name : String) (probe : Option (Values F)) (ifname : String) : Option String :=
  let label := titleOf name ++ ", " ++ ifname
  match probe with
  | none => some (label ++ ": сервер не отвечает, не проверить")
  | some p =>
      match p.get? ("awg." ++ ifname ++ ".fresh") with
      | none => some (label ++ ": интерфейса нет")
      | some (.text _) => none
      | some (.num fresh) => some (label ++ (if fresh.lt (.int 0) then ": связи не было ни разу"
          else ": обмен ключами " ++ ago (whole fresh)))

/-- The lines of all links. -/
def linkLines (r : Report F) : Option (List String) := do
  let lines ← r.links.mapM fun x => x.2.mapM (linkLine x.1 ((r.hosts.get? x.1).bind id))
  return lines.flatten

/-- The card of the links, if there are any. -/
def linksCard (r : Report F) : Option (List Card) := do
  let lines ← linkLines r
  let problems := r.links.flatMap fun x => mine r.problems (x.1 ++ ":") (some "link:") none
  return if lines = [] then [] else
    let unknown := r.links.all fun x => ((r.hosts.get? x.1).bind id).isNone
    [card "links" "Связка вход ↔ выход" lines problems
      (if unknown ∧ problems = [] then some .unknown else none)]

/-- `STALE_AFTER_S` -/
def staleAfterS : ℤ := 600

/-- The admin's page. -/
structure Page where
  receivedAt : Option Moment
  ageS : Option ℤ
  stale : Bool
  status : Status
  summary : String
  checked : Option String
  cards : List Card

/-- What is broken and what asks for attention, in words. -/
def summaryOf (cards : List Card) : String :=
  let bad := (cards.filter fun c => c.status = .bad).length
  let warn := (cards.filter fun c => c.status = .warn).length
  if bad = 0 ∧ warn = 0 then "Всё работает"
  else if warn = 0 then "Сломано: " ++ toString bad
  else if bad = 0 then "Требует внимания: " ++ toString warn
  else "Сломано: " ++ toString bad ++ ", требует внимания: " ++ toString warn

/-- The moment the ages of a report were measured at: when it was sent. -/
def baseOf (r : Report F) (receivedAt : Moment) : Option Moment :=
  if r.sentAt = 0 then some receivedAt else fromTimestamp r.sentAt

/-- The cards, in the order of the page. -/
def cardsOf (r : Report F) (receivedAt now : Moment) : Option (List Card) := do
  let base ← baseOf r receivedAt
  let hosts ← r.hosts.entries.mapM (hostCard r base now)
  let links ← linksCard r
  return siteCard r :: (links ++ hosts)

/-- `build` -/
def build (payload : Option (Report F)) (receivedAt : Option Moment) (now : Moment) : Option Page :=
  match payload, receivedAt with
  | some r, some receivedAt => do
      let cards ← cardsOf r receivedAt now
      let age := (now - receivedAt).tdiv (seconds 1)
      if seconds staleAfterS < now - receivedAt then
        let since ← when receivedAt now
        return ⟨some receivedAt, some age, true, .unknown,
          "Мониторинг молчит с " ++ since ++ " — проверь сервер мониторинга. "
            ++ "Ниже последнее, что он видел", some (ago age), cards⟩
      else
        return ⟨some receivedAt, some age, false, highest (cards.map Card.status), summaryOf cards,
          some (ago age), cards⟩
  | _, _ => some ⟨none, none, true, .unknown, "Мониторинг ещё не присылал отчётов", none, []⟩

end Cards

end VpnPortal.Monitor.View
