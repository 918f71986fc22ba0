/-
The monitor's checks (`infrastructure/monitoring/sov_monitor.py`): what a probe
says, and which problems it and the site have.

A probe is read line by line into numbers and texts, and every check reads the
values it needs. A check that compares a text with a number raises, and so does
an arithmetic that has no result; a run that raises does nothing, so a check
gives `none` there. Python's `float` is a type with the operations the checks
use, so that nothing here depends on its arithmetic.

* `Floats`, `Num`, `Val`: the numbers and the values;
* `runProbe`, `applyClockSkew`: what is known of a host;
* `hostProblems`, `webChecks`: the problems, with their texts.
-/
import VpnPortal.Tables.Dict
import VpnPortal.Text.Digits
import VpnPortal.Text.Words
import Mathlib.Data.Rat.Defs

namespace VpnPortal.Monitor

open Tables Numerals

/-! ### Numbers -/

/-- A Python number: `int` or `float`. -/
inductive Num (F : Type) where
  | int (n : ℤ)
  | float (x : F)

/-- What the checks use of `float`; `none` is an `OverflowError` or a
`ZeroDivisionError`. -/
class Floats (F : Type) where
  read : String → Option F
  zero : F
  repr : F → String
  fixed : Num F → Option String
  isZero : F → Bool
  lt : Num F → Num F → Bool
  le : Num F → Num F → Bool
  abs : F → F
  sub : Num F → F → Option F
  div : Num F → Num F → Option F
  floorDiv : F → ℤ → F
  hours : F → F
  round1 : F → F
  toRat : F → ℚ

section Numbers

variable {F : Type} [Floats F]

/-- `a < b` -/
def Num.lt : Num F → Num F → Bool
  | int a, int b => a < b
  | a, b => Floats.lt a b

/-- `a <= b` -/
def Num.le : Num F → Num F → Bool
  | int a, int b => a ≤ b
  | a, b => Floats.le a b

/-- `a == 0` -/
def Num.isZero : Num F → Bool
  | int n => n = 0
  | float x => Floats.isZero x

/-- `f"{a}"` -/
def Num.shown : Num F → String
  | int n => toString n
  | float x => Floats.repr x

/-- `abs(a)` -/
def Num.abs : Num F → Num F
  | int n => int |n|
  | float x => float (Floats.abs x)

/-- `a // 60` -/
def Num.minutes : Num F → Num F
  | int n => int (n / 60)
  | float x => float (Floats.floorDiv x 60)

end Numbers

/-- A value of a probe. -/
inductive Val (F : Type) where
  | num (x : Num F)
  | text (s : String)

section Values

variable {F : Type} [Floats F]

/-- `f"{v}"` -/
def Val.shown : Val F → String
  | num x => x.shown
  | text s => s

/-- `bool(v)` -/
def Val.truthy : Val F → Bool
  | num x => !x.isZero
  | text s => s ≠ ""

/-- `v == 0` -/
def Val.isZero : Val F → Bool
  | num x => x.isZero
  | text _ => false

/-- `isinstance(v, int)` -/
def Val.int? : Val F → Option ℤ
  | num (.int n) => some n
  | _ => none

/-- `isinstance(v, (int, float))` -/
def Val.num? : Val F → Option (Num F)
  | num x => some x
  | text _ => none

end Values

/-- The values of one host. -/
abbrev Values (F : Type) := Dict String (Val F)

/-! ### Reading a probe -/

/-- The characters that end a line for `str.splitlines`. -/
def isBreak (c : Char) : Bool :=
  c.toNat ∈ [0x85, 0x2028, 0x2029] ∨ (0x0a ≤ c.toNat ∧ c.toNat ≤ 0x0d)
    ∨ (0x1c ≤ c.toNat ∧ c.toNat ≤ 0x1e)

/-- `s.splitlines()`; the second argument is the line so far. -/
def splitlines : List Char → List Char → List (List Char)
  | [], [] => []
  | [], line => [line]
  | '\r' :: '\n' :: rest, line => line :: splitlines rest []
  | c :: rest, line =>
      if isBreak c then line :: splitlines rest [] else splitlines rest (line ++ [c])

section Reading

variable {F : Type} [Floats F]

/-- A value that is not a name: a number if it reads as one. -/
def readVal (value : List Char) : Val F :=
  match readInt value with
  | some n => .num (.int n)
  | none =>
      match Floats.read (F := F) (String.ofList value) with
      | some x => .num (.float x)
      | none => .text (String.ofList value)

/-- One line of `parse_probe`: the key and its value. -/
def parseLine (line : List Char) : Option (String × Val F) :=
  let key := String.ofList (Words.strip (line.takeWhile (· ≠ '=')))
  if '=' ∉ line ∨ key = "" then none
  else
    let value := Words.strip ((line.dropWhile (· ≠ '=')).drop 1)
    if key ∈ ["host", "failed_unit_names"] then some (key, .text (String.ofList value))
    else some (key, readVal value)

/-- `parse_probe` -/
def parseProbe (text : String) : Values F :=
  Dict.empty.update ((splitlines text.toList []).filterMap parseLine)

/-- How the call of `sov-probe` on a host ended. -/
inductive Call where
  | timeout
  | failed (code : ℤ) (stderr : String)
  | done (stdout : String)

/-- `run_probe`: the values, or why there are none. -/
def runProbe : Call → Option (Values F) × String
  | .timeout => (none, "нет ответа за 40 с")
  | .failed code stderr =>
      let err := ((splitlines (Words.strip stderr.toList) []).getLast?).getD ("код " ++ toString code).toList
      (none, String.ofList (err.take 200))
  | .done stdout =>
      let values := parseProbe stdout
      if values.get? "host" = none then (none, "пустой ответ") else (some values, "")

end Reading

/-! ### The clocks -/

section Clocks

variable {F : Type} [Floats F]

/-- `clock_skew`: `none` if it raises, `some none` if the probe has no time. -/
def clockSkew (clockNow : Option (Val F)) (before after : F) : Option (Option F) :=
  match clockNow.bind Val.num? with
  | none => some none
  | some t =>
      if t.lt (.float before) then (Floats.sub t before).map some
      else if Num.lt (.float after) t then (Floats.sub t after).map some
      else some (some Floats.zero)

/-- `apply_clock_skews` for one host. -/
def applyClockSkew (window : F × F) (here : Bool) : Option (Values F) → Option (Option (Values F))
  | none => some none
  | some probe =>
      if here then some (some probe)
      else
        (clockSkew (probe.get? "clock_now") window.1 window.2).map fun skew =>
          match skew with
          | none => some probe
          | some x => some (probe.insert "clock_skew_s" (.num (.float (Floats.round1 x))))

end Clocks

/-! ### The checks of a host -/

/-- An address pool of the configuration. -/
structure Pool where
  label : String
  addr : String
  lo : ℤ
  hi : ℤ

/-- A host's section, as `_list` and `parse_pools` read it. -/
structure Section (F : Type) where
  here : Bool := false
  links : List String := []
  clients : List String := []
  pools : List Pool := []
  backupMaxH : Option F := none
  pulledBackupMaxH : Option F := none
  expiryMaxH : Option F := none

/-- The limits the checks compare with. -/
structure Limits (F : Type) where
  diskPct : ℤ
  memAvailPct : ℤ
  loadPerCpu : F
  linkStaleS : ℤ
  certMinDays : F
  backupMaxH : F
  pulledBackupMaxH : F
  expiryMaxH : F
  poolWarnPct : ℤ
  poolBadPct : ℤ
  clockSkewS : F

/-- How full a pool is. -/
structure PoolUse where
  label : String
  range : String
  used : ℤ
  size : ℤ
  pct : ℤ

/-- `ip.rpartition(".")` without the dot; all of a text without one is the second
part. -/
def rpartition (ip : List Char) : List Char × List Char :=
  let last := (ip.reverse.takeWhile (· ≠ '.')).reverse
  (ip.take (ip.length - last.length - 1), last)

/-- The last part of an address is digits behind the pool's own part. -/
def numbered (addr : String) (ip : List Char) : Bool :=
  let (head, last) := rpartition ip
  head = addr.toList ∧ last ≠ [] ∧ last.all isDigit

/-- The number of an address in the pool's net, if it has one; digits that `int`
refuses raise. -/
def lastOf (addr : String) (ip : List Char) : Option (Option ℤ) :=
  if numbered addr ip then (readInt (rpartition ip).2).map some else some none

section Host

variable {F : Type} [Floats F] (limits : Limits F) (name : String) (sec : Section F) (probe : Values F)

/-- The distinct client addresses of a probe. -/
def clientIps : List (List Char) :=
  (sec.clients.flatMap fun ifname =>
    (((probe.get? ("awg." ++ ifname ++ ".ips")).map Val.shown).getD "").toList.splitOn ',').filter
      (· ≠ []) |>.dedup

/-- One pool of `pool_usage`; a pool of size nought has no percentage. -/
def usageOf (pool : Pool) : Option PoolUse := do
  let ends ← (clientIps sec probe).mapM (lastOf pool.addr)
  let used : ℤ := (ends.filter fun n => n.any fun n => pool.lo ≤ n ∧ n ≤ pool.hi).length
  let size := pool.hi - pool.lo + 1
  if size = 0 then none
  else some ⟨pool.label, pool.addr ++ "." ++ toString pool.lo ++ "-" ++ toString pool.hi, used, size,
    Int.fdiv (used * 100) size⟩

/-- `pool_usage` -/
def poolUsage : Option (List PoolUse) := sec.pools.mapM (usageOf sec probe)

/-- `POOL_LABELS.get(label, label)` -/
def poolLabel (label : String) : String :=
  if label = "paid" then "платный пул" else if label = "trial" then "пробный пул" else label

/-- What a check adds to the problems, or that it raises. -/
abbrev Found := Option (List (String × String))

def checkDisk : Found :=
  match (probe.get? "disk_root_pct").bind Val.int? with
  | some disk => some (if limits.diskPct ≤ disk then
      [(name ++ ":disk", name ++ ": диск занят на " ++ toString disk ++ "%")] else [])
  | none => some []

def checkMem : Found :=
  match (probe.get? "mem_avail_pct").bind Val.int? with
  | some mem => some (if mem < limits.memAvailPct then
      [(name ++ ":mem", name ++ ": свободной памяти " ++ toString mem ++ "%")] else [])
  | none => some []

/-- `probe.get("ncpu") or 1` -/
def ncpu : Val F :=
  match probe.get? "ncpu" with
  | some v => if v.truthy then v else .num (.int 1)
  | none => .num (.int 1)

def checkLoad : Found :=
  match (probe.get? "load1").bind Val.num? with
  | some load => do
      let n ← (ncpu probe).num?
      let x ← Floats.div load n
      return if Num.le (.float limits.loadPerCpu) (.float x) then
        [(name ++ ":load", name ++ ": нагрузка " ++ load.shown ++ " на " ++ n.shown ++ " CPU")] else []
  | none => some []

/-- `probe.get("failed_unit_names", "?")` -/
def unitNames : String := ((probe.get? "failed_unit_names").map Val.shown).getD "?"

def checkUnits : Found :=
  some (if (probe.get? "failed_units").any Val.truthy then
    [(name ++ ":units", name ++ ": упали сервисы: " ++ unitNames probe)] else [])

def checkClock : Found :=
  if (probe.get? "clock_synced").any Val.isZero then
    some [(name ++ ":clock", name ++ ": часы не синхронизированы (NTP)")]
  else
    match (probe.get? "clock_skew_s").bind Val.num? with
    | some skew =>
        if Num.le (.float limits.clockSkewS) skew.abs then do
          let far ← Floats.fixed skew.abs
          return [(name ++ ":clock", name ++ ": часы "
            ++ (if Num.lt (.int 0) skew then "спешат" else "отстают") ++ " на " ++ far
            ++ " с относительно am1")]
        else some []
    | none => some []

/-- When the last handshake was. -/
def ago (fresh : Num F) : String :=
  if fresh.lt (.int 0) then "ни разу" else fresh.minutes.shown ++ " мин назад"

def checkLink (ifname : String) : Found :=
  match probe.get? ("awg." ++ ifname ++ ".fresh") with
  | none => some [(name ++ ":link:" ++ ifname, name ++ ": интерфейса " ++ ifname ++ " нет")]
  | some (.text _) => none
  | some (.num fresh) =>
      some (if fresh.lt (.int 0) ∨ Num.lt (.int limits.linkStaleS) fresh then
        [(name ++ ":link:" ++ ifname, name ++ ": связка " ++ ifname
          ++ " молчит, последний handshake " ++ ago fresh)] else [])

def checkClient (ifname : String) : Found :=
  some (if (probe.get? ("awg." ++ ifname ++ ".peers")).isNone then
    [(name ++ ":iface:" ++ ifname, name ++ ": клиентского интерфейса " ++ ifname ++ " нет")] else [])

/-- How full a pool is, in words. -/
def poolText (pool : PoolUse) : String :=
  name ++ ": " ++ poolLabel pool.label ++ " занят на " ++ toString pool.pct ++ "% ("
    ++ toString pool.used ++ " из " ++ toString pool.size ++ ")"

/-- The numbers that `str` writes have at most 4300 digits. -/
def writable (n : ℤ) : Bool := n.natAbs < 10 ^ 4300

/-- The text is made whether or not it is needed. -/
def checkPool (pool : PoolUse) : Found :=
  if !writable pool.size then none
  else some (if limits.poolBadPct ≤ pool.pct then
      [(name ++ ":poolfull:" ++ pool.label,
        poolText name pool ++ " — новые устройства скоро не выдать")]
    else if limits.poolWarnPct ≤ pool.pct then [(name ++ ":pool:" ++ pool.label, poolText name pool)]
    else [])

/-- The age of a job's last success against its limit: `none` if the comparison
raises, else whether it is too old. -/
def tooOld (maxH : F) : Option (Val F) → Option Bool
  | none => some true
  | some (.text _) => none
  | some (.num age) => some (Num.lt (.float (Floats.hours maxH)) age)

/-- `f" ({age / 3600:.0f} ч)"` -/
def hoursAgo : Option (Val F) → Option String
  | some (.num age) => do
      let h ← Floats.div age (.int 3600)
      let shown ← Floats.fixed (.float h)
      return " (" ++ shown ++ " ч)"
  | _ => some ""

/-- A backup that is too old. -/
def checkAge (own : Option F) (maxH : F) (age : Option (Val F)) (kind what : String) : Found :=
  if own.isSome ∨ age.isSome then do
    let old ← tooOld (own.getD maxH) age
    if old then
      let tail ← hoursAgo age
      return [(name ++ ":" ++ kind, name ++ ": " ++ what ++ tail)]
    else some []
  else some []

def checkBackup : Found :=
  checkAge name sec.backupMaxH limits.backupMaxH (probe.get? "backup_age") "backup"
    "свежего дампа базы нет"

def checkPulled : Found :=
  checkAge name sec.pulledBackupMaxH limits.pulledBackupMaxH (probe.get? "pulled_backup_age") "pulled"
    "копия бэкапа не обновлялась"

def checkExpiry : Found :=
  let age := probe.get? "expiry_age"
  if sec.expiryMaxH.isSome ∨ age.isSome then do
    let old ← tooOld (sec.expiryMaxH.getD limits.expiryMaxH) age
    return if old then
      [(name ++ ":expiry", name ++ ": почасовая проверка подписок не запускалась")]
    else
      match probe.get? "expiry_failures" with
      | some v => if v.truthy then
          [(name ++ ":expiry_fail", name ++ ": проверка подписок — " ++ v.shown
            ++ " ошибок (смотри /var/log/pwa/expiry.log)")] else []
      | none => []
  else some []

def checkContainers : Found :=
  match (probe.get? "containers_expected").bind Val.int?, (probe.get? "containers_up").bind Val.int? with
  | some want, some up => some (if up < want then
      [(name ++ ":containers", name ++ ": контейнеров запущено " ++ toString up ++ " из "
        ++ toString want)] else [])
  | _, _ => some []

/-- The checks of a host that answered, in their order. -/
def checks : List (Found) :=
  [checkDisk limits name probe, checkMem limits name probe, checkLoad limits name probe,
    checkUnits name probe, checkClock limits name probe]
    ++ sec.links.map (checkLink limits name probe) ++ sec.clients.map (checkClient name probe)
    ++ [(poolUsage sec probe).bind fun pools => (pools.mapM (checkPool limits name)).map List.flatten,
      checkBackup limits name sec probe, checkPulled limits name sec probe,
      checkExpiry limits name sec probe, checkContainers name probe]

/-- `host_problems`: the assignments it makes, in their order. -/
def hostProblems : Option (Values F) → String → Found
  | none, why => some [(name ++ ":down", name ++ ": не отвечает (" ++ why ++ ")")]
  | some probe, _ => ((checks limits name sec probe).mapM id).map List.flatten

end Host

/-! ### The site -/

/-- How the look at a certificate ended: the days it has left, or the exception. -/
abbrev Cert (F : Type) := Except String F

section Web

variable {F : Type} [Floats F]

/-- One page of `web_checks`. -/
def checkPage (url why : String) : List (String × String) :=
  if why ≠ "" then [("web:" ++ url, "сайт " ++ url ++ " не открывается: " ++ why)] else []

/-- One certificate of `web_checks`. -/
def checkCert (limits : Limits F) (host : String) : Cert F → Found
  | .error exc => some [("cert:" ++ host, "сертификат " ++ host ++ " не проверить: " ++ exc)]
  | .ok days =>
      if Num.lt (.float days) (.float limits.certMinDays) then do
        let shown ← Floats.fixed (.float days)
        return [("cert:" ++ host, "сертификат " ++ host ++ " истекает через " ++ shown ++ " дн")]
      else some []

/-- `web_checks`: the assignments it makes, in their order. -/
def webChecks (limits : Limits F) (urls : List (String × String)) (certs : List (String × Cert F)) :
    Found := do
  let found ← certs.mapM fun x => checkCert limits x.1 x.2
  return urls.flatMap (fun x => checkPage x.1 x.2) ++ found.flatten

end Web

end VpnPortal.Monitor
