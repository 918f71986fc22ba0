/-
One run of the monitor from the probes to the report
(`infrastructure/monitoring/sov_monitor.py`), on whatever the hosts print.

An exception anywhere ends the run for every host, so what one host prints
decides whether the others are heard. The sections of the configuration are read
here as they are written, the reboots are computed with the numbers a probe can
hold, and the run has a value only if nothing on the way raises.

* `HostText`, `listOf`, `parsePools`: the section of a host;
* `Uptimes`, `Rebooted.rebootOf`, `Rebooted.reboots`: the boots a state remembers;
* `Probing`, `Probing.chain`: the run, `none` where something on the way raises.
-/
import VpnPortal.Monitor.Report

namespace VpnPortal.Monitor

open Tables Numerals

/-! ### The section of a host -/

/-- `_list` -/
def listOf (value : String) : List String :=
  (Words.split Words.isSpace (value.toList.map fun c => if c = ',' then ' ' else c)).map
    String.ofList

/-- `(\d+\.\d+\.\d+)\.(\d+)-(\d+)`: the net, the first and the last number. -/
def matchRange (rng : List Char) : Option (List Char × List Char × List Char) :=
  match rng.splitOn '-' with
  | [addr, hi] =>
      match addr.splitOn '.' with
      | [a, b, c, lo] =>
          if [a, b, c, lo, hi].all fun part => part ≠ [] ∧ part.all fun c => (decimal? c).isSome
          then some (a ++ '.' :: b ++ '.' :: c, lo, hi) else none
      | _ => none
  | _ => none

/-- The label and the range of one item of `pools`, if it is one. -/
def poolParts (item : List Char) : Option (List Char × List Char × List Char × List Char) :=
  let label := (Words.strip item).takeWhile (· ≠ ':')
  if label = [] then none
  else (matchRange (Words.strip (((Words.strip item).dropWhile (· ≠ ':')).drop 1))).map fun m => (label, m)

/-- One item of `parse_pools`; a number that is too long raises. -/
def parsePool (item : List Char) : Option (Option Pool) :=
  match poolParts item with
  | none => some none
  | some (label, addr, lo, hi) => do
      let lo ← readInt lo
      let hi ← readInt hi
      return some ⟨String.ofList (Words.strip label), String.ofList addr, lo, hi⟩

/-- `parse_pools` -/
def parsePools (value : String) : Option (List Pool) :=
  ((value.toList.splitOn ',').mapM parsePool).map fun pools => pools.filterMap id

/-- A host's section: its lists and pools as they are written, and its own
limits. -/
structure HostText (F : Type) where
  here : Bool := false
  links : String := ""
  clients : String := ""
  pools : String := ""
  backupMaxH : Option F := none
  pulledBackupMaxH : Option F := none
  expiryMaxH : Option F := none

/-- The section as the checks use it, with the pools it names. -/
def HostText.read {F : Type} (s : HostText F) (pools : List Pool) : Section F where
  here := s.here
  links := listOf s.links
  clients := listOf s.clients
  pools := pools
  backupMaxH := s.backupMaxH
  pulledBackupMaxH := s.pulledBackupMaxH
  expiryMaxH := s.expiryMaxH

/-! ### Reboots -/

/-- What `reboots` does with `float`: `now - uptime`, with `none` for an
`OverflowError`; `abs(boot - last) > 300`; `int(x // 60)`, with `none` for an
infinity or a nan. -/
class Uptimes (F : Type) [Floats F] where
  bootAt : F → Num F → Option F
  moved : F → F → Bool
  minutes : F → Option ℤ

section Reboots

variable {F : Type} [Floats F] [Uptimes F]

/-- `_dur` -/
def durOf (seconds : Num F) : Option String := do
  let m ← match seconds with
    | .int n => some (n / 60)
    | .float x => Uptimes.minutes x
  return if 60 ≤ m then toString (m / 60) ++ " ч " ++ toString (m % 60) ++ " мин"
    else toString m ++ " мин"

/-- What `reboots` has so far: the boot times, the messages and the notices. -/
structure Rebooted (F : Type) where
  boots : Dict String F
  msgs : List String := []
  notices : List (String × String × F) := []

/-- The message and the notice of a boot that has moved. -/
def Rebooted.tell (out : Rebooted F) (name : String) (uptime : Num F) (boot : F) :
    Option (Rebooted F) :=
  if (out.boots.get? name).any (Uptimes.moved boot) then
    (durOf uptime).map fun ago => { out with
      msgs := out.msgs ++ ["ℹ️ " ++ name ++ ": перезагрузился " ++ ago ++ " назад"]
      notices := out.notices ++ [(name ++ ":reboot", name ++ ": перезагрузился", boot)] }
  else some out

/-- One host of `reboots`. -/
def Rebooted.rebootOf (now : F) (out : Rebooted F) (x : String × Option (Values F)) :
    Option (Rebooted F) :=
  match x.2.bind fun probe => probe.get? "uptime_s" with
  | none => some out
  | some (.text _) => none
  | some (.num uptime) => do
      let boot ← Uptimes.bootAt now uptime
      let told ← out.tell x.1 uptime boot
      return { told with boots := told.boots.insert x.1 boot }

/-- `reboots` -/
def Rebooted.reboots (now : F) (boots : Dict String F) (probes : List (String × Option (Values F))) :
    Option (Rebooted F) :=
  probes.foldlM (rebootOf now) ⟨boots, [], []⟩

end Reboots

/-! ### The run -/

/-- What a run meets: the limits, the hosts by their sections, how the calls of
`sov-probe` ended and when they were made, the time, the boots the state
remembers, the state that `step` has left, and what the site looks like. -/
structure Probing (F : Type) where
  limits : Limits F
  hosts : Dict String (HostText F)
  call : String → Call
  window : String → F × F
  now : F
  boots : Dict String F := .empty
  cfg : Config
  state : State := {}
  urls : List (String × String) := []
  certs : List (String × Option F) := []

/-- A host, and its values or why there are none. -/
abbrev Probed (F : Type) := (String × HostText F) × Option (Values F) × String

section Chain

variable {F : Type} [Floats F]

/-- `pool_usage`, with the pools as they are written. -/
def poolUsageOf (s : HostText F) (probe : Values F) : Option (List PoolUse) := do
  let pools ← parsePools s.pools
  poolUsage (s.read pools) probe

/-- `host_problems`, with the pools as they are written; a host that is down is
not looked at. -/
def problemsOf (limits : Limits F) (x : Probed F) : Found :=
  match x.2.1 with
  | none => hostProblems limits x.1.1 (x.1.2.read []) none x.2.2
  | some probe => do
      let pools ← parsePools x.1.2.pools
      hostProblems limits x.1.1 (x.1.2.read pools) (some probe) x.2.2

/-- The pools of a host that has some, as the report shows them. -/
def reportedPools (x : Probed F) : Option (List (String × List PoolUse)) :=
  match x.2.1 with
  | none => some []
  | some probe => (poolUsageOf x.1.2 probe).map fun uses => [(x.1.1, uses)]

namespace Probing

variable (w : Probing F)

/-- `run_probe` of a host. -/
def answer (name : String) : Option (Values F) × String := runProbe (w.call name)

/-- am1's own clock says that it is not synchronised. -/
def unsynced : Bool :=
  w.hosts.entries.any fun x => x.2.here
    && ((w.answer x.1).1.any fun p => (p.get? "clock_synced").any Val.isZero)

/-- `apply_clock_skews` of one host. -/
def skewed (x : String × HostText F) : Option (Probed F) :=
  if w.unsynced then some (x, w.answer x.1)
  else (applyClockSkew (w.window x.1) x.2.here (w.answer x.1).1).map fun p => (x, p, (w.answer x.1).2)

/-- `apply_clock_skews` -/
def applyClockSkews : Option (List (Probed F)) := w.hosts.entries.mapM w.skewed

/-- `build_report` -/
def report (probes : List (Probed F)) (notices : List (String × String × F)) : Option (Report F) := do
  let pools ← (probes.filter fun x => x.1.2.pools ≠ "").mapM reportedPools
  return {
    sentAt := Floats.toRat w.now
    hosts := Dict.empty.update (probes.map fun x => (x.1.1, x.2.1))
    errors := (probes.filter fun x => x.2.2 ≠ "").map fun x => (x.1.1, x.2.2)
    links := (probes.filter fun x => listOf x.1.2.links ≠ []).map fun x => (x.1.1, listOf x.1.2.links)
    clients := (probes.filter fun x => listOf x.1.2.clients ≠ []).map
      fun x => (x.1.1, listOf x.1.2.clients)
    urls := w.urls
    certs := w.certs
    pools := pools.flatten
    problems := confirmed w.cfg w.state
    notices := notices.map fun n => ⟨n.1, n.2.1, Floats.toRat n.2.2⟩ }

/-- The run: the problems, the reboots and the report; `none` if anything
raises. -/
def chain [Uptimes F] : Option (List (String × String) × Rebooted F × Report F) := do
  let probes ← w.applyClockSkews
  let problems ← probes.mapM (problemsOf w.limits)
  let rebooted ← Rebooted.reboots w.now w.boots (probes.map fun x => (x.1.1, x.2.1))
  let report ← w.report probes rebooted.notices
  return (problems.flatten, rebooted, report)

end Probing

end Chain

end VpnPortal.Monitor
