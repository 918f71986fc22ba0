/-
The monitor (`infrastructure/monitoring/sov_monitor.py`): what one run says and
what it remembers.

A run observes problems, keeps the open ones of the hosts that do not answer,
and compares them with the remembered state. The messages go out in one piece,
and the new state is saved only if they did, or if there was nothing to say; a
run whose message was refused leaves the state as it found it. Times are exact
numbers here; how the problems are found is outside the model.

* `Entry`, `State`: what is remembered;
* `step`: what to say about the problems; `reboots`, `digest`: the other messages;
* `carryOver`, `run`: one run of `main`; `Ran`: runs one after another.
-/
import VpnPortal.Tables.Dict
import Mathlib.Algebra.Order.Floor.Ring
import Mathlib.Data.Rat.Floor

namespace VpnPortal.Monitor

open Tables

/-! ### The state and the messages -/

/-- An open problem: when it was first seen, on how many runs, when it was last
told (`0`: never), and its text. -/
structure Entry where
  since : ℚ
  count : ℤ
  sent : ℚ
  text : String

/-- A reboot, for the panel. -/
structure Notice where
  key : String
  text : String
  bootedAt : ℚ

/-- `state.json` -/
structure State where
  problems : Dict String Entry := .empty
  boots : Dict String ℚ := .empty
  notices : List Notice := []
  digestDay : Option String := none

/-- The first red message of a problem, a reminder, the green one. -/
inductive Kind where
  | first
  | reminder
  | cleared
deriving DecidableEq, Repr

/-- A message, and the problem it is about, if it is about one. -/
structure Message where
  about : Option (String × Kind)
  text : String

/-- A value of a probe: a whole number, or a text as it is shown. -/
inductive Value where
  | int (n : ℤ)
  | text (s : String)

/-- `f"{v}"` -/
def Value.shown : Value → String
  | int n => toString n
  | text s => s

/-- A host's answer: the seconds since its boot, and the other values by their
names. -/
structure Probe where
  uptimeS : Option ℚ
  values : Dict String Value

/-- The clock of a moment in Moscow, as `strftime` shows it. -/
structure Moscow where
  day : String
  hour : ℤ
  stamp : String

/-- The limits, the hour of the summary, and the calendar. -/
structure Config where
  confirmRuns : ℤ
  remindH : ℚ
  hourMsk : ℤ
  moscow : ℚ → Moscow

/-- `float(limits["remind_h"]) * 3600` -/
def Config.remindS (cfg : Config) : ℚ := cfg.remindH * 3600

/-! ### What to say -/

/-- `_dur` -/
def dur (seconds : ℚ) : String :=
  let m := ⌊seconds / 60⌋
  if 60 ≤ m then toString (m / 60) ++ " ч " ++ toString (m % 60) ++ " мин"
  else toString m ++ " мин"

section Step

variable (cfg : Config) (now : ℚ)

/-- The entry of a problem seen on this run, before it is told. -/
def Entry.seen (old : Option Entry) (text : String) : Entry :=
  let s := old.getD ⟨now, 0, 0, text⟩
  { s with count := s.count + 1, text := text }

/-- A confirmed problem is told at once, and again when the last time is long
enough ago. -/
def Entry.Due (s : Entry) : Prop :=
  cfg.confirmRuns ≤ s.count ∧ (s.sent = 0 ∨ cfg.remindS ≤ now - s.sent)

instance (s : Entry) : Decidable (s.Due cfg now) :=
  inferInstanceAs (Decidable (cfg.confirmRuns ≤ s.count ∧ (s.sent = 0 ∨ cfg.remindS ≤ now - s.sent)))

/-- The red message about a problem on this run. -/
def tellSeen (old : Dict String Entry) (key text : String) : Option Message :=
  let s := Entry.seen now (old.get? key) text
  if s.Due cfg now then
    if s.sent = 0 then some ⟨some (key, .first), "🔴 " ++ text⟩
    else some ⟨some (key, .reminder),
      "🔴 " ++ text ++ " (всё ещё, " ++ dur (now - s.since) ++ ")"⟩
  else none

/-- What is remembered of it. -/
def keepSeen (old : Dict String Entry) (key text : String) : Entry :=
  let s := Entry.seen now (old.get? key) text
  if s.Due cfg now then { s with sent := now } else s

/-- The green message about a remembered problem that this run does not have. -/
def tellGone (problems : Dict String String) (key : String) (s : Entry) : Option Message :=
  if problems.get? key = none ∧ s.sent ≠ 0 then
    some ⟨some (key, .cleared), "✅ " ++ s.text ++ " — прошло (" ++ dur (now - s.since) ++ ")"⟩
  else none

/-- `step`: what to send now, and the state to keep if it was sent. -/
def step (state : State) (problems : Dict String String) : List Message × State :=
  (problems.collect (tellSeen cfg now state.problems)
      ++ state.problems.collect (tellGone now problems),
    { state with problems := problems.mapVal (keepSeen cfg now state.problems) })

end Step

/-! ### The other messages -/

/-- One host of `reboots`: a host whose boot time moved has rebooted. -/
def rebootOf (now : ℚ) (acc : List Message × List Notice × Dict String ℚ) (name : String)
    (probe : Option Probe) : List Message × List Notice × Dict String ℚ :=
  match probe.bind Probe.uptimeS with
  | none => acc
  | some uptime =>
      let boot := now - uptime
      let boots := acc.2.2.insert name boot
      match acc.2.2.get? name with
      | none => (acc.1, acc.2.1, boots)
      | some last =>
          if 300 < |boot - last| then
            (acc.1 ++ [⟨none, "ℹ️ " ++ name ++ ": перезагрузился " ++ dur uptime ++ " назад"⟩],
              acc.2.1 ++ [⟨name ++ ":reboot", name ++ ": перезагрузился", boot⟩], boots)
          else (acc.1, acc.2.1, boots)

/-- `reboots` -/
def reboots (state : State) (probes : Dict String (Option Probe)) (now : ℚ) : List Message × State :=
  let out := probes.entries.foldl (fun acc x => rebootOf now acc x.1 x.2) ([], [], state.boots)
  (out.1, { state with boots := out.2.2, notices := out.2.1 })

/-- One line of `digest`. -/
def digestLine (name : String) : Option Probe → String
  | none => "• " ++ name ++ ": не отвечает"
  | some p =>
      let field := fun key => ((p.values.get? key).map Value.shown).getD "?"
      let peers : ℤ := (p.values.entries.map fun x => match x.2 with
        | .int n => if ".peers".toList <:+ x.1.toList then n else 0
        | .text _ => 0).sum
      let bits := ["диск " ++ field "disk_root_pct" ++ "%",
        "память своб. " ++ field "mem_avail_pct" ++ "%", "load " ++ field "load1"]
      "• " ++ name ++ ": " ++ ", ".intercalate
        (if peers ≠ 0 then bits ++ ["пиров " ++ toString peers] else bits)

/-- `digest` -/
def digest (cfg : Config) (probes : Dict String (Option Probe)) (problems : Dict String String)
    (now : ℚ) : String :=
  "\n".intercalate (["📋 Sovereign, сводка на " ++ (cfg.moscow now).stamp]
    ++ probes.entries.map (fun x => digestLine x.1 x.2)
    ++ [if problems.entries.isEmpty then "Проблем нет"
        else "Проблем сейчас: " ++ toString problems.entries.length])

/-- The summary, once a day in its hour. -/
def withDigest (cfg : Config) (state : State) (probes : Dict String (Option Probe))
    (problems : Dict String String) (now : ℚ) : List Message × State :=
  if 0 ≤ cfg.hourMsk ∧ (cfg.moscow now).hour = cfg.hourMsk
      ∧ state.digestDay ≠ some (cfg.moscow now).day then
    ([⟨none, digest cfg probes problems now⟩],
      { state with digestDay := some (cfg.moscow now).day })
  else ([], state)

/-! ### One run -/

/-- What a run meets: its time, the probes (`none`: the host did not answer), the
problems it observes, and whether Telegram takes the message. -/
structure Round where
  now : ℚ
  probes : Dict String (Option Probe)
  observed : Dict String String
  sends : Bool

/-- A remembered problem of the host `name`, its being down apart. -/
def OfHost (name key : String) : Prop :=
  (name ++ ":").toList <+: key.toList ∧ key ≠ name ++ ":down"

instance (name key : String) : Decidable (OfHost name key) :=
  inferInstanceAs (Decidable ((name ++ ":").toList <+: key.toList ∧ key ≠ name ++ ":down"))

/-- The open problems of one host are kept. -/
def keepHost (state : State) (name : String) (problems : Dict String String) : Dict String String :=
  state.problems.entries.foldl
    (fun acc x => if OfHost name x.1 then acc.setdefault x.1 x.2.text else acc) problems

/-- A host that does not answer tells nothing: what was open for it is kept. -/
def carryHost (state : State) (problems : Dict String String) : String × Option Probe →
    Dict String String
  | (name, none) => keepHost state name problems
  | (_, some _) => problems

/-- The problems of a run: the observed ones and those carried over. -/
def carryOver (state : State) (probes : Dict String (Option Probe)) (observed : Dict String String) :
    Dict String String :=
  probes.entries.foldl (carryHost state) observed

/-- A run that was made: the state it found, what it met, what it had to say,
whether it completed, and the state it left. -/
structure Outcome where
  before : State
  round : Round
  msgs : List Message
  completed : Bool
  after : State

/-- `main`, from the observed problems on. -/
def run (cfg : Config) (state : State) (r : Round) : Outcome :=
  let problems := carryOver state r.probes r.observed
  let told := step cfg r.now state problems
  let booted := reboots told.2 r.probes r.now
  let last := withDigest cfg booted.2 r.probes problems r.now
  let msgs := told.1 ++ booted.1 ++ last.1
  if msgs.isEmpty ∨ r.sends then ⟨state, r, msgs, true, last.2⟩ else ⟨state, r, msgs, false, state⟩

/-- Runs one after another at increasing positive times, from no state at all. -/
inductive Ran (cfg : Config) : List Outcome → State → Prop where
  | nil : Ran cfg [] {}
  | snoc {h : List Outcome} {state : State} (r : Round) : Ran cfg h state → 0 < r.now →
      (∀ o ∈ h, o.round.now < r.now) → Ran cfg (h ++ [run cfg state r]) (run cfg state r).after

end VpnPortal.Monitor
