/-
The monitor's report (`infrastructure/monitoring/sov_monitor.py`) and what the
portal takes for one (`pwa/api/monitor.py`).

A run looks at every host and at the site, judges what it saw, says what there
is to say and builds a report: the numbers, and the problems that are confirmed
by the state it is about to save. The report is built and posted whether or not
Telegram took the message. The portal reads it with a model of its own that
bounds the lengths.

* `Setup`, `Look`, `observe`: what a run meets and the round this is;
* `newState`, `confirmed`, `buildReport`: the report of a run;
* `Accepts`: the portal's bounds.
-/
import VpnPortal.Monitor.Judge
import VpnPortal.Monitor.Episodes

namespace VpnPortal.Monitor

open Tables Numerals

/-! ### A look at everything -/

/-- The configuration. -/
structure Setup (F : Type) where
  cfg : Config
  limits : Limits F
  hosts : Dict String (Section F)
  urls : List String := []
  certHosts : List String := []

/-- What a run finds outside: how the calls of the hosts ended and when they were
made, what the pages and the certificates are, and whether Telegram takes the
message. -/
structure Look (F : Type) where
  now : ℚ
  call : String → Call
  window : String → F × F
  page : String → String
  cert : String → Cert F
  sends : Bool

section Observe

variable {F : Type} [Floats F]

/-- A probe as `reboots` and `digest` read it; an `uptime_s` that is a text raises. -/
def toProbe (values : Values F) : Option Probe :=
  let shown := values.mapVal fun _ v => match v with
    | .num (.int n) => Value.int n
    | .num (.float x) => .text (Floats.repr x)
    | .text s => .text s
  match values.get? "uptime_s" with
  | none => some ⟨none, shown⟩
  | some (.num (.int n)) => some ⟨some n, shown⟩
  | some (.num (.float x)) => some ⟨some (Floats.toRat x), shown⟩
  | some (.text _) => none

/-- A host that did not answer has no probe. -/
def toProbe? : Option (Values F) → Option (Option Probe)
  | none => some none
  | some values => (toProbe values).map some

variable (setup : Setup F) (look : Look F)

/-- am1's own clock is no reference while it is not synchronised. -/
def noReference : Bool :=
  setup.hosts.entries.any fun x => x.2.here
    && ((runProbe (F := F) (look.call x.1)).1.any fun p => (p.get? "clock_synced").any Val.isZero)

/-- What is known of one host: its values and why there are none. -/
def probeOf (x : String × Section F) : Option (Option (Values F) × String) :=
  let answer := runProbe (look.call x.1)
  if noReference setup look then some answer
  else (applyClockSkew (look.window x.1) x.2.here answer.1).map fun p => (p, answer.2)

/-- The probes of a run by the hosts, with the reasons of those that failed. -/
def probesOf : Option (List ((String × Section F) × Option (Values F) × String)) :=
  setup.hosts.entries.mapM fun x => (probeOf setup look x).map fun answer => (x, answer)

/-- The problems that the hosts and the site have, as they are assigned. -/
def foundOf (probes : List ((String × Section F) × Option (Values F) × String)) : Found := do
  let hosts ← probes.mapM fun x => hostProblems setup.limits x.1.1 x.1.2 x.2.1 x.2.2
  let web ← webChecks setup.limits (setup.urls.map fun url => (url, look.page url))
    (setup.certHosts.map fun host => (host, look.cert host))
  return hosts.flatten ++ web

/-- `main` up to the problems it observes. -/
def observe : Option Round := do
  let probes ← probesOf setup look
  let found ← foundOf setup look probes
  let shown ← probes.mapM fun x => (toProbe? x.2.1).map fun p => (x.1.1, p)
  return ⟨look.now, Dict.empty.update shown, Dict.empty.update found, look.sends⟩

end Observe

/-! ### The report -/

/-- How bad a problem is. -/
inductive Level where
  | bad
  | warn
deriving DecidableEq, Repr

/-- `level` -/
def level (key : String) : Level :=
  let kind := ((key.toList.splitOn ':').tail.head?).getD []
  if "cert:".toList <+: key.toList then .warn
  else if ["disk", "mem", "load", "units", "pool", "clock"].any fun k => kind = k.toList then .warn
  else .bad

/-- A problem of a report. -/
structure Problem where
  key : String
  text : String
  level : Level
  since : ℚ

/-- `build_report`: the numbers and the problems confirmed so far. -/
structure Report (F : Type) where
  sentAt : ℚ
  hosts : Dict String (Option (Values F))
  errors : List (String × String)
  links : List (String × List String)
  clients : List (String × List String)
  urls : List (String × String)
  certs : List (String × Option F)
  pools : List (String × List PoolUse)
  problems : List Problem
  notices : List Notice

/-- The problems that a state has seen often enough. -/
def confirmed (cfg : Config) (state : State) : List Problem :=
  state.problems.collect fun key s =>
    if cfg.confirmRuns ≤ s.count then some ⟨key, s.text, level key, s.since⟩ else none

/-- The state a run is about to save. -/
def newState (cfg : Config) (state : State) (r : Round) : State :=
  let problems := r.problems state
  let told := step cfg r.now state problems
  (withDigest cfg (reboots told.2 r.probes r.now).2 r.probes problems r.now).2

lemma problems_newState {cfg : Config} {st : State} {r : Round} : (newState cfg st r).problems
    = (r.problems st).mapVal (keepSeen cfg r.now st.problems) := by
  rw [newState, problems_withDigest]
  rfl

/-- A run saves the state it was about to save, or keeps what it found. -/
lemma after_run (cfg : Config) (st : State) (r : Round) :
    (run cfg st r).after = newState cfg st r ∨ (run cfg st r).after = st := by
  simp only [run]
  split_ifs
  · exact Or.inl rfl
  · exact Or.inr rfl

section Build

variable {F : Type} [Floats F]

/-- `build_report`, over the state the run is about to save. -/
def buildReport (setup : Setup F) (look : Look F)
    (probes : List ((String × Section F) × Option (Values F) × String)) (state : State) :
    Option (Report F) := do
  let pools ← (probes.filter fun x => !x.1.2.pools.isEmpty && x.2.1.isSome).mapM fun x =>
    ((x.2.1.map fun values => poolUsage x.1.2 values).getD (some [])).map fun use => (x.1.1, use)
  return {
    sentAt := look.now
    hosts := Dict.empty.update (probes.map fun x => (x.1.1, x.2.1))
    errors := (probes.filter fun x => x.2.2 ≠ "").map fun x => (x.1.1, x.2.2)
    links := (setup.hosts.entries.filter fun x => x.2.links ≠ []).map fun x => (x.1, x.2.links)
    clients := (setup.hosts.entries.filter fun x => x.2.clients ≠ []).map fun x => (x.1, x.2.clients)
    urls := setup.urls.map fun url => (url, look.page url)
    certs := setup.certHosts.map fun host => (host, match look.cert host with
      | .ok days => some (Floats.round1 days)
      | .error _ => none)
    pools := pools
    problems := confirmed setup.cfg state
    notices := state.notices }

/-- `main`: the run that was made and the report it posted; `none` if it raised. -/
def main (setup : Setup F) (state : State) (look : Look F) : Option (Outcome × Report F) := do
  let probes ← probesOf setup look
  let r ← observe setup look
  let report ← buildReport setup look probes (newState setup.cfg state r)
  return (run setup.cfg state r, report)

end Build

/-! ### The portal's bounds -/

/-- `Field(min_length=1, max_length=n)` -/
def Bounded (n : ℕ) (s : String) : Prop := 1 ≤ s.length ∧ s.length ≤ n

instance (n : ℕ) (s : String) : Decidable (Bounded n s) :=
  inferInstanceAs (Decidable (1 ≤ s.length ∧ s.length ≤ n))

/-- What the portal's models `Problem` and `Notice` bound. -/
def Fits (x : String × String) : Prop := Bounded 120 x.1 ∧ Bounded 300 x.2

instance (x : String × String) : Decidable (Fits x) :=
  inferInstanceAs (Decidable (Bounded 120 x.1 ∧ Bounded 300 x.2))

/-- The portal's model `Report` takes the report. Its other fields have the types
the report gives them, and `level` gives the two words it knows. -/
structure Accepts {F : Type} (r : Report F) : Prop where
  hosts : r.hosts.entries.length ≤ 20
  problems : r.problems.length ≤ 200
  problem : ∀ p ∈ r.problems, Fits (p.key, p.text)
  notices : r.notices.length ≤ 50
  notice : ∀ n ∈ r.notices, Fits (n.key, n.text)

/-! ### An exit -/

/-- The value of a number. -/
def Num.value : Num ℚ → ℚ
  | int n => n
  | float x => x

/-- Exact numbers in place of `float`, shown with one decimal. -/
instance exactFloats : Floats ℚ where
  read s := match s.toList.splitOn '.' with
    | [whole, tenths] => if whole ≠ [] ∧ tenths ≠ [] ∧ (whole ++ tenths).all Char.isDigit then
        some (natOf (whole.filterMap decimal?)
          + natOf (tenths.filterMap decimal?) / 10 ^ tenths.length) else none
    | _ => none
  zero := 0
  repr x := toString ⌊x⌋ ++ "." ++ toString ⌊(x - ⌊x⌋) * 10⌋
  fixed x := some (toString (round x.value))
  isZero x := x = 0
  lt a b := a.value < b.value
  le a b := a.value ≤ b.value
  abs x := |x|
  sub a b := some (a.value - b)
  div a b := if b.value = 0 then none else some (a.value / b.value)
  floorDiv x n := ⌊x / n⌋
  hours x := x * 3600
  round1 x := round (x * 10) / 10
  toRat x := x

/-- The limits of the example configuration. -/
def usualLimits : Limits ℚ := ⟨85, 10, 2, 300, 14, 26, 27, 2, 70, 95, 2⟩

/-- The exit alone, without links. -/
def exitSetup : Setup ℚ :=
  { cfg := usual, limits := usualLimits, hosts := ⟨[("exit", {})], by simp⟩ }

/-- A look at the exit. -/
def exitLook (now : ℚ) (call : Call) (sends : Bool) : Look ℚ :=
  ⟨now, fun _ => call, fun _ => (now, now), fun _ => "", fun _ => .ok 60, sends⟩

end VpnPortal.Monitor
