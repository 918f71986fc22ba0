/-
The trial subnet on the entry node (`infrastructure/trial/sovrn-trial-net`).

The script as a program over the pieces it keeps on the node: the trial address
on `awg0`, the mangle mark, the ip rule, the `FORWARD` list, the `SOVRN-TRIAL`
chain, the queueing disciplines and the state file. Reads succeed; a command
that changes something may fail, and a failure on a line of its own ends the
invocation. What the script prints is left out.

* `Node`, `Conf` and the commands the script runs;
* `buildChain`, `chainUp`, `chainDown`, `routingUp`, `routingDown`, `tcUp`,
  `tcDown`, `setState`, `check`;
* `Invocation`, `script`, `invoke`, `nodeAfter`: any sequence of calls.
-/
import VpnPortal.Shell.Script
import VpnPortal.Nodes.DelPeer

namespace VpnPortal.TrialNet

open Shell

/-! ### The node -/

/-- A rule of `FORWARD`. -/
inductive Forward where
  /-- `-i awg0 -j ACCEPT` -/
  | accept
  /-- `-s 10.88.89.0/24 -j SOVRN-TRIAL` -/
  | jump
  /-- A rule of another service. -/
  | other (rule : String)
deriving DecidableEq, Repr

/-- A rule of the chain `SOVRN-TRIAL`. -/
inductive ChainRule where
  /-- `-d 10.88.88.0/23 -j DROP` -/
  | dropClients
  /-- `-p tcp --dport 25 -j REJECT --reject-with tcp-reset` -/
  | rejectSmtp
  /-- `-m conntrack --ctstate NEW -m connlimit --connlimit-above N --connlimit-mask 32 -j REJECT` -/
  | connLimit (above : String)
  /-- `-j RETURN` -/
  | ret
  /-- `-j DROP` -/
  | drop
  | other (rule : String)
deriving DecidableEq, Repr

/-- What hangs under the `htb 1:` root of `awg0`. -/
inductive TcPart where
  | cls (classid rate : String)
  | leaf (parent qdisc : String)
  /-- `match ip dst 10.88.89.0/24 flowid 1:20` -/
  | filter
deriving DecidableEq, Repr

/-- `match ip src 10.88.89.0/24 police rate R burst B drop` -/
structure Police where
  rate : String
  burst : String
deriving DecidableEq, Repr

/-- The entry node, as far as the script reads and changes it. -/
structure Node where
  /-- `10.88.89.1/24` is on `awg0`. -/
  addr : Bool
  /-- How often the mark stands in `PREROUTING`. -/
  mangle : ℕ
  /-- How often rule `101: from 10.88.89.0/24 lookup 200` stands. -/
  rules : ℕ
  forward : List Forward
  /-- The chain `SOVRN-TRIAL`, if it exists. -/
  chain : Option (List ChainRule)
  /-- The root `htb 1:` of `awg0` and what hangs under it. -/
  root : Option (List TcPart)
  /-- The ingress discipline of `awg0` and its policers. -/
  ingress : Option (List Police)
  /-- `/etc/sovereign/trial.state` -/
  file : Option String
  /-- Table 200 has a default route. -/
  default200 : Bool
  /-- `none` without the `awg` tool, else whether `awg show awg0` works. -/
  awg : Option Bool
deriving DecidableEq, Repr

/-- The tunables of `/etc/sovereign/trial.conf`. -/
structure Conf where
  downRate : String := "20mbit"
  upRate : String := "5mbit"
  upBurst : String := "256k"
  paidCeil : String := "10gbit"
  connLimit : String := "150"
  leafQdisc : String := "fq_codel"
deriving Repr

/-- `state`: a missing file reads as off. -/
def Node.on (n : Node) : Bool :=
  match n.file with
  | some text => decide (text.toList.filter (fun c => !isSpace c) = "on".toList)
  | none => false

/-- The rules of the chain with the kill switch on. -/
def limits (connLimit : String) : List ChainRule :=
  [.dropClients, .rejectSmtp, .connLimit connLimit, .ret]

/-- The rules of the chain with the kill switch off. -/
def drops : List ChainRule := [.drop]

/-! ### The firewall chain -/

/-- `iptables -C FORWARD "${JUMP[@]}"` -/
def Node.hasJump (n : Node) : Bool := decide (.jump ∈ n.forward)

/-- `iptables-restore --noflush`: the chain is flushed and refilled in one commit. -/
def restoreChain (rules : List ChainRule) (n : Node) : Option Node :=
  some { n with chain := some rules }

/-- `iptables -I FORWARD 1`: the target must exist. -/
def insertJump (n : Node) : Option Node :=
  n.chain.map fun _ => { n with forward := .jump :: n.forward }

/-- `iptables -D FORWARD`: the first of them. -/
def deleteJump (n : Node) : Option Node :=
  if n.hasJump then some { n with forward := n.forward.erase .jump } else none

/-- `iptables -F SOVRN-TRIAL` -/
def flushChain (n : Node) : Option Node :=
  n.chain.map fun _ => { n with chain := some [] }

/-- `iptables -X SOVRN-TRIAL`: it must be empty, and nothing may refer to it. -/
def deleteChain (n : Node) : Option Node :=
  if n.chain = some [] ∧ n.hasJump = false then some { n with chain := none } else none

/-- The rule set of the chain for the kill switch. -/
def ruleSet (conf : Conf) (on : Bool) : List ChainRule :=
  if on then limits conf.connLimit else drops

def buildChain (conf : Conf) : Sh Node Unit := do
  let on ← look Node.on
  act (restoreChain (ruleSet conf on))

def chainUp (conf : Conf) : Sh Node Unit := do
  buildChain conf
  readOr Node.hasJump (act insertJump)

def chainDown : Sh Node Unit := do
  whileDo (fun n => n.forward.count .jump) (look Node.hasJump) (act deleteJump)
  ifRead (fun n => n.chain.isSome) do
    act flushChain
    act deleteChain

/-! ### Routing -/

/-- `ip addr replace 10.88.89.1/24 dev awg0` -/
def replaceAddr (n : Node) : Option Node := some { n with addr := true }

/-- `ip addr del 10.88.89.1/24 dev awg0` -/
def delAddr (n : Node) : Option Node := if n.addr then some { n with addr := false } else none

/-- `iptables -t mangle -C PREROUTING` -/
def Node.marked (n : Node) : Bool := decide (0 < n.mangle)

/-- `iptables -t mangle -A PREROUTING` -/
def appendMangle (n : Node) : Option Node := some { n with mangle := n.mangle + 1 }

/-- `iptables -t mangle -D PREROUTING` -/
def deleteMangle (n : Node) : Option Node :=
  if n.marked then some { n with mangle := n.mangle - 1 } else none

/-- `ip rule del from 10.88.89.0/24 lookup 200 priority 101` -/
def delRule (n : Node) : Option Node :=
  if 0 < n.rules then some { n with rules := n.rules - 1 } else none

/-- `ip rule add`: a second one of the kind is refused. -/
def addRule (n : Node) : Option Node :=
  if 0 < n.rules then none else some { n with rules := 1 }

/-- `while ip rule del ...; do :; done` -/
def delRules : Sh Node Unit := whileDo Node.rules (attempt delRule) (pure ())

def routingUp : Sh Node Unit := do
  act replaceAddr
  readOr Node.marked (act appendMangle)
  delRules
  act addRule

def routingDown : Sh Node Unit := do
  delRules
  whileDo Node.mangle (look Node.marked) (act deleteMangle)
  ifRead Node.addr (act delAddr)

/-! ### Bandwidth -/

/-- `tc qdisc add dev awg0 root handle 1: htb default 10` -/
def addRoot (n : Node) : Option Node :=
  match n.root with
  | none => some { n with root := some [] }
  | some _ => none

/-- `tc qdisc del dev awg0 root`: with everything under it. -/
def delRoot (n : Node) : Option Node := n.root.map fun _ => { n with root := none }

/-- `tc class add`, `tc qdisc add` and `tc filter add` under `1:`. -/
def addPart (part : TcPart) (n : Node) : Option Node :=
  n.root.map fun parts => { n with root := some (parts ++ [part]) }

/-- `tc qdisc add dev awg0 handle ffff: ingress` -/
def addIngress (n : Node) : Option Node :=
  match n.ingress with
  | none => some { n with ingress := some [] }
  | some _ => none

/-- `tc qdisc del dev awg0 ingress` -/
def delIngress (n : Node) : Option Node := n.ingress.map fun _ => { n with ingress := none }

/-- `tc filter add dev awg0 parent ffff:` -/
def addPolice (police : Police) (n : Node) : Option Node :=
  n.ingress.map fun all => { n with ingress := some (all ++ [police]) }

def tcDown : Sh Node Unit := do
  ifRead (fun n => n.root.isSome) (act delRoot)
  ifRead (fun n => n.ingress.isSome) (act delIngress)

def tcUp (conf : Conf) : Sh Node Unit := do
  tcDown
  act addRoot
  act (addPart (.cls "1:1" conf.paidCeil))
  act (addPart (.cls "1:10" conf.paidCeil))
  act (addPart (.cls "1:20" conf.downRate))
  act (addPart (.leaf "1:10" conf.leafQdisc))
  act (addPart (.leaf "1:20" conf.leafQdisc))
  act (addPart .filter)
  if conf.upRate = "off" then pure ()
  else
    act addIngress
    act (addPolice ⟨conf.upRate, conf.upBurst⟩)

/-! ### The check -/

/-- `iptables -S FORWARD | grep -nxF -- RULE | head -1 | cut -d: -f1`: the policy
is line 1, and without a match `grep` fails and the pipeline with it. -/
def lineOf (rule : Forward) (forward : List Forward) : Option ℕ :=
  if rule ∈ forward then some (forward.idxOf rule + 2) else none

/-- `iptables -S SOVRN-TRIAL | sed -n '2p'`: fails without the chain. -/
def firstRule (chain : Option (List ChainRule)) : Option (Option ChainRule) :=
  chain.map List.head?

/-- The ceiling towards the clients: a filter into class `1:20`. -/
def Node.download (n : Node) : Bool := n.root.any fun parts => decide (.filter ∈ parts)

/-- The ceiling from the clients: a policer on ingress. -/
def Node.upload (n : Node) : Bool := n.ingress.any fun all => !all.isEmpty

/-- The first rule `check` wants to see in the chain. -/
def wantedFirst (on : Bool) : ChainRule := if on then .dropClients else .drop

def check (conf : Conf) : Sh Node Unit := do
  let n ← look id
  -- each item of its own only sets `bad`
  let found := n.addr && n.marked && decide (0 < n.rules) && n.default200 && n.hasJump
  -- the assignments end the script if their pipeline fails
  let jumpAt ← assign (lineOf .jump n.forward)
  let acceptAt ← assign (lineOf .accept n.forward)
  let ordered := decide (jumpAt < acceptAt)
  let first ← assign (firstRule n.chain)
  let chained := decide (first = some (wantedFirst n.on))
  let ceilings := n.download && (conf.upRate = "off" || n.upload)
  assign (if n.awg = some false then none else some ())
  status (found && ordered && chained && ceilings)

/-! ### The script -/

/-- `set_state`: the directory, the temporary file, its text and its mode, then the rename. -/
def setState (conf : Conf) (on : Bool) : Sh Node Unit := do
  act some
  act some
  act some
  act some
  act fun n => some { n with file := some (if on then "on\n" else "off\n") }
  ifRead (fun n => n.chain.isSome) (buildChain conf)

/-- What `up` applies under its trap. -/
def apply (conf : Conf) : Sh Node Unit := do
  chainUp conf
  routingUp
  tcUp conf

/-- What the trap, and `down`, take away: the firewall goes last. -/
def takeDown : Sh Node Unit := do
  tcDown
  routingDown
  chainDown

inductive Cmd where
  | up | down | on | off | check
deriving DecidableEq, Repr

/-- One call of the script. -/
structure Invocation where
  cmd : Cmd
  /-- `trial.conf` as it is at this call. -/
  conf : Conf
  /-- The tests made before anything is touched pass: `trial.conf` is trusted, the
  caller is root, and for `up` the interface and the set `ru_nets` exist. -/
  ready : Bool
  /-- Which of its changing commands fail. -/
  faults : List Bool
deriving Repr

/-- `case "${1:-}" in`; `up` disarms its trap before the check. -/
def script (i : Invocation) : Sh Node Unit := do
  status i.ready
  match i.cmd with
  | .up =>
    trapExit (apply i.conf) takeDown
    check i.conf
  | .down => takeDown
  | .on => setState i.conf true
  | .off => setState i.conf false
  | .check => check i.conf

/-- Where the commands of an invocation start. -/
def Invocation.start (i : Invocation) (n : Node) : Shell.World Node :=
  { point := ⟨n, false⟩, faults := i.faults, seen := [n] }

/-- An invocation on a node: `some` if it exits 0. -/
def invoke (i : Invocation) (n : Node) : Option Unit × Shell.World Node := script i (i.start n)

/-- The node after a sequence of invocations. -/
def nodeAfter (calls : List Invocation) (n : Node) : Node :=
  calls.foldl (fun n i => (invoke i n).2.point.node) n

end VpnPortal.TrialNet
