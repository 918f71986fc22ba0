/-
The way back from the trial subnet (`infrastructure/trial/snapshot.sh`, `capture.sh`,
`rollback.sh`).

`rollback.sh` takes the trial peers off, takes the subnet down, puts the wrappers of
the snapshot back, removes the files of the subnet and compares what it finds with the
snapshot. Reads succeed, a changing command may fail. A `sovrn-trial-net down` whose
`ip rule del` failed ends well all the same, and then the script that could remove the
rule is removed: no later rollback removes it.

* `Host`, `snapshot`, `rollback`: the node with its wrappers and files, and the scripts;
* `Event`, `hostAfter`: what happens between;
* `Kempt`: what every event keeps, whichever commands fail;
* `rollback_exact`: **`ROLLBACK OK` means that the node is as it was**; a rollback in which
  no command fails ends so exactly if the script was still there or its rule was gone.
-/
import VpnPortal.Shell.Nested
import VpnPortal.TrialNet.Guarded

namespace VpnPortal.TrialNet

open Shell

/-! ### The scripts -/

/-- The entry node with what the rollback works on. -/
structure Host where
  node : Node
  /-- `awg0`, and its config. -/
  peers : NodeState
  /-- `/usr/local/bin/pwa-add-peer` -/
  addPeer : String
  /-- `/usr/local/bin/pwa-del-peer` -/
  delPeer : String
  /-- `sovrn-trial-net.service` is there. -/
  unit : Bool
  /-- `/usr/local/bin/sovrn-trial-net` is there. -/
  script : Bool
  /-- `/etc/sovereign/trial.conf` is there. -/
  conf : Bool

/-- What `capture_state` writes. -/
structure Captured where
  mangle : ℕ
  forward : List Forward
  chain : Option (List ChainRule)
  rules : ℕ
  default200 : Bool
  addr : Bool
  /-- The root of `awg0`, with the disciplines under it. -/
  qdiscs : Option (List (String × String))
  ingress : Bool
  deriving DecidableEq, Repr

/-- `tc qdisc show` shows neither classes nor filters. -/
def TcPart.qdisc? : TcPart → Option (String × String)
  | .leaf parent qdisc => some (parent, qdisc)
  | _ => none

/-- `capture_state` -/
def captureState (n : Node) : Captured where
  mangle := n.mangle
  forward := n.forward
  chain := n.chain
  rules := n.rules
  default200 := n.default200
  addr := n.addr
  qdiscs := n.root.map (List.filterMap TcPart.qdisc?)
  ingress := n.ingress.isSome

/-- The directory of `snapshot.sh`. -/
structure Snapshot where
  captured : Captured
  addPeer : String
  delPeer : String

/-- `snapshot.sh` -/
def snapshot (h : Host) : Snapshot := ⟨captureState h.node, h.addPeer, h.delPeer⟩

/-- A call of `rollback.sh` as root, with the snapshot there. -/
structure Rollback where
  /-- `--remove-trial-peers` -/
  removePeers : Bool
  /-- What the wrapper meets at each key. -/
  del : String → DelRun
  /-- `systemctl disable --now` runs `ExecStop`. -/
  stops : Bool
  /-- The tests of `sovrn-trial-net down` pass. -/
  ready : Bool
  /-- Which of the changing commands fail. -/
  faults : List Bool

/-- `$2 ~ /^10\.88\.89\./` -/
def isTrial (e : PeerEntry) : Bool := "10.88.89.".toList.isPrefixOf e.column.toList

/-- `trial_keys` -/
def trialKeys (runtime : List PeerEntry) : List String := (runtime.filter isTrial).map PeerEntry.key

section Script

-- what the file of a wrapper does, by its text
variable (behaves : String → DelRun → NodeState → String → Reply × NodeState)

/-- `while read -r key; do /usr/local/bin/pwa-del-peer "$key"; done` -/
def delPeers (run : Rollback) : List String → Sh Host Unit
  | [] => pure ()
  | key :: keys => do
      Shell.call fun h =>
        let r := behaves h.delPeer (run.del key) h.peers key
        (r.1 == .ok, { h with peers := r.2 })
      delPeers run keys

/-- Step 1 -/
def peersOff (run : Rollback) : Sh Host Unit := do
  let h ← look id
  match h.node.awg with
  | none => pure ()
  | some shown => do
      status shown
      if trialKeys h.peers.runtime = [] then pure ()
      else do
        status run.removePeers
        delPeers behaves run (trialKeys h.peers.runtime)

/-- `sovrn-trial-net down` -/
def netDown (run : Rollback) : Sh Host Unit :=
  zoom Host.node (fun n h => { h with node := n }) (script ⟨.down, {}, run.ready, []⟩)

/-- Step 2 -/
def stopNet (run : Rollback) : Sh Host Unit := do
  ifRead Host.unit (orTrue (ifRead (fun h => run.stops && h.script) (netDown run)))
  ifRead Host.script (netDown run)

/-- `rm -f`: it goes on after a file that it cannot remove. -/
def removeFiles : Sh Host Unit := do
  let unit ← attempt fun h => some { h with unit := false }
  let script ← attempt fun h => some { h with script := false }
  let state ← attempt fun h => some { h with node := { h.node with file := none } }
  let conf ← attempt fun h => some { h with conf := false }
  status (unit && script && state && conf)

/-- What step 4 finds the same. -/
def Snapshot.same (snap : Snapshot) (h : Host) : Bool :=
  captureState h.node = snap.captured && h.addPeer = snap.addPeer && h.delPeer = snap.delPeer

/-- `rollback.sh`, which ends with `ROLLBACK OK` if it reaches its end. -/
def rollback (run : Rollback) (snap : Snapshot) : Sh Host Unit := do
  peersOff behaves run
  stopNet run
  act fun h => some { h with addPeer := snap.addPeer }
  act fun h => some { h with delPeer := snap.delPeer }
  removeFiles
  let same ← look snap.same
  status same

/-- The rollback on a host. -/
def Rollback.on (run : Rollback) (snap : Snapshot) (h : Host) : Option Unit × Shell.World Host :=
  rollback behaves run snap { point := ⟨h, false⟩, faults := run.faults, seen := [h] }

/-! ### What happens between -/

inductive Event where
  /-- A call of `sovrn-trial-net`, if it is there. -/
  | invoke (i : Invocation)
  /-- The files of the subnet, with new wrappers, and `echo on` into the state file. -/
  | install (addPeer delPeer : String)
  /-- Peers come and go. -/
  | peers (p : NodeState)
  | rollback (run : Rollback)

/-- The host after an event. -/
def Event.after (snap : Snapshot) (h : Host) : Event → Host
  | .invoke i => if h.script then { h with node := (TrialNet.invoke i h.node).2.point.node } else h
  | .install addPeer delPeer =>
      { h with addPeer, delPeer, unit := true, script := true, node := { h.node with file := some "on\n" } }
  | .peers p => { h with peers := p }
  | .rollback run => (run.on behaves snap h).2.point.node

def hostAfter (snap : Snapshot) (events : List Event) (h : Host) : Host :=
  events.foldl (Event.after behaves snap) h

end Script

/-! ### What every event keeps -/

/-- None of the script's pieces is on the node, but for the rule. -/
structure Cleared (n : Node) : Prop where
  addr : n.addr = false
  mangle : n.mangle = 0
  forward : .jump ∉ n.forward
  chain : n.chain = none
  root : n.root = none
  ingress : n.ingress = none

/-- Table 200 is not the script's. -/
def SameTable (n s : Node) : Prop := s.default200 = n.default200

/-- What holds between any two events, with the rules of the others and table 200 as
they were. -/
structure Kempt (base : List Forward) (table : Bool) (h : Host) : Prop where
  kept : Kept base h.node
  table : h.node.default200 = table
  cleared : h.script = false → Cleared h.node

lemma Bare.cleared {n : Node} (h : Bare n) : Cleared n :=
  ⟨h.addr, h.mangle, h.forward, h.chain, h.root, h.ingress⟩

section Table

lemma sameTable_refl (n : Node) : SameTable n n := rfl

lemma sameTable_trans (n s t : Node) (h : SameTable n s) (h' : SameTable s t) : SameTable n t :=
  h'.trans h

/-- A command that leaves table 200, if it has an effect. -/
lemma sameTable_of_eq {f : Node → Option Node} (g : Node → Node) (hg : ∀ n, SameTable n (g n))
    (hf : ∀ n, f n = none ∨ f n = some (g n)) : Along SameTable (act f) := by
  refine .act sameTable_refl fun n s h => ?_
  rcases hf n with hn | hn
  · exact absurd (hn.symm.trans h) (by simp)
  · obtain rfl := Option.some.inj (hn.symm.trans h)
    exact hg n

lemma sameTable_some (g : Node → Node) (hg : ∀ n, SameTable n (g n)) :
    Along SameTable (act fun n => some (g n)) := sameTable_of_eq g hg fun _ => .inr rfl

/-- A command on an optional piece. -/
lemma sameTable_map {γ : Type} {o : Node → Option γ} (g : Node → γ → Node)
    (hg : ∀ n x, SameTable n (g n x)) : Along SameTable (act fun n => (o n).map (g n)) := by
  refine .act sameTable_refl fun n s h => ?_
  obtain ⟨x, -, rfl⟩ := Option.map_eq_some_iff.mp h
  exact hg n x

lemma along_bind {α β : Type} {m : Sh Node α} {f : α → Sh Node β} (hm : Along SameTable m)
    (hf : ∀ a, Along SameTable (f a)) : Along SameTable (m >>= f) := .bind sameTable_trans hm hf

lemma along_buildChain (conf : Conf) : Along SameTable (buildChain conf) :=
  along_bind (.look sameTable_refl _) fun _ => sameTable_some _ fun _ => rfl

lemma along_delRules : Along SameTable delRules := by
  refine .whileDo sameTable_refl sameTable_trans (.attempt sameTable_refl fun n s h => ?_)
    (.pure sameTable_refl _)
  unfold delRule at h
  split at h
  · obtain rfl := Option.some.inj h
    rfl
  · cases h

lemma along_tcDown : Along SameTable tcDown :=
  along_bind (.ifRead sameTable_refl (sameTable_map _ fun _ _ => rfl)) fun _ =>
    .ifRead sameTable_refl (sameTable_map _ fun _ _ => rfl)

lemma along_takeDown : Along SameTable takeDown := by
  refine along_bind along_tcDown fun _ => along_bind ?_ fun _ => ?_
  · refine along_bind along_delRules fun _ => along_bind ?_ fun _ => .ifRead sameTable_refl ?_
    · refine .whileDo sameTable_refl sameTable_trans (.look sameTable_refl _) ?_
      exact sameTable_of_eq (fun n => { n with mangle := n.mangle - 1 }) (fun _ => rfl)
        fun n => by cases h : n.marked <;> simp [deleteMangle, h]
    · exact sameTable_of_eq (fun n => { n with addr := false }) (fun _ => rfl)
        fun n => by cases h : n.addr <;> simp [delAddr, h]
  · refine along_bind ?_ fun _ => .ifRead sameTable_refl (along_bind ?_ fun _ => ?_)
    · refine .whileDo sameTable_refl sameTable_trans (.look sameTable_refl _) ?_
      exact sameTable_of_eq (fun n => { n with forward := n.forward.erase .jump }) (fun _ => rfl)
        fun n => by cases h : n.hasJump <;> simp [deleteJump, h]
    · exact sameTable_map _ fun _ _ => rfl
    · exact sameTable_of_eq (fun n => { n with chain := none }) (fun _ => rfl)
        fun n => by by_cases h : n.chain = some [] ∧ n.hasJump = false <;> simp [deleteChain, h]

lemma along_tcUp (conf : Conf) : Along SameTable (tcUp conf) := by
  have hpart : ∀ part, Along SameTable (act (addPart part)) :=
    fun part => sameTable_map _ fun _ _ => rfl
  refine along_bind along_tcDown fun _ => along_bind ?_ fun _ => along_bind (hpart _) fun _ =>
    along_bind (hpart _) fun _ => along_bind (hpart _) fun _ => along_bind (hpart _) fun _ =>
    along_bind (hpart _) fun _ => along_bind (hpart _) fun _ => ?_
  · exact sameTable_of_eq (fun n => { n with root := some [] }) (fun _ => rfl)
      fun n => by cases h : n.root <;> simp [addRoot, h]
  · split
    · exact .pure sameTable_refl _
    · refine along_bind ?_ fun _ => sameTable_map _ fun _ _ => rfl
      exact sameTable_of_eq (fun n => { n with ingress := some [] }) (fun _ => rfl)
        fun n => by cases h : n.ingress <;> simp [addIngress, h]

lemma along_apply (conf : Conf) : Along SameTable (apply conf) := by
  refine along_bind ?_ fun _ => along_bind ?_ fun _ => along_tcUp conf
  · exact along_bind (along_buildChain conf) fun _ =>
      .readOr sameTable_refl (sameTable_map _ fun _ _ => rfl)
  · refine along_bind (sameTable_some _ fun _ => rfl) fun _ =>
      along_bind (.readOr sameTable_refl (sameTable_some _ fun _ => rfl)) fun _ =>
      along_bind along_delRules fun _ => ?_
    exact sameTable_of_eq (fun n => { n with rules := 1 }) (fun _ => rfl)
      fun n => by by_cases h : 0 < n.rules <;> simp [addRule, h]

lemma along_setState (conf : Conf) (on : Bool) : Along SameTable (setState conf on) := by
  have hquiet : Along SameTable (act some) := sameTable_of_eq id (fun _ => rfl) fun _ => .inr rfl
  exact along_bind hquiet fun _ => along_bind hquiet fun _ => along_bind hquiet fun _ =>
    along_bind hquiet fun _ => along_bind (sameTable_some _ fun _ => rfl) fun _ =>
    .ifRead sameTable_refl (along_buildChain conf)

lemma along_check (conf : Conf) : Along SameTable (check conf) := by
  intro w
  rw [check_world]
  exact sameTable_refl _

/-- No call of the script touches table 200. -/
lemma along_script (i : Invocation) : Along SameTable (script i) := by
  refine along_bind (.assign sameTable_refl _) fun _ => ?_
  cases i.cmd with
  | up =>
    exact along_bind (.trapExit sameTable_trans (along_apply i.conf) along_takeDown) fun _ =>
      along_check i.conf
  | down => exact along_takeDown
  | on => exact along_setState i.conf true
  | off => exact along_setState i.conf false
  | check => exact along_check i.conf

end Table

section Clearing

/-- A triple of which only the end without a failure matters. -/
abbrev Clears (P : Node → Prop) (m : Sh Node Unit) (Q : Node → Prop) : Prop :=
  Triple true (fun _ => True) (fun p => P p.node) m (fun _ p => Q p.node) (fun _ => True)

lemma clears_act {P Q : Point Node → Prop} {f : Node → Option Node}
    (h : ∀ p s, P p → f p.node = some s → Q { p with node := s }) :
    Triple true (fun _ => True) P (act f) (fun _ => Q) (fun _ => True) :=
  Triple.act (fun _ _ => trivial) (fun _ _ hp hf => ⟨trivial, h _ _ hp hf⟩) fun _ _ _ => trivial

lemma clears_tcDown : Clears (fun _ => True) tcDown fun n => n.root = none ∧ n.ingress = none := by
  refine Triple.bind (R := fun _ p => p.node.root = none) ?_ fun _ => ?_
  · refine Triple.ifRead (clears_act fun p s _ h => ?_) fun p _ h => ?_
    · obtain ⟨_, -, rfl⟩ := Option.map_eq_some_iff.mp h
      rfl
    · simpa using h
  · refine Triple.ifRead (clears_act fun p s hp h => ?_) fun p hp h => ?_
    · obtain ⟨_, -, rfl⟩ := Option.map_eq_some_iff.mp h
      exact ⟨hp.1, rfl⟩
    · exact ⟨hp, by simpa using h⟩

lemma clears_delRules {P : Node → Prop} (hP : ∀ n k, P n → P { n with rules := k }) :
    Clears P delRules P := by
  refine Triple.whileAttempt (fun _ _ => trivial) (fun p s hp h => ?_) (fun _ hp _ => hp)
    (fun _ _ hp _ => hp)
  unfold delRule at h
  split at h
  · obtain rfl := Option.some.inj h
    refine ⟨hP _ _ hp, ?_⟩
    show p.node.rules - 1 < p.node.rules
    omega
  · cases h

lemma clears_routingDown : Clears (fun n => n.root = none ∧ n.ingress = none) routingDown
    fun n => (n.root = none ∧ n.ingress = none) ∧ n.mangle = 0 ∧ n.addr = false := by
  have hrules : Clears (fun n => n.root = none ∧ n.ingress = none) delRules
      fun n => n.root = none ∧ n.ingress = none := clears_delRules fun n k hn => hn
  refine Triple.bind hrules fun _ => Triple.bind
    (R := fun _ p => (p.node.root = none ∧ p.node.ingress = none) ∧ p.node.mangle = 0) ?_ fun _ => ?_
  · refine Triple.whileLook (fun _ _ => trivial) (fun p s hp hm h => ?_) (fun _ _ _ _ => trivial)
      fun p hp hm => ⟨hp, by simpa [Node.marked] using hm⟩
    obtain rfl : { p.node with mangle := p.node.mangle - 1 } = s := by simpa [deleteMangle, hm] using h
    have hpos : 0 < p.node.mangle := by simpa [Node.marked] using hm
    refine ⟨hp, ?_⟩
    show p.node.mangle - 1 < p.node.mangle
    omega
  · refine Triple.ifRead (clears_act fun p s hp h => ?_) fun p hp ha => ⟨hp.1, hp.2, ha⟩
    obtain rfl : { p.node with addr := false } = s := by simpa [delAddr, hp.2] using h
    exact ⟨hp.1.1, hp.1.2, rfl⟩

lemma clears_chainDown :
    Clears (fun n => (n.root = none ∧ n.ingress = none) ∧ n.mangle = 0 ∧ n.addr = false) chainDown
      Cleared := by
  refine Triple.bind (R := fun _ p => ((p.node.root = none ∧ p.node.ingress = none) ∧
    p.node.mangle = 0 ∧ p.node.addr = false) ∧ .jump ∉ p.node.forward) ?_ fun _ => ?_
  · refine Triple.whileLook (fun _ _ => trivial) (fun p s hp hj h => ?_) (fun _ _ _ _ => trivial)
      fun p hp hj => ⟨hp, by simpa [Node.hasJump] using hj⟩
    obtain rfl : { p.node with forward := p.node.forward.erase .jump } = s := by
      simpa [deleteJump, hj] using h
    have hpos := List.count_pos_iff.mpr (by simpa [Node.hasJump] using hj : .jump ∈ p.node.forward)
    refine ⟨hp, ?_⟩
    show (p.node.forward.erase .jump).count .jump < p.node.forward.count .jump
    rw [List.count_erase_self]
    omega
  · refine Triple.ifRead (Triple.bind (R := fun _ p => ((p.node.root = none ∧ p.node.ingress = none) ∧
      p.node.mangle = 0 ∧ p.node.addr = false) ∧ .jump ∉ p.node.forward) ?_ fun _ => ?_) fun p hp hc => ?_
    · refine clears_act fun p s hp h => ?_
      obtain ⟨_, -, rfl⟩ := Option.map_eq_some_iff.mp h
      exact hp.1
    · refine clears_act fun p s hp h => ?_
      unfold deleteChain at h
      split at h
      · obtain rfl := Option.some.inj h
        exact ⟨hp.1.2.2, hp.1.2.1, hp.2, rfl, hp.1.1.1, hp.1.1.2⟩
      · cases h
    · exact ⟨hp.1.2.2, hp.1.2.1, hp.2, by simpa using hc, hp.1.1.1, hp.1.1.2⟩

/-- **A teardown that ends well leaves the rule at most**, whichever commands failed. -/
lemma clears_takeDown : Clears (fun _ => True) takeDown Cleared :=
  Triple.bind clears_tcDown fun _ => Triple.bind clears_routingDown fun _ => clears_chainDown

end Clearing

section Keeping

variable {behaves : String → DelRun → NodeState → String → Reply × NodeState}
  {base : List Forward} {table : Bool} {snap : Snapshot} {run : Rollback} {h : Host}

/-- From a kempt host to a kempt host. -/
abbrev KeepsHost (base : List Forward) (table : Bool) (P : Host → Prop) (m : Sh Host Unit)
    (Q : Host → Prop) : Prop :=
  Triple true (fun _ => True) (fun p => Kempt base table p.node ∧ P p.node) m
    (fun _ p => Kempt base table p.node ∧ Q p.node) (fun p => Kempt base table p.node)

lemma keeps_delPeers (keys : List String) :
    KeepsHost base table (fun _ => True) (delPeers behaves run keys) fun _ => True := by
  induction keys with
  | nil => exact Triple.pure fun p hp => hp
  | cons key keys ih =>
    exact Triple.bind (R := fun _ p => Kempt base table p.node ∧ True) (Triple.call (fun _ _ => trivial)
      (fun p hp _ => ⟨⟨hp.1.kept, hp.1.table, hp.1.cleared⟩, trivial⟩)
      fun p hp _ => ⟨hp.1.kept, hp.1.table, hp.1.cleared⟩) fun _ => ih

lemma keeps_peersOff : KeepsHost base table (fun _ => True) (peersOff behaves run) fun _ => True := by
  refine Triple.bind (R := fun _ p => Kempt base table p.node ∧ True) (Triple.look fun p hp => hp)
    fun h => ?_
  cases h.node.awg with
  | none => exact Triple.pure fun p hp => hp
  | some shown =>
    refine Triple.bind (R := fun _ p => Kempt base table p.node ∧ True)
      (Triple.status (fun _ p hp => hp) fun _ p hp => hp.1) fun _ => ?_
    split
    · exact Triple.pure fun p hp => hp
    · exact Triple.bind (R := fun _ p => Kempt base table p.node ∧ True)
        (Triple.status (fun _ p hp => hp) fun _ p hp => hp.1) fun _ => keeps_delPeers _

variable (hbase : .jump ∉ base)

include hbase

lemma keeps_netDown : KeepsHost base table (fun h => h.script = true) (netDown run)
    fun h => h.script = true ∧ Cleared h.node := by
  refine Triple.zoom (J := fun n => Kept base n ∧ True) (fun p hp => ?_) fun _ _ _ _ => trivial
  have hdown := along_takeDown.triple sameTable_trans ((keeps_takeDown hbase).and clears_takeDown)
    p.node.node
  have hkempt : ∀ n, Kept base n → SameTable p.node.node n →
      Kempt base table { p.node with node := n } :=
    fun n hn htable => ⟨hn, htable.trans hp.1.table, fun hno => absurd (hp.2.symm.trans hno) (by simp)⟩
  refine (Triple.bind (R := fun _ q => (Kept base q.node ∧ True) ∧ SameTable p.node.node q.node)
    (Triple.status (fun _ q hq => hq) fun _ q hq => hq) fun _ => hdown).conseq (fun q hq => ?_)
    (fun _ q hq => ⟨hkempt _ hq.1.1 hq.2, hp.2, hq.1.2⟩) fun q hq => hkempt _ hq.1.1 hq.2
  subst hq
  exact ⟨⟨hp.1.kept, trivial⟩, sameTable_refl _⟩

lemma keeps_stopNet : KeepsHost base table (fun _ => True) (stopNet run) fun h => Cleared h.node := by
  refine Triple.bind (R := fun _ p => Kempt base table p.node ∧ True) ?_ fun _ => ?_
  · refine Triple.ifRead (Triple.orTrue (Triple.ifRead ((keeps_netDown hbase).conseq (fun p hp => ?_)
      (fun _ p hp => ⟨hp.1, trivial⟩) fun p hp => ⟨hp, trivial⟩) fun p hp _ => hp.1)) fun p hp _ => hp
    exact ⟨hp.1.1.1, (Bool.and_eq_true_iff.mp hp.2).2⟩
  · exact Triple.ifRead ((keeps_netDown hbase).conseq (fun p hp => ⟨hp.1.1, hp.2⟩)
      (fun _ p hp => ⟨hp.1, hp.2.2⟩) fun p hp => hp) fun p hp hno => ⟨hp.1, hp.1.cleared hno⟩

omit hbase

/-- The files are gone, whichever of them could be removed before. -/
lemma keeps_removeFiles : KeepsHost base table (fun h => Cleared h.node) removeFiles fun h =>
    Cleared h.node ∧ h.unit = false ∧ h.script = false ∧ h.conf = false ∧ h.node.file = none := by
  refine Triple.bind (R := fun done p => (Kempt base table p.node ∧ Cleared p.node.node) ∧
    (done = true → p.node.unit = false)) ?_ fun unit => ?_
  · exact Triple.attempt (fun _ _ => trivial)
      (fun p s hp hf => by
        obtain rfl := Option.some.inj hf
        exact ⟨trivial, ⟨⟨hp.1.kept, hp.1.table, hp.1.cleared⟩, hp.2⟩, fun _ => rfl⟩)
      (fun p hp _ => ⟨hp, by simp⟩) fun _ p hp _ => ⟨hp, by simp⟩
  refine Triple.bind (R := fun done p => (Kempt base table p.node ∧ Cleared p.node.node) ∧
    (unit = true → p.node.unit = false) ∧ (done = true → p.node.script = false)) ?_ fun script => ?_
  · exact Triple.attempt (fun _ _ => trivial)
      (fun p s hp hf => by
        obtain rfl := Option.some.inj hf
        exact ⟨trivial, ⟨⟨hp.1.1.kept, hp.1.1.table, fun _ => hp.1.2⟩, hp.1.2⟩, hp.2, fun _ => rfl⟩)
      (fun p hp _ => ⟨hp.1, hp.2, by simp⟩) fun _ p hp _ => ⟨hp.1, hp.2, by simp⟩
  refine Triple.bind (R := fun done p => (Kempt base table p.node ∧ Cleared p.node.node) ∧
    ((unit = true → p.node.unit = false) ∧ (script = true → p.node.script = false)) ∧
    (done = true → p.node.node.file = none)) ?_ fun state => ?_
  · refine Triple.attempt (fun _ _ => trivial) (fun p s hp hf => ?_) (fun p hp _ => ⟨hp.1, hp.2, by simp⟩)
      fun _ p hp _ => ⟨hp.1, hp.2, by simp⟩
    obtain rfl := Option.some.inj hf
    have hcleared : Cleared { p.node.node with file := none } :=
      ⟨hp.1.2.addr, hp.1.2.mangle, hp.1.2.forward, hp.1.2.chain, hp.1.2.root, hp.1.2.ingress⟩
    exact ⟨trivial, ⟨⟨hp.1.1.kept.beside ⟨rfl, rfl, rfl⟩, hp.1.1.table, fun _ => hcleared⟩, hcleared⟩,
      hp.2, fun _ => rfl⟩
  refine Triple.bind (R := fun done p => (Kempt base table p.node ∧ Cleared p.node.node) ∧
    (((unit = true → p.node.unit = false) ∧ (script = true → p.node.script = false)) ∧
      (state = true → p.node.node.file = none)) ∧ (done = true → p.node.conf = false)) ?_ fun conf => ?_
  · exact Triple.attempt (fun _ _ => trivial)
      (fun p s hp hf => by
        obtain rfl := Option.some.inj hf
        exact ⟨trivial, ⟨⟨hp.1.1.kept, hp.1.1.table, hp.1.1.cleared⟩, hp.1.2⟩, hp.2, fun _ => rfl⟩)
      (fun p hp _ => ⟨hp.1, hp.2, by simp⟩) fun _ p hp _ => ⟨hp.1, hp.2, by simp⟩
  refine Triple.status (fun hall p hp => ?_) fun _ p hp => hp.1.1
  simp only [Bool.and_eq_true] at hall
  exact ⟨hp.1.1, hp.1.2, hp.2.1.1.1 hall.1.1.1, hp.2.1.1.2 hall.1.1.2, hp.2.2 hall.2, hp.2.1.2 hall.1.2⟩

include hbase

/-- One rollback, whichever commands fail. -/
lemma keeps_rollback : KeepsHost base table (fun _ => True) (rollback behaves run snap) fun h =>
    (Cleared h.node ∧ h.unit = false ∧ h.script = false ∧ h.conf = false ∧ h.node.file = none) ∧
      snap.same h = true := by
  refine Triple.bind keeps_peersOff fun _ => Triple.bind (keeps_stopNet hbase) fun _ => ?_
  have hkeep : ∀ g : Host → Host, (∀ h, (g h).node = h.node ∧ (g h).script = h.script) →
      KeepsHost base table (fun h => Cleared h.node) (act fun h => some (g h))
        fun h => Cleared h.node := by
    intro g hg
    refine Triple.act (fun _ _ => trivial) (fun p s hp hf => ?_) fun p hp _ => hp.1
    obtain rfl := Option.some.inj hf
    obtain ⟨hnode, hscript⟩ := hg p.node
    refine ⟨trivial, ⟨hnode ▸ hp.1.kept, hnode ▸ hp.1.table, fun _ => hnode ▸ hp.2⟩, ?_⟩
    show Cleared (g p.node).node
    rw [hnode]
    exact hp.2
  refine Triple.bind (hkeep _ fun _ => ⟨rfl, rfl⟩) fun _ =>
    Triple.bind (hkeep _ fun _ => ⟨rfl, rfl⟩) fun _ => Triple.bind keeps_removeFiles fun _ => ?_
  refine Triple.bind (R := fun same p => (Kempt base table p.node ∧ Cleared p.node.node ∧
    p.node.unit = false ∧ p.node.script = false ∧ p.node.conf = false ∧ p.node.node.file = none) ∧
      snap.same p.node = same) (Triple.look fun p hp => ⟨hp, rfl⟩) fun same => ?_
  refine Triple.status (fun hsame p hp => ⟨hp.1.1, hp.1.2, ?_⟩) fun _ p hp => hp.1.1
  rw [hp.2, hsame]

omit hbase in
/-- What is known of the rollback is known of its end. -/
lemma Rollback.ends {faulty : Bool} {P E : Point Host → Prop} {Q : Unit → Point Host → Prop}
    (hm : Triple faulty (fun _ => True) P (rollback behaves run snap) Q E) (hp : P ⟨h, false⟩)
    (hfaults : faulty = false → NoFault run.faults) :
    ((run.on behaves snap h).1 = some () ∧ Q () (run.on behaves snap h).2.point) ∨
      ((run.on behaves snap h).1 = none ∧ E (run.on behaves snap h).2.point) := by
  have hends := hm { point := ⟨h, false⟩, faults := run.faults, seen := [h] }
    ⟨fun _ _ => trivial, hfaults⟩ hp
  unfold Rollback.on
  rcases hrun : rollback behaves run snap { point := ⟨h, false⟩, faults := run.faults, seen := [h] }
    with ⟨_ | u, w⟩ <;> rw [hrun] at hends
  · exact .inr ⟨rfl, hends.2⟩
  · exact .inl ⟨rfl, hends.2⟩

lemma Kempt.rolled (hk : Kempt base table h) :
    Kempt base table (run.on behaves snap h).2.point.node := by
  have hrun : KeepsHost base table (fun _ => True) (TrialNet.rollback behaves run snap) _ :=
    keeps_rollback hbase
  rcases Rollback.ends hrun ⟨hk, trivial⟩ (by simp) with ⟨-, hend⟩ | ⟨-, hend⟩
  · exact hend.1
  · exact hend

/-- **Every event keeps the host kempt**, whichever commands fail. -/
lemma Kempt.after (hk : Kempt base table h) (e : Event) :
    Kempt base table (e.after behaves snap h) := by
  cases e with
  | invoke i =>
    cases hscript : h.script with
    | true =>
      simp only [Event.after, hscript, if_true]
      refine ⟨(invoke_kept hbase i hk.kept).2, ?_, fun hno => absurd hno (by simp)⟩
      exact (along_script i (i.start h.node)).trans hk.table
    | false =>
      simp only [Event.after, hscript, Bool.false_eq_true, if_false]
      exact hk
  | install addPeer delPeer =>
    exact ⟨hk.kept.beside ⟨rfl, rfl, rfl⟩, hk.table, fun hno => absurd hno (by simp [Event.after])⟩
  | peers p => exact ⟨hk.kept, hk.table, hk.cleared⟩
  | rollback run => exact hk.rolled hbase

lemma hostAfter_kempt (hk : Kempt base table h) (events : List Event) :
    Kempt base table (hostAfter behaves snap events h) := by
  induction events generalizing h with
  | nil => exact hk
  | cons e events ih => exact ih (hk.after hbase e)

end Keeping

/-! ### Without a failure -/

/-- Without a failing command `m` reaches its end, and turns the host `h` into `t`. -/
abbrev Goes (h : Host) (m : Sh Host Unit) (t : Host) : Prop :=
  Triple false (fun _ => True) (fun p => p.node = h) m (fun _ p => p.node = t) (fun _ => False)

section Clean

variable {behaves : String → DelRun → NodeState → String → Reply × NodeState}
  {snap : Snapshot} {run : Rollback} {h t u : Host}

/-- What follows a script that does not fail. -/
lemma Goes.bind {m m' : Sh Host Unit} {Q : Unit → Point Host → Prop} {E : Point Host → Prop}
    (hm : Goes h m t) (hm' : Triple false (fun _ => True) (fun p => p.node = t) m' Q E) :
    Triple false (fun _ => True) (fun p => p.node = h) (m >>= fun _ => m') Q E :=
  Triple.bind (hm.conseq (fun _ hp => hp) (fun _ _ hq => hq) fun _ he => he.elim) fun _ => hm'

lemma Goes.pure (h : Host) : Goes h (pure ()) h := Triple.pure fun _ hp => hp

lemma Goes.act (g : Host → Host) (h : Host) : Goes h (Shell.act fun h => some (g h)) (g h) :=
  Triple.act (fun _ _ => trivial) (fun p s hp hf => ⟨trivial, by rw [← hp]; exact (Option.some.inj hf).symm⟩)
    fun p hp hno => hno.elim (fun h => absurd h (by simp)) fun h => absurd h (by simp)

lemma Goes.status {ok : Bool} (h : Host) (hok : ok = true) : Goes h (Shell.status ok) h :=
  Triple.status (fun _ _ hp => hp) fun hno => absurd (hok.symm.trans hno) (by simp)

/-- The wrapper has taken the keys off, one by one. -/
lemma goes_delPeers (hnew : behaves h.delPeer = pwaDelPeer) {keys : List String} (hnodup : keys.Nodup)
    (hheld : ∀ key ∈ keys, Held h.peers key ∧ (run.del key).sets = true) :
    ∃ p, Goes h (delPeers behaves run keys) { h with peers := p } ∧
      p.runtime = h.peers.runtime.filter (·.key ∉ keys) := by
  induction keys generalizing h with
  | nil => exact ⟨h.peers, Goes.pure h, (List.filter_eq_self.mpr (by simp)).symm⟩
  | cons key keys ih =>
    obtain ⟨hkey, hsets⟩ := hheld key List.mem_cons_self
    have hok := (pwaDelPeer_held hkey hsets).1
    obtain ⟨hnot, hnodup'⟩ := List.nodup_cons.mp hnodup
    obtain ⟨p, hp, hruntime⟩ := ih (h := { h with peers := (pwaDelPeer (run.del key) h.peers key).2 })
      hnew hnodup' fun k hk => by
        obtain ⟨hk', hsets'⟩ := hheld k (List.mem_cons_of_mem _ hk)
        exact ⟨hk'.of_other (fun heq => hnot (by rwa [← heq])) _, hsets'⟩
    refine ⟨p, Goes.bind ?_ hp, ?_⟩
    · refine Triple.call (fun _ _ => trivial) (fun q hq _ => ?_) fun q hq hno => ?_
      · show { q.node with peers := (behaves q.node.delPeer (run.del key) q.node.peers key).2 } = _
        rw [hq, hnew]
      · rw [hq, hnew] at hno
        simp [hok] at hno
    · have hdone := (pwaDelPeer_runtime (run.del key) h.peers key).resolve_right
        fun hrefused => by rw [hok] at hrefused; obtain ⟨⟨_, hreason⟩, -⟩ := hrefused; cases hreason
      rw [hruntime]
      show (pwaDelPeer (run.del key) h.peers key).2.runtime.filter _ = _
      rw [hdone.2, List.filter_filter]
      refine List.filter_congr fun e _ => ?_
      rw [← Bool.decide_and]
      exact decide_eq_decide.mpr (by simp [and_comm])

/-- Whether step 1 gets through: there are no trial peers, or they may go and the wrapper
can remove them. -/
def Removable (behaves : String → DelRun → NodeState → String → Reply × NodeState) (run : Rollback)
    (h : Host) : Prop :=
  trialKeys h.peers.runtime = [] ∨ run.removePeers = true ∧ behaves h.delPeer = pwaDelPeer ∧
    ∀ key ∈ trialKeys h.peers.runtime, Held h.peers key ∧ (run.del key).sets = true

lemma goes_peersOff (hawg : h.node.awg = some true) (hnodup : (h.peers.runtime.map PeerEntry.key).Nodup)
    (hrem : Removable behaves run h) :
    ∃ p, Goes h (peersOff behaves run) { h with peers := p } ∧
      p.runtime = h.peers.runtime.filter (!isTrial ·) := by
  have hlook : ∀ t, Goes h (do
      status true
      if trialKeys h.peers.runtime = [] then Pure.pure ()
      else do
        status run.removePeers
        delPeers behaves run (trialKeys h.peers.runtime)) t → Goes h (peersOff behaves run) t := by
    intro t ht
    refine Triple.bind (R := fun g p => p.node = h ∧ g = h) (Triple.look fun p hp => ⟨hp, hp⟩) fun g => ?_
    intro w hw hp
    obtain ⟨hp, rfl⟩ := hp
    simp only [hawg]
    exact ht w hw hp
  by_cases hkeys : trialKeys h.peers.runtime = []
  · have hnone : ∀ e ∈ h.peers.runtime, isTrial e = false := by
      intro e he
      by_contra htrial
      have hmem : e ∈ h.peers.runtime.filter isTrial :=
        List.mem_filter.mpr ⟨he, by simpa using htrial⟩
      rw [trialKeys, List.map_eq_nil_iff] at hkeys
      rw [hkeys] at hmem
      cases hmem
    refine ⟨h.peers, hlook _ ?_, (List.filter_eq_self.mpr fun e he => by simp [hnone e he]).symm⟩
    rw [if_pos hkeys]
    exact (Goes.status h rfl).bind (Goes.pure h)
  · obtain ⟨hflag, hnew, hheld⟩ := hrem.resolve_left hkeys
    have hsub : (trialKeys h.peers.runtime).Nodup := hnodup.sublist (List.filter_sublist.map _)
    obtain ⟨p, hp, hruntime⟩ := goes_delPeers hnew hsub hheld
    refine ⟨p, hlook _ ?_, ?_⟩
    · rw [if_neg hkeys]
      exact (Goes.status h rfl).bind ((Goes.status h hflag).bind hp)
    · -- a key that is a trial peer's is no other peer's
      rw [hruntime]
      refine List.filter_congr fun e he => ?_
      have hiff : e.key ∈ trialKeys h.peers.runtime ↔ isTrial e = true := by
        constructor
        · intro hmem
          obtain ⟨x, hx, hkey⟩ := List.mem_map.mp hmem
          obtain ⟨hx, htrial⟩ := List.mem_filter.mp hx
          rw [← List.inj_on_of_nodup_map hnodup hx he hkey]
          exact htrial
        · exact fun htrial => List.mem_map_of_mem (List.mem_filter.mpr ⟨he, htrial⟩)
      cases htrial : isTrial e <;> simp [hiff, htrial]

lemma goes_netDown (hready : run.ready = true) :
    Goes h (netDown run) { h with node := h.node.bared } := by
  refine Triple.zoom (J := fun _ => True) (fun p hp => ?_) fun _ _ _ _ => trivial
  subst hp
  have hdown : Turns p.node.node (script ⟨.down, {}, run.ready, []⟩) p.node.node.bared :=
    Turns.bind (Triple.status (fun _ _ hq => hq) fun hno => absurd (hready.symm.trans hno) (by simp))
      (turns_takeDown _)
  refine hdown.conseq (fun q hq => by rw [hq]) (fun _ q hq => ?_) fun _ hq => hq
  show { p.node with node := q.node } = _
  rw [show q.node = p.node.node.bared from hq]

lemma bared_bared (n : Node) : n.bared.bared = n.bared := by
  simp [Node.bared]

/-- What step 2 leaves. -/
def Host.stopped (h : Host) : Host := if h.script then { h with node := h.node.bared } else h

lemma goes_ifRead {g : Host → Bool} {m : Sh Host Unit} (hm : g h = true → Goes h m t)
    (hno : g h = false → t = h) : Goes h (ifRead g m) t := by
  refine Triple.ifRead ?_ fun p hp hg => ?_
  · cases hg : g h with
    | true => exact (hm hg).conseq (fun p hp => hp.1) (fun _ _ hq => hq) (fun _ he => he)
    | false => exact fun w _ hp => absurd hp.2 (by simp [hp.1, hg])
  · rw [hp, hno (hp ▸ hg)]

lemma goes_stopNet (hready : run.ready = true) : Goes h (stopNet run) h.stopped := by
  cases hscript : h.script with
  | false =>
    have hstopped : h.stopped = h := by simp [Host.stopped, hscript]
    rw [hstopped]
    refine Goes.bind (t := h) (goes_ifRead (fun _ => Triple.orTrue ?_) fun _ => rfl)
      (goes_ifRead (fun hyes => absurd (hyes.symm.trans hscript) (by simp)) fun _ => rfl)
    exact (goes_ifRead (t := h) (fun hyes => absurd hyes (by simp [hscript])) fun _ => rfl).conseq
      (fun _ hp => hp) (fun _ _ hq => hq) fun _ he => he.elim
  | true =>
    have hstopped : h.stopped = { h with node := h.node.bared } := by simp [Host.stopped, hscript]
    rw [hstopped]
    -- `ExecStop` may have taken the subnet down before
    have hfirst : Triple false (fun _ => True) (fun p => p.node = h)
        (ifRead Host.unit (orTrue (ifRead (fun h => run.stops && h.script) (netDown run))))
        (fun _ p => p.node = h ∨ p.node = { h with node := h.node.bared }) (fun _ => False) := by
      refine Triple.ifRead (Triple.orTrue (Triple.ifRead ((goes_netDown (h := h) hready).conseq
        (fun p hp => hp.1.1) (fun _ _ hq => .inr hq) fun _ he => he.elim) fun p hp _ => .inl hp.1))
        fun p hp _ => .inl hp
    refine Triple.bind hfirst fun _ => fun w hw hp => ?_
    rcases hp with hp | hp
    · exact goes_ifRead (fun _ => goes_netDown hready) (fun hno => absurd (hscript.symm.trans hno) (by simp))
        w hw hp
    · have hagain : Goes { h with node := h.node.bared } (netDown run)
          { h with node := h.node.bared.bared } := goes_netDown hready
      rw [bared_bared] at hagain
      exact goes_ifRead (fun _ => hagain) (fun hno => absurd (hscript.symm.trans hno) (by simp)) w hw hp

lemma goes_removeFiles : Goes h removeFiles
    { h with unit := false, script := false, node := { h.node with file := none }, conf := false } := by
  have hattempt : ∀ (g : Host → Host) (h : Host), Triple false (fun _ => True) (fun p => p.node = h)
      (attempt fun h => some (g h)) (fun done p => p.node = g h ∧ done = true) (fun _ => False) :=
    fun g h => Triple.attempt (fun _ _ => trivial)
      (fun p s hp hf => ⟨trivial, by rw [← hp]; exact (Option.some.inj hf).symm, rfl⟩)
      (fun p _ hno => absurd hno (by simp)) (fun hno => absurd hno (by simp))
  refine Triple.bind (hattempt _ h) fun unit => fun w hw hp => ?_
  obtain ⟨hp, rfl⟩ := hp
  refine Triple.bind (hattempt _ _) (fun script => fun w hw hp => ?_) w hw hp
  obtain ⟨hp, rfl⟩ := hp
  refine Triple.bind (hattempt _ _) (fun state => fun w hw hp => ?_) w hw hp
  obtain ⟨hp, rfl⟩ := hp
  refine Triple.bind (hattempt _ _) (fun conf => fun w hw hp => ?_) w hw hp
  obtain ⟨hp, rfl⟩ := hp
  exact Goes.status _ rfl w hw hp

/-- What a rollback leaves without a failure, with these peers. -/
def Host.rolledBack (snap : Snapshot) (p : NodeState) (h : Host) : Host :=
  ⟨{ h.stopped.node with file := none }, p, snap.addPeer, snap.delPeer, false, false, false⟩

/-- A rollback without a failure gets to its comparison. -/
lemma goes_rollback (snap : Snapshot) (hready : run.ready = true) (hawg : h.node.awg = some true)
    (hnodup : (h.peers.runtime.map PeerEntry.key).Nodup) (hrem : Removable behaves run h) :
    ∃ p, p.runtime = h.peers.runtime.filter (!isTrial ·) ∧
      Triple false (fun _ => True) (fun q => q.node = h) (rollback behaves run snap)
        (fun _ q => q.node = h.rolledBack snap p ∧ snap.same q.node = true)
        (fun q => q.node = h.rolledBack snap p ∧ snap.same q.node = false) := by
  obtain ⟨p, hpeers, hruntime⟩ := goes_peersOff hawg hnodup hrem
  have hstopped : ({ h with peers := p } : Host).stopped = { h.stopped with peers := p } := by
    unfold Host.stopped
    split <;> rfl
  have hstop : Goes { h with peers := p } (stopNet run) { h.stopped with peers := p } :=
    hstopped ▸ goes_stopNet hready
  refine ⟨p, hruntime, hpeers.bind (hstop.bind ((Goes.act (fun h => { h with addPeer := snap.addPeer }) _).bind
    ((Goes.act (fun h => { h with delPeer := snap.delPeer }) _).bind (goes_removeFiles.bind ?_))))⟩
  refine Triple.bind (R := fun same q => q.node = h.rolledBack snap p ∧ snap.same q.node = same)
    (Triple.look fun q hq => ⟨hq, rfl⟩) fun same => ?_
  exact Triple.status (fun hsame q hq => ⟨hq.1, hq.2.trans hsame⟩) fun hsame q hq => ⟨hq.1, hq.2.trans hsame⟩

end Clean

/-! ### Every run -/

section Main

variable {behaves : String → DelRun → NodeState → String → Reply × NodeState} {h₀ h : Host} {run : Rollback}

/-- A node that looks as a bare one did is bare, if nothing but the rule was in question. -/
lemma Cleared.bare {n n₀ : Node} (hn : Cleared n) (h₀ : Bare n₀) (h : captureState n = captureState n₀) :
    Bare n :=
  ⟨hn.addr, hn.mangle, (congrArg Captured.rules h).trans h₀.rules, hn.forward, hn.chain, hn.root, hn.ingress⟩

/-- Two bare nodes that differ in nothing of the others look the same. -/
lemma Bare.capture_eq {n n₀ : Node} (h : Bare n) (h₀ : Bare n₀) (hforward : n.forward = n₀.forward)
    (htable : n.default200 = n₀.default200) : captureState n = captureState n₀ := by
  simp [captureState, h.mangle, h₀.mangle, hforward, h.chain, h₀.chain, h.rules, h₀.rules, htable,
    h.addr, h₀.addr, h.root, h₀.root, h.ingress, h₀.ingress]

lemma Snapshot.same_iff {snap : Snapshot} : snap.same h = true ↔
    captureState h.node = snap.captured ∧ h.addPeer = snap.addPeer ∧ h.delPeer = snap.delPeer := by
  simp [Snapshot.same, and_assoc]

/-- **When the comparison finds the same**: the script was there to take the subnet down,
or its rule was gone. -/
lemma same_rolledBack (hbare : Bare h₀.node)
    (hk : Kempt h₀.node.forward h₀.node.default200 h) (p : NodeState) :
    (snapshot h₀).same (h.rolledBack (snapshot h₀) p) = true ↔ h.script = true ∨ h.node.rules = 0 := by
  have hiff : (snapshot h₀).same (h.rolledBack (snapshot h₀) p) = true ↔
      captureState { h.stopped.node with file := none } = captureState h₀.node :=
    Snapshot.same_iff.trans (and_iff_left ⟨rfl, rfl⟩)
  rw [hiff]
  cases hscript : h.script with
  | true =>
    have hstopped : h.stopped.node = h.node.bared := by simp [Host.stopped, hscript]
    rw [hstopped]
    have hbared : Bare { h.node.bared with file := none } :=
      ⟨rfl, rfl, rfl, by simp [Node.bared], rfl, rfl, rfl⟩
    refine iff_of_true (hbared.capture_eq hbare ?_ hk.table) (.inl rfl)
    -- the rules of the others are those of the snapshot
    have hfilter : h₀.node.forward.filter (· ≠ .jump) = h₀.node.forward :=
      List.filter_eq_self.mpr fun r hr => by simpa using fun heq : r = .jump => hbare.forward (heq ▸ hr)
    rcases hk.kept.forward with hf | hf
    · show h.node.forward.filter (· ≠ .jump) = _
      rw [hf, hfilter]
    · show h.node.forward.filter (· ≠ .jump) = _
      rw [hf, List.filter_cons_of_neg (by simp), hfilter]
  | false =>
    have hstopped : h.stopped.node = h.node := by simp [Host.stopped, hscript]
    have hcleared := hk.cleared hscript
    rw [hstopped]
    constructor
    · exact fun hsame => .inr ((congrArg Captured.rules hsame).trans hbare.rules)
    · intro hrules
      have hrules : h.node.rules = 0 := hrules.resolve_left (by simp)
      have hforward : h.node.forward = h₀.node.forward :=
        hk.kept.forward.resolve_right fun hf => hcleared.forward (hf ▸ List.mem_cons_self)
      exact Bare.capture_eq (n := h.node) ⟨hcleared.addr, hcleared.mangle, hrules, hcleared.forward,
        hcleared.chain, hcleared.root, hcleared.ingress⟩ hbare hforward hk.table

/-- Trial peers that may not be removed end the rollback before it has begun. -/
lemma refuses_peersOff (hkeys : trialKeys h.peers.runtime ≠ []) (hflag : run.removePeers = false)
    (hawg : h.node.awg ≠ none) : Triple true (fun _ => True) (fun q => q.node = h) (peersOff behaves run)
      (fun _ _ => False) (fun q => q.node = h) := by
  refine Triple.bind (R := fun g q => q.node = h ∧ g = h) (Triple.look fun q hq => ⟨hq, hq⟩) fun g => ?_
  intro w hw hq
  obtain ⟨hq, rfl⟩ := hq
  obtain ⟨shown, hshown⟩ := Option.ne_none_iff_exists'.mp hawg
  simp only [hshown, if_neg hkeys]
  exact Triple.bind (R := fun _ q => q.node = g) (Triple.status (fun _ _ hq => hq) fun _ _ hq => hq)
    (fun _ => Triple.bind (R := fun _ _ => False) (Triple.status
      (fun hyes => absurd (hflag.symm.trans hyes) (by simp)) fun _ _ hq => hq)
      fun _ _ _ hfalse => hfalse.elim) w hw hq

/-- **The way back.** From a snapshot of a node without the subnet, through any calls of
`sovrn-trial-net`, installations, changes of the peers and rollbacks, whichever commands of
them failed: `ROLLBACK OK` means that the node is as it was. A rollback in which no command
fails ends so exactly if the script was still there or its rule was gone, with the trial
peers off and the others on. One that may not remove trial peers does nothing. -/
theorem rollback_exact (hbare : Bare h₀.node) (events : List Event) (run : Rollback)
    (hh : hostAfter behaves (snapshot h₀) events h₀ = h) :
    ((run.on behaves (snapshot h₀) h).1 = some () →
      Bare (run.on behaves (snapshot h₀) h).2.point.node.node ∧
      (snapshot h₀).same (run.on behaves (snapshot h₀) h).2.point.node = true ∧
      (run.on behaves (snapshot h₀) h).2.point.node.unit = false ∧
      (run.on behaves (snapshot h₀) h).2.point.node.script = false) ∧
    (NoFault run.faults → run.ready = true → h.node.awg = some true →
      (h.peers.runtime.map PeerEntry.key).Nodup → Removable behaves run h →
      ((run.on behaves (snapshot h₀) h).1 = some () ↔ h.script = true ∨ h.node.rules = 0) ∧
      (run.on behaves (snapshot h₀) h).2.point.node.peers.runtime =
        h.peers.runtime.filter (!isTrial ·)) ∧
    (trialKeys h.peers.runtime ≠ [] → run.removePeers = false → h.node.awg ≠ none →
      (run.on behaves (snapshot h₀) h).1 = none ∧ (run.on behaves (snapshot h₀) h).2.point.node = h) := by
  have hk : Kempt h₀.node.forward h₀.node.default200 h := by
    rw [← hh]
    exact hostAfter_kempt hbare.forward ⟨hbare.kept, rfl, fun _ => hbare.cleared⟩ events
  refine ⟨fun hok => ?_, fun hfaults hready hawg hnodup hrem => ?_, fun hkeys hflag hawg => ?_⟩
  · have hrun : KeepsHost h₀.node.forward h₀.node.default200 (fun _ => True)
        (rollback behaves run (snapshot h₀)) _ := keeps_rollback hbare.forward
    rcases Rollback.ends hrun ⟨hk, trivial⟩ (by simp) with ⟨-, hend⟩ | ⟨hno, -⟩
    · obtain ⟨-, ⟨hcleared, hunit, hscript, -, -⟩, hsame⟩ := hend
      exact ⟨hcleared.bare hbare (Snapshot.same_iff.mp hsame).1, hsame, hunit, hscript⟩
    · exact absurd (hok.symm.trans hno) (by simp)
  · obtain ⟨p, hruntime, hrun⟩ := goes_rollback (snapshot h₀) hready hawg hnodup hrem
    have hiff := same_rolledBack hbare hk p
    rcases Rollback.ends hrun rfl (fun _ => hfaults) with ⟨hok, hend, hsame⟩ | ⟨hno, hend, hsame⟩
    · rw [hend] at hsame ⊢
      exact ⟨iff_of_true hok (hiff.mp hsame), hruntime⟩
    · rw [hend] at hsame ⊢
      refine ⟨iff_of_false (by simp [hno]) fun h => ?_, hruntime⟩
      rw [hiff.mpr h] at hsame
      cases hsame
  · have hrun : Triple true (fun _ => True) (fun q => q.node = h) (rollback behaves run (snapshot h₀))
        (fun _ _ => False) (fun q => q.node = h) :=
      Triple.bind (refuses_peersOff hkeys hflag hawg) fun _ _ _ hfalse => hfalse.elim
    rcases Rollback.ends hrun rfl (by simp) with ⟨-, hfalse⟩ | ⟨hno, hend⟩
    · exact hfalse.elim
    · exact ⟨hno, hend⟩

/-- An entry node with one customer. -/
def entryHost : Host :=
  ⟨entryNode, ⟨[⟨"anna", ["10.88.88.7/32"]⟩], none⟩, "add (July)", "del (September)", false, false, false⟩

/-- A rollback as root. -/
def wayBack (faults : List Bool) : Rollback := ⟨false, fun _ => {}, true, true, faults⟩

/-- The subnet is installed and up; the first way back fails at the root qdisc, in the unit
and after it. -/
def triedOnce : List Event :=
  [.install "add" "del", .invoke (call .up []), .rollback (wayBack [true, true])]

/-- With a trial peer on the node. -/
def onTrial : List Event := .peers ⟨[⟨"bob", ["10.88.89.3/32"]⟩], none⟩ :: triedOnce

theorem rollback_exact_tried :
    ((wayBack []).on (fun _ => pwaDelPeer) (snapshot entryHost)
      (hostAfter (fun _ => pwaDelPeer) (snapshot entryHost) triedOnce entryHost)).1 = some () ∧
    Bare ((wayBack []).on (fun _ => pwaDelPeer) (snapshot entryHost)
      (hostAfter (fun _ => pwaDelPeer) (snapshot entryHost) triedOnce entryHost)).2.point.node.node ∧
    ((wayBack []).on (fun _ => pwaDelPeer) (snapshot entryHost)
      (hostAfter (fun _ => pwaDelPeer) (snapshot entryHost) onTrial entryHost)).1 = none := by
  have hbare : Bare entryHost.node := ⟨rfl, rfl, rfl, by decide, rfl, rfl, rfl⟩
  obtain ⟨hproof, hclean, -⟩ :=
    @rollback_exact (fun _ => pwaDelPeer) entryHost _ hbare triedOnce (wayBack []) rfl
  obtain ⟨-, -, hrefused⟩ :=
    @rollback_exact (fun _ => pwaDelPeer) entryHost _ hbare onTrial (wayBack []) rfl
  have hok := (hclean (by simp [NoFault, wayBack]) rfl (by decide +kernel) (by decide +kernel)
    (.inl (by decide +kernel))).1.mpr (.inl (by decide +kernel))
  exact ⟨hok, (hproof hok).1, (hrefused (by decide +kernel) rfl (by decide +kernel)).1⟩

end Main

end VpnPortal.TrialNet
