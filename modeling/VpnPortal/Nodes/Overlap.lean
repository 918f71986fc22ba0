/-
Several runs of `pwa-add-peer` at once.

The script checks first and writes later, without a lock: between its reads and
its writes another run can do both, and the file it puts back after a failure is
the one it copied before. `pwaAddPeerSteps` is the script step by step. Runs
whose writes do not overlap are runs one after another (`serial_of_guarded`), and
then the checks hold.

* `pwaAddPeerSteps`, `runs_pwaAddPeerSteps`: alone it is `pwaAddPeer`;
* `add_peer_runs_apart`: **when no run writes beside another that is under way**, no
  address is shared at the end, the runs that said `ok:` have their peer in both places
  and the others left nothing;
* `add_peer_runs_overlap`: two runs that share an address.
-/
import VpnPortal.Nodes.Together
import VpnPortal.Sessions.Guarded

namespace VpnPortal

open Blocks Sessions

/-! ### The script step by step -/

/-- The block appended to the file. -/
def appendBlock (peer : NewPeer) (node : NodeState) : NodeState :=
  { node with conf := some (node.conf.getD [] ++ peerBlock peer) }

/-- `awg set`, if it succeeds. -/
def setPeer (peer : NewPeer) (node : NodeState) (sets : Bool) : Bool × NodeState :=
  if sets then (true, { node with runtime := awgSet node.runtime peer.publicKey peer.ip })
  else (false, node)

/-- The writes of the script: backup, append, `awg set`, and the backup put back
if that fails. -/
def writePeer (peer : NewPeer) : Proc NodeState Bool Unit Reply := do
  let backup ← Proc.look NodeState.conf
  Proc.change (appendBlock peer)
  let ok ← Proc.exchange (setPeer peer)
  if ok then pure .ok
  else do
    Proc.change fun node => { node with conf := backup }
    pure (.refused "runtime add failed; config restored")

/-- `pwa-add-peer`, one step for each read and write. The input of a step says
whether `awg set` would succeed. -/
def pwaAddPeerSteps (peer : NewPeer) : Proc NodeState Bool Unit Reply :=
  match badArgument peer with
  | some reason => pure (.refused reason)
  | none => do
      let there ← Proc.look fun node => node.conf.isSome
      if !there then pure (.refused "config not found: /etc/amnezia/amneziawg/awg0.conf")
      else do
        let peers ← Proc.look NodeState.runtime
        let ips ← Proc.look NodeState.runtime
        let conf ← Proc.look fun node => node.conf.getD []
        if runtimeHasKey peers peer.publicKey || conf.any (mentions peer.publicKey) then
          pure (.refused "peer exists (key)")
        else if runtimeHasIp ips peer.ip then pure (.refused ("ip in use: " ++ peer.ip))
        else do
          let conf ← Proc.look fun node => node.conf.getD []
          if confHasIp conf peer.ip then
            pure (.refused ("ip in use: " ++ peer.ip ++ " (config only)"))
          else writePeer peer

/-- The writes alone. -/
lemma runs_writePeer {peer : NewPeer} {node node' : NodeState} {conf : List Line}
    (hconf : node.conf = some conf) {r : Except Unit Reply}
    (h : Proc.Runs (fun _ _ => True) (writePeer peer) node r node') :
    (r = .ok .ok ∧ node' = ⟨awgSet node.runtime peer.publicKey peer.ip,
        some (conf ++ peerBlock peer)⟩)
      ∨ (r = .ok (.refused "runtime add failed; config restored") ∧ node' = node) := by
  obtain ⟨_, -, _, -, sets, -, h⟩ := h
  have hget : node.conf.getD [] = conf := by rw [hconf]; rfl
  cases sets with
  | true =>
      obtain ⟨rfl, rfl⟩ := h
      refine Or.inl ⟨rfl, ?_⟩
      simp [setPeer, appendBlock, hget]
  | false =>
      obtain ⟨_, -, rfl, rfl⟩ := h
      exact Or.inr ⟨rfl, rfl⟩

/-- **Alone, the steps are the script.** -/
lemma runs_pwaAddPeerSteps {peer : NewPeer} {node node' : NodeState} {r : Except Unit Reply}
    (h : Proc.Runs (fun _ _ => True) (pwaAddPeerSteps peer) node r node') :
    ∃ sets, (r, node') = (.ok (pwaAddPeer sets node peer).1, (pwaAddPeer sets node peer).2) := by
  unfold pwaAddPeerSteps at h
  split at h
  · rename_i reason hargs
    obtain ⟨rfl, rfl⟩ := h
    exact ⟨true, by simp [pwaAddPeer, hargs]⟩
  · rename_i hargs
    rw [Proc.runs_look] at h
    replace h := h.2
    cases hconf : node.conf with
    | none =>
        rw [hconf, if_pos (by rfl)] at h
        obtain ⟨rfl, rfl⟩ := h
        exact ⟨true, by simp [pwaAddPeer, hargs, hconf]⟩
    | some conf =>
        rw [hconf, if_neg (by simp), Proc.runs_look, Proc.runs_look, Proc.runs_look, hconf,
          Option.getD_some] at h
        replace h := h.2.2.2
        split at h
        · rename_i hkey
          obtain ⟨rfl, rfl⟩ := h
          exact ⟨true, by simp [pwaAddPeer, hargs, hconf, taken, hkey]⟩
        · rename_i hkey
          split at h
          · rename_i hip
            obtain ⟨rfl, rfl⟩ := h
            exact ⟨true, by simp [pwaAddPeer, hargs, hconf, taken, hkey, hip]⟩
          · rename_i hip
            rw [Proc.runs_look, hconf, Option.getD_some] at h
            replace h := h.2
            split at h
            · rename_i hconfip
              obtain ⟨rfl, rfl⟩ := h
              exact ⟨true, by simp [pwaAddPeer, hargs, hconf, taken, hkey, hip, hconfip]⟩
            · rename_i hconfip
              have htaken : taken node.runtime conf peer = none := by
                simp [taken, hkey, hip, hconfip]
              rcases runs_writePeer hconf h with ⟨rfl, rfl⟩ | ⟨rfl, rfl⟩
              · exact ⟨true, by simp [pwaAddPeer, hargs, hconf, htaken]⟩
              · exact ⟨false, by simp [pwaAddPeer, hargs, hconf, htaken]⟩

/-! ### Runs one after another -/

/-- No address is carried by two peers, neither in the runtime nor in the file. -/
structure OwnAddresses (node : NodeState) : Prop where
  runtime : OwnIps node.runtime
  conf : ∀ conf, node.conf = some conf → (confIps conf).Nodup

/-- The peer and its address are in both places. -/
def Carries (peer : NewPeer) (node : NodeState) : Prop :=
  ⟨peer.publicKey, [peer.ip]⟩ ∈ node.runtime ∧ ∃ conf, node.conf = some conf ∧ peerBlock peer <:+: conf

/-- The key is in neither place unless it was there before. -/
def LeftNothing (peer : NewPeer) (before node : NodeState) : Prop :=
  (∀ e ∈ node.runtime, e.key = peer.publicKey → e ∈ before.runtime)
    ∧ ∀ conf, node.conf = some conf → peer.publicKey.toList ∈ confKeys conf →
      ∃ conf₀, before.conf = some conf₀ ∧ peer.publicKey.toList ∈ confKeys conf₀

/-- What one run that is let in keeps and adds. -/
lemma pwaAddPeer_added {node : NodeState} {conf : List Line} {peer : NewPeer}
    (hconf : node.conf = some conf) (hargs : badArgument peer = none)
    (htaken : taken node.runtime conf peer = none) (hown : OwnAddresses node) :
    OwnAddresses ⟨node.runtime ++ [⟨peer.publicKey, [peer.ip]⟩], some (conf ++ peerBlock peer)⟩ := by
  obtain ⟨hruntime, hlines⟩ := taken_none htaken
  refine ⟨hown.runtime.snoc fun e he => (hruntime e he).2, ?_⟩
  rintro _ ⟨⟩
  exact confIps_nodup_add (hown.conf conf hconf) hargs fun l hl => (hlines l hl).2

section Serial

variable {κ : Type} {peers : κ → NewPeer} {node₀ : NodeState}

/-- The node after the runs of the list, one after another. -/
structure AfterRuns (peers : κ → NewPeer) (node₀ : NodeState) (l : List (κ × Except Unit Reply))
    (node : NodeState) : Prop where
  own : OwnAddresses node
  carries : ∀ k, (k, .ok .ok) ∈ l → Carries (peers k) node
  nothing : ∀ peer : NewPeer, (∀ k, (k, .ok .ok) ∈ l → (peers k).publicKey ≠ peer.publicKey) →
    LeftNothing peer node₀ node

/-- **One more run.** -/
lemma AfterRuns.step {l : List (κ × Except Unit Reply)} {node : NodeState}
    (h : AfterRuns peers node₀ l node) (k : κ) (sets : Bool) :
    AfterRuns peers node₀ (l ++ [(k, .ok (pwaAddPeer sets node (peers k)).1)])
      (pwaAddPeer sets node (peers k)).2 := by
  rcases pwaAddPeer_cases sets node (peers k) with
    ⟨reason, hrun⟩ | ⟨-, hargs, conf, hconf, htaken, hrun⟩
  · -- refused: the node is as it was, and the run is not among those let in
    rw [hrun]
    have hmem : ∀ m, (m, Except.ok (ε := Unit) Reply.ok) ∈ l ++ [(k, .ok (.refused reason))] ↔
        (m, Except.ok Reply.ok) ∈ l := by
      intro m
      simp
    exact ⟨h.own, fun m hm => h.carries m ((hmem m).mp hm),
      fun peer hpeer => h.nothing peer fun m hm => hpeer m ((hmem m).mpr hm)⟩
  · rw [hrun]
    refine ⟨pwaAddPeer_added hconf hargs htaken h.own, fun m hm => ?_, fun peer hpeer => ?_⟩
    · rcases List.mem_append.mp hm with hm | hm
      · obtain ⟨hruntime, lines, hlines, hblock⟩ := h.carries m hm
        obtain rfl := Option.some.inj (hlines.symm.trans hconf)
        exact ⟨List.mem_append_left _ hruntime, _, rfl,
          hblock.trans (List.prefix_append _ _).isInfix⟩
      · obtain rfl := (Prod.mk.inj (List.mem_singleton.mp hm)).1
        exact ⟨List.mem_append_right _ (List.mem_singleton_self _), _, rfl,
          (List.suffix_append _ _).isInfix⟩
    · have hne : (peers k).publicKey ≠ peer.publicKey := hpeer k (by simp)
      obtain ⟨hruntime, hfile⟩ := h.nothing peer fun m hm => hpeer m (List.mem_append_left _ hm)
      refine ⟨fun e he hkey => ?_, ?_⟩
      · rcases List.mem_append.mp he with he | he
        · exact hruntime e he hkey
        · rw [List.mem_singleton.mp he] at hkey
          exact absurd hkey hne
      · rintro _ ⟨⟩ hkey
        rw [confKeys_append, confKeys_peerBlock hargs] at hkey
        rcases List.mem_append.mp hkey with hkey | hkey
        · exact hfile conf hconf hkey
        · have heq : peer.publicKey.toList = (peers k).publicKey.toList := by simpa using hkey
          exact absurd (String.toList_inj.mp heq).symm hne

/-- **Runs one after another.** -/
lemma afterRuns_of_serial (hown : OwnAddresses node₀) {l : List (κ × Except Unit Reply)}
    {node : NodeState} (h : SerialRuns (fun k => pwaAddPeerSteps (peers k)) node₀ l node) :
    AfterRuns peers node₀ l node := by
  induction h with
  | nil =>
      exact ⟨hown, fun k hk => absurd hk List.not_mem_nil,
        fun peer _ => ⟨fun e he _ => he, fun conf hconf hkey => ⟨conf, hconf, hkey⟩⟩⟩
  | snoc _ hrun ih =>
      obtain ⟨sets, heq⟩ := runs_pwaAddPeerSteps hrun
      obtain ⟨rfl, rfl⟩ := Prod.mk.inj heq
      exact ih.step _ sets

/-- A run that printed `ok:` has changed the node. -/
lemma not_ok_of_unchanged {peer : NewPeer} {node : NodeState} {r : Except Unit Reply}
    (h : Proc.Runs (fun _ _ => True) (pwaAddPeerSteps peer) node r node) : r ≠ .ok .ok := by
  rintro rfl
  obtain ⟨sets, heq⟩ := runs_pwaAddPeerSteps h
  obtain ⟨hok, hnode⟩ := Prod.mk.inj heq
  rcases pwaAddPeer_cases sets node peer with ⟨reason, hrun⟩ | ⟨-, -, conf, -, -, hrun⟩
  · rw [hrun] at hok
    cases hok
  · rw [hrun] at hnode
    have hlength := congrArg (fun n : NodeState => n.runtime.length) hnode
    simp at hlength

end Serial

/-! ### Runs at once -/

/-- The runs of `pwa-add-peer` on a node, none of them begun. -/
def addPeerRuns {κ : Type} (node : NodeState) (peers : κ → NewPeer) :
    Cfg κ NodeState Bool Unit Reply where
  state := node
  pool k := pwaAddPeerSteps (peers k)

/-- Addresses are unique, and every run that has ended did what it printed. -/
structure RunsDone {κ : Type} (peers : κ → NewPeer) (before : NodeState)
    (c : Cfg κ NodeState Bool Unit Reply) : Prop where
  own : OwnAddresses c.state
  ok : ∀ k, c.Ended k (.ok .ok) → Carries (peers k) c.state
  failed : ∀ k r, c.Ended k r → r ≠ .ok .ok → LeftNothing (peers k) before c.state

/-- **Runs that write apart from each other.** When a run writes only while every
other one has not begun or has exited, no address is shared at the end, the runs
that printed `ok:` have their peer in both places and the others left nothing. -/
theorem add_peer_runs_apart {κ : Type} [DecidableEq κ] {node : NodeState} {peers : κ → NewPeer}
    (hown : OwnAddresses node) (hkeys : Function.Injective fun k => (peers k).publicKey)
    {sched : List (κ × Bool)} (hguard : Guarded (addPeerRuns node peers) sched)
    (hexited : ∀ k, Idle (addPeerRuns node peers) sched k) :
    RunsDone peers node ((addPeerRuns node peers).run sched) := by
  obtain ⟨l, hserial, -, hended, hlone⟩ := serial_of_guarded hguard hexited
  have hafter : AfterRuns peers node l _ := afterRuns_of_serial hown hserial
  have hmem : ∀ k, ((addPeerRuns node peers).run sched).Ended k (.ok .ok) → (k, .ok .ok) ∈ l := by
    intro k hk
    by_contra hnot
    have hout : ∀ r, (k, r) ∉ l := by
      intro r hr
      have heq := Option.some.inj ((hended k r hr).symm.trans hk)
      exact hnot (heq ▸ hr)
    obtain ⟨u, hrun⟩ := hlone k _ hk hout
    exact not_ok_of_unchanged hrun rfl
  refine ⟨hafter.own, fun k hk => hafter.carries k (hmem k hk), fun k r hr hfail => ?_⟩
  refine hafter.nothing (peers k) fun m hm hkey => hfail ?_
  obtain rfl := hkeys hkey
  exact Option.some.inj (hr.symm.trans (hended m _ hm))

/-- Two peers with keys of their own and one address. -/
def sameAddress : Bool → NewPeer
  | false => firstPeer
  | true => { firstPeer with
      publicKey := "CCCCCCCCCCCCCCCCCCCCCCCCCCCCCCCCCCCCCCCCCCC=", name := "auto-bob" }

lemma sameAddress_injective : Function.Injective fun k => (sameAddress k).publicKey := by
  intro k m h
  revert h
  cases k <;> cases m <;> decide

lemma ownAddresses_bareNode : OwnAddresses bareNode := by
  refine ⟨fun e he => absurd he List.not_mem_nil, ?_⟩
  rintro _ ⟨⟩
  decide

/-- The first run to its end, then the second, whose check finds the address. -/
def inTurn : List (Bool × Bool) :=
  List.replicate 8 (false, true) ++ List.replicate 4 (true, true)

/-- The first prints `ok:`, the second is refused. -/
lemma inTurn_ended :
    ((addPeerRuns bareNode sameAddress).run (List.replicate 8 (false, true))).Ended false (.ok .ok)
      ∧ ((addPeerRuns bareNode sameAddress).run inTurn).Ended false (.ok .ok)
      ∧ ((addPeerRuns bareNode sameAddress).run inTurn).Ended true
        (.ok (.refused "ip in use: 10.88.88.42/32")) := by
  decide +kernel

/-- The two runs in turn: the first prints `ok:`, the second is refused. -/
theorem add_peer_runs_apart_inTurn :
    ((addPeerRuns bareNode sameAddress).run inTurn).Ended false (.ok .ok)
      ∧ ((addPeerRuns bareNode sameAddress).run inTurn).Ended true
        (.ok (.refused "ip in use: 10.88.88.42/32"))
      ∧ RunsDone sameAddress bareNode ((addPeerRuns bareNode sameAddress).run inTurn) := by
  obtain ⟨hdone, hfirst, hsecond⟩ := inTurn_ended
  refine ⟨hfirst, hsecond, add_peer_runs_apart ownAddresses_bareNode sameAddress_injective ?_ ?_⟩
  · refine Guarded.alone 4 (Guarded.alone 8 .nil fun m _ => Or.inl fun i h => by cases h) ?_
    rintro (_ | _) hm
    · exact Or.inr ⟨.ok .ok, hdone⟩
    · exact absurd rfl hm
  · rintro (_ | _)
    · exact Or.inr ⟨_, hfirst⟩
    · exact Or.inr ⟨_, hsecond⟩

/-- The second run comes and goes between the first one's checks and its writes. -/
def inBetween : List (Bool × Bool) :=
  List.replicate 5 (false, true) ++ List.replicate 8 (true, true) ++ List.replicate 3 (false, true)

/-- Both print `ok:`, the file has the address twice, and the first run has the peer. -/
lemma inBetween_run :
    let c := (addPeerRuns bareNode sameAddress).run inBetween
    (∀ k, c.Ended k (.ok .ok)) ∧ (c.state.conf.any fun conf => ¬ (confIps conf).Nodup) = true ∧
      (⟨(sameAddress true).publicKey, [(sameAddress true).ip]⟩ : PeerEntry) ∉ c.state.runtime := by
  decide +kernel

/-- **Runs that overlap.** Both print `ok:`; the file then has the address twice, and
the runtime has taken it from the peer of the second run. -/
theorem add_peer_runs_overlap :
    OwnAddresses bareNode ∧ Together bareNode
      ∧ (Function.Injective fun k => (sameAddress k).publicKey)
      ∧ (∀ k, ((addPeerRuns bareNode sameAddress).run inBetween).Ended k (.ok .ok))
      ∧ ¬ OwnAddresses ((addPeerRuns bareNode sameAddress).run inBetween).state
      ∧ ¬ Carries (sameAddress true) ((addPeerRuns bareNode sameAddress).run inBetween).state := by
  obtain ⟨hended, hconf, hruntime⟩ := inBetween_run
  obtain ⟨conf, hfile, htwice⟩ := (Option.any_eq_true _ _).mp hconf
  exact ⟨ownAddresses_bareNode, together_bareNode, sameAddress_injective, hended,
    fun h => of_decide_eq_true htwice (h.conf conf hfile), fun h => hruntime h.1⟩

end VpnPortal
