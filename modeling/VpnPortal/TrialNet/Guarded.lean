/-
The trial subnet is never routed without its firewall.

* `Kept`: what holds between any two commands, whichever of them fail;
* `Aside`: commands that touch neither the address nor the firewall;
* `turns_takeDown`: without a failure the teardown leaves nothing behind;
* `up_failed_bare`: an `up` that fails in its steps and can take everything down again
  leaves nothing either;
* `routed_guarded`: **for every sequence of invocations**, between any two commands the
  address is on `awg0` only behind the jump and one of the chain's two rule sets.
-/
import VpnPortal.TrialNet.Check

namespace VpnPortal.TrialNet

open Shell

/-! ### What holds between two commands -/

/-- The chain holds exactly one of its two rule sets. -/
def OneRuleSet (chain : Option (List ChainRule)) : Prop :=
  chain = some drops ∨ ∃ connLimit, chain = some (limits connLimit)

/-- None of the script's pieces is on the node. -/
structure Bare (n : Node) : Prop where
  addr : n.addr = false
  mangle : n.mangle = 0
  rules : n.rules = 0
  forward : .jump ∉ n.forward
  chain : n.chain = none
  root : n.root = none
  ingress : n.ingress = none

/-- The firewall stands over the rules of the others. -/
structure Fenced (base : List Forward) (n : Node) : Prop where
  forward : n.forward = .jump :: base
  chain : OneRuleSet n.chain

/-- `FORWARD` is the list of the others, with the jump on top or without it, and
while the address is there the firewall stands. -/
structure Kept (base : List Forward) (n : Node) : Prop where
  forward : n.forward = base ∨ n.forward = .jump :: base
  fenced : n.addr = true → Fenced base n

section Keeping

variable {base : List Forward} {n s : Node}

lemma Fenced.kept (h : Fenced base n) : Kept base n := ⟨.inr h.forward, fun _ => h⟩

lemma Kept.ahead (h : Kept base n) (ha : n.addr = true) : Ahead n.forward := by
  have hf := (h.fenced ha).forward
  refine ⟨by simp [hf], fun _ => ?_⟩
  rw [hf, List.idxOf_cons_self, List.idxOf_cons_ne _ (by simp)]
  exact Nat.succ_pos _

lemma Bare.kept (h : Bare n) : Kept n.forward n where
  forward := .inl rfl
  fenced ha := absurd ha (by simp [h.addr])

lemma ruleSet_one (conf : Conf) (on : Bool) : OneRuleSet (some (ruleSet conf on)) := by
  cases on with
  | true => exact .inr ⟨conf.connLimit, rfl⟩
  | false => exact .inl rfl

/-- Without the address anything may happen to the chain. -/
lemma Kept.of_not_routed (ha : n.addr = false) (hf : n.forward = base ∨ n.forward = .jump :: base) :
    Kept base n :=
  ⟨hf, fun h => absurd h (by simp [ha])⟩

/-! ### Commands beside the firewall -/

/-- The two nodes agree on the address and the firewall. -/
structure Beside (n s : Node) : Prop where
  addr : s.addr = n.addr
  forward : s.forward = n.forward
  chain : s.chain = n.chain

/-- A command that touches neither the address nor the firewall. -/
def Aside (f : Node → Option Node) : Prop := ∀ n s, f n = some s → Beside n s

lemma Fenced.beside (h : Fenced base n) (hs : Beside n s) : Fenced base s :=
  ⟨hs.forward.trans h.forward, hs.chain ▸ h.chain⟩

lemma Kept.beside (h : Kept base n) (hs : Beside n s) : Kept base s where
  forward := by simpa only [hs.forward] using h.forward
  fenced ha := (h.fenced (hs.addr ▸ ha)).beside hs

/-- A command is aside if whatever it may leave is. -/
lemma Aside.of_eq {f : Node → Option Node} (g : Node → Node) (hg : ∀ n, Beside n (g n))
    (hf : ∀ n, f n = none ∨ f n = some (g n)) : Aside f := by
  intro n s h
  rcases hf n with hn | hn
  · exact absurd (hn.symm.trans h) (by simp)
  · obtain rfl := Option.some.inj (hn.symm.trans h)
    exact hg n

lemma aside_appendMangle : Aside appendMangle :=
  .of_eq (fun n => { n with mangle := n.mangle + 1 }) (fun _ => ⟨rfl, rfl, rfl⟩)
    (fun _ => .inr rfl)

lemma aside_deleteMangle : Aside deleteMangle :=
  .of_eq (fun n => { n with mangle := n.mangle - 1 }) (fun _ => ⟨rfl, rfl, rfl⟩)
    (fun n => by cases h : n.marked <;> simp [deleteMangle, h])

lemma aside_delRule : Aside delRule :=
  .of_eq (fun n => { n with rules := n.rules - 1 }) (fun _ => ⟨rfl, rfl, rfl⟩)
    (fun n => by by_cases h : 0 < n.rules <;> simp [delRule, h])

lemma aside_addRule : Aside addRule :=
  .of_eq (fun n => { n with rules := 1 }) (fun _ => ⟨rfl, rfl, rfl⟩)
    (fun n => by by_cases h : 0 < n.rules <;> simp [addRule, h])

lemma aside_addRoot : Aside addRoot :=
  .of_eq (fun n => { n with root := some [] }) (fun _ => ⟨rfl, rfl, rfl⟩)
    (fun n => by cases h : n.root <;> simp [addRoot, h])

lemma aside_delRoot : Aside delRoot :=
  .of_eq (fun n => { n with root := none }) (fun _ => ⟨rfl, rfl, rfl⟩)
    (fun n => by cases h : n.root <;> simp [delRoot, h])

lemma aside_addPart (part : TcPart) : Aside (addPart part) :=
  .of_eq (fun n => { n with root := some (n.root.getD [] ++ [part]) }) (fun _ => ⟨rfl, rfl, rfl⟩)
    (fun n => by cases h : n.root <;> simp [addPart, h])

lemma aside_addIngress : Aside addIngress :=
  .of_eq (fun n => { n with ingress := some [] }) (fun _ => ⟨rfl, rfl, rfl⟩)
    (fun n => by cases h : n.ingress <;> simp [addIngress, h])

lemma aside_delIngress : Aside delIngress :=
  .of_eq (fun n => { n with ingress := none }) (fun _ => ⟨rfl, rfl, rfl⟩)
    (fun n => by cases h : n.ingress <;> simp [delIngress, h])

lemma aside_addPolice (police : Police) : Aside (addPolice police) :=
  .of_eq (fun n => { n with ingress := some (n.ingress.getD [] ++ [police]) })
    (fun _ => ⟨rfl, rfl, rfl⟩) (fun n => by cases h : n.ingress <;> simp [addPolice, h])

/-- An assertion that only looks at the address and the firewall. -/
structure Steady (base : List Forward) (R : Point Node → Prop) : Prop where
  kept : ∀ p, R p → Kept base p.node
  beside : ∀ p s, R p → Beside p.node s → R { p with node := s }

end Keeping

section Commands

variable {base : List Forward} {R : Point Node → Prop}

/-- Below, `Kept` holds at every point and after every early end. -/
abbrev Keeps {α : Type} (base : List Forward) (P : Point Node → Prop) (m : Sh Node α)
    (Q : Point Node → Prop) : Prop :=
  Triple true (Kept base) P m (fun _ => Q) (fun p => Kept base p.node)

lemma Steady.act (hR : Steady base R) {f : Node → Option Node} (hf : Aside f) :
    Keeps base R (Shell.act f) R :=
  Triple.act_keep (fun p hp => hR.kept p hp) (fun p s hp h => hR.beside p s hp (hf _ _ h))
    (fun p hp _ => hR.kept p hp)

lemma Steady.tcDown (hR : Steady base R) : Keeps base R tcDown R := by
  unfold TrialNet.tcDown
  refine Triple.bind (R := fun _ => R) (Triple.ifRead ?_ fun p hp _ => hp) fun _ =>
    Triple.ifRead ?_ fun p hp _ => hp
  · exact (hR.act aside_delRoot).conseq (fun p hp => hp.1) (fun _ _ h => h) (fun _ h => h)
  · exact (hR.act aside_delIngress).conseq (fun p hp => hp.1) (fun _ _ h => h) (fun _ h => h)

lemma Steady.tcUp (hR : Steady base R) (conf : Conf) : Keeps base R (tcUp conf) R := by
  unfold TrialNet.tcUp
  refine Triple.bind (R := fun _ => R) hR.tcDown fun _ => ?_
  refine Triple.bind (R := fun _ => R) (hR.act aside_addRoot) fun _ => ?_
  refine Triple.bind (R := fun _ => R) (hR.act (aside_addPart _)) fun _ => ?_
  refine Triple.bind (R := fun _ => R) (hR.act (aside_addPart _)) fun _ => ?_
  refine Triple.bind (R := fun _ => R) (hR.act (aside_addPart _)) fun _ => ?_
  refine Triple.bind (R := fun _ => R) (hR.act (aside_addPart _)) fun _ => ?_
  refine Triple.bind (R := fun _ => R) (hR.act (aside_addPart _)) fun _ => ?_
  refine Triple.bind (R := fun _ => R) (hR.act (aside_addPart _)) fun _ => ?_
  split
  · exact Triple.pure fun _ hp => hp
  · exact Triple.bind (R := fun _ => R) (hR.act aside_addIngress) fun _ =>
      hR.act (aside_addPolice _)

/-- The rule loop ends without the rule, or because deleting it failed. -/
lemma Steady.delRules {F : Prop} {R : Node → Prop} (hR : Steady base fun p => R p.node) :
    Keeps base (fun p => R p.node ∧ (p.failed = true → F)) delRules
      (fun p => R p.node ∧ (p.failed = true → F ∨ 0 < p.node.rules)) := by
  refine Triple.whileAttempt (fun p hp => hR.kept p hp.1) (fun p s hp hf => ?_)
    (fun p hp _ => ⟨hp.1, fun h => .inl (hp.2 h)⟩) (fun _ p hp hf => ?_)
  · refine ⟨⟨hR.beside p s hp.1 (aside_delRule _ _ hf), hp.2⟩, ?_⟩
    unfold delRule at hf
    split at hf
    · obtain rfl := Option.some.inj hf
      show p.node.rules - 1 < p.node.rules
      omega
    · cases hf
  · refine ⟨hp.1, fun _ => .inr ?_⟩
    by_contra hne
    simp [delRule, hne] at hf

lemma steady_kept : Steady base fun p => Kept base p.node :=
  ⟨fun _ h => h, fun _ _ h hs => h.beside hs⟩

lemma steady_fenced : Steady base fun p => Fenced base p.node :=
  ⟨fun _ h => h.kept, fun _ _ h hs => h.beside hs⟩

lemma steady_unfailed : Steady base fun p => Fenced base p.node ∧ p.failed = false :=
  ⟨fun _ h => h.1.kept, fun _ _ h hs => ⟨h.1.beside hs, h.2⟩⟩

/-! ### Up -/

/-- `build_chain` leaves the rule set of the kill switch. `G` is what is known of
the state file and of earlier failures. -/
lemma keeps_buildChain (conf : Conf) (G : Option String → Bool → Prop) :
    Keeps base (fun p => Kept base p.node ∧ G p.node.file p.failed) (buildChain conf)
      (fun p => Kept base p.node ∧ p.node.chain = some (ruleSet conf p.node.on) ∧
        G p.node.file p.failed) := by
  refine Triple.bind (R := fun on p => (Kept base p.node ∧ G p.node.file p.failed) ∧
    p.node.on = on) (Triple.look fun p hp => ⟨hp, rfl⟩) fun on => ?_
  refine Triple.act (fun p hp => hp.1.1) (fun p s hp hf => ?_) (fun p hp _ => hp.1.1)
  obtain rfl := Option.some.inj hf
  have hkept : Kept base { p.node with chain := some (ruleSet conf on) } :=
    ⟨hp.1.1.forward, fun ha => ⟨(hp.1.1.fenced ha).forward, ruleSet_one conf on⟩⟩
  have hchain : some (ruleSet conf on) = some (ruleSet conf p.node.on) := by rw [hp.2]
  exact ⟨hkept, hkept, hchain, hp.1.2⟩

variable (hbase : .jump ∉ base)

include hbase

lemma keeps_chainUp (conf : Conf) :
    Keeps base (fun p => Kept base p.node ∧ p.failed = false) (chainUp conf)
      (fun p => Fenced base p.node ∧ p.failed = false) := by
  refine Triple.bind (keeps_buildChain conf fun _ failed => failed = false) fun _ => ?_
  refine Triple.readOr (Triple.act (fun p hp => hp.1.1) (fun p s hp hf => ?_)
    (fun p hp _ => hp.1.1)) (fun p hp hj => ?_)
  · -- no jump yet: it goes on top
    obtain ⟨⟨hkept, hchain, hfailed⟩, hj⟩ := hp
    obtain ⟨_, -, rfl⟩ := Option.map_eq_some_iff.mp hf
    have hforward : p.node.forward = base := by
      rcases hkept.forward with h | h
      · exact h
      · simp [Node.hasJump, h] at hj
    have hfenced : Fenced base { p.node with forward := .jump :: p.node.forward } :=
      ⟨by rw [hforward], by rw [hchain]; exact ruleSet_one conf _⟩
    exact ⟨hfenced.kept, hfenced, hfailed⟩
  · -- the jump is there, so on top
    obtain ⟨hkept, hchain, hfailed⟩ := hp
    have hforward : p.node.forward = .jump :: base := by
      rcases hkept.forward with h | h
      · exact absurd hj (by simpa [Node.hasJump, h] using hbase)
      · exact h
    exact ⟨⟨hforward, by rw [hchain]; exact ruleSet_one conf _⟩, hfailed⟩

omit hbase

lemma keeps_routingUp :
    Keeps base (fun p => Fenced base p.node ∧ p.failed = false) routingUp
      (fun p => Fenced base p.node ∧ p.failed = false) := by
  refine Triple.bind (R := fun _ p => Fenced base p.node ∧ p.failed = false) ?_ fun _ => ?_
  · refine Triple.act_keep (fun p hp => hp.1.kept) (fun p s hp hf => ?_) (fun p hp _ => hp.1.kept)
    obtain rfl := Option.some.inj hf
    exact ⟨⟨hp.1.forward, hp.1.chain⟩, hp.2⟩
  refine Triple.bind (R := fun _ p => Fenced base p.node ∧ (p.failed = true → False)) ?_ fun _ => ?_
  · refine Triple.readOr ?_ fun p hp _ => ⟨hp.1, by simp [hp.2]⟩
    exact (steady_unfailed.act aside_appendMangle).conseq (fun p hp => hp.1)
      (fun _ p hp => ⟨hp.1, by simp [hp.2]⟩) (fun _ h => h)
  refine Triple.bind steady_fenced.delRules fun _ => ?_
  -- a rule left by a failed deletion refuses the new one
  refine Triple.act (fun p hp => hp.1.kept) (fun p s hp hf => ?_) (fun p hp _ => hp.1.kept)
  have hfenced : Fenced base s := hp.1.beside (aside_addRule _ _ hf)
  refine ⟨hfenced.kept, hfenced, ?_⟩
  show p.failed = false
  by_contra hne
  have hrules := (hp.2 (by simpa using hne)).resolve_left id
  simp [addRule, hrules] at hf

include hbase

/-- **`up` reaches the end of its steps** only with the firewall standing and no
command failed. -/
lemma keeps_apply (conf : Conf) :
    Keeps base (fun p => Kept base p.node ∧ p.failed = false) (apply conf)
      (fun p => Fenced base p.node ∧ p.failed = false) :=
  Triple.bind (keeps_chainUp hbase conf) fun _ =>
    Triple.bind keeps_routingUp fun _ => steady_unfailed.tcUp conf

omit hbase

/-! ### Down -/

lemma keeps_routingDown :
    Keeps base (fun p => Kept base p.node) routingDown
      (fun p => Kept base p.node ∧ p.node.addr = false) := by
  refine Triple.bind (R := fun _ p => Kept base p.node)
    ((steady_kept.delRules (F := True)).conseq (fun p hp => ⟨hp, fun _ => trivial⟩)
      (fun _ p hp => hp.1) (fun _ h => h)) fun _ => ?_
  refine Triple.bind (R := fun _ p => Kept base p.node) ?_ fun _ => ?_
  · refine Triple.whileLook (fun _ hp => hp) (fun p s hp hm hf => ?_) (fun _ hp _ _ => hp)
      (fun _ hp _ => hp)
    refine ⟨hp.beside (aside_deleteMangle _ _ hf), ?_⟩
    obtain rfl : { p.node with mangle := p.node.mangle - 1 } = s := by
      simpa [deleteMangle, hm] using hf
    have hpos : 0 < p.node.mangle := by simpa [Node.marked] using hm
    show p.node.mangle - 1 < p.node.mangle
    omega
  · refine Triple.ifRead (Triple.act (fun _ hp => hp.1) (fun p s hp hf => ?_) (fun _ hp _ => hp.1))
      (fun _ hp ha => ⟨hp, ha⟩)
    obtain rfl : { p.node with addr := false } = s := by simpa [delAddr, hp.2] using hf
    have hkept : Kept base { p.node with addr := false } := .of_not_routed rfl hp.1.forward
    exact ⟨hkept, hkept, rfl⟩

include hbase

/-- Without the address the firewall may go. -/
lemma keeps_chainDown :
    Keeps base (fun p => Kept base p.node ∧ p.node.addr = false) chainDown
      (fun p => Kept base p.node ∧ p.node.addr = false) := by
  refine Triple.bind (R := fun _ p => Kept base p.node ∧ p.node.addr = false) ?_ fun _ => ?_
  · refine Triple.whileLook (fun _ hp => hp.1) (fun p s hp hj hf => ?_) (fun _ hp _ _ => hp.1)
      (fun _ hp _ => hp)
    obtain rfl : { p.node with forward := p.node.forward.erase .jump } = s := by
      simpa [deleteJump, hj] using hf
    have hmem : .jump ∈ p.node.forward := by simpa [Node.hasJump] using hj
    have herase : p.node.forward.erase .jump = base := by
      rcases hp.1.forward with h | h
      · exact absurd (h ▸ hmem) hbase
      · rw [h, List.erase_cons_head]
    refine ⟨⟨.of_not_routed hp.2 (.inl herase), hp.2⟩, ?_⟩
    have hpos := List.count_pos_iff.mpr hmem
    show (p.node.forward.erase .jump).count .jump < p.node.forward.count .jump
    rw [List.count_erase_self]
    omega
  · refine Triple.ifRead ?_ fun _ hp _ => hp
    refine Triple.bind (R := fun _ p => Kept base p.node ∧ p.node.addr = false) ?_ fun _ => ?_
    · refine Triple.act (fun _ hp => hp.1.1) (fun p s hp hf => ?_) (fun _ hp _ => hp.1.1)
      obtain ⟨_, -, rfl⟩ := Option.map_eq_some_iff.mp hf
      have hkept : Kept base { p.node with chain := some [] } :=
        .of_not_routed hp.1.2 hp.1.1.forward
      exact ⟨hkept, hkept, hp.1.2⟩
    · refine Triple.act (fun _ hp => hp.1) (fun p s hp hf => ?_) (fun _ hp _ => hp.1)
      unfold deleteChain at hf
      split at hf
      · obtain rfl := Option.some.inj hf
        have hkept : Kept base { p.node with chain := none } := .of_not_routed hp.2 hp.1.forward
        exact ⟨hkept, hkept, hp.2⟩
      · cases hf

lemma keeps_takeDown :
    Keeps base (fun p => Kept base p.node) takeDown (fun p => Kept base p.node) :=
  Triple.bind steady_kept.tcDown fun _ => Triple.bind keeps_routingDown fun _ =>
    (keeps_chainDown hbase).conseq (fun _ h => h) (fun _ _ h => h.1) (fun _ h => h)

omit hbase

/-! ### The kill switch -/

/-- `on` and `off` end with the chain, if there is one, as the new state wants it. -/
lemma keeps_setState (conf : Conf) (on : Bool) :
    Keeps base (fun p => Kept base p.node) (setState conf on)
      (fun p => Kept base p.node ∧
        (p.node.chain = none ∨ p.node.chain = some (ruleSet conf on))) := by
  have hquiet : Keeps base (fun p => Kept base p.node) (act some) (fun p => Kept base p.node) :=
    steady_kept.act fun n s h => by obtain rfl := Option.some.inj h; exact ⟨rfl, rfl, rfl⟩
  refine Triple.bind hquiet fun _ => Triple.bind hquiet fun _ => Triple.bind hquiet fun _ =>
    Triple.bind hquiet fun _ => ?_
  refine Triple.bind (R := fun _ p => Kept base p.node ∧
    p.node.file = some (if on then "on\n" else "off\n")) ?_ fun _ => ?_
  · refine Triple.act (fun _ hp => hp) (fun p s hp hf => ?_) (fun _ hp _ => hp)
    obtain rfl := Option.some.inj hf
    have hkept : Kept base
        { p.node with file := some (if on then "on\n" else "off\n") } :=
      hp.beside ⟨rfl, rfl, rfl⟩
    exact ⟨hkept, hkept, rfl⟩
  · refine Triple.ifRead ?_ fun p hp hc => ⟨hp.1, .inl (by simpa using hc)⟩
    refine (keeps_buildChain conf fun file _ => file = some (if on then "on\n" else "off\n")).conseq
      (fun p hp => hp.1) (fun _ p hp => ⟨hp.1, .inr ?_⟩) (fun _ h => h)
    have hon : p.node.on = on := by
      unfold Node.on
      rw [hp.2.2]
      cases on <;> decide
    rw [hp.2.1, hon]

end Commands

/-! ### The teardown -/

/-- Without a failing command `m` reaches its end, and turns the node `n` into `s`. -/
abbrev Turns (n : Node) (m : Sh Node Unit) (s : Node) : Prop :=
  Triple false (fun _ => True) (fun p => p.node = n) m (fun _ p => p.node = s) (fun _ => False)

section Teardown

variable {n s t : Node}

lemma Turns.act {f : Node → Option Node} (h : f n = some s) : Turns n (Shell.act f) s :=
  Triple.act (fun _ _ => trivial)
    (fun p t hp hf => ⟨trivial, Option.some.inj (by rw [← hf, hp, h])⟩)
    (fun p hp hno => by simp [hp, h] at hno)

lemma Turns.bind {m m' : Sh Node Unit} (h : Turns n m s) (h' : Turns s m' t) :
    Turns n (m >>= fun _ => m') t :=
  Triple.bind h fun _ => h'

lemma Turns.ifRead {g : Node → Bool} {m : Sh Node Unit} (h : g n = true → Turns n m s)
    (hno : g n = false → s = n) : Turns n (Shell.ifRead g m) s := by
  refine Triple.ifRead ?_ fun p hp hg => ?_
  · cases hg : g n with
    | true => exact (h hg).conseq (fun p hp => hp.1) (fun _ _ hq => hq) (fun _ he => he)
    | false => exact fun w _ hp => absurd hp.2 (by simp [hp.1, hg])
  · rw [hp, hno (hp ▸ hg)]

lemma Turns.readOr {g : Node → Bool} {m : Sh Node Unit} (h : g n = false → Turns n m s)
    (hyes : g n = true → s = n) : Turns n (Shell.readOr g m) s := by
  refine Triple.readOr ?_ fun p hp hg => ?_
  · cases hg : g n with
    | false => exact (h hg).conseq (fun p hp => hp.1) (fun _ _ hq => hq) (fun _ he => he)
    | true => exact fun w _ hp => absurd hp.2 (by simp [hp.1, hg])
  · rw [hp, hyes (hp ▸ hg)]

lemma turns_tcDown (n : Node) : Turns n tcDown { n with root := none, ingress := none } := by
  refine Turns.bind (s := { n with root := none }) (.ifRead (fun h => .act ?_) fun h => ?_)
    (.ifRead (fun h => .act ?_) fun h => ?_)
  · obtain ⟨parts, hparts⟩ := Option.isSome_iff_exists.mp h
    simp [delRoot, hparts]
  · rw [← Option.not_isSome_iff_eq_none.mp (by simpa using h)]
  · obtain ⟨all, hall⟩ := Option.isSome_iff_exists.mp h
    have hall' : n.ingress = some all := hall
    simp [delIngress, hall']
  · have hnone : n.ingress = none := by simpa using h
    rw [← hnone]

lemma turns_delRules (n : Node) : Turns n delRules { n with rules := 0 } := by
  refine (Triple.whileAttempt (P := fun p => p.node = { n with rules := p.node.rules })
    (Q := fun _ p => p.node = { n with rules := 0 }) (fun _ _ => trivial)
    (fun p s hp hf => ?_) (fun p hp hf => ?_) (fun h => absurd h (by simp))).conseq
    (fun p hp => by rw [hp]) (fun _ _ hq => hq) (fun _ he => he)
  · unfold delRule at hf
    split at hf
    · obtain rfl := Option.some.inj hf
      refine ⟨?_, ?_⟩
      · show { p.node with rules := p.node.rules - 1 } = { n with rules := p.node.rules - 1 }
        rw [hp]
      · show p.node.rules - 1 < p.node.rules
        omega
    · cases hf
  · have hzero : p.node.rules = 0 := by
      by_contra hne
      simp [delRule, Nat.pos_of_ne_zero hne] at hf
    rw [hp, hzero]

lemma turns_deleteMangle (n : Node) :
    Turns n (whileDo Node.mangle (look Node.marked) (act deleteMangle)) { n with mangle := 0 } := by
  refine (Triple.whileLook (P := fun p => p.node = { n with mangle := p.node.mangle })
    (Q := fun _ p => p.node = { n with mangle := 0 }) (fun _ _ => trivial)
    (fun p s hp hm hf => ?_) (fun p hp hm hno => ?_) (fun p hp hm => ?_)).conseq
    (fun p hp => by rw [hp]) (fun _ _ hq => hq) (fun _ he => he)
  · obtain rfl : { p.node with mangle := p.node.mangle - 1 } = s := by
      simpa [deleteMangle, hm] using hf
    have hpos : 0 < p.node.mangle := by simpa [Node.marked] using hm
    refine ⟨?_, ?_⟩
    · show { p.node with mangle := p.node.mangle - 1 } = { n with mangle := p.node.mangle - 1 }
      rw [hp]
    · show p.node.mangle - 1 < p.node.mangle
      omega
  · simp [deleteMangle, hm] at hno
  · have hzero : p.node.mangle = 0 := by simpa [Node.marked] using hm
    rw [hp, hzero]

lemma turns_routingDown (n : Node) :
    Turns n routingDown { n with rules := 0, mangle := 0, addr := false } :=
  .bind (turns_delRules n) (.bind (turns_deleteMangle _)
    (.ifRead (fun h => .act (by simpa [delAddr] using h)) fun h => by simp [← h]))

/-- The jumps go one by one, and the rules of the others stay. -/
lemma turns_deleteJumps (n : Node) :
    Turns n (whileDo (fun n => n.forward.count .jump) (look Node.hasJump) (act deleteJump))
      { n with forward := n.forward.filter (· ≠ .jump) } := by
  refine (Triple.whileLook (P := fun p => p.node = { n with forward := p.node.forward } ∧
      p.node.forward.filter (· ≠ .jump) = n.forward.filter (· ≠ .jump))
    (Q := fun _ p => p.node = { n with forward := n.forward.filter (· ≠ .jump) })
    (fun _ _ => trivial) (fun p s hp hj hf => ?_) (fun p hp hj hno => ?_)
    (fun p hp hj => ?_)).conseq (fun p hp => by rw [hp]; exact ⟨rfl, rfl⟩) (fun _ _ hq => hq)
    (fun _ he => he)
  · obtain rfl : { p.node with forward := p.node.forward.erase .jump } = s := by
      simpa [deleteJump, hj] using hf
    have hmem : .jump ∈ p.node.forward := by simpa [Node.hasJump] using hj
    refine ⟨⟨?_, ?_⟩, ?_⟩
    · show { p.node with forward := p.node.forward.erase .jump } =
        { n with forward := p.node.forward.erase .jump }
      rw [hp.1]
    · show (p.node.forward.erase .jump).filter (· ≠ .jump) = _
      rw [← List.erase_filter, List.erase_of_not_mem (by simp), hp.2]
    · have hpos := List.count_pos_iff.mpr hmem
      show (p.node.forward.erase .jump).count .jump < p.node.forward.count .jump
      rw [List.count_erase_self]
      omega
  · simp [deleteJump, hj] at hno
  · have hmem : .jump ∉ p.node.forward := by simpa [Node.hasJump] using hj
    have hall : p.node.forward.filter (· ≠ .jump) = p.node.forward :=
      List.filter_eq_self.mpr fun r hr => by
        simpa using fun he : r = .jump => hmem (he ▸ hr)
    rw [hp.1, ← hp.2, hall]

lemma turns_chainDown (n : Node) :
    Turns n chainDown { n with forward := n.forward.filter (· ≠ .jump), chain := none } := by
  refine .bind (turns_deleteJumps n) (.ifRead (fun h => ?_) fun h => ?_)
  · obtain ⟨rules, hrules⟩ := Option.isSome_iff_exists.mp h
    have hrules' : n.chain = some rules := hrules
    exact .bind (.act (by simp [flushChain, hrules']; rfl))
      (.act (by simp [deleteChain, Node.hasJump]))
  · have hnone : n.chain = none := by simpa using h
    rw [← hnone]

/-- What the teardown leaves. -/
def Node.bared (n : Node) : Node :=
  { n with
    root := none, ingress := none, rules := 0, mangle := 0, addr := false,
    forward := n.forward.filter (· ≠ .jump), chain := none }

/-- **Without a failure the teardown leaves nothing of the script**, and the rest
of the node as it was. -/
lemma turns_takeDown (n : Node) : Turns n takeDown n.bared :=
  .bind (turns_tcDown n) (.bind (turns_routingDown _) (turns_chainDown _))

lemma bare_bared (n : Node) : Bare n.bared := ⟨rfl, rfl, rfl, by simp [Node.bared], rfl, rfl, rfl⟩

end Teardown

/-! ### Every sequence of invocations -/

/-- Every invocation keeps `Kept`, whichever commands fail. -/
lemma keeps_script {base : List Forward} (hbase : .jump ∉ base) (i : Invocation) :
    Keeps base (fun p => Kept base p.node ∧ p.failed = false) (script i)
      (fun p => Kept base p.node) := by
  have hcheck : ∀ P : Point Node → Prop, (∀ p, P p → Kept base p.node) →
      Keeps base P (check i.conf) (fun p => Kept base p.node) := by
    intro P hP w hw hp
    have hworld := check_world i.conf w
    rcases hc : check i.conf w with ⟨_ | u, w'⟩ <;> rw [hc] at hworld <;> obtain rfl := hworld
    · exact ⟨hw, hP _ hp⟩
    · exact ⟨hw, hP _ hp⟩
  refine Triple.bind (R := fun _ p => Kept base p.node ∧ p.failed = false)
    (Triple.status (fun _ _ hp => hp) (fun _ _ hp => hp.1)) fun _ => ?_
  cases i.cmd with
  | up =>
    exact Triple.bind (Triple.trapExit (keeps_apply hbase i.conf) (keeps_takeDown hbase)) fun _ =>
      hcheck _ fun _ hp => hp.1.kept
  | down =>
    exact (keeps_takeDown hbase).conseq (fun _ hp => hp.1) (fun _ _ h => h) (fun _ h => h)
  | on =>
    exact (keeps_setState i.conf true).conseq (fun _ hp => hp.1) (fun _ _ h => h.1) (fun _ h => h)
  | off =>
    exact (keeps_setState i.conf false).conseq (fun _ hp => hp.1) (fun _ _ h => h.1) (fun _ h => h)
  | check => exact hcheck _ fun _ hp => hp.1

/-- One invocation: every point between two commands is kept, and the end is. -/
lemma invoke_kept {base : List Forward} (hbase : .jump ∉ base) (i : Invocation) {n : Node}
    (hn : Kept base n) :
    (∀ s ∈ (invoke i n).2.seen, Kept base s) ∧ Kept base (invoke i n).2.point.node := by
  have hstart : Within true (Kept base) (i.start n) :=
    ⟨by simpa [Invocation.start] using hn, fun h => absurd h (by simp)⟩
  have hends := keeps_script hbase i (i.start n) hstart ⟨hn, rfl⟩
  unfold invoke
  rcases hrun : script i (i.start n) with ⟨_ | u, w⟩ <;> rw [hrun] at hends
  · exact ⟨hends.1.seen, hends.2⟩
  · exact ⟨hends.1.seen, hends.2⟩

lemma nodeAfter_kept {base : List Forward} (hbase : .jump ∉ base) (calls : List Invocation)
    {n : Node} (hn : Kept base n) : Kept base (nodeAfter calls n) := by
  induction calls generalizing n with
  | nil => exact hn
  | cons i calls ih => exact ih (invoke_kept hbase i hn).2

/-- After `off` has exited 0 the chain, if there is one, only drops. -/
lemma off_drops {base : List Forward} {i : Invocation} (hoff : i.cmd = .off) {n : Node}
    (hn : Kept base n) (hexit : (invoke i n).1 = some ()) {rules : List ChainRule}
    (hrules : (invoke i n).2.point.node.chain = some rules) : rules = drops := by
  have hstart : Within true (Kept base) (i.start n) :=
    ⟨by simpa [Invocation.start] using hn, fun h => absurd h (by simp)⟩
  have hoffs : Keeps base (fun p => Kept base p.node) (script i) (fun p => Kept base p.node ∧
      (p.node.chain = none ∨ p.node.chain = some (ruleSet i.conf false))) := by
    refine Triple.bind (R := fun _ p => Kept base p.node)
      (Triple.status (fun _ _ hp => hp) (fun _ _ hp => hp)) fun _ => ?_
    rw [hoff]
    exact keeps_setState i.conf false
  have hends := hoffs (i.start n) hstart hn
  unfold invoke at hexit hrules
  rcases hrun : script i (i.start n) with ⟨_ | u, w⟩ <;> rw [hrun] at hends hexit hrules
  · cases hexit
  · rcases hends.2.2 with h | h
    · exact absurd (h.symm.trans hrules) (by simp)
    · exact (Option.some.inj (h.symm.trans hrules)).symm

/-- An `up` with a failed command runs its trap; if the teardown does not fail it
leaves nothing behind. -/
lemma up_failed_bare {base : List Forward} (hbase : .jump ∉ base) {i : Invocation}
    (hup : i.cmd = .up) (hready : i.ready = true) {n : Node} (hn : Kept base n)
    (hfailed : (apply i.conf (i.start n)).2.point.failed = true)
    (hfaults : NoFault (apply i.conf (i.start n)).2.faults) :
    Bare (invoke i n).2.point.node := by
  have hstart : Within true (Kept base) (i.start n) :=
    ⟨by simpa [Invocation.start] using hn, fun h => absurd h (by simp)⟩
  have hends := keeps_apply hbase i.conf (i.start n) hstart ⟨hn, rfl⟩
  rcases hrun : apply i.conf (i.start n) with ⟨_ | u, w⟩ <;> rw [hrun] at hends hfailed hfaults
  · have hdown := turns_takeDown w.point.node w ⟨fun _ _ => trivial, fun _ => hfaults⟩ rfl
    have hinvoke : invoke i n = (none, (takeDown w).2) := by
      unfold invoke script
      rw [hready, hup]
      show Sh.bind (trapExit (apply i.conf) takeDown) _ (i.start n) = _
      simp only [Sh.bind, trapExit, hrun]
    rw [hinvoke]
    rcases htake : takeDown w with ⟨_ | u, w'⟩ <;> rw [htake] at hdown
    · exact hdown.2.elim
    · rw [show w'.point.node = _ from hdown.2]
      exact bare_bared _
  · exact absurd hfailed (by simp [show w.point.failed = false from hends.2.2])

/-- **The trial subnet is never routed without its firewall.** On a node that
starts with none of the script's pieces, for every sequence of invocations and
whichever of their changing commands fail: between any two commands, if the trial
address is on `awg0`, the jump stands ahead of the blanket `ACCEPT` and the chain
holds one of its two rule sets; after an `off` that exits 0 the chain only drops;
and an `up` in whose steps a command failed leaves nothing behind if the commands
of its trap do not fail. -/
theorem routed_guarded (n : Node) (hn : Bare n) (calls : List Invocation) (i : Invocation) :
    (∀ s ∈ (invoke i (nodeAfter calls n)).2.seen,
      s.addr = true → Ahead s.forward ∧ OneRuleSet s.chain) ∧
    (i.cmd = .off → (invoke i (nodeAfter calls n)).1 = some () →
      ∀ rules, (invoke i (nodeAfter calls n)).2.point.node.chain = some rules → rules = drops) ∧
    (i.cmd = .up → i.ready = true →
      (apply i.conf (i.start (nodeAfter calls n))).2.point.failed = true →
      NoFault (apply i.conf (i.start (nodeAfter calls n))).2.faults →
      Bare (invoke i (nodeAfter calls n)).2.point.node) := by
  have hkept := nodeAfter_kept hn.forward calls hn.kept
  refine ⟨fun s hs ha => ?_, fun hoff hexit rules hrules => off_drops hoff hkept hexit hrules,
    fun hup hready => up_failed_bare hn.forward hup hready hkept⟩
  have hs' := (invoke_kept hn.forward i hkept).1 s hs
  exact ⟨hs'.ahead ha, (hs'.fenced ha).chain⟩

/-- An entry node before the first `up`. -/
def entryNode : Node where
  addr := false
  mangle := 0
  rules := 0
  forward := [.other "-j DOCKER-USER", .accept]
  chain := none
  root := none
  ingress := none
  file := some "on\n"
  default200 := true
  awg := some true

/-- A call as root with the default limits. -/
def call (cmd : Cmd) (faults : List Bool) : Invocation := ⟨cmd, {}, true, faults⟩

/-- After an `up` the address is there and `off` keeps it guarded; a second `up`
whose root qdisc cannot be added takes everything away. -/
theorem routed_guarded_entry :
    (nodeAfter [call .up []] entryNode).addr = true ∧
      (∀ s ∈ (invoke (call .off []) (nodeAfter [call .up []] entryNode)).2.seen,
        s.addr = true → Ahead s.forward ∧ OneRuleSet s.chain) ∧
      (∀ rules, (invoke (call .off []) (nodeAfter [call .up []] entryNode)).2.point.node.chain =
        some rules → rules = drops) ∧
      Bare (invoke (call .up [false, false, false, false, false, false, false, true])
        (nodeAfter [call .up []] entryNode)).2.point.node := by
  have hbare : Bare entryNode := ⟨rfl, rfl, rfl, by decide, rfl, rfl, rfl⟩
  refine ⟨by decide,
    (routed_guarded entryNode hbare [call .up []] (call .off [])).1,
    (routed_guarded entryNode hbare [call .up []] (call .off [])).2.1 rfl (by decide),
    (routed_guarded entryNode hbare [call .up []] _).2.2 rfl rfl (by decide) ?_⟩
  have hnone : (apply (call .up [false, false, false, false, false, false, false, true]).conf
      ((call .up [false, false, false, false, false, false, false, true]).start
        (nodeAfter [call .up []] entryNode))).2.faults = [] := by decide
  rw [hnone]
  exact fun b hb => absurd hb (by simp)

end VpnPortal.TrialNet
