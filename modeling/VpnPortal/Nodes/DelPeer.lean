/-
The wrapper `pwa-del-peer` on an entry node
(`infrastructure/wrappers/pwa-del-peer`).

One run of the script as a function of the running interface and the lines of
the config file. The config is rewritten before the runtime is touched, and only
if exactly one peer block went away, no other line holds the key and the
`[Interface]` section is still there. What the script meets outside is in its
`DelRun`: whether `awg set` succeeds.

* `pwaDelPeer`, `pwaDelPeer_cases`: a run refuses and changes nothing, or rewrites the
  file if it mentions the key and then deals with the runtime;
* `Held`, `pwaDelPeer_held`: a client that runs and has its block in the file is removed
  from both, or from neither place in the runtime if `awg set` fails;
* `Gone`, `pwaDelPeer_gone`: a peer that is in neither place is refused.
-/
import VpnPortal.Portal.World
import VpnPortal.Text.Blocks

namespace VpnPortal

open Blocks

/-! ### The script -/

/-- A line of the config file. -/
abbrev Line := List Char

/-- `[[:space:]]` -/
def isSpace (c : Char) : Bool := c = ' ' || (9 ≤ c.toNat && c.toNat ≤ 13)

/-- `[A-Za-z0-9+/]` -/
def isBase64 (c : Char) : Bool := c.isAlphanum || c = '+' || c = '/'

/-- `^[A-Za-z0-9+/]{43}=$` -/
def isPublicKey (pub : String) : Bool :=
  (pub.toList.take 43).all isBase64 && decide (pub.toList.drop 43 = ['='])

/-- The value of a `PublicKey =` line. -/
def keyOf (line : Line) : Option Line :=
  let rest := line.dropWhile isSpace
  if "PublicKey".toList.isPrefixOf rest then
    match (rest.drop 9).dropWhile isSpace with
    | '=' :: value => some (Words.trim isSpace value)
    | _ => none
  else none

/-- `/^\[Peer\]/` -/
def isPeerLine (line : Line) : Bool := "[Peer]".toList.isPrefixOf line

/-- `/^\[Interface\]/` -/
def isInterfaceLine (line : Line) : Bool := "[Interface]".toList.isPrefixOf line

/-- `### <name>` opens a block, and so does `[Peer]`. -/
def confMarks : Marks Line where
  title line := "###".toList.isPrefixOf line
  mark := isPeerLine

lemma isMark_peer : confMarks.title "[Peer]".toList = false ∧ confMarks.mark "[Peer]".toList = true :=
  ⟨rfl, rfl⟩

/-- The line carries the target key. -/
def carries (pub : String) (line : Line) : Bool := decide (keyOf line = some pub.toList)

/-- `grep -qF` on one line. -/
def mentions (pub : String) (line : Line) : Bool := decide (pub.toList <:+: line)

/-- `CLIENT_SUBNET_PREFIXES` -/
def clientSubnetPrefixes : List String := ["10.88.88.", "10.88.89."]

/-- Whether `ALLOWED` starts with a client prefix. -/
def inClientSubnet (allowed : String) : Bool :=
  clientSubnetPrefixes.any fun net => net.toList.isPrefixOf allowed.toList

/-- The second column of `awg show allowed-ips`. -/
def PeerEntry.column (e : PeerEntry) : String := (e.allowedIps.find? (· ≠ "")).getD "(none)"

/-- `ALLOWED`: that column for the lines of the key. -/
def allowedOf (runtime : List PeerEntry) (pub : String) : String :=
  "\n".intercalate ((runtime.filter fun e => e.key = pub).map PeerEntry.column)

/-- `die` -/
def die (reason : String) : Reply := .refused ("error: " ++ reason)

/-- The rewritten config, or why it must not reach the file. -/
def rewriteConf (pub : String) (conf : List Line) : Except String (List Line) :=
  let tmp := dropBlocks confMarks (carries pub) conf
  let before := (conf.filter isPeerLine).length
  let after := (tmp.filter isPeerLine).length
  if after + 1 ≠ before then
    .error ("refusing to write: peer blocks went from " ++ toString before ++ " to "
      ++ toString after)
  else if tmp.any (mentions pub) then
    .error "refusing to write: key still present after removal"
  else if !tmp.any isInterfaceLine then
    .error "refusing to write: result has no [Interface] section"
  else .ok tmp

/-- What one run of the script meets outside: whether `awg set` succeeds, and the
name of the backup file. -/
structure DelRun where
  sets : Bool := true
  backup : String := ""

/-- The runtime part, after the config. -/
def delRuntime (run : DelRun) (node : NodeState) (allowed pub : String) : Reply × NodeState :=
  if allowed = "" then (.ok, node)
  else if run.sets then (.ok, { node with runtime := node.runtime.filter fun e => e.key ≠ pub })
  else (die ("config updated (backup at " ++ run.backup ++ ") but runtime removal failed"), node)

/-- `pwa-del-peer <public-key>` -/
def pwaDelPeer (run : DelRun) (node : NodeState) (pub : String) : Reply × NodeState :=
  if !isPublicKey pub then (die "malformed public key", node)
  else match node.conf with
    | none => (die "config not found: /etc/amnezia/amneziawg/awg0.conf", node)
    | some conf =>
        let allowed := allowedOf node.runtime pub
        let inConfig := conf.any (mentions pub)
        if allowed = "" ∧ inConfig = false then (die "peer not found in runtime or config", node)
        else if allowed ≠ "" ∧ inClientSubnet allowed = false then
          (die ("refusing: " ++ allowed ++ " is outside the client subnets"), node)
        else if inConfig then
          match rewriteConf pub conf with
          | .error reason => (die reason, node)
          | .ok conf' => delRuntime run { node with conf := some conf' } allowed pub
        else delRuntime run node allowed pub

/-! ### What a run can do -/

/-- The config after a run: as it was, or without the blocks of the key. -/
def ConfStep (pub : String) (conf conf' : Option (List Line)) : Prop :=
  conf' = conf ∨ ∃ lines, conf = some lines
    ∧ conf' = some (dropBlocks confMarks (carries pub) lines)

/-- The runtime after a run: as it was, or without the key. -/
def RuntimeStep (pub : String) (runtime runtime' : List PeerEntry) : Prop :=
  runtime' = runtime ∨ runtime' = runtime.filter fun e => e.key ≠ pub

/-- The guards of a rewrite that is let through. -/
lemma rewriteConf_guards {pub : String} {conf conf' : List Line}
    (h : rewriteConf pub conf = .ok conf') :
    conf' = dropBlocks confMarks (carries pub) conf
      ∧ (conf'.filter isPeerLine).length + 1 = (conf.filter isPeerLine).length
      ∧ (∀ l ∈ conf', mentions pub l = false) ∧ conf'.any isInterfaceLine = true := by
  unfold rewriteConf at h
  dsimp only at h
  split_ifs at h with hcount hmention hface
  obtain rfl := Except.ok.inj h
  refine ⟨rfl, not_not.mp hcount, fun l hl => ?_, by simpa using hface⟩
  rw [Bool.not_eq_true, List.any_eq_false] at hmention
  simpa using hmention l hl

/-- **What one run can do.** It refuses and changes nothing, or it gets past its
checks: the file is rewritten if it mentions the key, and then the runtime is
dealt with. -/
lemma pwaDelPeer_cases (run : DelRun) (node : NodeState) (pub : String) :
    (∃ reason, pwaDelPeer run node pub = (.refused reason, node))
      ∨ (isPublicKey pub = true ∧ ∃ conf conf', node.conf = some conf
        ∧ ((conf.any (mentions pub) = true ∧ rewriteConf pub conf = .ok conf')
          ∨ (conf.any (mentions pub) = false ∧ conf' = conf ∧ allowedOf node.runtime pub ≠ ""))
        ∧ (allowedOf node.runtime pub ≠ "" → inClientSubnet (allowedOf node.runtime pub) = true)
        ∧ pwaDelPeer run node pub
          = delRuntime run { node with conf := some conf' } (allowedOf node.runtime pub) pub) := by
  unfold pwaDelPeer
  split
  · exact Or.inl ⟨_, rfl⟩
  · rename_i hpub
    split
    · exact Or.inl ⟨_, rfl⟩
    · rename_i conf hconf
      dsimp only
      split
      · exact Or.inl ⟨_, rfl⟩
      · rename_i hfound
        split
        · exact Or.inl ⟨_, rfl⟩
        · rename_i hsubnet
          have hclient : allowedOf node.runtime pub ≠ "" →
              inClientSubnet (allowedOf node.runtime pub) = true := by
            intro hne
            by_contra hnot
            exact hsubnet ⟨hne, by simpa using hnot⟩
          split
          · rename_i hin
            split
            · exact Or.inl ⟨_, rfl⟩
            · rename_i conf' hrewrite
              exact Or.inr ⟨by simpa using hpub, conf, conf', hconf, Or.inl ⟨hin, hrewrite⟩, hclient, rfl⟩
          · rename_i hin
            rw [Bool.not_eq_true] at hin
            refine Or.inr ⟨by simpa using hpub, conf, conf, hconf,
              Or.inr ⟨hin, rfl, fun hempty => hfound ⟨hempty, hin⟩⟩, hclient, ?_⟩
            rw [← hconf]

lemma delRuntime_step (run : DelRun) (node : NodeState) (allowed pub : String) :
    (delRuntime run node allowed pub).2.conf = node.conf
      ∧ RuntimeStep pub node.runtime (delRuntime run node allowed pub).2.runtime := by
  unfold delRuntime
  split_ifs
  · exact ⟨rfl, Or.inl rfl⟩
  · exact ⟨rfl, Or.inr rfl⟩
  · exact ⟨rfl, Or.inl rfl⟩

/-- Nothing but the peer of the key is touched. -/
lemma pwaDelPeer_step (run : DelRun) (node : NodeState) (pub : String) :
    ConfStep pub node.conf (pwaDelPeer run node pub).2.conf
      ∧ RuntimeStep pub node.runtime (pwaDelPeer run node pub).2.runtime := by
  rcases pwaDelPeer_cases run node pub with ⟨reason, hrun⟩ | ⟨-, conf, conf', hconf, hfile, -, hrun⟩
  · rw [hrun]
    exact ⟨Or.inl rfl, Or.inl rfl⟩
  · obtain ⟨hc, hr⟩ := delRuntime_step run { node with conf := some conf' }
      (allowedOf node.runtime pub) pub
    rw [hrun]
    refine ⟨?_, hr⟩
    rw [hc]
    rcases hfile with ⟨-, hrewrite⟩ | ⟨-, rfl, -⟩
    · exact Or.inr ⟨conf, hconf, by rw [(rewriteConf_guards hrewrite).1]⟩
    · exact Or.inl hconf.symm

lemma delRuntime_ne_raised (run : DelRun) (node : NodeState) (allowed pub : String) :
    (delRuntime run node allowed pub).1 ≠ .raised := by
  unfold delRuntime
  split_ifs <;> simp [die]

/-- The script ends with an answer. -/
lemma pwaDelPeer_ne_raised (run : DelRun) (node : NodeState) (pub : String) :
    (pwaDelPeer run node pub).1 ≠ .raised := by
  rcases pwaDelPeer_cases run node pub with ⟨reason, hrun⟩ | ⟨-, conf, conf', -, -, -, hrun⟩
  · rw [hrun]
    simp
  · rw [hrun]
    exact delRuntime_ne_raised _ _ _ _

lemma allowedOf_step {pub other : String} {runtime runtime' : List PeerEntry}
    (h : RuntimeStep other runtime runtime') (hne : pub ≠ other) :
    allowedOf runtime' pub = allowedOf runtime pub := by
  rcases h with rfl | rfl
  · rfl
  · unfold allowedOf
    rw [List.filter_filter]
    congr 2
    refine List.filter_congr fun e _ => ?_
    by_cases hkey : e.key = pub
    · simp [hkey, hne]
    · simp [hkey]

/-! ### Peers that are there -/

/-- A config file that is an `[Interface]` section and peer blocks, in which the
key stands in at most one block and nowhere else. -/
def Listed (conf : List Line) (pub : String) : Prop :=
  ∃ (header : List Line) (blocks : List (Block confMarks)), conf = flatten header blocks
    ∧ Header confMarks header ∧ header.any isInterfaceLine = true
    ∧ (blocks.filter (Block.isHit (carries pub))).length ≤ 1
    ∧ ∀ l ∈ flatten header (survivors (carries pub) blocks), mentions pub l = false

/-- The peer runs on the node with a client address, and the config file is
well-formed. -/
structure Held (node : NodeState) (pub : String) : Prop where
  key : isPublicKey pub = true
  running : inClientSubnet (allowedOf node.runtime pub) = true
  listed : ∃ conf, node.conf = some conf ∧ Listed conf pub

/-- The peer is in neither place. -/
structure Gone (node : NodeState) (pub : String) : Prop where
  runtime : ∀ e ∈ node.runtime, e.key ≠ pub
  conf : ∀ conf, node.conf = some conf → ∀ l ∈ conf, mentions pub l = false

lemma ne_empty_of_inClientSubnet {allowed : String} (h : inClientSubnet allowed = true) :
    allowed ≠ "" := by
  rintro rfl
  revert h
  decide

lemma allowedOf_eq_empty {runtime : List PeerEntry} {pub : String}
    (h : ∀ e ∈ runtime, e.key ≠ pub) : allowedOf runtime pub = "" := by
  have hnil : runtime.filter (fun e => e.key = pub) = [] :=
    List.filter_eq_nil_iff.mpr fun e he => by simp [h e he]
  rw [allowedOf, hnil]
  rfl

lemma PeerEntry.column_ne_empty (e : PeerEntry) : e.column ≠ "" := by
  unfold PeerEntry.column
  cases h : e.allowedIps.find? (· ≠ "") with
  | none => decide
  | some ip => simpa using List.find?_some h

lemma intercalate_ne_empty {sep x : String} {rest : List String} (hx : x ≠ "") :
    sep.intercalate (x :: rest) ≠ "" := by
  intro h
  have hlist : sep.toList.intercalate ((x :: rest).map String.toList) = [] := by
    rw [← String.toList_intercalate, h]
    rfl
  cases rest with
  | nil => exact hx (by simpa [List.intercalate] using hlist)
  | cons y ys =>
      simp only [List.intercalate, List.map_cons, List.intersperse, List.flatten_cons,
        List.append_eq_nil_iff, String.toList_eq_nil_iff] at hlist
      exact hx hlist.1

/-- A running peer has something in that column. -/
lemma allowedOf_ne_empty {runtime : List PeerEntry} {e : PeerEntry} (he : e ∈ runtime) :
    allowedOf runtime e.key ≠ "" := by
  unfold allowedOf
  have hmem : e ∈ runtime.filter fun x => x.key = e.key := List.mem_filter.mpr ⟨he, by simp⟩
  obtain ⟨x, rest, hsplit⟩ := List.exists_cons_of_ne_nil (List.ne_nil_of_mem hmem)
  rw [hsplit, List.map_cons]
  exact intercalate_ne_empty x.column_ne_empty

/-- A removal that is refused leaves the runtime, one that is confirmed takes the
key off it. -/
lemma pwaDelPeer_runtime (run : DelRun) (node : NodeState) (pub : String) :
    ((pwaDelPeer run node pub).1 = .ok ∧ (pwaDelPeer run node pub).2.runtime
        = node.runtime.filter fun e => e.key ≠ pub)
      ∨ ((∃ reason, (pwaDelPeer run node pub).1 = .refused reason)
        ∧ (pwaDelPeer run node pub).2.runtime = node.runtime) := by
  rcases pwaDelPeer_cases run node pub with ⟨reason, hrun⟩ | ⟨-, conf, conf', -, -, -, hrun⟩
  · rw [hrun]
    exact Or.inr ⟨⟨reason, rfl⟩, rfl⟩
  · rw [hrun]
    unfold delRuntime
    split_ifs with hnone hsets
    · -- nothing runs under the key
      refine Or.inl ⟨rfl, (List.filter_eq_self.mpr fun e he => ?_).symm⟩
      simp only [decide_eq_true_eq, ne_eq]
      rintro rfl
      exact allowedOf_ne_empty he hnone
    · exact Or.inl ⟨rfl, rfl⟩
    · exact Or.inr ⟨⟨_, rfl⟩, rfl⟩

/-- A held peer is on the node. -/
lemma Held.mem {node : NodeState} {pub : String} (h : Held node pub) :
    ∃ e ∈ node.runtime, e.key = pub := by
  by_contra hno
  push Not at hno
  exact ne_empty_of_inClientSubnet h.running (allowedOf_eq_empty hno)

lemma mem_flatten {header : List Line} {blocks blocks' : List (Block confMarks)}
    (h : ∀ b ∈ blocks, b ∈ blocks') {l : Line} (hl : l ∈ flatten header blocks) :
    l ∈ flatten header blocks' := by
  unfold flatten at hl ⊢
  rcases List.mem_append.mp hl with hl | hl
  · exact List.mem_append_left _ hl
  · obtain ⟨b, hb, hmem⟩ := List.mem_flatMap.mp hl
    exact List.mem_append_right _ (List.mem_flatMap.mpr ⟨b, h b hb, hmem⟩)

/-- A removal of any key leaves a well-formed file. -/
lemma Listed.dropBlocks {conf : List Line} {pub : String} (h : Listed conf pub) (other : String) :
    Listed (dropBlocks confMarks (carries other) conf) pub := by
  obtain ⟨header, blocks, rfl, hheader, hface, hone, hnone⟩ := h
  have hsub : ∀ b ∈ survivors (carries other) blocks, b ∈ blocks :=
    fun b hb => (List.mem_filter.mp hb).1
  refine ⟨header, survivors (carries other) blocks, dropBlocks_flatten hheader blocks, hheader,
    hface, ?_, fun l hl => hnone l (mem_flatten ?_ hl)⟩
  · exact ((List.filter_sublist.filter _).length_le).trans hone
  · intro b hb
    obtain ⟨hb, hhit⟩ := List.mem_filter.mp hb
    exact List.mem_filter.mpr ⟨hsub b hb, hhit⟩

lemma Listed.confStep {conf : List Line} {conf' : Option (List Line)} {pub other : String}
    (h : Listed conf pub) (hstep : ConfStep other (some conf) conf') :
    ∃ lines, conf' = some lines ∧ Listed lines pub := by
  rcases hstep with rfl | ⟨lines, hlines, rfl⟩
  · exact ⟨conf, rfl, h⟩
  · obtain rfl := Option.some.inj hlines
    exact ⟨_, rfl, h.dropBlocks other⟩

/-- A removal of another key leaves a held peer alone. -/
lemma Held.of_other {node : NodeState} {pub other : String} (h : Held node pub)
    (hne : pub ≠ other) (run : DelRun) : Held (pwaDelPeer run node other).2 pub := by
  obtain ⟨hconf, hruntime⟩ := pwaDelPeer_step run node other
  obtain ⟨conf, hsome, hlisted⟩ := h.listed
  rw [hsome] at hconf
  refine ⟨h.key, ?_, hlisted.confStep hconf⟩
  rw [allowedOf_step hruntime hne]
  exact h.running

lemma title_not_peer (l : Line) (h : confMarks.title l = true) : confMarks.mark l = false := by
  cases l with
  | nil => cases h
  | cons c rest =>
      have hc : '#' = c ∧ ['#', '#'] <+: rest := by simpa [confMarks, List.isPrefixOf] using h
      rw [← hc.1]
      rfl

/-- A well-formed file that holds the key is rewritten, and the key is gone. -/
lemma Listed.rewriteConf {conf : List Line} {pub : String} (h : Listed conf pub)
    (hin : conf.any (mentions pub) = true) :
    rewriteConf pub conf = .ok (Blocks.dropBlocks confMarks (carries pub) conf)
      ∧ ∀ l ∈ Blocks.dropBlocks confMarks (carries pub) conf, mentions pub l = false := by
  obtain ⟨header, blocks, rfl, hheader, hface, hone, hnone⟩ := h
  have hdrop : Blocks.dropBlocks confMarks (carries pub) (flatten header blocks)
      = flatten header (survivors (carries pub) blocks) := dropBlocks_flatten hheader blocks
  have hcount : (survivors (carries pub) blocks).length
      + (blocks.filter (Block.isHit (carries pub))).length = blocks.length := by
    rw [survivors, Nat.add_comm]
    exact (List.length_eq_length_filter_add _).symm
  -- a file without a block of the key would not mention it
  have hpos : (blocks.filter (Block.isHit (carries pub))).length ≠ 0 := by
    intro hzero
    have hall : survivors (carries pub) blocks = blocks := by
      refine List.filter_eq_self.mpr fun b hb => ?_
      have := List.filter_eq_nil_iff.mp (List.length_eq_zero_iff.mp hzero) b hb
      simpa using this
    rw [hall] at hnone
    obtain ⟨l, hl, hmention⟩ := List.any_eq_true.mp hin
    rw [hnone l hl] at hmention
    cases hmention
  have hbefore : ((flatten header blocks).filter isPeerLine).length = blocks.length :=
    count_mark title_not_peer hheader blocks
  have hafter : ((flatten header (survivors (carries pub) blocks)).filter isPeerLine).length
      = (survivors (carries pub) blocks).length := count_mark title_not_peer hheader _
  have hmention : (flatten header (survivors (carries pub) blocks)).any (mentions pub) = false := by
    rw [List.any_eq_false]
    intro l hl
    simp [hnone l hl]
  have hinterface : (flatten header (survivors (carries pub) blocks)).any isInterfaceLine = true := by
    rw [flatten, List.any_append, hface, Bool.true_or]
  rw [hdrop]
  refine ⟨?_, hnone⟩
  unfold VpnPortal.rewriteConf
  dsimp only
  rw [hdrop, hbefore, hafter, hmention, hinterface, if_neg (by omega)]
  rfl

/-- The config part on a held peer. -/
lemma Held.conf_done {node : NodeState} {pub : String} (h : Held node pub) (run : DelRun) :
    ∃ conf', pwaDelPeer run node pub
        = delRuntime run { node with conf := some conf' } (allowedOf node.runtime pub) pub
      ∧ Listed conf' pub ∧ ∀ l ∈ conf', mentions pub l = false := by
  obtain ⟨conf, hsome, hlisted⟩ := h.listed
  have hne := ne_empty_of_inClientSubnet h.running
  unfold pwaDelPeer
  rw [h.key, hsome]
  cases hin : conf.any (mentions pub) with
  | false =>
      refine ⟨conf, ?_, hlisted, fun l hl => ?_⟩
      · simp [hne, h.running, hin, ← hsome]
      · simpa using List.any_eq_false.mp hin l hl
  | true =>
      obtain ⟨hrewrite, hnone⟩ := hlisted.rewriteConf hin
      refine ⟨_, ?_, hlisted.dropBlocks pub, hnone⟩
      simp [hne, h.running, hin, hrewrite]

/-- **A held peer is removed** from both places and confirmed, when `awg set`
succeeds. -/
lemma pwaDelPeer_held {node : NodeState} {pub : String} (h : Held node pub) {run : DelRun}
    (hsets : run.sets = true) :
    (pwaDelPeer run node pub).1 = .ok ∧ Gone (pwaDelPeer run node pub).2 pub := by
  obtain ⟨conf', heq, -, hnone⟩ := h.conf_done run
  rw [heq, delRuntime, if_neg (ne_empty_of_inClientSubnet h.running), if_pos hsets]
  refine ⟨rfl, ?_, ?_⟩
  · intro e he
    simpa using (List.mem_filter.mp he).2
  · intro conf hconf
    obtain rfl := Option.some.inj hconf
    exact hnone

/-- When `awg set` fails the peer keeps running. -/
lemma Held.of_unset {node : NodeState} {pub : String} (h : Held node pub) {run : DelRun}
    (hsets : run.sets = false) : Held (pwaDelPeer run node pub).2 pub := by
  obtain ⟨conf', heq, hlisted, -⟩ := h.conf_done run
  rw [heq, delRuntime, if_neg (ne_empty_of_inClientSubnet h.running), if_neg (by simp [hsets])]
  exact ⟨h.key, h.running, conf', rfl, hlisted⟩

/-! ### Peers that are gone -/

/-- **A peer that is gone is refused.** -/
lemma pwaDelPeer_gone {node : NodeState} {pub : String} (h : Gone node pub) (run : DelRun) :
    (pwaDelPeer run node pub).1 ≠ .ok ∧ (pwaDelPeer run node pub).2 = node := by
  unfold pwaDelPeer
  split
  · exact ⟨by simp [die], rfl⟩
  · split
    · exact ⟨by simp [die], rfl⟩
    · rename_i conf hconf
      have hin : conf.any (mentions pub) = false := by
        rw [List.any_eq_false]
        intro l hl
        simp [h.conf conf hconf l hl]
      simp [allowedOf_eq_empty h.runtime, hin, die]

/-- No removal brings a peer back. -/
lemma Gone.of_any {node : NodeState} {pub : String} (h : Gone node pub) (run : DelRun)
    (other : String) : Gone (pwaDelPeer run node other).2 pub := by
  obtain ⟨hconf, hruntime⟩ := pwaDelPeer_step run node other
  constructor
  · intro e he
    rcases hruntime with heq | heq
    · exact h.runtime e (heq ▸ he)
    · rw [heq] at he
      exact h.runtime e (List.mem_filter.mp he).1
  · intro conf hsome l hl
    rcases hconf with heq | ⟨lines, hlines, heq⟩
    · exact h.conf conf (heq ▸ hsome) l hl
    · rw [hsome] at heq
      obtain rfl := Option.some.inj heq
      exact h.conf lines hlines l (mem_dropBlocks hl)

end VpnPortal
