/-
A reviewed removal list is applied completely or not at all, and when it is not.

The lines are checked by address, the removals are made by key: `pwa-del-peer`
looks at the first allowed address of the peer only, and a key that is gone is an
error. So a list that gets past the checks is applied as a whole exactly if each
peer it names has a client address first, and no peer is named by two lines.

* `Agrees`: the config file agrees with the running interface;
* `pwaDelPeer_tidy`, `removeAll_clients`: on such a node the removals of distinct clients
  all succeed;
* `clients_of_removeAll`: removals of running peers that all succeed are of distinct
  clients;
* `list_applied_whole`: **a list is applied completely or not at all** exactly if a check
  stops it or its peers are distinct clients; `list_applied_in_part`: one that is not.
-/
import VpnPortal.Nodes.Remove
import VpnPortal.Nodes.Together

namespace VpnPortal.PeerRemove

open Blocks

/-! ### The config and the interface -/

/-- In the file made of `header` and `blocks` the key stands in at most one block
and nowhere else. -/
structure Tidy (header : List Line) (blocks : List (Block confMarks)) (pub : String) : Prop where
  once : (blocks.filter (Block.isHit (carries pub))).length ≤ 1
  alone : ∀ l ∈ flatten header (survivors (carries pub) blocks), mentions pub l = false

/-- The file made of `header` and `blocks` agrees with the running interface: each
peer has its block, which is no other peer's, and its key stands nowhere else. -/
structure Agrees (node : NodeState) (header : List Line) (blocks : List (Block confMarks)) :
    Prop where
  conf : node.conf = some (flatten header blocks)
  plain : Header confMarks header
  interface : header.any isInterfaceLine = true
  keys : ∀ e ∈ node.runtime, isPublicKey e.key = true
  listed : ∀ e ∈ node.runtime, (blocks.filter (Block.isHit (carries e.key))).length = 1
  alone : ∀ e ∈ node.runtime, ∀ l ∈ flatten header (survivors (carries e.key) blocks),
    mentions e.key l = false
  own : ∀ e ∈ node.runtime, ∀ x ∈ node.runtime, ∀ b ∈ blocks,
    b.isHit (carries e.key) = true → b.isHit (carries x.key) = true → e.key = x.key

section Calls

variable {header : List Line} {blocks : List (Block confMarks)} {node : NodeState} {pub : String}

lemma Agrees.tidy (h : Agrees node header blocks) {e : PeerEntry} (he : e ∈ node.runtime) :
    Tidy header blocks e.key :=
  ⟨(h.listed e he).le, h.alone e he⟩

/-- Blocks that go leave the others tidy. -/
lemma Tidy.filter (h : Tidy header blocks pub) (p : Block confMarks → Bool) :
    Tidy header (blocks.filter p) pub where
  once := ((List.filter_sublist.filter _).length_le).trans h.once
  alone l hl := h.alone l (mem_flatten (fun b hb => by
    obtain ⟨hb, hhit⟩ := List.mem_filter.mp hb
    exact List.mem_filter.mpr ⟨(List.mem_filter.mp hb).1, hhit⟩) hl)

/-- A block of the key mentions it. -/
lemma mentions_of_isHit {b : Block confMarks} (h : b.isHit (carries pub) = true) :
    ∃ l ∈ b.lines, mentions pub l = true := by
  obtain ⟨l, hl, hcarries⟩ := List.any_eq_true.mp h
  refine ⟨l, ?_, decide_eq_true (infix_of_keyOf (by simpa [carries] using hcarries))⟩
  unfold Block.lines
  exact List.mem_append_right _ (List.mem_cons_of_mem _ hl)

/-- **One removal** of a client on a tidy node. -/
lemma pwaDelPeer_tidy (hconf : node.conf = some (flatten header blocks))
    (hheader : Header confMarks header) (hface : header.any isInterfaceLine = true)
    (htidy : Tidy header blocks pub) (hkey : isPublicKey pub = true)
    (hclient : inClientSubnet (allowedOf node.runtime pub) = true) {run : DelRun}
    (hsets : run.sets = true) :
    pwaDelPeer run node pub = (.ok,
      { runtime := node.runtime.filter fun e => e.key ≠ pub,
        conf := some (flatten header (survivors (carries pub) blocks)) }) := by
  have hlisted : Listed (flatten header blocks) pub :=
    ⟨header, blocks, rfl, hheader, hface, htidy.once, htidy.alone⟩
  have hne := ne_empty_of_inClientSubnet hclient
  unfold pwaDelPeer
  rw [hkey, hconf]
  cases hin : (flatten header blocks).any (mentions pub) with
  | false =>
    -- without a mention there is no block of the key either
    have hall : survivors (carries pub) blocks = blocks := by
      refine List.filter_eq_self.mpr fun b hb => ?_
      by_contra hhit
      obtain ⟨l, hl, hmention⟩ := mentions_of_isHit (by simpa using hhit)
      have hmem : l ∈ flatten header blocks :=
        List.mem_append_right _ (List.mem_flatMap.mpr ⟨b, hb, hl⟩)
      have := List.any_eq_false.mp hin l hmem
      simp [hmention] at this
    simp [hne, hclient, hin, hall, delRuntime, hsets, hconf]
  | true =>
    obtain ⟨hrewrite, -⟩ := hlisted.rewriteConf hin
    rw [dropBlocks_flatten hheader blocks] at hrewrite
    simp [hne, hclient, hin, hrewrite, delRuntime, hsets]

/-- The blocks of the file that are left when the keys are gone. -/
def without (keys : List String) (blocks : List (Block confMarks)) : List (Block confMarks) :=
  blocks.filter fun b => keys.all fun key => !b.isHit (carries key)

lemma without_cons (key : String) (keys : List String) (blocks : List (Block confMarks)) :
    without keys (survivors (carries key) blocks) = without (key :: keys) blocks := by
  unfold without survivors
  rw [List.filter_filter]
  exact List.filter_congr fun b _ => by simp [Bool.and_comm]

/-- **All removals** on a tidy node, if the peers are clients and distinct. -/
lemma removeAll_clients {runs : ℕ → DelRun} (hsets : ∀ k, (runs k).sets = true)
    (hheader : Header confMarks header) (hface : header.any isInterfaceLine = true)
    (plan : List Planned) (k : ℕ) {blocks : List (Block confMarks)} {node : NodeState}
    (hconf : node.conf = some (flatten header blocks))
    (htidy : ∀ p ∈ plan, Tidy header blocks p.pub) (hkeys : ∀ p ∈ plan, isPublicKey p.pub = true)
    (hclient : ∀ p ∈ plan, inClientSubnet (allowedOf node.runtime p.pub) = true)
    (hdistinct : (plan.map Planned.pub).Nodup) :
    removeAll runs k plan node = (plan.map fun _ => Reply.ok,
      { runtime := node.runtime.filter fun e => e.key ∉ plan.map Planned.pub,
        conf := some (flatten header (without (plan.map Planned.pub) blocks)) }) := by
  induction plan generalizing k blocks node with
  | nil =>
    have hall : without [] blocks = blocks := List.filter_eq_self.mpr fun _ _ => rfl
    simp [removeAll, hall, ← hconf]
  | cons p plan ih =>
    obtain ⟨hnew, hdistinct⟩ := List.nodup_cons.mp hdistinct
    have hcall := pwaDelPeer_tidy hconf hheader hface (htidy p List.mem_cons_self)
      (hkeys p List.mem_cons_self) (hclient p List.mem_cons_self) (hsets k)
    have hrest := @ih (k + 1) (survivors (carries p.pub) blocks)
      { runtime := node.runtime.filter fun e => e.key ≠ p.pub,
        conf := some (flatten header (survivors (carries p.pub) blocks)) } rfl
      (fun q hq => (htidy q (List.mem_cons_of_mem _ hq)).filter _)
      (fun q hq => hkeys q (List.mem_cons_of_mem _ hq)) (fun q hq => ?_) hdistinct
    · rw [removeAll, hcall]
      dsimp only
      rw [hrest, without_cons]
      simp only [List.map_cons, List.filter_filter, List.mem_cons, not_or]
      congr 3
      funext e
      by_cases he : e.key = p.pub <;> simp [he]
    · have hne : q.pub ≠ p.pub := by
        intro he
        exact hnew (he ▸ List.mem_map_of_mem hq)
      rw [allowedOf_step (.inr rfl) hne]
      exact hclient q (List.mem_cons_of_mem _ hq)

/-! ### Removals that all succeed -/

/-- A removal that is confirmed has taken the key off both places. -/
lemma gone_of_ok {run : DelRun} (h : (pwaDelPeer run node pub).1 = .ok) :
    Gone (pwaDelPeer run node pub).2 pub := by
  constructor
  · intro e he
    rcases pwaDelPeer_runtime run node pub with ⟨-, hruntime⟩ | ⟨⟨reason, hrefused⟩, -⟩
    · rw [hruntime] at he
      simpa using (List.mem_filter.mp he).2
    · rw [hrefused] at h
      cases h
  · rcases pwaDelPeer_cases run node pub with ⟨reason, hrun⟩ | ⟨-, conf, conf', -, hfile, -, hrun⟩
    · rw [hrun] at h
      cases h
    · intro lines hlines l hl
      rw [hrun, (delRuntime_step _ _ _ _).1] at hlines
      obtain rfl := Option.some.inj hlines
      rcases hfile with ⟨-, hrewrite⟩ | ⟨hnone, rfl, -⟩
      · exact (rewriteConf_guards hrewrite).2.2.1 l hl
      · simpa using List.any_eq_false.mp hnone l hl

/-- The first call succeeded and the others follow. -/
lemma removeAll_cons_ok {runs : ℕ → DelRun} {k : ℕ} {p : Planned} {plan : List Planned}
    (h : ∀ reply ∈ (removeAll runs k (p :: plan) node).1, reply = .ok) :
    (pwaDelPeer (runs k) node p.pub).1 = .ok ∧
      ∀ reply ∈ (removeAll runs (k + 1) plan (pwaDelPeer (runs k) node p.pub).2).1,
        reply = .ok := by
  rw [removeAll] at h
  rcases hcall : pwaDelPeer (runs k) node p.pub with ⟨reply, node'⟩
  rw [hcall] at h
  cases reply with
  | ok => exact ⟨rfl, fun reply hr => h reply (List.mem_cons_of_mem _ hr)⟩
  | refused reason => exact absurd (h _ List.mem_cons_self) (by simp)
  | raised => exact absurd (h _ List.mem_cons_self) (by simp)

/-- A peer that is gone is not among those removed with success. -/
lemma not_mem_of_gone {runs : ℕ → DelRun} {plan : List Planned} {k : ℕ} {node : NodeState}
    (hgone : Gone node pub) (h : ∀ reply ∈ (removeAll runs k plan node).1, reply = .ok) :
    pub ∉ plan.map Planned.pub := by
  induction plan generalizing k node with
  | nil => simp
  | cons p plan ih =>
    obtain ⟨hok, hrest⟩ := removeAll_cons_ok h
    rw [List.map_cons, List.mem_cons, not_or]
    refine ⟨?_, ih (hgone.of_any (runs k) p.pub) hrest⟩
    rintro rfl
    exact (pwaDelPeer_gone hgone (runs k)).1 hok

/-- **Removals of running peers that all succeed** are of distinct clients. -/
lemma clients_of_removeAll {runs : ℕ → DelRun} {plan : List Planned} {k : ℕ} {node : NodeState}
    (hrunning : ∀ p ∈ plan, ∃ e ∈ node.runtime, e.key = p.pub)
    (h : ∀ reply ∈ (removeAll runs k plan node).1, reply = .ok) :
    (∀ p ∈ plan, inClientSubnet (allowedOf node.runtime p.pub) = true) ∧
      (plan.map Planned.pub).Nodup := by
  induction plan generalizing k node with
  | nil => simp
  | cons p plan ih =>
    obtain ⟨hok, hrest⟩ := removeAll_cons_ok h
    have hnew := not_mem_of_gone (gone_of_ok hok) hrest
    have hne : ∀ q ∈ plan, q.pub ≠ p.pub := fun q hq he => hnew (he ▸ List.mem_map_of_mem hq)
    obtain ⟨-, hruntime⟩ := pwaDelPeer_step (runs k) node p.pub
    have hstill : ∀ q ∈ plan, ∃ e ∈ (pwaDelPeer (runs k) node p.pub).2.runtime, e.key = q.pub := by
      intro q hq
      obtain ⟨e, he, hkey⟩ := hrunning q (List.mem_cons_of_mem _ hq)
      refine ⟨e, ?_, hkey⟩
      rcases hruntime with heq | heq <;> rw [heq]
      · exact he
      · exact List.mem_filter.mpr ⟨he, by simpa [hkey] using hne q hq⟩
    obtain ⟨hclients, hdistinct⟩ := ih hstill hrest
    refine ⟨fun q hq => ?_, List.nodup_cons.mpr ⟨hnew, hdistinct⟩⟩
    rcases List.mem_cons.mp hq with rfl | hq
    · obtain ⟨e, he, hkey⟩ := hrunning q List.mem_cons_self
      rcases pwaDelPeer_cases (runs k) node q.pub with
        ⟨reason, hrun⟩ | ⟨-, conf, conf', -, -, hclient, -⟩
      · rw [hrun] at hok
        cases hok
      · exact hclient (hkey ▸ allowedOf_ne_empty he)
    · rw [← allowedOf_step hruntime (hne q hq)]
      exact hclients q hq

end Calls

/-! ### Completely or not at all -/

/-- What a reviewed list promises. Past the checks every call of `pwa-del-peer`
succeeds, and exactly the peers the lines match are gone from the interface and
the file; with a bad line, or a peer that `pwa-del-peer` would refuse, nothing
is changed. -/
def AppliedWhole (args : RemoveArgs) (node : NodeState) (header : List Line)
    (blocks : List (Block confMarks)) : Prop :=
  ((peerRemove args node).verdict ≠ .stopped →
    (peerRemove args node).verdict = .done ∧
      (∀ reply ∈ (peerRemove args node).replies, reply = .ok) ∧
      (peerRemove args node).node.runtime =
        node.runtime.filter (fun e => e.key ∉ matchedKeys args node.runtime) ∧
      (peerRemove args node).node.conf =
        some (flatten header (without (matchedKeys args node.runtime) blocks))) ∧
  (¬ Accepted args node.runtime ∨
      (∃ key ∈ matchedKeys args node.runtime, (pwaDelPeer {} node key).1 ≠ .ok) →
    (peerRemove args node).node = node)

section Whole

variable {args : RemoveArgs} {node : NodeState} {header : List Line}
  {blocks : List (Block confMarks)}

/-- A matched peer runs. -/
lemma running_of_matched {key : String} (h : key ∈ matchedKeys args node.runtime) :
    ∃ e ∈ node.runtime, e.key = key := by
  obtain ⟨entry, -, hkey⟩ := List.mem_flatMap.mp h
  obtain ⟨e, he, rfl⟩ := List.mem_map.mp hkey
  obtain ⟨x, hx, hmem⟩ := List.mem_flatMap.mp he
  obtain ⟨-, -, rfl⟩ := List.mem_map.mp hmem
  exact ⟨x, hx, rfl⟩

/-- A bad line stops the script. -/
lemma peerRemove_stopped (h : ¬ Accepted args node.runtime) :
    peerRemove args node = ⟨.stopped, [], node⟩ := by
  have hreview := (review_accepted args node.runtime).1.not.mpr h
  unfold peerRemove
  dsimp only
  rw [if_pos]
  by_cases hproblems : (review args node.runtime).problems = []
  · by_cases hplan : (review args node.runtime).plan = []
    · exact .inr (.inr hplan)
    · exact absurd ⟨hproblems, hplan⟩ hreview
  · exact .inr (.inl hproblems)

/-- Past the checks the removals are made. -/
lemma peerRemove_accepted (h : Accepted args node.runtime) (hconf : node.conf ≠ none)
    (happly : args.apply = true) :
    (peerRemove args node).verdict ≠ .stopped ∧
      (peerRemove args node).replies =
        (removeAll args.runs 0 (review args node.runtime).plan node).1 ∧
      (peerRemove args node).node =
        (removeAll args.runs 0 (review args node.runtime).plan node).2 := by
  obtain ⟨hproblems, hplan⟩ := (review_accepted args node.runtime).1.mpr h
  unfold peerRemove
  dsimp only
  rw [if_neg (by simp [hconf, hproblems, hplan]), happly]
  simp only [Bool.not_true, Bool.false_eq_true, if_false]
  split
  · exact ⟨by simp, rfl, rfl⟩
  · split
    · exact ⟨by simp, rfl, rfl⟩
    · exact ⟨by simp, rfl, rfl⟩

/-- After the removals the keys are gone from both places. -/
lemma not_stillThere {keys : List String} {key : String} (hkey : key ∈ keys)
    (htidy : Tidy header blocks key) (runtime : List PeerEntry) :
    stillThere { runtime := runtime.filter fun e => e.key ∉ keys,
                 conf := some (flatten header (without keys blocks)) } key = false := by
  have hfile : (flatten header (without keys blocks)).any (mentions key) = false := by
    rw [List.any_eq_false]
    intro l hl
    have hmention := htidy.alone l (mem_flatten (fun b hb => ?_) hl)
    · simp [hmention]
    · obtain ⟨hb, hnone⟩ := List.mem_filter.mp hb
      exact List.mem_filter.mpr ⟨hb, List.all_eq_true.mp hnone key hkey⟩
  have hruntime : (runtime.filter fun e => e.key ∉ keys).any (fun e => decide (e.key = key))
      = false := by
    rw [List.any_eq_false]
    intro e he heq
    have hnot : e.key ∉ keys := by simpa using (List.mem_filter.mp he).2
    exact hnot (by rw [of_decide_eq_true heq]; exact hkey)
  unfold stillThere
  rw [hruntime, Bool.or_false]
  exact hfile

/-- **A reviewed list is applied completely or not at all** exactly if it is
stopped by a bad line, or each peer it matches has a client address first and no
two lines match the same peer. -/
theorem list_applied_whole (hagrees : Agrees node header blocks) (happly : args.apply = true)
    (hsets : ∀ k, (args.runs k).sets = true) :
    AppliedWhole args node header blocks ↔
      ¬ Accepted args node.runtime ∨
        ((∀ key ∈ matchedKeys args node.runtime,
            inClientSubnet (allowedOf node.runtime key) = true) ∧
          (matchedKeys args node.runtime).Nodup) := by
  have hconf : node.conf ≠ none := by simp [hagrees.conf]
  by_cases hok : Accepted args node.runtime
  swap
  · refine ⟨fun _ => .inl hok, fun _ => ?_⟩
    unfold AppliedWhole
    rw [peerRemove_stopped hok]
    exact ⟨fun h => absurd rfl h, fun _ => rfl⟩
  obtain ⟨hverdict, hreplies, hnode⟩ := peerRemove_accepted hok hconf happly
  have hproblems := ((review_accepted args node.runtime).1.mpr hok).1
  have hkeys := (review_accepted args node.runtime).2 hproblems
  have hmem : ∀ p ∈ (review args node.runtime).plan,
      p.pub ∈ matchedKeys args node.runtime :=
    fun p hp => hkeys ▸ List.mem_map_of_mem hp
  constructor
  · intro h
    obtain ⟨-, hall, -⟩ := h.1 hverdict
    rw [hreplies] at hall
    obtain ⟨hclients, hdistinct⟩ :=
      clients_of_removeAll (fun p hp => running_of_matched (hmem p hp)) hall
    rw [hkeys] at hdistinct
    refine .inr ⟨fun key hkey => ?_, hdistinct⟩
    rw [← hkeys] at hkey
    obtain ⟨p, hp, rfl⟩ := List.mem_map.mp hkey
    exact hclients p hp
  · rintro (hbad | ⟨hclients, hdistinct⟩)
    · exact absurd hok hbad
    have hheld : ∀ key ∈ matchedKeys args node.runtime,
        Tidy header blocks key ∧ isPublicKey key = true := by
      intro key hkey
      obtain ⟨e, he, rfl⟩ := running_of_matched hkey
      exact ⟨hagrees.tidy he, hagrees.keys e he⟩
    have hremoved := removeAll_clients hsets hagrees.plain hagrees.interface
      (review args node.runtime).plan 0 hagrees.conf (fun p hp => (hheld _ (hmem p hp)).1)
      (fun p hp => (hheld _ (hmem p hp)).2) (fun p hp => hclients _ (hmem p hp)) (hkeys ▸ hdistinct)
    rw [hkeys] at hremoved
    refine ⟨fun _ => ⟨?_, ?_, ?_, ?_⟩, ?_⟩
    · -- the last check finds nothing left
      obtain ⟨-, hplan⟩ := (review_accepted args node.runtime).1.mpr hok
      unfold peerRemove
      dsimp only
      rw [if_neg (by simp [hconf, hproblems, hplan]), happly, hremoved]
      simp only [Bool.not_true, Bool.false_eq_true, if_false]
      rw [if_neg (by simp), if_neg]
      simp only [List.any_eq_true, not_exists, not_and, Bool.not_eq_true]
      exact fun p hp => not_stillThere (hmem p hp) (hheld _ (hmem p hp)).1 node.runtime
    · rw [hreplies, hremoved]
      intro reply hreply
      obtain ⟨-, -, rfl⟩ := List.mem_map.mp hreply
      rfl
    · rw [hnode, hremoved]
    · rw [hnode, hremoved]
    · rintro (hbad | ⟨key, hkey, hrefused⟩)
      · exact absurd hok hbad
      · have hcall := @pwaDelPeer_tidy _ _ _ _ hagrees.conf hagrees.plain hagrees.interface
          (hheld key hkey).1 (hheld key hkey).2 (hclients key hkey) {} rfl
        exact absurd (by rw [hcall]) hrefused

end Whole

/-! ### A peer with another address first -/

/-- A key that repeats one letter. -/
def keyOfLetter (c : Char) : String := String.ofList (List.replicate 43 c ++ ['='])

/-- The block of such a key. -/
def blockOfLetter (c : Char) : Block confMarks where
  title := none
  mark := "[Peer]".toList
  body := [("PublicKey = " ++ keyOfLetter c).toList]
  isTitle := by simp
  isMark := isMark_peer
  plain := by
    intro l hl
    rw [List.mem_singleton.mp hl]
    have hlist : ("PublicKey = " ++ keyOfLetter c).toList =
        'P' :: ("ublicKey = " ++ keyOfLetter c).toList := by simp
    rw [hlist]
    exact ⟨rfl, rfl⟩

/-- Two peers, the second with a network behind it before its client address. -/
def routedNode (first : List String) : NodeState where
  runtime := [⟨keyOfLetter 'A', ["10.88.88.10/32"]⟩,
    ⟨keyOfLetter 'B', first ++ ["10.88.88.20/32"]⟩]
  conf := some (flatten ["[Interface]".toList] [blockOfLetter 'A', blockOfLetter 'B'])

/-- Both peers are on the list. -/
def bothPeers : RemoveArgs where
  list := ["10.88.88.10 AAAAAAAA".toList, "10.88.88.20 BBBBBBBB moved".toList]
  apply := true
  allowLive := false
  now := 1000000
  handshake _ := 0
  runs _ := {}

lemma agrees_routedNode (first : List String) :
    Agrees (routedNode first) ["[Interface]".toList] [blockOfLetter 'A', blockOfLetter 'B'] where
  conf := rfl
  plain := by unfold Header; decide
  interface := by decide
  keys := by simp only [routedNode, List.forall_mem_cons]; decide +kernel
  listed := by simp only [routedNode, List.forall_mem_cons]; decide +kernel
  alone := by simp only [routedNode, List.forall_mem_cons]; decide +kernel
  own := by
    have hA : (blockOfLetter 'B').isHit (carries (keyOfLetter 'A')) = false := by decide +kernel
    have hB : (blockOfLetter 'A').isHit (carries (keyOfLetter 'B')) = false := by decide +kernel
    simp [routedNode, hA, hB]

lemma accepted_of_review {args : RemoveArgs} {runtime : List PeerEntry}
    (h : (review args runtime).problems = [] ∧ (review args runtime).plan ≠ []) :
    Accepted args runtime :=
  (review_accepted args runtime).1.mp h

/-- A list of two clients is applied as a whole. -/
theorem list_applied_whole_two :
    Accepted bothPeers (routedNode []).runtime ∧
      AppliedWhole bothPeers (routedNode []) ["[Interface]".toList]
        [blockOfLetter 'A', blockOfLetter 'B'] :=
  ⟨accepted_of_review (by decide),
    (list_applied_whole (agrees_routedNode []) rfl fun _ => rfl).mpr
      (.inr (by decide))⟩

/-- The second peer's first address is no client's: the first peer is removed, and
then `pwa-del-peer` refuses. -/
theorem list_applied_in_part :
    Agrees (routedNode ["192.168.7.0/24"]) ["[Interface]".toList]
        [blockOfLetter 'A', blockOfLetter 'B'] ∧
      (peerRemove bothPeers (routedNode ["192.168.7.0/24"])).verdict = .refused 1 ∧
      ¬ AppliedWhole bothPeers (routedNode ["192.168.7.0/24"]) ["[Interface]".toList]
        [blockOfLetter 'A', blockOfLetter 'B'] := by
  have hverdict : (peerRemove bothPeers (routedNode ["192.168.7.0/24"])).verdict = .refused 1 := by
    decide
  refine ⟨agrees_routedNode _, hverdict, fun h => ?_⟩
  have hdone := (h.1 (by rw [hverdict]; simp)).1
  rw [hverdict] at hdone
  cases hdone

end VpnPortal.PeerRemove
