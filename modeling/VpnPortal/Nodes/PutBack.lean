/-
A removed list put back: `tools/peer-remove.sh --restore` for every address of a
list that was applied.

A removal keeps a snapshot of the dump and the file. Restoring one address puts
one peer back, with its preshared key, all its addresses and its keepalive; what
is lost is the endpoint, the counters and the last handshake. The peers of the
snapshot hold no address twice, so no restore takes an address from another peer,
in whatever order the addresses are given.

* `restoreAll`: the calls one after another;
* `Away`, `restore_away`, `Away.restored`: a call whose `awg set` works puts back a
  peer that is nowhere on the node, and the others that are away stay away;
* `kept_of_done`: a removal that ends well leaves the file without its blocks;
* `restoreAll_after_removal`: the peers of an applied list, restored in any order,
  are configured as they were, and each removed key is in the file once.
-/
import VpnPortal.Nodes.Reconcile

namespace VpnPortal.PeerRestore

open PeerRemove PeerReconcile

/-! ### The calls -/

/-- `--restore` for each address, with what each call meets: the endings, and the
node. -/
def restoreAll (runs : String → RestoreRun) (snap : Snapshot) : List String → Node →
    List Ending × Node
  | [], node => ([], node)
  | ip :: order, node =>
      let (ending, node') := restore (runs ip) (some snap) node ip
      let (endings, last) := restoreAll runs snap order node'
      (ending :: endings, last)

/-- The peer is nowhere on the node: not its key on the interface or in the file,
and none of its addresses. -/
structure Away (node : Node) (p : RunningPeer) : Prop where
  absent : ∀ q ∈ node.peers, q.pub ≠ p.pub
  free : ∀ q ∈ node.peers, ∀ a ∈ p.allowedIps, a ∉ q.allowedIps
  unlisted : (node.conf.getD []).any (mentionsKey p.pub.text) = false

/-- The node with the peer put back. -/
def putBack (conf : List Line) (node : Node) (p : RunningPeer) : Node :=
  { node with peers := node.peers ++ [p.args.peer],
              conf := some (node.conf.getD [] ++ newBlock conf p) }

/-- No key of the peers stands where another key or a title is meant. -/
structure KeysApart (peers : List RunningPeer) (conf : List Line) : Prop where
  titles : ∀ l ∈ conf, confMarks.title l = true → ∀ p ∈ peers, mentionsKey p.pub.text l = false
  shared : ∀ p ∈ peers, ∀ q ∈ peers, p.psk ≠ some q.pub

section

variable {peers : List RunningPeer} {conf : List Line} {face : Line}

/-- The title of a block is one of the file's, or there is none. -/
lemma headerOf_title (pub : Line) (conf : List Line) :
    headerOf pub conf = [] ∨
      (headerOf pub conf ∈ conf ∧ confMarks.title (headerOf pub conf) = true) := by
  have hscan : ∀ (lines : List Line) (s : HeaderScan),
      (s.title = [] ∨ (s.title ∈ conf ∧ confMarks.title s.title = true)) →
      (∀ t, s.found = some t → t = [] ∨ (t ∈ conf ∧ confMarks.title t = true)) →
      (∀ l ∈ lines, l ∈ conf) →
      ∀ t, (lines.foldl (HeaderScan.line pub) s).found = some t →
        t = [] ∨ (t ∈ conf ∧ confMarks.title t = true) := by
    intro lines
    induction lines with
    | nil => exact fun s _ hfound _ t ht => hfound t ht
    | cons l lines ih =>
      intro s htitle hfound hmem t ht
      refine ih (s.line pub l) ?_ ?_ (fun m hm => hmem m (List.mem_cons_of_mem _ hm)) t ht
      · unfold HeaderScan.line
        split_ifs with hdone hline hpeer hfresh hkey
        · exact htitle
        · exact .inr ⟨hmem l List.mem_cons_self, hline⟩
        · exact htitle
        · exact .inl rfl
        · exact htitle
        · exact htitle
      · unfold HeaderScan.line
        split_ifs with hdone hline hpeer hfresh hkey
        · exact hfound
        · exact hfound
        · exact hfound
        · exact hfound
        · intro u hu
          obtain rfl := Option.some.inj hu
          exact htitle
        · exact hfound
  rw [headerOf]
  cases hfound : (conf.foldl (HeaderScan.line pub) {}).found with
  | none => exact .inl rfl
  | some t => exact hscan conf {} (.inl rfl) (fun _ h => by cases h) (fun _ h => h) t hfound

lemma KeysApart.header (h : KeysApart peers conf) {p : RunningPeer} (hp : p ∈ peers) (pub : Line) :
    mentionsKey p.pub.text (headerOf pub conf) = false := by
  rcases headerOf_title pub conf with hnil | ⟨hmem, htitle⟩
  · rw [hnil]
    exact mentionsKey_short (by decide)
  · exact h.titles _ hmem htitle p hp

/-- A key behind a short text is found as itself only. -/
lemma mentionsKey_behind {k l : Key} {pre : Line} (hpre : pre.length ≤ 43)
    (h : mentionsKey k.text (pre ++ l.text) = true) : l = k := by
  obtain ⟨n, hget, hall⟩ := exists_of_mentionsKey h
  have hlen : ∀ k : Key, k.text.length = 44 := fun k => by simp [Key.text, k.length_body]
  have hlast : n = pre.length := by
    have hbody := l.length_body
    rw [List.getElem?_append_right (by omega), Key.text] at hget
    by_contra hne
    by_cases hin : n + 43 - pre.length < l.body.length
    · rw [List.getElem?_append_left hin] at hget
      exact absurd (l.base64 _ (List.mem_of_getElem? hget)) (by decide)
    · rw [List.getElem?_append_right (by omega), List.getElem?_eq_none (by simp; omega)] at hget
      cases hget
  refine Key.text_injective (List.ext_getElem? fun m => ?_)
  by_cases hm : m < 44
  · rw [← hall m hm, hlast, List.getElem?_append_right (by omega)]
    congr 1
    omega
  · rw [List.getElem?_eq_none (by rw [hlen]; omega), List.getElem?_eq_none (by rw [hlen]; omega)]

/-- A new block has no other peer's key. -/
lemma newBlock_unlisted (h : KeysApart peers conf) {p q : RunningPeer} (hp : p ∈ peers)
    (hq : q ∈ peers) (hne : p.pub ≠ q.pub) :
    (newBlock conf p).any (mentionsKey q.pub.text) = false := by
  have hnil : mentionsKey q.pub.text [] = false := mentionsKey_short (by decide)
  have hpeer : mentionsKey q.pub.text "[Peer]".toList = false := mentionsKey_short (by decide)
  have hpub : mentionsKey q.pub.text ("PublicKey = ".toList ++ p.pub.text) = false :=
    eq_false_of_ne_true fun hm => hne (mentionsKey_behind (by decide) hm)
  have hpsk : ∀ k, p.psk = some k →
      mentionsKey q.pub.text ("PresharedKey = ".toList ++ k.text) = false := fun k hk =>
    eq_false_of_ne_true fun hm => h.shared p hp q hq (by rw [hk, mentionsKey_behind (by decide) hm])
  have hips : mentionsKey q.pub.text ("AllowedIPs = ".toList ++ addressList p.allowedIps) = false := by
    refine mentionsKey_append (by decide) fun hmem => ?_
    rcases mem_addressList hmem with hm | hm | hm <;> revert hm <;> decide
  have hka : mentionsKey q.pub.text ("PersistentKeepalive = ".toList ++ number p.keepalive) = false := by
    refine mentionsKey_append (by decide) fun hmem => ?_
    rw [number_eq] at hmem
    exact absurd (Nat.isDigit_of_mem_toDigits (by decide) (by decide) hmem) (by decide)
  have hheader := h.header hq p.pub.text
  rw [List.any_eq_false]
  intro l hl
  rw [Bool.not_eq_true]
  simp only [newBlock, restoredBlock, List.mem_append, List.mem_cons, List.not_mem_nil, or_false,
    Option.mem_toList, Option.map_map, Option.map_eq_some_iff, Function.comp_apply] at hl
  rcases hl with (((((rfl | rfl) | hl) | rfl | rfl) | ⟨k, hk, rfl⟩) | rfl) | ⟨t, ht, rfl⟩
  · exact hnil
  · exact hnil
  · split_ifs at hl with hempty
    · cases hl
    · rw [List.mem_singleton.mp hl]
      exact hheader
  · exact hpeer
  · exact hpub
  · exact hpsk k hk
  · exact hips
  · split_ifs at ht
    cases ht
    exact hka

/-! ### One call -/

/-- An address of a peer that is away is not in use. -/
lemma Away.peersWith_eq_nil {node : Node} {p : RunningPeer} (h : Away node p) {ip : String}
    (hp : peersWith peers ip = [p]) : peersWith node.peers ip = [] := by
  obtain ⟨-, a, ha, htext⟩ := mem_of_peersWith hp
  rw [peersWith, List.flatMap_eq_nil_iff]
  intro q hq
  rw [List.map_eq_nil_iff, List.filter_eq_nil_iff]
  intro b hb heq
  rw [decide_eq_true_eq, ← htext] at heq
  have hab : b = a := by
    cases a
    cases b
    simpa using heq
  exact h.free q hq a ha (hab ▸ hb)

/-- **A peer that is away is put back.** -/
lemma restore_away (h : KeysApart peers conf) {run : RestoreRun} (hset : run.sets = true)
    {node : Node} {ip : String} {p : RunningPeer}
    (hip : clientIp ip = true) (hp : peersWith peers ip = [p]) (haway : Away node p) :
    restore run (some (takeSnapshot face peers conf)) node ip = (.ok, putBack conf node p) := by
  have hmem := (mem_of_peersWith hp).1
  have hcount : (node.conf.getD [] ++ newBlock conf p).countP (mentionsKey p.pub.text) = 1 := by
    have hnone : (node.conf.getD []).countP (mentionsKey p.pub.text) = 0 := by
      rw [List.countP_eq_zero]
      exact fun line hline => List.any_eq_false.mp haway.unlisted line hline
    rw [List.countP_append, hnone, Nat.zero_add, newBlock, countP_restoredBlock]
    exact ⟨h.header hmem _, h.shared p hmem p hmem⟩
  have hpeers : awgSet node.peers p.args = node.peers ++ [p.args.peer] := by
    rw [awgSet_absent (a := p.args) haway.absent]
    exact congrArg (· ++ [p.args.peer]) (map_filter_eq_self_iff.mpr haway.free)
  rw [restore_of_one face peers conf node ip run hip hp,
    if_neg (by rintro ⟨-, q, hq, hkey⟩; exact haway.absent q hq hkey),
    if_neg (by simp [haway.peersWith_eq_nil hp]), if_neg (by simp [haway.unlisted]), if_pos hset,
    if_pos hcount, hpeers]
  rfl

/-- The other peers that are away stay away. -/
lemma Away.restored (h : KeysApart peers conf)
    (hdisjoint : ∀ p ∈ peers, ∀ q ∈ peers, p.pub ≠ q.pub → ∀ a ∈ p.allowedIps, a ∉ q.allowedIps)
    {node : Node} {p q : RunningPeer} (hp : p ∈ peers) (hq : q ∈ peers) (hne : p.pub ≠ q.pub)
    (haway : Away node q) : Away (putBack conf node p) q where
  absent r hr := by
    rcases List.mem_append.mp hr with hr | hr
    · exact haway.absent r hr
    · rw [List.mem_singleton.mp hr]
      exact hne
  free r hr := by
    rcases List.mem_append.mp hr with hr | hr
    · exact haway.free r hr
    · rw [List.mem_singleton.mp hr]
      exact hdisjoint q hq p hp hne.symm
  unlisted := by
    show (node.conf.getD [] ++ newBlock conf p).any (mentionsKey q.pub.text) = false
    rw [List.any_append, haway.unlisted, newBlock_unlisted h hp hq hne]
    rfl

/-! ### All calls -/

/-- **Peers that are away are put back one after another.** -/
lemma restoreAll_away (face : Line) (h : KeysApart peers conf)
    (hdisjoint : ∀ p ∈ peers, ∀ q ∈ peers, p.pub ≠ q.pub → ∀ a ∈ p.allowedIps, a ∉ q.allowedIps)
    {runs : String → RestoreRun} {order : List String} {node : Node}
    (hset : ∀ ip ∈ order, (runs ip).sets = true)
    (hfound : ∀ ip ∈ order, clientIp ip = true ∧ ∃ p, peersWith peers ip = [p] ∧ Away node p)
    (hdistinct : ((order.flatMap (peersWith peers)).map RunningPeer.pub).Nodup) :
    restoreAll runs (takeSnapshot face peers conf) order node =
      (order.map fun _ => .ok, (order.flatMap (peersWith peers)).foldl (putBack conf) node) := by
  induction order generalizing node with
  | nil => rfl
  | cons ip order ih =>
    obtain ⟨hip, p, hp, haway⟩ := hfound ip List.mem_cons_self
    rw [List.flatMap_cons, hp, List.singleton_append, List.map_cons, List.nodup_cons] at hdistinct
    obtain ⟨hnew, hdistinct⟩ := hdistinct
    have hrest := @ih (putBack conf node p) (fun ip' hip' => hset ip' (List.mem_cons_of_mem _ hip'))
      (fun ip' hip' => by
      obtain ⟨hclient, q, hq, hqaway⟩ := hfound ip' (List.mem_cons_of_mem _ hip')
      refine ⟨hclient, q, hq, hqaway.restored h hdisjoint (mem_of_peersWith hp).1
        (mem_of_peersWith hq).1 fun heq => hnew ?_⟩
      rw [heq]
      exact List.mem_map_of_mem (List.mem_flatMap.mpr ⟨ip', hip', by simp [hq]⟩)) hdistinct
    rw [restoreAll, restore_away h (hset ip List.mem_cons_self) hip hp haway]
    dsimp only
    rw [hrest, List.flatMap_cons, hp]
    rfl

lemma foldl_putBack (conf : List Line) (ps : List RunningPeer) (node : Node) :
    (ps.foldl (putBack conf) node).peers = node.peers ++ ps.map (fun p => p.args.peer) ∧
      (ps.foldl (putBack conf) node).conf.getD [] =
        node.conf.getD [] ++ ps.flatMap (newBlock conf) := by
  induction ps generalizing node with
  | nil => simp
  | cons p ps ih =>
    obtain ⟨hpeers, hconf⟩ := ih (putBack conf node p)
    rw [List.foldl_cons, hpeers, hconf]
    simp [putBack]

/-- The key of a peer that was put back stands in the file once. -/
lemma countP_newBlocks (h : KeysApart peers conf) {ps : List RunningPeer} (hps : ∀ p ∈ ps, p ∈ peers)
    (hdistinct : (ps.map RunningPeer.pub).Nodup) {p : RunningPeer} (hp : p ∈ ps) :
    (ps.flatMap (newBlock conf)).countP (mentionsKey p.pub.text) = 1 := by
  have hother : ∀ l : List RunningPeer, (∀ q ∈ l, q ∈ peers ∧ q.pub ≠ p.pub) →
      (l.flatMap (newBlock conf)).countP (mentionsKey p.pub.text) = 0 := by
    intro l hl
    rw [List.countP_eq_zero]
    intro line hline
    obtain ⟨q, hq, hmem⟩ := List.mem_flatMap.mp hline
    exact List.any_eq_false.mp (newBlock_unlisted h (hl q hq).1 (hps p hp) (hl q hq).2) line hmem
  obtain ⟨before, after, rfl⟩ := List.append_of_mem hp
  rw [List.map_append, List.map_cons, List.nodup_append] at hdistinct
  obtain ⟨-, hafter, hbefore⟩ := hdistinct
  rw [List.flatMap_append, List.flatMap_cons, List.countP_append, List.countP_append, hother before,
    hother after, newBlock, (countP_restoredBlock _ _).mpr]
  · exact ⟨h.header (hps p hp) _, h.shared p (hps p hp) p (hps p hp)⟩
  · refine fun q hq => ⟨hps q (by simp [hq]), fun heq => ?_⟩
    exact (List.nodup_cons.mp hafter).1 (heq ▸ List.mem_map_of_mem hq)
  · refine fun q hq => ⟨hps q (by simp [hq]), fun heq => ?_⟩
    exact hbefore _ (List.mem_map_of_mem hq) _ List.mem_cons_self heq

end

/-! ### Behind a removal -/

section Behind

variable {peers : List RunningPeer} {args : RemoveArgs} {node : NodeState} {header : List Line}
  {blocks : List (Blocks.Block confMarks)}

/-- **What a removal leaves** that comes to its end. -/
lemma kept_of_done (hagrees : PeerRemove.Agrees node header blocks) (hsets : ∀ k, (args.runs k).sets = true)
    (hdone : (peerRemove args node).verdict = .done) :
    PeerRemove.Accepted args node.runtime ∧ (matchedKeys args node.runtime).Nodup ∧
      (peerRemove args node).node.conf =
        some (Blocks.flatten header (without (matchedKeys args node.runtime) blocks)) := by
  have hok : PeerRemove.Accepted args node.runtime := by
    by_contra hbad
    rw [peerRemove_stopped hbad] at hdone
    cases hdone
  have hconf : node.conf ≠ none := by simp [hagrees.conf]
  obtain ⟨hproblems, hplan⟩ := (review_accepted args node.runtime).1.mpr hok
  have hkeys := (review_accepted args node.runtime).2 hproblems
  have happly : args.apply = true := by
    by_contra hdry
    rw [peerRemove] at hdone
    dsimp only at hdone
    rw [if_neg (by simp [hconf, hproblems, hplan]), if_pos (by simpa using hdry)] at hdone
    cases hdone
  have hreplies : ∀ reply ∈ (removeAll args.runs 0 (review args node.runtime).plan node).1,
      reply = .ok := by
    rw [peerRemove] at hdone
    dsimp only at hdone
    rw [if_neg (by simp [hconf, hproblems, hplan]), happly] at hdone
    simp only [Bool.not_true, Bool.false_eq_true, if_false] at hdone
    split at hdone
    · cases hdone
    · rename_i hall
      simpa using hall
  have hrunning : ∀ p ∈ (review args node.runtime).plan, ∃ e ∈ node.runtime, e.key = p.pub :=
    fun p hp => running_of_matched (hkeys ▸ List.mem_map_of_mem hp)
  obtain ⟨hclients, hdistinct⟩ := clients_of_removeAll hrunning hreplies
  rw [hkeys] at hdistinct
  refine ⟨hok, hdistinct, (peerRemove_clients hagrees happly hsets hok (fun key hkey => ?_) hdistinct).2.2⟩
  rw [← hkeys] at hkey
  obtain ⟨p, hp, rfl⟩ := List.mem_map.mp hkey
  exact hclients p hp

/-- The file has no key that was removed. -/
lemma unlisted_without (hagrees : PeerRemove.Agrees node header blocks) (hruntime : node.runtime = peers.map entryOf)
    {keys : List String} {p : RunningPeer} (hp : p ∈ peers) (hkey : String.ofList p.pub.text ∈ keys) :
    (Blocks.flatten header (without keys blocks)).any (mentionsKey p.pub.text) = false := by
  have hentry : entryOf p ∈ node.runtime := by
    rw [hruntime]
    exact List.mem_map_of_mem hp
  rw [List.any_eq_false]
  intro l hl
  have hnot := (hagrees.tidy hentry).alone l (mem_flatten (fun b hb => ?_) hl)
  · rw [mentions, entryOf, String.toList_ofList] at hnot
    rw [mentionsKey, hnot]
    decide
  · obtain ⟨hb, hnone⟩ := List.mem_filter.mp hb
    exact List.mem_filter.mpr ⟨hb, List.all_eq_true.mp hnone _ hkey⟩

/-- The peers whose key the list does not match. -/
def kept (args : RemoveArgs) (peers : List RunningPeer) : List RunningPeer :=
  peers.filter fun p => String.ofList p.pub.text ∉ matchedKeys args (peers.map entryOf)

/-- The matched keys are those of the peers at the addresses of the list. -/
lemma matchedKeys_entryOf (args : RemoveArgs) (peers : List RunningPeer) :
    matchedKeys args (peers.map entryOf) =
      ((args.entries.map Entry.ip).flatMap (peersWith peers)).map
        fun p => String.ofList p.pub.text := by
  rw [matchedKeys, List.flatMap_map, List.map_flatMap]
  refine List.flatMap_congr fun entry _ => ?_
  rw [peersWith_entryOf, List.map_map]
  rfl

/-- Who holds an address of a list is one of the peers. -/
lemma mem_of_mem_flatMap {order : List String} {p : RunningPeer}
    (hp : p ∈ order.flatMap (peersWith peers)) : p ∈ peers := by
  obtain ⟨ip, -, hp⟩ := List.mem_flatMap.mp hp
  obtain ⟨q, hq, hp⟩ := List.mem_flatMap.mp hp
  obtain ⟨-, -, rfl⟩ := List.mem_map.mp hp
  exact hq

/-- The peers that went are those at the addresses of the list. -/
lemma notMem_kept_iff (hkeys : (peers.map RunningPeer.pub).Nodup) {p : RunningPeer} (hp : p ∈ peers) :
    p ∉ kept args peers ↔ p ∈ (args.entries.map Entry.ip).flatMap (peersWith peers) := by
  rw [kept, List.mem_filter, matchedKeys_entryOf, decide_eq_true_eq, not_and, not_not, List.mem_map]
  constructor
  · intro h
    obtain ⟨q, hq, heq⟩ := h hp
    rwa [← key_injective hkeys (mem_of_mem_flatMap hq) hp (Key.text_injective (String.ofList_inj.mp heq))]
  · exact fun h _ => ⟨p, h, rfl⟩

/-- **Those that stayed and those that went** are all the peers. -/
lemma kept_append_perm (hkeys : (peers.map RunningPeer.pub).Nodup)
    (hnodup : (((args.entries.map Entry.ip).flatMap (peersWith peers)).map RunningPeer.pub).Nodup) :
    (kept args peers ++ (args.entries.map Entry.ip).flatMap (peersWith peers)).Perm peers := by
  have hgone : (peers.filter fun p => !decide (String.ofList p.pub.text ∉
      matchedKeys args (peers.map entryOf))).Perm
        ((args.entries.map Entry.ip).flatMap (peersWith peers)) := by
    refine (List.perm_ext_iff_of_nodup ((hkeys.of_map _).filter _) (hnodup.of_map _)).mpr fun p => ?_
    constructor
    · intro hp
      obtain ⟨hp, hnot⟩ := List.mem_filter.mp hp
      refine (notMem_kept_iff hkeys hp).mp fun hk => ?_
      rw [(List.mem_filter.mp hk).2] at hnot
      cases hnot
    · intro hp
      refine List.mem_filter.mpr ⟨mem_of_mem_flatMap hp, ?_⟩
      by_contra hk
      rw [Bool.not_eq_true, Bool.not_eq_false'] at hk
      exact (notMem_kept_iff hkeys (mem_of_mem_flatMap hp)).mpr hp
        (List.mem_filter.mpr ⟨mem_of_mem_flatMap hp, hk⟩)
  exact (hgone.symm.append_left (kept args peers)).trans (List.filter_append_perm _ peers)

/-- **A removed list is put back**: every call succeeds, the running peers are
configured as they were, those that had stayed are untouched, and each key that was
removed stands in the file once. -/
theorem restoreAll_after_removal (hkeys : (peers.map RunningPeer.pub).Nodup)
    (hdisjoint : ∀ p ∈ peers, ∀ q ∈ peers, p.pub ≠ q.pub → ∀ a ∈ p.allowedIps, a ∉ q.allowedIps)
    (hruntime : node.runtime = peers.map entryOf) (hagrees : PeerRemove.Agrees node header blocks)
    (hapart : KeysApart peers (Blocks.flatten header blocks))
    (hsets : ∀ k, (args.runs k).sets = true) (hdone : (peerRemove args node).verdict = .done)
    (face : Line) {order : List String} (horder : order.Perm (args.entries.map Entry.ip))
    {runs : String → RestoreRun} (hset : ∀ ip ∈ order, (runs ip).sets = true) :
    ∃ back, restoreAll runs (takeSnapshot face peers (Blocks.flatten header blocks)) order
          ⟨face, kept args peers, (peerRemove args node).node.conf⟩ = (order.map fun _ => .ok, back) ∧
      (∀ p ∈ kept args peers, p ∈ back.peers) ∧
      (back.peers.map RunningPeer.args).Perm (peers.map RunningPeer.args) ∧
      ∀ p ∈ peers, p ∉ kept args peers →
        (back.conf.getD []).countP (mentionsKey p.pub.text) = 1 := by
  obtain ⟨hok, hdistinct, hconf⟩ := kept_of_done hagrees hsets hdone
  rw [hruntime, matchedKeys_entryOf] at hdistinct hconf
  rw [hruntime] at hok
  have hperm : (order.flatMap (peersWith peers)).Perm
      ((args.entries.map Entry.ip).flatMap (peersWith peers)) := horder.flatMap_right _
  have hlisted : (((args.entries.map Entry.ip).flatMap (peersWith peers)).map RunningPeer.pub).Nodup := by
    rw [← Function.comp_def (fun k : Key => String.ofList k.text) RunningPeer.pub,
      ← List.map_map] at hdistinct
    exact hdistinct.of_map _
  have hnodup : ((order.flatMap (peersWith peers)).map RunningPeer.pub).Nodup :=
    (hperm.map _).nodup_iff.mpr hlisted
  -- the peers that went are those that come back
  have hgone : ∀ p ∈ peers, p ∉ kept args peers ↔ p ∈ order.flatMap (peersWith peers) := fun p hp =>
    (notMem_kept_iff hkeys hp).trans hperm.mem_iff.symm
  have hkeyOf : ∀ p ∈ order.flatMap (peersWith peers), String.ofList p.pub.text ∈
      ((args.entries.map Entry.ip).flatMap (peersWith peers)).map
        fun p => String.ofList p.pub.text := fun p hp =>
    List.mem_map_of_mem (f := fun p : RunningPeer => String.ofList p.pub.text) (hperm.mem_iff.mp hp)
  have hfound : ∀ ip ∈ order, clientIp ip = true ∧ ∃ p, peersWith peers ip = [p] ∧
      Away ⟨face, kept args peers, (peerRemove args node).node.conf⟩ p := by
    intro ip hip
    obtain ⟨entry, hentry, rfl⟩ := List.mem_map.mp (horder.mem_iff.mp hip)
    obtain ⟨hclient, -, e, he, -⟩ := hok.good entry hentry
    rw [peersWith_entryOf] at he
    obtain ⟨p, hp, -⟩ := List.map_eq_singleton_iff.mp he
    have hpmem := (mem_of_peersWith hp).1
    have hback : p ∈ order.flatMap (peersWith peers) :=
      List.mem_flatMap.mpr ⟨entry.ip, hip, by simp [hp]⟩
    have hapartFrom : ∀ q ∈ kept args peers, q ∈ peers ∧ q.pub ≠ p.pub := by
      intro q hq
      have hq' := (List.mem_filter.mp hq).1
      refine ⟨hq', fun heq => (hgone p hpmem).mpr hback ?_⟩
      rwa [← key_injective hkeys hq' hpmem heq]
    refine ⟨hclient, p, hp, fun q hq => (hapartFrom q hq).2,
      fun q hq => hdisjoint p hpmem q (hapartFrom q hq).1 (hapartFrom q hq).2.symm, ?_⟩
    rw [hconf]
    exact unlisted_without hagrees hruntime hpmem (hkeyOf p hback)
  have hall := restoreAll_away face hapart hdisjoint hset hfound hnodup
  obtain ⟨hpeers, hfile⟩ := foldl_putBack (Blocks.flatten header blocks)
    (order.flatMap (peersWith peers)) ⟨face, kept args peers, (peerRemove args node).node.conf⟩
  refine ⟨_, hall, fun p hp => ?_, ?_, fun p hp hnot => ?_⟩
  · rw [hpeers]
    exact List.mem_append_left _ hp
  · have hwhole := (hperm.append_left (kept args peers)).trans (kept_append_perm hkeys hlisted)
    rw [hpeers, List.map_append, List.map_map]
    have hargs : RunningPeer.args ∘ (fun p : RunningPeer => p.args.peer) = RunningPeer.args := rfl
    rw [hargs, ← List.map_append]
    exact hwhole.map _
  · have hback := (hgone p hp).mp hnot
    have hnone := unlisted_without hagrees hruntime hp (hkeyOf p hback)
    rw [hfile, List.countP_append, countP_newBlocks hapart (fun _ => mem_of_mem_flatMap) hnodup hback, hconf, Option.getD_some,
      List.countP_eq_zero.mpr fun l hl => List.any_eq_false.mp hnone l hl]

/-- Calls whose pipes break. -/
def pipesBreak : String → RestoreRun := fun _ => { breaks := true }

/-- Two peers are removed and put back in the other order. -/
theorem restoreAll_after_removal_two :
    ∃ back, restoreAll pipesBreak (takeSnapshot "face".toList [peerA, peerB]
          (Blocks.flatten ["[Interface]".toList] [blockOfLetter 'A', blockOfLetter 'B']))
        ["10.88.88.20", "10.88.88.10"]
        ⟨"face".toList, kept bothPeers [peerA, peerB], (peerRemove bothPeers (routedNode [])).node.conf⟩
        = ([.ok, .ok], back) ∧
      (back.peers.map RunningPeer.args).Perm [peerA.args, peerB.args] := by
  have hapart : KeysApart [peerA, peerB]
      (Blocks.flatten ["[Interface]".toList] [blockOfLetter 'A', blockOfLetter 'B']) := by
    refine ⟨fun l hl htitle => ?_, by decide⟩
    have hnone : (Blocks.flatten ["[Interface]".toList] [blockOfLetter 'A', blockOfLetter 'B']).all
        (fun l => !confMarks.title l) = true := by decide
    have hnot := List.all_eq_true.mp hnone l hl
    rw [htitle] at hnot
    cases hnot
  obtain ⟨back, hall, -, hargs, -⟩ := restoreAll_after_removal
    (by decide : ([peerA, peerB].map RunningPeer.pub).Nodup) (by decide)
    entryOf_peers.symm (agrees_routedNode []) hapart (fun _ => rfl)
    (by decide : (peerRemove bothPeers (routedNode [])).verdict = .done) "face".toList
    (by decide : ["10.88.88.20", "10.88.88.10"].Perm (bothPeers.entries.map Entry.ip))
    (fun _ _ => rfl : ∀ ip ∈ ["10.88.88.20", "10.88.88.10"], (pipesBreak ip).sets = true)
  exact ⟨back, hall, hargs⟩

end Behind

end VpnPortal.PeerRestore
