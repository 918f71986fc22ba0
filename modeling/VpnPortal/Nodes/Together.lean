/-
The two wrappers one after another: runtime and config stay together.

A node is `Together` when its file is an `[Interface]` section and peer blocks
with one key each, every key of the file runs, and keys and addresses are unique
in both places. Each run of a wrapper keeps that, whatever its arguments and
whether or not `awg set` succeeds, and leaves the interface and the other peers'
blocks as they are, up to blank lines.

* `Invocation`, `Invocation.run`: one invocation;
* `Shape`, `Together`: the invariant;
* `Invocation.Done`: what an invocation has done, by its answer;
* `wrappers_keep_together`: **any run of invocations** keeps runtime and file together,
  each invocation has done what it says, and an addition that is taken off again leaves
  nothing but blank lines.
-/
import Mathlib
import VpnPortal.Nodes.AddPeer

namespace VpnPortal

open Blocks

/-! ### The file -/

/-- The keys of the `PublicKey` lines. -/
def confKeys (conf : List Line) : List Line := conf.filterMap keyOf

/-- The addresses of the `AllowedIPs` lines. -/
def confIps (conf : List Line) : List Line := (conf.flatMap allowedIpsOf).filter fun ip => ip ≠ []

/-- The keys of a block. -/
def keysIn (b : Block confMarks) : List Line := confKeys b.body

/-- The lines that are not blank. -/
def content (ls : List Line) : List Line := ls.filter fun l => !l.all isSpace

/-- The file is an `[Interface]` section and peer blocks, each with one key. -/
structure Shape (conf header : List Line) (blocks : List (Block confMarks)) : Prop where
  conf_eq : conf = flatten header blocks
  plain : Header confMarks header
  interface : header.any isInterfaceLine = true
  keyless : confKeys header = []
  one_key : ∀ b ∈ blocks, ∃ k, keysIn b = [k]

/-- The blocks of the other peers. -/
def others (pub : String) (blocks : List (Block confMarks)) : List (Block confMarks) :=
  blocks.filter fun b => keysIn b ≠ [pub.toList]

/-- The interface and the blocks of the other peers are the same in content and
order, up to blank lines. -/
def SameElse (pub : String) (conf conf' : List Line) : Prop :=
  ∀ header blocks, Shape conf header blocks → ∃ header' blocks', Shape conf' header' blocks'
    ∧ content header' = content header
    ∧ (others pub blocks').map (fun b => content b.lines)
      = (others pub blocks).map fun b => content b.lines

/-- Runtime and file agree. -/
structure Listing (runtime : List PeerEntry) (conf : List Line) : Prop where
  shape : ∃ header blocks, Shape conf header blocks
  running : ∀ k ∈ confKeys conf, ∃ e ∈ runtime, e.key.toList = k
  keys_nodup : (confKeys conf).Nodup
  ips_nodup : (confIps conf).Nodup
  runtimeKeys : (runtime.map PeerEntry.key).Nodup
  runtimeIps : ∀ e ∈ runtime, ∀ x ∈ runtime, ∀ ip ∈ e.allowedIps, ip ∈ x.allowedIps → e = x

/-- The invariant. -/
def Together (node : NodeState) : Prop := ∃ conf, node.conf = some conf ∧ Listing node.runtime conf

/-! ### Single lines -/

/-- A line that begins with another sign has no key. -/
lemma keyOf_of_head {c : Char} (hspace : isSpace c = false) (hne : c ≠ 'P') (rest : Line) :
    keyOf (c :: rest) = none := by
  have hprefix : "PublicKey".toList.isPrefixOf (c :: rest) = false := by
    rw [Bool.eq_false_iff]
    intro h
    obtain ⟨t, ht⟩ := List.isPrefixOf_iff_prefix.mp h
    have hhead : some 'P' = some c := congrArg List.head? ht
    exact hne (Option.some.inj hhead).symm
  rw [keyOf, List.dropWhile_cons_of_neg (by simp [hspace]), hprefix]
  rfl

lemma trim_blank {v : Line} (hv : ∀ c ∈ v, isSpace c = false) :
    Words.trim isSpace ([' '] ++ v) = v := by
  rw [Words.trim_append (by simp [isSpace]), Words.trim_of_solid hv]

lemma keyOf_publicKey {v : Line} (hv : ∀ c ∈ v, isSpace c = false) :
    keyOf ("PublicKey = ".toList ++ v) = some v := by
  have hdef : keyOf ("PublicKey = ".toList ++ v)
      = some (Words.trim isSpace ([' '] ++ v)) := rfl
  rw [hdef, trim_blank hv]

/-- The key stands in its line. -/
lemma infix_of_keyOf {l v : Line} (h : keyOf l = some v) : v <:+: l := by
  unfold keyOf at h
  dsimp only at h
  split at h
  · split at h
    · rename_i value hvalue
      obtain rfl := Option.some.inj h
      have hvl : value <:+ l := by
        have h1 : '=' :: value <:+ (l.dropWhile isSpace).drop 9 := by
          rw [← hvalue]
          exact List.dropWhile_suffix _
        exact (List.suffix_cons '=' value).trans (h1.trans ((List.drop_suffix 9 _).trans
          (List.dropWhile_suffix _)))
      exact (Words.infix_trim isSpace value).trans hvl.isInfix
    · cases h
  · cases h

lemma allowedIpsOf_of_head {c : Char} (hspace : isSpace c = false) (hne : c ≠ 'A') (rest : Line) :
    allowedIpsOf (c :: rest) = [] := by
  have hprefix : "AllowedIPs".toList.isPrefixOf (c :: rest) = false := by
    rw [Bool.eq_false_iff]
    intro h
    obtain ⟨t, ht⟩ := List.isPrefixOf_iff_prefix.mp h
    have hhead : some 'A' = some c := congrArg List.head? ht
    exact hne (Option.some.inj hhead).symm
  rw [allowedIpsOf, List.dropWhile_cons_of_neg (by simp [hspace]), hprefix]
  rfl

lemma allowedIpsOf_allowed {v : Line} (hv : ∀ c ∈ v, isSpace c = false ∧ c ≠ ',') :
    allowedIpsOf ("AllowedIPs = ".toList ++ v) = [v] := by
  have hdef : allowedIpsOf ("AllowedIPs = ".toList ++ v) = splitList (' ' :: v) := rfl
  have hsplit : (' ' :: v).splitOn ',' = [' ' :: v] := by
    refine List.splitOn_eq_singleton fun hmem => ?_
    rcases List.mem_cons.mp hmem with h | h
    · exact absurd h (by decide)
    · exact (hv ',' h).2 rfl
  rw [hdef, splitList, hsplit, List.map_singleton]
  exact congrArg (fun w => [w]) (trim_blank fun c hc => (hv c hc).1)

/-- A title and a mark have neither a key nor an address. -/
lemma opener_bare {l : Line} (h : confMarks.title l = true ∨ confMarks.mark l = true) :
    keyOf l = none ∧ allowedIpsOf l = [] := by
  have hhead : ∃ c rest, l = c :: rest ∧ (c = '#' ∨ c = '[') := by
    rcases h with h | h
    · obtain ⟨t, ht⟩ := List.isPrefixOf_iff_prefix.mp h
      exact ⟨'#', _, ht.symm, Or.inl rfl⟩
    · obtain ⟨t, ht⟩ := List.isPrefixOf_iff_prefix.mp h
      exact ⟨'[', _, ht.symm, Or.inr rfl⟩
  obtain ⟨c, rest, rfl, rfl | rfl⟩ := hhead
  · exact ⟨keyOf_of_head (by decide) (by decide) rest, allowedIpsOf_of_head (by decide) (by decide) rest⟩
  · exact ⟨keyOf_of_head (by decide) (by decide) rest, allowedIpsOf_of_head (by decide) (by decide) rest⟩

/-! ### Blocks and keys -/

lemma confKeys_append (xs ys : List Line) : confKeys (xs ++ ys) = confKeys xs ++ confKeys ys :=
  List.filterMap_append

lemma confIps_append (xs ys : List Line) : confIps (xs ++ ys) = confIps xs ++ confIps ys := by
  rw [confIps, List.flatMap_append, List.filter_append]
  rfl

/-- The keys of a block stand in its body. -/
lemma confKeys_block (b : Block confMarks) : confKeys b.lines = keysIn b := by
  have hmark : keyOf b.mark = none := (opener_bare (Or.inr b.isMark.2)).1
  rw [Block.lines, confKeys_append, confKeys, confKeys, List.filterMap_cons_none hmark]
  cases htitle : b.title with
  | none => rfl
  | some t =>
      have ht : keyOf t = none := (opener_bare (Or.inl (b.isTitle t htitle))).1
      rw [Option.toList_some, List.filterMap_cons_none ht]
      rfl

lemma Shape.confKeys_eq {conf header : List Line} {blocks : List (Block confMarks)}
    (h : Shape conf header blocks) : confKeys conf = blocks.flatMap keysIn := by
  rw [h.conf_eq, flatten, confKeys_append, h.keyless, List.nil_append]
  clear h
  induction blocks with
  | nil => rfl
  | cons b rest ih => rw [List.flatMap_cons, confKeys_append, ih, confKeys_block, List.flatMap_cons]

/-- A block is hit by the key it has. -/
lemma isHit_iff {pub : String} {b : Block confMarks} (h : ∃ k, keysIn b = [k]) :
    b.isHit (carries pub) = true ↔ keysIn b = [pub.toList] := by
  obtain ⟨k, hk⟩ := h
  rw [hk, Block.isHit, List.any_eq_true]
  have hmem : ∀ v, v ∈ keysIn b ↔ ∃ l ∈ b.body, keyOf l = some v := fun v => List.mem_filterMap
  constructor
  · rintro ⟨l, hl, hcarry⟩
    have : pub.toList ∈ keysIn b := (hmem _).mpr ⟨l, hl, of_decide_eq_true hcarry⟩
    rw [hk] at this
    rw [List.mem_singleton.mp this]
  · intro heq
    have : pub.toList ∈ keysIn b := by
      rw [hk, heq]
      exact List.mem_singleton_self _
    obtain ⟨l, hl, hkey⟩ := (hmem _).mp this
    exact ⟨l, hl, decide_eq_true hkey⟩

/-- The blocks that survive a removal are those of the others. -/
lemma survivors_eq {pub : String} {blocks : List (Block confMarks)}
    (h : ∀ b ∈ blocks, ∃ k, keysIn b = [k]) : survivors (carries pub) blocks = others pub blocks := by
  refine List.filter_congr fun b hb => ?_
  have hiff : b.isHit (carries pub) = true ↔ keysIn b = [pub.toList] := isHit_iff (h b hb)
  cases hhit : b.isHit (carries pub) with
  | true => simp [hiff.mp hhit]
  | false =>
      have hne : keysIn b ≠ [pub.toList] := fun heq => by
        rw [hiff.mpr heq] at hhit
        cases hhit
      simp [hne]

/-! ### Adding a block -/

/-- The file with blank lines behind it. -/
lemma Shape.pad {conf header : List Line} {blocks : List (Block confMarks)}
    (h : Shape conf header blocks) : ∃ header' blocks', Shape (conf ++ [[], []]) header' blocks'
      ∧ content header' = content header
      ∧ blocks'.map (fun b => (keysIn b, content b.lines))
        = blocks.map fun b => (keysIn b, content b.lines) := by
  rcases List.eq_nil_or_concat blocks with rfl | ⟨front, b, rfl⟩
  · refine ⟨header ++ [[], []], [], ⟨?_, ?_, ?_, ?_, by simp⟩, ?_, rfl⟩
    · rw [h.conf_eq]
      simp [flatten]
    · intro l hl
      rcases List.mem_append.mp hl with hl | hl
      · exact h.plain l hl
      · have hnil : l = [] := by simpa using hl
        rw [hnil]
        exact ⟨rfl, rfl⟩
    · rw [List.any_append, h.interface, Bool.true_or]
    · rw [confKeys_append, h.keyless]
      rfl
    · simp [content]
  · rw [List.concat_eq_append] at h ⊢
    have hplain : ∀ l ∈ b.body ++ [[], []], confMarks.title l = false ∧ confMarks.mark l = false := by
      intro l hl
      rcases List.mem_append.mp hl with hl | hl
      · exact b.plain l hl
      · have hnil : l = [] := by simpa using hl
        rw [hnil]
        exact ⟨rfl, rfl⟩
    have hkeys : confKeys (b.body ++ [[], []]) = confKeys b.body := by
      rw [confKeys_append]
      exact List.append_nil _
    refine ⟨header, front ++ [{ b with body := b.body ++ [[], []], plain := hplain }],
      ⟨?_, h.plain, h.interface, h.keyless, ?_⟩, rfl, ?_⟩
    · rw [h.conf_eq]
      simp [flatten, Block.lines]
    · intro x hx
      rcases List.mem_append.mp hx with hx | hx
      · exact h.one_key x (List.mem_append_left _ hx)
      · rw [List.mem_singleton.mp hx]
        obtain ⟨k, hk⟩ := h.one_key b (by simp)
        exact ⟨k, hkeys.trans hk⟩
    · rw [List.map_append, List.map_append, List.map_singleton, List.map_singleton]
      congr 2
      refine Prod.ext hkeys ?_
      have hlines : b.title.toList ++ b.mark :: (b.body ++ [[], []]) = b.lines ++ [[], []] := by
        simp [Block.lines]
      change content (b.title.toList ++ b.mark :: (b.body ++ [[], []])) = content b.lines
      rw [hlines, content, List.filter_append]
      exact List.append_nil _

lemma Shape.snoc {conf header : List Line} {blocks : List (Block confMarks)}
    (h : Shape conf header blocks) {b : Block confMarks} (hb : ∃ k, keysIn b = [k]) :
    Shape (conf ++ b.lines) header (blocks ++ [b]) := by
  refine ⟨?_, h.plain, h.interface, h.keyless, ?_⟩
  · rw [h.conf_eq]
    simp [flatten]
  · intro x hx
    rcases List.mem_append.mp hx with hx | hx
    · exact h.one_key x hx
    · rw [List.mem_singleton.mp hx]
      exact hb

/-- The block `pwa-add-peer` writes behind two blank lines. -/
def newBlock (peer : NewPeer) : Block confMarks where
  title := some ("### " ++ peer.name).toList
  mark := "[Peer]".toList
  body := ["PublicKey = " ++ peer.publicKey, "PresharedKey = " ++ peer.psk,
    "AllowedIPs = " ++ peer.ip].map String.toList
  isTitle := by
    intro l hl
    rw [← Option.some.inj hl, String.toList_append]
    rfl
  isMark := isMark_peer
  plain := by
    intro l hl
    simp only [List.map_cons, List.map_nil, String.toList_append, List.mem_cons,
      List.not_mem_nil, or_false] at hl
    rcases hl with rfl | rfl | rfl <;> exact ⟨rfl, rfl⟩

lemma peerBlock_eq (peer : NewPeer) : peerBlock peer = [[], []] ++ (newBlock peer).lines := rfl

lemma isSpace_base64 {c : Char} (h : isBase64 c = true ∨ c = '=') : isSpace c = false := by
  rcases h with h | rfl
  · simp only [isBase64, Char.isAlphanum, Char.isAlpha, Char.isUpper, Char.isLower, Char.isDigit,
      Bool.or_eq_true, Bool.and_eq_true, decide_eq_true_eq, UInt32.le_iff_toNat_le] at h
    have hnat : c.toNat = c.val.toNat := rfl
    have hrange : 43 ≤ c.toNat := by
      rcases h with ((((h | h) | h) | rfl) | rfl)
      · have := h.1
        simp at this
        omega
      · have := h.1
        simp at this
        omega
      · have := h.1
        simp at this
        omega
      · decide
      · decide
    have hne : c ≠ ' ' := by
      rintro rfl
      exact absurd hrange (by decide)
    simp only [isSpace, hne, decide_false, Bool.false_or, Bool.and_eq_false_iff, decide_eq_false_iff_not]
    omega
  · decide

lemma isSpace_publicKey {pub : String} (h : isPublicKey pub = true) :
    ∀ c ∈ pub.toList, isSpace c = false := by
  rw [isPublicKey, Bool.and_eq_true, decide_eq_true_eq, List.all_eq_true] at h
  intro c hc
  rw [← List.take_append_drop 43 pub.toList, h.2] at hc
  rcases List.mem_append.mp hc with hc | hc
  · exact isSpace_base64 (Or.inl (h.1 c hc))
  · exact isSpace_base64 (Or.inr (List.mem_singleton.mp hc))

/-- An address that is taken: digits, dots and a slash. -/
lemma plain_of_octetOf {host : List Char} {octet : ℕ} (h : octetOf host = some octet) :
    ∀ c ∈ host, isSpace c = false ∧ c ≠ ',' := by
  unfold octetOf at h
  dsimp only at h
  split at h
  · rename_i hparts
    intro c hc
    have htake : host.take (host.takeWhile Char.isDigit).length = host.takeWhile Char.isDigit :=
      (List.prefix_iff_eq_take.mp (List.takeWhile_prefix _)).symm
    rw [← List.take_append_drop (host.takeWhile Char.isDigit).length host, hparts.1, htake] at hc
    rcases List.mem_append.mp hc with hc | hc
    · have hdigit : c.isDigit = true := List.mem_takeWhile_imp hc
      refine ⟨isSpace_base64 (Or.inl ?_), ?_⟩
      · simp [isBase64, Char.isAlphanum, hdigit]
      · rintro rfl
        exact absurd hdigit (by decide)
    · have hslash : ∀ c ∈ "/32".toList, isSpace c = false ∧ c ≠ ',' := by simp [isSpace]
      exact hslash c hc
  · cases h

/-- What the checks of the arguments give. -/
lemma plain_arguments {peer : NewPeer} (h : badArgument peer = none) :
    (∀ c ∈ peer.publicKey.toList, isSpace c = false) ∧ peer.ip.toList ≠ []
      ∧ ∀ c ∈ peer.ip.toList, isSpace c = false ∧ c ≠ ',' := by
  have hkey : isPublicKey peer.publicKey = true := by
    by_contra hnot
    rw [badArgument, if_pos (by simpa using hnot)] at h
    cases h
  have hpsk : isPublicKey peer.psk = true := by
    by_contra hnot
    rw [badArgument, if_neg (by simp [hkey]), if_pos (by simpa using hnot)] at h
    cases h
  refine ⟨isSpace_publicKey hkey, ?_⟩
  rw [badArgument, if_neg (by simp [hkey]), if_neg (by simp [hpsk])] at h
  split at h
  · cases h
  · cases h
  · rename_i host _ hhost
    split at h
    · cases h
    · rename_i octet hoctet
      obtain ⟨net, hnet, rfl⟩ := Option.map_eq_some_iff.mp hhost
      have hprefix : net.toList <+: peer.ip.toList := by
        simpa using List.find?_some hnet
      have hplain : ∀ n ∈ clientSubnetPrefixes, ∀ c ∈ n.toList, isSpace c = false ∧ c ≠ ',' := by
        simp [isSpace, clientSubnetPrefixes]
      obtain ⟨rest, hrest⟩ := hprefix
      have hdrop : peer.ip.toList.drop net.length = rest := by
        rw [← hrest, ← String.length_toList, List.drop_left]
      rw [hdrop] at hoctet
      have hne : ∀ n ∈ clientSubnetPrefixes, n.toList ≠ [] := by decide
      refine ⟨?_, fun c hc => ?_⟩
      · rw [← hrest]
        exact List.append_ne_nil_of_left_ne_nil (hne net (List.mem_of_find?_eq_some hnet)) _
      rw [← hrest] at hc
      rcases List.mem_append.mp hc with hc | hc
      · exact hplain net (List.mem_of_find?_eq_some hnet) c hc
      · exact plain_of_octetOf hoctet c hc

/-- The key and the address of the block that is written. -/
lemma newBlock_bare {peer : NewPeer} (h : badArgument peer = none) :
    keysIn (newBlock peer) = [peer.publicKey.toList]
      ∧ confIps (peerBlock peer) = [peer.ip.toList] := by
  obtain ⟨hkey, hne, hip⟩ := plain_arguments h
  constructor
  · have hlines : (newBlock peer).body = ["PublicKey = ".toList ++ peer.publicKey.toList,
        "PresharedKey = ".toList ++ peer.psk.toList, "AllowedIPs = ".toList ++ peer.ip.toList] := by
      simp only [newBlock, List.map_cons, List.map_nil, String.toList_append]
    rw [keysIn, hlines, confKeys, List.filterMap_cons_some (keyOf_publicKey hkey),
      List.filterMap_cons_none rfl, List.filterMap_cons_none rfl]
    rfl
  · have hlines : peerBlock peer = [[], [], "### ".toList ++ peer.name.toList, "[Peer]".toList,
        "PublicKey = ".toList ++ peer.publicKey.toList, "PresharedKey = ".toList ++ peer.psk.toList,
        "AllowedIPs = ".toList ++ peer.ip.toList] := by
      simp only [peerBlock, List.map_cons, List.map_nil, String.toList_append]
      rfl
    rw [confIps, hlines]
    simp only [List.flatMap_cons, List.flatMap_nil, allowedIpsOf_allowed hip]
    have hbare : allowedIpsOf [] = [] ∧ allowedIpsOf ("### ".toList ++ peer.name.toList) = []
        ∧ allowedIpsOf "[Peer]".toList = []
        ∧ allowedIpsOf ("PublicKey = ".toList ++ peer.publicKey.toList) = []
        ∧ allowedIpsOf ("PresharedKey = ".toList ++ peer.psk.toList) = [] := ⟨rfl, rfl, rfl, rfl, rfl⟩
    obtain ⟨h1, h2, h3, h4, h5⟩ := hbare
    rw [h1, h2, h3, h4, h5]
    simp [hne]

/-- Nothing that is there is in the way of a peer that is let in. -/
lemma taken_none {runtime : List PeerEntry} {conf : List Line} {peer : NewPeer}
    (h : taken runtime conf peer = none) :
    (∀ e ∈ runtime, e.key ≠ peer.publicKey ∧ peer.ip ∉ e.allowedIps)
      ∧ ∀ l ∈ conf, mentions peer.publicKey l = false ∧ peer.ip.toList ∉ allowedIpsOf l := by
  unfold taken at h
  split_ifs at h with hkey hip hconf
  rw [Bool.or_eq_true, not_or, Bool.not_eq_true, Bool.not_eq_true] at hkey
  rw [Bool.not_eq_true] at hip hconf
  refine ⟨fun e he => ⟨?_, ?_⟩, fun l hl => ⟨?_, ?_⟩⟩
  · simpa using List.any_eq_false.mp hkey.1 e he
  · simpa using List.any_eq_false.mp hip e he
  · simpa using List.any_eq_false.mp hkey.2 l hl
  · simpa using List.any_eq_false.mp hconf l hl

lemma not_mem_confKeys {conf : List Line} {pub : String} (h : ∀ l ∈ conf, mentions pub l = false) :
    pub.toList ∉ confKeys conf := by
  intro hmem
  obtain ⟨l, hl, hkey⟩ := List.mem_filterMap.mp hmem
  have hmention : mentions pub l = true := decide_eq_true (infix_of_keyOf hkey)
  rw [h l hl] at hmention
  cases hmention

lemma confKeys_peerBlock {peer : NewPeer} (h : badArgument peer = none) :
    confKeys (peerBlock peer) = [peer.publicKey.toList] := by
  rw [peerBlock_eq, confKeys_append, confKeys_block, (newBlock_bare h).1]
  rfl

/-- No two entries of a runtime share an address. -/
def OwnIps (runtime : List PeerEntry) : Prop :=
  ∀ e ∈ runtime, ∀ x ∈ runtime, ∀ ip ∈ e.allowedIps, ip ∈ x.allowedIps → e = x

/-- An address that is free joins those of the runtime. -/
lemma OwnIps.snoc {runtime : List PeerEntry} (h : OwnIps runtime) {pub cip : String}
    (hfree : ∀ e ∈ runtime, cip ∉ e.allowedIps) : OwnIps (runtime ++ [⟨pub, [cip]⟩]) := by
  intro e he x hx ip hip hip'
  rcases List.mem_append.mp he with he | he
  · rcases List.mem_append.mp hx with hx | hx
    · exact h e he x hx ip hip hip'
    · rw [List.mem_singleton.mp hx] at hip'
      rw [List.mem_singleton.mp hip'] at hip
      exact absurd hip (hfree e he)
  · rcases List.mem_append.mp hx with hx | hx
    · rw [List.mem_singleton.mp he] at hip
      rw [List.mem_singleton.mp hip] at hip'
      exact absurd hip' (hfree x hx)
    · rw [List.mem_singleton.mp he, List.mem_singleton.mp hx]

/-- An address that is free joins those of the file. -/
lemma confIps_nodup_add {conf : List Line} {peer : NewPeer} (h : (confIps conf).Nodup)
    (hargs : badArgument peer = none) (hfree : ∀ l ∈ conf, peer.ip.toList ∉ allowedIpsOf l) :
    (confIps (conf ++ peerBlock peer)).Nodup := by
  rw [confIps_append, (newBlock_bare hargs).2]
  refine h.append (List.nodup_singleton _) ?_
  rw [List.disjoint_singleton]
  intro hmem
  obtain ⟨l, hl, hip⟩ := List.mem_flatMap.mp (List.mem_filter.mp hmem).1
  exact hfree l hl hip

/-- The peer that is let in joins both lists. -/
lemma Listing.add {runtime : List PeerEntry} {conf : List Line} {peer : NewPeer}
    (h : Listing runtime conf) (hargs : badArgument peer = none)
    (htaken : taken runtime conf peer = none) :
    Listing (runtime ++ [⟨peer.publicKey, [peer.ip]⟩]) (conf ++ peerBlock peer)
      ∧ SameElse peer.publicKey conf (conf ++ peerBlock peer) := by
  have hkeys := (newBlock_bare hargs).1
  obtain ⟨hruntime, hconf⟩ := taken_none htaken
  have hsame : SameElse peer.publicKey conf (conf ++ peerBlock peer) := by
    intro header blocks hshape
    obtain ⟨header', blocks', hpad, hheader, hblocks⟩ := hshape.pad
    refine ⟨header', blocks' ++ [newBlock peer], ?_, hheader, ?_⟩
    · rw [peerBlock_eq, ← List.append_assoc]
      exact hpad.snoc ⟨_, hkeys⟩
    · rw [others, List.filter_append, List.filter_cons_of_neg (by simp [hkeys]), List.filter_nil,
        List.append_nil]
      -- the blocks agree in keys and content, so the others do
      have hmap := congrArg (fun l : List (List Line × List Line) =>
        (l.filter fun x => x.1 ≠ [peer.publicKey.toList]).map Prod.snd) hblocks
      simpa only [List.filter_map, List.map_map, others, Function.comp_def] using hmap
  have hnewkeys : confKeys (conf ++ peerBlock peer) = confKeys conf ++ [peer.publicKey.toList] := by
    rw [confKeys_append, confKeys_peerBlock hargs]
  refine ⟨⟨?_, ?_, ?_, confIps_nodup_add h.ips_nodup hargs fun l hl => (hconf l hl).2, ?_,
    OwnIps.snoc h.runtimeIps fun e he => (hruntime e he).2⟩, hsame⟩
  · obtain ⟨header, blocks, hshape⟩ := h.shape
    obtain ⟨header', blocks', hshape', -⟩ := hsame header blocks hshape
    exact ⟨header', blocks', hshape'⟩
  · intro k hk
    rw [hnewkeys] at hk
    rcases List.mem_append.mp hk with hk | hk
    · obtain ⟨e, he, hek⟩ := h.running k hk
      exact ⟨e, List.mem_append_left _ he, hek⟩
    · exact ⟨_, List.mem_append_right _ (List.mem_singleton_self _), (List.mem_singleton.mp hk).symm⟩
  · rw [hnewkeys]
    refine h.keys_nodup.append (List.nodup_singleton _) ?_
    rw [List.disjoint_singleton]
    exact not_mem_confKeys fun l hl => (hconf l hl).1
  · rw [List.map_append]
    refine h.runtimeKeys.append (List.nodup_singleton _) ?_
    rw [List.map_singleton, List.disjoint_singleton]
    intro hmem
    obtain ⟨e, he, hek⟩ := List.mem_map.mp hmem
    exact (hruntime e he).1 hek

/-! ### Removing a block -/

/-- A removal from the file: the others' blocks stay. -/
lemma Listing.del {runtime : List PeerEntry} {conf conf' : List Line} {pub : String}
    (h : Listing runtime conf) (hrewrite : rewriteConf pub conf = .ok conf') :
    Listing runtime conf' ∧ SameElse pub conf conf' ∧ pub.toList ∉ confKeys conf' := by
  obtain ⟨hconf', -, hmention, -⟩ := rewriteConf_guards hrewrite
  have hdrop : ∀ header blocks, Shape conf header blocks →
      Shape conf' header (others pub blocks) := by
    intro header blocks hshape
    refine ⟨?_, hshape.plain, hshape.interface, hshape.keyless, fun b hb => ?_⟩
    · rw [hconf', hshape.conf_eq, dropBlocks_flatten hshape.plain, survivors_eq hshape.one_key]
    · exact hshape.one_key b (List.mem_filter.mp hb).1
  have hsub : conf'.Sublist conf := by
    obtain ⟨header, blocks, hshape⟩ := h.shape
    rw [(hdrop header blocks hshape).conf_eq, hshape.conf_eq]
    exact (List.Sublist.refl header).append (List.filter_sublist.flatMap Block.lines)
  refine ⟨⟨?_, ?_, ?_, ?_, h.runtimeKeys, h.runtimeIps⟩, ?_, not_mem_confKeys hmention⟩
  · obtain ⟨header, blocks, hshape⟩ := h.shape
    exact ⟨header, others pub blocks, hdrop header blocks hshape⟩
  · intro k hk
    exact h.running k ((hsub.filterMap keyOf).subset hk)
  · exact h.keys_nodup.sublist (hsub.filterMap keyOf)
  · exact h.ips_nodup.sublist ((hsub.flatMap allowedIpsOf).filter _)
  · intro header blocks hshape
    refine ⟨header, others pub blocks, hdrop header blocks hshape, rfl, ?_⟩
    rw [others, others, List.filter_filter]
    simp only [Bool.and_self]

/-- A key that is not in the file comes off the runtime. -/
lemma Listing.unset {runtime : List PeerEntry} {conf : List Line} {pub : String}
    (h : Listing runtime conf) (hnot : pub.toList ∉ confKeys conf) :
    Listing (runtime.filter fun e => e.key ≠ pub) conf := by
  refine ⟨h.shape, fun k hk => ?_, h.keys_nodup, h.ips_nodup, ?_, ?_⟩
  · obtain ⟨e, he, hek⟩ := h.running k hk
    refine ⟨e, List.mem_filter.mpr ⟨he, decide_eq_true fun hpub => hnot ?_⟩, hek⟩
    rw [← hpub, hek]
    exact hk
  · exact h.runtimeKeys.sublist (List.filter_sublist.map _)
  · intro e he x hx
    exact h.runtimeIps e (List.mem_filter.mp he).1 x (List.mem_filter.mp hx).1

lemma SameElse.refl (pub : String) (conf : List Line) : SameElse pub conf conf :=
  fun header blocks hshape => ⟨header, blocks, hshape, rfl, rfl⟩

/-! ### Invocations -/

/-- One invocation of a wrapper, with what it meets outside. -/
inductive Invocation where
  | add (sets : Bool) (peer : NewPeer)
  | del (run : DelRun) (pub : String)

namespace Invocation

def run (node : NodeState) : Invocation → Reply × NodeState
  | add sets peer => pwaAddPeer sets node peer
  | del run pub => pwaDelPeer run node pub

/-- The key the invocation is about. -/
def key : Invocation → String
  | add _ peer => peer.publicKey
  | del _ pub => pub

/-- The node after some invocations. -/
def after (calls : List Invocation) (node : NodeState) : NodeState :=
  calls.foldl (fun node call => (call.run node).2) node

/-- An addition has put its peer in both places, or changed neither. -/
def AddDone (peer : NewPeer) (node : NodeState) (r : Reply × NodeState) : Prop :=
  (r.1 = .ok → r.2.runtime = node.runtime ++ [⟨peer.publicKey, [peer.ip]⟩]
    ∧ ∃ conf, node.conf = some conf ∧ r.2.conf = some (conf ++ peerBlock peer))
  ∧ (r.1 ≠ .ok → r.2 = node)

/-- A removal that was confirmed has left the key in neither place. -/
def DelDone (pub : String) (r : Reply × NodeState) : Prop :=
  r.1 = .ok → (∀ e ∈ r.2.runtime, e.key ≠ pub)
    ∧ ∀ conf, r.2.conf = some conf → pub.toList ∉ confKeys conf

/-- What an invocation has done, and that it left the rest of the file alone. -/
structure Done (call : Invocation) (node : NodeState) (r : Reply × NodeState) : Prop where
  own : match call with
    | .add _ peer => AddDone peer node r
    | .del _ pub => DelDone pub r
  rest : ∀ conf conf', node.conf = some conf → r.2.conf = some conf' → SameElse call.key conf conf'

end Invocation

/-- A file that stays. -/
lemma rest_of_same (node : NodeState) (pub : String) :
    ∀ conf conf', node.conf = some conf → node.conf = some conf' → SameElse pub conf conf' := by
  intro conf conf' hconf hconf'
  obtain rfl := Option.some.inj (hconf.symm.trans hconf')
  exact SameElse.refl pub conf

lemma Together.add {node : NodeState} (h : Together node) (sets : Bool) (peer : NewPeer) :
    Together (pwaAddPeer sets node peer).2
      ∧ (Invocation.add sets peer).Done node (pwaAddPeer sets node peer) := by
  obtain ⟨conf, hconf, hlisting⟩ := h
  rcases pwaAddPeer_cases sets node peer with ⟨reason, hrun⟩ | ⟨-, hargs, lines, hlines, htaken, hrun⟩
  · rw [hrun]
    exact ⟨⟨conf, hconf, hlisting⟩, ⟨fun hok => (by cases hok), fun _ => rfl⟩, rest_of_same node _⟩
  · obtain rfl : conf = lines := Option.some.inj (hconf.symm.trans hlines)
    obtain ⟨hadd, hsame⟩ := hlisting.add hargs htaken
    rw [hrun]
    refine ⟨⟨_, rfl, hadd⟩, ⟨fun _ => ⟨rfl, conf, hconf, rfl⟩, fun hno => absurd rfl hno⟩, ?_⟩
    intro old new hold hnew
    obtain rfl := Option.some.inj (hold.symm.trans hconf)
    obtain rfl := Option.some.inj hnew
    exact hsame

lemma Together.del {node : NodeState} (h : Together node) (run : DelRun) (pub : String) :
    Together (pwaDelPeer run node pub).2
      ∧ (Invocation.del run pub).Done node (pwaDelPeer run node pub) := by
  obtain ⟨conf, hconf, hlisting⟩ := h
  rcases pwaDelPeer_cases run node pub with ⟨reason, hrun⟩ | ⟨-, lines, conf', hlines, hfile, -, hrun⟩
  · rw [hrun]
    exact ⟨⟨conf, hconf, hlisting⟩, fun hok => (by cases hok), rest_of_same node _⟩
  · obtain rfl : conf = lines := Option.some.inj (hconf.symm.trans hlines)
    -- the file first, in either case without the key
    have hdone : Listing node.runtime conf' ∧ SameElse pub conf conf'
        ∧ pub.toList ∉ confKeys conf' := by
      rcases hfile with ⟨-, hrewrite⟩ | ⟨hnot, rfl, -⟩
      · exact hlisting.del hrewrite
      · refine ⟨hlisting, SameElse.refl pub conf', not_mem_confKeys fun l hl => ?_⟩
        simpa using List.any_eq_false.mp hnot l hl
    obtain ⟨hlisting', hsame, hgone⟩ := hdone
    have hrest : ∀ old new, node.conf = some old → some conf' = some new → SameElse pub old new := by
      intro old new hold hnew
      obtain rfl := Option.some.inj (hold.symm.trans hconf)
      obtain rfl := Option.some.inj hnew
      exact hsame
    have hgone' : ∀ new, some conf' = some new → pub.toList ∉ confKeys new := by
      rintro new ⟨⟩
      exact hgone
    rw [hrun]
    unfold delRuntime
    split_ifs with hnone hsets
    · refine ⟨⟨conf', rfl, hlisting'⟩, fun _ => ⟨fun e he hkey => ?_, hgone'⟩, hrest⟩
      rw [← hkey] at hnone
      exact allowedOf_ne_empty he hnone
    · refine ⟨⟨conf', rfl, hlisting'.unset hgone⟩, fun _ => ⟨fun e he => ?_, hgone'⟩, hrest⟩
      simpa using (List.mem_filter.mp he).2
    · exact ⟨⟨conf', rfl, hlisting'⟩, fun hok => (by cases hok), hrest⟩

/-- **One invocation.** -/
lemma Together.step {node : NodeState} (h : Together node) (call : Invocation) :
    Together (call.run node).2 ∧ call.Done node (call.run node) := by
  cases call with
  | add sets peer => exact h.add sets peer
  | del run pub => exact h.del run pub

lemma Together.after {node : NodeState} (h : Together node) (calls : List Invocation) :
    Together (Invocation.after calls node) := by
  induction calls generalizing node with
  | nil => exact h
  | cons call rest ih => exact ih (h.step call).1

/-! ### There and back -/

lemma SameElse.trans {pub : String} {conf₁ conf₂ conf₃ : List Line} (h : SameElse pub conf₁ conf₂)
    (h' : SameElse pub conf₂ conf₃) : SameElse pub conf₁ conf₃ := by
  intro header blocks hshape
  obtain ⟨header₂, blocks₂, hshape₂, hheader, hblocks⟩ := h header blocks hshape
  obtain ⟨header₃, blocks₃, hshape₃, hheader', hblocks'⟩ := h' header₂ blocks₂ hshape₂
  exact ⟨header₃, blocks₃, hshape₃, hheader'.trans hheader, hblocks'.trans hblocks⟩

lemma Shape.others_eq {conf header : List Line} {blocks : List (Block confMarks)} {pub : String}
    (h : Shape conf header blocks) (hnot : pub.toList ∉ confKeys conf) : others pub blocks = blocks := by
  refine List.filter_eq_self.mpr fun b hb => decide_eq_true fun hkeys => hnot ?_
  rw [h.confKeys_eq]
  exact List.mem_flatMap.mpr ⟨b, hb, by rw [hkeys]; exact List.mem_singleton_self _⟩

lemma content_flatten (header : List Line) (blocks : List (Block confMarks)) :
    content (flatten header blocks)
      = content header ++ (blocks.map fun b => content b.lines).flatten := by
  rw [flatten, content, List.filter_append, List.filter_flatMap]
  rfl

/-- Two files without the key that are the same else are the same. -/
lemma SameElse.content_eq {pub : String} {conf conf' : List Line} (h : SameElse pub conf conf')
    (hshape : ∃ header blocks, Shape conf header blocks) (hnot : pub.toList ∉ confKeys conf)
    (hnot' : pub.toList ∉ confKeys conf') : content conf' = content conf := by
  obtain ⟨header, blocks, hshape⟩ := hshape
  obtain ⟨header', blocks', hshape', hheader, hblocks⟩ := h header blocks hshape
  rw [hshape.others_eq hnot, hshape'.others_eq hnot'] at hblocks
  rw [hshape.conf_eq, hshape'.conf_eq, content_flatten, content_flatten, hheader, hblocks]

/-- A peer that was added and removed again leaves no trace but blank lines. -/
lemma Together.there_and_back {node : NodeState} (h : Together node) {sets : Bool} {peer : NewPeer}
    {run : DelRun} (hadd : (pwaAddPeer sets node peer).1 = .ok)
    (hdel : (pwaDelPeer run (pwaAddPeer sets node peer).2 peer.publicKey).1 = .ok) :
    (pwaDelPeer run (pwaAddPeer sets node peer).2 peer.publicKey).2.runtime = node.runtime
      ∧ ∃ conf conf', node.conf = some conf
        ∧ (pwaDelPeer run (pwaAddPeer sets node peer).2 peer.publicKey).2.conf = some conf'
        ∧ content conf' = content conf := by
  rcases pwaAddPeer_cases sets node peer with ⟨reason, hrun⟩ | ⟨-, hargs, conf, hconf, htaken, hrun⟩
  · rw [hrun] at hadd
    cases hadd
  have hfirst := h.add sets peer
  rw [hrun] at hfirst hdel ⊢
  obtain ⟨htogether, hdone⟩ := hfirst
  obtain ⟨htogether', hdone'⟩ := htogether.del run peer.publicKey
  obtain ⟨hfree, hmention⟩ := taken_none htaken
  constructor
  · rcases pwaDelPeer_runtime run ⟨node.runtime ++ [⟨peer.publicKey, [peer.ip]⟩],
      some (conf ++ peerBlock peer)⟩ peer.publicKey with ⟨-, hruntime⟩ | ⟨⟨reason, hno⟩, -⟩
    · rw [hruntime, List.filter_append, List.filter_cons_of_neg (by simp), List.filter_nil,
        List.append_nil, List.filter_eq_self.mpr]
      exact fun e he => decide_eq_true (hfree e he).1
    · rw [hdel] at hno
      cases hno
  · obtain ⟨conf', hconf', -⟩ := htogether'
    refine ⟨conf, conf', hconf, hconf', ?_⟩
    have hthere := hdone.rest conf _ hconf rfl
    have hback := hdone'.rest _ conf' rfl hconf'
    obtain ⟨lines, hlines, hlisting⟩ := h
    obtain rfl := Option.some.inj (hlines.symm.trans hconf)
    exact (hthere.trans hback).content_eq hlisting.shape
      (not_mem_confKeys fun l hl => (hmention l hl).1) ((hdone'.own hdel).2 conf' hconf')

/-- **Runtime and config stay together.** Whatever the invocations were, after one
more every key of the file runs, keys and addresses are unique, the invocation
has done what its answer says, and the interface and the other peers' blocks are
as they were, up to blank lines; and an addition that is removed again leaves
nothing but blank lines. -/
theorem wrappers_keep_together {node : NodeState} (h : Together node) (calls : List Invocation) :
    (∀ call : Invocation, Together (call.run (Invocation.after calls node)).2
      ∧ call.Done (Invocation.after calls node) (call.run (Invocation.after calls node)))
    ∧ ∀ sets peer run, (pwaAddPeer sets (Invocation.after calls node) peer).1 = .ok →
      (pwaDelPeer run (pwaAddPeer sets (Invocation.after calls node) peer).2 peer.publicKey).1 = .ok →
      (pwaDelPeer run (pwaAddPeer sets (Invocation.after calls node) peer).2 peer.publicKey).2.runtime
          = (Invocation.after calls node).runtime
        ∧ ∃ conf conf', (Invocation.after calls node).conf = some conf
          ∧ (pwaDelPeer run (pwaAddPeer sets (Invocation.after calls node) peer).2 peer.publicKey).2.conf
            = some conf'
          ∧ content conf' = content conf :=
  ⟨fun call => (h.after calls).step call,
    fun _ _ _ hadd hdel => (h.after calls).there_and_back hadd hdel⟩

/-- An interface without peers. -/
def bareNode : NodeState where
  conf := some (["[Interface]", "PrivateKey = x"].map String.toList)

lemma together_bareNode : Together bareNode := by
  refine ⟨_, rfl, ⟨_, [], ⟨(List.append_nil _).symm, ?_, by decide, by decide, by simp⟩⟩, ?_, ?_, ?_,
    List.nodup_nil, ?_⟩
  · show ∀ l ∈ _, _
    decide
  · have hnone : confKeys (["[Interface]", "PrivateKey = x"].map String.toList) = [] := by decide
    rw [hnone]
    exact fun k hk => absurd hk List.not_mem_nil
  · decide
  · decide
  · exact fun e he => absurd he List.not_mem_nil

/-- A peer to add. -/
def firstPeer : NewPeer where
  publicKey := "AAAAAAAAAAAAAAAAAAAAAAAAAAAAAAAAAAAAAAAAAAA="
  psk := "BBBBBBBBBBBBBBBBBBBBBBBBBBBBBBBBBBBBBBBBBBB="
  ip := "10.88.88.42/32"
  name := "auto-ann"

/-- The peer is added, and its removal from the runtime fails. -/
theorem wrappers_keep_together_firstPeer :
    Together bareNode ∧ (pwaAddPeer true bareNode firstPeer).1 = .ok
      ∧ Together ((Invocation.del { sets := false } firstPeer.publicKey).run
        (Invocation.after [.add true firstPeer] bareNode)).2 :=
  ⟨together_bareNode, by decide,
    ((wrappers_keep_together together_bareNode [.add true firstPeer]).1
      (.del { sets := false } firstPeer.publicKey)).1⟩

end VpnPortal
