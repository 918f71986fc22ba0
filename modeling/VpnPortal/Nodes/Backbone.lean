/-
Which peers `pwa-del-peer` can touch.

The wrapper is the boundary between the portal and the backbone: it refuses a
peer whose address is outside the client subnets. What it looks at is the text of
the first address in the running interface, and only if the peer runs; what it
removes are all addresses of the peer in the runtime, and the blocks of the file
that carry the key, whichever sections their lines belong to.

* `isClientAddress`: a block of addresses inside a client subnet;
* `changed`, `spared_sublist`: the sections a rewrite reaches; the others stay;
* `Acts`, `acts_iff`: the script changes something if and only if it gets past its
  checks;
* `Overlooked`: what the script does not look at;
* `backbone_out_of_reach_iff`: only client addresses are touched if and only if
  whatever gets past the checks is clean where they do not look, and
  `backbone_in_reach`, a run that touches another.
-/
import VpnPortal.Nodes.Sections

namespace VpnPortal

open Blocks

/-! ### Addresses -/

/-- A decimal number without leading zeros. -/
def decimalOf (text : Line) : Option ℕ :=
  if text ≠ [] ∧ text.all Char.isDigit ∧ (text.head? ≠ some '0' ∨ text = ['0'])
  then some (text.foldl (fun n d => 10 * n + (d.toNat - '0'.toNat)) 0)
  else none

/-- A block of addresses: four octets and the length of the prefix. -/
structure Cidr where
  octets : List ℕ
  length : ℕ
  deriving DecidableEq, Repr

/-- The block an entry of `AllowedIPs` stands for; a bare address is one with the
prefix 32. -/
def cidrOf (text : Line) : Option Cidr :=
  let octetsOf (addr : Line) : Option (List ℕ) := (addr.splitOn '.').mapM decimalOf
  match text.splitOn '/' with
  | [addr] => (octetsOf addr).map fun octets => ⟨octets, 32⟩
  | [addr, len] => do
      let octets ← octetsOf addr
      let length ← decimalOf len
      pure ⟨octets, length⟩
  | _ => none

/-- The block lies in 10.88.88.0/24 or 10.88.89.0/24. -/
def isClientAddress (text : Line) : Bool :=
  match cidrOf text with
  | some ⟨[10, 88, net, host], length⟩ =>
      (net = 88 || net = 89) && decide (host ≤ 255) && decide (24 ≤ length) && decide (length ≤ 32)
  | _ => false

/-- The value of a setting in a line, as the interface reads it: without blanks,
comments, and whatever the case of its name. -/
def settingOf (name : String) (line : Line) : Option Line :=
  let text := (line.takeWhile (· ≠ '#')).filter (!isSpace ·)
  if (text.take (name.length + 1)).map Char.toLower = name.toList ++ ['='] then
    some (text.drop (name.length + 1))
  else none

/-- The addresses of an `AllowedIPs` line. -/
def lineAddresses (line : Line) : List Line :=
  (((settingOf "allowedips" line).getD []).splitOn ',').filter fun ip => ip ≠ []

/-- The section loses a line, or gets the settings of one behind it. -/
def isChanged (sec : Marked) (rest : List Marked) : Bool :=
  sec.gone || sec.settings.any Prod.snd || decide ((keptSections rest).1 ≠ [])

/-- The sections a rewrite reaches. -/
def changed : List Marked → List Marked
  | [] => []
  | sec :: rest => if isChanged sec rest then sec :: changed rest else changed rest

/-- The sections it does not. -/
def spared : List Marked → List Marked
  | [] => []
  | sec :: rest => if isChanged sec rest then spared rest else sec :: spared rest

/-- The addresses of the file a run reaches: those of the lines in the blocks of
the key, and those of every peer whose section is changed. -/
def confAddresses (conf : List Line) (pub : String) : List Line :=
  ((flaggedLines pub conf).filter Prod.snd).flatMap (fun x => lineAddresses x.1)
    ++ ((changed (marked pub conf)).filter fun sec => sec.head = .peer).flatMap fun sec =>
      sec.toSection.settings.flatMap lineAddresses

/-- The addresses of a peer in the running interface. -/
def runtimeAddresses (runtime : List PeerEntry) (pub : String) : List String :=
  ((runtime.filter fun e => e.key = pub).flatMap PeerEntry.allowedIps).filter fun ip => ip ≠ ""

/-- Every address that is reached, in both places, is a client address. -/
structure OnlyClient (node : NodeState) (pub : String) : Prop where
  runtime : ∀ ip ∈ runtimeAddresses node.runtime pub, isClientAddress ip.toList = true
  conf : ∀ conf, node.conf = some conf → ∀ ip ∈ confAddresses conf pub, isClientAddress ip = true

/-! ### What a rewrite reaches -/

/-- A section that is not reached is there afterwards, with all its settings. -/
theorem spared_sublist (secs : List Marked) :
    ((spared secs).map Marked.toSection).Sublist (keptSections secs).2 := by
  induction secs with
  | nil => exact List.Sublist.slnil
  | cons sec rest ih =>
      have hkeep : keptSections (sec :: rest) = keepSection sec (keptSections rest) := rfl
      rw [spared, hkeep, keepSection]
      cases hchanged : isChanged sec rest with
      | true =>
          cases hgone : sec.gone with
          | true => exact ih
          | false => exact ih.cons _
      | false =>
          simp only [isChanged, Bool.or_eq_false_iff, List.any_eq_false, decide_eq_false_iff_not,
            not_not] at hchanged
          obtain ⟨⟨hgone, hstay⟩, hnone⟩ := hchanged
          have hsettings : (sec.settings.filter fun x => !x.2) = sec.settings :=
            List.filter_eq_self.mpr fun x hx => by simpa using hstay x hx
          rw [hgone, hsettings, hnone, List.append_nil]
          exact ih.cons_cons _

/-- A section that loses a setting is reached. -/
lemma changed_of_gone {secs : List Marked} {sec : Marked} (hsec : sec ∈ secs) {x : Line × Bool}
    (hx : x ∈ sec.settings) (hgone : x.2 = true) : sec ∈ changed secs := by
  induction secs with
  | nil => cases hsec
  | cons s rest ih =>
      rw [changed]
      rcases List.mem_cons.mp hsec with rfl | hsec
      · have hchanged : isChanged sec rest = true := by
          simp only [isChanged, Bool.or_eq_true, List.any_eq_true]
          exact .inl (.inr ⟨x, hx, hgone⟩)
        rw [hchanged, if_pos rfl]
        exact List.mem_cons_self
      · cases isChanged s rest with
        | true => exact List.mem_cons_of_mem _ (ih hsec)
        | false => exact ih hsec

/-- A section that mentions the key is reached. -/
theorem changed_of_mentions {pub : String} {conf conf' : List Line}
    (h : rewriteConf pub conf = .ok conf') {sec : Marked} (hsec : sec ∈ marked pub conf)
    (hkey : ∃ x ∈ sec.settings, mentions pub x.1 = true) : sec ∈ changed (marked pub conf) := by
  obtain ⟨x, hx, hmention⟩ := hkey
  obtain ⟨-, -, hnone, -⟩ := rewriteConf_guards h
  refine changed_of_gone hsec hx ?_
  -- a line that stays does not mention the key
  by_contra hstay
  have hmem : x.1 ∈ conf' := by
    rw [eq_of_rewriteConf h]
    exact List.mem_map_of_mem (List.mem_filter.mpr
      ⟨mem_of_read (.inr ⟨sec, hsec, hx⟩), by simpa using hstay⟩)
  rw [hnone x.1 hmem] at hmention
  cases hmention

/-! ### When the script acts -/

/-- The script gets past its checks: the key is well-formed, the peer is there and
its first running address looks like a client's, and the file can be rewritten,
or does not mention the key and `awg set` succeeds. -/
def Acts (run : DelRun) (node : NodeState) (pub : String) : Prop :=
  isPublicKey pub = true ∧ ∃ conf, node.conf = some conf
    ∧ (allowedOf node.runtime pub ≠ "" → inClientSubnet (allowedOf node.runtime pub) = true)
    ∧ ((conf.any (mentions pub) = true ∧ ∃ conf', rewriteConf pub conf = .ok conf')
      ∨ (conf.any (mentions pub) = false ∧ allowedOf node.runtime pub ≠ "" ∧ run.sets = true))

lemma acts_iff (run : DelRun) (node : NodeState) (pub : String) :
    (pwaDelPeer run node pub).2 ≠ node ↔ Acts run node pub := by
  constructor
  · intro hne
    rcases pwaDelPeer_cases run node pub with ⟨reason, hrun⟩ | ⟨hpub, conf, conf', hconf, hfile, hclient, hrun⟩
    · rw [hrun] at hne
      exact absurd rfl hne
    · refine ⟨hpub, conf, hconf, hclient, ?_⟩
      rcases hfile with ⟨hin, hrewrite⟩ | ⟨hnot, rfl, hrunning⟩
      · exact Or.inl ⟨hin, conf', hrewrite⟩
      · refine Or.inr ⟨hnot, hrunning, ?_⟩
        by_contra hsets
        rw [hrun, delRuntime, if_neg hrunning, if_neg hsets, ← hconf] at hne
        exact absurd rfl hne
  · rintro ⟨hpub, conf, hconf, hclient, ⟨hin, conf', hrewrite⟩ | ⟨hnot, hrunning, hsets⟩⟩
    · have hrun : pwaDelPeer run node pub
          = delRuntime run { node with conf := some conf' } (allowedOf node.runtime pub) pub := by
        have hnotout : ¬ (allowedOf node.runtime pub ≠ ""
            ∧ inClientSubnet (allowedOf node.runtime pub) = false) := by
          rintro ⟨hne, hout⟩
          rw [hclient hne] at hout
          cases hout
        simp only [pwaDelPeer, hpub, hconf, hin, hrewrite, Bool.not_true, Bool.false_eq_true,
          ↓reduceIte, Bool.true_eq_false, and_false, hnotout]
      intro hsame
      have hkept := (delRuntime_step run { node with conf := some conf' }
        (allowedOf node.runtime pub) pub).1
      rw [← hrun, hsame, hconf] at hkept
      exact rewriteConf_ne hrewrite (Option.some.inj hkept).symm
    · have hrun : pwaDelPeer run node pub
          = (.ok, { node with runtime := node.runtime.filter fun e => e.key ≠ pub }) := by
        simp only [pwaDelPeer, hpub, hconf, hnot, hrunning, hclient hrunning, delRuntime, hsets,
          Bool.not_true, Bool.false_eq_true, ↓reduceIte, false_and, ne_eq, not_false_eq_true,
          Bool.true_eq_false, and_false]
      intro hsame
      rw [hrun] at hsame
      have hruntime : node.runtime.filter (fun e => e.key ≠ pub) = node.runtime :=
        congrArg NodeState.runtime hsame
      refine hrunning (allowedOf_eq_empty fun e he => ?_)
      simpa using List.filter_eq_self.mp hruntime e he

/-! ### What it looks at -/

/-- What the checks leave out: the length of the first running address, the other
running addresses, and the addresses in the file. -/
structure Overlooked (node : NodeState) (pub : String) : Prop where
  first : ∀ ip ∈ (runtimeAddresses node.runtime pub).head?, inClientSubnet ip = true →
    isClientAddress ip.toList = true
  others : ∀ ip ∈ (runtimeAddresses node.runtime pub).tail, isClientAddress ip.toList = true
  conf : ∀ conf, node.conf = some conf → ∀ ip ∈ confAddresses conf pub, isClientAddress ip = true

/-- A text that is a prefix and does not reach the separator. -/
lemma prefix_of_append {α : Type} {net x rest : List α} {sep : α} (hsep : sep ∉ net)
    (h : net <+: x ++ sep :: rest) : net <+: x := by
  rcases List.prefix_or_prefix_of_prefix h (List.prefix_append x (sep :: rest)) with hx | ⟨t, rfl⟩
  · exact hx
  · cases t with
    | nil => simp
    | cons c t =>
        have hc : c :: t <+: sep :: rest := by
          obtain ⟨u, hu⟩ := h
          rw [List.append_assoc] at hu
          exact ⟨u, List.append_cancel_left hu⟩
        obtain ⟨rfl, -⟩ := List.cons_prefix_cons.mp hc
        simp at hsep

/-- The check is about the first column. -/
lemma inClientSubnet_column {e : PeerEntry} {rest : List PeerEntry}
    (h : inClientSubnet ("\n".intercalate ((e :: rest).map PeerEntry.column)) = true) :
    inClientSubnet e.column = true := by
  obtain ⟨net, hnet, hprefix⟩ := List.any_eq_true.mp h
  refine List.any_eq_true.mpr ⟨net, hnet, ?_⟩
  rw [List.isPrefixOf_iff_prefix] at hprefix ⊢
  cases rest with
  | nil => simpa using hprefix
  | cons x xs =>
      have hlist : ("\n".intercalate ((e :: x :: xs).map PeerEntry.column)).toList
          = e.column.toList ++ '\n'
            :: ("\n".intercalate ((x :: xs).map PeerEntry.column)).toList := by
        simp [String.toList_intercalate, List.intercalate]
      rw [hlist] at hprefix
      have hsep : ∀ n ∈ clientSubnetPrefixes, '\n' ∉ n.toList := by decide
      exact prefix_of_append (hsep net hnet) hprefix

/-- The first address of a peer that passes the check. -/
lemma inClientSubnet_first {runtime : List PeerEntry} {pub ip : String}
    (h : inClientSubnet (allowedOf runtime pub) = true)
    (hip : ip ∈ (runtimeAddresses runtime pub).head?) : inClientSubnet ip = true := by
  unfold allowedOf at h
  unfold runtimeAddresses at hip
  cases hpeers : runtime.filter fun e => e.key = pub with
  | nil =>
      rw [hpeers] at hip
      cases hip
  | cons e rest =>
      rw [hpeers] at h hip
      have hcolumn := inClientSubnet_column h
      unfold PeerEntry.column at hcolumn
      rw [List.flatMap_cons, List.filter_append] at hip
      cases hfirst : e.allowedIps.filter fun ip => ip ≠ "" with
      | nil =>
          -- a peer without addresses is shown as `(none)`
          have hnone : e.allowedIps.find? (· ≠ "") = none := by
            rw [List.find?_eq_none]
            exact fun x hx => List.filter_eq_nil_iff.mp hfirst x hx
          rw [hnone] at hcolumn
          exact absurd hcolumn (by decide)
      | cons x xs =>
          have hfind : e.allowedIps.find? (· ≠ "") = some x := by
            rw [← List.head?_filter, hfirst]
            rfl
          rw [hfind] at hcolumn
          rw [hfirst] at hip
          obtain rfl : x = ip := Option.some.inj hip
          exact hcolumn

/-- **The backbone is out of reach** exactly when whatever gets past the checks is
clean where they do not look. -/
theorem backbone_out_of_reach_iff (run : DelRun) (node : NodeState) (pub : String) :
    ((pwaDelPeer run node pub).2 ≠ node → OnlyClient node pub)
      ↔ (Acts run node pub → Overlooked node pub) := by
  rw [acts_iff]
  refine ⟨fun h hacts => ?_, fun h hacts => ?_⟩
  · obtain ⟨hruntime, hconf⟩ := h hacts
    refine ⟨fun ip hip _ => hruntime ip (List.mem_of_mem_head? hip),
      fun ip hip => hruntime ip (List.mem_of_mem_tail hip), hconf⟩
  · obtain ⟨hfirst, hothers, hconf⟩ := h hacts
    refine ⟨fun ip hip => ?_, hconf⟩
    obtain ⟨-, -, -, hclient, -⟩ := hacts
    have hrunning : allowedOf node.runtime pub ≠ "" := by
      obtain ⟨hmem, -⟩ := List.mem_filter.mp hip
      obtain ⟨e, he, -⟩ := List.mem_flatMap.mp hmem
      obtain ⟨hrow, hkey⟩ := List.mem_filter.mp he
      rw [← of_decide_eq_true hkey]
      exact allowedOf_ne_empty hrow
    cases haddresses : runtimeAddresses node.runtime pub with
    | nil =>
        rw [haddresses] at hip
        cases hip
    | cons x rest =>
        have hx : x ∈ (runtimeAddresses node.runtime pub).head? := by
          rw [haddresses]
          rfl
        rw [haddresses] at hip
        rcases List.mem_cons.mp hip with rfl | hip
        · exact hfirst _ hx (inClientSubnet_first (hclient hrunning) hx)
        · exact hothers ip (by rw [haddresses]; exact hip)

/-- **A backbone peer is removed.** It is in the file and does not run, so nothing
looks at its address. -/
theorem backbone_in_reach : ∃ (run : DelRun) (node : NodeState) (pub : String),
    (pwaDelPeer run node pub).1 = .ok ∧ (pwaDelPeer run node pub).2 ≠ node
      ∧ ¬ OnlyClient node pub := by
  refine ⟨{}, { conf := some (["[Interface]", "PrivateKey = x", "[Peer]", "PublicKey = " ++ annKey,
    "AllowedIPs = 10.77.77.1/32"].map String.toList) }, annKey, by decide, by decide,
    fun h => ?_⟩
  have haddress : ∀ ip ∈ confAddresses (["[Interface]", "PrivateKey = x", "[Peer]",
      "PublicKey = " ++ annKey, "AllowedIPs = 10.77.77.1/32"].map String.toList) annKey,
      isClientAddress ip = true := h.conf _ rfl
  revert haddress
  decide

/-- An indented header hides a backbone peer in the block of a client. -/
example : "10.77.77.1/32".toList ∈ confAddresses (["[Interface]", "PrivateKey = x", "[Peer]",
    "PublicKey = " ++ annKey, "AllowedIPs = 10.88.88.42/32", " [Peer]", "PublicKey = BACKBONE",
    "AllowedIPs = 10.77.77.1/32"].map String.toList) annKey := by
  decide

end VpnPortal
