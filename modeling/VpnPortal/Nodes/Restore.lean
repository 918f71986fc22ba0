/-
A removed peer put back on an entry node (`--restore` of `tools/peer-remove.sh`).

The snapshot is the dump and the config file from before the removals. The peer
is looked up in its dump by one address and must not be there already; then its
block goes to the end of the config file and `awg set` gets all its addresses.
Only the one address was looked for on the running interface: `awg set` takes
the others from whoever has them by now. The key is looked for by `grep -q` behind
a pipe, and if that breaks the peer counts as absent. The last check comes when
all is done.

* `Snapshot`, `RestoreRun`, `restore`: the script, and what it meets outside;
* `Exact`: what a restore is meant to do;
* `Safe`, `restore_exact_iff`: it does that, or changes nothing, if and only if a
  check stops it, a failing `awg set` is undone, or nobody has the peer's key or
  one of its addresses and the key is in the new block once.
-/
import VpnPortal.Nodes.Dump

namespace VpnPortal.PeerRestore

open PeerRemove

/-! ### The script -/

/-- What `--apply` keeps before it removes anything. -/
structure Snapshot where
  dump : List Line
  conf : List Line

/-- The snapshot of an interface and its file. -/
def takeSnapshot (face : Line) (peers : List RunningPeer) (conf : List Line) : Snapshot where
  dump := dumpText face peers
  conf := conf

/-- The node at the time of the restore. -/
structure Node where
  face : Line
  peers : List RunningPeer
  conf : Option (List Line)

/-- The awk over the snapshot's file, between two lines: the last title, whether
no block has taken it yet, and what was printed. -/
structure HeaderScan where
  title : Line := []
  fresh : Bool := false
  found : Option Line := none

/-- One line. -/
def HeaderScan.line (pub : Line) (s : HeaderScan) (l : Line) : HeaderScan :=
  if s.found.isSome then s
  else if confMarks.title l then { s with title := l, fresh := true }
  else if isPeerLine l then { s with title := if s.fresh then s.title else [], fresh := false }
  else if keyOf l = some pub then { s with found := some s.title }
  else s

/-- The `### name` line that opened the block of the key, if it had one. -/
def headerOf (pub : Line) (conf : List Line) : Line :=
  (conf.foldl (HeaderScan.line pub) {}).found.getD []

/-- `grep -F` on one line. -/
def mentionsKey (pub line : Line) : Bool := decide (pub <:+: line)

/-- The block that is appended. -/
def restoredBlock (header pub : Line) (psk : Option Line) (ips : Line) (ka : Option Line) :
    List Line :=
  [[], []] ++ (if header = [] then [] else [header]) ++
    ["[Peer]".toList, "PublicKey = ".toList ++ pub] ++
    (psk.map fun t => "PresharedKey = ".toList ++ t).toList ++
    ["AllowedIPs = ".toList ++ ips] ++
    (ka.map fun t => "PersistentKeepalive = ".toList ++ t).toList

/-- How the script ends. -/
inductive Ending where
  | ok
  | stop (reason : String)
  deriving DecidableEq

/-- What one call meets outside: whether `awg` gets as far as setting the peer, and
whether `grep -q`, when it has found the key among the running ones, ends before
the dump is written; the pipe then fails under `pipefail`. -/
structure RestoreRun where
  sets : Bool := true
  breaks : Bool := false

/-- `--restore <address>` -/
def restore (run : RestoreRun) (snap : Option Snapshot) (node : Node) (ip : String) : Ending × Node :=
  if !clientIp ip then (.stop (ip ++ " is not a client address"), node)
  else match snap with
  | none => (.stop "no snapshot found", node)
  | some snap =>
    match linesWith snap.dump.tail ip with
    | [line] =>
        let pub := field 0 line
        let psk := if field 1 line = "(none)".toList then none else some (field 1 line)
        let ips := field 3 line
        let ka := if lastField 7 line = "off".toList then none else some (lastField 7 line)
        let running := (dumpText node.face node.peers).tail
        if (running.any fun l => field 0 l = pub) && !run.breaks then
          (.stop "this peer is already on awg0", node)
        else if linesWith running ip ≠ [] then
          (.stop (ip ++ " is in use by another peer on awg0"), node)
        else if (node.conf.getD []).any (mentionsKey pub) then
          (.stop "the key is already in the config", node)
        else
          let conf := node.conf.getD [] ++ restoredBlock (headerOf pub snap.conf) pub psk ips ka
          match if run.sets then parseSet pub psk ips ka else none with
          | none =>
              (.stop "the running interface refused the peer; the config is as it was",
                { node with conf := some (node.conf.getD []) })
          | some args =>
              let node := { node with peers := awgSet node.peers args, conf := some conf }
              if conf.countP (mentionsKey pub) = 1 then (.ok, node)
              else (.stop "restored, but the key is not in the config exactly once", node)
    | found =>
        (.stop ("the snapshot has " ++ toString found.length ++ " peers with " ++ ip), node)

/-! ### What a restore is meant to do -/

/-- The peer of the snapshot is back as it was, and everything else is unchanged;
a restore that stops has changed nothing. -/
def Exact (peers : List RunningPeer) (node : Node) (ip : String) (out : Ending × Node) : Prop :=
  match out.1 with
  | .ok => ∃ p, peersWith peers ip = [p] ∧ out.2.peers = node.peers ++ [p.args.peer]
  | .stop _ => out.2.peers = node.peers ∧ out.2.conf = node.conf

/-- A check stops the script: not a client's address, not one peer in the
snapshot, or the key or the address is in use; a running key is seen if the pipe
holds. -/
def Refused (run : RestoreRun) (peers : List RunningPeer) (node : Node) (ip : String) : Prop :=
  clientIp ip = false ∨ (∀ p, peersWith peers ip ≠ [p]) ∨
    ∃ p, peersWith peers ip = [p] ∧ ((run.breaks = false ∧ ∃ q ∈ node.peers, q.pub = p.pub) ∨
      peersWith node.peers ip ≠ [] ∨ (node.conf.getD []).any (mentionsKey p.pub.text))

/-- A check stops the script; or `awg set` fails, with a config to put back; or
nobody has the peer's key or holds one of its addresses, and the key stands in the
new block only once. -/
def Safe (run : RestoreRun) (peers : List RunningPeer) (conf : List Line) (node : Node) (ip : String) :
    Prop :=
  Refused run peers node ip ∨ (run.sets = false ∧ node.conf.isSome) ∨
    (run.sets = true ∧ ∃ p, peersWith peers ip = [p] ∧ (∀ q ∈ node.peers, q.pub ≠ p.pub) ∧
      (∀ q ∈ node.peers, ∀ a ∈ p.allowedIps, a ∉ q.allowedIps) ∧
      mentionsKey p.pub.text (headerOf p.pub.text conf) = false ∧ p.psk ≠ some p.pub)

/-! ### The key in the new block -/

lemma Key.text_injective {k l : Key} (h : k.text = l.text) : k = l := by
  have hbody : k.body = l.body := List.append_cancel_right h
  cases k
  cases l
  simpa using hbody

/-- The last character of a key stands behind 43 others. -/
lemma exists_of_mentionsKey {k : Key} {l : Line} (h : mentionsKey k.text l = true) :
    ∃ n, l[n + 43]? = some '=' ∧ ∀ m, m < 44 → l[n + m]? = k.text[m]? := by
  obtain ⟨before, after, rfl⟩ := of_decide_eq_true h
  have hlen : k.text.length = 44 := by simp [Key.text, k.length_body]
  have hget : ∀ m, m < 44 → (before ++ k.text ++ after)[before.length + m]? = k.text[m]? := by
    intro m hm
    rw [List.append_assoc, List.getElem?_append_right (by omega), Nat.add_sub_cancel_left,
      List.getElem?_append_left (by omega)]
  refine ⟨before.length, ?_, hget⟩
  rw [hget 43 (by omega), Key.text, List.getElem?_append_right k.length_body.le, k.length_body]
  rfl

/-- No key stands in a line that has no `=` after its first characters. -/
lemma mentionsKey_append {k : Key} {pre v : Line} (hpre : pre.length ≤ 43) (hv : '=' ∉ v) :
    mentionsKey k.text (pre ++ v) = false := by
  by_contra h
  obtain ⟨n, hget, -⟩ := exists_of_mentionsKey (eq_true_of_ne_false h)
  rw [List.getElem?_append_right (by omega)] at hget
  exact hv (List.mem_of_getElem? hget)

/-- A `PresharedKey` line has only its own key. -/
lemma mentionsKey_psk {k l : Key} :
    mentionsKey k.text ("PresharedKey = ".toList ++ l.text) = true ↔ l = k := by
  have hpre : "PresharedKey = ".toList.length = 15 := rfl
  generalize "PresharedKey = ".toList = pre at *
  constructor
  · intro h
    obtain ⟨n, hget, hall⟩ := exists_of_mentionsKey h
    have hlast : n = 15 := by
      rw [List.getElem?_append_right (by omega), Key.text] at hget
      by_contra hne
      by_cases hbody : n + 43 - pre.length < l.body.length
      · rw [List.getElem?_append_left hbody] at hget
        exact absurd (l.base64 _ (List.mem_of_getElem? hget)) (by decide)
      · have hlen := l.length_body
        rw [List.getElem?_append_right (by omega), List.getElem?_eq_none (by simp; omega)] at hget
        cases hget
    refine Key.text_injective (List.ext_getElem? fun m => ?_)
    have hlen : ∀ k : Key, k.text.length = 44 := fun k => by simp [Key.text, k.length_body]
    by_cases hm : m < 44
    · rw [← hall m hm, hlast, List.getElem?_append_right (by omega)]
      congr 1
      omega
    · rw [List.getElem?_eq_none (by rw [hlen]; omega), List.getElem?_eq_none (by rw [hlen]; omega)]
  · rintro rfl
    exact decide_eq_true (List.suffix_append _ _).isInfix

lemma mentionsKey_short {k : Key} {line : Line} (h : line.length ≤ 43) :
    mentionsKey k.text line = false := by
  have h := mentionsKey_append (k := k) h (List.not_mem_nil (a := '='))
  rwa [List.append_nil] at h

/-- **The key is in the new block once**, unless the title or the other key has it. -/
lemma countP_restoredBlock (p : RunningPeer) (header : Line) :
    (restoredBlock header p.pub.text (p.psk.map Key.text) (addressList p.allowedIps)
        (if p.keepalive = 0 then none else some (number p.keepalive))).countP
      (mentionsKey p.pub.text) = 1 ↔
    mentionsKey p.pub.text header = false ∧ p.psk ≠ some p.pub := by
  have hnil : mentionsKey p.pub.text [] = false := mentionsKey_short (by decide)
  have hpeer : mentionsKey p.pub.text "[Peer]".toList = false := mentionsKey_short (by decide)
  have hpub : mentionsKey p.pub.text ("PublicKey = ".toList ++ p.pub.text) = true :=
    decide_eq_true (List.suffix_append _ _).isInfix
  have hips : mentionsKey p.pub.text ("AllowedIPs = ".toList ++ addressList p.allowedIps) = false := by
    refine mentionsKey_append (by decide) fun hmem => ?_
    rcases mem_addressList hmem with h | h | h <;> revert h <;> decide
  have hka : mentionsKey p.pub.text ("PersistentKeepalive = ".toList ++ number p.keepalive) = false := by
    refine mentionsKey_append (by decide) fun hmem => ?_
    rw [number_eq] at hmem
    exact absurd (Nat.isDigit_of_mem_toDigits (by decide) (by decide) hmem) (by decide)
  have hheader : (if header = [] then [] else [header]).countP (mentionsKey p.pub.text) =
      if mentionsKey p.pub.text header then 1 else 0 := by
    by_cases hempty : header = []
    · simp [hempty, hnil]
    · simp [hempty, List.countP_cons]
  have hpsk : ((p.psk.map Key.text).map fun t => "PresharedKey = ".toList ++ t).toList.countP
      (mentionsKey p.pub.text) = if p.psk = some p.pub then 1 else 0 := by
    cases hpsk : p.psk with
    | none => rfl
    | some l =>
      have hline := mentionsKey_psk (k := p.pub) (l := l)
      by_cases hl : l = p.pub
      · rw [if_pos (by rw [hl])]
        exact List.countP_eq_length.mpr fun line hline' => by
          rw [List.mem_singleton.mp hline']
          exact hline.mpr hl
      · rw [if_neg (by simpa using hl), List.countP_eq_zero]
        intro line hline' hmem
        rw [List.mem_singleton.mp hline'] at hmem
        exact hl (hline.mp hmem)
  have hkalines : ((if p.keepalive = 0 then none else some (number p.keepalive)).map fun t =>
      "PersistentKeepalive = ".toList ++ t).toList.countP (mentionsKey p.pub.text) = 0 := by
    rw [List.countP_eq_zero]
    intro line hline
    split_ifs at hline
    · cases hline
    · rw [List.mem_singleton.mp hline, hka]
      decide
  unfold restoredBlock
  rw [List.countP_append, List.countP_append, List.countP_append, List.countP_append,
    List.countP_append, hheader, hpsk, hkalines, List.countP_cons_of_neg (by simp [hnil]),
    List.countP_cons_of_neg (by simp [hnil]), List.countP_cons_of_neg (by rw [hpeer]; decide),
    List.countP_cons_of_pos hpub, List.countP_cons_of_neg (by rw [hips]; decide)]
  by_cases hh : mentionsKey p.pub.text header = true <;> by_cases hs : p.psk = some p.pub <;>
    simp [hh, hs]

/-! ### What the script does -/

lemma mem_of_peersWith {peers : List RunningPeer} {ip : String} {p : RunningPeer}
    (h : peersWith peers ip = [p]) :
    p ∈ peers ∧ ∃ a ∈ p.allowedIps, a.text = ip.toList ++ "/32".toList := by
  have hp : p ∈ peersWith peers ip := by simp [h]
  obtain ⟨q, hq, hmem⟩ := List.mem_flatMap.mp hp
  obtain ⟨a, ha, rfl⟩ := List.mem_map.mp hmem
  obtain ⟨ha, htext⟩ := List.mem_filter.mp ha
  exact ⟨hq, a, ha, of_decide_eq_true htext⟩

/-- The key is looked for among the running peers. -/
lemma any_field_iff {peers : List RunningPeer} {k : Key} :
    ((peers.map dumpLine).any fun l => field 0 l = k.text) = true ↔ ∃ q ∈ peers, q.pub = k := by
  have hfield : ∀ q : RunningPeer, field 0 (dumpLine q) = q.pub.text := fun q =>
    field_dumpLine q (by decide)
  simp only [List.any_eq_true, decide_eq_true_eq]
  constructor
  · rintro ⟨l, hl, htext⟩
    obtain ⟨q, hq, rfl⟩ := List.mem_map.mp hl
    rw [hfield] at htext
    exact ⟨q, hq, Key.text_injective htext⟩
  · rintro ⟨q, hq, rfl⟩
    exact ⟨_, List.mem_map_of_mem hq, hfield q⟩

section

variable (face : Line) (peers : List RunningPeer) (conf : List Line) (node : Node) (ip : String)

/-- The block that the script appends for the peer. -/
def newBlock (p : RunningPeer) : List Line :=
  restoredBlock (headerOf p.pub.text conf) p.pub.text (p.psk.map Key.text)
    (addressList p.allowedIps) (if p.keepalive = 0 then none else some (number p.keepalive))

/-- One peer in the snapshot: the script after its first two checks. -/
lemma restore_of_one (run : RestoreRun) (hip : clientIp ip = true) {p : RunningPeer}
    (hp : peersWith peers ip = [p]) :
    restore run (some (takeSnapshot face peers conf)) node ip =
      if run.breaks = false ∧ ∃ q ∈ node.peers, q.pub = p.pub then (.stop "this peer is already on awg0", node)
      else if peersWith node.peers ip ≠ [] then
        (.stop (ip ++ " is in use by another peer on awg0"), node)
      else if (node.conf.getD []).any (mentionsKey p.pub.text) then
        (.stop "the key is already in the config", node)
      else if run.sets then
        (if (node.conf.getD [] ++ newBlock conf p).countP (mentionsKey p.pub.text) = 1 then .ok
          else .stop "restored, but the key is not in the config exactly once",
          { node with peers := awgSet node.peers p.args,
                      conf := some (node.conf.getD [] ++ newBlock conf p) })
      else
        (.stop "the running interface refused the peer; the config is as it was",
          { node with conf := some (node.conf.getD []) }) := by
  have hlines : linesWith (takeSnapshot face peers conf).dump.tail ip = [dumpLine p] := by
    rw [takeSnapshot, dumpText, List.tail_cons, linesWith_map, hp]
    rfl
  obtain ⟨-, a, ha, -⟩ := mem_of_peersWith hp
  have hne : p.allowedIps ≠ [] := List.ne_nil_of_mem ha
  have hpub : field 0 (dumpLine p) = p.pub.text := field_dumpLine p (by decide)
  have hips : field 3 (dumpLine p) = addressList p.allowedIps := field_dumpLine p (by decide)
  have hpsk : (if field 1 (dumpLine p) = "(none)".toList then none
      else some (field 1 (dumpLine p))) = p.psk.map Key.text := by
    have hfield : field 1 (dumpLine p) = (p.psk.map Key.text).getD "(none)".toList :=
      field_dumpLine p (by decide)
    rw [hfield]
    cases p.psk with
    | none => rfl
    | some k =>
      have hkey : k.text ≠ "(none)".toList := by
        intro heq
        have hlen := congrArg List.length heq
        simp [Key.text, k.length_body] at hlen
      exact if_neg hkey
  have hka : (if lastField 7 (dumpLine p) = "off".toList then none
      else some (lastField 7 (dumpLine p))) =
      if p.keepalive = 0 then none else some (number p.keepalive) := by
    rw [lastField_dumpLine]
    by_cases hzero : p.keepalive = 0
    · rw [if_pos hzero, if_pos hzero, if_pos rfl]
    · have hnumber : number p.keepalive ≠ "off".toList := by
        intro heq
        have hmem : 'o' ∈ number p.keepalive := by
          rw [heq]
          decide
        rw [number_eq] at hmem
        exact absurd (Nat.isDigit_of_mem_toDigits (by decide) (by decide) hmem) (by decide)
      rw [if_neg hzero, if_neg hzero, if_neg hnumber]
  have hrunning : (dumpText node.face node.peers).tail = node.peers.map dumpLine := rfl
  have hused : linesWith (node.peers.map dumpLine) ip ≠ [] ↔ peersWith node.peers ip ≠ [] := by
    rw [linesWith_map, Ne, List.map_eq_nil_iff]
  have hseen : (((node.peers.map dumpLine).any fun l => field 0 l = p.pub.text) && !run.breaks) = true ↔
      run.breaks = false ∧ ∃ q ∈ node.peers, q.pub = p.pub := by
    rw [Bool.and_eq_true, any_field_iff, Bool.not_eq_true', and_comm]
  unfold restore
  simp only [hip, hlines, hpub, hips, hpsk, hka, hrunning, hseen, hused, Bool.not_true,
    Bool.false_eq_true, if_false]
  by_cases hthere : run.breaks = false ∧ ∃ q ∈ node.peers, q.pub = p.pub
  · rw [if_pos hthere, if_pos hthere]
  rw [if_neg hthere, if_neg hthere]
  by_cases hin : peersWith node.peers ip ≠ []
  · rw [if_pos hin, if_pos hin]
  rw [if_neg hin, if_neg hin]
  by_cases hconf : (node.conf.getD []).any (mentionsKey p.pub.text) = true
  · rw [if_pos hconf, if_pos hconf]
  rw [if_neg hconf, if_neg hconf]
  have hblock : restoredBlock (headerOf p.pub.text (takeSnapshot face peers conf).conf) p.pub.text
      (p.psk.map Key.text) (addressList p.allowedIps)
      (if p.keepalive = 0 then none else some (number p.keepalive)) = newBlock conf p := rfl
  rw [hblock]
  cases run.sets with
  | false => rfl
  | true =>
    rw [if_pos rfl, if_pos rfl, parseSet_words hne]
    split_ifs <;> rfl

/-- A refusal changes nothing. -/
lemma restore_refused (run : RestoreRun) (h : Refused run peers node ip) :
    ∃ reason, restore run (some (takeSnapshot face peers conf)) node ip = (.stop reason, node) := by
  by_cases hip : clientIp ip = true
  swap
  · refine ⟨ip ++ " is not a client address", ?_⟩
    rw [restore, if_pos (by simpa using hip)]
  have hlines : linesWith (takeSnapshot face peers conf).dump.tail ip =
      (peersWith peers ip).map dumpLine := by
    rw [takeSnapshot, dumpText, List.tail_cons, linesWith_map]
  by_cases hone : ∃ p, peersWith peers ip = [p]
  · obtain ⟨p, hp⟩ := hone
    have hused : (run.breaks = false ∧ ∃ q ∈ node.peers, q.pub = p.pub) ∨ peersWith node.peers ip ≠ [] ∨
        (node.conf.getD []).any (mentionsKey p.pub.text) = true := by
      rcases h with h | h | ⟨p', hp', h⟩
      · rw [hip] at h
        cases h
      · exact absurd hp (h p)
      · rw [hp] at hp'
        cases hp'
        exact h
    rw [restore_of_one face peers conf node ip run hip hp]
    split_ifs with hthere hin hconf
    · exact ⟨_, rfl⟩
    · exact ⟨_, rfl⟩
    · exact ⟨_, rfl⟩
    all_goals exact absurd hused (by simp only [hthere, hin, hconf]; decide)
  · simp only [restore, hip, hlines, Bool.not_true, Bool.false_eq_true, if_false]
    rcases hfound : peersWith peers ip with _ | ⟨p, _ | ⟨q, found⟩⟩
    · exact ⟨_, rfl⟩
    · exact absurd ⟨p, hfound⟩ hone
    · exact ⟨_, rfl⟩

/-- Past the checks: the peer, whose key runs only if the pipe has broken. -/
lemma exists_of_not_refused {run : RestoreRun} (h : ¬ Refused run peers node ip) :
    clientIp ip = true ∧ ∃ p, peersWith peers ip = [p] ∧
      ¬ (run.breaks = false ∧ ∃ q ∈ node.peers, q.pub = p.pub) ∧
      peersWith node.peers ip = [] ∧ (node.conf.getD []).any (mentionsKey p.pub.text) = false := by
  simp only [Refused, not_or, not_exists, not_and, not_forall, not_not] at h
  obtain ⟨hip, ⟨p, hp⟩, hfree⟩ := h
  obtain ⟨hthere, hin, hconf⟩ := hfree p hp
  exact ⟨by simpa using hip, p, hp, fun ⟨hpipe, q, hq, hkey⟩ => hthere hpipe q hq hkey,
    by simpa using hin, by simpa using hconf⟩

/-- **A restore does exactly what it is meant to do, or changes nothing, if and
only if it is safe.** -/
theorem restore_exact_iff (run : RestoreRun) :
    Exact peers node ip (restore run (some (takeSnapshot face peers conf)) node ip) ↔
      Safe run peers conf node ip := by
  by_cases hrefused : Refused run peers node ip
  · obtain ⟨reason, hstop⟩ := restore_refused face peers conf node ip run hrefused
    rw [hstop]
    exact ⟨fun _ => .inl hrefused, fun _ => ⟨rfl, rfl⟩⟩
  obtain ⟨hip, p, hp, hseen, hin, hconf⟩ := exists_of_not_refused peers node ip hrefused
  have hrestore := restore_of_one face peers conf node ip run hip hp
  rw [if_neg hseen, if_neg (by simpa using hin), if_neg (by simpa using hconf)] at hrestore
  rw [hrestore]
  cases hsets : run.sets with
  | false =>
    have hsafe : Safe run peers conf node ip ↔ node.conf.isSome := by
      simp [Safe, hrefused, hsets]
    rw [hsafe, if_neg (by decide)]
    cases hnode : node.conf with
    | none => simp [Exact, hnode]
    | some lines => simp [Exact, hnode]
  | true =>
    have hsafe : Safe run peers conf node ip ↔ (∀ q ∈ node.peers, q.pub ≠ p.pub) ∧
        (∀ q ∈ node.peers, ∀ a ∈ p.allowedIps, a ∉ q.allowedIps) ∧
          mentionsKey p.pub.text (headerOf p.pub.text conf) = false ∧ p.psk ≠ some p.pub := by
      simp [Safe, hrefused, hsets, hp]
    have hcount : (node.conf.getD [] ++ newBlock conf p).countP (mentionsKey p.pub.text) = 1 ↔
        mentionsKey p.pub.text (headerOf p.pub.text conf) = false ∧ p.psk ≠ some p.pub := by
      have hnone : (node.conf.getD []).countP (mentionsKey p.pub.text) = 0 := by
        rw [List.countP_eq_zero]
        intro line hline
        rw [List.any_eq_false.mp hconf line hline |> eq_false_of_ne_true]
        decide
      rw [List.countP_append, hnone, Nat.zero_add, newBlock, countP_restoredBlock]
    rw [hsafe, if_pos rfl]
    by_cases hone : (node.conf.getD [] ++ newBlock conf p).countP (mentionsKey p.pub.text) = 1
    · rw [if_pos hone]
      constructor
      · rintro ⟨p', hp', hpeers⟩
        obtain rfl : p = p' := by simpa [hp] using hp'
        -- one peer more than before: the key was not there
        have habsent : ∀ q ∈ node.peers, q.pub ≠ p.pub := by
          intro q hq hkey
          have hlen := congrArg List.length hpeers
          rw [length_awgSet_present (a := p.args) ⟨q, hq, hkey⟩] at hlen
          simp at hlen
        have hset := awgSet_absent (a := p.args) habsent
        exact ⟨habsent, map_filter_eq_self_iff.mp (List.append_cancel_right (hset.symm.trans hpeers)),
          hcount.mp hone⟩
      · rintro ⟨habsent, hfree, -⟩
        refine ⟨p, hp, (awgSet_absent (a := p.args) habsent).trans ?_⟩
        exact congrArg (· ++ [p.args.peer]) (map_filter_eq_self_iff.mpr hfree)
    · rw [if_neg hone]
      constructor
      · rintro ⟨-, hfile⟩
        -- the block is in the file although the script stopped
        cases hnode : node.conf with
        | none => simp [hnode] at hfile
        | some lines => simp [hnode, newBlock, restoredBlock] at hfile
      · rintro ⟨-, -, honce⟩
        exact absurd (hcount.mpr honce) hone

end

/-- A key of one letter. -/
def keyOfLetter (c : Char) (h : isBase64 c = true) : Key where
  body := List.replicate 43 c
  length_body := List.length_replicate
  base64 d hd := by rw [List.eq_of_mem_replicate hd, h]

/-- A removed peer with two addresses. -/
def twoAddresses : RunningPeer where
  pub := keyOfLetter 'a' (by decide)
  psk := none
  endpoint := none
  allowedIps := [⟨"10.88.88.42/32".toList, by decide, List.all_eq_true.mp (by decide)⟩,
    ⟨"10.88.88.43/32".toList, by decide, List.all_eq_true.mp (by decide)⟩]
  handshake := 0
  rx := 0
  tx := 0
  keepalive := 25

/-- The peer that has got the second of them since. -/
def reissued : RunningPeer where
  pub := keyOfLetter 'b' (by decide)
  psk := none
  endpoint := none
  allowedIps := [⟨"10.88.88.43/32".toList, by decide, List.all_eq_true.mp (by decide)⟩]
  handshake := 0
  rx := 0
  tx := 0
  keepalive := 0

/-- A restore that says ok takes the second address from the peer that has it. -/
theorem restore_takes_address : ¬ ∀ (face : Line) (peers : List RunningPeer) (conf : List Line)
    (node : Node) (ip : String) (run : RestoreRun),
      Exact peers node ip (restore run (some (takeSnapshot face peers conf)) node ip) := by
  intro h
  have hexact := h [] [twoAddresses] ["[Interface]".toList]
    ⟨[], [reissued], some ["[Interface]".toList]⟩ "10.88.88.42" {}
  have hok : (restore {} (some (takeSnapshot [] [twoAddresses] ["[Interface]".toList]))
      ⟨[], [reissued], some ["[Interface]".toList]⟩ "10.88.88.42").1 = .ok := by decide
  have htaken : ((restore {} (some (takeSnapshot [] [twoAddresses] ["[Interface]".toList]))
      ⟨[], [reissued], some ["[Interface]".toList]⟩ "10.88.88.42").2.peers.map fun p =>
        p.allowedIps.length) = [0, 2] := by decide
  rw [Exact, hok] at hexact
  obtain ⟨p, -, hpeers⟩ := hexact
  rw [hpeers] at htaken
  simp [reissued] at htaken

end VpnPortal.PeerRestore
