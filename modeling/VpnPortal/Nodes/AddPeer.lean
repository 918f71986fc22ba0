/-
The wrapper `pwa-add-peer` on an entry node
(`infrastructure/wrappers/pwa-add-peer`).

The arguments are checked first (`badArgument`), then the running interface and
the config file for a key or an address that is already there. The block is
appended to the file, the peer set in the runtime, and the file put back if that
fails.

* `badArgument`, `taken`: the refusals before anything is written;
* `awgSet`: what `awg set` does to the runtime;
* `pwaAddPeer`: one run from start to end;
* `pwaAddPeer_cases`: a run refuses and changes nothing, appends its block and sets its
  peer, or fails and puts the file back.
-/
import VpnPortal.Nodes.DelPeer

namespace VpnPortal

open Blocks

/-! ### The arguments -/

/-- The number of `^(0|[1-9][0-9]{0,2})/32$`. -/
def octetOf (host : List Char) : Option ℕ :=
  let digits := host.takeWhile Char.isDigit
  if host.drop digits.length = "/32".toList ∧ digits ≠ [] ∧ digits.length ≤ 3
      ∧ (digits.head? ≠ some '0' ∨ digits = ['0'])
  then some (digits.foldl (fun n d => 10 * n + (d.toNat - '0'.toNat)) 0)
  else none

/-- What follows the client prefix of an address. -/
def hostPart (cip : String) : Option (List Char) :=
  (clientSubnetPrefixes.find? fun net => net.toList.isPrefixOf cip.toList).map fun net =>
    cip.toList.drop net.length

/-- `^[A-Za-z0-9_-]{1,32}$` -/
def isPeerName (name : String) : Bool :=
  name.toList.all (fun c => c.isAlphanum || c = '_' || c = '-') && name.toList ≠ []
    && decide (name.length ≤ 32)

/-- The checks of the arguments, in the order of the script: why it refuses. -/
def badArgument (peer : NewPeer) : Option String :=
  if !isPublicKey peer.publicKey then some "bad pubkey"
  else if !isPublicKey peer.psk then some "bad psk"
  else match hostPart peer.ip with
    | none => some "ip must be in a client subnet: 10.88.88. 10.88.89. (X/32)"
    | some [] => some "ip must be in a client subnet: 10.88.88. 10.88.89. (X/32)"
    | some host =>
        match octetOf host with
        | none => some "ip must be X/32"
        | some octet =>
            if octet < 2 ∨ 254 < octet then some "ip octet out of range"
            else if !isPeerName peer.name then some "bad name"
            else none

/-! ### Duplicates -/

/-- `awg show peers` has the key. -/
def runtimeHasKey (runtime : List PeerEntry) (pub : String) : Bool :=
  runtime.any fun e => e.key = pub

/-- `awg show allowed-ips` has the address. -/
def runtimeHasIp (runtime : List PeerEntry) (cip : String) : Bool :=
  runtime.any fun e => cip ∈ e.allowedIps

/-- The pieces of `split(v, a, /[[:space:]]*,[[:space:]]*/)`. -/
def splitList (value : Line) : List Line :=
  (value.splitOn ',').map (Words.trim isSpace)

/-- The addresses of an `AllowedIPs =` line. -/
def allowedIpsOf (line : Line) : List Line :=
  let rest := line.dropWhile isSpace
  if "AllowedIPs".toList.isPrefixOf rest then
    match (rest.drop 10).dropWhile isSpace with
    | '=' :: value => splitList value
    | _ => []
  else []

/-- The config file has the address. -/
def confHasIp (conf : List Line) (cip : String) : Bool :=
  conf.any fun line => cip.toList ∈ allowedIpsOf line

/-- Why a peer cannot be added beside the ones that are there. -/
def taken (runtime : List PeerEntry) (conf : List Line) (peer : NewPeer) : Option String :=
  if runtimeHasKey runtime peer.publicKey || conf.any (mentions peer.publicKey) then
    some "peer exists (key)"
  else if runtimeHasIp runtime peer.ip then some ("ip in use: " ++ peer.ip)
  else if confHasIp conf peer.ip then some ("ip in use: " ++ peer.ip ++ " (config only)")
  else none

/-! ### Writing -/

/-- The block `pwa-add-peer` appends. -/
def peerBlock (peer : NewPeer) : List Line :=
  ["", "", "### " ++ peer.name, "[Peer]", "PublicKey = " ++ peer.publicKey,
    "PresharedKey = " ++ peer.psk, "AllowedIPs = " ++ peer.ip].map String.toList

/-- `awg set peer allowed-ips`: the address is taken from any peer that has it. -/
def awgSet (runtime : List PeerEntry) (pub cip : String) : List PeerEntry :=
  (runtime.filter fun e => e.key ≠ pub).map
    (fun e => { e with allowedIps := e.allowedIps.filter (· ≠ cip) }) ++ [⟨pub, [cip]⟩]

/-- `pwa-add-peer <pubkey> <psk> <client_ip>/32 <client_name>`; `sets` says
whether `awg set` succeeds. -/
def pwaAddPeer (sets : Bool) (node : NodeState) (peer : NewPeer) : Reply × NodeState :=
  match badArgument peer with
  | some reason => (.refused reason, node)
  | none =>
      match node.conf with
      | none => (.refused "config not found: /etc/amnezia/amneziawg/awg0.conf", node)
      | some conf =>
          match taken node.runtime conf peer with
          | some reason => (.refused reason, node)
          | none =>
              if sets then
                (.ok, ⟨awgSet node.runtime peer.publicKey peer.ip, some (conf ++ peerBlock peer)⟩)
              else (.refused "runtime add failed; config restored", node)

/-- A runtime without the key and the address gets one more peer. -/
lemma awgSet_eq {runtime : List PeerEntry} {pub cip : String}
    (hkey : runtimeHasKey runtime pub = false) (hip : runtimeHasIp runtime cip = false) :
    awgSet runtime pub cip = runtime ++ [⟨pub, [cip]⟩] := by
  have hfilter : (runtime.filter fun e => e.key ≠ pub) = runtime := by
    refine List.filter_eq_self.mpr fun e he => ?_
    have := List.any_eq_false.mp hkey e he
    simpa using this
  have hmap : runtime.map (fun e => { e with allowedIps := e.allowedIps.filter (· ≠ cip) })
      = runtime := by
    refine (List.map_congr_left fun e he => ?_).trans (List.map_id runtime)
    have hnot : cip ∉ e.allowedIps := by
      have := List.any_eq_false.mp hip e he
      simpa using this
    have hself : e.allowedIps.filter (· ≠ cip) = e.allowedIps := by
      refine List.filter_eq_self.mpr fun x hx => ?_
      rw [decide_eq_true_eq]
      rintro rfl
      exact hnot hx
    rw [hself]
    rfl
  rw [awgSet, hfilter, hmap]

/-- **One run.** A refusal changes nothing; otherwise key and address were free
and the peer is in both places. -/
lemma pwaAddPeer_cases (sets : Bool) (node : NodeState) (peer : NewPeer) :
    (∃ reason, pwaAddPeer sets node peer = (.refused reason, node))
      ∨ (sets = true ∧ badArgument peer = none ∧ ∃ conf, node.conf = some conf
        ∧ taken node.runtime conf peer = none
        ∧ pwaAddPeer sets node peer = (.ok,
          ⟨node.runtime ++ [⟨peer.publicKey, [peer.ip]⟩], some (conf ++ peerBlock peer)⟩)) := by
  unfold pwaAddPeer
  split
  · exact Or.inl ⟨_, rfl⟩
  · rename_i hargs
    split
    · exact Or.inl ⟨_, rfl⟩
    · rename_i conf hconf
      split
      · exact Or.inl ⟨_, rfl⟩
      · rename_i htaken
        split
        · rename_i hsets
          refine Or.inr ⟨hsets, hargs, conf, hconf, htaken, ?_⟩
          unfold taken at htaken
          split_ifs at htaken with hkey hip hconfip
          rw [Bool.or_eq_true, not_or] at hkey
          rw [awgSet_eq (by simpa using hkey.1) (by simpa using hip)]
        · exact Or.inl ⟨_, rfl⟩

end VpnPortal
