/-
What the portal sends, the wrapper accepts.

The portal writes the command of `pwa-add-peer` and of `pwa-del-peer` with quoted
arguments; the shell of the node takes it apart again and the wrapper checks each
argument. For every account the portal creates, every pair of keys, both kinds of
devices and every address of their pools, the arguments arrive as they were and
pass (`arguments_accepted`).

* `addPeerCommand`, `removePeerCommand`: the command lines;
* `Key`: thirty-two bytes, as they are written;
* `arguments_accepted`: what the portal sends, the wrapper accepts.
-/
import VpnPortal.Accounts.Names
import VpnPortal.Nodes.AddPeer
import VpnPortal.Shell.Words
import VpnPortal.Text.Base64

namespace VpnPortal

open Sessions Tables

/-! ### The command lines -/

/-- `shlex.quote` -/
def shlexQuote (s : String) : String := String.ofList (Shell.quote s.toList)

/-- The command of `_add_peer_at`. -/
def addPeerCommand (pub psk peerIp clientName : String) : String :=
  "sudo pwa-add-peer " ++ " ".intercalate ([pub, psk, peerIp ++ "/32", clientName].map shlexQuote)

/-- The command of `_remove_peer_at`. -/
def removePeerCommand (pub : String) : String := "sudo pwa-del-peer " ++ shlexQuote pub

/-- The words that the shell makes of a line. -/
def shellWords (line : String) : Option (List String) :=
  (Shell.words .bare none line.toList).map (List.map String.ofList)

/-- Thirty-two bytes. -/
def Key : Type := { bytes : List UInt8 // bytes.length = 32 }

/-- A key as the portal writes it. -/
def Key.text (key : Key) : String := String.ofList (Base64.encode key.1)

/-- The pool that a kind of device has its addresses from. -/
def poolOf (kind : Kind) : AddressPool := if kind = .trial then trialPool else clientPool

/-! ### The words -/

/-- The words of a command with quoted arguments. -/
lemma shellWords_command {head first second : String} {args : List String} (hargs : args ≠ [])
    (hhead : head.toList = Shell.quote first.toList ++ [' '] ++
      (Shell.quote second.toList ++ [' '])) :
    shellWords (head ++ " ".intercalate (args.map shlexQuote)) = some (first :: second :: args) := by
  have htail : (" ".intercalate (args.map shlexQuote)).toList =
      [' '].intercalate (args.map fun a => Shell.quote a.toList) := by
    rw [String.toList_intercalate, List.map_map]
    simp [shlexQuote, Function.comp_def]
  have hline : (head ++ " ".intercalate (args.map shlexQuote)).toList =
      [' '].intercalate (((first :: second :: args).map String.toList).map Shell.quote) := by
    rw [String.toList_append, hhead, htail, List.map_map, List.map_cons, List.map_cons,
      List.intercalate_cons_of_ne_nil (by simp), List.intercalate_cons_of_ne_nil (by simpa using hargs)]
    simp [Function.comp_def]
  rw [shellWords, hline, Shell.words_join]
  simp [Function.comp_def]

lemma shellWords_addPeer (pub psk ip name : String) :
    shellWords (addPeerCommand pub psk ip name) =
      some ["sudo", "pwa-add-peer", pub, psk, ip ++ "/32", name] := by
  have hhead : "sudo pwa-add-peer ".toList = Shell.quote "sudo".toList ++ [' '] ++
      (Shell.quote "pwa-add-peer".toList ++ [' ']) := by decide
  exact shellWords_command (List.cons_ne_nil _ _) hhead

lemma shellWords_removePeer (pub : String) :
    shellWords (removePeerCommand pub) = some ["sudo", "pwa-del-peer", pub] := by
  have hhead : "sudo pwa-del-peer ".toList = Shell.quote "sudo".toList ++ [' '] ++
      (Shell.quote "pwa-del-peer".toList ++ [' ']) := by decide
  have hwords := shellWords_command (List.cons_ne_nil pub []) hhead
  rw [List.map_singleton, String.intercalate_singleton] at hwords
  exact hwords

/-! ### The arguments -/

lemma isPublicKey_text (key : Key) : isPublicKey key.text = true := by
  have hlen32 : key.1.length = 3 * 10 + 2 := key.2
  obtain ⟨digits, heq, hlen, hmem⟩ := Base64.encode_eq hlen32
  have halphabet : Base64.alphabet.all isBase64 = true := by decide +kernel
  rw [isPublicKey, Key.text, String.toList_ofList, heq, List.take_left' hlen, List.drop_left' hlen,
    Bool.and_eq_true, List.all_eq_true]
  exact ⟨fun c hc => List.all_eq_true.mp halphabet c (hmem c hc), by decide⟩

/-- The name of a peer has the wrapper's alphabet and length. -/
lemma isPeerName_clientName {user : User} (h : usernameRe user.username = true) (kind : Kind) :
    isPeerName (clientName user kind) = true := by
  unfold usernameRe at h
  simp only [Bool.and_eq_true, decide_eq_true_eq, List.all_eq_true] at h
  have htag : ∀ c ∈ (if kind = .trial then "trial-" else "auto-").toList, isNameChar c = true := by
    cases kind <;> simp <;> decide
  have hall : ∀ c ∈ (clientName user kind).toList, isNameChar c = true := by
    intro c hc
    rw [clientName, String.toList_ofList] at hc
    have hmem := List.mem_of_mem_take hc
    rw [String.toList_append] at hmem
    rcases List.mem_append.mp hmem with hmem | hmem
    · exact htag c hmem
    · exact h.2 c hmem
  have hne : (clientName user kind).toList ≠ [] := by
    rw [clientName, String.toList_ofList]
    cases kind <;> simp
  have hlen : (clientName user kind).length ≤ 32 := by
    rw [clientName, String.length_ofList]
    exact List.length_take_le _ _
  simp only [isPeerName, Bool.and_eq_true, List.all_eq_true, decide_eq_true_eq]
  refine ⟨⟨fun c hc => ?_, hne⟩, hlen⟩
  simpa [isNameChar] using hall c hc

/-- What the wrapper asks of an address. -/
def passes (ip : String) : Bool :=
  (hostPart ip).any fun host =>
    decide (host ≠ []) && (octetOf host).any fun n => decide (2 ≤ n) && decide (n ≤ 254)

lemma hostPart_address (kind : Kind) (n : ℕ) :
    hostPart ((poolOf kind).net ++ "." ++ toString n ++ "/32") =
      some (Nat.toDigits 10 n ++ "/32".toList) := by
  have htext : ((poolOf kind).net ++ "." ++ toString n ++ "/32").toList =
      ((poolOf kind).net ++ ".").toList ++ (Nat.toDigits 10 n ++ "/32".toList) := by
    simp [Nat.toString_eq_repr, Nat.repr]
  unfold hostPart
  rw [htext]
  cases kind <;> rfl

/-- The numbers of both pools are in the wrapper's range. -/
lemma octetOf_digits : ∀ n ∈ List.range' 10 241,
    (octetOf (Nat.toDigits 10 n ++ "/32".toList)).any (fun n => decide (2 ≤ n) && decide (n ≤ 254)) = true := by
  decide +kernel

/-- Every address of a pool passes. -/
lemma addresses_pass (kind : Kind) : ∀ ip ∈ (poolOf kind).addresses, passes (ip ++ "/32") = true := by
  intro ip hip
  obtain ⟨n, hn, rfl⟩ := List.mem_map.mp hip
  have hrange : n ∈ List.range' 10 241 := by
    rw [List.mem_range'_1] at hn ⊢
    cases kind <;> simp only [poolOf, trialPool, clientPool] at hn <;> simp at hn <;> omega
  have hne : Nat.toDigits 10 n ++ "/32".toList ≠ [] := by simp
  simp only [passes, hostPart_address, Option.any_some, octetOf_digits n hrange, Bool.and_true]
  exact decide_eq_true hne

/-- Two keys, an address and a name that pass are no bad argument. -/
lemma badArgument_eq_none {peer : NewPeer} (hpub : isPublicKey peer.publicKey = true)
    (hpsk : isPublicKey peer.psk = true) (hip : passes peer.ip = true)
    (hname : isPeerName peer.name = true) : badArgument peer = none := by
  unfold passes at hip
  obtain ⟨host, hhost, hip⟩ := (Option.any_eq_true _ _).mp hip
  rw [Bool.and_eq_true, decide_eq_true_eq] at hip
  obtain ⟨octet, hoctet, hrange⟩ := (Option.any_eq_true _ _).mp hip.2
  rw [Bool.and_eq_true, decide_eq_true_eq, decide_eq_true_eq] at hrange
  obtain ⟨c, rest, rfl⟩ := List.exists_cons_of_ne_nil hip.1
  simp only [badArgument, hpub, hpsk, hhost, hoctet, hname, Bool.not_true, Bool.false_eq_true,
    if_false]
  rw [if_neg (by omega)]

/-- **What the portal sends, the wrapper accepts.** For every account that a
request creates, every two keys, both kinds of devices and every address of the
kind's pool: the shell makes the four arguments of `pwa-add-peer` and the one of
`pwa-del-peer` of the portal's command lines, and each passes its checks. -/
theorem arguments_accepted (cfg : Settings) (c : Creation) {w w' : World} {r : Except Exn User}
    (h : Proc.Runs anyInput (c.run cfg) w r w') {u : User} (hu : u ∈ w'.db.users.rows)
    (hnew : ∀ v ∈ w.db.users.rows, v.id ≠ u.id) (kind : Kind) (pub psk : Key) {ip : String}
    (hip : ip ∈ (poolOf kind).addresses) :
    shellWords (addPeerCommand pub.text psk.text ip (clientName u kind)) =
        some ["sudo", "pwa-add-peer", pub.text, psk.text, ip ++ "/32", clientName u kind] ∧
      badArgument ⟨pub.text, psk.text, ip ++ "/32", clientName u kind⟩ = none ∧
      shellWords (removePeerCommand pub.text) = some ["sudo", "pwa-del-peer", pub.text] ∧
      isPublicKey pub.text = true := by
  have hname : usernameRe u.username = true := (stores_of_runs h hu hnew).2.1
  refine ⟨shellWords_addPeer _ _ _ _, ?_, shellWords_removePeer _, isPublicKey_text pub⟩
  exact badArgument_eq_none (isPublicKey_text pub) (isPublicKey_text psk)
    (addresses_pass kind ip hip) (isPeerName_clientName hname kind)

/-- A key of zeros. -/
def zeroKey : Key := ⟨List.replicate 32 0, by simp⟩

/-- A name of 27 characters. -/
def longName : String := "abcdefghijklmnopqrstuvwxyz_"

/-- The account that someone gets with it from Telegram. -/
def longUser : User := { id := 0, username := longName, telegramId := some 7, passwordHash := "h" }

/-- The trial device of this account: its name is cut. -/
theorem arguments_accepted_long :
    clientName longUser .trial = "trial-abcdefghijklmnopqrstuvwxyz" ∧
      shellWords (addPeerCommand zeroKey.text zeroKey.text "10.88.89.10"
        (clientName longUser .trial)) = some ["sudo", "pwa-add-peer", zeroKey.text, zeroKey.text,
          "10.88.89.10/32", clientName longUser .trial] := by
  have hrun := Proc.runs_play (J := anyInput) (i := fromTelegram) (fun _ => trivial)
    (Creation.run withBot (.telegram { username := longName })) {}
  have hrow : longUser ∈ ((Creation.run withBot
      (.telegram { username := longName })).play fromTelegram {}).2.db.users.rows := by
    decide +kernel
  have hip : "10.88.89.10" ∈ (poolOf .trial).addresses := by decide
  refine ⟨by decide, ?_⟩
  exact (arguments_accepted withBot _ hrun hrow (fun _ hv => (List.not_mem_nil hv).elim)
    .trial zeroKey zeroKey hip).1

end VpnPortal
