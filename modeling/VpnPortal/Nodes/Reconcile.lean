/-
The entry node's peers against the portal's database (`tools/peer_reconcile.py`),
and what becomes of the peers that a person picks from its list.

Three texts are compared: the node's dump cut down to keys, addresses and
handshakes, the portal's configs, and the labels of the hand-made peers. The
peers that could go are written to a file, each line commented out; what is
uncommented is given to `tools/peer-remove.sh`. The names in the texts are what
customers typed. What is only printed is left out.

* `readNode`, `readDb`, `readLabels`: the texts;
* `Inputs.keysOf`, `Inputs.candidateFile`: the peers that could go, and the file;
* `entries_uncommented`, `entries_candidateFile`: what `peer-remove.sh` reads of the file
  are the addresses and key beginnings of the peers whose lines were uncommented, and of
  the file as it was written nothing;
* `picked_removed`: these are taken off all together if each may be, else none, and
  none of their keys has an active config.
-/
import VpnPortal.Monitor.Judge
import VpnPortal.Nodes.Reviewed
import VpnPortal.Nodes.Restore
import VpnPortal.Text.Words

namespace VpnPortal.PeerReconcile

open PeerRemove Tables

/-! ### The texts -/

/-- A peer of the node. -/
structure NodePeer where
  ip : Line
  hs : ℤ
  deriving DecidableEq, Repr

/-- `parts[1].split(",")[0].split("/")[0]` -/
def firstAddress (ips : Line) : Line := (ips.takeWhile (· ≠ ',')).takeWhile (· ≠ '/')

/-- One line of the node's text: `none` if it raises, `some none` if it is skipped. -/
def nodeLine (line : Line) : Option (Option (Line × NodePeer)) :=
  match Words.split Words.isSpace (line.filter (· ≠ '\r')) with
  | key :: ips :: hs :: _ => do
      let n ← if hs.all Numerals.isDigit then Numerals.readInt hs else some 0
      return some (key, ⟨firstAddress ips, n⟩)
  | _ => some none

/-- `read_node` -/
def readNode (file : List Line) : Option (Dict Line NodePeer) :=
  (file.mapM nodeLine).map fun found => Dict.empty.update found.reduceOption

/-- A config of the portal. -/
structure DbRow where
  ip : Line
  active : Bool
  kind : Line
  user : Line
  name : Line
  deriving DecidableEq, Repr

/-- One line of the portal's text. -/
def dbLine (line : Line) : Option (Line × DbRow) :=
  match line.splitOn '|' with
  | key :: ip :: active :: kind :: user :: name :: _ =>
      some (key, ⟨ip, decide (active = ['t']), kind, user, name⟩)
  | _ => none

/-- `read_db` -/
def readDb (file : List Line) : Dict Line DbRow := Dict.empty.update (file.filterMap dbLine)

/-- `line.split("|", 1)`, if there are two parts. -/
def labelLine (line : Line) : Option (Line × Line) :=
  if '|' ∈ line then some (line.takeWhile (· ≠ '|'), (line.dropWhile (· ≠ '|')).drop 1) else none

/-- `read_labels` -/
def readLabels (file : List Line) : Dict Line Line := Dict.empty.update (file.filterMap labelLine)

/-! ### The peers that could go -/

/-- `ago` -/
def ago (epoch now : ℤ) : Line :=
  if epoch = 0 then "никогда".toList
  else
    let s := now - epoch
    if s < 3600 then (toString (s / 60) ++ " мин назад").toList
    else if s < 86400 * 2 then (toString (s / 3600) ++ " ч назад").toList
    else (toString (s / 86400) ++ " дн назад").toList

/-- What `main` has read; `sortIp` is the number of an address. -/
structure Inputs where
  node : Dict Line NodePeer
  db : Dict Line DbRow
  labels : Dict Line Line
  now : ℤ
  sortIp : Line → ℕ

/-- The sections of the file. -/
inductive Kind where
  | stale | manual | unknown
  deriving DecidableEq, Repr

def Kind.all : List Kind := [stale, manual, unknown]

def Kind.title : Kind → Line
  | stale => "закончились в базе".toList
  | manual => "ручные".toList
  | unknown => "неизвестные".toList

section Candidates

variable (i : Inputs)

/-- `active` -/
def Inputs.activeInDb (key : Line) : Bool := (i.db.get? key).any DbRow.active

/-- `stale`, `manual` and `unknown`: the condition on a key of the node. -/
def Inputs.isKind (key : Line) : Kind → Bool
  | .stale => (i.db.get? key).any fun row => !row.active
  | .manual => (i.db.get? key).isNone && (i.labels.get? key).isSome
  | .unknown => (i.db.get? key).isNone && (i.labels.get? key).isNone

/-- The address of a peer of the node. -/
def Inputs.ipOf (key : Line) : Line := ((i.node.get? key).map NodePeer.ip).getD []

def Inputs.keysOf (kind : Kind) : List Line :=
  (i.node.entries.map Prod.fst).filter fun key => i.isKind key kind

/-- `ordered` -/
def Inputs.ordered (keys : List Line) : List Line :=
  keys.mergeSort fun a b => i.sortIp (i.ipOf a) ≤ i.sortIp (i.ipOf b)

/-- The note on a peer. -/
def Inputs.note (key : Line) : Kind → Line
  | .stale => ((i.db.get? key).map fun row => row.user ++ " · ".toList ++ row.name).getD []
  | .manual => (i.labels.get? key).getD []
  | .unknown => []

/-- `" ".join(f"{title} | {note(k)} | связь: {ago(…)}".split())` -/
def Inputs.remark (kind : Kind) (key : Line) : Line :=
  let hs := ((i.node.get? key).map NodePeer.hs).getD 0
  [' '].intercalate (Words.split Words.isSpace
    (kind.title ++ " | ".toList ++ i.note key kind ++ " | связь: ".toList ++ ago hs i.now))

/-- The line of a peer, commented out. -/
def Inputs.candidateLine (kind : Kind) (key : Line) : Line :=
  "# ".toList ++ i.ipOf key ++ [' '] ++ key.take 8 ++ [' '] ++ i.remark kind key

/-- The lines of the file, if a peer's line is `shown`. -/
def Inputs.fileLines (shown : Kind → Line → Line) : List Line :=
  "# Кандидаты на удаление. Раскомментируй тех, кого убираем, и отдай файл".toList ::
    "# tools/peer-remove.sh. Строка: адрес, начало ключа, остальное — пометка.".toList ::
    Kind.all.flatMap fun kind =>
      [] :: ("# — ".toList ++ kind.title ++ (": " ++ toString (i.keysOf kind).length).toList) ::
        (i.ordered (i.keysOf kind)).map (shown kind)

/-- The file as `main` writes it. -/
def Inputs.candidateFile : Line := Words.joinLines '\n' (i.fileLines i.candidateLine)

/-- The file with the lines of some peers uncommented: the first characters of a
line are deleted, the `#` or the blank behind it too. -/
def Inputs.uncommented (cut : Line → Fin 3) : Line :=
  Words.joinLines '\n' (i.fileLines fun kind key => (i.candidateLine kind key).drop (cut key))

/-- Before that no line is uncommented. -/
lemma candidateFile_eq : i.candidateFile = i.uncommented fun _ => 0 := rfl

end Candidates

/-- `main`, up to the file. -/
def readInputs (node db labels : List Line) (now : ℤ) (sortIp : Line → ℕ) : Option Inputs :=
  (readNode node).map fun node => ⟨node, readDb db, readLabels labels, now, sortIp⟩

/-! ### From the running interface -/

open PeerRestore (RunningPeer dumpText dumpLine field addressList)

/-- `awg show awg0 dump | awk 'NR>1{print $1, $4, $5}'` -/
def nodeText (face : Line) (peers : List RunningPeer) : List Line :=
  (dumpText face peers).tail.map fun l =>
    field 0 l ++ [' '] ++ field 3 l ++ [' '] ++ field 4 l

/-- A running peer as `pwa-del-peer` sees it. -/
def entryOf (p : RunningPeer) : PeerEntry where
  key := String.ofList p.pub.text
  allowedIps := p.allowedIps.map fun a => String.ofList a.text

/-- The first of its addresses, without the mask. -/
def clientAddress (p : RunningPeer) : Line := firstAddress (addressList p.allowedIps)

/-- The peers whose lines are uncommented and that are no active config's. -/
def picked (db : List Line) (cut : Line → Fin 3) (peers : List RunningPeer) : List RunningPeer :=
  peers.filter fun p => !((readDb db).get? p.pub.text).any DbRow.active && decide (cut p.pub.text ≠ 0)

/-- The peer may be taken off: it holds a client address alone and is not live. -/
structure Removable (args : RemoveArgs) (peers : List RunningPeer) (p : RunningPeer) : Prop where
  client : clientIp (String.ofList (clientAddress p)) = true
  alone : PeerRestore.peersWith peers (String.ofList (clientAddress p)) = [p]
  idle : args.tooLive (String.ofList p.pub.text) = false

/-! ### What is read of the node -/

/-- A character that can be seen, as in a key, an address or a number. -/
def isSeen (c : Char) : Bool := 33 ≤ c.toNat && c.toNat ≤ 126

lemma not_isSpace_of_isSeen {c : Char} (h : isSeen c = true) : Words.isSpace c = false := by
  rw [isSeen, Bool.and_eq_true, decide_eq_true_eq, decide_eq_true_eq] at h
  exact Words.not_isSpace_of_between (by omega) (by omega)

lemma isSeen_of_isBase64 {c : Char} (h : isBase64 c = true) : isSeen c = true := by
  simp only [isBase64, Char.isAlphanum, Char.isAlpha, Char.isUpper, Char.isLower, Char.isDigit,
    Bool.or_eq_true, Bool.and_eq_true, decide_eq_true_eq, UInt32.le_iff_toNat_le, ge_iff_le,
    Char.toNat_val] at h
  rw [isSeen, Bool.and_eq_true, decide_eq_true_eq, decide_eq_true_eq]
  rcases h with ((((h | h) | h) | rfl) | rfl)
  · have hrange : 65 ≤ c.toNat ∧ c.toNat ≤ 90 := h
    omega
  · have hrange : 97 ≤ c.toNat ∧ c.toNat ≤ 122 := h
    omega
  · have hrange : 48 ≤ c.toNat ∧ c.toNat ≤ 57 := h
    omega
  · decide
  · decide

lemma isSeen_of_isDigit {c : Char} (h : c.isDigit = true) : isSeen c = true :=
  isSeen_of_isBase64 (by simp [isBase64, Char.isAlphanum, h])

lemma isSeen_of_isAddressChar {c : Char} (h : PeerRestore.isAddressChar c = true) :
    isSeen c = true := by
  rw [PeerRestore.isAddressChar, Bool.or_eq_true, decide_eq_true_eq] at h
  rcases h with h | h
  · exact isSeen_of_isDigit h
  · exact List.all_eq_true.mp (by decide :
      ['a', 'b', 'c', 'd', 'e', 'f', '.', ':', '/'].all isSeen = true) c h

lemma isSeen_of_mem_key {k : PeerRestore.Key} {c : Char} (h : c ∈ k.text) : isSeen c = true := by
  rcases List.mem_append.mp h with h | h
  · exact isSeen_of_isBase64 (k.base64 c h)
  · rw [List.mem_singleton.mp h]
    decide

lemma isSeen_of_mem_addressList {as : List PeerRestore.Address} {c : Char} (h : c ∈ addressList as) :
    isSeen c = true := by
  rcases PeerRestore.mem_addressList h with h | rfl | h
  · exact isSeen_of_isAddressChar h
  · decide
  · exact List.all_eq_true.mp (by decide : "(none)".toList.all isSeen = true) c h

lemma isSeen_of_mem_number {n : ℕ} {c : Char} (h : c ∈ PeerRestore.number n) : isSeen c = true := by
  rw [PeerRestore.number_eq] at h
  exact isSeen_of_isDigit (Nat.isDigit_of_mem_toDigits (by decide) (by decide) h)

/-- Three words with blanks between them. -/
lemma split_three {a b c : Line} (h : ∀ w ∈ [a, b, c], w ≠ [] ∧ ∀ x ∈ w, isSeen x = true) :
    Words.split Words.isSpace ((a ++ [' '] ++ b ++ [' '] ++ c).filter (· ≠ '\r')) = [a, b, c] := by
  have hkeep : (a ++ [' '] ++ b ++ [' '] ++ c).filter (· ≠ '\r') = [' '].intercalate [a, b, c] := by
    rw [List.filter_eq_self.mpr, List.intercalate_cons_cons, List.intercalate_cons_cons,
      List.intercalate_singleton]
    · simp
    · intro x hx
      have hseen : x = ' ' ∨ isSeen x = true := by
        simp only [List.mem_append, List.mem_singleton] at hx
        rcases hx with (((hx | rfl) | hx) | rfl) | hx
        · exact .inr ((h a (by simp)).2 x hx)
        · exact .inl rfl
        · exact .inr ((h b (by simp)).2 x hx)
        · exact .inl rfl
        · exact .inr ((h c (by simp)).2 x hx)
      rw [decide_eq_true_eq]
      rintro rfl
      revert hseen
      decide
  rw [hkeep]
  exact Words.split_intercalate (by decide) fun w hw =>
    ⟨(h w hw).1, fun x hx => not_isSpace_of_isSeen ((h w hw).2 x hx)⟩

/-- **A peer's line of the dump is read back.** -/
lemma nodeLine_eq (p : RunningPeer) (h : p.handshake < 2 ^ 64) :
    nodeLine (field 0 (dumpLine p) ++ [' '] ++ field 3 (dumpLine p) ++ [' '] ++
        field 4 (dumpLine p)) =
      some (some (p.pub.text, ⟨clientAddress p, p.handshake⟩)) := by
  have h0 : field 0 (dumpLine p) = p.pub.text := PeerRestore.field_dumpLine p (by decide)
  have h3 : field 3 (dumpLine p) = addressList p.allowedIps :=
    PeerRestore.field_dumpLine p (by decide)
  have h4 : field 4 (dumpLine p) = PeerRestore.number p.handshake :=
    PeerRestore.field_dumpLine p (by decide)
  have hdigits : (PeerRestore.number p.handshake).all Numerals.isDigit = true := by
    rw [PeerRestore.number_eq, List.all_eq_true]
    intro c hc
    have hc := Nat.isDigit_of_mem_toDigits (by decide) (by decide) hc
    simp [Numerals.isDigit, Numerals.decimal_of_isDigit hc]
  have hlength : (Nat.toDigits 10 p.handshake).length ≤ 4300 := by
    refine (Nat.toDigits_length 10 _ 20 (by decide) (h.trans (by norm_num))).trans (by decide)
  have hread : Numerals.readInt (PeerRestore.number p.handshake) = some (p.handshake : ℤ) := by
    rw [PeerRestore.number_eq]
    exact Numerals.readInt_toDigits hlength
  rw [h0, h3, h4, nodeLine, split_three]
  · simp only [hdigits, if_true, hread]
    rfl
  · intro w hw
    simp only [List.mem_cons, List.not_mem_nil, or_false] at hw
    rcases hw with rfl | rfl | rfl
    · exact ⟨p.pub.isWord.1, fun x => isSeen_of_mem_key⟩
    · exact ⟨(PeerRestore.isWord_addressList _).1, fun x => isSeen_of_mem_addressList⟩
    · exact ⟨(PeerRestore.isWord_number _).1, fun x => isSeen_of_mem_number⟩

/-- The entries of the dictionary that is read of a node's peers. -/
lemma readNode_nodeText {peers : List RunningPeer} (hkeys : (peers.map RunningPeer.pub).Nodup)
    (hclock : ∀ p ∈ peers, p.handshake < 2 ^ 64) (face : Line) :
    ∃ node, readNode (nodeText face peers) = some node ∧
      node.entries = peers.map fun p => (p.pub.text, ⟨clientAddress p, p.handshake⟩) := by
  have hlines : (nodeText face peers).mapM nodeLine =
      some (peers.map fun p => some (p.pub.text, ⟨clientAddress p, p.handshake⟩)) := by
    have htail : (dumpText face peers).tail = peers.map dumpLine := rfl
    rw [nodeText, htail, List.map_map]
    clear hkeys htail
    induction peers with
    | nil => rfl
    | cons p peers ih =>
      rw [List.map_cons, List.mapM_cons, Function.comp_apply,
        nodeLine_eq p (hclock p List.mem_cons_self),
        ih fun q hq => hclock q (List.mem_cons_of_mem _ hq)]
      rfl
  have hfound : (peers.map fun p => some (p.pub.text,
      (⟨clientAddress p, p.handshake⟩ : NodePeer))).reduceOption =
      peers.map fun p => (p.pub.text, ⟨clientAddress p, p.handshake⟩) := by
    simp [List.reduceOption, List.filterMap_map]
  have hnodup : ((peers.map fun p => (p.pub.text,
      (⟨clientAddress p, p.handshake⟩ : NodePeer))).map Prod.fst).Nodup := by
    rw [List.map_map]
    have hmap : Prod.fst ∘ (fun p : RunningPeer => (p.pub.text,
        (⟨clientAddress p, p.handshake⟩ : NodePeer))) = PeerRestore.Key.text ∘ RunningPeer.pub := rfl
    rw [hmap, ← List.map_map]
    exact hkeys.map fun _ _ => PeerRestore.Key.text_injective
  refine ⟨Dict.empty.update _, by rw [readNode, hlines]; rfl, ?_⟩
  rw [hfound, Dict.entries_update (fun _ _ => rfl) hnodup]
  rfl

/-! ### What the file says -/

lemma isBlank_of_isSeen {c : Char} (h : isSeen c = true) : isBlank c = false := by
  rw [isBlank, Bool.or_eq_false_iff, decide_eq_false_iff_not, decide_eq_false_iff_not]
  constructor <;> rintro rfl <;> exact absurd h (by decide)

/-- A line that starts with `#` is skipped. -/
lemma parseEntry_hash (l : Line) : parseEntry ('#' :: l) = none := by
  have hblank : isBlank '#' = false := rfl
  rw [parseEntry, readWord, List.dropWhile_cons_of_neg (by simp [hblank])]
  simp [hblank]

/-- A line of the list with two words in front. -/
lemma parseEntry_words {blanks ip pfx rest : Line} (hblanks : ∀ c ∈ blanks, isBlank c = true)
    (hip : PeerRestore.IsWord ip) (hhash : ip.head? ≠ some '#') (hpfx : PeerRestore.IsWord pfx) :
    parseEntry (blanks ++ (ip ++ ' ' :: (pfx ++ ' ' :: rest))) =
      some ⟨String.ofList ip, String.ofList pfx⟩ := by
  have hfirst : readWord (blanks ++ (ip ++ ' ' :: (pfx ++ ' ' :: rest))) =
      (ip, ' ' :: (pfx ++ ' ' :: rest)) := PeerRestore.readWord_append hblanks hip (by simp [isBlank])
  have hsecond : readWord ([' '] ++ (pfx ++ ' ' :: rest)) = (pfx, ' ' :: rest) :=
    PeerRestore.readWord_append (by simp [isBlank]) hpfx (by simp [isBlank])
  rw [List.singleton_append] at hsecond
  rw [parseEntry, hfirst]
  dsimp only
  rw [if_neg (by simp [hip.1, hhash]), hsecond]

section File

variable {i : Inputs} {peers : List RunningPeer}

/-- The node of the inputs is what was read of these peers. -/
def ReadFrom (i : Inputs) (peers : List RunningPeer) : Prop :=
  i.node.entries = peers.map fun p => (p.pub.text, ⟨clientAddress p, p.handshake⟩)

/-- The addresses of a peer do not begin with a mask. -/
def AddressesFirst (peers : List RunningPeer) : Prop :=
  ∀ p ∈ peers, ∀ a ∈ p.allowedIps, a.text.head? ≠ some '/'

lemma ipOf_eq (h : ReadFrom i peers) {p : RunningPeer} (hp : p ∈ peers) :
    i.ipOf p.pub.text = clientAddress p := by
  have hget : i.node.get? p.pub.text = some ⟨clientAddress p, p.handshake⟩ := by
    rw [Dict.get?_eq_some_iff, h]
    exact List.mem_map_of_mem (f := fun p : RunningPeer =>
      (p.pub.text, (⟨clientAddress p, p.handshake⟩ : NodePeer))) hp
  rw [Inputs.ipOf, hget]
  rfl

lemma keysOf_eq (h : ReadFrom i peers) (kind : Kind) :
    i.keysOf kind = (peers.filter fun p => i.isKind p.pub.text kind).map fun p => p.pub.text := by
  rw [Inputs.keysOf, h, List.map_map, List.filter_map]
  rfl

lemma isSeen_of_mem_clientAddress {p : RunningPeer} {c : Char} (h : c ∈ clientAddress p) :
    isSeen c = true :=
  isSeen_of_mem_addressList
    ((List.takeWhile_sublist _).mem ((List.takeWhile_sublist _).mem h))

lemma clientAddress_cons {p : RunningPeer} {a : PeerRestore.Address} {as : List PeerRestore.Address}
    (h : p.allowedIps = a :: as) : clientAddress p = a.text.takeWhile (· ≠ '/') := by
  have hcomma : ∀ c ∈ a.text, decide (c ≠ ',') = true := by
    intro c hc
    rw [decide_eq_true_eq]
    rintro rfl
    exact absurd (a.chars _ hc) (by decide)
  have htake : ∀ rest : Line, (a.text ++ ',' :: rest).takeWhile (· ≠ ',') = a.text := fun rest => by
    rw [List.takeWhile_append_of_pos hcomma]
    simp
  have hlist : addressList (a :: as) = [','].intercalate (a.text :: as.map PeerRestore.Address.text) :=
    rfl
  rw [clientAddress, h, firstAddress, hlist]
  congr 1
  cases as with
  | nil => rw [List.map_nil, List.intercalate_singleton, List.takeWhile_eq_self_iff.mpr hcomma]
  | cons b as =>
    rw [List.map_cons, List.intercalate_cons_cons, List.append_assoc, List.singleton_append, htake]

lemma isWord_clientAddress (haddr : AddressesFirst peers) {p : RunningPeer} (hp : p ∈ peers) :
    PeerRestore.IsWord (clientAddress p) ∧ (clientAddress p).head? ≠ some '#' := by
  have hsolid : ∀ c ∈ clientAddress p, isBlank c = false := fun c hc =>
    isBlank_of_isSeen (isSeen_of_mem_clientAddress hc)
  cases hips : p.allowedIps with
  | nil =>
    have hnone : clientAddress p = "(none)".toList := by
      rw [clientAddress, hips]
      decide
    rw [hnone]
    exact ⟨PeerRestore.isWord_none, by decide⟩
  | cons a as =>
    have hfirst := haddr p hp a (by rw [hips]; exact List.mem_cons_self)
    have heq := clientAddress_cons hips
    cases htext : a.text with
    | nil => exact absurd htext a.ne_nil
    | cons c rest =>
      rw [htext] at heq hfirst
      have hc : c ≠ '/' := fun h => hfirst (by rw [h]; rfl)
      rw [List.takeWhile_cons_of_pos (by simpa using hc)] at heq
      refine ⟨⟨by rw [heq]; exact List.cons_ne_nil _ _, hsolid⟩, ?_⟩
      rw [heq]
      rintro hhash
      obtain rfl := Option.some.inj hhash
      exact absurd (a.chars '#' (by rw [htext]; exact List.mem_cons_self)) (by decide)

/-- The beginning of a key is a word of its own. -/
lemma isWord_keyStart (k : PeerRestore.Key) : PeerRestore.IsWord (k.text.take 8) := by
  constructor
  · intro hnil
    have hlen := congrArg List.length hnil
    rw [List.length_take, PeerRestore.Key.text, List.length_append, k.length_body] at hlen
    exact absurd hlen (by decide)
  · exact fun c hc => isBlank_of_isSeen (isSeen_of_mem_key (List.mem_of_mem_take hc))

/-- The line that names a peer. -/
def nameOf (p : RunningPeer) : Entry where
  ip := String.ofList (clientAddress p)
  pfx := String.ofList (p.pub.text.take 8)

/-- **A peer's line**, with some of its first characters deleted. -/
lemma parseEntry_candidateLine (h : ReadFrom i peers) (haddr : AddressesFirst peers) (kind : Kind)
    (cut : Fin 3) {p : RunningPeer} (hp : p ∈ peers) :
    parseEntry ((i.candidateLine kind p.pub.text).drop cut) =
      if cut ≠ 0 then some (nameOf p) else none := by
  have hline : i.candidateLine kind p.pub.text = '#' :: ' ' ::
      (clientAddress p ++ ' ' :: (p.pub.text.take 8 ++ ' ' :: i.remark kind p.pub.text)) := by
    rw [Inputs.candidateLine, ipOf_eq h hp]
    simp
  obtain ⟨hip, hhash⟩ := isWord_clientAddress haddr hp
  have hwords : ∀ blanks : Line, (∀ c ∈ blanks, isBlank c = true) → parseEntry (blanks ++
      (clientAddress p ++ ' ' :: (p.pub.text.take 8 ++ ' ' :: i.remark kind p.pub.text))) =
        some (nameOf p) := fun blanks hblanks =>
    parseEntry_words hblanks hip hhash (isWord_keyStart p.pub)
  rw [hline]
  rcases cut with ⟨_ | _ | _ | k, hk⟩
  · exact parseEntry_hash _
  · exact hwords [' '] (List.forall_mem_singleton.mpr rfl)
  · exact hwords [] (List.forall_mem_nil _)
  · omega

/-- No customer's text breaks a line. -/
lemma newline_not_mem_candidateLine (h : ReadFrom i peers) (kind : Kind) {p : RunningPeer}
    (hp : p ∈ peers) : '\n' ∉ i.candidateLine kind p.pub.text := by
  have hseen : isSeen '\n' = false := rfl
  have hremark : '\n' ∉ i.remark kind p.pub.text := by
    intro hmem
    rw [Inputs.remark] at hmem
    rcases Blocks.mem_of_mem_intercalate hmem with hmem | ⟨w, hw, hmem⟩
    · exact absurd hmem (by decide)
    · exact absurd ((Words.solid_of_mem_split hw).2 _ hmem) (by decide)
  have hip : '\n' ∉ clientAddress p := fun hmem => by
    rw [isSeen_of_mem_clientAddress hmem] at hseen
    cases hseen
  have hkey : '\n' ∉ p.pub.text.take 8 := fun hmem => by
    rw [isSeen_of_mem_key (List.mem_of_mem_take hmem)] at hseen
    cases hseen
  have hhead : '\n' ∉ "# ".toList := by decide
  have hblank : '\n' ∉ [' '] := by decide
  rw [Inputs.candidateLine, ipOf_eq h hp]
  simp only [List.mem_append, not_or]
  exact ⟨⟨⟨⟨⟨hhead, hip⟩, hblank⟩, hkey⟩, hblank⟩, hremark⟩

/-- A running peer that could go. -/
def isCandidate (i : Inputs) (p : RunningPeer) : Bool := !i.activeInDb p.pub.text

/-- Each peer that could go is of one kind. -/
lemma kinds_perm (i : Inputs) (l : List RunningPeer) :
    (Kind.all.flatMap fun kind => l.filter fun p => i.isKind p.pub.text kind).Perm
      (l.filter (isCandidate i)) := by
  let inDb : RunningPeer → Bool := fun p => (i.db.get? p.pub.text).isSome
  let labelled : RunningPeer → Bool := fun p => (i.labels.get? p.pub.text).isSome
  let ls := l.filter (isCandidate i)
  have hstale : (l.filter fun p => i.isKind p.pub.text .stale) = ls.filter inDb := by
    rw [List.filter_filter]
    refine List.filter_congr fun p _ => ?_
    cases hrow : i.db.get? p.pub.text <;>
      simp [isCandidate, Inputs.activeInDb, Inputs.isKind, inDb, hrow]
  have hmanual : (l.filter fun p => i.isKind p.pub.text .manual) =
      (ls.filter fun p => !inDb p).filter labelled := by
    rw [List.filter_filter, List.filter_filter]
    refine List.filter_congr fun p _ => ?_
    cases hrow : i.db.get? p.pub.text <;>
      simp [isCandidate, Inputs.activeInDb, Inputs.isKind, inDb, labelled, hrow]
  have hunknown : (l.filter fun p => i.isKind p.pub.text .unknown) =
      (ls.filter fun p => !inDb p).filter fun p => !labelled p := by
    rw [List.filter_filter, List.filter_filter]
    refine List.filter_congr fun p _ => ?_
    cases hrow : i.db.get? p.pub.text <;>
      simp [isCandidate, Inputs.activeInDb, Inputs.isKind, inDb, labelled, hrow]
  have hall : (Kind.all.flatMap fun kind => l.filter fun p => i.isKind p.pub.text kind) =
      ls.filter inDb ++ ((ls.filter fun p => !inDb p).filter labelled ++
        (ls.filter fun p => !inDb p).filter fun p => !labelled p) := by
    rw [← hstale, ← hmanual, ← hunknown]
    simp [Kind.all]
  rw [hall]
  exact ((List.filter_append_perm labelled _).append_left _).trans
    (List.filter_append_perm inDb ls)

/-- The headings of the file are skipped. -/
lemma filterMap_fileLines (i : Inputs) (shown : Kind → Line → Line) :
    (i.fileLines shown).filterMap parseEntry =
      Kind.all.flatMap fun kind =>
        ((i.ordered (i.keysOf kind)).map (shown kind)).filterMap parseEntry := by
  have hhead : ∀ l : Line, l.head? = some '#' → parseEntry l = none := by
    intro l hl
    obtain ⟨rest, rfl⟩ := List.head?_eq_some_iff.mp hl
    exact parseEntry_hash rest
  have hfirst : parseEntry
      "# Кандидаты на удаление. Раскомментируй тех, кого убираем, и отдай файл".toList = none :=
    hhead _ (by decide +kernel)
  have hsecond : parseEntry
      "# tools/peer-remove.sh. Строка: адрес, начало ключа, остальное — пометка.".toList = none :=
    hhead _ (by decide +kernel)
  rw [Inputs.fileLines, List.filterMap_cons_none hfirst, List.filterMap_cons_none hsecond,
    List.filterMap_flatMap]
  refine congrArg (fun f => Kind.all.flatMap f) (funext fun kind => ?_)
  have htitle : parseEntry
      ("# — ".toList ++ kind.title ++ (": " ++ toString (i.keysOf kind).length).toList) = none :=
    parseEntry_hash _
  rw [List.filterMap_cons_none rfl, List.filterMap_cons_none htitle]

lemma newline_not_mem_heading (kind : Kind) (n : ℕ) :
    '\n' ∉ "# — ".toList ++ kind.title ++ (": " ++ toString n).toList := by
  have hnumber : '\n' ∉ (toString n).toList := by
    intro hmem
    have hseen := isSeen_of_mem_number (n := n) hmem
    cases hseen
  have htitle : '\n' ∉ kind.title := by
    cases kind <;> decide
  rw [String.toList_append]
  simp only [List.mem_append, not_or]
  exact ⟨⟨by decide, htitle⟩, by decide, hnumber⟩

/-- **What `peer-remove.sh` reads** of the file with some lines uncommented: each of
their peers, once. -/
lemma entries_uncommented (h : ReadFrom i peers) (haddr : AddressesFirst peers)
    (cut : Line → Fin 3) :
    ((Words.lines '\n' (i.uncommented cut)).filterMap parseEntry).Perm
      ((peers.filter fun p => isCandidate i p && decide (cut p.pub.text ≠ 0)).map nameOf) := by
  have hmem : ∀ kind, ∀ key ∈ i.ordered (i.keysOf kind), ∃ p ∈ peers, p.pub.text = key := by
    intro kind key hkey
    rw [Inputs.ordered, List.mem_mergeSort, keysOf_eq h] at hkey
    obtain ⟨p, hp, rfl⟩ := List.mem_map.mp hkey
    exact ⟨p, (List.mem_filter.mp hp).1, rfl⟩
  have hlines : ∀ l ∈ i.fileLines (fun kind key => (i.candidateLine kind key).drop (cut key)),
      '\n' ∉ l := by
    intro l hl
    rw [Inputs.fileLines, List.mem_cons, List.mem_cons, List.mem_flatMap] at hl
    rcases hl with hl | hl | ⟨kind, -, hl⟩
    · rw [hl]
      decide +kernel
    · rw [hl]
      decide +kernel
    rcases List.mem_cons.mp hl with hl | hl
    · rw [hl]
      exact List.not_mem_nil
    rcases List.mem_cons.mp hl with hl | hl
    · rw [hl]
      exact newline_not_mem_heading kind _
    · obtain ⟨key, hkey, rfl⟩ := List.mem_map.mp hl
      obtain ⟨p, hp, rfl⟩ := hmem kind key hkey
      exact fun hnl => newline_not_mem_candidateLine h kind hp (List.mem_of_mem_drop hnl)
  -- a kind's lines, in the order of the node's peers
  have hkind : ∀ kind, (((i.ordered (i.keysOf kind)).map fun key =>
      (i.candidateLine kind key).drop (cut key)).filterMap parseEntry).Perm
        (((peers.filter fun p => i.isKind p.pub.text kind).filter fun p =>
          decide (cut p.pub.text ≠ 0)).map nameOf) := by
    intro kind
    have hperm : ((i.ordered (i.keysOf kind)).filterMap fun key =>
        parseEntry ((i.candidateLine kind key).drop (cut key))).Perm
          ((i.keysOf kind).filterMap fun key =>
            parseEntry ((i.candidateLine kind key).drop (cut key))) :=
      (List.mergeSort_perm _ _).filterMap _
    rw [List.filterMap_map]
    refine hperm.trans (List.Perm.of_eq ?_)
    have hright : ∀ l : List RunningPeer, (l.filter fun p => decide (cut p.pub.text ≠ 0)).map nameOf =
        l.filterMap fun p => if cut p.pub.text ≠ 0 then some (nameOf p) else none := by
      intro l
      rw [← List.filterMap_eq_map, List.filterMap_filter]
      simp
    rw [keysOf_eq h, List.filterMap_map, hright]
    refine List.filterMap_congr fun p hp => ?_
    rw [Function.comp_apply, parseEntry_candidateLine h haddr kind _ (List.mem_filter.mp hp).1]
  rw [Inputs.uncommented, Words.lines_joinLines hlines, filterMap_fileLines]
  refine (List.Perm.flatMap_left Kind.all fun kind _ => hkind kind).trans ?_
  rw [← List.map_flatMap]
  refine List.Perm.map _ ?_
  have hkinds := (kinds_perm i peers).filter fun p => decide (cut p.pub.text ≠ 0)
  rw [List.filter_flatMap, List.filter_filter] at hkinds
  refine hkinds.trans (List.Perm.of_eq (List.filter_congr fun p _ => Bool.and_comm _ _))

/-- As it was written the file names nobody. -/
lemma entries_candidateFile (h : ReadFrom i peers) (haddr : AddressesFirst peers) :
    (Words.lines '\n' i.candidateFile).filterMap parseEntry = [] := by
  rw [candidateFile_eq]
  have hperm := entries_uncommented h haddr fun _ => 0
  have hnone : (peers.filter fun p => isCandidate i p && decide ((0 : Fin 3) ≠ 0)) = [] := by
    simp
  rw [hnone] at hperm
  exact hperm.eq_nil

end File

/-! ### The removals -/

section Removals

variable {peers : List RunningPeer} {args : RemoveArgs} {node : NodeState} {header : List Line}
  {blocks : List (Blocks.Block confMarks)}

lemma key_injective {p q : RunningPeer} (hkeys : (peers.map RunningPeer.pub).Nodup)
    (hp : p ∈ peers) (hq : q ∈ peers) (h : p.pub = q.pub) : p = q :=
  List.inj_on_of_nodup_map hkeys hp hq h

/-- The peers with an address, as both scripts find them. -/
lemma peersWith_entryOf (peers : List RunningPeer) (ip : String) :
    peersWith (peers.map entryOf) ip = (PeerRestore.peersWith peers ip).map entryOf := by
  rw [peersWith, PeerRestore.peersWith, List.flatMap_map, List.map_flatMap]
  refine congrArg (fun f => peers.flatMap f) (funext fun p => ?_)
  rw [entryOf, List.filter_map, List.map_map, List.map_map]
  refine congrArg₂ List.map rfl (List.filter_congr fun a _ => ?_)
  rw [Function.comp_apply, decide_eq_decide, ← String.toList_inj, String.toList_ofList,
    String.toList_append]

/-- A key finds its peer. -/
lemma filter_entryOf (hkeys : (peers.map RunningPeer.pub).Nodup) {p : RunningPeer} (hp : p ∈ peers) :
    ((peers.map entryOf).filter fun e => e.key = String.ofList p.pub.text) = [entryOf p] := by
  have hone : (peers.filter fun q => q.pub = p.pub) = [p] := by
    induction peers with
    | nil => cases hp
    | cons q peers ih =>
      obtain ⟨hq, hrest⟩ := List.nodup_cons.mp hkeys
      rcases List.mem_cons.mp hp with rfl | hp
      · rw [List.filter_cons_of_pos (by simp), List.filter_eq_nil_iff.mpr]
        intro r hr heq
        rw [decide_eq_true_eq] at heq
        exact hq (heq ▸ List.mem_map_of_mem hr)
      · rw [List.filter_cons_of_neg, ih hrest hp]
        rw [decide_eq_true_eq]
        rintro heq
        exact hq (heq ▸ List.mem_map_of_mem hp)
  rw [List.filter_map]
  have hsame : (peers.filter ((fun e : PeerEntry => decide (e.key = String.ofList p.pub.text)) ∘ entryOf))
      = peers.filter fun q => q.pub = p.pub := by
    refine List.filter_congr fun q _ => ?_
    rw [Function.comp_apply, decide_eq_decide, entryOf, String.ofList_inj]
    exact ⟨PeerRestore.Key.text_injective, congrArg PeerRestore.Key.text⟩
  rw [hsame, hone, List.map_singleton]

/-- A peer whose first address is a client's is in the client subnets. -/
lemma inClientSubnet_of_clientIp (hkeys : (peers.map RunningPeer.pub).Nodup) {p : RunningPeer}
    (hp : p ∈ peers) (h : clientIp (String.ofList (clientAddress p)) = true) :
    inClientSubnet (allowedOf (peers.map entryOf) (String.ofList p.pub.text)) = true := by
  have hallowed : allowedOf (peers.map entryOf) (String.ofList p.pub.text) =
      (entryOf p).column := by
    rw [allowedOf, filter_entryOf hkeys hp, List.map_singleton, String.intercalate_singleton]
  rw [clientIp, Bool.and_eq_true] at h
  obtain ⟨net, hnet, hprefix⟩ := List.any_eq_true.mp h.1
  rw [hallowed, inClientSubnet, List.any_eq_true]
  refine ⟨net, hnet, ?_⟩
  rw [List.isPrefixOf_iff_prefix, String.toList_ofList] at hprefix
  cases hips : p.allowedIps with
  | nil =>
    have hnone : clientAddress p = "(none)".toList := by
      rw [clientAddress, hips]
      decide
    rw [hnone] at hprefix
    have hno : clientSubnetPrefixes.all fun net => !net.toList.isPrefixOf "(none)".toList := by decide
    have hnot := List.all_eq_true.mp hno net hnet
    rw [List.isPrefixOf_iff_prefix.mpr hprefix] at hnot
    cases hnot
  | cons a as =>
    have hne : String.ofList a.text ≠ "" := by
      intro heq
      have hnil := congrArg String.toList heq
      rw [String.toList_ofList] at hnil
      exact a.ne_nil hnil
    have hcolumn : (entryOf p).column = String.ofList a.text := by
      rw [PeerEntry.column, entryOf, hips, List.map_cons, List.find?_cons_of_pos (by simpa using hne)]
      rfl
    rw [clientAddress_cons hips] at hprefix
    rw [hcolumn, String.toList_ofList, List.isPrefixOf_iff_prefix]
    exact hprefix.trans (List.takeWhile_prefix _)

/-- The removals of an accepted list whose peers are clients. -/
lemma peerRemove_clients (hagrees : PeerRemove.Agrees node header blocks) (happly : args.apply = true)
    (hsets : ∀ k, (args.runs k).sets = true) (hok : PeerRemove.Accepted args node.runtime)
    (hclients : ∀ key ∈ matchedKeys args node.runtime,
      inClientSubnet (allowedOf node.runtime key) = true)
    (hdistinct : (matchedKeys args node.runtime).Nodup) :
    (peerRemove args node).verdict = .done ∧
      (peerRemove args node).node.runtime =
        node.runtime.filter (fun e => e.key ∉ matchedKeys args node.runtime) ∧
      (peerRemove args node).node.conf =
        some (Blocks.flatten header (without (matchedKeys args node.runtime) blocks)) := by
  have hconf : node.conf ≠ none := by simp [hagrees.conf]
  obtain ⟨-, -, hnode⟩ := peerRemove_accepted hok hconf happly
  obtain ⟨hproblems, hplan⟩ := (review_accepted args node.runtime).1.mpr hok
  have hkeys := (review_accepted args node.runtime).2 hproblems
  have hmem : ∀ p ∈ (review args node.runtime).plan, p.pub ∈ matchedKeys args node.runtime :=
    fun p hp => hkeys ▸ List.mem_map_of_mem hp
  have hheld : ∀ key ∈ matchedKeys args node.runtime,
      Tidy header blocks key ∧ isPublicKey key = true := by
    intro key hkey
    obtain ⟨e, he, rfl⟩ := running_of_matched hkey
    exact ⟨hagrees.tidy he, hagrees.keys e he⟩
  have hremoved := removeAll_clients hsets hagrees.plain hagrees.interface
    (review args node.runtime).plan 0 hagrees.conf (fun p hp => (hheld _ (hmem p hp)).1)
    (fun p hp => (hheld _ (hmem p hp)).2) (fun p hp => hclients _ (hmem p hp)) (hkeys ▸ hdistinct)
  rw [hkeys] at hremoved
  refine ⟨?_, by rw [hnode, hremoved], by rw [hnode, hremoved]⟩
  -- the last check finds nothing left
  unfold peerRemove
  dsimp only
  rw [if_neg (by simp [hconf, hproblems, hplan]), happly, hremoved]
  simp only [Bool.not_true, Bool.false_eq_true, if_false]
  rw [if_neg (by simp), if_neg]
  simp only [List.any_eq_true, not_exists, not_and, Bool.not_eq_true]
  exact fun p hp => not_stillThere (hmem p hp) (hheld _ (hmem p hp)).1 node.runtime

/-- The lines of peers, reviewed: each names its own peer, or stops the script. -/
lemma good_nameOf (hbegin : (peers.map fun p => p.pub.text.take 8).Nodup) {p : RunningPeer}
    (hp : p ∈ peers) : (nameOf p).Good args (peers.map entryOf) ↔ Removable args peers p := by
  have hstart : isKeyStart (String.ofList (p.pub.text.take 8)) = true := by
    have hlength : (p.pub.text.take 8).length = 8 := by
      simp [PeerRestore.Key.text, p.pub.length_body]
    rw [isKeyStart, String.toList_ofList, Bool.and_eq_true, decide_eq_true_eq, List.all_eq_true]
    refine ⟨hlength.ge, fun c hc => ?_⟩
    rcases List.mem_append.mp (List.mem_of_mem_take hc) with hc | hc
    · simp [p.pub.base64 c hc]
    · simp [List.mem_singleton.mp hc]
  have hrunning : ∀ q, PeerRestore.peersWith peers (String.ofList (clientAddress p)) = [q] →
      q ∈ peers := fun q hq => (PeerRestore.mem_of_peersWith hq).1
  constructor
  · rintro ⟨hclient, -, e, hfound, hprefix, hlive⟩
    rw [nameOf, peersWith_entryOf] at hfound
    obtain ⟨q, hq, rfl⟩ := List.map_eq_singleton_iff.mp hfound
    have hsame : q = p := by
      refine List.inj_on_of_nodup_map hbegin (hrunning q hq) hp ?_
      have hpre : p.pub.text.take 8 <+: q.pub.text := by
        simpa [nameOf, entryOf] using hprefix
      have hlen := List.prefix_iff_eq_take.mp hpre
      simpa [PeerRestore.Key.text, p.pub.length_body] using hlen.symm
    subst hsame
    exact ⟨hclient, hq, hlive⟩
  · rintro ⟨hclient, halone, hidle⟩
    refine ⟨hclient, hstart, entryOf p, ?_, ?_, hidle⟩
    · rw [nameOf, peersWith_entryOf, halone, List.map_singleton]
    · simpa [nameOf, entryOf] using List.take_prefix 8 p.pub.text

variable {chosen : List RunningPeer}

/-- **The lists that get past the checks**, for the lines of peers. -/
lemma accepted_iff (hbegin : (peers.map fun p => p.pub.text.take 8).Nodup)
    (hchosen : chosen.Sublist peers) (hentries : args.entries.Perm (chosen.map nameOf)) :
    PeerRemove.Accepted args (peers.map entryOf) ↔ chosen ≠ [] ∧ ∀ p ∈ chosen, Removable args peers p := by
  have hgood : (∀ entry ∈ args.entries, entry.Good args (peers.map entryOf)) ↔
      ∀ p ∈ chosen, Removable args peers p := by
    simp only [hentries.mem_iff, List.mem_map]
    constructor
    · exact fun h p hp => (good_nameOf hbegin (hchosen.mem hp)).mp (h _ ⟨p, hp, rfl⟩)
    · rintro h entry ⟨p, hp, rfl⟩
      exact (good_nameOf hbegin (hchosen.mem hp)).mpr (h p hp)
  have hnil : args.entries = [] ↔ chosen = [] := by
    rw [← List.length_eq_zero_iff, hentries.length_eq, List.length_map, List.length_eq_zero_iff]
  constructor
  · exact fun h => ⟨hnil.not.mp h.some_line, hgood.mp h.good⟩
  · rintro ⟨hne, hremovable⟩
    refine ⟨hnil.not.mpr hne, hgood.mpr hremovable, ?_⟩
    rw [(hentries.map Entry.ip).nodup_iff, List.map_map]
    refine List.Nodup.map_on (fun p hp q hq heq => ?_) ((hbegin.of_map _).sublist hchosen)
    have heq : String.ofList (clientAddress p) = String.ofList (clientAddress q) := heq
    have hone := (hremovable p hp).alone
    rw [heq, (hremovable q hq).alone] at hone
    exact (List.cons.inj hone).1.symm

/-- The keys that the lines match. -/
lemma matchedKeys_perm (hentries : args.entries.Perm (chosen.map nameOf))
    (hremovable : ∀ p ∈ chosen, Removable args peers p) :
    (matchedKeys args (peers.map entryOf)).Perm
      (chosen.map fun p => String.ofList p.pub.text) := by
  refine (hentries.flatMap_right _).trans (List.Perm.of_eq ?_)
  rw [List.flatMap_map, ← List.flatMap_singleton' (chosen.map fun p => String.ofList p.pub.text),
    List.flatMap_map]
  refine List.flatMap_congr fun p hp => ?_
  rw [nameOf, peersWith_entryOf, (hremovable p hp).alone]
  rfl

/-- What becomes of the picked peers: all of them are taken off the interface and
out of the file, if each may be; otherwise nothing is. -/
structure Settled (args : RemoveArgs) (peers chosen : List RunningPeer) (node : NodeState)
    (header : List Line) (blocks : List (Blocks.Block confMarks)) : Prop where
  all : (chosen ≠ [] ∧ ∀ p ∈ chosen, Removable args peers p) →
    (peerRemove args node).verdict = .done ∧
      (peerRemove args node).node.runtime = (peers.filter (· ∉ chosen)).map entryOf ∧
      (peerRemove args node).node.conf = some (Blocks.flatten header
        (without (chosen.map fun p => String.ofList p.pub.text) blocks))
  nothing : ¬ (chosen ≠ [] ∧ ∀ p ∈ chosen, Removable args peers p) →
    (peerRemove args node).verdict = .stopped ∧ (peerRemove args node).node = node

/-- The removals of the peers whose lines a list has. -/
lemma settled_of_entries (hbegin : (peers.map fun p => p.pub.text.take 8).Nodup)
    (hchosen : chosen.Sublist peers) (hentries : args.entries.Perm (chosen.map nameOf))
    (happly : args.apply = true) (hsets : ∀ k, (args.runs k).sets = true)
    (hagrees : PeerRemove.Agrees node header blocks) (hruntime : node.runtime = peers.map entryOf) :
    Settled args peers chosen node header blocks := by
  have hiff := accepted_iff hbegin hchosen hentries
  rw [← hruntime] at hiff
  have hkeys : (peers.map RunningPeer.pub).Nodup := by
    rw [← Function.comp_def (fun k : PeerRestore.Key => k.text.take 8) RunningPeer.pub,
      ← List.map_map] at hbegin
    exact hbegin.of_map _
  constructor
  · intro hall
    have hok := hiff.mpr hall
    have hperm := matchedKeys_perm hentries hall.2
    rw [← hruntime] at hperm
    have hdistinct : (matchedKeys args node.runtime).Nodup := by
      rw [hperm.nodup_iff]
      refine List.Nodup.map_on (fun p hp q hq heq => ?_) ((hbegin.of_map _).sublist hchosen)
      exact key_injective hkeys (hchosen.mem hp) (hchosen.mem hq)
        (PeerRestore.Key.text_injective (String.ofList_inj.mp heq))
    have hclients : ∀ key ∈ matchedKeys args node.runtime,
        inClientSubnet (allowedOf node.runtime key) = true := by
      intro key hkey
      obtain ⟨p, hp, rfl⟩ := List.mem_map.mp (hperm.mem_iff.mp hkey)
      rw [hruntime]
      exact inClientSubnet_of_clientIp hkeys (hchosen.mem hp) (hall.2 p hp).client
    obtain ⟨hdone, hrun, hconf⟩ := peerRemove_clients hagrees happly hsets hok hclients hdistinct
    refine ⟨hdone, ?_, ?_⟩
    · rw [hrun, hruntime, List.filter_map, ← hruntime]
      refine congrArg (List.map entryOf) (List.filter_congr fun p hp => ?_)
      rw [Function.comp_apply, decide_eq_decide, hperm.mem_iff, List.mem_map, not_iff_not]
      constructor
      · rintro ⟨q, hq, heq⟩
        have hkey : q.pub = p.pub := PeerRestore.Key.text_injective (String.ofList_inj.mp heq)
        rwa [← key_injective hkeys (hchosen.mem hq) hp hkey]
      · exact fun hmem => ⟨p, hmem, rfl⟩
    · rw [hconf, without, without]
      refine congrArg some (congrArg (Blocks.flatten header) (List.filter_congr fun b _ => ?_))
      rw [Bool.eq_iff_iff, List.all_eq_true, List.all_eq_true]
      exact forall_congr' fun key => by rw [hperm.mem_iff]
  · intro hnot
    rw [peerRemove_stopped (hiff.not.mpr hnot)]
    exact ⟨rfl, rfl⟩

/-- **The peers a person picks from the list are taken off the node, all of them or
none**, and no key with an active config is among them, whatever names the
customers have. The file as it was written names nobody. -/
theorem picked_removed (hbegin : (peers.map fun p => p.pub.text.take 8).Nodup)
    (hclock : ∀ p ∈ peers, p.handshake < 2 ^ 64) (haddr : AddressesFirst peers)
    (face : Line) (db labels : List Line) (now : ℤ) (sortIp : Line → ℕ) :
    ∃ i, readInputs (nodeText face peers) db labels now sortIp = some i ∧
      (Words.lines '\n' i.candidateFile).filterMap parseEntry = [] ∧
      ∀ cut : Line → Fin 3, ∀ args : RemoveArgs,
        args.list = Words.lines '\n' (i.uncommented cut) → args.apply = true →
        (∀ k, (args.runs k).sets = true) →
        ∀ node header blocks, PeerRemove.Agrees node header blocks → node.runtime = peers.map entryOf →
          Settled args peers (picked db cut peers) node header blocks := by
  have hkeys : (peers.map RunningPeer.pub).Nodup := by
    rw [← Function.comp_def (fun k : PeerRestore.Key => k.text.take 8) RunningPeer.pub,
      ← List.map_map] at hbegin
    exact hbegin.of_map _
  obtain ⟨dict, hread, hentries⟩ := readNode_nodeText hkeys hclock face
  have hfrom : ReadFrom ⟨dict, readDb db, readLabels labels, now, sortIp⟩ peers := hentries
  refine ⟨⟨dict, readDb db, readLabels labels, now, sortIp⟩, by rw [readInputs, hread]; rfl,
    entries_candidateFile hfrom haddr, ?_⟩
  intro cut args hlist happly hsets node header blocks hagrees hruntime
  refine settled_of_entries hbegin List.filter_sublist ?_ happly hsets hagrees hruntime
  rw [RemoveArgs.entries, hlist]
  exact entries_uncommented hfrom haddr cut

end Removals

/-! ### One of two peers -/

/-- A peer that never connected, with one address. -/
def quietPeer (pub : PeerRestore.Key) (a : PeerRestore.Address) : RunningPeer where
  pub := pub
  psk := none
  endpoint := none
  allowedIps := [a]
  handshake := 0
  rx := 0
  tx := 0
  keepalive := 0

def peerA : RunningPeer :=
  quietPeer (PeerRestore.keyOfLetter 'A' rfl) ⟨"10.88.88.10/32".toList, by decide, List.all_eq_true.mp (by decide)⟩

def peerB : RunningPeer :=
  quietPeer (PeerRestore.keyOfLetter 'B' rfl) ⟨"10.88.88.20/32".toList, by decide, List.all_eq_true.mp (by decide)⟩

/-- The first config has ended, its name tries to be a line of the list; the second
is active. -/
def twoConfigs : List Line :=
  [peerA.pub.text ++ "|10.88.88.10|f|paid|ann|phone \r10.88.88.20 BBBBBBBB".toList,
    peerB.pub.text ++ "|10.88.88.20|t|paid|bob|laptop".toList]

/-- Every line is uncommented. -/
def applyAll (i : Inputs) : RemoveArgs where
  list := Words.lines '\n' (i.uncommented fun _ => 1)
  apply := true
  allowLive := false
  now := 1000000
  handshake _ := 0
  runs _ := {}

lemma entryOf_peers : [peerA, peerB].map entryOf = (routedNode []).runtime := by
  have hA : String.ofList "10.88.88.10/32".toList = "10.88.88.10/32" := by simp
  have hB : String.ofList "10.88.88.20/32".toList = "10.88.88.20/32" := by simp
  simp only [List.map_cons, List.map_nil, entryOf, peerA, peerB, quietPeer, hA, hB]
  rfl

/-- Of two peers the one without an active config is taken off. -/
theorem picked_removed_two :
    ∃ i, readInputs (nodeText "face".toList [peerA, peerB]) twoConfigs [] 1000000 (fun _ => 0) = some i ∧
      (peerRemove (applyAll i) (routedNode [])).verdict = .done ∧
      (peerRemove (applyAll i) (routedNode [])).node.runtime = [entryOf peerB] := by
  have hpicked : picked twoConfigs (fun _ => 1) [peerA, peerB] = [peerA] := by decide
  have hstarts : ([peerA, peerB].map fun p => p.pub.text.take 8).Nodup := by decide
  obtain ⟨i, hread, -, hall⟩ := picked_removed hstarts (by decide)
    (by unfold AddressesFirst; decide) "face".toList twoConfigs [] 1000000 (fun _ => 0)
  have hsettled := hall (fun _ => 1) (applyAll i) rfl rfl (fun _ => rfl) (routedNode [])
    ["[Interface]".toList] [blockOfLetter 'A', blockOfLetter 'B'] (agrees_routedNode [])
    entryOf_peers.symm
  rw [hpicked] at hsettled
  obtain ⟨hdone, hruntime, -⟩ := hsettled.all ⟨List.cons_ne_nil _ _, fun p hp => by
    rw [List.mem_singleton.mp hp]
    exact ⟨by decide, by decide, rfl⟩⟩
  refine ⟨i, hread, hdone, ?_⟩
  rw [hruntime]
  exact congrArg (List.map entryOf) (by decide :
    [peerA, peerB].filter (· ∉ [peerA]) = [peerB])

end VpnPortal.PeerReconcile
