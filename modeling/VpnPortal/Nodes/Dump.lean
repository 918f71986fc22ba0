/-
The running interface with all that `awg show dump` prints of a peer, and the
dump as text.

A peer is one line of eight words between tabs; `(none)` and `off` stand for what
a peer does not have. The scripts read a word by its place in the line, and the
addresses as the pieces of the fourth between commas.

* `RunningPeer`, `dumpLine`, `dumpText`: a peer, its line, and the lines of an interface;
* `restAfter`, `field`, `field_dumpLine`: every word of a line is read back by its place;
* `awgSet`, `awgSet_absent`: what `awg set` does to the running peers; a peer that was not
  there comes last, with what it is given.
-/
import Mathlib.Data.Bool.AllAny
import VpnPortal.Nodes.Remove

namespace VpnPortal.PeerRestore

open PeerRemove

/-! ### Peers -/

/-- A key as it is written. -/
structure Key where
  body : Line
  length_body : body.length = 43
  base64 : ∀ c ∈ body, isBase64 c = true
  deriving DecidableEq

def Key.text (k : Key) : Line := k.body ++ ['=']

/-- A character of an address with its mask. -/
def isAddressChar (c : Char) : Bool :=
  c.isDigit || c ∈ ['a', 'b', 'c', 'd', 'e', 'f', '.', ':', '/']

/-- An address with its mask. -/
structure Address where
  text : Line
  ne_nil : text ≠ []
  chars : ∀ c ∈ text, isAddressChar c = true
  deriving DecidableEq

/-- What stands between two blanks. -/
structure Word where
  text : Line
  ne_nil : text ≠ []
  solid : ∀ c ∈ text, isBlank c = false
  deriving DecidableEq

instance neZero_intervals : NeZero 65536 := ⟨by decide⟩

/-- A peer of the running interface; no keepalive is 0. -/
structure RunningPeer where
  pub : Key
  psk : Option Key
  endpoint : Option Word
  allowedIps : List Address
  handshake : ℕ
  rx : ℕ
  tx : ℕ
  keepalive : Fin 65536
  deriving DecidableEq

/-! ### The dump -/

/-- The `allowed-ips` of a peer. -/
def addressList : List Address → Line
  | [] => "(none)".toList
  | as => [','].intercalate (as.map Address.text)

def number (n : ℕ) : Line := (Nat.repr n).toList

/-- The words of a peer's line. -/
def dumpWords (p : RunningPeer) : List Line :=
  [p.pub.text, (p.psk.map Key.text).getD "(none)".toList,
    (p.endpoint.map Word.text).getD "(none)".toList, addressList p.allowedIps, number p.handshake,
    number p.rx, number p.tx, if p.keepalive = 0 then "off".toList else number p.keepalive]

/-- One line per peer: pub psk endpoint allowed-ips handshake rx tx keepalive. -/
def dumpLine (p : RunningPeer) : Line := ['\t'].intercalate (dumpWords p)

/-- `awg show dump`: the interface, then its peers. -/
def dumpText (face : Line) (peers : List RunningPeer) : List Line := face :: peers.map dumpLine

/-! ### Reading a line -/

/-- What `read` has left after `k` words. -/
def restAfter : ℕ → Line → Line
  | 0, line => line
  | k + 1, line => restAfter k (readWord line).2

/-- The word at a place of the line, from 0. -/
def field (k : ℕ) (line : Line) : Line := (readWord (restAfter k line)).1

/-- What `read` puts into its last variable. -/
def lastField (k : ℕ) (line : Line) : Line := Words.trim isBlank (restAfter k line)

/-- `peers_with` over the lines of a dump. -/
def linesWith (lines : List Line) (ip : String) : List Line :=
  lines.flatMap fun line =>
    (((field 3 line).splitOn ',').filter fun a => a = ip.toList ++ "/32".toList).map fun _ => line

/-- The peers of these lines. -/
def peersWith (peers : List RunningPeer) (ip : String) : List RunningPeer :=
  peers.flatMap fun p =>
    (p.allowedIps.filter fun a => a.text = ip.toList ++ "/32".toList).map fun _ => p

/-! ### What is read is what was printed -/

/-- A word of a line. -/
def IsWord (w : Line) : Prop := w ≠ [] ∧ ∀ c ∈ w, isBlank c = false

lemma readWord_append {blanks w rest : Line} (hblanks : ∀ c ∈ blanks, isBlank c = true)
    (hw : IsWord w) (hrest : ∀ c ∈ rest.head?, isBlank c = true) :
    readWord (blanks ++ (w ++ rest)) = (w, rest) := by
  have hskip : (blanks ++ (w ++ rest)).dropWhile isBlank = w ++ rest := by
    rw [List.dropWhile_append_of_pos hblanks]
    obtain ⟨hne, hsolid⟩ := hw
    cases w with
    | nil => exact absurd rfl hne
    | cons c w =>
      rw [List.cons_append, List.dropWhile_cons_of_neg]
      simp [hsolid c List.mem_cons_self]
  have hsolid : ∀ c ∈ w, (!isBlank c) = true := fun c hc => by simp [hw.2 c hc]
  have htake : rest.takeWhile (fun c => !isBlank c) = [] := by
    cases rest with
    | nil => rfl
    | cons c rest => simp [hrest c rfl]
  have hdrop : rest.dropWhile (fun c => !isBlank c) = rest := by
    cases rest with
    | nil => rfl
    | cons c rest => simp [hrest c rfl]
  rw [readWord, hskip, List.takeWhile_append_of_pos hsolid, List.dropWhile_append_of_pos hsolid,
    htake, hdrop, List.append_nil]

/-- **After `k` words the others are left**, behind a blank. -/
lemma restAfter_words {words : List Line} (hwords : ∀ w ∈ words, IsWord w) {k : ℕ}
    (hk : k < words.length) {blanks : Line} (hblanks : ∀ c ∈ blanks, isBlank c = true) :
    ∃ blanks', (∀ c ∈ blanks', isBlank c = true) ∧
      restAfter k (blanks ++ ['\t'].intercalate words) =
        blanks' ++ ['\t'].intercalate (words.drop k) := by
  induction k generalizing words blanks with
  | zero => exact ⟨blanks, hblanks, rfl⟩
  | succ k ih =>
    match words, hwords, hk with
    | [w], _, hk => simp at hk
    | w :: v :: words, hwords, hk =>
      have htab : ∀ c ∈ ['\t'], isBlank c = true := List.forall_mem_singleton.mpr rfl
      have hread : readWord (blanks ++ (w ++ '\t' :: ['\t'].intercalate (v :: words))) =
          (w, '\t' :: ['\t'].intercalate (v :: words)) :=
        readWord_append hblanks (hwords w List.mem_cons_self) (by simp [isBlank])
      have hk : k < (v :: words).length := by simpa using hk
      obtain ⟨blanks', hblanks', hrest⟩ :=
        ih (fun x hx => hwords x (List.mem_cons_of_mem _ hx)) hk htab
      refine ⟨blanks', hblanks', ?_⟩
      rw [List.intercalate_cons_cons, restAfter, List.append_assoc, List.singleton_append, hread]
      exact hrest

lemma field_words {words : List Line} (hwords : ∀ w ∈ words, IsWord w) {k : ℕ}
    (hk : k < words.length) : field k (['\t'].intercalate words) = words[k] := by
  obtain ⟨blanks, hblanks, hrest⟩ := restAfter_words hwords hk (List.forall_mem_nil _)
  have hword := hwords words[k] (List.getElem_mem hk)
  rw [List.nil_append] at hrest
  rw [field, hrest, List.drop_eq_getElem_cons hk]
  cases words.drop (k + 1) with
  | nil =>
    have hread : readWord (blanks ++ (words[k] ++ [])) = (words[k], []) :=
      readWord_append hblanks hword (by simp)
    rw [List.append_nil] at hread
    rw [List.intercalate_singleton, hread]
  | cons v words =>
    rw [List.intercalate_cons_cons, List.append_assoc, List.singleton_append,
      readWord_append hblanks hword (by simp [isBlank])]

lemma lastField_words {words : List Line} (hwords : ∀ w ∈ words, IsWord w) {k : ℕ}
    (hk : words.length = k + 1) : lastField k (['\t'].intercalate words) = words[k] := by
  obtain ⟨blanks, hblanks, hrest⟩ := restAfter_words hwords (k := k) (by omega) (List.forall_mem_nil _)
  have hword := hwords words[k] (List.getElem_mem _)
  have hdrop : words.drop k = [words[k]] := by
    rw [List.drop_eq_getElem_cons (by omega), List.drop_eq_nil_of_le (by omega)]
  rw [List.nil_append] at hrest
  rw [lastField, hrest, hdrop, List.intercalate_singleton, Words.trim_append hblanks,
    Words.trim_of_solid hword.2]

lemma isBlank_of_isBase64 {c : Char} (h : isBase64 c = true) : isBlank c = false := by
  rw [isBlank, Bool.or_eq_false_iff, decide_eq_false_iff_not, decide_eq_false_iff_not]
  constructor <;> rintro rfl <;> exact absurd h (by decide)

lemma Key.isWord (k : Key) : IsWord k.text := by
  refine ⟨by simp [Key.text], fun c hc => ?_⟩
  rcases List.mem_append.mp hc with hc | hc
  · exact isBlank_of_isBase64 (k.base64 c hc)
  · rw [List.mem_singleton.mp hc]
    decide

lemma isWord_none : IsWord "(none)".toList := ⟨by decide, List.all_iff_forall_prop.mp (by decide)⟩

lemma number_eq (n : ℕ) : number n = Nat.toDigits 10 n := by
  rw [number, Nat.repr, String.toList_ofList]

lemma isWord_number (n : ℕ) : IsWord (number n) := by
  rw [number_eq]
  refine ⟨Nat.toDigits_ne_nil, fun c hc => ?_⟩
  have hdigit := Nat.isDigit_of_mem_toDigits (by decide) (by decide) hc
  refine isBlank_of_isBase64 ?_
  simp [isBase64, Char.isAlphanum, hdigit]

/-- The characters of a list of addresses. -/
lemma mem_addressList {as : List Address} {c : Char} (h : c ∈ addressList as) :
    isAddressChar c = true ∨ c = ',' ∨ c ∈ "(none)".toList := by
  cases as with
  | nil => exact .inr (.inr h)
  | cons a as =>
    rcases Blocks.mem_of_mem_intercalate h with hc | ⟨t, ht, hc⟩
    · exact .inr (.inl (List.mem_singleton.mp hc))
    · obtain ⟨b, -, rfl⟩ := List.mem_map.mp ht
      exact .inl (b.chars c hc)

lemma isWord_addressList (as : List Address) : IsWord (addressList as) := by
  constructor
  · cases as with
    | nil => decide
    | cons a as =>
      cases as with
      | nil => simpa [addressList] using a.ne_nil
      | cons b as => simp [addressList, List.intercalate_cons_cons]
  · intro c hc
    rw [isBlank, Bool.or_eq_false_iff, decide_eq_false_iff_not, decide_eq_false_iff_not]
    constructor <;> rintro rfl <;> rcases mem_addressList hc with h | h | h <;> revert h <;> decide

lemma isWord_dumpWords (p : RunningPeer) : ∀ w ∈ dumpWords p, IsWord w := by
  intro w hw
  simp only [dumpWords, List.mem_cons, List.not_mem_nil, or_false] at hw
  rcases hw with rfl | rfl | rfl | rfl | rfl | rfl | rfl | rfl
  · exact p.pub.isWord
  · cases p.psk with
    | none => exact isWord_none
    | some k => exact k.isWord
  · cases p.endpoint with
    | none => exact isWord_none
    | some w => exact ⟨w.ne_nil, w.solid⟩
  · exact isWord_addressList _
  · exact isWord_number _
  · exact isWord_number _
  · exact isWord_number _
  · split_ifs
    · exact ⟨by decide, List.all_iff_forall_prop.mp (by decide)⟩
    · exact isWord_number _

/-- **A peer's line is read back word by word.** -/
lemma field_dumpLine (p : RunningPeer) {k : ℕ} (hk : k < 8) :
    field k (dumpLine p) = (dumpWords p)[k] :=
  field_words (isWord_dumpWords p) hk

lemma lastField_dumpLine (p : RunningPeer) :
    lastField 7 (dumpLine p) = if p.keepalive = 0 then "off".toList else number p.keepalive :=
  lastField_words (isWord_dumpWords p) rfl

lemma splitOn_addressList {as : List Address} (h : as ≠ []) :
    (addressList as).splitOn ',' = as.map Address.text := by
  cases as with
  | nil => exact absurd rfl h
  | cons a as =>
    refine List.splitOn_intercalate _ (fun t ht hc => ?_) (by simp)
    obtain ⟨b, -, rfl⟩ := List.mem_map.mp ht
    exact absurd (b.chars _ hc) (by decide)

/-- **`peers_with` finds the lines of the peers that hold the address.** -/
lemma linesWith_map (peers : List RunningPeer) (ip : String) :
    linesWith (peers.map dumpLine) ip = (peersWith peers ip).map dumpLine := by
  have hone : ∀ p : RunningPeer,
      (((field 3 (dumpLine p)).splitOn ',').filter fun a => a = ip.toList ++ "/32".toList).map
          (fun _ => dumpLine p) =
        ((p.allowedIps.filter fun a => a.text = ip.toList ++ "/32".toList).map fun _ => p).map
          dumpLine := by
    intro p
    have hfield : field 3 (dumpLine p) = addressList p.allowedIps := field_dumpLine p (by decide)
    rw [hfield]
    cases hips : p.allowedIps with
    | nil =>
      -- `(none)` is no address
      have hnone : (addressList []).splitOn ',' = ["(none)".toList] := by decide
      have hne : "(none)".toList ≠ ip.toList ++ "/32".toList := by
        intro heq
        have hlast := congrArg List.getLast? heq
        rw [List.getLast?_append_of_ne_nil _ (by decide)] at hlast
        exact absurd hlast (by decide)
      rw [hnone, List.filter_cons_of_neg (by simpa using hne)]
      rfl
    | cons a as =>
      rw [splitOn_addressList (by simp), List.filter_map, List.map_map, List.map_map]
      rfl
  rw [linesWith, peersWith, List.flatMap_map, List.map_flatMap]
  exact congrArg (fun f => peers.flatMap f) (funext hone)

/-! ### `awg set` -/

/-- The arguments of `awg set` for a peer. -/
structure SetArgs where
  pub : Key
  psk : Option Key
  allowedIps : List Address
  keepalive : Fin 65536
  deriving DecidableEq

def parseKey (t : Line) : Option Key :=
  if h : (t.take 43).length = 43 ∧ (t.take 43).all isBase64 = true ∧ t.drop 43 = ['='] then
    some ⟨t.take 43, h.1, List.all_eq_true.mp h.2.1⟩
  else none

def parseAddress (t : Line) : Option Address :=
  if h : t ≠ [] ∧ t.all isAddressChar = true then some ⟨t, h.1, List.all_eq_true.mp h.2⟩ else none

def parseKeepalive (t : Line) : Option (Fin 65536) :=
  if h : t ≠ [] ∧ t.all Char.isDigit = true ∧ Nat.ofDigitChars 10 t 0 < 65536 then
    some ⟨Nat.ofDigitChars 10 t 0, h.2.2⟩
  else none

/-- `preshared-key`, if it is given. -/
def parsePsk : Option Line → Option (Option Key)
  | none => some none
  | some t => (parseKey t).map some

/-- `persistent-keepalive`, if it is given. -/
def parseInterval : Option Line → Option (Fin 65536)
  | none => some 0
  | some t => parseKeepalive t

/-- The arguments as `awg` reads them. -/
def parseSet (pub : Line) (psk : Option Line) (ips : Line) (ka : Option Line) : Option SetArgs := do
  let pub ← parseKey pub
  let psk ← parsePsk psk
  let ips ← (ips.splitOn ',').mapM parseAddress
  let ka ← parseInterval ka
  return ⟨pub, psk, ips, ka⟩

/-- A peer that was just set. -/
def SetArgs.peer (a : SetArgs) : RunningPeer where
  pub := a.pub
  psk := a.psk
  endpoint := none
  allowedIps := a.allowedIps
  handshake := 0
  rx := 0
  tx := 0
  keepalive := a.keepalive

/-- `awg set`: an address goes to the peer from whoever has it; a peer that was
not there comes last. -/
def awgSet (peers : List RunningPeer) (a : SetArgs) : List RunningPeer :=
  let moved := peers.map fun p =>
    if p.pub = a.pub then
      { p with psk := a.psk.or p.psk, allowedIps := a.allowedIps,
               keepalive := if a.keepalive = 0 then p.keepalive else a.keepalive }
    else { p with allowedIps := p.allowedIps.filter (· ∉ a.allowedIps) }
  if peers.any fun p => p.pub = a.pub then moved else moved ++ [a.peer]

lemma parseKey_text (k : Key) : parseKey k.text = some k := by
  have htake : k.text.take 43 = k.body := by
    rw [Key.text, List.take_append_of_le_length k.length_body.ge, List.take_of_length_le k.length_body.le]
  have hdrop : k.text.drop 43 = ['='] := by
    rw [Key.text, List.drop_append_of_le_length k.length_body.ge, List.drop_eq_nil_of_le k.length_body.le]
    rfl
  rw [parseKey, dif_pos ⟨by rw [htake, k.length_body], by rw [htake]; exact List.all_eq_true.mpr k.base64,
    hdrop⟩]
  simp only [htake]

lemma parseAddress_text (a : Address) : parseAddress a.text = some a := by
  rw [parseAddress, dif_pos ⟨a.ne_nil, List.all_eq_true.mpr a.chars⟩]

lemma parseKeepalive_number (n : Fin 65536) : parseKeepalive (number n) = some n := by
  have hvalue : Nat.ofDigitChars 10 (number n) 0 = n := by
    rw [number_eq, Nat.ofDigitChars_ten_toDigits]
  have hdigits : (number n).all Char.isDigit = true := by
    rw [number_eq, List.all_eq_true]
    exact fun c hc => Nat.isDigit_of_mem_toDigits (by decide) (by decide) hc
  rw [parseKeepalive, dif_pos ⟨(isWord_number n).1, hdigits, by rw [hvalue]; exact n.isLt⟩]
  simp only [hvalue]

lemma mapM_parseAddress (as : List Address) : (as.map Address.text).mapM parseAddress = some as := by
  induction as with
  | nil => rfl
  | cons a as ih =>
    rw [List.map_cons, List.mapM_cons, parseAddress_text, ih]
    rfl

/-- The arguments that set the peer as it was. -/
def RunningPeer.args (p : RunningPeer) : SetArgs where
  pub := p.pub
  psk := p.psk
  allowedIps := p.allowedIps
  keepalive := p.keepalive

/-- **The printed words set the peer as it was.** -/
lemma parseSet_words {p : RunningPeer} (h : p.allowedIps ≠ []) :
    parseSet p.pub.text (p.psk.map Key.text) (addressList p.allowedIps)
      (if p.keepalive = 0 then none else some (number p.keepalive)) = some p.args := by
  have hpsk : parsePsk (p.psk.map Key.text) = some p.psk := by
    cases p.psk with
    | none => rfl
    | some k => simp [parsePsk, parseKey_text]
  have hka : parseInterval (if p.keepalive = 0 then none else some (number p.keepalive)) =
      some p.keepalive := by
    by_cases hzero : p.keepalive = 0
    · rw [if_pos hzero, hzero]
      rfl
    · rw [if_neg hzero]
      exact parseKeepalive_number _
  rw [parseSet, parseKey_text, splitOn_addressList h, mapM_parseAddress, hpsk, hka]
  rfl

/-- A peer that is not there is added, and takes its addresses from the others. -/
lemma awgSet_absent {peers : List RunningPeer} {a : SetArgs} (h : ∀ p ∈ peers, p.pub ≠ a.pub) :
    awgSet peers a =
      peers.map (fun p => { p with allowedIps := p.allowedIps.filter (· ∉ a.allowedIps) })
        ++ [a.peer] := by
  have hany : (peers.any fun p => p.pub = a.pub) = false := by
    simpa [List.any_eq_false] using h
  have hmap : (peers.map fun p =>
      if p.pub = a.pub then
        { p with psk := a.psk.or p.psk, allowedIps := a.allowedIps,
                 keepalive := if a.keepalive = 0 then p.keepalive else a.keepalive }
      else { p with allowedIps := p.allowedIps.filter (· ∉ a.allowedIps) }) =
      peers.map fun p => { p with allowedIps := p.allowedIps.filter (· ∉ a.allowedIps) } :=
    List.map_congr_left fun p hp => if_neg (h p hp)
  rw [awgSet, hmap]
  simp [hany]

/-- A peer that is there already gets no second place. -/
lemma length_awgSet_present {peers : List RunningPeer} {a : SetArgs} (h : ∃ p ∈ peers, p.pub = a.pub) :
    (awgSet peers a).length = peers.length := by
  have hany : (peers.any fun p => p.pub = a.pub) = true := by simpa using h
  rw [awgSet]
  simp [hany]

/-- The others keep their addresses exactly if they hold none of the new peer's. -/
lemma map_filter_eq_self_iff {peers : List RunningPeer} {as : List Address} :
    peers.map (fun p => { p with allowedIps := p.allowedIps.filter (· ∉ as) }) = peers ↔
      ∀ p ∈ peers, ∀ a ∈ as, a ∉ p.allowedIps := by
  induction peers with
  | nil => simp
  | cons p peers ih =>
    have hone : ({ p with allowedIps := p.allowedIps.filter (· ∉ as) } : RunningPeer) = p ↔
        ∀ a ∈ as, a ∉ p.allowedIps := by
      constructor
      · intro h a ha hmem
        have hips : p.allowedIps.filter (· ∉ as) = p.allowedIps := congrArg RunningPeer.allowedIps h
        have hkept := List.filter_eq_self.mp hips a hmem
        simp [ha] at hkept
      · intro h
        have hips : p.allowedIps.filter (· ∉ as) = p.allowedIps := by
          refine List.filter_eq_self.mpr fun a ha => ?_
          rw [decide_eq_true_eq]
          exact fun hmem => h a hmem ha
        rw [hips]
    rw [List.map_cons, List.cons.injEq, hone, ih, List.forall_mem_cons]

end VpnPortal.PeerRestore
