/-
What a signed text of the Mini App can be read as (`verify_init_data` of
`pwa/api/telegram.py`).

Telegram signs the lines of a map, and the portal makes the lines again of pairs
that the sender has chosen. Names with `=` and values with line breaks cut the same
text anew: a value may take in the lines that follow it, and a name the beginning
of its value. A field with a plain name is still where it was; what it may take in
has a `=`, which no date has, and stands behind a line break, where a document is
over. So if what Telegram signs as `user` is a document, the user and the date are
those of the map; if it only begins one, the next line may complete it.

* `SignedMap`, `Unforged`: what is assumed of Telegram and of HMAC: only the texts of such
  maps are signed, and a right signature was not forged;
* `exists_signed_value`: a submitted field with a plain name is in the map, where its
  value is the same or the part of it before a line break;
* `user_from_signed`: **an accepted user**, and from the second day of the epoch on the
  date, are those of a signed map;
* `weak_maps_misread`: a document completed by the next line, and a map without a date.
-/
import VpnPortal.Api.InitData

namespace VpnPortal.InitData

open JsonText Heleket

/-! ### What Telegram signs -/

/-- A map that Telegram signs: no name has a `=`, and nothing has a line break. -/
structure SignedMap where
  fields : Fields
  nodup : (fields.map Prod.fst).Nodup
  names : ∀ p ∈ fields, 0x3D ∉ p.1 ∧ 0x0A ∉ p.1
  values : ∀ p ∈ fields, 0x0A ∉ p.2
  points : ∀ p ∈ fields, Query.Points p.1 ∧ Query.Points p.2

/-- The init data are no forgery: if their hash is right, Telegram has signed the
bytes it is right for. -/
def Unforged (hmac : List UInt8 → List UInt8 → List.Vector UInt8 32) (signed : Set SignedMap)
    (initData botToken : List ℕ) : Prop :=
  ∀ fields got, Query.parseQsl initData = some fields → lookup (dictOf fields) hashKey = some got →
    signatureOf hmac botToken (checkText (withoutHash (dictOf fields))) = .ok got →
    ∃ m ∈ signed, encodeText (checkText m.fields) = encodeText (checkText (withoutHash (dictOf fields)))

/-! ### Fields by name -/

lemma mem_of_lookup {β : Type} {ms : List (List ℕ × β)} {k : List ℕ} {v : β}
    (h : lookup ms k = some v) : (k, v) ∈ ms := by
  obtain ⟨m, hm, rfl⟩ := Option.map_eq_some_iff.mp h
  have hkey : m.1 = k := by simpa using List.find?_some hm
  rw [← hkey]
  exact List.mem_of_find?_eq_some hm

lemma lookup_of_mem {β : Type} {ms : List (List ℕ × β)} (hnodup : (ms.map Prod.fst).Nodup)
    {k : List ℕ} {v : β} (h : (k, v) ∈ ms) : lookup ms k = some v := by
  induction ms with
  | nil => cases h
  | cons m ms ih =>
      obtain ⟨hnew, hrest⟩ := List.nodup_cons.mp hnodup
      rcases List.mem_cons.mp h with rfl | h
      · simp [lookup]
      · have hne : m.1 ≠ k := fun heq => hnew (heq ▸ List.mem_map_of_mem h)
        have hskip : lookup (m :: ms) k = lookup ms k := by simp [lookup, hne]
        rw [hskip, ih hrest h]

/-- What is in the dictionary was in the list. -/
lemma mem_dictOf {fields : Fields} {p : List ℕ × List ℕ} (h : p ∈ dictOf fields) : p ∈ fields := by
  have hfold : ∀ (l d : Fields), p ∈ l.foldl (fun d f => insert d f.1 f.2) d → p ∈ d ∨ p ∈ l := by
    intro l
    induction l with
    | nil => exact fun d hd => .inl hd
    | cons f l ih =>
        intro d hd
        rcases ih _ hd with hd | hl
        · rcases mem_insert hd with hd | rfl
          · exact .inl hd
          · exact .inr List.mem_cons_self
        · exact .inr (List.mem_cons_of_mem _ hl)
  exact (hfold fields [] h).resolve_left List.not_mem_nil

/-! ### Texts cut anew -/

/-- The lines of a text of fields. -/
def linesOf (pairs : Fields) : List (List ℕ) := (pairs.insertionSort fun p q => p.1 ≤ q.1).map fieldLine

lemma mem_linesOf {pairs : Fields} {t : List ℕ} : t ∈ linesOf pairs ↔ ∃ p ∈ pairs, fieldLine p = t := by
  simp [linesOf, List.mem_insertionSort]

lemma eq_mem_fieldLine (p : List ℕ × List ℕ) : 0x3D ∈ fieldLine p := by
  simp [fieldLine]

/-- A line has one name. -/
lemma fieldLine_inj {k k' v v' : List ℕ} (hk : 0x3D ∉ k) (hk' : 0x3D ∉ k')
    (h : fieldLine (k, v) = fieldLine (k', v')) : k = k' ∧ v = v' := by
  rcases List.append_eq_append_iff.mp h with ⟨rest, rfl, hrest⟩ | ⟨rest, rfl, hrest⟩
  · cases rest with
    | nil => simpa using hrest
    | cons c rest =>
        obtain ⟨rfl, -⟩ := List.cons.inj hrest
        simp at hk'
  · cases rest with
    | nil => simpa [eq_comm] using hrest
    | cons c rest =>
        obtain ⟨rfl, -⟩ := List.cons.inj hrest
        simp at hk

/-- What stands before the first separator stays with the first part. -/
lemma splitOn_append_of_notMem {sep : ℕ} {a b first : List ℕ} {others : List (List ℕ)}
    (ha : sep ∉ a) (h : b.splitOn sep = first :: others) :
    (a ++ b).splitOn sep = (a ++ first) :: others := by
  induction a with
  | nil => exact h
  | cons c a ih =>
      obtain ⟨hc, ha⟩ := not_or.mp (mt List.mem_cons.mpr ha)
      have hne : (c == sep) = false := beq_eq_false_iff_ne.mpr fun heq => hc heq.symm
      rw [List.cons_append, List.splitOn_cons_eq_if_modifyHead, hne, ih ha]
      rfl

/-- The lines of a signed map are what its text is split into. -/
lemma splitOn_checkText (m : SignedMap) (hne : m.fields ≠ []) :
    (checkText m.fields).splitOn 0x0A = linesOf m.fields := by
  refine List.splitOn_intercalate 0x0A (fun t ht => ?_) ?_
  · obtain ⟨p, hp, rfl⟩ := mem_linesOf.mp ht
    rw [fieldLine, List.mem_append, List.mem_cons]
    rintro (h | h | h)
    · exact (m.names p hp).2 h
    · cases h
    · exact m.values p hp h
  · obtain ⟨p, rest, hfields⟩ := List.exists_cons_of_ne_nil hne
    refine List.ne_nil_of_mem (mem_linesOf.mpr ⟨p, ?_, rfl⟩)
    rw [hfields]
    exact List.mem_cons_self

/-- **A field of a text that was cut anew.** If its name is plain, the signed map has
the field, and its value is the signed one or goes on behind it with lines of the
map. -/
lemma exists_signed_value {pairs : Fields} {m : SignedMap}
    (htext : checkText m.fields = checkText pairs) {k v : List ℕ} (hmem : (k, v) ∈ pairs)
    (heq : 0x3D ∉ k) (hnl : 0x0A ∉ k) :
    ∃ value, (k, value) ∈ m.fields
      ∧ (v = value ∨ ∃ rest, v = value ++ 0x0A :: rest ∧ 0x3D ∈ rest) := by
  have hline : fieldLine (k, v) ∈ linesOf pairs := mem_linesOf.mpr ⟨(k, v), hmem, rfl⟩
  have hfields : m.fields ≠ [] := by
    intro hnil
    have hin : 0x3D ∈ checkText pairs :=
      Blocks.mem_intercalate_of_mem hline (eq_mem_fieldLine (k, v))
    rw [← htext, hnil] at hin
    cases hin
  -- the lines of the map, in the order of the text, are the lines within the pairs
  have hlines : linesOf m.fields = (linesOf pairs).flatMap (List.splitOn 0x0A) := by
    rw [← splitOn_checkText m hfields, htext]
    exact Blocks.splitOn_intercalate_eq_flatMap 0x0A (List.ne_nil_of_mem hline)
  have hsub : ∀ t ∈ (fieldLine (k, v)).splitOn 0x0A, ∃ p ∈ m.fields, fieldLine p = t := by
    intro t ht
    refine mem_linesOf.mp ?_
    rw [hlines]
    exact List.mem_flatMap.mpr ⟨_, hline, ht⟩
  obtain ⟨first, others, hsplit⟩ := List.exists_cons_of_ne_nil (List.splitOn_ne_nil 0x0A v)
  have hwhole : (fieldLine (k, v)).splitOn 0x0A = fieldLine (k, first) :: others := by
    have hname : 0x0A ∉ k ++ [0x3D] := by simp [hnl]
    have hcut := splitOn_append_of_notMem hname hsplit
    simpa [fieldLine] using hcut
  have hjoin : v = [0x0A].intercalate (first :: others) := by
    rw [← hsplit, List.intercalate_splitOn]
  rw [hwhole] at hsub
  obtain ⟨⟨k', value⟩, hp, hfirst⟩ := hsub _ List.mem_cons_self
  obtain ⟨rfl, rfl⟩ := fieldLine_inj (m.names _ hp).1 heq hfirst
  refine ⟨value, hp, ?_⟩
  cases others with
  | nil => exact .inl (by rw [hjoin, List.intercalate_singleton])
  | cons t ts =>
      refine .inr ⟨[0x0A].intercalate (t :: ts), by rw [hjoin, List.intercalate_cons_cons]; simp, ?_⟩
      obtain ⟨p, -, hpt⟩ := hsub t (by simp)
      refine Blocks.mem_intercalate_of_mem List.mem_cons_self ?_
      rw [← hpt]
      exact eq_mem_fieldLine p

/-! ### The same bytes -/

lemma points_checkText {pairs : Fields} (h : ∀ p ∈ pairs, Query.Points p.1 ∧ Query.Points p.2) :
    Query.Points (checkText pairs) := by
  intro c hc
  rcases Blocks.mem_of_mem_intercalate hc with hc | ⟨t, ht, hc⟩
  · rw [List.mem_singleton.mp hc]
    decide
  · obtain ⟨p, hp, rfl⟩ := mem_linesOf.mp ht
    rw [fieldLine, List.mem_append, List.mem_cons] at hc
    rcases hc with hc | rfl | hc
    · exact (h p hp).1 c hc
    · decide
    · exact (h p hp).2 c hc

/-- Two texts with the same bytes are the same. -/
lemma encodeText_inj {s t : List ℕ} {bytes : List UInt8} (hs : Query.Points s) (ht : Query.Points t)
    (hsb : encodeText s = .ok bytes) (htb : encodeText t = .ok bytes) : s = t := by
  have hbytes : ∀ {s : List ℕ}, Query.Points s → encodeText s = .ok bytes →
      s.flatMap Utf8.encode = bytes.map UInt8.toNat := by
    intro s hs hsb
    rcases encodeText_cases s with ⟨-, h⟩ | ⟨-, h⟩
    · obtain rfl := Except.ok.inj (hsb.symm.trans h)
      rw [List.map_map]
      refine ((List.map_congr_left fun b hb => ?_).trans (List.map_id _)).symm
      obtain ⟨c, hc, hb⟩ := List.mem_flatMap.mp hb
      have hlt := Utf8.encode_byte (hs c hc) hb
      rw [Function.comp_apply, UInt8.toNat_ofNat']
      exact Nat.mod_eq_of_lt (by omega)
    · cases hsb.symm.trans h
  exact Utf8.encode_injective hs ht ((hbytes hs hsb).trans (hbytes ht htb).symm)

/-! ### What is accepted -/

section Accepted

variable {rt : Runtime} {hmac : List UInt8 → List UInt8 → List.Vector UInt8 32} {clock : Clock rt.floats}

/-- A user that is returned was signed, and read of the fields. -/
lemma signed_of_verifyInitData {initData botToken : List ℕ} {now : Option rt.floats.F}
    {user : Members rt} (h : verifyInitData rt hmac clock initData botToken now = .ok (some user)) :
    ∃ fields got, Query.parseQsl initData = some fields ∧ lookup (dictOf fields) hashKey = some got
      ∧ signatureOf hmac botToken (checkText (withoutHash (dictOf fields))) = .ok got
      ∧ readUser rt clock (withoutHash (dictOf fields)) now = .ok (some user) := by
  cases hparse : Query.parseQsl initData with
  | none =>
      simp only [verifyInitData, hparse] at h
      cases h
  | some fields =>
      cases hgot : lookup (dictOf fields) hashKey with
      | none =>
          simp only [verifyInitData, hparse, hgot] at h
          cases h
      | some got =>
          by_cases hempty : got = [] ∨ botToken = []
          · simp only [verifyInitData, hparse, hgot, if_pos hempty] at h
            cases h
          · rw [verifyInitData_eq now hparse hgot hempty] at h
            rcases signatureOf_cases hmac botToken (checkText (withoutHash (dictOf fields))) with
              ⟨-, -, digest, hsign⟩ | ⟨-, hsign⟩
            · rw [hsign, ok_bind, compareDigest] at h
              split_ifs at h
              · rw [ok_bind] at h
                split_ifs at h with hsame
                · have heq : hexdigest digest = got := of_decide_eq_true hsame
                  exact ⟨fields, got, rfl, hgot, heq ▸ hsign, h⟩
                · cases h
              · cases h
            · rw [hsign] at h
              cases h

/-- With a right signature, what is returned is what is read of the fields. -/
lemma verifyInitData_of_signed {initData botToken got : List ℕ} {fields : Fields}
    {now : Option rt.floats.F} {r : Option (Members rt)} (hparse : Query.parseQsl initData = some fields)
    (hgot : lookup (dictOf fields) hashKey = some got) (hne : ¬ (got = [] ∨ botToken = []))
    (hsign : signatureOf hmac botToken (checkText (withoutHash (dictOf fields))) = .ok got)
    (hread : readUser rt clock (withoutHash (dictOf fields)) now = .ok r) :
    verifyInitData rt hmac clock initData botToken now = .ok r := by
  rcases signatureOf_cases hmac botToken (checkText (withoutHash (dictOf fields))) with
    ⟨-, -, digest, hdigest⟩ | ⟨-, hraise⟩
  · obtain rfl : hexdigest digest = got := Except.ok.inj (hdigest.symm.trans hsign)
    rw [verifyInitData_eq now hparse hgot hne, hsign, ok_bind, compareDigest, isAscii_hexdigest]
    simp only [Bool.and_self, if_true, decide_true, ok_bind]
    exact hread
  · cases hraise.symm.trans hsign

/-- A user that was read has an `id`, and the date is not too old. -/
lemma readUser_eq_some {pairs : Fields} {now : Option rt.floats.F} {user : Members rt}
    (h : readUser rt clock pairs now = .ok (some user)) :
    ∃ date age, authDate pairs = some date ∧ clock.minus (clock.at now) date = some age
      ∧ clock.tooOld age = false ∧ userValue rt pairs = .ok (.obj user)
      ∧ (lookup user idKey).isSome = true := by
  unfold readUser at h
  split at h
  · cases h
  · rename_i date hdate
    split at h
    · cases h
    · rename_i age hage
      split at h
      · cases h
      · cases h
      · rename_i v hv
        obtain ⟨hold, hid⟩ := Option.ite_none_left_eq_some.mp (Except.ok.inj h)
        obtain ⟨id, hlook, -⟩ := id_of_userWithId hid
        unfold userWithId at hid
        split at hid
        · obtain ⟨-, heq⟩ := Option.ite_none_right_eq_some.mp hid
          obtain rfl := Option.some.inj heq
          exact ⟨date, age, hdate, hage, Bool.eq_false_iff.mpr hold, hv, by rw [hlook]; rfl⟩
        · cases hid

/-- Without a `user` field there is no `id`. -/
lemma lookup_braces {limit : ℕ} {user : Members rt}
    (h : loads limit [0x7B, 0x7D] = (.ok (.obj user) : Except Fault rt.Value)) : user = [] := by
  cases limit with
  | zero => cases h
  | succ limit =>
      have hread : loads (limit + 1) [0x7B, 0x7D] = (.ok (.obj []) : Except Fault rt.Value) := rfl
      injection hread.symm.trans h with hobj
      injection hobj with hms
      exact hms.symm

end Accepted

/-- A text with a `=` is no integer. -/
lemma notMem_of_intOf {s : List ℕ} {n : ℤ} (h : intOf s = some n) : 0x3D ∉ s := by
  have hkeep : ∀ {t : List ℕ}, 0x3D ∈ t → 0x3D ∈ t.dropWhile isIntSpace := by
    intro t ht
    rw [← List.takeWhile_append_dropWhile (p := isIntSpace) (l := t), List.mem_append] at ht
    refine ht.resolve_left fun hblank => ?_
    exact Bool.false_ne_true (List.all_eq_true.mp List.all_takeWhile 0x3D hblank)
  intro hmem
  have hin := List.mem_reverse.mpr (hkeep (List.mem_reverse.mpr (hkeep hmem)))
  have hchar : '=' ∈ (((s.dropWhile isIntSpace).reverse.dropWhile isIntSpace).reverse).map Char.ofNat :=
    List.mem_map.mpr ⟨0x3D, hin, rfl⟩
  rcases Numerals.chars_of_readInt h '=' hchar with h | h | h | h
  · exact absurd h (by decide)
  · exact absurd h (by decide)
  · exact absurd h (by decide)
  · exact Bool.false_ne_true h

/-! ### The user and the date -/

section Readings

variable {rt : Runtime} {hmac : List UInt8 → List UInt8 → List.Vector UInt8 32} {clock : Clock rt.floats}

/-- The user is the document that the map has as `user`, and its `auth_date` is an
integer that is not too old. -/
structure FromMap (clock : Clock rt.floats) (now : Option rt.floats.F) (m : SignedMap)
    (user : Members rt) : Prop where
  user : ∃ value, lookup m.fields userKey = some value ∧ loads rt.limit value = .ok (.obj user)
  date : ∃ value date age, lookup m.fields authDateKey = some value ∧ intOf value = some date
    ∧ clock.minus (clock.at now) date = some age ∧ clock.tooOld age = false

/-- The text of an accepted submission is that of a map that Telegram signed. -/
lemma exists_signed_text {signed : Set SignedMap} {initData botToken got : List ℕ} {fields : Fields}
    (hpoints : Query.Points initData) (hunforged : Unforged hmac signed initData botToken)
    (hparse : Query.parseQsl initData = some fields) (hgot : lookup (dictOf fields) hashKey = some got)
    (hsign : signatureOf hmac botToken (checkText (withoutHash (dictOf fields))) = .ok got) :
    ∃ m ∈ signed, checkText m.fields = checkText (withoutHash (dictOf fields)) := by
  obtain ⟨m, hm, hbytes⟩ := hunforged fields got hparse hgot hsign
  have hpairs : ∀ p ∈ withoutHash (dictOf fields), Query.Points p.1 ∧ Query.Points p.2 := fun p hp =>
    Query.points_parseQsl hpoints hparse p (mem_dictOf (List.mem_of_mem_filter hp))
  rcases encodeText_cases (checkText (withoutHash (dictOf fields))) with ⟨-, hok⟩ | ⟨hbad, -⟩
  · refine ⟨m, hm, encodeText_inj (points_checkText m.points) (points_checkText hpairs) ?_ hok⟩
    rw [hbytes, hok]
  · rcases signatureOf_cases hmac botToken (checkText (withoutHash (dictOf fields))) with
      ⟨-, hgood, -⟩ | ⟨-, hraise⟩
    · rw [hbad] at hgood
      cases hgood
    · cases hraise.symm.trans hsign

/-- **The date of a text cut anew** is that of the map: what it could take in has a
`=`. -/
lemma date_of_text {pairs : Fields} {m : SignedMap} {date : ℤ}
    (htext : checkText m.fields = checkText pairs) (hdate : authDate pairs = some date) :
    lookup pairs authDateKey = none ∧ date = 0
      ∨ ∃ value, lookup m.fields authDateKey = some value ∧ intOf value = some date := by
  unfold authDate at hdate
  cases hlook : lookup pairs authDateKey with
  | none =>
      rw [hlook] at hdate
      exact .inl ⟨rfl, (Option.some.inj hdate).symm⟩
  | some v =>
      rw [hlook, Option.getD_some] at hdate
      obtain ⟨value, hmem, hv⟩ := exists_signed_value htext (mem_of_lookup hlook) (by decide) (by decide)
      refine .inr ⟨value, lookup_of_mem m.nodup hmem, ?_⟩
      rcases hv with rfl | ⟨rest, rfl, hrest⟩
      · exact hdate
      · refine absurd ?_ (notMem_of_intOf hdate)
        exact List.mem_append_right _ (List.mem_cons_of_mem _ hrest)

/-- **The user of a text cut anew** is that of the map, if that is a document: what it
could take in is not blank. -/
lemma user_of_text {pairs : Fields} {m : SignedMap} {user : Members rt}
    (htext : checkText m.fields = checkText pairs)
    (hdocument : ∀ value, lookup m.fields userKey = some value → ∃ v : rt.Value, loads rt.limit value = .ok v)
    (huser : userValue rt pairs = .ok (.obj user)) (hid : (lookup user idKey).isSome = true) :
    ∃ value, lookup m.fields userKey = some value ∧ loads rt.limit value = .ok (.obj user) := by
  unfold userValue at huser
  cases hlook : lookup pairs userKey with
  | none =>
      rw [hlook] at huser
      obtain rfl := lookup_braces huser
      cases hid
  | some v =>
      rw [hlook, Option.getD_some] at huser
      obtain ⟨value, hmem, hv⟩ := exists_signed_value htext (mem_of_lookup hlook) (by decide) (by decide)
      have hsigned := lookup_of_mem m.nodup hmem
      refine ⟨value, hsigned, ?_⟩
      rcases hv with rfl | ⟨rest, rfl, hrest⟩
      · exact huser
      · obtain ⟨w, hw⟩ := hdocument value hsigned
        cases blank_of_loads hw huser 0x3D hrest

/-- **Init data cannot be re-cut.** Whatever pairs are submitted, if no signature is
forged and what Telegram signs as `user` is a document, an accepted user is that of
a signed map, and so is the date, from the second day of the epoch on. -/
theorem user_from_signed {signed : Set SignedMap} {initData botToken : List ℕ}
    {now : Option rt.floats.F} {user : Members rt} (hpoints : Query.Points initData)
    (hunforged : Unforged hmac signed initData botToken)
    (hdocument : ∀ m ∈ signed, ∀ value, lookup m.fields userKey = some value →
      ∃ v : rt.Value, loads rt.limit value = .ok v)
    (hlate : ∀ age, clock.minus (clock.at now) 0 = some age → clock.tooOld age = true)
    (h : verifyInitData rt hmac clock initData botToken now = .ok (some user)) :
    ∃ m ∈ signed, FromMap clock now m user := by
  obtain ⟨fields, got, hparse, hgot, hsign, hread⟩ := signed_of_verifyInitData h
  obtain ⟨m, hm, htext⟩ := exists_signed_text hpoints hunforged hparse hgot hsign
  obtain ⟨date, age, hdate, hage, hold, huser, hid⟩ := readUser_eq_some hread
  refine ⟨m, hm, user_of_text htext (hdocument m hm) huser hid, ?_⟩
  rcases date_of_text htext hdate with ⟨-, rfl⟩ | ⟨value, hvalue, hint⟩
  · rw [hlate age hage] at hold
    cases hold
  · exact ⟨value, date, age, hvalue, hint, hage, hold⟩

end Readings

/-! ### A document and the next line -/

/-- A runtime whose floats are whole seconds. -/
def secondsRuntime : Runtime where
  floats := ⟨ℤ, fun _ => 0, 0, 0, 0, fun x => x = 0, fun _ => [], fun _ => []⟩
  limit := 1000
  strLimit := 1000
  printable := fun _ => true

def secondsClock : Clock secondsRuntime.floats where
  time := (1700000000 : ℤ)
  minus := fun (now n : ℤ) => if n.natAbs < Numerals.floatBound then some (now - n) else none
  tooOld := fun (age : ℤ) => decide (86400 < age)
  minus_isSome _ n := by
    split
    · rename_i h
      exact iff_of_true rfl h
    · rename_i h
      exact iff_of_false Bool.false_ne_true h

def codes (s : String) : List ℕ := s.toList.map Char.toNat

/-- The map of a user with the id 5. -/
def openedMap : SignedMap where
  fields := [(authDateKey, codes "1699999000"), (userKey, codes "\x7b\"id\":5\x7d")]
  nodup := by decide
  names := by decide
  values := by decide
  points := by decide

/-- A map whose `user` is the beginning of a document; its last line could be the end. -/
def brokenMap : SignedMap where
  fields := [(authDateKey, codes "1699999000"), (userKey, codes "\x7b\"id\":5,\"b\":"),
    (codes "\x7b\"a", codes "\":1\x7d\x7d")]
  nodup := by decide
  names := by decide
  values := by decide
  points := by decide

/-- A map without a date. -/
def undatedMap : SignedMap where
  fields := [(userKey, codes "\x7b\"id\":5\x7d")]
  nodup := by decide
  names := by decide
  values := by decide
  points := by decide

/-- The token of the bot, -/
def botToken : List ℕ := codes "1:a"

/-- the key that comes of it, -/
def botKey : List.Vector UInt8 32 :=
  ⟨[248, 65, 13, 28, 185, 234, 14, 20, 33, 245, 48, 173, 152, 24, 48, 136, 223, 248, 49, 79,
    85, 113, 54, 224, 222, 28, 173, 203, 108, 117, 75, 223], rfl⟩

/-- and the digests of the texts of the three maps with that key. -/
def openedDigest : List.Vector UInt8 32 :=
  ⟨[138, 3, 7, 118, 217, 191, 132, 160, 219, 41, 144, 89, 203, 212, 166, 116, 38, 191, 62, 122,
    109, 106, 27, 209, 42, 209, 219, 185, 238, 193, 232, 40], rfl⟩

def brokenDigest : List.Vector UInt8 32 :=
  ⟨[130, 132, 64, 169, 161, 181, 185, 182, 208, 246, 208, 211, 108, 187, 210, 126, 102, 182, 91, 131,
    154, 127, 12, 205, 155, 66, 105, 53, 250, 158, 35, 60], rfl⟩

def undatedDigest : List.Vector UInt8 32 :=
  ⟨[3, 177, 142, 86, 102, 120, 194, 118, 141, 240, 133, 12, 176, 156, 248, 183, 100, 149, 205, 53,
    70, 171, 182, 105, 210, 17, 100, 232, 193, 149, 195, 203], rfl⟩

/-- HMAC-SHA-256 of what is signed below. -/
def hmacSha256 (key msg : List UInt8) : List.Vector UInt8 32 :=
  let text := msg.map UInt8.toNat
  if key = webAppData ∧ text = botToken then botKey
  else if key ≠ botKey.toList then List.Vector.replicate 32 0
  else if text = checkText openedMap.fields then openedDigest
  else if text = checkText brokenMap.fields then brokenDigest
  else if text = checkText undatedMap.fields then undatedDigest
  else List.Vector.replicate 32 0

/-- Fields with a hash, as they are submitted, -/
def hashed (fields : String) (digest : List.Vector UInt8 32) : List ℕ :=
  codes fields ++ codes "&hash=" ++ hexdigest digest.toList

/-- and as they are read. -/
def withHash (pairs : Fields) (digest : List.Vector UInt8 32) : Fields :=
  pairs ++ [(hashKey, hexdigest digest.toList)]

/-- Pairs with the text of the signed map are accepted, and are no forgery. -/
lemma accepted_of_text {m : SignedMap} {initData : List ℕ} {pairs : Fields} {digest : List.Vector UInt8 32}
    {now : Option secondsRuntime.floats.F} {user : Members secondsRuntime}
    (hparse : Query.parseQsl initData = some (withHash pairs digest))
    (hpairs : lookup (dictOf (withHash pairs digest)) hashKey = some (hexdigest digest.toList)
      ∧ withoutHash (dictOf (withHash pairs digest)) = pairs)
    (hgiven : hexdigest digest.toList ≠ [])
    (htext : checkText m.fields = checkText pairs)
    (hsign : signatureOf hmacSha256 botToken (checkText m.fields) = .ok (hexdigest digest.toList))
    (hread : readUser secondsRuntime secondsClock pairs now = .ok (some user)) :
    Unforged hmacSha256 {m} initData botToken
      ∧ verifyInitData secondsRuntime hmacSha256 secondsClock initData botToken now = .ok (some user) := by
  obtain ⟨hgot, hplain⟩ := hpairs
  constructor
  · intro fields got hparse' _ _
    obtain rfl := Option.some.inj (hparse.symm.trans hparse')
    exact ⟨m, rfl, congrArg encodeText (by rw [hplain, htext])⟩
  · refine verifyInitData_of_signed hparse hgot (not_or.mpr ⟨hgiven, by decide⟩) ?_ ?_
    · rw [hplain, ← htext, hsign]
    · rw [hplain, hread]

lemma age_of_date {n : ℤ} (h : n.natAbs < Numerals.floatBound) :
    secondsClock.minus (secondsClock.at none) n = some (1700000000 - n : ℤ) := by
  simp only [secondsClock, if_pos h]
  rfl

/-- A user with a date of that day is read. -/
lemma readUser_of_day {pairs : Fields} {user : Members secondsRuntime}
    (hdate : authDate pairs = some 1699999000) (huser : userValue secondsRuntime pairs = .ok (.obj user))
    (hid : (lookup user idKey).any isInt = true) :
    readUser secondsRuntime secondsClock pairs none = .ok (some user) := by
  have hage := age_of_date (by decide +kernel : (1699999000 : ℤ).natAbs < Numerals.floatBound)
  have hold : secondsClock.tooOld (1700000000 - 1699999000 : ℤ) = false := by decide
  simp only [readUser, hdate, hage, huser, hold, userWithId, if_pos hid]
  rfl

/-- The pairs of an opened app are the map, and the user with the id 5 comes of it. -/
theorem user_from_signed_opened :
    ∃ m ∈ ({openedMap} : Set SignedMap), FromMap secondsClock none m [(idKey, .int 5)] := by
  have hread : readUser secondsRuntime secondsClock openedMap.fields none =
      .ok (some [(idKey, .int 5)]) := readUser_of_day (by decide) rfl rfl
  have hparse : Query.parseQsl (hashed "auth_date=1699999000&user=%7B%22id%22%3A5%7D" openedDigest) =
      some (withHash openedMap.fields openedDigest) := by decide
  obtain ⟨hunforged, haccepted⟩ :=
    accepted_of_text hparse (by decide) (by decide) rfl (by decide) hread
  refine user_from_signed (by decide) hunforged ?_ ?_ haccepted
  · rintro m rfl value hvalue
    have hsame : lookup openedMap.fields userKey = some (codes "\x7b\"id\":5\x7d") := by decide
    obtain rfl := Option.some.inj (hsame.symm.trans hvalue)
    exact ⟨.obj [(idKey, .int 5)], rfl⟩
  · intro age hage
    have hnow := age_of_date (by decide +kernel : (0 : ℤ).natAbs < Numerals.floatBound)
    obtain rfl := Option.some.inj (hnow.symm.trans hage)
    rfl

/-- The fields of the broken map, with its last line in the value of `user`. -/
def completedInit : List ℕ :=
  hashed "auth_date=1699999000&user=%7B%22id%22%3A5%2C%22b%22%3A%0A%7B%22a%3D%22%3A1%7D%7D" brokenDigest

/-- What is read of them. -/
def completedPairs : Fields :=
  [(authDateKey, codes "1699999000"), (userKey, codes "\x7b\"id\":5,\"b\":\n\x7b\"a=\":1\x7d\x7d")]

/-- What they are together. -/
def completedUser : Members secondsRuntime :=
  [(idKey, .int 5), (codes "b", .obj [(codes "a=", .int 1)])]

/-- The map is signed, no signature is forged, and a user is accepted that is not that
of the map or has no date. -/
def Misread (m : SignedMap) (initData : List ℕ) (now : Option secondsRuntime.floats.F)
    (user : Members secondsRuntime) : Prop :=
  Unforged hmacSha256 {m} initData botToken
    ∧ verifyInitData secondsRuntime hmacSha256 secondsClock initData botToken now = .ok (some user)
    ∧ ¬ ∃ m' ∈ ({m} : Set SignedMap), FromMap secondsClock now m' user

/-- A value takes in the last line of the broken map. -/
lemma misread_brokenMap : Misread brokenMap completedInit none completedUser := by
  have hparse : Query.parseQsl completedInit = some (withHash completedPairs brokenDigest) := by
    decide
  have hread : readUser secondsRuntime secondsClock completedPairs none = .ok (some completedUser) :=
    readUser_of_day (by decide) rfl rfl
  obtain ⟨hunforged, haccepted⟩ := accepted_of_text (m := brokenMap) hparse (by decide)
    (by decide) (by decide) (by decide) hread
  refine ⟨hunforged, haccepted, ?_⟩
  rintro ⟨m, rfl, hmap⟩
  obtain ⟨value, hvalue, hdocument⟩ := hmap.user
  have hsame : lookup brokenMap.fields userKey = some (codes "\x7b\"id\":5,\"b\":") := by decide
  obtain rfl := Option.some.inj (hsame.symm.trans hvalue)
  have hinvalid : loads secondsRuntime.limit (codes "\x7b\"id\":5,\"b\":") =
      (.error .invalid : Except Fault secondsRuntime.Value) := rfl
  cases hinvalid.symm.trans hdocument

/-- Without a date the epoch is one, and its first day is not over. -/
lemma misread_undatedMap : Misread undatedMap (hashed "user=%7B%22id%22%3A5%7D" undatedDigest)
    (some (1000 : ℤ)) [(idKey, .int 5)] := by
  have hparse : Query.parseQsl (hashed "user=%7B%22id%22%3A5%7D" undatedDigest) =
      some (withHash undatedMap.fields undatedDigest) := by decide
  have hread : readUser secondsRuntime secondsClock undatedMap.fields (some (1000 : ℤ)) =
      .ok (some [(idKey, .int 5)]) := by
    have hdate : authDate undatedMap.fields = some 0 := by decide
    have huser : userValue secondsRuntime undatedMap.fields = .ok (.obj [(idKey, .int 5)]) := rfl
    have hage : secondsClock.minus (secondsClock.at (some (1000 : ℤ))) 0 = some (1000 - 0 : ℤ) := by
      simp only [secondsClock, if_pos (by decide +kernel : (0 : ℤ).natAbs < Numerals.floatBound)]
      rfl
    simp only [readUser, hdate, hage, huser]
    rfl
  obtain ⟨hunforged, haccepted⟩ := accepted_of_text (m := undatedMap) hparse (by decide)
    (by decide) rfl (by decide) hread
  refine ⟨hunforged, haccepted, ?_⟩
  rintro ⟨m, rfl, hmap⟩
  obtain ⟨value, -, -, hvalue, -⟩ := hmap.date
  have hnone : lookup undatedMap.fields authDateKey = none := by decide
  cases hnone.symm.trans hvalue

/-- **Maps that are misread.** A `user` that only begins a document is completed by the
next line, and a map without a date is accepted on the first day of the epoch. -/
theorem weak_maps_misread :
    Misread brokenMap completedInit none completedUser
      ∧ Misread undatedMap (hashed "user=%7B%22id%22%3A5%7D" undatedDigest) (some (1000 : ℤ))
        [(idKey, .int 5)] :=
  ⟨misread_brokenMap, misread_undatedMap⟩

end VpnPortal.InitData
