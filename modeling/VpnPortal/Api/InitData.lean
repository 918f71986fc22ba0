/-
Who opened the Mini App (`verify_init_data` of `pwa/api/telegram.py`), and what the
two authenticators do with texts nobody has signed.

Telegram signs the sorted fields of the init data with a key made of the bot's
token; the portal makes the signature again and compares it. Both this and
`verify_webhook` return `None` for what is not signed, but some texts raise on
the way: a body that is no object, a signature with letters beyond ASCII, a
surrogate, and behind a right signature a date or a user that Python cannot
handle.

* `verifyInitData`: the authenticator of the Mini App;
* `SafeBody`, `bodyAnswered_iff`: a body is answered exactly if it is no JSON or
  an object whose signature is written in ASCII and not too deep;
* `SafeInit`, `initAnswered_iff`: init data are answered exactly if their hash
  can be compared and, behind a right one, their date and user can be handled;
* `authenticators_answer_iff`: both; `unsigned_texts_raise`: an empty list, and a hash
  that is not ASCII.
-/
import Mathlib.Data.List.Sort
import VpnPortal.Services.Heleket
import VpnPortal.Text.Blocks
import VpnPortal.Text.Digits
import VpnPortal.Text.Query

namespace VpnPortal.InitData

open JsonText Heleket

/-! ### Numbers and dates -/

/-- A character that `int` passes over at the ends of a text. -/
def isIntSpace (c : ℕ) : Bool :=
  (0x09 ≤ c && c ≤ 0x0D) || (0x2000 ≤ c && c ≤ 0x200A)
    || c ∈ [0x20, 0x85, 0xA0, 0x1680, 0x2028, 0x2029, 0x202F, 0x205F, 0x3000]

/-- `int(s)`, with `none` for the `ValueError`. -/
def intOf (s : List ℕ) : Option ℤ :=
  Numerals.readInt ((((s.dropWhile isIntSpace).reverse.dropWhile isIntSpace).reverse).map Char.ofNat)

/-- The clock: `time.time()`, `now - n` with `none` for the `OverflowError`, and
whether an age is over `INIT_DATA_MAX_AGE`. -/
structure Clock (L : FloatLib) where
  time : L.F
  minus : L.F → ℤ → Option L.F
  tooOld : L.F → Bool
  minus_isSome : ∀ now n, (minus now n).isSome = true ↔ n.natAbs < Numerals.floatBound

/-- `now or time.time()` -/
def Clock.at {L : FloatLib} (clock : Clock L) (now : Option L.F) : L.F :=
  (now.filter fun t => !L.isZero t).getD clock.time

/-! ### The fields -/

/-- The fields of the init data: names and values. -/
abbrev Fields : Type := List (List ℕ × List ℕ)

def hashKey : List ℕ := ['h', 'a', 's', 'h'].map Char.toNat

def authDateKey : List ℕ := ['a', 'u', 't', 'h', '_', 'd', 'a', 't', 'e'].map Char.toNat

def userKey : List ℕ := ['u', 's', 'e', 'r'].map Char.toNat

def idKey : List ℕ := ['i', 'd'].map Char.toNat

def webAppData : List UInt8 := (['W', 'e', 'b', 'A', 'p', 'p', 'D', 'a', 't', 'a'].map Char.toNat).map .ofNat

/-- `dict(fields)` -/
def dictOf (fields : Fields) : Fields := fields.foldl (fun d f => insert d f.1 f.2) []

/-- The fields without the hash. -/
def withoutHash (pairs : Fields) : Fields := pairs.filter fun p => p.1 ≠ hashKey

/-- A line of the text that is signed. -/
def fieldLine (p : List ℕ × List ℕ) : List ℕ := p.1 ++ 0x3D :: p.2

/-- The lines in the order of their names. -/
def checkText (pairs : Fields) : List ℕ :=
  [0x0A].intercalate ((pairs.insertionSort fun p q => p.1 ≤ q.1).map fieldLine)

section

variable (rt : Runtime) (hmac : List UInt8 → List UInt8 → List.Vector UInt8 32) (clock : Clock rt.floats)

/-- The signature of a text with the token. -/
def signatureOf (botToken check : List ℕ) : Except Raised (List ℕ) := do
  let token ← encodeText botToken
  let text ← encodeText check
  return hexdigest (hmac (hmac webAppData token).toList text).toList

/-- `int(pairs.get("auth_date", "0"))` -/
def authDate (pairs : Fields) : Option ℤ := intOf ((lookup pairs authDateKey).getD [0x30])

/-- `json.loads(pairs.get("user", "{}"))` -/
def userValue (pairs : Fields) : Except Fault rt.Value :=
  loads rt.limit ((lookup pairs userKey).getD [0x7B, 0x7D])

/-- `isinstance(v, int)`, which is so of a `bool` too. -/
def isInt {rt : Runtime} : rt.Value → Bool
  | .int _ => true
  | .bool _ => true
  | _ => false

/-- The user, if it is an object whose `id` is an integer. -/
def userWithId {rt : Runtime} : rt.Value → Option (Members rt)
  | .obj user => if (lookup user idKey).any isInt then some user else none
  | _ => none

/-- What is read of the fields once the signature is right. -/
def readUser (pairs : Fields) (now : Option rt.floats.F) : Except Raised (Option (Members rt)) :=
  match authDate pairs with
  | none => .ok none
  | some date =>
      match clock.minus (clock.at now) date with
      | none => .error .overflowError
      | some age =>
          match userValue rt pairs with
          | .error .invalid => .ok none
          | .error .recursion => .error .recursionError
          | .ok user => .ok (if clock.tooOld age then none else userWithId user)

/-- `verify_init_data` -/
def verifyInitData (initData botToken : List ℕ) (now : Option rt.floats.F) :
    Except Raised (Option (Members rt)) :=
  match Query.parseQsl initData with
  | none => .ok none
  | some fields =>
      match lookup (dictOf fields) hashKey with
      | none => .ok none
      | some got =>
          if got = [] ∨ botToken = [] then .ok none
          else do
            let pairs := withoutHash (dictOf fields)
            let want ← signatureOf hmac botToken (checkText pairs)
            let same ← compareDigest want got
            if same then readUser rt clock pairs now else .ok none

end

/-! ### Bodies -/

section Bodies

variable {rt : Runtime} {md5 : List UInt8 → List.Vector UInt8 16} {apiKey : List Char}

variable (md5 apiKey) in
/-- A body without its signature is written again and signed without an
exception. -/
lemma exists_makeSign {body : List UInt8} {data : Members rt}
    (hbody : loadsBytes rt.limit body = .ok (.obj data)) :
    ∃ bodyStr digest, serialize rt (unsigned data) = .ok bodyStr
      ∧ makeSign md5 apiKey bodyStr = .ok (hexdigest digest) := by
  have hobj : depthOfMembers data + 1 ≤ rt.limit := by
    unfold loadsBytes at hbody
    split at hbody
    · cases hbody
    · exact depth_of_loads hbody
  have hdepth : depthOfMembers (unsigned data) ≤ depthOfMembers data :=
    depthOfMembers_le fun m hm => depth_le_depthOfMembers (List.mem_of_mem_filter hm)
  have hserial : serialize rt (unsigned data) =
      .ok (escapeSlash (write (pyWriter (dumpFloat rt)) (.obj (unsigned data)))) := by
    rw [serialize, if_neg]
    rw [Value.depth]
    omega
  have hfloat : ∀ x, ∀ d ∈ dumpFloat rt x, d < 0x80 := by
    intro x d hd
    obtain ⟨c, -, rfl⟩ := List.mem_map.mp hd
    exact c.isLt
  have hascii := pyWrite_bounds hfloat (.obj (unsigned data))
  obtain ⟨digest, hdigest⟩ : ∃ digest : List.Vector UInt8 16, makeSign md5 apiKey _ =
    .ok (hexdigest digest.toList) := makeSign_eq hascii
  exact ⟨_, _, hserial, hdigest⟩

/-- The body is an object with the signature of what else is in it. -/
def Carries (rt : Runtime) (md5 : List UInt8 → List.Vector UInt8 16) (apiKey : List Char)
    (body : List UInt8) : Prop :=
  ∃ data sign bodyStr, loadsBytes rt.limit body = .ok (.obj data) ∧ lookup data signKey = some sign
    ∧ serialize rt (unsigned data) = .ok bodyStr ∧ makeSign md5 apiKey bodyStr = .ok (strText sign)

/-- A body is answered: nothing is raised, what is returned was read, and nothing is
returned of a body without a signature. -/
def BodyAnswered (rt : Runtime) (md5 : List UInt8 → List.Vector UInt8 16) (apiKey : List Char)
    (body : List UInt8) : Prop :=
  ∃ r, verifyWebhook rt md5 apiKey body = .ok r
    ∧ (∀ data, r = some data → loadsBytes rt.limit body = .ok (.obj data))
    ∧ (¬ Carries rt md5 apiKey body → r = none)

/-- If JSON at all, an object; and its signature, if there is one, is written in
ASCII and not too deep for `str`. -/
def SafeBody (rt : Runtime) (body : List UInt8) : Prop :=
  ∀ v : rt.Value, loadsBytes rt.limit body = .ok v → ∃ data, v = .obj data
    ∧ ∀ sign, lookup data signKey = some sign → truthy sign = true →
      sign.depth ≤ rt.strLimit ∧ isAscii (strText sign) = true

/-- Nothing is returned. -/
lemma bodyAnswered_of_none {body : List UInt8} (h : verifyWebhook rt md5 apiKey body = .ok none) :
    BodyAnswered rt md5 apiKey body :=
  ⟨none, h, fun _ hdata => (Option.some_ne_none _ hdata.symm).elim, fun _ => rfl⟩

/-- The signature of an object is compared. -/
lemma bodyAnswered_signed {body : List UInt8} {data : Members rt} {sign : rt.Value}
    (hbody : loadsBytes rt.limit body = .ok (.obj data)) (hsign : lookup data signKey = some sign)
    (htruthy : truthy sign = true) :
    BodyAnswered rt md5 apiKey body ↔ sign.depth ≤ rt.strLimit ∧ isAscii (strText sign) = true := by
  obtain ⟨bodyStr, digest, hserial, hmake⟩ := exists_makeSign md5 apiKey hbody
  have hverify : verifyWebhook rt md5 apiKey body = (do
      let shown ← pyStr sign
      let same ← compareDigest (hexdigest digest) shown
      return if same then some data else none) := by
    simp only [verifyWebhook, hbody, hsign, htruthy, hserial, hmake, ok_bind]
    rfl
  by_cases hdepth : sign.depth ≤ rt.strLimit
  · have hshown : pyStr sign = .ok (strText sign) := by
      rw [pyStr, if_neg (by omega)]
    rw [hshown, ok_bind] at hverify
    by_cases hascii : isAscii (strText sign) = true
    · have hsame : compareDigest (hexdigest digest) (strText sign) =
          .ok (decide (hexdigest digest = strText sign)) := by
        rw [compareDigest, isAscii_hexdigest, hascii]
        rfl
      rw [hsame, ok_bind] at hverify
      refine ⟨fun _ => ⟨hdepth, hascii⟩, fun _ => ⟨_, hverify, ?_, ?_⟩⟩
      · intro data' hdata
        obtain ⟨-, hdata⟩ := Option.ite_none_right_eq_some.mp hdata
        obtain rfl := Option.some.inj hdata
        exact hbody
      · intro hnot
        refine if_neg ?_
        rw [decide_eq_true_eq]
        rintro heq
        exact hnot ⟨data, sign, bodyStr, hbody, hsign, hserial, heq ▸ hmake⟩
    · have hraise : compareDigest (hexdigest digest) (strText sign) = .error .typeError := by
        rw [compareDigest, isAscii_hexdigest, Bool.eq_false_iff.mpr hascii]
        rfl
      rw [hraise] at hverify
      constructor
      · rintro ⟨r, hr, -⟩
        cases hverify.symm.trans hr
      · rintro ⟨-, hyes⟩
        exact absurd hyes hascii
  · have hraise : pyStr sign = .error .recursionError := by
      rw [pyStr, if_pos (by omega)]
    rw [hraise] at hverify
    constructor
    · rintro ⟨r, hr, -⟩
      cases hverify.symm.trans hr
    · rintro ⟨hle, -⟩
      exact absurd hle hdepth

/-- **Which bodies are answered.** -/
lemma bodyAnswered_iff (body : List UInt8) :
    BodyAnswered rt md5 apiKey body ↔ SafeBody rt body := by
  cases hload : (loadsBytes rt.limit body : Except Fault rt.Value) with
  | error e =>
      have hnone : verifyWebhook rt md5 apiKey body = .ok none := by rw [verifyWebhook, hload]
      refine iff_of_true (bodyAnswered_of_none hnone) fun v hv => ?_
      rw [hload] at hv
      cases hv
  | ok v =>
      have hsafe : SafeBody rt body ↔ ∃ data, v = .obj data
          ∧ ∀ sign, lookup data signKey = some sign → truthy sign = true →
            sign.depth ≤ rt.strLimit ∧ isAscii (strText sign) = true := by
        refine ⟨fun h => h v hload, fun h w hw => ?_⟩
        obtain rfl := Except.ok.inj (hload.symm.trans hw)
        exact h
      rw [hsafe]
      by_cases hobj : ∃ data, v = .obj data
      · obtain ⟨data, rfl⟩ := hobj
        simp only [Value.obj.injEq, exists_eq_left']
        cases hsign : lookup data signKey with
        | none =>
            have hnone : verifyWebhook rt md5 apiKey body = .ok none := by
              simp only [verifyWebhook, hload, hsign]
            exact iff_of_true (bodyAnswered_of_none hnone) fun _ h => by cases h
        | some sign =>
            simp only [Option.some.injEq, forall_eq']
            cases htruthy : truthy sign with
            | false =>
                have hnone : verifyWebhook rt md5 apiKey body = .ok none := by
                  simp only [verifyWebhook, hload, hsign, htruthy, Bool.not_false, if_true]
                exact iff_of_true (bodyAnswered_of_none hnone) fun h => by cases h
            | true =>
                rw [bodyAnswered_signed hload hsign htruthy]
                simp only [true_implies]
      · have hraise : verifyWebhook rt md5 apiKey body = .error .attributeError := by
          rw [verifyWebhook, hload]
          cases v with
          | obj data => exact absurd ⟨data, rfl⟩ hobj
          | _ => rfl
        refine iff_of_false ?_ ?_
        · rintro ⟨r, hr, -⟩
          cases hraise.symm.trans hr
        · rintro ⟨data, hdata, -⟩
          exact hobj ⟨data, hdata⟩

end Bodies

/-! ### Init data -/

section Inits

variable {rt : Runtime} {hmac : List UInt8 → List UInt8 → List.Vector UInt8 32} {clock : Clock rt.floats}

/-- `s.encode()` raises on surrogates only. -/
lemma encodeText_cases (s : List ℕ) :
    s.any isSurrogate = false ∧ encodeText s = .ok ((s.flatMap Utf8.encode).map UInt8.ofNat)
      ∨ s.any isSurrogate = true ∧ encodeText s = .error .unicodeEncodeError := by
  cases h : s.any isSurrogate with
  | false => exact .inl ⟨rfl, by rw [encodeText, h]; rfl⟩
  | true => exact .inr ⟨rfl, by rw [encodeText, h]; rfl⟩

variable (hmac) in
/-- A signature is made of a token and a text without surrogates, and of no others. -/
lemma signatureOf_cases (botToken check : List ℕ) :
    (botToken.any isSurrogate = false ∧ check.any isSurrogate = false
        ∧ ∃ digest, signatureOf hmac botToken check = .ok (hexdigest digest))
      ∨ ¬ (botToken.any isSurrogate = false ∧ check.any isSurrogate = false)
        ∧ signatureOf hmac botToken check = .error .unicodeEncodeError := by
  rcases encodeText_cases botToken with ⟨htoken, hkey⟩ | ⟨htoken, hkey⟩
  · rcases encodeText_cases check with ⟨hcheck, htext⟩ | ⟨hcheck, htext⟩
    · refine .inl ⟨htoken, hcheck, ?_⟩
      rw [signatureOf, hkey, ok_bind, htext, ok_bind]
      exact ⟨_, rfl⟩
    · refine .inr ⟨by simp [hcheck], ?_⟩
      rw [signatureOf, hkey, ok_bind, htext]
      rfl
  · refine .inr ⟨by simp [htoken], ?_⟩
    rw [signatureOf, hkey]
    rfl

/-- No name and no value has a surrogate. -/
def Encodable (pairs : Fields) : Prop :=
  ∀ p ∈ pairs, p.1.any isSurrogate = false ∧ p.2.any isSurrogate = false

lemma checkText_encodable (pairs : Fields) :
    (checkText pairs).any isSurrogate = false ↔ Encodable pairs := by
  have hline : ∀ p : List ℕ × List ℕ, (fieldLine p).any isSurrogate = false
      ↔ p.1.any isSurrogate = false ∧ p.2.any isSurrogate = false := by
    intro p
    rw [fieldLine, List.any_append, List.any_cons, Bool.or_eq_false_iff, Bool.or_eq_false_iff]
    exact ⟨fun h => ⟨h.1, h.2.2⟩, fun h => ⟨h.1, rfl, h.2⟩⟩
  simp only [Encodable, ← hline]
  constructor
  · intro h p hp
    refine List.any_eq_false.mpr fun c hc => ?_
    have hmem : fieldLine p ∈ (pairs.insertionSort fun p q => p.1 ≤ q.1).map fieldLine :=
      List.mem_map_of_mem ((List.mem_insertionSort _).mpr hp)
    exact List.any_eq_false.mp h c (Blocks.mem_intercalate_of_mem hmem hc)
  · intro h
    refine List.any_eq_false.mpr fun c hc => ?_
    rcases Blocks.mem_of_mem_intercalate hc with hc | ⟨line, hmem, hc⟩
    · rw [List.mem_singleton.mp hc]
      decide
    · obtain ⟨p, hp, rfl⟩ := List.mem_map.mp hmem
      exact List.any_eq_false.mp (h p ((List.mem_insertionSort _).mp hp)) c hc

/-- Init data are answered: nothing is raised, and what is returned is an object
whose `id` is an integer. -/
def InitAnswered (rt : Runtime) (hmac : List UInt8 → List UInt8 → List.Vector UInt8 32)
    (clock : Clock rt.floats) (initData botToken : List ℕ) (now : Option rt.floats.F) : Prop :=
  ∃ r, verifyInitData rt hmac clock initData botToken now = .ok r
    ∧ ∀ user, r = some user → ∃ id, lookup user idKey = some id ∧ isInt id = true

/-- What the fields may be: no surrogates, and a hash of ASCII characters; behind a
right signature, a date that becomes a `float` and a user that is not nested too
deep for `json.loads`. -/
structure FieldsFine (rt : Runtime) (hmac : List UInt8 → List UInt8 → List.Vector UInt8 32)
    (botToken got : List ℕ) (pairs : Fields) : Prop where
  token : botToken.any isSurrogate = false
  encodable : Encodable pairs
  hash : isAscii got = true
  date : signatureOf hmac botToken (checkText pairs) = .ok got →
    ∀ n, authDate pairs = some n → n.natAbs < Numerals.floatBound
  user : signatureOf hmac botToken (checkText pairs) = .ok got → authDate pairs ≠ none →
    userValue rt pairs ≠ .error .recursion

/-- The fields are fine, where there is a hash to compare. -/
def SafeInit (rt : Runtime) (hmac : List UInt8 → List UInt8 → List.Vector UInt8 32)
    (initData botToken : List ℕ) : Prop :=
  ∀ fields got, Query.parseQsl initData = some fields → lookup (dictOf fields) hashKey = some got →
    got ≠ [] → botToken ≠ [] → FieldsFine rt hmac botToken got (withoutHash (dictOf fields))

/-- A user that is returned has an integer `id`. -/
lemma id_of_userWithId {v : rt.Value} {user : Members rt} (h : userWithId v = some user) :
    ∃ id, lookup user idKey = some id ∧ isInt id = true := by
  unfold userWithId at h
  split at h
  · obtain ⟨hid, heq⟩ := Option.ite_none_right_eq_some.mp h
    obtain rfl := Option.some.inj heq
    exact (Option.any_eq_true _ _).mp hid
  · cases h

/-- Behind a right signature the date and the user decide. -/
lemma readUser_answers (pairs : Fields) (now : Option rt.floats.F) :
    (∃ r, readUser rt clock pairs now = .ok r
        ∧ ∀ user, r = some user → ∃ id, lookup user idKey = some id ∧ isInt id = true)
      ↔ (∀ n, authDate pairs = some n → n.natAbs < Numerals.floatBound)
        ∧ (authDate pairs ≠ none → userValue rt pairs ≠ .error .recursion) := by
  have hnone : ∀ user : Members rt, none = some user →
      ∃ id, lookup user idKey = some id ∧ isInt id = true :=
    fun user h => (Option.some_ne_none user h.symm).elim
  cases hdate : authDate pairs with
  | none =>
      have hread : readUser rt clock pairs now = .ok none := by rw [readUser, hdate]
      exact iff_of_true ⟨none, hread, hnone⟩
        ⟨fun n h => (Option.some_ne_none n h.symm).elim, fun h => absurd rfl h⟩
  | some date =>
      simp only [Option.some.injEq, forall_eq', ne_eq, reduceCtorEq, not_false_eq_true, true_implies]
      rw [← clock.minus_isSome (clock.at now) date]
      cases hage : clock.minus (clock.at now) date with
      | none =>
          have hread : readUser rt clock pairs now = .error .overflowError := by
            simp only [readUser, hdate, hage]
          refine iff_of_false ?_ fun h => Bool.false_ne_true h.1
          rintro ⟨r, hr, -⟩
          cases hread.symm.trans hr
      | some age =>
          cases huser : userValue rt pairs with
          | error e =>
              cases e with
              | invalid =>
                  have hread : readUser rt clock pairs now = .ok none := by
                    simp only [readUser, hdate, hage, huser]
                  exact iff_of_true ⟨none, hread, hnone⟩ ⟨rfl, by simp⟩
              | recursion =>
                  have hread : readUser rt clock pairs now = .error .recursionError := by
                    simp only [readUser, hdate, hage, huser]
                  refine iff_of_false ?_ fun h => h.2 rfl
                  rintro ⟨r, hr, -⟩
                  cases hread.symm.trans hr
          | ok v =>
              have hread : readUser rt clock pairs now =
                  .ok (if clock.tooOld age then none else userWithId v) := by
                simp only [readUser, hdate, hage, huser]
              refine iff_of_true ⟨_, hread, fun user h => ?_⟩ ⟨rfl, by simp⟩
              exact id_of_userWithId (Option.ite_none_left_eq_some.mp h).2

/-- Where there is a hash, it is compared with the signature. -/
lemma verifyInitData_eq {initData botToken got : List ℕ} {fields : Fields} (now : Option rt.floats.F)
    (hparse : Query.parseQsl initData = some fields) (hgot : lookup (dictOf fields) hashKey = some got)
    (hne : ¬ (got = [] ∨ botToken = [])) :
    verifyInitData rt hmac clock initData botToken now = (do
      let want ← signatureOf hmac botToken (checkText (withoutHash (dictOf fields)))
      let same ← compareDigest want got
      if same then readUser rt clock (withoutHash (dictOf fields)) now else .ok none) := by
  simp only [verifyInitData, hparse, hgot, if_neg hne]

/-- A hash is compared. -/
lemma initAnswered_hashed {initData botToken got : List ℕ} {fields : Fields} (now : Option rt.floats.F)
    (hparse : Query.parseQsl initData = some fields) (hgot : lookup (dictOf fields) hashKey = some got)
    (hne : ¬ (got = [] ∨ botToken = [])) :
    InitAnswered rt hmac clock initData botToken now
      ↔ FieldsFine rt hmac botToken got (withoutHash (dictOf fields)) := by
  rw [InitAnswered, verifyInitData_eq now hparse hgot hne]
  generalize withoutHash (dictOf fields) = pairs
  rcases signatureOf_cases hmac botToken (checkText pairs) with
    ⟨htoken, hcheck, digest, hsign⟩ | ⟨hnot, hsign⟩
  · have hencodable := (checkText_encodable pairs).mp hcheck
    rw [hsign, ok_bind]
    by_cases hascii : isAscii got = true
    · have hsame : compareDigest (hexdigest digest) got = .ok (decide (hexdigest digest = got)) := by
        rw [compareDigest, isAscii_hexdigest, hascii]
        rfl
      rw [hsame, ok_bind]
      by_cases heq : hexdigest digest = got
      · rw [if_pos (decide_eq_true heq), readUser_answers]
        have hright : signatureOf hmac botToken (checkText pairs) = .ok got := heq ▸ hsign
        exact ⟨fun h => ⟨htoken, hencodable, hascii, fun _ => h.1, fun _ => h.2⟩,
          fun h => ⟨h.date hright, h.user hright⟩⟩
      · rw [if_neg (by simpa using heq)]
        have hwrong : signatureOf hmac botToken (checkText pairs) ≠ .ok got := by
          rw [hsign]
          exact fun h => heq (Except.ok.inj h)
        exact iff_of_true ⟨none, rfl, fun user h => (Option.some_ne_none user h.symm).elim⟩
          ⟨htoken, hencodable, hascii, fun h => absurd h hwrong, fun h => absurd h hwrong⟩
    · have hraise : compareDigest (hexdigest digest) got = .error .typeError := by
        rw [compareDigest, isAscii_hexdigest, Bool.eq_false_iff.mpr hascii]
        rfl
      rw [hraise]
      refine iff_of_false ?_ fun h => hascii h.hash
      rintro ⟨r, hr, -⟩
      cases hr
  · rw [hsign]
    refine iff_of_false ?_ fun h => hnot ⟨h.token, (checkText_encodable pairs).mpr h.encodable⟩
    rintro ⟨r, hr, -⟩
    cases hr

/-- **Which init data are answered.** -/
lemma initAnswered_iff (initData botToken : List ℕ) (now : Option rt.floats.F) :
    InitAnswered rt hmac clock initData botToken now ↔ SafeInit rt hmac initData botToken := by
  have hnone : verifyInitData rt hmac clock initData botToken now = .ok none →
      InitAnswered rt hmac clock initData botToken now :=
    fun h => ⟨none, h, fun user h => (Option.some_ne_none user h.symm).elim⟩
  cases hparse : Query.parseQsl initData with
  | none =>
      refine iff_of_true (hnone ?_) fun fields got h => ?_
      · simp only [verifyInitData, hparse]
      · cases hparse.symm.trans h
  | some fields =>
      cases hgot : lookup (dictOf fields) hashKey with
      | none =>
          refine iff_of_true (hnone ?_) fun fields' got h hlook => ?_
          · simp only [verifyInitData, hparse, hgot]
          · obtain rfl := Option.some.inj (hparse.symm.trans h)
            cases hgot.symm.trans hlook
      | some got =>
          by_cases hempty : got = [] ∨ botToken = []
          · refine iff_of_true (hnone ?_) fun fields' got' h hlook hg ht => ?_
            · simp only [verifyInitData, hparse, hgot, if_pos hempty]
            · obtain rfl := Option.some.inj (hparse.symm.trans h)
              obtain rfl := Option.some.inj (hgot.symm.trans hlook)
              exact absurd hempty (not_or.mpr ⟨hg, ht⟩)
          · rw [initAnswered_hashed now hparse hgot hempty]
            constructor
            · intro hfine fields' got' h hlook _ _
              obtain rfl := Option.some.inj (hparse.symm.trans h)
              obtain rfl := Option.some.inj (hgot.symm.trans hlook)
              exact hfine
            · intro hsafe
              obtain ⟨hg, ht⟩ := not_or.mp hempty
              exact hsafe fields got hparse hgot hg ht

end Inits

/-! ### Both authenticators -/

/-- **Where the authenticators answer.** A webhook is answered exactly if its body is
safe, and init data exactly if they are, at any time. -/
theorem authenticators_answer_iff (rt : Runtime) (md5 : List UInt8 → List.Vector UInt8 16)
    (apiKey : List Char) (hmac : List UInt8 → List UInt8 → List.Vector UInt8 32)
    (clock : Clock rt.floats) :
    (∀ body, BodyAnswered rt md5 apiKey body ↔ SafeBody rt body)
      ∧ ∀ initData botToken now,
        InitAnswered rt hmac clock initData botToken now ↔ SafeInit rt hmac initData botToken :=
  ⟨bodyAnswered_iff, initAnswered_iff⟩

/-- A clock for the runtime without floats. -/
def plainClock : Clock plainRuntime.floats where
  time := ()
  minus _ n := if n.natAbs < Numerals.floatBound then some () else none
  tooOld _ := false
  minus_isSome _ n := by
    split
    · rename_i h
      exact iff_of_true rfl h
    · rename_i h
      exact iff_of_false Bool.false_ne_true h

/-- **Unsigned texts raise.** The body `[]` is JSON without a `get`
(`AttributeError`), and `hash=%C3%A9` is a hash that `compare_digest` refuses
(`TypeError`). -/
theorem unsigned_texts_raise :
    ¬ BodyAnswered plainRuntime orderMd5 ['k'] [0x5B, 0x5D]
      ∧ ¬ InitAnswered plainRuntime (fun _ _ => List.Vector.replicate 32 0) plainClock
          ("hash=%C3%A9".toList.map Char.toNat) ("1:a".toList.map Char.toNat) none := by
  constructor
  · have hraise : verifyWebhook plainRuntime orderMd5 ['k'] [0x5B, 0x5D] = .error .attributeError := rfl
    rintro ⟨r, hr, -⟩
    cases hraise.symm.trans hr
  · intro h
    have hfine := (initAnswered_iff _ _ _).mp h [(hashKey, [0xE9])] [0xE9] (by decide)
      (by decide) (by decide) (by decide)
    exact Bool.false_ne_true hfine.hash

end VpnPortal.InitData
