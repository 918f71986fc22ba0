/-
The signatures of the payment gateway (`pwa/services/heleket.py`).

A body is signed as PHP writes it, and `_serialize` writes it again from what was
read. For objects without floats the two agree to the byte, so a webhook is
accepted wherever its `sign` stands among the members.

* `serialize`, `makeSign`, `verifyWebhook`: the gateway's texts and signatures;
* `serialize_eq`: `_serialize` writes what `json_encode` writes;
* `makeSign_eq`: a signature is always made;
* `signed_body_accepted`: **a signed body is accepted**, wherever its `sign` stands.
-/
import VpnPortal.Json.Bytes
import VpnPortal.Json.RoundTrip
import VpnPortal.Json.Text
import VpnPortal.Text.Base64

namespace VpnPortal.Heleket

open JsonText

/-! ### The service -/

variable (rt : Runtime) (md5 : List UInt8 → List.Vector UInt8 16) (apiKey : List Char)

/-- The members of an object. -/
abbrev Members : Type := List (List ℕ × rt.Value)

/-- What `json.dumps` writes for a float. -/
def dumpFloat (x : rt.floats.F) : List ℕ := (rt.floats.dump x).map Fin.val

/-- `_serialize` of an object that was read. -/
def serialize (payload : Members rt) : Except Raised (List ℕ) :=
  if rt.limit < (Value.obj payload).depth then .error .recursionError
  else .ok (escapeSlash (write (pyWriter (dumpFloat rt)) (.obj payload)))

/-- `_make_sign` -/
def makeSign (bodyStr : List ℕ) : Except Raised (List ℕ) := do
  let body ← encodeText bodyStr
  let signed ← encodeText ((Base64.encode body ++ apiKey).map Char.toNat)
  return hexdigest (md5 signed).toList

/-- `"sign"` -/
def signKey : List ℕ := [0x73, 0x69, 0x67, 0x6E]

/-- The body without its signature. -/
def unsigned {rt : Runtime} (data : Members rt) : Members rt := data.filter fun m => m.1 ≠ signKey

/-- `verify_webhook` -/
def verifyWebhook (rawBody : List UInt8) : Except Raised (Option (Members rt)) :=
  match (loadsBytes rt.limit rawBody : Except Fault rt.Value) with
  | .error _ => .ok none
  | .ok (.obj data) =>
      match lookup data signKey with
      | none => .ok none
      | some receivedSign =>
          if !truthy receivedSign then .ok none
          else do
            let bodyStr ← serialize rt (unsigned data)
            let expected ← makeSign md5 apiKey bodyStr
            let shown ← pyStr receivedSign
            let same ← compareDigest expected shown
            return if same then some data else none
  -- only an object has `.get`
  | .ok _ => .error .attributeError

/-- What PHP sends of an object; how it writes floats is left open. -/
def phpEncode {rt : Runtime} (phpFloat : rt.floats.F → List ℕ) (x : Members rt) : List ℕ :=
  write (phpWriter phpFloat) (.obj x)

/-- The object with a signature after its first `i` members. -/
def withSign {rt : Runtime} (x : Members rt) (i : ℕ) (sign : List ℕ) : Members rt :=
  x.take i ++ (signKey, .str sign) :: x.drop i

/-! ### Signatures -/

section

variable {rt md5 apiKey} {phpFloat : rt.floats.F → List ℕ} {x : Members rt}

/-- **`_serialize` writes what `json_encode` writes.** -/
lemma serialize_eq (hx : Exchanged (.obj x)) (hdepth : (Value.obj x).depth ≤ rt.limit) :
    serialize rt x = .ok (phpEncode phpFloat x) := by
  rw [serialize, if_neg (by omega), phpEncode]
  exact congrArg Except.ok (escapeSlash_write hx)

/-- The code points of a text of characters are no surrogates. -/
lemma encodeText_chars (s : List Char) : ∃ bytes, encodeText (s.map Char.toNat) = .ok bytes := by
  have hnone : (s.map Char.toNat).any isSurrogate = false := by
    refine List.any_eq_false.mpr fun n hn => ?_
    obtain ⟨c, -, rfl⟩ := List.mem_map.mp hn
    have hvalid : c.toNat < 0xD800 ∨ 0xDFFF < c.toNat ∧ c.toNat < 0x110000 := c.valid
    simp only [isSurrogate, Bool.and_eq_true, decide_eq_true_eq]
    omega
  exact ⟨_, by rw [encodeText, hnone]; rfl⟩

/-- **ASCII is always signed**, with 32 hexadecimal digits. -/
lemma makeSign_eq {body : List ℕ} (h : ∀ c ∈ body, c < 0x80) :
    ∃ digest : List.Vector UInt8 16, makeSign md5 apiKey body = .ok (hexdigest digest.toList) := by
  obtain ⟨bytes, hbytes⟩ := encodeText_chars (Base64.encode (body.map UInt8.ofNat) ++ apiKey)
  refine ⟨md5 bytes, ?_⟩
  rw [makeSign, encodeText_ascii h]
  simp only [ok_bind, hbytes]
  rfl

lemma length_hexdigest (bytes : List UInt8) : (hexdigest bytes).length = 2 * bytes.length := by
  induction bytes with
  | nil => rfl
  | cons b bytes ih =>
    have hcons : hexdigest (b :: bytes) =
        [hexDigit (b.toNat / 16), hexDigit (b.toNat % 16)] ++ hexdigest bytes := rfl
    rw [hcons, List.length_append, ih]
    simp only [List.length_cons, List.length_nil]
    omega

/-! ### The signature among the members -/

lemma withSign_perm (i : ℕ) (sign : List ℕ) :
    (withSign x i sign).Perm ((signKey, .str sign) :: x) := by
  rw [withSign]
  refine List.perm_middle.trans ?_
  rw [List.take_append_drop]

lemma exchanged_withSign (hx : Exchanged (.obj x)) (hnew : signKey ∉ x.map Prod.fst) (i : ℕ)
    {sign : List ℕ} (hsign : ∀ c ∈ sign, IsShared c) : Exchanged (.obj (withSign x i sign)) := by
  cases hx with
  | obj hnodup hkeys hms =>
    have hmem : ∀ m, m ∈ withSign x i sign ↔ m = (signKey, .str sign) ∨ m ∈ x := fun m => by
      rw [(withSign_perm i sign).mem_iff, List.mem_cons]
    refine .obj ?_ ?_ ?_
    · rw [((withSign_perm i sign).map Prod.fst).nodup_iff]
      exact List.nodup_cons.mpr ⟨hnew, hnodup⟩
    · intro m hm
      rcases (hmem m).mp hm with rfl | hm
      · have hchars : ∀ c ∈ signKey, c < 0xD800 ∧ c ≠ 0x7F := by decide
        exact fun c hc => ⟨⟨by have := (hchars c hc).1; omega, by have := (hchars c hc).1; omega⟩,
          (hchars c hc).2⟩
      · exact hkeys m hm
    · intro m hm
      rcases (hmem m).mp hm with rfl | hm
      · exact .str hsign
      · exact hms m hm

/-- A signature does not make the object deeper. -/
lemma depth_withSign (i : ℕ) (sign : List ℕ) :
    (Value.obj (withSign x i sign)).depth = (Value.obj x).depth := by
  have hsplit : depthOfMembers x = max (depthOfMembers (x.take i)) (depthOfMembers (x.drop i)) := by
    rw [← depthOfMembers_append, List.take_append_drop]
  have hleaf : (Value.str sign : Value rt.floats.F).depth = 0 := rfl
  rw [Value.depth, Value.depth, withSign, depthOfMembers_append, depthOfMembers, hleaf, hsplit,
    Nat.zero_max]

lemma lookup_withSign (hnew : signKey ∉ x.map Prod.fst) (i : ℕ) (sign : List ℕ) :
    lookup (withSign x i sign) signKey = some (.str sign) := by
  have hnone : (x.take i).find? (fun m => m.1 = signKey) = none := by
    rw [List.find?_eq_none]
    intro m hm
    rw [decide_eq_true_eq]
    rintro heq
    exact hnew (heq ▸ List.mem_map_of_mem (List.mem_of_mem_take hm))
  rw [lookup, withSign, List.find?_append, hnone, Option.none_or,
    List.find?_cons_of_pos (by simp)]
  rfl

lemma unsigned_withSign (hnew : signKey ∉ x.map Prod.fst) (i : ℕ) (sign : List ℕ) :
    unsigned (withSign x i sign) = x := by
  have hkeep : ∀ m ∈ x, m.1 ≠ signKey := by
    rintro m hm heq
    exact hnew (heq ▸ List.mem_map_of_mem hm)
  have hself : ∀ l : Members rt, (∀ m ∈ l, m ∈ x) → l.filter (fun m => m.1 ≠ signKey) = l := fun l hl =>
    List.filter_eq_self.mpr fun m hm => decide_eq_true (hkeep m (hl m hm))
  rw [unsigned, withSign, List.filter_append, hself _ fun m hm => List.mem_of_mem_take hm,
    List.filter_cons_of_neg (by simp), hself _ fun m hm => List.mem_of_mem_drop hm,
    List.take_append_drop]

/-- **A signed body is accepted**, wherever its signature stands. -/
lemma signed_body_accepted (hx : Exchanged (.obj x)) (hnew : signKey ∉ x.map Prod.fst)
    (hdepth : (Value.obj x).depth ≤ rt.limit) (i : ℕ) {sign : List ℕ}
    (hsign : makeSign md5 apiKey (phpEncode phpFloat x) = .ok sign) :
    verifyWebhook rt md5 apiKey ((phpEncode phpFloat (withSign x i sign)).map UInt8.ofNat) =
      .ok (some (withSign x i sign)) := by
  have hascii : ∀ c ∈ phpEncode phpFloat x, c < 0x80 := fun c hc => (write_bounds hx c hc).2
  obtain ⟨digest, hdigest⟩ : ∃ digest : List.Vector UInt8 16,
      makeSign md5 apiKey (phpEncode phpFloat x) = .ok (hexdigest digest.toList) := makeSign_eq hascii
  obtain rfl : hexdigest digest.toList = sign := Except.ok.inj (hdigest.symm.trans hsign)
  have hbounds : ∀ c ∈ hexdigest digest.toList, 0x30 ≤ c ∧ c ≤ 0x66 := fun c hc => hexdigest_bounds hc
  have hshared : ∀ c ∈ hexdigest digest.toList, IsShared c := fun c hc => by
    have hc := hbounds c hc
    exact ⟨⟨by omega, by omega⟩, by omega⟩
  have hne : hexdigest digest.toList ≠ [] := by
    intro hnil
    have hlen := length_hexdigest digest.toList
    rw [hnil, List.Vector.toList_length] at hlen
    cases hlen
  have hsigned := exchanged_withSign hx hnew i hshared
  have hread : (loadsBytes rt.limit ((phpEncode phpFloat (withSign x i
      (hexdigest digest.toList))).map UInt8.ofNat) : Except Fault rt.Value) =
        .ok (.obj (withSign x i (hexdigest digest.toList))) := by
    rw [loadsBytes_ascii fun c hc => ?_]
    · exact loads_write hsigned (by rw [depth_withSign]; exact hdepth)
    · have hc := write_bounds hsigned c hc
      omega
  have htruthy : truthy (.str (hexdigest digest.toList) : rt.Value) = true := by simp [truthy, hne]
  have hshown : pyStr (.str (hexdigest digest.toList) : rt.Value) = .ok (hexdigest digest.toList) := rfl
  have hsame : compareDigest (hexdigest digest.toList) (hexdigest digest.toList) = .ok true := by
    rw [compareDigest, isAscii_hexdigest]
    simp
  have hserial : serialize rt x = .ok (phpEncode phpFloat x) := serialize_eq hx hdepth
  simp only [verifyWebhook, hread, lookup_withSign hnew, htruthy, unsigned_withSign hnew,
    hserial, hsign, hshown, hsame, ok_bind]
  rfl

end

/-- **Signatures survive the second writing.** -/
theorem signatures_survive {x : Members rt} (phpFloat : rt.floats.F → List ℕ)
    (hx : Exchanged (.obj x)) (hnew : signKey ∉ x.map Prod.fst)
    (hdepth : (Value.obj x).depth ≤ rt.limit) :
    (loads rt.limit (phpEncode phpFloat x) = .ok (.obj x) ∧
      serialize rt x = .ok (phpEncode phpFloat x)) ∧
    (∀ (i : ℕ) (sign : List ℕ), makeSign md5 apiKey (phpEncode phpFloat x) = .ok sign →
      verifyWebhook rt md5 apiKey ((phpEncode phpFloat (withSign x i sign)).map UInt8.ofNat) =
        .ok (some (withSign x i sign))) ∧
    ∀ y : Members rt, Exchanged (.obj y) → (Value.obj y).depth ≤ rt.limit →
      serialize rt x = serialize rt y → x = y := by
  refine ⟨⟨loads_write hx hdepth, serialize_eq hx hdepth⟩,
    fun i sign hsign => signed_body_accepted hx hnew hdepth i hsign, fun y hy hydepth heq => ?_⟩
  have hx' : serialize rt x = .ok (phpEncode phpFloat x) := serialize_eq hx hdepth
  have hy' : serialize rt y = .ok (phpEncode phpFloat y) := serialize_eq hy hydepth
  have htext : phpEncode phpFloat x = phpEncode phpFloat y :=
    Except.ok.inj (hx'.symm.trans (heq.trans hy'))
  have hread : loads rt.limit (phpEncode phpFloat x) = .ok (.obj x) := loads_write hx hdepth
  have hready : loads rt.limit (phpEncode phpFloat y) = .ok (.obj y) := loads_write hy hydepth
  rw [htext, hready] at hread
  injection hread with hobj
  injection hobj with hms
  exact hms.symm

/-- A runtime whose floats are never asked for. -/
def plainRuntime : Runtime where
  floats := ⟨Unit, fun _ => (), (), (), (), fun _ => false, fun _ => [], fun _ => []⟩
  limit := 1000
  strLimit := 1000
  printable := fun _ => true

/-- An order whose text has a slash and characters of both sizes. -/
def order : Members plainRuntime :=
  [([0x6F], .str [0x61, 0x2F, 0xE9, 0x1F600])]

/-- The digest of the order with the key `k`. -/
def orderDigest : List.Vector UInt8 16 :=
  ⟨[68, 50, 127, 218, 62, 49, 181, 176, 3, 246, 135, 177, 203, 43, 221, 77], rfl⟩

/-- MD5 of what is signed of the order. -/
def orderMd5 (data : List UInt8) : List.Vector UInt8 16 :=
  if data.map UInt8.toNat = ("eyJvIjoiYVwvXHUwMGU5XHVkODNkXHVkZTAwIn0=k".toList.map Char.toNat) then orderDigest
  else List.Vector.replicate 16 0

theorem signatures_survive_order :
    verifyWebhook plainRuntime orderMd5 ['k']
        ((phpEncode (fun _ => []) (withSign order 1 (hexdigest orderDigest.toList))).map UInt8.ofNat) =
      .ok (some (withSign order 1 (hexdigest orderDigest.toList))) := by
  have hshared : ∀ s : List ℕ, (∀ c ∈ s, c < 0xD800 ∧ c ≠ 0x7F ∨ c = 0x1F600) →
      ∀ c ∈ s, IsShared c := by
    intro s hs c hc
    have := hs c hc
    exact ⟨⟨by omega, by omega⟩, by omega⟩
  have hx : Exchanged (.obj order) := by
    refine .obj (by decide) ?_ ?_
    · exact fun m hm => by
        rw [List.mem_singleton.mp hm]
        exact hshared _ (by decide)
    · intro m hm
      rw [List.mem_singleton.mp hm]
      exact .str (hshared _ (by decide))
  have h := signatures_survive plainRuntime orderMd5 ['k'] (fun _ => []) hx (by decide)
    (by decide)
  exact h.2.1 1 _ (by decide +kernel)

end VpnPortal.Heleket
