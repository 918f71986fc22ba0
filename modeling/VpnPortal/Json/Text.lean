/-
What Python makes of JSON values and of texts (`str`, `bool`, `str.encode`,
`hmac.compare_digest`), with the exceptions these raise.

* `Raised`: the exceptions;
* `truthy`, `reprText`, `pyRepr`, `pyStr`: values in conditions and as texts;
* `encodeText`: UTF-8, which has no surrogates;
* `compareDigest`: of ASCII texts only;
* `hexdigest`: the digits of a digest.
-/
import VpnPortal.Json.Read
import VpnPortal.Text.Utf8

namespace JsonText

/-- The exceptions. -/
inductive Raised where
  | attributeError | typeError | recursionError | overflowError | unicodeEncodeError
  deriving DecidableEq, Repr

/-- What the interpreter brings along. -/
structure Runtime where
  floats : FloatLib
  /-- How deep containers may be nested for `json.loads` and `json.dumps`. -/
  limit : ℕ
  /-- How deep they may be nested for `str`. -/
  strLimit : ℕ
  /-- `str.isprintable` of a character beyond ASCII. -/
  printable : ℕ → Bool

variable (rt : Runtime)

/-- A value of this interpreter. -/
abbrev Runtime.Value : Type := JsonText.Value rt.floats.F

variable {rt}

/-- `bool(v)` -/
def truthy : rt.Value → Bool
  | .null => false
  | .bool b => b
  | .int n => n ≠ 0
  | .float x => !rt.floats.isZero x
  | .str s => s ≠ []
  | .arr xs => !xs.isEmpty
  | .obj ms => !ms.isEmpty

/-! ### Texts -/

def isSurrogate (c : ℕ) : Bool := 0xD800 ≤ c && c ≤ 0xDFFF

def isAscii (s : List ℕ) : Bool := s.all fun c => c < 0x80

/-- The last `k` hexadecimal digits of a number. -/
def hexDigits : ℕ → ℕ → List ℕ
  | 0, _ => []
  | k + 1, n => hexDigits k (n / 16) ++ [hexDigit (n % 16)]

/-- A character within `repr` of a text. -/
def reprChar (printable : ℕ → Bool) (quote c : ℕ) : List ℕ :=
  if c = quote ∨ c = 0x5C then [0x5C, c]
  else if c = 0x09 then [0x5C, 0x74]
  else if c = 0x0A then [0x5C, 0x6E]
  else if c = 0x0D then [0x5C, 0x72]
  else if 0x20 ≤ c ∧ c < 0x7F then [c]
  else if 0x80 ≤ c ∧ printable c then [c]
  else if c < 0x100 then [0x5C, 0x78] ++ hexDigits 2 c
  else if c < 0x10000 then [0x5C, 0x75] ++ hexDigits 4 c
  else [0x5C, 0x55] ++ hexDigits 8 c

/-- `repr` of a text: in single quotes, unless only those are in it. -/
def reprText (printable : ℕ → Bool) (s : List ℕ) : List ℕ :=
  let quote := if 0x27 ∈ s ∧ 0x22 ∉ s then 0x22 else 0x27
  quote :: (s.flatMap (reprChar printable quote) ++ [quote])

mutual

/-- `repr(v)` -/
def pyRepr : rt.Value → List ℕ
  | .null => [0x4E, 0x6F, 0x6E, 0x65]
  | .bool true => [0x54, 0x72, 0x75, 0x65]
  | .bool false => [0x46, 0x61, 0x6C, 0x73, 0x65]
  | .int n => intText n
  | .float x => (rt.floats.repr x).map Fin.val
  | .str s => reprText rt.printable s
  | .arr xs => 0x5B :: ([0x2C, 0x20].intercalate (reprItems xs) ++ [0x5D])
  | .obj ms => 0x7B :: ([0x2C, 0x20].intercalate (reprMembers ms) ++ [0x7D])

def reprItems : List rt.Value → List (List ℕ)
  | [] => []
  | x :: xs => pyRepr x :: reprItems xs

def reprMembers : List (List ℕ × rt.Value) → List (List ℕ)
  | [] => []
  | (k, x) :: ms => (reprText rt.printable k ++ [0x3A, 0x20] ++ pyRepr x) :: reprMembers ms

end

/-- The text of `str(v)`. -/
def strText : rt.Value → List ℕ
  | .str s => s
  | v => pyRepr v

/-- `str(v)` -/
def pyStr (v : rt.Value) : Except Raised (List ℕ) :=
  if rt.strLimit < v.depth then .error .recursionError else .ok (strText v)

/-- `s.encode()` -/
def encodeText (s : List ℕ) : Except Raised (List UInt8) :=
  if s.any isSurrogate then .error .unicodeEncodeError
  else .ok ((s.flatMap Utf8.encode).map UInt8.ofNat)

/-- `hmac.compare_digest` of two texts. -/
def compareDigest (a b : List ℕ) : Except Raised Bool :=
  if isAscii a && isAscii b then .ok (a = b) else .error .typeError

/-- `hexdigest` of the bytes of a digest. -/
def hexdigest (bytes : List UInt8) : List ℕ :=
  bytes.flatMap fun b => [hexDigit (b.toNat / 16), hexDigit (b.toNat % 16)]

/-! ### Plain texts -/

lemma hexdigest_bounds {bytes : List UInt8} {c : ℕ} (h : c ∈ hexdigest bytes) :
    0x30 ≤ c ∧ c ≤ 0x66 := by
  obtain ⟨b, -, hc⟩ := List.mem_flatMap.mp h
  have hb : b.toNat < 256 := b.toNat_lt
  simp only [List.mem_cons, List.not_mem_nil, or_false] at hc
  rcases hc with rfl | rfl
  · exact hexDigit_bounds (by omega)
  · exact hexDigit_bounds (Nat.mod_lt _ (by norm_num))

lemma isAscii_hexdigest (bytes : List UInt8) : isAscii (hexdigest bytes) = true := by
  refine List.all_eq_true.mpr fun c hc => decide_eq_true ?_
  have hbounds := hexdigest_bounds hc
  omega

lemma encodeText_ascii {s : List ℕ} (h : ∀ c ∈ s, c < 0x80) :
    encodeText s = .ok (s.map UInt8.ofNat) := by
  have hnone : s.any isSurrogate = false := by
    refine List.any_eq_false.mpr fun c hc => ?_
    have hlt := h c hc
    simp only [isSurrogate, Bool.and_eq_true, decide_eq_true_eq]
    omega
  have hflat : s.flatMap Utf8.encode = s := by
    have hone : ∀ c ∈ s, Utf8.encode c = [c] := fun c hc => by rw [Utf8.encode, if_pos (h c hc)]
    rw [List.flatMap_congr hone, List.flatMap_singleton']
  rw [encodeText, hnone, hflat]
  rfl

end JsonText
