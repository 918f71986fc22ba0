/-
JSON as Python reads it from bytes (`json.loads` of a body).

The encoding is told from the first bytes, by a mark or by where the zeros stand;
surrogates that stand alone pass in each of them.

* `Encoding`, `detectEncoding`: UTF-8, UTF-16 or UTF-32, told from the first bytes;
* `decodeUtf16`, `decodeUtf32`, `decode`: the text of the bytes;
* `loadsBytes`, `loadsBytes_ascii`: `json.loads` of a body; one of ASCII characters is
  read as the text that it is.
-/
import VpnPortal.Json.Read
import VpnPortal.Text.Utf8

namespace JsonText

/-- The encodings that are told apart; with a mark, the mark is no character. -/
inductive Encoding where
  | utf8 (mark : Bool)
  | utf16 (mark little : Bool)
  | utf32 (mark little : Bool)
  deriving DecidableEq, Repr

/-- `detect_encoding` -/
def detectEncoding (b : List ℕ) : Encoding :=
  if [0x00, 0x00, 0xFE, 0xFF].isPrefixOf b then .utf32 true false
  else if [0xFF, 0xFE, 0x00, 0x00].isPrefixOf b then .utf32 true true
  else if [0xFE, 0xFF].isPrefixOf b then .utf16 true false
  else if [0xFF, 0xFE].isPrefixOf b then .utf16 true true
  else if [0xEF, 0xBB, 0xBF].isPrefixOf b then .utf8 true
  else match b with
  | b₀ :: b₁ :: b₂ :: b₃ :: _ =>
      if b₀ = 0 then (if b₁ = 0 then .utf32 false false else .utf16 false false)
      else if b₁ = 0 then (if b₂ = 0 ∧ b₃ = 0 then .utf32 false true else .utf16 false true)
      else .utf8 false
  | [b₀, b₁] =>
      if b₀ = 0 then .utf16 false false else if b₁ = 0 then .utf16 false true else .utf8 false
  | _ => .utf8 false

/-- The units of two bytes, if the bytes come in pairs. -/
def units (little : Bool) : List ℕ → Option (List ℕ)
  | [] => some []
  | [_] => none
  | a :: b :: rest => (units little rest).map ((if little then 256 * b + a else 256 * a + b) :: ·)

/-- The characters of the units. -/
def joinUnits : List ℕ → List ℕ
  | [] => []
  | [u] => [u]
  | hi :: lo :: rest =>
      if isHigh hi && isLow lo then joinPair hi lo :: joinUnits rest
      else hi :: joinUnits (lo :: rest)

/-- `bytes.decode("utf-16-le", "surrogatepass")`, or `be`. -/
def decodeUtf16 (little : Bool) (b : List ℕ) : Option (List ℕ) := (units little b).map joinUnits

/-- `bytes.decode("utf-32-le", "surrogatepass")`, or `be`. -/
def decodeUtf32 (little : Bool) : List ℕ → Option (List ℕ)
  | [] => some []
  | a :: b :: c :: d :: rest =>
      let n := if little then ((256 * d + c) * 256 + b) * 256 + a else ((256 * a + b) * 256 + c) * 256 + d
      if n < 0x110000 then (decodeUtf32 little rest).map (n :: ·) else none
  | _ => none

/-- The text of a body, if it can be decoded. -/
def decode (b : List ℕ) : Option (List ℕ) :=
  match detectEncoding b with
  | .utf8 mark => Utf8.decodePass (if mark then b.drop 3 else b)
  | .utf16 mark little => decodeUtf16 little (if mark then b.drop 2 else b)
  | .utf32 mark little => decodeUtf32 little (if mark then b.drop 4 else b)

variable {L : FloatLib}

/-- `json.loads` of bytes. -/
def loadsBytes (limit : ℕ) (body : List UInt8) : Except Fault (Value L.F) :=
  match decode (body.map UInt8.toNat) with
  | none => .error .invalid
  | some s => loads limit s

lemma decode_ascii {b : List ℕ} (h : ∀ c ∈ b, 0 < c ∧ c < 0x80) : decode b = some b := by
  have hmark : ∀ p q, (∀ x ∈ p.head?, ¬ (0 < x ∧ x < 0x80)) → p ≠ [] →
      (p ++ q).isPrefixOf b = false := by
    intro p q hp hne
    by_contra hprefix
    obtain ⟨t, rfl⟩ := List.isPrefixOf_iff_prefix.mp (eq_true_of_ne_false hprefix)
    cases p with
    | nil => exact hne rfl
    | cons x p => exact hp x rfl (h x (by simp))
  have hencoding : detectEncoding b = .utf8 false := by
    have h₁ := hmark [0x00] [0x00, 0xFE, 0xFF] (by simp) (by simp)
    have h₂ := hmark [0xFF] [0xFE, 0x00, 0x00] (by simp) (by simp)
    have h₃ := hmark [0xFE] [0xFF] (by simp) (by simp)
    have h₄ := hmark [0xFF] [0xFE] (by simp) (by simp)
    have h₅ := hmark [0xEF] [0xBB, 0xBF] (by simp) (by simp)
    simp only [List.singleton_append] at h₁ h₂ h₃ h₄ h₅
    have hpos : ∀ c ∈ b, ¬ c = 0 := fun c hc => by
      have := (h c hc).1
      omega
    simp only [detectEncoding, h₁, h₂, h₃, h₄, h₅, Bool.false_eq_true, if_false]
    split
    · rename_i b₀ b₁ b₂ b₃ rest
      rw [if_neg (hpos b₀ (by simp)), if_neg (hpos b₁ (by simp))]
    · rename_i b₀ b₁
      rw [if_neg (hpos b₀ (by simp)), if_neg (hpos b₁ (by simp))]
    · rfl
  rw [decode, hencoding]
  exact Utf8.decodePass_ascii fun c hc => (h c hc).2

/-- A body of ASCII characters is read as the text that it is. -/
lemma loadsBytes_ascii {limit : ℕ} {s : List ℕ} (h : ∀ c ∈ s, 0 < c ∧ c < 0x80) :
    loadsBytes limit (s.map UInt8.ofNat) = (loads limit s : Except Fault (Value L.F)) := by
  have hbytes : (s.map UInt8.ofNat).map UInt8.toNat = s := by
    rw [List.map_map]
    refine (List.map_congr_left fun c hc => ?_).trans (List.map_id _)
    have hlt := (h c hc).2
    rw [Function.comp_apply, UInt8.toNat_ofNat']
    exact Nat.mod_eq_of_lt (by omega)
  rw [loadsBytes, hbytes, decode_ascii h]

end JsonText
