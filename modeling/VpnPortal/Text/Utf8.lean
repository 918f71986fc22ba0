/-
UTF-8, over numbers for bytes and code points.

The decoder reads byte by byte and replaces what is no character: a sequence that
breaks off becomes one replacement character, and the byte that broke it off is
read again as a first byte. So it never has more characters than bytes.

* `encode`: the bytes of a code point;
* `Pending`, `start`, `step`, `decodeReplace`: the decoder that replaces;
* `decodeReplace_ascii`, `length_decodeReplace`, `decodeReplace_lt`: ASCII is read as it
  is, no more characters than bytes come out, and they are code points;
* `decodePass`: the decoder that stops, but lets surrogates pass;
* `decodePass_encode`, `encode_injective`: what was encoded is read back.
-/
import Mathlib.Data.List.Basic
import Mathlib.Tactic

namespace Utf8

/-- The bytes of a code point. -/
def encode (n : ℕ) : List ℕ :=
  if n < 0x80 then [n]
  else if n < 0x800 then [0xC0 + n / 64, 0x80 + n % 64]
  else if n < 0x10000 then [0xE0 + n / 4096, 0x80 + n / 64 % 64, 0x80 + n % 64]
  else [0xF0 + n / 262144, 0x80 + n / 4096 % 64, 0x80 + n / 64 % 64, 0x80 + n % 64]

/-- The replacement character. -/
def replacement : ℕ := 0xFFFD

/-- A sequence under way: how many bytes it still needs, the bounds of the next
one and the bits so far. -/
structure Pending where
  need : ℕ
  lo : ℕ
  hi : ℕ
  bits : ℕ

/-- A first byte. -/
def start (b : ℕ) : List ℕ × Option Pending :=
  if b < 0x80 then ([b], none)
  else if 0xC2 ≤ b ∧ b ≤ 0xDF then ([], some ⟨1, 0x80, 0xBF, b - 0xC0⟩)
  else if 0xE0 ≤ b ∧ b ≤ 0xEF then
    ([], some ⟨2, if b = 0xE0 then 0xA0 else 0x80, if b = 0xED then 0x9F else 0xBF, b - 0xE0⟩)
  else if 0xF0 ≤ b ∧ b ≤ 0xF4 then
    ([], some ⟨3, if b = 0xF0 then 0x90 else 0x80, if b = 0xF4 then 0x8F else 0xBF, b - 0xF0⟩)
  else ([replacement], none)

/-- One byte. -/
def step : Option Pending → ℕ → List ℕ × Option Pending
  | none, b => start b
  | some p, b =>
      if p.lo ≤ b ∧ b ≤ p.hi then
        let bits := p.bits * 64 + (b - 0x80)
        if p.need = 1 then ([bits], none) else ([], some ⟨p.need - 1, 0x80, 0xBF, bits⟩)
      else (replacement :: (start b).1, (start b).2)

/-- The characters of the bytes, from where the decoder is. -/
def decodeFrom : Option Pending → List ℕ → List ℕ
  | none, [] => []
  | some _, [] => [replacement]
  | s, b :: rest => (step s b).1 ++ decodeFrom (step s b).2 rest

/-- `bytes.decode("utf-8", "replace")` -/
def decodeReplace (bytes : List ℕ) : List ℕ := decodeFrom none bytes

lemma decodeReplace_ascii {bytes : List ℕ} (h : ∀ b ∈ bytes, b < 0x80) :
    decodeReplace bytes = bytes := by
  unfold decodeReplace
  induction bytes with
  | nil => rfl
  | cons b rest ih =>
    have hstep : step none b = ([b], none) := by
      rw [step, start, if_pos (h b List.mem_cons_self)]
    rw [decodeFrom, hstep, ih fun x hx => h x (List.mem_cons_of_mem _ hx)]
    rfl

lemma length_start (b : ℕ) :
    (start b).1.length + (if (start b).2.isSome then 1 else 0) = 1 := by
  unfold start
  split
  · rfl
  split
  · rfl
  split
  · rfl
  split
  · rfl
  · rfl

/-- A sequence under way counts for the character it becomes. -/
lemma length_step (s : Option Pending) (b : ℕ) :
    (step s b).1.length + (if (step s b).2.isSome then 1 else 0) ≤
      1 + (if s.isSome then 1 else 0) := by
  cases s with
  | none =>
    exact (length_start b).le
  | some p =>
    have hstart := length_start b
    rw [step]
    by_cases hin : p.lo ≤ b ∧ b ≤ p.hi
    · rw [if_pos hin]
      by_cases hone : p.need = 1
      · simp [hone]
      · simp [hone]
    · rw [if_neg hin]
      simp only [List.length_cons, Option.isSome_some, if_true]
      omega

/-- **No more characters than bytes.** -/
lemma length_decodeReplace (bytes : List ℕ) : (decodeReplace bytes).length ≤ bytes.length := by
  have hfrom : ∀ (bytes : List ℕ) (s : Option Pending),
      (decodeFrom s bytes).length ≤ bytes.length + (if s.isSome then 1 else 0) := by
    intro bytes
    induction bytes with
    | nil =>
      intro s
      cases s <;> simp [decodeFrom]
    | cons b rest ih =>
      intro s
      have hstep := length_step s b
      have hrest := ih (step s b).2
      rw [decodeFrom, List.length_append, List.length_cons]
      omega
  simpa [decodeReplace] using hfrom bytes none

/-- Bits so few that with the bytes to come they are a code point. -/
def Pending.Small (p : Pending) : Prop :=
  p.hi ≤ 0xBF ∧ (p.need = 1 ∧ p.bits ≤ 0x43FF ∨ p.need = 2 ∧ p.bits ≤ 0x10F
    ∨ p.need = 3 ∧ (p.bits ≤ 3 ∨ p.bits = 4 ∧ p.hi ≤ 0x8F))

lemma start_small (b : ℕ) :
    (∀ c ∈ (start b).1, c < 0x110000) ∧ ∀ p ∈ (start b).2, p.Small := by
  unfold start
  split_ifs <;> simp [Pending.Small, replacement] <;> omega

lemma step_small {s : Option Pending} (hs : ∀ p ∈ s, p.Small) (b : ℕ) :
    (∀ c ∈ (step s b).1, c < 0x110000) ∧ ∀ p ∈ (step s b).2, p.Small := by
  cases s with
  | none => exact start_small b
  | some p =>
    obtain ⟨hhi, hbits⟩ := hs p rfl
    rw [step]
    dsimp only
    split_ifs with hb hneed
    · refine ⟨fun c hc => ?_, fun q hq => (Option.some_ne_none q hq.symm).elim⟩
      rw [List.mem_singleton.mp hc]
      omega
    · refine ⟨fun _ h => (List.not_mem_nil h).elim, fun q hq => ?_⟩
      obtain rfl := Option.some.inj hq
      refine ⟨le_refl _, ?_⟩
      dsimp only
      omega
    · refine ⟨fun c hc => ?_, (start_small b).2⟩
      rcases List.mem_cons.mp hc with rfl | hc
      · decide
      · exact (start_small b).1 c hc

/-- **What is decoded are code points.** -/
lemma decodeReplace_lt {bytes : List ℕ} : ∀ c ∈ decodeReplace bytes, c < 0x110000 := by
  have hfrom : ∀ (bytes : List ℕ) (s : Option Pending), (∀ p ∈ s, p.Small) →
      ∀ c ∈ decodeFrom s bytes, c < 0x110000 := by
    intro bytes
    induction bytes with
    | nil =>
      intro s _ c hc
      cases s with
      | none => cases hc
      | some p =>
        rw [List.mem_singleton.mp hc]
        decide
    | cons b rest ih =>
      intro s hs c hc
      rw [decodeFrom] at hc
      obtain ⟨hchars, hnext⟩ := step_small hs b
      rcases List.mem_append.mp hc with hc | hc
      · exact hchars c hc
      · exact ih _ hnext c hc
  exact hfrom bytes none fun p h => (Option.some_ne_none p h.symm).elim

/-! ### The decoder that stops -/

/-- A first byte, if there is one: surrogates pass. -/
def startPass (b : ℕ) : Option (List ℕ × Option Pending) :=
  if b < 0x80 then some ([b], none)
  else if 0xC2 ≤ b ∧ b ≤ 0xDF then some ([], some ⟨1, 0x80, 0xBF, b - 0xC0⟩)
  else if 0xE0 ≤ b ∧ b ≤ 0xEF then
    some ([], some ⟨2, if b = 0xE0 then 0xA0 else 0x80, 0xBF, b - 0xE0⟩)
  else if 0xF0 ≤ b ∧ b ≤ 0xF4 then
    some ([], some ⟨3, if b = 0xF0 then 0x90 else 0x80, if b = 0xF4 then 0x8F else 0xBF, b - 0xF0⟩)
  else none

/-- One byte. -/
def stepPass : Option Pending → ℕ → Option (List ℕ × Option Pending)
  | none, b => startPass b
  | some p, b =>
      if p.lo ≤ b ∧ b ≤ p.hi then
        let bits := p.bits * 64 + (b - 0x80)
        if p.need = 1 then some ([bits], none) else some ([], some ⟨p.need - 1, 0x80, 0xBF, bits⟩)
      else none

/-- The characters of the bytes, from where the decoder is. -/
def decodePassFrom : Option Pending → List ℕ → Option (List ℕ)
  | none, [] => some []
  | some _, [] => none
  | s, b :: rest => do
      let (chars, s) ← stepPass s b
      let others ← decodePassFrom s rest
      return chars ++ others

/-- `bytes.decode("utf-8", "surrogatepass")` -/
def decodePass (bytes : List ℕ) : Option (List ℕ) := decodePassFrom none bytes

lemma decodePass_ascii {bytes : List ℕ} (h : ∀ b ∈ bytes, b < 0x80) :
    decodePass bytes = some bytes := by
  unfold decodePass
  induction bytes with
  | nil => rfl
  | cons b rest ih =>
    have hstep : stepPass none b = some ([b], none) := by
      rw [stepPass, startPass, if_pos (h b List.mem_cons_self)]
    rw [decodePassFrom, hstep]
    simp [ih fun x hx => h x (List.mem_cons_of_mem _ hx)]

/-! ### There and back -/

lemma encode_byte {n b : ℕ} (hn : n < 0x110000) (h : b ∈ encode n) : b < 256 := by
  unfold encode at h
  split_ifs at h <;> simp only [List.mem_cons, List.not_mem_nil, or_false] at h <;> omega

/-- One character comes back. -/
lemma decodePassFrom_encode {n : ℕ} (hn : n < 0x110000) (rest : List ℕ) :
    decodePassFrom none (encode n ++ rest) = (decodePassFrom none rest).map (n :: ·) := by
  have hcons : ∀ s b bytes, decodePassFrom s (b :: bytes) =
      (stepPass s b).bind fun r => (decodePassFrom r.2 bytes).bind fun t => some (r.1 ++ t) := by
    intro s b bytes
    rw [decodePassFrom]
    rfl
  have hnext : ∀ (need lo hi bits b : ℕ), lo ≤ b → b ≤ hi → need ≠ 1 →
      stepPass (some ⟨need, lo, hi, bits⟩) b =
        some ([], some ⟨need - 1, 0x80, 0xBF, bits * 64 + (b - 0x80)⟩) := by
    intro need lo hi bits b hlo hhi hneed
    rw [stepPass, if_pos ⟨hlo, hhi⟩, if_neg hneed]
  have hlast : ∀ (lo hi bits b : ℕ), lo ≤ b → b ≤ hi →
      stepPass (some ⟨1, lo, hi, bits⟩) b = some ([bits * 64 + (b - 0x80)], none) := by
    intro lo hi bits b hlo hhi
    rw [stepPass, if_pos ⟨hlo, hhi⟩, if_pos rfl]
  unfold encode
  split_ifs with h₁ h₂ h₃
  · have hstart : stepPass none n = some ([n], none) := by
      rw [stepPass, startPass, if_pos h₁]
    rw [List.singleton_append, hcons, hstart, Option.bind_some]
    cases decodePassFrom none rest <;> rfl
  · have hstart : stepPass none (0xC0 + n / 64) =
        some ([], some ⟨1, 0x80, 0xBF, 0xC0 + n / 64 - 0xC0⟩) := by
      rw [stepPass, startPass, if_neg (by omega), if_pos (by omega)]
    have hbits : (0xC0 + n / 64 - 0xC0) * 64 + (0x80 + n % 64 - 0x80) = n := by omega
    rw [List.cons_append, List.singleton_append, hcons, hstart, Option.bind_some, hcons,
      hlast _ _ _ _ (by omega) (by omega), Option.bind_some, hbits]
    cases decodePassFrom none rest <;> rfl
  · have hstart : stepPass none (0xE0 + n / 4096) =
        some ([], some ⟨2, if 0xE0 + n / 4096 = 0xE0 then 0xA0 else 0x80, 0xBF,
          0xE0 + n / 4096 - 0xE0⟩) := by
      rw [stepPass, startPass, if_neg (by omega), if_neg (by omega), if_pos (by omega)]
    have hbits : ((0xE0 + n / 4096 - 0xE0) * 64 + (0x80 + n / 64 % 64 - 0x80)) * 64
        + (0x80 + n % 64 - 0x80) = n := by omega
    have hlo : (if 0xE0 + n / 4096 = 0xE0 then 0xA0 else 0x80) ≤ 0x80 + n / 64 % 64 := by
      split_ifs <;> omega
    rw [List.cons_append, List.cons_append, List.singleton_append, hcons, hstart,
      Option.bind_some, hcons, hnext _ _ _ _ _ hlo (by omega) (by decide), Option.bind_some, hcons,
      hlast _ _ _ _ (by omega) (by omega), Option.bind_some, hbits]
    cases decodePassFrom none rest <;> rfl
  · have hstart : stepPass none (0xF0 + n / 262144) =
        some ([], some ⟨3, if 0xF0 + n / 262144 = 0xF0 then 0x90 else 0x80,
          if 0xF0 + n / 262144 = 0xF4 then 0x8F else 0xBF, 0xF0 + n / 262144 - 0xF0⟩) := by
      rw [stepPass, startPass, if_neg (by omega), if_neg (by omega), if_neg (by omega),
        if_pos (by omega)]
    have hbits : (((0xF0 + n / 262144 - 0xF0) * 64 + (0x80 + n / 4096 % 64 - 0x80)) * 64
        + (0x80 + n / 64 % 64 - 0x80)) * 64 + (0x80 + n % 64 - 0x80) = n := by omega
    have hlo : (if 0xF0 + n / 262144 = 0xF0 then 0x90 else 0x80) ≤ 0x80 + n / 4096 % 64 := by
      split_ifs <;> omega
    have hhi : 0x80 + n / 4096 % 64 ≤ (if 0xF0 + n / 262144 = 0xF4 then 0x8F else 0xBF) := by
      split_ifs <;> omega
    rw [List.cons_append, List.cons_append, List.cons_append, List.singleton_append, hcons, hstart,
      Option.bind_some, hcons, hnext _ _ _ _ _ hlo hhi (by decide), Option.bind_some, hcons,
      hnext _ _ _ _ _ (by omega) (by omega) (by decide), Option.bind_some, hcons,
      hlast _ _ _ _ (by omega) (by omega), Option.bind_some, hbits]
    cases decodePassFrom none rest <;> rfl

/-- **What is encoded is decoded again.** -/
lemma decodePass_encode {s : List ℕ} (h : ∀ c ∈ s, c < 0x110000) :
    decodePass (s.flatMap encode) = some s := by
  unfold decodePass
  induction s with
  | nil => rfl
  | cons n s ih =>
    rw [List.flatMap_cons, decodePassFrom_encode (h n List.mem_cons_self),
      ih fun c hc => h c (List.mem_cons_of_mem _ hc)]
    rfl

/-- So no two texts have the same bytes. -/
lemma encode_injective {s t : List ℕ} (hs : ∀ c ∈ s, c < 0x110000) (ht : ∀ c ∈ t, c < 0x110000)
    (h : s.flatMap encode = t.flatMap encode) : s = t := by
  have hsame := decodePass_encode hs
  rw [h, decodePass_encode ht] at hsame
  exact (Option.some.inj hsame).symm

end Utf8
