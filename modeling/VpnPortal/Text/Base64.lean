/-
Base64, the standard alphabet with padding.

Three bytes become four digits of six bits; one or two bytes at the end become two
or three digits and the padding.

* `digit`, `encode`: the digits of a text;
* `encode_eq`: of a text that is one byte short of whole groups.
-/
import Mathlib.Data.List.Basic
import Mathlib.Tactic

namespace Base64

/-- The digits of six bits. -/
def alphabet : List Char :=
  "ABCDEFGHIJKLMNOPQRSTUVWXYZabcdefghijklmnopqrstuvwxyz0123456789+/".toList

/-- One digit. -/
def digit (n : ℕ) : Char := alphabet.getD (n % 64) 'A'

/-- `b64encode` -/
def encode : List UInt8 → List Char
  | [] => []
  | [a] => [digit (a.toNat / 4), digit (a.toNat % 4 * 16), '=', '=']
  | [a, b] =>
      [digit (a.toNat / 4), digit (a.toNat % 4 * 16 + b.toNat / 16), digit (b.toNat % 16 * 4), '=']
  | a :: b :: c :: rest =>
      [digit (a.toNat / 4), digit (a.toNat % 4 * 16 + b.toNat / 16),
        digit (b.toNat % 16 * 4 + c.toNat / 64), digit (c.toNat % 64)] ++ encode rest

lemma digit_mem (n : ℕ) : digit n ∈ alphabet := by
  have hlen : alphabet.length = 64 := rfl
  have hlt : n % 64 < alphabet.length := by
    rw [hlen]
    exact Nat.mod_lt _ (by norm_num)
  rw [digit, List.getD_eq_getElem?_getD, List.getElem?_eq_getElem hlt]
  exact List.getElem_mem hlt

/-- **Two bytes over**: the digits and one mark of padding. -/
lemma encode_eq {bs : List UInt8} {k : ℕ} (h : bs.length = 3 * k + 2) :
    ∃ digits, encode bs = digits ++ ['='] ∧ digits.length = 4 * k + 3 ∧
      ∀ c ∈ digits, c ∈ alphabet := by
  induction k generalizing bs with
  | zero =>
    match bs, h with
    | [a, b], _ =>
      refine ⟨[digit (a.toNat / 4), digit (a.toNat % 4 * 16 + b.toNat / 16),
        digit (b.toNat % 16 * 4)], rfl, rfl, ?_⟩
      simp [digit_mem]
  | succ k ih =>
    match bs, h with
    | a :: b :: c :: rest, h =>
      have hrest : rest.length = 3 * k + 2 := by
        simp only [List.length_cons] at h
        omega
      obtain ⟨digits, heq, hlen, hmem⟩ := ih hrest
      refine ⟨[digit (a.toNat / 4), digit (a.toNat % 4 * 16 + b.toNat / 16),
        digit (b.toNat % 16 * 4 + c.toNat / 64), digit (c.toNat % 64)] ++ digits, ?_, ?_, ?_⟩
      · rw [encode, heq, List.append_assoc]
      · rw [List.length_append, hlen]
        simp only [List.length_cons, List.length_nil]
        omega
      · intro d hd
        rcases List.mem_append.mp hd with hd | hd
        · simp only [List.mem_cons, List.not_mem_nil, or_false] at hd
          rcases hd with rfl | rfl | rfl | rfl <;> exact digit_mem _
        · exact hmem d hd

end Base64
