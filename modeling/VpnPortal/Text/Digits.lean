/-
Digits, as Python's `int`, `str.isdigit` and the `\d` of a regular expression
know them.

`int` reads the decimal digits of every script, and so does `\d`; `str.isdigit`
says yes to some more, such as the superscripts, which `int` refuses. The tables
are those of Unicode 14.

* `decimal?`, `isDigit`: one character;
* `digits`, `natOf`, `readInt`, `floatBound`: a whole number;
* `chars_of_readInt`, `readInt_isSome`: which texts are numbers, and which runs of
  digits can be read;
* `readInt_toDigits`: a number that is written down is read back.
-/
import Mathlib.Data.List.Basic
import Mathlib.Tactic

namespace Numerals

/-! ### One character -/

/-- The zeros of the scripts; nine digits follow each. -/
def zeros : List ℕ :=
  [0x0030, 0x0660, 0x06F0, 0x07C0, 0x0966, 0x09E6, 0x0A66, 0x0AE6, 0x0B66, 0x0BE6, 0x0C66, 0x0CE6,
    0x0D66, 0x0DE6, 0x0E50, 0x0ED0, 0x0F20, 0x1040, 0x1090, 0x17E0, 0x1810, 0x1946, 0x19D0,
    0x1A80, 0x1A90, 0x1B50, 0x1BB0, 0x1C40, 0x1C50, 0xA620, 0xA8D0, 0xA900, 0xA9D0, 0xA9F0,
    0xAA50, 0xABF0, 0xFF10, 0x104A0, 0x10D30, 0x11066, 0x110F0, 0x11136, 0x111D0, 0x112F0,
    0x11450, 0x114D0, 0x11650, 0x116C0, 0x11730, 0x118E0, 0x11950, 0x11C50, 0x11D50, 0x11DA0,
    0x16A60, 0x16AC0, 0x16B50, 0x1D7CE, 0x1D7D8, 0x1D7E2, 0x1D7EC, 0x1D7F6, 0x1E140, 0x1E2F0,
    0x1E950, 0x1FBF0]

/-- The value of a decimal digit. -/
def decimal? (c : Char) : Option ℕ :=
  (zeros.find? fun z => z ≤ c.toNat ∧ c.toNat < z + 10).map fun z => c.toNat - z

/-- The digits that are not decimal, from first to last. -/
def otherDigits : List (ℕ × ℕ) :=
  [(0x00B2, 0x00B3), (0x00B9, 0x00B9), (0x1369, 0x1371), (0x19DA, 0x19DA), (0x2070, 0x2070),
    (0x2074, 0x2079), (0x2080, 0x2089), (0x2460, 0x2468), (0x2474, 0x247C), (0x2488, 0x2490),
    (0x24EA, 0x24EA), (0x24F5, 0x24FD), (0x24FF, 0x24FF), (0x2776, 0x277E), (0x2780, 0x2788),
    (0x278A, 0x2792), (0x10A40, 0x10A43), (0x10E60, 0x10E68), (0x11052, 0x1105A),
    (0x1F100, 0x1F10A)]

/-- `c.isdigit()` -/
def isDigit (c : Char) : Bool :=
  (decimal? c).isSome || otherDigits.any fun r => r.1 ≤ c.toNat ∧ c.toNat ≤ r.2

/-! ### A whole number -/

/-- The digits of `int`, with single underscores between them. -/
def digits : List Char → Option (List ℕ)
  | [] => none
  | [c] => (decimal? c).map fun d => [d]
  | c :: '_' :: rest => do
      let d ← decimal? c
      let ds ← digits rest
      return d :: ds
  | c :: rest => do
      let d ← decimal? c
      let ds ← digits rest
      return d :: ds

/-- The number that digits are. -/
def natOf (ds : List ℕ) : ℕ := ds.foldl (fun n d => 10 * n + d) 0

/-- `int(s)` of a stripped text: at most 4300 digits. -/
def readInt (s : List Char) : Option ℤ :=
  let whole := fun (s : List Char) => ((digits s).filter (·.length ≤ 4300)).map fun d => (natOf d : ℤ)
  match s with
  | '-' :: s => (whole s).map fun n => -n
  | '+' :: s => whole s
  | s => whole s

/-- The integers from here on do not become a `float`. -/
def floatBound : ℕ := 2 ^ 1024 - 2 ^ 970

/-! ### What a number is made of -/

lemma chars_of_digits {s : List Char} {ds : List ℕ} (h : digits s = some ds) :
    ∀ c ∈ s, c = '_' ∨ (decimal? c).isSome = true := by
  induction s using digits.induct generalizing ds with
  | case1 => cases h
  | case2 c =>
      obtain ⟨d, hd, -⟩ := Option.map_eq_some_iff.mp h
      simp [hd]
  | case3 c rest ih =>
      obtain ⟨d, hd, h⟩ := Option.bind_eq_some_iff.mp h
      obtain ⟨ds, hds, -⟩ := Option.bind_eq_some_iff.mp h
      simpa [hd] using ih hds
  | case4 c rest hrest hunder ih =>
      rw [digits.eq_4 c rest hrest hunder] at h
      obtain ⟨d, hd, h⟩ := Option.bind_eq_some_iff.mp h
      obtain ⟨ds, hds, -⟩ := Option.bind_eq_some_iff.mp h
      simpa [hd] using ih hds

/-- **A number is made of digits, underscores and a sign.** -/
lemma chars_of_readInt {s : List Char} {n : ℤ} (h : readInt s = some n) :
    ∀ c ∈ s, c = '-' ∨ c = '+' ∨ c = '_' ∨ (decimal? c).isSome = true := by
  have hwhole : ∀ {s : List Char} {n : ℤ},
      ((digits s).filter (·.length ≤ 4300)).map (fun d => (natOf d : ℤ)) = some n →
      ∀ c ∈ s, c = '_' ∨ (decimal? c).isSome = true := by
    intro s n h
    obtain ⟨ds, hds, -⟩ := Option.map_eq_some_iff.mp h
    exact chars_of_digits (Option.filter_eq_some_iff.mp hds).1
  intro c hc
  unfold readInt at h
  split at h
  · obtain ⟨m, hm, -⟩ := Option.map_eq_some_iff.mp h
    rcases List.mem_cons.mp hc with rfl | hc
    · exact .inl rfl
    · exact .inr (.inr (hwhole hm c hc))
  · rcases List.mem_cons.mp hc with rfl | hc
    · exact .inr (.inl rfl)
    · exact .inr (.inr (hwhole h c hc))
  · exact .inr (.inr (hwhole h c hc))

/-! ### Runs of digits -/

/-- Without underscores every character is a digit of its own. -/
lemma digits_eq_mapM {s : List Char} (hne : s ≠ []) (h : '_' ∉ s) : digits s = s.mapM decimal? := by
  induction s using digits.induct with
  | case1 => exact absurd rfl hne
  | case2 c =>
      rw [digits, List.mapM_cons, List.mapM_nil]
      cases decimal? c <;> rfl
  | case3 c rest _ => simp at h
  | case4 c rest hrest hunder ih =>
      rw [digits.eq_4 c rest hrest hunder, List.mapM_cons,
        ih hrest fun hmem => h (List.mem_cons_of_mem _ hmem)]

lemma mapM_decimal_isSome (s : List Char) :
    (s.mapM decimal?).isSome = s.all fun c => (decimal? c).isSome := by
  induction s with
  | nil => rfl
  | cons c s ih =>
      rw [List.mapM_cons, List.all_cons, ← ih]
      cases decimal? c <;> cases s.mapM decimal? <;> rfl

lemma length_of_mapM_decimal {s : List Char} {ds : List ℕ} (h : s.mapM decimal? = some ds) :
    ds.length = s.length := by
  induction s generalizing ds with
  | nil =>
      obtain rfl := Option.some.inj h
      rfl
  | cons c s ih =>
      rw [List.mapM_cons] at h
      obtain ⟨d, -, h⟩ := Option.bind_eq_some_iff.mp h
      obtain ⟨rest, hrest, h⟩ := Option.bind_eq_some_iff.mp h
      obtain rfl := Option.some.inj h
      rw [List.length_cons, List.length_cons, ih hrest]

/-- A run of digits without underscores is a number if all are decimal and there
are not too many. -/
lemma readInt_isSome {s : List Char} (hne : s ≠ []) (hdigit : s.all isDigit = true) :
    (readInt s).isSome = ((s.all fun c => (decimal? c).isSome) && decide (s.length ≤ 4300)) := by
  have hnot : ∀ c, isDigit c = false → c ∉ s := by
    intro c hc hmem
    have hyes := List.all_eq_true.mp hdigit c hmem
    rw [hc] at hyes
    cases hyes
  have hwhole : (readInt s).isSome = (((digits s).filter (·.length ≤ 4300)).isSome) := by
    unfold readInt
    split
    · exact absurd List.mem_cons_self (hnot '-' rfl)
    · exact absurd List.mem_cons_self (hnot '+' rfl)
    · exact Option.isSome_map
  rw [hwhole, digits_eq_mapM hne (hnot '_' rfl), ← mapM_decimal_isSome]
  cases hds : s.mapM decimal? with
  | none => rfl
  | some ds =>
      rw [← length_of_mapM_decimal hds]
      by_cases hlen : ds.length ≤ 4300 <;> simp [hlen, Option.filter]

/-! ### A number written down -/

lemma decimal_of_isDigit {c : Char} (h : c.isDigit = true) : decimal? c = some (c.toNat - 48) := by
  simp only [Char.isDigit, Bool.and_eq_true, decide_eq_true_eq, ge_iff_le, UInt32.le_iff_toNat_le,
    Char.toNat_val] at h
  have hlo : 48 ≤ c.toNat := h.1
  have hhi : c.toNat ≤ 57 := h.2
  rw [decimal?, zeros, List.find?_cons_of_pos (by rw [decide_eq_true_eq]; omega)]
  rfl

/-- The value of digits. -/
lemma natOf_of_isDigit {s : List Char} (h : ∀ c ∈ s, c.isDigit = true) :
    s.mapM decimal? = some (s.map fun c => c.toNat - 48) ∧
      ∀ n, (s.map fun c => c.toNat - 48).foldl (fun n d => 10 * n + d) n = Nat.ofDigitChars 10 s n := by
  induction s with
  | nil => exact ⟨rfl, fun n => rfl⟩
  | cons c s ih =>
      obtain ⟨hmap, hfold⟩ := ih fun d hd => h d (List.mem_cons_of_mem _ hd)
      constructor
      · rw [List.mapM_cons, decimal_of_isDigit (h c List.mem_cons_self), hmap]
        rfl
      · intro n
        rw [List.map_cons, List.foldl_cons, hfold, Nat.ofDigitChars_cons]
        rfl

/-- **A number that is written down is read back**, unless it is too long. -/
lemma readInt_toDigits {n : ℕ} (h : (Nat.toDigits 10 n).length ≤ 4300) :
    readInt (Nat.toDigits 10 n) = some (n : ℤ) := by
  have hdigit : ∀ c ∈ Nat.toDigits 10 n, c.isDigit = true := fun c hc =>
    Nat.isDigit_of_mem_toDigits (by decide) (by decide) hc
  have hnot : ∀ c, c.isDigit = false → c ∉ Nat.toDigits 10 n := by
    intro c hc hmem
    rw [hdigit c hmem] at hc
    cases hc
  obtain ⟨hmap, hfold⟩ := natOf_of_isDigit hdigit
  have hwhole : digits (Nat.toDigits 10 n) =
      some ((Nat.toDigits 10 n).map fun c => c.toNat - 48) := by
    rw [digits_eq_mapM Nat.toDigits_ne_nil (hnot '_' rfl), hmap]
  have hvalue : natOf ((Nat.toDigits 10 n).map fun c => c.toNat - 48) = n := by
    rw [natOf, hfold, Nat.ofDigitChars_ten_toDigits]
  have hread : ((digits (Nat.toDigits 10 n)).filter (·.length ≤ 4300)).map
      (fun d => (natOf d : ℤ)) = some (n : ℤ) := by
    rw [hwhole, Option.filter_some_pos (by simpa using h), Option.map_some, hvalue]
  unfold readInt
  split
  · rename_i heq
    exact absurd (by rw [heq]; exact List.mem_cons_self) (hnot '-' rfl)
  · rename_i heq
    exact absurd (by rw [heq]; exact List.mem_cons_self) (hnot '+' rfl)
  · exact hread

end Numerals
