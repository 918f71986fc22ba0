/-
JSON values, and how they are written.

Texts are lists of code points, so a text can have surrogates that stand alone, as
the texts of Python can. An object is the list of its members in their order. The
writers of two languages differ in what they escape: the escape of a character is
a parameter (`Writer`).

* `Value`, `Value.ind`, `Value.depth`, `insert`, `lookup`: values, induction over them,
  and objects;
* `decimal`, `intText`, `natOf`, `natOf_decimal`: numbers; a number is read back from its
  digits;
* `Writer`, `write`, `write_all`: a value as a text, whose characters are the writer's;
* `pyWriter`, `phpWriter`: `json.dumps` and `json_encode`.
-/
import Mathlib.Data.Nat.Digits.Defs
import Mathlib.Tactic
import VpnPortal.Text.Blocks

namespace JsonText

/-- A value; `F` are the floats. -/
inductive Value (F : Type) where
  | null
  | bool (b : Bool)
  | int (n : ℤ)
  | float (x : F)
  | str (s : List ℕ)
  | arr (xs : List (Value F))
  | obj (ms : List (List ℕ × Value F))

variable {F : Type}

/-- Induction over the values that stand in a value. -/
@[elab_as_elim]
theorem Value.ind {P : Value F → Prop} (hnull : P .null) (hbool : ∀ b, P (.bool b))
    (hint : ∀ n, P (.int n)) (hfloat : ∀ x, P (.float x)) (hstr : ∀ s, P (.str s))
    (harr : ∀ xs, (∀ x ∈ xs, P x) → P (.arr xs)) (hobj : ∀ ms, (∀ m ∈ ms, P m.2) → P (.obj ms)) :
    ∀ v, P v
  | .null => hnull
  | .bool b => hbool b
  | .int n => hint n
  | .float x => hfloat x
  | .str s => hstr s
  | .arr xs => harr xs fun x _ => Value.ind hnull hbool hint hfloat hstr harr hobj x
  | .obj ms => hobj ms fun m _ => Value.ind hnull hbool hint hfloat hstr harr hobj m.2
termination_by v => sizeOf v
decreasing_by
  · have hlt := List.sizeOf_lt_of_mem ‹x ∈ xs›
    simp only [Value.arr.sizeOf_spec]
    omega
  · have hlt := List.sizeOf_lt_of_mem ‹m ∈ ms›
    have hsnd : sizeOf m.2 < sizeOf m := by
      obtain ⟨k, v⟩ := m
      simp only [Prod.mk.sizeOf_spec]
      omega
    simp only [Value.obj.sizeOf_spec]
    omega

/-! ### Nesting and members -/

mutual

/-- How deep arrays and objects stand in each other. -/
def Value.depth : Value F → ℕ
  | .arr xs => depthOfList xs + 1
  | .obj ms => depthOfMembers ms + 1
  | _ => 0

def depthOfList : List (Value F) → ℕ
  | [] => 0
  | x :: xs => max x.depth (depthOfList xs)

def depthOfMembers : List (List ℕ × Value F) → ℕ
  | [] => 0
  | (_, x) :: ms => max x.depth (depthOfMembers ms)

end

lemma depth_le_depthOfMembers {ms : List (List ℕ × Value F)} {m : List ℕ × Value F} (h : m ∈ ms) :
    m.2.depth ≤ depthOfMembers ms := by
  induction ms with
  | nil => cases h
  | cons y ms ih =>
    rw [depthOfMembers]
    rcases List.mem_cons.mp h with rfl | h
    · exact le_max_left _ _
    · exact (ih h).trans (le_max_right _ _)

section

variable {β : Type}

/-- A member put into an object: a key that is there keeps its place. -/
def insert (ms : List (List ℕ × β)) (k : List ℕ) (v : β) : List (List ℕ × β) :=
  if k ∈ ms.map Prod.fst then ms.map fun m => if m.1 = k then (k, v) else m else ms ++ [(k, v)]

/-- The value of a key. -/
def lookup (ms : List (List ℕ × β)) (k : List ℕ) : Option β :=
  (ms.find? fun m => m.1 = k).map Prod.snd

lemma insert_new {ms : List (List ℕ × β)} {k : List ℕ} (h : k ∉ ms.map Prod.fst) (v : β) :
    insert ms k v = ms ++ [(k, v)] := if_neg h

lemma mem_insert {ms : List (List ℕ × β)} {k : List ℕ} {v : β} {m : List ℕ × β}
    (h : m ∈ insert ms k v) : m ∈ ms ∨ m = (k, v) := by
  unfold insert at h
  split_ifs at h
  · obtain ⟨n, hn, rfl⟩ := List.mem_map.mp h
    split_ifs
    · exact .inr rfl
    · exact .inl hn
  · simpa using h

end

lemma depthOfList_append (a b : List (Value F)) :
    depthOfList (a ++ b) = max (depthOfList a) (depthOfList b) := by
  induction a with
  | nil => simp [depthOfList]
  | cons x a ih => rw [List.cons_append, depthOfList, depthOfList, ih, max_assoc]

lemma depthOfMembers_append (a b : List (List ℕ × Value F)) :
    depthOfMembers (a ++ b) = max (depthOfMembers a) (depthOfMembers b) := by
  induction a with
  | nil => simp [depthOfMembers]
  | cons m a ih => rw [List.cons_append, depthOfMembers, depthOfMembers, ih, max_assoc]

/-- Fewer members are not deeper. -/
lemma depthOfMembers_le {a : List (List ℕ × Value F)} {k : ℕ} (h : ∀ m ∈ a, m.2.depth ≤ k) :
    depthOfMembers a ≤ k := by
  induction a with
  | nil => exact Nat.zero_le _
  | cons m a ih =>
    rw [depthOfMembers]
    exact max_le (h m List.mem_cons_self) (ih fun n hn => h n (List.mem_cons_of_mem _ hn))

/-! ### Numbers -/

/-- The decimal digits of a number. -/
def decimal (n : ℕ) : List ℕ := if n = 0 then [0x30] else (Nat.digits 10 n).reverse.map (0x30 + ·)

/-- The number of a row of digits. -/
def natOf (s : List ℕ) : ℕ := s.foldl (fun n c => 10 * n + (c - 0x30)) 0

/-- An integer as it is written. -/
def intText (n : ℤ) : List ℕ := if n < 0 then 0x2D :: decimal n.natAbs else decimal n.natAbs

def isDigit (c : ℕ) : Bool := 0x30 ≤ c && c ≤ 0x39

lemma natOf_decimal (n : ℕ) : natOf (decimal n) = n := by
  by_cases hn : n = 0
  · rw [hn]
    rfl
  have hfold : ∀ ds : List ℕ, (ds.reverse.map (0x30 + ·)).foldl (fun n c => 10 * n + (c - 0x30)) 0 =
      Nat.ofDigits 10 ds := by
    intro ds
    induction ds with
    | nil => rfl
    | cons d ds ih =>
      rw [List.reverse_cons, List.map_append, List.foldl_append, ih, Nat.ofDigits_cons]
      simp only [List.map_cons, List.map_nil, List.foldl_cons, List.foldl_nil]
      omega
  rw [natOf, decimal, if_neg hn, hfold, Nat.ofDigits_digits]

lemma isDigit_of_mem_decimal {n c : ℕ} (h : c ∈ decimal n) : isDigit c = true := by
  unfold decimal at h
  split_ifs at h
  · rw [List.mem_singleton.mp h]
    decide
  · obtain ⟨d, hd, rfl⟩ := List.mem_map.mp h
    have hlt := Nat.digits_lt_base (by norm_num) (List.mem_reverse.mp hd)
    simp only [isDigit, Bool.and_eq_true, decide_eq_true_eq]
    omega

/-- A number has one digit 0 or begins with another digit. -/
lemma decimal_cases (n : ℕ) :
    decimal n = [0x30] ∨ ∃ d ds, decimal n = d :: ds ∧ 0x31 ≤ d ∧ d ≤ 0x39 := by
  by_cases hn : n = 0
  · exact .inl (if_pos hn)
  right
  have hne : Nat.digits 10 n ≠ [] := Nat.digits_ne_nil_iff_ne_zero.mpr hn
  have hlast := Nat.getLast_digit_ne_zero 10 hn
  have hlt := Nat.digits_lt_base (by norm_num) (List.getLast_mem hne)
  have hrev : (Nat.digits 10 n).reverse =
      (Nat.digits 10 n).getLast hne :: (Nat.digits 10 n).dropLast.reverse := by
    conv_lhs => rw [← List.dropLast_append_getLast hne]
    rw [List.reverse_append]
    rfl
  refine ⟨_, _, by rw [decimal, if_neg hn, hrev, List.map_cons], ?_, ?_⟩
  · omega
  · omega

/-! ### Writers -/

/-- How a language writes the characters of a text and the floats. -/
structure Writer (F : Type) where
  escape : ℕ → List ℕ
  float : F → List ℕ

variable (w : Writer F)

/-- A text in quotes. -/
def writeText (s : List ℕ) : List ℕ := 0x22 :: (s.flatMap w.escape ++ [0x22])

def boolText (b : Bool) : List ℕ :=
  if b then [0x74, 0x72, 0x75, 0x65] else [0x66, 0x61, 0x6C, 0x73, 0x65]

mutual

/-- A value without blanks. -/
def write : Value F → List ℕ
  | .null => [0x6E, 0x75, 0x6C, 0x6C]
  | .bool b => boolText b
  | .int n => intText n
  | .float x => w.float x
  | .str s => writeText w s
  | .arr xs => 0x5B :: ([0x2C].intercalate (writeItems xs) ++ [0x5D])
  | .obj ms => 0x7B :: ([0x2C].intercalate (writeMembers ms) ++ [0x7D])

def writeItems : List (Value F) → List (List ℕ)
  | [] => []
  | x :: xs => write x :: writeItems xs

def writeMembers : List (List ℕ × Value F) → List (List ℕ)
  | [] => []
  | (k, x) :: ms => (writeText w k ++ 0x3A :: write x) :: writeMembers ms

end

lemma writeItems_eq (xs : List (Value F)) : writeItems w xs = xs.map (write w) := by
  induction xs with
  | nil => rfl
  | cons x xs ih => rw [writeItems, ih, List.map_cons]

lemma writeMembers_eq (ms : List (List ℕ × Value F)) :
    writeMembers w ms = ms.map fun m => writeText w m.1 ++ 0x3A :: write w m.2 := by
  induction ms with
  | nil => rfl
  | cons m ms ih => rw [writeMembers, ih, List.map_cons]

/-- **What holds of all characters** that a writer uses holds of what it writes. -/
lemma write_all {P : ℕ → Prop} (hplain : ∀ c, 0x20 ≤ c → c < 0x7F → P c)
    (hescape : ∀ c, ∀ d ∈ w.escape c, P d) (hfloat : ∀ x, ∀ d ∈ w.float x, P d) (v : Value F) :
    ∀ c ∈ write w v, P c := by
  have hdigit : ∀ c, isDigit c = true → P c := by
    intro c hc
    simp only [isDigit, Bool.and_eq_true, decide_eq_true_eq] at hc
    exact hplain c (by omega) (by omega)
  have htext : ∀ s, ∀ c ∈ writeText w s, P c := by
    intro s c hc
    simp only [writeText, List.mem_cons, List.mem_append, List.mem_flatMap, List.not_mem_nil,
      or_false] at hc
    rcases hc with rfl | ⟨d, -, hc⟩ | rfl
    · exact hplain _ (by decide) (by decide)
    · exact hescape d c hc
    · exact hplain _ (by decide) (by decide)
  induction v using Value.ind with
  | hnull =>
    intro c hc
    have hword : ∀ c ∈ [0x6E, 0x75, 0x6C, 0x6C], 0x20 ≤ c ∧ c < 0x7F := by decide
    exact hplain c (hword c hc).1 (hword c hc).2
  | hbool b =>
    intro c hc
    have hword : ∀ b, ∀ c ∈ boolText b, 0x20 ≤ c ∧ c < 0x7F := by decide
    exact hplain c (hword b c hc).1 (hword b c hc).2
  | hint n =>
    intro c hc
    rw [write, intText] at hc
    split_ifs at hc
    · rcases List.mem_cons.mp hc with rfl | hc
      · exact hplain _ (by decide) (by decide)
      · exact hdigit c (isDigit_of_mem_decimal hc)
    · exact hdigit c (isDigit_of_mem_decimal hc)
  | hfloat x => exact hfloat x
  | hstr s => exact htext s
  | harr xs ih =>
    intro c hc
    rw [write, writeItems_eq, List.mem_cons, List.mem_append, List.mem_singleton] at hc
    rcases hc with rfl | hc | rfl
    · exact hplain _ (by decide) (by decide)
    · rcases Blocks.mem_of_mem_intercalate hc with hc | ⟨t, ht, hc⟩
      · rw [List.mem_singleton.mp hc]
        exact hplain _ (by decide) (by decide)
      · obtain ⟨x, hx, rfl⟩ := List.mem_map.mp ht
        exact ih x hx c hc
    · exact hplain _ (by decide) (by decide)
  | hobj ms ih =>
    intro c hc
    rw [write, writeMembers_eq, List.mem_cons, List.mem_append, List.mem_singleton] at hc
    rcases hc with rfl | hc | rfl
    · exact hplain _ (by decide) (by decide)
    · rcases Blocks.mem_of_mem_intercalate hc with hc | ⟨t, ht, hc⟩
      · rw [List.mem_singleton.mp hc]
        exact hplain _ (by decide) (by decide)
      · obtain ⟨m, hm, rfl⟩ := List.mem_map.mp ht
        rw [List.mem_append, List.mem_cons] at hc
        rcases hc with hc | rfl | hc
        · exact htext _ c hc
        · exact hplain _ (by decide) (by decide)
        · exact ih m hm c hc
    · exact hplain _ (by decide) (by decide)

/-! ### The two languages -/

def hexDigit (n : ℕ) : ℕ := if n < 10 then 0x30 + n else 0x61 + (n - 10)

lemma hexDigit_bounds {n : ℕ} (h : n < 16) : 0x30 ≤ hexDigit n ∧ hexDigit n ≤ 0x66 := by
  unfold hexDigit
  split_ifs <;> omega

/-- `\uXXXX` -/
def escapeUnit (n : ℕ) : List ℕ :=
  [0x5C, 0x75, hexDigit (n / 4096 % 16), hexDigit (n / 256 % 16), hexDigit (n / 16 % 16),
    hexDigit (n % 16)]

/-- A character as one unit or as a pair of surrogates. -/
def escapeUnits (c : ℕ) : List ℕ :=
  if c < 0x10000 then escapeUnit c
  else escapeUnit (0xD800 + (c - 0x10000) / 1024) ++ escapeUnit (0xDC00 + (c - 0x10000) % 1024)

/-- The short escapes that both languages have. -/
def shortEscape (c : ℕ) : Option (List ℕ) :=
  if c = 0x22 then some [0x5C, 0x22]
  else if c = 0x5C then some [0x5C, 0x5C]
  else if c = 0x08 then some [0x5C, 0x62]
  else if c = 0x0C then some [0x5C, 0x66]
  else if c = 0x0A then some [0x5C, 0x6E]
  else if c = 0x0D then some [0x5C, 0x72]
  else if c = 0x09 then some [0x5C, 0x74]
  else none

/-- `json.dumps` with `ensure_ascii`: from blank to `~` as it is. -/
def pyEscape (c : ℕ) : List ℕ :=
  match shortEscape c with
  | some s => s
  | none => if 0x20 ≤ c ∧ c ≤ 0x7E then [c] else escapeUnits c

/-- `json_encode`: the slash too, but not 0x7F. -/
def phpEscape (c : ℕ) : List ℕ :=
  match shortEscape c with
  | some s => s
  | none =>
      if c = 0x2F then [0x5C, 0x2F] else if 0x20 ≤ c ∧ c ≤ 0x7F then [c] else escapeUnits c

/-- `json.dumps(separators=(",", ":"))` -/
def pyWriter (float : F → List ℕ) : Writer F := ⟨pyEscape, float⟩

/-- `json_encode` -/
def phpWriter (float : F → List ℕ) : Writer F := ⟨phpEscape, float⟩

end JsonText
