/-
Texts as words and as lines.

The words of a text are its longest runs without a separator, as `str.split()`
and `awk` see them. Its lines are what `read` meets one after another: a last line
without its line feed counts if it is not empty.

* `split`, `split_intercalate`: words joined by a separator are split again;
* `trim`, `trim_eq_self`, `infix_trim`: the text without the separators at its two
  ends, a part of it, and the text itself if it neither starts nor ends with one;
* `isSpace`, `strip`: the white space of Unicode, as `str.strip()` takes it away;
* `lines`, `lines_joinLines`: lines that are written one by one are read one by one.
-/
import Mathlib.Data.List.Basic
import Mathlib.Tactic

namespace Words

variable {α : Type}

/-! ### Words -/

/-- The longest runs without a separator. -/
def split (p : α → Bool) (s : List α) : List (List α) :=
  (s.splitOnP p).filter fun w => !w.isEmpty

/-- A text without a separator is one word, or none. -/
lemma split_of_solid {p : α → Bool} {w : List α} (hw : ∀ c ∈ w, p c = false) (hne : w ≠ []) :
    split p w = [w] := by
  rw [split, List.splitOnP_eq_singleton hw]
  simp [hne]

/-- A word in front of a separator comes first. -/
lemma split_append_cons {p : α → Bool} {w : List α} (hw : ∀ c ∈ w, p c = false) (hne : w ≠ [])
    {sep : α} (hsep : p sep = true) (s : List α) : split p (w ++ sep :: s) = w :: split p s := by
  rw [split, List.splitOnP_append_cons_of_forall_mem hw sep hsep]
  simp [split, hne]

/-- A separator in front of a text is no word. -/
lemma split_cons {p : α → Bool} {sep : α} (hsep : p sep = true) (s : List α) :
    split p (sep :: s) = split p s := by
  have hcut := List.splitOnP_append_cons [] s hsep
  rw [List.nil_append, List.splitOnP_nil, List.singleton_append] at hcut
  rw [split, hcut]
  rfl

/-- **Words joined by a separator are split again.** -/
lemma split_intercalate {p : α → Bool} {sep : α} (hsep : p sep = true) {ws : List (List α)}
    (hws : ∀ w ∈ ws, w ≠ [] ∧ ∀ c ∈ w, p c = false) : split p ([sep].intercalate ws) = ws := by
  induction ws with
  | nil => rfl
  | cons w ws ih =>
    obtain ⟨hne, hsolid⟩ := hws w List.mem_cons_self
    have hrest := ih fun v hv => hws v (List.mem_cons_of_mem _ hv)
    cases ws with
    | nil => rw [List.intercalate_singleton, split_of_solid hsolid hne]
    | cons v ws =>
      rw [List.intercalate_cons_cons, List.append_assoc, List.singleton_append,
        split_append_cons hsolid hne hsep, hrest]

/-- No separator is left in a word. -/
lemma solid_of_mem_split {p : α → Bool} {s w : List α} (h : w ∈ split p s) :
    w ≠ [] ∧ ∀ c ∈ w, p c = false := by
  obtain ⟨hw, hne⟩ := List.mem_filter.mp h
  refine ⟨by simpa using hne, ?_⟩
  clear h hne
  induction s generalizing w with
  | nil =>
    rw [List.splitOnP_nil] at hw
    simp [List.mem_singleton.mp hw]
  | cons c s ih =>
    rw [List.splitOnP_cons_eq_if_modifyHead] at hw
    split at hw
    · rcases List.mem_cons.mp hw with rfl | hw
      · simp
      · exact ih hw
    · rename_i hc
      cases hs : s.splitOnP p with
      | nil => exact absurd hs (List.splitOnP_ne_nil p s)
      | cons v vs =>
        rw [hs, List.modifyHead_cons] at hw
        rcases List.mem_cons.mp hw with rfl | hw
        · have hv := ih (w := v) (by rw [hs]; exact List.mem_cons_self)
          intro d hd
          rcases List.mem_cons.mp hd with rfl | hd
          · simpa using hc
          · exact hv d hd
        · exact ih (by rw [hs]; exact List.mem_cons_of_mem _ hw)

/-! ### The ends of a text -/

/-- The text without the separators it starts and ends with. -/
def trim (p : α → Bool) (s : List α) : List α := ((s.dropWhile p).reverse.dropWhile p).reverse

lemma dropWhile_eq_self {p : α → Bool} {s : List α} (hhead : ∀ c ∈ s.head?, p c = false) :
    s.dropWhile p = s := by
  cases s with
  | nil => rfl
  | cons c s => exact List.dropWhile_cons_of_neg (by simp [hhead c rfl])

/-- A text that neither starts nor ends with a separator is kept. -/
lemma trim_eq_self {p : α → Bool} {s : List α} (hhead : ∀ c ∈ s.head?, p c = false)
    (hlast : ∀ c ∈ s.getLast?, p c = false) : trim p s = s := by
  rw [trim, dropWhile_eq_self hhead, dropWhile_eq_self (by rwa [List.head?_reverse]),
    List.reverse_reverse]

/-- A text without a separator is kept. -/
lemma trim_of_solid {p : α → Bool} {s : List α} (hs : ∀ c ∈ s, p c = false) : trim p s = s :=
  trim_eq_self (fun c hc => hs c (List.mem_of_mem_head? hc)) fun c hc =>
    hs c (List.mem_of_mem_getLast? hc)

/-- Separators in front are taken away. -/
lemma trim_append {p : α → Bool} {seps : List α} (hseps : ∀ c ∈ seps, p c = true) (s : List α) :
    trim p (seps ++ s) = trim p s := by
  rw [trim, List.dropWhile_append_of_pos hseps, trim]

/-- What is left is a part of the text. -/
lemma infix_trim (p : α → Bool) (s : List α) : trim p s <:+: s := by
  have hsuffix : (s.dropWhile p).reverse.dropWhile p <:+ (s.dropWhile p).reverse :=
    List.dropWhile_suffix _
  have hprefix : trim p s <+: s.dropWhile p := by
    rw [← List.reverse_suffix, trim, List.reverse_reverse]
    exact hsuffix
  exact hprefix.isInfix.trans (List.dropWhile_suffix _).isInfix

/-- The white space of Unicode, as Python's texts see it. -/
def isSpace (c : Char) : Bool :=
  c.toNat ∈ [0x20, 0x85, 0xa0, 0x1680, 0x2028, 0x2029, 0x202f, 0x205f, 0x3000]
    ∨ (0x09 ≤ c.toNat ∧ c.toNat ≤ 0x0d) ∨ (0x1c ≤ c.toNat ∧ c.toNat ≤ 0x1f)
    ∨ (0x2000 ≤ c.toNat ∧ c.toNat ≤ 0x200a)

/-- `s.strip()` -/
def strip (s : List Char) : List Char := trim isSpace s

/-- A letter, a digit or a sign is no white space. -/
lemma not_isSpace_of_between {c : Char} (hlo : 0x20 < c.toNat) (hhi : c.toNat < 0x85) :
    isSpace c = false := by
  simp only [isSpace, List.mem_cons, List.not_mem_nil, or_false, decide_eq_false_iff_not]
  omega

/-! ### Lines -/

variable [DecidableEq α]

/-- `while IFS= read -r line || [[ -n $line ]]` -/
def lines (nl : α) (s : List α) : List (List α) :=
  (s.splitOn nl).dropLast ++ ((s.splitOn nl).getLast?.toList.filter fun l => !l.isEmpty)

/-- Lines as they are written, each with its line feed. -/
def joinLines (nl : α) (ls : List (List α)) : List α := ls.flatMap fun l => l ++ [nl]

lemma lines_append_cons {nl : α} {l : List α} (hl : nl ∉ l) (s : List α) :
    lines nl (l ++ nl :: s) = l :: lines nl s := by
  have hne := List.splitOn_ne_nil nl s
  rw [lines, List.splitOn_append_cons_self_of_not_mem hl, List.dropLast_cons_of_ne_nil hne,
    List.getLast?_cons_of_ne_nil hne, lines, List.cons_append]

/-- **Lines that are written one by one are read one by one.** -/
lemma lines_joinLines {nl : α} {ls : List (List α)} (h : ∀ l ∈ ls, nl ∉ l) :
    lines nl (joinLines nl ls) = ls := by
  induction ls with
  | nil => rfl
  | cons l ls ih =>
    rw [joinLines, List.flatMap_cons, List.append_assoc, List.singleton_append,
      lines_append_cons (h l List.mem_cons_self)]
    exact congrArg (l :: ·) (ih fun m hm => h m (List.mem_cons_of_mem _ hm))

end Words
