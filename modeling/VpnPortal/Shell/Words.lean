/-
Words of a POSIX shell, and quoting for it.

A command line is read character by character into words: blanks end a word,
quotes and backslashes take characters as they stand. Everything else that a
shell would act on, an operator or an expansion, is no plain splitting and gives
`none`, as does a quote that is left open. An argument that was quoted comes back
as one word, whatever it is made of (`words_quote`).

* `Mode`, `words`: the reader;
* `quote`, `words_quote`: one argument, quoted if it needs to be, is one word again;
* `words_join`: so are the arguments of a line.
-/
import Mathlib.Data.List.Basic
import Mathlib.Tactic

namespace Shell

/-- Where the reader is: outside of quotes, in single or double quotes, or behind
a backslash. -/
inductive Mode where
  | bare
  | escaped
  | single
  | double
  | doubleEscaped

/-- The characters between words. -/
def isBlank (c : Char) : Bool := c = ' ' || c = '\t'

/-- The characters that an unquoted word cannot have as they stand: operators,
expansions, patterns and comments. -/
def isActive (c : Char) : Bool :=
  c ∈ ['|', '&', ';', '<', '>', '(', ')', '$', '\x60', '\n', '*', '?', '[', '#', '~', '\x7b', '\x7d', '!']

/-- The word so far with one more character. -/
def push (word : Option (List Char)) (c : Char) : Option (List Char) := some (word.getD [] ++ [c])

/-- The words of a line; `word` is the one under way. -/
def words : Mode → Option (List Char) → List Char → Option (List (List Char))
  | .bare, word, [] => some word.toList
  | _, _, [] => none
  | .bare, word, c :: rest =>
      if isBlank c then (words .bare none rest).map (word.toList ++ ·)
      else if c = '\'' then words .single (some (word.getD [])) rest
      else if c = '"' then words .double (some (word.getD [])) rest
      else if c = '\\' then words .escaped word rest
      else if isActive c then none
      else words .bare (push word c) rest
  -- an escaped line break is no character at all
  | .escaped, word, c :: rest => words .bare (if c = '\n' then word else push word c) rest
  | .single, word, c :: rest =>
      if c = '\'' then words .bare word rest else words .single (push word c) rest
  | .double, word, c :: rest =>
      if c = '"' then words .bare word rest
      else if c = '$' ∨ c = '\x60' then none
      else if c = '\\' then words .doubleEscaped word rest
      else words .double (push word c) rest
  | .doubleEscaped, word, c :: rest =>
      if c = '\n' then words .double word rest
      else if c ∈ ['$', '\x60', '"', '\\'] then words .double (push word c) rest
      else words .double (push (push word '\\') c) rest

/-! ### Quoting -/

/-- The characters that need no quotes. -/
def isSafe (c : Char) : Bool :=
  c.isAlphanum || c ∈ ['_', '@', '%', '+', '=', ':', ',', '.', '/', '-']

/-- One argument: as it stands if all of it is safe, else in single quotes, with
its own single quotes in double ones. -/
def quote (s : List Char) : List Char :=
  if s = [] then ['\'', '\'']
  else if s.all isSafe then s
  else '\'' :: s.flatMap (fun c => if c = '\'' then ['\'', '"', '\'', '"', '\''] else [c]) ++ ['\'']

lemma words_cons_safe {c : Char} (h : isSafe c = true) (word : Option (List Char))
    (rest : List Char) : words .bare word (c :: rest) = words .bare (push word c) rest := by
  have hne : ∀ d, isSafe d = false → c ≠ d := by
    rintro d hd rfl
    rw [h] at hd
    cases hd
  have hblank : isBlank c = false := by
    simp only [isBlank, Bool.or_eq_false_iff, decide_eq_false_iff_not]
    exact ⟨hne ' ' (by decide), hne '\t' (by decide)⟩
  have hactive : isActive c = false := by
    simp only [isActive, decide_eq_false_iff_not, List.mem_cons, List.not_mem_nil, or_false, not_or]
    refine ⟨?_, ?_, ?_, ?_, ?_, ?_, ?_, ?_, ?_, ?_, ?_, ?_, ?_, ?_, ?_, ?_, ?_, ?_⟩ <;>
      exact hne _ (by decide)
  rw [words]
  simp [hblank, hactive, hne '\'' (by decide), hne '"' (by decide), hne '\\' (by decide)]

lemma words_safe {s : List Char} (h : s.all isSafe = true) (hne : s ≠ [])
    (word : Option (List Char)) (rest : List Char) :
    words .bare word (s ++ rest) = words .bare (some (word.getD [] ++ s)) rest := by
  induction s generalizing word with
  | nil => exact absurd rfl hne
  | cons c s ih =>
    rw [List.all_cons, Bool.and_eq_true] at h
    rw [List.cons_append, words_cons_safe h.1]
    by_cases hs : s = []
    · subst hs
      rfl
    · rw [ih h.2 hs]
      simp [push]

/-- The text between single quotes. -/
lemma words_single (s w rest : List Char) :
    words .single (some w) (s.flatMap (fun c => if c = '\'' then ['\'', '"', '\'', '"', '\''] else [c])
      ++ '\'' :: rest) = words .bare (some (w ++ s)) rest := by
  induction s generalizing w with
  | nil => simp [words]
  | cons c s ih =>
    rw [List.flatMap_cons, List.append_assoc]
    by_cases hc : c = '\''
    · subst hc
      rw [if_pos rfl]
      have hstep : ∀ tail, words .single (some w) (['\'', '"', '\'', '"', '\''] ++ tail)
          = words .single (some (w ++ ['\''])) tail := by
        intro tail
        simp [words, push, isBlank]
      rw [hstep, ih]
      simp
    · rw [if_neg hc]
      have hstep : ∀ tail, words .single (some w) ([c] ++ tail)
          = words .single (some (w ++ [c])) tail := by
        intro tail
        simp [words, push, hc]
      rw [hstep, ih]
      simp

/-- **A quoted argument is one word.** -/
lemma words_quote (s rest : List Char) :
    words .bare none (quote s ++ rest) = words .bare (some s) rest := by
  unfold quote
  split_ifs with hnil hsafe
  · subst hnil
    simp [words, isBlank]
  · rw [words_safe hsafe hnil]
    rfl
  · have hopen : ∀ tail, words .bare none ('\'' :: tail) = words .single (some []) tail := by
      intro tail
      simp [words, isBlank]
    rw [List.cons_append, List.cons_append, List.append_assoc, List.singleton_append, hopen,
      words_single]
    rfl

/-- **Quoted arguments are the words of their line.** -/
theorem words_join (args : List (List Char)) :
    words .bare none ([' '].intercalate (args.map quote)) = some args := by
  induction args with
  | nil => rfl
  | cons a args ih =>
    cases args with
    | nil =>
      have hone := words_quote a []
      rw [List.append_nil] at hone
      rw [List.map_singleton, List.intercalate_singleton, hone]
      rfl
    | cons b args =>
      have hstep : ∀ tail, words .bare (some a) (' ' :: tail) = (words .bare none tail).map (a :: ·) := by
        intro tail
        simp [words, isBlank]
      rw [List.map_cons, List.map_cons, List.intercalate_cons_cons, List.append_assoc, words_quote,
        List.singleton_append, hstep]
      rw [List.map_cons] at ih
      rw [ih]
      rfl

end Shell
