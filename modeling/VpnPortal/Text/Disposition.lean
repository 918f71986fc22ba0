/-
The value of a `Content-Disposition` header.

A type and parameters behind semicolons; the value of a parameter is a token or
stands in quotes. A text that is a parameter's value without quotes comes back
exactly if all its characters are those of a token.

* `parameters`, `filename`: the value taken apart;
* `filename_plain`: when a text without quotes is read as it was written.
-/
import Mathlib.Data.List.TakeWhile
import Mathlib.Tactic

namespace Disposition

/-- The characters of a token. -/
def isTokenChar (c : Char) : Bool :=
  c.isAlphanum || c ∈ ['!', '#', '$', '%', '&', '\'', '*', '+', '-', '.', '^', '_', '\x60', '|', '~']

/-- Blanks between the parts. -/
def skipBlanks (s : List Char) : List Char := s.dropWhile fun c => c = ' ' || c = '\t'

/-- A token and what follows it. -/
def token (s : List Char) : Option (List Char × List Char) :=
  match s.takeWhile isTokenChar with
  | [] => none
  | t => some (t, s.dropWhile isTokenChar)

/-- A text in quotes, from behind the first of them, and what follows it. -/
def quoted : List Char → Option (List Char × List Char)
  | [] => none
  | '"' :: rest => some ([], rest)
  | '\\' :: c :: rest => (quoted rest).map fun p => (c :: p.1, p.2)
  | c :: rest => (quoted rest).map fun p => (c :: p.1, p.2)

/-- A parameter's value and what follows it. -/
def value : List Char → Option (List Char × List Char)
  | '"' :: rest => quoted rest
  | s => token s

/-- The parameters, at most `fuel` of them. -/
def parameters : ℕ → List Char → Option (List (List Char × List Char))
  | 0, s => if skipBlanks s = [] then some [] else none
  | fuel + 1, s =>
      match skipBlanks s with
      | [] => some []
      | ';' :: rest =>
          match token (skipBlanks rest) with
          | some (key, '=' :: rest) => do
              let (v, rest) ← value rest
              let others ← parameters fuel rest
              return (key.map Char.toLower, v) :: others
          | _ => none
      | _ => none

/-- The file name of a header's value. -/
def filename (s : List Char) : Option (List Char) := do
  let (_, rest) ← token s
  let params ← parameters rest.length rest
  (params.find? fun p => p.1 = "filename".toList).map Prod.snd

/-- What stands before an unquoted file name. -/
def attachment : List Char := "attachment; filename=".toList

lemma length_quoted {s w rest : List Char} (h : quoted s = some (w, rest)) :
    w.length < s.length := by
  fun_induction quoted s generalizing w rest with
  | case1 => cases h
  | case2 s =>
    cases h
    simp
  | case3 c s ih =>
    obtain ⟨p, hp, heq⟩ := Option.map_eq_some_iff.mp h
    cases heq
    have hlen := ih hp
    simp only [List.length_cons]
    omega
  | case4 c s hquote hback ih =>
    obtain ⟨p, hp, heq⟩ := Option.map_eq_some_iff.mp h
    cases heq
    have hlen := ih hp
    simp only [List.length_cons]
    omega

lemma token_eq_self {s : List Char} (hs : s ≠ []) (h : ∀ c ∈ s, isTokenChar c) :
    token s = some (s, []) := by
  have htake : s.takeWhile isTokenChar = s := List.takeWhile_eq_self_iff.mpr h
  have hdrop : s.dropWhile isTokenChar = [] := List.dropWhile_eq_nil_iff.mpr h
  rw [token, htake, hdrop]
  cases s with
  | nil => exact absurd rfl hs
  | cons c s => rfl

lemma takeWhile_of_token {s t rest : List Char} (h : token s = some (t, rest)) :
    s.takeWhile isTokenChar = t := by
  unfold token at h
  split at h
  · cases h
  · cases h
    rfl

/-- The value read back as it stands. -/
lemma value_eq_self_iff {v : List Char} (hv : v ≠ []) :
    (∃ rest, value v = some (v, rest)) ↔ ∀ c ∈ v, isTokenChar c := by
  constructor
  · rintro ⟨rest, h⟩
    unfold value at h
    split at h
    · -- the quotes are not part of the value
      have hlen := length_quoted h
      simp only [List.length_cons] at hlen
      omega
    · exact List.takeWhile_eq_self_iff.mp (takeWhile_of_token h)
  · intro h
    refine ⟨[], ?_⟩
    rw [value]
    · exact token_eq_self hv h
    · rintro rest rfl
      exact absurd (h '"' List.mem_cons_self) (by decide)

/-- The first parameter of an attachment is its file name. -/
lemma parameters_attachment (fuel : ℕ) (v : List Char) :
    parameters (fuel + 1) ("; filename=".toList ++ v) =
      (value v).bind fun p => (parameters fuel p.2).map fun others =>
        ("filename".toList, p.1) :: others := by
  have hblank : skipBlanks ("; filename=".toList ++ v) = ';' :: (" filename=".toList ++ v) := rfl
  have hkey : token (skipBlanks (" filename=".toList ++ v)) = some ("filename".toList, '=' :: v) := rfl
  have hlower : "filename".toList.map Char.toLower = "filename".toList := by decide
  rw [parameters, hblank]
  simp only [hkey, hlower]
  cases value v with
  | none => rfl
  | some p =>
    change (parameters fuel p.2).bind (fun others => some (("filename".toList, p.1) :: others)) =
      (parameters fuel p.2).map fun others => ("filename".toList, p.1) :: others
    cases parameters fuel p.2 <;> rfl

lemma filename_attachment (v : List Char) :
    ∃ fuel, filename (attachment ++ v) =
      (value v).bind fun p => (parameters fuel p.2).map fun _ => p.1 := by
  have htoken : token (attachment ++ v) = some ("attachment".toList, "; filename=".toList ++ v) := rfl
  obtain ⟨fuel, hfuel⟩ : ∃ fuel, ("; filename=".toList ++ v).length = fuel + 1 :=
    ⟨_, rfl⟩
  refine ⟨fuel, ?_⟩
  rw [filename, htoken]
  simp only [Option.bind_eq_bind, Option.bind_some]
  rw [hfuel, parameters_attachment]
  cases value v with
  | none => rfl
  | some p =>
    rw [Option.bind_some, Option.bind_some]
    cases parameters fuel p.2 with
    | none => rfl
    | some others =>
      have hfound : (("filename".toList, p.1) :: others).find? (fun p => p.1 = "filename".toList) =
          some ("filename".toList, p.1) := List.find?_cons_of_pos (by simp)
      rw [Option.map_some, Option.bind_some, hfound]
      rfl

/-- **A file name without quotes is read as it was written exactly if it is a token.** -/
theorem filename_plain {v : List Char} (hv : v ≠ []) :
    filename (attachment ++ v) = some v ↔ ∀ c ∈ v, isTokenChar c := by
  obtain ⟨fuel, hfuel⟩ := filename_attachment v
  rw [hfuel, ← value_eq_self_iff hv]
  constructor
  · intro h
    obtain ⟨p, hp, h⟩ := Option.bind_eq_some_iff.mp h
    obtain ⟨_, -, heq⟩ := Option.map_eq_some_iff.mp h
    exact ⟨p.2, by rw [hp, ← heq]⟩
  · intro h
    have hall := (value_eq_self_iff hv).mp h
    obtain ⟨rest, hrest⟩ := h
    have hnil : value v = some (v, []) := by
      rw [value]
      · exact token_eq_self hv hall
      · rintro rest rfl
        exact absurd (hall '"' List.mem_cons_self) (by decide)
    have hend : parameters fuel [] = some [] := by cases fuel <;> rfl
    simp [hnil, hend]

end Disposition
