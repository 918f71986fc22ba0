/-
Percent escapes, and the path of a URL on its way to a server.

A browser takes the path of a URL apart at its slashes, resolves the dots, escapes
what a path cannot have and asks for the result; `unquote` turns `%` and two
hexadecimal digits back into a byte, leaves any other `%` as it stands, and reads
the bytes as UTF-8. What was escaped comes back; a text that had escapes of its
own comes back shorter.

* `hexByte`, `hasEscape`, `unquoteToBytes`, `unquote`: a text with escapes, read;
* `encodePath`, `unquoteToBytes_encodePath`: the browser's escapes are undone exactly if
  the text has none of its own;
* `segments`, `resolve`, `requestPath`: the path that is asked for.
-/
import VpnPortal.Text.Utf8

namespace Percent

/-! ### Escapes -/

/-- The value of a hexadecimal digit. -/
def hexValue (c : ℕ) : Option ℕ :=
  if 0x30 ≤ c ∧ c ≤ 0x39 then some (c - 0x30)
  else if 0x41 ≤ c ∧ c ≤ 0x46 then some (c - 0x41 + 10)
  else if 0x61 ≤ c ∧ c ≤ 0x66 then some (c - 0x61 + 10)
  else none

/-- The byte of two hexadecimal digits. -/
def hexByte (hi lo : ℕ) : Option ℕ := do
  let a ← hexValue hi
  let b ← hexValue lo
  return 16 * a + b

/-- The text begins with two hexadecimal digits. -/
def digitsAhead : List ℕ → Bool
  | hi :: lo :: _ => (hexByte hi lo).isSome
  | _ => false

/-- Somewhere in the text there is an escape. -/
def hasEscape : List ℕ → Bool
  | [] => false
  | c :: rest => (decide (c = 0x25) && digitsAhead rest) || hasEscape rest

/-- `unquote_to_bytes` of ASCII characters. -/
def unquoteToBytes : List ℕ → List ℕ
  | [] => []
  | [c] => [c]
  | [c, d] => [c, d]
  | c :: hi :: lo :: rest =>
      if c = 0x25 then
        match hexByte hi lo with
        | some b => b :: unquoteToBytes rest
        | none => c :: unquoteToBytes (hi :: lo :: rest)
      else c :: unquoteToBytes (hi :: lo :: rest)

/-- `unquote` of ASCII characters. -/
def unquote (s : List ℕ) : List ℕ := Utf8.decodeReplace (unquoteToBytes s)

lemma hexByte_isSome_iff {hi lo : ℕ} :
    (hexByte hi lo).isSome ↔ (hexValue hi).isSome ∧ (hexValue lo).isSome := by
  unfold hexByte
  cases hexValue hi <;> cases hexValue lo <;> simp

lemma hexByte_eq_none {hi lo : ℕ} (h : hexValue hi = none ∨ hexValue lo = none) :
    hexByte hi lo = none := by
  rw [← Option.not_isSome_iff_eq_none, hexByte_isSome_iff]
  rintro ⟨hhi, hlo⟩
  rcases h with h | h
  · simp [h] at hhi
  · simp [h] at hlo

lemma unquoteToBytes_cons {c : ℕ} (h : c ≠ 0x25) (rest : List ℕ) :
    unquoteToBytes (c :: rest) = c :: unquoteToBytes rest := by
  match rest with
  | [] => rfl
  | [d] => rfl
  | hi :: lo :: rest => rw [unquoteToBytes, if_neg h]

/-- A `%` that is no escape. -/
lemma unquoteToBytes_percent {rest : List ℕ} (h : digitsAhead rest = false) :
    unquoteToBytes (0x25 :: rest) = 0x25 :: unquoteToBytes rest := by
  match rest with
  | [] => rfl
  | [d] => rfl
  | hi :: lo :: rest =>
    have hnone : hexByte hi lo = none := by simpa [digitsAhead] using h
    rw [unquoteToBytes, if_pos rfl, hnone]

lemma unquoteToBytes_escape {hi lo b : ℕ} (h : hexByte hi lo = some b) (rest : List ℕ) :
    unquoteToBytes (0x25 :: hi :: lo :: rest) = b :: unquoteToBytes rest := by
  rw [unquoteToBytes, if_pos rfl, h]

/-- A text without escapes comes back as it was. -/
lemma unquoteToBytes_eq_self {s : List ℕ} (h : hasEscape s = false) : unquoteToBytes s = s := by
  fun_induction unquoteToBytes s with
  | case1 => rfl
  | case2 c => rfl
  | case3 c d => rfl
  | case4 hi lo rest b hb ih => simp [hasEscape, digitsAhead, hb] at h
  | case5 hi lo rest hb ih =>
    rw [ih]
    rw [hasEscape, Bool.or_eq_false_iff] at h
    exact h.2
  | case6 c hi lo rest hc ih =>
    rw [ih]
    rw [hasEscape, Bool.or_eq_false_iff] at h
    exact h.2

lemma length_unquoteToBytes_le (s : List ℕ) : (unquoteToBytes s).length ≤ s.length := by
  fun_induction unquoteToBytes s <;> simp_all <;> omega

/-- **An escape makes the text shorter.** -/
lemma length_unquoteToBytes_lt {s : List ℕ} (h : hasEscape s = true) :
    (unquoteToBytes s).length < s.length := by
  fun_induction unquoteToBytes s with
  | case1 => simp [hasEscape] at h
  | case2 c => simp [hasEscape, digitsAhead] at h
  | case3 c d => simp [hasEscape, digitsAhead] at h
  | case4 hi lo rest b hb ih =>
    have hle := length_unquoteToBytes_le rest
    simp only [List.length_cons]
    omega
  | case5 hi lo rest hb ih =>
    rw [hasEscape, Bool.or_eq_true] at h
    have hrest : hasEscape (hi :: lo :: rest) = true := by
      rcases h with h | h
      · simp [digitsAhead, hb] at h
      · exact h
    simpa using ih hrest
  | case6 c hi lo rest hc ih =>
    rw [hasEscape, Bool.or_eq_true] at h
    have hrest : hasEscape (hi :: lo :: rest) = true := by
      rcases h with h | h
      · simp [hc] at h
      · exact h
    simpa using ih hrest

/-- No escape goes from one text into the next if that begins with no digit. -/
lemma digitsAhead_append {a b : List ℕ} (hb : ∀ c ∈ b.head?, hexValue c = none) :
    digitsAhead (a ++ b) = digitsAhead a := by
  match a, b, hb with
  | [], [], _ => rfl
  | [], [_], _ => rfl
  | [], hi :: lo :: rest, hb => simp [digitsAhead, hexByte_eq_none (.inl (hb hi rfl))]
  | [x], [], _ => rfl
  | [x], lo :: rest, hb => simp [digitsAhead, hexByte_eq_none (.inr (hb lo rfl))]
  | x :: y :: rest, _, _ => rfl

lemma hasEscape_append {a b : List ℕ} (hb : ∀ c ∈ b.head?, hexValue c = none) :
    hasEscape (a ++ b) = (hasEscape a || hasEscape b) := by
  induction a with
  | nil => simp [hasEscape]
  | cons c a ih =>
    rw [List.cons_append, hasEscape, hasEscape, ih, digitsAhead_append hb, Bool.or_assoc]

lemma hasEscape_of_notMem {s : List ℕ} (h : 0x25 ∉ s) : hasEscape s = false := by
  induction s with
  | nil => rfl
  | cons c s ih =>
    rw [List.mem_cons, not_or] at h
    rw [hasEscape, ih h.2]
    simp [Ne.symm h.1]

/-- What stands before an escape has no part in it. -/
lemma hasEscape_append_of_notMem {a : List ℕ} (h : 0x25 ∉ a) (b : List ℕ) :
    hasEscape (a ++ b) = hasEscape b := by
  induction a with
  | nil => rfl
  | cons c a ih =>
    rw [List.mem_cons, not_or] at h
    rw [List.cons_append, hasEscape, ih h.2]
    simp [Ne.symm h.1]

/-! ### The path of a URL -/

/-- A hexadecimal digit as it is written. -/
def hexDigit (n : ℕ) : ℕ := if n < 10 then 0x30 + n else 0x41 + (n - 10)

/-- A byte as an escape. -/
def escapeByte (b : ℕ) : List ℕ := [0x25, hexDigit (b / 16), hexDigit (b % 16)]

/-- The characters that a path cannot have as they stand. -/
def isPathEscaped (c : ℕ) : Bool :=
  c ≤ 0x20 || 0x7E < c || c ∈ [0x22, 0x23, 0x3C, 0x3E, 0x3F, 0x5E, 0x60, 0x7B, 0x7D]

/-- A character of a path as a browser sends it. -/
def encodeChar (c : ℕ) : List ℕ :=
  if isPathEscaped c then (Utf8.encode c).flatMap escapeByte else [c]

/-- A path as a browser sends it. -/
def encodePath (s : List ℕ) : List ℕ := s.flatMap encodeChar

lemma hexByte_hexDigit {b : ℕ} (h : b < 0x80) : hexByte (hexDigit (b / 16)) (hexDigit (b % 16)) = some b := by
  interval_cases b <;> rfl

/-- A digit of an escape, and `%`, are sent as they stand. -/
lemma encodeChar_of_hex {c : ℕ} (h : (hexValue c).isSome) : encodeChar c = [c] := by
  have hplain : isPathEscaped c = false := by
    unfold hexValue at h
    simp only [isPathEscaped, Bool.or_eq_false_iff, decide_eq_false_iff_not, List.mem_cons,
      List.not_mem_nil, or_false]
    split_ifs at h with h₁ h₂ h₃
    · omega
    · omega
    · omega
    · simp at h
  rw [encodeChar, hplain]
  rfl

lemma encodeChar_ascii {c : ℕ} (h : c < 0x80) : encodeChar c = [c] ∨ encodeChar c = escapeByte c := by
  unfold encodeChar
  split_ifs
  · right
    rw [Utf8.encode, if_pos h]
    simp
  · exact .inl rfl

lemma hexValue_of_escaped {c : ℕ} (h : encodeChar c = escapeByte c) : hexValue c = none := by
  by_contra hsome
  rw [encodeChar_of_hex (Option.isSome_iff_ne_none.mpr hsome)] at h
  simp [escapeByte] at h

/-- What is sent begins with two digits only if they were there. -/
lemma digitsAhead_encodePath {s : List ℕ} (hs : ∀ c ∈ s, c < 0x80) :
    digitsAhead (encodePath s) = digitsAhead s := by
  have hpercent : hexValue 0x25 = none := rfl
  have hcons : ∀ c s, encodePath (c :: s) = encodeChar c ++ encodePath s := fun _ _ => rfl
  match s, hs with
  | [], _ => rfl
  | [c], hs =>
    rcases encodeChar_ascii (hs c (by simp)) with hc | hc
    · rw [hcons, hc]
      rfl
    · rw [hcons, hc]
      rfl
  | c :: d :: rest, hs =>
    rcases encodeChar_ascii (hs c (by simp)) with hc | hc
    · rcases encodeChar_ascii (hs d (by simp)) with hd | hd
      · rw [hcons, hcons, hc, hd]
        rfl
      · rw [hcons, hcons, hc, hd]
        simp [escapeByte, digitsAhead, hexByte_eq_none (.inr hpercent),
          hexByte_eq_none (.inr (hexValue_of_escaped hd))]
    · rw [hcons, hc]
      simp [escapeByte, digitsAhead, hexByte_eq_none (.inl hpercent),
        hexByte_eq_none (.inl (hexValue_of_escaped hc))]

/-- **The browser's escapes are undone.** -/
lemma unquoteToBytes_encodePath {s : List ℕ} (hs : ∀ c ∈ s, c < 0x80) :
    unquoteToBytes (encodePath s) = unquoteToBytes s := by
  induction hn : s.length using Nat.strong_induction_on generalizing s with
  | _ n ih =>
    match s, hs with
    | [], _ => rfl
    | c :: rest, hs =>
      have hrest : ∀ x ∈ rest, x < 0x80 := fun x hx => hs x (List.mem_cons_of_mem _ hx)
      have hlen : rest.length < n := by simp only [List.length_cons] at hn; omega
      have ihrest := ih rest.length hlen hrest rfl
      have hcons : encodePath (c :: rest) = encodeChar c ++ encodePath rest := rfl
      rcases encodeChar_ascii (hs c (by simp)) with hc | hc
      · by_cases hpercent : c = 0x25
        · subst hpercent
          rw [hcons, hc, List.singleton_append]
          cases hahead : digitsAhead rest with
          | false =>
            have hsent : digitsAhead (encodePath rest) = false := by
              rw [digitsAhead_encodePath hrest, hahead]
            rw [unquoteToBytes_percent hsent, unquoteToBytes_percent hahead, ihrest]
          | true =>
            -- the digits of an escape are sent as they stand
            obtain ⟨hi, lo, tail, rfl⟩ : ∃ hi lo tail, rest = hi :: lo :: tail := by
              match rest, hahead with
              | hi :: lo :: tail, _ => exact ⟨hi, lo, tail, rfl⟩
            obtain ⟨b, hb⟩ := Option.isSome_iff_exists.mp hahead
            obtain ⟨hhi, hlo⟩ := hexByte_isSome_iff.mp hahead
            have htail : encodePath (hi :: lo :: tail) = hi :: lo :: encodePath tail := by
              simp [encodePath, encodeChar_of_hex hhi, encodeChar_of_hex hlo]
            rw [htail, unquoteToBytes_escape hb, unquoteToBytes_escape hb]
            refine congrArg _ (ih tail.length ?_ (fun x hx => hrest x (by simp [hx])) rfl)
            simp only [List.length_cons] at hlen
            omega
        · rw [hcons, hc, List.singleton_append, unquoteToBytes_cons hpercent,
            unquoteToBytes_cons hpercent, ihrest]
      · have hpercent : c ≠ 0x25 := by
          rintro rfl
          simp [encodeChar, isPathEscaped, escapeByte] at hc
        rw [hcons, hc, escapeByte, List.cons_append, List.cons_append, List.cons_append,
          List.nil_append, unquoteToBytes_escape (hexByte_hexDigit (hs c (by simp))),
          unquoteToBytes_cons hpercent, ihrest]

/-- The parts of a path that begins with a slash. -/
def segments (path : List ℕ) : List (List ℕ) := (path.splitOn 0x2F).tail

/-- The parts put together again. -/
def joinPath (segs : List (List ℕ)) : List ℕ := segs.flatMap fun s => 0x2F :: s

/-- The spellings of a dot. -/
def dots : List (List ℕ) := [[0x2E], [0x25, 0x32, 0x65], [0x25, 0x32, 0x45]]

def isDot (s : List ℕ) : Bool := dots.any fun a => s = a

lemma isDot_eq_false {s : List ℕ} (h : s ∉ dots) : isDot s = false :=
  List.any_eq_false.mpr fun a ha => by
    rw [decide_eq_true_eq]
    rintro rfl
    exact h ha

def isDoubleDot (s : List ℕ) : Bool := dots.any fun a => dots.any fun b => s = a ++ b

/-- The parts behind `out` with the dots resolved: one stays, two go back. -/
def resolve (out : List (List ℕ)) : List (List ℕ) → List (List ℕ)
  | [] => out
  | [s] => if isDoubleDot s then out.dropLast ++ [[]] else if isDot s then out ++ [[]] else out ++ [s]
  | s :: rest =>
      if isDoubleDot s then resolve out.dropLast rest
      else if isDot s then resolve out rest
      else resolve (out ++ [s]) rest

/-- The part of a URL that is its path: tabs and line breaks are dropped, a query
or a fragment ends it, and a backslash is a slash. -/
def pathPart (path : List ℕ) : List ℕ :=
  ((path.filter fun c => c ∉ [0x09, 0x0A, 0x0D]).takeWhile fun c => c ∉ [0x3F, 0x23]).map fun c =>
    if c = 0x5C then 0x2F else c

/-- The path that a browser asks for. -/
def requestPath (path : List ℕ) : List ℕ :=
  encodePath (joinPath (resolve [] (segments (pathPart path))))

lemma joinPath_segments (t : List ℕ) : joinPath (segments (0x2F :: t)) = 0x2F :: t := by
  have hsplit : segments (0x2F :: t) = t.splitOn 0x2F := by
    have hcut := List.splitOn_append_cons_self (a := 0x2F) [] t
    rw [List.nil_append] at hcut
    rw [segments, hcut]
    rfl
  have hjoin : ∀ l : List (List ℕ), l ≠ [] → joinPath l = 0x2F :: [0x2F].intercalate l := by
    intro l hl
    induction l with
    | nil => exact absurd rfl hl
    | cons a l ih =>
      cases l with
      | nil => simp [joinPath]
      | cons b l =>
        rw [List.intercalate_cons_cons, joinPath, List.flatMap_cons]
        have hrest := ih (by simp)
        rw [joinPath] at hrest
        rw [hrest]
        simp
  rw [hsplit, hjoin _ (List.splitOn_ne_nil _ _), List.intercalate_splitOn]

lemma length_joinPath_append (a b : List (List ℕ)) :
    (joinPath (a ++ b)).length = (joinPath a).length + (joinPath b).length := by
  simp [joinPath]

lemma length_joinPath_dropLast (l : List (List ℕ)) :
    (joinPath l.dropLast).length ≤ (joinPath l).length := by
  rcases List.eq_nil_or_concat l with rfl | ⟨l, s, rfl⟩
  · simp
  · rw [List.concat_eq_append, List.dropLast_concat, length_joinPath_append]
    exact Nat.le_add_right _ _

/-- Resolving dots makes no path longer. -/
lemma length_resolve (out segs : List (List ℕ)) :
    (joinPath (resolve out segs)).length ≤ (joinPath out).length + (joinPath segs).length := by
  have hone : ∀ s : List ℕ, (joinPath [s]).length = s.length + 1 := by simp [joinPath]
  have hdrop := length_joinPath_dropLast
  induction segs generalizing out with
  | nil => simp [resolve, joinPath]
  | cons s rest ih =>
    have hsplit : (joinPath (s :: rest)).length = (joinPath [s]).length + (joinPath rest).length := by
      rw [← length_joinPath_append, List.singleton_append]
    rw [hsplit, hone]
    cases rest with
    | nil =>
      have hd := hdrop out
      rw [resolve]
      split_ifs
      · rw [length_joinPath_append, hone]
        simp only [List.length_nil]
        omega
      · rw [length_joinPath_append, hone]
        simp only [List.length_nil]
        omega
      · rw [length_joinPath_append, hone]
        omega
    | cons r rest =>
      have hd := hdrop out
      rw [resolve]
      split_ifs
      · have h := ih out.dropLast
        omega
      · have h := ih out
        omega
      · have h := ih (out ++ [s])
        rw [length_joinPath_append, hone] at h
        omega
      · simp

lemma resolve_eq {out segs : List (List ℕ)}
    (h : ∀ s ∈ segs, isDot s = false ∧ isDoubleDot s = false) : resolve out segs = out ++ segs := by
  induction segs generalizing out with
  | nil => simp [resolve]
  | cons s rest ih =>
    obtain ⟨hdot, hdouble⟩ := h s List.mem_cons_self
    have ihrest := @ih (out ++ [s]) fun x hx => h x (List.mem_cons_of_mem _ hx)
    cases rest with
    | nil => simp [resolve, hdot, hdouble]
    | cons r rest =>
      rw [resolve]
      · simp [hdot, hdouble, ihrest]
      · simp

/-- What is resolved was there, or is empty. -/
lemma mem_resolve {out segs : List (List ℕ)} {x : List ℕ} (h : x ∈ resolve out segs) :
    x ∈ out ∨ x ∈ segs ∨ x = [] := by
  induction segs generalizing out with
  | nil => exact .inl h
  | cons s rest ih =>
    have hdrop : ∀ {x}, x ∈ out.dropLast → x ∈ out := fun hx => List.mem_of_mem_dropLast hx
    cases rest with
    | nil =>
      rw [resolve] at h
      split_ifs at h <;> grind
    | cons r rest =>
      rw [resolve] at h
      · split_ifs at h
        · rcases ih h with h | h | h <;> grind
        · rcases ih h with h | h | h <;> grind
        · rcases ih h with h | h | h <;> grind
      · simp

/-- **A path is not read as a longer one.** -/
lemma length_unquote_requestPath {path rest : List ℕ} (hpath : pathPart path = 0x2F :: rest)
    (hascii : ∀ c ∈ pathPart path, c < 0x80) :
    (unquote (requestPath path)).length ≤ (pathPart path).length := by
  have hjoin : joinPath (segments (pathPart path)) = pathPart path := by
    rw [hpath, joinPath_segments]
  have hsent : ∀ c ∈ joinPath (resolve [] (segments (pathPart path))), c < 0x80 := by
    intro c hc
    obtain ⟨s, hs, hc⟩ := List.mem_flatMap.mp hc
    rcases List.mem_cons.mp hc with rfl | hcs
    · decide
    · rcases mem_resolve hs with hs | hs | rfl
      · cases hs
      · refine hascii c ?_
        rw [← hjoin]
        exact List.mem_flatMap.mpr ⟨s, hs, hc⟩
      · cases hcs
  calc (unquote (requestPath path)).length
      ≤ (unquoteToBytes (requestPath path)).length := Utf8.length_decodeReplace _
    _ = (unquoteToBytes (joinPath (resolve [] (segments (pathPart path))))).length := by
        rw [requestPath, unquoteToBytes_encodePath hsent]
    _ ≤ (joinPath (resolve [] (segments (pathPart path)))).length := length_unquoteToBytes_le _
    _ ≤ (joinPath []).length + (joinPath (segments (pathPart path))).length := length_resolve _ _
    _ = (pathPart path).length := by rw [hjoin]; simp [joinPath]

end Percent
