/-
The download of a device's file (`pwa/api/config.py`): the names a device can
have, the header that names the file, and the link for the Mini App.

The name is written into the header and into the path of the link as it is. So
the file can be had under its name exactly if the name is a token of the header,
does not end the path and has no escape of its own. A Cyrillic name cannot even
be put into the header.

* `DeviceName`: a name that `add_config` or `rename_config` accepts;
* `contentDisposition`, `encodable`: the header of `config_raw` and `config_download`;
* `downloadPath`, `route`: the link, and the request it leads to;
* `download_iff`: a device is had under its name, by the header and by the link, exactly
  if the name is plain; `not_every_name_downloads`: one that is not.
-/
import Mathlib
import VpnPortal.Monitor.Judge
import VpnPortal.Text.Disposition
import VpnPortal.Text.Percent

namespace VpnPortal.Download

open Disposition Percent

/-! ### Names -/

/-- `NewConfigRequest` and `RenameConfigRequest`: from one to six characters. -/
def nameFits (name : List Char) : Bool := 1 ≤ name.length && name.length ≤ 6

/-- The name `add_config` writes. -/
def addName (name : List Char) : Option (List Char) := if nameFits name then some name else none

/-- The name `rename_config` writes. -/
def renameName (name : List Char) : Option (List Char) :=
  if nameFits name then
    let name := Words.strip name
    if name = [] then none else some name
  else none

/-- A name that a device can have. -/
structure DeviceName where
  text : List Char
  accepted : ∃ asked, addName asked = some text ∨ renameName asked = some text

/-! ### The header -/

/-- The file of a device. -/
def fileName (name : List Char) : List Char := name ++ ".conf".toList

/-- The value of the header of `config_raw` and `config_download`. -/
def contentDisposition (name : List Char) : List Char :=
  "attachment; filename=".toList ++ fileName name

/-- A value that can be sent: Latin-1 without control characters. -/
def encodable (value : List Char) : Bool :=
  value.all fun c => 0x20 ≤ c.toNat && c.toNat ≠ 0x7F && c.toNat < 0x100

/-! ### The link -/

/-- A lower-case hexadecimal digit. -/
def isHexDigit (c : Char) : Bool := c.isDigit || c ∈ ['a', 'b', 'c', 'd', 'e', 'f']

/-- The token of a link: the device, the end of the link's life and `_dl_sig`. -/
structure Token where
  configId : List Char
  exp : ℕ
  sig : List Char
  configId_uuid : ∀ c ∈ configId, isHexDigit c ∨ c = '-'
  sig_hex : ∀ c ∈ sig, isHexDigit c
  sig_length : sig.length = 32

/-- The token as it stands in the link. -/
def Token.text (t : Token) : List Char :=
  t.configId ++ '.' :: ((Nat.repr t.exp).toList ++ '.' :: t.sig)

/-- The `path` of `config_download_link`. -/
def downloadPath (t : Token) (name : List Char) : List Char :=
  "/api/public/dl/".toList ++ (t.text ++ '/' :: fileName name)

/-- The code points of a text. -/
def points (s : List Char) : List ℕ := s.map Char.toNat

/-- The arguments of `config_download`, if a request leads there. -/
def route (path : List ℕ) : Option (List ℕ × List ℕ) :=
  match path.splitOn 0x2F with
  | [[], a, b, c, token, filename] =>
      if a = points "api".toList ∧ b = points "public".toList ∧ c = points "dl".toList ∧
          token ≠ [] ∧ filename ≠ [] then some (token, filename)
      else none
  | _ => none

/-- The download of the device works: its header can be sent and names the file,
and the link leads to the download with its token and the file's name. -/
def Downloads (t : Token) (name : List Char) : Prop :=
  encodable (contentDisposition name) ∧
    filename (contentDisposition name) = some (fileName name) ∧
    route (unquote (requestPath (points (downloadPath t name)))) =
      some (points t.text, points (fileName name))

/-- The name is a token without `#` and without an escape. -/
def Plain (name : List Char) : Prop :=
  (∀ c ∈ name, isTokenChar c ∧ c ≠ '#') ∧ hasEscape (points name) = false

/-! ### Characters of the header and of the link -/

lemma isTokenChar_bounds {c : Char} (h : isTokenChar c) : 0x20 < c.toNat ∧ c.toNat < 0x7F := by
  simp only [isTokenChar, Char.isAlphanum, Char.isAlpha, Char.isUpper, Char.isLower, Char.isDigit,
    Bool.or_eq_true, Bool.and_eq_true, decide_eq_true_eq, List.mem_cons, List.not_mem_nil, or_false,
    ge_iff_le, UInt32.le_iff_toNat_le, Char.toNat_val] at h
  rcases h with h | h
  · simp at h
    omega
  · rcases h with rfl | rfl | rfl | rfl | rfl | rfl | rfl | rfl | rfl | rfl | rfl | rfl | rfl |
      rfl | rfl <;> decide

lemma isTokenChar_of_isHexDigit {c : Char} (h : isHexDigit c) : isTokenChar c := by
  simp only [isHexDigit, Bool.or_eq_true, decide_eq_true_eq, List.mem_cons, List.not_mem_nil,
    or_false] at h
  rcases h with h | rfl | rfl | rfl | rfl | rfl | rfl
  · simp [isTokenChar, Char.isAlphanum, h]
  all_goals decide

/-- The token of a link has no `#`, no `%` and no slash. -/
lemma Token.text_chars (t : Token) : ∀ c ∈ t.text, isTokenChar c ∧ c ≠ '#' ∧ c ≠ '%' := by
  have hhex : ∀ c, isHexDigit c → isTokenChar c ∧ c ≠ '#' ∧ c ≠ '%' := by
    intro c hc
    refine ⟨isTokenChar_of_isHexDigit hc, ?_, ?_⟩
    · rintro rfl
      exact absurd hc (by decide)
    · rintro rfl
      exact absurd hc (by decide)
  have hdot : isTokenChar '.' ∧ '.' ≠ '#' ∧ '.' ≠ '%' := by decide
  intro c hc
  simp only [Token.text, List.mem_append, List.mem_cons] at hc
  rcases hc with hc | rfl | hc | rfl | hc
  · rcases t.configId_uuid c hc with h | rfl
    · exact hhex c h
    · decide
  · exact hdot
  · refine hhex c ?_
    have hdigit : c.isDigit := by
      rw [Nat.repr, String.toList_ofList] at hc
      exact Nat.isDigit_of_mem_toDigits (by decide) (by decide) hc
    simp [isHexDigit, hdigit]
  · exact hdot
  · exact hhex c (t.sig_hex c hc)

lemma mem_points {s : List Char} {n : ℕ} : n ∈ points s ↔ ∃ c ∈ s, c.toNat = n := by
  simp [points]

lemma notMem_points {s : List Char} {d : Char} (h : d ∉ s) : d.toNat ∉ points s := by
  rw [mem_points]
  rintro ⟨c, hc, heq⟩
  rw [Char.toNat_inj.mp heq] at hc
  exact h hc

/-! ### The path that is asked for -/

/-- The parts of the link's path. -/
def pathParts (t : Token) (name : List Char) : List (List ℕ) :=
  [points "api".toList, points "public".toList, points "dl".toList, points t.text,
    points (fileName name)]

lemma points_downloadPath (t : Token) (name : List Char) :
    points (downloadPath t name) = [0x2F].intercalate ([] :: pathParts t name) := by
  have hpre : points "/api/public/dl/".toList =
      0x2F :: (points "api".toList ++ 0x2F :: (points "public".toList ++
        0x2F :: (points "dl".toList ++ [0x2F]))) := by decide
  have happ : ∀ a b : List Char, points (a ++ b) = points a ++ points b := by simp [points]
  have hslash : ∀ a : List Char, points ('/' :: a) = 0x2F :: points a := fun a => rfl
  unfold downloadPath
  rw [happ, happ, hpre, hslash]
  simp [pathParts, List.intercalate_cons_cons, List.intercalate_singleton]

/-- A path of the route's shape is its two arguments. -/
lemma eq_of_route {path token file : List ℕ} (h : route path = some (token, file)) :
    path = [0x2F].intercalate [[], points "api".toList, points "public".toList, points "dl".toList,
      token, file] := by
  unfold route at h
  split at h
  · rename_i a b c tok f hsplit
    split_ifs at h with hparts
    obtain ⟨rfl, rfl, rfl, -, -⟩ := hparts
    cases h
    rw [← hsplit, List.intercalate_splitOn]
  · cases h

section

variable {t : Token} {name : List Char}

lemma chars_fileName (h : ∀ c ∈ name, isTokenChar c) : ∀ c ∈ fileName name, isTokenChar c := by
  intro c hc
  rcases List.mem_append.mp hc with hc | hc
  · exact h c hc
  · exact (List.all_iff_forall_prop.mp (by decide) : ∀ c ∈ ".conf".toList, isTokenChar c) c hc

lemma chars_downloadPath (h : ∀ c ∈ name, isTokenChar c) :
    ∀ c ∈ downloadPath t name, isTokenChar c ∨ c = '/' := by
  intro c hc
  unfold downloadPath at hc
  rw [List.mem_append, List.mem_append, List.mem_cons] at hc
  rcases hc with hc | hc | rfl | hc
  · have hpre : ∀ c ∈ "/api/public/dl/".toList, isTokenChar c ∨ c = '/' :=
      List.all_iff_forall_prop.mp (by decide)
    exact hpre c hc
  · exact .inl (t.text_chars c hc).1
  · exact .inr rfl
  · exact .inl (chars_fileName h c hc)

lemma ascii_downloadPath (h : ∀ c ∈ name, isTokenChar c) :
    ∀ n ∈ points (downloadPath t name), 0x20 < n ∧ n < 0x80 := by
  intro n hn
  obtain ⟨c, hc, rfl⟩ := mem_points.mp hn
  rcases chars_downloadPath h c hc with hc | rfl
  · have hbounds := isTokenChar_bounds hc
    omega
  · decide

/-- Only a `#` ends the path of the link. -/
lemma pathPart_downloadPath (h : ∀ c ∈ name, isTokenChar c) :
    pathPart (points (downloadPath t name)) =
      (points (downloadPath t name)).takeWhile fun n => n ≠ 0x23 := by
  have hchars := chars_downloadPath (t := t) h
  have hnot : ∀ d : Char, isTokenChar d = false → d ≠ '/' → d.toNat ∉ points (downloadPath t name) := by
    intro d hd hslash
    refine notMem_points fun hmem => ?_
    rcases hchars d hmem with h | h
    · rw [hd] at h
      cases h
    · exact hslash h
  have hquery := hnot '?' (by decide) (by decide)
  have hback := hnot '\\' (by decide) (by decide)
  have hascii := ascii_downloadPath (t := t) h
  generalize points (downloadPath t name) = path at *
  have hkept : path.filter (fun c => c ∉ [0x09, 0x0A, 0x0D]) = path := by
    rw [List.filter_eq_self]
    intro n hn
    have hn := hascii n hn
    simp only [List.mem_cons, List.not_mem_nil, or_false, decide_eq_true_eq]
    omega
  have hcut : path.takeWhile (fun c => c ∉ [0x3F, 0x23]) = path.takeWhile fun n => n ≠ 0x23 := by
    clear hkept hback hascii hnot
    induction path with
    | nil => rfl
    | cons n path ih =>
      have hquery : n ≠ 0x3F ∧ 0x3F ∉ path := by simpa [eq_comm] using hquery
      have ih := ih hquery.2
      by_cases hn : n = 0x23 <;> simp_all
  rw [pathPart, hkept, hcut]
  refine (List.map_congr_left fun n hn => ?_).trans (List.map_id _)
  have hne : n ≠ 0x5C := by
    rintro rfl
    exact hback ((List.takeWhile_sublist _).mem hn)
  simp [hne]

/-- No part of the link's path is a spelling of a dot. -/
lemma not_dots : ∀ s ∈ [] :: pathParts t name, isDot s = false ∧ isDoubleDot s = false := by
  have hlong : ∀ s : List ℕ, 7 ≤ s.length → isDot s = false ∧ isDoubleDot s = false := by
    intro s hs
    have hdots : ∀ a ∈ dots, a.length ≤ 3 := by decide
    constructor
    · refine isDot_eq_false fun hmem => ?_
      have hlen := hdots s hmem
      omega
    · simp only [isDoubleDot, List.any_eq_false, List.any_eq_true, decide_eq_true_eq]
      rintro a ha ⟨b, hb, rfl⟩
      have hlen := hdots a ha
      have hlen' := hdots b hb
      rw [List.length_append] at hs
      omega
  have hlast : ∀ s : List ℕ, s.getLast? = some 0x66 → isDot s = false ∧ isDoubleDot s = false := by
    intro s hs
    have hdots : ∀ a ∈ dots, a ≠ [] ∧ a.getLast? ≠ some 0x66 := by decide
    constructor
    · exact isDot_eq_false fun hmem => (hdots s hmem).2 hs
    · simp only [isDoubleDot, List.any_eq_false, List.any_eq_true, decide_eq_true_eq]
      rintro a - ⟨b, hb, rfl⟩
      rw [List.getLast?_append_of_ne_nil _ (hdots b hb).1] at hs
      exact (hdots b hb).2 hs
  intro s hs
  simp only [pathParts, List.mem_cons, List.not_mem_nil, or_false] at hs
  rcases hs with rfl | rfl | rfl | rfl | rfl | rfl
  · decide
  · decide
  · decide
  · decide
  · refine hlong _ ?_
    have hsig := t.sig_length
    simp only [points, Token.text, List.length_map, List.length_append, List.length_cons]
    omega
  · refine hlast _ ?_
    have hconf : points (fileName name) = points name ++ points ".conf".toList := by
      simp [points, fileName]
    rw [hconf, List.getLast?_append_of_ne_nil _ (by decide)]
    rfl

lemma notMem_slash (h : ∀ c ∈ name, isTokenChar c) : ∀ s ∈ [] :: pathParts t name, 0x2F ∉ s := by
  have hslash : ∀ s : List Char, (∀ c ∈ s, isTokenChar c) → 0x2F ∉ points s := by
    intro s hs
    refine notMem_points (d := '/') fun hmem => ?_
    exact absurd (hs '/' hmem) (by decide)
  intro s hs
  simp only [pathParts, List.mem_cons, List.not_mem_nil, or_false] at hs
  rcases hs with rfl | rfl | rfl | rfl | rfl | rfl
  · decide
  · decide
  · decide
  · decide
  · exact hslash _ fun c hc => (t.text_chars c hc).1
  · exact hslash _ (chars_fileName h)

lemma splitOn_downloadPath (h : ∀ c ∈ name, isTokenChar c) :
    (points (downloadPath t name)).splitOn 0x2F = [] :: pathParts t name := by
  rw [points_downloadPath]
  exact List.splitOn_intercalate _ (notMem_slash h) (by simp)

/-- **Nothing ends the path and nothing is resolved: the link is asked for as it is.** -/
lemma requestPath_downloadPath (h : ∀ c ∈ name, isTokenChar c ∧ c ≠ '#') :
    requestPath (points (downloadPath t name)) = encodePath (points (downloadPath t name)) := by
  have htoken : ∀ c ∈ name, isTokenChar c := fun c hc => (h c hc).1
  have hhash : '#' ∉ downloadPath t name := by
    intro hmem
    unfold downloadPath fileName at hmem
    rw [List.mem_append, List.mem_append, List.mem_cons, List.mem_append] at hmem
    rcases hmem with hmem | hmem | hmem | hmem | hmem
    · exact absurd hmem (by decide)
    · exact (t.text_chars _ hmem).2.1 rfl
    · exact absurd hmem (by decide)
    · exact (h _ hmem).2 rfl
    · exact absurd hmem (by decide)
  have hpart : pathPart (points (downloadPath t name)) = points (downloadPath t name) := by
    rw [pathPart_downloadPath htoken, List.takeWhile_eq_self_iff]
    intro n hn
    refine decide_eq_true ?_
    rintro rfl
    exact notMem_points hhash hn
  have hparts : segments (points (downloadPath t name)) = pathParts t name := by
    rw [segments, splitOn_downloadPath htoken]
    rfl
  have hdots : resolve [] (pathParts t name) = pathParts t name :=
    resolve_eq fun s hs => not_dots s (List.mem_cons_of_mem _ hs)
  obtain ⟨rest, hrest⟩ : ∃ rest, points (downloadPath t name) = 0x2F :: rest := by
    rw [points_downloadPath]
    exact ⟨_, rfl⟩
  rw [requestPath, hpart, hparts, hdots, ← hparts, hrest, joinPath_segments]

/-- Only the name of the device can bring an escape into the path. -/
lemma hasEscape_downloadPath : hasEscape (points (downloadPath t name)) = hasEscape (points name) := by
  have happ : ∀ a b : List Char, points (a ++ b) = points a ++ points b := by simp [points]
  have hpre : '%' ∉ "/api/public/dl/".toList := by decide
  have htext : '%' ∉ t.text := fun hmem => (t.text_chars _ hmem).2.2 rfl
  have hslash : points ('/' :: fileName name) = [0x2F] ++ (points name ++ points ".conf".toList) := by
    simp [points, fileName]
  -- the digits of an escape cannot come from the end of the file name either
  have hdot : ∀ c ∈ (points ".conf".toList).head?, hexValue c = none := by decide
  have hconf : hasEscape (points ".conf".toList) = false := hasEscape_of_notMem (by decide)
  unfold downloadPath
  rw [happ, happ, hslash, hasEscape_append_of_notMem (notMem_points hpre),
    hasEscape_append_of_notMem (notMem_points htext), hasEscape_append_of_notMem (by decide),
    hasEscape_append hdot, hconf, Bool.or_false]

/-- A link that leads to its download is read as it was written. -/
lemma unquote_of_route
    (h : route (unquote (requestPath (points (downloadPath t name)))) =
      some (points t.text, points (fileName name))) :
    unquote (requestPath (points (downloadPath t name))) = points (downloadPath t name) := by
  rw [eq_of_route h, points_downloadPath]
  rfl

/-- The path of such a link has no `#` and no escape: both make it shorter. -/
lemma plain_of_unquote (htoken : ∀ c ∈ name, isTokenChar c)
    (hsame : unquote (requestPath (points (downloadPath t name))) = points (downloadPath t name)) :
    Plain name := by
  obtain ⟨rest, hrest⟩ : ∃ rest, points (downloadPath t name) = 0x2F :: rest := by
    rw [points_downloadPath]
    exact ⟨_, rfl⟩
  have hascii := ascii_downloadPath (t := t) htoken
  have hpart := pathPart_downloadPath (t := t) htoken
  have hhash : '#' ∉ name := by
    intro hmem
    have hpath : (0x23 : ℕ) ∈ points (downloadPath t name) := by
      refine mem_points.mpr ⟨'#', ?_, rfl⟩
      unfold downloadPath fileName
      simp [hmem]
    have hcut : pathPart (points (downloadPath t name)) =
        0x2F :: rest.takeWhile fun n => n ≠ 0x23 := by
      rw [hpart, hrest]
      rfl
    have hlen := length_unquote_requestPath hcut fun n hn => by
      rw [hpart] at hn
      exact (hascii n ((List.takeWhile_sublist _).mem hn)).2
    rw [hsame, hpart] at hlen
    have hall := (List.takeWhile_prefix _).eq_of_length
      (le_antisymm (List.takeWhile_prefix _).length_le hlen)
    exact absurd (List.takeWhile_eq_self_iff.mp hall _ hpath) (by decide)
  have hplain : ∀ c ∈ name, isTokenChar c ∧ c ≠ '#' := by
    refine fun c hc => ⟨htoken c hc, ?_⟩
    rintro rfl
    exact hhash hc
  refine ⟨hplain, ?_⟩
  rw [← hasEscape_downloadPath (t := t)]
  by_contra hescape
  have hshort := length_unquoteToBytes_lt (eq_true_of_ne_false hescape)
  have hlen : (points (downloadPath t name)).length ≤
      (unquoteToBytes (points (downloadPath t name))).length := by
    calc (points (downloadPath t name)).length
        = (unquote (encodePath (points (downloadPath t name)))).length := by
          rw [← requestPath_downloadPath hplain, hsame]
      _ ≤ (unquoteToBytes (encodePath (points (downloadPath t name)))).length :=
          Utf8.length_decodeReplace _
      _ = (unquoteToBytes (points (downloadPath t name))).length := by
          rw [unquoteToBytes_encodePath fun n hn => (hascii n hn).2]
  omega

/-- The link of a plain name leads to its download. -/
lemma route_of_plain (h : Plain name) :
    route (unquote (requestPath (points (downloadPath t name)))) =
      some (points t.text, points (fileName name)) := by
  have htoken : ∀ c ∈ name, isTokenChar c := fun c hc => (h.1 c hc).1
  have hascii := ascii_downloadPath (t := t) htoken
  have hescape : hasEscape (points (downloadPath t name)) = false := by
    rw [hasEscape_downloadPath, h.2]
  have hsame : unquote (requestPath (points (downloadPath t name))) =
      points (downloadPath t name) := by
    rw [requestPath_downloadPath h.1, unquote, unquoteToBytes_encodePath fun n hn => (hascii n hn).2,
      unquoteToBytes_eq_self hescape, Utf8.decodeReplace_ascii fun n hn => (hascii n hn).2]
  have hnil : points t.text ≠ [] ∧ points (fileName name) ≠ [] := by
    simp [points, Token.text, fileName]
  rw [hsame, route, splitOn_downloadPath htoken]
  simp [pathParts, hnil]

/-- **The download of a device works exactly if its name is plain.** -/
theorem download_iff (t : Token) (name : DeviceName) : Downloads t name.text ↔ Plain name.text := by
  have hne : fileName name.text ≠ [] := by simp [fileName]
  have hparse : filename (contentDisposition name.text) = some (fileName name.text) ↔
      ∀ c ∈ fileName name.text, isTokenChar c := filename_plain hne
  constructor
  · rintro ⟨-, hfile, hroute⟩
    have htoken : ∀ c ∈ name.text, isTokenChar c := fun c hc =>
      hparse.mp hfile c (List.mem_append_left _ hc)
    exact plain_of_unquote htoken (unquote_of_route hroute)
  · intro h
    have htoken : ∀ c ∈ name.text, isTokenChar c := fun c hc => (h.1 c hc).1
    refine ⟨?_, hparse.mpr (chars_fileName htoken), route_of_plain h⟩
    have hpre : encodable "attachment; filename=".toList = true := by decide
    have hfile : encodable (fileName name.text) = true := by
      refine List.all_eq_true.mpr fun c hc => ?_
      have hbounds := isTokenChar_bounds (chars_fileName htoken c hc)
      simp only [Bool.and_eq_true, decide_eq_true_eq]
      omega
    unfold contentDisposition
    rw [encodable, List.all_append]
    exact Bool.and_eq_true_iff.mpr ⟨hpre, hfile⟩

end

/-- A name that `add_config` writes as it is. -/
def cyrillicName : DeviceName where
  text := ['м', 'а', 'м', 'а']
  accepted := ⟨['м', 'а', 'м', 'а'], .inl (by decide)⟩

def someToken : Token where
  configId := ['1', 'f']
  exp := 120
  sig := List.replicate 32 'a'
  configId_uuid := List.all_iff_forall_prop.mp (by decide)
  sig_hex := List.all_iff_forall_prop.mp (by decide)
  sig_length := by decide

/-- A Cyrillic name cannot be put into the header. -/
theorem not_every_name_downloads : ¬ ∀ (t : Token) (name : DeviceName), Downloads t name.text := by
  intro h
  have hsent : encodable (contentDisposition cyrillicName.text) = true :=
    (h someToken cyrillicName).1
  have hnot : encodable (contentDisposition ['м', 'а', 'м', 'а']) = false := by decide
  rw [cyrillicName, hnot] at hsent
  cases hsent

end VpnPortal.Download
