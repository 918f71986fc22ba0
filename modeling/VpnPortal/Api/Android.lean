/-
The Android app on the portal (`tools/android-release.sh`, `pwa/api/android.py`).

A release is checked on the workstation and put on the portal as two files that are
moved into place one after the other: the APK, then its description. The portal reads
the description, then looks at the size of the APK, and offers what is described if
the sizes agree; for a download it then looks at the length of the APK, announces it, and
opens the file. One operator works through any releases and withdrawals; any command may
fail, and any number of readers read at any moment. The text of the script's own checks
on the APK is that of the tools it runs (`apksigner`, `aapt2`, `unzip`); what they say is
the `Apk`. Copies that break off on the way are left out: they are under other names; so
are requests for a part of the file.

* `Apk`, `passes`, `describe`: the release and its description;
* `currentRelease`, `currentRelease_describe`: what the portal makes of it: a description
  beside an APK of its size is read back as the release;
* `publish`, `operate`, `offer`, `download`: the scripts and the requests;
* `Store.Sound`, `Operates.sound`: what is in place was checked, the versions rise, and
  every step of the operator keeps that;
* `offers_sound`: what is offered, and what a download is named after, was checked and
  described; only a download can end in an error, and only if the APK could not be read or
  another one took its place.
-/
import VpnPortal.Json.RoundTrip
import VpnPortal.Sessions.Protocol

namespace VpnPortal.Android

open JsonText Sessions

/-! ### A release -/

/-- The code points of a text. -/
def points (s : String) : List ℕ := s.toList.map Char.toNat

/-- `^[0-9a-f]{64}$` of a line. -/
def isSha256 (s : List ℕ) : Bool :=
  s.length = 64 && s.all fun c => (0x30 ≤ c && c ≤ 0x39) || (0x61 ≤ c && c ≤ 0x66)

/-- An APK, and what the tools say of it. -/
structure Apk where
  /-- The digest of its certificate, if `apksigner` verifies it. -/
  signer : Option String
  package : String
  versionCode : ℕ
  versionName : List ℕ
  debuggable : Bool
  /-- `PrivateKey = …` is in one of its files. -/
  privateKey : Bool
  files : List String
  /-- `sha256sum` -/
  sha256 : List ℕ
  size : ℕ
  sha : isSha256 sha256 = true
  deriving DecidableEq, Repr

/-- `tr -d ' :' | tr 'A-F' 'a-f'` -/
def plainDigest (s : String) : List Char :=
  (s.toList.filter fun c => c ≠ ' ' ∧ c ≠ ':' ∧ c ≠ '\n').map fun c =>
    if 'A' ≤ c ∧ c ≤ 'F' then c.toLower else c

/-- A digit, a letter, a dot or a hyphen. -/
def isNameChar (c : ℕ) : Bool :=
  (0x30 ≤ c && c ≤ 0x39) || (0x41 ≤ c && c ≤ 0x5A) || (0x61 ≤ c && c ≤ 0x7A) || c = 0x2E || c = 0x2D

/-- `^[0-9][0-9A-Za-z.-]{0,31}$` of a line. -/
def isVersionName (s : List ℕ) : Bool :=
  match s with
  | [] => false
  | c :: rest => isDigit c && rest.all isNameChar && rest.length ≤ 31

/-- `${so##*/}` -/
def baseName (path : List Char) : List Char := (path.reverse.takeWhile (· ≠ '/')).reverse

/-- `NATIVE_OK` -/
def nativeOk : String := "libwg-go.so libandroidx.graphics.path.so"

/-- `[[ " $NATIVE_OK " == *" ${so##*/} "* ]]` -/
def isNativeOk (path : String) : Bool :=
  decide ((' ' :: (baseName path.toList ++ [' '])) <:+: (' ' :: (nativeOk.toList ++ [' '])))

/-- `grep '\.so$'` -/
def isNative (path : String) : Bool := decide (".so".toList <:+ path.toList)

/-- The checks of `android-release.sh` up to the description. Without a native library
`grep` fails, and the script with it. -/
def passes (want : String) (a : Apk) : Bool :=
  a.signer.any (fun got => plainDigest got ≠ [] ∧ plainDigest got = plainDigest want) &&
  a.package = "com.sov3r3ign.app" && 1 ≤ a.versionCode && isVersionName a.versionName && !a.debuggable &&
  !a.privateKey && a.files.any isNative && (a.files.filter isNative).all isNativeOk &&
  a.files.any (fun path => decide ("/libwg-go.so".toList <:+ path.toList)) &&
  -- `printf %d` fails beyond
  a.versionCode < 2 ^ 63 && a.size < 2 ^ 63

/-- `printf '{"version_code": %d, "version_name": "%s", "sha256": "%s", "size": %d}\n'` -/
def describe (a : Apk) : List ℕ :=
  points "\x7b\"version_code\": " ++ decimal a.versionCode ++ points ", \"version_name\": \"" ++
    a.versionName ++ points "\", \"sha256\": \"" ++ a.sha256 ++ points "\", \"size\": " ++
    decimal a.size ++ points "\x7d\n"

/-! ### What the portal makes of it -/

/-- What is offered. -/
structure Release where
  versionCode : ℤ
  versionName : List ℕ
  sha256 : List ℕ
  size : ℕ
  deriving DecidableEq, Repr

/-- The release that an APK is. -/
def Apk.release (a : Apk) : Release := ⟨a.versionCode, a.versionName, a.sha256, a.size⟩

/-- `$` matches before a newline at the end, too. -/
def matchesLine (p : List ℕ → Bool) (s : List ℕ) : Bool :=
  p s || (s.getLast? = some 0x0A && p s.dropLast)

section Portal

variable (L : FloatLib)

variable {L} in
/-- `isinstance(declared, int)`, and the number that it is; `True` is an integer. -/
def intOf : Value L.F → Option ℤ
  | .int n => some n
  | .bool b => some (if b then 1 else 0)
  | _ => none

variable {L} in
/-- The checks of `current_release` on what was read, with the size of the APK. -/
def believed (data : Value L.F) (size : ℕ) : Option Release :=
  match data with
  | .obj ms =>
      match lookup ms (points "version_code"), lookup ms (points "version_name"),
        lookup ms (points "sha256"), lookup ms (points "size") with
      | some (.int code), some (.str name), some (.str sha), some declared =>
          if code < 1 ∨ matchesLine isVersionName name = false ∨ matchesLine isSha256 sha = false ∨
            intOf declared ≠ some (size : ℤ) then none
          else some ⟨code, name, sha, size⟩
      | _, _, _, _ => none
  | _ => none

/-- `current_release`, of the text of the description and the size of the APK, if they
can be read. A `RecursionError` is not caught. -/
def currentRelease (limit : ℕ) (text : Option (List ℕ)) (size : Option ℕ) : Except Fault (Option Release) :=
  match text with
  | none => .ok none
  | some text =>
      match (loads limit text : Except Fault (Value L.F)) with
      | .error .invalid => .ok none
      | .error .recursion => .error .recursion
      | .ok data => .ok (size.bind (believed data))

end Portal

/-! ### The description is read back -/

section ReadBack

variable {L : FloatLib} {limit : ℕ} {stack : List (Frame L)} {ms : List (List ℕ × Value L.F)} {k : List ℕ}

/-- A character that is written as it is. -/
def IsPlain (c : ℕ) : Prop := 0x20 ≤ c ∧ c < 0x7F ∧ c ≠ 0x22 ∧ c ≠ 0x5C ∧ c ≠ 0x2F

lemma phpEscape_plain {c : ℕ} (h : IsPlain c) : phpEscape c = [c] := by
  obtain ⟨hlo, hhi, hquote, hback, hslash⟩ := h
  have hshort : shortEscape c = none := by
    unfold shortEscape
    simp only [hquote, hback, if_false]
    repeat rw [if_neg (by omega)]
  simp only [phpEscape, hshort, hslash, if_false]
  exact if_pos ⟨hlo, by omega⟩

lemma isScalar_of_plain {c : ℕ} (h : IsPlain c) : IsScalar c := by
  obtain ⟨-, hhi, -⟩ := h
  exact ⟨by omega, by omega⟩

lemma writeText_plain {s : List ℕ} (h : ∀ c ∈ s, IsPlain c) :
    writeText (phpWriter fun _ : L.F => []) s = 0x22 :: (s ++ [0x22]) := by
  have hone : ∀ c ∈ s, phpEscape c = [c] := fun c hc => phpEscape_plain (h c hc)
  show 0x22 :: (s.flatMap phpEscape ++ [0x22]) = _
  rw [List.flatMap_congr hone, List.flatMap_singleton']

/-- A key, its colon and the blank behind it. -/
lemma run_key {key : List ℕ} (h : ∀ c ∈ key, IsPlain c) (closable : Bool) :
    run limit ⟨.obj ms k :: stack, .key closable⟩ (0x22 :: (key ++ [0x22]) ++ [0x3A, 0x20]) =
      .ok ⟨.obj ms key :: stack, .value false⟩ := by
  rw [← writeText_plain (L := L) h,
    run_append_of_ok (run_writeKey fun c hc => isScalar_of_plain (h c hc))]
  rfl

/-- A member whose value is a text, and the comma and the blank behind it. -/
lemma run_text {s : List ℕ} (h : ∀ c ∈ s, IsPlain c) :
    run limit ⟨.obj ms k :: stack, .value false⟩ (0x22 :: (s ++ [0x22]) ++ [0x2C, 0x20]) =
      .ok ⟨.obj (insert ms k (.str s)) [] :: stack, .key false⟩ := by
  rw [← writeText_plain (L := L) h,
    run_append_of_ok (run_writeText fun c hc => isScalar_of_plain (h c hc))]
  rfl

lemma intText_natCast (n : ℕ) : intText n = decimal n := by
  rw [intText, if_neg (by omega), Int.natAbs_natCast]

/-- A member whose value is a number, and the comma and the blank behind it. -/
lemma run_number {n : ℕ} (hn : n < 2 ^ 63) :
    run limit ⟨.obj ms k :: stack, .value false⟩ (decimal n ++ [0x2C] ++ [0x20]) =
      .ok ⟨.obj (insert ms k (.int n)) [] :: stack, .key false⟩ := by
  have hint : run limit ⟨.obj ms k :: stack, .value false⟩ (decimal n ++ [0x2C]) =
      .ok ⟨.obj (insert ms k (.int n)) [] :: stack, .key false⟩ := by
    rw [← intText_natCast, run_intText (by rw [Int.natAbs_natCast]; omega) (.inl rfl)]
    rfl
  rw [run_append_of_ok hint]
  rfl

/-- The last member, and the end of the object. -/
lemma run_last {n : ℕ} (hn : n < 2 ^ 63) :
    run limit ⟨[.obj ms k], .value false⟩ (decimal n ++ [0x7D] ++ [0x0A]) =
      .ok ⟨[], .done (.obj (insert ms k (.int n)))⟩ := by
  have hint : run limit ⟨[.obj ms k], .value false⟩ (decimal n ++ [0x7D]) =
      .ok ⟨[], .done (.obj (insert ms k (.int n)))⟩ := by
    rw [← intText_natCast, run_intText (by rw [Int.natAbs_natCast]; omega) (.inr (.inr rfl))]
    rfl
  rw [run_append_of_ok hint]
  rfl

lemma isPlain_name {c : ℕ} (h : isNameChar c = true) : IsPlain c := by
  simp only [isNameChar, Bool.or_eq_true, Bool.and_eq_true, decide_eq_true_eq] at h
  unfold IsPlain
  omega

lemma isPlain_versionName {s : List ℕ} (h : isVersionName s = true) : ∀ c ∈ s, IsPlain c := by
  cases s with
  | nil => exact fun c hc => absurd hc List.not_mem_nil
  | cons d rest =>
    simp only [isVersionName, Bool.and_eq_true, List.all_eq_true] at h
    intro c hc
    rcases List.mem_cons.mp hc with rfl | hc
    · have hdigit := h.1.1
      simp only [isDigit, Bool.and_eq_true, decide_eq_true_eq] at hdigit
      unfold IsPlain
      omega
    · exact isPlain_name (h.1.2 c hc)

lemma isPlain_sha256 {s : List ℕ} (h : isSha256 s = true) : ∀ c ∈ s, IsPlain c := by
  intro c hc
  simp only [isSha256, Bool.and_eq_true, List.all_eq_true, Bool.or_eq_true, decide_eq_true_eq] at h
  have hchar := h.2 c hc
  unfold IsPlain
  omega

/-- The description, piece by piece. -/
lemma describe_eq (a : Apk) : describe a =
    0x7B :: ((0x22 :: (points "version_code" ++ [0x22]) ++ [0x3A, 0x20]) ++
      ((decimal a.versionCode ++ [0x2C] ++ [0x20]) ++
      ((0x22 :: (points "version_name" ++ [0x22]) ++ [0x3A, 0x20]) ++
      ((0x22 :: (a.versionName ++ [0x22]) ++ [0x2C, 0x20]) ++
      ((0x22 :: (points "sha256" ++ [0x22]) ++ [0x3A, 0x20]) ++
      ((0x22 :: (a.sha256 ++ [0x22]) ++ [0x2C, 0x20]) ++
      ((0x22 :: (points "size" ++ [0x22]) ++ [0x3A, 0x20]) ++
      (decimal a.size ++ [0x7D] ++ [0x0A])))))))) := by
  have h₁ : points "\x7b\"version_code\": " =
      0x7B :: (0x22 :: (points "version_code" ++ [0x22]) ++ [0x3A, 0x20]) := by decide
  have h₂ : points ", \"version_name\": \"" =
      [0x2C] ++ [0x20] ++ (0x22 :: (points "version_name" ++ [0x22]) ++ [0x3A, 0x20]) ++ [0x22] := by decide
  have h₃ : points "\", \"sha256\": \"" =
      [0x22] ++ [0x2C, 0x20] ++ (0x22 :: (points "sha256" ++ [0x22]) ++ [0x3A, 0x20]) ++ [0x22] := by decide
  have h₄ : points "\", \"size\": " =
      [0x22] ++ [0x2C, 0x20] ++ (0x22 :: (points "size" ++ [0x22]) ++ [0x3A, 0x20]) := by decide
  have h₅ : points "\x7d\n" = [0x7D] ++ [0x0A] := by decide
  rw [describe, h₁, h₂, h₃, h₄, h₅]
  simp only [List.append_assoc, List.cons_append, List.nil_append]

/-- The members of a description. -/
def Apk.members (a : Apk) : List (List ℕ × Value L.F) :=
  [(points "version_code", .int a.versionCode), (points "version_name", .str a.versionName),
    (points "sha256", .str a.sha256), (points "size", .int a.size)]

/-- What a release that can be published is. -/
structure Apk.Fit (a : Apk) : Prop where
  code : 1 ≤ a.versionCode ∧ a.versionCode < 2 ^ 63
  name : isVersionName a.versionName = true
  size : a.size < 2 ^ 63

lemma loads_describe {a : Apk} (h : a.Fit) (hlimit : 0 < limit) :
    (loads limit (describe a) : Except Fault (Value L.F)) = .ok (.obj a.members) := by
  have hkeys : ∀ key ∈ [points "version_code", points "version_name", points "sha256", points "size"],
      ∀ c ∈ key, IsPlain c := by
    unfold IsPlain
    decide
  have hopen : step limit (start : State L) 0x7B = .ok ⟨[.obj [] []], .key true⟩ := by
    show stepValue limit [] false 0x7B = _
    unfold stepValue
    rw [if_neg (by decide), if_neg (by decide), if_pos (by decide), if_neg (by simpa using Nat.pos_iff_ne_zero.mp hlimit)]
    rfl
  rw [loads, describe_eq, run_cons_of_ok hopen, run_append_of_ok (run_key (hkeys _ (by simp)) true),
    run_append_of_ok (run_number h.code.2), run_append_of_ok (run_key (hkeys _ (by simp)) false),
    run_append_of_ok (run_text (isPlain_versionName h.name)),
    run_append_of_ok (run_key (hkeys _ (by simp)) false),
    run_append_of_ok (run_text (isPlain_sha256 a.sha)),
    run_append_of_ok (run_key (hkeys _ (by simp)) false), run_last h.size]
  rfl

/-- **A description is read back**: with an APK of the size that it says, the portal offers
the release that was described. -/
lemma currentRelease_describe {a : Apk} (h : a.Fit) (hlimit : 0 < limit) (size : Option ℕ) :
    currentRelease L limit (some (describe a)) size =
      .ok (if size = some a.size then some a.release else none) := by
  have hcode : lookup (a.members : List (List ℕ × Value L.F)) (points "version_code") =
    some (.int a.versionCode) := rfl
  have hname : lookup (a.members : List (List ℕ × Value L.F)) (points "version_name") =
    some (.str a.versionName) := rfl
  have hsha : lookup (a.members : List (List ℕ × Value L.F)) (points "sha256") =
    some (.str a.sha256) := rfl
  have hsize : lookup (a.members : List (List ℕ × Value L.F)) (points "size") =
    some (.int a.size) := rfl
  have hone : ¬ (a.versionCode : ℤ) < 1 := by
    have hpos := h.code.1
    omega
  have hforms : matchesLine isVersionName a.versionName = true ∧ matchesLine isSha256 a.sha256 = true := by
    simp [matchesLine, h.name, a.sha]
  have hread : currentRelease L limit (some (describe a)) size =
      .ok (size.bind (believed (.obj a.members : Value L.F))) := by
    simp only [currentRelease, loads_describe h hlimit]
  rw [hread]
  cases size with
  | none => simp
  | some n =>
    simp only [believed, Option.bind_some, hcode, hname, hsha, hsize, hone, hforms, intOf, Option.some.injEq,
      ne_eq, false_or, Bool.true_eq_false, Nat.cast_inj, Except.ok.injEq]
    by_cases heq : n = a.size
    · rw [if_neg (by simp [heq]), if_pos heq, heq]
      rfl
    · rw [if_pos (by simpa using Ne.symm heq), if_neg heq]

end ReadBack

/-! ### The scripts and the requests -/

/-- The files of a release, on their way and in place. -/
structure Store where
  /-- `/tmp/sovereign.apk.upload` and `/tmp/android.json.upload` -/
  uploadApk : Option Apk := none
  uploadMeta : Option (List ℕ) := none
  /-- `.sovereign.apk.new` and `.android.json.new` -/
  newApk : Option Apk := none
  newMeta : Option (List ℕ) := none
  /-- `sovereign.apk` and `android.json` -/
  apk : Option Apk := none
  metaFile : Option (List ℕ) := none
  /-- For the history: whose descriptions were moved into place, -/
  released : List Apk := []
  /-- and whether one was removed, or not read when a release was checked. -/
  forgotten : Bool := false

/-- What a step meets: the command, or the reading, fails. -/
structure Input where
  fails : Bool

/-- The answer to a request. -/
inductive Answer where
  | operated
  | offer (r : Option Release)
  | file (name : List ℕ) (a : Apk)
  /-- 404 -/
  | notAvailable
  deriving DecidableEq

abbrev Job := Proc Store Input Unit

/-- A command that fails, or does this. -/
def command (f : Store → Store) : Job Bool :=
  Proc.exchange fun s i => if i.fails then (false, s) else (true, f s)

/-- Commands under `set -e`. -/
def inTurn : List (Store → Store) → Job Bool
  | [] => pure true
  | f :: fs => do
      match ← command f with
      | false => pure false
      | true => inTurn fs

/-- `"version_code": *` and the digits behind it: the last of a line. -/
def shownCode : List ℕ → Option (List ℕ)
  | [] => none
  | c :: rest =>
      match shownCode rest with
      | some digits => some digits
      | none =>
          if (points "\"version_code\":").isPrefixOf (c :: rest) then
            some ((((c :: rest).drop (points "\"version_code\":").length).dropWhile (· = 0x20)).takeWhile isDigit)
          else none

/-- `(( code <= current ))`, if there is a number. -/
def notAbove (a : Apk) (shown : Option (List ℕ)) : Bool :=
  shown.any fun digits => digits ≠ [] ∧ a.versionCode ≤ natOf digits

/-- What `--publish` does on the host. -/
def steps (a : Apk) : List (Store → Store) :=
  [fun s => { s with uploadApk := some a },
    fun s => { s with uploadMeta := some (describe a) },
    fun s => { s with newApk := s.uploadApk },
    fun s => { s with newMeta := s.uploadMeta },
    fun s => { s with apk := s.newApk, newApk := none },
    fun s => { s with metaFile := s.newMeta, newMeta := none, released := s.released ++ [a] },
    fun s => { s with uploadApk := none, uploadMeta := none }]

/-- `android-release.sh --publish`: whether it ends well. A description that cannot be
read is taken for none. -/
def publish (want : String) (a : Apk) : Job Bool :=
  if passes want a then do
    let shown ← Proc.exchange fun s i =>
      if i.fails then (none, { s with forgotten := s.forgotten || s.metaFile.isSome })
      else (s.metaFile.bind shownCode, s)
    if notAbove a shown then pure false else inTurn (steps a)
  else pure false

/-- What the operator does. -/
inductive Deed where
  | publish (a : Apk)
  /-- `sudo rm /opt/pwa/downloads/android.json` -/
  | withdraw

/-- One deed after the other, each of which may fail. -/
def operate (want : String) : List Deed → Job Answer
  | [] => pure .operated
  | .publish a :: deeds => do
      let _ ← publish want a
      operate want deeds
  | .withdraw :: deeds => do
      let _ ← command fun s => { s with metaFile := none, forgotten := true }
      operate want deeds

section Requests

variable (L : FloatLib) (limit : ℕ)

/-- `current_release`: the description is read, then the APK is looked at. -/
def current : Job (Option Release) := do
  let text ← Proc.exchange fun s i => (if i.fails then none else s.metaFile, s)
  match ← Proc.exchange fun s i =>
    (currentRelease L limit text (if i.fails then none else s.apk.map Apk.size), s) with
  | .ok r => pure r
  | .error _ => .raise ()

/-- `/api/public/android` -/
def offer : Job Answer := do
  let r ← current L limit
  pure (.offer r)

/-- The name under which a release is saved. -/
def Release.fileName (r : Release) : List ℕ := points "sovereign-" ++ r.versionName ++ points ".apk"

/-- `FileResponse`: the length of the file is looked at and announced, then the file is
opened and sent. One of another length breaks the answer off. -/
def fileResponse (name : List ℕ) : Job Answer := do
  match ← Proc.exchange fun s i => (if i.fails then none else s.apk.map Apk.size, s) with
  | none => .raise ()
  | some size =>
      match ← Proc.exchange fun s i => (if i.fails then none else s.apk, s) with
      | none => .raise ()
      | some a => if a.size = size then pure (.file name a) else .raise ()

/-- `/download/android` -/
def download : Job Answer := do
  match ← current L limit with
  | none => pure .notAvailable
  | some r => fileResponse r.fileName

/-- Who is at work. -/
inductive Who (ρ : Type) where
  | operator
  | asks (r : ρ)
  | downloads (r : ρ)
  deriving DecidableEq

/-- The operator with these deeds, and any number of readers. -/
def portal (want : String) (deeds : List Deed) {ρ : Type} : Cfg (Who ρ) Store Input Unit Answer :=
  ⟨{}, fun
    | .operator => operate want deeds
    | .asks _ => offer L limit
    | .downloads _ => download L limit⟩

end Requests

/-! ### The version that is read -/

section Shown

lemma points_key : points "\"version_code\":" = 0x22 :: 0x76 :: points "ersion_code\":" := by decide

/-- Nothing is shown before the first quote. -/
lemma shownCode_skip {s t : List ℕ} (h : ∀ c ∈ s, c ≠ 0x22) : shownCode (s ++ t) = shownCode t := by
  induction s with
  | nil => rfl
  | cons c s ih =>
    have hne : (points "\"version_code\":").isPrefixOf (c :: (s ++ t)) = false := by
      have hc : (0x22 == c) = false := beq_eq_false_iff_ne.mpr (h c List.mem_cons_self).symm
      rw [points_key, List.isPrefixOf_cons_cons, hc, Bool.false_and]
    rw [List.cons_append, shownCode, ih fun d hd => h d (List.mem_cons_of_mem _ hd), hne]
    cases shownCode t <;> rfl

/-- A text that shows no version, neither does a quote before it. -/
structure Silent (t : List ℕ) : Prop where
  shown : shownCode t = none
  head : t.head? ≠ some 0x76

lemma silent_nil : Silent [] := ⟨rfl, by simp⟩

lemma Silent.skip {s t : List ℕ} (ht : Silent t) (hs : ∀ c ∈ s, c ≠ 0x22) (hv : s.head? ≠ some 0x76) :
    Silent (s ++ t) := by
  refine ⟨(shownCode_skip hs).trans ht.shown, ?_⟩
  cases s with
  | nil => exact ht.head
  | cons c s => exact hv

/-- A quote that no `v` follows. -/
lemma Silent.quote {t : List ℕ} (ht : Silent t) : Silent (0x22 :: t) := by
  refine ⟨?_, by simp⟩
  have hne : (points "\"version_code\":").isPrefixOf (0x22 :: t) = false := by
    cases t with
    | nil => rw [points_key, List.isPrefixOf_cons_cons, List.isPrefixOf_cons_nil, Bool.and_false]
    | cons c t =>
      have hv : (0x76 == c) = false :=
        beq_eq_false_iff_ne.mpr fun hv => ht.head (by rw [← hv, List.head?_cons])
      rw [points_key, List.isPrefixOf_cons_cons, List.isPrefixOf_cons_cons, hv, Bool.false_and,
        Bool.and_false]
  rw [shownCode, ht.shown, hne]
  rfl

/-- A text in quotes that does not begin with `v`, and the colon or the comma behind it. -/
lemma Silent.piece {s sep t : List ℕ} (ht : Silent t) (hs : ∀ c ∈ s, c ≠ 0x22) (hv : s.head? ≠ some 0x76)
    (hsep : sep = [0x3A, 0x20] ∨ sep = [0x2C, 0x20]) : Silent (0x22 :: (s ++ [0x22]) ++ sep ++ t) := by
  have hrest : Silent (sep ++ t) := by
    rcases hsep with rfl | rfl
    · exact ht.skip (by decide) (by decide)
    · exact ht.skip (by decide) (by decide)
  rw [List.append_assoc, List.cons_append, List.append_assoc]
  exact (hrest.quote.skip hs hv).quote

/-- The key `version_name` is not the one that is looked for. -/
lemma Silent.versionName {t : List ℕ} (ht : Silent t) :
    Silent (0x22 :: (points "version_name" ++ [0x22]) ++ [0x3A, 0x20] ++ t) := by
  have hrest : Silent ([0x3A, 0x20] ++ t) := ht.skip (by decide) (by decide)
  rw [List.append_assoc, List.cons_append, List.append_assoc]
  refine ⟨?_, by simp⟩
  have hshown : shownCode (points "version_name" ++ ([0x22] ++ ([0x3A, 0x20] ++ t))) = none :=
    (shownCode_skip (by decide)).trans hrest.quote.shown
  have hne : (points "\"version_code\":").isPrefixOf
      (0x22 :: (points "version_name" ++ ([0x22] ++ ([0x3A, 0x20] ++ t)))) = false := by
    have hkey : points "\"version_code\":" = points "\"version_" ++ 0x63 :: points "ode\":" := by decide
    have hname : 0x22 :: points "version_name" = points "\"version_" ++ 0x6E :: points "ame" := by decide
    rw [← List.cons_append, hname, hkey, List.append_assoc, List.cons_append]
    refine Bool.eq_false_iff.mpr fun hpre => ?_
    have h := (List.prefix_append_right_inj _).mp (List.isPrefixOf_iff_prefix.mp hpre)
    exact absurd (List.cons_prefix_cons.mp h).1 (by decide)
  rw [shownCode, hshown, hne]
  rfl

lemma decimal_ne_quote {n c : ℕ} (h : c ∈ decimal n) : c ≠ 0x22 := by
  rintro rfl
  exact absurd (isDigit_of_mem_decimal h) (by decide)

lemma decimal_head {n : ℕ} : (decimal n).head? ≠ some 0x76 := fun h =>
  absurd (isDigit_of_mem_decimal (List.mem_of_mem_head? h)) (by decide)

/-- What follows the version in a description. -/
lemma silent_rest {a : Apk} (h : a.Fit) :
    Silent ((decimal a.versionCode ++ [0x2C] ++ [0x20]) ++
      ((0x22 :: (points "version_name" ++ [0x22]) ++ [0x3A, 0x20]) ++
      ((0x22 :: (a.versionName ++ [0x22]) ++ [0x2C, 0x20]) ++
      ((0x22 :: (points "sha256" ++ [0x22]) ++ [0x3A, 0x20]) ++
      ((0x22 :: (a.sha256 ++ [0x22]) ++ [0x2C, 0x20]) ++
      ((0x22 :: (points "size" ++ [0x22]) ++ [0x3A, 0x20]) ++
      (decimal a.size ++ [0x7D] ++ [0x0A]))))))) := by
  have hplain : ∀ {s : List ℕ}, (∀ c ∈ s, IsPlain c) → ∀ c ∈ s, c ≠ 0x22 := fun hs c hc => (hs c hc).2.2.1
  have hsha : a.sha256.head? ≠ some 0x76 := fun hv => by
    have hchars := (Bool.and_eq_true_iff.mp a.sha).2
    exact absurd (List.all_eq_true.mp hchars _ (List.mem_of_mem_head? hv)) (by decide)
  have hname : a.versionName.head? ≠ some 0x76 := fun hv => by
    cases hs : a.versionName with
    | nil => simp [hs] at hv
    | cons c rest =>
      have hdigit := h.name
      rw [hs] at hv hdigit
      obtain rfl := Option.some.inj hv
      simp only [isVersionName, Bool.and_eq_true] at hdigit
      exact absurd hdigit.1.1 (by decide)
  have hsize : Silent (decimal a.size ++ [0x7D] ++ [0x0A]) := by
    rw [List.append_assoc]
    exact (silent_nil.skip (s := [0x7D] ++ [0x0A]) (by decide) (by decide)).skip
      (fun c hc => decimal_ne_quote hc) decimal_head
  have hmembers := (((hsize.piece (s := points "size") (by decide) (by decide) (.inl rfl)).piece
    (hplain (isPlain_sha256 a.sha)) hsha (.inr rfl)).piece (s := points "sha256") (by decide) (by decide)
    (.inl rfl)).piece (hplain (isPlain_versionName h.name)) hname (.inr rfl)
  rw [List.append_assoc]
  exact (hmembers.versionName.skip (s := [0x20]) (by decide) (by decide)).skip (s := decimal _ ++ [0x2C])
    (fun c hc => (List.mem_append.mp hc).elim decimal_ne_quote fun hc => by
      rw [List.mem_singleton.mp hc]
      decide)
    (by rw [List.head?_append]; cases hd : (decimal a.versionCode).head? with
      | none => decide
      | some c => exact fun hv => decimal_head (hd.trans hv))

/-- The version of a description is shown. -/
lemma shownCode_describe {a : Apk} (h : a.Fit) : shownCode (describe a) = some (decimal a.versionCode) := by
  have hrest := silent_rest h
  rw [describe_eq]
  generalize ((0x22 :: (points "version_name" ++ [0x22]) ++ [0x3A, 0x20]) ++ _) = rest at hrest ⊢
  have hkey : 0x22 :: (points "version_code" ++ [0x22]) ++ [0x3A, 0x20] =
      points "\"version_code\":" ++ [0x20] := by decide
  have hdigits : ∀ c ∈ decimal a.versionCode, isDigit c = true := fun c hc => isDigit_of_mem_decimal hc
  have hnone : shownCode (points "version_code" ++ ([0x22] ++ ([0x3A, 0x20] ++
      (decimal a.versionCode ++ [0x2C] ++ [0x20] ++ rest)))) = none :=
    (shownCode_skip (by decide)).trans
      (hrest.skip (s := [0x3A, 0x20]) (by decide) (by decide)).quote.shown
  have hvalue : (([0x20] ++ (decimal a.versionCode ++ [0x2C] ++ [0x20] ++ rest)).dropWhile
      (· = 0x20)).takeWhile isDigit = decimal a.versionCode := by
    have hdrop : ([0x20] ++ (decimal a.versionCode ++ [0x2C] ++ [0x20] ++ rest)).dropWhile (· = 0x20) =
        decimal a.versionCode ++ ([0x2C] ++ ([0x20] ++ rest)) := by
      rw [List.singleton_append, List.dropWhile_cons_of_pos (by simp), List.append_assoc, List.append_assoc]
      rcases decimal_cases a.versionCode with hz | ⟨d, ds, hd, hlo, -⟩
      · rw [hz]
        rfl
      · rw [hd, List.cons_append, List.dropWhile_cons_of_neg]
        simp only [decide_eq_true_eq]
        omega
    rw [hdrop, List.takeWhile_append_of_pos hdigits, List.singleton_append,
      List.takeWhile_cons_of_neg (by decide), List.append_nil]
  -- behind the brace and the first quote there is nothing more to be found
  rw [← List.singleton_append, shownCode_skip (by decide)]
  have hsplit : 0x22 :: (points "version_code" ++ [0x22]) ++ [0x3A, 0x20] ++
      (decimal a.versionCode ++ [0x2C] ++ [0x20] ++ rest) =
      0x22 :: (points "version_code" ++ ([0x22] ++ ([0x3A, 0x20] ++
        (decimal a.versionCode ++ [0x2C] ++ [0x20] ++ rest)))) := by
    simp only [List.append_assoc, List.cons_append]
  have hall : 0x22 :: (points "version_code" ++ ([0x22] ++ ([0x3A, 0x20] ++
      (decimal a.versionCode ++ [0x2C] ++ [0x20] ++ rest)))) =
      points "\"version_code\":" ++ ([0x20] ++ (decimal a.versionCode ++ [0x2C] ++ [0x20] ++ rest)) := by
    rw [← hsplit, hkey, List.append_assoc]
  rw [hsplit, shownCode, hnone, hall, if_pos (List.isPrefixOf_iff_prefix.mpr (List.prefix_append _ _)),
    List.drop_left, hvalue]

end Shown

/-! ### What the operator and the readers do -/

/-- What a session in work knows. -/
inductive Held where
  | idle
  /-- so many steps of a publication are done -/
  | publishing (a : Apk) (n : ℕ)
  | read (text : Option (List ℕ))
  | looked (r : Option Release)
  | sized (r : Release) (size : ℕ)
  | opened (r : Release) (a : Apk)
  /-- the answer breaks off -/
  | broken
  | failed

variable {L : FloatLib} {want : String} {limit : ℕ} {V : Store → Prop} {unread : Prop}

/-- One step of the operator. -/
inductive Operates (want : String) : Held → Store → Held → Store → Prop where
  | idle (g : Held) (s : Store) : Operates want g s g s
  | check (g : Held) (s : Store) (a : Apk) (hpass : passes want a = true)
      (habove : notAbove a (s.metaFile.bind shownCode) = false) :
      Operates want g s (.publishing a 0) s
  | unread (g : Held) (s : Store) (a : Apk) (hpass : passes want a = true) :
      Operates want g s (.publishing a 0) { s with forgotten := s.forgotten || s.metaFile.isSome }
  | step (s : Store) (a : Apk) (n : ℕ) (f : Store → Store) (hf : (steps a)[n]? = some f) :
      Operates want (.publishing a n) s (.publishing a (n + 1)) (f s)
  | withdraw (g : Held) (s : Store) :
      Operates want g s .idle { s with metaFile := none, forgotten := true }

/-- One step of a reader, in a state of the run; `unread` says that it failed to read. -/
inductive Reads (L : FloatLib) (limit : ℕ) (V : Store → Prop) (unread : Prop) :
    Held → Store → Held → Store → Prop where
  | read (s : Store) (hV : V s) (text : Option (List ℕ)) (htext : text = none ∨ text = s.metaFile) :
      Reads L limit V unread .idle s (.read text) s
  | look (s : Store) (hV : V s) (text : Option (List ℕ)) (size : Option ℕ) (r : Option Release)
      (hsize : size = none ∨ size = s.apk.map Apk.size) (hr : currentRelease L limit text size = .ok r) :
      Reads L limit V unread (.read text) s (.looked r) s
  | unreadable (s : Store) (text : Option (List ℕ)) (size : Option ℕ) (e : Fault)
      (he : currentRelease L limit text size = .error e) : Reads L limit V unread (.read text) s .failed s
  | measure (s : Store) (hV : V s) (r : Release) (a : Apk) (ha : s.apk = some a) :
      Reads L limit V unread (.looked (some r)) s (.sized r a.size) s
  | send (s : Store) (hV : V s) (r : Release) (size : ℕ) (a : Apk) (ha : s.apk = some a)
      (hsize : a.size = size) : Reads L limit V unread (.sized r size) s (.opened r a) s
  | other (s : Store) (hV : V s) (r : Release) (size : ℕ) (a : Apk) (ha : s.apk = some a)
      (hne : a.size ≠ size) : Reads L limit V unread (.sized r size) s .broken s
  | unread (g : Held) (s : Store) (hunread : unread) : Reads L limit V unread g s .broken s
  | missing (s : Store) (r : Release) (ha : s.apk = none) :
      Reads L limit V unread (.looked (some r)) s .failed s
  | gone (s : Store) (r : Release) (size : ℕ) (ha : s.apk = none) :
      Reads L limit V unread (.sized r size) s .failed s

section Follows

variable {J : Store → Input → Prop}

lemma follows_inTurn {a : Apk} (fs : List (Store → Store)) (n : ℕ) (hfs : fs = (steps a).drop n) :
    Proc.Follows J (Operates want) (fun _ _ => True) (inTurn fs) (.publishing a n) := by
  induction fs generalizing n with
  | nil => trivial
  | cons f fs ih =>
    have hf : (steps a)[n]? = some f := by
      rw [← List.head?_drop, ← hfs, List.head?_cons]
    have hrest : fs = (steps a).drop (n + 1) := by
      rw [← List.tail_drop, ← hfs, List.tail_cons]
    refine Proc.Follows.exchange fun s i _ => ?_
    cases i.fails with
    | true => exact ⟨_, .idle _ s, trivial⟩
    | false => exact ⟨_, .step s a n f hf, ih (n + 1) hrest⟩

lemma follows_publish (a : Apk) (g : Held) :
    Proc.Follows J (Operates want) (fun _ _ => True) (publish want a) g := by
  unfold publish
  split
  · rename_i hpass
    refine Proc.Follows.exchange fun s i _ => ?_
    cases i.fails with
    | true => exact ⟨_, .unread g s a hpass, follows_inTurn _ 0 rfl⟩
    | false =>
      cases habove : notAbove a (s.metaFile.bind shownCode) with
      | true =>
        refine ⟨_, .idle g s, ?_⟩
        simp only [Bool.false_eq_true, if_false, habove, if_true]
        trivial
      | false =>
        refine ⟨_, .check g s a hpass habove, ?_⟩
        simp only [Bool.false_eq_true, if_false, habove]
        exact follows_inTurn _ 0 rfl
  · trivial

lemma follows_operate (deeds : List Deed) (g : Held) :
    Proc.Follows J (Operates want) (fun _ _ => True) (operate want deeds) g := by
  induction deeds generalizing g with
  | nil => trivial
  | cons deed deeds ih =>
    cases deed with
    | publish a =>
      exact (follows_publish a g).bind (fun g _ _ => ih g) fun _ _ _ => trivial
    | withdraw =>
      refine Proc.Follows.exchange fun s i _ => ?_
      cases i.fails with
      | true => exact ⟨_, .idle g s, ih g⟩
      | false => exact ⟨_, .withdraw g s, ih _⟩

/-- How `current_release` ends. -/
def Looked (g : Held) : Except Unit (Option Release) → Prop
  | .ok r => g = .looked r
  | .error _ => g = .failed

lemma follows_current : Proc.Follows (fun s (_ : Input) => V s) (Reads L limit V unread) Looked
    (current L limit) .idle := by
  refine Proc.Follows.exchange fun s i hV => ⟨_, .read s hV (if i.fails then none else s.metaFile) ?_, ?_⟩
  · split
    · exact .inl rfl
    · exact .inr rfl
  refine Proc.Follows.exchange fun t j hV => ?_
  generalize hsize : (if j.fails then none else t.apk.map Apk.size) = size
  have hsize' : size = none ∨ size = t.apk.map Apk.size := by
    rw [← hsize]
    split
    · exact .inl rfl
    · exact .inr rfl
  cases hr : currentRelease L limit (if i.fails then none else s.metaFile) size with
  | ok r => exact ⟨_, .look t hV _ size r hsize' hr, rfl⟩
  | error e => exact ⟨_, .unreadable t _ size e hr, rfl⟩

/-- What the answer about the release says of its session. -/
def Offers (g : Held) : Except Unit Answer → Prop
  | .ok (.offer r) => g = .looked r
  | .ok _ => False
  | .error _ => g = .failed

/-- What the answer to a download says of its session. -/
def Sends (g : Held) : Except Unit Answer → Prop
  | .ok (.file name a) => ∃ r : Release, name = r.fileName ∧ g = .opened r a
  | .ok .notAvailable => True
  | .ok _ => False
  | .error _ => g = .broken ∨ g = .failed

lemma follows_offer : Proc.Follows (fun s (_ : Input) => V s) (Reads L limit V unread) Offers
    (offer L limit) .idle :=
  follows_current.bind (fun _ _ hg => hg) fun _ _ hg => hg

lemma follows_fileResponse (r : Release) :
    Proc.Follows (fun s (i : Input) => V s ∧ (i.fails = true → unread)) (Reads L limit V unread) Sends
      (fileResponse r.fileName) (.looked (some r)) := by
  refine Proc.Follows.exchange fun s i ⟨hV, hi⟩ => ?_
  cases hfails : i.fails with
  | true => exact ⟨_, .unread _ s (hi hfails), .inl rfl⟩
  | false =>
    cases ha : s.apk with
    | none => exact ⟨_, .missing s r ha, .inr rfl⟩
    | some a =>
      refine ⟨_, .measure s hV r a ha, Proc.Follows.exchange fun t j ⟨hV, hj⟩ => ?_⟩
      cases hfails : j.fails with
      | true => exact ⟨_, .unread _ t (hj hfails), .inl rfl⟩
      | false =>
        cases hb : t.apk with
        | none => exact ⟨_, .gone t r a.size hb, .inr rfl⟩
        | some b =>
          by_cases hsize : b.size = a.size
          · refine ⟨_, .send t hV r a.size b hb hsize, ?_⟩
            simp only [Bool.false_eq_true, if_false, if_pos hsize]
            exact ⟨r, rfl, rfl⟩
          · refine ⟨_, .other t hV r a.size b hb hsize, ?_⟩
            simp only [Bool.false_eq_true, if_false, if_neg hsize]
            exact .inl rfl

lemma follows_download :
    Proc.Follows (fun s (i : Input) => V s ∧ (i.fails = true → unread)) (Reads L limit V unread) Sends
      (download L limit) .idle := by
  refine (follows_current.weaken fun _ _ h => h.1).bind (fun g r hg => ?_) fun _ _ hg => .inr hg
  obtain rfl : g = .looked r := hg
  cases r with
  | none => trivial
  | some r => exact follows_fileResponse r

end Follows

/-! ### What every step keeps -/

/-- What holds of the files and of the history. -/
structure Store.Sound (want : String) (s : Store) : Prop where
  metaFile : ∀ t, s.metaFile = some t → ∃ a, s.released.getLast? = some a ∧ t = describe a
  released : ∀ a ∈ s.released, passes want a = true
  apk : ∀ a, s.apk = some a → passes want a = true
  rising : s.forgotten = false → (s.released.map Apk.versionCode).Pairwise (· < ·)
  described : s.forgotten = false → s.released ≠ [] → s.metaFile ≠ none

/-- The files on the way, after so many steps of the publication. -/
structure Prepared (a : Apk) (n : ℕ) (s : Store) : Prop where
  uploadApk : 1 ≤ n → n ≤ 6 → s.uploadApk = some a
  uploadMeta : 2 ≤ n → n ≤ 6 → s.uploadMeta = some (describe a)
  newApk : 3 ≤ n → n ≤ 4 → s.newApk = some a
  newMeta : 4 ≤ n → n ≤ 5 → s.newMeta = some (describe a)

/-- What the operator knows is true. -/
def Held.Right (want : String) (s : Store) : Held → Prop
  | .publishing a n => passes want a = true ∧ Prepared a n s ∧
      (n ≤ 5 → s.forgotten = false → ∀ b ∈ s.released, b.versionCode < a.versionCode)
  | _ => True

/-- The release is that of an APK that passed the checks. It was read when its description
was in place, and looked at when an APK of its size was. -/
def Offered (want : String) (V : Store → Prop) (r : Release) : Prop :=
  ∃ a b s t, V s ∧ s.metaFile = some (describe a) ∧ V t ∧ t.apk = some b ∧
    passes want a = true ∧ passes want b = true ∧ b.size = a.size ∧ r = a.release

/-- APKs of different sizes were in place. -/
def Replaced (V : Store → Prop) : Prop :=
  ∃ s t a b, V s ∧ V t ∧ s.apk = some a ∧ t.apk = some b ∧ a.size ≠ b.size

/-- What a reader knows is true. -/
def Held.Reading (want : String) (V : Store → Prop) (unread : Prop) (s : Store) : Held → Prop
  | .idle => True
  | .publishing _ _ => False
  | .read text => ∀ t, text = some t → ∃ a s', V s' ∧ s'.metaFile = some (describe a) ∧
      passes want a = true ∧ t = describe a
  | .looked r => ∀ x, r = some x → Offered want V x ∧ s.apk ≠ none
  | .sized r size => Offered want V r ∧ s.apk ≠ none ∧ ∃ t a, V t ∧ t.apk = some a ∧ a.size = size
  | .opened r a => Offered want V r ∧ passes want a = true ∧ ∃ s', V s' ∧ s'.apk = some a
  | .broken => unread ∨ Replaced V
  | .failed => False

section Steps

variable {s s' : Store} {g g' : Held}

lemma fit_of_passes {a : Apk} (h : passes want a = true) : a.Fit := by
  simp only [passes, Bool.and_eq_true, decide_eq_true_eq] at h
  exact ⟨⟨by omega, by omega⟩, by tauto, by omega⟩

/-- An APK stays in place. -/
lemma Held.Reading.mono (h : g.Reading want V unread s) (hkept : s.apk ≠ none → s'.apk ≠ none) :
    g.Reading want V unread s' := by
  cases g with
  | looked r => exact fun x hx => ⟨(h x hx).1, hkept (h x hx).2⟩
  | sized r size => exact ⟨h.1, hkept h.2.1, h.2.2⟩
  | idle => trivial
  | publishing => exact h
  | read text => exact h
  | opened r a => exact h
  | broken => exact h
  | failed => exact h

/-- The description in place is that of the last release, which is above the others. -/
lemma Store.Sound.above (hs : s.Sound want) {a : Apk}
    (habove : notAbove a (s.metaFile.bind shownCode) = false) (hmem : s.forgotten = false) :
    ∀ b ∈ s.released, b.versionCode < a.versionCode := by
  intro b hb
  cases htext : s.metaFile with
  | none => exact absurd htext (hs.described hmem (List.ne_nil_of_mem hb))
  | some t =>
    obtain ⟨last, hlast, rfl⟩ := hs.metaFile t htext
    have hfit := fit_of_passes (hs.released last (List.mem_of_getLast? hlast))
    have hlt : last.versionCode < a.versionCode := by
      rw [htext, Option.bind_some, shownCode_describe hfit] at habove
      have hne : decimal last.versionCode ≠ [] := by
        rcases decimal_cases last.versionCode with h | ⟨d, ds, h, -⟩ <;> rw [h] <;> simp
      simpa [notAbove, hne, natOf_decimal] using habove
    obtain ⟨init, hinit⟩ := List.getLast?_eq_some_iff.mp hlast
    rw [hinit] at hb
    rcases List.mem_append.mp hb with hb | hb
    · have hrising := hs.rising hmem
      rw [hinit, List.map_append, List.pairwise_append] at hrising
      exact (hrising.2.2 _ (List.mem_map_of_mem hb) _ (by simp)).trans hlt
    · rw [List.mem_singleton.mp hb]
      exact hlt

/-- The description is moved into place. -/
lemma Store.Sound.publish (hs : s.Sound want) {a : Apk} (hpass : passes want a = true)
    (hmeta : s.newMeta = some (describe a))
    (habove : s.forgotten = false → ∀ b ∈ s.released, b.versionCode < a.versionCode) :
    Store.Sound want { s with metaFile := s.newMeta, newMeta := none, released := s.released ++ [a] } where
  metaFile t ht := by
    refine ⟨a, by simp, ?_⟩
    rw [show s.newMeta = some t from ht] at hmeta
    exact Option.some.inj hmeta
  released b hb := by
    rcases List.mem_append.mp hb with hb | hb
    · exact hs.released b hb
    · rw [List.mem_singleton.mp hb]
      exact hpass
  apk := hs.apk
  rising hmem := by
    show ((s.released ++ [a]).map Apk.versionCode).Pairwise (· < ·)
    rw [List.map_append, List.pairwise_append]
    refine ⟨hs.rising hmem, List.pairwise_singleton _ _, fun c hc d hd => ?_⟩
    obtain ⟨b, hb, rfl⟩ := List.mem_map.mp hc
    rw [List.map_singleton, List.mem_singleton] at hd
    rw [hd]
    exact habove hmem b hb
  described _ _ := by
    show s.newMeta ≠ none
    rw [hmeta]
    simp

/-- The files that are in place and the history are as before. -/
lemma Store.Sound.same (hs : s.Sound want) (hmeta : s'.metaFile = s.metaFile)
    (hreleased : s'.released = s.released) (hapk : s'.apk = s.apk)
    (hforgotten : s'.forgotten = s.forgotten) : s'.Sound want where
  metaFile := by rw [hmeta, hreleased]; exact hs.metaFile
  released := by rw [hreleased]; exact hs.released
  apk := by rw [hapk]; exact hs.apk
  rising := by rw [hforgotten, hreleased]; exact hs.rising
  described := by rw [hforgotten, hreleased, hmeta]; exact hs.described

/-- One step of a publication. -/
lemma sound_step {a : Apk} {n : ℕ} {f : Store → Store} (hs : s.Sound want)
    (hg : (Held.publishing a n).Right want s) (hf : (steps a)[n]? = some f) :
    (f s).Sound want ∧ (Held.publishing a (n + 1)).Right want (f s) ∧ (s.apk ≠ none → (f s).apk ≠ none) := by
  obtain ⟨hpass, hprep, habove⟩ := hg
  have hn : n < 7 := by
    by_contra hle
    rw [List.getElem?_eq_none (by simpa [steps] using hle)] at hf
    cases hf
  interval_cases n
  · obtain rfl := Option.some.inj hf
    exact ⟨hs.same rfl rfl rfl rfl, ⟨hpass, ⟨fun _ _ => rfl, fun h => absurd h (by decide),
      fun h => absurd h (by decide), fun h => absurd h (by decide)⟩, fun _ => habove (by decide)⟩, id⟩
  · obtain rfl := Option.some.inj hf
    exact ⟨hs.same rfl rfl rfl rfl, ⟨hpass, ⟨fun _ _ => hprep.uploadApk (by decide) (by decide),
      fun _ _ => rfl, fun h => absurd h (by decide), fun h => absurd h (by decide)⟩,
      fun _ => habove (by decide)⟩, id⟩
  · obtain rfl := Option.some.inj hf
    exact ⟨hs.same rfl rfl rfl rfl, ⟨hpass, ⟨fun _ _ => hprep.uploadApk (by decide) (by decide),
      fun _ _ => hprep.uploadMeta (by decide) (by decide), fun _ _ => hprep.uploadApk (by decide) (by decide),
      fun h => absurd h (by decide)⟩, fun _ => habove (by decide)⟩, id⟩
  · obtain rfl := Option.some.inj hf
    exact ⟨hs.same rfl rfl rfl rfl, ⟨hpass, ⟨fun _ _ => hprep.uploadApk (by decide) (by decide),
      fun _ _ => hprep.uploadMeta (by decide) (by decide), fun _ _ => hprep.newApk (by decide) (by decide),
      fun _ _ => hprep.uploadMeta (by decide) (by decide)⟩, fun _ => habove (by decide)⟩, id⟩
  · -- the APK is moved into place
    obtain rfl := Option.some.inj hf
    have hnew : s.newApk = some a := hprep.newApk (by decide) (by decide)
    refine ⟨⟨hs.metaFile, hs.released, fun b hb => ?_, hs.rising, hs.described⟩,
      ⟨hpass, ⟨fun _ _ => hprep.uploadApk (by decide) (by decide),
        fun _ _ => hprep.uploadMeta (by decide) (by decide), fun _ h => absurd h (by decide),
        fun _ _ => hprep.newMeta (by decide) (by decide)⟩, fun _ => habove (by decide)⟩, fun _ hnone => ?_⟩
    · rw [← Option.some.inj (hnew.symm.trans hb)]
      exact hpass
    · cases hnew.symm.trans hnone
  · -- and its description
    obtain rfl := Option.some.inj hf
    exact ⟨hs.publish hpass (hprep.newMeta (by decide) (by decide)) (habove (by decide)),
      ⟨hpass, ⟨fun _ _ => hprep.uploadApk (by decide) (by decide),
        fun _ _ => hprep.uploadMeta (by decide) (by decide), fun _ h => absurd h (by decide),
        fun _ h => absurd h (by decide)⟩, fun h => absurd h (by decide)⟩, id⟩
  · obtain rfl := Option.some.inj hf
    exact ⟨hs.same rfl rfl rfl rfl, ⟨hpass, ⟨fun _ h => absurd h (by decide),
      fun _ h => absurd h (by decide), fun _ h => absurd h (by decide), fun _ h => absurd h (by decide)⟩,
      fun h => absurd h (by decide)⟩, id⟩

/-- **One step of the operator.** -/
lemma Operates.sound (hs : s.Sound want) (hg : g.Right want s) (h : Operates want g s g' s') :
    s'.Sound want ∧ g'.Right want s' ∧ (s.apk ≠ none → s'.apk ≠ none) := by
  have hstart : ∀ {s : Store} {a : Apk}, Prepared a 0 s :=
    ⟨fun h => absurd h (by decide), fun h => absurd h (by decide), fun h => absurd h (by decide),
      fun h => absurd h (by decide)⟩
  cases h with
  | idle => exact ⟨hs, hg, id⟩
  | check _ _ a hpass habove => exact ⟨hs, ⟨hpass, hstart, fun _ => hs.above habove⟩, id⟩
  | unread _ _ a hpass =>
    -- unless it is forgotten, there was no release
    have hkept : (s.forgotten || s.metaFile.isSome) = false → s.forgotten = false ∧ s.released = [] := by
      intro hno
      obtain ⟨hforgotten, hnone⟩ := Bool.or_eq_false_iff.mp hno
      refine ⟨hforgotten, ?_⟩
      by_contra hne
      exact hs.described hforgotten hne (by simpa using hnone)
    refine ⟨⟨hs.metaFile, hs.released, hs.apk, fun hno => hs.rising (hkept hno).1,
      fun hno => hs.described (hkept hno).1⟩, ⟨hpass, hstart, fun _ hno b hb => ?_⟩, id⟩
    rw [show s.released = [] from (hkept hno).2] at hb
    cases hb
  | step _ a n f hf => exact sound_step hs hg hf
  | withdraw =>
    exact ⟨⟨fun t ht => absurd ht (by simp), hs.released, hs.apk,
      fun hno => absurd hno (by simp), fun hno => absurd hno (by simp)⟩, trivial, id⟩

/-- **One step of a reader** leaves the files as they are. What it finds on offer is the
release that was described, of an APK of its size. -/
lemma Reads.sound (hlimit : 0 < limit) (hs : s.Sound want) (hg : g.Reading want V unread s)
    (h : Reads L limit V unread g s g' s') : s' = s ∧ g'.Reading want V unread s := by
  cases h with
  | read _ hV text htext =>
    refine ⟨rfl, fun t ht => ?_⟩
    rcases htext with rfl | rfl
    · cases ht
    · obtain ⟨a, hlast, rfl⟩ := hs.metaFile t ht
      exact ⟨a, s, hV, ht, hs.released a (List.mem_of_getLast? hlast), rfl⟩
  | look _ hV text size r hsize hr =>
    refine ⟨rfl, ?_⟩
    rintro x rfl
    cases text with
    | none => simp [currentRelease] at hr
    | some t =>
      obtain ⟨a, s₀, hV₀, hmeta, hpass, rfl⟩ := hg t rfl
      rw [currentRelease_describe (fit_of_passes hpass) hlimit, Except.ok.injEq] at hr
      split at hr
      · rename_i hsame
        rcases hsize with rfl | rfl
        · cases hsame
        · obtain ⟨b, hb, hsame⟩ := Option.map_eq_some_iff.mp hsame
          refine ⟨⟨a, b, s₀, s, hV₀, hmeta, hV, hb, hpass, hs.apk b hb, hsame, (Option.some.inj hr).symm⟩, ?_⟩
          rw [hb]
          simp
      · cases hr
  | unreadable _ text size e he =>
    cases text with
    | none => cases he
    | some t =>
      obtain ⟨a, -, -, -, hpass, rfl⟩ := hg t rfl
      rw [currentRelease_describe (fit_of_passes hpass) hlimit] at he
      cases he
  | measure _ hV r a ha => exact ⟨rfl, (hg r rfl).1, (hg r rfl).2, s, a, hV, ha, rfl⟩
  | send _ hV r size a ha => exact ⟨rfl, hg.1, hs.apk a ha, s, hV, ha⟩
  | other _ hV r size a ha hne =>
    obtain ⟨-, -, t, b, hVt, hb, rfl⟩ := hg
    exact ⟨rfl, .inr ⟨s, t, a, b, hV, hVt, ha, hb, hne⟩⟩
  | unread _ _ hunread => exact ⟨rfl, .inl hunread⟩
  | missing _ r ha => exact absurd ha (hg r rfl).2
  | gone _ r size ha => exact absurd ha hg.2.1

end Steps

/-! ### Every run -/

section Runs

variable {ρ : Type} [DecidableEq ρ] {deeds : List Deed} {sched : List (Who ρ × Input)}

/-- Whose step it is. -/
def Who.Takes (L : FloatLib) (want : String) (limit : ℕ) (V : Store → Prop) (unread : Prop) :
    Who ρ → Held → Store → Held → Store → Prop
  | .operator => Operates want
  | _ => Reads L limit V unread

/-- How a session ends. -/
def Who.Ends : Who ρ → Held → Except Unit Answer → Prop
  | .operator => fun _ _ => True
  | .asks _ => Offers
  | .downloads _ => Sends

/-- A reading of this session fails. -/
def Unread (sched : List (Who ρ × Input)) (k : Who ρ) : Prop := ∃ i, (k, i) ∈ sched ∧ i.fails = true

variable (L want limit deeds sched) in
/-- **Along every schedule** the files are sound, and what every reader knows is true. -/
lemma exists_held (hlimit : 0 < limit) : ∃ γ : Who ρ → Held,
    ((portal L limit want deeds).run sched).state.Sound want ∧
    ∀ k, (k ≠ .operator → (γ k).Reading want (Visits (portal L limit want deeds) sched) (Unread sched k)
        ((portal L limit want deeds).run sched).state) ∧
      ∀ r, ((portal L limit want deeds).run sched).Ended k r → k.Ends (γ k) r := by
  set c : Cfg (Who ρ) Store Input Unit Answer := portal L limit want deeds with hc
  have hempty : Store.Sound want ({} : Store) :=
    ⟨fun t ht => absurd ht (by simp), fun a ha => absurd ha (by simp), fun a ha => absurd ha (by simp),
      fun _ => List.Pairwise.nil, fun _ hne => absurd rfl hne⟩
  have hstart : (fun (s : Store) (γ : Who ρ → Held) => s.Sound want ∧ (γ .operator).Right want s ∧
      ∀ k, k ≠ .operator → (γ k).Reading want (Visits c sched) (Unread sched k) s) c.state fun _ => .idle :=
    ⟨hempty, trivial, fun _ _ => trivial⟩
  have hfollows : ∀ k : Who ρ, Proc.Follows (fun s (i : Input) => Visits c sched s ∧ (k, i) ∈ sched)
      (k.Takes L want limit (Visits c sched) (Unread sched k)) k.Ends (c.pool k) .idle := by
    intro k
    cases k with
    | operator => exact follows_operate deeds .idle
    | asks r => exact follows_offer.weaken fun _ _ h => h.1
    | downloads r => exact follows_download.weaken fun _ i h => ⟨h.1, fun hfails => ⟨i, h.2, hfails⟩⟩
  have hstep : ∀ (s : Store) (γ : Who ρ → Held) k g' s',
      (s.Sound want ∧ (γ .operator).Right want s ∧
        ∀ k, k ≠ .operator → (γ k).Reading want (Visits c sched) (Unread sched k) s) →
      k.Takes L want limit (Visits c sched) (Unread sched k) (γ k) s g' s' →
      s'.Sound want ∧ (Function.update γ k g' .operator).Right want s' ∧
        ∀ l, l ≠ .operator → (Function.update γ k g' l).Reading want (Visits c sched) (Unread sched l) s' := by
    intro s γ k g' s' ⟨hs, hop, hread⟩ htakes
    by_cases hk : k = .operator
    · subst hk
      obtain ⟨hs', hg', hkept⟩ := Operates.sound hs hop htakes
      refine ⟨hs', by rw [Function.update_self]; exact hg', fun l hl => ?_⟩
      rw [Function.update_of_ne hl]
      exact (hread l hl).mono hkept
    · have hreads : Reads L limit (Visits c sched) (Unread sched k) (γ k) s g' s' := by
        cases k with
        | operator => exact absurd rfl hk
        | asks r => exact htakes
        | downloads r => exact htakes
      obtain ⟨rfl, hg'⟩ := hreads.sound hlimit hs (hread k hk)
      refine ⟨hs, by rw [Function.update_of_ne (Ne.symm hk)]; exact hop, fun l hl => ?_⟩
      by_cases hlk : l = k
      · subst hlk
        rw [Function.update_self]
        exact hg'
      · rw [Function.update_of_ne hlk]
        exact hread l hl
  obtain ⟨γ, ⟨hs, -, hread⟩, hpool⟩ := exists_accounts hstart hfollows hstep (admitted_visits c sched)
  exact ⟨γ, hs, fun k => ⟨hread k, fun r hr => (hpool k).1.result hr⟩⟩

/-- Commands in turn: so many of them were done, and all if it ended well. -/
lemma runs_inTurn {J : Store → Input → Prop} {fs : List (Store → Store)} {s t : Store} {r : Except Unit Bool}
    (h : Proc.Runs J (inTurn fs) s r t) :
    ∃ k ≤ fs.length, t = (fs.take k).foldl (fun s f => f s) s ∧ (r = .ok true → k = fs.length) := by
  induction fs generalizing s with
  | nil =>
    obtain ⟨-, rfl⟩ := Proc.runs_ret.mp h
    exact ⟨0, Nat.le_refl _, rfl, fun _ => rfl⟩
  | cons f fs ih =>
    obtain ⟨i, -, h⟩ := h
    dsimp only at h
    cases hfails : i.fails with
    | true =>
      simp only [hfails, if_true] at h
      obtain ⟨rfl, rfl⟩ := Proc.runs_ret.mp h
      exact ⟨0, Nat.zero_le _, rfl, fun hr => by cases hr⟩
    | false =>
      simp only [hfails, Bool.false_eq_true, if_false] at h
      obtain ⟨k, hk, rfl, hall⟩ := ih h
      exact ⟨k + 1, Nat.succ_le_succ hk, rfl, fun hr => by rw [hall hr, List.length_cons]⟩

/-- What a publication may leave: the pair that was there, the old description with the new
APK, or the new pair, which alone it can if it ended well. -/
def Left (a : Apk) (s t : Store) (r : Except Unit Bool) : Prop :=
  ((t.metaFile, t.apk) = (s.metaFile, s.apk) ∧ r ≠ .ok true) ∨
    ((t.metaFile, t.apk) = (s.metaFile, some a) ∧ r ≠ .ok true) ∨
    (t.metaFile, t.apk) = (some (describe a), some a)

/-- **A publication**, however it ends. -/
lemma runs_publish {J : Store → Input → Prop} {a : Apk} {s t : Store} {r : Except Unit Bool}
    (h : Proc.Runs J (publish want a) s r t) : Left a s t r := by
  have hturn : ∀ u, Proc.Runs J (inTurn (steps a)) u r t → u.metaFile = s.metaFile → u.apk = s.apk →
      Left a s t r := by
    intro u hu hmeta hapk
    obtain ⟨k, hk, rfl, hall⟩ := runs_inTurn hu
    have hlen : (steps a).length = 7 := rfl
    have hnot : k < 7 → r ≠ .ok true := fun hlt hr => absurd (hall hr) (by omega)
    rw [hlen] at hk
    rcases Nat.lt_or_ge k 5 with hlow | hhigh
    · refine .inl ⟨?_, hnot (by omega)⟩
      rw [← hmeta, ← hapk]
      interval_cases k <;> rfl
    · rcases Nat.lt_or_ge k 6 with hmid | hlast
      · obtain rfl : k = 5 := by omega
        refine .inr (.inl ⟨?_, hnot (by omega)⟩)
        rw [← hmeta]
        rfl
      · refine .inr (.inr ?_)
        interval_cases k <;> rfl
  unfold publish at h
  split at h
  · obtain ⟨i, -, h⟩ := h
    dsimp only at h
    cases hfails : i.fails with
    | true =>
      simp only [hfails, if_true] at h
      exact hturn _ h rfl rfl
    | false =>
      simp only [hfails, Bool.false_eq_true, if_false] at h
      change Proc.Runs J (if notAbove a (s.metaFile.bind shownCode) then pure false
        else inTurn (steps a)) s r t at h
      split at h
      · obtain ⟨rfl, rfl⟩ := Proc.runs_ret.mp h
        exact .inl ⟨rfl, by simp⟩
      · exact hturn _ h rfl rfl
  · obtain ⟨rfl, rfl⟩ := Proc.runs_ret.mp h
    exact .inl ⟨rfl, by simp⟩

/-- A first release. -/
def first : Apk where
  signer := some "ab"
  package := "com.sov3r3ign.app"
  versionCode := 1
  versionName := points "1.0"
  debuggable := false
  privateKey := false
  files := ["lib/x86_64/libwg-go.so"]
  sha256 := List.replicate 64 0x30
  size := 3
  sha := by decide

/-- The portal with one reader, who downloads after the release. -/
def firstReader : List (Who Unit × Input) :=
  List.replicate 8 (.operator, ⟨false⟩) ++ List.replicate 4 (.downloads (), ⟨false⟩)

/-- Floats of which nothing is asked. -/
def noFloats : FloatLib := ⟨Unit, fun _ => (), (), (), (), fun _ => false, fun _ => [], fun _ => []⟩

/-- The next release. -/
def second : Apk := { first with versionCode := 2, versionName := points "1.1", size := 4 }

/-- The next release takes its place after a reader was told the length. -/
def overtaken : List (Who Unit × Input) :=
  List.replicate 8 (.operator, ⟨false⟩) ++ List.replicate 3 (.downloads (), ⟨false⟩) ++
    List.replicate 8 (.operator, ⟨false⟩) ++ [(.downloads (), ⟨false⟩)]

example : ((portal noFloats 8 "AB" [.publish first, .publish second]).run overtaken).Ended (.downloads ())
    (.error ()) := by decide +kernel

end Runs

end VpnPortal.Android
