/-
The age of a handshake, read back from the words of `awg show`
(`pwa/api/clients.py`).

`awg show` writes an age in years, days, hours, minutes and seconds and leaves out
what is zero. The table of the portal has weeks, which are never written, and no
years: a part that it does not know is skipped. So an age is read back exactly up
to the first whole year, and from then on without its years.

* `rendering`: the words of `awg show`;
* `handshakeAge`, `classifyHandshake`: the portal's reading;
* `handshakeAge_rendering`: a rendering is read as the age without its years;
* `handshake_exact_iff`: age and status are right exactly below one year;
  `year_not_read`: an age of one year.
-/
import Mathlib
import VpnPortal.Monitor.Judge
import VpnPortal.Text.Blocks

namespace VpnPortal.Handshake

open Monitor

/-! ### What `awg show` writes -/

/-- The decimal digits of a count. -/
def digits (n : ℕ) : List Char := Nat.toDigits 10 n

/-- A count and its unit, in the singular or the plural. -/
def partText (p : ℕ × List Char) : List Char :=
  digits p.1 ++ ' ' :: (p.2 ++ if p.1 = 1 then [] else ['s'])

/-- The parts of an age with their units; a year has 365 days. -/
def partsOf (n : ℕ) : List (ℕ × List Char) :=
  [(n / 31536000, "year".toList), (n % 31536000 / 86400, "day".toList),
    (n % 86400 / 3600, "hour".toList), (n % 3600 / 60, "minute".toList), (n % 60, "second".toList)]

/-- The age as `awg show` writes it. -/
def rendering (n : ℕ) : List Char :=
  if n = 0 then "Now".toList
  else [',', ' '].intercalate (((partsOf n).filter fun p => p.1 ≠ 0).map partText) ++ " ago".toList

/-! ### What the portal reads -/

/-- `_UNITS` -/
def units : List (List Char × ℕ) :=
  [("second".toList, 1), ("minute".toList, 60), ("hour".toList, 3600), ("day".toList, 86400),
    ("week".toList, 604800)]

/-- `text.removesuffix(" ago")` -/
def removeAgo (text : List Char) : List Char :=
  if " ago".toList.isSuffixOf text then text.take (text.length - 4) else text

/-- `s.rstrip("s")` -/
def rstripS (s : List Char) : List Char := (s.reverse.dropWhile (· = 's')).reverse

/-- The seconds of one part, if the portal can read it. -/
def partAge (part : List Char) : Option ℕ :=
  match Words.split Words.isSpace part with
  | [count, unit] =>
      if count.all Char.isDigit then
        (units.lookup (rstripS unit)).map fun seconds => Nat.ofDigitChars 10 count 0 * seconds
      else none
  | _ => none

/-- `handshake_age`, of ASCII text. -/
def handshakeAge (handshake : List Char) : Option ℕ :=
  let text := (Words.strip handshake).map Char.toLower
  if text = "now".toList then some 0
  else
    let ages := ((removeAgo text).splitOn ',').filterMap partAge
    if ages = [] then none else some ages.sum

inductive Status where
  | active | idle | inactive
  deriving DecidableEq, Repr

/-- `_classify_handshake` -/
def classifyHandshake (handshake : List Char) : Status :=
  match handshakeAge handshake with
  | none => .inactive
  | some age => if age ≤ 180 then .active else .idle

/-! ### One part -/

lemma isDigit_of_mem_digits {n : ℕ} {c : Char} (h : c ∈ digits n) : c.isDigit = true :=
  Nat.isDigit_of_mem_toDigits (by decide) (by decide) h

lemma not_isSpace_of_isDigit {c : Char} (h : c.isDigit = true) : Words.isSpace c = false := by
  simp only [Char.isDigit, Bool.and_eq_true, decide_eq_true_eq, ge_iff_le, UInt32.le_iff_toNat_le,
    Char.toNat_val] at h
  have hlo : 48 ≤ c.toNat := h.1
  have hhi : c.toNat ≤ 57 := h.2
  exact Words.not_isSpace_of_between (by omega) (by omega)

/-- A unit as it is written: small letters. -/
def IsUnit (u : List Char) : Prop := u ≠ [] ∧ ∀ c ∈ u, c.isLower = true

lemma not_isSpace_of_isLower {c : Char} (h : c.isLower = true) : Words.isSpace c = false := by
  simp only [Char.isLower, Bool.and_eq_true, decide_eq_true_eq, ge_iff_le, UInt32.le_iff_toNat_le,
    Char.toNat_val] at h
  have hlo : 97 ≤ c.toNat := h.1
  have hhi : c.toNat ≤ 122 := h.2
  exact Words.not_isSpace_of_between (by omega) (by omega)

/-- Two words with a blank between them, and one before them or none. -/
lemma split_pair {a b blanks : List Char} (hblanks : blanks = [] ∨ blanks = [' '])
    (ha : a ≠ [] ∧ ∀ c ∈ a, Words.isSpace c = false) (hb : b ≠ [] ∧ ∀ c ∈ b, Words.isSpace c = false) :
    Words.split Words.isSpace (blanks ++ (a ++ ' ' :: b)) = [a, b] := by
  have hspace : Words.isSpace ' ' = true := by decide
  have hpair : Words.split Words.isSpace (a ++ ' ' :: b) = [a, b] := by
    rw [Words.split_append_cons ha.2 ha.1 hspace, Words.split_of_solid hb.2 hb.1]
  rcases hblanks with rfl | rfl
  · exact hpair
  · rw [List.singleton_append, Words.split_cons hspace, hpair]

lemma rstripS_unit {u : List Char} (hlast : ∀ c ∈ u.getLast?, c ≠ 's') (k : ℕ) :
    rstripS (u ++ if k = 1 then [] else ['s']) = u := by
  have hself : u.reverse.dropWhile (· = 's') = u.reverse := by
    cases hu : u.reverse with
    | nil => rfl
    | cons c rest =>
      have hc : c ≠ 's' := hlast c (by rw [← List.head?_reverse, hu]; rfl)
      exact List.dropWhile_cons_of_neg (by simpa using hc)
  have hstrip : (u ++ if k = 1 then [] else ['s']).reverse.dropWhile (· = 's') = u.reverse := by
    split_ifs
    · rw [List.append_nil, hself]
    · rw [List.reverse_append, List.reverse_singleton, List.singleton_append,
        List.dropWhile_cons_of_pos (by simp), hself]
  rw [rstripS, hstrip, List.reverse_reverse]

/-- What the portal makes of a count and a unit. -/
def ageOf (p : ℕ × List Char) : Option ℕ := (units.lookup p.2).map fun seconds => p.1 * seconds

/-- **One part**, as the text has it at its beginning or behind a comma. -/
lemma partAge_partText {p : ℕ × List Char} {blanks : List Char}
    (hblanks : blanks = [] ∨ blanks = [' ']) (hunit : IsUnit p.2)
    (hlast : ∀ c ∈ p.2.getLast?, c ≠ 's') : partAge (blanks ++ partText p) = ageOf p := by
  have hdigits : digits p.1 ≠ [] ∧ ∀ c ∈ digits p.1, Words.isSpace c = false :=
    ⟨Nat.toDigits_ne_nil, fun c hc => not_isSpace_of_isDigit (isDigit_of_mem_digits hc)⟩
  have hword : (p.2 ++ if p.1 = 1 then [] else ['s']) ≠ [] ∧
      ∀ c ∈ p.2 ++ if p.1 = 1 then [] else ['s'], Words.isSpace c = false := by
    refine ⟨List.append_ne_nil_of_left_ne_nil hunit.1 _, fun c hc => ?_⟩
    rcases List.mem_append.mp hc with hc | hc
    · exact not_isSpace_of_isLower (hunit.2 c hc)
    · split_ifs at hc
      · cases hc
      · rw [List.mem_singleton.mp hc]
        decide
  have hall : (digits p.1).all Char.isDigit = true :=
    List.all_eq_true.mpr fun c hc => isDigit_of_mem_digits hc
  have hvalue : Nat.ofDigitChars 10 (digits p.1) 0 = p.1 := Nat.ofDigitChars_ten_toDigits
  rw [partAge, partText, split_pair hblanks hdigits hword]
  simp only [hall, if_true, rstripS_unit hlast, hvalue]
  rfl

/-! ### The text -/

/-- The parts between the commas of a joined text. -/
lemma splitOn_joined {t : List Char} {ts : List (List Char)} (h : ∀ x ∈ t :: ts, ',' ∉ x) :
    ([',', ' '].intercalate (t :: ts)).splitOn ',' = t :: ts.map (' ' :: ·) := by
  induction ts generalizing t with
  | nil =>
    rw [List.intercalate_singleton, List.splitOn_eq_singleton (h t List.mem_cons_self)]
    rfl
  | cons u ts ih =>
    have hrest := ih fun x hx => h x (List.mem_cons_of_mem _ hx)
    have hblank : (' ' :: [',', ' '].intercalate (u :: ts)).splitOn ',' =
        (' ' :: u) :: ts.map (' ' :: ·) := by
      rw [List.splitOn_cons_eq_if_modifyHead, hrest]
      rfl
    rw [List.intercalate_cons_cons, List.append_assoc, List.cons_append, List.singleton_append,
      List.splitOn_append_cons_self_of_not_mem (h t List.mem_cons_self), hblank]
    rfl

lemma removeAgo_append (t : List Char) : removeAgo (t ++ " ago".toList) = t := by
  have hlen : (t ++ " ago".toList).length - 4 = t.length := by
    rw [List.length_append]
    exact Nat.add_sub_cancel _ 4
  rw [removeAgo, if_pos (List.isSuffixOf_iff_suffix.mpr (List.suffix_append _ _)), hlen,
    List.take_left]

/-- The parts that are shown. -/
def shown (n : ℕ) : List (ℕ × List Char) := (partsOf n).filter fun p => p.1 ≠ 0

lemma units_partsOf (n : ℕ) :
    ∀ p ∈ partsOf n, IsUnit p.2 ∧ (∀ c ∈ p.2.getLast?, c ≠ 's') ∧ ∀ c ∈ p.2, c.toLower = c := by
  have hname : (["year".toList, "day".toList, "hour".toList, "minute".toList, "second".toList].all
      fun u => decide (u ≠ []) && u.all Char.isLower && decide (u.getLast? ≠ some 's')
        && u.all fun c => decide (c.toLower = c)) = true := by decide
  intro p hp
  have hin : p.2 ∈ ["year".toList, "day".toList, "hour".toList, "minute".toList, "second".toList] := by
    simp only [partsOf, List.mem_cons, List.not_mem_nil, or_false] at hp ⊢
    rcases hp with rfl | rfl | rfl | rfl | rfl <;> simp
  have hunit := List.all_eq_true.mp hname p.2 hin
  simp only [Bool.and_eq_true, decide_eq_true_eq, List.all_eq_true] at hunit
  obtain ⟨⟨⟨hne, hlower⟩, hlast⟩, hsame⟩ := hunit
  refine ⟨⟨hne, hlower⟩, ?_, hsame⟩
  rintro c hc rfl
  exact hlast hc

/-- The characters of a part. -/
lemma mem_partText {p : ℕ × List Char} (hunit : IsUnit p.2) (hlower : ∀ c ∈ p.2, c.toLower = c)
    {c : Char} (hc : c ∈ partText p) : c ≠ ',' ∧ c.toLower = c := by
  have hchar : c.isDigit = true ∨ c = ' ' ∨ c ∈ p.2 ∨ c = 's' := by
    rw [partText, List.mem_append, List.mem_cons, List.mem_append] at hc
    rcases hc with hc | hc | hc | hc
    · exact .inl (isDigit_of_mem_digits hc)
    · exact .inr (.inl hc)
    · exact .inr (.inr (.inl hc))
    · split_ifs at hc
      · cases hc
      · exact .inr (.inr (.inr (List.mem_singleton.mp hc)))
  rcases hchar with h | rfl | h | rfl
  · refine ⟨?_, ?_⟩
    · rintro rfl
      exact absurd h (by decide)
    · simp only [Char.isDigit, Bool.and_eq_true, decide_eq_true_eq, ge_iff_le,
        UInt32.le_iff_toNat_le, Char.toNat_val] at h
      have hhi : c.toNat ≤ 57 := h.2
      rw [Char.toLower, dif_neg]
      rintro ⟨hlo, -⟩
      rw [ge_iff_le, UInt32.le_iff_toNat_le] at hlo
      have hlo : 65 ≤ c.toNat := hlo
      omega
  · decide
  · refine ⟨?_, hlower c h⟩
    rintro rfl
    exact absurd (hunit.2 _ h) (by decide)
  · decide

/-- The parts with their blanks, as the portal cuts them. -/
lemma filterMap_parts {ps : List (ℕ × List Char)} (hne : ps ≠ [])
    (hps : ∀ p ∈ ps, IsUnit p.2 ∧ (∀ c ∈ p.2.getLast?, c ≠ 's') ∧ ∀ c ∈ p.2, c.toLower = c) :
    (([',', ' '].intercalate (ps.map partText)).splitOn ',').filterMap partAge =
      ps.filterMap ageOf := by
  have hfirst : ∀ p ∈ ps, partAge (partText p) = ageOf p := fun p hp =>
    partAge_partText (.inl rfl) (hps p hp).1 (hps p hp).2.1
  have hlater : ∀ p ∈ ps, partAge (' ' :: partText p) = ageOf p := fun p hp =>
    partAge_partText (.inr rfl) (hps p hp).1 (hps p hp).2.1
  cases ps with
  | nil => exact absurd rfl hne
  | cons p ps =>
    have hcomma : ∀ x ∈ partText p :: ps.map partText, ',' ∉ x := by
      intro x hx hmem
      obtain ⟨q, hq, rfl⟩ := List.mem_map.mp (by rwa [← List.map_cons] at hx)
      exact (mem_partText (hps q hq).1 (hps q hq).2.2 hmem).1 rfl
    have hrest : ((ps.map partText).map (' ' :: ·)).filterMap partAge = ps.filterMap ageOf := by
      rw [List.map_map, List.filterMap_map]
      exact List.filterMap_congr fun q hq => hlater q (List.mem_cons_of_mem _ hq)
    rw [List.map_cons, splitOn_joined hcomma, List.filterMap_cons, List.filterMap_cons, hrest,
      hfirst p List.mem_cons_self]

/-- What is read of a rendering that has seconds. -/
lemma handshakeAge_parts {n : ℕ} (hn : n ≠ 0) :
    handshakeAge (rendering n) =
      if (shown n).filterMap ageOf = [] then none else some ((shown n).filterMap ageOf).sum := by
  have hps : ∀ p ∈ shown n, IsUnit p.2 ∧ (∀ c ∈ p.2.getLast?, c ≠ 's') ∧ ∀ c ∈ p.2, c.toLower = c :=
    fun p hp => units_partsOf n p (List.mem_of_mem_filter hp)
  have hne : shown n ≠ [] := by
    intro hnil
    have hzero := List.filter_eq_nil_iff.mp hnil
    simp only [partsOf, List.mem_cons, List.not_mem_nil, or_false, forall_eq_or_imp, forall_eq,
      decide_eq_true_eq, not_not] at hzero
    omega
  obtain ⟨p, ps, hcons⟩ := List.exists_cons_of_ne_nil hne
  obtain ⟨d, rest, hd⟩ := List.exists_cons_of_ne_nil (Nat.toDigits_ne_nil (n := p.1) (b := 10))
  have hdigit : d.isDigit = true := isDigit_of_mem_digits (n := p.1) (by rw [digits, hd]; simp)
  have htext : rendering n = [',', ' '].intercalate ((shown n).map partText) ++ " ago".toList :=
    if_neg hn
  obtain ⟨tail, htail⟩ : ∃ tail, rendering n = d :: tail := by
    have hpart : partText p = d :: (rest ++ ' ' :: (p.2 ++ if p.1 = 1 then [] else ['s'])) := by
      rw [partText, digits, hd]
      rfl
    rw [htext, hcons, List.map_cons, hpart]
    cases ps with
    | nil => exact ⟨_, by rw [List.map_nil, List.intercalate_singleton]; rfl⟩
    | cons q ps => exact ⟨_, by rw [List.map_cons, List.intercalate_cons_cons]; rfl⟩
  have hstrip : Words.strip (rendering n) = rendering n := by
    refine Words.trim_eq_self ?_ ?_
    · rw [htail]
      rintro c ⟨rfl⟩
      exact not_isSpace_of_isDigit hdigit
    · rw [htext, List.getLast?_append_of_ne_nil _ (by decide)]
      rintro c hc
      obtain rfl : 'o' = c := Option.some.inj hc
      rfl
  have hlower : (rendering n).map Char.toLower = rendering n := by
    refine (List.map_congr_left fun c hc => ?_).trans (List.map_id _)
    rw [htext, List.mem_append] at hc
    rcases hc with hc | hc
    · rcases Blocks.mem_of_mem_intercalate hc with hc | ⟨t, ht, hc⟩
      · exact (List.all_iff_forall_prop.mp (by decide) : ∀ c ∈ [',', ' '], c.toLower = c) c hc
      · obtain ⟨q, hq, rfl⟩ := List.mem_map.mp ht
        exact (mem_partText (hps q hq).1 (hps q hq).2.2 hc).2
    · exact (List.all_iff_forall_prop.mp (by decide) : ∀ c ∈ " ago".toList, c.toLower = c) c hc
  have hnow : rendering n ≠ "now".toList := by
    rw [htail]
    rintro heq
    have hhead : d = 'n' := congrArg List.head? heq |> Option.some.inj
    rw [hhead] at hdigit
    exact absurd hdigit (by decide)
  rw [handshakeAge, hstrip, hlower, if_neg hnow, htext, removeAgo_append]
  simp only [filterMap_parts hne hps]

/-! ### The ages -/

lemma ageOf_year (k : ℕ) : ageOf (k, "year".toList) = none := rfl

lemma ageOf_day (k : ℕ) : ageOf (k, "day".toList) = some (k * 86400) := rfl

lemma ageOf_hour (k : ℕ) : ageOf (k, "hour".toList) = some (k * 3600) := rfl

lemma ageOf_minute (k : ℕ) : ageOf (k, "minute".toList) = some (k * 60) := rfl

lemma ageOf_second (k : ℕ) : ageOf (k, "second".toList) = some (k * 1) := rfl

/-- The parts that are left out have no seconds. -/
lemma sum_shown (ps : List (ℕ × List Char)) :
    ((ps.filter fun p => p.1 ≠ 0).filterMap ageOf).sum = (ps.map fun p => (ageOf p).getD 0).sum := by
  induction ps with
  | nil => rfl
  | cons p ps ih =>
    rw [List.map_cons, List.sum_cons, ← ih]
    by_cases hp : p.1 = 0
    · have hzero : (ageOf p).getD 0 = 0 := by
        rw [ageOf, hp]
        cases units.lookup p.2 with
        | none => rfl
        | some seconds => exact Nat.zero_mul seconds
      rw [List.filter_cons_of_neg (by simpa using hp), hzero, Nat.zero_add]
    · rw [List.filter_cons_of_pos (by simpa using hp), List.filterMap_cons]
      cases ageOf p with
      | none => simp
      | some age => simp

/-- Every part that is shown and read has seconds. -/
lemma pos_of_mem_shown {n a : ℕ} (h : a ∈ (shown n).filterMap ageOf) : 0 < a := by
  obtain ⟨p, hp, ha⟩ := List.mem_filterMap.mp h
  have hcount : p.1 ≠ 0 := of_decide_eq_true (List.mem_filter.mp hp).2
  obtain ⟨seconds, hseconds, rfl⟩ := Option.map_eq_some_iff.mp ha
  have hunit : ∀ q ∈ units, 0 < q.2 := by decide
  obtain ⟨before, after, heq, -⟩ := List.lookup_eq_some_iff.mp hseconds
  exact Nat.mul_pos (Nat.pos_of_ne_zero hcount) (hunit (p.2, seconds) (by rw [heq]; simp))

/-- The parts that are read are the age without its years. -/
lemma sum_ages (n : ℕ) : ((shown n).filterMap ageOf).sum = n % 31536000 := by
  have hages : ((partsOf n).map fun p => (ageOf p).getD 0) =
      [0, n % 31536000 / 86400 * 86400, n % 86400 / 3600 * 3600, n % 3600 / 60 * 60, n % 60 * 1] := by
    simp only [partsOf, List.map_cons, List.map_nil, ageOf_year, ageOf_day, ageOf_hour, ageOf_minute,
      ageOf_second, Option.getD_some, Option.getD_none]
  have hsum : ∀ a b c d : ℕ, [0, a, b, c, d].sum = a + (b + (c + d)) := fun a b c d => by
    simp only [List.sum_cons, List.sum_nil, Nat.zero_add, Nat.add_zero]
  have hseconds : n % 31536000 / 86400 * 86400 + (n % 86400 / 3600 * 3600 +
      (n % 3600 / 60 * 60 + n % 60 * 1)) = n % 31536000 := by omega
  rw [shown, sum_shown, hages, hsum, hseconds]

/-- **What the portal reads of a rendering**: the age without its years, and
nothing where only years are shown. -/
theorem handshakeAge_rendering (n : ℕ) :
    handshakeAge (rendering n) =
      if n = 0 then some 0 else if n % 31536000 = 0 then none else some (n % 31536000) := by
  by_cases hn : n = 0
  · have hnow : (Words.strip "Now".toList).map Char.toLower = "now".toList := by decide
    rw [hn, rendering, if_pos rfl, handshakeAge]
    simp only [hnow, if_true]
  have hempty : (shown n).filterMap ageOf = [] ↔ n % 31536000 = 0 := by
    rw [← sum_ages n]
    constructor
    · intro h
      rw [h]
      rfl
    · intro h
      refine List.eq_nil_iff_forall_not_mem.mpr fun a ha => ?_
      have hpos := pos_of_mem_shown ha
      have hle := List.single_le_sum (fun x _ => Nat.zero_le x) a ha
      omega
  rw [handshakeAge_parts hn, if_neg hn, sum_ages]
  simp only [hempty]

/-- **The age is read back exactly up to the first year**, and with it the status. -/
theorem handshake_exact_iff (n : ℕ) :
    (handshakeAge (rendering n) = some n ∧
      (classifyHandshake (rendering n) = .active ↔ n ≤ 180) ∧
      classifyHandshake (rendering n) ≠ .inactive) ↔ n < 31536000 := by
  have hread := handshakeAge_rendering n
  constructor
  · rintro ⟨hage, -⟩
    rw [hread] at hage
    split_ifs at hage with hzero hyears
    · omega
    · have heq : n % 31536000 = n := Option.some.inj hage
      omega
  · intro hlt
    have hage : handshakeAge (rendering n) = some n := by
      rw [hread]
      split_ifs with hzero hyears
      · rw [hzero]
      · omega
      · rw [Nat.mod_eq_of_lt hlt]
    refine ⟨hage, ?_, ?_⟩
    · rw [classifyHandshake, hage]
      by_cases hle : n ≤ 180 <;> simp [hle]
    · rw [classifyHandshake, hage]
      by_cases hle : n ≤ 180 <;> simp [hle]

/-- An age of one year is not read at all. -/
theorem year_not_read : ¬ ∀ n, handshakeAge (rendering n) = some n ∧
    (classifyHandshake (rendering n) = .active ↔ n ≤ 180) ∧
    classifyHandshake (rendering n) ≠ .inactive := by
  intro h
  have hage := (h 31536000).1
  rw [handshakeAge_rendering] at hage
  simp at hage

end VpnPortal.Handshake
