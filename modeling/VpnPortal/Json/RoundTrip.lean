/-
What `json_encode` writes is what `json.loads` reads.

A value is read where it stands: before it the reader expects a value, behind it the
reader has delivered it. A number is only delivered by the character that follows
it, so the statement takes that character along.

* `run_escape`, `run_writeText`: a text is read back as it was, character by character;
* `Reads`: a value that is read where it stands;
* `Exchanged`: values without floats, with integers within 64 bits and no key twice;
* `loads_write`: such a value is read back from what `json_encode` writes, if the reader
  has room for its depth.
-/
import VpnPortal.Json.Read

namespace JsonText

variable {L : FloatLib} {limit : ℕ}

/-! ### Texts -/

/-- A code point that is no surrogate. -/
def IsScalar (c : ℕ) : Prop := c < 0x110000 ∧ ¬ (0xD800 ≤ c ∧ c ≤ 0xDFFF)

lemma hexValue_hexDigit {n : ℕ} (h : n < 16) : hexValue (hexDigit n) = some n := by
  interval_cases n <;> rfl

lemma step_hex {stack : List (Frame L)} {isKey high : Bool} {chars : List ℕ} {left bits n : ℕ}
    (hn : n < 16) :
    step limit ⟨stack, .text isKey chars (.hex high (left + 1) bits)⟩ (hexDigit n) =
      .ok ⟨stack, .text isKey chars (.hex high left (16 * bits + n))⟩ := by
  simp only [step, stepText, hexValue_hexDigit hn]

/-- The four digits of a unit. -/
lemma units_eq {n : ℕ} (hn : n < 0x10000) :
    16 * (16 * (16 * (n / 4096 % 16) + n / 256 % 16) + n / 16 % 16) + n % 16 = n := by
  omega

/-- The last digit of the escape of a unit. -/
lemma step_lastHex {stack : List (Frame L)} {isKey high : Bool} {chars : List ℕ} {bits n : ℕ}
    (hn : n < 16) :
    step limit ⟨stack, .text isKey chars (.hex high 0 bits)⟩ (hexDigit n) =
      .ok ⟨stack, .text isKey (endHex high chars (16 * bits + n)).1
        (endHex high chars (16 * bits + n)).2⟩ := by
  simp only [step, stepText, hexValue_hexDigit hn]

/-- The escape of one unit. -/
lemma run_escapeUnit {stack : List (Frame L)} {isKey high : Bool} {chars : List ℕ} {n : ℕ}
    (hn : n < 0x10000) :
    run limit ⟨stack, .text isKey chars (.plain high)⟩ (escapeUnit n) =
      .ok ⟨stack, .text isKey (endHex high chars n).1 (endHex high chars n).2⟩ := by
  have hback : step limit ⟨stack, .text isKey chars (.plain high)⟩ 0x5C =
      .ok ⟨stack, .text isKey chars (.escape high)⟩ := rfl
  have hu : step limit ⟨stack, .text isKey chars (.escape high)⟩ 0x75 =
      .ok ⟨stack, .text isKey chars (.hex high 3 0)⟩ := rfl
  have hmod : ∀ m, m % 16 < 16 := fun m => Nat.mod_lt m (by norm_num)
  rw [escapeUnit, run_cons_of_ok hback, run_cons_of_ok hu, run_cons_of_ok (step_hex (hmod _)),
    run_cons_of_ok (step_hex (hmod _)), run_cons_of_ok (step_hex (hmod _)),
    run_cons_of_ok (step_lastHex (hmod _)), run_nil, Nat.mul_zero, Nat.zero_add, units_eq hn]

lemma endHex_first (chars : List ℕ) (c : ℕ) :
    endHex false chars c = (chars ++ [c], .plain (isHigh c)) := rfl

lemma endHex_second {c : ℕ} (h : isLow c = true) (chars : List ℕ) :
    endHex true chars c = (chars.dropLast ++ [joinPair (chars.getLastD 0) c], .plain false) := by
  rw [endHex, h]
  rfl

/-- The escape of a character: a pair of units becomes one character again. -/
lemma run_escapeUnits {stack : List (Frame L)} {isKey : Bool} {chars : List ℕ} {c : ℕ}
    (hc : IsScalar c) :
    run limit ⟨stack, .text isKey chars (.plain false)⟩ (escapeUnits c) =
      .ok ⟨stack, .text isKey (chars ++ [c]) (.plain false)⟩ := by
  unfold escapeUnits
  split_ifs with hsmall
  · have hhigh : isHigh c = false := by
      have := hc.2
      simp only [isHigh, Bool.and_eq_false_iff, decide_eq_false_iff_not]
      omega
    rw [run_escapeUnit hsmall, endHex_first, hhigh]
  · obtain ⟨hbound, -⟩ := hc
    have hhigh : isHigh (0xD800 + (c - 0x10000) / 1024) = true := by
      simp only [isHigh, Bool.and_eq_true, decide_eq_true_eq]
      omega
    have hlow : isLow (0xDC00 + (c - 0x10000) % 1024) = true := by
      simp only [isLow, Bool.and_eq_true, decide_eq_true_eq]
      omega
    have hjoin : joinPair (0xD800 + (c - 0x10000) / 1024) (0xDC00 + (c - 0x10000) % 1024) = c := by
      unfold joinPair
      omega
    have hfirst : endHex false chars (0xD800 + (c - 0x10000) / 1024) =
        (chars ++ [0xD800 + (c - 0x10000) / 1024], .plain true) := by
      rw [endHex_first, hhigh]
    have hsecond : endHex true (chars ++ [0xD800 + (c - 0x10000) / 1024])
        (0xDC00 + (c - 0x10000) % 1024) = (chars ++ [c], .plain false) := by
      rw [endHex_second hlow, List.dropLast_concat, List.getLastD_concat, hjoin]
    rw [run_append_of_ok (run_escapeUnit (by omega)), hfirst, run_escapeUnit (by omega), hsecond]

/-- **One character as `json_encode` writes it.** -/
lemma run_escape {stack : List (Frame L)} {isKey : Bool} {chars : List ℕ} {c : ℕ}
    (hc : IsScalar c) :
    run limit ⟨stack, .text isKey chars (.plain false)⟩ (phpEscape c) =
      .ok ⟨stack, .text isKey (chars ++ [c]) (.plain false)⟩ := by
  have hshort : ∀ d, unescape d = some c → d ≠ 0x75 →
      run limit ⟨stack, .text isKey chars (.plain false)⟩ [0x5C, d] =
        .ok ⟨stack, .text isKey (chars ++ [c]) (.plain false)⟩ := by
    intro d hd hu
    have hback : step limit ⟨stack, .text isKey chars (.plain false)⟩ 0x5C =
        .ok ⟨stack, .text isKey chars (.escape false)⟩ := rfl
    have hd : step limit ⟨stack, .text isKey chars (.escape false)⟩ d =
        .ok ⟨stack, .text isKey (chars ++ [c]) (.plain false)⟩ := by
      simp only [step, stepText, if_neg hu, hd]
    rw [run_cons_of_ok hback, run_cons_of_ok hd, run_nil]
  unfold phpEscape shortEscape
  by_cases h22 : c = 0x22
  · subst h22
    exact hshort _ rfl (by decide)
  by_cases h5C : c = 0x5C
  · subst h5C
    exact hshort _ rfl (by decide)
  by_cases h08 : c = 0x08
  · subst h08
    exact hshort _ rfl (by decide)
  by_cases h0C : c = 0x0C
  · subst h0C
    exact hshort _ rfl (by decide)
  by_cases h0A : c = 0x0A
  · subst h0A
    exact hshort _ rfl (by decide)
  by_cases h0D : c = 0x0D
  · subst h0D
    exact hshort _ rfl (by decide)
  by_cases h09 : c = 0x09
  · subst h09
    exact hshort _ rfl (by decide)
  rw [if_neg h22, if_neg h5C, if_neg h08, if_neg h0C, if_neg h0A, if_neg h0D, if_neg h09]
  by_cases h2F : c = 0x2F
  · subst h2F
    exact hshort _ rfl (by decide)
  simp only [if_neg h2F]
  split_ifs with hplain
  · have hstep : step limit ⟨stack, .text isKey chars (.plain false)⟩ c =
        .ok ⟨stack, .text isKey (chars ++ [c]) (.plain false)⟩ := by
      simp only [step, stepText, if_neg h22, if_neg h5C, if_neg (by omega : ¬ c < 0x20)]
    rw [run_cons_of_ok hstep, run_nil]
  · exact run_escapeUnits hc

/-- A text up to its closing quote. -/
lemma run_chars {stack : List (Frame L)} {isKey : Bool} {s : List ℕ} (hs : ∀ c ∈ s, IsScalar c)
    (chars : List ℕ) :
    run limit ⟨stack, .text isKey chars (.plain false)⟩ (s.flatMap phpEscape) =
      .ok ⟨stack, .text isKey (chars ++ s) (.plain false)⟩ := by
  induction s generalizing chars with
  | nil => simp
  | cons c s ih =>
    rw [List.flatMap_cons, run_append_of_ok (run_escape (hs c List.mem_cons_self)),
      ih fun d hd => hs d (List.mem_cons_of_mem _ hd), List.append_assoc, List.singleton_append]

variable {float : L.F → List ℕ}

/-- A text that is a value. -/
lemma run_writeText {stack : List (Frame L)} {closable : Bool} {s : List ℕ}
    (hs : ∀ c ∈ s, IsScalar c) :
    run limit ⟨stack, .value closable⟩ (writeText (phpWriter float) s) =
      .ok (deliver stack (.str s)) := by
  have hopen : step limit ⟨stack, .value closable⟩ 0x22 =
      .ok ⟨stack, .text false [] (.plain false)⟩ := rfl
  rw [writeText, run_cons_of_ok hopen]
  exact run_append_of_ok (run_chars hs []) [0x22]

/-- A text that is a key. -/
lemma run_writeKey {stack : List (Frame L)} {closable : Bool} {ms : List (List ℕ × Value L.F)}
    {k₀ s : List ℕ} (hs : ∀ c ∈ s, IsScalar c) :
    run limit ⟨.obj ms k₀ :: stack, .key closable⟩ (writeText (phpWriter float) s) =
      .ok ⟨.obj ms s :: stack, .colon⟩ := by
  have hopen : step limit ⟨.obj ms k₀ :: stack, .key closable⟩ 0x22 =
      .ok ⟨.obj ms k₀ :: stack, .text true [] (.plain false)⟩ := rfl
  rw [writeText, run_cons_of_ok hopen]
  exact run_append_of_ok (run_chars hs []) [0x22]

/-! ### Numbers -/

/-- A character that ends a value within a container. -/
def IsDelimiter (c : ℕ) : Prop := c = 0x2C ∨ c = 0x5D ∨ c = 0x7D

lemma step_deliver (stack : List (Frame L)) (v : Value L.F) (c : ℕ) :
    step limit (deliver stack v) c = stepAfter (deliver stack v) c := by
  rcases stack with _ | ⟨_ | _, stack⟩ <;> rfl

lemma run_digits {stack : List (Frame L)} {ds chars : List ℕ} (h : ∀ d ∈ ds, isDigit d = true) :
    run limit ⟨stack, .number chars .int⟩ ds = .ok ⟨stack, .number (chars ++ ds) .int⟩ := by
  induction ds generalizing chars with
  | nil => simp
  | cons d ds ih =>
    have hstep : step limit ⟨stack, .number chars .int⟩ d =
        .ok ⟨stack, .number (chars ++ [d]) .int⟩ := by
      simp only [step, Part.next, h d List.mem_cons_self, if_true]
    rw [run_cons_of_ok hstep, ih fun x hx => h x (List.mem_cons_of_mem _ hx), List.append_assoc,
      List.singleton_append]

/-- A number ends where a delimiter follows. -/
lemma step_number {stack : List (Frame L)} {chars : List ℕ} {part : Part} {v : Value L.F} {c : ℕ}
    (hpart : part = .zero ∨ part = .int) (hv : readNumber chars part = .ok v) (hc : IsDelimiter c) :
    step limit ⟨stack, .number chars part⟩ c = stepAfter (deliver stack v) c := by
  have hnext : part.next c = none := by
    rcases hpart with rfl | rfl <;> rcases hc with rfl | rfl | rfl <;> rfl
  have hminus : ¬ (part = .minus ∧ c = 0x49) := by
    rcases hpart with rfl | rfl <;> simp
  simp only [step, hnext, if_neg hminus, hv]
  rfl

/-- The digits of a number, up to its end. -/
lemma run_decimal {stack : List (Frame L)} {n c : ℕ} {v : Value L.F} {st : State L}
    (p : List ℕ) (hc : IsDelimiter c)
    (hv : ∀ part, part = .zero ∨ part = .int → readNumber (p ++ decimal n) part = .ok v)
    (hzero : step limit st 0x30 = .ok ⟨stack, .number (p ++ [0x30]) .zero⟩)
    (hdigit : ∀ d, 0x31 ≤ d → d ≤ 0x39 →
      step limit st d = .ok ⟨stack, .number (p ++ [d]) .int⟩) :
    run limit st (decimal n ++ [c]) = stepAfter (deliver stack v) c := by
  rcases decimal_cases n with hn | ⟨d, ds, hn, hlo, hhi⟩
  · rw [hn, List.singleton_append, run_cons_of_ok hzero, run_singleton]
    rw [hn] at hv
    exact step_number (.inl rfl) (hv .zero (.inl rfl)) hc
  · have hds : ∀ x ∈ ds, isDigit x = true := fun x hx =>
      isDigit_of_mem_decimal (by rw [hn]; exact List.mem_cons_of_mem _ hx)
    rw [hn, List.cons_append, run_cons_of_ok (hdigit d hlo hhi), run_append_of_ok (run_digits hds),
      run_singleton]
    rw [hn] at hv
    refine step_number (.inr rfl) ?_ hc
    have hread := hv .int (.inr rfl)
    rwa [← List.singleton_append, ← List.append_assoc] at hread

lemma length_decimal {n k : ℕ} (hk : 0 < k) (h : n < 10 ^ k) : (decimal n).length ≤ k := by
  unfold decimal
  split_ifs
  · exact hk
  · rw [List.length_map, List.length_reverse]
    exact Nat.digits_length_le_iff (by norm_num) n |>.mpr h

/-- **An integer within 64 bits.** -/
lemma run_intText {stack : List (Frame L)} {closable : Bool} {n : ℤ} {c : ℕ}
    (hn : n.natAbs < 2 ^ 64) (hc : IsDelimiter c) :
    run limit ⟨stack, .value closable⟩ (intText n ++ [c]) =
      stepAfter (deliver stack (.int n)) c := by
  have hlen : (decimal n.natAbs).length ≤ 4300 :=
    (length_decimal (by norm_num) (hn.trans (by norm_num : 2 ^ 64 < 10 ^ 20))).trans (by norm_num)
  have hdigits : ∀ d, 0x31 ≤ d → d ≤ 0x39 → isDigit d = true := by
    intro d hlo hhi
    simp only [isDigit, Bool.and_eq_true, decide_eq_true_eq]
    omega
  unfold intText
  split_ifs with hneg
  · have hminus : step limit ⟨stack, .value closable⟩ 0x2D = .ok ⟨stack, .number [0x2D] .minus⟩ := rfl
    rw [List.cons_append, run_cons_of_ok hminus]
    refine run_decimal [0x2D] hc ?_ rfl ?_
    · have hread : readInt (0x2D :: decimal n.natAbs) = .ok (.int n : Value L.F) := by
        have hval : (-(natOf (decimal n.natAbs) : ℤ)) = n := by
          rw [natOf_decimal]
          omega
        simp only [readInt, List.head?_cons, List.tail_cons, if_true, hval]
        exact if_neg (by omega)
      rintro part (rfl | rfl) <;> exact hread
    · intro d hlo hhi
      simp only [step, Part.next, hdigits d hlo hhi, if_true, if_neg (by omega : ¬ d = 0x30)]
  · refine run_decimal [] hc ?_ rfl ?_
    · have hhead : (decimal n.natAbs).head? ≠ some 0x2D := by
        intro hhead
        exact absurd (isDigit_of_mem_decimal (List.mem_of_mem_head? hhead)) (by decide)
      have hread : readInt (decimal n.natAbs) = .ok (.int n : Value L.F) := by
        have hval : (natOf (decimal n.natAbs) : ℤ) = n := by
          rw [natOf_decimal]
          omega
        simp only [readInt, if_neg hhead, hval]
        exact if_neg (by omega)
      rintro part (rfl | rfl) <;> exact hread
    · intro d hlo hhi
      have hblank : isBlank d = false := by
        simp only [isBlank, List.mem_cons, List.not_mem_nil, or_false, decide_eq_false_iff_not]
        omega
      have hne : d ≠ 0x22 ∧ ¬ (d = 0x5B ∨ d = 0x7B) ∧ d ≠ 0x6E ∧ d ≠ 0x74 ∧ d ≠ 0x66 ∧ d ≠ 0x4E ∧
          d ≠ 0x49 ∧ d ≠ 0x2D ∧ d ≠ 0x30 := by omega
      have hword : (wordOf d : Option (List ℕ × Value L.F)) = none := by simp [wordOf, hne]
      have hnumber : numberOf d = some .int := by simp [numberOf, hne, hdigits d hlo hhi]
      simp [step, stepValue, hblank, hne, hword, hnumber]

/-! ### Containers -/

/-- The value is read where it stands, up to what follows it. -/
def Reads (limit : ℕ) (float : L.F → List ℕ) (v : Value L.F) : Prop :=
  ∀ (stack : List (Frame L)) (closable : Bool) (c : ℕ), IsDelimiter c →
    stack.length + v.depth ≤ limit →
      run limit ⟨stack, .value closable⟩ (write (phpWriter float) v ++ [c]) =
        stepAfter (deliver stack v) c

/-- A value that needs nothing behind it. -/
lemma reads_of_run {v : Value L.F}
    (h : ∀ (stack : List (Frame L)) (closable : Bool), stack.length + v.depth ≤ limit →
      run limit ⟨stack, .value closable⟩ (write (phpWriter float) v) = .ok (deliver stack v)) :
    Reads limit float v := by
  intro stack closable c _ hdepth
  rw [run_append_of_ok (h stack closable hdepth), run_singleton, step_deliver]

/-- The items of an array, up to its end. -/
lemma run_items {stack : List (Frame L)} {xs : List (Value L.F)}
    (hxs : ∀ x ∈ xs, Reads limit float x) (hdepth : stack.length + 1 + depthOfList xs ≤ limit)
    {acc : List (Value L.F)} {closable : Bool} (hclose : xs = [] → closable = true) :
    run limit ⟨.arr acc :: stack, .value closable⟩
        ([0x2C].intercalate (writeItems (phpWriter float) xs) ++ [0x5D]) =
      .ok (deliver stack (.arr (acc ++ xs))) := by
  induction xs generalizing acc closable with
  | nil =>
    rw [hclose rfl, List.append_nil]
    rfl
  | cons x xs ih =>
    rw [depthOfList] at hdepth
    have hx : ∀ c, IsDelimiter c → run limit ⟨.arr acc :: stack, .value closable⟩
        (write (phpWriter float) x ++ [c]) = stepAfter (deliver (.arr acc :: stack) x) c := by
      intro c hc
      refine hxs x List.mem_cons_self _ _ c hc ?_
      have hle := le_max_left x.depth (depthOfList xs)
      simp only [List.length_cons]
      omega
    cases xs with
    | nil =>
      rw [writeItems, writeItems, List.intercalate_singleton, hx _ (.inr (.inl rfl))]
      rfl
    | cons y xs =>
      have hcomma : run limit ⟨.arr acc :: stack, .value closable⟩
          (write (phpWriter float) x ++ [0x2C]) = .ok ⟨.arr (acc ++ [x]) :: stack, .value false⟩ :=
        hx _ (.inl rfl)
      have hle := le_max_right x.depth (depthOfList (y :: xs))
      have hrest : run limit ⟨.arr (acc ++ [x]) :: stack, .value false⟩
          ([0x2C].intercalate (writeItems (phpWriter float) (y :: xs)) ++ [0x5D]) =
            .ok (deliver stack (.arr (acc ++ [x] ++ y :: xs))) :=
        ih (fun z hz => hxs z (List.mem_cons_of_mem _ hz)) (by omega) (by simp)
      rw [writeItems, writeItems, List.intercalate_cons_cons, List.append_assoc,
        run_append_of_ok hcomma, ← writeItems, hrest, List.append_assoc, List.singleton_append]

/-- The members of an object, up to its end. -/
lemma run_members {stack : List (Frame L)} {ms : List (List ℕ × Value L.F)}
    (hkeys : ∀ m ∈ ms, ∀ c ∈ m.1, IsScalar c) (hms : ∀ m ∈ ms, Reads limit float m.2)
    (hdepth : stack.length + 1 + depthOfMembers ms ≤ limit)
    {acc : List (List ℕ × Value L.F)} (hnodup : ((acc ++ ms).map Prod.fst).Nodup) {k₀ : List ℕ}
    {closable : Bool} (hclose : ms = [] → closable = true) :
    run limit ⟨.obj acc k₀ :: stack, .key closable⟩
        ([0x2C].intercalate (writeMembers (phpWriter float) ms) ++ [0x7D]) =
      .ok (deliver stack (.obj (acc ++ ms))) := by
  induction ms generalizing acc k₀ closable with
  | nil =>
    rw [hclose rfl, List.append_nil]
    rfl
  | cons m ms ih =>
    obtain ⟨k, x⟩ := m
    rw [depthOfMembers] at hdepth
    have hkey : k ∉ acc.map Prod.fst := by
      rw [List.map_append, List.nodup_append] at hnodup
      intro hmem
      exact hnodup.2.2 k hmem k (by simp) rfl
    have hopen : run limit ⟨.obj acc k₀ :: stack, .key closable⟩
        (writeText (phpWriter float) k ++ [0x3A]) = .ok ⟨.obj acc k :: stack, .value false⟩ := by
      rw [run_append_of_ok (run_writeKey (hkeys _ List.mem_cons_self))]
      rfl
    have hmember : ∀ c, IsDelimiter c → run limit ⟨.obj acc k₀ :: stack, .key closable⟩
        (writeText (phpWriter float) k ++ 0x3A :: write (phpWriter float) x ++ [c]) =
          stepAfter ⟨.obj (acc ++ [(k, x)]) [] :: stack, .after⟩ c := by
      intro c hc
      have hx := hms (k, x) List.mem_cons_self (.obj acc k :: stack) false c hc (by
        have hle := le_max_left x.depth (depthOfMembers ms)
        simp only [List.length_cons]
        omega)
      have hsplit : writeText (phpWriter float) k ++ 0x3A :: write (phpWriter float) x ++ [c] =
          writeText (phpWriter float) k ++ [0x3A] ++ (write (phpWriter float) x ++ [c]) := by simp
      rw [hsplit, run_append_of_ok hopen, hx, deliver, insert_new hkey]
    cases ms with
    | nil =>
      rw [writeMembers, writeMembers, List.intercalate_singleton, hmember _ (.inr (.inr rfl))]
      rfl
    | cons n ms =>
      have hcomma : run limit ⟨.obj acc k₀ :: stack, .key closable⟩
          (writeText (phpWriter float) k ++ 0x3A :: write (phpWriter float) x ++ [0x2C]) =
            .ok ⟨.obj (acc ++ [(k, x)]) [] :: stack, .key false⟩ := hmember _ (.inl rfl)
      have hle := le_max_right x.depth (depthOfMembers (n :: ms))
      have hrest : run limit ⟨.obj (acc ++ [(k, x)]) [] :: stack, .key false⟩
          ([0x2C].intercalate (writeMembers (phpWriter float) (n :: ms)) ++ [0x7D]) =
            .ok (deliver stack (.obj (acc ++ [(k, x)] ++ n :: ms))) :=
        ih (fun z hz => hkeys z (List.mem_cons_of_mem _ hz))
          (fun z hz => hms z (List.mem_cons_of_mem _ hz)) (by omega) (by simpa using hnodup) (by simp)
      obtain ⟨k', x'⟩ := n
      rw [writeMembers, writeMembers, List.intercalate_cons_cons, List.append_assoc,
        run_append_of_ok hcomma, ← writeMembers, hrest, List.append_assoc, List.singleton_append]

/-- An array where it stands. -/
lemma run_arr {xs : List (Value L.F)} (hxs : ∀ x ∈ xs, Reads limit float x)
    {stack : List (Frame L)} {closable : Bool}
    (hdepth : stack.length + (Value.arr xs).depth ≤ limit) :
    run limit ⟨stack, .value closable⟩ (write (phpWriter float) (.arr xs)) =
      .ok (deliver stack (.arr xs)) := by
  rw [Value.depth] at hdepth
  have hopen : step limit ⟨stack, .value closable⟩ 0x5B = .ok ⟨.arr [] :: stack, .value true⟩ := by
    have hroom : ¬ limit ≤ stack.length := by omega
    simp [step, stepValue, isBlank, hroom]
  rw [write, run_cons_of_ok hopen]
  exact run_items hxs (by omega) fun _ => rfl

/-- An object where it stands. -/
lemma run_obj {ms : List (List ℕ × Value L.F)} (hkeys : ∀ m ∈ ms, ∀ c ∈ m.1, IsScalar c)
    (hms : ∀ m ∈ ms, Reads limit float m.2) (hnodup : (ms.map Prod.fst).Nodup)
    {stack : List (Frame L)} {closable : Bool}
    (hdepth : stack.length + (Value.obj ms).depth ≤ limit) :
    run limit ⟨stack, .value closable⟩ (write (phpWriter float) (.obj ms)) =
      .ok (deliver stack (.obj ms)) := by
  rw [Value.depth] at hdepth
  have hopen : step limit ⟨stack, .value closable⟩ 0x7B =
      .ok ⟨.obj [] [] :: stack, .key true⟩ := by
    have hroom : ¬ limit ≤ stack.length := by omega
    simp [step, stepValue, isBlank, hroom]
  rw [write, run_cons_of_ok hopen]
  exact run_members hkeys hms (by omega) (by simpa using hnodup) fun _ => rfl

/-! ### The values of the round trip -/

/-- A character that both languages write in the same way, but for the slash. -/
def IsShared (c : ℕ) : Prop := IsScalar c ∧ c ≠ 0x7F

/-- No floats, integers within 64 bits, and no key twice in an object. -/
inductive Exchanged {F : Type} : Value F → Prop where
  | null : Exchanged .null
  | bool (b : Bool) : Exchanged (.bool b)
  | int {n : ℤ} (hn : n.natAbs < 2 ^ 64) : Exchanged (.int n)
  | str {s : List ℕ} (hs : ∀ c ∈ s, IsShared c) : Exchanged (.str s)
  | arr {xs : List (Value F)} (hxs : ∀ x ∈ xs, Exchanged x) : Exchanged (.arr xs)
  | obj {ms : List (List ℕ × Value F)} (hnodup : (ms.map Prod.fst).Nodup)
      (hkeys : ∀ m ∈ ms, ∀ c ∈ m.1, IsShared c) (hms : ∀ m ∈ ms, Exchanged m.2) :
      Exchanged (.obj ms)

/-- **Every such value is read where it stands.** -/
lemma Exchanged.reads {v : Value L.F} (h : Exchanged v) : Reads limit float v := by
  induction h with
  | null => exact reads_of_run fun stack closable _ => rfl
  | bool b =>
    refine reads_of_run fun stack closable _ => ?_
    cases b <;> rfl
  | int hn => exact fun stack closable c hc _ => run_intText hn hc
  | str hs => exact reads_of_run fun stack closable _ => run_writeText fun c hc => (hs c hc).1
  | arr _ ih => exact reads_of_run fun stack closable hdepth => run_arr ih hdepth
  | obj hnodup hkeys _ ih =>
    exact reads_of_run fun stack closable hdepth =>
      run_obj (fun m hm c hc => (hkeys m hm c hc).1) ih hnodup hdepth

/-- **An object comes back from what `json_encode` writes.** -/
theorem loads_write {ms : List (List ℕ × Value L.F)} (h : Exchanged (.obj ms))
    (hdepth : (Value.obj ms).depth ≤ limit) :
    loads limit (write (phpWriter float) (.obj ms)) = .ok (.obj ms) := by
  cases h with
  | obj hnodup hkeys hms =>
    have hrun : run limit start (write (phpWriter float) (.obj ms)) =
        .ok (deliver ([] : List (Frame L)) (.obj ms)) :=
      run_obj (fun m hm c hc => (hkeys m hm c hc).1) (fun m hm => (hms m hm).reads) hnodup
        (by simpa using hdepth)
    rw [loads, hrun]
    rfl

/-! ### The slashes -/

/-- `s.replace("/", "\\/")` -/
def escapeSlash (s : List ℕ) : List ℕ := s.flatMap fun c => if c = 0x2F then [0x5C, 0x2F] else [c]

lemma escapeSlash_append (s t : List ℕ) : escapeSlash (s ++ t) = escapeSlash s ++ escapeSlash t :=
  List.flatMap_append

lemma escapeSlash_cons {c : ℕ} (hc : c ≠ 0x2F) (s : List ℕ) :
    escapeSlash (c :: s) = c :: escapeSlash s := by
  rw [escapeSlash, List.flatMap_cons, if_neg hc]
  rfl

lemma escapeSlash_of_notMem {s : List ℕ} (h : 0x2F ∉ s) : escapeSlash s = s := by
  induction s with
  | nil => rfl
  | cons c s ih =>
    rw [List.mem_cons, not_or] at h
    rw [escapeSlash_cons (Ne.symm h.1), ih h.2]

lemma escapeSlash_intercalate (ts : List (List ℕ)) :
    escapeSlash ([0x2C].intercalate ts) = [0x2C].intercalate (ts.map escapeSlash) := by
  induction ts with
  | nil => rfl
  | cons t ts ih =>
    cases ts with
    | nil => simp
    | cons u ts =>
      have hrest : [0x2C].intercalate ((t :: u :: ts).map escapeSlash) =
          escapeSlash t ++ [0x2C] ++ [0x2C].intercalate ((u :: ts).map escapeSlash) :=
        List.intercalate_cons_cons
      rw [List.intercalate_cons_cons, escapeSlash_append, escapeSlash_append, ih, hrest]
      rfl

lemma hexDigit_ne_slash (n : ℕ) : hexDigit n ≠ 0x2F := by
  unfold hexDigit
  split_ifs <;> omega

lemma escapeSlash_escapeUnit (n : ℕ) : escapeSlash (escapeUnit n) = escapeUnit n := by
  refine escapeSlash_of_notMem ?_
  simp [escapeUnit, (hexDigit_ne_slash _).symm]

/-- **One character**: the escapes differ in the slash only. -/
lemma escapeSlash_pyEscape {c : ℕ} (hc : c ≠ 0x7F) : escapeSlash (pyEscape c) = phpEscape c := by
  unfold pyEscape phpEscape
  cases hshort : shortEscape c with
  | some s =>
    simp only
    unfold shortEscape at hshort
    split_ifs at hshort <;> cases hshort <;> rfl
  | none =>
    simp only
    by_cases hslash : c = 0x2F
    · subst hslash
      rfl
    rw [if_neg hslash]
    by_cases hplain : 0x20 ≤ c ∧ c ≤ 0x7E
    · rw [if_pos hplain, if_pos (by omega), escapeSlash_cons hslash]
      rfl
    · rw [if_neg hplain, if_neg (by omega)]
      unfold escapeUnits
      split_ifs
      · exact escapeSlash_escapeUnit _
      · rw [escapeSlash_append, escapeSlash_escapeUnit, escapeSlash_escapeUnit]

variable {F : Type} {pyFloat phpFloat : F → List ℕ}

lemma escapeSlash_writeText {s : List ℕ} (hs : ∀ c ∈ s, IsShared c) :
    escapeSlash (writeText (pyWriter pyFloat) s) = writeText (phpWriter phpFloat) s := by
  have hchars : escapeSlash (s.flatMap pyEscape) = s.flatMap phpEscape := by
    rw [escapeSlash, List.flatMap_assoc]
    exact List.flatMap_congr fun c hc => escapeSlash_pyEscape (hs c hc).2
  rw [writeText, escapeSlash_cons (by decide), escapeSlash_append]
  exact congrArg (fun t => 0x22 :: (t ++ [0x22])) hchars

/-- **What `json.dumps` writes is, with its slashes escaped, what `json_encode` writes.** -/
theorem escapeSlash_write {v : Value F} (h : Exchanged v) :
    escapeSlash (write (pyWriter pyFloat) v) = write (phpWriter phpFloat) v := by
  induction h with
  | null => rfl
  | bool b => cases b <;> rfl
  | @int n hn =>
    refine escapeSlash_of_notMem fun hmem => ?_
    rw [write, intText] at hmem
    split_ifs at hmem
    · rcases List.mem_cons.mp hmem with h | h
      · exact absurd h (by decide)
      · exact absurd (isDigit_of_mem_decimal h) (by decide)
    · exact absurd (isDigit_of_mem_decimal hmem) (by decide)
  | str hs => exact escapeSlash_writeText hs
  | arr _ ih =>
    rw [write, write, escapeSlash_cons (by decide), escapeSlash_append, escapeSlash_intercalate,
      writeItems_eq, writeItems_eq, List.map_map]
    exact congrArg (fun t => 0x5B :: ([0x2C].intercalate t ++ [0x5D])) (List.map_congr_left ih)
  | @obj ms hnodup hkeys _ ih =>
    have hone : ∀ m ∈ ms, escapeSlash (writeText (pyWriter pyFloat) m.1 ++
        0x3A :: write (pyWriter pyFloat) m.2) =
          writeText (phpWriter phpFloat) m.1 ++ 0x3A :: write (phpWriter phpFloat) m.2 := by
      intro m hm
      rw [escapeSlash_append, escapeSlash_writeText (hkeys m hm), escapeSlash_cons (by decide),
        ih m hm]
    rw [write, write, escapeSlash_cons (by decide), escapeSlash_append, escapeSlash_intercalate,
      writeMembers_eq, writeMembers_eq, List.map_map]
    exact congrArg (fun t => 0x7B :: ([0x2C].intercalate t ++ [0x7D])) (List.map_congr_left hone)

/-! ### The characters that are written -/

lemma escapeUnit_bounds {n c : ℕ} (h : c ∈ escapeUnit n) : 0x20 ≤ c ∧ c < 0x80 := by
  have hhex : ∀ m, 0x20 ≤ hexDigit (m % 16) ∧ hexDigit (m % 16) < 0x80 := fun m => by
    have hbounds := hexDigit_bounds (Nat.mod_lt m (by norm_num : 16 > 0))
    omega
  simp only [escapeUnit, List.mem_cons, List.not_mem_nil, or_false] at h
  rcases h with rfl | rfl | rfl | rfl | rfl | rfl
  · decide
  · decide
  · exact hhex _
  · exact hhex _
  · exact hhex _
  · exact hhex _

lemma pyEscape_bounds {c d : ℕ} (h : d ∈ pyEscape c) : 0x20 ≤ d ∧ d < 0x80 := by
  unfold pyEscape at h
  cases hshort : shortEscape c with
  | some s =>
    rw [hshort] at h
    have hall : ∀ s, shortEscape c = some s → ∀ d ∈ s, 0x20 ≤ d ∧ d < 0x80 := by
      intro s hs
      unfold shortEscape at hs
      split_ifs at hs <;> cases hs <;> decide
    exact hall s hshort d h
  | none =>
    simp only [hshort] at h
    split_ifs at h with hplain
    · rw [List.mem_singleton.mp h]
      omega
    · unfold escapeUnits at h
      split_ifs at h
      · exact escapeUnit_bounds h
      · rcases List.mem_append.mp h with h | h <;> exact escapeUnit_bounds h

/-- **`json.dumps` writes ASCII.** -/
lemma pyWrite_bounds (hfloat : ∀ x, ∀ d ∈ pyFloat x, d < 0x80) (v : Value F) :
    ∀ c ∈ escapeSlash (write (pyWriter pyFloat) v), c < 0x80 := by
  have hwrite := write_all (pyWriter pyFloat) (P := fun c => c < 0x80)
    (fun c _ hc => hc.trans (by decide)) (fun c d hd => (pyEscape_bounds hd).2) hfloat v
  intro c hc
  obtain ⟨d, hd, hc⟩ := List.mem_flatMap.mp hc
  split_ifs at hc
  · exact (by decide : ∀ c ∈ [0x5C, 0x2F], c < 0x80) c hc
  · rw [List.mem_singleton.mp hc]
    exact hwrite d hd

/-- **`json_encode` writes ASCII**, and no control characters. -/
lemma write_bounds {v : Value F} (hv : Exchanged v) :
    ∀ c ∈ write (phpWriter phpFloat) v, 0x20 ≤ c ∧ c < 0x80 := by
  have hwrite := write_all (pyWriter fun _ : F => []) (P := fun c => 0x20 ≤ c ∧ c < 0x80)
    (fun c hlo hhi => ⟨hlo, hhi.trans (by decide)⟩) (fun c d hd => pyEscape_bounds hd)
    (fun x d hd => absurd hd (List.not_mem_nil)) v
  intro c hc
  have heq : escapeSlash (write (pyWriter fun _ => []) v) = write (phpWriter phpFloat) v :=
    escapeSlash_write hv
  rw [← heq] at hc
  obtain ⟨d, hd, hc⟩ := List.mem_flatMap.mp hc
  split_ifs at hc
  · exact (by decide : ∀ c ∈ [0x5C, 0x2F], 0x20 ≤ c ∧ c < 0x80) c hc
  · rw [List.mem_singleton.mp hc]
    exact hwrite d hd

end JsonText
