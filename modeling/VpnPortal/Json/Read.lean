/-
JSON as Python reads it (`json.loads` of a text).

The reader goes over the text once. It keeps the arrays and objects that are open
and what it expects next; a text, a number and a word have states of their own. A
container that would be nested too deep stops it at once, before anything behind
it is looked at. `NaN` and `Infinity` are numbers, a key that comes twice keeps its
place and its last value, two escapes that form a surrogate pair are one character,
and a row of more than 4300 digits is no number.

* `FloatLib`: what is taken of the floats;
* `State`, `step`, `run`, `loads`: the reader;
* `run_append`: a text in two parts is read part after part;
* `depth_of_loads`: what was read is not nested deeper than the limit;
* `blank_of_loads`: behind a document there are only blanks.
-/
import VpnPortal.Json.Value

namespace JsonText

/-- The floats: `float(text)`, whether one is zero, its `repr` and what `json.dumps`
writes for it, of ASCII characters. -/
structure FloatLib where
  F : Type
  ofText : List ℕ → F
  nan : F
  infinity : F
  negInfinity : F
  isZero : F → Bool
  repr : F → List (Fin 128)
  dump : F → List (Fin 128)

variable (L : FloatLib)

/-- Why a text cannot be read. -/
inductive Fault where
  /-- `ValueError` -/
  | invalid
  /-- `RecursionError` -/
  | recursion
  deriving DecidableEq, Repr

/-! ### States -/

/-- An array or an object that is open; the key is that of the value to come. -/
inductive Frame where
  | arr (items : List (Value L.F))
  | obj (members : List (List ℕ × Value L.F)) (key : List ℕ)

/-- Where the reader is within a text. After the escape of a high surrogate the
flag is set: the escape of a low one completes the pair. -/
inductive Spot where
  | plain (high : Bool)
  | escape (high : Bool)
  | hex (high : Bool) (left bits : ℕ)
  deriving DecidableEq, Repr

/-- Where the reader is within a number. -/
inductive Part where
  | minus | zero | int | dot | frac | exp | sign | expDigits
  deriving DecidableEq, Repr

/-- What is expected next. -/
inductive Phase where
  /-- A value; or the end of an array that was just opened. -/
  | value (closable : Bool)
  /-- A key; or the end of an object that was just opened. -/
  | key (closable : Bool)
  | colon
  /-- A comma or the end of the container. -/
  | after
  | text (isKey : Bool) (chars : List ℕ) (spot : Spot)
  | number (chars : List ℕ) (part : Part)
  | word (rest : List ℕ) (v : Value L.F)
  /-- The value is complete. -/
  | done (v : Value L.F)

/-- The reader between two characters. -/
structure State where
  stack : List (Frame L)
  phase : Phase L

variable {L}

/-- A value is complete. -/
def deliver (stack : List (Frame L)) (v : Value L.F) : State L :=
  match stack with
  | [] => ⟨[], .done v⟩
  | .arr items :: rest => ⟨.arr (items ++ [v]) :: rest, .after⟩
  | .obj ms k :: rest => ⟨.obj (insert ms k v) [] :: rest, .after⟩

/-! ### Texts -/

def isHigh (c : ℕ) : Bool := 0xD800 ≤ c && c ≤ 0xDBFF

def isLow (c : ℕ) : Bool := 0xDC00 ≤ c && c ≤ 0xDFFF

/-- The character of a surrogate pair. -/
def joinPair (hi lo : ℕ) : ℕ := 0x10000 + (hi - 0xD800) * 1024 + (lo - 0xDC00)

/-- The value of a hexadecimal digit. -/
def hexValue (c : ℕ) : Option ℕ :=
  if 0x30 ≤ c ∧ c ≤ 0x39 then some (c - 0x30)
  else if 0x61 ≤ c ∧ c ≤ 0x66 then some (c - 0x61 + 10)
  else if 0x41 ≤ c ∧ c ≤ 0x46 then some (c - 0x41 + 10)
  else none

/-- The character of a short escape. -/
def unescape (c : ℕ) : Option ℕ :=
  if c = 0x22 ∨ c = 0x5C ∨ c = 0x2F then some c
  else if c = 0x62 then some 0x08
  else if c = 0x66 then some 0x0C
  else if c = 0x6E then some 0x0A
  else if c = 0x72 then some 0x0D
  else if c = 0x74 then some 0x09
  else none

/-- A text is complete. -/
def endText (stack : List (Frame L)) (isKey : Bool) (chars : List ℕ) : Except Fault (State L) :=
  if isKey then
    match stack with
    | .obj ms _ :: rest => .ok ⟨.obj ms chars :: rest, .colon⟩
    | _ => .error .invalid
  else .ok (deliver stack (.str chars))

/-- The escape of a code point is complete. -/
def endHex (high : Bool) (chars : List ℕ) (c : ℕ) : List ℕ × Spot :=
  if high && isLow c then (chars.dropLast ++ [joinPair (chars.getLastD 0) c], .plain false)
  else (chars ++ [c], .plain (isHigh c))

/-- One character within a text. -/
def stepText (stack : List (Frame L)) (isKey : Bool) (chars : List ℕ) (spot : Spot) (c : ℕ) :
    Except Fault (State L) :=
  match spot with
  | .plain high =>
      if c = 0x22 then endText stack isKey chars
      else if c = 0x5C then .ok ⟨stack, .text isKey chars (.escape high)⟩
      else if c < 0x20 then .error .invalid
      else .ok ⟨stack, .text isKey (chars ++ [c]) (.plain false)⟩
  | .escape high =>
      if c = 0x75 then .ok ⟨stack, .text isKey chars (.hex high 3 0)⟩
      else match unescape c with
        | some d => .ok ⟨stack, .text isKey (chars ++ [d]) (.plain false)⟩
        | none => .error .invalid
  | .hex high left bits =>
      match hexValue c with
      | none => .error .invalid
      | some d =>
          match left with
          | left + 1 => .ok ⟨stack, .text isKey chars (.hex high left (16 * bits + d))⟩
          | 0 =>
              let (chars, spot) := endHex high chars (16 * bits + d)
              .ok ⟨stack, .text isKey chars spot⟩

/-! ### Numbers -/

/-- The next part of a number. -/
def Part.next (p : Part) (c : ℕ) : Option Part :=
  let digit := isDigit c
  let e := c = 0x65 ∨ c = 0x45
  match p with
  | .minus => if c = 0x30 then some .zero else if digit then some .int else none
  | .zero => if c = 0x2E then some .dot else if e then some .exp else none
  | .int => if digit then some .int else if c = 0x2E then some .dot else if e then some .exp else none
  | .dot => if digit then some .frac else none
  | .frac => if digit then some .frac else if e then some .exp else none
  | .exp => if c = 0x2B ∨ c = 0x2D then some .sign else if digit then some .expDigits else none
  | .sign => if digit then some .expDigits else none
  | .expDigits => if digit then some .expDigits else none

/-- `int(text)` of JSON digits: at most 4300 of them. -/
def readInt (chars : List ℕ) : Except Fault (Value L.F) :=
  let negative := chars.head? = some 0x2D
  let digits := if negative then chars.tail else chars
  if 4300 < digits.length then .error .invalid
  else .ok (.int (if negative then -natOf digits else natOf digits))

/-- The number, where it may end. -/
def readNumber (chars : List ℕ) : Part → Except Fault (Value L.F)
  | .zero | .int => readInt chars
  | .frac | .expDigits => .ok (.float (L.ofText chars))
  | _ => .error .invalid

/-! ### Steps -/

def isBlank (c : ℕ) : Bool := c ∈ [0x20, 0x09, 0x0A, 0x0D]

/-- The end of a container. -/
def close (stack : List (Frame L)) (c : ℕ) : Except Fault (State L) :=
  match stack with
  | .arr items :: rest => if c = 0x5D then .ok (deliver rest (.arr items)) else .error .invalid
  | .obj ms _ :: rest => if c = 0x7D then .ok (deliver rest (.obj ms)) else .error .invalid
  | [] => .error .invalid

/-- One character where a value is complete. -/
def stepAfter (st : State L) (c : ℕ) : Except Fault (State L) :=
  if isBlank c then .ok st
  else match st.stack with
  | [] => .error .invalid
  | .arr items :: rest =>
      if c = 0x2C then .ok ⟨.arr items :: rest, .value false⟩ else close st.stack c
  | .obj ms k :: rest =>
      if c = 0x2C then .ok ⟨.obj ms k :: rest, .key false⟩ else close st.stack c

/-- The words that are values, by their first characters. -/
def wordOf (c : ℕ) : Option (List ℕ × Value L.F) :=
  if c = 0x6E then some ([0x75, 0x6C, 0x6C], .null)
  else if c = 0x74 then some ([0x72, 0x75, 0x65], .bool true)
  else if c = 0x66 then some ([0x61, 0x6C, 0x73, 0x65], .bool false)
  else if c = 0x4E then some ([0x61, 0x4E], .float L.nan)
  else if c = 0x49 then some ([0x6E, 0x66, 0x69, 0x6E, 0x69, 0x74, 0x79], .float L.infinity)
  else none

/-- The first part of a number. -/
def numberOf (c : ℕ) : Option Part :=
  if c = 0x2D then some .minus
  else if c = 0x30 then some .zero
  else if isDigit c then some .int
  else none

/-- One character where a value begins; `limit` is how many containers may be open. -/
def stepValue (limit : ℕ) (stack : List (Frame L)) (closable : Bool) (c : ℕ) :
    Except Fault (State L) :=
  if isBlank c then .ok ⟨stack, .value closable⟩
  else if c = 0x22 then .ok ⟨stack, .text false [] (.plain false)⟩
  else if c = 0x5B ∨ c = 0x7B then
    if limit ≤ stack.length then .error .recursion
    else .ok (if c = 0x5B then ⟨.arr [] :: stack, .value true⟩ else ⟨.obj [] [] :: stack, .key true⟩)
  else match wordOf c, numberOf c with
  | some (rest, v), _ => .ok ⟨stack, .word rest v⟩
  | none, some part => .ok ⟨stack, .number [c] part⟩
  | none, none => if closable then close stack c else .error .invalid

/-- One character. -/
def step (limit : ℕ) (st : State L) (c : ℕ) : Except Fault (State L) :=
  match st.phase with
  | .value closable => stepValue limit st.stack closable c
  | .key closable =>
      if isBlank c then .ok st
      else if c = 0x22 then .ok ⟨st.stack, .text true [] (.plain false)⟩
      else if closable then close st.stack c
      else .error .invalid
  | .colon =>
      if isBlank c then .ok st
      else if c = 0x3A then .ok ⟨st.stack, .value false⟩
      else .error .invalid
  | .after => stepAfter st c
  | .text isKey chars spot => stepText st.stack isKey chars spot c
  | .number chars part =>
      match part.next c with
      | some part => .ok ⟨st.stack, .number (chars ++ [c]) part⟩
      | none =>
          if part = .minus ∧ c = 0x49 then
            .ok ⟨st.stack, .word [0x6E, 0x66, 0x69, 0x6E, 0x69, 0x74, 0x79] (.float L.negInfinity)⟩
          else do
            let v ← readNumber chars part
            stepAfter (deliver st.stack v) c
  | .word rest v =>
      match rest with
      | [d] => if c = d then .ok (deliver st.stack v) else .error .invalid
      | d :: rest => if c = d then .ok ⟨st.stack, .word rest v⟩ else .error .invalid
      | [] => .error .invalid
  | .done _ => stepAfter st c

/-- The characters of a text, one after the other. -/
def run (limit : ℕ) (st : State L) (s : List ℕ) : Except Fault (State L) := s.foldlM (step limit) st

/-- The text ends. -/
def finish (st : State L) : Except Fault (Value L.F) :=
  match st.stack, st.phase with
  | [], .done v => .ok v
  | [], .number chars part => readNumber chars part
  | _, _ => .error .invalid

/-- The reader before the first character. -/
def start : State L := ⟨[], .value false⟩

/-- `json.loads` -/
def loads (limit : ℕ) (s : List ℕ) : Except Fault (Value L.F) := run limit start s >>= finish

/-- A computation that has its value goes on. -/
lemma ok_bind {ε α β : Type} (a : α) (f : α → Except ε β) : (Except.ok a >>= f) = f a := rfl

section

variable (limit : ℕ) (st : State L)

@[simp] lemma run_nil : run limit st [] = .ok st := rfl

lemma run_cons (c : ℕ) (s : List ℕ) : run limit st (c :: s) = step limit st c >>= (run limit · s) :=
  List.foldlM_cons

lemma run_append (s t : List ℕ) : run limit st (s ++ t) = run limit st s >>= (run limit · t) :=
  List.foldlM_append

variable {limit st} in
/-- A text that is read, and what follows it. -/
lemma run_append_of_ok {st' : State L} {s : List ℕ} (h : run limit st s = .ok st') (t : List ℕ) :
    run limit st (s ++ t) = run limit st' t := by
  rw [run_append, h]
  rfl

variable {limit st} in
lemma run_cons_of_ok {st' : State L} {c : ℕ} (h : step limit st c = .ok st') (t : List ℕ) :
    run limit st (c :: t) = run limit st' t := by
  rw [run_cons, h]
  rfl

lemma run_singleton (c : ℕ) : run limit st [c] = step limit st c := by
  rw [run_cons]
  cases step limit st c <;> rfl

end

/-! ### Nesting -/

/-- How deep what an open container has so far is. -/
def Frame.depth : Frame L → ℕ
  | .arr items => depthOfList items
  | .obj ms _ => depthOfMembers ms

/-- No open container goes deeper than the limit. -/
def Fits (limit : ℕ) : List (Frame L) → Prop
  | [] => True
  | f :: rest => rest.length + 1 + f.depth ≤ limit ∧ Fits limit rest

/-- Neither does a value that is complete or under way. -/
def State.Fits (limit : ℕ) (st : State L) : Prop :=
  JsonText.Fits limit st.stack ∧
    match st.phase with
    | .word _ v => v.depth = 0
    | .done v => v.depth ≤ limit
    | _ => True

lemma Fits.length_le {stack : List (Frame L)} {limit : ℕ} (h : Fits limit stack) :
    stack.length ≤ limit := by
  cases stack with
  | nil => exact Nat.zero_le _
  | cons f rest =>
    have hroom := h.1
    simp only [List.length_cons]
    omega

/-- A value that has room is delivered. -/
lemma fits_deliver {limit : ℕ} {stack : List (Frame L)} {v : Value L.F} (hstack : Fits limit stack)
    (hv : stack.length + v.depth ≤ limit) : (deliver stack v).Fits limit := by
  rcases stack with _ | ⟨items | ⟨ms, k⟩, rest⟩
  · refine ⟨trivial, ?_⟩
    change v.depth ≤ limit
    simpa using hv
  · obtain ⟨hroom, hrest⟩ := hstack
    refine ⟨⟨?_, hrest⟩, trivial⟩
    simp only [Frame.depth, depthOfList_append, depthOfList, List.length_cons] at hroom hv ⊢
    omega
  · obtain ⟨hroom, hrest⟩ := hstack
    refine ⟨⟨?_, hrest⟩, trivial⟩
    simp only [Frame.depth, List.length_cons] at hroom hv ⊢
    have hinsert : depthOfMembers (insert ms k v) ≤ limit - (rest.length + 1) := by
      refine depthOfMembers_le fun m hm => ?_
      rcases mem_insert hm with hm | rfl
      · have hle := depth_le_depthOfMembers hm
        omega
      · simp only
        omega
    omega

lemma fits_close {limit : ℕ} {stack : List (Frame L)} {st : State L} {c : ℕ}
    (hstack : Fits limit stack) (h : close stack c = .ok st) : st.Fits limit := by
  rcases stack with _ | ⟨items | ⟨ms, k⟩, rest⟩
  · cases h
  · rw [close] at h
    split_ifs at h
    cases h
    obtain ⟨hroom, hrest⟩ := hstack
    refine fits_deliver hrest ?_
    rw [Value.depth]
    simp only [Frame.depth] at hroom
    omega
  · rw [close] at h
    split_ifs at h
    cases h
    obtain ⟨hroom, hrest⟩ := hstack
    refine fits_deliver hrest ?_
    rw [Value.depth]
    simp only [Frame.depth] at hroom
    omega

lemma fits_stepAfter {limit : ℕ} {st st' : State L} {c : ℕ} (hst : st.Fits limit)
    (h : stepAfter st c = .ok st') : st'.Fits limit := by
  by_cases hblank : isBlank c = true
  · rw [stepAfter, if_pos hblank] at h
    cases h
    exact hst
  · obtain ⟨stack, phase⟩ := st
    have hstack : Fits limit stack := hst.1
    rw [stepAfter, if_neg hblank] at h
    rcases stack with _ | ⟨items | ⟨ms, k⟩, rest⟩
    · cases h
    · simp only at h
      split_ifs at h
      · cases h
        exact ⟨hstack, trivial⟩
      · exact fits_close hstack h
    · simp only at h
      split_ifs at h
      · cases h
        exact ⟨hstack, trivial⟩
      · exact fits_close hstack h

/-- A word has no depth. -/
lemma depth_wordOf {c : ℕ} {rest : List ℕ} {v : Value L.F} (h : wordOf c = some (rest, v)) :
    v.depth = 0 := by
  unfold wordOf at h
  split_ifs at h <;> cases h <;> rfl

lemma fits_stepValue {limit : ℕ} {stack : List (Frame L)} {closable : Bool} {st : State L} {c : ℕ}
    (hstack : Fits limit stack) (h : stepValue limit stack closable c = .ok st) : st.Fits limit := by
  unfold stepValue at h
  split at h
  · cases h
    exact ⟨hstack, trivial⟩
  split at h
  · cases h
    exact ⟨hstack, trivial⟩
  split at h
  · split at h
    · cases h
    · rename_i hroom
      cases h
      split
      · exact ⟨⟨by simp only [Frame.depth, depthOfList]; omega, hstack⟩, trivial⟩
      · exact ⟨⟨by simp only [Frame.depth, depthOfMembers]; omega, hstack⟩, trivial⟩
  split at h
  · rename_i hword
    cases h
    exact ⟨hstack, depth_wordOf hword⟩
  · cases h
    exact ⟨hstack, trivial⟩
  · split at h
    · exact fits_close hstack h
    · cases h

lemma fits_stepText {limit : ℕ} {stack : List (Frame L)} {isKey : Bool} {chars : List ℕ}
    {spot : Spot} {st : State L} {c : ℕ} (hstack : Fits limit stack)
    (h : stepText stack isKey chars spot c = .ok st) : st.Fits limit := by
  have hend : ∀ st, endText stack isKey chars = .ok st → st.Fits limit := by
    intro st hst
    unfold endText at hst
    split_ifs at hst
    · rcases stack with _ | ⟨items | ⟨ms, k⟩, rest⟩
      · cases hst
      · cases hst
      · cases hst
        exact ⟨hstack, trivial⟩
    · cases hst
      exact fits_deliver hstack (by simpa [Value.depth] using hstack.length_le)
  unfold stepText at h
  split at h
  · split_ifs at h
    · exact hend st h
    · cases h
      exact ⟨hstack, trivial⟩
    · cases h
      exact ⟨hstack, trivial⟩
  · split_ifs at h
    · cases h
      exact ⟨hstack, trivial⟩
    · split at h
      · cases h
        exact ⟨hstack, trivial⟩
      · cases h
  · split at h
    · cases h
    · split at h
      · cases h
        exact ⟨hstack, trivial⟩
      · cases h
        exact ⟨hstack, trivial⟩

/-- A number has no depth. -/
lemma depth_readNumber {chars : List ℕ} {part : Part} {v : Value L.F}
    (h : readNumber chars part = .ok v) : v.depth = 0 := by
  have hint : ∀ v : Value L.F, readInt chars = .ok v → v.depth = 0 := by
    intro v hv
    have hrow : ∀ (digits : List ℕ) (n : ℤ), (if 4300 < digits.length then .error .invalid
        else .ok (.int n) : Except Fault (Value L.F)) = .ok v → v.depth = 0 := by
      intro digits n hdigits
      split_ifs at hdigits
      cases hdigits
      rfl
    exact hrow _ _ hv
  cases part with
  | zero => exact hint v h
  | int => exact hint v h
  | frac =>
    cases h
    rfl
  | expDigits =>
    cases h
    rfl
  | minus => cases h
  | dot => cases h
  | exp => cases h
  | sign => cases h

/-- **One character keeps the nesting within the limit.** -/
lemma fits_step {limit : ℕ} {st st' : State L} {c : ℕ} (hst : st.Fits limit)
    (h : step limit st c = .ok st') : st'.Fits limit := by
  obtain ⟨stack, phase⟩ := st
  obtain ⟨hstack, hphase⟩ := hst
  cases phase with
  | value closable => exact fits_stepValue hstack h
  | key closable =>
    simp only [step] at h
    split_ifs at h
    · cases h
      exact ⟨hstack, trivial⟩
    · cases h
      exact ⟨hstack, trivial⟩
    · exact fits_close hstack h
  | colon =>
    simp only [step] at h
    split_ifs at h <;> cases h <;> exact ⟨hstack, trivial⟩
  | after => exact fits_stepAfter ⟨hstack, trivial⟩ h
  | text isKey chars spot => exact fits_stepText hstack h
  | number chars part =>
    simp only [step] at h
    split at h
    · cases h
      exact ⟨hstack, trivial⟩
    · split_ifs at h
      · cases h
        exact ⟨hstack, rfl⟩
      · cases hread : (readNumber chars part : Except Fault (Value L.F)) with
        | error e =>
          rw [hread] at h
          cases h
        | ok v =>
          rw [hread, ok_bind] at h
          refine fits_stepAfter (fits_deliver hstack ?_) h
          rw [depth_readNumber hread]
          exact hstack.length_le
  | word rest v =>
    have hv : v.depth = 0 := hphase
    simp only [step] at h
    split at h
    · split_ifs at h
      cases h
      exact fits_deliver hstack (by rw [hv]; exact hstack.length_le)
    · split_ifs at h
      cases h
      exact ⟨hstack, hv⟩
    · cases h
  | done v => exact fits_stepAfter ⟨hstack, hphase⟩ h

lemma fits_run {limit : ℕ} {s : List ℕ} {st st' : State L} (hst : st.Fits limit)
    (h : run limit st s = .ok st') : st'.Fits limit := by
  induction s generalizing st with
  | nil =>
    cases h
    exact hst
  | cons c s ih =>
    rw [run_cons] at h
    cases hstep : step limit st c with
    | error e =>
      rw [hstep] at h
      cases h
    | ok st₁ =>
      rw [hstep, ok_bind] at h
      exact ih (fits_step hst hstep) h

/-- **What was read is not nested deeper than the limit.** -/
lemma depth_of_loads {limit : ℕ} {s : List ℕ} {v : Value L.F} (h : loads limit s = .ok v) :
    v.depth ≤ limit := by
  unfold loads at h
  cases hrun : run limit (start : State L) s with
  | error e =>
    rw [hrun] at h
    cases h
  | ok st =>
    rw [hrun, ok_bind] at h
    have hstart : (start : State L).Fits limit := ⟨trivial, trivial⟩
    have hfits := fits_run hstart hrun
    unfold finish at h
    split at h
    · cases h
      rename_i hphase
      have hdone := hfits.2
      rwa [hphase] at hdone
    · rw [depth_readNumber h]
      exact Nat.zero_le _
    · cases h

/-! ### Behind a document -/

/-- Behind a complete value only blanks are read. -/
lemma blank_of_run_done {limit : ℕ} {v : Value L.F} {s : List ℕ} {st : State L}
    (h : run limit ⟨[], .done v⟩ s = .ok st) : ∀ c ∈ s, isBlank c = true := by
  induction s with
  | nil => exact fun _ hc => (List.not_mem_nil hc).elim
  | cons c s ih =>
    have hstep : step limit (⟨[], .done v⟩ : State L) c =
        if isBlank c then .ok ⟨[], .done v⟩ else .error .invalid := rfl
    cases hblank : isBlank c with
    | false =>
      rw [run_cons, hstep, hblank] at h
      cases h
    | true =>
      rw [hblank, if_pos rfl] at hstep
      rw [run_cons_of_ok hstep] at h
      exact List.forall_mem_cons.mpr ⟨hblank, ih h⟩

/-- A line break completes a document. -/
lemma step_newline_of_finish {limit : ℕ} {st : State L} {v : Value L.F} (h : finish st = .ok v) :
    step limit st 0x0A = .ok ⟨[], .done v⟩ := by
  obtain ⟨stack, phase⟩ := st
  unfold finish at h
  split at h
  · obtain rfl := Except.ok.inj h
    rename_i hstack hphase
    obtain rfl : stack = [] := hstack
    obtain rfl : phase = _ := hphase
    rfl
  · rename_i chars part hstack hphase
    obtain rfl : stack = [] := hstack
    obtain rfl : phase = _ := hphase
    have hnext : part.next 0x0A = none := by cases part <;> rfl
    have hword : ¬ (part = .minus ∧ (0x0A : ℕ) = 0x49) := by simp
    simp only [step, hnext, if_neg hword, h, ok_bind]
    rfl
  · cases h

/-- **Behind a document there are only blanks**: a text that begins with a document and
a line break is read only if nothing else follows. -/
lemma blank_of_loads {limit : ℕ} {s t : List ℕ} {v w : Value L.F} (hs : loads limit s = .ok v)
    (h : loads limit (s ++ 0x0A :: t) = .ok w) : ∀ c ∈ t, isBlank c = true := by
  unfold loads at hs h
  cases hrun : run limit (start : State L) s with
  | error e =>
    rw [hrun] at hs
    cases hs
  | ok st =>
    rw [hrun, ok_bind] at hs
    rw [run_append_of_ok hrun, run_cons_of_ok (step_newline_of_finish hs)] at h
    cases hrest : run limit (⟨[], .done v⟩ : State L) t with
    | error e =>
      rw [hrest] at h
      cases h
    | ok st' => exact blank_of_run_done hrest

end JsonText
