/-
One-time tokens.

A key has at most one token at a time: a new one takes the place of the last, a
token that is used is gone, and so is one that is dropped. Only a digest of the
token is kept, with the time until which it is good. What is kept can be read off
the moves: a key's slot holds the token that was issued to it last and that
nothing ended since.

* `Move`, `slots`: the moves and what is kept;
* `Live`: a token that was issued and not ended;
* `slots_eq_some_iff`: a slot holds a token exactly if it is the live one of the key;
* `slots_use_self`, `slots_issue_self`: one more move, for its key and for others;
* `Live.unique`, `Live.not_of_used`: a token that is issued once is live for one key, and
  never after it was used.
-/
import Mathlib.Data.List.Basic
import Mathlib.Tactic

namespace OneTime

variable {κ τ δ : Type}

/-- What happens to the tokens. -/
inductive Move (κ τ : Type) where
  | issue (key : κ) (token : τ) (until_ : ℤ)
  | use (token : τ)
  | drop (key : κ)

/-- The move ends a token of this key. -/
def Move.Ends (key : κ) (token : τ) : Move κ τ → Prop
  | .issue k _ _ => k = key
  | .use t => t = token
  | .drop k => k = key

/-- The token that a move issues. -/
def Move.issued : Move κ τ → Option τ
  | .issue _ t _ => some t
  | _ => none

/-- The token that a move names. -/
def Move.token? : Move κ τ → Option τ
  | .issue _ t _ => some t
  | .use t => some t
  | .drop _ => none

/-- Only these tokens are named. -/
def Within (seen : Set τ) (moves : List (Move κ τ)) : Prop :=
  ∀ m ∈ moves, ∀ t ∈ m.token?, t ∈ seen

/-- The tokens that are issued. -/
def issued (moves : List (Move κ τ)) : List τ := moves.filterMap Move.issued

/-- **A live token**: it was issued to the key, and nothing ended it since. -/
def Live (moves : List (Move κ τ)) (key : κ) (token : τ) (until_ : ℤ) : Prop :=
  ∃ before after, moves = before ++ .issue key token until_ :: after ∧
    ∀ m ∈ after, ¬ m.Ends key token

section Slots

variable [DecidableEq κ] [DecidableEq δ] (digest : τ → δ)

/-- One move, on the slots. -/
def move (slot : κ → Option (δ × ℤ)) : Move κ τ → κ → Option (δ × ℤ)
  | .issue key token until_ => Function.update slot key (some (digest token, until_))
  | .use token => fun key => (slot key).filter fun d => d.1 ≠ digest token
  | .drop key => Function.update slot key none

/-- What is kept after the moves. -/
def slots (moves : List (Move κ τ)) : κ → Option (δ × ℤ) := moves.foldl (move digest) fun _ => none

lemma slots_append (moves moves' : List (Move κ τ)) :
    slots digest (moves ++ moves') = moves'.foldl (move digest) (slots digest moves) :=
  List.foldl_append

end Slots

variable {moves : List (Move κ τ)} {m : Move κ τ} {key : κ} {token : τ} {until_ : ℤ} {seen : Set τ}

/-! ### Live tokens -/

/-- A token lives on with a move that does not end it, or is issued by it. -/
lemma live_snoc : Live (moves ++ [m]) key token until_ ↔
    m = .issue key token until_ ∨ (Live moves key token until_ ∧ ¬ m.Ends key token) := by
  constructor
  · rintro ⟨before, after, heq, hends⟩
    rcases List.eq_nil_or_concat after with rfl | ⟨after, last, rfl⟩
    · obtain ⟨-, hm⟩ := List.append_inj' heq rfl
      exact .inl (List.singleton_inj.mp hm)
    · have hsplit : moves ++ [m] = (before ++ .issue key token until_ :: after) ++ [last] := by
        simpa using heq
      obtain ⟨rfl, hlast⟩ := List.append_inj' hsplit rfl
      obtain rfl := List.singleton_inj.mp hlast
      exact .inr ⟨⟨before, after, rfl, fun x hx => hends x (by simp [hx])⟩, hends m (by simp)⟩
  · rintro (rfl | ⟨⟨before, after, rfl, hends⟩, hend⟩)
    · exact ⟨moves, [], rfl, List.forall_mem_nil _⟩
    · refine ⟨before, after ++ [m], by simp, fun x hx => ?_⟩
      rcases List.mem_append.mp hx with hx | hx
      · exact hends x hx
      · rw [List.mem_singleton.mp hx]
        exact hend

lemma not_live_nil : ¬ Live ([] : List (Move κ τ)) key token until_ := by
  rintro ⟨before, after, heq, -⟩
  simp at heq

lemma Live.mem_issued (h : Live moves key token until_) : token ∈ issued moves := by
  obtain ⟨before, after, rfl, -⟩ := h
  exact List.mem_filterMap.mpr ⟨.issue key token until_, by simp, rfl⟩

lemma Within.append {moves' : List (Move κ τ)} (h : Within seen moves) (h' : Within seen moves') :
    Within seen (moves ++ moves') := fun m hm => (List.mem_append.mp hm).elim (h m) (h' m)

lemma Live.mem_seen (h : Live moves key token until_) (hseen : Within seen moves) : token ∈ seen := by
  obtain ⟨before, after, rfl, -⟩ := h
  exact hseen (.issue key token until_) (by simp) token rfl

lemma issued_append (moves moves' : List (Move κ τ)) :
    issued (moves ++ moves') = issued moves ++ issued moves' := List.filterMap_append

/-- A token that is issued once lives for one key. -/
lemma Live.unique (hnodup : (issued moves).Nodup) (h : Live moves key token until_) {key' : κ}
    {until' : ℤ} (h' : Live moves key' token until') : key = key' ∧ until_ = until' := by
  induction moves using List.reverseRecOn with
  | nil => exact absurd h not_live_nil
  | append_singleton moves m ih =>
    rw [issued_append] at hnodup
    have hnew : ∀ {k u k' u'}, m = .issue k token u → ¬ Live moves k' token u' := by
      rintro k u k' u' rfl hlive
      exact List.disjoint_of_nodup_append hnodup hlive.mem_issued
        (List.mem_filterMap.mpr ⟨_, List.mem_singleton_self _, rfl⟩)
    rcases live_snoc.mp h with hm | ⟨h, -⟩ <;> rcases live_snoc.mp h' with hm' | ⟨h', -⟩
    · rw [hm] at hm'
      injection hm' with hk _ hu
      exact ⟨hk, hu⟩
    · exact absurd h' (hnew hm)
    · exact absurd h (hnew hm')
    · exact ih hnodup.of_append_left h h'

/-- A token that was used and is not issued again does not live. -/
lemma Live.not_of_used {before after : List (Move κ τ)}
    (hnodup : (issued (before ++ .use token :: after)).Nodup)
    (hissued : token ∈ issued before) :
    ¬ Live (before ++ .use token :: after) key token until_ := by
  rw [issued_append] at hnodup
  have hafter : token ∉ issued (.use token :: after) := fun hmem =>
    List.disjoint_of_nodup_append hnodup hissued hmem
  rintro ⟨front, back, heq, hends⟩
  rcases List.append_eq_append_iff.mp heq with ⟨mid, rfl, hmid⟩ | ⟨mid, rfl, hmid⟩
  · -- the token would be issued behind its use
    refine hafter (List.mem_filterMap.mpr ⟨.issue key token until_, ?_, rfl⟩)
    rw [hmid]
    simp
  · cases mid with
    | nil => simp at hmid
    | cons x mid =>
      obtain ⟨-, rfl⟩ := List.cons.inj hmid
      exact hends (.use token) (by simp) rfl

/-! ### What is kept -/

/-- **The slots hold the live tokens.** -/
theorem slots_eq_some_iff [DecidableEq κ] [DecidableEq δ] {digest : τ → δ}
    (hdigest : Set.InjOn digest seen) (hseen : Within seen moves) {d : δ} :
    slots digest moves key = some (d, until_) ↔
      ∃ token, digest token = d ∧ Live moves key token until_ := by
  induction moves using List.reverseRecOn generalizing d with
  | nil =>
    constructor
    · intro h
      cases h
    · rintro ⟨token, -, hlive⟩
      exact absurd hlive not_live_nil
  | append_singleton moves m ih =>
    have hbefore : Within seen moves := fun x hx => hseen x (List.mem_append_left _ hx)
    have ih := fun {d} => ih hbefore (d := d)
    rw [slots_append, List.foldl_cons, List.foldl_nil]
    cases m with
    | issue k t u =>
      by_cases hk : k = key
      · subst hk
        rw [move, Function.update_self, Option.some_inj, Prod.mk.injEq]
        constructor
        · rintro ⟨rfl, rfl⟩
          exact ⟨t, rfl, live_snoc.mpr (.inl rfl)⟩
        · rintro ⟨token, rfl, hlive⟩
          rcases live_snoc.mp hlive with heq | ⟨-, hends⟩
          · injection heq with _ ht hu
            exact ⟨congrArg digest ht, hu⟩
          · exact absurd rfl hends
      · rw [move, Function.update_of_ne (Ne.symm hk), ih]
        refine exists_congr fun token => and_congr_right fun _ => ?_
        rw [live_snoc, Move.Ends]
        constructor
        · exact fun h => .inr ⟨h, hk⟩
        · rintro (heq | ⟨h, -⟩)
          · injection heq with heq
            exact absurd heq hk
          · exact h
    | use t =>
      rw [move, Option.filter_eq_some_iff, ih]
      constructor
      · rintro ⟨⟨token, rfl, hlive⟩, hne⟩
        refine ⟨token, rfl, live_snoc.mpr (.inr ⟨hlive, ?_⟩)⟩
        rintro rfl
        simp at hne
      · rintro ⟨token, rfl, hlive⟩
        rcases live_snoc.mp hlive with heq | ⟨hlive, hends⟩
        · cases heq
        · have hused : t ∈ seen := hseen (.use t) (by simp) t rfl
          exact ⟨⟨token, rfl, hlive⟩, decide_eq_true fun h =>
            hends (hdigest (hlive.mem_seen hbefore) hused h).symm⟩
    | drop k =>
      by_cases hk : k = key
      · subst hk
        rw [move, Function.update_self]
        constructor
        · intro h
          cases h
        · rintro ⟨token, -, hlive⟩
          rcases live_snoc.mp hlive with heq | ⟨-, hends⟩
          · cases heq
          · exact absurd rfl hends
      · rw [move, Function.update_of_ne (Ne.symm hk), ih]
        refine exists_congr fun token => and_congr_right fun _ => ?_
        rw [live_snoc, Move.Ends]
        constructor
        · exact fun h => .inr ⟨h, hk⟩
        · rintro (heq | ⟨h, -⟩)
          · cases heq
          · exact h

/-- The use of a live token empties the slot of its key, -/
lemma slots_use_self [DecidableEq κ] [DecidableEq δ] {digest : τ → δ}
    (hdigest : Set.InjOn digest seen) (hseen : Within seen moves) (h : Live moves key token until_) :
    slots digest (moves ++ [.use token]) key = none := by
  have hslot := (slots_eq_some_iff hdigest hseen).mpr ⟨token, rfl, h⟩
  rw [slots_append, List.foldl_cons, List.foldl_nil]
  simp [move, hslot]

/-- and no other. -/
lemma slots_use_other [DecidableEq κ] [DecidableEq δ] {digest : τ → δ}
    (hdigest : Set.InjOn digest seen) (hseen : Within seen moves) (hnodup : (issued moves).Nodup)
    (h : Live moves key token until_) {key' : κ} (hne : key' ≠ key) :
    slots digest (moves ++ [.use token]) key' = slots digest moves key' := by
  rw [slots_append, List.foldl_cons, List.foldl_nil]
  cases hslot : slots digest moves key' with
  | none => simp [move, hslot]
  | some d =>
    obtain ⟨d, u⟩ := d
    obtain ⟨token', htoken, hlive⟩ := (slots_eq_some_iff hdigest hseen).mp hslot
    have hother : d ≠ digest token := by
      intro heq
      obtain rfl := hdigest (hlive.mem_seen hseen) (h.mem_seen hseen) (htoken.trans heq)
      exact hne (hlive.unique hnodup h).1
    simp [move, hslot, hother]

lemma slots_issue_self [DecidableEq κ] [DecidableEq δ] (digest : τ → δ) (moves : List (Move κ τ))
    (key : κ) (token : τ) (until_ : ℤ) :
    slots digest (moves ++ [.issue key token until_]) key = some (digest token, until_) := by
  rw [slots_append, List.foldl_cons, List.foldl_nil, move, Function.update_self]

lemma slots_issue_other [DecidableEq κ] [DecidableEq δ] (digest : τ → δ) (moves : List (Move κ τ))
    {key key' : κ} (hne : key' ≠ key) (token : τ) (until_ : ℤ) :
    slots digest (moves ++ [.issue key token until_]) key' = slots digest moves key' := by
  rw [slots_append, List.foldl_cons, List.foldl_nil, move, Function.update_of_ne hne]

end OneTime
