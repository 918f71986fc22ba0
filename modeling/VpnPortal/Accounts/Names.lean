/-
The usernames of new accounts.

Three endpoints create accounts. All of them keep the username to the alphabet
of the node's peer names, but only `register` looks at the reserved names
(`stored_name_ok_iff`). All of them look whether the name is taken in any
spelling and store it later, under a constraint that compares the exact
spelling; names stay unique regardless of case in the runs in which nobody else
is between the look and the end when a name is stored (`usernames_unique`).

* `Enrols`, `enrols_creation`: accounts are only added, and a request adds them under a
  name it may store;
* `Creation.OpenName`, `stored_name_ok_iff`: **a new name is of the alphabet**, and it is
  not a reserved one exactly if `register` stored it or it was not asked for;
  `operator_name_taken`: the operator's name, from Telegram;
* `OneNamed`, `NoneNamed`, `careful_creation`, `spares_of_enrols`: names as
  places, one for each spelling up to case: a request looks before it takes one;
* `usernames_unique`: **no two stored names are equal up to case** in runs whose names are
  stored apart; `two_spellings_stored`: a run whose names are not.
-/
import VpnPortal.Api.Register
import VpnPortal.Lifecycle.Sequential
import VpnPortal.Sessions.Slots

namespace VpnPortal

open Sessions Tables

/-! ### What a commit does to the accounts -/

/-- A new account is added or nothing happens. -/
lemma addAccount_cases (mk : ℕ → User) (hmk : ∀ n, Row.num (mk n) = n) (db : Db) :
    (db.addAccount mk hmk).2.users = db.users
      ∨ (db.addAccount mk hmk).2.users.rows = db.users.rows ++ [mk db.users.next] := by
  unfold Db.addAccount
  split
  · exact Or.inl rfl
  · exact Or.inr rfl

/-- Tying a Google account keeps every number and name. -/
lemma tieGoogle_names (user : ℕ) (sub : String) (db : Db) :
    (db.tieGoogle user sub).2.users.rows.map (fun u => (u.id, u.username))
      = db.users.rows.map fun u => (u.id, u.username) := by
  unfold Db.tieGoogle
  split
  · rfl
  · dsimp only
    rw [Table.rows_update, List.map_map]
    refine List.map_congr_left fun u _ => ?_
    dsimp only [Function.comp]
    split <;> rfl

/-! ### The names a request stores -/

/-- The numbers and names of the accounts. -/
def roll (db : Db) : List (ℕ × String) := db.users.rows.map fun u => (u.id, u.username)

/-- Accounts are only added, under names of `P`. -/
def Enrols (P : String → Prop) (w w' : World) : Prop :=
  ∃ new : List (ℕ × String), (∀ x ∈ new, P x.2) ∧ roll w'.db = roll w.db ++ new

lemma Enrols.of_roll {P : String → Prop} {w w' : World} (h : roll w'.db = roll w.db) :
    Enrols P w w' := ⟨[], by simp, by simp [h]⟩

lemma Enrols.of_users {P : String → Prop} {w w' : World} (h : w'.db.users = w.db.users) :
    Enrols P w w' := Enrols.of_roll (by rw [roll, h]; rfl)

lemma Enrols.trans {P : String → Prop} {w₁ w₂ w₃ : World} (h : Enrols P w₁ w₂)
    (h' : Enrols P w₂ w₃) : Enrols P w₁ w₃ := by
  obtain ⟨new, hnew, hroll⟩ := h
  obtain ⟨new', hnew', hroll'⟩ := h'
  refine ⟨new ++ new', fun x hx => ?_, by rw [hroll', hroll, List.append_assoc]⟩
  rcases List.mem_append.mp hx with hx | hx
  · exact hnew x hx
  · exact hnew' x hx

/-- An account that was not there before has a name of `P`. -/
lemma Enrols.name {P : String → Prop} {w w' : World} (h : Enrols P w w') {u : User}
    (hu : u ∈ w'.db.users.rows) (hnew : ∀ v ∈ w.db.users.rows, v.id ≠ u.id) : P u.username := by
  obtain ⟨new, hP, hroll⟩ := h
  have hmem : (u.id, u.username) ∈ roll w'.db := List.mem_map_of_mem hu
  rw [hroll] at hmem
  rcases List.mem_append.mp hmem with hmem | hmem
  · obtain ⟨v, hv, heq⟩ := List.mem_map.mp hmem
    exact absurd (Prod.mk.inj heq).1 (hnew v hv)
  · exact hP _ hmem

section

variable {J : World → Input → Prop} {P : String → Prop} {α : Type}

/-- A step that leaves the accounts alone. -/
lemma enrols_look {β : Type} {g : World → α} {f : α → Portal β}
    (hf : ∀ a, Proc.Within J (Enrols P) (fun _ => True) (f a)) :
    Proc.Within J (Enrols P) (fun _ => True) (Proc.look g >>= f) :=
  fun _ _ _ => ⟨Enrols.of_users rfl, hf _⟩

lemma enrols_ask {β : Type} {g : Input → α} {f : α → Portal β}
    (hf : ∀ a, Proc.Within J (Enrols P) (fun _ => True) (f a)) :
    Proc.Within J (Enrols P) (fun _ => True) (Proc.ask g >>= f) :=
  fun _ _ _ => ⟨Enrols.of_users rfl, hf _⟩

lemma enrols_now {β : Type} {f : Time → Portal β}
    (hf : ∀ t, Proc.Within J (Enrols P) (fun _ => True) (f t)) :
    Proc.Within J (Enrols P) (fun _ => True) (now >>= f) :=
  fun _ _ _ => ⟨Enrols.of_users rfl, hf _⟩

lemma enrols_scalar {rows : List α} : Proc.Within J (Enrols P) (fun _ => True) (scalarOneOrNone rows) := by
  unfold scalarOneOrNone
  split <;> trivial

lemma enrols_takeLimit : Proc.Within J (Enrols P) (fun _ => True) takeLimit := by
  refine enrols_ask fun limit => ?_
  split <;> trivial

lemma enrols_referredCode {cfg : Settings} (ref : Option String) :
    Proc.Within J (Enrols P) (fun _ => True) (referredCode cfg ref) := by
  unfold referredCode
  split
  · trivial
  refine enrols_now fun t => enrols_look fun promo => ?_
  split
  · trivial
  split
  · trivial
  unfold isUsedUp
  split
  · trivial
  · exact enrols_look fun _ => trivial

lemma enrols_storeAccount {mk : ℕ → User} (hmk : ∀ n, Row.num (mk n) = n)
    (hname : ∀ n, P (mk n).username) :
    Proc.Within J (Enrols P) (fun _ => True) (storeAccount mk hmk) := by
  refine Proc.Within.exchange fun s i _ => ⟨?_, ?_⟩
  · rcases addAccount_cases mk hmk s.db with hsame | hrows
    · exact Enrols.of_users hsame
    · refine ⟨[(s.db.users.next, (mk s.db.users.next).username)], by simpa using hname _, ?_⟩
      have hid : (mk s.db.users.next).id = s.db.users.next := hmk _
      rw [roll, show _ = _ from hrows, List.map_append, List.map_singleton, hid]
      rfl
  · split <;> trivial

lemma enrols_freeName (cfg : Settings) (username : String) :
    Proc.Within J (Enrols P) (fun r => ∀ name, r = .ok name →
      name = strip username ∧ usernameRe name = true) (freeName cfg username) := by
  unfold freeName
  dsimp only
  split
  · intro name h; cases h
  · rename_i hre
    refine Proc.Within.look fun s i _ => ⟨Enrols.of_users rfl, ?_⟩
    split
    · intro name h; cases h
    · intro name h
      obtain rfl := Except.ok.inj h
      exact ⟨rfl, by simpa using hre⟩

lemma enrols_register {cfg : Settings} (req : RegisterRequest cfg) (hP : P req.username) :
    Proc.Within J (Enrols P) (fun _ => True) (register cfg req) := by
  refine enrols_takeLimit.bind (fun _ _ => enrols_look fun named => ?_) fun _ _ => trivial
  refine enrols_scalar.bind (fun o _ => ?_) fun _ _ => trivial
  split
  · trivial
  refine enrols_look fun rows => enrols_scalar.bind (fun o _ => ?_) fun _ _ => trivial
  split
  · trivial
  refine enrols_ask fun hash => (enrols_referredCode _).bind (fun code _ => ?_) fun _ _ => trivial
  exact enrols_storeAccount _ fun _ => hP

lemma enrols_tgRegister (cfg : Settings) (body : TgRegister)
    (hP : usernameRe (strip body.username) = true → P (strip body.username)) :
    Proc.Within J (Enrols P) (fun _ => True) (tgRegister cfg body) := by
  refine enrols_takeLimit.bind (fun _ _ => ?_) fun _ _ => trivial
  split
  · trivial
  refine enrols_ask fun answer => ?_
  split
  · trivial
  refine Proc.Within.bind (C := fun _ => True) ?_ (fun o _ => ?_) fun _ _ => trivial
  · exact enrols_look fun rows => enrols_scalar
  split
  · trivial
  refine (enrols_freeName cfg _).bind (fun name hname => ?_) fun _ _ => trivial
  obtain ⟨rfl, hre⟩ := hname name rfl
  refine (enrols_referredCode _).bind (fun code _ => enrols_ask fun hash => ?_) fun _ _ => trivial
  exact enrols_storeAccount _ fun _ => hP hre

lemma enrols_googleKnown (user : User) (sub : String) :
    Proc.Within J (Enrols P) (fun _ => True) (googleKnown user sub) := by
  unfold googleKnown
  split
  · trivial
  split
  · refine Proc.Within.exchange fun s i _ => ⟨Enrols.of_roll (tieGoogle_names user.id sub s.db), ?_⟩
    split <;> trivial
  · trivial

/-- The name typed for a Google account. -/
def GoogleIn.name (body : GoogleIn) : String := strip (body.username.getD "")

lemma enrols_googleSignIn (cfg : Settings) (body : GoogleIn)
    (hP : usernameRe body.name = true → P body.name) :
    Proc.Within J (Enrols P) (fun _ => True) (googleSignIn cfg body) := by
  refine enrols_takeLimit.bind (fun _ _ => ?_) fun _ _ => trivial
  split
  · trivial
  refine enrols_ask fun answer => ?_
  split
  · trivial
  refine enrols_look fun rows => enrols_scalar.bind (fun o _ => ?_) fun _ _ => trivial
  split
  · exact enrols_googleKnown _ _
  refine enrols_look fun rows => enrols_scalar.bind (fun o _ => ?_) fun _ _ => trivial
  split
  · split
    · trivial
    · exact enrols_googleKnown _ _
  unfold googleNew
  split
  · trivial
  rename_i username husername
  have hname' : strip username = body.name := by
    obtain ⟨hsome, -⟩ := Option.filter_eq_some_iff.mp husername
    rw [GoogleIn.name, hsome]
    rfl
  refine enrols_takeLimit.bind (fun _ _ => ?_) fun _ _ => trivial
  refine (enrols_freeName cfg _).bind (fun name hname => ?_) fun _ _ => trivial
  obtain ⟨rfl, hre⟩ := hname name rfl
  rw [hname'] at hre ⊢
  refine (enrols_referredCode _).bind (fun code _ => ?_) fun _ _ => trivial
  refine enrols_now fun t => enrols_ask fun hash => ?_
  exact enrols_storeAccount _ fun _ => hP hre

end

/-- The name a request asks for. -/
def Creation.name : Creation → String
  | .register body => body.username
  | .telegram body => strip body.username
  | .google body => body.name

/-- The names a request can store: its own, in the alphabet, and not a reserved
one if it came to `register`. -/
def Creation.Stores (cfg : Settings) (c : Creation) (name : String) : Prop :=
  name = c.name ∧ usernameRe name = true
    ∧ ((∃ body, c = .register body) → cfg.lower name ∉ cfg.reserved)

lemma validate_username {cfg : Settings} {body : RegisterBody} {req : RegisterRequest cfg}
    (h : body.validate cfg = .ok req) : req.username = body.username := by
  unfold RegisterBody.validate at h
  split at h
  · split at h
    · split at h
      · cases h
      · split at h
        · cases h
        · split at h
          · cases h
          · split at h
            · cases h
            · obtain rfl := Except.ok.inj h
              rfl
    · cases h
  · cases h

/-- **What a request stores**, whatever happens beside it. -/
lemma enrols_creation {J : World → Input → Prop} (cfg : Settings) (c : Creation) :
    Proc.Within J (Enrols (c.Stores cfg)) (fun _ => True) (c.run cfg) := by
  cases c with
  | register body =>
      unfold Creation.run
      dsimp only
      cases hvalid : body.validate cfg with
      | error e => trivial
      | ok req =>
          exact enrols_register req ⟨validate_username hvalid, req.matches_, fun _ => req.free⟩
  | telegram body =>
      unfold Creation.run
      dsimp only
      split
      · exact enrols_tgRegister cfg body fun hre => ⟨rfl, hre, fun ⟨_, h⟩ => by cases h⟩
      · trivial
  | google body =>
      unfold Creation.run
      dsimp only
      split
      · exact enrols_googleSignIn cfg body fun hre => ⟨rfl, hre, fun ⟨_, h⟩ => by cases h⟩
      · trivial

/-- A new account has a name that its request can store. -/
lemma stores_of_runs {cfg : Settings} {c : Creation} {w w' : World} {r : Except Exn User}
    (h : Proc.Runs anyInput (c.run cfg) w r w') {u : User} (hu : u ∈ w'.db.users.rows)
    (hnew : ∀ v ∈ w.db.users.rows, v.id ≠ u.id) : c.Stores cfg u.username := by
  have hstar := (((enrols_creation cfg c).alone w).runs h).2.1
  have henrols : Enrols (c.Stores cfg) w w' := by
    clear h hu hnew
    induction hstar with
    | refl => exact Enrols.of_users rfl
    | tail _ hstep ih => exact ih.trans hstep
  exact henrols.name hu hnew

/-- The name is not one that reads as the operator, or it came to `register`,
which would have refused it. -/
def Creation.OpenName (cfg : Settings) (c : Creation) : Prop :=
  (∃ body, c = .register body) ∨ cfg.lower c.name ∉ cfg.reserved

/-- **Who can look like the operator.** For every request to an endpoint that
creates accounts, and every run of it: an account that was not there before has
a username of the alphabet, and it is not a reserved one exactly when the
request came to `register` or the name it asks for is not reserved. -/
theorem stored_name_ok_iff (cfg : Settings) (c : Creation) {w w' : World} {r : Except Exn User}
    (h : Proc.Runs anyInput (c.run cfg) w r w') {u : User} (hu : u ∈ w'.db.users.rows)
    (hnew : ∀ v ∈ w.db.users.rows, v.id ≠ u.id) :
    (usernameRe u.username = true ∧ cfg.lower u.username ∉ cfg.reserved) ↔ c.OpenName cfg := by
  obtain ⟨hname, hre, hreg⟩ := stores_of_runs h hu hnew
  rw [hname] at hre hreg ⊢
  constructor
  · exact fun ⟨_, hfree⟩ => Or.inr hfree
  · rintro (hregister | hfree)
    · exact ⟨hre, hreg hregister⟩
    · exact ⟨hre, hfree⟩

/-- The bot is on. -/
def withBot : Settings := { botEnabled := true }

/-- A Telegram account that is new here. -/
def fromTelegram : Input := { initData := some 7, hash := "h" }

/-- The operator's name is free to take from Telegram. -/
theorem operator_name_taken :
    ∃ w', Proc.Runs anyInput (Creation.run withBot (.telegram { username := "support" })) {}
        (.ok { id := 0, username := "support", telegramId := some 7, passwordHash := "h" }) w'
      ∧ (w'.db.users.rows.map User.username) = ["support"]
      ∧ withBot.lower "support" ∈ withBot.reserved := by
  refine ⟨((Creation.run withBot (.telegram { username := "support" })).play fromTelegram {}).2, ?_,
    by decide +kernel, by decide +kernel⟩
  have hrun := Proc.runs_play (J := anyInput) (i := fromTelegram) (fun _ => trivial)
    (Creation.run withBot (.telegram { username := "support" })) {}
  rwa [show ((Creation.run withBot (.telegram { username := "support" })).play fromTelegram {}).1
    = .ok { id := 0, username := "support", telegramId := some 7, passwordHash := "h" }
    by decide +kernel] at hrun

/-- An ordinary name is stored as it is. -/
theorem stored_name_ok_ivan :
    usernameRe "Ivan" = true ∧ withBot.lower "Ivan" ∉ withBot.reserved := by
  have hrun := Proc.runs_play (J := anyInput) (i := fromTelegram) (fun _ => trivial)
    (Creation.run withBot (.telegram { username := " Ivan" })) {}
  have hrow : ({ id := 0, username := "Ivan", telegramId := some 7, passwordHash := "h" } : User)
      ∈ ((Creation.run withBot (.telegram { username := " Ivan" })).play fromTelegram {}).2.db.users.rows := by
    decide +kernel
  exact (stored_name_ok_iff withBot _ hrun hrow fun _ hv => (List.not_mem_nil hv).elim).mpr
    (Or.inr (by decide))

/-! ### Names as places -/

/-- How many accounts have a name that is `l` in lower case. -/
def namedCount (cfg : Settings) (l : String) (db : Db) : ℕ :=
  db.users.rows.countP fun u => cfg.lower u.username = l

/-- At most one account has the name `l`, in any spelling. -/
def OneNamed (cfg : Settings) (l : String) (w : World) : Prop := namedCount cfg l w.db ≤ 1

/-- No account has the name `l`, in any spelling. -/
def NoneNamed (cfg : Settings) (l : String) (w : World) : Prop := namedCount cfg l w.db = 0

section

variable {cfg : Settings} {l : String} {α β : Type}

lemma keeps_of_count {w w' : World} (h : OneNamed cfg l w)
    (hcount : namedCount cfg l w'.db = namedCount cfg l w.db) :
    Proc.Keeps (OneNamed cfg l) (NoneNamed cfg l) w w' := by
  refine ⟨?_, fun hnone => ?_⟩
  · rw [OneNamed, hcount]
    exact h
  · rw [NoneNamed, hcount]
    exact hnone

lemma keeps_of_users {w w' : World} (h : OneNamed cfg l w) (husers : w'.db.users = w.db.users) :
    Proc.Keeps (OneNamed cfg l) (NoneNamed cfg l) w w' :=
  keeps_of_count h (by rw [namedCount, husers]; rfl)

/-- The look of a request that is after the name `l`. -/
lemma noneNamed_of_sameName {w : World} {name : String} (hl : cfg.lower name = l)
    (h : sameName cfg name w.db = []) : NoneNamed cfg l w := by
  unfold NoneNamed namedCount
  rw [List.countP_eq_zero]
  intro u hu hnamed
  have hmem : u ∈ sameName cfg name w.db := by
    refine List.mem_filter.mpr ⟨hu, ?_⟩
    rw [hl]
    exact hnamed
  rw [h] at hmem
  cases hmem

/-- A part that stores no such name takes no place. -/
lemma spares_of_enrols {P : String → Prop} {C : Except Exn α → Prop} {p : Portal α}
    (hp : Proc.Within (fun s _ => OneNamed cfg l s) (Enrols P) C p)
    (hP : ∀ name, P name → cfg.lower name ≠ l) :
    Proc.Spares (OneNamed cfg l) (NoneNamed cfg l) C p := by
  refine hp.mono_of fun s i t hs henrols => keeps_of_count hs ?_
  obtain ⟨new, hnew, hroll⟩ := henrols
  have hcount := congrArg (List.countP fun x : ℕ × String => cfg.lower x.2 = l) hroll
  have hzero : new.countP (fun x : ℕ × String => cfg.lower x.2 = l) = 0 :=
    List.countP_eq_zero.mpr fun x hx => by simpa using hP x.2 (hnew x hx)
  rw [List.countP_append, hzero, add_zero, roll, roll, List.countP_map, List.countP_map] at hcount
  exact hcount

lemma spares_scalar {rows : List α} :
    Proc.Spares (OneNamed cfg l) (NoneNamed cfg l) (fun _ => True) (scalarOneOrNone rows) :=
  spares_of_enrols (P := fun _ => False) enrols_scalar fun _ h => h.elim

lemma spares_referredCode (ref : Option String) :
    Proc.Spares (OneNamed cfg l) (NoneNamed cfg l) (fun _ => True) (referredCode cfg ref) :=
  spares_of_enrols (P := fun _ => False) (enrols_referredCode ref) fun _ h => h.elim

lemma spares_googleKnown (user : User) (sub : String) :
    Proc.Spares (OneNamed cfg l) (NoneNamed cfg l) (fun _ => True) (googleKnown user sub) :=
  spares_of_enrols (P := fun _ => False) (enrols_googleKnown user sub) fun _ h => h.elim

/-- Storing the name takes its place. -/
lemma takes_storeAccount {mk : ℕ → User} (hmk : ∀ n, Row.num (mk n) = n) :
    Proc.Takes (OneNamed cfg l) (NoneNamed cfg l) (storeAccount mk hmk) := by
  intro s i hs
  refine Or.inr ⟨fun hfree => ?_, ?_⟩
  · rcases addAccount_cases mk hmk s.db with hsame | hrows
    · exact (keeps_of_users hs hsame).1
    · unfold OneNamed NoneNamed namedCount at *
      rw [show _ = _ from hrows, List.countP_append, hfree, zero_add]
      exact List.countP_le_length
  · dsimp only [Proc.bind]
    split <;> trivial

lemma takes_select {q : Db → α} {f : α → Portal β}
    (hf : ∀ a, Proc.Takes (OneNamed cfg l) (NoneNamed cfg l) (f a)) :
    Proc.Takes (OneNamed cfg l) (NoneNamed cfg l) (select q >>= f) :=
  fun _ _ hs => Or.inl ⟨keeps_of_users hs rfl, hf _⟩

lemma takes_ask {g : Input → α} {f : α → Portal β}
    (hf : ∀ a, Proc.Takes (OneNamed cfg l) (NoneNamed cfg l) (f a)) :
    Proc.Takes (OneNamed cfg l) (NoneNamed cfg l) (Proc.ask g >>= f) :=
  fun _ _ hs => Or.inl ⟨keeps_of_users hs rfl, hf _⟩

lemma takes_now {f : Time → Portal β}
    (hf : ∀ t, Proc.Takes (OneNamed cfg l) (NoneNamed cfg l) (f t)) :
    Proc.Takes (OneNamed cfg l) (NoneNamed cfg l) (now >>= f) :=
  fun _ _ hs => Or.inl ⟨keeps_of_users hs rfl, hf _⟩

/-- One step before the look. -/
lemma carefulAfter_takeLimit {n : ℕ} {f : Unit → Portal β}
    (hf : Proc.CarefulAfter (OneNamed cfg l) (NoneNamed cfg l) n (f ())) :
    Proc.CarefulAfter (OneNamed cfg l) (NoneNamed cfg l) (n + 1) (takeLimit >>= f) := by
  refine fun s i hs => ⟨keeps_of_users hs rfl, ?_⟩
  dsimp only [Proc.bind]
  split
  · exact Proc.CarefulAfter.of_result rfl n
  · exact hf

lemma carefulAfter_ask {n : ℕ} {g : Input → α} {f : α → Portal β}
    (hf : ∀ a, Proc.CarefulAfter (OneNamed cfg l) (NoneNamed cfg l) n (f a)) :
    Proc.CarefulAfter (OneNamed cfg l) (NoneNamed cfg l) (n + 1) (Proc.ask g >>= f) :=
  fun _ _ hs => ⟨keeps_of_users hs rfl, hf _⟩

lemma carefulAfter_scalar {n : ℕ} (rows : List α) {f : Option α → Portal β}
    (hf : ∀ o, Proc.CarefulAfter (OneNamed cfg l) (NoneNamed cfg l) n (f o)) :
    Proc.CarefulAfter (OneNamed cfg l) (NoneNamed cfg l) n (scalarOneOrNone rows >>= f) := by
  rcases rows with _ | ⟨a, _ | ⟨b, rest⟩⟩
  · exact hf none
  · exact hf (some a)
  · exact Proc.CarefulAfter.of_result rfl n

/-- A row looked up by a key, before the look at the names. -/
lemma carefulAfter_row {n : ℕ} {q : Db → List α} {f : Option α → Portal β}
    (hf : ∀ o, Proc.CarefulAfter (OneNamed cfg l) (NoneNamed cfg l) n (f o)) :
    Proc.CarefulAfter (OneNamed cfg l) (NoneNamed cfg l) (n + 1)
      (select q >>= fun rows => scalarOneOrNone rows >>= f) :=
  fun s _ hs => ⟨keeps_of_users hs rfl, carefulAfter_scalar (q s.db) hf⟩

lemma carefulAfter_userByChat {n : ℕ} {chat : ℤ} {f : Option User → Portal β}
    (hf : ∀ o, Proc.CarefulAfter (OneNamed cfg l) (NoneNamed cfg l) n (f o)) :
    Proc.CarefulAfter (OneNamed cfg l) (NoneNamed cfg l) (n + 1) (userByChat chat >>= f) :=
  fun _ _ hs => ⟨keeps_of_users hs rfl, carefulAfter_scalar _ hf⟩

/-- A part that takes nothing, where the look was still to come. -/
lemma carefulAfter_of_spares {p : Portal α} (n : ℕ)
    (hp : Proc.Spares (OneNamed cfg l) (NoneNamed cfg l) (fun _ => True) p) :
    Proc.CarefulAfter (OneNamed cfg l) (NoneNamed cfg l) n p := by
  induction n generalizing p with
  | zero => exact Proc.Careful.of_spares hp
  | succ n ih =>
      cases p with
      | ret a => trivial
      | raise e => trivial
      | step act next => exact fun s i hs => ⟨(hp s i hs).1, ih (hp s i hs).2⟩

/-- The look, and the name it was for. -/
lemma careful_freeName {username : String} {f : String → Portal β} (hl : cfg.lower (strip username) = l)
    (hf : Proc.Takes (OneNamed cfg l) (NoneNamed cfg l) (f (strip username))) :
    Proc.Careful (OneNamed cfg l) (NoneNamed cfg l) (freeName cfg username >>= f) := by
  unfold freeName
  dsimp only
  split
  · trivial
  · refine fun s i hs => ⟨keeps_of_users hs rfl, ?_⟩
    dsimp only [Proc.bind]
    cases hrows : sameName cfg (strip username) s.db with
    | nil => exact Or.inr ⟨noneNamed_of_sameName hl hrows, hf⟩
    | cons u rest => exact Or.inl trivial

lemma careful_register (req : RegisterRequest cfg) (hl : cfg.lower req.username = l) :
    Proc.CarefulAfter (OneNamed cfg l) (NoneNamed cfg l) 1 (register cfg req) := by
  refine carefulAfter_takeLimit fun s i hs => ⟨keeps_of_users hs rfl, ?_⟩
  dsimp only [Proc.bind]
  cases hrows : sameName cfg req.username s.db with
  | cons u rest =>
      cases rest with
      | nil => exact Or.inl trivial
      | cons v rest => exact Or.inl trivial
  | nil =>
      refine Or.inr ⟨noneNamed_of_sameName hl hrows, ?_⟩
      refine Proc.Takes.bind spares_scalar fun o _ => ?_
      split
      · trivial
      refine takes_select fun rows => Proc.Takes.bind spares_scalar fun o _ => ?_
      split
      · trivial
      · exact takes_ask fun hash => Proc.Takes.bind (spares_referredCode _) fun code _ =>
          takes_storeAccount _

lemma careful_tgRegister (body : TgRegister) (hl : cfg.lower (strip body.username) = l) :
    Proc.CarefulAfter (OneNamed cfg l) (NoneNamed cfg l) 3 (tgRegister cfg body) := by
  refine carefulAfter_takeLimit ?_
  split
  · trivial
  refine carefulAfter_ask fun answer => ?_
  split
  · trivial
  refine carefulAfter_userByChat fun o => ?_
  split
  · trivial
  · exact careful_freeName hl (Proc.Takes.bind (spares_referredCode _) fun code _ =>
      takes_ask fun hash => takes_storeAccount _)

lemma careful_googleSignIn (body : GoogleIn) (hl : cfg.lower body.name = l) :
    Proc.CarefulAfter (OneNamed cfg l) (NoneNamed cfg l) 5 (googleSignIn cfg body) := by
  refine carefulAfter_takeLimit ?_
  split
  · trivial
  refine carefulAfter_ask fun answer => ?_
  split
  · trivial
  refine carefulAfter_row fun o => ?_
  split
  · exact carefulAfter_of_spares 2 (spares_googleKnown _ _)
  refine carefulAfter_row fun o => ?_
  split
  · split
    · trivial
    · exact carefulAfter_of_spares 1 (spares_googleKnown _ _)
  unfold googleNew
  split
  · trivial
  rename_i username husername
  have hname : strip username = body.name := by
    obtain ⟨hsome, -⟩ := Option.filter_eq_some_iff.mp husername
    rw [GoogleIn.name, hsome]
    rfl
  refine carefulAfter_takeLimit (careful_freeName (by rw [hname]; exact hl) ?_)
  exact Proc.Takes.bind (spares_referredCode _) fun code _ =>
    takes_now fun t => takes_ask fun hash => takes_storeAccount _

/-- How many steps a request takes before it looks whether its name is taken. -/
def Creation.stepsBefore : Creation → ℕ
  | .register _ => 1
  | .telegram _ => 3
  | .google _ => 5

lemma careful_creation (c : Creation) (hl : cfg.lower c.name = l) :
    Proc.CarefulAfter (OneNamed cfg l) (NoneNamed cfg l) c.stepsBefore (c.run cfg) := by
  cases c with
  | register body =>
      unfold Creation.run
      dsimp only
      cases hvalid : body.validate cfg with
      | error e => trivial
      | ok req => exact careful_register req (by rw [validate_username hvalid]; exact hl)
  | telegram body =>
      unfold Creation.run
      dsimp only
      split
      · exact careful_tgRegister body hl
      · trivial
  | google body =>
      unfold Creation.run
      dsimp only
      split
      · exact careful_googleSignIn body hl
      · trivial

end

/-! ### Concurrent requests -/

/-- No two accounts have the same name up to case. -/
def UniqueNames (cfg : Settings) (db : Db) : Prop :=
  db.users.rows.Pairwise fun u v => cfg.lower u.username ≠ cfg.lower v.username

lemma uniqueNames_iff {cfg : Settings} {w : World} :
    UniqueNames cfg w.db ↔ ∀ l, OneNamed cfg l w := by
  unfold UniqueNames OneNamed namedCount
  induction w.db.users.rows with
  | nil => simp
  | cons u rest ih =>
      rw [List.pairwise_cons, ih]
      constructor
      · rintro ⟨hhead, htail⟩ l
        rw [List.countP_cons]
        by_cases hl : cfg.lower u.username = l
        · have hzero : rest.countP (fun v => cfg.lower v.username = l) = 0 :=
            List.countP_eq_zero.mpr fun v hv => by
              rw [← hl]
              simpa using (hhead v hv).symm
          simp [hl, hzero]
        · simpa [hl] using htail l
      · intro hall
        refine ⟨fun v hv heq => ?_, fun l => ?_⟩
        · have hone := hall (cfg.lower u.username)
          rw [List.countP_cons] at hone
          have hpos : 0 < rest.countP (fun x => cfg.lower x.username = cfg.lower u.username) :=
            List.countP_pos_iff.mpr ⟨v, hv, by simpa using heq.symm⟩
          simp only [decide_true, if_true] at hone
          omega
        · have hone := hall l
          rw [List.countP_cons] at hone
          omega

/-- The sessions of the requests, none of which has begun. -/
def creations {κ : Type} (cfg : Settings) (reqs : κ → Creation) (w : World) :
    Cfg κ World Input Exn User :=
  ⟨w, fun k => (reqs k).run cfg⟩

/-- A name is stored only while every other request for it, in any spelling, has
ended or has not looked yet. -/
def StoresApart {κ : Type} [DecidableEq κ] (cfg : Settings) (reqs : κ → Creation) (w : World)
    (sched : List (κ × Input)) : Prop :=
  ∀ l, SpacedBy (NoneNamed cfg l) { k | cfg.lower (reqs k).name = l }
    (fun k => (reqs k).stepsBefore) (creations cfg reqs w) sched

lemma length_sameName_le {cfg : Settings} {db : Db} (h : UniqueNames cfg db) (name : String) :
    (sameName cfg name db).length ≤ 1 := by
  have hone := uniqueNames_iff.mp (show UniqueNames cfg ({ db := db } : World).db from h) (cfg.lower name)
  unfold OneNamed namedCount at hone
  rw [List.countP_eq_length_filter] at hone
  exact hone

/-- The lookup of `login` raises nothing. -/
lemma login_ne_crash {cfg : Settings} {req : LoginRequest} {w w' : World} {r : Except Exn Token}
    (h : UniqueNames cfg w.db) (hrun : Proc.Runs anyInput (login cfg req) w r w') :
    r ≠ .error .crash := by
  have hlimit : ∀ {α : Type} {f : Unit → Portal α}, Proc.Alone anyInput (fun _ _ => True)
      (fun r _ => r ≠ .error .crash) (f ()) w → Proc.Alone anyInput (fun _ _ => True)
      (fun r _ => r ≠ .error .crash) (takeLimit >>= f) w := by
    intro α f hf
    refine fun i _ => ⟨trivial, ?_⟩
    dsimp only [Proc.bind]
    split
    · intro hr; cases hr
    · exact hf
  suffices halone : Proc.Alone anyInput (fun _ _ => True) (fun r _ => r ≠ .error .crash)
      (login cfg req) w from (halone.runs hrun).2
  refine hlimit (hlimit ?_)
  split
  · split
    · intro hr; cases hr
    · intro hr; cases hr
  · refine Proc.Alone.look trivial ?_
    have hle := length_sameName_le h req.username
    generalize sameName cfg req.username w.db = rows at hle
    rcases rows with _ | ⟨user, _ | ⟨second, rest⟩⟩
    · intro hr; cases hr
    · dsimp only [scalarOneOrNone]
      show Proc.Alone anyInput _ _ (if _ then _ else if _ then _ else _) w
      split
      · intro hr; cases hr
      · split
        · intro hr; cases hr
        · intro hr; cases hr
    · simp at hle

/-- **Usernames stay unique regardless of case, as long as names are stored
apart.** Along every schedule of any number of requests to the three endpoints,
whatever they are answered, in which a name is stored only while every other
request for it, in any spelling, has ended or has not yet looked whether it is
taken: no two stored names are equal up to case, so the lookup of `login` finds
one account at most and raises nothing. -/
theorem usernames_unique {κ : Type} [DecidableEq κ] (cfg : Settings) (reqs : κ → Creation)
    {w : World} (h : UniqueNames cfg w.db) {sched : List (κ × Input)}
    (hsched : StoresApart cfg reqs w sched) :
    UniqueNames cfg ((creations cfg reqs w).run sched).state.db
      ∧ (∀ name, (sameName cfg name ((creations cfg reqs w).run sched).state.db).length ≤ 1)
      ∧ ∀ req r w', Proc.Runs anyInput (login cfg req) ((creations cfg reqs w).run sched).state r w' →
        r ≠ .error .crash := by
  have hunique : UniqueNames cfg ((creations cfg reqs w).run sched).state.db := by
    refine uniqueNames_iff.mpr fun l => ?_
    refine ok_of_spacedBy (uniqueNames_iff.mp h l) (fun k hk => careful_creation (reqs k) hk)
      (fun k hk => ?_) (hsched l)
    refine spares_of_enrols (enrols_creation cfg (reqs k)) fun name hname => ?_
    rw [hname.1]
    exact hk
  exact ⟨hunique, length_sameName_le hunique, fun req r w' hrun => login_ne_crash hunique hrun⟩

/-- Two people after one name. -/
def twoSpellings (k : Bool) : Creation := .telegram { username := if k then "Ivan" else "ivan" }

/-- Each from a Telegram account of their own. -/
def fromChat (k : Bool) : Input := { initData := some (if k then 1 else 2), hash := "h" }

/-- Both look before either stores. -/
def bothLook : List (Bool × Input) :=
  List.replicate 4 (true, fromChat true) ++ List.replicate 6 (false, fromChat false)
    ++ List.replicate 2 (true, fromChat true)

/-- Both names are stored, and the next sign-in fails. -/
theorem two_spellings_stored :
    ((creations withBot twoSpellings {}).run bothLook).state.db.users.rows.map User.username
        = ["ivan", "Ivan"]
      ∧ ¬ UniqueNames withBot ((creations withBot twoSpellings {}).run bothLook).state.db
      ∧ ∃ w', Proc.Runs anyInput (login withBot ⟨"ivan", "pw"⟩)
        ((creations withBot twoSpellings {}).run bothLook).state (.error .crash) w' := by
  have hnames : ((creations withBot twoSpellings {}).run bothLook).state.db.users.rows.map
      User.username = ["ivan", "Ivan"] := by decide +kernel
  refine ⟨hnames, fun h => ?_, ?_⟩
  · have hle := length_sameName_le h "ivan"
    have htwo : (sameName withBot "ivan"
      ((creations withBot twoSpellings {}).run bothLook).state.db).length = 2 := by decide +kernel
    omega
  · have hrun := Proc.runs_play (J := anyInput) (i := fromChat true) (fun _ => trivial)
      (login withBot ⟨"ivan", "pw"⟩) ((creations withBot twoSpellings {}).run bothLook).state
    rw [show ((login withBot ⟨"ivan", "pw"⟩).play (fromChat true)
      ((creations withBot twoSpellings {}).run bothLook).state).1 = .error .crash
      by decide +kernel] at hrun
    exact ⟨_, hrun⟩

/-- One after the other, the second finds the name taken. -/
def inTurnSpellings : List (Bool × Input) :=
  List.replicate 6 (true, fromChat true) ++ List.replicate 4 (false, fromChat false)

lemma storesApart_inTurn : StoresApart withBot twoSpellings {} inTurnSpellings := by
  intro l
  have hfirst : SpacedBy (NoneNamed withBot l) {k | withBot.lower (twoSpellings k).name = l}
      (fun k => (twoSpellings k).stepsBefore) (creations withBot twoSpellings {})
      ([] ++ List.replicate 6 (true, fromChat true)) :=
    SpacedBy.nil.alone 6 fun l _ _ => Or.inl (Nat.zero_le _)
  refine hfirst.alone 4 fun k _ hk => Or.inr ?_
  obtain rfl : k = true := by simpa using hk
  exact ⟨.ok { id := 0, username := "Ivan", telegramId := some 1, passwordHash := "h" },
    by decide +kernel⟩

/-- The first spelling is the only one. -/
theorem usernames_unique_inTurn :
    ((creations withBot twoSpellings {}).run inTurnSpellings).state.db.users.rows.map User.username
        = ["Ivan"]
      ∧ UniqueNames withBot ((creations withBot twoSpellings {}).run inTurnSpellings).state.db :=
  ⟨by decide +kernel,
    (usernames_unique withBot twoSpellings (w := {}) List.Pairwise.nil storesApart_inTurn).1⟩

end VpnPortal
