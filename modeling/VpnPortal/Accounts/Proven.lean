/-
An address counts as confirmed exactly if it was shown to be read, and a password
is set anew exactly by the last letter.

Whatever requests come in whatever order: what the portal stores of its tokens is
what the letters say. So a confirmation link works until a newer letter is
written, the address is confirmed or two days are over; a reset link works once,
within an hour, and only the last one does.

* `Effect`, `answer_effect`: what one request can do;
* `Sound`, `Sound.next`: every request keeps the accounts in agreement with the
  letters, and `run_sound`, so every run does;
* `confirmed_iff_shown`: an address is confirmed if and only if Google vouched for it
  or a token from a letter to it was accepted;
* `link_accepted_iff`: a link is accepted if and only if its token is the live one of
  an address, in time, and not too long;
* `password_by_letter`: a password is changed by the live token of a letter to the
  account's address only, and that token works never again.
-/
import VpnPortal.Accounts.Mailbox

namespace VpnPortal.Mailbox

open OneTime

/-! ### What one request can do -/

/-- The lengths a reset is accepted with. -/
structure Fits (token password : String) : Prop where
  token : token.length ≤ maxLength
  long : 8 ≤ password.length
  short : password.length ≤ maxLength

/-- The effects of a request: nothing, a new account, a token written, a token used
or cleared, or the account tied to Google. -/
inductive Effect (cfg : Settings) (accounts : List Account) (c : Call) : Result → Prop where
  | idle (answer : Answer) (hnew : answer ≠ .created)
      (hshow : answer = .done → c.request.verifies = none ∧ c.request.resets = none) :
      Effect cfg accounts c ⟨answer, accounts, []⟩
  | registered (username email : String) (hreq : c.request = .register username email)
      (hclash : clashes accounts (newAccount cfg accounts c username email) = false) :
      Effect cfg accounts c
        ⟨.created, accounts ++ [newAccount cfg accounts c username email], [⟨.confirm, email, c.token⟩]⟩
  | googled (sub email : String) (username : Option String) (new : Account)
      (hreq : c.request = .google sub email username) (hid : new.id = accounts.length)
      (hemail : new.email = some email) (hverified : new.emailVerifiedAt ≠ none)
      (htokens : new.emailVerifyToken = none ∧ new.resetToken = none)
      (hclash : clashes accounts new = false) :
      Effect cfg accounts c ⟨.created, accounts ++ [new], []⟩
  | fromTelegram (new : Account) (chat : ℤ) (username : String)
      (hreq : c.request = .telegram chat username) (hid : new.id = accounts.length)
      (hemail : new.email = none) (htokens : new.emailVerifyToken = none ∧ new.resetToken = none) :
      Effect cfg accounts c ⟨.created, accounts ++ [new], []⟩
  | resent (username : String) (user : Account) (email : String)
      (hreq : c.request = .resend username) (huser : user ∈ accounts)
      (hemail : user.email = some email) (hopen : user.emailVerifiedAt = none) :
      Effect cfg accounts c ⟨.done, save accounts { user with
        emailVerifyToken := some (cfg.sha256 c.token), emailVerifyExpires := some (c.now + verifyTtl) },
        [⟨.confirm, email, c.token⟩]⟩
  | verified (token : String) (user : Account) (expires : Time) (hreq : c.request = .verify token)
      (hshort : token.length ≤ maxLength) (huser : user ∈ accounts)
      (htoken : user.emailVerifyToken = some (cfg.sha256 token))
      (hexpires : user.emailVerifyExpires = some expires) (hintime : c.now ≤ expires) :
      Effect cfg accounts c ⟨.done, save accounts (user.markVerified c.now), []⟩
  | forgotten (email : String) (user : Account) (address : String) (hreq : c.request = .forgot email)
      (huser : user ∈ accounts) (haddress : user.email = some address) :
      Effect cfg accounts c ⟨.done, save accounts { user with
        resetToken := some (cfg.sha256 c.token), resetExpires := some (c.now + resetTtl) },
        [⟨.reset, address, c.token⟩]⟩
  | late (token password : String) (user : Account) (expires : Time)
      (hreq : c.request = .reset token password) (huser : user ∈ accounts)
      (htoken : user.resetToken = some (cfg.sha256 token))
      (hexpires : user.resetExpires = some expires) (hlate : expires < c.now) (detail : String) :
      Effect cfg accounts c ⟨.refused 400 detail,
        save accounts { user with resetToken := none, resetExpires := none }, []⟩
  | renewed (token password : String) (user : Account) (expires : Time)
      (hreq : c.request = .reset token password) (hfits : Fits token password)
      (huser : user ∈ accounts) (htoken : user.resetToken = some (cfg.sha256 token))
      (hexpires : user.resetExpires = some expires) (hintime : c.now ≤ expires) :
      Effect cfg accounts c ⟨.done, save accounts (user.withPassword c.hash c.now), []⟩
  | tied (user : Account) (sub username : String) (huser : user ∈ accounts) :
      Effect cfg accounts c
        ⟨.signedIn username, save accounts { user with googleSub := some sub }, []⟩

section Effects

variable {cfg : Settings} {accounts : List Account} {c : Call}

lemma oneOrNone_some {α : Type} {rows : List α} {a : α} (h : oneOrNone rows = some (some a)) :
    rows = [a] := by
  match rows, h with
  | [b], h =>
    obtain rfl := Option.some.inj (Option.some.inj h)
    rfl

lemma mem_of_oneOrNone {p : Account → Bool} {a : Account}
    (h : oneOrNone (accounts.filter p) = some (some a)) : a ∈ accounts ∧ p a = true := by
  have hone := oneOrNone_some h
  have hmem : a ∈ accounts.filter p := by
    rw [hone]
    exact List.mem_singleton_self a
  exact List.mem_filter.mp hmem

lemma effect_refuse (code : ℕ) (detail : String) :
    Effect cfg accounts c (refuse accounts code detail) :=
  .idle _ (by simp) (by simp)

lemma effect_crashed : Effect cfg accounts c ⟨.crashed, accounts, []⟩ := .idle _ (by simp) (by simp)

lemma effect_register {username email : String} (hreq : c.request = .register username email) :
    Effect cfg accounts c (register cfg accounts c username email) := by
  unfold register
  split
  · exact effect_refuse _ _
  split
  · exact effect_crashed
  · exact effect_refuse _ _
  split
  · exact effect_crashed
  · exact effect_refuse _ _
  rw [insert]
  split
  · exact effect_crashed
  · rename_i hclash
    exact .registered username email hreq (by simpa using hclash)

lemma effect_resend {username : String} (hreq : c.request = .resend username) :
    Effect cfg accounts c (resendVerification cfg accounts c username) := by
  unfold resendVerification
  split
  · exact effect_crashed
  · exact effect_refuse _ _
  rename_i user hone
  split
  · exact .idle _ (by simp) (by simp)
  rename_i hopen
  split
  · exact effect_refuse _ _
  rename_i email hemail
  split
  · exact effect_refuse _ _
  · exact .resent username user email hreq (mem_of_oneOrNone hone).1
      (Option.filter_eq_some_iff.mp hemail).1 (by simpa using hopen)

lemma effect_verify {token : String} (hreq : c.request = .verify token) :
    Effect cfg accounts c (verifyEmail cfg accounts c token) := by
  unfold verifyEmail
  split
  · exact effect_refuse _ _
  rename_i hshort
  split
  · exact effect_refuse _ _
  split
  · exact effect_crashed
  · exact effect_refuse _ _
  rename_i user hone
  obtain ⟨huser, htoken⟩ := mem_of_oneOrNone hone
  split
  · exact effect_refuse _ _
  rename_i expires hexpires
  split
  · exact effect_refuse _ _
  · rename_i hintime
    exact .verified token user expires hreq (not_lt.mp hshort) huser (by simpa using htoken) hexpires
      (not_lt.mp hintime)

lemma effect_forgot {email : String} (hreq : c.request = .forgot email) :
    Effect cfg accounts c (forgotPassword cfg accounts c email) := by
  unfold forgotPassword
  split
  · exact effect_refuse _ _
  split
  · exact effect_crashed
  · exact .idle _ (by simp) fun _ => by simp [hreq, Request.verifies, Request.resets]
  rename_i user hone
  obtain ⟨huser, hlower⟩ := mem_of_oneOrNone hone
  have hsome : user.email ≠ none := by
    rintro hnone
    simp [hnone] at hlower
  obtain ⟨address, haddress⟩ := Option.ne_none_iff_exists'.mp hsome
  have hletters : (user.email.toList.map fun address => (⟨.reset, address, c.token⟩ : Letter)) =
      [⟨.reset, address, c.token⟩] := by
    rw [haddress]
    rfl
  rw [hletters]
  exact .forgotten email user address hreq huser haddress

lemma effect_reset {token password : String} (hreq : c.request = .reset token password) :
    Effect cfg accounts c (resetPassword cfg accounts c token password) := by
  unfold resetPassword
  split
  · exact effect_refuse _ _
  rename_i hshort
  split
  · exact effect_refuse _ _
  split
  · exact effect_refuse _ _
  rename_i hlong
  split
  · exact effect_crashed
  · exact effect_refuse _ _
  rename_i user hone
  obtain ⟨huser, htoken⟩ := mem_of_oneOrNone hone
  have htoken : user.resetToken = some (cfg.sha256 token) := by simpa using htoken
  split
  · exact effect_refuse _ _
  rename_i expires hexpires
  split
  · rename_i hlate
    exact .late token password user expires hreq huser htoken hexpires hlate _
  · rename_i hintime
    have hfits : Fits token password := ⟨by omega, by omega, by omega⟩
    exact .renewed token password user expires hreq hfits huser htoken hexpires (not_lt.mp hintime)

lemma effect_createNamed {username : String} {new : String → Account}
    (h : ∀ name, clashes accounts (new name) = false →
      Effect cfg accounts c ⟨.created, accounts ++ [new name], []⟩) :
    Effect cfg accounts c (createNamed cfg accounts username new) := by
  unfold createNamed
  dsimp only
  split
  · exact effect_refuse _ _
  split
  · exact effect_refuse _ _
  rw [insert]
  split
  · exact effect_crashed
  · rename_i hclash
    exact h _ (by simpa using hclash)

lemma effect_signIn {user : Account} {accounts' : List Account}
    (h : Effect cfg accounts c ⟨.signedIn user.username, accounts', []⟩) :
    Effect cfg accounts c (signIn accounts user accounts') := by
  unfold signIn
  split
  · exact effect_refuse _ _
  · exact h

lemma effect_google {sub email : String} {username : Option String}
    (hreq : c.request = .google sub email username) :
    Effect cfg accounts c (googleSignIn cfg accounts c sub email username) := by
  have hsame : ∀ name, Effect cfg accounts c ⟨.signedIn name, accounts, []⟩ := fun name =>
    .idle _ (by simp) (by simp)
  unfold googleSignIn
  split
  · exact effect_refuse _ _
  split
  · exact effect_crashed
  · exact effect_signIn (hsame _)
  split
  · exact effect_crashed
  · rename_i user hone
    split
    · exact effect_refuse _ _
    split
    · exact effect_signIn (.tied user sub _ (mem_of_oneOrNone hone).1)
    · exact effect_signIn (hsame _)
  split
  · exact effect_refuse _ _
  split
  · exact effect_refuse _ _
  · exact effect_createNamed fun name hclash =>
      .googled sub email username _ hreq rfl rfl (by simp) ⟨rfl, rfl⟩ hclash

lemma effect_telegram {chat : ℤ} {username : String} (hreq : c.request = .telegram chat username) :
    Effect cfg accounts c (tgRegister cfg accounts c chat username) := by
  unfold tgRegister
  split
  · exact effect_refuse _ _
  split
  · exact effect_crashed
  · exact effect_refuse _ _
  · exact effect_createNamed fun name _ => .fromTelegram _ chat username hreq rfl rfl ⟨rfl, rfl⟩

/-- **What one request can do.** -/
lemma answer_effect (cfg : Settings) (accounts : List Account) (c : Call) :
    Effect cfg accounts c (Mailbox.answer cfg accounts c) := by
  unfold Mailbox.answer
  split
  · exact effect_register ‹_›
  · exact effect_resend ‹_›
  · exact effect_verify ‹_›
  · exact effect_forgot ‹_›
  · exact effect_reset ‹_›
  · exact effect_google ‹_›
  · exact effect_telegram ‹_›

/-- An accepted confirmation found its account. -/
lemma verify_done {token : String} (hreq : c.request = .verify token)
    (hdone : (Mailbox.answer cfg accounts c).answer = .done) : token.length ≤ maxLength ∧
    ∃ user ∈ accounts, user.emailVerifyToken = some (cfg.sha256 token) ∧
      ∃ expires, user.emailVerifyExpires = some expires ∧ c.now ≤ expires := by
  have heffect := answer_effect cfg accounts c
  generalize Mailbox.answer cfg accounts c = r at heffect hdone
  cases heffect with
  | idle answer hnew hshow =>
    have hnone := (hshow hdone).1
    rw [hreq] at hnone
    cases hnone
  | verified token' user expires hreq' hshort huser htoken hexpires hintime =>
    obtain rfl := Request.verify.inj (hreq.symm.trans hreq')
    exact ⟨hshort, user, huser, htoken, expires, hexpires, hintime⟩
  | resent _ _ _ hreq' => cases hreq.symm.trans hreq'
  | forgotten _ _ _ hreq' => cases hreq.symm.trans hreq'
  | renewed _ _ _ _ hreq' => cases hreq.symm.trans hreq'
  | registered | googled | fromTelegram | late | tied => cases hdone

/-- An accepted new password found its account. -/
lemma reset_done {token password : String} (hreq : c.request = .reset token password)
    (hdone : (Mailbox.answer cfg accounts c).answer = .done) : Fits token password ∧
      ∃ user ∈ accounts, user.resetToken = some (cfg.sha256 token) ∧
        ∃ expires, user.resetExpires = some expires ∧ c.now ≤ expires := by
  have heffect := answer_effect cfg accounts c
  generalize Mailbox.answer cfg accounts c = r at heffect hdone
  cases heffect with
  | idle answer hnew hshow =>
    have hnone := (hshow hdone).2
    rw [hreq] at hnone
    cases hnone
  | renewed token' password' user expires hreq' hfits huser htoken hexpires hintime =>
    obtain ⟨rfl, rfl⟩ := Request.reset.inj (hreq.symm.trans hreq')
    exact ⟨hfits, user, huser, htoken, expires, hexpires, hintime⟩
  | resent _ _ _ hreq' => cases hreq.symm.trans hreq'
  | forgotten _ _ _ hreq' => cases hreq.symm.trans hreq'
  | verified _ _ _ hreq' => cases hreq.symm.trans hreq'
  | registered | googled | fromTelegram | late | tied => cases hdone

end Effects

/-! ### What every request keeps -/

/-- What is kept of the confirmation tokens, by address. -/
def confirmSlots (cfg : Settings) (log : List Entry) : String → Option (String × ℤ) :=
  slots cfg.sha256 (confirmMoves log)

/-- What is kept of the reset tokens, by address. -/
def resetSlots (cfg : Settings) (log : List Entry) : String → Option (String × ℤ) :=
  slots cfg.sha256 (resetMoves log)

/-- The letters of a history. -/
def lettersOf (log : List Entry) : List Letter := log.flatMap Entry.letters

/-- An account agrees with the history: its tokens with the letters to its address,
and its confirmation with what was shown. -/
structure Account.Agrees (cfg : Settings) (log : List Entry) (clock : Time) (a : Account) : Prop where
  unsent : a.email = none → a.emailVerifyToken = none ∧ a.resetToken = none
  settled : a.emailVerifiedAt ≠ none → a.emailVerifyToken = none
  confirm : ∀ e, a.email = some e → a.emailVerifiedAt = none →
    a.emailVerifyToken = (confirmSlots cfg log e).map Prod.fst ∧
      a.emailVerifyExpires = (confirmSlots cfg log e).map Prod.snd
  reset : ∀ e, a.email = some e →
    (a.resetToken = (resetSlots cfg log e).map Prod.fst ∧
        a.resetExpires = (resetSlots cfg log e).map Prod.snd) ∨
      (a.resetToken = none ∧ ∀ d x, resetSlots cfg log e = some (d, x) → x < clock)
  confirmed : ∀ e, a.email = some e →
    (a.emailVerifiedAt ≠ none ↔ ByGoogle log e ∨ Shown log e)

/-- The accounts as rows: numbers and addresses are not shared. -/
structure Rows (accounts : List Account) : Prop where
  ids : (accounts.map Account.id).Nodup
  below : ∀ a ∈ accounts, a.id < accounts.length
  emails : ∀ a ∈ accounts, ∀ b ∈ accounts, a.email = b.email → a.email ≠ none → a = b

/-- What holds after every request; `past` are the tokens made so far, `seen` those
that the run has. -/
structure Sound (cfg : Settings) (seen : Set String) (past : List String) (clock : Time) (s : State) : Prop where
  rows : Rows s.accounts
  agrees : ∀ a ∈ s.accounts, a.Agrees cfg s.log clock
  written : ((lettersOf s.log).map Letter.token).Sublist past
  within : Within seen (confirmMoves s.log) ∧ Within seen (resetMoves s.log)
  known : ∀ l ∈ lettersOf s.log, ∃ a ∈ s.accounts, a.email = some l.address
  google : ∀ e, ByGoogle s.log e →
    (∃ a ∈ s.accounts, a.email = some e) ∧ ∀ l ∈ lettersOf s.log, l.purpose = .confirm → l.address ≠ e

section Histories

variable {cfg : Settings} {log : List Entry} {x : Entry} {e : String}

lemma lettersOf_snoc : lettersOf (log ++ [x]) = lettersOf log ++ x.letters := by
  simp [lettersOf]

lemma confirmMoves_snoc : confirmMoves (log ++ [x]) =
    confirmMoves log ++ x.moves .confirm verifyTtl x.call.request.verifies := by
  simp [confirmMoves]

lemma resetMoves_snoc : resetMoves (log ++ [x]) =
    resetMoves log ++ x.moves .reset resetTtl x.call.request.resets := by
  simp [resetMoves]

/-- A purpose's issued tokens are those of its letters. -/
lemma issued_flatMap (purpose : Purpose) (ttl : Time) (used : Entry → Option String) (log : List Entry) :
    issued (log.flatMap fun x => x.moves purpose ttl (used x)) =
      ((lettersOf log).filter fun l => l.purpose = purpose).map Letter.token := by
  induction log with
  | nil => rfl
  | cons x log ih =>
    have hx : issued (x.moves purpose ttl (used x)) =
        (x.letters.filter fun l => l.purpose = purpose).map Letter.token := by
      have hletters : ∀ ls : List Letter, issued (ls.map fun l =>
          (Move.issue l.address l.token (x.call.now + ttl) : Move String String)) =
            ls.map Letter.token := by
        intro ls
        induction ls with
        | nil => rfl
        | cons l ls ih => exact congrArg (l.token :: ·) ih
      have hused : issued (if x.answer = .done then
          ((used x).map (Move.use : String → Move String String)).toList else []) = [] := by
        split
        · cases used x <;> rfl
        · rfl
      rw [Entry.moves, issued_append, hletters, hused, List.append_nil]
    rw [List.flatMap_cons, issued_append, hx, ih]
    simp [lettersOf]

/-- A live token was in a letter to its address. -/
lemma letter_of_live {purpose : Purpose} {ttl : Time} {used : Entry → Option String}
    {token : String} {until_ : ℤ}
    (h : Live (log.flatMap fun x => x.moves purpose ttl (used x)) e token until_) :
    ⟨purpose, e, token⟩ ∈ lettersOf log := by
  obtain ⟨before, after, heq, -⟩ := h
  have hmem : Move.issue e token until_ ∈ log.flatMap fun x => x.moves purpose ttl (used x) := by
    rw [heq]
    simp
  obtain ⟨x, hx, hmem⟩ := List.mem_flatMap.mp hmem
  rcases List.mem_append.mp hmem with hmem | hmem
  · obtain ⟨l, hl, heq⟩ := List.mem_map.mp hmem
    obtain ⟨hl, hpurpose⟩ := List.mem_filter.mp hl
    injection heq with haddress htoken
    refine List.mem_flatMap.mpr ⟨x, hx, ?_⟩
    rw [← haddress, ← htoken, ← of_decide_eq_true hpurpose]
    exact hl
  · split at hmem
    · cases hused : used x with
      | none =>
        rw [hused] at hmem
        cases hmem
      | some t =>
        rw [hused] at hmem
        cases List.mem_singleton.mp hmem
    · cases hmem

lemma shown_snoc : Shown (log ++ [x]) e ↔ Shown log e ∨ x.Shows log e := by
  constructor
  · rintro ⟨before, y, after, heq, hshows⟩
    rcases List.eq_nil_or_concat after with rfl | ⟨after, last, rfl⟩
    · obtain ⟨rfl, hx⟩ := List.append_inj' heq rfl
      obtain rfl := List.singleton_inj.mp hx
      exact .inr hshows
    · have hsplit : log ++ [x] = (before ++ y :: after) ++ [last] := by simpa using heq
      obtain ⟨rfl, -⟩ := List.append_inj' hsplit rfl
      exact .inl ⟨before, y, after, rfl, hshows⟩
  · rintro (⟨before, y, after, rfl, hshows⟩ | hshows)
    · exact ⟨before, y, after ++ [x], by simp, hshows⟩
    · exact ⟨log, x, [], rfl, hshows⟩

lemma byGoogle_snoc : ByGoogle (log ++ [x]) e ↔ ByGoogle log e ∨
    (x.answer = .created ∧ ∃ sub username, x.call.request = .google sub e username) := by
  simp [ByGoogle, or_and_right, exists_or]

end Histories

/-! ### Rows -/

section RowLemmas

variable {accounts : List Account} {user new a : Account}

lemma mem_save (h : a ∈ save accounts new) : a = new ∨ (a ∈ accounts ∧ a.id ≠ new.id) := by
  obtain ⟨b, hb, rfl⟩ := List.mem_map.mp h
  by_cases hid : b.id = new.id
  · simp [hid]
  · simp [hid, hb]

lemma mem_save_self (huser : user ∈ accounts) (hid : new.id = user.id) : new ∈ save accounts new :=
  List.mem_map.mpr ⟨user, huser, by simp [hid]⟩

lemma mem_save_of_ne (ha : a ∈ accounts) (hid : a.id ≠ new.id) : a ∈ save accounts new :=
  List.mem_map.mpr ⟨a, ha, by simp [hid]⟩

lemma Rows.eq_of_id (h : Rows accounts) (ha : a ∈ accounts) (huser : user ∈ accounts)
    (hid : a.id = user.id) : a = user :=
  List.inj_on_of_nodup_map h.ids ha huser hid

/-- The only row of its kind is found. -/
lemma Rows.find (h : Rows accounts) {p : Account → Bool} (huser : user ∈ accounts) (hp : p user = true)
    (hone : ∀ a ∈ accounts, p a = true → a = user) :
    oneOrNone (accounts.filter p) = some (some user) := by
  have hperm : (accounts.filter p).Perm [user] := by
    refine (List.perm_ext_iff_of_nodup (h.ids.of_map.filter p) (List.nodup_singleton _)).mpr fun a => ?_
    rw [List.mem_filter, List.mem_singleton]
    constructor
    · exact fun ha => hone a ha.1 ha.2
    · rintro rfl
      exact ⟨huser, hp⟩
  rw [List.perm_singleton.mp hperm]
  rfl

/-- A row that is written keeps its number and its address. -/
lemma Rows.save (h : Rows accounts) (huser : user ∈ accounts) (hid : new.id = user.id)
    (hemail : new.email = user.email) : Rows (save accounts new) where
  ids := by
    have hmap : (Mailbox.save accounts new).map Account.id = accounts.map Account.id := by
      rw [Mailbox.save, List.map_map]
      refine List.map_congr_left fun a _ => ?_
      by_cases ha : a.id = new.id <;> simp [ha]
    rw [hmap]
    exact h.ids
  below a ha := by
    rw [Mailbox.save, List.length_map]
    rcases mem_save ha with rfl | ⟨ha, -⟩
    · rw [hid]
      exact h.below user huser
    · exact h.below a ha
  emails a ha b hb heq hne := by
    rcases mem_save ha with rfl | ⟨ha', hida⟩ <;> rcases mem_save hb with rfl | ⟨hb', hidb⟩
    · rfl
    · have hsame := h.emails user huser b hb' (hemail ▸ heq) (hemail ▸ hne)
      exact absurd (by rw [hid, hsame]) hidb
    · have hsame := h.emails a ha' user huser (heq.trans hemail) hne
      exact absurd (by rw [hid, hsame]) hida
    · exact h.emails a ha' b hb' heq hne

/-- A new row has an address that nobody has, or none. -/
lemma Rows.append (h : Rows accounts) (hid : new.id = accounts.length)
    (hemail : new.email = none ∨ ∀ a ∈ accounts, a.email ≠ new.email) : Rows (accounts ++ [new]) where
  ids := by
    rw [List.map_append, List.map_singleton, List.nodup_append]
    refine ⟨h.ids, List.nodup_singleton _, fun n hn m hm => ?_⟩
    obtain ⟨a, ha, rfl⟩ := List.mem_map.mp hn
    rw [List.mem_singleton.mp hm, hid]
    exact (h.below a ha).ne
  below a ha := by
    rw [List.length_append, List.length_singleton]
    rcases List.mem_append.mp ha with ha | ha
    · exact (h.below a ha).trans (Nat.lt_succ_self _)
    · rw [List.mem_singleton.mp ha, hid]
      exact Nat.lt_succ_self _
  emails a ha b hb heq hne := by
    have hnew : ∀ x ∈ accounts, x.email = new.email → x.email ≠ none → False := by
      intro x hx hsame hsome
      rcases hemail with hnone | hother
      · exact hsome (hsame.trans hnone)
      · exact hother x hx hsame
    rcases List.mem_append.mp ha with ha' | ha' <;> rcases List.mem_append.mp hb with hb' | hb'
    · exact h.emails a ha' b hb' heq hne
    · rw [List.mem_singleton.mp hb'] at heq
      exact absurd hne fun _ => hnew a ha' heq hne
    · rw [List.mem_singleton.mp ha'] at heq hne
      exact absurd hne fun _ => hnew b hb' heq.symm (heq ▸ hne)
    · rw [List.mem_singleton.mp ha', List.mem_singleton.mp hb']

lemma email_ne_of_not_clashes (h : clashes accounts new = false) (hnew : new.email ≠ none) :
    ∀ a ∈ accounts, a.email ≠ new.email := by
  intro a ha heq
  have hno := List.any_eq_false.mp h a ha
  simp [hnew, heq] at hno

/-! A new password confirms the address, and no token is left. -/

lemma Account.withPassword_id (hash : String) (now : Time) : (a.withPassword hash now).id = a.id := by
  simp only [Account.withPassword, Account.markVerified]
  split <;> rfl

lemma Account.withPassword_email (hash : String) (now : Time) :
    (a.withPassword hash now).email = a.email := by
  simp only [Account.withPassword, Account.markVerified]
  split <;> rfl

lemma Account.withPassword_hash (hash : String) (now : Time) :
    (a.withPassword hash now).passwordHash = hash := by
  simp only [Account.withPassword, Account.markVerified]
  split <;> rfl

lemma Account.withPassword_verified (hash : String) (now : Time) :
    (a.withPassword hash now).emailVerifiedAt ≠ none := by
  simp only [Account.withPassword, Account.markVerified]
  split
  · simp
  · assumption

lemma Account.withPassword_verifyToken (hash : String) (now : Time)
    (h : a.emailVerifiedAt ≠ none → a.emailVerifyToken = none) :
    (a.withPassword hash now).emailVerifyToken = none := by
  simp only [Account.withPassword, Account.markVerified]
  split
  · rfl
  · exact h ‹_›

lemma Account.withPassword_reset (hash : String) (now : Time) :
    (a.withPassword hash now).resetToken = none ∧ (a.withPassword hash now).resetExpires = none := by
  simp only [Account.withPassword, Account.markVerified]
  split <;> exact ⟨rfl, rfl⟩

/-- **What sets a password anew**: a reset token of the account, in time. -/
lemma password_changed {cfg : Settings} {c : Call} {b : Account} (h : Rows accounts) (ha : a ∈ accounts)
    (hb : b ∈ (Mailbox.answer cfg accounts c).accounts) (hid : b.id = a.id)
    (hne : b.passwordHash ≠ a.passwordHash) :
    ∃ token password expires, c.request = .reset token password ∧
      a.resetToken = some (cfg.sha256 token) ∧ a.resetExpires = some expires ∧ c.now ≤ expires ∧
      b.passwordHash = c.hash ∧ Mailbox.answer cfg accounts c =
        ⟨.done, save accounts (a.withPassword c.hash c.now), []⟩ := by
  have hold : b ∉ accounts := fun hmem => hne (congrArg _ (h.eq_of_id hmem ha hid))
  have hinsert : ∀ new : Account, new.id = accounts.length → b ∉ accounts ++ [new] := by
    intro new hnew hmem
    rcases List.mem_append.mp hmem with hmem | hmem
    · exact hold hmem
    · rw [List.mem_singleton.mp hmem, hnew] at hid
      exact (h.below a ha).ne' hid
  have hsaved : ∀ user new : Account, b ∈ save accounts new → user ∈ accounts → new.id = user.id →
      b = new ∧ user = a := by
    intro user new hmem huser hnew
    rcases mem_save hmem with rfl | ⟨hmem, -⟩
    · exact ⟨rfl, h.eq_of_id huser ha (hnew.symm.trans hid)⟩
    · exact absurd hmem hold
  have hkept : ∀ user new : Account, b ∈ save accounts new → user ∈ accounts → new.id = user.id →
      new.passwordHash = user.passwordHash → False := by
    intro user new hmem huser hnew hsame
    obtain ⟨rfl, rfl⟩ := hsaved user new hmem huser hnew
    exact hne hsame
  have heffect := answer_effect cfg accounts c
  generalize Mailbox.answer cfg accounts c = r at heffect hb ⊢
  cases heffect with
  | idle => exact absurd hb hold
  | registered => exact absurd hb (hinsert _ rfl)
  | googled _ _ _ new _ hnew => exact absurd hb (hinsert new hnew)
  | fromTelegram new _ _ _ hnew => exact absurd hb (hinsert new hnew)
  | renewed token password user expires hreq hfits huser htoken hexpires hintime =>
    obtain ⟨rfl, rfl⟩ := hsaved user _ hb huser (Account.withPassword_id _ _)
    exact ⟨token, password, expires, hreq, htoken, hexpires, hintime, Account.withPassword_hash _ _, rfl⟩
  | resent _ user _ _ huser => exact (hkept user _ hb huser rfl rfl).elim
  | verified _ user _ _ _ huser => exact (hkept user _ hb huser rfl rfl).elim
  | forgotten _ user _ _ huser => exact (hkept user _ hb huser rfl rfl).elim
  | late _ _ user _ _ huser => exact (hkept user _ hb huser rfl rfl).elim
  | tied user _ _ huser => exact (hkept user _ hb huser rfl rfl).elim

end RowLemmas

/-! ### One more entry -/

section Snoc

variable {cfg : Settings} {log : List Entry} {x : Entry} {e : String}

lemma moves_eq_nil {purpose : Purpose} {ttl : Time} {used : Option String}
    (hletters : ∀ l ∈ x.letters, l.purpose ≠ purpose) (hused : x.answer = .done → used = none) :
    x.moves purpose ttl used = [] := by
  have hnone : (x.letters.filter fun l => l.purpose = purpose) = [] :=
    List.filter_eq_nil_iff.mpr fun l hl => by simpa using hletters l hl
  rw [Entry.moves, hnone, List.map_nil, List.nil_append]
  split
  · rename_i hdone
    rw [hused hdone]
    rfl
  · rfl

/-- A request names its own tokens only. -/
lemma within_moves {seen : Set String} {purpose : Purpose} {ttl : Time} {used : Option String}
    (hletters : ∀ l ∈ x.letters, l.token ∈ seen) (hused : ∀ t ∈ used, t ∈ seen) :
    Within seen (x.moves purpose ttl used) := by
  intro m hm t ht
  rcases List.mem_append.mp hm with hm | hm
  · obtain ⟨l, hl, rfl⟩ := List.mem_map.mp hm
    obtain rfl := Option.some.inj ht
    exact hletters l (List.mem_filter.mp hl).1
  · split at hm
    · obtain ⟨t', ht', rfl⟩ := Option.map_eq_some_iff.mp (Option.mem_toList.mp hm)
      obtain rfl := Option.some.inj ht
      exact hused _ ht'
    · cases hm

lemma moves_letter {purpose : Purpose} {ttl : Time} {token : String}
    (hletters : x.letters = [⟨purpose, e, token⟩]) :
    x.moves purpose ttl none = [.issue e token (x.call.now + ttl)] := by
  rw [Entry.moves, hletters]
  simp

lemma moves_used {purpose : Purpose} {ttl : Time} {token : String} (hletters : x.letters = [])
    (hdone : x.answer = .done) : x.moves purpose ttl (some token) = [.use token] := by
  rw [Entry.moves, hletters, if_pos hdone]
  rfl

/-- What is kept of the confirmation tokens, behind an entry that has none. -/
lemma confirmSlots_same {c : Call} {answer : Answer} {letters : List Letter}
    (hletters : ∀ l ∈ letters, l.purpose ≠ .confirm)
    (hused : answer = .done → c.request.verifies = none) (e : String) :
    confirmSlots cfg (log ++ [⟨c, answer, letters⟩]) e = confirmSlots cfg log e := by
  rw [confirmSlots, confirmMoves_snoc, moves_eq_nil hletters hused, List.append_nil, confirmSlots]

/-- What is kept of the reset tokens, behind an entry that has none. -/
lemma resetSlots_same {c : Call} {answer : Answer} {letters : List Letter}
    (hletters : ∀ l ∈ letters, l.purpose ≠ .reset)
    (hused : answer = .done → c.request.resets = none) (e : String) :
    resetSlots cfg (log ++ [⟨c, answer, letters⟩]) e = resetSlots cfg log e := by
  rw [resetSlots, resetMoves_snoc, moves_eq_nil hletters hused, List.append_nil, resetSlots]

/-- An account that the entry is not about still agrees. -/
lemma Account.Agrees.mono {a : Account} {clock clock' : Time} (h : a.Agrees cfg log clock)
    (hclock : clock ≤ clock')
    (hconfirm : ∀ e, a.email = some e → a.emailVerifiedAt = none →
      confirmSlots cfg (log ++ [x]) e = confirmSlots cfg log e)
    (hreset : ∀ e, a.email = some e → resetSlots cfg (log ++ [x]) e = resetSlots cfg log e)
    (hproof : ∀ e, a.email = some e →
      (ByGoogle (log ++ [x]) e ∨ Shown (log ++ [x]) e ↔ ByGoogle log e ∨ Shown log e)) :
    a.Agrees cfg (log ++ [x]) clock' where
  unsent := h.unsent
  settled := h.settled
  confirm e he hopen := by
    rw [hconfirm e he hopen]
    exact h.confirm e he hopen
  reset e he := by
    rw [hreset e he]
    refine (h.reset e he).imp_right fun hold => ⟨hold.1, fun d u hslot => ?_⟩
    exact (hold.2 d u hslot).trans_le hclock
  confirmed e he := (h.confirmed e he).trans (hproof e he).symm

/-- An entry that neither creates by Google's word nor accepts a token proves nothing. -/
lemma proof_same
    (hnew : ¬ (x.answer = .created ∧ ∃ sub username, x.call.request = .google sub e username))
    (hshow : x.answer = .done → x.call.request.verifies = none ∧ x.call.request.resets = none) :
    ByGoogle (log ++ [x]) e ∨ Shown (log ++ [x]) e ↔ ByGoogle log e ∨ Shown log e := by
  have hgoogle : ByGoogle (log ++ [x]) e ↔ ByGoogle log e := by
    rw [byGoogle_snoc]
    exact or_iff_left hnew
  have hshown : Shown (log ++ [x]) e ↔ Shown log e := by
    rw [shown_snoc]
    refine or_iff_left ?_
    rintro ⟨hdone, l, -, -, h⟩
    obtain ⟨hverifies, hresets⟩ := hshow hdone
    rcases h with ⟨-, h⟩ | ⟨-, h⟩
    · rw [hverifies] at h
      cases h
    · rw [hresets] at h
      cases h
  rw [hgoogle, hshown]

end Snoc

section Step

variable {cfg : Settings} {seen : Set String} {past : List String} {clock : Time} {s : State}

lemma Sound.letter_unique (h : Sound cfg seen past clock s) (hpast : past.Nodup) {l l' : Letter}
    (hl : l ∈ lettersOf s.log) (hl' : l' ∈ lettersOf s.log) (htoken : l.token = l'.token) : l = l' :=
  List.inj_on_of_nodup_map (hpast.sublist h.written) hl hl' htoken

lemma Sound.issued_confirm (h : Sound cfg seen past clock s) (hpast : past.Nodup) :
    (issued (confirmMoves s.log)).Nodup := by
  rw [confirmMoves, issued_flatMap .confirm verifyTtl fun x => x.call.request.verifies]
  exact (hpast.sublist h.written).sublist (List.filter_sublist.map _)

lemma Sound.issued_reset (h : Sound cfg seen past clock s) (hpast : past.Nodup) :
    (issued (resetMoves s.log)).Nodup := by
  rw [resetMoves, issued_flatMap .reset resetTtl fun x => x.call.request.resets]
  exact (hpast.sublist h.written).sublist (List.filter_sublist.map _)

/-- A stored confirmation token is the live one of the account's address. -/
lemma Sound.confirm_token (h : Sound cfg seen past clock s) (hdigest : Set.InjOn cfg.sha256 seen)
    {a : Account} (ha : a ∈ s.accounts) {token : String} (hin : token ∈ seen)
    (htoken : a.emailVerifyToken = some (cfg.sha256 token)) :
    ∃ e until_, a.email = some e ∧ a.emailVerifiedAt = none ∧ a.emailVerifyExpires = some until_ ∧
      Live (confirmMoves s.log) e token until_ := by
  have hagrees := h.agrees a ha
  have hopen : a.emailVerifiedAt = none := by
    by_contra hset
    rw [hagrees.settled hset] at htoken
    cases htoken
  cases hemail : a.email with
  | none =>
    rw [(hagrees.unsent hemail).1] at htoken
    cases htoken
  | some e =>
    obtain ⟨hslot, hexpires⟩ := hagrees.confirm e hemail hopen
    rw [htoken] at hslot
    obtain ⟨⟨d, u⟩, hd, hfst⟩ := Option.map_eq_some_iff.mp hslot.symm
    obtain ⟨token', htoken', hlive⟩ := (slots_eq_some_iff hdigest h.within.1).mp hd
    obtain rfl := hdigest (hlive.mem_seen h.within.1) hin (htoken'.trans hfst)
    rw [hd] at hexpires
    exact ⟨e, u, rfl, hopen, hexpires, hlive⟩

/-- A stored reset token is the live one of the account's address. -/
lemma Sound.reset_token (h : Sound cfg seen past clock s) (hdigest : Set.InjOn cfg.sha256 seen)
    {a : Account} (ha : a ∈ s.accounts) {token : String} (hin : token ∈ seen)
    (htoken : a.resetToken = some (cfg.sha256 token)) :
    ∃ e until_, a.email = some e ∧ a.resetExpires = some until_ ∧
      Live (resetMoves s.log) e token until_ := by
  have hagrees := h.agrees a ha
  cases hemail : a.email with
  | none =>
    rw [(hagrees.unsent hemail).2] at htoken
    cases htoken
  | some e =>
    rcases hagrees.reset e hemail with ⟨hslot, hexpires⟩ | ⟨hnone, -⟩
    · rw [htoken] at hslot
      obtain ⟨⟨d, u⟩, hd, hfst⟩ := Option.map_eq_some_iff.mp hslot.symm
      obtain ⟨token', htoken', hlive⟩ := (slots_eq_some_iff hdigest h.within.2).mp hd
      obtain rfl := hdigest (hlive.mem_seen h.within.2) hin (htoken'.trans hfst)
      rw [hd] at hexpires
      exact ⟨e, u, rfl, hexpires, hlive⟩
    · rw [hnone] at htoken
      cases htoken

/-- A request's letters and its shown tokens are of the run. -/
lemma Sound.within_next (h : Sound cfg seen past clock s) {c : Call} (hc : ∀ t ∈ c.tokens, t ∈ seen)
    {answer : Answer} {letters : List Letter} (hletters : ∀ l ∈ letters, l.token = c.token) :
    Within seen (confirmMoves (s.log ++ [⟨c, answer, letters⟩])) ∧
      Within seen (resetMoves (s.log ++ [⟨c, answer, letters⟩])) := by
  have hwritten : ∀ l ∈ letters, l.token ∈ seen := fun l hl => hc _ (by simp [Call.tokens, hletters l hl])
  rw [confirmMoves_snoc, resetMoves_snoc]
  exact ⟨h.within.1.append (within_moves hwritten fun t ht => hc t (by simp [Call.tokens, Option.mem_def.mp ht])),
    h.within.2.append (within_moves hwritten fun t ht => hc t (by simp [Call.tokens, Option.mem_def.mp ht]))⟩

/-- A request without effect. -/
lemma Sound.idle (h : Sound cfg seen past clock s) {c : Call} (hc : ∀ t ∈ c.tokens, t ∈ seen)
    (hclock : clock ≤ c.now) {answer : Answer}
    (hnew : answer ≠ .created)
    (hshow : answer = .done → c.request.verifies = none ∧ c.request.resets = none) :
    Sound cfg seen (past ++ [c.token]) c.now ⟨s.accounts, s.log ++ [⟨c, answer, []⟩]⟩ where
  rows := h.rows
  agrees a ha := by
    exact (h.agrees a ha).mono hclock
      (fun e _ _ => confirmSlots_same (List.forall_mem_nil _) (fun hd => (hshow hd).1) e)
      (fun e _ => resetSlots_same (List.forall_mem_nil _) (fun hd => (hshow hd).2) e)
      fun e _ => proof_same (fun h => hnew h.1) hshow
  written := by
    rw [lettersOf_snoc, List.append_nil]
    exact h.written.trans (List.sublist_append_left _ _)
  within := h.within_next hc (List.forall_mem_nil _)
  known := by
    rw [lettersOf_snoc, List.append_nil]
    exact h.known
  google e he := by
    rw [lettersOf_snoc, List.append_nil]
    rcases byGoogle_snoc.mp he with he | ⟨hcreated, -⟩
    · exact h.google e he
    · exact absurd hcreated hnew

/-- An address that no account has was never written to, nor shown. -/
lemma Sound.unknown (h : Sound cfg seen past clock s) (hdigest : Set.InjOn cfg.sha256 seen) {e : String}
    (he : ∀ a ∈ s.accounts, a.email ≠ some e) :
    ¬ (ByGoogle s.log e ∨ Shown s.log e) ∧ (∀ l ∈ lettersOf s.log, l.address ≠ e) ∧
      confirmSlots cfg s.log e = none ∧ resetSlots cfg s.log e = none := by
  have hletters : ∀ l ∈ lettersOf s.log, l.address ≠ e := by
    rintro l hl rfl
    obtain ⟨a, ha, hemail⟩ := h.known l hl
    exact he a ha hemail
  refine ⟨?_, hletters, ?_, ?_⟩
  · rintro (hgoogle | ⟨before, x, after, heq, -, l, hl, hlan, -⟩)
    · obtain ⟨a, ha, hemail⟩ := (h.google e hgoogle).1
      exact he a ha hemail
    · refine hletters l ?_ hlan
      rw [heq, lettersOf, List.flatMap_append]
      exact List.mem_append_left _ hl
  · rw [Option.eq_none_iff_forall_ne_some]
    rintro ⟨d, u⟩ hslot
    obtain ⟨token, -, hlive⟩ := (slots_eq_some_iff hdigest h.within.1).mp hslot
    exact hletters _ (letter_of_live hlive) rfl
  · rw [Option.eq_none_iff_forall_ne_some]
    rintro ⟨d, u⟩ hslot
    obtain ⟨token, -, hlive⟩ := (slots_eq_some_iff hdigest h.within.2).mp hslot
    exact hletters _ (letter_of_live hlive) rfl

/-- A new account. -/
lemma Sound.inserted (h : Sound cfg seen past clock s) (hdigest : Set.InjOn cfg.sha256 seen) {c : Call}
    (hc : ∀ t ∈ c.tokens, t ∈ seen) (hclock : clock ≤ c.now) {new : Account} {letters : List Letter}
    (hid : new.id = s.accounts.length) (hnew : ∀ e, new.email = some e → ∀ a ∈ s.accounts, a.email ≠ some e)
    (hletters : letters = [] ∨ ∃ e, new.email = some e ∧ letters = [⟨.confirm, e, c.token⟩])
    (hgoogle : ∀ e sub username, c.request = .google sub e username → new.email = some e ∧ letters = [])
    (hagrees : new.Agrees cfg (s.log ++ [⟨c, .created, letters⟩]) c.now) :
    Sound cfg seen (past ++ [c.token]) c.now ⟨s.accounts ++ [new], s.log ++ [⟨c, .created, letters⟩]⟩ := by
  have hpurpose : ∀ l ∈ letters, l.purpose = .confirm ∧ l.token = c.token ∧ new.email = some l.address := by
    intro l hl
    rcases hletters with rfl | ⟨e, he, rfl⟩
    · cases hl
    · rw [List.mem_singleton.mp hl]
      exact ⟨rfl, rfl, he⟩
  refine ⟨?_, fun a ha => ?_, ?_, h.within_next hc fun l hl => (hpurpose l hl).2.1, fun l hl => ?_,
    fun e he => ?_⟩
  · refine h.rows.append hid ?_
    cases hemail : new.email with
    | none => exact .inl rfl
    | some e => exact .inr fun a ha => hnew e hemail a ha
  · rcases List.mem_append.mp ha with hold | hnewest
    · refine (h.agrees a hold).mono hclock (fun e he _ => ?_) (fun e _ => ?_) fun e he =>
        proof_same ?_ fun hd => by cases hd
      · -- the new letter goes to another address
        rcases hletters with rfl | ⟨e', he', rfl⟩
        · rw [confirmSlots, confirmMoves_snoc, moves_eq_nil (List.forall_mem_nil _) (by simp),
            List.append_nil, confirmSlots]
        · have hne : e ≠ e' := fun heq => hnew e' he' a hold (heq ▸ he)
          have hused : (⟨c, .created, [⟨.confirm, e', c.token⟩]⟩ : Entry).moves .confirm verifyTtl
              c.request.verifies = [.issue e' c.token (c.now + verifyTtl)] := by
            rw [Entry.moves, if_neg (by simp)]
            simp
          rw [confirmSlots, confirmMoves_snoc, hused, slots_issue_other _ _ hne, confirmSlots]
      · rw [resetSlots, resetMoves_snoc, moves_eq_nil (fun l hl => by simp [(hpurpose l hl).1]) (by simp),
          List.append_nil, resetSlots]
      · rintro ⟨-, sub, username, hreq⟩
        exact hnew e (hgoogle e sub username hreq).1 a hold he
    · rw [List.mem_singleton.mp hnewest]
      exact hagrees
  · rw [lettersOf_snoc, List.map_append]
    refine h.written.append ?_
    rcases hletters with rfl | ⟨e, -, rfl⟩ <;> simp
  · rw [lettersOf_snoc] at hl
    rcases List.mem_append.mp hl with hl | hl
    · obtain ⟨a, ha, hemail⟩ := h.known l hl
      exact ⟨a, List.mem_append_left _ ha, hemail⟩
    · exact ⟨new, by simp, (hpurpose l hl).2.2⟩
  · rcases byGoogle_snoc.mp he with he | ⟨-, sub, username, hreq⟩
    · obtain ⟨⟨a, ha, hemail⟩, hall⟩ := h.google e he
      refine ⟨⟨a, List.mem_append_left _ ha, hemail⟩, fun l hl hconfirm => ?_⟩
      rw [lettersOf_snoc] at hl
      rcases List.mem_append.mp hl with hl | hl
      · exact hall l hl hconfirm
      · rintro rfl
        exact hnew _ (hpurpose l hl).2.2 a ha hemail
    · obtain ⟨hemail, rfl⟩ := hgoogle e sub username hreq
      refine ⟨⟨new, by simp, hemail⟩, fun l hl _ => ?_⟩
      rw [lettersOf_snoc, List.append_nil] at hl
      exact (h.unknown hdigest (hnew e hemail)).2.1 l hl

/-- An account's row is written, with a letter to its address or none. -/
lemma Sound.saved (h : Sound cfg seen past clock s) {c : Call} (hc : ∀ t ∈ c.tokens, t ∈ seen)
    {answer : Answer}
    (hanswer : answer ≠ .created) {user new : Account} {letters : List Letter}
    (huser : user ∈ s.accounts) (hid : new.id = user.id) (hemail : new.email = user.email)
    (hletters : letters = [] ∨ ∃ p e, user.email = some e ∧ letters = [⟨p, e, c.token⟩] ∧
      (p = .confirm → user.emailVerifiedAt = none))
    (hothers : ∀ a ∈ s.accounts, a.id ≠ user.id →
      a.Agrees cfg (s.log ++ [⟨c, answer, letters⟩]) c.now)
    (hagrees : new.Agrees cfg (s.log ++ [⟨c, answer, letters⟩]) c.now) :
    Sound cfg seen (past ++ [c.token]) c.now ⟨save s.accounts new, s.log ++ [⟨c, answer, letters⟩]⟩ := by
  have hkeep : ∀ e, (∃ a ∈ s.accounts, a.email = some e) → ∃ a ∈ save s.accounts new, a.email = some e := by
    rintro e ⟨a, ha, he⟩
    by_cases hsame : a.id = new.id
    · have heq := h.rows.eq_of_id ha huser (hsame.trans hid)
      exact ⟨new, mem_save_self huser hid, by rw [hemail, ← heq, he]⟩
    · exact ⟨a, mem_save_of_ne ha hsame, he⟩
  refine ⟨h.rows.save huser hid hemail, fun a ha => ?_, ?_, h.within_next hc fun l hl => ?_,
    fun l hl => ?_, fun e he => ?_⟩
  · rcases mem_save ha with rfl | ⟨ha, hne⟩
    · exact hagrees
    · exact hothers a ha (hid ▸ hne)
  · rw [lettersOf_snoc, List.map_append]
    refine h.written.append ?_
    rcases hletters with rfl | ⟨p, e, -, rfl, -⟩ <;> simp
  · rcases hletters with rfl | ⟨p, e, -, rfl, -⟩
    · cases hl
    · rw [List.mem_singleton.mp hl]
  · rw [lettersOf_snoc] at hl
    refine hkeep _ ?_
    rcases List.mem_append.mp hl with hl | hl
    · exact h.known l hl
    · rcases hletters with rfl | ⟨p, e, he, rfl, -⟩
      · cases hl
      · rw [List.mem_singleton.mp hl]
        exact ⟨user, huser, he⟩
  · rcases byGoogle_snoc.mp he with hold | ⟨hcreated, -⟩
    · obtain ⟨hex, hall⟩ := h.google e hold
      refine ⟨hkeep e hex, fun l hl hconfirm => ?_⟩
      rw [lettersOf_snoc] at hl
      rcases List.mem_append.mp hl with hl | hl
      · exact hall l hl hconfirm
      · rcases hletters with rfl | ⟨p, e', he', rfl, hopen⟩
        · cases hl
        · -- an account made by Google's word is confirmed already
          rw [List.mem_singleton.mp hl] at hconfirm ⊢
          rintro rfl
          exact ((h.agrees user huser).confirmed _ he').mpr (.inl hold) (hopen hconfirm)
    · exact absurd hcreated hanswer

/-- Another account has another address. -/
lemma Sound.other_address (h : Sound cfg seen past clock s) {user a : Account} (huser : user ∈ s.accounts)
    (ha : a ∈ s.accounts) (hid : a.id ≠ user.id) {e e' : String} (he : user.email = some e)
    (he' : a.email = some e') : e' ≠ e := by
  rintro rfl
  exact hid (congrArg Account.id (h.rows.emails a ha user huser (he'.trans he.symm) (by simp [he'])))

/-- A token that is accepted shows the address of its letter, and no other. -/
lemma Sound.proof_accepted (h : Sound cfg seen past clock s) (hpast : past.Nodup) {c : Call} {l : Letter}
    (hl : l ∈ lettersOf s.log)
    (hreq : (l.purpose = .confirm ∧ c.request.verifies = some l.token ∧ c.request.resets = none) ∨
      (l.purpose = .reset ∧ c.request.resets = some l.token ∧ c.request.verifies = none)) {e : String} :
    ByGoogle (s.log ++ [⟨c, .done, []⟩]) e ∨ Shown (s.log ++ [⟨c, .done, []⟩]) e ↔
      (ByGoogle s.log e ∨ Shown s.log e) ∨ e = l.address := by
  have hshows : (⟨c, .done, []⟩ : Entry).Shows s.log e ↔ e = l.address := by
    constructor
    · rintro ⟨-, l', hl', rfl, htoken⟩
      have hsame : l'.token = l.token := by
        rcases hreq with ⟨-, hv, hr⟩ | ⟨-, hr, hv⟩ <;> rcases htoken with ⟨-, h⟩ | ⟨-, h⟩ <;>
          simp_all
      rw [h.letter_unique hpast hl' hl hsame]
    · rintro rfl
      exact ⟨rfl, l, hl, rfl, hreq.imp (fun h => ⟨h.1, h.2.1⟩) fun h => ⟨h.1, h.2.1⟩⟩
  rw [byGoogle_snoc, shown_snoc, hshows]
  simp [or_assoc]

/-- A registration. -/
lemma Sound.registered (h : Sound cfg seen past clock s) (hdigest : Set.InjOn cfg.sha256 seen) {c : Call}
    (hc : ∀ t ∈ c.tokens, t ∈ seen) (hclock : clock ≤ c.now) {username email : String}
    (hreq : c.request = .register username email)
    (hclash : clashes s.accounts (newAccount cfg s.accounts c username email) = false) :
    Sound cfg seen (past ++ [c.token]) c.now
      ⟨s.accounts ++ [newAccount cfg s.accounts c username email],
        s.log ++ [⟨c, .created, [⟨.confirm, email, c.token⟩]⟩]⟩ := by
  have hfree : ∀ a ∈ s.accounts, a.email ≠ some email :=
    email_ne_of_not_clashes hclash (by simp [newAccount])
  obtain ⟨hproof, -, -, hslot⟩ := h.unknown hdigest hfree
  have hverifies : c.request.verifies = none := by
    rw [hreq]
    rfl
  refine h.inserted hdigest hc hclock rfl (fun e he => ?_) (.inr ⟨email, rfl, rfl⟩)
    (fun e sub username' hgoogle => ?_) ⟨?_, ?_, fun e he _ => ?_, fun e he => ?_, fun e he => ?_⟩
  · obtain rfl := Option.some.inj he
    exact hfree
  · rw [hreq] at hgoogle
    cases hgoogle
  · intro hnone
    cases hnone
  · exact fun hset => absurd rfl hset
  · obtain rfl := Option.some.inj he
    rw [confirmSlots, confirmMoves_snoc, hverifies, moves_letter rfl, slots_issue_self]
    exact ⟨rfl, rfl⟩
  · obtain rfl := Option.some.inj he
    rw [resetSlots_same (by simp) (by simp), hslot]
    exact .inl ⟨rfl, rfl⟩
  · obtain rfl := Option.some.inj he
    rw [proof_same (by simp [hreq]) (by simp)]
    exact iff_of_false (fun hset => hset rfl) hproof

/-- An account made by Google's word. -/
lemma Sound.googled (h : Sound cfg seen past clock s) (hdigest : Set.InjOn cfg.sha256 seen) {c : Call}
    (hc : ∀ t ∈ c.tokens, t ∈ seen) (hclock : clock ≤ c.now) {sub email : String}
    {username : Option String} {new : Account} (hreq : c.request = .google sub email username)
    (hid : new.id = s.accounts.length) (hemail : new.email = some email)
    (hverified : new.emailVerifiedAt ≠ none)
    (htokens : new.emailVerifyToken = none ∧ new.resetToken = none)
    (hclash : clashes s.accounts new = false) :
    Sound cfg seen (past ++ [c.token]) c.now
      ⟨s.accounts ++ [new], s.log ++ [⟨c, .created, []⟩]⟩ := by
  have hfree : ∀ a ∈ s.accounts, a.email ≠ some email := by
    rw [← hemail]
    exact email_ne_of_not_clashes hclash (by simp [hemail])
  obtain ⟨hproof, -, -, hslot⟩ := h.unknown hdigest hfree
  have hhas : ∀ e, new.email = some e → e = email := fun e he =>
    Option.some.inj (he.symm.trans hemail)
  refine h.inserted hdigest hc hclock hid (fun e he => ?_) (.inl rfl) (fun e sub' username' hgoogle => ?_)
    ⟨fun hnone => ?_, fun _ => htokens.1, fun e _ hopen => absurd hopen hverified, fun e he => ?_,
      fun e he => ?_⟩
  · rw [hhas e he]
    exact hfree
  · rw [hreq] at hgoogle
    injection hgoogle with _ heq
    exact ⟨by rw [← heq, hemail], rfl⟩
  · rw [hemail] at hnone
    cases hnone
  · rw [hhas e he, resetSlots_same (by simp) (by simp), hslot]
    refine .inr ⟨htokens.2, fun d u hsome => ?_⟩
    cases hsome
  · rw [hhas e he]
    exact iff_of_true hverified (.inl (byGoogle_snoc.mpr (.inr ⟨rfl, sub, username, hreq⟩)))

/-- An account made from Telegram. -/
lemma Sound.fromTelegram (h : Sound cfg seen past clock s) (hdigest : Set.InjOn cfg.sha256 seen) {c : Call}
    (hc : ∀ t ∈ c.tokens, t ∈ seen) (hclock : clock ≤ c.now) {new : Account} {chat : ℤ}
    {username : String} (hreq : c.request = .telegram chat username)
    (hid : new.id = s.accounts.length) (hemail : new.email = none)
    (htokens : new.emailVerifyToken = none ∧ new.resetToken = none) :
    Sound cfg seen (past ++ [c.token]) c.now
      ⟨s.accounts ++ [new], s.log ++ [⟨c, .created, []⟩]⟩ := by
  have hno : ∀ e, new.email ≠ some e := fun e he => by
    rw [hemail] at he
    cases he
  refine h.inserted hdigest hc hclock hid (fun e he => absurd he (hno e)) (.inl rfl)
    (fun e sub username' hgoogle => ?_) ⟨fun _ => htokens, fun _ => htokens.1,
      fun e he => absurd he (hno e), fun e he => absurd he (hno e), fun e he => absurd he (hno e)⟩
  rw [hreq] at hgoogle
  cases hgoogle

/-- A new confirmation letter. -/
lemma Sound.resent (h : Sound cfg seen past clock s) {c : Call}
    (hc : ∀ t ∈ c.tokens, t ∈ seen) (hclock : clock ≤ c.now) {username : String} {user : Account}
    {email : String} (hreq : c.request = .resend username) (huser : user ∈ s.accounts)
    (hemail : user.email = some email) (hopen : user.emailVerifiedAt = none) :
    Sound cfg seen (past ++ [c.token]) c.now
      ⟨save s.accounts { user with
          emailVerifyToken := some (cfg.sha256 c.token), emailVerifyExpires := some (c.now + verifyTtl) },
        s.log ++ [⟨c, .done, [⟨.confirm, email, c.token⟩]⟩]⟩ := by
  have hnone : c.request.verifies = none ∧ c.request.resets = none := by
    rw [hreq]
    exact ⟨rfl, rfl⟩
  have hproof : ∀ (letters : List Letter) e, ByGoogle (s.log ++ [⟨c, .done, letters⟩]) e ∨
      Shown (s.log ++ [⟨c, .done, letters⟩]) e ↔ ByGoogle s.log e ∨ Shown s.log e :=
    fun letters e => proof_same (by simp) fun _ => hnone
  have hagrees := h.agrees user huser
  refine h.saved hc (by simp) huser rfl rfl (.inr ⟨_, email, hemail, rfl, fun _ => hopen⟩)
    (fun a ha hid => ?_) ⟨?_, fun hset => absurd hopen hset, fun e he _ => ?_, fun e he => ?_,
      fun e he => ?_⟩
  · refine (h.agrees a ha).mono hclock (fun e he _ => ?_)
      (fun e _ => resetSlots_same (by simp) (fun _ => hnone.2) e) fun e _ => hproof _ e
    rw [confirmSlots, confirmMoves_snoc, hnone.1, moves_letter rfl,
      slots_issue_other _ _ (h.other_address huser ha hid hemail he), confirmSlots]
  · intro hno
    exact absurd (hemail.symm.trans hno) (by simp)
  · obtain rfl : email = e := Option.some.inj (hemail.symm.trans he)
    rw [confirmSlots, confirmMoves_snoc, hnone.1, moves_letter rfl, slots_issue_self]
    exact ⟨rfl, rfl⟩
  · rw [resetSlots_same (by simp) fun _ => hnone.2]
    exact (hagrees.reset e he).imp_right fun hold =>
      ⟨hold.1, fun d u hslot => (hold.2 d u hslot).trans_le hclock⟩
  · rw [hproof]
    exact hagrees.confirmed e he

/-- A confirmation that is accepted. -/
lemma Sound.verified (h : Sound cfg seen past clock s) (hdigest : Set.InjOn cfg.sha256 seen) {c : Call}
    (hc : ∀ t ∈ c.tokens, t ∈ seen) (hclock : clock ≤ c.now) (hpast : past.Nodup)
    {token : String} {user : Account} (hreq : c.request = .verify token) (huser : user ∈ s.accounts)
    (htoken : user.emailVerifyToken = some (cfg.sha256 token)) :
    Sound cfg seen (past ++ [c.token]) c.now
      ⟨save s.accounts (user.markVerified c.now), s.log ++ [⟨c, .done, []⟩]⟩ := by
  have hin : token ∈ seen := hc token (by simp [Call.tokens, hreq, Request.verifies])
  obtain ⟨e, until_, hemail, -, -, hlive⟩ := h.confirm_token hdigest huser hin htoken
  have hresets : c.request.resets = none := by
    rw [hreq]
    rfl
  have hproof : ∀ e', _ ↔ _ ∨ e' = e := fun e' => h.proof_accepted hpast
    (letter_of_live hlive) (.inl ⟨rfl, by rw [hreq]; rfl, hresets⟩)
  refine h.saved hc (by simp) huser rfl rfl (.inl rfl) (fun a ha hid => ?_)
    ⟨?_, fun _ => rfl, fun e' _ hopen => ?_, fun e' he' => ?_, fun e' he' => ?_⟩
  · have hother : ∀ e', a.email = some e' → e' ≠ e := fun e' => h.other_address huser ha hid hemail
    refine (h.agrees a ha).mono hclock (fun e' he' _ => ?_)
      (fun e' _ => resetSlots_same (by simp) (fun _ => hresets) e') fun e' he' => ?_
    · rw [confirmSlots, confirmMoves_snoc, hreq, Request.verifies, moves_used rfl rfl,
        slots_use_other hdigest h.within.1 (h.issued_confirm hpast) hlive (hother e' he'), confirmSlots]
    · rw [hproof]
      exact or_iff_left (hother e' he')
  · intro hnone
    exact absurd (hemail.symm.trans hnone) (by simp)
  · cases hopen
  · rw [resetSlots_same (by simp) fun _ => hresets]
    exact ((h.agrees user huser).reset e' he').imp_right fun hold =>
      ⟨hold.1, fun d u hslot => (hold.2 d u hslot).trans_le hclock⟩
  · rw [hproof]
    exact iff_of_true (by simp [Account.markVerified]) (.inr (Option.some.inj (he'.symm.trans hemail)))

/-- A reset letter. -/
lemma Sound.forgotten (h : Sound cfg seen past clock s) {c : Call}
    (hc : ∀ t ∈ c.tokens, t ∈ seen) (hclock : clock ≤ c.now) {email : String} {user : Account}
    {address : String} (hreq : c.request = .forgot email) (huser : user ∈ s.accounts)
    (haddress : user.email = some address) :
    Sound cfg seen (past ++ [c.token]) c.now
      ⟨save s.accounts { user with
          resetToken := some (cfg.sha256 c.token), resetExpires := some (c.now + resetTtl) },
        s.log ++ [⟨c, .done, [⟨.reset, address, c.token⟩]⟩]⟩ := by
  have hnone : c.request.verifies = none ∧ c.request.resets = none := by
    rw [hreq]
    exact ⟨rfl, rfl⟩
  have hproof : ∀ (letters : List Letter) e, ByGoogle (s.log ++ [⟨c, .done, letters⟩]) e ∨
      Shown (s.log ++ [⟨c, .done, letters⟩]) e ↔ ByGoogle s.log e ∨ Shown s.log e :=
    fun letters e => proof_same (by simp) fun _ => hnone
  have hagrees := h.agrees user huser
  refine h.saved hc (by simp) huser rfl rfl (.inr ⟨_, address, haddress, rfl, fun h => by cases h⟩)
    (fun a ha hid => ?_) ⟨?_, hagrees.settled, fun e he hopen => ?_, fun e he => ?_, fun e he => ?_⟩
  · refine (h.agrees a ha).mono hclock (fun e _ _ => confirmSlots_same (by simp) (fun _ => hnone.1) e)
      (fun e he => ?_) fun e _ => hproof _ e
    rw [resetSlots, resetMoves_snoc, hnone.2, moves_letter rfl,
      slots_issue_other _ _ (h.other_address huser ha hid haddress he), resetSlots]
  · intro hno
    exact absurd (haddress.symm.trans hno) (by simp)
  · rw [confirmSlots_same (by simp) fun _ => hnone.1]
    exact hagrees.confirm e he hopen
  · obtain rfl : address = e := Option.some.inj (haddress.symm.trans he)
    rw [resetSlots, resetMoves_snoc, hnone.2, moves_letter rfl, slots_issue_self]
    exact .inl ⟨rfl, rfl⟩
  · rw [hproof]
    exact hagrees.confirmed e he

/-- A reset that comes too late. -/
lemma Sound.late (h : Sound cfg seen past clock s) (hdigest : Set.InjOn cfg.sha256 seen) {c : Call}
    (hc : ∀ t ∈ c.tokens, t ∈ seen) (hclock : clock ≤ c.now) {token password : String}
    {user : Account} {expires : Time} (hreq : c.request = .reset token password)
    (huser : user ∈ s.accounts) (htoken : user.resetToken = some (cfg.sha256 token))
    (hexpires : user.resetExpires = some expires) (hlate : expires < c.now) (detail : String) :
    Sound cfg seen (past ++ [c.token]) c.now
      ⟨save s.accounts { user with resetToken := none, resetExpires := none },
        s.log ++ [⟨c, .refused 400 detail, []⟩]⟩ := by
  have hin : token ∈ seen := hc token (by simp [Call.tokens, hreq, Request.resets])
  obtain ⟨e, until_, hemail, hexpires', hlive⟩ := h.reset_token hdigest huser hin htoken
  have hagrees := h.agrees user huser
  have hproof : ∀ e, ByGoogle (s.log ++ [⟨c, .refused 400 detail, []⟩]) e ∨
      Shown (s.log ++ [⟨c, .refused 400 detail, []⟩]) e ↔ ByGoogle s.log e ∨ Shown s.log e :=
    fun e => proof_same (by simp) (by simp)
  refine h.saved hc (by simp) huser rfl rfl (.inl rfl) (fun a ha _ => ?_)
    ⟨fun hnone => ⟨(hagrees.unsent hnone).1, rfl⟩, hagrees.settled, fun e he hopen => ?_,
      fun e' he => ?_, fun e he => ?_⟩
  · exact (h.agrees a ha).mono hclock (fun e _ _ => confirmSlots_same (by simp) (by simp) e)
      (fun e _ => resetSlots_same (by simp) (by simp) e) fun e _ => hproof e
  · rw [confirmSlots_same (by simp) (by simp)]
    exact hagrees.confirm e he hopen
  · obtain rfl : e = e' := Option.some.inj (hemail.symm.trans he)
    refine .inr ⟨rfl, fun d u hslot => ?_⟩
    rw [resetSlots_same (by simp) (by simp), resetSlots,
      (slots_eq_some_iff hdigest h.within.2).mpr ⟨token, rfl, hlive⟩] at hslot
    obtain ⟨-, rfl⟩ := Prod.mk.inj (Option.some.inj hslot)
    rw [Option.some.inj (hexpires'.symm.trans hexpires)]
    exact hlate
  · rw [hproof]
    exact hagrees.confirmed e he

/-- A reset that is accepted. -/
lemma Sound.renewed (h : Sound cfg seen past clock s) (hdigest : Set.InjOn cfg.sha256 seen) {c : Call}
    (hc : ∀ t ∈ c.tokens, t ∈ seen) (hclock : clock ≤ c.now) (hpast : past.Nodup)
    {token password : String} {user : Account} (hreq : c.request = .reset token password)
    (huser : user ∈ s.accounts) (htoken : user.resetToken = some (cfg.sha256 token)) :
    Sound cfg seen (past ++ [c.token]) c.now
      ⟨save s.accounts (user.withPassword c.hash c.now), s.log ++ [⟨c, .done, []⟩]⟩ := by
  have hin : token ∈ seen := hc token (by simp [Call.tokens, hreq, Request.resets])
  obtain ⟨e, until_, hemail, -, hlive⟩ := h.reset_token hdigest huser hin htoken
  have hagrees := h.agrees user huser
  have hverifies : c.request.verifies = none := by
    rw [hreq]
    rfl
  have hproof : ∀ e', _ ↔ _ ∨ e' = e := fun e' => h.proof_accepted hpast
    (letter_of_live hlive) (.inr ⟨rfl, by rw [hreq]; rfl, hverifies⟩)
  have hemail' : (user.withPassword c.hash c.now).email = some e :=
    (Account.withPassword_email _ _).trans hemail
  refine h.saved hc (by simp) huser (Account.withPassword_id _ _) (Account.withPassword_email _ _) (.inl rfl)
    (fun a ha hid => ?_) ⟨?_, fun _ => ?_, fun e' _ hopen => ?_, fun e' he' => ?_, fun e' he' => ?_⟩
  · have hother : ∀ e', a.email = some e' → e' ≠ e := fun e' => h.other_address huser ha hid hemail
    refine (h.agrees a ha).mono hclock
      (fun e' _ _ => confirmSlots_same (by simp) (fun _ => hverifies) e') (fun e' he' => ?_)
      fun e' he' => ?_
    · rw [resetSlots, resetMoves_snoc, hreq, Request.resets, moves_used rfl rfl,
        slots_use_other hdigest h.within.2 (h.issued_reset hpast) hlive (hother e' he'), resetSlots]
    · rw [hproof]
      exact or_iff_left (hother e' he')
  · intro hnone
    exact absurd (hemail'.symm.trans hnone) (by simp)
  · exact Account.withPassword_verifyToken c.hash c.now hagrees.settled
  · exact absurd hopen (Account.withPassword_verified _ _)
  · obtain rfl : e = e' := Option.some.inj (hemail'.symm.trans he')
    rw [resetSlots, resetMoves_snoc, hreq, Request.resets, moves_used rfl rfl,
      slots_use_self hdigest h.within.2 hlive]
    exact .inl (Account.withPassword_reset c.hash c.now)
  · rw [hproof]
    exact iff_of_true (Account.withPassword_verified _ _)
      (.inr (Option.some.inj (he'.symm.trans hemail')))

/-- A sign-in that ties the account to Google. -/
lemma Sound.tied (h : Sound cfg seen past clock s) {c : Call}
    (hc : ∀ t ∈ c.tokens, t ∈ seen) (hclock : clock ≤ c.now) {user : Account}
    (sub username : String) (huser : user ∈ s.accounts) :
    Sound cfg seen (past ++ [c.token]) c.now
      ⟨save s.accounts { user with googleSub := some sub }, s.log ++ [⟨c, .signedIn username, []⟩]⟩ := by
  have hagrees := h.agrees user huser
  have hproof : ∀ e, ByGoogle (s.log ++ [⟨c, .signedIn username, []⟩]) e ∨
      Shown (s.log ++ [⟨c, .signedIn username, []⟩]) e ↔ ByGoogle s.log e ∨ Shown s.log e :=
    fun e => proof_same (by simp) (by simp)
  have hkept : ∀ a ∈ s.accounts, a.Agrees cfg (s.log ++ [⟨c, .signedIn username, []⟩]) c.now :=
    fun a ha => (h.agrees a ha).mono hclock (fun e _ _ => confirmSlots_same (by simp) (by simp) e)
      (fun e _ => resetSlots_same (by simp) (by simp) e) fun e _ => hproof e
  have huser' := hkept user huser
  exact h.saved hc (by simp) huser rfl rfl (.inl rfl) (fun a ha _ => hkept a ha)
    ⟨huser'.unsent, huser'.settled, huser'.confirm, huser'.reset, huser'.confirmed⟩

/-- **What every request keeps.** -/
lemma Sound.next (h : Sound cfg seen past clock s) (hdigest : Set.InjOn cfg.sha256 seen) {c : Call}
    (hc : ∀ t ∈ c.tokens, t ∈ seen) (hclock : clock ≤ c.now) (hpast : past.Nodup) :
    Sound cfg seen (past ++ [c.token]) c.now (s.next cfg c) := by
  have heffect := answer_effect cfg s.accounts c
  rw [show s.next cfg c = ⟨(Mailbox.answer cfg s.accounts c).accounts, s.log ++ [⟨c,
    (Mailbox.answer cfg s.accounts c).answer, (Mailbox.answer cfg s.accounts c).letters⟩]⟩ from rfl]
  generalize Mailbox.answer cfg s.accounts c = r at heffect ⊢
  cases heffect with
  | idle answer hnew hshow => exact h.idle hc hclock hnew hshow
  | registered username email hreq hclash => exact h.registered hdigest hc hclock hreq hclash
  | googled sub email username new hreq hid hemail hverified htokens hclash =>
    exact h.googled hdigest hc hclock hreq hid hemail hverified htokens hclash
  | fromTelegram new chat username hreq hid hemail htokens =>
    exact h.fromTelegram hdigest hc hclock hreq hid hemail htokens
  | resent username user email hreq huser hemail hopen => exact h.resent hc hclock hreq huser hemail hopen
  | verified token user expires hreq hshort huser htoken hexpires hintime =>
    exact h.verified hdigest hc hclock hpast hreq huser htoken
  | forgotten email user address hreq huser haddress => exact h.forgotten hc hclock hreq huser haddress
  | late token password user expires hreq huser htoken hexpires hlate detail =>
    exact h.late hdigest hc hclock hreq huser htoken hexpires hlate detail
  | renewed token password user expires hreq hfits huser htoken hexpires hintime =>
    exact h.renewed hdigest hc hclock hpast hreq huser htoken
  | tied user sub username huser => exact h.tied hc hclock sub username huser

lemma Sound.later (h : Sound cfg seen past clock s) {clock' : Time} (hclock : clock ≤ clock') :
    Sound cfg seen past clock' s where
  rows := h.rows
  agrees a ha :=
    let hagrees := h.agrees a ha
    ⟨hagrees.unsent, hagrees.settled, hagrees.confirm, fun e he => (hagrees.reset e he).imp_right
      fun hold => ⟨hold.1, fun d u hslot => (hold.2 d u hslot).trans_le hclock⟩, hagrees.confirmed⟩
  written := h.written
  within := h.within
  known := h.known
  google := h.google

end Step

/-! ### Every run -/

section Runs

variable {cfg : Settings} {calls : List Call} {c : Call}

lemma run_snoc : run cfg (calls ++ [c]) = (run cfg calls).next cfg c := by
  simp [run]

lemma Regular.of_append {more : List Call} (h : Regular cfg (calls ++ more)) : Regular cfg calls where
  fresh := by
    have hfresh := h.fresh
    rw [List.map_append] at hfresh
    exact hfresh.of_append_left
  clock := by
    have hclock := h.clock
    rw [List.map_append] at hclock
    exact hclock.sublist (List.sublist_append_left _ _)
  digests := h.digests.mono fun t ht => by
    rw [Set.mem_ofPred_eq, List.flatMap_append]
    exact List.mem_append_left _ ht

lemma Regular.le_now (h : Regular cfg (calls ++ [c])) : ∀ d ∈ calls, d.now ≤ c.now := by
  intro d hd
  have hclock := h.clock
  rw [List.map_append, List.pairwise_append] at hclock
  exact hclock.2.2 _ (List.mem_map_of_mem hd) _ (by simp)

/-- **Every run is sound.** -/
lemma run_sound {seen : Set String} (hdigest : Set.InjOn cfg.sha256 seen)
    (hseen : ∀ d ∈ calls, ∀ t ∈ d.tokens, t ∈ seen) (h : Regular cfg calls) {clock : Time}
    (hclock : ∀ d ∈ calls, d.now ≤ clock) :
    Sound cfg seen (calls.map Call.token) clock (run cfg calls) := by
  induction calls using List.reverseRecOn generalizing clock with
  | nil =>
    exact ⟨⟨List.nodup_nil, fun a ha => absurd ha List.not_mem_nil, fun a ha => absurd ha List.not_mem_nil⟩,
      fun a ha => absurd ha List.not_mem_nil, List.nil_sublist _,
      ⟨fun m hm => absurd hm List.not_mem_nil, fun m hm => absurd hm List.not_mem_nil⟩,
      fun l hl => absurd hl List.not_mem_nil, fun e ⟨x, hx, _⟩ => absurd hx List.not_mem_nil⟩
  | append_singleton calls c ih =>
    have hbefore := ih (fun d hd => hseen d (by simp [hd])) h.of_append h.le_now
    have hnext := hbefore.next hdigest (hseen c (by simp)) le_rfl h.of_append.fresh
    rw [run_snoc, List.map_append, List.map_singleton]
    exact hnext.later (hclock c (by simp))

/-- The run before a request. -/
lemma Regular.sound (h : Regular cfg (calls ++ [c])) :
    Sound cfg {t | t ∈ (calls ++ [c]).flatMap Call.tokens} (calls.map Call.token) c.now (run cfg calls) :=
  run_sound h.digests (fun d hd t ht => List.mem_flatMap.mpr ⟨d, by simp [hd], ht⟩) h.of_append h.le_now

lemma Regular.mem_seen (_ : Regular cfg (calls ++ [c])) {token : String} (h : token ∈ c.tokens) :
    token ∈ {t | t ∈ (calls ++ [c]).flatMap Call.tokens} :=
  List.mem_flatMap.mpr ⟨c, by simp, h⟩

/-- **A confirmation link is accepted exactly** if it is the last one to its address, in
time, and the address is not confirmed yet. -/
lemma verify_accepted_iff (h : Regular cfg (calls ++ [c])) (hfree : c.limited 0 = false)
    {token : String} (hreq : c.request = .verify token) :
    (Mailbox.answer cfg (run cfg calls).accounts c).answer = .done ↔ token.length ≤ maxLength ∧
      ∃ e until_, Live (confirmMoves (run cfg calls).log) e token until_ ∧ c.now ≤ until_ ∧
        ¬ (ByGoogle (run cfg calls).log e ∨ Shown (run cfg calls).log e) := by
  have hsound := h.sound
  have hin : token ∈ {t | t ∈ (calls ++ [c]).flatMap Call.tokens} :=
    h.mem_seen (by simp [Call.tokens, hreq, Request.verifies])
  constructor
  · intro hdone
    obtain ⟨hshort, user, huser, htoken, expires, hexpires, hintime⟩ := verify_done hreq hdone
    obtain ⟨e, until_, hemail, hopen, huntil, hlive⟩ :=
      hsound.confirm_token h.digests huser hin htoken
    obtain rfl := Option.some.inj (hexpires.symm.trans huntil)
    exact ⟨hshort, e, _, hlive, hintime, fun hproof =>
      ((hsound.agrees user huser).confirmed e hemail).mpr hproof hopen⟩
  · rintro ⟨hshort, e, until_, hlive, hintime, hproof⟩
    obtain ⟨user, huser, hemail⟩ := hsound.known _ (letter_of_live hlive)
    have hopen : user.emailVerifiedAt = none := by
      by_contra hset
      exact hproof (((hsound.agrees user huser).confirmed e hemail).mp hset)
    have hslot := (slots_eq_some_iff h.digests hsound.within.1).mpr ⟨token, rfl, hlive⟩
    obtain ⟨htoken, hexpires⟩ := (hsound.agrees user huser).confirm e hemail hopen
    rw [confirmSlots, hslot] at htoken hexpires
    have hfind : oneOrNone ((run cfg calls).accounts.filter fun a =>
        a.emailVerifyToken = some (cfg.sha256 token)) = some (some user) := by
      refine hsound.rows.find huser (decide_eq_true htoken) fun a ha htoken' => ?_
      obtain ⟨e', until', hemail', -, -, hlive'⟩ :=
        hsound.confirm_token h.digests ha hin (of_decide_eq_true htoken')
      obtain ⟨rfl, -⟩ := hlive.unique (hsound.issued_confirm h.of_append.fresh) hlive'
      exact hsound.rows.emails a ha user huser (hemail'.trans hemail.symm) (by simp [hemail'])
    have hexpires : user.emailVerifyExpires = some until_ := hexpires
    simp only [Mailbox.answer, hreq, verifyEmail, if_neg (not_lt.mpr hshort), hfree,
      Bool.false_eq_true, if_false, hfind, hexpires, if_neg (not_lt.mpr hintime)]

/-- A reset link that is accepted is the last one to its address, in time. -/
lemma reset_live (h : Regular cfg (calls ++ [c])) {token password : String}
    (hreq : c.request = .reset token password)
    (hdone : (Mailbox.answer cfg (run cfg calls).accounts c).answer = .done) : Fits token password ∧
      ∃ e until_, Live (resetMoves (run cfg calls).log) e token until_ ∧ c.now ≤ until_ := by
  have hin : token ∈ {t | t ∈ (calls ++ [c]).flatMap Call.tokens} :=
    h.mem_seen (by simp [Call.tokens, hreq, Request.resets])
  obtain ⟨hfits, user, huser, htoken, expires, hexpires, hintime⟩ := reset_done hreq hdone
  obtain ⟨e, until_, hemail, huntil, hlive⟩ := h.sound.reset_token h.digests huser hin htoken
  obtain rfl := Option.some.inj (hexpires.symm.trans huntil)
  exact ⟨hfits, e, _, hlive, hintime⟩

/-- **A reset link is accepted exactly** if it is the last one to its address, in time,
and was not used. -/
lemma reset_accepted_iff (h : Regular cfg (calls ++ [c])) (hfree : c.limited 0 = false)
    {token password : String} (hreq : c.request = .reset token password) :
    (Mailbox.answer cfg (run cfg calls).accounts c).answer = .done ↔ Fits token password ∧
      ∃ e until_, Live (resetMoves (run cfg calls).log) e token until_ ∧ c.now ≤ until_ := by
  have hsound := h.sound
  have hin : token ∈ {t | t ∈ (calls ++ [c]).flatMap Call.tokens} :=
    h.mem_seen (by simp [Call.tokens, hreq, Request.resets])
  refine ⟨reset_live h hreq, ?_⟩
  rintro ⟨hfits, e, until_, hlive, hintime⟩
  obtain ⟨user, huser, hemail⟩ := hsound.known _ (letter_of_live hlive)
  have hslot := (slots_eq_some_iff h.digests hsound.within.2).mpr ⟨token, rfl, hlive⟩
  obtain ⟨htoken, hexpires⟩ | ⟨-, hlate⟩ := (hsound.agrees user huser).reset e hemail
  · rw [resetSlots, hslot] at htoken hexpires
    have hfind : oneOrNone ((run cfg calls).accounts.filter fun a =>
        a.resetToken = some (cfg.sha256 token)) = some (some user) := by
      refine hsound.rows.find huser (decide_eq_true htoken) fun a ha htoken' => ?_
      obtain ⟨e', until', hemail', -, hlive'⟩ :=
        hsound.reset_token h.digests ha hin (of_decide_eq_true htoken')
      obtain ⟨rfl, -⟩ := hlive.unique (hsound.issued_reset h.of_append.fresh) hlive'
      exact hsound.rows.emails a ha user huser (hemail'.trans hemail.symm) (by simp [hemail'])
    have hexpires : user.resetExpires = some until_ := hexpires
    have hshort : ¬ (maxLength < token.length ∨ maxLength < password.length) :=
      not_or.mpr ⟨not_lt.mpr hfits.token, not_lt.mpr hfits.short⟩
    simp only [Mailbox.answer, hreq, resetPassword, if_neg hshort, hfree, Bool.false_eq_true, if_false,
      if_neg (not_lt.mpr hfits.long), hfind, hexpires, if_neg (not_lt.mpr hintime)]
  · exact absurd hintime (not_le.mpr (hlate _ _ hslot))

/-- **An address is confirmed exactly if it was shown to be read**, by a token from a
letter to it, or Google says so. -/
theorem confirmed_iff_shown (h : Regular cfg calls) {a : Account} (ha : a ∈ (run cfg calls).accounts)
    {e : String} (he : a.email = some e) :
    a.emailVerifiedAt ≠ none ↔ ByGoogle (run cfg calls).log e ∨ Shown (run cfg calls).log e := by
  obtain ⟨clock, hclock⟩ := (calls.map Call.now).toFinset.exists_le
  have hsound := run_sound h.digests (fun d hd t ht => List.mem_flatMap.mpr ⟨d, hd, ht⟩) h
    fun d hd => hclock d.now (List.mem_toFinset.mpr (List.mem_map_of_mem hd))
  exact (hsound.agrees a ha).confirmed e he

/-- SHA-256 of some tokens. -/
def digestOf (token : String) : String :=
  if token = "k1" then "6ab9f1eb8f7d3388f4f9d586f66e99fd54080df2c446f0e58668b09c08a16dd0"
  else if token = "k2" then "015f7e6bc5aeaf483724089e9252cc13b50951a6b69412522765cff4d780306e"
  else if token = "k3" then "2f5052c9fd15b19a18c584d01363568198613f0c34e84409ef7938709a159ec2"
  else "94091dd64a21ffe94214bc6d17deeb43873a5cf2f0a71b4b5caa9a5c81b6967d"

def mailSettings : Settings := { lower := id, sha256 := digestOf }

/-- A registration, its confirmation, a forgotten password, -/
def annasCalls : List Call :=
  [⟨.register "anna" "anna@post.de", 0, "k1", "h1", fun _ => false⟩,
   ⟨.verify "k1", 1, "k2", "", fun _ => false⟩,
   ⟨.forgot "anna@post.de", 2, "k3", "", fun _ => false⟩]

/-- and a new one. -/
def annasReset : Call := ⟨.reset "k3" "new password", 3, "k4", "h2", fun _ => false⟩

def anna : Account where
  id := 0
  username := "anna"
  email := some "anna@post.de"
  passwordHash := "h1"
  emailVerifiedAt := some 1
  resetToken := some (digestOf "k3")
  resetExpires := some (2 + resetTtl)

lemma annasCalls_regular : Regular mailSettings (annasCalls ++ [annasReset]) where
  fresh := by decide
  clock := by decide
  digests := by
    have hall : ∀ t ∈ (annasCalls ++ [annasReset]).flatMap Call.tokens,
        ∀ t' ∈ (annasCalls ++ [annasReset]).flatMap Call.tokens,
          mailSettings.sha256 t = mailSettings.sha256 t' → t = t' := by decide
    exact fun t ht t' ht' => hall t ht t' ht'

theorem confirmed_iff_shown_anna : ByGoogle (run mailSettings annasCalls).log "anna@post.de" ∨
    Shown (run mailSettings annasCalls).log "anna@post.de" :=
  (confirmed_iff_shown annasCalls_regular.of_append (a := anna) (by decide) rfl).mp (by decide)

lemma log_append (cfg : Settings) (calls more : List Call) :
    ∃ tail, (run cfg (calls ++ more)).log = (run cfg calls).log ++ tail := by
  induction more using List.reverseRecOn with
  | nil => exact ⟨[], by simp⟩
  | append_singleton more d ih =>
    obtain ⟨tail, htail⟩ := ih
    rw [← List.append_assoc, run_snoc, State.next, htail, List.append_assoc]
    exact ⟨_, rfl⟩

/-- **Links**: which confirmation and reset links the next request is accepted with. -/
theorem link_accepted_iff (h : Regular cfg (calls ++ [c])) (hfree : c.limited 0 = false) :
    (∀ token, c.request = .verify token →
      ((Mailbox.answer cfg (run cfg calls).accounts c).answer = .done ↔ token.length ≤ maxLength ∧
        ∃ e until_, Live (confirmMoves (run cfg calls).log) e token until_ ∧ c.now ≤ until_ ∧
          ¬ (ByGoogle (run cfg calls).log e ∨ Shown (run cfg calls).log e))) ∧
    ∀ token password, c.request = .reset token password →
      ((Mailbox.answer cfg (run cfg calls).accounts c).answer = .done ↔ Fits token password ∧
        ∃ e until_, Live (resetMoves (run cfg calls).log) e token until_ ∧ c.now ≤ until_) :=
  ⟨fun _ => verify_accepted_iff h hfree, fun _ _ => reset_accepted_iff h hfree⟩

theorem link_accepted_iff_anna :
    ∃ e until_, Live (resetMoves (run mailSettings annasCalls).log) e "k3" until_ ∧ 3 ≤ until_ :=
  (((link_accepted_iff annasCalls_regular rfl).2 "k3" "new password" rfl).mp (by decide)).2

/-- A reset link that was accepted is not accepted again. -/
lemma reset_once {mid : List Call} {c' : Call} {token password password' : String}
    (hreq : c.request = .reset token password) {accounts : List Account}
    (hdone : Mailbox.answer cfg (run cfg calls).accounts c = ⟨.done, accounts, []⟩)
    (h : Regular cfg (calls ++ c :: mid ++ [c'])) (hreq' : c'.request = .reset token password') :
    (Mailbox.answer cfg (run cfg (calls ++ c :: mid)).accounts c').answer ≠ .done := by
  intro hdone'
  obtain ⟨-, e, until_, hlive, -⟩ := reset_live h hreq' hdone'
  have hsplit : calls ++ c :: mid = (calls ++ [c]) ++ mid := by simp
  have hfirst : Regular cfg (calls ++ [c]) := by
    rw [hsplit, List.append_assoc] at h
    exact h.of_append
  obtain ⟨-, e', until', hfirstLive, -⟩ := reset_live hfirst hreq (by rw [hdone])
  obtain ⟨tail, htail⟩ := log_append cfg (calls ++ [c]) mid
  have hmoves : resetMoves (run cfg (calls ++ c :: mid)).log =
      resetMoves (run cfg calls).log ++ .use token :: resetMoves tail := by
    rw [hsplit, htail, run_snoc, State.next, hdone]
    simp [resetMoves, Entry.moves, hreq, Request.resets]
  have hnodup := h.sound.issued_reset h.of_append.fresh
  rw [hmoves] at hlive hnodup
  exact Live.not_of_used hnodup hfirstLive.mem_issued hlive

/-- **A password is set anew by the last letter only**: whatever request changes it shows
the live token of a letter to the account's address, and that token works never again. -/
theorem password_by_letter (h : Regular cfg (calls ++ [c])) {a b : Account}
    (ha : a ∈ (run cfg calls).accounts) (hb : b ∈ (run cfg (calls ++ [c])).accounts)
    (hid : b.id = a.id) (hne : b.passwordHash ≠ a.passwordHash) :
    ∃ token password e until_, c.request = .reset token password ∧ a.email = some e ∧
      Live (resetMoves (run cfg calls).log) e token until_ ∧ c.now ≤ until_ ∧ b.passwordHash = c.hash ∧
      ∀ mid c' password', c'.request = .reset token password' →
        Regular cfg (calls ++ c :: mid ++ [c']) →
        (Mailbox.answer cfg (run cfg (calls ++ c :: mid)).accounts c').answer ≠ .done := by
  have hsound := h.sound
  rw [run_snoc] at hb
  obtain ⟨token, password, expires, hreq, htoken, hexpires, hintime, hhash, hanswer⟩ :=
    password_changed hsound.rows ha hb hid hne
  have hin : token ∈ {t | t ∈ (calls ++ [c]).flatMap Call.tokens} :=
    h.mem_seen (by simp [Call.tokens, hreq, Request.resets])
  obtain ⟨e, until_, hemail, huntil, hlive⟩ := hsound.reset_token h.digests ha hin htoken
  obtain rfl := Option.some.inj (hexpires.symm.trans huntil)
  exact ⟨token, password, e, _, hreq, hemail, hlive, hintime, hhash,
    fun mid c' password' hreq' hregular => reset_once hreq hanswer hregular hreq'⟩

theorem password_by_letter_anna : ∃ token password e until_,
    annasReset.request = .reset token password ∧ anna.email = some e ∧
    Live (resetMoves (run mailSettings annasCalls).log) e token until_ ∧ annasReset.now ≤ until_ ∧
    (anna.withPassword "h2" 3).passwordHash = annasReset.hash ∧
    ∀ mid c' password', c'.request = .reset token password' →
      Regular mailSettings (annasCalls ++ annasReset :: mid ++ [c']) →
      (Mailbox.answer mailSettings (run mailSettings (annasCalls ++ annasReset :: mid)).accounts
        c').answer ≠ .done :=
  password_by_letter annasCalls_regular (by decide) (by decide) rfl (by decide)

end Runs

end VpnPortal.Mailbox
