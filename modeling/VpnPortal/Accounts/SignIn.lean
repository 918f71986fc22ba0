/-
Refresh tokens follow their reference life.

The life of a token is read off the history alone: it begins when it is opened,
every successful use is a sign of life, and it ends with a sign-out, with a reset
of the password or with an eviction. The store keeps the expiry, the last use and
the digest instead, removes what has expired in two places, and evicts by the
order of last use. Over every run the two agree: a token is accepted exactly if
its account is enabled and no gap between two signs of life reaches ninety days.

* `Lives`: a token's life in a history, with its signs of life;
* `Follows`: the store follows the lives, and `Follows.act`: every action keeps that;
* `tokens_follow_life`: over every run a use succeeds exactly if the token lives for an
  enabled account and no gap reaches ninety days, no account has more than ten
  sessions, an eviction takes the least recently used one, and a reset ends them all.
-/
import VpnPortal.Services.AppSessions

namespace VpnPortal.AppSessions

open Tables

/-! ### The life of a token -/

section Life

variable (digest : String → String)

/-- The sign-in evicted the token's session. -/
def Entry.Evicts (e : Entry) (token : String) : Prop :=
  ∃ evicted, e.answer = .opened evicted ∧ ∃ r ∈ evicted, r.tokenHash = digest token

/-- The entry ends the life of a token of this account. -/
def Entry.Ends (e : Entry) (token : String) (user : ℕ) : Prop :=
  e.action = .close token ∨ e.action = .reset user ∨ e.Evicts digest token

/-- The time of a successful use of the token. -/
def Entry.useOf (token : String) (e : Entry) : Option Time :=
  match e.action, e.answer with
  | .use token', .used (some _) => if token' = token then some e.time else none
  | _, _ => none

/-- **The life of a token**: it was opened for the account and nothing ended it
since; `times` are its opening and its successful uses. -/
def Lives (entries : List Entry) (token : String) (user : ℕ) (times : List Time) : Prop :=
  ∃ before e after, entries = before ++ e :: after ∧ e.action = .login user token ∧
    (∀ x ∈ after, ¬ x.Ends digest token user) ∧ times = e.time :: after.filterMap (Entry.useOf token)

/-- The gaps between signs of life are shorter than ninety days. -/
def Short (times : List Time) : Prop := times.IsChain fun a b => b - a < days appSessionDays

/-- The accounts that are enabled after a history. -/
def enabledAfter (active : ℕ → Bool) (entries : List Entry) : ℕ → Bool :=
  entries.foldl (fun f e => match e.action with
    | .setActive user b => fun u => if u = user then b else f u
    | _ => f) active

/-- The token that a sign-in opens. -/
def Action.opened : Action → Option String
  | .login _ token => some token
  | _ => none

/-- The tokens that a history opens. -/
def tokensOf (entries : List Entry) : List String := entries.filterMap fun e => e.action.opened

variable {digest} {entries : List Entry} {e : Entry} {token : String} {user : ℕ} {times : List Time}

lemma Lives.mem_tokensOf (h : Lives digest entries token user times) : token ∈ tokensOf entries := by
  obtain ⟨before, e, after, rfl, hopen, -, -⟩ := h
  exact List.mem_filterMap.mpr ⟨e, by simp, by simp [hopen, Action.opened]⟩

/-- **A life goes on** with an entry that does not end it, or begins with it. -/
lemma lives_snoc : Lives digest (entries ++ [e]) token user times ↔
    (e.action = .login user token ∧ times = [e.time]) ∨
    ∃ past, Lives digest entries token user past ∧ ¬ e.Ends digest token user ∧
      times = past ++ (e.useOf token).toList := by
  constructor
  · rintro ⟨before, o, after, heq, hopen, hends, rfl⟩
    rcases List.eq_nil_or_concat after with rfl | ⟨after, last, rfl⟩
    · -- the token is opened by the last entry
      obtain ⟨-, ho⟩ := List.append_inj' heq rfl
      obtain rfl : e = o := by simpa using ho
      exact .inl ⟨hopen, rfl⟩
    · have hsplit : entries ++ [e] = (before ++ o :: after) ++ [last] := by simpa using heq
      obtain ⟨rfl, hlast⟩ := List.append_inj' hsplit rfl
      obtain rfl : e = last := by simpa using hlast
      refine .inr ⟨_, ⟨before, o, after, rfl, hopen, fun x hx => hends x (by simp [hx]), rfl⟩,
        hends e (by simp), ?_⟩
      cases h : e.useOf token <;> simp [h]
  · rintro (⟨hopen, rfl⟩ | ⟨past, ⟨before, o, after, rfl, hopen, hends, rfl⟩, hend, rfl⟩)
    · exact ⟨entries, e, [], rfl, hopen, by simp, rfl⟩
    · refine ⟨before, o, after ++ [e], by simp, hopen, ?_, ?_⟩
      · intro x hx
        rcases List.mem_append.mp hx with hx | hx
        · exact hends x hx
        · obtain rfl := List.mem_singleton.mp hx
          exact hend
      · cases h : e.useOf token <;> simp [h]

/-- A token that is opened once has one life. -/
lemma Lives.unique (hnodup : (tokensOf entries).Nodup) (h : Lives digest entries token user times)
    {user' : ℕ} {times' : List Time} (h' : Lives digest entries token user' times') :
    user = user' ∧ times = times' := by
  induction entries using List.reverseRecOn generalizing times times' with
  | nil =>
    obtain ⟨before, e, after, heq, -⟩ := h
    simp at heq
  | append_singleton entries e ih =>
    have hsplit : tokensOf (entries ++ [e]) = tokensOf entries ++ (e.action.opened).toList := by
      cases ho : e.action.opened <;> simp [tokensOf, ho]
    rw [hsplit] at hnodup
    have hnew : ∀ {u : ℕ} {l : List Time}, e.action = .login u token →
        ¬ Lives digest entries token user l ∧ ¬ Lives digest entries token user' l := by
      intro u l hopen
      rw [hopen] at hnodup
      have hnot : token ∉ tokensOf entries := by
        intro hmem
        exact List.disjoint_of_nodup_append hnodup hmem (by simp [Action.opened])
      exact ⟨fun h => hnot h.mem_tokensOf, fun h => hnot h.mem_tokensOf⟩
    rcases lives_snoc.mp h with ⟨hopen, rfl⟩ | ⟨past, hpast, -, rfl⟩ <;>
      rcases lives_snoc.mp h' with ⟨hopen', rfl⟩ | ⟨past', hpast', -, rfl⟩
    · rw [hopen] at hopen'
      injection hopen' with hu
      exact ⟨hu, rfl⟩
    · exact absurd hpast' (hnew hopen).2
    · exact absurd hpast (hnew hopen').1
    · obtain ⟨rfl, rfl⟩ := ih hnodup.of_append_left hpast hpast'
      exact ⟨rfl, rfl⟩

lemma tokensOf_append (entries entries' : List Entry) :
    tokensOf (entries ++ entries') = tokensOf entries ++ tokensOf entries' := by
  rw [tokensOf, List.filterMap_append]
  rfl

/-- A token lives for the account that opened it. -/
lemma Lives.user_eq (hnodup : (tokensOf entries).Nodup) (h : Lives digest entries token user times)
    (he : e ∈ entries) {user' : ℕ} (hopen : e.action = .login user' token) : user = user' := by
  obtain ⟨before, o, after, rfl, hopen', -, -⟩ := h
  rw [tokensOf_append] at hnodup
  have hafter : token ∉ tokensOf before ∧ token ∉ tokensOf after := by
    have ho : tokensOf (o :: after) = token :: tokensOf after := by
      simp [tokensOf, hopen', Action.opened]
    rw [ho] at hnodup
    refine ⟨fun hmem => List.disjoint_of_nodup_append hnodup hmem List.mem_cons_self, ?_⟩
    exact (List.nodup_cons.mp hnodup.of_append_right).1
  have hmem : ∀ {l : List Entry}, e ∈ l → token ∈ tokensOf l := fun hl =>
    List.mem_filterMap.mpr ⟨e, hl, by simp [hopen, Action.opened]⟩
  rcases List.mem_append.mp he with he | he
  · exact absurd (hmem he) hafter.1
  · rcases List.mem_cons.mp he with rfl | he
    · rw [hopen] at hopen'
      injection hopen' with huser
      exact huser.symm
    · exact absurd (hmem he) hafter.2

/-- A life that a later part of the history does not begin was there before it. -/
lemma Lives.before {later : List Entry} (h : Lives digest (entries ++ later) token user times)
    (hnot : token ∉ tokensOf later) : ∃ past, Lives digest entries token user past := by
  induction later using List.reverseRecOn generalizing times with
  | nil => exact ⟨times, by simpa using h⟩
  | append_singleton later e ih =>
    rw [tokensOf_append, List.mem_append, not_or] at hnot
    rw [← List.append_assoc] at h
    rcases lives_snoc.mp h with ⟨hopen, -⟩ | ⟨past, hpast, -⟩
    · exact absurd (by simp [tokensOf, hopen, Action.opened]) hnot.2
    · exact ih hpast hnot.1

/-- **No life outlasts a reset** of its account's password. -/
lemma not_lives_reset {before between after : List Entry} {o x : Entry}
    (hnodup : (tokensOf (before ++ o :: between ++ x :: after)).Nodup)
    (hopen : o.action = .login user token) (hreset : x.action = .reset user) {user' : ℕ} :
    ¬ Lives digest (before ++ o :: between ++ x :: after) token user' times := by
  intro h
  obtain rfl : user' = user := h.user_eq hnodup (by simp) hopen
  have hsplit : before ++ o :: between ++ x :: after = (before ++ o :: between ++ [x]) ++ after := by
    simp
  rw [hsplit] at h hnodup
  rw [tokensOf_append] at hnodup
  have hnot : token ∉ tokensOf after := by
    intro hmem
    refine List.disjoint_of_nodup_append hnodup ?_ hmem
    exact List.mem_filterMap.mpr ⟨o, by simp, by simp [hopen, Action.opened]⟩
  obtain ⟨past, hpast⟩ := h.before hnot
  rcases lives_snoc.mp hpast with ⟨hopen', -⟩ | ⟨-, -, hends, -⟩
  · simp [hreset] at hopen'
  · exact hends (.inr (.inl hreset))

end Life

/-! ### The sessions of an account -/

namespace Store

variable {s : Store} {user : ℕ} {now : Time} {r : AppSession}

lemma mem_delete {p : AppSession → Bool} :
    r ∈ (s.delete p).sessions.rows ↔ r ∈ s.sessions.rows ∧ p r = false := by
  simp [delete]

/-- The sessions of an account. -/
def of (s : Store) (user : ℕ) : List AppSession := s.sessions.rows.filter fun r => r.userId = user

lemma byLastUse_perm : (s.byLastUse user).Perm (s.of user) := List.perm_insertionSort _ _

lemma byLastUse_ordered (s : Store) (user : ℕ) :
    (s.byLastUse user).Pairwise fun a b => b.lastUsedAt ≤ a.lastUsedAt := by
  have htotal : Std.Total fun a b : AppSession => b.lastUsedAt ≤ a.lastUsedAt :=
    ⟨fun a b => le_total _ _⟩
  have htrans : IsTrans AppSession fun a b => b.lastUsedAt ≤ a.lastUsedAt :=
    ⟨fun a b c hab hbc => hbc.trans hab⟩
  exact List.pairwise_insertionSort _ _

lemma mem_stale (h : r ∈ s.stale user) : r ∈ s.sessions.rows ∧ r.userId = user := by
  have hmem : r ∈ s.of user := byLastUse_perm.mem_iff.mp (List.mem_of_mem_drop h)
  simpa [of] using List.mem_filter.mp hmem

lemma length_stale (s : Store) (user : ℕ) : (s.stale user).length = (s.of user).length - 9 := by
  rw [stale, List.length_drop, byLastUse_perm.length_eq]
  rfl

/-- What is evicted was used before everything that stays. -/
lemma le_of_mem_stale (h : r ∈ s.stale user) {r' : AppSession} (hr' : r' ∈ s.of user)
    (hnot : r' ∉ s.stale user) : r.lastUsedAt ≤ r'.lastUsedAt := by
  have hordered := byLastUse_ordered s user
  rw [← List.take_append_drop (maxSessionsPerUser - 1) (s.byLastUse user)] at hordered
  have hmem : r' ∈ (s.byLastUse user).take (maxSessionsPerUser - 1) := by
    have hall := byLastUse_perm.mem_iff.mpr hr'
    rw [← List.take_append_drop (maxSessionsPerUser - 1) (s.byLastUse user)] at hall
    exact (List.mem_append.mp hall).resolve_right hnot
  exact (List.pairwise_append.mp hordered).2.2 r' hmem r h

/-- The store that a sign-in leaves for its new session. -/
def cleared (s : Store) (user : ℕ) (now : Time) : Store :=
  s.delete fun r => r.userId = user ∧ r.expiresAt < now

/-- The store after a sign-in made room. -/
def room (s : Store) (user : ℕ) : Store :=
  if s.stale user ≠ [] then s.delete fun r => r.id ∈ (s.stale user).map AppSession.id else s

lemma rows_room : (s.room user).sessions.rows = s.sessions.rows.filter fun r =>
    !decide (r.id ∈ (s.stale user).map AppSession.id) := by
  unfold room
  split_ifs with h
  · rfl
  · rw [not_not] at h
    simp [h]

lemma active_room : (s.room user).active = s.active := by
  unfold room
  split <;> rfl

lemma active_add {hash : String} : (s.add user hash now).active = s.active := by
  unfold add
  split <;> rfl

/-- Room for one session. -/
lemma length_of_room (s : Store) (user : ℕ) : ((s.room user).of user).length ≤ 9 := by
  have hof : (s.room user).of user =
      (s.of user).filter fun r => !decide (r.id ∈ (s.stale user).map AppSession.id) := by
    rw [of, rows_room, of, List.filter_filter, List.filter_filter]
    exact List.filter_congr fun r _ => Bool.and_comm _ _
  have hdrop : ((s.byLastUse user).drop (maxSessionsPerUser - 1)).filter
      (fun r => !decide (r.id ∈ (s.stale user).map AppSession.id)) = [] := by
    refine List.filter_eq_nil_iff.mpr fun r hr => ?_
    have hid : r.id ∈ (s.stale user).map AppSession.id := List.mem_map_of_mem hr
    simpa using hid
  rw [hof, ← (byLastUse_perm.filter _).length_eq,
    ← List.take_append_drop (maxSessionsPerUser - 1) (s.byLastUse user), List.filter_append,
    List.length_append, hdrop, List.length_nil, Nat.add_zero]
  exact (List.length_filter_le _ _).trans (List.length_take_le _ _)

lemma rows_add {hash : String} (h : ∀ r ∈ s.sessions.rows, r.tokenHash ≠ hash) :
    (s.add user hash now).sessions.rows = s.sessions.rows ++
      [⟨s.sessions.next, user, hash, now, now, now + days appSessionDays⟩] := by
  have hnot : hash ∉ s.sessions.rows.map AppSession.tokenHash := by
    rintro hmem
    obtain ⟨r, hr, hhash⟩ := List.mem_map.mp hmem
    exact h r hr hhash
  rw [add, dif_neg hnot]
  rfl

end Store

/-! ### The store follows the lives -/

section Follows

variable {digest : String → String} {active : ℕ → Bool}

/-- The store follows the lives in a history up to `now`. -/
structure Follows (digest : String → String) (active : ℕ → Bool) (entries : List Entry) (s : Store)
    (now : Time) : Prop where
  lives : ∀ r ∈ s.sessions.rows, ∃ token times, r.tokenHash = digest token ∧
    Lives digest entries token r.userId times ∧ times.getLast? = some r.lastUsedAt
  kept : ∀ token user times, Lives digest entries token user times → Short times ∧
    ∃ last, times.getLast? = some last ∧
      ((∃ r ∈ s.sessions.rows, r.tokenHash = digest token ∧ r.userId = user ∧ r.lastUsedAt = last) ∨
        last + days appSessionDays ≤ now)
  expiry : ∀ r ∈ s.sessions.rows, r.expiresAt = r.lastUsedAt + days appSessionDays
  past : ∀ r ∈ s.sessions.rows, r.lastUsedAt ≤ now
  apart : ∀ r ∈ s.sessions.rows, ∀ r' ∈ s.sessions.rows, r.lastUsedAt = r'.lastUsedAt → r = r'
  few : ∀ user, (s.of user).length ≤ maxSessionsPerUser
  active_eq : s.active = enabledAfter active entries

lemma follows_fresh (digest : String → String) (active : ℕ → Bool) (now : Time) :
    Follows digest active [] (fresh active) now where
  lives := by simp [fresh]
  kept := by
    rintro token user times ⟨before, e, after, heq, -⟩
    simp at heq
  expiry := by simp [fresh]
  past := by simp [fresh]
  apart := by simp [fresh]
  few := by simp [fresh, Store.of]
  active_eq := rfl

variable {entries : List Entry} {s s' : Store} {e : Entry} {now : Time}

/-- Rows of two kinds: `keep` of the old ones, and new ones. -/
lemma mem_rows {keep : AppSession → Bool} {new : List AppSession}
    (hrows : s'.sessions.rows = s.sessions.rows.filter keep ++ new) {r : AppSession} :
    r ∈ s'.sessions.rows ↔ (r ∈ s.sessions.rows ∧ keep r = true) ∨ r ∈ new := by
  rw [hrows, List.mem_append, List.mem_filter]

/-- **An entry that is no successful use**: rows are dropped that it ends or that
have expired, and a sign-in has a row of its own. -/
lemma Follows.moves (h : Follows digest active entries s now) (hnow : now < e.time)
    (hquiet : ∀ token, e.useOf token = none) {keep : AppSession → Bool} {new : List AppSession}
    (hrows : s'.sessions.rows = s.sessions.rows.filter keep ++ new)
    (hkeep : ∀ r ∈ s.sessions.rows, keep r = true → ∀ token, r.tokenHash = digest token →
      ¬ e.Ends digest token r.userId)
    (hgone : ∀ r ∈ s.sessions.rows, keep r = false →
      (∀ token, r.tokenHash = digest token → e.Ends digest token r.userId) ∨
        r.lastUsedAt + days appSessionDays ≤ e.time)
    (hnew : ∀ r ∈ new, r.lastUsedAt = e.time ∧ r.expiresAt = e.time + days appSessionDays ∧
      ∃ token, e.action = .login r.userId token ∧ r.tokenHash = digest token)
    (hone : ∀ r ∈ new, ∀ r' ∈ new, r = r')
    (hopen : ∀ user token, e.action = .login user token → ∃ r ∈ new, r.tokenHash = digest token ∧
      r.userId = user)
    (hfew : ∀ user, (s'.of user).length ≤ maxSessionsPerUser)
    (hactive : s'.active = enabledAfter active (entries ++ [e])) :
    Follows digest active (entries ++ [e]) s' e.time where
  lives r hr := by
    rcases (mem_rows hrows).mp hr with ⟨hr, hkept⟩ | hr
    · obtain ⟨token, times, hhash, hlives, hlast⟩ := h.lives r hr
      refine ⟨token, times, hhash, lives_snoc.mpr (.inr ⟨times, hlives, ?_, ?_⟩), hlast⟩
      · exact hkeep r hr hkept token hhash
      · simp [hquiet]
    · obtain ⟨hlast, -, token, haction, hhash⟩ := hnew r hr
      exact ⟨token, [e.time], hhash, lives_snoc.mpr (.inl ⟨haction, rfl⟩), by simp [hlast]⟩
  kept token user times hlives := by
    rcases lives_snoc.mp hlives with ⟨haction, rfl⟩ | ⟨past, hpast, hends, rfl⟩
    · obtain ⟨r, hr, hhash, huser⟩ := hopen user token haction
      exact ⟨by simp [Short], e.time, rfl, .inl ⟨r, (mem_rows hrows).mpr (.inr hr), hhash, huser,
        (hnew r hr).1⟩⟩
    · rw [hquiet, Option.toList_none, List.append_nil]
      obtain ⟨hshort, last, hlast, hrow⟩ := h.kept token user past hpast
      refine ⟨hshort, last, hlast, ?_⟩
      rcases hrow with ⟨r, hr, hhash, rfl, rfl⟩ | hdead
      · cases hk : keep r with
        | true => exact .inl ⟨r, (mem_rows hrows).mpr (.inl ⟨hr, hk⟩), hhash, rfl, rfl⟩
        | false =>
          rcases hgone r hr hk with hend | hdead
          · exact absurd (hend token hhash) hends
          · exact .inr hdead
      · exact .inr (hdead.trans hnow.le)
  expiry r hr := by
    rcases (mem_rows hrows).mp hr with ⟨hr, -⟩ | hr
    · exact h.expiry r hr
    · rw [(hnew r hr).1]
      exact (hnew r hr).2.1
  past r hr := by
    rcases (mem_rows hrows).mp hr with ⟨hr, -⟩ | hr
    · exact (h.past r hr).trans hnow.le
    · exact (hnew r hr).1.le
  apart r hr r' hr' heq := by
    rcases (mem_rows hrows).mp hr with ⟨hr, -⟩ | hr <;>
      rcases (mem_rows hrows).mp hr' with ⟨hr', -⟩ | hr'
    · exact h.apart r hr r' hr' heq
    · exact absurd ((h.past r hr).trans_lt hnow) (by simp [heq, (hnew r' hr').1])
    · exact absurd ((h.past r' hr').trans_lt hnow) (by simp [← heq, (hnew r hr).1])
    · exact hone r hr r' hr'
  few := hfew
  active_eq := hactive

/-- Dropping rows leaves an account with no more of them. -/
lemma Follows.few_delete (h : Follows digest active entries s now) {p : AppSession → Bool} (user : ℕ) :
    ((s.delete p).of user).length ≤ maxSessionsPerUser :=
  ((List.filter_sublist.filter _).length_le).trans (h.few user)

/-- **An entry that only drops rows.** -/
lemma Follows.drops (h : Follows digest active entries s now) (hnow : now < e.time)
    (hquiet : ∀ token, e.useOf token = none) {p : AppSession → Bool}
    (hkeep : ∀ r ∈ s.sessions.rows, p r = false → ∀ token, r.tokenHash = digest token →
      ¬ e.Ends digest token r.userId)
    (hgone : ∀ r ∈ s.sessions.rows, p r = true →
      (∀ token, r.tokenHash = digest token → e.Ends digest token r.userId) ∨
        r.lastUsedAt + days appSessionDays ≤ e.time)
    (hopen : e.action.opened = none)
    (hactive : s.active = enabledAfter active (entries ++ [e])) :
    Follows digest active (entries ++ [e]) (s.delete p) e.time := by
  have hrows : (s.delete p).sessions.rows = (s.sessions.rows.filter fun r => !p r) ++ [] := by
    simp [Store.delete]
  refine h.moves hnow hquiet hrows ?_ ?_ (by simp) (by simp) ?_ h.few_delete hactive
  · intro r hr hkept
    exact hkeep r hr (by simpa using hkept)
  · intro r hr hdropped
    exact hgone r hr (by simpa using hdropped)
  · intro user token haction
    simp [haction, Action.opened] at hopen

/-- `secrets.token_urlsafe(32)`: 43 characters. -/
def Issued (token : String) : Prop := token.length = 43

lemma enabledAfter_snoc (active : ℕ → Bool) (entries : List Entry) (e : Entry) :
    enabledAfter active (entries ++ [e]) = match e.action with
      | .setActive user b => fun u => if u = user then b else enabledAfter active entries u
      | _ => enabledAfter active entries := by
  rw [enabledAfter, List.foldl_append]
  rfl

/-- An entry that ends nothing and drops nothing. -/
lemma Follows.idle (h : Follows digest active entries s now) (hnow : now < e.time)
    (hquiet : ∀ token, e.useOf token = none)
    (hends : ∀ r ∈ s.sessions.rows, ∀ token, r.tokenHash = digest token →
      ¬ e.Ends digest token r.userId) (hopen : e.action.opened = none)
    (hrows : s'.sessions = s.sessions) (hactive : s'.active = enabledAfter active (entries ++ [e])) :
    Follows digest active (entries ++ [e]) s' e.time := by
  have hall : s'.sessions.rows = (s.sessions.rows.filter fun _ => true) ++ [] := by simp [hrows]
  refine h.moves hnow hquiet hall (fun r hr _ => hends r hr) (by simp) (by simp) (by simp) ?_ ?_
    hactive
  · intro user token haction
    simp [haction, Action.opened] at hopen
  · intro user
    simpa [Store.of, hrows] using h.few user

variable (hinj : Function.Injective digest)

include hinj in
/-- The token of a row is the one with its digest. -/
lemma Follows.token_of_row (h : Follows digest active entries s now) {r : AppSession}
    (hr : r ∈ s.sessions.rows) {token : String} (hhash : r.tokenHash = digest token) :
    ∃ times, Lives digest entries token r.userId times ∧ times.getLast? = some r.lastUsedAt := by
  obtain ⟨token', times, hhash', hlives, hlast⟩ := h.lives r hr
  obtain rfl : token = token' := hinj (hhash.symm.trans hhash')
  exact ⟨times, hlives, hlast⟩

/-- No two rows have one digest. -/
lemma Store.eq_of_hash {r r' : AppSession} (hr : r ∈ s.sessions.rows) (hr' : r' ∈ s.sessions.rows)
    (h : r.tokenHash = r'.tokenHash) : r = r' :=
  List.inj_on_of_nodup_map s.unique hr hr' h

section Actions

variable {t : Time} {token : String} {user : ℕ}

include hinj in
lemma Follows.close (h : Follows digest active entries s now) (hnow : now < t)
    (hissued : ∀ x ∈ tokensOf entries, Issued x) :
    Follows digest active (entries ++ [⟨t, .close token, .done⟩]) (s.closeSession digest token) t := by
  have hactive : s.active = enabledAfter active (entries ++ [⟨t, .close token, .done⟩]) := by
    rw [enabledAfter_snoc, ← h.active_eq]
  have hends : ∀ (token' : String) (user' : ℕ), Entry.Ends digest ⟨t, .close token, .done⟩ token' user' ↔
      token = token' := by
    intro token' user'
    simp [Entry.Ends, Entry.Evicts]
  by_cases hvalid : token ≠ "" ∧ token.length ≤ 128
  · rw [Store.closeSession, if_pos hvalid]
    refine h.drops hnow (fun _ => rfl) ?_ ?_ rfl hactive
    · intro r hr hkept token' hhash
      rw [hends]
      rintro rfl
      simp [hhash] at hkept
    · intro r hr hgone
      refine .inl fun token' hhash => ?_
      rw [hends]
      exact hinj ((of_decide_eq_true hgone).symm.trans hhash)
  · rw [Store.closeSession, if_neg hvalid]
    refine h.idle hnow (fun _ => rfl) ?_ rfl rfl hactive
    intro r hr token' hhash
    rw [hends]
    rintro rfl
    -- no session has such a token
    obtain ⟨times, hlives, -⟩ := h.token_of_row hinj hr hhash
    have hlen : token.length = 43 := hissued token hlives.mem_tokensOf
    refine hvalid ⟨?_, by omega⟩
    rintro rfl
    simp at hlen

lemma Follows.reset (h : Follows digest active entries s now) (hnow : now < t) :
    Follows digest active (entries ++ [⟨t, .reset user, .done⟩]) (s.closeAll user) t := by
  have hactive : s.active = enabledAfter active (entries ++ [⟨t, .reset user, .done⟩]) := by
    rw [enabledAfter_snoc, ← h.active_eq]
  have hends : ∀ (token : String) (user' : ℕ), Entry.Ends digest ⟨t, .reset user, .done⟩ token user' ↔
      user = user' := by
    intro token user'
    simp [Entry.Ends, Entry.Evicts]
  refine h.drops hnow (fun _ => rfl) ?_ ?_ rfl hactive
  · intro r hr hkept token hhash
    rw [hends]
    rintro rfl
    simp at hkept
  · intro r hr hgone
    refine .inl fun token hhash => ?_
    rw [hends]
    exact (of_decide_eq_true hgone).symm

lemma Follows.setActive (h : Follows digest active entries s now) (hnow : now < t) {b : Bool} :
    Follows digest active (entries ++ [⟨t, .setActive user b, .done⟩]) (s.setActive user b) t := by
  refine h.idle hnow (fun _ => rfl) ?_ rfl rfl ?_
  · intro r hr token hhash
    simp [Entry.Ends, Entry.Evicts]
  · rw [enabledAfter_snoc, ← h.active_eq]
    rfl

lemma short_snoc {times : List Time} {last : Time} (h : times.getLast? = some last) :
    Short (times ++ [t]) ↔ Short times ∧ t - last < days appSessionDays := by
  rw [Short, List.isChain_append]
  simp [h, Short]

/-- The token lives for an account that is enabled, and no gap between its signs of
life up to `t` reaches ninety days. -/
def Usable (digest : String → String) (active : ℕ → Bool) (entries : List Entry) (token : String)
    (user : ℕ) (t : Time) : Prop :=
  ∃ times, Lives digest entries token user times ∧ Short (times ++ [t]) ∧
    enabledAfter active entries user = true

include hinj in
/-- A token with a row is usable by what the row says. -/
lemma Follows.usable_iff (h : Follows digest active entries s now) (hnodup : (tokensOf entries).Nodup)
    {r : AppSession} (hr : r ∈ s.sessions.rows) (hhash : r.tokenHash = digest token) :
    Usable digest active entries token user t ↔
      user = r.userId ∧ t < r.expiresAt ∧ s.active r.userId = true := by
  obtain ⟨times, hlives, hlast⟩ := h.token_of_row hinj hr hhash
  have hshort := (h.kept token r.userId times hlives).1
  have hgap : Short (times ++ [t]) ↔ t < r.expiresAt := by
    rw [short_snoc hlast, h.expiry r hr]
    constructor
    · rintro ⟨-, hgap⟩
      linarith
    · intro hlt
      exact ⟨hshort, by linarith⟩
  rw [h.active_eq]
  constructor
  · rintro ⟨times', hlives', hshort', henabled⟩
    obtain ⟨rfl, rfl⟩ := hlives.unique hnodup hlives'
    exact ⟨rfl, hgap.mp hshort', henabled⟩
  · rintro ⟨rfl, hlt, henabled⟩
    exact ⟨times, hlives, hgap.mpr hlt, henabled⟩

/-- A token without a row is not usable. -/
lemma Follows.not_usable (h : Follows digest active entries s now) (hnow : now < t)
    (hnone : ∀ r ∈ s.sessions.rows, r.tokenHash ≠ digest token) :
    ¬ Usable digest active entries token user t := by
  rintro ⟨times, hlives, hshort, -⟩
  obtain ⟨-, last, hlast, ⟨r, hr, hhash, -⟩ | hdead⟩ := h.kept token user times hlives
  · exact hnone r hr hhash
  · have hgap := ((short_snoc hlast).mp hshort).2
    linarith

include hinj in
lemma Follows.touch (h : Follows digest active entries s now) (hnow : now < t)
    (hnodup : (tokensOf entries).Nodup) {r : AppSession} (hr : r ∈ s.sessions.rows)
    (hhash : r.tokenHash = digest token)
    (hlive : t < r.expiresAt) {user : ℕ} :
    Follows digest active (entries ++ [⟨t, .use token, .used (some user)⟩]) (s.touch r.id t) t := by
  have hfind : s.sessions.find r.id = some r := Table.find_of_mem hr
  have hmem : ∀ x, x ∈ (s.touch r.id t).sessions.rows ↔
      (x ∈ s.sessions.rows ∧ x.id ≠ r.id) ∨ x = Store.touched t r := by
    intro x
    rw [Store.touch, Table.mem_update]
    simp only [hfind, Option.some.injEq, exists_eq_left']
    rfl
  have huse : ∀ token', Entry.useOf token' ⟨t, .use token, .used (some user)⟩ =
      if token = token' then some t else none := fun _ => rfl
  have hends : ∀ token' user', ¬ Entry.Ends digest ⟨t, .use token, .used (some user)⟩ token' user' := by
    intro token' user'
    simp [Entry.Ends, Entry.Evicts]
  -- another row has another token
  have hother : ∀ x ∈ s.sessions.rows, ∀ token', x.tokenHash = digest token' →
      (x.id ≠ r.id ↔ token ≠ token') := by
    intro x hx token' hx'
    rw [not_iff_not]
    constructor
    · intro hid
      obtain rfl := Table.eq_of_num_eq hx hr hid
      exact hinj (hhash.symm.trans hx')
    · rintro rfl
      rw [Store.eq_of_hash hx hr (hx'.trans hhash.symm)]
  refine ⟨?_, ?_, ?_, ?_, ?_, ?_, ?_⟩
  · intro x hx
    rcases (hmem x).mp hx with ⟨hx, hid⟩ | rfl
    · obtain ⟨token', times, hhash', hlives, hlast⟩ := h.lives x hx
      refine ⟨token', times, hhash', lives_snoc.mpr (.inr ⟨times, hlives, hends _ _, ?_⟩), hlast⟩
      rw [huse, if_neg ((hother x hx token' hhash').mp hid)]
      simp
    · obtain ⟨times, hlives, hlast⟩ := h.token_of_row hinj hr hhash
      refine ⟨token, times ++ [t], hhash, lives_snoc.mpr (.inr ⟨times, hlives, hends _ _, ?_⟩), ?_⟩
      · rw [huse, if_pos rfl]
        rfl
      · simp [Store.touched]
  · intro token' user' times hlives
    rcases lives_snoc.mp hlives with ⟨hopen, -⟩ | ⟨past, hpast, -, rfl⟩
    · cases hopen
    obtain ⟨hshort, last, hlast, hrow⟩ := h.kept token' user' past hpast
    rw [huse]
    by_cases heq : token = token'
    · subst heq
      rw [if_pos rfl]
      -- the row is the token's own
      obtain ⟨times, hlives', hlast'⟩ := h.token_of_row hinj hr hhash
      obtain ⟨rfl, rfl⟩ := hpast.unique hnodup hlives'
      obtain rfl : last = r.lastUsedAt := Option.some.inj (hlast.symm.trans hlast')
      have hgap : t - r.lastUsedAt < days appSessionDays := by
        rw [h.expiry r hr] at hlive
        linarith
      exact ⟨(short_snoc hlast).mpr ⟨hshort, hgap⟩, t, by simp,
        .inl ⟨_, (hmem _).mpr (.inr rfl), hhash, rfl, rfl⟩⟩
    · rw [if_neg heq, Option.toList_none, List.append_nil]
      refine ⟨hshort, last, hlast, ?_⟩
      rcases hrow with ⟨x, hx, hhash', huser, hlast'⟩ | hdead
      · exact .inl ⟨x, (hmem x).mpr (.inl ⟨hx, (hother x hx token' hhash').mpr heq⟩), hhash', huser,
          hlast'⟩
      · exact .inr (hdead.trans hnow.le)
  · intro x hx
    rcases (hmem x).mp hx with ⟨hx, -⟩ | rfl
    · exact h.expiry x hx
    · rfl
  · intro x hx
    rcases (hmem x).mp hx with ⟨hx, -⟩ | rfl
    · exact (h.past x hx).trans hnow.le
    · exact le_rfl
  · intro x hx y hy heq
    rcases (hmem x).mp hx with ⟨hx, -⟩ | rfl <;> rcases (hmem y).mp hy with ⟨hy, -⟩ | rfl
    · exact h.apart x hx y hy heq
    · exact absurd ((h.past x hx).trans_lt hnow) (by simp [heq, Store.touched])
    · exact absurd ((h.past y hy).trans_lt hnow) (by simp [← heq, Store.touched])
    · rfl
  · intro user'
    have hlen : ((s.touch r.id t).of user').length = (s.of user').length := by
      rw [Store.of, Store.touch, Table.rows_update, List.filter_map, List.length_map, Store.of]
      refine congrArg List.length (List.filter_congr fun x _ => ?_)
      dsimp only [Function.comp]
      split <;> rfl
    rw [hlen]
    exact h.few user'
  · rw [enabledAfter_snoc]
    exact h.active_eq

include hinj in
/-- **A use** follows the token's life and succeeds exactly if the token is usable. -/
lemma Follows.use (h : Follows digest active entries s now) (hnow : now < t)
    (hnodup : (tokensOf entries).Nodup) (hissued : ∀ x ∈ tokensOf entries, Issued x) :
    Follows digest active (entries ++ [⟨t, .use token, .used (s.useSession digest token t).1⟩])
        (s.useSession digest token t).2 t ∧
      ∀ user, (s.useSession digest token t).1 = some user ↔
        Usable digest active entries token user t := by
  have hactive : ∀ ans, s.active = enabledAfter active (entries ++ [⟨t, .use token, ans⟩]) := by
    intro ans
    rw [enabledAfter_snoc]
    exact h.active_eq
  have hends : ∀ token' user', ¬ Entry.Ends digest ⟨t, .use token, .used none⟩ token' user' := by
    intro token' user'
    simp [Entry.Ends, Entry.Evicts]
  have hidle : Follows digest active (entries ++ [⟨t, .use token, .used none⟩]) s t :=
    h.idle hnow (fun _ => rfl) (fun r hr token' _ => hends token' r.userId) rfl rfl (hactive _)
  unfold Store.useSession
  split_ifs with hvalid
  · refine ⟨hidle, fun user => iff_of_false (by simp) ?_⟩
    rintro ⟨times, hlives, -⟩
    have hlen : token.length = 43 := hissued token hlives.mem_tokensOf
    rcases hvalid with rfl | hlong
    · simp at hlen
    · omega
  · cases hfind : s.sessions.rows.find? fun r => r.tokenHash = digest token with
    | none =>
      refine ⟨hidle, fun user => iff_of_false (by simp) (h.not_usable hnow fun r hr => ?_)⟩
      simpa using List.find?_eq_none.mp hfind r hr
    | some row =>
      have hrow : row ∈ s.sessions.rows := List.mem_of_find?_eq_some hfind
      have hhash : row.tokenHash = digest token := by simpa using List.find?_some hfind
      have husable : ∀ user, Usable digest active entries token user t ↔
          user = row.userId ∧ t < row.expiresAt ∧ s.active row.userId = true :=
        fun user => h.usable_iff hinj hnodup hrow hhash
      dsimp only
      split_ifs with hexpired hdisabled
      · refine ⟨h.drops hnow (fun _ => rfl) (fun r hr _ token' _ => hends token' r.userId) ?_ rfl
          (hactive _), fun user => ?_⟩
        · intro r hr hgone
          obtain rfl := Table.eq_of_num_eq hr hrow (of_decide_eq_true hgone)
          rw [← h.expiry r hr]
          exact .inr hexpired
        · rw [husable]
          exact iff_of_false (by simp) fun hall => absurd hall.2.1 (not_lt.mpr hexpired)
      · refine ⟨hidle, fun user => ?_⟩
        rw [husable]
        exact iff_of_false (by simp) fun hall => by simp [hdisabled] at hall
      · refine ⟨h.touch hinj hnow hnodup hrow hhash (not_le.mp hexpired), fun user => ?_⟩
        rw [husable, Option.some.injEq]
        constructor
        · rintro rfl
          exact ⟨rfl, not_le.mp hexpired, by simpa using hdisabled⟩
        · rintro ⟨rfl, -⟩
          rfl

include hinj in
/-- **A sign-in** begins a life and ends those it evicts. -/
lemma Follows.login (h : Follows digest active entries s now) (hnow : now < t)
    (hfresh : token ∉ tokensOf entries) :
    Follows digest active (entries ++ [⟨t, .login user token,
        .opened ((s.cleared user t).stale user)⟩]) (s.openSession digest user token t).2 t := by
  have hopened : (s.openSession digest user token t).2 =
      ((s.cleared user t).room user).add user (digest token) t := rfl
  have hrows : ((s.cleared user t).room user).sessions.rows = s.sessions.rows.filter fun r =>
      !decide (r.id ∈ ((s.cleared user t).stale user).map AppSession.id) &&
        !decide (r.userId = user ∧ r.expiresAt < t) := by
    rw [Store.rows_room, Store.cleared, Store.delete, Table.rows_filter, List.filter_filter]
  have hold : ∀ r ∈ (s.cleared user t).stale user, r ∈ s.sessions.rows := fun r hr =>
    (Store.mem_delete.mp (Store.mem_stale hr).1).1
  -- the digest is new
  have hnew : ∀ r ∈ ((s.cleared user t).room user).sessions.rows, r.tokenHash ≠ digest token := by
    intro r hr hhash
    rw [hrows] at hr
    obtain ⟨times, hlives, -⟩ := h.token_of_row hinj (List.mem_of_mem_filter hr) hhash
    exact hfresh hlives.mem_tokensOf
  rw [hopened]
  refine h.moves hnow (fun _ => rfl) ((Store.rows_add hnew).trans (congrArg (· ++ _) hrows))
    ?_ ?_ ?_ ?_ ?_ ?_ ?_
  · intro r hr hkept token' hhash hends
    rcases hends with hclose | hreset | ⟨evicted, hanswer, r', hr', hhash'⟩
    · cases hclose
    · cases hreset
    · injection hanswer with hevicted
      subst hevicted
      obtain rfl := Store.eq_of_hash hr (hold r' hr') (hhash.trans hhash'.symm)
      simp only [Bool.and_eq_true, Bool.not_eq_true', decide_eq_false_iff_not] at hkept
      exact hkept.1 (List.mem_map_of_mem hr')
  · intro r hr hgone
    rw [Bool.and_eq_false_iff, Bool.not_eq_false', Bool.not_eq_false', decide_eq_true_eq,
      decide_eq_true_eq] at hgone
    rcases hgone with hid | hexpired
    · left
      intro token' hhash
      obtain ⟨r', hr', hid⟩ := List.mem_map.mp hid
      obtain rfl := Table.eq_of_num_eq (hold r' hr') hr hid
      exact .inr (.inr ⟨_, rfl, r', hr', hhash⟩)
    · right
      rw [← h.expiry r hr]
      exact hexpired.2.le
  · intro r hr
    obtain rfl := List.mem_singleton.mp hr
    exact ⟨rfl, rfl, token, rfl, rfl⟩
  · intro r hr r' hr'
    rw [List.mem_singleton.mp hr, List.mem_singleton.mp hr']
  · intro user' token' haction
    injection haction with huser htoken
    subst huser htoken
    exact ⟨_, List.mem_singleton.mpr rfl, rfl, rfl⟩
  · intro user'
    rw [Store.of, Store.rows_add hnew, List.filter_append, List.length_append]
    by_cases huser : user = user'
    · subst huser
      have hroom := Store.length_of_room (s.cleared user t) user
      have hone := List.length_filter_le (fun r : AppSession => decide (r.userId = user))
        [⟨((s.cleared user t).room user).sessions.next, user, digest token, t, t,
          t + days appSessionDays⟩]
      exact Nat.add_le_add hroom hone
    · have hsub : (((s.cleared user t).room user).sessions.rows.filter fun r =>
          r.userId = user').length ≤ maxSessionsPerUser := by
        rw [hrows]
        exact ((List.filter_sublist.filter _).length_le).trans (h.few user')
      simpa [huser] using hsub
  · rw [enabledAfter_snoc, Store.active_add, Store.active_room]
    exact h.active_eq

/-- **One action**: the store follows the lives. -/
lemma Follows.act (hinj : Function.Injective digest) (h : Follows digest active entries s now)
    (hnow : now < t) {a : Action} (hnodup : (tokensOf entries).Nodup)
    (hissued : ∀ x ∈ tokensOf entries, Issued x)
    (hfresh : ∀ x ∈ a.opened, x ∉ tokensOf entries) :
    Follows digest active (entries ++ [⟨t, a, (s.act digest t a).1⟩]) (s.act digest t a).2 t := by
  cases a with
  | login user token => exact h.login hinj hnow (hfresh token rfl)
  | use token => exact (h.use hinj hnow hnodup hissued).1
  | close token => exact h.close hinj hnow hissued
  | reset user => exact h.reset hnow
  | setActive user b => exact h.setActive hnow

/-- Time passes. -/
lemma Follows.later (h : Follows digest active entries s now) {later : Time} (hle : now ≤ later) :
    Follows digest active entries s later where
  lives := h.lives
  kept token user times hlives := by
    obtain ⟨hshort, last, hlast, hrow⟩ := h.kept token user times hlives
    exact ⟨hshort, last, hlast, hrow.imp_right fun hdead => hdead.trans hle⟩
  expiry := h.expiry
  past r hr := (h.past r hr).trans hle
  apart := h.apart
  few := h.few
  active_eq := h.active_eq

end Actions

end Follows

/-! ### Evictions -/

section Evictions

variable {digest : String → String} {active : ℕ → Bool} {entries : List Entry} {s : Store}
  {now t last : Time} {user : ℕ} {token : String}

/-- The account holds the token's session at `t`, last used at `last`. -/
def Holds (digest : String → String) (entries : List Entry) (user : ℕ) (t : Time) (token : String)
    (last : Time) : Prop :=
  ∃ times, Lives digest entries token user times ∧ times.getLast? = some last ∧
    t - last ≤ days appSessionDays

/-- What an account holds is what a sign-in finds of it. -/
lemma Follows.holds_iff (hinj : Function.Injective digest) (h : Follows digest active entries s now)
    (hnow : now < t) : Holds digest entries user t token last ↔
      ∃ r ∈ (s.cleared user t).of user, r.tokenHash = digest token ∧ r.lastUsedAt = last := by
  have hmem : ∀ r, r ∈ (s.cleared user t).of user ↔
      r ∈ s.sessions.rows ∧ r.userId = user ∧ t ≤ r.expiresAt := by
    intro r
    rw [Store.of, List.mem_filter, Store.cleared, Store.mem_delete]
    simp only [decide_eq_false_iff_not, decide_eq_true_eq, not_and, not_lt]
    constructor
    · rintro ⟨⟨hr, himp⟩, huser⟩
      exact ⟨hr, huser, himp huser⟩
    · rintro ⟨hr, huser, hle⟩
      exact ⟨⟨hr, fun _ => hle⟩, huser⟩
  constructor
  · rintro ⟨times, hlives, hlast, hgap⟩
    obtain ⟨-, last', hlast', ⟨r, hr, hhash, huser, hrlast⟩ | hdead⟩ :=
      h.kept token user times hlives
    · obtain rfl : last = last' := Option.some.inj (hlast.symm.trans hlast')
      refine ⟨r, (hmem r).mpr ⟨hr, huser, ?_⟩, hhash, hrlast⟩
      rw [h.expiry r hr, hrlast]
      linarith
    · obtain rfl : last = last' := Option.some.inj (hlast.symm.trans hlast')
      linarith
  · rintro ⟨r, hr, hhash, rfl⟩
    obtain ⟨hrow, rfl, hle⟩ := (hmem r).mp hr
    obtain ⟨times, hlives, hlast⟩ := h.token_of_row hinj hrow hhash
    refine ⟨times, hlives, hlast, ?_⟩
    rw [h.expiry r hrow] at hle
    linarith

/-- The account holds ten sessions, and the token's was used before the others. -/
structure LeastRecent (digest : String → String) (entries : List Entry) (user : ℕ) (t : Time)
    (token : String) : Prop where
  ten : ∃ held : List String, held.Nodup ∧ held.length = maxSessionsPerUser ∧
    ∀ x, x ∈ held ↔ ∃ last, Holds digest entries user t x last
  least : ∃ last, Holds digest entries user t token last ∧
    ∀ x last', Holds digest entries user t x last' → x ≠ token → last < last'

/-- **An eviction** takes the least recently used of ten. -/
lemma Follows.leastRecent (hinj : Function.Injective digest)
    (h : Follows digest active entries s now) (hnow : now < t) {r : AppSession}
    (hr : r ∈ (s.cleared user t).stale user) (hhash : r.tokenHash = digest token) :
    LeastRecent digest entries user t token := by
  have hfew : ((s.cleared user t).of user).length ≤ maxSessionsPerUser := h.few_delete user
  have hlen := Store.length_stale (s.cleared user t) user
  have hpos : 0 < ((s.cleared user t).stale user).length := List.length_pos_of_mem hr
  have hmax : maxSessionsPerUser = 10 := rfl
  have hrmem : r ∈ (s.cleared user t).of user :=
    Store.byLastUse_perm.mem_iff.mp (List.mem_of_mem_drop hr)
  refine ⟨?_, r.lastUsedAt, (h.holds_iff hinj hnow).mpr ⟨r, hrmem, hhash, rfl⟩, ?_⟩
  · -- the tokens of the ten rows
    have hrow : ∀ x ∈ (s.cleared user t).of user, ∃ token, x.tokenHash = digest token := by
      intro x hx
      have hxrow := (Store.mem_delete.mp (List.mem_of_mem_filter hx)).1
      obtain ⟨token, times, hhash, -⟩ := h.lives x hxrow
      exact ⟨token, hhash⟩
    choose! tokenOf htokenOf using hrow
    refine ⟨((s.cleared user t).of user).map tokenOf, ?_, ?_, ?_⟩
    · refine List.Nodup.map_on ?_ ?_
      · intro x hx y hy heq
        refine Store.eq_of_hash (List.mem_of_mem_filter hx) (List.mem_of_mem_filter hy) ?_
        rw [htokenOf x hx, htokenOf y hy, heq]
      · exact (List.Nodup.of_map _ (s.cleared user t).sessions.nodup).filter _
    · rw [List.length_map]
      omega
    · intro x
      rw [List.mem_map]
      constructor
      · rintro ⟨y, hy, rfl⟩
        exact ⟨y.lastUsedAt, (h.holds_iff hinj hnow).mpr ⟨y, hy, htokenOf y hy, rfl⟩⟩
      · rintro ⟨last, hholds⟩
        obtain ⟨y, hy, hyx, -⟩ := (h.holds_iff hinj hnow).mp hholds
        exact ⟨y, hy, hinj ((htokenOf y hy).symm.trans hyx)⟩
  · intro x last' hholds hne
    obtain ⟨y, hy, hyx, rfl⟩ := (h.holds_iff hinj hnow).mp hholds
    have hyr : y ≠ r := by
      rintro rfl
      exact hne (hinj (hyx.symm.trans hhash))
    -- one session is evicted, so the other one stays
    have hstays : y ∉ (s.cleared user t).stale user := by
      intro hmem
      obtain ⟨z, hz⟩ := List.length_eq_one_iff.mp (show ((s.cleared user t).stale user).length = 1 by
        omega)
      rw [hz] at hr hmem
      exact hyr ((List.mem_singleton.mp hmem).trans (List.mem_singleton.mp hr).symm)
    refine lt_of_le_of_ne (Store.le_of_mem_stale hr hy hstays) fun heq => hyr ?_
    have hrow : ∀ z ∈ (s.cleared user t).of user, z ∈ s.sessions.rows := fun z hz =>
      (Store.mem_delete.mp (List.mem_of_mem_filter hz)).1
    exact h.apart y (hrow y hy) r (hrow r hrmem) heq.symm

end Evictions

/-! ### Runs -/

section Runs

variable {digest : String → String} {active : ℕ → Bool}

lemma run_snoc (s : Store) (steps : List (Time × Action)) (x : Time × Action) :
    s.run digest (steps ++ [x]) = ((s.run digest steps).act digest x.1 x.2).2 := by
  induction steps generalizing s with
  | nil => rfl
  | cons y steps ih => exact ih _

lemma trace_snoc (s : Store) (steps : List (Time × Action)) (x : Time × Action) :
    s.trace digest (steps ++ [x]) = s.trace digest steps ++
      [⟨x.1, x.2, ((s.run digest steps).act digest x.1 x.2).1⟩] := by
  induction steps generalizing s with
  | nil => rfl
  | cons y steps ih => exact congrArg _ (ih _)

/-- An entry of a history is the answer to an action of the run. -/
lemma trace_split {s : Store} {steps : List (Time × Action)} {pre post : List Entry} {e : Entry}
    (h : s.trace digest steps = pre ++ e :: post) : ∃ before x after, steps = before ++ x :: after ∧
      pre = s.trace digest before ∧
      e = ⟨x.1, x.2, ((s.run digest before).act digest x.1 x.2).1⟩ := by
  induction steps generalizing s pre with
  | nil => simp [Store.trace] at h
  | cons y steps ih =>
    rw [Store.trace] at h
    cases pre with
    | nil =>
      obtain ⟨rfl, -⟩ := List.cons.inj h
      exact ⟨[], y, steps, rfl, rfl, rfl⟩
    | cons p pre =>
      obtain ⟨rfl, hrest⟩ := List.cons.inj h
      obtain ⟨before, x, after, rfl, rfl, rfl⟩ := ih hrest
      exact ⟨y :: before, x, after, rfl, rfl, rfl⟩

lemma tokensOf_trace (s : Store) (steps : List (Time × Action)) :
    tokensOf (s.trace digest steps) = steps.filterMap fun x => x.2.opened := by
  induction steps generalizing s with
  | nil => rfl
  | cons y steps ih =>
    have hcons := ih (s.act digest y.1 y.2).2
    unfold tokensOf at hcons ⊢
    rw [Store.trace, List.filterMap_cons, List.filterMap_cons, hcons]

/-- A run with a clock that goes on and tokens drawn once. -/
structure Sequential (steps : List (Time × Action)) : Prop where
  clock : steps.Pairwise fun a b => a.1 < b.1
  distinct : (steps.filterMap fun x => x.2.opened).Nodup
  issued : ∀ token ∈ steps.filterMap fun x => x.2.opened, Issued token

lemma Sequential.of_append {steps rest : List (Time × Action)} (h : Sequential (steps ++ rest)) :
    Sequential steps where
  clock := (List.pairwise_append.mp h.clock).1
  distinct := by
    have hdistinct := h.distinct
    rw [List.filterMap_append] at hdistinct
    exact hdistinct.of_append_left
  issued token htoken := by
    refine h.issued token ?_
    rw [List.filterMap_append]
    exact List.mem_append_left _ htoken

/-- **The store follows the lives over every run.** -/
lemma follows_run (hinj : Function.Injective digest) {steps : List (Time × Action)}
    (h : Sequential steps) {now : Time} (hnow : ∀ x ∈ steps, x.1 ≤ now) :
    Follows digest active ((fresh active).trace digest steps) ((fresh active).run digest steps)
      now := by
  induction steps using List.reverseRecOn generalizing now with
  | nil => exact follows_fresh digest active now
  | append_singleton steps x ih =>
    have hbefore : ∀ y ∈ steps, y.1 ≤ x.1 - 1 := fun y hy =>
      Int.le_sub_one_of_lt ((List.pairwise_append.mp h.clock).2.2 y hy x (by simp))
    have hdistinct := h.distinct
    rw [List.filterMap_append] at hdistinct
    rw [trace_snoc, run_snoc]
    refine ((ih h.of_append hbefore).act hinj (by linarith) ?_ ?_ ?_).later (hnow x (by simp))
    · rw [tokensOf_trace]
      exact h.of_append.distinct
    · rw [tokensOf_trace]
      exact h.of_append.issued
    · intro token htoken
      rw [tokensOf_trace]
      intro hmem
      refine List.disjoint_of_nodup_append hdistinct hmem ?_
      simpa using htoken

/-- The store before an action of a run, when the clock is about to reach it. -/
lemma follows_before (hinj : Function.Injective digest) {before after : List (Time × Action)}
    {x : Time × Action} (h : Sequential (before ++ x :: after)) :
    Follows digest active ((fresh active).trace digest before) ((fresh active).run digest before)
      (x.1 - 1) :=
  follows_run hinj h.of_append fun y hy =>
    Int.le_sub_one_of_lt ((List.pairwise_append.mp h.clock).2.2 y hy x (by simp))

lemma exists_after (steps : List (Time × Action)) : ∃ now, ∀ x ∈ steps, x.1 ≤ now := by
  induction steps with
  | nil => exact ⟨0, by simp⟩
  | cons y steps ih =>
    obtain ⟨now, hnow⟩ := ih
    refine ⟨max y.1 now, fun x hx => ?_⟩
    rcases List.mem_cons.mp hx with rfl | hx
    · exact le_max_left _ _
    · exact (hnow x hx).trans (le_max_right _ _)

/-- **Refresh tokens follow their reference life.** For every sequential run with
a collision-free digest: a use succeeds exactly if the token lives for an account
that is enabled and no gap between its signs of life reaches ninety days; no
account has more than ten sessions; an eviction is a sign-in of an account with
ten sessions and takes the least recently used one; and no token opened before a
reset of the password is accepted after it. -/
theorem tokens_follow_life (hinj : Function.Injective digest) {steps : List (Time × Action)}
    (h : Sequential steps) :
    (∀ pre t token answer post,
      (fresh active).trace digest steps = pre ++ ⟨t, .use token, answer⟩ :: post →
        ∀ user, answer = .used (some user) ↔ Usable digest active pre token user t) ∧
    (∀ before after, steps = before ++ after → ∀ user,
      (((fresh active).run digest before).of user).length ≤ maxSessionsPerUser) ∧
    (∀ pre e post, (fresh active).trace digest steps = pre ++ e :: post → ∀ token,
      e.Evicts digest token → ∃ user new, e.action = .login user new ∧
        LeastRecent digest pre user e.time token) ∧
    (∀ before user token between after post (t : Time) (o x : Entry) (answer : Answer),
      (fresh active).trace digest steps =
        before ++ o :: between ++ x :: after ++ ⟨t, .use token, answer⟩ :: post →
      o.action = .login user token → x.action = .reset user → answer = .used none) := by
  -- what a use answers, by the life before it
  have huse : ∀ pre t token answer post,
      (fresh active).trace digest steps = pre ++ ⟨t, .use token, answer⟩ :: post →
        (∃ found, answer = .used found) ∧
          ∀ user, answer = .used (some user) ↔ Usable digest active pre token user t := by
    intro pre t token answer post htrace
    obtain ⟨before, ⟨t', a⟩, after, rfl, rfl, heq⟩ := trace_split htrace
    obtain ⟨rfl, rfl, rfl⟩ := Entry.mk.inj heq
    have hfollows : Follows digest active ((fresh active).trace digest before)
      ((fresh active).run digest before) (t - 1) := follows_before hinj h
    have hnodup : (tokensOf ((fresh active).trace digest before)).Nodup := by
      rw [tokensOf_trace]
      exact h.of_append.distinct
    have hissued : ∀ x ∈ tokensOf ((fresh active).trace digest before), Issued x := by
      rw [tokensOf_trace]
      exact h.of_append.issued
    refine ⟨⟨_, rfl⟩, fun user => ?_⟩
    rw [← (hfollows.use hinj (sub_one_lt t) hnodup hissued).2 user]
    simp [Store.act]
  refine ⟨fun pre t token answer post htrace => (huse pre t token answer post htrace).2, ?_, ?_, ?_⟩
  · rintro before after rfl user
    obtain ⟨now, hnow⟩ := exists_after before
    exact (follows_run hinj h.of_append hnow).few user
  · intro pre e post htrace token hevicts
    obtain ⟨before, ⟨t, a⟩, after, rfl, rfl, rfl⟩ := trace_split htrace
    obtain ⟨evicted, hanswer, r, hr, hhash⟩ := hevicts
    cases a with
    | login user new =>
      injection hanswer with hevicted
      subst hevicted
      exact ⟨user, new, rfl, (follows_before hinj h).leastRecent hinj (sub_one_lt t) hr hhash⟩
    | use => cases hanswer
    | close => cases hanswer
    | reset => cases hanswer
    | setActive => cases hanswer
  · intro before user token between after post t o x answer htrace hopen hreset
    obtain ⟨⟨found, rfl⟩, husable⟩ := huse _ t token answer post htrace
    cases found with
    | none => rfl
    | some u =>
      obtain ⟨times, hlives, -⟩ := (husable u).mp rfl
      obtain ⟨before', y, after', rfl, hpre, -⟩ := trace_split htrace
      have hnodup : (tokensOf (before ++ o :: between ++ x :: after)).Nodup := by
        rw [hpre, tokensOf_trace]
        exact h.of_append.distinct
      exact absurd hlives (not_lives_reset hnodup hopen hreset)

/-- A sign-in, a use, a reset of the password and another use. -/
def lostPhone : List (Time × Action) :=
  [(0, .login 0 "k3Vb0Qm9xX2yT7uR5wE1aS4dF6gH8jL0zC-vB_nM2qW"),
    (1, .use "k3Vb0Qm9xX2yT7uR5wE1aS4dF6gH8jL0zC-vB_nM2qW"), (2, .reset 0),
    (3, .use "k3Vb0Qm9xX2yT7uR5wE1aS4dF6gH8jL0zC-vB_nM2qW")]

lemma sequential_lostPhone : Sequential lostPhone :=
  ⟨by simp [lostPhone], by simp [lostPhone, Action.opened], by
    intro token htoken
    obtain rfl := List.mem_singleton.mp htoken
    rfl⟩

/-- SHA-256 of that token; on other texts it is only some map without collisions. -/
def phoneSha256 : String ≃ String :=
  Equiv.swap "k3Vb0Qm9xX2yT7uR5wE1aS4dF6gH8jL0zC-vB_nM2qW"
    "85e28de9e465230dab2ac07158ecc70a9ebb4af65b4a67424b1f212b81da9cd8"

/-- The token lives until the password is reset. -/
theorem tokens_follow_life_lostPhone :
    Usable phoneSha256 (fun _ => true) ((fresh fun _ => true).trace phoneSha256 (lostPhone.take 1))
        "k3Vb0Qm9xX2yT7uR5wE1aS4dF6gH8jL0zC-vB_nM2qW" 0 1 ∧
      ∀ user, ¬ Usable phoneSha256 (fun _ => true)
        ((fresh fun _ => true).trace phoneSha256 (lostPhone.take 3))
        "k3Vb0Qm9xX2yT7uR5wE1aS4dF6gH8jL0zC-vB_nM2qW" user 3 := by
  have hall : ∀ pre t token answer post,
      (fresh fun _ => true).trace phoneSha256 lostPhone = pre ++ ⟨t, .use token, answer⟩ :: post →
        ∀ user, answer = .used (some user) ↔ Usable phoneSha256 (fun _ => true) pre token user t :=
    (tokens_follow_life phoneSha256.injective sequential_lostPhone).1
  have hfirst := hall ((fresh fun _ => true).trace phoneSha256 (lostPhone.take 1)) 1
    "k3Vb0Qm9xX2yT7uR5wE1aS4dF6gH8jL0zC-vB_nM2qW" (.used (some 0))
    [⟨2, .reset 0, .done⟩,
      ⟨3, .use "k3Vb0Qm9xX2yT7uR5wE1aS4dF6gH8jL0zC-vB_nM2qW", .used none⟩] rfl
  have hsecond := hall ((fresh fun _ => true).trace phoneSha256 (lostPhone.take 3)) 3
    "k3Vb0Qm9xX2yT7uR5wE1aS4dF6gH8jL0zC-vB_nM2qW" (.used none) [] rfl
  exact ⟨(hfirst 0).mp rfl, fun user huser => by simpa using (hsecond user).mpr huser⟩

end Runs

end VpnPortal.AppSessions
