/-
One trial per inbox, all or nothing.

Any number of sessions start trials and link, move or unlink Telegram accounts,
in any interleaving. Each of them keeps to the protocol of `trial_grants`, so
what the tables hold is what the successful starts wrote, and no two of these
starts share an account, a Telegram account or an inbox.

* `Visit`: the sessions;
* `Undisturbed`: a step that touches neither the trials nor the rows held;
* `granting_startTrial`, `granting_visit`: the sessions keep to the protocol;
* `trials_one_per_inbox`: **each start that succeeded has one grant, one device and one end
  of a trial**, no two are of one account, Telegram account or inbox, and a start that did
  not succeed has kept all of them at every step.
-/
import VpnPortal.Api.Telegram
import VpnPortal.Lifecycle.Activation
import VpnPortal.Trials.Grants
import VpnPortal.Trials.Inbox

namespace VpnPortal

open Sessions Tables

/-- A session that starts a trial, or ties a Telegram account to an account of
the portal, moves it, or takes it off. -/
inductive Visit where
  | startTrial (username ip : String)
  | tgLink (username : String)
  | tgUnlink (username : String)
  | tgLinkWebapp (username : String)
  | link (chat : ℤ) (token : String)
  deriving DecidableEq, Repr

/-- The session; only a start that succeeds has a trial to show. -/
def Visit.run (cfg : Settings) : Visit → Portal (Option StartedTrial)
  | .startTrial username ip => do
      let trial ← VpnPortal.startTrial cfg username ip
      pure (some trial)
  | .tgLink username => do
      let _ ← VpnPortal.tgLink cfg username
      pure none
  | .tgUnlink username => do
      VpnPortal.tgUnlink username
      pure none
  | .tgLinkWebapp username => do
      VpnPortal.tgLinkWebapp username
      pure none
  | .link chat token => do
      let _ ← VpnPortal.link cfg chat token
      pure none

/-! ### Steps beside the trials -/

/-- Neither the trials nor the rows that are held are touched. -/
def Undisturbed (s t : World) : Prop := TrialsKept s t ∧ t.flushed = s.flushed

lemma Undisturbed.of_db {s t : World} (hdb : t.db = s.db) (hflushed : t.flushed = s.flushed) :
    Undisturbed s t :=
  ⟨TrialsKept.of_db hdb, hflushed⟩

lemma Undisturbed.refl (s : World) : Undisturbed s s := Undisturbed.of_db rfl rfl

/-- Writing the Telegram columns keeps the ends of the trials. -/
lemma trialUntil_saveTelegram (users : Table User) (old new : User) (n : ℕ) :
    ((saveTelegram users old new).find n).map User.trialUntil = (users.find n).map User.trialUntil := by
  unfold saveTelegram
  rw [Table.find_update, Option.map_map]
  refine Option.map_congr fun u _ => ?_
  dsimp only [Function.comp]
  split <;> rfl

lemma trialUntil_freeTelegram (users : Table User) (user : User) (other : Option User) (n : ℕ) :
    ((freeTelegram users user other).find n).map User.trialUntil
      = (users.find n).map User.trialUntil := by
  unfold freeTelegram
  split
  · rfl
  · split
    · rfl
    · exact trialUntil_saveTelegram users _ _ n

/-- A commit that writes accounts only, and no end of a trial. -/
lemma undisturbed_users {s : World} {users : Table User}
    (h : ∀ n, (users.find n).map User.trialUntil = (s.db.users.find n).map User.trialUntil) :
    Undisturbed s { s with db := { s.db with users := users } } :=
  ⟨⟨rfl, rfl, h⟩, rfl⟩

section Programs

variable {cfg : Settings} {J : World → Input → Prop} {Seen : User → Prop} {α β : Type}

/-- No step disturbs, and the result lies in `C`. -/
abbrev Bystands (J : World → Input → Prop) (C : Except Exn α → Prop) (p : Portal α) : Prop :=
  Proc.Within J Undisturbed C p

lemma bystands_select {q : Db → α} {f : α → Portal β} {C : Except Exn β → Prop}
    (h : ∀ s i, J s i → Bystands J C (f (q s.db))) : Bystands J C (select q >>= f) :=
  Proc.Within.look fun s i hi => ⟨Undisturbed.refl s, h s i hi⟩

lemma bystands_ask {q : Input → α} {f : α → Portal β} {C : Except Exn β → Prop}
    (h : ∀ a, Bystands J C (f a)) : Bystands J C (Proc.ask q >>= f) :=
  Proc.Within.ask fun s _ _ => ⟨Undisturbed.refl s, h _⟩

lemma bystands_now {f : Time → Portal β} {C : Except Exn β → Prop}
    (h : ∀ t, Bystands J C (f t)) : Bystands J C (now >>= f) :=
  Proc.Within.exchange fun _ _ _ => ⟨Undisturbed.of_db rfl rfl, h _⟩

/-- A row that is found is one of those that were selected. -/
lemma bystands_scalarOneOrNone (rows : List α) :
    Bystands J (fun r => ∀ a, r = .ok (some a) → a ∈ rows) (scalarOneOrNone rows) := by
  unfold scalarOneOrNone
  split
  · exact nofun
  · rename_i a
    intro b hb
    obtain rfl := Option.some.inj (Except.ok.inj hb)
    exact List.mem_singleton_self _
  · exact nofun

lemma bystands_userByChat (chat : ℤ) : Bystands J (fun _ => True) (userByChat chat) :=
  bystands_select fun _ _ _ => (bystands_scalarOneOrNone _).mono (fun _ _ h => h) fun _ _ => trivial

/-- The account as it is read. -/
lemma bystands_currentUser (hJ : ∀ s i, J s i → ∀ u ∈ s.db.users.rows, Seen u) (username : String) :
    Bystands J (fun r => ∀ u, r = .ok u → Seen u ∧ u.username = username) (currentUser username) := by
  refine bystands_select fun s i hi => ?_
  refine (bystands_scalarOneOrNone _).bind (fun o ho => ?_) fun e _ u hu => by cases hu
  cases o with
  | none =>
      intro u hu
      cases hu
  | some user =>
      obtain ⟨hmem, hname⟩ := List.mem_filter.mp (ho user rfl)
      intro u hu
      obtain rfl := Except.ok.inj hu
      exact ⟨hJ s i hi user hmem, of_decide_eq_true hname⟩

/-! ### The Telegram sessions -/

lemma bystands_tieChat (user : User) (chat : ℤ) (new : User) :
    Bystands J (fun _ => True) (tieChat user chat new) := by
  refine (bystands_userByChat chat).bind (fun other _ => ?_) fun _ _ => trivial
  refine Proc.Within.exchange fun s _ _ => ⟨?_, ?_⟩
  · unfold Db.tieTelegram
    dsimp only
    split
    · exact Undisturbed.refl s
    · refine undisturbed_users fun n => ?_
      rw [trialUntil_saveTelegram, trialUntil_freeTelegram]
  · split <;> trivial

/-- The account is read and nothing is asked of it. -/
lemma Bystands.ofUser {username : String} {f : User → Portal β}
    (h : ∀ user, Bystands J (fun _ => True) (f user)) :
    Bystands J (fun _ => True) (currentUser username >>= f) := by
  have hread : Bystands J (fun r => ∀ u, r = .ok u → True ∧ u.username = username)
      (currentUser username) := bystands_currentUser (fun _ _ _ _ _ => trivial) username
  exact hread.bind (fun user _ => h user) fun _ _ => trivial

lemma bystands_tgLink (username : String) : Bystands J (fun _ => True) (tgLink cfg username) := by
  unfold tgLink
  split
  · trivial
  · refine Bystands.ofUser fun user => bystands_ask fun token => bystands_now fun t => ?_
    exact Proc.Within.change fun s _ _ => ⟨undisturbed_users (trialUntil_saveTelegram _ _ _), trivial⟩

lemma bystands_tgUnlink (username : String) : Bystands J (fun _ => True) (tgUnlink username) :=
  Bystands.ofUser fun _ _ _ _ => ⟨undisturbed_users (trialUntil_saveTelegram _ _ _), trivial⟩

lemma bystands_tgLinkWebapp (username : String) :
    Bystands J (fun _ => True) (tgLinkWebapp username) := by
  refine bystands_ask fun chat => ?_
  cases chat with
  | none => trivial
  | some chat => exact Bystands.ofUser fun user => bystands_tieChat user chat _

lemma bystands_link (chat : ℤ) (token : String) :
    Bystands J (fun _ => True) (link cfg chat token) := by
  refine bystands_select fun s i _ => ?_
  refine (bystands_scalarOneOrNone _).bind (fun o _ => ?_) fun _ _ => trivial
  cases o with
  | none => trivial
  | some user =>
      dsimp only
      split
      · trivial
      · refine bystands_now fun t => ?_
        split
        · trivial
        · exact (bystands_tieChat user chat _).bind (fun _ _ => trivial) fun _ _ => trivial

/-! ### The start of a trial -/

/-- The session keeps to the protocol from `g` on. -/
abbrev Granting (cfg : Settings) (J : World → Input → Prop) (Seen : User → Prop)
    (C : TrialStage → Except Exn α → Prop) (p : Portal α) (g : TrialStage) : Prop :=
  Proc.Follows J (GrantStep cfg Seen) C p g

/-- A session beside the trials, in front of another. -/
lemma Bystands.then {C : Except Exn α → Prop} {C' : TrialStage → Except Exn β → Prop} {p : Portal α}
    {f : α → Portal β} {g : TrialStage} (hg : ∀ trial, g ≠ .done trial) (hp : Bystands J C p)
    (hf : ∀ a, C (.ok a) → Granting cfg J Seen C' (f a) g) (he : ∀ e, C' g (.error e)) :
    Granting cfg J Seen C' (p >>= f) g := by
  refine Proc.Follows.bind (hp.follows fun s t h => GrantStep.aside hg h.1 h.2) ?_ ?_
  · rintro g' a ⟨rfl, ha⟩
    exact hf a ha
  · rintro g' e ⟨rfl, -⟩
    exact he e

/-- The end of a start: it has its trial, of the account with that name, or holds
nothing. -/
def StartEnd (username : String) (g : TrialStage) : Except Exn StartedTrial → Prop
  | .ok trial => g = .done trial ∧ trial.user.username = username
  | .error _ => g = .idle

variable {username : String} {user : User}

/-- The device of a trial whose row is held: nothing is held once it failed. -/
lemma granting_issueTrialDevice (user : User) (row : TrialGrant) :
    Granting cfg J Seen
      (fun g r => (∀ o, r = .ok o → g = .held row ∧ ∀ c, o = some c →
          c.userId = user.id ∧ c.kind = .trial ∧ c.isActive = true)
        ∧ ∀ e, r = .error e → g = .idle)
      (issueTrialDevice cfg user row) (.held row) := by
  have hissue : Bystands J (fun r => ∀ c, r = .ok (some c) →
      c.userId = user.id ∧ c.kind = .trial ∧ c.isActive = true)
      (issueConfig cfg user "trial" .trial Settings.defaultLocation) := by
    refine (nodesOnly_issueConfig cfg user _ _ _).mono ?_ fun r h c hc => (h c hc).1
    rintro s t ⟨node, rfl⟩
    exact Undisturbed.of_db rfl rfl
  refine (hissue.follows fun s t h => GrantStep.aside (TrialStage.held_ne row) h.1 h.2).tryCatch ?_ ?_
  · rintro g o ⟨rfl, ho⟩
    refine ⟨fun o' ho' => ⟨rfl, ?_⟩, fun e he => by cases he⟩
    rintro c rfl
    exact ho c ho'
  · rintro g e ⟨rfl, -⟩
    refine fun s _ _ => ⟨.idle, GrantStep.rollback, ?_⟩
    exact ⟨fun o ho => (by cases ho), fun _ _ => rfl⟩

lemma granting_issueTrial (hseen : Seen user) (hname : user.username = username)
    (hnew : user.trialUntil = none) (ip : String) (began : Time) :
    Granting cfg J Seen (StartEnd username)
      (issueTrial cfg user (user.confirmedEmail.map (normaliseEmail cfg)) ip began) .idle := by
  have haside : ∀ s t : World, t.db = s.db → t.flushed = s.flushed →
      GrantStep cfg Seen .idle s .idle t :=
    fun s t hdb hflushed => GrantStep.aside TrialStage.idle_ne (TrialsKept.of_db hdb) hflushed
  refine Proc.Follows.exchange fun s _ _ => ⟨.idle, haside _ _ rfl rfl, ?_⟩
  refine Proc.Follows.exchange fun s' _ _ => ?_
  dsimp only
  split_ifs with hrows hflushed
  · exact ⟨.idle, haside _ _ rfl rfl, rfl⟩
  · exact ⟨.idle, haside _ _ rfl rfl, rfl⟩
  · refine ⟨.held (newGrant user _ ip began 0), GrantStep.flush ?_ ?_ ?_, ?_⟩
    · exact Option.some_ne_none user.id
    · exact Bool.eq_false_iff.mpr hrows
    · exact Bool.eq_false_iff.mpr hflushed
    refine Proc.Follows.bind (granting_issueTrialDevice user _) ?_ ?_
    · rintro g o ⟨ho, -⟩
      obtain ⟨rfl, hdevice⟩ := ho o rfl
      cases o with
      | none => exact fun s _ _ => ⟨.idle, GrantStep.rollback, rfl⟩
      | some device =>
          exact fun s _ _ => ⟨_, GrantStep.commit hseen hnew rfl (hdevice device rfl), rfl, hname⟩
    · rintro g e ⟨-, he⟩
      exact he e rfl

lemma granting_grantTrial (hseen : Seen user) (hname : user.username = username)
    (hnew : user.trialUntil = none) (ip : String) (began : Time) :
    Granting cfg J Seen (StartEnd username) (grantTrial cfg user ip began) .idle := by
  have haside : ∀ s t : World, Undisturbed s t → GrantStep cfg Seen .idle s .idle t :=
    fun s t h => GrantStep.aside TrialStage.idle_ne h.1 h.2
  refine Proc.Follows.ask (fun s => haside s s (Undisturbed.refl s)) fun _ i _ => ?_
  split
  · rfl
  · refine Proc.Follows.look fun s => ⟨.idle, haside s s (Undisturbed.refl s), ?_⟩
    dsimp only
    split
    · rfl
    · refine Proc.Follows.exchange fun s' i' _ => ⟨.idle, haside _ _ (Undisturbed.of_db rfl rfl), ?_⟩
      refine Proc.Follows.look fun s'' => ⟨.idle, haside _ _ (Undisturbed.refl s''), ?_⟩
      dsimp only
      split
      · rfl
      · exact granting_issueTrial hseen hname hnew ip began

lemma granting_startTrial (hJ : ∀ s i, J s i → ∀ u ∈ s.db.users.rows, Seen u) (username ip : String) :
    Granting cfg J Seen (StartEnd username) (startTrial cfg username ip) .idle := by
  have haside : ∀ s t : World, Undisturbed s t → GrantStep cfg Seen .idle s .idle t :=
    fun s t h => GrantStep.aside TrialStage.idle_ne h.1 h.2
  refine Proc.Follows.exchange fun s i _ => ⟨.idle, haside _ _ (Undisturbed.of_db rfl rfl), ?_⟩
  refine (bystands_currentUser hJ username).then TrialStage.idle_ne (fun user huser => ?_) fun _ => rfl
  obtain ⟨hseen, hname⟩ := huser user rfl
  dsimp only
  split
  · rfl
  split
  · rfl
  refine Proc.Follows.exchange fun s' i' _ => ⟨.idle, haside _ _ (Undisturbed.of_db rfl rfl), ?_⟩
  dsimp only
  split
  · rfl
  split
  · rfl
  rename_i hused
  split
  · rfl
  have hnew : user.trialUntil = none := by
    simp only [Bool.or_eq_true, not_or, Option.isSome_iff_ne_none, ne_eq, not_not] at hused
    exact hused.1
  exact granting_grantTrial hseen hname hnew ip _

/-! ### Every session -/

/-- The end of a session: a start that succeeded has its trial, any other session
holds nothing. -/
def Visit.End (visit : Visit) (g : TrialStage) : Except Exn (Option StartedTrial) → Prop
  | .ok (some trial) => g = .done trial
      ∧ ∃ username ip, visit = .startTrial username ip ∧ trial.user.username = username
  | .ok none => g = .idle
  | .error _ => g = .idle

/-- A session that only ties Telegram accounts. -/
lemma Bystands.visit {p : Portal α} (visit : Visit) (hp : Bystands J (fun _ => True) p) :
    Granting cfg J Seen visit.End (p >>= fun _ => pure none) .idle :=
  hp.then TrialStage.idle_ne (fun _ _ => rfl) fun _ => rfl

/-- **Every session keeps to the protocol**, whatever runs beside it. -/
theorem granting_visit (hJ : ∀ s i, J s i → ∀ u ∈ s.db.users.rows, Seen u) (visit : Visit) :
    Granting cfg J Seen visit.End (visit.run cfg) .idle := by
  cases visit with
  | startTrial username ip =>
      refine Proc.Follows.bind (granting_startTrial hJ username ip) ?_ fun _ _ h => h
      rintro g trial ⟨rfl, hname⟩
      exact ⟨rfl, username, ip, rfl, hname⟩
  | tgLink username => exact (bystands_tgLink username).visit _
  | tgUnlink username => exact (bystands_tgUnlink username).visit _
  | tgLinkWebapp username => exact (bystands_tgLinkWebapp username).visit _
  | link chat token => exact (bystands_link chat token).visit _

end Programs

/-! ### All sessions together -/

/-- The two trials went to one account, one Telegram account or one inbox. -/
def SameHolder (cfg : Settings) (x y : StartedTrial) : Prop :=
  x.user.id = y.user.id
    ∨ (∃ chat, x.user.telegramId = some chat ∧ y.user.telegramId = some chat)
    ∨ ∃ a b, x.user.confirmedEmail = some a ∧ y.user.confirmedEmail = some b ∧ SameInbox cfg a b

/-- Trials of one holder have grants that clash. -/
lemma SameHolder.clash {cfg : Settings} {x y : StartedTrial} (h : SameHolder cfg x y)
    (hx : x.Sound cfg) (hy : y.Sound cfg) : Clash x.grant y.grant := by
  rcases h with heq | ⟨chat, hchat, hchat'⟩ | ⟨a, b, ha, hb, hsame⟩
  · refine Or.inr (Or.inr ?_)
    rw [hx.userId, hy.userId, heq]
    exact ⟨Option.some_ne_none _, rfl⟩
  · refine Or.inr (Or.inl ?_)
    rw [hx.telegramId, hy.telegramId, hchat, hchat']
    exact ⟨Option.some_ne_none _, rfl⟩
  · refine Or.inl ?_
    rw [hx.emailNorm, hy.emailNorm, ha, hb, Option.map_some, Option.map_some,
      normaliseEmail_of_sameInbox hsame]
    exact ⟨Option.some_ne_none _, rfl⟩

/-- A session that is done has ended. -/
lemma ended_of_done {cfg : Settings} {J : World → Input → Prop} {Seen : User → Prop} {visit : Visit}
    {p : Portal (Option StartedTrial)} {trial : StartedTrial}
    (h : Granting cfg J Seen visit.End p (.done trial)) (hJ : ∃ s i, J s i) :
    p.result? = some (.ok (some trial)) := by
  cases p with
  | ret o =>
      cases o with
      | none => cases (h : TrialStage.done trial = .idle)
      | some trial' => rw [TrialStage.done.inj (h : _ ∧ _).1]; rfl
  | raise e => cases (h : TrialStage.done trial = .idle)
  | step act next =>
      obtain ⟨s, i, hi⟩ := hJ
      obtain ⟨g, hstep, -⟩ := h s i hi
      cases hstep with
      | aside hg _ _ => exact absurd rfl (hg trial)

/-- A step marks the session exactly when it starts the trial. -/
lemma GrantStep.marks {cfg : Settings} {Seen : User → Prop} {g g' : TrialStage} {s t : World}
    (h : GrantStep cfg Seen g s g' t) :
    Marks TrialsKept g.isDone s g'.isDone t := by
  cases h with
  | aside _ hkept _ => exact Or.inr ⟨rfl, hkept⟩
  | flush _ _ _ => exact Or.inr ⟨rfl, TrialsKept.of_db rfl⟩
  | rollback => exact Or.inr ⟨rfl, TrialsKept.of_db rfl⟩
  | commit _ _ _ _ => exact Or.inl rfl

section Together

variable {κ : Type} [DecidableEq κ]

/-- The sessions side by side; at the start nobody holds a row. -/
def visiting (cfg : Settings) (visits : κ → Visit) (w : World) :
    Cfg κ World Input Exn (Option StartedTrial) :=
  ⟨{ w with flushed := [] }, fun k => (visits k).run cfg⟩

/-- The account was stored like this at some moment of the run. -/
def ReadIn (c : Cfg κ World Input Exn (Option StartedTrial)) (sched : List (κ × Input)) (user : User) :
    Prop :=
  ∃ s, Visits c sched s ∧ user ∈ s.db.users.rows

variable (cfg : Settings) (visits : κ → Visit) (w : World) (sched : List (κ × Input))

/-- The tally of a run. -/
lemma exists_tally :
    ∃ γ made, Tally cfg (ReadIn (visiting cfg visits w) sched) w
        ((visiting cfg visits w).run sched).state γ made
      ∧ ∀ k, Granting cfg (fun s _ => Visits (visiting cfg visits w) sched s)
        (ReadIn (visiting cfg visits w) sched) (visits k).End
        (((visiting cfg visits w).run sched).pool k) (γ k) := by
  have hread : ∀ s (_ : Input), Visits (visiting cfg visits w) sched s → ∀ u ∈ s.db.users.rows,
      ReadIn (visiting cfg visits w) sched u := fun s _ hs u hu => ⟨s, hs, hu⟩
  have hstart : Tallied cfg (ReadIn (visiting cfg visits w) sched) (visiting cfg visits w).state
      (visiting cfg visits w).state (fun _ : κ => .idle) := ⟨[], Tally.start rfl⟩
  obtain ⟨γ, ⟨made, htally⟩, hγ⟩ := exists_accounts hstart
    (fun k => granting_visit hread (visits k)) (fun _ _ _ _ _ h hstep => h.step hstep)
    ((admitted_visits (visiting cfg visits w) sched).mono fun _ _ _ h => h.1)
  exact ⟨γ, made, ⟨htally.nodup, htally.mem, htally.sound,
    ⟨htally.written.grants, htally.written.devices, htally.written.trials⟩, htally.apart,
    htally.fresh, htally.holds⟩, fun k => (hγ k).1⟩

/-- An account that was read was there from the start. -/
lemma isSome_trialOf {user : User} (h : ReadIn (visiting cfg visits w) sched user) :
    (trialOf w.db user.id).isSome := by
  obtain ⟨s, ⟨pre, -, rfl⟩, huser⟩ := h
  obtain ⟨γ, made, htally, -⟩ := exists_tally cfg visits w pre
  have hthere : (trialOf ((visiting cfg visits w).run pre).state.db user.id).isSome := by
    have hfind : ((visiting cfg visits w).run pre).state.db.users.find user.id = some user :=
      Table.find_of_mem huser
    rw [trialOf, hfind]
    rfl
  rw [htally.written.trials, Option.isSome_map] at hthere
  exact hthere

/-- A session that did not end in success has kept the trials. -/
lemma kept_of_refused {k : κ} {r : Except Exn (Option StartedTrial)}
    (hr : ((visiting cfg visits w).run sched).Ended k r)
    (hrefused : ∀ trial, r ≠ .ok (some trial)) :
    StepsWithin TrialsKept (visiting cfg visits w) sched k := by
  have hvisit : Granting cfg (fun _ _ => True) (fun _ => True) (visits k).End
      ((visits k).run cfg) .idle := granting_visit (fun _ _ _ _ _ => trivial) (visits k)
  refine steps_of_unmarked (fun s => TrialsKept.of_db rfl)
    (hvisit.map TrialStage.isDone (fun _ _ _ _ h => h.marks) ?_)
    (Admitted.of_forall (fun _ _ _ _ => trivial) _ sched) hr
  rintro g r' hend rfl
  cases r' with
  | ok o =>
      cases o with
      | none => rw [(hend : g = .idle)]; rfl
      | some trial => exact absurd rfl (hrefused trial)
  | error e => rw [(hend : g = .idle)]; rfl

/-- **One trial per inbox, all or nothing.** Whatever the order of the steps, the
tables hold what they held and, for each start that succeeded, its one grant,
its one device and its one end of a trial. No two of these starts are of the same
account, Telegram account or inbox, nor of one that already had a grant. A
session that did not end in success has kept grants, ends of trials and devices
at each of its steps, and it holds no row against a new attempt. -/
theorem trials_one_per_inbox :
    ∃ made : List (κ × StartedTrial),
      (made.map Prod.fst).Nodup
      ∧ (∀ k trial, (k, trial) ∈ made
        ↔ ((visiting cfg visits w).run sched).Ended k (.ok (some trial)))
      ∧ (∀ k trial, (k, trial) ∈ made → trial.Sound cfg
        ∧ ReadIn (visiting cfg visits w) sched trial.user
        ∧ ∃ username ip, visits k = .startTrial username ip ∧ trial.user.username = username)
      ∧ made.Pairwise (fun x y => ¬ SameHolder cfg x.2 y.2)
      ∧ (∀ k trial, (k, trial) ∈ made → ∀ g ∈ w.db.trialGrants.rows, ¬ Clash trial.grant g)
      ∧ Written w (made.map Prod.snd) ((visiting cfg visits w).run sched).state
      ∧ (∀ k trial, (k, trial) ∈ made →
        trialOf ((visiting cfg visits w).run sched).state.db trial.user.id = some (some trial.until_))
      ∧ (∀ k r, ((visiting cfg visits w).run sched).Ended k r → (∀ trial, r ≠ .ok (some trial)) →
        StepsWithin TrialsKept (visiting cfg visits w) sched k)
      ∧ ∀ row ∈ ((visiting cfg visits w).run sched).state.flushed,
        ∃ k, ∀ r, ¬ ((visiting cfg visits w).run sched).Ended k r := by
  obtain ⟨γ, made, htally, hγ⟩ := exists_tally cfg visits w sched
  have hvisits : ∃ s, ∃ _ : Input, Visits (visiting cfg visits w) sched s :=
    ⟨_, {}, [], List.nil_prefix, rfl⟩
  have hended : ∀ k trial, (k, trial) ∈ made
      ↔ ((visiting cfg visits w).run sched).Ended k (.ok (some trial)) := by
    intro k trial
    rw [htally.mem]
    constructor
    · intro hdone
      have hk := hγ k
      rw [hdone] at hk
      exact ended_of_done hk hvisits
    · intro hr
      exact ((hγ k).result hr).1
  refine ⟨made, htally.nodup, hended, fun k trial hmem => ?_, ?_, fun k trial hmem => ?_,
    htally.written, fun k trial hmem => ?_, fun k r hr hrefused => ?_, fun row hrow => ?_⟩
  · obtain ⟨hsound, hread⟩ := htally.sound k trial hmem
    exact ⟨hsound, hread, ((hγ k).result ((hended k trial).mp hmem)).2⟩
  · have hapart := (List.pairwise_append.mp htally.apart).1
    rw [List.map_map, List.pairwise_map] at hapart
    refine hapart.imp_of_mem fun {x y} hx hy hclash hsame => hclash ?_
    exact hsame.clash (htally.sound x.1 x.2 hx).1 (htally.sound y.1 y.2 hy).1
  · refine htally.fresh trial.grant (List.mem_append_left _ ?_)
    exact List.mem_map_of_mem (List.mem_map_of_mem hmem)
  · exact htally.trialOf_eq hmem (isSome_trialOf cfg visits w sched (htally.sound k trial hmem).2)
  · exact kept_of_refused cfg visits w sched hr hrefused
  · obtain ⟨k, hk⟩ := htally.holds.holder row hrow
    refine ⟨k, fun r hr => ?_⟩
    have hend := (hγ k).result hr
    rw [hk] at hend
    cases r with
    | ok o =>
        cases o with
        | none => cases (hend : TrialStage.held row = .idle)
        | some trial => cases (hend : _ ∧ _).1
    | error e => cases (hend : TrialStage.held row = .idle)

end Together

/-! ### Two spellings of one inbox -/

/-- Two accounts whose addresses are one inbox at Google. -/
def twoSpellingsOf : World where
  db := { users := ⟨[
    { id := 0, username := "ann", email := some "ann@gmail.com", emailVerifiedAt := some 0 },
    { id := 1, username := "anna", email := some "a.nn+x@googlemail.com", emailVerifiedAt := some 0 }],
    2, by decide, by decide⟩ }

/-- Both ask at the same time, step by step, up to the flush. The one that comes
first has its trial, and the other is told that this inbox has had one. -/
example :
    let i : Input := { keys := some ("K", "P"), add := fun _ _ => (.ok, {}) }
    let c := (visiting { trialEnabled := true, lower := id }
      (fun k : Bool => .startTrial (if k then "ann" else "anna") "192.0.2.1") twoSpellingsOf).run
        ((List.replicate 8 [(true, i), (false, i)]).flatten ++ List.replicate 6 (true, i)
          ++ [(false, i)])
    (c.state.db.trialGrants.rows.map TrialGrant.userId = [some 0] ∧ c.state.flushed = [])
      ∧ c.Ended false (.error (.http 409 (.text "trial_used"))) := by
  decide

end VpnPortal
