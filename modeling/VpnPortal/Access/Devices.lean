/-
No access, no device.

Revocation looks only at accounts found by flag and date, so it is complete only
if no operation leaves an active paid device behind a cleared flag, or a trial
device without a date. `Covered` is that invariant; `Covered.commit` checks it
for each kind of commit and `Reaches.covered` carries it over any run.

* `Covered`, `Covered.commit`, `Reaches.covered`: every active device is covered by its
  owner's account and every flag has a date; each kind of commit keeps that, and so
  every run;
* `JobEffect.clean`: what a job leaves whose removals are all confirmed;
* `no_access_no_device`: **no account without access has a device**: the invariant in
  every reachable state, and after a clean job active devices only where time is left.
-/
import VpnPortal.Access.Operations

namespace VpnPortal

open Sessions Tables

/-! ### The invariant -/

/-- Every active device is covered by its owner's account, and every flag has a
date. -/
structure Covered (db : Db) : Prop where
  paid : ∀ c ∈ db.configs.rows, c.isActive = true → c.kind ≠ .trial →
    ∃ u, db.users.find c.userId = some u ∧ u.isSubscribed = true
  trial : ∀ c ∈ db.configs.rows, c.isActive = true → c.kind = .trial →
    ∃ u, db.users.find c.userId = some u ∧ u.trialUntil.isSome = true
  dated : ∀ n u, db.users.find n = some u → u.isSubscribed = true → u.subscribedUntil.isSome = true

/-- Accounts keep their flags and trial dates, and new flags come with a date. -/
structure AccountsKept (users users' : Table User) : Prop where
  kept : ∀ n u, users.find n = some u → ∃ u', users'.find n = some u'
    ∧ (u.isSubscribed = true → u'.isSubscribed = true)
    ∧ (u.trialUntil.isSome = true → u'.trialUntil.isSome = true)
  dated : ∀ n u', users'.find n = some u' → u'.isSubscribed = true →
    u'.subscribedUntil.isSome = true

/-- The step lemma: accounts are kept, and an active row is an old one or one
that its owner covers. -/
lemma Covered.step {db db' : Db} (h : Covered db) (hu : AccountsKept db.users db'.users)
    (hc : ∀ c ∈ db'.configs.rows, c.isActive = true → c ∈ db.configs.rows
      ∨ ∃ u, db'.users.find c.userId = some u
        ∧ (c.kind ≠ .trial → u.isSubscribed = true)
        ∧ (c.kind = .trial → u.trialUntil.isSome = true)) : Covered db' where
  paid c hrow hact hkind := by
    rcases hc c hrow hact with hold | ⟨u, hfind, hpaid, -⟩
    · obtain ⟨u, hfind, hsub⟩ := h.paid c hold hact hkind
      obtain ⟨u', hfind', hsub', -⟩ := hu.kept _ u hfind
      exact ⟨u', hfind', hsub' hsub⟩
    · exact ⟨u, hfind, hpaid hkind⟩
  trial c hrow hact hkind := by
    rcases hc c hrow hact with hold | ⟨u, hfind, -, htrial⟩
    · obtain ⟨u, hfind, hdate⟩ := h.trial c hold hact hkind
      obtain ⟨u', hfind', -, hdate'⟩ := hu.kept _ u hfind
      exact ⟨u', hfind', hdate' hdate⟩
    · exact ⟨u, hfind, htrial hkind⟩
  dated := hu.dated

lemma AccountsKept.same {db : Db} (h : Covered db) : AccountsKept db.users db.users :=
  ⟨fun _ u hu => ⟨u, hu, fun h => h, fun h => h⟩, h.dated⟩

/-- One account saved by a session that loaded it as it is. -/
lemma AccountsKept.save {db : Db} (h : Covered db) {user new : User}
    (hu : db.users.find user.id = some user)
    (hsub : user.isSubscribed = true → (User.merge user new user).isSubscribed = true)
    (htrial : user.trialUntil.isSome = true → (User.merge user new user).trialUntil.isSome = true)
    (hdated : (User.merge user new user).isSubscribed = true →
      (User.merge user new user).subscribedUntil.isSome = true) :
    AccountsKept db.users (saveAccount db.users user new) := by
  have hself := find_saveAccount_self new hu
  constructor
  · intro n u hn
    by_cases heq : n = user.id
    · subst heq
      obtain rfl := Option.some.inj (hu.symm.trans hn)
      exact ⟨_, hself, hsub, htrial⟩
    · exact ⟨u, by rw [find_saveAccount_of_ne heq]; exact hn, fun h => h, fun h => h⟩
  · intro n u' hn hflag
    by_cases heq : n = user.id
    · subst heq
      obtain rfl := Option.some.inj (hself.symm.trans hn)
      exact hdated hflag
    · rw [find_saveAccount_of_ne heq] at hn
      exact h.dated n u' hn hflag

/-- Accounts rewritten row by row. -/
lemma AccountsKept.of_map {db : Db} {users' : Table User} {g : User → User} (h : Covered db)
    (hg : ∀ u, (g u).id = u.id) (hrows : users'.rows = db.users.rows.map g)
    (hsub : ∀ u, (g u).isSubscribed = u.isSubscribed)
    (htrial : ∀ u, (g u).trialUntil = u.trialUntil)
    (hdate : ∀ u, (g u).subscribedUntil.isSome = u.subscribedUntil.isSome) :
    AccountsKept db.users users' := by
  have hfind := Table.find_of_rows_map (t := db.users) (u := users') (g := g) hg hrows
  constructor
  · intro n u hn
    refine ⟨g u, by rw [hfind, hn]; rfl, fun h => ?_, fun h => ?_⟩
    · rw [hsub]; exact h
    · rw [htrial]; exact h
  · intro n u' hn hflag
    rw [hfind] at hn
    obtain ⟨u, hu, rfl⟩ := Option.map_eq_some_iff.mp hn
    rw [hdate]
    rw [hsub] at hflag
    exact h.dated n u hu hflag

/-- Switching devices off leaves no new active row. -/
lemma mem_of_switchOff {configs : Table Config} {off : List ℕ} {c : Config}
    (hc : c ∈ (off.foldl switchOff configs).rows) (hact : c.isActive = true) :
    c ∈ configs.rows := by
  rw [rows_foldl_switchOff] at hc
  obtain ⟨x, hx, rfl⟩ := List.mem_map.mp hc
  split at hact
  · simp [Config.off] at hact
  · rename_i hnot
    rw [if_neg hnot]
    exact hx

lemma mem_of_map_off {configs : List Config} {p : Config → Bool} {c : Config}
    (hc : c ∈ configs.map fun c => if p c then c.off else c) (hact : c.isActive = true) :
    c ∈ configs ∧ p c = false := by
  obtain ⟨x, hx, rfl⟩ := List.mem_map.mp hc
  cases hp : p x with
  | true => rw [hp, if_pos rfl] at hact; simp [Config.off] at hact
  | false =>
      rw [if_neg (by simp)]
      exact ⟨hx, hp⟩

/-! ### One commit -/

lemma covered_activation {db : Db} (h : Covered db) {user : User} {payment : Payment}
    {a : Activation} (hu : db.users.find user.id = some user) (ha : a.Drawn db.books user payment) :
    Covered (a.write db) := by
  have hself := ha.find_user hu
  obtain ⟨info, hinfo, -⟩ := ha.new_eq
  have hkept : AccountsKept db.users (a.write db).users := by
    rw [Activation.write_eq, ha.old_eq]
    refine AccountsKept.save h hu ?_ ?_ ?_
    · intro _
      rw [ha.merge_eq]
      exact ha.isSubscribed
    · intro hdate
      rw [ha.merge_eq]
      rcases ha.trialUntil with htrial | htrial
      · rw [htrial]; exact hdate
      · rw [htrial]; rfl
    · intro _
      rw [ha.merge_eq, ha.until_eq hinfo]
      rfl
  refine h.step hkept fun c hc hact => ?_
  have hconfigs : (a.write db).configs = a.addDevice db.configs := by rw [Activation.write_eq]
  rw [hconfigs] at hc
  unfold Activation.addDevice at hc
  cases hdev : a.device with
  | none => rw [hdev] at hc; exact Or.inl hc
  | some d =>
      rw [hdev, Table.rows_insert] at hc
      rcases List.mem_append.mp hc with hc | hc
      · exact Or.inl hc
      · -- the first device belongs to the account that was just flagged
        obtain ⟨hown, hkind, -⟩ := ha.device_for d hdev
        rw [List.mem_singleton.mp hc]
        refine Or.inr ⟨a.new, ?_, fun _ => ha.isSubscribed, fun htrial => ?_⟩
        · rw [← hown] at hself
          exact hself
        · dsimp only at htrial
          rw [hkind] at htrial
          cases htrial

lemma covered_subs {db db' : Db} (h : Covered db) {reply : Config → Reply} {t : Time}
    {stats : SweepStats} (he : SubsEffect reply t db stats db') : Covered db' := by
  constructor
  · intro c hc hact hkind
    rw [he.devices] at hc
    obtain ⟨hrow, hnot⟩ := mem_of_map_off hc hact
    obtain ⟨u, hu, hsub⟩ := h.paid c hrow hact hkind
    refine ⟨u.swept db reply t, by rw [he.find_user, hu]; rfl, ?_⟩
    rw [User.swept_isSubscribed, hsub, Bool.true_and, Bool.not_eq_true']
    cases hdue : u.isDue t with
    | false => rfl
    | true =>
        -- a cleared account has had this device confirmed, so it would be off
        by_contra hcleared
        have hown : c.userId = u.id := (Table.mem_of_find hu).2.symm
        have hheld : c ∈ heldBy db.configs.rows u.id :=
          List.mem_filter.mpr ⟨hrow, by simp [hown, hact]⟩
        have hall : cleared db reply u = true := by simpa using hcleared
        have hconf : confirmed reply c = true := List.all_eq_true.mp hall c hheld
        have hpaid : paidDue db t c = true := by simp [paidDue, hact, hu, hdue]
        rw [hpaid, hconf] at hnot
        cases hnot
  · intro c hc hact hkind
    rw [he.devices] at hc
    obtain ⟨hrow, -⟩ := mem_of_map_off hc hact
    obtain ⟨u, hu, hdate⟩ := h.trial c hrow hact hkind
    refine ⟨u.swept db reply t, by rw [he.find_user, hu]; rfl, ?_⟩
    rw [User.swept_trialUntil]
    exact hdate
  · intro n u' hn hflag
    rw [he.find_user] at hn
    obtain ⟨u, hu, rfl⟩ := Option.map_eq_some_iff.mp hn
    rw [User.swept_isSubscribed, Bool.and_eq_true] at hflag
    rw [User.swept_subscribedUntil]
    exact h.dated n u hu hflag.1

/-- **Every commit keeps the invariant.** -/
theorem Covered.commit {cfg : Settings} {t : Time} {db db' : Db} (h : Covered db)
    (hc : Commit cfg t db db') : Covered db' := by
  cases hc with
  | activation hu ha hat => exact covered_activation h hu ha
  | off hoff =>
      obtain ⟨off, -, rfl⟩ := hoff
      rw [Db.foldl_deactivate]
      exact h.step (AccountsKept.same h) fun c hc hact => Or.inl (mem_of_switchOff hc hact)
  | @assign user hu req =>
      refine h.step (AccountsKept.save h hu ?_ ?_ ?_) fun c hc _ => Or.inl hc
      · intro _; simp [User.merge, assigned]
      · intro hdate; simpa [User.merge, assigned] using hdate
      · intro _; simp [User.merge, assigned]
  | rewards sent =>
      obtain ⟨users, notices, hrows, hdb⟩ := rewards_commit_eq t sent db
      rw [hdb]
      refine h.step (AccountsKept.of_map h (credited_id db.books t) hrows ?_ ?_ ?_)
        fun c hc _ => Or.inl hc
      · exact fun _ => rfl
      · exact fun _ => rfl
      · intro u
        simp [credited, User.extend]
  | subs he => exact covered_subs h he
  | trials he =>
      have husers : db'.users = db.users := by rw [he.rest]
      refine h.step (by rw [husers]; exact AccountsKept.same h) fun c hc hact => Or.inl ?_
      rw [he.devices] at hc
      exact (mem_of_map_off hc hact).1
  | notices hdb =>
      have husers : db'.users = db.users := by rw [hdb]
      have hconfigs : db'.configs = db.configs := by rw [hdb]
      refine h.step (by rw [husers]; exact AccountsKept.same h) fun c hc _ => Or.inl ?_
      rw [← hconfigs]
      exact hc
  | @trial user device norm ip began hu hnew hd =>
      have hself := find_saveAccount_self { user with trialUntil := some (trialEnd cfg t) } hu
      refine h.step (AccountsKept.save h hu ?_ ?_ ?_) fun c hc hact => ?_
      · intro hsub; simpa [User.merge] using hsub
      · intro _; simp [User.merge]
      · intro hflag
        have hsub : user.isSubscribed = true := by simpa [User.merge] using hflag
        simpa [User.merge] using h.dated user.id user hu hsub
      · rcases List.mem_append.mp hc with hc | hc
        · exact Or.inl hc
        · rw [List.mem_singleton.mp hc]
          refine Or.inr ⟨User.merge user { user with trialUntil := some (trialEnd cfg t) } user, ?_,
            fun hkind => absurd hd.2.1 hkind, fun _ => by simp [User.merge]⟩
          rw [← hd.1] at hself
          exact hself
  | @add user device hu hlive hd =>
      refine h.step (AccountsKept.same h) fun c hc hact => ?_
      rcases List.mem_append.mp hc with hc | hc
      · exact Or.inl hc
      · rw [List.mem_singleton.mp hc]
        refine Or.inr ⟨user, ?_, fun _ => ?_, fun hkind => ?_⟩
        · dsimp only
          rw [hd.1]
          exact hu
        · unfold hasActiveSubscription at hlive
          cases hsub : user.isSubscribed with
          | true => rfl
          | false => simp [hsub] at hlive
        · have hpaid : device.kind = .trial := hkind
          rw [hd.2.1] at hpaid
          cases hpaid
  | @drop user device hu others =>
      have hmerge : User.merge user (afterRemoval user device others) user
          = afterRemoval user device others := by
        unfold afterRemoval
        split <;> simp [User.merge]
      have hflag : (afterRemoval user device others).isSubscribed = user.isSubscribed
          ∧ (afterRemoval user device others).trialUntil = user.trialUntil
          ∧ (afterRemoval user device others).subscribedUntil = user.subscribedUntil := by
        unfold afterRemoval
        split <;> exact ⟨rfl, rfl, rfl⟩
      refine h.step (AccountsKept.save h hu ?_ ?_ ?_) fun c hc hact => Or.inl ?_
      · rw [hmerge, hflag.1]; exact fun h => h
      · rw [hmerge, hflag.2.1]; exact fun h => h
      · rw [hmerge, hflag.1, hflag.2.2]
        exact h.dated user.id user hu
      · exact @mem_of_switchOff _ [device.id] _ hc hact

lemma Covered.moves {cfg : Settings} {w w' : World} (h : Covered w.db) (hm : Moves cfg w w') :
    Covered w'.db := by
  induction hm with
  | refl => exact h
  | tail _ hmove ih =>
      obtain ⟨-, hdb | hcommit⟩ := hmove
      · rw [hdb]; exact ih
      · exact ih.commit hcommit

/-! ### Whole runs -/

/-- The worlds that operations, one after another, lead to, whatever the clock,
the keys and the nodes answer. -/
inductive Reaches (cfg : Settings) (w₀ : World) : World → Prop where
  | start : Reaches cfg w₀ w₀
  | step {w w' : World} {r : Except Exn (Option ℕ)} (op : Op) :
      Reaches cfg w₀ w → Proc.Runs anyInput (op.run cfg) w r w' → Reaches cfg w₀ w'

/-- Registered accounts before anything was bought or tried. -/
structure Fresh (db : Db) : Prop where
  noDevices : db.configs.rows = []
  noFlags : ∀ u ∈ db.users.rows, u.isSubscribed = false

lemma Fresh.covered {db : Db} (h : Fresh db) : Covered db where
  paid c hc := by rw [h.noDevices] at hc; cases hc
  trial c hc := by rw [h.noDevices] at hc; cases hc
  dated n u hn hflag := by
    rw [h.noFlags u (Table.mem_of_find hn).1] at hflag
    cases hflag

/-- The run lemma. -/
lemma Reaches.covered {cfg : Settings} {w₀ w : World} (h : Reaches cfg w₀ w)
    (h₀ : Covered w₀.db) : Covered w.db := by
  induction h with
  | start => exact h₀
  | step op _ hrun ih => exact ih.moves (moves_op op hrun)

/-! ### A clean job -/

/-- Every active device's owner still has the time it needs: paid up to `t`, or
a trial beyond `t'`. -/
def Clean (t t' : Time) (db : Db) : Prop :=
  ∀ c ∈ db.configs.rows, c.isActive = true → ∃ u, db.users.find c.userId = some u
    ∧ (c.kind ≠ .trial → ∃ x, u.subscribedUntil = some x ∧ t ≤ x)
    ∧ (c.kind = .trial → ∃ x, u.trialUntil = some x ∧ t' < x)

section

variable {cfg : Settings} {tick : Time → Time} {ans : ℕ → String → Config → Reply}

/-- Every removal that the sweeps at `t` and `t'` ask for is confirmed. -/
def AllConfirmed (cfg : Settings) (ans : ℕ → String → Config → Reply) (t t' : Time) (w : World) :
    Prop :=
  ∀ c ∈ w.db.configs.rows, (paidDue w.db t c || trialDue w.db t' c) = true →
    replies cfg ans w c = .ok

/-- After a confirmed sweep no flagged account has run out. -/
lemma until_ge_of_confirmed {db db' : Db} {reply : Config → Reply} {t : Time} {stats : SweepStats}
    (he : SubsEffect reply t db stats db')
    (hall : ∀ c ∈ db.configs.rows, paidDue db t c = true → reply c = .ok) {n : ℕ} {u : User}
    {x : Time} (hu : db'.users.find n = some u) (hsub : u.isSubscribed = true)
    (hx : u.subscribedUntil = some x) : t ≤ x := by
  rw [he.find_user] at hu
  obtain ⟨v, hv, rfl⟩ := Option.map_eq_some_iff.mp hu
  rw [User.swept_subscribedUntil] at hx
  rw [User.swept_isSubscribed, Bool.and_eq_true] at hsub
  by_contra hlt
  have hdue : v.isDue t = true := by
    simp only [User.isDue, hsub.1, hx, Option.any_some, Bool.true_and, decide_eq_true_eq]
    exact not_le.mp hlt
  have hcleared : cleared db reply v = true := by
    refine List.all_eq_true.mpr fun c hc => ?_
    obtain ⟨hrow, hown⟩ := List.mem_filter.mp hc
    obtain ⟨hid, hact⟩ := of_decide_eq_true hown
    have hfind : db.users.find c.userId = some v := by
      rw [hid]; exact Table.find_of_mem (Table.mem_of_find hv).1
    exact decide_eq_true (hall c hrow (by simp [paidDue, hact, hfind, hdue]))
  simp [hdue, hcleared] at hsub

/-- With every removal confirmed no call of the job raises. -/
lemma AllConfirmed.quiet {w : World}
    (hall : AllConfirmed cfg ans (reading tick w.clock) (reading tick (reading tick w.clock)) w) :
    JobQuiet cfg tick ans w := by
  constructor
  · intro c hc hdue
    rw [hall c hc (by rw [hdue]; rfl)]
    simp
  · intro c hc htrial hoff
    have hok : replies cfg ans w c = .ok := hall c hc (by rw [htrial, Bool.or_true])
    have hpaid : paidDue w.db (reading tick w.clock) c = false := by simpa [hok] using hoff
    rw [hpaid]
    exact fun hraised => by
      have : replies cfg ans w c = .raised := hraised
      rw [hok] at this
      cases this

/-- What a job leaves whose removals are all confirmed. -/
lemma JobEffect.clean {w : World} {db' : Db} (h : JobEffect cfg tick ans w db')
    (hcov : Covered w.db)
    (hall : AllConfirmed cfg ans (reading tick w.clock) (reading tick (reading tick w.clock)) w) :
    Clean (reading tick w.clock) (reading tick (reading tick w.clock)) db' := by
  obtain ⟨stats, mid, reply, stats', db, hsubs, hreply, htrials, hdb'⟩ := h
  have hpaid : ∀ c ∈ w.db.configs.rows, paidDue w.db (reading tick w.clock) c = true →
      replies cfg ans w c = .ok := fun c hc hdue => hall c hc (by rw [hdue]; rfl)
  have hcovMid : Covered mid := covered_subs hcov hsubs
  have husers : db'.users = mid.users := by rw [hdb', htrials.rest]
  have hconfigs : db'.configs = db.configs := by rw [hdb']
  intro c hc hact
  rw [hconfigs, htrials.devices] at hc
  obtain ⟨hrow, hleft⟩ := mem_of_map_off hc hact
  rw [husers]
  by_cases hkind : c.kind = .trial
  · obtain ⟨u, hu, hdate⟩ := hcovMid.trial c hrow hact hkind
    obtain ⟨x, hx⟩ := Option.isSome_iff_exists.mp hdate
    refine ⟨u, hu, fun h => absurd hkind h, fun _ => ⟨x, hx, ?_⟩⟩
    by_contra hle
    -- an ended trial is due in the second sweep, and was confirmed there
    have hdue : trialDue mid (reading tick (reading tick w.clock)) c = true := by
      simp [trialDue, hkind, hact, hu, hx, not_lt.mp hle]
    obtain ⟨hrow', hdue', hoff⟩ := (mem_trialDue_after hsubs).mp ⟨hrow, hdue⟩
    have hok : replies cfg ans w c = .ok := hall c hrow' (by rw [hdue', Bool.or_true])
    have hnot : paidDue w.db (reading tick w.clock) c = false := by simpa [hok] using hoff
    have hok' : reply c = .ok := by
      rw [hreply c hrow', hnot]
      exact hok
    rw [hdue] at hleft
    simp [hok'] at hleft
  · obtain ⟨u, hu, hsub⟩ := hcovMid.paid c hrow hact hkind
    obtain ⟨x, hx⟩ := Option.isSome_iff_exists.mp (hcovMid.dated _ u hu hsub)
    exact ⟨u, hu, fun _ => ⟨x, hx, until_ge_of_confirmed hsubs hpaid hu hsub hx⟩,
      fun h => absurd h hkind⟩

/-- **No access, no device.** In every state that operations lead to from a fresh
database, an account without the flag has no active paid device and the owner of
an active trial device has a trial date. So a job whose removals are all
confirmed leaves active devices only to accounts that still have the time: its
sweeps read the clock after the reward stage did. -/
theorem no_access_no_device (cfg : Settings) {w₀ w : World} (h₀ : Fresh w₀.db)
    (h : Reaches cfg w₀ w) :
    (∀ u ∈ w.db.users.rows, u.isSubscribed = false → ∀ c ∈ w.db.configs.rows,
      c.userId = u.id → c.isActive = true → c.kind = .trial)
    ∧ (∀ c ∈ w.db.configs.rows, c.isActive = true → c.kind = .trial →
      ∃ u, w.db.users.find c.userId = some u ∧ u.trialUntil ≠ none)
    ∧ ∀ (tick : Time → Time) (ans : ℕ → String → Config → Reply) (t t' : Time),
      t = reading tick (reading tick w.clock) → t' = reading tick t →
      (∀ stats w₁, Proc.Runs (Answers tick ans) applyDueRewards w (.ok stats) w₁ →
        AllConfirmed cfg ans t t' w₁) →
      Proc.Ends (Answers tick ans) (fun r w' => r = .ok () ∧ Clean t t' w'.db) (hourlyJob cfg) w := by
  have hcov : Covered w.db := h.covered h₀.covered
  refine ⟨?_, ?_, ?_⟩
  · intro u hu hflag c hc hown hact
    by_contra hkind
    obtain ⟨v, hv, hsub⟩ := hcov.paid c hc hact hkind
    have hfind : w.db.users.find u.id = some u := Table.find_of_mem hu
    rw [hown, hfind] at hv
    obtain rfl := Option.some.inj hv
    rw [hflag] at hsub
    cases hsub
  · intro c hc hact hkind
    obtain ⟨u, hu, hdate⟩ := hcov.trial c hc hact hkind
    exact ⟨u, hu, Option.isSome_iff_ne_none.mp hdate⟩
  · rintro tick ans _ _ rfl rfl hall
    refine ⟨Proc.exists_runs (exists_answers tick ans) _ w, fun r w' hrun => ?_⟩
    rcases Proc.runs_bind.mp hrun with ⟨e, hrun', -⟩ | ⟨stats, w₁, hrun', hrest⟩
    · obtain ⟨-, ⟨stats, hr⟩, -⟩ := (alone_applyDueRewards_at.runs hrun').2
      cases hr
    · obtain ⟨⟨i, hi, hclock⟩, -, sent, hdb⟩ := (alone_applyDueRewards_at.runs hrun').2
      have htime : w₁.clock = reading tick w.clock := by rw [hclock, hi.1]; rfl
      have hcov₁ : Covered w₁.db := by
        rw [hdb]
        exact hcov.commit (Commit.rewards sent : Commit cfg _ _ _)
      have hall₁ := hall stats w₁ hrun'
      rw [← htime] at hall₁ ⊢
      rcases ((alone_sweepStages w₁).runs hrest).2 with ⟨-, hr, heffect⟩ | ⟨hnot, -⟩
      · exact ⟨hr, heffect.clean hcov₁ hall₁⟩
      · exact absurd hall₁.quiet hnot

/-- A job after that month takes the device off, since every removal is
confirmed. -/
theorem no_access_no_device_afterPurchase :
    (afterPurchase.db.configs.rows.map Config.isActive = [true])
      ∧ ∀ r w', Proc.Runs (Answers (fun _ => days 31) fun _ _ _ => .ok) (hourlyJob {})
          afterPurchase r w' → r = .ok () ∧ Clean (days 31) (days 31) w'.db := by
  have hfresh : Fresh oneAccount.db := ⟨rfl, by decide⟩
  have hreach : Reaches {} oneAccount afterPurchase :=
    .step (.activate monthOrder) .start (Proc.runs_play (fun _ => trivial) _ _)
  refine ⟨by decide, fun r w' hrun => ?_⟩
  refine ((no_access_no_device {} hfresh hreach).2.2 (fun _ => days 31) (fun _ _ _ => .ok)
    (days 31) (days 31) (by decide) (by decide) ?_).2 r w' hrun
  intro stats w₁ hrun₁ c hc _
  obtain ⟨-, -, sent, hdb⟩ := (alone_applyDueRewards_at.runs hrun₁).2
  obtain ⟨users, notices, -, hcommit⟩ := rewards_commit_eq w₁.clock sent afterPurchase.db
  have hconfigs : w₁.db.configs = afterPurchase.db.configs := by rw [hdb, hcommit]
  rw [hconfigs] at hc
  have hloc : ∀ c ∈ afterPurchase.db.configs.rows,
      ({} : Settings).getLocation c.locationKey = some ⟨"de", "de-entry"⟩ := by decide
  rw [replies, replyFor, hloc c hc]

end

end VpnPortal
