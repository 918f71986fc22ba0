/-
What an activation reads and writes, as a fact about its text.

The tables an activation decides on are its `Books`: accounts, orders, codes,
ledger and rewards. As long as nobody else changes them, everything
`activate_payment` reads is a function of the books it started from, and it
changes them in one commit: `once_activatePayment`. `Activation.Drawn` says
which unit of work that commit carries.

The facts hold for any observation `π` of the database that sees the books, so
they serve a session that runs alone and one among others.

* `Books`, `rewardOf`, `spendOf`, `Activation.Drawn`: the tables, and the unit of work
  drawn from them;
* `reads_issueConfig`, `reads_spendOnPayment`, `reads_rewardForPayment`,
  `reads_applyRewardsFor`: the parts before the commit change nothing and return what
  the books say;
* `within_finishActivation`: the part after it only switches devices off;
* `once_completeActivation`, `once_activatePayment`: **an activation leaves the books
  alone until one commit**, of the unit of work drawn from them.
-/
import VpnPortal.Services.Subscriptions

namespace VpnPortal

open Sessions Tables

/-- The tables an activation decides on. -/
@[ext]
structure Books where
  users : Table User
  payments : Table Payment
  promoCodes : Table PromoCode
  creditEntries : Table CreditEntry
  referralRewards : Table ReferralReward

/-- The books of a database. -/
def Db.books (db : Db) : Books where
  users := db.users
  payments := db.payments
  promoCodes := db.promoCodes
  creditEntries := db.creditEntries
  referralRewards := db.referralRewards

/-- The books of the world. -/
def World.books (w : World) : Books := w.db.books

/-- The books do not see which devices are on. -/
@[simp] lemma books_foldl_deactivate (off : List ℕ) (db : Db) :
    (off.foldl Db.deactivate db).books = db.books := by
  rw [Db.foldl_deactivate]; rfl

/-! ### The unit of work an activation draws from the books -/

/-- The owner of the code an order carries. -/
def codeOwner (b : Books) (payment : Payment) : Option ℕ :=
  (payment.promoCode.filter (· ≠ "")).bind fun code =>
    (b.promoCodes.rows.find? fun c => c.code = code).bind PromoCode.ownerUserId

/-- The reward a payment earns, read off the books: the code has an owner who
is not the buyer, something was paid in cash, and no reward is recorded yet. -/
def rewardOf (b : Books) (payment : Payment) (t : Time) : Option ReferralReward :=
  match codeOwner b payment with
  | none => none
  | some owner =>
      if owner = payment.userId ∨ (planInfo (some payment.plan)).isNone ∨ payment.amount ≤ 0
          ∨ (b.referralRewards.rows.any fun r => r.sourcePaymentId = payment.id) = true
      then none
      else some { id := 0, referrerUserId := owner, sourcePaymentId := payment.id,
                  days := referralRewardDays, vestsAt := t + days rewardVestingDays }

/-- The entry a payment spends, read off the books. -/
def spendOf (b : Books) (payment : Payment) : Option CreditEntry :=
  if payment.creditSpent ≤ 0 ∨ spendsOf b.creditEntries.rows payment.id ≠ [] then none
  else some (spendEntry payment)

/-- The days of a list of rewards. -/
def rewardDays (rewards : List ReferralReward) : ℤ := (rewards.map ReferralReward.days).sum

/-- The rewards an account is given at the time `t`. -/
def creditsFor (b : Books) (t : Time) (user : User) : List ReferralReward :=
  if subscribed user t then dueRewards b.referralRewards.rows user.id t else []

/-- An account with its due rewards on top. -/
def credited (b : Books) (t : Time) (user : User) : User :=
  user.extend (rewardDays (creditsFor b t user))

/-- A device row that `issue_config` hands to an activation. -/
def Config.FirstFor (c : Config) (user : User) : Prop :=
  c.userId = user.id ∧ c.kind = .paid ∧ c.isActive = true

/-- The unit of work `a` is what an activation of `payment` for `user` computes
from the books `b`. -/
structure Activation.Drawn (b : Books) (user : User) (payment : Payment) (a : Activation) :
    Prop where
  old_eq : a.old = user
  payment_eq : a.payment = payment
  new_eq : ∃ info, planInfo (some payment.plan) = some info
    ∧ a.new = closeTrial ((activated user payment info a.device a.at_).extend
        (rewardDays a.applied)) a.at_
  spend_eq : a.spend = spendOf b payment
  reward_eq : a.reward = rewardOf b payment a.at_
  applied_eq : a.applied = dueRewards b.referralRewards.rows user.id a.at_
  device_for : ∀ c, a.device = some c → c.FirstFor user
  sent_to : ∀ n ∈ a.sent, n.userId = user.id

@[simp] lemma days_zero : days 0 = 0 := by simp [days]

lemma days_add (m n : ℤ) : days (m + n) = days m + days n := by
  unfold days; ring

lemma days_pos {n : ℤ} (h : 0 < n) : 0 < days n := by
  unfold days; positivity

@[simp] lemma User.extend_id (u : User) (n : ℤ) : (u.extend n).id = u.id := rfl

@[simp] lemma User.extend_zero (u : User) : u.extend 0 = u := by
  cases u; simp [User.extend]

lemma User.extend_add (u : User) (m n : ℤ) : (u.extend m).extend n = u.extend (m + n) := by
  cases u with
  | mk id name email act sub ip plan until_ ver trial ref tg =>
      cases until_ with
      | none => rfl
      | some x => simp [User.extend, days_add, add_assoc]

/-- The purchase makes the subscription live, so its rewards are looked up. -/
lemma subscribed_activated {payment : Payment} {info : PlanInfo}
    (hinfo : planInfo (some payment.plan) = some info) (user : User) (device : Option Config)
    (t : Time) : subscribed (activated user payment info device t) t = true := by
  have hdays : 0 < days info.days := days_pos (planInfo_days_pos hinfo)
  have hmax : t ≤ max t (user.subscribedUntil.getD t) := le_max_left _ _
  simp only [subscribed, activated, extendedUntil, Option.any_some, Bool.true_and,
    decide_eq_true_eq]
  exact lt_of_le_of_lt hmax (lt_add_of_pos_right _ hdays)

section

variable {D : Type} {π : World → D} {J : World → Input → Prop} {d : D} {b : Books}
variable {P : Time → Prop} {E R : World → World → Prop}

/-! ### The parts before the commit -/

/-- A message is looked up and, at most, added for this account. -/
lemma reads_notify (sent : List NewNotice) (user : User) (kind : NoticeKind)
    (dedupe : Option DedupeKey) :
    Proc.Reads J π d (fun r => ∃ o, r = .ok o ∧ ∀ n, o = some n → n.userId = user.id)
      (notify sent user kind dedupe) := by
  unfold notify
  cases dedupe with
  | none => exact ⟨_, rfl, fun n h => by cases h; rfl⟩
  | some key =>
      refine Proc.Once.look fun s _ => ?_
      split
      · exact ⟨_, rfl, fun n h => by cases h⟩
      · exact ⟨_, rfl, fun n h => by cases h; rfl⟩

/-- A query whose answer is the same in every state that is seen as `d`. -/
lemma once_select {α β : Type} {N' C' : Except Exn β → Prop} {q : Db → α} {v : α}
    {f : α → Portal β} (hq : ∀ s : World, π s = d → q s.db = v)
    (hf : Proc.Once J π d E R N' C' (f v)) : Proc.Once J π d E R N' C' (select q >>= f) := by
  refine Proc.Once.look fun s hs => ?_
  rw [hq s hs]
  exact hf

lemma reads_spendOnPayment (hb : ∀ s, π s = d → s.db.books = b) (payment : Payment) :
    Proc.Reads J π d (fun r => r = .ok (spendOf b payment)) (spendOnPayment payment) := by
  unfold spendOnPayment spendOf
  by_cases hc : payment.creditSpent ≤ 0
  · rw [if_pos hc, if_pos (Or.inl hc)]
    exact rfl
  · rw [if_neg hc]
    refine once_select (v := spendsOf b.creditEntries.rows payment.id)
      (fun s hs => by rw [← hb s hs]; rfl) ?_
    by_cases he : spendsOf b.creditEntries.rows payment.id = []
    · rw [if_neg (by simp [hc, he]), if_pos (by rw [he]; rfl)]
      exact rfl
    · rw [if_pos (Or.inr he), if_neg (by simpa using he)]
      exact rfl

lemma reads_rewardForPayment (hb : ∀ s, π s = d → s.db.books = b) (payment : Payment) (t : Time) :
    Proc.Reads J π d (fun r => r = .ok (rewardOf b payment t)) (rewardForPayment payment t) := by
  unfold rewardForPayment rewardOf codeOwner
  cases payment.promoCode.filter (· ≠ "") with
  | none => exact rfl
  | some code =>
      refine once_select (v := b.promoCodes.rows.find? fun c => c.code = code)
        (fun s hs => by rw [← hb s hs]; rfl) ?_
      rw [Option.bind_some]
      cases (b.promoCodes.rows.find? fun c => c.code = code).bind PromoCode.ownerUserId with
      | none => exact rfl
      | some owner =>
          dsimp only
          by_cases h1 : owner = payment.userId
          · rw [if_pos (Or.inl h1), if_pos h1]; exact rfl
          by_cases h2 : (planInfo (some payment.plan)).isNone = true
          · rw [if_pos (Or.inr (Or.inl h2)), if_neg h1, if_pos h2]; exact rfl
          by_cases h3 : payment.amount ≤ 0
          · rw [if_pos (Or.inr (Or.inr (Or.inl h3))), if_neg h1, if_neg h2, if_pos h3]; exact rfl
          rw [if_neg h1, if_neg h2, if_neg h3]
          refine once_select (v := b.referralRewards.rows.any fun r => r.sourcePaymentId = payment.id)
            (fun s hs => by rw [← hb s hs]; rfl) ?_
          by_cases h4 : (b.referralRewards.rows.any fun r => r.sourcePaymentId = payment.id) = true
          · rw [if_pos h4, if_pos (Or.inr (Or.inr (Or.inr h4)))]; exact rfl
          · rw [if_neg h4, if_neg (by tauto)]; exact rfl

/-- The loop over the rewards adds the days of each and messages its owner. -/
lemma reads_applyEach (user : User) (due : List ReferralReward) (sent : List NewNotice) :
    Proc.Reads J π d (fun r => ∃ out, r = .ok (user.extend (rewardDays due), out)
      ∧ ∀ n ∈ out, n ∈ sent ∨ n.userId = user.id) (applyEach user due sent) := by
  induction due generalizing user sent with
  | nil => exact ⟨sent, by simp [rewardDays], fun n hn => Or.inl hn⟩
  | cons x rest ih =>
      have hdays : user.extend (rewardDays (x :: rest))
          = (user.extend x.days).extend (rewardDays rest) := by
        rw [User.extend_add]; simp [rewardDays]
      rw [hdays]
      refine Proc.Reads.bind (reads_notify sent (user.extend x.days) _ _) ?_ ?_
      · rintro o ⟨o', ho, hn⟩
        obtain rfl := Except.ok.inj ho
        cases o with
        | none => exact ih (user.extend x.days) sent
        | some n =>
            refine (ih (user.extend x.days) (sent ++ [n])).mono (fun _ _ _ h => h)
              (fun _ _ h => h) ?_ (fun _ h => h)
            rintro r ⟨out, hr, hout⟩
            refine ⟨out, hr, fun m hm => ?_⟩
            rcases hout m hm with hm | hm
            · rcases List.mem_append.mp hm with hm | hm
              · exact Or.inl hm
              · rw [List.mem_singleton.mp hm]
                exact Or.inr (hn n rfl)
            · exact Or.inr hm
      · rintro e ⟨o, ho, -⟩
        cases ho

/-- A live account gets the days of all its vested rewards, any other none. -/
lemma reads_applyRewardsFor (hb : ∀ s, π s = d → s.db.books = b) (user : User) (t : Time)
    (sent : List NewNotice) :
    Proc.Reads J π d (fun r => ∃ out, r = .ok (credited b t user, creditsFor b t user, out)
      ∧ ∀ n ∈ out, n ∈ sent ∨ n.userId = user.id) (applyRewardsFor user t sent) := by
  unfold applyRewardsFor credited creditsFor
  by_cases hlive : subscribed user t = true
  · rw [if_pos hlive, if_pos hlive]
    refine once_select (v := dueRewards b.referralRewards.rows user.id t)
      (fun s hs => by rw [← hb s hs]; rfl) ?_
    refine Proc.Reads.bind (reads_applyEach user _ sent) ?_ ?_
    · rintro ⟨u, out⟩ ⟨out', h, hout⟩
      obtain ⟨rfl, rfl⟩ := Prod.mk.inj (Except.ok.inj h)
      exact ⟨_, rfl, hout⟩
    · rintro e ⟨out, h, -⟩
      cases h
  · rw [if_neg hlive, if_neg hlive]
    exact ⟨sent, by simp [rewardDays], fun n hn => Or.inl hn⟩

/-- Nothing but the nodes has moved. -/
def NodesOnly (s t : World) : Prop := ∃ node, t = { s with node := node }

lemma NodesOnly.refl (s : World) : NodesOnly s s := ⟨s.node, rfl⟩

/-- Every round of the retry loop moves the node only. -/
lemma nodesOnly_addWithRetry (loc : Location) (pool : AddressPool) (pub psk name : String) (n : ℕ)
    (tried : List String) :
    Proc.Within J NodesOnly (fun _ => True) (addWithRetry loc pool pub psk name n tried) := by
  induction n generalizing tried with
  | zero => trivial
  | succ n ih =>
      refine Proc.Within.look fun s _ _ => ⟨NodesOnly.refl s, ?_⟩
      dsimp only
      split
      · trivial
      · refine Proc.Within.exchange fun s i _ => ⟨⟨_, rfl⟩, ?_⟩
        dsimp only
        split
        · trivial
        · split
          · exact ih _
          · trivial
        · trivial

/-- Issuing moves the node only, whatever happens beside it; the row it hands
back is an active one of the wanted kind, for this account and in this location. -/
lemma nodesOnly_issueConfig (cfg : Settings) (user : User) (name : String) (kind : Kind)
    (location : String) :
    Proc.Within J NodesOnly
      (fun r => ∀ c, r = .ok (some c) → (c.userId = user.id ∧ c.kind = kind ∧ c.isActive = true)
        ∧ ∃ loc, cfg.getLocation (if kind = .trial then Settings.defaultLocation else location)
          = some loc ∧ c.location = loc.key)
      (issueConfig cfg user name kind location) := by
  unfold issueConfig
  dsimp only
  generalize (if kind = .trial then Settings.defaultLocation else location) = place
  cases hloc : cfg.getLocation place with
  | none => intro c h; cases h
  | some loc =>
      refine Proc.Within.ask fun s i _ => ⟨NodesOnly.refl s, ?_⟩
      split
      · intro c h; cases h
      · refine Proc.Within.ask fun s' i' _ => ⟨NodesOnly.refl s', ?_⟩
        refine (nodesOnly_addWithRetry _ _ _ _ _ _ _).bind ?_ ?_
        · intro o _
          cases o with
          | none => intro c h; cases h
          | some ip => intro c h; cases h; exact ⟨⟨rfl, rfl, rfl⟩, loc, rfl, rfl⟩
        · intro e _ c h
          cases h

lemma within_issueConfig (cfg : Settings) (user : User) (name : String) (kind : Kind)
    (location : String) :
    Proc.Within J (fun s t => t.db = s.db ∧ t.clock = s.clock)
      (fun r => ∀ c, r = .ok (some c) → (c.userId = user.id ∧ c.kind = kind ∧ c.isActive = true)
        ∧ ∃ loc, cfg.getLocation (if kind = .trial then Settings.defaultLocation else location)
          = some loc ∧ c.location = loc.key)
      (issueConfig cfg user name kind location) := by
  refine (nodesOnly_issueConfig cfg user name kind location).mono ?_ fun _ h => h
  rintro s t ⟨node, rfl⟩
  exact ⟨rfl, rfl⟩

lemma reads_issueConfig (hπ : ∀ s t, s.db = t.db → s.clock = t.clock → π s = π t)
    (cfg : Settings) (user : User) (name : String) (kind : Kind) (location : String) :
    Proc.Reads J π d (fun r => ∀ c, r = .ok (some c) →
      c.userId = user.id ∧ c.kind = kind ∧ c.isActive = true)
      (issueConfig cfg user name kind location) :=
  ((within_issueConfig cfg user name kind location).mono (fun _ _ h => h)
    fun _ h c hc => (h c hc).1).reads fun _ _ h => hπ _ _ h.1 h.2

/-! ### The part after the commit -/

/-- Some of these devices are switched off and nothing else moves. -/
def SwitchesOff (ids : List ℕ) (db db' : Db) : Prop :=
  ∃ off : List ℕ, (∀ c ∈ off, c ∈ ids) ∧ db' = off.foldl Db.deactivate db

lemma SwitchesOff.refl (ids : List ℕ) (db : Db) : SwitchesOff ids db db := ⟨[], by simp, rfl⟩

lemma SwitchesOff.trans {ids : List ℕ} {db₁ db₂ db₃ : Db} (h1 : SwitchesOff ids db₁ db₂)
    (h2 : SwitchesOff ids db₂ db₃) : SwitchesOff ids db₁ db₃ := by
  obtain ⟨off1, hsub1, rfl⟩ := h1
  obtain ⟨off2, hsub2, rfl⟩ := h2
  refine ⟨off1 ++ off2, ?_, by rw [List.foldl_append]⟩
  intro c hc
  rcases List.mem_append.mp hc with hc | hc
  · exact hsub1 c hc
  · exact hsub2 c hc

/-- A step that switches devices off while the clock stands. -/
def OffStep (ids : List ℕ) (s t : World) : Prop :=
  t.clock = s.clock ∧ SwitchesOff ids s.db t.db

lemma OffStep.of_star {ids : List ℕ} {s t : World}
    (h : Relation.ReflTransGen (OffStep ids) s t) : OffStep ids s t := by
  induction h with
  | refl => exact ⟨rfl, SwitchesOff.refl ids _⟩
  | tail _ h ih => exact ⟨h.1.trans ih.1, ih.2.trans h.2⟩

/-- The node confirms the removal of these trial devices only for the numbers
`ids`. -/
def ConfirmsOnly (J : World → Input → Prop) (cfg : Settings) (trials : List Config)
    (ids : List ℕ) : Prop :=
  ∀ s i, J s i → ∀ c ∈ trials, (i.del cfg.bridgeIp c).1 = .ok → c.id ∈ ids

lemma confirmsOnly_all (cfg : Settings) (trials : List Config) :
    ConfirmsOnly J cfg trials (trials.map Config.id) :=
  fun _ _ _ _ hc _ => List.mem_map_of_mem hc

lemma within_removeTrials (cfg : Settings) {ids : List ℕ} (trials : List Config) (off : List ℕ)
    (htrials : ConfirmsOnly J cfg trials ids) (hoff : ∀ c ∈ off, c ∈ ids) :
    Proc.Within J (OffStep ids) (fun r => ∃ off', r = .ok off' ∧ ∀ c ∈ off', c ∈ ids)
      (removeTrials cfg trials off) := by
  induction trials generalizing off with
  | nil => exact ⟨off, rfl, hoff⟩
  | cons c rest ih =>
      have hrest : ConfirmsOnly J cfg rest ids :=
        fun s i hi x hx => htrials s i hi x (List.mem_cons_of_mem _ hx)
      intro s i hi
      refine ⟨⟨rfl, SwitchesOff.refl ids _⟩, ?_⟩
      dsimp only [Proc.bind]
      split
      · rename_i hok
        refine ih (off ++ [c.id]) hrest fun x hx => ?_
        rcases List.mem_append.mp hx with hx | hx
        · exact hoff x hx
        · rw [List.mem_singleton.mp hx]
          exact htrials s i hi c List.mem_cons_self hok
      · exact ih off hrest hoff
      · exact ih off hrest hoff

lemma within_sendLater (ids : List ℕ) (email : Option String) (kind : NoticeKind) (t : Time) :
    Proc.Within J (OffStep ids) (fun r => r = .ok ()) (sendLater email kind t) := by
  unfold sendLater
  cases email with
  | none => exact rfl
  | some address =>
      dsimp only
      split
      · exact rfl
      · exact fun s i _ => ⟨⟨rfl, SwitchesOff.refl ids _⟩, rfl⟩

lemma within_finishActivation_off (cfg : Settings) (a : Activation) (kind : NoticeKind)
    {trials : List Config} {ids : List ℕ} (htrials : ConfirmsOnly J cfg trials ids) :
    Proc.Within J (OffStep ids) (fun r => r = .ok true) (finishActivation cfg a kind trials) := by
  refine Proc.Within.bind (within_removeTrials cfg trials [] htrials (by simp)) ?_ ?_
  · rintro off ⟨off', h, hoff⟩
    obtain rfl := Except.ok.inj h
    have hlast : Proc.Within J (OffStep ids) (fun r => r = .ok true)
        (sendLater a.new.email kind (a.new.subscribedUntil.getD a.at_) >>= fun _ => pure true) :=
      Proc.Within.bind (within_sendLater _ _ _ _) (fun _ _ => rfl) (fun e he => by cases he)
    dsimp only
    split
    · exact fun s i _ => ⟨⟨rfl, off, hoff, rfl⟩, hlast⟩
    · exact hlast
  · rintro e ⟨off, h, -⟩
    cases h

lemma within_finishActivation (cfg : Settings) (a : Activation) (kind : NoticeKind)
    (trials : List Config) :
    Proc.Within J (OffStep (trials.map Config.id)) (fun r => r = .ok true)
      (finishActivation cfg a kind trials) :=
  within_finishActivation_off cfg a kind (confirmsOnly_all cfg trials)

/-! ### The whole activation -/

/-- The commit of an activation of `payment` for `user`, at a time of `P`. -/
def Activates (P : Time → Prop) (user : User) (payment : Payment) (db db' : Db) : Prop :=
  ∃ a : Activation, a.Drawn db.books user payment ∧ P a.at_ ∧ db' = a.write db

/-- After the clock reading an activation cannot fail any more: one commit at
the time that was read, then only trial devices are switched off whose removal
was confirmed. -/
lemma once_completeActivation (hb : ∀ s, π s = d → s.db.books = b)
    (cfg : Settings) {user : User} {payment : Payment} {info : PlanInfo}
    (hinfo : planInfo (some payment.plan) = some info) {trials : List Config} {ids : List ℕ}
    (htrials : ConfirmsOnly J cfg trials ids)
    {device : Option Config} (hdevice : ∀ c, device = some c → c.FirstFor user) (t : Time) :
    Proc.Once J π d
      (fun s s' => s'.clock = s.clock ∧ ∃ a : Activation, a.Drawn s.db.books user payment
        ∧ a.at_ = t ∧ a.device = device ∧ s'.db = a.write s.db)
      (OffStep ids) (fun _ => False) (fun r => r = .ok true)
      (completeActivation cfg user payment info trials device t) := by
  have hid : (activated user payment info device t).id = user.id := rfl
  refine Proc.Reads.bind (reads_spendOnPayment hb payment) ?_ (fun e h => by cases h)
  intro spend hspend
  obtain rfl := Except.ok.inj hspend
  refine Proc.Reads.bind (reads_rewardForPayment hb payment t) ?_ (fun e h => by cases h)
  intro reward hreward
  obtain rfl := Except.ok.inj hreward
  have hdue : creditsFor b t (activated user payment info device t)
      = dueRewards b.referralRewards.rows user.id t := by
    rw [creditsFor, if_pos (subscribed_activated hinfo user device t), hid]
  refine Proc.Reads.bind (reads_applyRewardsFor hb _ t []) ?_ ?_
  · rintro ⟨rewarded, applied, sent⟩ ⟨sent', h, hsent⟩
    obtain ⟨rfl, hrest⟩ := Prod.mk.inj (Except.ok.inj h)
    obtain ⟨rfl, rfl⟩ := Prod.mk.inj hrest
    intro s i _ hs
    refine Or.inr ⟨?_, within_finishActivation_off cfg _ _ htrials⟩
    refine ⟨rfl, _, ⟨rfl, rfl, ⟨info, hinfo, rfl⟩, ?_, ?_, ?_, hdevice, ?_⟩, rfl, rfl, rfl⟩
    · rw [hb s hs]
    · rw [hb s hs]
    · rw [hb s hs, ← hdue]
    · intro n hn
      rcases List.mem_append.mp hn with hn | hn
      · rcases hsent n hn with hn | hn
        · cases hn
        · exact hn.trans hid
      · rw [List.mem_singleton.mp hn]
  · rintro e ⟨sent, h, -⟩
    cases h

/-- A way to observe sessions: `π` depends on the database only and, where it
is `d`, shows the books `b`; the steps after the commit lie in `R`, and what the
clock says lies in `P`. -/
structure View (J : World → Input → Prop) (π : World → D) (d : D) (b : Books) (P : Time → Prop)
    (R : World → World → Prop) : Prop where
  of_db : ∀ s t, s.db = t.db → π s = π t
  books : ∀ s, π s = d → s.db.books = b
  off : ∀ ids s t, OffStep ids s t → R s t
  time : ∀ s i, J s i → P (max s.clock i.now)

/-- The whole database, for a session that runs alone. -/
lemma View.db (J : World → Input → Prop) (db : Db) :
    View J World.db db db.books (fun _ => True) (fun s t => ∃ ids, OffStep ids s t) :=
  ⟨fun _ _ h => h, fun s hs => by rw [hs], fun ids _ _ h => ⟨ids, h⟩, fun _ _ _ => trivial⟩

/-- **One commit.** As long as its books stay as they are, an activation leaves
them alone until a single commit, of the unit of work drawn from these books;
after it the activation ends with `true`, and without it with `false` or an
exception. -/
theorem once_activatePayment (v : View J π d b P R) (cfg : Settings) (user : User)
    (payment : Payment) :
    Proc.Once J π d (fun s t => Activates P user payment s.db t.db) R (fun r => r ≠ .ok true) (fun r => r = .ok true)
      (activatePayment cfg user payment) := by
  have hnow : ∀ (info : PlanInfo) (trials : List Config) (device : Option Config),
      planInfo (some payment.plan) = some info → (∀ c, device = some c → c.FirstFor user) →
      Proc.Once J π d (fun s t => Activates P user payment s.db t.db) R (fun r => r ≠ .ok true) (fun r => r = .ok true)
        (now >>= fun t => completeActivation cfg user payment info trials device t) := by
    intro info trials device hinfo hdev
    refine Proc.Once.exchange (fun s i _ => v.of_db _ _ rfl) fun s i hi _ => ?_
    refine (once_completeActivation v.books cfg hinfo (confirmsOnly_all cfg trials) hdev _).mono ?_
      (v.off _) ?_ fun _ h => h
    · rintro s' t' - ⟨-, a, ha, hat, -, hdb⟩
      exact ⟨a, ha, by rw [hat]; exact v.time s i hi, hdb⟩
    · intro r h
      exact h.elim
  unfold activatePayment
  split
  · intro h; cases h
  · rename_i info hinfo
    refine Proc.Once.look fun s _ => ?_
    dsimp only
    split
    · refine Proc.Reads.bind (reads_issueConfig (fun s t h _ => v.of_db s t h) cfg user _ _ _) ?_ ?_
      · intro o ho
        cases o with
        | none => intro h; cases h
        | some c =>
            refine hnow info _ (some c) hinfo fun c' hc' => ?_
            obtain rfl := Option.some.inj hc'
            exact ho c rfl
      · intro e _ h
        cases h
    · exact hnow info _ none hinfo fun c hc => by cases hc

end

/-! ### The rows after the commit -/

section

variable {b : Books} {user : User} {payment : Payment} {a : Activation} {db : Db}

/-- The recorded end after the commit: the extension, and the rewards on top. -/
lemma Activation.Drawn.until_eq (h : a.Drawn b user payment) {info : PlanInfo}
    (hinfo : planInfo (some payment.plan) = some info) :
    a.new.subscribedUntil
      = some (extendedUntil user a.at_ info.days + days (rewardDays a.applied)) := by
  obtain ⟨info', hinfo', hnew⟩ := h.new_eq
  obtain rfl := Option.some.inj (hinfo'.symm.trans hinfo)
  rw [hnew]
  unfold closeTrial
  split <;> rfl

lemma Activation.Drawn.isSubscribed (h : a.Drawn b user payment) : a.new.isSubscribed = true := by
  obtain ⟨info, -, hnew⟩ := h.new_eq
  rw [hnew]
  unfold closeTrial
  split <;> rfl

/-- The trial is left as it is or cut to the moment of the purchase. -/
lemma Activation.Drawn.trialUntil (h : a.Drawn b user payment) :
    a.new.trialUntil = user.trialUntil ∨ a.new.trialUntil = some a.at_ := by
  obtain ⟨info, -, hnew⟩ := h.new_eq
  rw [hnew]
  unfold closeTrial
  split
  · exact Or.inr rfl
  · exact Or.inl rfl

/-- An activation writes columns that a session writes and no other. -/
lemma Activation.Drawn.merge_eq (h : a.Drawn b user payment) :
    User.merge user a.new user = a.new := by
  obtain ⟨info, -, hnew⟩ := h.new_eq
  rw [hnew]
  unfold closeTrial
  split <;> simp [User.merge, activated, User.extend]

/-- The account, when nobody wrote it since it was loaded. -/
lemma Activation.Drawn.find_user (h : a.Drawn b user payment)
    (hu : db.users.find user.id = some user) :
    (a.write db).users.find user.id = some a.new := by
  rw [Activation.write_eq, h.old_eq]
  have hfind := find_saveAccount_self a.new hu
  rw [h.merge_eq] at hfind
  exact hfind

lemma Activation.Drawn.find_user_of_ne (h : a.Drawn b user payment) {m : ℕ} (hm : m ≠ user.id) :
    (a.write db).users.find m = db.users.find m := by
  rw [Activation.write_eq, h.old_eq]
  exact find_saveAccount_of_ne hm

lemma Activation.merge_paid (a : Activation) :
    Payment.merge a.payment a.paid a.payment = a.paid := by
  simp [Payment.merge, Activation.paid]

/-- The order, when nobody wrote it since it was loaded. -/
lemma Activation.Drawn.find_payment (h : a.Drawn b user payment)
    (hp : db.payments.find payment.id = some payment) :
    (a.write db).payments.find payment.id = some a.paid := by
  rw [Activation.write_eq, h.payment_eq]
  have hfind := find_saveOrder_self a.paid hp
  have hpaid := a.merge_paid
  rw [h.payment_eq] at hpaid
  rw [hpaid] at hfind
  exact hfind

lemma Activation.Drawn.find_payment_of_ne (h : a.Drawn b user payment) {m : ℕ}
    (hm : m ≠ payment.id) : (a.write db).payments.find m = db.payments.find m := by
  rw [Activation.write_eq, h.payment_eq]
  exact find_saveOrder_of_ne hm

end

end VpnPortal
