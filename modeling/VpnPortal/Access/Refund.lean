/-
Refunds and referral rewards.

A purchase through a code earns its owner a reward that vests after two weeks,
so that a refund inside that window can cancel it. Nothing that runs cancels it:
the callback of a chargeback leaves the rewards as they are, and whether the
reward is applied depends only on what comes later. It is applied by the first
reward stage after it vested that finds the referrer's subscription live, or by
the first activation of an order of the referrer after it vested.

* `Trade`, `TradeLog`: runs of calls and hourly jobs;
* `Trade.Applies`, `Trade.Marks`: one step applies the vested rewards of an account
  exactly if it is a reward stage while its subscription is live, or the activation of
  an order of it;
* `refunded_reward_unapplied_iff`: **a chargeback changes no reward, and a reward that
  had not vested by then stays unapplied** exactly as long as no later step applies it;
* `refunded_reward_applied`: a reward that outlives its purchase.
-/
import VpnPortal.Access.Calls
import VpnPortal.Access.Time
import VpnPortal.Lifecycle.Callback

namespace VpnPortal

open Sessions Tables

/-! ### Runs of calls and jobs -/

/-- A call of a payment endpoint, or a stage of the hourly job. -/
inductive TradeKind where
  | call (c : Call)
  | rewards
  | sweeps

/-- One step of a run, with the worlds before and after it. -/
structure Trade where
  before : World
  kind : TradeKind
  after : World

/-- Calls and hourly jobs one after another. -/
inductive TradeLog (cfg : Settings) (w₀ : World) : List Trade → World → Prop where
  | nil : TradeLog cfg w₀ [] w₀
  | call {log : List Trade} {w w' : World} {c : Call} {r : Except Exn Response} :
      TradeLog cfg w₀ log w → Proc.Runs anyInput (c.run cfg) w r w' →
      TradeLog cfg w₀ (log ++ [⟨w, .call c, w'⟩]) w'
  | job {log : List Trade} {w w₁ w' : World} {stats : RewardStats} {r : Except Exn Unit} :
      TradeLog cfg w₀ log w → Proc.Runs anyInput applyDueRewards w (.ok stats) w₁ →
      Proc.Runs anyInput (sweepStages cfg) w₁ r w' →
      TradeLog cfg w₀ (log ++ [⟨w, .rewards, w₁⟩] ++ [⟨w₁, .sweeps, w'⟩]) w'

/-- The step applies the vested rewards of the account `n`: the reward stage while
its subscription is live, or a call by which an order of it becomes paid. -/
def Trade.Applies (e : Trade) (n : ℕ) : Prop :=
  match e.kind with
  | .call _ => ∃ m q, e.after.db.payments.find m = some q ∧ q.status = "paid" ∧ q.userId = n
      ∧ e.before.db.payments.find m ≠ some q
  | .rewards => liveAccounts e.before.db e.after.clock n = true
  | .sweeps => False

/-- What a step does to the rewards. -/
def Trade.Marks (e : Trade) : Prop :=
  e.before.clock ≤ e.after.clock ∧ ∃ p : ℕ → Bool, (∀ n, p n = true ↔ e.Applies n)
    ∧ RewardsMarked e.after.clock p e.before.db.referralRewards.rows e.after.db.referralRewards.rows

/-- A step that applies no reward. -/
lemma Trade.Marks.of_still {e : Trade} (hclock : e.before.clock ≤ e.after.clock)
    (hrewards : e.after.db.referralRewards = e.before.db.referralRewards)
    (hnone : ∀ n, ¬ e.Applies n) : e.Marks := by
  refine ⟨hclock, fun _ => false, fun n => ⟨fun h => (by cases h), fun h => (hnone n h).elim⟩, ?_⟩
  rw [hrewards]
  exact RewardsMarked.refl _ _

/-- An order that is sold becomes paid, and no other. -/
lemma Sold.newly_paid {t : Time} {user : User} {p : Payment} {db db' : Db} (h : Sold t user p db db')
    (n : ℕ) : (∃ m q, db'.payments.find m = some q ∧ q.status = "paid" ∧ q.userId = n
      ∧ db.payments.find m ≠ some q) ↔ n = user.id := by
  obtain ⟨db₁, a, ids, hfiled, hopen, hid, -, ha, -, -, off, -, hdb⟩ := h
  have hpay : db'.payments = (a.write db₁).payments := by rw [hdb, Db.foldl_deactivate]
  have hown : db'.payments.find p.id = some a.paid := by
    rw [hpay]
    exact ha.find_payment hopen.1
  have huser : a.paid.userId = user.id := by
    rw [Activation.paid, ha.payment_eq]
    exact hid.symm
  constructor
  · rintro ⟨m, q, hq, hpaid, rfl, hnew⟩
    by_cases hm : m = p.id
    · rw [hm, hown] at hq
      rw [← Option.some.inj hq]
      exact huser
    · -- another paid row was there before
      rw [hpay, ha.find_payment_of_ne hm] at hq
      exact absurd ((hfiled.paid m q hpaid).mp hq) hnew
  · rintro rfl
    refine ⟨p.id, a.paid, hown, rfl, huser, fun hold => ?_⟩
    have hrow := (hfiled.paid p.id a.paid rfl).mpr hold
    obtain rfl := Option.some.inj (hopen.1.symm.trans hrow)
    exact hopen.2 rfl

lemma marks_call {J : World → Input → Prop} {cfg : Settings} {c : Call} {w w' : World}
    {r : Except Exn Response} (h : Proc.Runs J (c.run cfg) w r w') : Trade.Marks ⟨w, .call c, w'⟩ := by
  obtain ⟨hclock, hfiled | ⟨user, p, -, hsold⟩⟩ := effect_of_call c h
  · refine Trade.Marks.of_still hclock ?_ ?_
    · dsimp only
      rw [hfiled.rest]
    · rintro n ⟨m, q, hq, hpaid, -, hnew⟩
      exact hnew ((hfiled.paid m q hpaid).mp hq)
  · refine ⟨hclock, fun n => decide (n = user.id), fun n => ?_, ?_⟩
    · rw [decide_eq_true_eq]
      exact (hsold.newly_paid n).symm
    · obtain ⟨db₁, a, ids, hfiled, -, -, -, ha, -, hat, off, -, hdb⟩ := hsold
      have hrewards : w'.db.referralRewards = (a.write db₁).referralRewards := by
        rw [hdb, Db.foldl_deactivate]
      have hbefore : db₁.referralRewards = w.db.referralRewards := by rw [hfiled.rest]
      have hmarked := rewardsMarked_activation ha
      rw [hat, hbefore, ← hrewards] at hmarked
      exact hmarked

lemma marks_rewards {w w' : World} {r : Except Exn RewardStats}
    (h : Proc.Runs anyInput applyDueRewards w r w') : Trade.Marks ⟨w, .rewards, w'⟩ := by
  obtain ⟨⟨i, -, hclock⟩, -, sent, hdb⟩ := (alone_applyDueRewards_at.runs h).2
  refine ⟨?_, liveAccounts w.db w'.clock, fun n => Iff.rfl, ?_⟩
  · dsimp only
    rw [hclock]
    exact le_max_left _ _
  · exact rewardsMarked_drawWork hdb

/-- The later stages of the job leave the rewards alone. -/
lemma staged_rewards : Staged fun w w' : World =>
    w.clock ≤ w'.clock ∧ w'.db.referralRewards = w.db.referralRewards where
  trans h h' := ⟨h.1.trans h'.1, h'.2.trans h.2⟩
  still hclock hdb := ⟨hclock, by rw [hdb]⟩
  subs hclock heffect := ⟨hclock, by rw [heffect.rest]⟩
  trials hclock heffect := ⟨hclock, by rw [heffect.rest]⟩
  notices hstep := ⟨hstep.clock, by rw [hstep.db]⟩

lemma marks_sweeps {cfg : Settings} {w w' : World} {r : Except Exn Unit}
    (h : Proc.Runs anyInput (sweepStages cfg) w r w') : Trade.Marks ⟨w, .sweeps, w'⟩ := by
  obtain ⟨hclock, hrewards⟩ := ((alone_sweepStages_by staged_rewards).runs h).2
  exact Trade.Marks.of_still hclock hrewards fun n h => h

/-! ### One reward along a run -/

/-- The step leaves the reward unapplied. -/
def Trade.Spares (e : Trade) (r : ReferralReward) : Prop :=
  ¬ (e.Applies r.referrerUserId ∧ r.vestsAt ≤ e.after.clock)

/-- The same reward, applied or not. -/
structure SameReward (r r' : ReferralReward) : Prop where
  referrer : r'.referrerUserId = r.referrerUserId
  vestsAt : r'.vestsAt = r.vestsAt

lemma SameReward.spares_iff {r r' : ReferralReward} (h : SameReward r r') (e : Trade) :
    e.Spares r' ↔ e.Spares r := by
  rw [Trade.Spares, Trade.Spares, h.referrer, h.vestsAt]

/-- A reward after one step. -/
lemma Trade.Marks.row {e : Trade} (h : e.Marks) {n : ℕ} {r : ReferralReward}
    (hr : e.before.db.referralRewards.find n = some r) :
    ∃ r', e.after.db.referralRewards.find n = some r' ∧ SameReward r r'
      ∧ (r'.appliedAt = none ↔ r.appliedAt = none ∧ e.Spares r) := by
  obtain ⟨-, p, hp, new, hrows, -⟩ := h
  obtain ⟨hmem, hid⟩ := Table.mem_of_find hr
  have hfind : e.after.db.referralRewards.find n = some (r.marked e.after.clock p) := by
    refine Table.find_eq_some_iff.mpr ⟨?_, ?_⟩
    · rw [hrows]
      exact List.mem_append_left _ (List.mem_map_of_mem hmem)
    · rw [num_referralReward, ReferralReward.marked_id]
      exact hid
  refine ⟨_, hfind, ?_, ?_⟩
  · unfold ReferralReward.marked
    split <;> exact ⟨rfl, rfl⟩
  · rw [Trade.Spares, ← hp]
    unfold ReferralReward.marked ReferralReward.isDue
    by_cases happlied : r.appliedAt = none
    · cases hpr : p r.referrerUserId with
      | false => simp [happlied]
      | true =>
          by_cases hvest : r.vestsAt ≤ e.after.clock
          · simp [happlied, hvest]
          · simp [happlied, hvest]
    · simp [happlied]

/-- **A reward along a run.** It stays unapplied as long as every step spares it. -/
lemma TradeLog.row {cfg : Settings} {w₀ w : World} {log : List Trade} (h : TradeLog cfg w₀ log w)
    {n : ℕ} {r : ReferralReward} (hr : w₀.db.referralRewards.find n = some r)
    (hopen : r.appliedAt = none) :
    ∃ r', w.db.referralRewards.find n = some r' ∧ SameReward r r'
      ∧ (r'.appliedAt = none ↔ ∀ e ∈ log, e.Spares r) := by
  have hstep : ∀ (e : Trade) (log : List Trade) (x : ReferralReward), e.Marks →
      e.before.db.referralRewards.find n = some x → SameReward r x →
      (x.appliedAt = none ↔ ∀ e ∈ log, e.Spares r) →
      ∃ r', e.after.db.referralRewards.find n = some r' ∧ SameReward r r'
        ∧ (r'.appliedAt = none ↔ ∀ e' ∈ log ++ [e], e'.Spares r) := by
    intro e log x hmarks hx hsame hiff
    obtain ⟨x', hx', hsame', hiff'⟩ := hmarks.row hx
    refine ⟨x', hx', ⟨hsame'.referrer.trans hsame.referrer, hsame'.vestsAt.trans hsame.vestsAt⟩, ?_⟩
    rw [hiff', hiff, hsame.spares_iff, List.forall_mem_append, List.forall_mem_singleton]
  induction h with
  | nil => exact ⟨r, hr, ⟨rfl, rfl⟩, by simp [hopen]⟩
  | call _ hrun ih =>
      obtain ⟨x, hx, hsame, hiff⟩ := ih
      exact hstep ⟨_, .call _, _⟩ _ x (marks_call hrun) hx hsame hiff
  | job _ hrewards hsweeps ih =>
      obtain ⟨x, hx, hsame, hiff⟩ := ih
      obtain ⟨y, hy, hsame', hiff'⟩ := hstep ⟨_, .rewards, _⟩ _ x (marks_rewards hrewards) hx hsame hiff
      exact hstep ⟨_, .sweeps, _⟩ _ y (marks_sweeps hsweeps) hy hsame' hiff'

/-- A reward is applied after it vested. -/
def Vested (w : World) : Prop :=
  ∀ r ∈ w.db.referralRewards.rows, r.appliedAt ≠ none → r.vestsAt ≤ w.clock

lemma Trade.Marks.vested {e : Trade} (h : e.Marks) (hv : Vested e.before) : Vested e.after := by
  obtain ⟨hclock, p, -, new, hrows, hnew⟩ := h
  intro r hr happlied
  rw [hrows] at hr
  rcases List.mem_append.mp hr with hr | hr
  · obtain ⟨x, hx, rfl⟩ := List.mem_map.mp hr
    unfold ReferralReward.marked at happlied ⊢
    split at happlied
    · rename_i hmark
      rw [if_pos hmark]
      rw [Bool.and_eq_true, ReferralReward.isDue, Bool.and_eq_true, decide_eq_true_eq,
        decide_eq_true_eq] at hmark
      exact hmark.2.2
    · rename_i hmark
      rw [if_neg hmark]
      exact (hv x hx happlied).trans hclock
  · exact absurd (hnew r hr).1 happlied

lemma TradeLog.vested {cfg : Settings} {w₀ w : World} {log : List Trade} (h : TradeLog cfg w₀ log w)
    (hv : Vested w₀) : Vested w := by
  induction h with
  | nil => exact hv
  | call _ hrun ih => exact (marks_call hrun).vested ih
  | job _ hrewards hsweeps ih => exact (marks_sweeps hsweeps).vested ((marks_rewards hrewards).vested ih)

/-! ### The refund -/

/-- The callback of a chargeback leaves the rewards as they are. -/
lemma chargeback_keeps_rewards {cfg : Settings} {req : CallbackRequest} {txn : String}
    {ans : String → Option Json} {w w' : World} {r : Except Exn Response}
    (htxn : req.txn? cfg = some txn) (hans : ReportedBy ans txn "CHARGEBACKED")
    (hrun : Proc.Runs (Answering ans) (plategaCallback cfg req) w r w') :
    w'.db.referralRewards = w.db.referralRewards := by
  rcases runs_plategaCallback hrun with rfl | ⟨-, txn', htxn', hnudge⟩
  · rfl
  obtain rfl := Option.some.inj (htxn.symm.trans htxn')
  rcases runs_plategaNudge cfg hnudge with rfl | ⟨p, -, ⟨⟨status, hstatus, hreal, -⟩, -⟩ | ⟨-, rfl⟩ | ⟨-, rfl⟩⟩
  · rfl
  · -- the gateway cannot have confirmed at the same time
    obtain ⟨status', hstatus', hreal'⟩ := hans
    obtain rfl : status = status' := by
      simpa using hstatus.symm.trans hstatus'
    cases hjson : Json.get status "status" with
    | str s =>
        rw [hjson] at hreal hreal'
        have h1 : s = "CONFIRMED" := by simpa [Json.isStr] using hreal
        have h2 : s = "CHARGEBACKED" := by simpa [Json.isStr] using hreal'
        exact absurd (h1.symm.trans h2) (by decide)
    | _ => rw [hjson] at hreal; cases hreal
  · rfl
  · rfl

/-- **When a refunded purchase earns.** After any run, let a callback be answered
while the gateway reports a chargeback of an order, before the order's reward has
vested. The callback changes no reward; and after any further run the reward is
unapplied if and only if, since then, no reward stage found the referrer's
subscription live after the reward had vested and no order of the referrer was
activated after that. -/
theorem refunded_reward_unapplied_iff (cfg : Settings) {w₀ w₁ w₂ w₃ : World}
    {before after : List Trade} (h₀ : Vested w₀) (hbefore : TradeLog cfg w₀ before w₁)
    {req : CallbackRequest} {txn : String} {ans : String → Option Json} {resp : Response}
    (htxn : req.txn? cfg = some txn) (hans : ReportedBy ans txn "CHARGEBACKED")
    (hrun : Proc.Runs (Answering ans) (plategaCallback cfg req) w₁ (.ok resp) w₂)
    (hafter : TradeLog cfg w₂ after w₃) :
    w₂.db.referralRewards = w₁.db.referralRewards
      ∧ ∀ p r, OrderOf w₁.db txn p → w₂.db.referralRewards.find r.id = some r →
        r.sourcePaymentId = p.id → w₂.clock < r.vestsAt →
        ∃ r', w₃.db.referralRewards.find r.id = some r'
          ∧ (r'.appliedAt = none ↔ ∀ e ∈ after, e.Spares r) := by
  refine ⟨chargeback_keeps_rewards htxn hans hrun, fun p r _ hr _ hearly => ?_⟩
  have hcall : Proc.Runs (Answering ans) ((Call.callback req).run cfg) w₁ (.ok resp) w₂ := hrun
  have hvested : Vested w₂ := (marks_call hcall).vested (hbefore.vested h₀)
  have hopen : r.appliedAt = none := by
    by_contra happlied
    exact absurd (hvested r (Table.mem_of_find hr).1 happlied) (not_le.mpr hearly)
  obtain ⟨r', hr', -, hiff⟩ := hafter.row hr hopen
  exact ⟨r', hr', hiff⟩

/-! ### A purchase through a code -/

/-- A subscriber with a code, and an account that may order. -/
def referrerAndFriend : World where
  db := {
    users := ⟨[{ id := 0, username := "ann", isSubscribed := true, subscribedUntil := some (days 100) },
      { id := 1, username := "bob", telegramId := some 7 }], 2, by decide, by decide⟩
    promoCodes := ⟨[{ id := 0, code := "ANN", ownerUserId := some 0 }], 1, by decide, by decide⟩ }

/-- The friend orders with the code. -/
def friendOrders : Call := .orderPlatega "bob" { plan := "basic-1m", code := some "ANN" }

/-- The gateway takes the order, and later confirms it. -/
def taken315 : Input where
  keys := some ("pub", "psk")
  created := .ok (.obj [("transactionId", .str "t-1"), ("url", .str "https://pay")])
  gateway := fun _ => some (.obj [("status", .str "CONFIRMED"),
    ("paymentDetails", .obj [("amount", .int 315)])])
  add := fun _ _ => (.ok, {})

/-- A step with fixed inputs. -/
def playCall (i : Input) (c : Call) (w : World) : World := (Proc.play i (c.run withSecret) w).2

/-- The order, open and confirmed. -/
def friendOrdered : World := playCall taken315 friendOrders referrerAndFriend
def friendPaid : World := playCall taken315 (.callback nudgeOrder) friendOrdered

lemma runs_playCall (i : Input) (c : Call) (w : World) :
    Proc.Runs anyInput (c.run withSecret) w (Proc.play i (c.run withSecret) w).1 (playCall i c w) :=
  Proc.runs_play (fun _ => trivial) _ _

/-- The run up to the refund. -/
lemma log_friendPaid : TradeLog withSecret referrerAndFriend
    [⟨referrerAndFriend, .call friendOrders, friendOrdered⟩,
      ⟨friendOrdered, .call (.callback nudgeOrder), friendPaid⟩] friendPaid :=
  .call (.call .nil (runs_playCall taken315 friendOrders referrerAndFriend))
    (runs_playCall taken315 (.callback nudgeOrder) friendOrdered)

/-- The gateway reports the chargeback. -/
def refundInput : Input where
  gateway := fun _ => some (.obj [("status", .str "CHARGEBACKED")])

/-- After the refund. -/
def friendRefunded : World := playCall refundInput (.callback nudgeOrder) friendPaid

lemma runs_friendRefunded : Proc.Runs (Answering refundInput.gateway)
    (plategaCallback withSecret nudgeOrder) friendPaid (.ok .ok) friendRefunded := by
  have hrun := Proc.runs_play (J := Answering refundInput.gateway) (i := refundInput) (fun _ => rfl)
    (plategaCallback withSecret nudgeOrder) friendPaid
  have hresult : (Proc.play refundInput (plategaCallback withSecret nudgeOrder) friendPaid).1
      = .ok .ok := by decide
  rw [hresult] at hrun
  exact hrun

/-- The reward stage and the rest of the job at the time `t`. -/
def afterRewards (t : Time) : World := (Proc.play { now := t } applyDueRewards friendRefunded).2
def afterJob (t : Time) : World := (Proc.play { now := t } (sweepStages withSecret) (afterRewards t)).2

/-- The job as a run. -/
def jobLog (t : Time) : List Trade :=
  [⟨friendRefunded, .rewards, afterRewards t⟩, ⟨afterRewards t, .sweeps, afterJob t⟩]

lemma log_afterJob (t : Time) : TradeLog withSecret friendRefunded (jobLog t) (afterJob t) := by
  have hrun := Proc.runs_play (J := anyInput) (i := { now := t }) (fun _ => trivial) applyDueRewards
    friendRefunded
  obtain ⟨stats, hstats⟩ := ((alone_applyDueRewards friendRefunded).runs hrun).2
  rw [hstats] at hrun
  exact .job .nil hrun (Proc.runs_play (fun _ => trivial) _ _)

/-- The order and its reward when the refund is announced. -/
lemma friendPaid_rows :
    (friendPaid.db.payments.find 0).map (fun p => (p.id, p.provider, p.providerRef, p.status))
        = some (0, some "platega", some "t-1", "paid")
      ∧ friendRefunded.db.referralRewards.find 0
        = some { id := 0, referrerUserId := 0, sourcePaymentId := 0, days := 30, vestsAt := days 14 }
      ∧ friendRefunded.clock = 0 := by
  refine ⟨?_, ?_, ?_⟩ <;> decide

/-- A job on the second day leaves the reward alone. -/
theorem refunded_reward_unapplied_day2 :
    ∃ r', (afterJob (days 2)).db.referralRewards.find 0 = some r' ∧ r'.appliedAt = none := by
  have hvested : Vested referrerAndFriend := fun r hr => absurd hr List.not_mem_nil
  obtain ⟨hpaid, hreward, hclock⟩ := friendPaid_rows
  obtain ⟨p, hp, hcols⟩ := Option.map_eq_some_iff.mp hpaid
  simp only [Prod.mk.injEq] at hcols
  obtain ⟨hid, hprov, href, -⟩ := hcols
  have horder : OrderOf friendPaid.db "t-1" p := ⟨by rw [hid]; exact hp, hprov, href⟩
  have htxn : nudgeOrder.txn? withSecret = some "t-1" := by decide
  obtain ⟨-, hall⟩ := refunded_reward_unapplied_iff withSecret hvested log_friendPaid htxn
    ⟨_, rfl, by decide⟩ runs_friendRefunded (log_afterJob (days 2))
  have hearly : friendRefunded.clock < days 14 := by
    rw [hclock]
    decide
  obtain ⟨r', hr', hiff⟩ := hall p ⟨0, 0, 0, 30, days 14, none⟩ horder hreward hid.symm hearly
  refine ⟨r', hr', hiff.mpr fun e he => ?_⟩
  rcases List.mem_cons.mp he with rfl | he
  · -- the reward has not vested yet
    rintro ⟨-, hvest⟩
    have htime : (afterRewards (days 2)).clock = days 2 := by decide
    rw [htime] at hvest
    exact absurd hvest (by decide)
  · rw [List.mem_singleton.mp he]
    exact fun h => h.1

/-- **A reward that outlives its purchase.** The friend's order is confirmed and
charged back, in an answered callback before the reward vests; the job of the
fifteenth day applies the reward, and the referrer's period grows by its days. -/
theorem refunded_reward_applied :
    TradeLog withSecret referrerAndFriend
        [⟨referrerAndFriend, .call friendOrders, friendOrdered⟩,
          ⟨friendOrdered, .call (.callback nudgeOrder), friendPaid⟩] friendPaid
      ∧ ReportedBy refundInput.gateway "t-1" "CHARGEBACKED"
      ∧ Proc.Runs (Answering refundInput.gateway) (plategaCallback withSecret nudgeOrder) friendPaid
        (.ok .ok) friendRefunded
      ∧ (friendRefunded.db.payments.find 0).map (fun p => (p.providerRef, p.promoCode))
        = some (some "t-1", some "ANN")
      ∧ friendRefunded.db.referralRewards.find 0
        = some { id := 0, referrerUserId := 0, sourcePaymentId := 0, days := 30, vestsAt := days 14 }
      ∧ friendRefunded.clock < days 14
      ∧ TradeLog withSecret friendRefunded (jobLog (days 15)) (afterJob (days 15))
      ∧ ((afterJob (days 15)).db.referralRewards.find 0).bind ReferralReward.appliedAt
        = some (days 15)
      ∧ (friendRefunded.db.users.find 0).bind User.subscribedUntil = some (days 100)
      ∧ ((afterJob (days 15)).db.users.find 0).bind User.subscribedUntil = some (days 130) := by
  refine ⟨log_friendPaid, ⟨_, rfl, by decide⟩, runs_friendRefunded, ?_, friendPaid_rows.2.1, ?_,
    log_afterJob (days 15), ?_, ?_, ?_⟩
  · decide
  · rw [friendPaid_rows.2.2]
    decide
  · decide
  · decide
  · decide

end VpnPortal
