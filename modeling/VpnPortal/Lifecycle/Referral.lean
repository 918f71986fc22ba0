/-
A friend's code over whole runs of the payment endpoints.

An order is priced once. `resolve_code` grants the discount of an owned code
when the buyer has no purchase yet, and the payment that comes later does not
ask again. If it did, that is, if an order with an owned code were paid only
while `is_first_purchase` still holds, then one order of a buyer would carry a
friend's discount, and one reward would name a payment of that buyer
(`code_works_once`).

* `PlainGrants`: grants of an administrator carry no code; kept by every call;
* `OncePerBuyer`, `CodesUsed`: the law and the invariant behind it;
* `CodesUsed.filed`, `CodesUsed.sold`: filing orders keeps it, and so does a sale whose
  order has no owned code or is the first purchase;
* `code_works_once`: **one discounted paid order and one reward for each buyer** after
  every such run; `code_works_twice`: two orders opened before either is paid.
-/
import VpnPortal.Lifecycle.Ledger

namespace VpnPortal

open Sessions Tables Timeline

/-! ### Grants carry no code -/

/-- An order that an administrator made carries no code. -/
def PlainGrant (p : Payment) : Prop := p.provider = some "manual" → p.promoCode = none

/-- No grant in the database carries a code. -/
def PlainGrants (db : Db) : Prop := ∀ p ∈ db.payments.rows, PlainGrant p

/-- A step that keeps the grants plain. -/
def KeepsPlain (db db' : Db) : Prop := PlainGrants db → PlainGrants db'

lemma KeepsPlain.refl (db : Db) : KeepsPlain db db := fun h => h

lemma KeepsPlain.of_payments {db db' : Db} (h : db'.payments = db.payments) : KeepsPlain db db' := by
  intro hplain p hp
  rw [h] at hp
  exact hplain p hp

lemma KeepsPlain.of_switchesOff {ids : List ℕ} {db db' : Db} (h : SwitchesOff ids db db') :
    KeepsPlain db db' := by
  obtain ⟨off, -, rfl⟩ := h
  rw [Db.foldl_deactivate]
  exact KeepsPlain.of_payments rfl

lemma PlainGrant.merge {old new cur : Payment} (h : PlainGrant cur)
    (hprov : new.provider = old.provider ∨ new.provider ≠ some "manual") :
    PlainGrant (Payment.merge old new cur) := by
  intro hmanual
  have hcol : column old.provider new.provider cur.provider = some "manual" := hmanual
  unfold column at hcol
  split at hcol
  · exact h hcol
  · rename_i hne
    rcases hprov with hsame | hother
    · exact absurd hsame hne
    · exact absurd hcol hother

/-- A write to an order: it is never turned into a grant. -/
lemma KeepsPlain.of_saveOrder {db db' : Db} {old new : Payment}
    (h : db'.payments = saveOrder db.payments old new)
    (hprov : new.provider = old.provider ∨ new.provider ≠ some "manual") : KeepsPlain db db' := by
  intro hplain p hp
  rw [h, saveOrder, Table.rows_update] at hp
  obtain ⟨q, hq, rfl⟩ := List.mem_map.mp hp
  split
  · exact (hplain q hq).merge hprov
  · exact hplain q hq

lemma KeepsPlain.of_insert {db : Db} {mk : ℕ → Payment} (hmk : ∀ n, Row.num (mk n) = n)
    (h : ∀ n, PlainGrant (mk n)) : KeepsPlain db { db with payments := db.payments.insert mk hmk } := by
  intro hplain p hp
  rcases List.mem_append.mp hp with hp | hp
  · exact hplain p hp
  · rw [List.mem_singleton.mp hp]
    exact h _

lemma KeepsPlain.of_remove (db : Db) (n : ℕ) :
    KeepsPlain db { db with payments := db.payments.remove n } :=
  fun hplain p hp => hplain p (List.mem_of_mem_filter hp)

lemma KeepsPlain.of_activates {P : Time → Prop} {user : User} {p : Payment} {db db' : Db}
    (h : Activates P user p db db') : KeepsPlain db db' := by
  obtain ⟨a, ha, -, rfl⟩ := h
  have hpay : (a.write db).payments = saveOrder db.payments a.payment a.paid := by
    rw [Activation.write_eq]
  exact KeepsPlain.of_saveOrder hpay (Or.inl rfl)

lemma KeepsPlain.of_records {p : Payment} {status : String} {db db' : Db}
    (h : Records p status db db') : KeepsPlain db db' := by
  rw [Records] at h
  rw [h]
  exact KeepsPlain.of_saveOrder rfl (Or.inl rfl)

section

variable {J : World → Input → Prop} {w : World}

lemma alone_plain_openOrder {cfg : Settings} (user : User) (req : OrderRequest) (info : PlanInfo) :
    Proc.Alone J (fun s t => KeepsPlain s.db t.db) (fun r _ => ∀ p, r = .ok p → p.provider = none)
      (openOrder cfg user req info) w := by
  unfold openOrder
  split
  · intro p h; cases h
  refine Proc.Alone.look (KeepsPlain.refl _) ?_
  dsimp only
  split
  · intro p h; cases h
  refine (alone_of_reads (reads_priceOrder user info req.code req.useCredit)
    (KeepsPlain.refl _)).bind ?_ ?_
  · intro quote t _
    split
    · intro p h; cases h
    · refine fun i _ => ⟨KeepsPlain.of_insert (fun _ => rfl) fun _ h => (by cases h), fun p h => ?_⟩
      obtain rfl := Except.ok.inj h
      rfl
  · intro e t _ p h
    cases h

lemma alone_plain_orderFailed (p : Payment) (detail : String) :
    Proc.Alone J (fun s t => KeepsPlain s.db t.db) (fun _ _ => True) (orderFailed p detail) w :=
  fun _ _ => ⟨KeepsPlain.of_saveOrder rfl (Or.inl rfl), trivial⟩

lemma alone_plain_createPayment {cfg : Settings} (username : String) (req : OrderRequest) :
    Proc.Alone J (fun s t => KeepsPlain s.db t.db) (fun _ _ => True)
      (createPayment cfg username req) w := by
  unfold createPayment
  split
  · trivial
  refine (alone_of_reads (reads_currentUser username) (KeepsPlain.refl _)).bind ?_
    (fun _ _ _ => trivial)
  intro user t _
  refine (alone_plain_openOrder user req _).bind ?_ (fun _ _ _ => trivial)
  intro p t _
  refine Proc.Alone.ask (KeepsPlain.refl _) fun i _ => ?_
  split
  · exact alone_plain_orderFailed p _
  · split
    · exact fun _ _ => ⟨KeepsPlain.of_saveOrder rfl (Or.inl rfl), trivial⟩
    · trivial
    · trivial
  · trivial

lemma alone_plain_createPaymentPlatega {cfg : Settings} (username : String) (req : OrderRequest) :
    Proc.Alone J (fun s t => KeepsPlain s.db t.db) (fun _ _ => True)
      (createPaymentPlatega cfg username req) w := by
  unfold createPaymentPlatega
  split
  · trivial
  refine (alone_of_reads (reads_currentUser username) (KeepsPlain.refl _)).bind ?_
    (fun _ _ _ => trivial)
  intro user t _
  refine (alone_plain_openOrder user req _).bind ?_ (fun _ _ _ => trivial)
  intro opened t _
  refine Proc.Alone.change (KeepsPlain.of_saveOrder rfl (Or.inr (by simp))) ?_
  refine Proc.Alone.ask (KeepsPlain.refl _) fun i _ => ?_
  split
  · exact alone_plain_orderFailed _ _
  · dsimp only
    split
    · exact alone_plain_orderFailed _ _
    · split
      · exact fun _ _ => ⟨KeepsPlain.of_saveOrder rfl (Or.inl rfl), trivial⟩
      · trivial
  · trivial

lemma alone_plain_grant (cfg : Settings) (username plan : String) :
    Proc.Alone J (fun s t => KeepsPlain s.db t.db) (fun _ _ => True)
      (VpnPortal.grant cfg username plan) w := by
  unfold VpnPortal.grant
  split
  · trivial
  refine (alone_of_reads (reads_currentUser _) (KeepsPlain.refl _)).bind ?_ (fun _ _ _ => trivial)
  intro user t _
  split
  · trivial
  refine Proc.Alone.exchange (fun i _ => KeepsPlain.of_insert (fun _ => rfl) fun _ _ => rfl)
    fun i _ => ?_
  have honce := once_activatePayment (View.db J { t.db with
    payments := t.db.payments.insert (grantPayment user plan) fun _ => rfl }) cfg user
    (grantPayment user plan t.db.payments.next)
  refine (alone_of_once honce (KeepsPlain.refl _) (fun _ h => KeepsPlain.of_activates h)
    fun ids _ _ hoff => KeepsPlain.of_switchesOff hoff).bind ?_ (fun _ _ _ => trivial)
  intro ok t' _
  split
  · trivial
  · exact fun i _ => ⟨KeepsPlain.of_remove _ _, trivial⟩

/-- Every call keeps the grants plain. -/
lemma alone_plain_call (cfg : Settings) (call : Call) :
    Proc.Alone J (fun s t => KeepsPlain s.db t.db) (fun _ _ => True) (call.run cfg) w := by
  have hconfirms : ∀ {P : Time → Prop} {p : Payment} {db db' : Db}, Confirms P p db db' →
      KeepsPlain db db' := fun ⟨_, _, hact⟩ => KeepsPlain.of_activates hact
  cases call with
  | order username req => exact alone_plain_createPayment username req
  | orderPlatega username req => exact alone_plain_createPaymentPlatega username req
  | callback req =>
      refine (alone_of_once (once_plategaCallback (View.db J w.db) cfg req) (KeepsPlain.refl _) ?_
        fun ids _ _ hoff => KeepsPlain.of_switchesOff hoff).mono (fun _ _ h => h) fun _ _ _ => trivial
      rintro db' ⟨txn, -, -, p, -, -, -, -, status, -, hcase⟩
      rcases hcase with ⟨-, -, hc⟩ | ⟨-, hr⟩ | ⟨-, hr⟩
      · exact hconfirms hc
      · exact KeepsPlain.of_records hr
      · exact KeepsPlain.of_records hr
  | webhook data =>
      cases data with
      | none => trivial
      | some fields =>
          refine (alone_of_once (once_paymentWebhook (View.db J w.db) cfg fields)
            (KeepsPlain.refl _) ?_ fun ids _ _ hoff => KeepsPlain.of_switchesOff hoff).mono
            (fun _ _ h => h) fun _ _ _ => trivial
          rintro db' ⟨p, -, -, hc | ⟨status, -, hr⟩⟩
          · exact hconfirms hc
          · exact KeepsPlain.of_records hr
  | grant username plan => exact alone_plain_grant cfg username plan

end

/-! ### The law and its invariant -/

/-- An order that was paid with the discount of somebody's code. -/
def ReferralPaid (db : Db) (q : Payment) : Prop :=
  q.status = "paid" ∧ (codeOwner db.books q).isSome = true

instance (db : Db) (q : Payment) : Decidable (ReferralPaid db q) :=
  inferInstanceAs (Decidable (q.status = "paid" ∧ (codeOwner db.books q).isSome = true))

/-- The orders a buyer paid with a friend's discount. -/
def referralOrders (db : Db) (buyer : ℕ) : List Payment :=
  db.payments.rows.filter fun q => q.userId = buyer ∧ ReferralPaid db q

/-- The rewards that payments of a buyer earned, whoever the referrer. -/
def rewardsFrom (db : Db) (buyer : ℕ) : List ReferralReward :=
  db.referralRewards.rows.filter fun r =>
    (db.payments.find r.sourcePaymentId).any fun q => q.userId = buyer

/-- A friend's code worked once for the buyer, at most. -/
structure OncePerBuyer (db : Db) (buyer : ℕ) : Prop where
  orders : (referralOrders db buyer).length ≤ 1
  rewards : (rewardsFrom db buyer).length ≤ 1

/-- The invariant: a buyer has one paid order with an owned code, and each
reward comes from such an order, its own. -/
structure CodesUsed (db : Db) : Prop where
  plain : PlainGrants db
  once : ∀ p ∈ db.payments.rows, ∀ q ∈ db.payments.rows, ReferralPaid db p → ReferralPaid db q →
    p.userId = q.userId → p = q
  sources : ∀ r ∈ db.referralRewards.rows, ∃ q, db.payments.find r.sourcePaymentId = some q
    ∧ ReferralPaid db q
  distinct : (db.referralRewards.rows.map ReferralReward.sourcePaymentId).Nodup

/-- A list without repetition whose members are all the same has one at most. -/
lemma length_le_one_of_nodup {α : Type} {l : List α} (hnodup : l.Nodup)
    (h : ∀ a ∈ l, ∀ b ∈ l, a = b) : l.length ≤ 1 := by
  match l, hnodup, h with
  | [], _, _ => simp
  | [_], _, _ => simp
  | a :: b :: _, hnodup, h =>
      have hab : a = b := h a (by simp) b (by simp)
      simp [hab] at hnodup

lemma CodesUsed.oncePerBuyer {db : Db} (h : CodesUsed db) (buyer : ℕ) : OncePerBuyer db buyer where
  orders := by
    refine length_le_one_of_nodup ((List.Nodup.of_map _ db.payments.nodup).filter _) ?_
    intro p hp q hq
    obtain ⟨hp, hpd⟩ := List.mem_filter.mp hp
    obtain ⟨hq, hqd⟩ := List.mem_filter.mp hq
    obtain ⟨hpu, hpr⟩ := of_decide_eq_true hpd
    obtain ⟨hqu, hqr⟩ := of_decide_eq_true hqd
    exact h.once p hp q hq hpr hqr (hpu.trans hqu.symm)
  rewards := by
    refine length_le_one_of_nodup ((List.Nodup.of_map _ db.referralRewards.nodup).filter _) ?_
    intro r hr r' hr'
    obtain ⟨hr, hrd⟩ := List.mem_filter.mp hr
    obtain ⟨hr', hrd'⟩ := List.mem_filter.mp hr'
    obtain ⟨q, hq, hqr⟩ := h.sources r hr
    obtain ⟨q', hq', hqr'⟩ := h.sources r' hr'
    rw [hq] at hrd
    rw [hq'] at hrd'
    have hu : q.userId = buyer := by simpa using hrd
    have hu' : q'.userId = buyer := by simpa using hrd'
    have hqq : q = q' := h.once q (Table.mem_of_find hq).1 q' (Table.mem_of_find hq').1 hqr hqr'
      (hu.trans hu'.symm)
    -- one order has one reward
    have hsource : r.sourcePaymentId = r'.sourcePaymentId := by
      rw [← (Table.mem_of_find hq).2, ← (Table.mem_of_find hq').2, hqq]
    exact List.inj_on_of_nodup_map h.distinct hr hr' hsource

/-! ### One step -/

lemma codeOwner_of_promoCodes {b b' : Books} (h : b'.promoCodes = b.promoCodes) (q : Payment) :
    codeOwner b' q = codeOwner b q := by
  unfold codeOwner
  rw [h]

lemma ReferralPaid.of_promoCodes {db db' : Db} (h : db'.promoCodes = db.promoCodes) {q : Payment} :
    ReferralPaid db' q ↔ ReferralPaid db q := by
  have howner : codeOwner db'.books q = codeOwner db.books q := codeOwner_of_promoCodes h q
  unfold ReferralPaid
  rw [howner]

/-- An order with an owned code is paid as the buyer's first purchase. -/
def FirstWhenPaid (w w' : World) : Prop :=
  ∀ q, PaidNow w.db w'.db q → (codeOwner w.db.books q).isSome = true →
    isFirstPurchase w.db q.userId = true

/-- Filing orders pays none and touches no reward. -/
lemma CodesUsed.filed {db db' : Db} (h : CodesUsed db) (hf : Filed db db') (hplain : PlainGrants db') :
    CodesUsed db' := by
  have hcodes : db'.promoCodes = db.promoCodes := by rw [hf.rest]
  have hrewards : db'.referralRewards = db.referralRewards := by rw [hf.rest]
  have hrow : ∀ p ∈ db'.payments.rows, ReferralPaid db' p → p ∈ db.payments.rows := by
    intro p hp hpaid
    exact (Table.mem_of_find ((hf.paid _ p hpaid.1).mp (Table.find_of_mem hp))).1
  refine ⟨hplain, fun p hp q hq hpr hqr hu => ?_, fun r hr => ?_, by rw [hrewards]; exact h.distinct⟩
  · exact h.once p (hrow p hp hpr) q (hrow q hq hqr) ((ReferralPaid.of_promoCodes hcodes).mp hpr)
      ((ReferralPaid.of_promoCodes hcodes).mp hqr) hu
  · rw [hrewards] at hr
    obtain ⟨q, hq, hqr⟩ := h.sources r hr
    exact ⟨q, (hf.paid _ q hqr.1).mpr hq, (ReferralPaid.of_promoCodes hcodes).mpr hqr⟩

/-- A paid order with a code is a purchase. -/
lemma not_first_of_referralPaid {db : Db} (hplain : PlainGrants db) {p : Payment}
    (hp : p ∈ db.payments.rows) (hr : ReferralPaid db p) : isFirstPurchase db p.userId = false := by
  have hcode : p.promoCode ≠ none := by
    intro hnone
    have howner := hr.2
    rw [codeOwner, hnone] at howner
    cases howner
  have hprov : p.provider ≠ some "manual" := fun hmanual => hcode (hplain p hp hmanual)
  unfold isFirstPurchase
  rw [Bool.not_eq_false', List.any_eq_true]
  exact ⟨p, hp, by simp [hr.1, hprov]⟩

/-- The sources of the rewards after an activation. -/
lemma sources_addReward {b : Books} {user : User} {p : Payment} {a : Activation}
    (ha : a.Drawn b user p) (rewards : Table ReferralReward) :
    (a.addReward rewards).rows.map ReferralReward.sourcePaymentId
        = rewards.rows.map ReferralReward.sourcePaymentId
      ∨ ((codeOwner b p).isSome = true ∧ (∀ r ∈ rewards.rows, r.sourcePaymentId ≠ p.id)
        ∧ (a.addReward rewards).rows.map ReferralReward.sourcePaymentId
          = rewards.rows.map ReferralReward.sourcePaymentId ++ [p.id]) := by
  unfold Activation.addReward
  cases hr : a.reward with
  | none => exact Or.inl rfl
  | some r =>
      have hof : rewardOf b p a.at_ = some r := by rw [← ha.reward_eq, hr]
      unfold rewardOf at hof
      cases howner : codeOwner b p with
      | none => rw [howner] at hof; cases hof
      | some owner =>
          rw [howner] at hof
          dsimp only at hof
          split at hof
          · cases hof
          · obtain rfl := Option.some.inj hof
            dsimp only
            split
            · exact Or.inl rfl
            · rename_i hnew
              refine Or.inr ⟨rfl, fun x hx hsrc => hnew ⟨x, hx, hsrc⟩, ?_⟩
              rw [Table.rows_insert, List.map_append]
              rfl

/-- An activation pays one order, whose buyer has no purchase yet if it carries
an owned code. -/
lemma CodesUsed.sold {t : Time} {user : User} {p : Payment} {db db' : Db} (h : CodesUsed db)
    (hs : Sold t user p db db') (hplain : PlainGrants db')
    (hfirst : ∀ q, PaidNow db db' q → (codeOwner db.books q).isSome = true →
      isFirstPurchase db q.userId = true) : CodesUsed db' := by
  obtain ⟨db₁, a, ids, hfiled, hopen, -, -, ha, -, -, off, -, hdb⟩ := hs
  have hpay : db'.payments = saveOrder db₁.payments a.payment a.paid := by
    rw [hdb, Db.foldl_deactivate, Activation.write_eq]
  have hcodes : db'.promoCodes = db.promoCodes := by
    rw [hdb, Db.foldl_deactivate, Activation.write_eq, hfiled.rest]
  have hrewards : db'.referralRewards.rows.map ReferralReward.sourcePaymentId
      = (a.addReward db.referralRewards).rows.map ReferralReward.sourcePaymentId := by
    have hmarked := congrArg (List.map Prod.fst) (sources_foldl_markApplied a.at_
      (a.applied.map ReferralReward.id) (a.addReward db₁.referralRewards))
    rw [List.map_map, List.map_map] at hmarked
    rw [hdb, Db.foldl_deactivate, Activation.write_eq]
    rw [show db.referralRewards = db₁.referralRewards by rw [hfiled.rest]]
    exact hmarked
  have hown : db'.payments.find p.id = some a.paid := by
    rw [hpay, ← ha.payment_eq, find_saveOrder_self a.paid (by rw [ha.payment_eq]; exact hopen.1),
      ← ha.payment_eq, a.merge_paid]
  have hother : ∀ m, m ≠ p.id → db'.payments.find m = db₁.payments.find m := by
    intro m hm
    rw [hpay, find_saveOrder_of_ne (by rw [ha.payment_eq]; exact hm)]
  have hid : a.paid.id = p.id := by rw [Activation.paid, ha.payment_eq]
  have hnow : PaidNow db db' a.paid := by
    refine ⟨by rw [hid]; exact hown, rfl, fun hrow => ?_⟩
    rw [hid] at hrow
    have hrow' := (hfiled.paid p.id a.paid rfl).mpr hrow
    obtain rfl := Option.some.inj (hopen.1.symm.trans hrow')
    exact hopen.2 rfl
  have hcode : codeOwner db.books a.paid = codeOwner db₁.books p := by
    have hcodes₁ : db₁.promoCodes = db.promoCodes := by rw [hfiled.rest]
    rw [Activation.paid, ha.payment_eq, codeOwner_of_promoCodes (b := db₁.books) hcodes₁.symm]
    rfl
  -- a paid order of `db'` is the one just paid, or was paid before
  have hrow : ∀ q ∈ db'.payments.rows, ReferralPaid db' q →
      q = a.paid ∨ (q ∈ db.payments.rows ∧ ReferralPaid db q) := by
    intro q hq hqr
    by_cases hm : q.id = p.id
    · have hfind := Table.find_of_mem hq
      rw [num_payment, hm, hown] at hfind
      exact Or.inl (Option.some.inj hfind).symm
    · have hfind := Table.find_of_mem hq
      rw [num_payment, hother _ hm] at hfind
      exact Or.inr ⟨(Table.mem_of_find ((hfiled.paid _ q hqr.1).mp hfind)).1,
        (ReferralPaid.of_promoCodes hcodes).mp hqr⟩
  have hfirst' : ∀ q, ReferralPaid db' a.paid → q ∈ db.payments.rows → ReferralPaid db q →
      q.userId ≠ a.paid.userId := by
    intro q hqr hq hqold hu
    have howned : (codeOwner db.books a.paid).isSome = true :=
      ((ReferralPaid.of_promoCodes hcodes).mp hqr).2
    have hbuyer := hfirst a.paid hnow howned
    rw [← hu, not_first_of_referralPaid h.plain hq hqold] at hbuyer
    cases hbuyer
  have hkept : ∀ r ∈ db.referralRewards.rows, ∃ q, db'.payments.find r.sourcePaymentId = some q
      ∧ ReferralPaid db' q := by
    intro r hr
    obtain ⟨q, hq, hqr⟩ := h.sources r hr
    have hq₁ := (hfiled.paid _ q hqr.1).mpr hq
    have hne : r.sourcePaymentId ≠ p.id := by
      intro heq
      rw [heq, hopen.1] at hq₁
      obtain rfl := Option.some.inj hq₁
      exact hopen.2 hqr.1
    exact ⟨q, by rw [hother _ hne]; exact hq₁, (ReferralPaid.of_promoCodes hcodes).mpr hqr⟩
  have hsource : ∀ n ∈ db'.referralRewards.rows.map ReferralReward.sourcePaymentId,
      ∃ q, db'.payments.find n = some q ∧ ReferralPaid db' q := by
    intro n hn
    rw [hrewards] at hn
    rcases sources_addReward ha db.referralRewards with heq | ⟨howner, -, heq⟩
    · rw [heq] at hn
      obtain ⟨r, hr, rfl⟩ := List.mem_map.mp hn
      exact hkept r hr
    · rw [heq] at hn
      rcases List.mem_append.mp hn with hn | hn
      · obtain ⟨r, hr, rfl⟩ := List.mem_map.mp hn
        exact hkept r hr
      · rw [List.mem_singleton.mp hn]
        refine ⟨a.paid, hown, (ReferralPaid.of_promoCodes hcodes).mpr ⟨rfl, ?_⟩⟩
        rw [hcode]
        exact howner
  refine ⟨hplain, fun x hx y hy hxr hyr hu => ?_, fun r hr => ?_, ?_⟩
  · rcases hrow x hx hxr with rfl | ⟨hx, hxold⟩
    · rcases hrow y hy hyr with rfl | ⟨hy, hyold⟩
      · rfl
      · exact absurd hu.symm (hfirst' y hxr hy hyold)
    · rcases hrow y hy hyr with rfl | ⟨hy, hyold⟩
      · exact absurd hu (hfirst' x hyr hx hxold)
      · exact h.once x hx y hy hxold hyold hu
  · exact hsource _ (List.mem_map_of_mem hr)
  · rw [hrewards]
    rcases sources_addReward ha db.referralRewards with heq | ⟨-, hnew, heq⟩
    · rw [heq]
      exact h.distinct
    · rw [heq]
      refine List.nodup_append.mpr ⟨h.distinct, by simp, fun x hx y hy => ?_⟩
      obtain ⟨r, hr, rfl⟩ := List.mem_map.mp hx
      rw [List.mem_singleton.mp hy]
      exact hnew r hr

/-! ### Whole runs -/

/-- One call of a payment endpoint, whatever its answers. -/
def Called (cfg : Settings) (w w' : World) : Prop :=
  ∃ (c : Call) (r : Except Exn Response), Proc.Runs anyInput (c.run cfg) w r w'

/-- **The step lemma.** -/
lemma CodesUsed.called {cfg : Settings} {w w' : World} (h : CodesUsed w.db) (hc : Called cfg w w')
    (hfirst : FirstWhenPaid w w') : CodesUsed w'.db := by
  obtain ⟨c, r, hrun⟩ := hc
  have hplain : PlainGrants w'.db := invariant_of_alone (alone_plain_call cfg c)
    (fun _ _ hI hkeep => hkeep hI) hrun h.plain
  obtain ⟨-, hfiled | ⟨user, p, -, hsold⟩⟩ := effect_of_call c hrun
  · exact h.filed hfiled hplain
  · exact h.sold hsold hplain hfirst

/-- **A friend's code works once per buyer, as long as it is the first purchase
that is paid.** Let the payment endpoints be called in any order, from a
database without orders and rewards, so that orders are opened with any codes,
typed or registered, and any of them are paid. If an order with an owned code
is only paid while `is_first_purchase` holds for its buyer, then in the state
reached every buyer has one paid order with a friend's discount at most, and one
reward at most names a payment of that buyer. -/
theorem code_works_once (cfg : Settings) {w₀ w : World} {steps : List (World × World)}
    (horders : w₀.db.payments.rows = []) (hrewards : w₀.db.referralRewards.rows = [])
    (h : Trail (Called cfg) w₀ steps w) (hfirst : ∀ s ∈ steps, FirstWhenPaid s.1 s.2) :
    ∀ buyer, OncePerBuyer w.db buyer := by
  have hempty : CodesUsed w₀.db := by
    refine ⟨fun p hp => ?_, fun p hp => ?_, fun r hr => ?_, by rw [hrewards]; simp⟩
    · rw [horders] at hp; cases hp
    · rw [horders] at hp; cases hp
    · rw [hrewards] at hr; cases hr
  have hend : CodesUsed w.db := h.invariant (I := fun w => CodesUsed w.db) (C := FirstWhenPaid) hempty
    (fun _ _ hc hfirst hu => hu.called hc hfirst) hfirst
  exact hend.oncePerBuyer

/-- A buyer or a friend. -/
def verifiedUser (name : String) (n : ℕ) : User :=
  { id := n, username := name, emailVerifiedAt := some 0 }

/-- A buyer, a friend, and the friend's code. -/
def friendsCode : World where
  db := {
    users := ((default : Table User).insert (verifiedUser "ann") fun _ => rfl).insert
      (verifiedUser "ben") fun _ => rfl
    promoCodes := (default : Table PromoCode).insert
      (fun n => { id := n, code := "BEN", ownerUserId := some 1 }) fun _ => rfl }

/-- The order with that code. -/
def codeOrderCall : Call := .order "ann" { plan := "basic-1m", code := some "ben" }

/-- The orders are opened one after the other, then both are paid. -/
def twoCodeOrders : List (World × World) :=
  let w₁ := friendsCode.after codeOrderCall
  let w₂ := w₁.after codeOrderCall
  let w₃ := w₂.after (paidCall "0")
  [(friendsCode, w₁), (w₁, w₂), (w₂, w₃), (w₃, w₃.after (paidCall "1"))]

/-- The end of that run. -/
def twoCodesPaid : World :=
  (((friendsCode.after codeOrderCall).after codeOrderCall).after (paidCall "0")).after (paidCall "1")

lemma Called.after (w : World) (c : Call) : Called {} w (w.after c) :=
  ⟨c, _, Proc.runs_play (fun _ => trivial) _ _⟩

/-- Two orders opened before either is paid both carry the discount, and the
friend is rewarded for both. -/
theorem code_works_twice :
    Trail (Called {}) friendsCode twoCodeOrders twoCodesPaid
      ∧ (referralOrders twoCodesPaid.db 0).length = 2 ∧ (rewardsFrom twoCodesPaid.db 0).length = 2
      ∧ ¬ OncePerBuyer twoCodesPaid.db 0 := by
  have horders : (referralOrders twoCodesPaid.db 0).length = 2 := by decide
  refine ⟨(((Trail.nil.snoc (.after _ _)).snoc (.after _ _)).snoc (.after _ _)).snoc (.after _ _),
    horders, by decide, fun h => ?_⟩
  have hle := h.orders
  rw [horders] at hle
  omega

/-- Another buyer. -/
def twoBuyers : World :=
  { friendsCode with db := { friendsCode.db with
      users := friendsCode.db.users.insert (verifiedUser "cora") fun _ => rfl } }

/-- Both open an order with the code, and both orders are paid. -/
def bothBuy (w : World) : World :=
  ((w.after codeOrderCall).after (.order "cora" { plan := "basic-1m", code := some "ben" })).after
    (paidCall "0") |>.after (paidCall "1")

/-- Then the first buyer renews, without a code. -/
def renewed (w : World) : World := ((bothBuy w).after (.order "ann" { plan := "basic-1m" })).after (paidCall "2")

/-- Each buyer has the discount once, and the friend one reward for each, with a renewal
that is paid after them. -/
theorem code_works_once_ben :
    (rewardsFrom (renewed twoBuyers).db 0).length = 1 ∧ (rewardsFrom (renewed twoBuyers).db 2).length = 1
      ∧ (renewed twoBuyers).db.payments.rows.map Payment.status = ["paid", "paid", "paid"]
      ∧ ∀ buyer, OncePerBuyer (renewed twoBuyers).db buyer := by
  refine ⟨by decide, by decide, by decide, code_works_once {} rfl rfl
    ((((((Trail.nil.snoc (.after twoBuyers codeOrderCall)).snoc (.after _ _)).snoc (.after _ _)).snoc
      (.after _ _)).snoc (.after _ _)).snoc (.after _ _)) fun s hs => ?_⟩
  have hrows : ∀ {w w' : World}, (∀ q ∈ w'.db.payments.rows, q.status = "paid" →
      w.db.payments.find q.id ≠ some q → (codeOwner w.db.books q).isSome = true →
      isFirstPurchase w.db q.userId = true) → FirstWhenPaid w w' := fun h q hq howner =>
    h q (Table.mem_of_find hq.1).1 hq.2.1 hq.2.2 howner
  simp only [List.nil_append, List.cons_append, List.mem_cons, List.not_mem_nil, or_false] at hs
  rcases hs with rfl | rfl | rfl | rfl | rfl | rfl
  all_goals exact hrows (by decide)

end VpnPortal
