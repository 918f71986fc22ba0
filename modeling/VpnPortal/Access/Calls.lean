/-
What a call of a payment endpoint does, as a whole.

Alone, a call only files orders (`Filed`: it records one, marks it failed or
writes the gateway's word on it), or it activates one (`Sold`): then, up to the
order rows, the database is that of the activation, made at the time the clock
shows.

* `Filed`, `Sold`, `CallEffect`: what a call can leave: order rows, or one activation;
* `alone_filed_createPayment`, `alone_confirm_at`, `alone_grant_at`: an order that is
  opened is filed only, a confirmation and a grant sell at the time of the clock;
* `effect_of_call`: **every call** alone files orders or sells one.
-/
import VpnPortal.Access.Operations

namespace VpnPortal

open Sessions Tables

/-- Only orders change, and the paid ones are the same. -/
structure Filed (db db' : Db) : Prop where
  rest : db' = { db with payments := db'.payments }
  paid : ∀ n q, q.status = "paid" → (db'.payments.find n = some q ↔ db.payments.find n = some q)

lemma Filed.refl (db : Db) : Filed db db := ⟨rfl, fun _ _ _ => Iff.rfl⟩

lemma Filed.trans {db₁ db₂ db₃ : Db} (h : Filed db₁ db₂) (h' : Filed db₂ db₃) : Filed db₁ db₃ where
  rest := by
    rw [h'.rest, h.rest]
  paid n q hpaid := (h'.paid n q hpaid).trans (h.paid n q hpaid)

/-- The order `n` is not paid, before and after, and no other is touched. -/
lemma Filed.of_row {db db' : Db} (n : ℕ) (hrest : db' = { db with payments := db'.payments })
    (hold : ∀ q, db.payments.find n = some q → q.status ≠ "paid")
    (hnew : ∀ q, db'.payments.find n = some q → q.status ≠ "paid")
    (hother : ∀ m, m ≠ n → db'.payments.find m = db.payments.find m) : Filed db db' where
  rest := hrest
  paid m q hpaid := by
    by_cases hm : m = n
    · subst hm
      exact ⟨fun h => absurd hpaid (hnew q h), fun h => absurd hpaid (hold q h)⟩
    · rw [hother m hm]

/-- An open order is written and stays open. -/
lemma Filed.of_savePayment {db : Db} {p p' : Payment} (hp : OpenOrder db p) (hid : p'.id = p.id)
    (hmerge : Payment.merge p p' p = p') (hopen : p'.status ≠ "paid") :
    Filed db (db.savePayment p p') := by
  refine Filed.of_row p.id rfl (fun q hq => ?_) (fun q hq => ?_) fun m hm => find_saveOrder_of_ne hm
  · obtain rfl := Option.some.inj (hp.1.symm.trans hq)
    exact hp.2
  · have hown := (openOrder_savePayment p' hp hid hmerge hopen).1
    rw [hid] at hown
    obtain rfl := Option.some.inj (hown.symm.trans hq)
    exact hopen

/-- A new order is open. -/
lemma Filed.of_insert {db : Db} {mk : ℕ → Payment} (hmk : ∀ n, Row.num (mk n) = n)
    (hopen : ∀ n, (mk n).status ≠ "paid") :
    Filed db { db with payments := db.payments.insert mk hmk } := by
  refine Filed.of_row db.payments.next rfl (fun q hq => ?_) (fun q hq => ?_)
    fun m hm => Table.find_insert_of_ne hmk hm
  · exact absurd (Table.lt_next_of_find hq) (lt_irrefl _)
  · obtain rfl := Option.some.inj ((Table.find_insert_next hmk).symm.trans hq)
    exact hopen _

/-- An open order is taken back again. -/
lemma Filed.of_remove {db : Db} {p : Payment} (hp : OpenOrder db p) :
    Filed db { db with payments := db.payments.remove p.id } := by
  refine Filed.of_row p.id rfl (fun q hq => ?_) (fun q hq => ?_) fun m hm => Table.find_remove_of_ne hm
  · obtain rfl := Option.some.inj (hp.1.symm.trans hq)
    exact hp.2
  · rw [show _ = _ from Table.find_remove_self db.payments p.id] at hq
    cases hq

/-- The order `p` of the account `user` was activated at the time `t`. -/
def Sold (t : Time) (user : User) (p : Payment) (db db' : Db) : Prop :=
  ∃ (db₁ : Db) (a : Activation) (ids : List ℕ), Filed db db₁ ∧ OpenOrder db₁ p ∧ user.id = p.userId
    ∧ db₁.users.find user.id = some user ∧ a.Drawn db₁.books user p
    ∧ (a.device ≠ none → paidDevices db₁ user.id = []) ∧ a.at_ = t
    ∧ SwitchesOff ids (a.write db₁) db'

/-- The orders a call can activate: those of others, or the one it grants. -/
def Call.Sells : Call → User → Payment → Prop
  | .order _ _, _, _ => False
  | .orderPlatega _ _, _, _ => False
  | .callback _, _, _ => True
  | .webhook _, _, _ => True
  | .grant username plan, user, p => user.username = strip username ∧ user.isActive = true
      ∧ (plans.lookup plan).isSome = true ∧ p.plan = plan

/-- What a call does. -/
def CallEffect (call : Call) (w w' : World) : Prop :=
  w.clock ≤ w'.clock ∧ (Filed w.db w'.db
    ∨ ∃ user p, call.Sells user p ∧ Sold w'.clock user p w.db w'.db)

section

variable {J : World → Input → Prop} {w : World} {cfg : Settings}

/-! ### Opening an order -/

/-- Nothing but the clock has moved. -/
def Later (w w' : World) : Prop := w'.db = w.db ∧ w.clock ≤ w'.clock

lemma Later.refl (w : World) : Later w w := ⟨rfl, le_rfl⟩

lemma Later.of_star {w w' : World} (h : Relation.ReflTransGen Later w w') : Later w w' := by
  induction h with
  | refl => exact Later.refl _
  | tail _ hstep ih => exact ⟨hstep.1.trans ih.1, ih.2.trans hstep.2⟩

lemma Later.filed {w w' : World} (h : Later w w') : Filed w.db w'.db := by
  rw [h.1]
  exact Filed.refl _

lemma within_later_now {α : Type} {f : Time → Portal α}
    (hf : ∀ t, Proc.Within J Later (fun _ => True) (f t)) :
    Proc.Within J Later (fun _ => True) (now >>= f) :=
  fun _ _ _ => ⟨⟨rfl, le_max_left _ _⟩, hf _⟩

lemma within_later_select {α β : Type} {q : Db → α} {f : α → Portal β}
    (hf : ∀ a, Proc.Within J Later (fun _ => True) (f a)) :
    Proc.Within J Later (fun _ => True) (select q >>= f) :=
  fun s _ _ => ⟨Later.refl s, hf _⟩

lemma within_resolveCode {cfg : Settings} (code : Option String) (buyer : User) :
    Proc.Within J Later (fun _ => True) (resolveCode cfg code buyer) := by
  have hused : ∀ promo, Proc.Within J Later (fun _ => True) (isUsedUp promo) := by
    intro promo
    unfold isUsedUp
    split
    · trivial
    · exact within_later_select fun _ => trivial
  unfold resolveCode
  split
  · trivial
  · trivial
  refine within_later_now fun t => within_later_select fun promo => ?_
  split
  · trivial
  split
  · trivial
  split
  · trivial
  refine (hused _).bind (fun used _ => ?_) fun _ _ => trivial
  split
  · trivial
  split
  · trivial
  split
  · refine within_later_select fun first => ?_
    split <;> trivial
  · trivial

lemma within_priceOrder (cfg : Settings) (user : User) (info : PlanInfo) (code : Option String)
    (useCredit : ℤ) :
    Proc.Within J Later (fun _ => True) (priceOrder cfg user info code useCredit) := by
  have hregistered : ∀ promo, Proc.Within J Later (fun _ => True) (registeredPromo cfg user code promo) := by
    intro promo
    unfold registeredPromo
    split
    · refine within_later_select fun first => ?_
      split
      · exact (within_resolveCode _ user).bind (fun _ _ => trivial) fun _ _ => trivial
      · trivial
    · trivial
  refine (within_resolveCode code user).bind ?_ fun _ _ => trivial
  rintro ⟨promo, refusal⟩ -
  refine (hregistered promo).bind (fun _ _ => ?_) fun _ _ => trivial
  exact within_later_now fun t => within_later_select fun _ => trivial

/-- The clock has run on and orders were filed. -/
def Files (w w' : World) : Prop := w.clock ≤ w'.clock ∧ Filed w.db w'.db

lemma Files.trans {w₁ w₂ w₃ : World} (h : Files w₁ w₂) (h' : Files w₂ w₃) : Files w₁ w₃ :=
  ⟨h.1.trans h'.1, h.2.trans h'.2⟩

lemma Files.effect {call : Call} {w w' : World} (h : Files w w') : CallEffect call w w' :=
  ⟨h.1, Or.inl h.2⟩

lemma alone_filed_openOrder {cfg : Settings} (user : User) (req : OrderRequest) (info : PlanInfo) :
    Proc.Alone J (fun _ _ => True)
      (fun r t => Files w t ∧ ∀ p, r = .ok p → OpenOrder t.db p) (openOrder cfg user req info) w := by
  have hstill : Files w w := ⟨le_rfl, Filed.refl _⟩
  unfold openOrder
  split
  · exact ⟨hstill, fun p h => (by cases h)⟩
  refine Proc.Alone.look trivial ?_
  dsimp only
  split
  · exact ⟨hstill, fun p h => (by cases h)⟩
  have hprice := (within_priceOrder (J := J) cfg user info req.code req.useCredit).alone w
  refine Proc.Alone.bind (hprice.mono (fun _ _ _ => trivial) fun _ _ h => Later.of_star h.1) ?_ ?_
  · intro quote t ht
    have hfiled : Files w t := ⟨ht.2, ht.filed⟩
    split
    · exact ⟨hfiled, fun p h => (by cases h)⟩
    · refine fun i _ => ⟨trivial, ⟨ht.2, ht.filed.trans ?_⟩, fun p h => ?_⟩
      · exact Filed.of_insert (fun _ => rfl) fun _ => pending_ne_paid
      · obtain rfl := Except.ok.inj h
        exact ⟨Table.find_insert_next _, pending_ne_paid⟩
  · intro e t ht
    exact ⟨⟨ht.2, ht.filed⟩, fun p h => (by cases h)⟩

/-- One write of an open order. -/
lemma alone_filed_save {α : Type} {p : Payment} (p' : Payment) (hp : OpenOrder w.db p)
    (hid : p'.id = p.id) (hmerge : Payment.merge p p' p = p') (hopen : p'.status ≠ "paid")
    {f : Unit → Portal α}
    (hf : ∀ w', w'.db = w.db.savePayment p p' → Proc.Alone J (fun _ _ => True) (fun _ t => Files w' t)
      (f ()) w') :
    Proc.Alone J (fun _ _ => True) (fun _ t => Files w t) (commit (Db.savePayment p p') >>= f) w := by
  refine Proc.Alone.change trivial ((hf _ rfl).mono (fun _ _ h => h) fun _ t h => ?_)
  have hsave : Files w { w with db := w.db.savePayment p p' } :=
    ⟨le_rfl, Filed.of_savePayment hp hid hmerge hopen⟩
  exact hsave.trans h

lemma alone_filed_orderFailed {p : Payment} (hp : OpenOrder w.db p) (detail : String) :
    Proc.Alone J (fun _ _ => True) (fun _ t => Files w t) (orderFailed p detail) w :=
  alone_filed_save { p with status := "error" } hp rfl (by simp [Payment.merge])
    (by decide : "error" ≠ "paid") fun _ _ => show Files _ _ from ⟨le_rfl, Filed.refl _⟩

lemma alone_filed_createPayment {cfg : Settings} (username : String) (req : OrderRequest) :
    Proc.Alone J (fun _ _ => True) (fun _ t => Files w t) (createPayment cfg username req) w := by
  have hstill : ∀ v : World, Files v v := fun v => ⟨le_rfl, Filed.refl _⟩
  unfold createPayment
  split
  · exact hstill w
  refine (alone_currentUser username).bind ?_ ?_
  · rintro user v ⟨rfl, -⟩
    refine (alone_filed_openOrder user req _).bind ?_ fun _ _ h => h.1
    rintro p t ⟨hfiles, hopen⟩
    suffices hrest : Proc.Alone J (fun _ _ => True) (fun _ u => Files t u) _ t from
      hrest.mono (fun _ _ h => h) fun _ _ h => hfiles.trans h
    refine Proc.Alone.ask trivial fun i _ => ?_
    split
    · exact alone_filed_orderFailed (hopen p rfl) _
    · split
      · rename_i uuid _
        refine alone_filed_save { p with heleketInvoiceId := some uuid } (hopen p rfl) rfl
          (by simp [Payment.merge]) (hopen p rfl).2 ?_
        exact fun u _ => hstill u
      · exact hstill t
      · exact hstill t
    · exact hstill t
  · rintro e v ⟨rfl, -⟩
    exact hstill v

lemma alone_filed_createPaymentPlatega {cfg : Settings} (username : String) (req : OrderRequest) :
    Proc.Alone J (fun _ _ => True) (fun _ t => Files w t) (createPaymentPlatega cfg username req) w := by
  have hstill : ∀ v : World, Files v v := fun v => ⟨le_rfl, Filed.refl _⟩
  unfold createPaymentPlatega
  split
  · exact hstill w
  refine (alone_currentUser username).bind ?_ ?_
  · rintro user v ⟨rfl, -⟩
    refine (alone_filed_openOrder user req _).bind ?_ fun _ _ h => h.1
    rintro opened t ⟨hfiles, hopen⟩
    suffices hrest : Proc.Alone J (fun _ _ => True) (fun _ u => Files t u) _ t from
      hrest.mono (fun _ _ h => h) fun _ _ h => hfiles.trans h
    refine alone_filed_save { opened with provider := some "platega" } (hopen opened rfl) rfl
      (by simp [Payment.merge]) (hopen opened rfl).2 ?_
    intro u hu
    have hopen' : OpenOrder u.db { opened with provider := some "platega" } := by
      rw [hu]
      exact openOrder_savePayment _ (hopen opened rfl) rfl (by simp [Payment.merge])
        (hopen opened rfl).2
    refine Proc.Alone.ask trivial fun i _ => ?_
    split
    · exact alone_filed_orderFailed hopen' _
    · dsimp only
      split
      · exact alone_filed_orderFailed hopen' _
      · split
        · rename_i ref _
          refine alone_filed_save { opened with provider := some "platega", providerRef := some ref }
            hopen' rfl (by simp [Payment.merge]) hopen'.2 ?_
          exact fun u _ => hstill u
        · exact hstill u
    · exact hstill u
  · rintro e v ⟨rfl, -⟩
    exact hstill v

/-! ### Notifications -/

/-- The end of an activation, or of a handler that changed nothing. -/
def Confirmed (p : Payment) (w w' : World) : Prop :=
  w.clock ≤ w'.clock ∧ (w'.db = w.db ∨ ∃ user, Sold w'.clock user p w.db w'.db)

lemma Confirmed.effect {call : Call} {p : Payment} {w w' : World} (h : Confirmed p w w')
    (hsells : ∀ user, call.Sells user p) : CallEffect call w w' := by
  obtain ⟨hclock, hdb | ⟨user, hsold⟩⟩ := h
  · exact ⟨hclock, Or.inl (by rw [hdb]; exact Filed.refl _)⟩
  · exact ⟨hclock, Or.inr ⟨user, p, hsells user, hsold⟩⟩

lemma alone_confirm_at {p : Payment} (hp : OpenOrder w.db p) :
    Proc.Alone J (fun _ _ => True) (fun _ w' => Confirmed p w w') (confirm cfg p) w := by
  refine Proc.Alone.look trivial ?_
  dsimp only
  cases hu : w.db.users.find p.userId with
  | none => exact ⟨le_rfl, Or.inl rfl⟩
  | some user =>
      have hid : user.id = p.userId := (Table.mem_of_find hu).2
      refine (alone_activatePayment_at user p).bind ?_ ?_
      · rintro ok w' ⟨hclock, ⟨-, hdb⟩ | ⟨-, a, ids, ha, hfirst, hat, hoff⟩⟩
        · exact ⟨hclock, Or.inl hdb⟩
        · exact ⟨hclock, Or.inr ⟨user, w.db, a, ids, Filed.refl _, hp, hid, by rw [hid]; exact hu, ha,
            hfirst, hat, hoff⟩⟩
      · rintro e w' ⟨hclock, ⟨-, hdb⟩ | ⟨h, -⟩⟩
        · exact ⟨hclock, Or.inl hdb⟩
        · cases h

lemma alone_filed_recordStatus {p : Payment} (hp : OpenOrder w.db p) {status : String}
    (hstatus : status ≠ "paid") :
    Proc.Alone J (fun _ _ => True) (fun _ t => Files w t) (recordStatus p status) w := by
  refine alone_filed_save { p with status := status } hp rfl (by simp [Payment.merge]) hstatus ?_
  exact fun u _ => ⟨le_rfl, Filed.refl _⟩

lemma alone_plategaStatus_at {p : Payment} (hp : OpenOrder w.db p) (req : CallbackRequest)
    (status : List (String × Json)) :
    Proc.Alone J (fun _ _ => True) (fun _ w' => CallEffect (.callback req) w w')
      (plategaStatus cfg p status) w := by
  have hstill : CallEffect (.callback req) w w := ⟨le_rfl, Or.inl (Filed.refl _)⟩
  unfold plategaStatus
  dsimp only
  split
  · split
    · exact hstill
    · split
      · exact (alone_confirm_at hp).mono (fun _ _ h => h) fun _ _ h => h.effect fun _ => trivial
      · exact hstill
  · split
    · exact (alone_filed_recordStatus hp (by decide)).mono (fun _ _ h => h) fun _ _ h => h.effect
    · split
      · exact (alone_filed_recordStatus hp (by decide)).mono (fun _ _ h => h) fun _ _ h => h.effect
      · exact hstill

lemma alone_plategaCallback_at (req : CallbackRequest) :
    Proc.Alone J (fun _ _ => True) (fun _ w' => CallEffect (.callback req) w w')
      (plategaCallback cfg req) w := by
  have hstill : CallEffect (.callback req) w w := ⟨le_rfl, Or.inl (Filed.refl _)⟩
  unfold plategaCallback
  split
  · exact hstill
  · exact hstill
  split
  · exact hstill
  · rename_i txn _
    unfold plategaNudge
    split
    · exact hstill
    refine Proc.Alone.look trivial ((alone_scalarOneOrNone _).bind ?_ ?_)
    · rintro o w' ⟨rfl, ho⟩
      cases o with
      | none => exact hstill
      | some p =>
          dsimp only
          split
          · exact hstill
          · rename_i hopen
            have hp : OpenOrder w'.db p :=
              ⟨Table.find_of_mem (List.mem_filter.mp (ho p rfl)).1, hopen⟩
            refine Proc.Alone.ask trivial fun i _ => ?_
            split
            · exact hstill
            · exact hstill
            · exact alone_plategaStatus_at hp req _
            · exact hstill
    · rintro e w' ⟨rfl, -⟩
      exact hstill

lemma alone_heleketStatus_at {p : Payment} (hp : OpenOrder w.db p)
    (data : Option (List (String × Json))) (status : Json) :
    Proc.Alone J (fun _ _ => True) (fun _ w' => CallEffect (.webhook data) w w')
      (heleketStatus cfg p status) w := by
  have hstill : CallEffect (.webhook data) w w := ⟨le_rfl, Or.inl (Filed.refl _)⟩
  have hrecord : ∀ s, s ≠ "paid" → Proc.Alone J (fun _ _ => True)
      (fun _ w' => CallEffect (.webhook data) w w') (recordStatus p s) w := fun s hs =>
    (alone_filed_recordStatus hp hs).mono (fun _ _ h => h) fun _ _ h => h.effect
  unfold heleketStatus
  split
  · split
    · exact (alone_confirm_at hp).mono (fun _ _ h => h) fun _ _ h => h.effect fun _ => trivial
    · rename_i s hpaid
      split
      · exact hstill
      · refine hrecord _ ?_
        split
        · decide
        · rintro rfl
          exact hpaid (by decide)
  · exact hstill
  · exact hstill
  · split
    · exact hstill
    · exact hrecord _ (by decide)

lemma alone_paymentWebhook_at (data : Option (List (String × Json))) :
    Proc.Alone J (fun _ _ => True) (fun _ w' => CallEffect (.webhook data) w w')
      (paymentWebhook cfg data) w := by
  have hstill : CallEffect (.webhook data) w w := ⟨le_rfl, Or.inl (Filed.refl _)⟩
  unfold paymentWebhook
  split
  · exact hstill
  dsimp only
  split
  · exact hstill
  split
  · refine Proc.Alone.look trivial ?_
    dsimp only
    split
    · exact hstill
    · rename_i p hfind
      split
      · exact hstill
      · rename_i hopen
        have hp : OpenOrder w.db p := ⟨Table.find_of_mem (List.mem_of_find?_eq_some hfind), hopen⟩
        exact alone_heleketStatus_at hp _ _
  · exact hstill

/-! ### Grants -/

/-- The account of a name. -/
lemma alone_currentUser_named (username : String) :
    Proc.Alone J (fun _ _ => True)
      (fun r w' => w' = w ∧ ∀ u, r = .ok u → w.db.users.find u.id = some u ∧ u.username = username)
      (currentUser username) w := by
  refine Proc.Alone.look trivial ((alone_scalarOneOrNone _).bind ?_ ?_)
  · rintro o w' ⟨rfl, ho⟩
    cases o with
    | none => exact ⟨rfl, fun u h => by cases h⟩
    | some user =>
        refine ⟨rfl, fun u h => ?_⟩
        obtain rfl := Except.ok.inj h
        obtain ⟨hrow, hname⟩ := List.mem_filter.mp (ho user rfl)
        exact ⟨Table.find_of_mem hrow, of_decide_eq_true hname⟩
  · rintro e w' ⟨rfl, -⟩
    exact ⟨rfl, fun u h => by cases h⟩

lemma alone_grant_at (username plan : String) :
    Proc.Alone J (fun _ _ => True) (fun _ w' => CallEffect (.grant username plan) w w')
      (VpnPortal.grant cfg username plan) w := by
  have hstill : CallEffect (.grant username plan) w w := ⟨le_rfl, Or.inl (Filed.refl _)⟩
  unfold VpnPortal.grant
  split
  · exact hstill
  rename_i hknown
  refine (alone_currentUser_named _).bind ?_ ?_
  · rintro user v ⟨rfl, hu⟩
    obtain ⟨hfind, hname⟩ := hu user rfl
    split
    · exact hstill
    rename_i hactive
    have hsells : user.isActive = true ∧ (plans.lookup plan).isSome = true :=
      ⟨by simpa using hactive, by simpa [Option.isSome_iff_ne_none] using hknown⟩
    refine Proc.Alone.exchange (fun _ _ => trivial) fun i _ => ?_
    obtain ⟨p, hp⟩ : ∃ p, p = grantPayment user plan v.db.payments.next := ⟨_, rfl⟩
    obtain ⟨t, ht⟩ : ∃ t : World, t = { v with db := { v.db with
        payments := v.db.payments.insert (grantPayment user plan) fun _ => rfl } } := ⟨_, rfl⟩
    have hfiled : Filed v.db t.db := by
      rw [ht]
      exact Filed.of_insert (fun _ => rfl) fun _ => pending_ne_paid
    have hopen : OpenOrder t.db p := by
      rw [ht, hp]
      exact ⟨Table.find_insert_next fun _ => rfl, pending_ne_paid⟩
    have hclock : v.clock = t.clock := by rw [ht]
    have hfind' : t.db.users.find user.id = some user := by
      rw [ht]
      exact hfind
    have hplan : p.plan = plan ∧ user.id = p.userId := by
      rw [hp]
      exact ⟨rfl, rfl⟩
    dsimp only
    rw [← ht, ← hp]
    refine (alone_activatePayment_at user p).bind ?_ ?_
    · rintro ok t' ⟨hle, ⟨hok, hdb⟩ | ⟨hok, a, ids, ha, hfirst, hat, hoff⟩⟩
      · have hfalse : ok = false := by
          cases ok with
          | true => exact absurd rfl hok
          | false => rfl
        subst hfalse
        refine fun i _ => ⟨trivial, by rw [hclock]; exact hle, Or.inl ?_⟩
        rw [← hdb] at hfiled hopen
        exact hfiled.trans (Filed.of_remove hopen)
      · obtain rfl := Except.ok.inj hok
        exact ⟨by rw [hclock]; exact hle, Or.inr ⟨user, p, ⟨hname, hsells.1, hsells.2, hplan.1⟩, t.db, a, ids, hfiled, hopen,
          hplan.2, hfind', ha, hfirst, hat, hoff⟩⟩
    · rintro e t' ⟨hle, ⟨-, hdb⟩ | ⟨h, -⟩⟩
      · exact ⟨by rw [hclock]; exact hle, Or.inl (by rw [hdb]; exact hfiled)⟩
      · cases h
  · rintro e v ⟨rfl, -⟩
    exact hstill

/-- **Every call** files orders or activates one. -/
theorem effect_of_call (call : Call) {r : Except Exn Response} {w' : World}
    (h : Proc.Runs J (call.run cfg) w r w') : CallEffect call w w' := by
  suffices halone : Proc.Alone J (fun _ _ => True) (fun _ w' => CallEffect call w w') (call.run cfg) w
    from (halone.runs h).2
  cases call with
  | order username req =>
      exact (alone_filed_createPayment username req).mono (fun _ _ h => h) fun _ _ h => h.effect
  | orderPlatega username req =>
      exact (alone_filed_createPaymentPlatega username req).mono (fun _ _ h => h) fun _ _ h => h.effect
  | callback req => exact alone_plategaCallback_at req
  | webhook data => exact alone_paymentWebhook_at data
  | grant username plan => exact alone_grant_at username plan

end

end VpnPortal
