/-
What a sweep leaves behind, table by table.

* `paidDue`, `trialDue`: the devices a sweep visits, each once;
* `SubsEffect`, `TrialsEffect`: the tables and the counts after a commit, from
  the answers of the nodes;
* `alone_expireDueSubscriptions`, `alone_expireDueTrials`: a sweep raises if a call does,
  else it ends with that effect;
* `sweeps_exact`: **the rows changed and the counts**, when each call has its own answer.
-/
import VpnPortal.Sweeps.Loops

namespace VpnPortal

open Sessions Tables

/-! ### The due rows -/

/-- The accounts whose paid period has ended. -/
def dueUsers (d : Db) (t : Time) : List User := d.users.rows.filter fun u => u.isDue t

/-- An active device of an account that is due. -/
def paidDue (d : Db) (t : Time) (c : Config) : Bool :=
  c.isActive && (d.users.find c.userId).any fun u => u.isDue t

/-- An active trial device whose owner's trial has ended. -/
def trialDue (d : Db) (t : Time) (c : Config) : Bool :=
  decide (c.kind = .trial) && c.isActive
    && (d.users.find c.userId).any fun u => u.trialUntil.any (· ≤ t)

lemma mem_devicesOf {d : Db} {us : List User} {c : Config} :
    c ∈ devicesOf d us ↔ c ∈ d.configs.rows ∧ c.isActive ∧ ∃ u ∈ us, c.userId = u.id := by
  unfold devicesOf heldBy
  simp only [List.mem_flatMap, List.mem_filter, decide_eq_true_eq]
  constructor
  · rintro ⟨u, hu, hc, hid, hact⟩
    exact ⟨hc, hact, u, hu, hid⟩
  · rintro ⟨hc, hact, u, hu, hid⟩
    exact ⟨u, hu, hc, hid, hact⟩

lemma mem_devicesOf_dueUsers {d : Db} {t : Time} {c : Config} :
    c ∈ devicesOf d (dueUsers d t) ↔ c ∈ d.configs.rows ∧ paidDue d t c = true := by
  rw [mem_devicesOf, paidDue, Bool.and_eq_true, Option.any_eq_true]
  constructor
  · rintro ⟨hc, hact, u, hu, hid⟩
    obtain ⟨hrow, hdue⟩ := List.mem_filter.mp hu
    exact ⟨hc, hact, u, by rw [hid]; exact Table.find_of_mem hrow, hdue⟩
  · rintro ⟨hc, hact, u, hfind, hdue⟩
    obtain ⟨hrow, hid⟩ := Table.mem_of_find hfind
    exact ⟨hc, hact, u, List.mem_filter.mpr ⟨hrow, hdue⟩, hid.symm⟩

/-- Rows of one table are told apart by their numbers. -/
lemma nodup_ids {configs : Table Config} {cs : List Config} (hcs : cs.Nodup)
    (hsub : ∀ c ∈ cs, c ∈ configs.rows) : (cs.map Config.id).Nodup :=
  hcs.map_on fun _ hx _ hy h => Table.eq_of_num_eq (hsub _ hx) (hsub _ hy) h

lemma nodup_rows {α : Type} [Row α] (table : Table α) : table.rows.Nodup :=
  List.Nodup.of_map _ table.nodup

/-- No device is visited twice. -/
lemma nodup_devicesOf {d : Db} {us : List User} (hus : (us.map User.id).Nodup) :
    (devicesOf d us).Nodup := by
  refine List.nodup_flatMap.mpr ⟨fun u _ => (nodup_rows d.configs).filter _, ?_⟩
  refine (List.pairwise_map.mp hus).imp fun {u v} hne => ?_
  intro c hu hv
  have hcu := (of_decide_eq_true (List.mem_filter.mp hu).2).1
  have hcv := (of_decide_eq_true (List.mem_filter.mp hv).2).1
  exact hne (hcu.symm.trans hcv)

lemma nodup_dueUsers (d : Db) (t : Time) : ((dueUsers d t).map User.id).Nodup :=
  d.users.nodup.sublist (List.filter_sublist.map _)

/-- The devices the sweep visits are the due rows, in another order. -/
lemma perm_devicesOf_dueUsers (d : Db) (t : Time) :
    (devicesOf d (dueUsers d t)).Perm (d.configs.rows.filter (paidDue d t)) := by
  refine (List.perm_ext_iff_of_nodup (nodup_devicesOf (nodup_dueUsers d t))
    ((nodup_rows d.configs).filter _)).mpr fun c => ?_
  rw [mem_devicesOf_dueUsers, List.mem_filter]

lemma map_fst_dueTrials (d : Db) (t : Time) :
    (dueTrials d t).map Prod.fst = d.configs.rows.filter (trialDue d t) := by
  unfold dueTrials
  rw [List.map_filterMap, ← List.filterMap_eq_filter]
  refine List.filterMap_congr fun c _ => ?_
  unfold trialDue
  cases hu : d.users.find c.userId with
  | none => by_cases hc : c.kind = .trial ∧ c.isActive <;> simp [hu, hc, Option.guard]
  | some u =>
      by_cases hc : c.kind = .trial ∧ c.isActive
      · cases hend : u.trialUntil.any (· ≤ t) <;> simp [hu, hc, hend, Option.guard]
      · have : (decide (c.kind = .trial) && c.isActive) = false := by
          simpa [Decidable.not_and_iff_or_not] using hc
        simp [hc, this, Option.guard]

/-! ### The tables after the commit -/

/-- The messages of a commit: old rows stay, new ones come from the session, and
each message with a key is there. -/
lemma rows_foldl_post (sent : List NewNotice) (notices : Table Notification) :
    (∃ new, (sent.foldl (fun t n => post t n.userId n.kind n.dedupeKey) notices).rows
        = notices.rows ++ new
      ∧ ∀ x ∈ new, ∃ n ∈ sent, x.userId = n.userId ∧ x.kind = n.kind ∧ x.dedupeKey = n.dedupeKey)
    ∧ ∀ n ∈ sent,
      ∃ x ∈ (sent.foldl (fun t n => post t n.userId n.kind n.dedupeKey) notices).rows,
        x.userId = n.userId ∧ x.dedupeKey = n.dedupeKey := by
  induction sent generalizing notices with
  | nil => exact ⟨⟨[], by simp, by simp⟩, by simp⟩
  | cons n rest ih =>
      obtain ⟨⟨new, hrows, hnew⟩, hall⟩ := ih (post notices n.userId n.kind n.dedupeKey)
      -- the first message is added, or a row with its key is already there
      obtain ⟨first, hfirst, honly, hthere⟩ : ∃ first,
          (post notices n.userId n.kind n.dedupeKey).rows = notices.rows ++ first
          ∧ (∀ x ∈ first, x.userId = n.userId ∧ x.kind = n.kind ∧ x.dedupeKey = n.dedupeKey)
          ∧ ∃ x ∈ notices.rows ++ first, x.userId = n.userId ∧ x.dedupeKey = n.dedupeKey := by
        unfold post
        split
        · rename_i h
          obtain ⟨x, hx, heq⟩ := h.2
          exact ⟨[], by simp, by simp, x, by simp [hx], heq⟩
        · exact ⟨[⟨notices.next, n.userId, n.kind, n.dedupeKey⟩], rfl, by simp, _,
            List.mem_append_right _ (List.mem_singleton_self _), rfl, rfl⟩
      rw [List.foldl_cons]
      refine ⟨⟨first ++ new, ?_, ?_⟩, ?_⟩
      · rw [hrows, hfirst, List.append_assoc]
      · intro x hx
        rcases List.mem_append.mp hx with hx | hx
        · exact ⟨n, by simp, honly x hx⟩
        · obtain ⟨m, hm, heq⟩ := hnew x hx
          exact ⟨m, by simp [hm], heq⟩
      · intro m hm
        rcases List.mem_cons.mp hm with rfl | hm
        · obtain ⟨x, hx, heq⟩ := hthere
          refine ⟨x, ?_, heq⟩
          rw [hrows, hfirst]
          exact List.mem_append_left _ hx
        · exact hall m hm

lemma SweepWork.write_eq (w : SweepWork) (db : Db) :
    w.write db = { db with
      configs := w.off.foldl switchOff db.configs
      users := w.revoked.foldl (fun us u => saveAccount us u { u with isSubscribed := false })
        db.users
      notifications := w.sent.foldl (fun t n => post t n.userId n.kind n.dedupeKey)
        db.notifications } := by
  have hsave : ∀ (us : List User) (db : Db),
      us.foldl (fun db u => db.saveUser u { u with isSubscribed := false }) db = { db with
        users := us.foldl (fun us u => saveAccount us u { u with isSubscribed := false })
          db.users } := by
    intro us
    induction us with
    | nil => exact fun _ => rfl
    | cons u rest ih => intro db; rw [List.foldl_cons, ih]; rfl
  rw [SweepWork.write, writeNotices_eq, hsave, Db.foldl_deactivate]

/-- The devices after a sweep that switched off the confirmed ones among `cs`. -/
lemma rows_switchOff_confirmed {configs : Table Config} {cs : List Config} {due : Config → Bool}
    (hcs : ∀ c, c ∈ cs ↔ c ∈ configs.rows ∧ due c = true) (reply : Config → Reply) :
    (((cs.filter (confirmed reply)).map Config.id).foldl switchOff configs).rows
      = configs.rows.map fun c => if due c && confirmed reply c then c.off else c := by
  rw [rows_foldl_switchOff]
  refine List.map_congr_left fun c hc => ?_
  have hiff : c.id ∈ (cs.filter (confirmed reply)).map Config.id
      ↔ (due c && confirmed reply c) = true := by
    rw [List.mem_map, Bool.and_eq_true]
    constructor
    · rintro ⟨c', hc', hid⟩
      obtain ⟨hmem, hok⟩ := List.mem_filter.mp hc'
      obtain ⟨hrow, hdue⟩ := (hcs c').mp hmem
      obtain rfl : c' = c := Table.eq_of_num_eq hrow hc hid
      exact ⟨hdue, hok⟩
    · rintro ⟨hdue, hok⟩
      exact ⟨c, List.mem_filter.mpr ⟨(hcs c).mpr ⟨hc, hdue⟩, hok⟩, rfl⟩
  simp only [hiff]

/-- The messages after a sweep whose news are `news`. -/
structure MessagesFor (news : List NewNotice) (db db' : Db) : Prop where
  added : ∃ new, db'.notifications.rows = db.notifications.rows ++ new
    ∧ ∀ x ∈ new, ∃ n ∈ news, x.userId = n.userId ∧ x.kind = n.kind ∧ x.dedupeKey = n.dedupeKey
  told : ∀ n ∈ news, ∃ x ∈ db'.notifications.rows,
    x.userId = n.userId ∧ x.dedupeKey = n.dedupeKey

lemma messagesFor_write {news : List NewNotice} {db : Db} {w : SweepWork}
    (h : Announces db news [] w.sent) : MessagesFor news db (w.write db) := by
  obtain ⟨⟨new, hrows, hnew⟩, hall⟩ := rows_foldl_post w.sent db.notifications
  rw [SweepWork.write_eq]
  constructor
  · refine ⟨new, hrows, fun x hx => ?_⟩
    obtain ⟨n, hn, heq⟩ := hnew x hx
    rcases h.only n hn with hn | hn
    · cases hn
    · exact ⟨n, hn, heq⟩
  · intro n hn
    rcases h.known n hn with ⟨x, hx, heq⟩ | ⟨m, hm, hid, hkey⟩
    · refine ⟨x, ?_, heq⟩
      dsimp only
      rw [hrows]
      exact List.mem_append_left _ hx
    · obtain ⟨x, hx, hid', hkey'⟩ := hall m hm
      exact ⟨x, hx, hid'.trans hid, hkey'.trans hkey⟩

/-- What `expire_due_subscriptions` returns and leaves in the tables. -/
structure SubsEffect (reply : Config → Reply) (t : Time) (db : Db) (stats : SweepStats)
    (db' : Db) : Prop where
  devices : db'.configs.rows = db.configs.rows.map fun c =>
    if paidDue db t c && confirmed reply c then c.off else c
  accounts : db'.users.rows = db.users.rows.map fun u =>
    if u.isDue t && cleared db reply u then { u with isSubscribed := false } else u
  messages : MessagesFor ((db.users.rows.filter fun u => u.isDue t && cleared db reply u).map
    fun u => endedNotice u .subEnded (u.subscribedUntil.getD 0)) db db'
  rest : db' = { db with
    configs := db'.configs, users := db'.users, notifications := db'.notifications }
  usersDue : stats.usersDue = (db.users.rows.filter fun u => u.isDue t).length
  usersRevoked : stats.usersRevoked
    = (db.users.rows.filter fun u => u.isDue t && cleared db reply u).length
  peersRemoved : stats.peersRemoved
    = (db.configs.rows.filter fun c => paidDue db t c && confirmed reply c).length
  failures : stats.failures
    = (db.configs.rows.filter fun c => paidDue db t c && !confirmed reply c).length

/-- An account after the sweep. -/
def User.swept (db : Db) (reply : Config → Reply) (t : Time) (u : User) : User :=
  if u.isDue t && cleared db reply u then { u with isSubscribed := false } else u

section Swept

variable {db db' : Db} {reply : Config → Reply} {t : Time} {stats : SweepStats} (u : User)

@[simp] lemma User.swept_id : (u.swept db reply t).id = u.id := by
  unfold User.swept; split <;> rfl

@[simp] lemma User.swept_subscribedUntil :
    (u.swept db reply t).subscribedUntil = u.subscribedUntil := by
  unfold User.swept; split <;> rfl

@[simp] lemma User.swept_trialUntil : (u.swept db reply t).trialUntil = u.trialUntil := by
  unfold User.swept; split <;> rfl

lemma User.swept_isSubscribed : (u.swept db reply t).isSubscribed
    = (u.isSubscribed && !(u.isDue t && cleared db reply u)) := by
  unfold User.swept
  cases u.isDue t && cleared db reply u <;> simp

lemma SubsEffect.find_user (h : SubsEffect reply t db stats db') (n : ℕ) :
    db'.users.find n = (db.users.find n).map (User.swept db reply t) :=
  Table.find_of_rows_map (fun u => User.swept_id u) h.accounts n

end Swept

/-- What `expire_due_trials` returns and leaves in the tables. -/
structure TrialsEffect (reply : Config → Reply) (t : Time) (db : Db) (stats : TrialStats)
    (db' : Db) : Prop where
  devices : db'.configs.rows = db.configs.rows.map fun c =>
    if trialDue db t c && confirmed reply c then c.off else c
  messages : MessagesFor (((dueTrials db t).filter (trialNews reply t)).map fun r =>
    endedNotice r.2 .trialEnded (r.2.trialUntil.getD t)) db db'
  rest : db' = { db with configs := db'.configs, notifications := db'.notifications }
  trialsDue : stats.trialsDue = (db.configs.rows.filter (trialDue db t)).length
  trialPeersRemoved : stats.trialPeersRemoved
    = (db.configs.rows.filter fun c => trialDue db t c && confirmed reply c).length
  trialFailures : stats.trialFailures
    = (db.configs.rows.filter fun c => trialDue db t c && !confirmed reply c).length

lemma length_filter_and {α : Type} {l cs : List α} {p : α → Bool} (h : cs.Perm (l.filter p))
    (q : α → Bool) : (cs.filter q).length = (l.filter fun a => p a && q a).length := by
  rw [(h.filter q).length_eq, List.filter_filter]
  simp only [Bool.and_comm]

lemma subsEffect_write {reply : Config → Reply} {t : Time} {db : Db} {w : SweepWork}
    (h : Revokes db (dueUsers db t) {} reply w) (undated : List String) :
    SubsEffect reply t db
      ⟨(dueUsers db t).length, w.revoked.length, w.off.length, w.failures, undated⟩
      (w.write db) := by
  have hcleared : (dueUsers db t).filter (cleared db reply)
      = db.users.rows.filter fun u => u.isDue t && cleared db reply u := by
    rw [dueUsers, List.filter_filter]
    exact List.filter_congr fun u _ => Bool.and_comm _ _
  have hrevoked : w.revoked
      = db.users.rows.filter fun u => u.isDue t && cleared db reply u :=
    h.revoked.trans hcleared
  have hoff := h.off
  rw [List.nil_append] at hoff
  constructor
  · rw [SweepWork.write_eq, hoff]
    exact rows_switchOff_confirmed (fun c => mem_devicesOf_dueUsers) reply
  · rw [SweepWork.write_eq]
    refine (rows_foldl_saveAccount (fun u : User => u) (fun u => { u with isSubscribed := false })
      (f := fun u => { u with isSubscribed := false }) w.revoked db.users ?_ ?_ ?_).trans ?_
    · rw [hrevoked]
      exact db.users.nodup.sublist (List.filter_sublist.map _)
    · intro u hu
      rw [hrevoked] at hu
      exact Table.find_of_mem (List.mem_filter.mp hu).1
    · intro u _
      simp [User.merge]
    · refine List.map_congr_left fun u hu => ?_
      have hiff : u.id ∈ w.revoked.map (fun u => u.id)
          ↔ (u.isDue t && cleared db reply u) = true := by
        rw [hrevoked, List.mem_map]
        constructor
        · rintro ⟨v, hv, hid⟩
          obtain ⟨hrow, hdue⟩ := List.mem_filter.mp hv
          obtain rfl : v = u := Table.eq_of_num_eq hrow hu hid
          exact hdue
        · exact fun hdue => ⟨u, List.mem_filter.mpr ⟨hu, hdue⟩, rfl⟩
      simp only [hiff]
  · have hnews := h.sent
    rw [hcleared] at hnews
    exact messagesFor_write hnews
  · rw [SweepWork.write_eq]
  · rfl
  · rw [hrevoked]
  · dsimp only
    rw [hoff, List.length_map, length_filter_and (perm_devicesOf_dueUsers db t)]
  · have hfail := h.failures
    rw [length_filter_and (perm_devicesOf_dueUsers db t)] at hfail
    simpa using hfail

lemma trialsEffect_write {reply : Config → Reply} {t : Time} {db : Db} {w : SweepWork}
    (h : EndsTrials db t (dueTrials db t) {} reply w) :
    TrialsEffect reply t db ⟨(dueTrials db t).length, w.off.length, w.failures⟩ (w.write db) := by
  have hoff := h.off
  rw [List.nil_append, map_fst_dueTrials] at hoff
  have hrevoked : w.revoked = [] := h.revoked
  constructor
  · rw [SweepWork.write_eq, hoff]
    exact rows_switchOff_confirmed (fun c => List.mem_filter) reply
  · exact messagesFor_write h.sent
  · rw [SweepWork.write_eq, hrevoked]
    rfl
  · rw [← map_fst_dueTrials, List.length_map]
  · dsimp only
    rw [hoff, List.length_map, length_filter_and (List.Perm.refl _)]
  · have hfail := h.failures
    rw [map_fst_dueTrials, length_filter_and (List.Perm.refl _)] at hfail
    simpa using hfail

/-! ### The two sweeps -/

/-- How a sweep over the devices `due` ends that starts in `w`: a call that raises
leaves the tables as they were, otherwise they are in `E`. -/
def SweepEnd {α : Type} (I : World → Prop) (Ok : Config → Reply → Prop) (due : Config → Bool)
    (E : (Config → Reply) → α → Db → Prop) (w : World) (r : Except Exn α) (w' : World) : Prop :=
  w'.clock = w.clock ∧ I { w' with db := w.db } ∧
    (((∃ c ∈ w.db.configs.rows, due c = true ∧ Ok c .raised)
        ∧ r = .error .crash ∧ w'.db = w.db)
      ∨ ((∃ ids, w'.removals = w.removals ++ ids
          ∧ ids.Perm ((w.db.configs.rows.filter due).map Config.id))
        ∧ ∃ (reply : Config → Reply) (stats : α),
          (∀ c ∈ w.db.configs.rows, due c = true → Ok c (reply c) ∧ reply c ≠ .raised)
          ∧ r = .ok stats
          ∧ ∀ reply' : Config → Reply,
            (∀ c ∈ w.db.configs.rows, due c = true → reply' c = reply c) → E reply' stats w'.db))

section Sweeps

variable {J : World → Input → Prop} {cfg : Settings} {I : World → Prop}
variable {Ok : Config → Reply → Prop} {w : World}

/-- From the loop over `cs` and the commit to the end of the sweep. -/
lemma Tried.sweepEnd_error {α β : Type} {cs : List Config} {due : Config → Bool}
    {Q : (Config → Reply) → α → Prop} {E : (Config → Reply) → β → Db → Prop} {e : Exn} {w' : World}
    (hcs : ∀ c ∈ cs, c ∈ w.db.configs.rows ∧ due c = true)
    (h : Tried I Ok cs Q w (.error e) w') : SweepEnd I Ok due E w (.error e) w' := by
  obtain ⟨hdb, hclock, hI, ⟨⟨c, hc, hraised⟩, he⟩ | ⟨-, reply, a, -, he, -⟩⟩ := h
  · refine ⟨hclock, hdb ▸ hI, Or.inl ⟨⟨c, (hcs c hc).1, (hcs c hc).2, hraised⟩, ?_, hdb⟩⟩
    cases he
    rfl
  · cases he

lemma Tried.sweepEnd_ok {α β : Type} {cs : List Config} {due : Config → Bool}
    {Q : (Config → Reply) → α → Prop} {E : (Config → Reply) → β → Db → Prop} {a : α} {u w' : World}
    {stats : β} (hcs : ∀ c, c ∈ cs ↔ c ∈ w.db.configs.rows ∧ due c = true)
    (hperm : cs.Perm (w.db.configs.rows.filter due)) (h : Tried I Ok cs Q w (.ok a) u)
    (hclock : w'.clock = u.clock) (hI : I { u with db := w.db } → I { w' with db := w.db })
    (hrem : w'.removals = u.removals) (hE : ∀ reply, Q reply a → E reply stats w'.db) :
    SweepEnd I Ok due E w (.ok stats) w' := by
  obtain ⟨hdb, hclock', hIu, ⟨-, h⟩ | ⟨hrem', reply, a', hok, h, hQ⟩⟩ := h
  · cases h
  obtain rfl := Except.ok.inj h
  refine ⟨hclock.trans hclock', hI (hdb ▸ hIu), Or.inr ⟨⟨_, hrem.trans hrem', hperm.map _⟩, reply,
    stats, ?_, rfl, ?_⟩⟩
  · exact fun c hc hdue => hok c ((hcs c).mpr ⟨hc, hdue⟩)
  · intro reply' hreply'
    refine hE reply' (hQ reply' fun c hc => ?_)
    obtain ⟨hrow, hdue⟩ := (hcs c).mp hc
    exact hreply' c hrow hdue

lemma alone_expireDueSubscriptions
    (nodes : Nodes J cfg w.db (fun c => w.removals.count c) I Ok) (hI : I w) (t : Time) :
    Proc.Alone J (fun _ _ => True)
      (SweepEnd I Ok (paidDue w.db t) (fun reply => SubsEffect reply t w.db) w)
      (expireDueSubscriptions cfg t) w := by
  refine Proc.Alone.look trivial ?_
  have hcs : ∀ c, c ∈ devicesOf w.db (dueUsers w.db t)
      ↔ c ∈ w.db.configs.rows ∧ paidDue w.db t c = true := fun c => mem_devicesOf_dueUsers
  have hnodup : ((devicesOf w.db (dueUsers w.db t)).map Config.id).Nodup :=
    nodup_ids (nodup_devicesOf (nodup_dueUsers w.db t)) fun c hc => ((hcs c).mp hc).1
  refine (tries_revokeUsers nodes (dueUsers w.db t) {} hnodup w rfl hI fun _ _ => rfl).bind ?_ ?_
  · intro x u hu
    refine Proc.Alone.change trivial (Proc.Alone.look trivial ?_)
    refine hu.sweepEnd_ok hcs (perm_devicesOf_dueUsers w.db t) rfl (fun h => h) rfl ?_
    intro reply hx
    dsimp only
    rw [hu.1]
    exact subsEffect_write hx _
  · exact fun e u hu => hu.sweepEnd_error fun c hc => (hcs c).mp hc

lemma alone_expireDueTrials
    (nodes : Nodes J cfg w.db (fun c => w.removals.count c) I Ok) (hI : I w) (t : Time) :
    Proc.Alone J (fun _ _ => True)
      (SweepEnd I Ok (trialDue w.db t) (fun reply => TrialsEffect reply t w.db) w)
      (expireDueTrials cfg t) w := by
  refine Proc.Alone.look trivial ?_
  have hcs : ∀ c, c ∈ (dueTrials w.db t).map Prod.fst
      ↔ c ∈ w.db.configs.rows ∧ trialDue w.db t c = true := by
    intro c
    rw [map_fst_dueTrials, List.mem_filter]
  have hrows : ∀ c ∈ (dueTrials w.db t).map Prod.fst,
      c ∈ w.db.configs.rows ∧ c.isActive = true := by
    intro c hc
    obtain ⟨hrow, hdue⟩ := (hcs c).mp hc
    unfold trialDue at hdue
    rw [Bool.and_eq_true, Bool.and_eq_true] at hdue
    exact ⟨hrow, hdue.1.2⟩
  have hnodup : (((dueTrials w.db t).map Prod.fst).map Config.id).Nodup := by
    rw [map_fst_dueTrials]
    exact nodup_ids ((nodup_rows w.db.configs).filter _) fun c hc => (List.mem_filter.mp hc).1
  refine (tries_expireTrials nodes t (dueTrials w.db t) {} hrows hnodup w rfl hI
    fun _ _ => rfl).bind ?_ ?_
  · intro x u hu
    refine Proc.Alone.change trivial ?_
    refine hu.sweepEnd_ok hcs (by rw [map_fst_dueTrials]) rfl (fun h => h) rfl ?_
    intro reply hx
    dsimp only
    rw [hu.1]
    exact trialsEffect_write hx
  · exact fun e u hu => hu.sweepEnd_error fun c hc => (hcs c).mp hc

end Sweeps

/-! ### Nodes that answer each call on its own -/

/-- The outside of one run: `ans n host c` answers the `n`-th call for the device
`c`, and after a reading `t` the clock shows `tick t`. -/
def Answers (tick : Time → Time) (ans : ℕ → String → Config → Reply) (w : World) (i : Input) :
    Prop :=
  i.now = tick w.clock ∧ ∀ host c, (i.del host c).1 = ans (w.removals.count c.id) host c

lemma exists_answers (tick : Time → Time) (ans : ℕ → String → Config → Reply) (w : World) :
    ∃ i, Answers tick ans w i :=
  ⟨{ now := tick w.clock, del := fun host c => (ans (w.removals.count c.id) host c, {}) },
    rfl, fun _ _ => rfl⟩

/-- The answer to `remove_peer_for` if the node of the device's own location
answers by `ans`. -/
def replyFor (cfg : Settings) (ans : String → Config → Reply) (c : Config) : Reply :=
  match cfg.getLocation c.locationKey with
  | none => .refused ("location " ++ c.locationKey ++ " is not configured")
  | some loc => ans loc.host c

/-- The answers a sweep gets that starts in `w`. -/
def replies (cfg : Settings) (ans : ℕ → String → Config → Reply) (w : World) (c : Config) : Reply :=
  replyFor cfg (ans (w.removals.count c.id + 1)) c

section Answers

variable {cfg : Settings} {tick : Time → Time} {ans : ℕ → String → Config → Reply} {w : World}

lemma nodes_answers : Nodes (Answers tick ans) cfg w.db (fun c => w.removals.count c)
    (fun _ => True) fun c r => r = replies cfg ans w c where
  outbox _ _ _ := trivial
  missing s c _ _ _ _ _ hloc := by
    refine ⟨trivial, ?_⟩
    rw [replies, replyFor, hloc]
  call s i c loc _ _ hcount _ _ hloc hi := by
    refine ⟨trivial, ?_⟩
    have hn : (s.removals ++ [c.id]).count c.id = w.removals.count c.id + 1 := by
      rw [List.count_append, hcount]
      simp
    rw [hi.2, replies, replyFor, hloc]
    exact congrArg (fun n => ans n loc.host c) hn

/-- With known answers the end of a sweep is known. -/
lemma SweepEnd.of_replies {α : Type} {due : Config → Bool} {E : (Config → Reply) → α → Db → Prop}
    {r : Except Exn α} {w' : World}
    (h : SweepEnd (fun _ => True) (fun c a => a = replies cfg ans w c) due E w r w') :
    w'.clock = w.clock ∧
      (((∃ c ∈ w.db.configs.rows, due c = true ∧ replies cfg ans w c = .raised)
          ∧ r = .error .crash ∧ w'.db = w.db)
        ∨ ((∀ c ∈ w.db.configs.rows, due c = true → replies cfg ans w c ≠ .raised)
          ∧ (∃ ids, w'.removals = w.removals ++ ids
            ∧ ids.Perm ((w.db.configs.rows.filter due).map Config.id))
          ∧ ∃ stats, r = .ok stats ∧ E (replies cfg ans w) stats w'.db)) := by
  obtain ⟨hclock, -, ⟨⟨c, hc, hdue, hraised⟩, hr⟩ | ⟨hrem, reply, stats, hok, hr, hE⟩⟩ := h
  · exact ⟨hclock, Or.inl ⟨⟨c, hc, hdue, hraised.symm⟩, hr⟩⟩
  · refine ⟨hclock, Or.inr ⟨?_, hrem, stats, hr, ?_⟩⟩
    · intro c hc hdue hraised
      obtain ⟨heq, hne⟩ := hok c hc hdue
      exact hne (heq.trans hraised)
    · exact hE _ fun c hc hdue => (hok c hc hdue).1.symm

lemma confirmed_replies {c : Config} :
    confirmed (replies cfg ans w) c = true ↔ ∃ loc, cfg.getLocation c.locationKey = some loc
      ∧ ans (w.removals.count c.id + 1) loc.host c = .ok := by
  unfold confirmed replies replyFor
  cases cfg.getLocation c.locationKey <;> simp

lemma replies_ne_raised (hno : ∀ n host c, ans n host c ≠ .raised) (w : World) (c : Config) :
    replies cfg ans w c ≠ .raised := by
  unfold replies replyFor
  split
  · simp
  · exact hno _ _ _

/-- **Exact effect of the sweeps.** If no call raises, each sweep ends with its
counts, which are the numbers of the rows in question, and leaves exactly these
rows changed; a device counts as confirmed when the node of its own configured
location answered ok. -/
theorem sweeps_exact (cfg : Settings) (tick : Time → Time) (ans : ℕ → String → Config → Reply)
    (hno : ∀ n host c, ans n host c ≠ .raised) (w : World) (t : Time) :
    Proc.Ends (Answers tick ans)
        (fun r w' => ∃ stats, r = .ok stats
          ∧ SubsEffect (replies cfg ans w) t w.db stats w'.db) (expireDueSubscriptions cfg t) w
      ∧ Proc.Ends (Answers tick ans)
        (fun r w' => ∃ stats, r = .ok stats
          ∧ TrialsEffect (replies cfg ans w) t w.db stats w'.db) (expireDueTrials cfg t) w
      ∧ ∀ c, confirmed (replies cfg ans w) c = true ↔ ∃ loc,
        cfg.getLocation c.locationKey = some loc
          ∧ ans (w.removals.count c.id + 1) loc.host c = .ok := by
  have hJ := exists_answers tick ans
  have hno' : ∀ c, replies cfg ans w c ≠ .raised := replies_ne_raised hno w
  refine ⟨?_, ?_, fun c => confirmed_replies⟩
  · refine (Proc.Alone.ends (alone_expireDueSubscriptions nodes_answers trivial t) hJ).mono ?_
    intro r w' h
    obtain ⟨-, ⟨⟨c, -, -, hraised⟩, -⟩ | ⟨-, -, hend⟩⟩ := h.of_replies
    · exact absurd hraised (hno' c)
    · exact hend
  · refine (Proc.Alone.ends (alone_expireDueTrials nodes_answers trivial t) hJ).mono ?_
    intro r w' h
    obtain ⟨-, ⟨⟨c, -, -, hraised⟩, -⟩ | ⟨-, -, hend⟩⟩ := h.of_replies
    · exact absurd hraised (hno' c)
    · exact hend

/-- Two ended accounts: the first holds a device in Germany and one in a location
that is not configured, the second one device in Germany. -/
def endedAccounts : World where
  db := {
    users := ⟨[{ id := 0, username := "ann", isSubscribed := true, subscribedUntil := some 10 },
      { id := 1, username := "bob", isSubscribed := true, subscribedUntil := some 10 }], 2,
      by decide, by decide⟩
    configs := ⟨[{ id := 0, userId := 0, name := "a", peerIp := "10.88.88.42", publicKey := "A" },
      { id := 1, userId := 0, name := "b", peerIp := "10.88.88.43", location := "nl",
        publicKey := "B" },
      { id := 2, userId := 1, name := "c", peerIp := "10.88.88.44", publicKey := "C" }], 3,
      by decide, by decide⟩ }

/-- Every reachable node confirms: the device without a location keeps its
account flagged, the other account is cleared. -/
theorem sweeps_exact_endedAccounts :
    (∀ n host c, (fun _ _ _ => .ok : ℕ → String → Config → Reply) n host c ≠ .raised)
      ∧ ∀ r w', Proc.Runs (Answers id fun _ _ _ => .ok) (expireDueSubscriptions {} 20)
          endedAccounts r w' →
        w'.db.configs.rows.map Config.isActive = [false, true, false]
          ∧ w'.db.users.rows.map User.isSubscribed = [true, false] := by
  have hno : ∀ n host c, (fun _ _ _ => .ok : ℕ → String → Config → Reply) n host c ≠ .raised := by
    simp
  refine ⟨hno, fun r w' hrun => ?_⟩
  obtain ⟨stats, -, heffect⟩ := (sweeps_exact {} id _ hno endedAccounts 20).1.2 r w' hrun
  rw [heffect.devices, heffect.accounts]
  decide

end Answers

end VpnPortal
