/-
The loops of the sweeps, device by device.

A program of a sweep is described by `Tries`: it reads the tables as they are
and calls the nodes for a given list of devices; one call that raises ends it,
otherwise its value satisfies a postcondition on the answers. `Nodes` says what
is known of the outside, an invariant and the possible answers, so that one
account of the loops serves a node that answers anything and a node that keeps
to its wrapper.

* `Nodes`, `Tries` and its rules, `tries_removePeerFor`, `tries_ended`: a removal calls
  the node once, a program that ends calls none;
* `tries_revokeUsers`, `tries_expireTrials`: the two loops call the nodes for the devices
  of their rows in order, and confirm those that were answered ok.
-/
import VpnPortal.Services.Subscriptions

namespace VpnPortal

open Sessions Tables

/-- What a sweep relies on outside: an invariant `I` of the worlds it passes
through, kept by letters and by calls, and `Ok`, the answers it may get for a
device. The device's own calls are numbered by `base`. -/
structure Nodes (J : World → Input → Prop) (cfg : Settings) (d : Db) (base : ℕ → ℕ)
    (I : World → Prop) (Ok : Config → Reply → Prop) : Prop where
  outbox : ∀ s letters, I s → I { s with outbox := letters }
  missing : ∀ s c, I s → s.db = d → s.removals.count c.id = base c.id → c ∈ d.configs.rows →
    c.isActive = true → cfg.getLocation c.locationKey = none →
    I { s with removals := s.removals ++ [c.id] }
      ∧ Ok c (.refused ("location " ++ c.locationKey ++ " is not configured"))
  call : ∀ s i c loc, I s → s.db = d → s.removals.count c.id = base c.id → c ∈ d.configs.rows →
    c.isActive = true → cfg.getLocation c.locationKey = some loc →
    J { s with removals := s.removals ++ [c.id] } i →
    I { s with
        removals := s.removals ++ [c.id]
        node := Function.update s.node loc.host (i.del loc.host c).2 }
      ∧ Ok c (i.del loc.host c).1

/-! ### Programs that try devices -/

section Tries

variable {α β : Type}

/-- How a program ends that tries the devices `cs`: at the first call that
raises, or after all of them. The tables are as they were, and the value
depends on the answers for `cs` only. -/
def Tried (I : World → Prop) (Ok : Config → Reply → Prop) (cs : List Config)
    (Q : (Config → Reply) → α → Prop) (s : World) (r : Except Exn α) (s' : World) : Prop :=
  s'.db = s.db ∧ s'.clock = s.clock ∧ I s' ∧
    (((∃ c ∈ cs, Ok c .raised) ∧ r = .error .crash)
      ∨ (s'.removals = s.removals ++ cs.map Config.id
        ∧ ∃ (reply : Config → Reply) (a : α), (∀ c ∈ cs, Ok c (reply c) ∧ reply c ≠ .raised)
          ∧ r = .ok a
          ∧ ∀ reply' : Config → Reply, (∀ c ∈ cs, reply' c = reply c) → Q reply' a))

variable (J : World → Input → Prop) (d : Db) (base : ℕ → ℕ) (I : World → Prop)
variable (Ok : Config → Reply → Prop)

/-- Alone on the tables `d` the program tries the devices `cs`, each called
`base` times before, and its value lies in `Q`. -/
def Tries (cs : List Config) (Q : (Config → Reply) → α → Prop) (p : Portal α) : Prop :=
  ∀ s, s.db = d → I s → (∀ c ∈ cs, s.removals.count c.id = base c.id) →
    Proc.Alone J (fun _ _ => True) (Tried I Ok cs Q s) p s

variable {J d base I Ok}

lemma Tries.pure {Q : (Config → Reply) → α → Prop} {a : α} (h : ∀ reply, Q reply a) :
    Tries J d base I Ok [] Q (pure a) :=
  fun _ _ hI _ => ⟨rfl, rfl, hI, Or.inr ⟨by simp, fun _ => .ok, a, by simp, rfl, fun reply _ => h reply⟩⟩

lemma Tries.select {cs : List Config} {Q : (Config → Reply) → β → Prop} {q : Db → α}
    {f : α → Portal β} (h : Tries J d base I Ok cs Q (f (q d))) :
    Tries J d base I Ok cs Q (VpnPortal.select q >>= f) := by
  intro s hs hI hbase
  refine Proc.Alone.look trivial ?_
  rw [hs]
  exact h s hs hI hbase

/-- One program after the other: the devices of both, if no device is tried
twice. -/
lemma Tries.bind {l m : List Config} {Q : (Config → Reply) → α → Prop}
    {S : α → (Config → Reply) → β → Prop} {T : (Config → Reply) → β → Prop} {p : Portal α}
    {f : α → Portal β} (hp : Tries J d base I Ok l Q p)
    (hnodup : ((l ++ m).map Config.id).Nodup)
    (hf : ∀ a, Tries J d base I Ok m (S a) (f a))
    (hQ : ∀ reply a b, Q reply a → S a reply b → T reply b) :
    Tries J d base I Ok (l ++ m) T (p >>= f) := by
  have hdisj : ∀ c ∈ m, c.id ∉ l.map Config.id := by
    intro c hc hmem
    rw [List.map_append] at hnodup
    exact (List.nodup_append.mp hnodup).2.2 _ hmem _ (List.mem_map_of_mem hc) rfl
  intro s hs hI hbase
  refine (hp s hs hI fun c hc => hbase c (by simp [hc])).bind ?_ ?_
  · rintro a u ⟨hdb, hclock, hIu, ⟨-, h⟩ | ⟨hrem, reply, a', hok, h, hQa⟩⟩
    · cases h
    obtain rfl := Except.ok.inj h
    have hcount : ∀ c ∈ m, u.removals.count c.id = base c.id := by
      intro c hc
      rw [hrem, List.count_append, List.count_eq_zero_of_not_mem (hdisj c hc), Nat.add_zero]
      exact hbase c (by simp [hc])
    refine (hf a u (hdb.trans hs) hIu hcount).mono (fun _ _ h => h) ?_
    rintro r t ⟨hdb', hclock', hIt, hend⟩
    refine ⟨hdb'.trans hdb, hclock'.trans hclock, hIt, ?_⟩
    rcases hend with ⟨⟨c, hc, hraised⟩, hr⟩ | ⟨hrem', reply₂, b, hok₂, hr, hQb⟩
    · exact Or.inl ⟨⟨c, by simp [hc], hraised⟩, hr⟩
    · -- the answers of the first program on its devices, of the second elsewhere
      let joint : Config → Reply := fun c => if c ∈ l then reply c else reply₂ c
      have hfirst : ∀ c ∈ l, joint c = reply c := fun c hc => if_pos hc
      have hsecond : ∀ c ∈ m, joint c = reply₂ c := fun c hc =>
        if_neg fun hmem => hdisj c hc (List.mem_map_of_mem hmem)
      refine Or.inr ⟨?_, joint, b, fun c hc => ?_, hr, fun reply' hreply' => ?_⟩
      · rw [hrem', hrem, List.map_append, List.append_assoc]
      · rcases List.mem_append.mp hc with hc | hc
        · rw [hfirst c hc]; exact hok c hc
        · rw [hsecond c hc]; exact hok₂ c hc
      · refine hQ reply' a b (hQa reply' fun c hc => ?_) (hQb reply' fun c hc => ?_)
        · rw [hreply' c (by simp [hc]), hfirst c hc]
        · rw [hreply' c (by simp [hc]), hsecond c hc]
  · rintro e u ⟨hdb, hclock, hIu, ⟨⟨c, hc, hraised⟩, h⟩ | ⟨-, reply, a, -, h, -⟩⟩
    · exact ⟨hdb, hclock, hIu, Or.inl ⟨⟨c, by simp [hc], hraised⟩, by cases h; rfl⟩⟩
    · cases h

lemma Tries.mono {cs : List Config} {Q Q' : (Config → Reply) → α → Prop} {p : Portal α}
    (hp : Tries J d base I Ok cs Q p) (hQ : ∀ reply a, Q reply a → Q' reply a) :
    Tries J d base I Ok cs Q' p := by
  intro s hs hI hbase
  refine (hp s hs hI hbase).mono (fun _ _ h => h) ?_
  rintro r t ⟨hdb, hclock, hIt, h | ⟨hrem, reply, a, hok, hr, ha⟩⟩
  · exact ⟨hdb, hclock, hIt, Or.inl h⟩
  · exact ⟨hdb, hclock, hIt, Or.inr ⟨hrem, reply, a, hok, hr, fun reply' h => hQ _ _ (ha reply' h)⟩⟩

/-- The node confirmed the removal of this device. -/
abbrev confirmed (reply : Config → Reply) (c : Config) : Bool := decide (reply c = .ok)

/-- One device, answered. -/
lemma Tried.answered {s s' : World} {c : Config} {a : Reply} (hI : I s') (hdb : s'.db = s.db)
    (hclock : s'.clock = s.clock) (hrem : s'.removals = s.removals ++ [c.id])
    (hOk : Ok c a) (ha : a ≠ .raised) :
    Tried I Ok [c] (fun reply ok => ok = confirmed reply c) s (.ok (decide (a = .ok))) s' := by
  refine ⟨hdb, hclock, hI, Or.inr ⟨hrem, fun _ => a, _, ?_, rfl, ?_⟩⟩
  · intro x hx
    rw [List.mem_singleton.mp hx]
    exact ⟨hOk, ha⟩
  · intro reply hreply
    rw [confirmed, hreply c (by simp)]

lemma tries_removePeerFor {cfg : Settings} (nodes : Nodes J cfg d base I Ok) {c : Config}
    (hrow : c ∈ d.configs.rows) (hact : c.isActive = true) :
    Tries J d base I Ok [c] (fun reply ok => ok = confirmed reply c) (removePeerFor cfg c) := by
  intro s hs hI hbase
  have hcount := hbase c (by simp)
  refine Proc.Alone.change trivial ?_
  cases hloc : cfg.getLocation c.locationKey with
  | none =>
      obtain ⟨hI', hOk⟩ := nodes.missing s c hI hs hcount hrow hact hloc
      exact Tried.answered (s := s) hI' rfl rfl rfl hOk (by simp)
  | some loc =>
      refine Proc.Alone.exchange (fun _ _ => trivial) fun i hi => ?_
      obtain ⟨hI', hOk⟩ := nodes.call s i c loc hI hs hcount hrow hact hloc hi
      dsimp only
      cases hr : (i.del loc.host c).1 with
      | raised => exact ⟨rfl, rfl, hI', Or.inl ⟨⟨c, by simp, hr ▸ hOk⟩, rfl⟩⟩
      | ok => exact Tried.answered (s := s) hI' rfl rfl rfl (hr ▸ hOk) (by simp)
      | refused reason => exact Tried.answered (s := s) hI' rfl rfl rfl (hr ▸ hOk) (by simp)

end Tries

/-! ### Messages -/

/-- The table or the session already has a message for this account under this
key. -/
def Known (d : Db) (sent : List NewNotice) (n : NewNotice) : Prop :=
  (∃ x ∈ d.notifications.rows, x.userId = n.userId ∧ x.dedupeKey = n.dedupeKey)
    ∨ ∃ x ∈ sent, x.userId = n.userId ∧ x.dedupeKey = n.dedupeKey

/-- From `sent` to `out` the session added messages of `news` only, and each of
these is known in the end. -/
structure Announces (d : Db) (news sent out : List NewNotice) : Prop where
  only : ∀ n ∈ out, n ∈ sent ∨ n ∈ news
  kept : ∀ n ∈ sent, n ∈ out
  known : ∀ n ∈ news, Known d out n

lemma Announces.refl (d : Db) (sent : List NewNotice) : Announces d [] sent sent :=
  ⟨fun _ h => Or.inl h, fun _ h => h, by simp⟩

lemma Known.mono {d : Db} {sent out : List NewNotice} {n : NewNotice} (h : Known d sent n)
    (hsub : ∀ x ∈ sent, x ∈ out) : Known d out n := by
  rcases h with h | ⟨x, hx, heq⟩
  · exact Or.inl h
  · exact Or.inr ⟨x, hsub x hx, heq⟩

lemma Announces.trans {d : Db} {news news' sent mid out : List NewNotice}
    (h : Announces d news sent mid) (h' : Announces d news' mid out) :
    Announces d (news ++ news') sent out where
  only n hn := by
    rcases h'.only n hn with hn | hn
    · rcases h.only n hn with hn | hn
      · exact Or.inl hn
      · exact Or.inr (by simp [hn])
    · exact Or.inr (by simp [hn])
  kept n hn := h'.kept n (h.kept n hn)
  known n hn := by
    rcases List.mem_append.mp hn with hn | hn
    · exact (h.known n hn).mono h'.kept
    · exact h'.known n hn

/-- The message of an ending. -/
def endedNotice (user : User) (kind : NoticeKind) (until_ : Time) : NewNotice :=
  ⟨user.id, kind, some (.ended kind until_)⟩

section Loops

variable {J : World → Input → Prop} {cfg : Settings} {d : Db} {base : ℕ → ℕ} {I : World → Prop}
variable {Ok : Config → Reply → Prop}

lemma tries_sendLater (nodes : Nodes J cfg d base I Ok) (email : Option String)
    (kind : NoticeKind) (until_ : Time) :
    Tries J d base I Ok [] (fun _ _ => True) (sendLater email kind until_) := by
  unfold sendLater
  split
  · exact Tries.pure fun _ => trivial
  · split
    · exact Tries.pure fun _ => trivial
    · intro s _ hI _ i _
      exact ⟨trivial, rfl, rfl, nodes.outbox s _ hI,
        Or.inr ⟨by simp, fun _ => .ok, (), by simp, rfl, fun _ _ => trivial⟩⟩

lemma tries_ended (nodes : Nodes J cfg d base I Ok) (sent : List NewNotice) (user : User)
    (kind : NoticeKind) (until_ : Time) :
    Tries J d base I Ok [] (fun _ => Announces d [endedNotice user kind until_] sent)
      (ended sent user kind until_) := by
  refine Tries.bind (l := []) (m := [])
    (Q := fun _ x => (x = none ∧ Known d sent (endedNotice user kind until_))
      ∨ x = some (endedNotice user kind until_))
    (S := fun x _ out => out = sent ++ x.toList) ?_ (by simp) ?_ ?_
  · refine Tries.select ?_
    split
    · rename_i h
      refine Tries.pure fun _ => Or.inl ⟨rfl, ?_⟩
      rcases Bool.or_eq_true _ _ ▸ h with h | h
      · obtain ⟨x, hx, heq⟩ := List.any_eq_true.mp h
        exact Or.inl ⟨x, hx, of_decide_eq_true heq⟩
      · obtain ⟨x, hx, heq⟩ := List.any_eq_true.mp h
        exact Or.inr ⟨x, hx, of_decide_eq_true heq⟩
    · exact Tries.pure fun _ => Or.inr rfl
  · intro x
    cases x with
    | none => exact Tries.pure fun _ => (List.append_nil sent).symm
    | some n =>
        dsimp only
        split
        · exact Tries.bind (l := []) (m := []) (tries_sendLater nodes _ _ _) (by simp)
            (fun _ => Tries.pure (Q := fun _ out => out = sent ++ [n]) fun _ => rfl)
            (fun _ _ _ _ h => h)
        · exact Tries.pure fun _ => rfl
  · rintro - x out (⟨rfl, hknown⟩ | rfl) hout
    · rw [Option.toList_none, List.append_nil] at hout
      subst hout
      refine ⟨fun n hn => Or.inl hn, fun n hn => hn, fun n hn => ?_⟩
      rw [List.mem_singleton.mp hn]
      exact hknown
    · rw [Option.toList_some] at hout
      subst hout
      refine ⟨fun n hn => List.mem_append.mp hn, fun n hn => by simp [hn], fun n hn => ?_⟩
      rw [List.mem_singleton.mp hn]
      exact Or.inr ⟨_, by simp, rfl, rfl⟩

/-! ### The loop over the paid periods -/

lemma tries_revokeDevices (nodes : Nodes J cfg d base I Ok) (cs : List Config) (w : SweepWork)
    (all : Bool) (hrows : ∀ c ∈ cs, c ∈ d.configs.rows ∧ c.isActive = true)
    (hnodup : (cs.map Config.id).Nodup) :
    Tries J d base I Ok cs
      (fun reply x => x = ({ w with
          off := w.off ++ (cs.filter (confirmed reply)).map Config.id
          failures := w.failures + (cs.filter fun c => !confirmed reply c).length },
        all && cs.all (confirmed reply)))
      (revokeDevices cfg cs w all) := by
  induction cs generalizing w all with
  | nil => exact Tries.pure fun _ => by simp
  | cons c rest ih =>
      have hc := hrows c (by simp)
      have hrest : (rest.map Config.id).Nodup := (List.nodup_cons.mp hnodup).2
      have hrows' : ∀ c ∈ rest, c ∈ d.configs.rows ∧ c.isActive = true :=
        fun c hc => hrows c (by simp [hc])
      refine Tries.bind (l := [c]) (tries_removePeerFor nodes hc.1 hc.2) hnodup
        (S := fun ok reply x => x = ({ w with
            off := w.off ++ (if ok then [c.id] else [])
              ++ (rest.filter (confirmed reply)).map Config.id
            failures := w.failures + (if ok then 0 else 1)
              + (rest.filter fun c => !confirmed reply c).length },
          (ok && all) && rest.all (confirmed reply))) ?_ ?_
      · intro ok
        cases ok with
        | true => exact (ih _ all hrows' hrest).mono fun _ x hx => by rw [hx]; simp
        | false => exact (ih _ false hrows' hrest).mono fun _ x hx => by rw [hx]; simp
      · rintro reply ok x rfl rfl
        cases hok : confirmed reply c with
        | true => simp [hok]
        | false =>
            simp [hok]
            omega

/-- The devices of some accounts, in the order the sweep visits them. -/
def devicesOf (d : Db) (us : List User) : List Config :=
  us.flatMap fun u => heldBy d.configs.rows u.id

/-- Every device of the account was confirmed. -/
def cleared (d : Db) (reply : Config → Reply) (u : User) : Bool :=
  (heldBy d.configs.rows u.id).all (confirmed reply)

/-- From `w` to `x` the sweep has visited the accounts `us`. -/
structure Revokes (d : Db) (us : List User) (w : SweepWork) (reply : Config → Reply)
    (x : SweepWork) : Prop where
  off : x.off = w.off ++ ((devicesOf d us).filter (confirmed reply)).map Config.id
  revoked : x.revoked = w.revoked ++ us.filter (cleared d reply)
  failures : x.failures = w.failures + ((devicesOf d us).filter fun c => !confirmed reply c).length
  sent : Announces d ((us.filter (cleared d reply)).map fun u =>
    endedNotice u .subEnded (u.subscribedUntil.getD 0)) w.sent x.sent

/-- The account is flagged off and the customer told. -/
lemma tries_clear (nodes : Nodes J cfg d base I Ok) (u : User) (rest : List User) (w : SweepWork)
    (hnodup : ((devicesOf d rest).map Config.id).Nodup)
    (ih : ∀ w, Tries J d base I Ok (devicesOf d rest) (Revokes d rest w) (revokeUsers cfg rest w)) :
    Tries J d base I Ok (devicesOf d rest)
      (fun reply x => ∃ sent,
        Announces d [endedNotice u .subEnded (u.subscribedUntil.getD 0)] w.sent sent
        ∧ Revokes d rest { w with revoked := w.revoked ++ [u], sent := sent } reply x)
      (do
        let sent ← ended w.sent u .subEnded (u.subscribedUntil.getD 0)
        revokeUsers cfg rest { w with revoked := w.revoked ++ [u], sent := sent }) := by
  refine Tries.bind (l := []) (tries_ended nodes _ _ _ _) hnodup (fun sent => ih _) ?_
  exact fun reply sent x hsent hx => ⟨sent, hsent, hx⟩

lemma tries_revokeUsers (nodes : Nodes J cfg d base I Ok) (us : List User) (w : SweepWork)
    (hnodup : ((devicesOf d us).map Config.id).Nodup) :
    Tries J d base I Ok (devicesOf d us) (Revokes d us w) (revokeUsers cfg us w) := by
  induction us generalizing w with
  | nil =>
      exact Tries.pure fun _ =>
        ⟨by simp [devicesOf], by simp, by simp [devicesOf], Announces.refl d w.sent⟩
  | cons u rest ih =>
      refine Tries.select ?_
      have hsplit : devicesOf d (u :: rest) = heldBy d.configs.rows u.id ++ devicesOf d rest := rfl
      rw [hsplit] at hnodup ⊢
      have hboth := hnodup
      rw [List.map_append] at hboth
      have hheld := (List.nodup_append.mp hboth).1
      have hrest := (List.nodup_append.mp hboth).2.1
      have hrows : ∀ c ∈ heldBy d.configs.rows u.id, c ∈ d.configs.rows ∧ c.isActive = true :=
        fun c hc => ⟨(List.mem_filter.mp hc).1, (of_decide_eq_true (List.mem_filter.mp hc).2).2⟩
      refine Tries.bind (tries_revokeDevices nodes _ w true hrows hheld) hnodup
        (S := fun y reply x => if y.2 then ∃ sent,
            Announces d [endedNotice u .subEnded (u.subscribedUntil.getD 0)] y.1.sent sent
            ∧ Revokes d rest { y.1 with revoked := y.1.revoked ++ [u], sent := sent } reply x
          else Revokes d rest y.1 reply x) ?_ ?_
      · rintro ⟨y, all⟩
        cases all with
        | true => exact tries_clear nodes u rest y hrest fun w => ih w hrest
        | false => exact ih y hrest
      · rintro reply y x rfl hx
        dsimp only at hx
        rw [Bool.true_and] at hx
        cases hall : (heldBy d.configs.rows u.id).all (confirmed reply) with
        | true =>
            have hu : cleared d reply u = true := hall
            rw [hall, if_pos rfl] at hx
            obtain ⟨sent, hsent, hx⟩ := hx
            refine ⟨?_, ?_, ?_, ?_⟩
            · rw [hx.off, hsplit]; simp
            · rw [hx.revoked]; simp [hu]
            · rw [hx.failures, hsplit]; simp; omega
            · rw [List.filter_cons_of_pos hu]
              exact hsent.trans hx.sent
        | false =>
            have hu : ¬ cleared d reply u = true := by rw [cleared, hall]; simp
            rw [hall, if_neg (by simp)] at hx
            refine ⟨?_, ?_, ?_, ?_⟩
            · rw [hx.off, hsplit]; simp
            · rw [hx.revoked, List.filter_cons_of_neg hu]
            · rw [hx.failures, hsplit]; simp; omega
            · rw [List.filter_cons_of_neg hu]
              exact hx.sent

/-! ### The loop over the ended trials -/

/-- A confirmed removal that the customer hears of. -/
def trialNews (reply : Config → Reply) (t : Time) (r : Config × User) : Bool :=
  confirmed reply r.1 && !hasActiveSubscription r.2 t

/-- From `w` to `x` the sweep has visited the trial devices `rows`. -/
structure EndsTrials (d : Db) (t : Time) (rows : List (Config × User)) (w : SweepWork)
    (reply : Config → Reply) (x : SweepWork) : Prop where
  off : x.off = w.off ++ ((rows.map Prod.fst).filter (confirmed reply)).map Config.id
  revoked : x.revoked = w.revoked
  failures : x.failures
    = w.failures + ((rows.map Prod.fst).filter fun c => !confirmed reply c).length
  sent : Announces d ((rows.filter (trialNews reply t)).map fun r =>
    endedNotice r.2 .trialEnded (r.2.trialUntil.getD t)) w.sent x.sent

/-- The messages for one confirmed trial device. -/
def trialNotices (t : Time) (user : User) : List NewNotice :=
  if hasActiveSubscription user t then [] else [endedNotice user .trialEnded (user.trialUntil.getD t)]

lemma tries_expireTrials (nodes : Nodes J cfg d base I Ok) (t : Time)
    (rows : List (Config × User)) (w : SweepWork)
    (hrows : ∀ c ∈ rows.map Prod.fst, c ∈ d.configs.rows ∧ c.isActive = true)
    (hnodup : ((rows.map Prod.fst).map Config.id).Nodup) :
    Tries J d base I Ok (rows.map Prod.fst) (EndsTrials d t rows w) (expireTrials cfg t rows w) := by
  induction rows generalizing w with
  | nil => exact Tries.pure fun _ => ⟨by simp, rfl, by simp, Announces.refl d w.sent⟩
  | cons r rest ih =>
      obtain ⟨c, user⟩ := r
      have hc := hrows c (by simp)
      have hrest : ((rest.map Prod.fst).map Config.id).Nodup := (List.nodup_cons.mp hnodup).2
      have hrows' : ∀ c ∈ rest.map Prod.fst, c ∈ d.configs.rows ∧ c.isActive = true :=
        fun c hc => hrows c (List.mem_cons_of_mem _ hc)
      refine Tries.bind (l := [c]) (tries_removePeerFor nodes hc.1 hc.2) hnodup
        (S := fun ok reply x => if ok then ∃ sent, Announces d (trialNotices t user) w.sent sent
            ∧ EndsTrials d t rest { w with off := w.off ++ [c.id], sent := sent } reply x
          else EndsTrials d t rest { w with failures := w.failures + 1 } reply x) ?_ ?_
      · intro ok
        cases ok with
        | false => exact ih _ hrows' hrest
        | true =>
            unfold trialNotices
            cases hlive : hasActiveSubscription user t with
            | true =>
                exact (ih _ hrows' hrest).mono fun reply x hx => ⟨w.sent, Announces.refl d _, hx⟩
            | false =>
                exact Tries.bind (l := []) (tries_ended nodes _ _ _ _) hrest
                  (fun sent => ih _ hrows' hrest) fun reply sent x hsent hx => ⟨sent, hsent, hx⟩
      · rintro reply ok x rfl hx
        cases hok : confirmed reply c with
        | false =>
            have hr : ¬ trialNews reply t (c, user) = true := by simp [trialNews, hok]
            rw [hok, if_neg (by simp)] at hx
            refine ⟨?_, hx.revoked, ?_, ?_⟩
            · rw [hx.off]; simp [hok]
            · rw [hx.failures]; simp [hok]; omega
            · rw [List.filter_cons_of_neg hr]
              exact hx.sent
        | true =>
            rw [hok, if_pos rfl] at hx
            obtain ⟨sent, hsent, hx⟩ := hx
            refine ⟨?_, hx.revoked, ?_, ?_⟩
            · rw [hx.off]; simp [hok]
            · rw [hx.failures]; simp [hok]
            · unfold trialNotices at hsent
              cases hlive : hasActiveSubscription user t with
              | true =>
                  rw [List.filter_cons_of_neg (by simp [trialNews, hlive])]
                  rw [hlive, if_pos rfl] at hsent
                  exact hsent.trans hx.sent
              | false =>
                  rw [List.filter_cons_of_pos (by simp [trialNews, hok, hlive])]
                  rw [hlive, if_neg (by simp)] at hsent
                  exact hsent.trans hx.sent

end Loops

end VpnPortal
