/-
The operations of the portal keep to the protocol of rows and peers.

Every operation is read step by step under any interference: what it has pending
at its end is nothing. The nodes are the wrappers themselves, each call one step
that is answered; nothing is known of the list of addresses a node reports, nor
of the clock.

* `Honest`: the nodes and the keys;
* `Silent`: programs that only read; `Still`: those outside the protocol;
* `Cleared`: nothing is pending;
* `keeping_removePeerFor`, `keeping_issueConfig`: the two node calls keep to the protocol
  and are pending if the node said yes;
* `clears_op`: **no operation leaves anything pending**, whatever runs beside it.
-/
import VpnPortal.Access.Operations
import VpnPortal.Mirror.Protocol

namespace VpnPortal

open Sessions Tables

/-- The outside of a session: its keys are its own, and every call of a wrapper
is answered by it. -/
structure Honest (key : String) (w : World) (i : Input) : Prop where
  keys : ∀ p, i.keys = some p → p.1 = key
  add : ∀ host peer, ∃ sets, i.add host peer = pwaAddPeer sets (w.node host) peer
  del : ∀ host c, ∃ run, i.del host c = pwaDelPeer run (w.node host) c.publicKey

section Programs

variable {cfg : Settings} {key : String} {α β : Type}

/-- The program keeps to the protocol from `g` on. -/
abbrev Keeping (cfg : Settings) (key : String) (C : Pending → Except Exn α → Prop) (p : Portal α)
    (g : Pending) : Prop :=
  Proc.Follows (Honest key) (Transition cfg key) C p g

/-! ### Steps that only read -/

/-- A step that leaves the database and every node as they are. -/
def Unmoved (s t : World) : Prop := t.db = s.db ∧ t.node = s.node

lemma Unmoved.refl (s : World) : Unmoved s s := ⟨rfl, rfl⟩

/-- The program reads, at most it writes a letter, and nothing is raised. -/
abbrev Silent (p : Portal α) : Prop :=
  Proc.Within (fun _ _ => True) Unmoved (fun r => ∃ a, r = .ok a) p

lemma Silent.bind {p : Portal α} {f : α → Portal β} (hp : Silent p) (hf : ∀ a, Silent (f a)) :
    Silent (p >>= f) :=
  Proc.Within.bind hp (fun a _ => hf a) fun _ ⟨_, h⟩ => by cases h

lemma silent_pure (a : α) : Silent (pure a) := ⟨a, rfl⟩

lemma silent_select (q : Db → α) : Silent (select q) := fun s _ _ => ⟨Unmoved.refl s, _, rfl⟩

lemma silent_ask (q : Input → α) : Silent (Proc.ask q : Portal α) :=
  fun s _ _ => ⟨Unmoved.refl s, _, rfl⟩

lemma silent_now : Silent now := fun _ _ _ => ⟨⟨rfl, rfl⟩, _, rfl⟩

lemma silent_sendLater (email : Option String) (kind : NoticeKind) (until_ : Time) :
    Silent (sendLater email kind until_) := by
  unfold sendLater
  split
  · exact silent_pure _
  · split
    · exact silent_pure _
    · exact fun s _ _ => ⟨⟨rfl, rfl⟩, _, rfl⟩

lemma silent_notify (sent : List NewNotice) (user : User) (kind : NoticeKind)
    (dedupe : Option DedupeKey) : Silent (notify sent user kind dedupe) := by
  unfold notify
  split
  · exact silent_pure _
  · refine (silent_select _).bind fun b => ?_
    split <;> exact silent_pure _

lemma silent_ended (sent : List NewNotice) (user : User) (kind : NoticeKind) (until_ : Time) :
    Silent (ended sent user kind until_) := by
  refine (silent_notify _ _ _ _).bind fun o => ?_
  cases o with
  | none => exact silent_pure _
  | some n =>
      dsimp only
      split
      · exact (silent_sendLater _ _ _).bind fun _ => silent_pure _
      · exact silent_pure _

lemma silent_applyEach (user : User) (rs : List ReferralReward) (sent : List NewNotice) :
    Silent (applyEach user rs sent) := by
  induction rs generalizing user sent with
  | nil => exact silent_pure _
  | cons r rest ih =>
      refine (silent_notify _ _ _ _).bind fun o => ?_
      cases o <;> exact ih _ _

lemma silent_applyRewardsFor (user : User) (t : Time) (sent : List NewNotice) :
    Silent (applyRewardsFor user t sent) := by
  unfold applyRewardsFor
  split
  · exact (silent_select _).bind fun due => (silent_applyEach _ _ _).bind fun _ => silent_pure _
  · exact silent_pure _

lemma silent_rewardEach (t : Time) (ids : List ℕ) (work : List RewardWork) (sent : List NewNotice) :
    Silent (rewardEach t ids work sent) := by
  induction ids generalizing work sent with
  | nil => exact silent_pure _
  | cons n rest ih =>
      refine (silent_select _).bind fun o => ?_
      cases o with
      | none => exact ih _ _
      | some user => exact (silent_applyRewardsFor _ _ _).bind fun _ => ih _ _

lemma silent_spendOnPayment (payment : Payment) : Silent (spendOnPayment payment) := by
  unfold spendOnPayment
  split
  · exact silent_pure _
  · refine (silent_select _).bind fun already => ?_
    split <;> exact silent_pure _

lemma silent_rewardForPayment (payment : Payment) (t : Time) :
    Silent (rewardForPayment payment t) := by
  unfold rewardForPayment
  split
  · exact silent_pure _
  · refine (silent_select _).bind fun promo => ?_
    split
    · exact silent_pure _
    · split
      · exact silent_pure _
      · split
        · exact silent_pure _
        · split
          · exact silent_pure _
          · refine (silent_select _).bind fun already => ?_
            split <;> exact silent_pure _

/-! ### Steps outside the protocol -/

/-- A step that touches neither the rows nor the runtimes. -/
def Aside (s t : World) : Prop := t.db.configs = s.db.configs ∧ ∀ h, t.runtime h = s.runtime h

lemma Aside.refl (s : World) : Aside s s := ⟨rfl, fun _ => rfl⟩

lemma Aside.of_node {s t : World} (hconfigs : t.db.configs = s.db.configs) (hnode : t.node = s.node) :
    Aside s t := ⟨hconfigs, fun h => by rw [World.runtime, hnode]; rfl⟩

lemma Aside.transition {s t : World} (h : Aside s t) (g : Pending) : Transition cfg key g s g t := by
  have hread : Transition cfg key g s { g with seen := g.seen ++ [] } t :=
    Transition.read [] (by simp) h.1 h.2
  rw [List.append_nil] at hread
  exact hread

/-- Every step is aside, and the result lies in `C`. -/
abbrev Beside (C : Except Exn α → Prop) (p : Portal α) : Prop :=
  Proc.Within (fun _ _ => True) Aside C p

/-- Every step is aside, and nothing is raised. -/
abbrev Still (p : Portal α) : Prop := Beside (fun r => ∃ a, r = .ok a) p

lemma Beside.keeping {C : Except Exn α → Prop} {p : Portal α} (hp : Beside C p) (g : Pending) :
    Keeping cfg key (fun g' r => g' = g ∧ C r) p g := by
  have hp' : Proc.Within (Honest key) Aside C p := hp.restrict fun _ _ _ => trivial
  exact hp'.follows fun s t h => h.transition g

/-- A program aside in front of another. -/
lemma Beside.then {C : Except Exn α → Prop} {p : Portal α} {f : α → Portal β} {g : Pending}
    {C' : Pending → Except Exn β → Prop} (hp : Beside C p)
    (hf : ∀ a, C (.ok a) → Keeping cfg key C' (f a) g) (he : ∀ e, C (.error e) → C' g (.error e)) :
    Keeping cfg key C' (p >>= f) g := by
  refine Proc.Follows.bind (hp.keeping g) ?_ ?_
  · rintro g' a ⟨rfl, ha⟩
    exact hf a ha
  · rintro g' e ⟨rfl, hraise⟩
    exact he e hraise

lemma Still.then {p : Portal α} {f : α → Portal β} {g : Pending}
    {C : Pending → Except Exn β → Prop} (hp : Still p) (hf : ∀ a, Keeping cfg key C (f a) g) :
    Keeping cfg key C (p >>= f) g :=
  Beside.then hp (fun a _ => hf a) fun _ ⟨_, h⟩ => by cases h

/-- What only reads is aside. -/
lemma Silent.still {p : Portal α} (hp : Silent p) : Still p :=
  Proc.Within.mono hp (fun _ _ h => Aside.of_node (by rw [h.1]) h.2) fun _ h => h

lemma Silent.then {p : Portal α} {f : α → Portal β} {g : Pending}
    {C : Pending → Except Exn β → Prop} (hp : Silent p) (hf : ∀ a, Keeping cfg key C (f a) g) :
    Keeping cfg key C (p >>= f) g :=
  hp.still.then hf

lemma Still.bind {p : Portal α} {f : α → Portal β} (hp : Still p) (hf : ∀ a, Still (f a)) :
    Still (p >>= f) :=
  Proc.Within.bind hp (fun a _ => hf a) fun _ ⟨_, h⟩ => by cases h

lemma still_commit {f : Db → Db} (hf : ∀ db, (f db).configs = db.configs) : Still (commit f) :=
  fun s _ _ => ⟨Aside.of_node (hf s.db) rfl, _, rfl⟩

lemma beside_scalarOneOrNone (rows : List α) : Beside (fun _ => True) (scalarOneOrNone rows) := by
  unfold scalarOneOrNone
  split <;> exact trivial

lemma beside_currentUser (username : String) : Beside (fun _ => True) (currentUser username) := by
  refine Proc.Within.bind (silent_select _).still (fun rows _ => ?_) fun _ _ => trivial
  refine Proc.Within.bind (beside_scalarOneOrNone rows) (fun o _ => ?_) fun _ _ => trivial
  cases o <;> exact trivial

lemma configs_writeNotices (sent : List NewNotice) (db : Db) :
    (writeNotices sent db).configs = db.configs := by
  rw [writeNotices_eq]

lemma configs_rewardWork (t : Time) (work : List RewardWork) (db : Db) :
    (work.foldl (RewardWork.write t) db).configs = db.configs := by
  induction work generalizing db with
  | nil => rfl
  | cons w rest ih =>
      rw [List.foldl_cons, ih, RewardWork.write, Db.foldl_applyReward]
      rfl

lemma still_applyDueRewards : Still applyDueRewards := by
  refine silent_now.still.bind fun t => (silent_select _).still.bind fun owners => ?_
  refine (silent_rewardEach _ _ _ _).still.bind fun x => ?_
  obtain ⟨work, sent⟩ := x
  refine (still_commit fun db => ?_).bind fun _ => (silent_pure _).still
  rw [configs_writeNotices, configs_rewardWork]

lemma still_remindDue : Still remindDue := by
  refine Proc.Within.mono (within_remindDue (J := fun _ _ => True)) ?_ fun _ h => h
  exact fun s t h => Aside.of_node (by rw [h.db]) h.node

/-! ### Taking peers off -/

/-- The runtimes when one node changes. -/
lemma runtime_update (s : World) (host : String) (node : NodeState) (removals : List ℕ) (h : String) :
    ({ s with node := Function.update s.node host node, removals := removals } : World).runtime h
      = if h = host then node.runtime else s.runtime h := by
  unfold World.runtime
  dsimp only
  by_cases hh : h = host
  · rw [hh, if_pos rfl, Function.update_self]
  · rw [if_neg hh, Function.update_of_ne hh]

/-- A node whose runtime stays as it is. -/
lemma Aside.of_runtime {s : World} {host : String} {node : NodeState}
    (h : node.runtime = (s.node host).runtime) :
    Aside s { s with node := Function.update s.node host node } := by
  refine ⟨rfl, fun h' => ?_⟩
  rw [runtime_update, h]
  split
  · rename_i hh
    rw [hh]
    rfl
  · rfl

lemma keeping_removePeerAt {host : String} {c : Config} {f : Reply → Portal β} {g : Pending}
    {C : Pending → Except Exn β → Prop} (hseen : c ∈ g.seen)
    (hhost : c.hostIn cfg = some host ∨ (c.kind = .trial ∧ host = cfg.bridgeIp))
    (hok : Keeping cfg key C (f .ok) { g with removed := g.removed ++ [c.id] })
    (hno : ∀ reason, Keeping cfg key C (f (.refused reason)) g) :
    Keeping cfg key C (removePeerAt host c >>= f) g := by
  refine Proc.Follows.exchange fun s i hi => ?_
  obtain ⟨run, hdel⟩ := hi.del host c
  dsimp only
  rw [hdel]
  rcases pwaDelPeer_runtime run (s.node host) c.publicKey with ⟨hreply, hnode⟩ | ⟨⟨reason, hreply⟩, hnode⟩
  · rw [hreply]
    refine ⟨_, Transition.remove hseen hhost rfl fun h => ?_, hok⟩
    rw [runtime_update, hnode]
    rfl
  · rw [hreply]
    have haside := Aside.of_runtime hnode
    exact ⟨g, haside.transition g, hno reason⟩

/-- `remove_peer_for` for a row that was read: what is pending afterwards. -/
lemma keeping_removePeerFor {c : Config} {g : Pending} (hseen : c ∈ g.seen) :
    Keeping cfg key (fun g' r => (r = .ok true ∧ g' = { g with removed := g.removed ++ [c.id] })
      ∨ (r = .ok false ∧ g' = g)) (removePeerFor cfg c) g := by
  refine Proc.Follows.change fun s => ?_
  have haside : Aside s { s with removals := s.removals ++ [c.id] } := Aside.of_node rfl rfl
  refine ⟨g, haside.transition g, ?_⟩
  cases hloc : cfg.getLocation c.locationKey with
  | none => exact Or.inr ⟨rfl, rfl⟩
  | some loc =>
      refine keeping_removePeerAt hseen (Or.inl ?_) (Or.inl ⟨rfl, rfl⟩) fun _ => Or.inr ⟨rfl, rfl⟩
      rw [Config.hostIn, hloc]
      rfl

/-- The devices `off` are taken off and not yet recorded, nothing else. -/
def Holding (off : List ℕ) (g : Pending) : Prop := g.added = none ∧ g.removed = off

lemma keeping_revokeDevices (cs : List Config) (w : SweepWork) (all : Bool) {g : Pending}
    (hseen : ∀ c ∈ cs, c ∈ g.seen) (hg : Holding w.off g) :
    Keeping cfg key (fun g' r => ∃ x, r = .ok x ∧ Holding x.1.off g') (revokeDevices cfg cs w all)
      g := by
  induction cs generalizing w all g with
  | nil => exact ⟨_, rfl, hg⟩
  | cons c rest ih =>
      refine Proc.Follows.bind (keeping_removePeerFor (hseen c (by simp))) ?_ ?_
      · rintro g' ok (⟨hr, rfl⟩ | ⟨hr, rfl⟩)
        · obtain rfl := Except.ok.inj hr
          refine ih _ _ (fun x hx => hseen x (by simp [hx])) ⟨hg.1, ?_⟩
          dsimp only
          rw [hg.2]
        · obtain rfl := Except.ok.inj hr
          exact ih _ _ (fun x hx => hseen x (by simp [hx])) hg
      · rintro g' e (⟨hr, -⟩ | ⟨hr, -⟩) <;> cases hr

lemma keeping_revokeUsers (us : List User) (w : SweepWork) {g : Pending} (hg : Holding w.off g) :
    Keeping cfg key (fun g' r => ∃ x, r = .ok x ∧ Holding x.off g') (revokeUsers cfg us w) g := by
  induction us generalizing w g with
  | nil => exact ⟨_, rfl, hg⟩
  | cons u rest ih =>
      refine Proc.Follows.look fun s => ?_
      refine ⟨{ g with seen := g.seen ++ heldBy s.db.configs.rows u.id },
        Transition.read _ (fun c hc => (List.mem_filter.mp hc).1) rfl fun _ => rfl, ?_⟩
      refine Proc.Follows.bind (keeping_revokeDevices _ w true ?_ hg) ?_ ?_
      · exact fun c hc => List.mem_append_right _ hc
      · rintro g' x ⟨y, hy, hg'⟩
        obtain rfl := Except.ok.inj hy
        obtain ⟨w', all⟩ := x
        cases all with
        | true =>
            exact (silent_ended _ _ _ _).then fun sent => ih _ hg'
        | false => exact ih _ hg'
      · rintro g' e ⟨y, hy, -⟩
        cases hy

/-- Nothing is pending. -/
abbrev Cleared (g : Pending) : Prop := Holding [] g

/-- The program keeps to the protocol and ends with nothing pending. -/
abbrev Clears (cfg : Settings) (key : String) (p : Portal α) (g : Pending) : Prop :=
  Keeping cfg key (fun g' _ => Cleared g') p g

/-- A commit that switches off the devices taken off, and adds no row. -/
lemma keeping_commit_off {f : Db → Db} {off : List ℕ} {g : Pending}
    (hf : ∀ db, (f db).configs = off.foldl switchOff db.configs) (hg : Holding off g) :
    Clears cfg key (commit f) g := by
  intro s i _
  have hcommit : Transition cfg key g s { g with added := none, removed := [] }
      { s with db := f s.db } := by
    refine Transition.commit ?_ fun _ => rfl
    rw [hf, rows_foldl_switchOff, Pending.settle, hg.1, hg.2]
    simp
  exact ⟨_, hcommit, rfl, rfl⟩

lemma keeping_writeSweep {w : SweepWork} {g : Pending} (hg : Holding w.off g) :
    Clears cfg key (commit w.write) g :=
  keeping_commit_off (fun db => by rw [SweepWork.write_eq]) hg

/-- A program after which nothing is pending, in front of one that is aside. -/
lemma Clears.still {p : Portal α} {f : α → Portal β} {g : Pending}
    (hp : Clears cfg key p g) (hf : ∀ a, Still (f a)) :
    Clears cfg key (p >>= f) g := by
  refine Proc.Follows.bind hp ?_ fun _ _ h => h
  intro g' a hg'
  refine Proc.Follows.mono ((hf a).keeping g') ?_
  rintro g'' r ⟨rfl, -⟩
  exact hg'

lemma clears_expireDueSubscriptions (t : Time) {g : Pending} (hg : Cleared g) :
    Clears cfg key (expireDueSubscriptions cfg t) g := by
  refine (silent_select _).then fun due => ?_
  refine Proc.Follows.bind (keeping_revokeUsers due {} hg) ?_ ?_
  · rintro g' w ⟨x, hx, hg'⟩
    obtain rfl := Except.ok.inj hx
    exact Clears.still (keeping_writeSweep hg') fun _ => ((silent_select _).bind fun _ => silent_pure _).still
  · rintro g' e ⟨x, hx, -⟩
    cases hx

lemma keeping_expireTrials (t : Time) (rows : List (Config × User)) (w : SweepWork) {g : Pending}
    (hseen : ∀ x ∈ rows, x.1 ∈ g.seen) (hg : Holding w.off g) :
    Keeping cfg key (fun g' r => ∃ x, r = .ok x ∧ Holding x.off g') (expireTrials cfg t rows w) g := by
  induction rows generalizing w g with
  | nil => exact ⟨_, rfl, hg⟩
  | cons x rest ih =>
      obtain ⟨c, user⟩ := x
      refine Proc.Follows.bind (keeping_removePeerFor (hseen (c, user) (by simp))) ?_ ?_
      · rintro g' ok (⟨hr, rfl⟩ | ⟨hr, rfl⟩)
        · obtain rfl := Except.ok.inj hr
          have hnext : ∀ sent : List NewNotice,
              Keeping cfg key (fun g' r => ∃ x, r = .ok x ∧ Holding x.off g')
                (expireTrials cfg t rest { w with off := w.off ++ [c.id], sent := sent })
                { g with removed := g.removed ++ [c.id] } := by
            intro sent
            refine ih _ (fun x hx => hseen x (by simp [hx])) ⟨hg.1, ?_⟩
            dsimp only
            rw [hg.2]
          dsimp only
          rw [if_pos rfl]
          split
          · exact (silent_ended _ _ _ _).then hnext
          · exact (silent_pure _).then hnext
        · obtain rfl := Except.ok.inj hr
          exact ih _ (fun x hx => hseen x (by simp [hx])) hg
      · rintro g' e (⟨hr, -⟩ | ⟨hr, -⟩) <;> cases hr

lemma clears_expireDueTrials (t : Time) {g : Pending} (hg : Cleared g) :
    Clears cfg key (expireDueTrials cfg t) g := by
  refine Proc.Follows.look fun s => ?_
  have hsub : ∀ c ∈ (dueTrials s.db t).map Prod.fst, c ∈ s.db.configs.rows := by
    intro c hc
    rw [map_fst_dueTrials] at hc
    exact (List.mem_filter.mp hc).1
  refine ⟨{ g with seen := g.seen ++ (dueTrials s.db t).map Prod.fst },
    Transition.read _ hsub rfl fun _ => rfl, ?_⟩
  refine Proc.Follows.bind (keeping_expireTrials t _ {} ?_ hg) ?_ ?_
  · exact fun x hx => List.mem_append_right _ (List.mem_map_of_mem hx)
  · rintro g' w ⟨x, hx, hg'⟩
    obtain rfl := Except.ok.inj hx
    exact Clears.still (keeping_writeSweep hg') fun _ => (silent_pure _).still
  · rintro g' e ⟨x, hx, -⟩
    cases hx

/-! ### Issuing a device -/

/-- The row `issue_config` returns. -/
def issuedRow (user : User) (name : String) (kind : Kind) (loc : Location) (pub ip : String) :
    Config where
  id := 0
  userId := user.id
  name := name
  peerIp := ip
  kind := kind
  location := loc.key
  publicKey := pub

/-- What is pending once the row `c` has its peer on `host`. -/
def Pending.issued (g : Pending) (host : String) (c : Config) : Pending :=
  { g with added := some (host, c), spent := true }

/-- One call of `pwa-add-peer` for a row of the session: the peer is pending, or
nothing has changed. -/
lemma keeping_addPeerAt {host : String} (psk name : String) {c : Config} {f : Reply → Portal β}
    {g : Pending} {C : Pending → Except Exn β → Prop} (hspent : g.spent = false) (hkey : c.publicKey = key)
    (hon : OnHost cfg host c) (hpool : c.InPool)
    (hok : Keeping cfg key C (f .ok) (g.issued host c))
    (hno : ∀ reason, Keeping cfg key C (f (.refused reason)) g) :
    Keeping cfg key C (addPeerAt host ⟨c.publicKey, psk, c.peerIp ++ "/32", name⟩ >>= f) g := by
  refine Proc.Follows.exchange fun s i hi => ?_
  obtain ⟨sets, hadd⟩ := hi.add host ⟨c.publicKey, psk, c.peerIp ++ "/32", name⟩
  dsimp only
  rw [hadd]
  rcases pwaAddPeer_cases sets (s.node host) ⟨c.publicKey, psk, c.peerIp ++ "/32", name⟩ with
    ⟨reason, hrun⟩ | ⟨-, -, conf, -, htaken, hrun⟩
  · rw [hrun]
    have haside : Aside s { s with node := Function.update s.node host (s.node host) } :=
      Aside.of_runtime rfl
    exact ⟨g, haside.transition g, hno reason⟩
  · rw [hrun]
    refine ⟨_, Transition.add hspent hkey hon.1 hon.2 hpool ?_ rfl fun h => ?_, hok⟩
    · intro e he hip
      have hfree : runtimeHasIp (s.node host).runtime (c.peerIp ++ "/32") = false := by
        unfold taken at htaken
        split_ifs at htaken with _ hip
        simpa using hip
      have := List.any_eq_false.mp hfree e he
      simp [hip] at this
    · rw [runtime_update]
      rfl

/-- What the retry loop leaves behind. -/
def Issued (row : String → Config) (host : String) (g g' : Pending)
    (r : Except Exn (Option String)) : Prop :=
  (r = .ok none ∧ g' = g) ∨ ∃ ip, r = .ok (some ip) ∧ g' = g.issued host (row ip)

lemma keeping_addWithRetry {loc : Location} {pool : AddressPool} {row : String → Config}
    (psk name : String) (n : ℕ) (tried : List String) {g : Pending} (hspent : g.spent = false)
    (hrow : ∀ ip, (row ip).peerIp = ip ∧ (row ip).publicKey = key ∧ OnHost cfg loc.host (row ip))
    (hpool : ∀ ip ∈ pool.addresses, (row ip).InPool) :
    Keeping cfg key (Issued row loc.host g) (addWithRetry loc pool key psk name n tried) g := by
  induction n generalizing tried with
  | zero => exact Or.inl ⟨rfl, rfl⟩
  | succ n ih =>
      refine Proc.Follows.look fun s => ⟨g, (Aside.refl s).transition g, ?_⟩
      split
      · exact Or.inl ⟨rfl, rfl⟩
      · rename_i ip hfind
        obtain ⟨hip, hkey, hon⟩ := hrow ip
        have hmem : ip ∈ pool.addresses := List.mem_of_find?_eq_some hfind
        have hpeer : (⟨key, psk, ip ++ "/32", name⟩ : NewPeer) =
            ⟨(row ip).publicKey, psk, (row ip).peerIp ++ "/32", name⟩ := by
          rw [hip, hkey]
        rw [hpeer]
        refine keeping_addPeerAt psk name hspent hkey hon (hpool ip hmem) (Or.inr ⟨ip, rfl, rfl⟩) ?_
        intro reason
        dsimp only
        split
        · exact ih _
        · exact Or.inl ⟨rfl, rfl⟩

/-- A location is found again under its own key. -/
lemma getLocation_key {location : String} {loc : Location} (h : cfg.getLocation location = some loc) :
    loc.key ≠ "" ∧ cfg.getLocation loc.key = some loc
      ∧ (location = Settings.defaultLocation → loc.key = Settings.defaultLocation) := by
  have hkey : loc.key = if location = "" then Settings.defaultLocation else location := by
    simpa using List.find?_some h
  have hne : loc.key ≠ "" := by
    rw [hkey]
    split
    · decide
    · assumption
  refine ⟨hne, ?_, fun hloc => ?_⟩
  · rw [Settings.getLocation, if_neg hne, hkey]
    exact h
  · rw [hkey, hloc]
    rfl

/-- `issue_config` with an unused key: a peer and the row for it, or nothing. -/
lemma keeping_issueConfig (user : User) (name : String) (kind : Kind) (location : String)
    {g : Pending} (hspent : g.spent = false) :
    Keeping cfg key (fun g' r => (r = .ok none ∧ g' = g)
        ∨ ∃ c host, r = .ok (some c) ∧ g' = g.issued host c)
      (issueConfig cfg user name kind location) g := by
  unfold issueConfig
  dsimp only
  split
  · exact Or.inl ⟨rfl, rfl⟩
  · rename_i loc hloc
    refine Proc.Follows.ask (fun s => (Aside.refl s).transition g) fun s i hi => ?_
    split
    · exact Or.inl ⟨rfl, rfl⟩
    · rename_i pub psk hkeys
      obtain rfl : pub = key := hi.keys _ hkeys
      refine (silent_ask _).then fun tried => ?_
      obtain ⟨hne, hself, hdefault⟩ := getLocation_key hloc
      have hrow : ∀ ip, (issuedRow user name kind loc pub ip).peerIp = ip
          ∧ (issuedRow user name kind loc pub ip).publicKey = pub
          ∧ OnHost cfg loc.host (issuedRow user name kind loc pub ip) := by
        refine fun ip => ⟨rfl, rfl, rfl, ?_⟩
        rw [Config.hostIn, Config.locationKey, issuedRow, if_neg hne, hself]
        rfl
      have hpool : ∀ ip ∈ (if kind = .trial then trialPool else clientPool).addresses,
          (issuedRow user name kind loc pub ip).InPool := by
        intro ip hip
        cases kind with
        | trial => exact ⟨hdefault rfl, hip⟩
        | paid => exact hip
      refine Proc.Follows.bind (keeping_addWithRetry psk _ 10 tried hspent hrow hpool) ?_ ?_
      · rintro g' o (⟨ho, rfl⟩ | ⟨ip, ho, rfl⟩)
        · obtain rfl := Except.ok.inj ho
          exact Or.inl ⟨rfl, rfl⟩
        · obtain rfl := Except.ok.inj ho
          exact Or.inr ⟨_, _, rfl, rfl⟩
      · rintro g' e (⟨ho, -⟩ | ⟨ip, ho, -⟩) <;> cases ho

/-- Everything pending is recorded. -/
def Pending.recorded (g : Pending) : Pending := { g with added := none, removed := [] }

/-- A commit that adds the row of the pending peer, or none where none is
pending. -/
lemma Transition.record {s t : World} {g : Pending} (device : Option Config)
    (hremoved : g.removed = []) (hadded : g.added.map Prod.snd = device)
    (hrows : t.db.configs.rows
      = s.db.configs.rows ++ (device.map fun c => { c with id := s.db.configs.next }).toList)
    (hnode : t.node = s.node) : Transition cfg key g s g.recorded t := by
  refine Transition.commit ?_ fun h => by rw [World.runtime, hnode]; rfl
  rw [hrows, Pending.settle, hremoved, ← hadded]
  cases g.added <;> simp

lemma rows_addDevice (a : Activation) (configs : Table Config) :
    (a.addDevice configs).rows
      = configs.rows ++ (a.device.map fun c => { c with id := configs.next }).toList := by
  unfold Activation.addDevice
  cases a.device <;> simp

/-! ### Activations -/

/-- The trial peers come off the German entry. -/
lemma keeping_removeTrials (cs : List Config) (off : List ℕ) {g : Pending}
    (hseen : ∀ c ∈ cs, c ∈ g.seen ∧ c.kind = .trial) (hg : Holding off g) :
    Keeping cfg key (fun g' r => ∃ ids, r = .ok ids ∧ Holding ids g' ∧ (cs = [] → ids = off))
      (removeTrials cfg cs off) g := by
  induction cs generalizing off g with
  | nil => exact ⟨off, rfl, hg, fun _ => rfl⟩
  | cons c rest ih =>
      have hrest : ∀ g' : Pending, g'.seen = g.seen → ∀ x ∈ rest, x ∈ g'.seen ∧ x.kind = .trial := by
        intro g' hg' x hx
        rw [hg']
        exact hseen x (by simp [hx])
      have hweak : ∀ {ids : List ℕ} {g' : Pending},
          Keeping cfg key (fun g' r => ∃ l, r = .ok l ∧ Holding l g' ∧ (rest = [] → l = ids))
            (removeTrials cfg rest ids) g' →
          Keeping cfg key (fun g' r => ∃ l, r = .ok l ∧ Holding l g' ∧ (c :: rest = [] → l = off))
            (removeTrials cfg rest ids) g' := by
        intro ids g' h
        refine Proc.Follows.mono h ?_
        rintro g'' r ⟨l, hr, hl, -⟩
        exact ⟨l, hr, hl, fun h => by cases h⟩
      obtain ⟨hc, hkind⟩ := hseen c (by simp)
      refine keeping_removePeerAt hc (Or.inr ⟨hkind, rfl⟩) (hweak (ih _ (hrest _ rfl) ⟨hg.1, ?_⟩))
        fun _ => hweak (ih _ (hrest _ rfl) hg)
      dsimp only
      rw [hg.2]

lemma clears_finishActivation (a : Activation) (kind : NoticeKind) (trials : List Config)
    {g : Pending} (hseen : ∀ c ∈ trials, c ∈ g.seen ∧ c.kind = .trial) (hg : Cleared g) :
    Clears cfg key (finishActivation cfg a kind trials) g := by
  refine Proc.Follows.bind (keeping_removeTrials trials [] hseen hg) ?_ ?_
  · rintro g' off ⟨ids, hids, hg', hempty⟩
    obtain rfl := Except.ok.inj hids
    have hsend : ∀ g, Cleared g → Clears cfg key
        (sendLater a.new.email kind (a.new.subscribedUntil.getD a.at_) >>= fun _ => pure true) g :=
      fun g hg => (silent_sendLater _ _ _).then fun _ => hg
    dsimp only
    split
    · refine Proc.Follows.bind (keeping_commit_off (fun db => ?_) hg') ?_ fun _ _ h => h
      · rw [Db.foldl_deactivate]
      · exact fun g'' _ hg'' => hsend g'' hg''
    · rename_i hnone
      obtain rfl : off = [] := hempty (by simpa using hnone)
      exact hsend g' hg'
  · rintro g' e ⟨ids, hids, -⟩
    cases hids

lemma clears_completeActivation (user : User) (payment : Payment) (info : PlanInfo)
    (trials : List Config) (device : Option Config) (t : Time) {g : Pending}
    (hseen : ∀ c ∈ trials, c ∈ g.seen ∧ c.kind = .trial) (hremoved : g.removed = [])
    (hadded : g.added.map Prod.snd = device) :
    Clears cfg key (completeActivation cfg user payment info trials device t) g := by
  refine (silent_spendOnPayment payment).then fun spend => ?_
  refine (silent_rewardForPayment payment t).then fun reward => ?_
  refine (silent_applyRewardsFor _ t []).then fun x => ?_
  obtain ⟨rewarded, applied, sent⟩ := x
  refine Proc.Follows.change fun s => ⟨g.recorded, ?_, ?_⟩
  · refine Transition.record device hremoved hadded ?_ rfl
    dsimp only
    rw [Activation.write_eq]
    exact rows_addDevice _ _
  · exact clears_finishActivation _ _ trials hseen ⟨rfl, rfl⟩

lemma clears_activatePayment (user : User) (payment : Payment) {g : Pending} (hg : Cleared g)
    (hspent : g.spent = false) : Clears cfg key (activatePayment cfg user payment) g := by
  unfold activatePayment
  split
  · exact hg
  · refine Proc.Follows.look fun s => ?_
    refine ⟨{ g with seen := g.seen ++ heldBy s.db.configs.rows user.id },
      Transition.read _ (fun c hc => (List.mem_filter.mp hc).1) rfl fun _ => rfl, ?_⟩
    have hseen : ∀ c ∈ (heldBy s.db.configs.rows user.id).filter (fun c => c.kind = .trial),
        c ∈ g.seen ++ heldBy s.db.configs.rows user.id ∧ c.kind = .trial := by
      intro c hc
      obtain ⟨hmem, hkind⟩ := List.mem_filter.mp hc
      exact ⟨List.mem_append_right _ hmem, by simpa using hkind⟩
    dsimp only
    split
    · refine Proc.Follows.bind (keeping_issueConfig user _ _ _ hspent) ?_ ?_
      · rintro g' o (⟨ho, rfl⟩ | ⟨c, host, ho, rfl⟩)
        · obtain rfl := Except.ok.inj ho
          exact hg
        · obtain rfl := Except.ok.inj ho
          refine silent_now.then fun t => ?_
          exact clears_completeActivation _ _ _ _ _ t hseen hg.2 rfl
      · rintro g' e (⟨ho, -⟩ | ⟨c, host, ho, -⟩) <;> cases ho
    · refine silent_now.then fun t => ?_
      refine clears_completeActivation _ _ _ _ _ t hseen hg.2 ?_
      rw [show g.added = none from hg.1]
      rfl

lemma clears_activateOrder (payment : Payment) {g : Pending} (hg : Cleared g)
    (hspent : g.spent = false) : Clears cfg key (activateOrder cfg payment) g := by
  refine (silent_select _).then fun o => ?_
  cases o with
  | none => exact hg
  | some user =>
      exact Clears.still (clears_activatePayment user payment hg hspent) fun _ => (silent_pure _).still

/-! ### Requests of the customer -/

/-- A program that raises or goes on, in front of a program that clears. -/
lemma Beside.clears {C : Except Exn α → Prop} {p : Portal α} {f : α → Portal β} {g : Pending}
    (hp : Beside C p) (hg : Cleared g) (hf : ∀ a, Clears cfg key (f a) g) :
    Clears cfg key (p >>= f) g :=
  hp.then (fun a _ => hf a) fun _ _ => hg

lemma clears_addDevice (user : User) (name location : String) {g : Pending} (hg : Cleared g)
    (hspent : g.spent = false) : Clears cfg key (addDevice cfg user name location) g := by
  refine (silent_select _).then fun held => ?_
  dsimp only
  split
  · exact hg
  · refine Proc.Follows.bind (keeping_issueConfig user _ _ _ hspent) ?_ ?_
    · rintro g' o (⟨ho, rfl⟩ | ⟨c, host, ho, rfl⟩)
      · obtain rfl := Except.ok.inj ho
        exact hg
      · obtain rfl := Except.ok.inj ho
        refine Proc.Follows.exchange fun s i _ => ⟨(g.issued host c).recorded, ?_, rfl, rfl⟩
        exact Transition.record (some c) hg.2 rfl rfl rfl
    · rintro g' e (⟨ho, -⟩ | ⟨c, host, ho, -⟩) <;> cases ho

lemma clears_addConfig (username : String) (req : NewConfigRequest) {g : Pending} (hg : Cleared g)
    (hspent : g.spent = false) : Clears cfg key (addConfig cfg username req) g := by
  refine (beside_currentUser username).clears hg fun user => silent_now.then fun t => ?_
  dsimp only
  split
  · exact hg
  · split
    · exact hg
    · split
      · exact hg
      · exact clears_addDevice user _ _ hg hspent

lemma clears_deleteConfig (username : String) (id : ℕ) {g : Pending} (hg : Cleared g) :
    Clears cfg key (deleteConfig cfg username id) g := by
  refine (beside_currentUser username).clears hg fun user => ?_
  refine Proc.Follows.look fun s => ?_
  dsimp only
  cases hfind : (s.db.configs.find id).filter fun c => c.userId = user.id ∧ c.isActive with
  | none => exact ⟨g, (Aside.refl s).transition g, hg⟩
  | some device =>
      obtain ⟨hmem, -⟩ := Option.filter_eq_some_iff.mp hfind
      refine ⟨{ g with seen := g.seen ++ [device] },
        Transition.read [device] (fun c hc => ?_) rfl fun _ => rfl, ?_⟩
      · rw [List.mem_singleton.mp hc]
        exact (Table.mem_of_find hmem).1
      · dsimp only
        split
        · exact hg
        · refine Proc.Follows.bind (keeping_removePeerFor
            (List.mem_append_right _ (List.mem_singleton_self device))) ?_ ?_
          · rintro g' ok (⟨hr, rfl⟩ | ⟨hr, rfl⟩)
            · obtain rfl := Except.ok.inj hr
              refine (silent_select _).then fun held => ?_
              have hhold : Holding [device.id]
                  { g with seen := g.seen ++ [device], removed := g.removed ++ [device.id] } :=
                ⟨hg.1, by rw [hg.2]; rfl⟩
              exact Clears.still (keeping_commit_off (fun _ => rfl) hhold) fun _ => (silent_pure _).still
            · obtain rfl := Except.ok.inj hr
              exact hg
          · rintro g' e (⟨hr, -⟩ | ⟨hr, -⟩) <;> cases hr

lemma still_flushGrant (new : TrialGrant) : Still (flushGrant new) := by
  intro s i _
  refine ⟨?_, _, rfl⟩
  dsimp only
  split_ifs
  · exact Aside.refl s
  · exact Aside.refl s
  · exact Aside.of_node rfl rfl

lemma still_rollback (new : TrialGrant) : Still (rollback new) :=
  fun _ _ _ => ⟨Aside.of_node rfl rfl, _, rfl⟩

lemma keeping_issueTrialDevice (user : User) (row : TrialGrant) {g : Pending}
    (hspent : g.spent = false) :
    Keeping cfg key (fun g' r => (r = .ok none ∧ g' = g)
        ∨ ∃ c host, r = .ok (some c) ∧ g' = g.issued host c)
      (issueTrialDevice cfg user row) g := by
  refine (keeping_issueConfig user _ _ _ hspent).tryCatch (fun _ _ h => h) ?_
  rintro g' e (⟨hr, -⟩ | ⟨c, host, hr, -⟩) <;> cases hr

lemma clears_issueTrial (user : User) (norm : Option String) (ip : String) (began : Time)
    {g : Pending} (hg : Cleared g) (hspent : g.spent = false) :
    Clears cfg key (issueTrial cfg user norm ip began) g := by
  refine silent_now.then fun t => (still_flushGrant _).then fun flush => ?_
  cases flush with
  | integrityError => exact hg
  | interrupted => exact hg
  | done =>
      refine Proc.Follows.bind (keeping_issueTrialDevice user _ hspent) ?_ ?_
      · rintro g' o (⟨ho, rfl⟩ | ⟨c, host, ho, rfl⟩)
        · obtain rfl := Except.ok.inj ho
          exact (still_rollback _).then fun _ => hg
        · obtain rfl := Except.ok.inj ho
          refine fun s _ _ => ⟨(g.issued host c).recorded, ?_, rfl, rfl⟩
          exact Transition.record (some c) hg.2 rfl rfl rfl
      · rintro g' e (⟨ho, -⟩ | ⟨c, host, ho, -⟩) <;> cases ho

lemma clears_startTrial (username ip : String) {g : Pending} (hg : Cleared g)
    (hspent : g.spent = false) : Clears cfg key (startTrial cfg username ip) g := by
  refine silent_now.then fun began => (beside_currentUser username).clears hg fun user => ?_
  split
  · exact hg
  · split
    · exact hg
    · refine silent_now.then fun t => ?_
      split
      · exact hg
      · split
        · exact hg
        · split
          · exact hg
          · refine (silent_ask _).then fun wait => ?_
            cases wait with
            | some w => exact hg
            | none =>
                refine (silent_select _).then fun used => ?_
                split
                · exact hg
                · refine silent_now.then fun t' => (silent_select _).then fun today => ?_
                  split
                  · exact hg
                  · exact clears_issueTrial user _ ip began hg hspent

lemma clears_assignPeer (req : AssignPeerRequest) {g : Pending} (hg : Cleared g) :
    Clears cfg key (assignPeer req) g := by
  refine (silent_select _).then fun rows => (beside_scalarOneOrNone rows).clears hg fun o => ?_
  cases o with
  | none => exact hg
  | some user =>
      refine silent_now.then fun t => ?_
      refine Still.then (still_commit fun _ => rfl) fun _ => ?_
      exact hg

/-! ### Every operation -/

lemma clears_hourlyJob {g : Pending} (hg : Cleared g) : Clears cfg key (hourlyJob cfg) g := by
  refine still_applyDueRewards.then fun _ => silent_now.then fun t => ?_
  refine Proc.Follows.bind (clears_expireDueSubscriptions t hg) ?_ fun _ _ h => h
  intro g' _ hg'
  refine silent_now.then fun t' => ?_
  exact Clears.still (clears_expireDueTrials t' hg') fun _ => still_remindDue.bind fun _ => (silent_pure _).still

/-- **No operation leaves anything pending**, whatever runs beside it. -/
theorem clears_op (op : Op) : Clears cfg key (op.run cfg) {} := by
  have hg : Cleared {} := ⟨rfl, rfl⟩
  cases op with
  | startTrial username ip =>
      exact Clears.still (clears_startTrial username ip hg rfl) fun _ => (silent_pure _).still
  | activate payment => exact clears_activateOrder payment hg rfl
  | assignPeer req => exact Clears.still (clears_assignPeer req hg) fun _ => (silent_pure _).still
  | addConfig username req =>
      exact Clears.still (clears_addConfig username req hg rfl) fun _ => (silent_pure _).still
  | deleteConfig username id =>
      exact Clears.still (clears_deleteConfig username id hg) fun _ => (silent_pure _).still
  | applyDueRewards => exact still_applyDueRewards.then fun _ => hg
  | expireDueSubscriptions =>
      refine silent_now.then fun t => ?_
      exact Clears.still (clears_expireDueSubscriptions t hg) fun _ => (silent_pure _).still
  | expireDueTrials =>
      refine silent_now.then fun t => ?_
      exact Clears.still (clears_expireDueTrials t hg) fun _ => (silent_pure _).still
  | hourlyJob => exact Clears.still (clears_hourlyJob hg) fun _ => (silent_pure _).still

end Programs

end VpnPortal
