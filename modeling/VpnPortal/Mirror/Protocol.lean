/-
How the device rows and the peers on the nodes are kept together, whatever the
order of the steps.

A session adds a peer before its row is there, and takes a peer off before its
row is switched off; what it has done and not yet recorded is its `Pending`. A
`Transition` is one step of such a session: it reads rows, adds one peer under
its own key and under an address the node has free, takes the peer of a row it
has read off its node, or commits, and then everything pending is recorded. The
invariant `Mirror` says that a node carries the peers it had from elsewhere, the
peers of the active rows that nobody has taken off yet, and the peers added and
not yet recorded. Distinctness rests on the keys and on the node's own check.

* `Pending`, `Transition`, `Mirror`: what is not recorded yet, one step, and the invariant;
* `Mirror.step`: every transition keeps the invariant;
* `Mirror.idle`: with nothing pending the peers of a node are those it had from elsewhere
  and those of its active rows, with keys and addresses of their own.
-/
import VpnPortal.Nodes.AddPeer
import VpnPortal.Services.Provisioner
import VpnPortal.Sessions.Protocol

namespace VpnPortal

open Sessions Tables

/-- The running interface of a node. -/
def World.runtime (w : World) (host : String) : List PeerEntry := (w.node host).runtime

/-- The peer of a device. -/
def Config.entry (c : Config) : PeerEntry := ⟨c.publicKey, [c.peerIp ++ "/32"]⟩

/-- The entry node of a device's location. -/
def Config.hostIn (cfg : Settings) (c : Config) : Option String :=
  (cfg.getLocation c.locationKey).map Location.host

/-- The address of a device is of the pool of its kind, and a trial device is in
Germany. -/
def Config.InPool (c : Config) : Prop :=
  match c.kind with
  | .trial => c.location = Settings.defaultLocation ∧ c.peerIp ∈ trialPool.addresses
  | .paid => c.peerIp ∈ clientPool.addresses

/-- What a session has read, and what it has done and not yet recorded: a peer it
added, and the devices whose peer it took off. `spent` says that its key is
used. -/
structure Pending where
  seen : List Config := []
  added : Option (String × Config) := none
  removed : List ℕ := []
  spent : Bool := false

/-- The rows after a commit. -/
def Pending.settle (g : Pending) (rows : List Config) (next : ℕ) : List Config :=
  rows.map (fun c => if c.id ∈ g.removed then c.off else c)
    ++ (g.added.map fun x => { x.2 with id := next }).toList

/-- One step of a session whose key is `key`. -/
inductive Transition (cfg : Settings) (key : String) : Pending → World → Pending → World → Prop where
  | read {g : Pending} {s t : World} (cs : List Config) :
      (∀ c ∈ cs, c ∈ s.db.configs.rows) → t.db.configs = s.db.configs →
      (∀ h, t.runtime h = s.runtime h) →
      Transition cfg key g s { g with seen := g.seen ++ cs } t
  | add {g : Pending} {s t : World} {host : String} {c : Config} :
      g.spent = false → c.publicKey = key → c.isActive = true → c.hostIn cfg = some host →
      c.InPool → (∀ e ∈ s.runtime host, c.peerIp ++ "/32" ∉ e.allowedIps) →
      t.db.configs = s.db.configs →
      (∀ h, t.runtime h = if h = host then s.runtime host ++ [c.entry] else s.runtime h) →
      Transition cfg key g s { g with added := some (host, c), spent := true } t
  | remove {g : Pending} {s t : World} {host : String} {c : Config} :
      c ∈ g.seen → (c.hostIn cfg = some host ∨ (c.kind = .trial ∧ host = cfg.bridgeIp)) →
      t.db.configs = s.db.configs →
      (∀ h, t.runtime h = if h = host then (s.runtime host).filter (fun e => e.key ≠ c.publicKey)
        else s.runtime h) →
      Transition cfg key g s { g with removed := g.removed ++ [c.id] } t
  | commit {g : Pending} {s t : World} :
      t.db.configs.rows = g.settle s.db.configs.rows s.db.configs.next →
      (∀ h, t.runtime h = s.runtime h) →
      Transition cfg key g s { g with added := none, removed := [] } t

/-- An active device that is on its node, as far as its row tells. -/
def OnHost (cfg : Settings) (h : String) (c : Config) : Prop :=
  c.isActive = true ∧ c.hostIn cfg = some h

section Mirror

variable {κ : Type} (cfg : Settings) (key : κ → String) (foreign : String → List PeerEntry)

/-- The invariant: which peers a node carries. `foreign` are the peers that are
not the portal's. -/
structure Mirror (s : World) (γ : κ → Pending) : Prop where
  seen : ∀ k, ∀ c ∈ (γ k).seen, ∃ x ∈ s.db.configs.rows, x.off = c.off
  removed : ∀ k, ∀ n ∈ (γ k).removed, ∃ x ∈ s.db.configs.rows, x.id = n
  added : ∀ k h c, (γ k).added = some (h, c) →
    (γ k).spent = true ∧ c.publicKey = key k ∧ OnHost cfg h c ∧ c.InPool
  pool : ∀ c ∈ s.db.configs.rows, c.InPool
  keys : ∀ c ∈ s.db.configs.rows, ∀ x ∈ s.db.configs.rows, c.publicKey = x.publicKey → c.id = x.id
  fresh : ∀ k, (γ k).spent = false ∨ (γ k).added ≠ none →
    ∀ c ∈ s.db.configs.rows, c.publicKey ≠ key k
  outside : ∀ h, ∀ e ∈ foreign h, (∀ c ∈ s.db.configs.rows, e.key ≠ c.publicKey) ∧ ∀ k, e.key ≠ key k
  peers : ∀ h e, e ∈ s.runtime h ↔ e ∈ foreign h
    ∨ (∃ c ∈ s.db.configs.rows, OnHost cfg h c ∧ (∀ k, c.id ∉ (γ k).removed) ∧ c.entry = e)
    ∨ ∃ k c, (γ k).added = some (h, c) ∧ c.entry = e
  addresses : ∀ h, ∀ e ∈ s.runtime h, ∀ x ∈ s.runtime h, ∀ ip ∈ e.allowedIps,
    ip ∈ x.allowedIps → e = x

variable {cfg key foreign} {s t : World} {γ : κ → Pending}

@[simp] lemma Config.off_publicKey (c : Config) : c.off.publicKey = c.publicKey := rfl

lemma Config.eq_of_off {c x : Config} (h : x.off = c.off) :
    x.id = c.id ∧ x.publicKey = c.publicKey ∧ x.kind = c.kind ∧ x.location = c.location := by
  simp only [Config.off, Config.mk.injEq] at h
  tauto

lemma Config.hostIn_of_off {c x : Config} (h : x.off = c.off) : x.hostIn cfg = c.hostIn cfg := by
  rw [Config.hostIn, Config.hostIn, Config.locationKey, Config.locationKey,
    (Config.eq_of_off h).2.2.2]

lemma getLocation_default (cfg : Settings) :
    cfg.getLocation Settings.defaultLocation = some ⟨"de", cfg.bridgeIp⟩ := by
  unfold Settings.getLocation Settings.allLocations Settings.netherlands
  cases cfg.nlEntryIp <;> simp [Settings.defaultLocation, Settings.germany]

/-- A trial device is on the German entry. -/
lemma Config.hostIn_trial {c : Config} (hc : c.InPool) (hkind : c.kind = .trial) :
    c.hostIn cfg = some cfg.bridgeIp := by
  unfold Config.InPool at hc
  rw [hkind] at hc
  have hloc : c.locationKey = Settings.defaultLocation := by
    rw [Config.locationKey, hc.1]
    rfl
  rw [Config.hostIn, hloc, getLocation_default]
  rfl

variable [DecidableEq κ]

/-- What a session keeps of its value, every session keeps. -/
lemma proj_update {β : Type} (f : Pending → β) {k : κ} {g : Pending} (h : f g = f (γ k)) (l : κ) :
    f (Function.update γ k g l) = f (γ l) := by
  by_cases hl : l = k
  · rw [hl, Function.update_self, h]
  · rw [Function.update_of_ne hl]

/-- A step that touches neither the rows nor the runtimes. -/
lemma Mirror.read (h : Mirror cfg key foreign s γ) {k : κ} {cs : List Config}
    (hseen : ∀ c ∈ cs, c ∈ s.db.configs.rows) (hconfigs : t.db.configs = s.db.configs)
    (hruntime : ∀ h, t.runtime h = s.runtime h) :
    Mirror cfg key foreign t (Function.update γ k { γ k with seen := (γ k).seen ++ cs }) := by
  have hadded := proj_update (γ := γ) Pending.added (k := k)
    (g := { γ k with seen := (γ k).seen ++ cs }) rfl
  have hremoved := proj_update (γ := γ) Pending.removed (k := k)
    (g := { γ k with seen := (γ k).seen ++ cs }) rfl
  have hspent := proj_update (γ := γ) Pending.spent (k := k)
    (g := { γ k with seen := (γ k).seen ++ cs }) rfl
  refine ⟨?_, ?_, ?_, ?_, ?_, ?_, ?_, ?_, ?_⟩
  · intro l c hc
    rw [hconfigs]
    by_cases hl : l = k
    · subst hl
      rw [Function.update_self] at hc
      rcases List.mem_append.mp hc with hc | hc
      · exact h.seen l c hc
      · exact ⟨c, hseen c hc, rfl⟩
    · rw [Function.update_of_ne hl] at hc
      exact h.seen l c hc
  · intro l n hn
    rw [hconfigs]
    rw [hremoved] at hn
    exact h.removed l n hn
  · intro l host c hc
    rw [hspent]
    rw [hadded] at hc
    exact h.added l host c hc
  · rw [hconfigs]; exact h.pool
  · rw [hconfigs]; exact h.keys
  · intro l hl
    rw [hconfigs]
    rw [hspent, hadded] at hl
    exact h.fresh l hl
  · rw [hconfigs]; exact h.outside
  · intro host e
    simp only [hruntime, hconfigs, hadded, hremoved]
    exact h.peers host e
  · intro host
    rw [hruntime]
    exact h.addresses host

/-- A peer under the session's own key and a free address. -/
lemma Mirror.add (h : Mirror cfg key foreign s γ) {k : κ} {host : String} {c : Config}
    (hspent : (γ k).spent = false) (hkey : c.publicKey = key k) (hon : OnHost cfg host c)
    (hpool : c.InPool) (hfree : ∀ e ∈ s.runtime host, c.peerIp ++ "/32" ∉ e.allowedIps)
    (hconfigs : t.db.configs = s.db.configs)
    (hruntime : ∀ h, t.runtime h = if h = host then s.runtime host ++ [c.entry] else s.runtime h) :
    Mirror cfg key foreign t
      (Function.update γ k { γ k with added := some (host, c), spent := true }) := by
  have hnone : (γ k).added = none := by
    cases hadd : (γ k).added with
    | none => rfl
    | some x =>
        have := (h.added k x.1 x.2 hadd).1
        rw [hspent] at this
        cases this
  have hseen := proj_update (γ := γ) Pending.seen (k := k)
    (g := { γ k with added := some (host, c), spent := true }) rfl
  have hremoved := proj_update (γ := γ) Pending.removed (k := k)
    (g := { γ k with added := some (host, c), spent := true }) rfl
  -- one more peer is pending, on this host
  have hpending : ∀ h' e, (∃ l x, (Function.update γ k
        { γ k with added := some (host, c), spent := true } l).added = some (h', x) ∧ x.entry = e)
      ↔ (∃ l x, (γ l).added = some (h', x) ∧ x.entry = e) ∨ (h' = host ∧ c.entry = e) := by
    intro h' e
    constructor
    · rintro ⟨l, x, hx, rfl⟩
      by_cases hl : l = k
      · rw [hl, Function.update_self] at hx
        obtain ⟨rfl, rfl⟩ := Prod.mk.inj (Option.some.inj hx)
        exact Or.inr ⟨rfl, rfl⟩
      · rw [Function.update_of_ne hl] at hx
        exact Or.inl ⟨l, x, hx, rfl⟩
    · rintro (⟨l, x, hx, rfl⟩ | ⟨rfl, rfl⟩)
      · have hl : l ≠ k := by
          rintro rfl
          rw [hnone] at hx
          cases hx
        exact ⟨l, x, by rw [Function.update_of_ne hl]; exact hx, rfl⟩
      · exact ⟨k, c, by rw [Function.update_self], rfl⟩
  refine ⟨?_, ?_, ?_, ?_, ?_, ?_, ?_, ?_, ?_⟩
  · intro l x hx
    rw [hconfigs]
    rw [hseen] at hx
    exact h.seen l x hx
  · intro l n hn
    rw [hconfigs]
    rw [hremoved] at hn
    exact h.removed l n hn
  · intro l h' x hx
    by_cases hl : l = k
    · subst hl
      rw [Function.update_self] at hx ⊢
      obtain ⟨rfl, rfl⟩ := Prod.mk.inj (Option.some.inj hx)
      exact ⟨rfl, hkey, hon, hpool⟩
    · rw [Function.update_of_ne hl] at hx ⊢
      exact h.added l h' x hx
  · rw [hconfigs]; exact h.pool
  · rw [hconfigs]; exact h.keys
  · intro l hl
    rw [hconfigs]
    by_cases hlk : l = k
    · subst hlk
      exact h.fresh l (Or.inl hspent)
    · rw [Function.update_of_ne hlk] at hl
      exact h.fresh l hl
  · rw [hconfigs]; exact h.outside
  · intro h' e
    simp only [hconfigs, hremoved, hpending]
    have hold := h.peers h' e
    rw [hruntime]
    by_cases hh : h' = host
    · subst hh
      rw [if_pos rfl, List.mem_append, List.mem_singleton, hold]
      simp only [true_and, eq_comm (a := e), or_assoc]
    · rw [if_neg hh, hold]
      simp [hh]
  · intro h' e he x hx ip hip hip'
    rw [hruntime] at he hx
    by_cases hh : h' = host
    · subst hh
      rw [if_pos rfl, List.mem_append, List.mem_singleton] at he hx
      rcases he with he | rfl
      · rcases hx with hx | rfl
        · exact h.addresses h' e he x hx ip hip hip'
        · rw [List.mem_singleton.mp hip'] at hip
          exact absurd hip (hfree e he)
      · rcases hx with hx | rfl
        · rw [List.mem_singleton.mp hip] at hip'
          exact absurd hip' (hfree x hx)
        · rfl
    · rw [if_neg hh] at he hx
      exact h.addresses h' e he x hx ip hip hip'

/-- With one more removal a row is pending if it was before, or is that one. -/
lemma forall_notMem_removed {k : κ} {n m : ℕ} :
    (∀ l, n ∉ (Function.update γ k { γ k with removed := (γ k).removed ++ [m] } l).removed)
      ↔ (∀ l, n ∉ (γ l).removed) ∧ n ≠ m := by
  constructor
  · intro hn
    have hk := hn k
    rw [Function.update_self, List.mem_append, List.mem_singleton, not_or] at hk
    refine ⟨fun l => ?_, hk.2⟩
    by_cases hl : l = k
    · rw [hl]; exact hk.1
    · have := hn l
      rwa [Function.update_of_ne hl] at this
  · rintro ⟨hn, hne⟩ l
    by_cases hl : l = k
    · rw [hl, Function.update_self, List.mem_append, List.mem_singleton, not_or]
      exact ⟨hn k, hne⟩
    · rw [Function.update_of_ne hl]
      exact hn l

section Removal

variable {row : Config} {host : String}

omit [DecidableEq κ]

/-- The other rows are those of other keys on its host: it is on no other host, and its
key is nobody else's. -/
lemma Mirror.recorded_without (h : Mirror cfg key foreign s γ) (hrow : row ∈ s.db.configs.rows)
    (hhost : row.hostIn cfg = some host) (h' : String) (e : PeerEntry) :
    (∃ x ∈ s.db.configs.rows, OnHost cfg h' x
        ∧ ((∀ l, x.id ∉ (γ l).removed) ∧ x.id ≠ row.id) ∧ x.entry = e)
      ↔ (∃ x ∈ s.db.configs.rows, OnHost cfg h' x ∧ (∀ l, x.id ∉ (γ l).removed) ∧ x.entry = e)
        ∧ (h' = host → e.key ≠ row.publicKey) := by
  constructor
  · rintro ⟨x, hx, hon, ⟨hnot, hne⟩, rfl⟩
    exact ⟨⟨x, hx, hon, hnot, rfl⟩, fun _ hkey => hne (h.keys x hx row hrow hkey)⟩
  · rintro ⟨⟨x, hx, hon, hnot, rfl⟩, hkey⟩
    refine ⟨x, hx, hon, ⟨hnot, fun hid => ?_⟩, rfl⟩
    obtain rfl : x = row := Table.eq_of_num_eq hx hrow hid
    obtain rfl : h' = host := Option.some.inj (hon.2.symm.trans hhost)
    exact hkey rfl rfl

/-- The other peers of its host are the foreign ones, those of the other rows, and the
pending ones. -/
lemma Mirror.peers_without (h : Mirror cfg key foreign s γ) (hrow : row ∈ s.db.configs.rows)
    (h' : String) (e : PeerEntry) :
    e ∈ (if h' = host then (s.runtime host).filter (fun e => e.key ≠ row.publicKey) else s.runtime h')
      ↔ e ∈ foreign h'
        ∨ ((∃ x ∈ s.db.configs.rows, OnHost cfg h' x ∧ (∀ l, x.id ∉ (γ l).removed) ∧ x.entry = e)
          ∧ (h' = host → e.key ≠ row.publicKey))
        ∨ ∃ l x, (γ l).added = some (h', x) ∧ x.entry = e := by
  have hold := h.peers h' e
  have hforeign : e ∈ foreign h' → e.key ≠ row.publicKey := fun he => (h.outside h' e he).1 row hrow
  have hpend : (∃ l x, (γ l).added = some (h', x) ∧ x.entry = e) → e.key ≠ row.publicKey := by
    rintro ⟨l, x, hx, rfl⟩ hkey
    have hne : (γ l).added ≠ none := by rw [hx]; simp
    refine h.fresh l (Or.inr hne) row hrow ?_
    rw [← hkey]
    exact (h.added l h' x hx).2.1
  by_cases hh : h' = host
  · subst hh
    rw [if_pos rfl, List.mem_filter, hold, decide_eq_true_eq]
    constructor
    · rintro ⟨he | he | he, hkey⟩
      · exact Or.inl he
      · exact Or.inr (Or.inl ⟨he, fun _ => hkey⟩)
      · exact Or.inr (Or.inr he)
    · rintro (he | ⟨he, hkey⟩ | he)
      · exact ⟨Or.inl he, hforeign he⟩
      · exact ⟨Or.inr (Or.inl he), hkey rfl⟩
      · exact ⟨Or.inr (Or.inr he), hpend he⟩
  · rw [if_neg hh, hold]
    simp only [hh, IsEmpty.forall_iff, and_true]

end Removal

/-- The peer of a row comes off its node. -/
lemma Mirror.removeRow (h : Mirror cfg key foreign s γ) {k : κ} {host : String} {row : Config}
    (hrow : row ∈ s.db.configs.rows) (hhost : row.hostIn cfg = some host)
    (hconfigs : t.db.configs = s.db.configs)
    (hruntime : ∀ h, t.runtime h = if h = host
      then (s.runtime host).filter (fun e => e.key ≠ row.publicKey) else s.runtime h) :
    Mirror cfg key foreign t
      (Function.update γ k { γ k with removed := (γ k).removed ++ [row.id] }) := by
  have hadded := proj_update (γ := γ) Pending.added (k := k)
    (g := { γ k with removed := (γ k).removed ++ [row.id] }) rfl
  have hspent := proj_update (γ := γ) Pending.spent (k := k)
    (g := { γ k with removed := (γ k).removed ++ [row.id] }) rfl
  have hseen := proj_update (γ := γ) Pending.seen (k := k)
    (g := { γ k with removed := (γ k).removed ++ [row.id] }) rfl
  refine ⟨?_, ?_, ?_, ?_, ?_, ?_, ?_, ?_, ?_⟩
  · intro l x hx
    rw [hconfigs]
    rw [hseen] at hx
    exact h.seen l x hx
  · intro l n hn
    rw [hconfigs]
    by_cases hl : l = k
    · subst hl
      rw [Function.update_self, List.mem_append, List.mem_singleton] at hn
      rcases hn with hn | rfl
      · exact h.removed l n hn
      · exact ⟨row, hrow, rfl⟩
    · rw [Function.update_of_ne hl] at hn
      exact h.removed l n hn
  · intro l h' x hx
    rw [hadded] at hx
    rw [hspent]
    exact h.added l h' x hx
  · rw [hconfigs]; exact h.pool
  · rw [hconfigs]; exact h.keys
  · intro l hl
    rw [hconfigs]
    rw [hspent, hadded] at hl
    exact h.fresh l hl
  · rw [hconfigs]; exact h.outside
  · intro h' e
    simp only [hconfigs, hadded, forall_notMem_removed, h.recorded_without hrow hhost]
    rw [hruntime]
    exact h.peers_without hrow h' e
  · intro h' e he x hx
    rw [hruntime] at he hx
    by_cases hh : h' = host
    · subst hh
      rw [if_pos rfl, List.mem_filter] at he hx
      exact h.addresses h' e he.1 x hx.1
    · rw [if_neg hh] at he hx
      exact h.addresses h' e he x hx

/-- The peer of a row that was read comes off its node. -/
lemma Mirror.remove (h : Mirror cfg key foreign s γ) {k : κ} {host : String} {c : Config}
    (hseen : c ∈ (γ k).seen)
    (hhost : c.hostIn cfg = some host ∨ (c.kind = .trial ∧ host = cfg.bridgeIp))
    (hconfigs : t.db.configs = s.db.configs)
    (hruntime : ∀ h, t.runtime h = if h = host
      then (s.runtime host).filter (fun e => e.key ≠ c.publicKey) else s.runtime h) :
    Mirror cfg key foreign t
      (Function.update γ k { γ k with removed := (γ k).removed ++ [c.id] }) := by
  obtain ⟨row, hrow, hoff⟩ := h.seen k c hseen
  obtain ⟨hid, hpub, hkind, -⟩ := Config.eq_of_off hoff
  have hrowhost : row.hostIn cfg = some host := by
    rcases hhost with hhost | ⟨htrial, rfl⟩
    · rw [Config.hostIn_of_off hoff, hhost]
    · exact Config.hostIn_trial (h.pool row hrow) (hkind.trans htrial)
  rw [← hid]
  simp only [← hpub] at hruntime
  exact h.removeRow hrow hrowhost hconfigs hruntime

omit [DecidableEq κ] in
lemma mem_settle {g : Pending} {rows : List Config} {next : ℕ} {x : Config} :
    x ∈ g.settle rows next ↔ (∃ c ∈ rows, (if c.id ∈ g.removed then c.off else c) = x)
      ∨ ∃ h c, g.added = some (h, c) ∧ { c with id := next } = x := by
  unfold Pending.settle
  rw [List.mem_append, List.mem_map]
  refine or_congr_right ?_
  cases hadd : g.added with
  | none => simp
  | some y =>
      obtain ⟨h, c⟩ := y
      simp [eq_comm]

lemma Config.inPool_off {c : Config} (h : c.InPool) : c.off.InPool := h

omit [DecidableEq κ] in
/-- A row of the settled table is an old row up to its flag, or the new one. -/
lemma Mirror.of_settle (h : Mirror cfg key foreign s γ) {k : κ} {x : Config}
    (hx : x ∈ (γ k).settle s.db.configs.rows s.db.configs.next) :
    (∃ c ∈ s.db.configs.rows, x.off = c.off)
      ∨ (x.id = s.db.configs.next ∧ x.publicKey = key k ∧ x.InPool ∧ (γ k).added ≠ none) := by
  rcases mem_settle.mp hx with ⟨c, hc, rfl⟩ | ⟨h', c, hadd, rfl⟩
  · refine Or.inl ⟨c, hc, ?_⟩
    split <;> rfl
  · obtain ⟨-, hkey, -, hpool⟩ := h.added k h' c hadd
    exact Or.inr ⟨rfl, hkey, hpool, by rw [hadd]; simp⟩

section Settle

variable {k : κ}

omit [DecidableEq κ]

lemma exists_settle (g : Pending) {rows : List Config} (next : ℕ) {c : Config} (hc : c ∈ rows) :
    ∃ x ∈ g.settle rows next, x.off = c.off := by
  refine ⟨_, mem_settle.mpr (Or.inl ⟨c, hc, rfl⟩), ?_⟩
  split <;> rfl

lemma Mirror.pool_settle (h : Mirror cfg key foreign s γ) :
    ∀ x ∈ (γ k).settle s.db.configs.rows s.db.configs.next, x.InPool := by
  intro x hx
  rcases h.of_settle hx with ⟨c, hc, hoff⟩ | ⟨-, -, hpool, -⟩
  · have hpool : x.off.InPool := by
      rw [hoff]
      exact Config.inPool_off (h.pool c hc)
    exact hpool
  · exact hpool

/-- The keys of the settled table are its rows' own. -/
lemma Mirror.keys_settle (h : Mirror cfg key foreign s γ) :
    ∀ x ∈ (γ k).settle s.db.configs.rows s.db.configs.next,
      ∀ y ∈ (γ k).settle s.db.configs.rows s.db.configs.next, x.publicKey = y.publicKey → x.id = y.id := by
  intro x hx y hy hkey
  rcases h.of_settle hx with ⟨c, hc, hoff⟩ | ⟨hid, hpub, -, hne⟩
  · rcases h.of_settle hy with ⟨d, hd, hoff'⟩ | ⟨-, hpub', -, hne⟩
    · rw [(Config.eq_of_off hoff).1, (Config.eq_of_off hoff').1]
      refine h.keys c hc d hd ?_
      rw [← (Config.eq_of_off hoff).2.1, ← (Config.eq_of_off hoff').2.1, hkey]
    · refine absurd ?_ (h.fresh k (Or.inr hne) c hc)
      rw [← (Config.eq_of_off hoff).2.1, hkey, hpub']
  · rcases h.of_settle hy with ⟨d, hd, hoff'⟩ | ⟨hid', -, -, -⟩
    · refine absurd ?_ (h.fresh k (Or.inr hne) d hd)
      rw [← (Config.eq_of_off hoff').2.1, ← hkey, hpub]
    · rw [hid, hid']

/-- The session that adds the row has used its key; the keys that are not used stay new. -/
lemma Mirror.fresh_settle (h : Mirror cfg key foreign s γ) (hinj : Function.Injective key) {l : κ}
    (hl : (γ l).spent = false ∨ (l ≠ k ∧ (γ l).added ≠ none)) :
    ∀ x ∈ (γ k).settle s.db.configs.rows s.db.configs.next, x.publicKey ≠ key l := by
  intro x hx
  rcases h.of_settle hx with ⟨c, hc, hoff⟩ | ⟨-, hpub, -, hne⟩
  · rw [(Config.eq_of_off hoff).2.1]
    exact h.fresh l (hl.imp_right And.right) c hc
  · rw [hpub]
    intro hkey
    obtain rfl := hinj hkey
    obtain ⟨y, hadd⟩ := Option.ne_none_iff_exists'.mp hne
    have hspent := (h.added k y.1 y.2 hadd).1
    rcases hl with hl | hl
    · rw [hspent] at hl
      cases hl
    · exact hl.1 rfl

lemma Mirror.outside_settle (h : Mirror cfg key foreign s γ) {h' : String} {e : PeerEntry}
    (he : e ∈ foreign h') :
    ∀ x ∈ (γ k).settle s.db.configs.rows s.db.configs.next, e.key ≠ x.publicKey := by
  intro x hx
  rcases h.of_settle hx with ⟨c, hc, hoff⟩ | ⟨-, hpub, -, -⟩
  · rw [(Config.eq_of_off hoff).2.1]
    exact (h.outside h' e he).1 c hc
  · rw [hpub]
    exact (h.outside h' e he).2 k

end Settle

/-- The session has nothing pending any more. -/
def settled (γ : κ → Pending) (k : κ) : κ → Pending :=
  Function.update γ k { γ k with added := none, removed := [] }

lemma settled_self (k : κ) : settled γ k k = { γ k with added := none, removed := [] } :=
  Function.update_self ..

lemma settled_of_ne {k l : κ} (hl : l ≠ k) : settled γ k l = γ l :=
  Function.update_of_ne hl ..

section Settled

variable {k : κ} {h' : String}

lemma removed_settled {n : ℕ} (h : ∀ l, n ∉ (γ l).removed) (l : κ) : n ∉ (settled γ k l).removed := by
  by_cases hl : l = k
  · rw [hl, settled_self]
    simp
  · rw [settled_of_ne hl]
    exact h l

lemma added_settled {l : κ} {x : String × Config} (h : (settled γ k l).added = some x) :
    l ≠ k ∧ (γ l).added = some x := by
  by_cases hl : l = k
  · rw [hl, settled_self] at h
    cases h
  · rw [settled_of_ne hl] at h
    exact ⟨hl, h⟩

/-- A row that stays is recorded. -/
lemma settle_of_row {c : Config} (hc : c ∈ s.db.configs.rows) (hon : OnHost cfg h' c)
    (hnot : ∀ l, c.id ∉ (γ l).removed) :
    ∃ x ∈ (γ k).settle s.db.configs.rows s.db.configs.next, OnHost cfg h' x
      ∧ (∀ l, x.id ∉ (settled γ k l).removed) ∧ x.entry = c.entry :=
  ⟨c, mem_settle.mpr (Or.inl ⟨c, hc, if_neg (hnot k)⟩), hon, removed_settled hnot, rfl⟩

/-- What the session has added is recorded. -/
lemma Mirror.settle_of_added (h : Mirror cfg key foreign s γ) {c : Config}
    (hadd : (γ k).added = some (h', c)) :
    ∃ x ∈ (γ k).settle s.db.configs.rows s.db.configs.next, OnHost cfg h' x
      ∧ (∀ l, x.id ∉ (settled γ k l).removed) ∧ x.entry = c.entry := by
  refine ⟨{ c with id := s.db.configs.next }, mem_settle.mpr (Or.inr ⟨h', c, hadd, rfl⟩),
    (h.added k h' c hadd).2.2.1, removed_settled fun m hm => ?_, rfl⟩
  -- no row has the next id
  obtain ⟨row, hrow, hid⟩ := h.removed m _ hm
  have hlt := s.db.configs.lt_next row hrow
  rw [num_config, hid] at hlt
  exact absurd hlt (lt_irrefl _)

/-- A row of the settled table was there, or is what the session has added. -/
lemma Mirror.row_of_settle (h : Mirror cfg key foreign s γ) {x : Config}
    (hx : x ∈ (γ k).settle s.db.configs.rows s.db.configs.next) (hon : OnHost cfg h' x)
    (hnot : ∀ l, x.id ∉ (settled γ k l).removed) :
    (∃ c ∈ s.db.configs.rows, OnHost cfg h' c ∧ (∀ l, c.id ∉ (γ l).removed) ∧ c.entry = x.entry)
      ∨ ∃ l c, (γ l).added = some (h', c) ∧ c.entry = x.entry := by
  rcases mem_settle.mp hx with ⟨c, hc, rfl⟩ | ⟨h'', c, hadd, rfl⟩
  · by_cases hmem : c.id ∈ (γ k).removed
    · rw [if_pos hmem] at hon
      cases hon.1
    · rw [if_neg hmem] at hon hnot ⊢
      refine Or.inl ⟨c, hc, hon, fun l => ?_, rfl⟩
      by_cases hl : l = k
      · rw [hl]; exact hmem
      · have := hnot l
        rwa [settled_of_ne hl] at this
  · obtain rfl : h'' = h' := Option.some.inj ((h.added k h'' c hadd).2.2.1.2.symm.trans hon.2)
    exact Or.inr ⟨k, c, hadd, rfl⟩

end Settled

/-- A commit records everything that is pending. -/
lemma Mirror.commit (h : Mirror cfg key foreign s γ) (hinj : Function.Injective key) {k : κ}
    (hrows : t.db.configs.rows = (γ k).settle s.db.configs.rows s.db.configs.next)
    (hruntime : ∀ h, t.runtime h = s.runtime h) : Mirror cfg key foreign t (settled γ k) := by
  have hseen := proj_update (γ := γ) Pending.seen (k := k)
    (g := { γ k with added := none, removed := [] }) rfl
  refine ⟨?_, ?_, ?_, ?_, ?_, ?_, ?_, ?_, ?_⟩
  · intro l c hc
    rw [settled, hseen] at hc
    obtain ⟨row, hrow, hoff⟩ := h.seen l c hc
    obtain ⟨x, hx, hxoff⟩ := exists_settle (γ k) s.db.configs.next hrow
    exact ⟨x, hrows ▸ hx, hxoff.trans hoff⟩
  · intro l n hn
    by_cases hl : l = k
    · rw [hl, settled_self] at hn
      cases hn
    · rw [settled_of_ne hl] at hn
      obtain ⟨row, hrow, hid⟩ := h.removed l n hn
      obtain ⟨x, hx, hxoff⟩ := exists_settle (γ k) s.db.configs.next hrow
      exact ⟨x, hrows ▸ hx, (Config.eq_of_off hxoff).1.trans hid⟩
  · intro l h' c hc
    obtain ⟨hl, hadd⟩ := added_settled hc
    rw [settled_of_ne hl]
    exact h.added l h' c hadd
  · rw [hrows]; exact h.pool_settle
  · rw [hrows]; exact h.keys_settle
  · intro l hl
    rw [hrows]
    refine h.fresh_settle hinj ?_
    by_cases hlk : l = k
    · rw [hlk, settled_self] at hl
      exact Or.inl (hlk ▸ hl.resolve_right fun hne => hne rfl)
    · rw [settled_of_ne hlk] at hl
      exact hl.imp_right fun hne => ⟨hlk, hne⟩
  · intro h' e he
    rw [hrows]
    exact ⟨h.outside_settle he, (h.outside h' e he).2⟩
  · intro h' e
    rw [hruntime, h.peers h' e, hrows]
    refine or_congr_right ⟨?_, ?_⟩
    · rintro (⟨c, hc, hon, hnot, rfl⟩ | ⟨l, c, hadd, rfl⟩)
      · exact Or.inl (settle_of_row hc hon hnot)
      · by_cases hl : l = k
        · exact Or.inl (h.settle_of_added (hl ▸ hadd))
        · exact Or.inr ⟨l, c, by rw [settled_of_ne hl]; exact hadd, rfl⟩
    · rintro (⟨x, hx, hon, hnot, rfl⟩ | ⟨l, c, hadd, rfl⟩)
      · exact h.row_of_settle hx hon hnot
      · exact Or.inr ⟨l, c, (added_settled hadd).2, rfl⟩
  · intro h'
    rw [hruntime]
    exact h.addresses h'

/-- **One transition keeps the invariant.** -/
theorem Mirror.step (hinj : Function.Injective key) {k : κ} {g : Pending}
    (h : Mirror cfg key foreign s γ) (hstep : Transition cfg (key k) (γ k) s g t) :
    Mirror cfg key foreign t (Function.update γ k g) := by
  cases hstep with
  | read cs hseen hconfigs hruntime => exact h.read hseen hconfigs hruntime
  | add hspent hkey hact hhost hpool hfree hconfigs hruntime =>
      exact h.add hspent hkey ⟨hact, hhost⟩ hpool hfree hconfigs hruntime
  | remove hseen hhost hconfigs hruntime => exact h.remove hseen hhost hconfigs hruntime
  | commit hrows hruntime => exact h.commit hinj hrows hruntime

omit [DecidableEq κ]

variable (cfg foreign) in
/-- Rows and nodes agree: node by node the active devices are the peers that are
not foreign, key and address alike; devices of one node have addresses of their
own, and each is of its kind's pool. -/
structure Agrees (w : World) : Prop where
  peers : ∀ h, Set.BijOn Config.entry { c | c ∈ w.db.configs.rows ∧ OnHost cfg h c }
    { e | e ∈ w.runtime h ∧ e ∉ foreign h }
  addresses : ∀ h, ∀ c ∈ w.db.configs.rows, ∀ x ∈ w.db.configs.rows, OnHost cfg h c →
    OnHost cfg h x → c.peerIp = x.peerIp → c = x
  pool : ∀ c ∈ w.db.configs.rows, c.InPool

/-- **Nothing pending, nothing different.** -/
lemma Mirror.idle (h : Mirror cfg key foreign s γ)
    (hidle : ∀ k, (γ k).added = none ∧ (γ k).removed = []) : Agrees cfg foreign s := by
  have hmem : ∀ h', ∀ c ∈ s.db.configs.rows, OnHost cfg h' c → c.entry ∈ s.runtime h' := by
    intro h' c hc hon
    refine (h.peers h' _).mpr (Or.inr (Or.inl ⟨c, hc, hon, fun k => ?_, rfl⟩))
    rw [(hidle k).2]
    exact List.not_mem_nil
  have hinj : ∀ c ∈ s.db.configs.rows, ∀ x ∈ s.db.configs.rows, c.entry = x.entry → c = x := by
    intro c hc x hx heq
    exact Table.eq_of_num_eq hc hx (h.keys c hc x hx (congrArg PeerEntry.key heq))
  refine ⟨fun h' => ⟨?_, ?_, ?_⟩, ?_, h.pool⟩
  · rintro c ⟨hc, hon⟩
    exact ⟨hmem h' c hc hon, fun hf => (h.outside h' _ hf).1 c hc rfl⟩
  · rintro c ⟨hc, -⟩ x ⟨hx, -⟩ heq
    exact hinj c hc x hx heq
  · rintro e ⟨he, hnot⟩
    rcases (h.peers h' e).mp he with hf | ⟨c, hc, hon, -, rfl⟩ | ⟨k, c, hadd, -⟩
    · exact absurd hf hnot
    · exact ⟨c, ⟨hc, hon⟩, rfl⟩
    · rw [(hidle k).1] at hadd
      cases hadd
  · intro h' c hc x hx hon hon' hip
    refine hinj c hc x hx (h.addresses h' _ (hmem h' c hc hon) _ (hmem h' x hx hon')
      (c.peerIp ++ "/32") (List.mem_singleton_self _) ?_)
    rw [hip]
    exact List.mem_singleton_self _

end Mirror

end VpnPortal
