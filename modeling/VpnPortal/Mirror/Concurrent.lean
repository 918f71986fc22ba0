/-
Rows and nodes under concurrent operations.

Any number of operations runs at once, in any order of their reads, node calls
and commits. Every wrapper call is one step that is answered, every operation
has a key of its own, and the addresses a node reports may be anything, none for
a read that fails.

* `Ready`: where a run begins;
* `database_mirrors_nodes`: **whenever no operation is under way, rows and nodes
  agree**, and an `issue_config` that returned nothing has touched nothing.
-/
import VpnPortal.Mirror.Programs

namespace VpnPortal

open Sessions Tables

section Concurrent

variable {κ : Type} (cfg : Settings) (key : κ → String) (foreign : String → List PeerEntry)

/-- Rows and nodes agree, keys and addresses are unique, and the keys the
operations are going to make are nobody's. -/
structure Ready (w : World) : Prop where
  agrees : Agrees cfg foreign w
  keys : ∀ c ∈ w.db.configs.rows, ∀ x ∈ w.db.configs.rows, c.publicKey = x.publicKey → c.id = x.id
  fresh : ∀ k, ∀ c ∈ w.db.configs.rows, c.publicKey ≠ key k
  outside : ∀ h, ∀ e ∈ foreign h, e ∈ w.runtime h ∧ (∀ c ∈ w.db.configs.rows, e.key ≠ c.publicKey)
    ∧ ∀ k, e.key ≠ key k
  addresses : ∀ h, ∀ e ∈ w.runtime h, ∀ x ∈ w.runtime h, ∀ ip ∈ e.allowedIps,
    ip ∈ x.allowedIps → e = x

variable {cfg key foreign}

lemma Ready.mirror {w : World} (h : Ready cfg key foreign w) :
    Mirror cfg key foreign w fun _ => {} where
  seen _ _ hc := by cases hc
  removed _ _ hn := by cases hn
  added _ _ _ hc := by cases hc
  pool := h.agrees.pool
  keys := h.keys
  fresh k _ := h.fresh k
  outside host e he := (h.outside host e he).2
  peers host e := by
    constructor
    · intro he
      by_cases hf : e ∈ foreign host
      · exact Or.inl hf
      · obtain ⟨c, ⟨hc, hon⟩, hentry⟩ := (h.agrees.peers host).surjOn ⟨he, hf⟩
        exact Or.inr (Or.inl ⟨c, hc, hon, fun _ => List.not_mem_nil, hentry⟩)
    · rintro (hf | ⟨c, hc, hon, -, rfl⟩ | ⟨k, c, hadd, -⟩)
      · exact (h.outside host e hf).1
      · exact ((h.agrees.peers host).mapsTo ⟨hc, hon⟩).1
      · cases hadd
  addresses := h.addresses

/-! ### A device that was not issued -/

lemma marks_refl (b : Bool) (s : World) : Marks Unmoved b s b s :=
  Or.inr ⟨rfl, Unmoved.refl s⟩

lemma marks_addWithRetry {key : String} (loc : Location) (pool : AddressPool)
    (pub psk name : String) (n : ℕ) (tried : List String) :
    Proc.Follows (Honest key) (Marks Unmoved) (fun b r => r = .ok none → b = false)
      (addWithRetry loc pool pub psk name n tried) false := by
  induction n generalizing tried with
  | zero => exact fun _ => rfl
  | succ n ih =>
      refine Proc.Follows.look fun s => ⟨false, marks_refl _ s, ?_⟩
      split
      · exact fun _ => rfl
      · rename_i ip _
        refine Proc.Follows.exchange fun s i hi => ?_
        obtain ⟨sets, hadd⟩ := hi.add loc.host ⟨pub, psk, ip ++ "/32", name⟩
        dsimp only
        rw [hadd]
        rcases pwaAddPeer_cases sets (s.node loc.host) ⟨pub, psk, ip ++ "/32", name⟩ with
          ⟨reason, hrun⟩ | ⟨-, -, conf, -, -, hrun⟩
        · rw [hrun]
          refine ⟨false, Or.inr ⟨rfl, rfl, Function.update_eq_self _ _⟩, ?_⟩
          dsimp only
          split
          · exact ih _
          · exact fun _ => rfl
        · rw [hrun]
          exact ⟨true, Or.inl rfl, fun h => by cases h⟩

/-- Under any interference, only an `issue_config` that returns a row has touched
anything. -/
lemma marks_issueConfig {key : String} (user : User) (name : String) (kind : Kind)
    (location : String) :
    Proc.Follows (Honest key) (Marks Unmoved) (fun b r => r = .ok none → b = false)
      (issueConfig cfg user name kind location) false := by
  unfold issueConfig
  dsimp only
  split
  · exact fun _ => rfl
  · refine Proc.Follows.ask (fun s => marks_refl _ s) fun s i _ => ?_
    split
    · exact fun _ => rfl
    · refine Proc.Follows.ask (fun s => marks_refl _ s) fun s' i' _ => ?_
      refine Proc.Follows.bind (marks_addWithRetry _ _ _ _ _ _ _) ?_ fun _ _ _ h => by cases h
      intro b o hb
      cases o with
      | none => exact fun _ => hb rfl
      | some ip => exact fun h => by cases h

/-! ### Any interleaving -/

variable [DecidableEq κ]

/-- Rows and nodes agree whenever no operation is under way. -/
lemma agrees_of_idle (ops : κ → Op) (hkey : Function.Injective key) {w : World}
    (hw : Ready cfg key foreign w) {sched : List (κ × Input)}
    (h : Admitted (fun k => Honest (key k)) ⟨w, fun k => (ops k).run cfg⟩ sched)
    (hidle : ∀ k, (∀ i, (k, i) ∉ sched) ∨ ∃ r,
      (Cfg.run ⟨w, fun k => (ops k).run cfg⟩ sched).Ended k r) :
    Agrees cfg foreign (Cfg.run ⟨w, fun k => (ops k).run cfg⟩ sched).state := by
  have hstart : Mirror cfg key foreign _ _ := hw.mirror
  obtain ⟨γ, hmirror, hγ⟩ := exists_accounts (T := fun k => Transition cfg (key k))
    (C := fun _ g _ => Cleared g) hstart (fun k => clears_op (ops k))
    (fun s γ k g' s' hm ht => hm.step hkey ht) h
  refine hmirror.idle fun k => ?_
  rcases hidle k with hnot | ⟨r, hr⟩
  · rw [(hγ k).2 hnot]
    exact ⟨rfl, rfl⟩
  · exact (hγ k).1.result hr

/-- **The database mirrors the nodes.** Whenever every operation has ended or not
begun, the active devices of each node are its portal-issued peers, key and
address alike, with addresses of their own, each of its kind's pool; and a
session of `issue_config` that returned nothing has changed neither the database
nor a node in any of its steps, whatever the sessions beside it did. -/
theorem database_mirrors_nodes (cfg : Settings) (ops : κ → Op) {key : κ → String}
    (hkey : Function.Injective key) {foreign : String → List PeerEntry} {w : World}
    (hw : Ready cfg key foreign w) :
    (∀ sched, Admitted (fun k => Honest (key k)) ⟨w, fun k => (ops k).run cfg⟩ sched →
      (∀ k, (∀ i, (k, i) ∉ sched) ∨ ∃ r,
        (Cfg.run ⟨w, fun k => (ops k).run cfg⟩ sched).Ended k r) →
      Agrees cfg foreign (Cfg.run ⟨w, fun k => (ops k).run cfg⟩ sched).state)
    ∧ ∀ (c₀ : Cfg κ World Input Exn (Option Config)) (k : κ) user name kind location sched,
      c₀.pool k = issueConfig cfg user name kind location →
      Admitted (fun l s i => l = k → Honest (key k) s i) c₀ sched →
      (c₀.run sched).Ended k (.ok none) → StepsWithin Unmoved c₀ sched k := by
  constructor
  · exact fun sched h hidle => agrees_of_idle ops hkey hw h hidle
  · intro c₀ k user name kind location sched hpool h hend
    refine steps_of_unmarked Unmoved.refl (J := Honest (key k)) ?_ h hend
    rw [hpool]
    exact marks_issueConfig user name kind location

end Concurrent

/-! ### Two purchases at once -/

/-- Two accounts, and a node with one peer that is not the portal's. -/
def annAndBob : World where
  db := { users := ⟨[{ id := 0, username := "ann" }, { id := 1, username := "bob" }], 2,
    by decide, by decide⟩ }
  node := fun _ => { runtime := [⟨"backbone", ["10.88.88.1/32"]⟩], conf := some [] }

/-- The two keys that are made. -/
def twoKeys : Bool → String
  | false => "AAAAAAAAAAAAAAAAAAAAAAAAAAAAAAAAAAAAAAAAAAA="
  | true => "BBBBBBBBBBBBBBBBBBBBBBBBBBBBBBBBBBBBBBBBBBB="

/-- An order of each. -/
def twoBuys : Bool → Op
  | false => .activate { id := 0, userId := 0, plan := "basic-1m", amount := 350 }
  | true => .activate { id := 1, userId := 1, plan := "basic-1m", amount := 350 }

/-- The wrappers answer, and no address list can be read. -/
def wrappersAnswer (k : Bool) (w : World) : Input where
  keys := some (twoKeys k, twoKeys k)
  add := fun host peer => pwaAddPeer true (w.node host) peer
  del := fun host c => pwaDelPeer {} (w.node host) c.publicKey

lemma honest_wrappersAnswer (k : Bool) (w : World) :
    Honest (twoKeys k) w (wrappersAnswer k w) where
  keys p hp := by rw [← Option.some.inj hp]
  add host peer := ⟨true, rfl⟩
  del host c := ⟨_, rfl⟩

/-- The two activations in turn, one step each. -/
def purchasesInTurn : List (Bool × Input) :=
  scheduleBy wrappersAnswer ⟨annAndBob, fun k => (twoBuys k).run {}⟩
    ((List.range 30).map fun n => n % 2 = 0)

/-- The peer that is not the portal's. -/
def backbone (_ : String) : List PeerEntry := [⟨"backbone", ["10.88.88.1/32"]⟩]

lemma injective_twoKeys : Function.Injective twoKeys := by
  have hne : twoKeys false ≠ twoKeys true := by decide
  intro a b h
  cases a <;> cases b
  · rfl
  · exact absurd h hne
  · exact absurd h.symm hne
  · rfl

lemma ready_annAndBob : Ready {} twoKeys backbone annAndBob where
  agrees :=
    { peers := fun h => by
        refine ⟨fun c hc => absurd hc.1 List.not_mem_nil, fun c hc => absurd hc.1 List.not_mem_nil, ?_⟩
        rintro e ⟨he, hnot⟩
        exact absurd he hnot
      addresses := fun _ c hc => absurd hc List.not_mem_nil
      pool := fun c hc => absurd hc List.not_mem_nil }
  keys c hc := absurd hc List.not_mem_nil
  fresh _ c hc := absurd hc List.not_mem_nil
  outside h e he := by
    refine ⟨he, fun c hc => absurd hc List.not_mem_nil, fun k => ?_⟩
    rw [List.mem_singleton.mp he]
    cases k <;> decide
  addresses h e he x hx _ _ _ := by
    rw [List.mem_singleton.mp he, List.mem_singleton.mp hx]

/-- Both read the same free address, the second is refused it and takes the next; both end. -/
lemma purchasesInTurn_run :
    let c := Cfg.run ⟨annAndBob, fun k => (twoBuys k).run {}⟩ purchasesInTurn
    c.state.runtime "de-entry" = backbone "de-entry" ++ [⟨twoKeys true, ["10.88.88.42/32"]⟩,
      ⟨twoKeys false, ["10.88.88.43/32"]⟩] ∧ ∀ k, (c.pool k).result?.isSome = true := by
  decide +kernel

/-- No operation is under way, and rows and nodes agree. -/
theorem database_mirrors_nodes_purchasesInTurn :
    Ready {} twoKeys backbone annAndBob
      ∧ (Cfg.run ⟨annAndBob, fun k => (twoBuys k).run {}⟩ purchasesInTurn).state.runtime "de-entry"
        = backbone "de-entry" ++ [⟨twoKeys true, ["10.88.88.42/32"]⟩,
          ⟨twoKeys false, ["10.88.88.43/32"]⟩]
      ∧ Agrees {} backbone (Cfg.run ⟨annAndBob, fun k => (twoBuys k).run {}⟩ purchasesInTurn).state := by
  obtain ⟨hruntime, hended⟩ := purchasesInTurn_run
  refine ⟨ready_annAndBob, hruntime, ?_⟩
  exact (database_mirrors_nodes {} twoBuys injective_twoKeys ready_annAndBob).1 purchasesInTurn
    (admitted_scheduleBy honest_wrappersAnswer _ _) fun k =>
      Or.inr (Option.isSome_iff_exists.mp (hended k))

end VpnPortal
