/-
Sweeps over nodes that keep to their wrapper, when calls and answers get lost.

The `Fate` of a call says whether the wrapper ran and whether its answer came
back. A row is only switched off on an ok, while the wrapper refuses a peer that
is gone, by design on both sides. So a removal that was executed and not
recorded leaves a row that no later sweep clears (`Stranded.history`), and
everything else converges: after one sweep whose calls are all answered, what is
left on an ended account goes back to such a removal or to a location that is
not configured (`sweeps_converge`).

* `Fate`, `Delivers`: the nodes and the network;
* `Sweeps`, `SweepRun.Loses`: any number of sweeps, and removals that were executed and
  not recorded;
* `Tracked`, `Tracked.sweep`: every active device is on its node or lost; a sweep keeps it;
* `sweeps_converge`: **after a sweep whose calls are all answered**, what is left on an
  ended account is lost or in a location that is not configured;
* `lost_answer_stays`: a device that is left.
-/
import VpnPortal.Nodes.DelPeer
import VpnPortal.Sweeps.Effect

namespace VpnPortal

open Sessions Tables

/-! ### Nodes and the network -/

/-- What becomes of one call of the wrapper: it runs and its answer arrives, it
runs and the portal sees something else, or it does not run. What is seen
instead is a text without an ok, or an exception. -/
inductive Fate where
  | answered (run : DelRun)
  | lost (run : DelRun) (seen : Option String)
  | unreached (seen : Option String)

/-- What the portal sees instead of an answer. -/
def unheard : Option String → Reply
  | none => .raised
  | some reason => .refused reason

namespace Fate

/-- The answer the portal sees and the node afterwards. -/
def deliver (node : NodeState) (pub : String) : Fate → Reply × NodeState
  | answered run => pwaDelPeer run node pub
  | lost run seen => (unheard seen, (pwaDelPeer run node pub).2)
  | unreached seen => (unheard seen, node)

/-- The wrapper runs, and `awg set` succeeds. -/
def Executed : Fate → Prop
  | answered run => run.sets = true
  | lost run _ => run.sets = true
  | unreached _ => False

/-- The wrapper runs, `awg set` succeeds and the answer arrives. -/
def Done : Fate → Prop
  | answered run => run.sets = true
  | _ => False

end Fate

/-- The nodes of a run: `fate n c` is what becomes of the `n`-th call for the
device `c`. -/
def Delivers (fate : ℕ → ℕ → Fate) (w : World) (i : Input) : Prop :=
  ∀ host c, i.del host c = (fate (w.removals.count c.id) c.id).deliver (w.node host) c.publicKey

lemma exists_delivers (fate : ℕ → ℕ → Fate) (w : World) : ∃ i, Delivers fate w i :=
  ⟨{ del := fun host c => (fate (w.removals.count c.id) c.id).deliver (w.node host) c.publicKey },
    fun _ _ => rfl⟩

/-- A call for another key leaves a held peer alone. -/
lemma Held.deliver_other {node : NodeState} {pub other : String} (h : Held node pub)
    (hne : pub ≠ other) (f : Fate) : Held (f.deliver node other).2 pub := by
  cases f with
  | answered run => exact h.of_other hne run
  | lost run seen => exact h.of_other hne run
  | unreached seen => exact h

/-- A call for a held peer leaves it there or was executed. -/
lemma Held.deliver_self {node : NodeState} {pub : String} (h : Held node pub) (f : Fate) :
    Held (f.deliver node pub).2 pub ∨ f.Executed := by
  cases f with
  | answered run =>
      cases hsets : run.sets with
      | true => exact Or.inr hsets
      | false => exact Or.inl (h.of_unset hsets)
  | lost run seen =>
      cases hsets : run.sets with
      | true => exact Or.inr hsets
      | false => exact Or.inl (h.of_unset hsets)
  | unreached seen => exact Or.inl h

lemma Gone.deliver {node : NodeState} {pub : String} (h : Gone node pub) (f : Fate)
    (other : String) : Gone (f.deliver node other).2 pub := by
  cases f with
  | answered run => exact h.of_any run other
  | lost run seen => exact h.of_any run other
  | unreached seen => exact h

lemma Gone.deliver_ne_ok {node : NodeState} {pub : String} (h : Gone node pub) (f : Fate) :
    (f.deliver node pub).1 ≠ .ok := by
  cases f with
  | answered run => exact (pwaDelPeer_gone h run).1
  | lost run seen => cases seen <;> simp [Fate.deliver, unheard]
  | unreached seen => cases seen <;> simp [Fate.deliver, unheard]

/-! ### Histories -/

/-- A clock reading and the sweep over the paid periods. -/
def sweep (cfg : Settings) : Portal SweepStats := now >>= expireDueSubscriptions cfg

/-- One sweep of a history, with the worlds before and after it. -/
structure SweepRun where
  before : World
  result : Except Exn SweepStats
  after : World

/-- Any number of sweeps, one after another. -/
inductive Sweeps (cfg : Settings) (fate : ℕ → ℕ → Fate) (w₀ : World) :
    List SweepRun → World → Prop where
  | nil : Sweeps cfg fate w₀ [] w₀
  | snoc {log : List SweepRun} {w w' : World} {r : Except Exn SweepStats} :
      Sweeps cfg fate w₀ log w → Proc.Runs (Delivers fate) (sweep cfg) w r w' →
      Sweeps cfg fate w₀ (log ++ [⟨w, r, w'⟩]) w'

/-- The sweep had the device removed and did not record it: the answer was lost,
or the sweep ended with an exception before its commit. -/
def SweepRun.Loses (fate : ℕ → ℕ → Fate) (e : SweepRun) (n : ℕ) : Prop :=
  e.before.removals.count n < e.after.removals.count n
    ∧ (fate (e.before.removals.count n + 1) n).Executed
    ∧ ¬ ((fate (e.before.removals.count n + 1) n).Done ∧ ∃ stats, e.result = .ok stats)

/-- Some sweep of the history lost the device. -/
def LostIn (fate : ℕ → ℕ → Fate) (log : List SweepRun) (n : ℕ) : Prop :=
  ∃ e ∈ log, e.Loses fate n

/-- The active devices in configured locations, with their node. -/
def Placed (cfg : Settings) (db : Db) (c : Config) (loc : Location) : Prop :=
  c ∈ db.configs.rows ∧ c.isActive = true ∧ cfg.getLocation c.locationKey = some loc

/-- Active devices have keys of their own. -/
def KeysApart (db : Db) : Prop :=
  ∀ c ∈ db.configs.rows, ∀ c' ∈ db.configs.rows, c.isActive = true → c'.isActive = true →
    c.publicKey = c'.publicKey → c.id = c'.id

/-- Every active device is on its node. -/
structure Mirrored (cfg : Settings) (w : World) : Prop where
  held : ∀ c loc, Placed cfg w.db c loc → Held (w.node loc.host) c.publicKey
  keys : KeysApart w.db

/-- Every active device is on its node, or was lost. -/
structure Tracked (cfg : Settings) (fate : ℕ → ℕ → Fate) (log : List SweepRun) (w : World) :
    Prop where
  held : ∀ c loc, Placed cfg w.db c loc →
    Held (w.node loc.host) c.publicKey ∨ LostIn fate log c.id
  keys : KeysApart w.db

/-! ### One sweep -/

section OneSweep

variable {cfg : Settings} {fate : ℕ → ℕ → Fate} {w : World}

/-- What holds on the way of a sweep that started in `w`: a device that was on its
node still is, or its one call was executed. -/
def OnTheWay (cfg : Settings) (fate : ℕ → ℕ → Fate) (w s : World) : Prop :=
  ∀ c loc, Placed cfg w.db c loc → Held (w.node loc.host) c.publicKey →
    Held (s.node loc.host) c.publicKey
      ∨ (w.removals.count c.id < s.removals.count c.id
        ∧ (fate (w.removals.count c.id + 1) c.id).Executed)

/-- The answers a sweep can get that starts in `w`: no exception to a call that is
answered, and an ok for a device on its node. -/
def Heard (cfg : Settings) (fate : ℕ → ℕ → Fate) (w : World) (c : Config) (a : Reply) : Prop :=
  (fate (w.removals.count c.id + 1) c.id).Done → a ≠ .raised
    ∧ ∀ loc, cfg.getLocation c.locationKey = some loc →
      Held (w.node loc.host) c.publicKey → a = .ok

lemma count_le_append (l : List ℕ) (n m : ℕ) : l.count n ≤ (l ++ [m]).count n := by
  rw [List.count_append]
  exact Nat.le_add_right _ _

lemma OnTheWay.append {s : World} (h : OnTheWay cfg fate w s) (n : ℕ) :
    OnTheWay cfg fate w { s with removals := s.removals ++ [n] } := by
  intro c loc hc hheld
  rcases h c loc hc hheld with hs | ⟨hlt, hexec⟩
  · exact Or.inl hs
  · exact Or.inr ⟨lt_of_lt_of_le hlt (count_le_append _ _ _), hexec⟩

/-- One call keeps what holds on the way. -/
lemma OnTheWay.call {s : World} {i : Input} {c : Config} {loc : Location}
    (h : OnTheWay cfg fate w s) (hkeys : KeysApart w.db)
    (hcount : s.removals.count c.id = w.removals.count c.id) (hc : Placed cfg w.db c loc)
    (hi : Delivers fate { s with removals := s.removals ++ [c.id] } i) :
    OnTheWay cfg fate w { s with
      removals := s.removals ++ [c.id]
      node := Function.update s.node loc.host (i.del loc.host c).2 } := by
  have hnext : (s.removals ++ [c.id]).count c.id = w.removals.count c.id + 1 := by
    rw [List.count_append, hcount]
    simp
  intro x loc' hx hheld
  rcases h.append c.id x loc' hx hheld with hs | hdone
  swap
  · exact Or.inr hdone
  dsimp only at hs ⊢
  by_cases hhost : loc'.host = loc.host
  swap
  · refine Or.inl ?_
    rw [Function.update_of_ne hhost]
    exact hs
  rw [hhost] at hs ⊢
  rw [Function.update_self, hi]
  dsimp only
  rw [hnext]
  by_cases hsame : x.publicKey = c.publicKey
  · -- the same key is the same device, and this was its call
    have hid : x.id = c.id := hkeys x hx.1 c hc.1 hx.2.1 hc.2.1 hsame
    rw [hid, hnext]
    rw [hsame] at hs ⊢
    rcases hs.deliver_self (fate (w.removals.count c.id + 1) c.id) with hheld' | hexec
    · exact Or.inl hheld'
    · exact Or.inr ⟨Nat.lt_succ_self _, hexec⟩
  · exact Or.inl (hs.deliver_other hsame _)

lemma nodes_delivers (hkeys : KeysApart w.db) :
    Nodes (Delivers fate) cfg w.db (fun n => w.removals.count n) (OnTheWay cfg fate w)
      (Heard cfg fate w) where
  outbox _ _ h := h
  missing s c h _ _ _ _ hloc := by
    refine ⟨h.append c.id, fun _ => ⟨by simp, fun loc hloc' => ?_⟩⟩
    rw [hloc] at hloc'
    cases hloc'
  call s i c loc h _ hcount hrow hact hloc hi := by
    have hc : Placed cfg w.db c loc := ⟨hrow, hact, hloc⟩
    refine ⟨h.call hkeys hcount hc hi, fun hdone => ?_⟩
    have hnext : (s.removals ++ [c.id]).count c.id = w.removals.count c.id + 1 := by
      rw [List.count_append, hcount]
      simp
    rw [hi]
    dsimp only
    rw [hnext]
    cases hfate : fate (w.removals.count c.id + 1) c.id with
    | lost run seen => rw [hfate] at hdone; exact hdone.elim
    | unreached seen => rw [hfate] at hdone; exact hdone.elim
    | answered run =>
        rw [hfate] at hdone
        refine ⟨pwaDelPeer_ne_raised _ _ _, fun loc' hloc' hheld => ?_⟩
        obtain rfl : loc = loc' := Option.some.inj (hloc.symm.trans hloc')
        -- the device was not called before, so it is still on its node
        rcases h c loc hc hheld with hs | ⟨hlt, -⟩
        · exact (pwaDelPeer_held hs hdone).1
        · omega

/-- How a sweep ends. -/
lemma runs_sweep (hkeys : KeysApart w.db) {r : Except Exn SweepStats} {w' : World}
    (hrun : Proc.Runs (Delivers fate) (sweep cfg) w r w') :
    SweepEnd (OnTheWay cfg fate w) (Heard cfg fate w) (paidDue w.db w'.clock)
      (fun reply => SubsEffect reply w'.clock w.db) w r { w' with clock := w.clock } := by
  obtain ⟨i, -, hrun⟩ := hrun
  have hstart : OnTheWay cfg fate w { w with clock := max w.clock i.now } :=
    fun c loc _ hheld => Or.inl hheld
  have hend := (Proc.Alone.runs (alone_expireDueSubscriptions
    (w := { w with clock := max w.clock i.now }) (nodes_delivers hkeys) hstart
    (max w.clock i.now)) hrun).2
  obtain ⟨hclock, hway, hcases⟩ := hend
  rw [hclock]
  exact ⟨rfl, hway, hcases⟩

/-- An active row after a sweep was there before it, and its removal is not
recorded. -/
lemma SubsEffect.of_active {reply : Config → Reply} {t : Time} {db db' : Db} {stats : SweepStats}
    (h : SubsEffect reply t db stats db') {c : Config} (hc : c ∈ db'.configs.rows)
    (hact : c.isActive = true) :
    c ∈ db.configs.rows ∧ ¬ (paidDue db t c = true ∧ reply c = .ok) := by
  rw [h.devices] at hc
  obtain ⟨x, hx, hxc⟩ := List.mem_map.mp hc
  split at hxc
  · rw [← hxc] at hact
    cases hact
  · rename_i hnot
    obtain rfl := hxc
    refine ⟨hx, fun hboth => hnot ?_⟩
    simp [hboth.1, hboth.2]

/-- An account that stays flagged after its end has a device whose removal was not
confirmed. -/
lemma SubsEffect.of_flagged {reply : Config → Reply} {t x : Time} {db db' : Db}
    {stats : SweepStats} (h : SubsEffect reply t db stats db') {u' : User}
    (hu' : u' ∈ db'.users.rows) (hflag : u'.isSubscribed = true)
    (hx : u'.subscribedUntil = some x) (hlt : x < t) :
    ∃ c ∈ db'.configs.rows, c ∈ db.configs.rows ∧ c.userId = u'.id ∧ c.isActive = true
      ∧ paidDue db t c = true ∧ reply c ≠ .ok := by
  rw [h.accounts] at hu'
  obtain ⟨u, hu, hswept⟩ := List.mem_map.mp hu'
  replace hswept : u.swept db reply t = u' := hswept
  rw [← hswept, User.swept_isSubscribed, Bool.and_eq_true] at hflag
  rw [← hswept, User.swept_subscribedUntil] at hx
  rw [← hswept, User.swept_id]
  have hdue : u.isDue t = true := by simp [User.isDue, hflag.1, hx, hlt]
  have hnot : ∃ c ∈ heldBy db.configs.rows u.id, reply c ≠ .ok := by
    have hcl : cleared db reply u = false := by simpa [hdue] using hflag.2
    rw [cleared, List.all_eq_false] at hcl
    simpa using hcl
  obtain ⟨c, hc, hreply⟩ := hnot
  obtain ⟨hrow, hown⟩ := List.mem_filter.mp hc
  obtain ⟨hown, hact⟩ := of_decide_eq_true hown
  refine ⟨c, ?_, hrow, hown, hact, ?_, hreply⟩
  · rw [h.devices]
    refine List.mem_map.mpr ⟨c, hrow, ?_⟩
    simp [hreply]
  · have hfind : db.users.find c.userId = some u := by
      rw [hown]
      exact Table.find_of_mem hu
    simp [paidDue, hact, hfind, hdue]

/-- The same for any end of a sweep. -/
lemma SweepEnd.of_active {I : World → Prop} {Ok : Config → Reply → Prop} {t : Time}
    {r : Except Exn SweepStats} {w' : World}
    (h : SweepEnd I Ok (paidDue w.db t) (fun reply => SubsEffect reply t w.db) w r w') {c : Config}
    (hc : c ∈ w'.db.configs.rows) (hact : c.isActive = true) :
    c ∈ w.db.configs.rows
      ∧ ∀ stats, r = .ok stats → w.removals.count c.id < w'.removals.count c.id →
        paidDue w.db t c = true ∧ ∃ a, a ≠ .ok ∧ Ok c a := by
  obtain ⟨-, -, ⟨-, hr, hdb⟩ | ⟨⟨ids, hrem, hperm⟩, reply, stats, hok, -, hE⟩⟩ := h
  · rw [hdb] at hc
    refine ⟨hc, fun stats hstats => ?_⟩
    rw [hr] at hstats
    cases hstats
  · obtain ⟨hrow, hnot⟩ := (hE reply fun _ _ _ => rfl).of_active hc hact
    refine ⟨hrow, fun _ _ hlt => ?_⟩
    -- the sweep called the device, so it was due
    have hmem : c.id ∈ ids := by
      rw [hrem, List.count_append] at hlt
      exact List.count_pos_iff.mp (by omega)
    obtain ⟨x, hx, hid⟩ := List.mem_map.mp (hperm.mem_iff.mp hmem)
    obtain ⟨hxrow, hxdue⟩ := List.mem_filter.mp hx
    obtain rfl : x = c := Table.eq_of_num_eq hxrow hrow hid
    exact ⟨hxdue, reply x, fun hreply => hnot ⟨hxdue, hreply⟩, (hok x hrow hxdue).1⟩

lemma LostIn.append {log : List SweepRun} {n : ℕ} (h : LostIn fate log n) (e : SweepRun) :
    LostIn fate (log ++ [e]) n := by
  obtain ⟨x, hx, hlost⟩ := h
  exact ⟨x, List.mem_append_left _ hx, hlost⟩

/-- **One sweep keeps the invariant.** -/
lemma Tracked.sweep {log : List SweepRun} (h : Tracked cfg fate log w)
    {r : Except Exn SweepStats} {w' : World}
    (hrun : Proc.Runs (Delivers fate) (sweep cfg) w r w') :
    Tracked cfg fate (log ++ [⟨w, r, w'⟩]) w' := by
  have hend := runs_sweep h.keys hrun
  constructor
  · rintro c loc ⟨hc, hact, hloc⟩
    obtain ⟨hrow, hcalled⟩ := hend.of_active hc hact
    rcases h.held c loc ⟨hrow, hact, hloc⟩ with hheld | hlost
    swap
    · exact Or.inr (hlost.append _)
    rcases hend.2.1 c loc ⟨hrow, hact, hloc⟩ hheld with hheld' | ⟨hlt, hexec⟩
    · exact Or.inl hheld'
    · refine Or.inr ⟨_, List.mem_append_right _ (List.mem_singleton_self _), hlt, hexec, ?_⟩
      -- an answer that arrived was an ok, and then the row would be off
      rintro ⟨hdone, stats, hr⟩
      obtain ⟨-, a, hne, hheard⟩ := hcalled stats hr hlt
      exact hne ((hheard hdone).2 loc hloc hheld)
  · intro c hc c' hc' hact hact' hkey
    exact h.keys c (hend.of_active hc hact).1 c' (hend.of_active hc' hact').1 hact hact' hkey

end OneSweep

/-! ### Whole histories -/

lemma Mirrored.tracked {cfg : Settings} {fate : ℕ → ℕ → Fate} {w₀ w : World}
    {log : List SweepRun} (h₀ : Mirrored cfg w₀) (h : Sweeps cfg fate w₀ log w) :
    Tracked cfg fate log w := by
  induction h with
  | nil => exact ⟨fun c loc hc => Or.inl (h₀.held c loc hc), h₀.keys⟩
  | snoc _ hrun ih => exact ih.sweep hrun

/-- The accounts of the claim after a sweep: what is left on an account whose end
has passed goes back to a lost removal, or to a location that is not
configured. -/
def Converged (cfg : Settings) (fate : ℕ → ℕ → Fate) (log : List SweepRun) (w : World) : Prop :=
  ∀ u ∈ w.db.users.rows, ∀ x, u.subscribedUntil = some x → x < w.clock →
    (u.isSubscribed = true → ∃ c ∈ w.db.configs.rows, c.userId = u.id ∧ c.isActive = true
      ∧ (cfg.getLocation c.locationKey = none ∨ LostIn fate log c.id))
    ∧ ∀ c loc, Placed cfg w.db c loc → c.userId = u.id →
      (∀ e ∈ (w.node loc.host).runtime, e.key ≠ c.publicKey) → LostIn fate log c.id

/-- **Sweeps converge, but for lost removals.** After any history of sweeps from
a state in which every active device is on its node, a sweep whose calls are all
executed and answered ends, and leaves on an ended account only what goes back
to a removal that was executed and not recorded, or to a location that is not
configured. -/
theorem sweeps_converge (cfg : Settings) (fate : ℕ → ℕ → Fate) {w₀ w : World}
    {log : List SweepRun} (h₀ : Mirrored cfg w₀) (h : Sweeps cfg fate w₀ log w)
    (hall : ∀ c ∈ w.db.configs.rows, c.isActive = true →
      (fate (w.removals.count c.id + 1) c.id).Done) :
    Proc.Ends (Delivers fate)
      (fun r w' => (∃ stats, r = .ok stats) ∧ Converged cfg fate log w') (sweep cfg) w := by
  have htracked := h₀.tracked h
  refine ⟨Proc.exists_runs (exists_delivers fate) _ w, fun r w' hrun => ?_⟩
  have hend := runs_sweep htracked.keys hrun
  have htracked' := htracked.sweep hrun
  obtain ⟨-, -, ⟨⟨c, hc, hdue, hraised⟩, -⟩ | ⟨-, reply, stats, hok, hr, hE⟩⟩ := hend
  · -- a call that is answered does not raise
    have hact : c.isActive = true := by
      rw [paidDue, Bool.and_eq_true] at hdue
      exact hdue.1
    exact absurd rfl (hraised (hall c hc hact)).1
  have heffect : SubsEffect reply w'.clock w.db stats w'.db := hE reply fun _ _ _ => rfl
  refine ⟨⟨stats, hr⟩, fun u' hu' x hx hlt => ⟨fun hflag => ?_, ?_⟩⟩
  · obtain ⟨c, hleft, hrow, hown, hact, hpaid, hreply⟩ := heffect.of_flagged hu' hflag hx hlt
    refine ⟨c, hleft, hown, hact, ?_⟩
    cases hloc : cfg.getLocation c.locationKey with
    | none => exact Or.inl rfl
    | some loc =>
        rcases htracked.held c loc ⟨hrow, hact, hloc⟩ with hheld | hlost
        · exact absurd (((hok c hrow hpaid).1 (hall c hrow hact)).2 loc hloc hheld) hreply
        · exact Or.inr hlost
  · intro c loc hc _ habsent
    rcases htracked'.held c loc hc with hheld | ⟨e, he, hlost⟩
    · obtain ⟨e, he, hkey⟩ := hheld.mem
      exact absurd hkey (habsent e he)
    · rcases List.mem_append.mp he with he | he
      · exact ⟨e, he, hlost⟩
      · -- the last sweep loses nothing
        rw [List.mem_singleton.mp he] at hlost
        obtain ⟨hrow, -⟩ := (runs_sweep htracked.keys hrun).of_active hc.1 hc.2.1
        exact absurd ⟨hall c hrow hc.2.1, stats, hr⟩ hlost.2.2

/-- A public key. -/
def ghostKey : String := "AAAAAAAAAAAAAAAAAAAAAAAAAAAAAAAAAAAAAAAAAAA="

/-- The config of its node. -/
def ghostHeader : List Line := ["[Interface]", "ListenPort = 51820", ""].map String.toList

/-- Its block in the config. -/
def ghostBlock : Blocks.Block confMarks where
  title := some "### auto-ann".toList
  mark := "[Peer]".toList
  body := ["PublicKey = " ++ ghostKey, "AllowedIPs = 10.88.88.42/32"].map String.toList
  isTitle := by decide
  isMark := isMark_peer
  plain := by decide

/-- An ended account whose one device is on its node. -/
def ghostWorld : World where
  db := {
    users := ⟨[{ id := 0, username := "ann", isSubscribed := true, subscribedUntil := some 10 }], 1,
      by decide, by decide⟩
    configs := ⟨[{ id := 0, userId := 0, name := "a", peerIp := "10.88.88.42",
                   publicKey := ghostKey }], 1, by decide, by decide⟩ }
  node := fun _ => {
    runtime := [⟨ghostKey, ["10.88.88.42/32"]⟩]
    conf := some (Blocks.flatten ghostHeader [ghostBlock]) }

/-- The answer to the first call for a device is lost, later ones arrive. -/
def firstLost (n _ : ℕ) : Fate := if n = 1 then .lost {} (some "") else .answered {}

/-- The nodes of `fate`, at the time `t`. -/
def deliveredAt (fate : ℕ → ℕ → Fate) (t : Time) (w : World) : Input where
  now := t
  del := fun host c => (fate (w.removals.count c.id) c.id).deliver (w.node host) c.publicKey

lemma delivers_deliveredAt (fate : ℕ → ℕ → Fate) (t : Time) (w : World) :
    Delivers fate w (deliveredAt fate t w) := fun _ _ => rfl

/-- After the first sweep. -/
def ghostAfter : World := (Proc.playBy (deliveredAt firstLost 20) (sweep {}) ghostWorld).2

/-- The history of that sweep. -/
def ghostLog : List SweepRun :=
  [⟨ghostWorld, (Proc.playBy (deliveredAt firstLost 20) (sweep {}) ghostWorld).1, ghostAfter⟩]

lemma mirrored_ghostWorld : Mirrored {} ghostWorld where
  held c loc hc := by
    obtain rfl : c = _ := List.mem_singleton.mp hc.1
    have hrunning : inClientSubnet (allowedOf [⟨ghostKey, ["10.88.88.42/32"]⟩] ghostKey) = true := by
      decide +kernel
    have hheader : ∀ l ∈ ghostHeader, confMarks.title l = false ∧ confMarks.mark l = false := by
      decide +kernel
    exact ⟨by decide +kernel, hrunning, _, rfl, ghostHeader, [ghostBlock], rfl, hheader,
      by decide +kernel, by decide +kernel, by decide +kernel⟩
  keys c hc c' hc' _ _ _ := by
    rw [List.mem_singleton.mp hc, List.mem_singleton.mp hc']

lemma sweeps_ghostLog : Sweeps {} firstLost ghostWorld ghostLog ghostAfter :=
  .snoc .nil (Proc.runs_playBy (delivers_deliveredAt _ _) _ _)

lemma done_ghostAfter : ∀ c ∈ ghostAfter.db.configs.rows, c.isActive = true →
    (firstLost (ghostAfter.removals.count c.id + 1) c.id).Done := by
  have hcount : ∀ c ∈ ghostAfter.db.configs.rows, ghostAfter.removals.count c.id = 1 := by
    decide
  intro c hc _
  rw [hcount c hc]
  exact rfl

/-- What is left after the second sweep goes back to the lost answer. -/
theorem sweeps_converge_ghost :
    Mirrored {} ghostWorld ∧ Sweeps {} firstLost ghostWorld ghostLog ghostAfter
      ∧ ∀ r w', Proc.Runs (Delivers firstLost) (sweep {}) ghostAfter r w' →
        Converged {} firstLost ghostLog w' :=
  ⟨mirrored_ghostWorld, sweeps_ghostLog, fun r w' hrun =>
    ((sweeps_converge {} firstLost mirrored_ghostWorld sweeps_ghostLog done_ghostAfter).2
      r w' hrun).2⟩

/-- **A lost answer is never made good.** The peer was removed in the first sweep,
the portal did not see it, and in the second sweep, whose one call is executed
and answered, the wrapper refuses a peer that is gone: the account stays flagged
and its row active. -/
theorem lost_answer_stays :
    ∃ (fate : ℕ → ℕ → Fate) (w₀ w w' : World) (log : List SweepRun) (r : Except Exn SweepStats),
      Mirrored {} w₀ ∧ Sweeps {} fate w₀ log w
      ∧ (∀ c ∈ w.db.configs.rows, c.isActive = true →
        (fate (w.removals.count c.id + 1) c.id).Done)
      ∧ Proc.Runs (Delivers fate) (sweep {}) w r w'
      ∧ ∃ u ∈ w'.db.users.rows, ∃ x, u.subscribedUntil = some x ∧ x < w'.clock
        ∧ u.isSubscribed = true
        ∧ ∃ c loc, Placed {} w'.db c loc ∧ c.userId = u.id
          ∧ ∀ e ∈ (w'.node loc.host).runtime, e.key ≠ c.publicKey := by
  refine ⟨firstLost, ghostWorld, ghostAfter, _, ghostLog, _, mirrored_ghostWorld, sweeps_ghostLog,
    done_ghostAfter, Proc.runs_playBy (delivers_deliveredAt firstLost 30) _ _, ?_⟩
  refine ⟨{ id := 0, username := "ann", isSubscribed := true, subscribedUntil := some 10 },
    by decide, 10, rfl, by decide, rfl,
    { id := 0, userId := 0, name := "a", peerIp := "10.88.88.42", publicKey := ghostKey },
    ⟨"de", "de-entry"⟩, ⟨by decide, rfl, by decide⟩, rfl, by decide⟩

/-! ### Rows that no sweep clears -/

/-- An active device whose peer is in neither place of its node. -/
structure Stranded (cfg : Settings) (w : World) (c : Config) (loc : Location) : Prop where
  placed : Placed cfg w.db c loc
  gone : Gone (w.node loc.host) c.publicKey

section Stranded

variable {cfg : Settings} {fate : ℕ → ℕ → Fate} {w : World} {c : Config} {loc : Location}

lemma nodes_stranded (hloc : cfg.getLocation c.locationKey = some loc) :
    Nodes (Delivers fate) cfg w.db (fun n => w.removals.count n)
      (fun s => Gone (s.node loc.host) c.publicKey) fun x a => x = c → a ≠ .ok where
  outbox _ _ h := h
  missing s x h _ _ _ _ _ := ⟨h, fun _ => by simp⟩
  call s i x loc' h _ _ _ _ hloc' hi := by
    constructor
    · dsimp only
      by_cases hhost : loc.host = loc'.host
      · rw [hhost, Function.update_self, hi]
        rw [hhost] at h
        exact h.deliver _ _
      · rw [Function.update_of_ne hhost]
        exact h
    · rintro rfl
      obtain rfl : loc = loc' := Option.some.inj (hloc.symm.trans hloc')
      rw [hi]
      exact h.deliver_ne_ok _

/-- One more sweep changes neither the device nor the account. -/
lemma Stranded.sweep (h : Stranded cfg w c loc) {r : Except Exn SweepStats} {w' : World}
    (hrun : Proc.Runs (Delivers fate) (sweep cfg) w r w') :
    Stranded cfg w' c loc ∧ w'.db.users.find c.userId = w.db.users.find c.userId := by
  obtain ⟨i, -, hrun⟩ := hrun
  obtain ⟨hrow, hact, hloc⟩ := h.placed
  obtain ⟨-, hgone, hcases⟩ := (Proc.Alone.runs (alone_expireDueSubscriptions
    (w := { w with clock := max w.clock i.now }) (nodes_stranded hloc) h.gone
    (max w.clock i.now)) hrun).2
  rcases hcases with ⟨-, -, hdb⟩ | ⟨-, reply, stats, hok, -, hE⟩
  · replace hdb : w'.db = w.db := hdb
    refine ⟨⟨⟨?_, hact, hloc⟩, hgone⟩, by rw [hdb]⟩
    rw [hdb]
    exact hrow
  · have heffect := hE reply fun _ _ _ => rfl
    have hnot : paidDue w.db (max w.clock i.now) c = true → reply c ≠ .ok :=
      fun hdue => (hok c hrow hdue).1 rfl
    refine ⟨⟨⟨?_, hact, hloc⟩, hgone⟩, ?_⟩
    · rw [heffect.devices]
      refine List.mem_map.mpr ⟨c, hrow, ?_⟩
      rw [if_neg]
      simpa using hnot
    · rw [heffect.find_user]
      cases hu : w.db.users.find c.userId with
      | none => rfl
      | some u =>
          have hid : c.userId = u.id := (Table.mem_of_find hu).2.symm
          have hswept : u.swept w.db reply (max w.clock i.now) = u := by
            unfold User.swept
            rw [if_neg]
            intro hboth
            rw [Bool.and_eq_true] at hboth
            have hdue : paidDue w.db (max w.clock i.now) c = true := by
              simp [paidDue, hact, hu, hboth.1]
            have hheld : c ∈ heldBy w.db.configs.rows u.id :=
              List.mem_filter.mpr ⟨hrow, decide_eq_true ⟨hid, hact⟩⟩
            exact hnot hdue (of_decide_eq_true (List.all_eq_true.mp hboth.2 c hheld))
          exact congrArg some hswept

/-- **No later sweep clears it**, however its calls are answered. -/
theorem Stranded.history (h : Stranded cfg w c loc) {log : List SweepRun} {w' : World}
    (hsweeps : Sweeps cfg fate w log w') :
    Stranded cfg w' c loc ∧ w'.db.users.find c.userId = w.db.users.find c.userId := by
  induction hsweeps with
  | nil => exact ⟨h, rfl⟩
  | snoc _ hrun ih =>
      obtain ⟨hstranded, husers⟩ := ih.1.sweep hrun
      exact ⟨hstranded, husers.trans ih.2⟩

end Stranded

end VpnPortal
