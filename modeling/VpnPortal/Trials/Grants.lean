/-
The protocol of `trial_grants`.

A session that starts a trial flushes its grant, holds it against all others
while the device is issued, and commits it with the end of the trial and the
device, or rolls it back. The unique constraints are checked once, at the flush,
against the committed rows and against the rows that others hold; the invariant
is that the committed and the held rows together never clash.

* `Clash`: two grants with a key in common;
* `TrialsKept`: grants, devices and ends of trials as they were;
* `TrialStage`, `GrantStep`: where a session stands and what a step of it can do;
* `Tally`: the invariant, with the trials made so far; `Tallied.step`: every step keeps it.
-/
import VpnPortal.Api.Account
import VpnPortal.Sessions.Protocol

namespace VpnPortal

open Sessions Tables

/-! ### Grants that clash -/

/-- The two grants have the mailbox, the Telegram account or the account in
common. -/
def Clash (a b : TrialGrant) : Prop :=
  (a.emailNorm ≠ none ∧ a.emailNorm = b.emailNorm)
    ∨ (a.telegramId ≠ none ∧ a.telegramId = b.telegramId)
    ∨ (a.userId ≠ none ∧ a.userId = b.userId)

lemma Clash.symm {a b : TrialGrant} (h : Clash a b) : Clash b a := by
  rcases h with ⟨hne, heq⟩ | ⟨hne, heq⟩ | ⟨hne, heq⟩
  · exact Or.inl ⟨heq ▸ hne, heq.symm⟩
  · exact Or.inr (Or.inl ⟨heq ▸ hne, heq.symm⟩)
  · exact Or.inr (Or.inr ⟨heq ▸ hne, heq.symm⟩)

lemma clash_self {a : TrialGrant} (h : a.userId ≠ none) : Clash a a := Or.inr (Or.inr ⟨h, rfl⟩)

/-- The check of the constraints. -/
lemma not_clash_of_grantConflict {grants : List TrialGrant} {new : TrialGrant}
    (h : grantConflict grants new = false) {g : TrialGrant} (hg : g ∈ grants) : ¬ Clash new g := by
  intro hclash
  have hany := List.any_eq_false.mp h g hg
  refine hany (decide_eq_true ?_)
  rcases hclash with ⟨hne, heq⟩ | ⟨hne, heq⟩ | ⟨hne, heq⟩
  · exact Or.inl ⟨hne, heq.symm⟩
  · exact Or.inr (Or.inl ⟨hne, heq.symm⟩)
  · exact Or.inr (Or.inr ⟨hne, heq.symm⟩)

/-- No two rows of the list clash. -/
abbrev NoClash (rows : List TrialGrant) : Prop := rows.Pairwise fun a b => ¬ Clash a b

lemma NoClash.perm {rows rows' : List TrialGrant} (h : NoClash rows) (hperm : rows.Perm rows') :
    NoClash rows' :=
  hperm.pairwise h fun hclash hclash' => hclash hclash'.symm

/-! ### Steps -/

/-- The end of an account's trial, if the account exists. -/
def trialOf (db : Db) (n : ℕ) : Option (Option Time) := (db.users.find n).map User.trialUntil

/-- Grants, devices and ends of trials are as they were. -/
structure TrialsKept (s t : World) : Prop where
  grants : t.db.trialGrants = s.db.trialGrants
  configs : t.db.configs = s.db.configs
  trials : ∀ n, trialOf t.db n = trialOf s.db n

lemma TrialsKept.of_db {s t : World} (h : t.db = s.db) : TrialsKept s t :=
  ⟨by rw [h], by rw [h], fun n => by rw [h]⟩

/-- Where a session stands: it holds nothing, it holds a row it has flushed, or
it has started a trial. -/
inductive TrialStage where
  | idle
  | held (row : TrialGrant)
  | done (trial : StartedTrial)

/-- The session has started its trial. -/
def TrialStage.isDone : TrialStage → Bool
  | .done _ => true
  | _ => false

lemma TrialStage.idle_ne (trial : StartedTrial) : TrialStage.idle ≠ .done trial :=
  fun h => by cases h

lemma TrialStage.held_ne (row : TrialGrant) (trial : StartedTrial) :
    TrialStage.held row ≠ .done trial :=
  fun h => by cases h

/-- What a step of a session can do. -/
inductive GrantStep (cfg : Settings) (Seen : User → Prop) :
    TrialStage → World → TrialStage → World → Prop where
  | aside {g : TrialStage} {s t : World} (hg : ∀ trial, g ≠ .done trial) (h : TrialsKept s t)
      (hflushed : t.flushed = s.flushed) : GrantStep cfg Seen g s g t
  | flush {s : World} {row : TrialGrant} (huser : row.userId ≠ none)
      (hrows : grantConflict s.db.trialGrants.rows row = false)
      (hflushed : grantConflict s.flushed row = false) :
      GrantStep cfg Seen .idle s (.held row) { s with flushed := s.flushed ++ [row] }
  | rollback {s : World} {row : TrialGrant} :
      GrantStep cfg Seen (.held row) s .idle { s with flushed := s.flushed.erase row }
  | commit {s : World} {user : User} {until_ : Time} {norm : Option String} {ip : String}
      {began : Time} {device : Config} (hseen : Seen user) (hnew : user.trialUntil = none)
      (hnorm : norm = user.confirmedEmail.map (normaliseEmail cfg))
      (hdevice : device.userId = user.id ∧ device.kind = .trial ∧ device.isActive = true) :
      GrantStep cfg Seen (.held (newGrant user norm ip began 0)) s
        (.done ⟨user, newGrant user norm ip began s.db.trialGrants.next, until_,
          { device with id := s.db.configs.next }⟩)
        { s with
          db := writeTrial user until_ norm ip began device s.db
          flushed := s.flushed.erase (newGrant user norm ip began 0) }

/-! ### The invariant -/

/-- The trial was stored for the account that asked: its grant names the account,
its Telegram and its confirmed mailbox, and the device is an active trial device
of the account. -/
structure StartedTrial.Sound (cfg : Settings) (trial : StartedTrial) : Prop where
  userId : trial.grant.userId = some trial.user.id
  telegramId : trial.grant.telegramId = trial.user.telegramId
  emailNorm : trial.grant.emailNorm = trial.user.confirmedEmail.map (normaliseEmail cfg)
  device : trial.device.userId = trial.user.id ∧ trial.device.kind = .trial
    ∧ trial.device.isActive = true

/-- The tables hold what they held in `w`, and for each trial made since exactly
one grant, one device and one end of a trial. -/
structure Written (w : World) (made : List StartedTrial) (s : World) : Prop where
  grants : s.db.trialGrants.rows = w.db.trialGrants.rows ++ made.map StartedTrial.grant
  devices : s.db.configs.rows = w.db.configs.rows ++ made.map StartedTrial.device
  trials : ∀ n, trialOf s.db n = (trialOf w.db n).map fun old =>
    ((made.find? fun trial => trial.user.id = n).map StartedTrial.until_).or old

/-- Each row that is flushed is held by one session. -/
structure Holds {κ : Type} (s : World) (γ : κ → TrialStage) : Prop where
  keyed : ∀ row ∈ s.flushed, row.userId ≠ none
  held : ∀ k row, γ k = .held row → row ∈ s.flushed
  holder : ∀ row ∈ s.flushed, ∃ k, γ k = .held row
  single : ∀ k l row, γ k = .held row → γ l = .held row → k = l

/-- The invariant: `made` are the trials of the sessions that are done, what is
written is what they wrote, and neither they nor the rows still held clash. -/
structure Tally {κ : Type} (cfg : Settings) (Seen : User → Prop) (w s : World) (γ : κ → TrialStage)
    (made : List (κ × StartedTrial)) : Prop where
  nodup : (made.map Prod.fst).Nodup
  mem : ∀ k trial, (k, trial) ∈ made ↔ γ k = .done trial
  sound : ∀ k trial, (k, trial) ∈ made → trial.Sound cfg ∧ Seen trial.user
  written : Written w (made.map Prod.snd) s
  apart : NoClash ((made.map Prod.snd).map StartedTrial.grant ++ s.flushed)
  fresh : ∀ row ∈ (made.map Prod.snd).map StartedTrial.grant ++ s.flushed,
    ∀ g ∈ w.db.trialGrants.rows, ¬ Clash row g
  holds : Holds s γ

/-- There is such a list. -/
def Tallied {κ : Type} (cfg : Settings) (Seen : User → Prop) (w s : World) (γ : κ → TrialStage) :
    Prop :=
  ∃ made, Tally cfg Seen w s γ made

section Step

variable {κ : Type} {cfg : Settings} {Seen : User → Prop} {w s t : World} {γ : κ → TrialStage}
variable {made : List (κ × StartedTrial)} {k : κ} {row : TrialGrant}

/-- Nothing of what `made` says is touched. -/
lemma Written.kept {trials : List StartedTrial} (h : Written w trials s) (hkept : TrialsKept s t) :
    Written w trials t :=
  ⟨by rw [hkept.grants]; exact h.grants, by rw [hkept.configs]; exact h.devices,
    fun n => by rw [hkept.trials]; exact h.trials n⟩

lemma Holds.flushed_nodup (h : Holds s γ) (hapart : NoClash s.flushed) : s.flushed.Nodup := by
  refine hapart.imp_of_mem fun {a b} ha _ hclash => ?_
  rintro rfl
  exact hclash (clash_self (h.keyed a ha))

/-- The trial of an account is the only one it has. -/
lemma Tally.find_trial (h : Tally cfg Seen w s γ made) {trial : StartedTrial}
    (hmem : (k, trial) ∈ made) :
    ((made.map Prod.snd).find? fun x => x.user.id = trial.user.id) = some trial := by
  have hapart := (List.pairwise_append.mp h.apart).1
  rw [List.pairwise_map] at hapart
  have hmem' : trial ∈ made.map Prod.snd := List.mem_map_of_mem hmem
  cases hfind : (made.map Prod.snd).find? fun x => x.user.id = trial.user.id with
  | none => exact absurd (decide_eq_true rfl) (List.find?_eq_none.mp hfind trial hmem')
  | some x =>
      have hx : x ∈ made.map Prod.snd := List.mem_of_find?_eq_some hfind
      have hid : x.user.id = trial.user.id := by simpa using List.find?_some hfind
      obtain ⟨⟨l, x⟩, hxl, rfl⟩ := List.mem_map.mp hx
      have hsymm : Std.Symm fun a b : StartedTrial => ¬ Clash a.grant b.grant :=
        ⟨fun _ _ hclash hclash' => hclash hclash'.symm⟩
      by_contra hne
      refine hapart.forall hx hmem' (fun heq => hne (by rw [heq])) (Or.inr (Or.inr ?_))
      rw [(h.sound l x hxl).1.userId, (h.sound k trial hmem).1.userId, hid]
      exact ⟨Option.some_ne_none _, rfl⟩

/-- Its end is stored, if the account is there. -/
lemma Tally.trialOf_eq (h : Tally cfg Seen w s γ made) {trial : StartedTrial}
    (hmem : (k, trial) ∈ made) (hthere : (trialOf w.db trial.user.id).isSome) :
    trialOf s.db trial.user.id = some (some trial.until_) := by
  obtain ⟨old, hold⟩ := Option.isSome_iff_exists.mp hthere
  rw [h.written.trials, h.find_trial hmem, hold]
  rfl

variable [DecidableEq κ]

/-- The sessions that are done stay the same when another moves on. -/
lemma update_done_iff {g : TrialStage} (hk : ∀ trial, γ k ≠ .done trial) (hg : ∀ trial, g ≠ .done trial)
    (l : κ) (trial : StartedTrial) : Function.update γ k g l = .done trial ↔ γ l = .done trial := by
  by_cases hl : l = k
  · subst hl
    rw [Function.update_self]
    exact ⟨fun h => absurd h (hg trial), fun h => absurd h (hk trial)⟩
  · rw [Function.update_of_ne hl]

/-- A session takes a row that nobody holds. -/
lemma Holds.flush (h : Holds s γ) (hk : γ k = .idle) (huser : row.userId ≠ none)
    (hnot : row ∉ s.flushed) :
    Holds { s with flushed := s.flushed ++ [row] } (Function.update γ k (.held row)) := by
  have hother : ∀ l r, l ≠ k → γ l = .held r → r ≠ row := by
    rintro l r - hl rfl
    exact hnot (h.held l r hl)
  refine ⟨fun r hr => ?_, fun l r hl => ?_, fun r hr => ?_, fun l m r hl hm => ?_⟩
  · rcases List.mem_append.mp hr with hr | hr
    · exact h.keyed r hr
    · rw [List.mem_singleton.mp hr]
      exact huser
  · by_cases hlk : l = k
    · subst hlk
      rw [Function.update_self] at hl
      obtain rfl := TrialStage.held.inj hl
      exact List.mem_append_right _ (List.mem_singleton_self _)
    · rw [Function.update_of_ne hlk] at hl
      exact List.mem_append_left _ (h.held l r hl)
  · rcases List.mem_append.mp hr with hr | hr
    · obtain ⟨l, hl⟩ := h.holder r hr
      have hlk : l ≠ k := by
        rintro rfl
        rw [hk] at hl
        cases hl
      exact ⟨l, by rw [Function.update_of_ne hlk]; exact hl⟩
    · obtain rfl := List.mem_singleton.mp hr
      exact ⟨k, Function.update_self _ _ _⟩
  · by_cases hlk : l = k
    · by_cases hmk : m = k
      · rw [hlk, hmk]
      · subst hlk
        rw [Function.update_self] at hl
        rw [Function.update_of_ne hmk] at hm
        obtain rfl := TrialStage.held.inj hl
        exact absurd rfl (hother m _ hmk hm)
    · rw [Function.update_of_ne hlk] at hl
      by_cases hmk : m = k
      · subst hmk
        rw [Function.update_self] at hm
        obtain rfl := TrialStage.held.inj hm
        exact absurd rfl (hother l _ hlk hl)
      · rw [Function.update_of_ne hmk] at hm
        exact h.single l m r hl hm

/-- A session gives its row up. -/
lemma Holds.release (h : Holds s γ) (hnodup : s.flushed.Nodup) (hk : γ k = .held row) {g : TrialStage}
    (hg : ∀ r, g ≠ .held r) (hflushed : t.flushed = s.flushed.erase row) :
    Holds t (Function.update γ k g) := by
  have hheld : ∀ l r, Function.update γ k g l = .held r → l ≠ k ∧ γ l = .held r := by
    intro l r hl
    by_cases hlk : l = k
    · subst hlk
      rw [Function.update_self] at hl
      exact absurd hl (hg r)
    · rw [Function.update_of_ne hlk] at hl
      exact ⟨hlk, hl⟩
  refine ⟨fun r hr => ?_, fun l r hl => ?_, fun r hr => ?_, fun l m r hl hm => ?_⟩
  · rw [hflushed] at hr
    exact h.keyed r (List.mem_of_mem_erase hr)
  · obtain ⟨hlk, hl⟩ := hheld l r hl
    rw [hflushed, hnodup.mem_erase_iff]
    refine ⟨?_, h.held l r hl⟩
    rintro rfl
    exact hlk (h.single l k r hl hk)
  · rw [hflushed, hnodup.mem_erase_iff] at hr
    obtain ⟨l, hl⟩ := h.holder r hr.2
    have hlk : l ≠ k := by
      rintro rfl
      exact hr.1 (TrialStage.held.inj (hl.symm.trans hk))
    exact ⟨l, by rw [Function.update_of_ne hlk]; exact hl⟩
  · exact h.single l m r (hheld l r hl).2 (hheld m r hm).2

/-- A session that steps aside. -/
lemma Tally.aside (h : Tally cfg Seen w s γ made) (hkept : TrialsKept s t)
    (hflushed : t.flushed = s.flushed) : Tally cfg Seen w t γ made := by
  refine ⟨h.nodup, h.mem, h.sound, h.written.kept hkept, ?_, ?_, ?_⟩
  · rw [hflushed]
    exact h.apart
  · rw [hflushed]
    exact h.fresh
  · obtain ⟨hkeyed, hheld, hholder, hsingle⟩ := h.holds
    rw [← hflushed] at hkeyed hheld hholder
    exact ⟨hkeyed, hheld, hholder, hsingle⟩

/-- **The flush**: the row clashes with nothing that is written or held. -/
lemma Tally.flush (h : Tally cfg Seen w s γ made) (hk : γ k = .idle) (huser : row.userId ≠ none)
    (hrows : grantConflict s.db.trialGrants.rows row = false)
    (hflushed : grantConflict s.flushed row = false) :
    Tally cfg Seen w { s with flushed := s.flushed ++ [row] } (Function.update γ k (.held row))
      made := by
  have hidle : ∀ trial, γ k ≠ .done trial := by
    rw [hk]
    exact TrialStage.idle_ne
  have hwritten : ∀ g ∈ s.db.trialGrants.rows, ¬ Clash row g :=
    fun g hg => not_clash_of_grantConflict hrows hg
  rw [h.written.grants] at hwritten
  have hnew : ∀ g ∈ (made.map Prod.snd).map StartedTrial.grant ++ s.flushed, ¬ Clash row g := by
    intro g hg
    rcases List.mem_append.mp hg with hg | hg
    · exact hwritten g (List.mem_append_right _ hg)
    · exact not_clash_of_grantConflict hflushed hg
  have hnot : row ∉ s.flushed := fun hmem =>
    not_clash_of_grantConflict hflushed hmem (clash_self huser)
  refine ⟨h.nodup, fun l trial => ?_, h.sound, h.written.kept (TrialsKept.of_db rfl), ?_, ?_,
    h.holds.flush hk huser hnot⟩
  · rw [update_done_iff hidle (TrialStage.held_ne row)]
    exact h.mem l trial
  · dsimp only
    rw [← List.append_assoc]
    refine List.pairwise_append.mpr ⟨h.apart, List.pairwise_singleton _ _, fun a ha b hb => ?_⟩
    rw [List.mem_singleton.mp hb]
    exact fun hclash => hnew a ha hclash.symm
  · dsimp only
    rw [← List.append_assoc]
    intro r hr g hg
    rcases List.mem_append.mp hr with hr | hr
    · exact h.fresh r hr g hg
    · rw [List.mem_singleton.mp hr]
      exact hwritten g (List.mem_append_left _ hg)

lemma Tally.flushed_nodup (h : Tally cfg Seen w s γ made) : s.flushed.Nodup :=
  h.holds.flushed_nodup (List.pairwise_append.mp h.apart).2.1

/-- The rollback leaves what is written. -/
lemma Tally.rollback (h : Tally cfg Seen w s γ made) (hk : γ k = .held row) :
    Tally cfg Seen w { s with flushed := s.flushed.erase row } (Function.update γ k .idle)
      made := by
  have hsub : ((made.map Prod.snd).map StartedTrial.grant ++ s.flushed.erase row).Sublist
      ((made.map Prod.snd).map StartedTrial.grant ++ s.flushed) :=
    List.Sublist.append_left List.erase_sublist _
  refine ⟨h.nodup, fun l trial => ?_, h.sound, h.written.kept (TrialsKept.of_db rfl),
    h.apart.sublist hsub, fun r hr => h.fresh r (hsub.subset hr),
    h.holds.release h.flushed_nodup hk (fun r hr => by cases hr) rfl⟩
  have hheld : ∀ trial, γ k ≠ .done trial := by
    rw [hk]
    exact TrialStage.held_ne row
  rw [update_done_iff hheld TrialStage.idle_ne]
  exact h.mem l trial

/-- The commit writes the end of one trial. -/
lemma trialOf_writeTrial {user : User} {until_ : Time} {norm : Option String} {ip : String}
    {began : Time} {device : Config} {db : Db} (hnew : user.trialUntil = none) (n : ℕ) :
    trialOf (writeTrial user until_ norm ip began device db) n
      = (trialOf db n).map fun old => if user.id = n then some until_ else old := by
  unfold trialOf writeTrial saveAccount
  rw [Table.find_update, Option.map_map, Option.map_map]
  refine Option.map_congr fun cur hcur => ?_
  have hid : cur.id = n := (Table.mem_of_find hcur).2
  dsimp only [Function.comp, num_user]
  by_cases hn : user.id = n
  · rw [if_pos (hid.trans hn.symm), if_pos hn]
    simp [User.merge, column, hnew]
  · rw [if_neg fun heq => hn (heq.symm.trans hid), if_neg hn]

/-- What is written after one more trial, of an account that had none. -/
lemma Written.commit {trials : List StartedTrial} (h : Written w trials s) {user : User}
    {until_ : Time} {norm : Option String} {ip : String} {began : Time} {device : Config}
    (hnew : user.trialUntil = none) (hfirst : ∀ trial ∈ trials, trial.user.id ≠ user.id)
    (hdb : t.db = writeTrial user until_ norm ip began device s.db) :
    Written w (trials ++ [⟨user, newGrant user norm ip began s.db.trialGrants.next, until_,
      { device with id := s.db.configs.next }⟩]) t := by
  refine ⟨?_, ?_, fun n => ?_⟩
  · rw [hdb, List.map_append, ← List.append_assoc, ← h.grants]
    rfl
  · rw [hdb, List.map_append, ← List.append_assoc, ← h.devices]
    rfl
  · rw [hdb, trialOf_writeTrial hnew, h.trials, Option.map_map]
    congr 1
    funext old
    dsimp only [Function.comp]
    rw [List.find?_append]
    by_cases hn : user.id = n
    · have hnone : (trials.find? fun trial => decide (trial.user.id = n)) = none := by
        rw [List.find?_eq_none]
        intro trial htrial heq
        exact hfirst trial htrial ((of_decide_eq_true heq).trans hn.symm)
      simp [hnone, hn]
    · simp [hn]

/-- **The commit**: the held row becomes a written one. -/
lemma Tally.commit (h : Tally cfg Seen w s γ made) {user : User} {until_ : Time}
    {norm : Option String} {ip : String} {began : Time} {device : Config}
    (hk : γ k = .held (newGrant user norm ip began 0)) (hseen : Seen user)
    (hnew : user.trialUntil = none) (hnorm : norm = user.confirmedEmail.map (normaliseEmail cfg))
    (hdevice : device.userId = user.id ∧ device.kind = .trial ∧ device.isActive = true)
    {trial : StartedTrial}
    (htrial : trial = ⟨user, newGrant user norm ip began s.db.trialGrants.next, until_,
      { device with id := s.db.configs.next }⟩) :
    Tally cfg Seen w
      { s with
        db := writeTrial user until_ norm ip began device s.db
        flushed := s.flushed.erase (newGrant user norm ip began 0) }
      (Function.update γ k (.done trial)) (made ++ [(k, trial)]) := by
  have hsound : trial.Sound cfg ∧ Seen trial.user := by
    subst htrial
    exact ⟨⟨rfl, rfl, hnorm, hdevice⟩, hseen⟩
  have hkey : ∀ g, Clash trial.grant g ↔ Clash (newGrant user norm ip began 0) g := by
    subst htrial
    exact fun g => Iff.rfl
  have hmem : newGrant user norm ip began 0 ∈ s.flushed := h.holds.held k _ hk
  have hnotk : ∀ x, (k, x) ∉ made := by
    intro x hx
    have hdone := (h.mem k x).mp hx
    rw [hk] at hdone
    cases hdone
  -- the row moves from the held ones to the end of the written ones
  have hperm : ((made.map Prod.snd).map StartedTrial.grant ++ s.flushed).Perm
      (newGrant user norm ip began 0 :: ((made.map Prod.snd).map StartedTrial.grant
        ++ s.flushed.erase (newGrant user norm ip began 0))) :=
    ((List.perm_cons_erase hmem).append_left _).trans List.perm_middle
  obtain ⟨hrow, hrest⟩ := List.pairwise_cons.mp (h.apart.perm hperm)
  have hperm' : (trial.grant :: ((made.map Prod.snd).map StartedTrial.grant
        ++ s.flushed.erase (newGrant user norm ip began 0))).Perm
      (((made ++ [(k, trial)]).map Prod.snd).map StartedTrial.grant
        ++ s.flushed.erase (newGrant user norm ip began 0)) := by
    simp only [List.map_append, List.map_cons, List.map_nil, List.append_assoc, List.cons_append,
      List.nil_append]
    exact List.perm_middle.symm
  have hfirst : ∀ x ∈ made.map Prod.snd, x.user.id ≠ user.id := by
    intro x hx heq
    obtain ⟨⟨l, y⟩, hy, rfl⟩ := List.mem_map.mp hx
    refine hrow y.grant (List.mem_append_left _ (List.mem_map_of_mem hx)) (Or.inr (Or.inr ?_))
    rw [(h.sound l y hy).1.userId, heq]
    exact ⟨by simp [newGrant], rfl⟩
  refine ⟨?_, fun l x => ?_, fun l x hx => ?_, ?_, ?_, fun r hr g hg => ?_, ?_⟩
  · rw [List.map_append, List.map_singleton]
    refine h.nodup.append (List.nodup_singleton _) (List.disjoint_singleton.mpr fun hk' => ?_)
    obtain ⟨⟨l, x⟩, hx, rfl⟩ := List.mem_map.mp hk'
    exact hnotk x hx
  · rw [List.mem_append, List.mem_singleton]
    by_cases hl : l = k
    · subst hl
      rw [Function.update_self]
      constructor
      · rintro (hx | hx)
        · exact absurd hx (hnotk x)
        · rw [(Prod.mk.inj hx).2]
      · intro hx
        exact Or.inr (by rw [TrialStage.done.inj hx])
    · rw [Function.update_of_ne hl, ← h.mem l x]
      refine ⟨fun hx => hx.resolve_right fun heq => hl (Prod.mk.inj heq).1, Or.inl⟩
  · rcases List.mem_append.mp hx with hx | hx
    · exact h.sound l x hx
    · rw [(Prod.mk.inj (List.mem_singleton.mp hx)).2]
      exact hsound
  · rw [List.map_append, List.map_singleton]
    subst htrial
    exact h.written.commit hnew hfirst rfl
  · refine NoClash.perm (List.pairwise_cons.mpr ⟨fun g hg => ?_, hrest⟩) hperm'
    rw [hkey]
    exact hrow g hg
  · rcases List.mem_cons.mp (hperm'.symm.subset hr) with rfl | hr
    · rw [hkey]
      exact h.fresh _ (List.mem_append_right _ hmem) g hg
    · exact h.fresh r (hperm.symm.subset (List.mem_cons_of_mem _ hr)) g hg
  · exact h.holds.release h.flushed_nodup hk (fun r hr => by cases hr) rfl

/-- **One step** of one session. -/
theorem Tallied.step (h : Tallied cfg Seen w s γ) {g : TrialStage}
    (hstep : GrantStep cfg Seen (γ k) s g t) : Tallied cfg Seen w t (Function.update γ k g) := by
  obtain ⟨made, h⟩ := h
  generalize hγ : γ k = g₀ at hstep
  cases hstep with
  | aside _ hkept hflushed =>
      rw [← hγ, Function.update_eq_self]
      exact ⟨made, h.aside hkept hflushed⟩
  | flush huser hrows hflushed => exact ⟨made, h.flush hγ huser hrows hflushed⟩
  | rollback => exact ⟨made, h.rollback hγ⟩
  | commit hseen hnew hnorm hdevice =>
      exact ⟨_, h.commit hγ hseen hnew hnorm hdevice rfl⟩

end Step

/-- Before the first step. -/
lemma Tally.start {κ : Type} {cfg : Settings} {Seen : User → Prop} {w : World}
    (hw : w.flushed = []) : Tally cfg Seen w w (fun _ : κ => .idle) [] where
  nodup := List.nodup_nil
  mem k trial := by simp
  sound k trial h := by cases h
  written := ⟨by simp, by simp, fun n => by simp⟩
  apart := by simp [hw]
  fresh row hrow := by simp [hw] at hrow
  holds := ⟨by simp [hw], nofun, by simp [hw], nofun⟩

end VpnPortal
