/-
The portal's nightly dumps and their copies elsewhere
(`infrastructure/portal/pwa-db-backup`, `infrastructure/portal/pwa-backup-pull`).

A night's dump is written beside the others under another name and moved into place
once it can be read; then the oldest ones are removed and the time is noted in
`LAST_OK`. Another host lists what is there, copies file after file, each of which it
reads before it moves it into place, and lets its copies grow old. Any command of
either may fail, and so may any file alone while others go on; nights and pulls may
overlap in any way. The encryption, the owner and the permissions of the files are
left out; so is a `LAST_OK` that is read while it is written.

* `Hosts`, `night`, `pull`: the two directories and the two scripts;
* `Held`, `Turn`, `follows_job`: what a script in work knows, and the steps it takes: no
  script takes another;
* `Hosts.Sound`, `Turn.sound`: a dump is listed under its name until as many later names
  have been kept, a copy until it is too old; every step keeps that, if what the script
  knows is true (`Held.Right`), and what is known stays true (`Turn.right`);
* `backups_kept`: along every schedule a file of each dump's name stays on the portal until
  `KEEP` later dumps are kept, a file of each copy's name on the other host until one is
  too old, every file is a whole dump, and `LAST_OK` says no more than there is.
-/
import VpnPortal.Sessions.Protocol
import VpnPortal.Tables.Dict
import Mathlib.Data.String.Basic

namespace VpnPortal.Backups

open Sessions Tables

/-! ### The scripts -/

/-- A dump in its file. -/
structure Dump where
  /-- The reading of the clock that its name has. -/
  begun : ℤ
  mtime : ℤ
  content : String
  deriving DecidableEq, Repr, Inhabited

structure Conf where
  /-- `KEEP` -/
  keep : ℕ := 14
  /-- `KEEP_DAYS` -/
  keepDays : ℕ := 30
  /-- `vpn-$(date -u +%Y%m%d-%H%M).dump.age` -/
  name : ℤ → String
  /-- `pg_restore --list | grep -c ' TABLE '` -/
  tables : String → ℕ

/-- Both hosts. -/
structure Hosts where
  /-- `/var/backups/pwa` on the portal -/
  dir : Dict String Dump := Dict.empty
  lastOk : Option ℤ := none
  /-- `/srv/pwa-backups` on the backup host -/
  dest : Dict String Dump := Dict.empty
  destOk : Option ℤ := none
  /-- For the history: the dumps that were moved into place, -/
  kept : List Dump := []
  /-- those that were copied, -/
  pulled : List Dump := []
  /-- and what was noted in `LAST_OK`, with the dump of the night that noted it. -/
  notes : List (ℤ × Dump) := []
  clock : ℤ := 0

/-- What a step meets. -/
structure Input where
  now : ℤ
  /-- The command fails. -/
  fails : Bool
  /-- What `pg_dump` writes. -/
  dump : String

/-- The clock does not go back. -/
def Possible (s : Hosts) (i : Input) : Prop := s.clock ≤ i.now

abbrev Job := Proc Hosts Input Unit

/-- A command that fails, or does this. -/
def command (f : Hosts → Input → Hosts) : Job Bool :=
  Proc.exchange fun s i => if i.fails then (false, s) else (true, f s i)

/-- The reading of the clock. -/
def date : Job ℤ := Proc.exchange fun s i => (i.now, { s with clock := i.now })

/-- `rm -f --`: it goes on after a file that it cannot remove. -/
def remove (ok : Bool) : List String → Job Bool
  | [] => pure ok
  | name :: names => do
      let done ← command fun s _ => { s with dir := s.dir.erase name }
      remove (ok && done) names

/-- The files in the order of a glob. -/
def inOrder (dir : Dict String Dump) : List String :=
  (dir.entries.map Prod.fst).insertionSort (· ≤ ·)

/-- `pwa-db-backup` -/
def night (cfg : Conf) : Job Unit := do
  let begun ← date
  match ← Proc.ask fun i => if i.fails then none else some i.dump with
  | none => .raise ()
  | some content =>
      -- an empty or truncated dump is not kept
      if cfg.tables content < 1 then .raise ()
      else do
        let mtime ← date
        let f : Dump := ⟨begun, mtime, content⟩
        match ← command fun s _ =>
            { s with dir := s.dir.insert (cfg.name f.begun) f, kept := s.kept ++ [f] } with
        | false => .raise ()
        | true => do
            let dumps ← Proc.look fun s => inOrder s.dir
            match ← remove true (dumps.take (dumps.length - cfg.keep)) with
            | false => .raise ()
            | true => do
                match ← command fun s i =>
                    { s with lastOk := some i.now, notes := s.notes ++ [(i.now, f)], clock := i.now } with
                | false => .raise ()
                | true => pure ()

/-- The copy has the time and the size that were listed: `rsync` passes over the file. -/
def isFresh (listed : Dump) (copy : Option Dump) : Bool :=
  copy.any fun x => x.mtime = listed.mtime ∧ x.content.length = listed.content.length

/-- `rsync`, of the files that it has listed: the connection may break; one that cannot be
read or moved into place makes it fail at the end. A copy gets the time that was listed. -/
def copyAll (ok : Bool) : List (String × Dump) → Job Bool
  | [] => pure ok
  | (name, listed) :: rest => do
      match ← Proc.ask fun i => i.fails with
      | true => pure false
      | false => do
          let fresh ← Proc.look fun s => isFresh listed (s.dest.get? name)
          if fresh then copyAll ok rest
          else do
            match ← Proc.exchange fun s i => (if i.fails then none else s.dir.get? name, s) with
            | none => copyAll false rest
            | some f => do
                let x : Dump := { f with mtime := listed.mtime }
                let done ← command fun s _ =>
                  { s with dest := s.dest.insert name x, pulled := s.pulled ++ [x] }
                copyAll (ok && done) rest

/-- `rsync`: `LAST_OK` comes first in its list, if it is there. -/
def copyNote : Job Bool := do
  match ← Proc.look fun s => s.lastOk with
  | none => pure true
  | some _ => do
      match ← Proc.exchange fun s i => (if i.fails then none else s.lastOk, s) with
      | none => pure false
      | some t => command fun s _ => { s with destOk := some t }

/-- `-mtime +"$KEEP_DAYS"` -/
def isOld (cfg : Conf) (now : ℤ) (f : Dump) : Prop := cfg.keepDays < (now - f.mtime) / 86400

instance (cfg : Conf) (now : ℤ) (f : Dump) : Decidable (isOld cfg now f) :=
  inferInstanceAs (Decidable (_ < _))

/-- `find -mtime +"$KEEP_DAYS" -delete`: a file is looked at, then its name is removed. -/
def expireAll (cfg : Conf) (now : ℤ) (ok : Bool) : List String → Job Bool
  | [] => pure ok
  | name :: names => do
      let old ← Proc.look fun s => (s.dest.get? name).any fun f => isOld cfg now f
      if old then do
        let done ← command fun s _ => { s with dest := s.dest.erase name }
        expireAll cfg now (ok && done) names
      else expireAll cfg now ok names

/-- `pwa-backup-pull` -/
def pull (cfg : Conf) : Job Unit := do
  let listed ← Proc.look fun s => s.dir.entries
  let noted ← copyNote
  match ← copyAll noted listed with
  | false => .raise ()
  | true => do
      let now ← date
      let names ← Proc.look fun s => s.dest.entries.map Prod.fst
      match ← expireAll cfg now true names with
      | false => .raise ()
      | true => do
          let dumps ← Proc.look fun s => s.dest.entries
          if dumps.isEmpty then .raise () else pure ()

/-- A run of one of the scripts. -/
inductive Task where
  | night | pull
  deriving DecidableEq, Repr

def Task.job (cfg : Conf) : Task → Job Unit
  | .night => Backups.night cfg
  | .pull => Backups.pull cfg

/-! ### What a script in work does -/

/-- So many dumps that were kept have later names. -/
def Overtaken (cfg : Conf) (kept : List Dump) (name : String) : Prop :=
  ∃ newer : List Dump, newer.length = cfg.keep ∧ (newer.map fun f => cfg.name f.begun).Nodup ∧
    ∀ f ∈ newer, f ∈ kept ∧ name < cfg.name f.begun

/-- One dump is the other, but for its time. -/
def CopyOf (x f : Dump) : Prop := x.begun = f.begun ∧ x.content = f.content

/-- What a script in work knows: a time that it has read, the dump that it kept, the files
that it may remove, a file or a note that it has received, or a copy that is too old. -/
inductive Held where
  | nothing
  | read (now : ℤ)
  | kept (f : Dump)
  | doomed (f : Dump) (names : List String)
  | received (name : String) (x : Dump)
  | stamp (t : ℤ)
  | old (now : ℤ) (name : String)

/-- One step of a script. -/
inductive Turn (cfg : Conf) : Held → Hosts → Held → Hosts → Prop where
  | idle (g : Held) (s : Hosts) : Turn cfg g s g s
  | read (g : Held) (s : Hosts) (now : ℤ) (hnow : s.clock ≤ now) :
      Turn cfg g s (.read now) { s with clock := now }
  | keep (s : Hosts) (f : Dump) (hread : 1 ≤ cfg.tables f.content) : Turn cfg (.read f.mtime) s (.kept f)
        { s with dir := s.dir.insert (cfg.name f.begun) f, kept := s.kept ++ [f] }
  | list (s : Hosts) (f : Dump) : Turn cfg (.kept f) s
      (.doomed f ((inOrder s.dir).take ((inOrder s.dir).length - cfg.keep))) s
  | remove (s : Hosts) (f : Dump) (names : List String) (name : String) (hname : name ∈ names) :
      Turn cfg (.doomed f names) s (.doomed f names) { s with dir := s.dir.erase name }
  | note (s : Hosts) (f : Dump) (names : List String) (now : ℤ) (hnow : s.clock ≤ now) :
      Turn cfg (.doomed f names) s (.doomed f names)
        { s with lastOk := some now, notes := s.notes ++ [(now, f)], clock := now }
  | readNote (g : Held) (s : Hosts) (t : ℤ) (ht : s.lastOk = some t) : Turn cfg g s (.stamp t) s
  | placeNote (s : Hosts) (t : ℤ) : Turn cfg (.stamp t) s .nothing { s with destOk := some t }
  | receive (g : Held) (s : Hosts) (name : String) (f x : Dump) (hf : s.dir.get? name = some f)
      (hx : CopyOf x f) : Turn cfg g s (.received name x) s
  | place (s : Hosts) (name : String) (x : Dump) : Turn cfg (.received name x) s .nothing
        { s with dest := s.dest.insert name x, pulled := s.pulled ++ [x] }
  | age (s : Hosts) (now : ℤ) (name : String) (f : Dump) (hf : s.dest.get? name = some f)
      (hold : isOld cfg now f) : Turn cfg (.read now) s (.old now name) s
  | leave (s : Hosts) (now : ℤ) (name : String) : Turn cfg (.old now name) s (.read now) s
  | expire (s : Hosts) (now : ℤ) (name : String) :
      Turn cfg (.old now name) s (.read now) { s with dest := s.dest.erase name }

section Follows

variable {cfg : Conf} {α : Type} {C : Held → Except Unit α → Prop} {g : Held}

lemma follows_command {f : Hosts → Input → Hosts} {next : Bool → Job α}
    (hfalse : Proc.Follows Possible (Turn cfg) C (next false) g)
    (htrue : ∀ s i, Possible s i → ∃ g', Turn cfg g s g' (f s i) ∧
      Proc.Follows Possible (Turn cfg) C (next true) g') :
    Proc.Follows Possible (Turn cfg) C (command f >>= next) g := by
  refine Proc.Follows.exchange fun s i hi => ?_
  cases i.fails with
  | true => exact ⟨g, .idle g s, hfalse⟩
  | false => exact htrue s i hi

lemma follows_look {β : Type} {q : Hosts → β} {f : β → Job α}
    (h : ∀ b, Proc.Follows Possible (Turn cfg) C (f b) g) :
    Proc.Follows Possible (Turn cfg) C (Proc.look q >>= f) g :=
  Proc.Follows.look fun s => ⟨g, .idle g s, h _⟩

lemma follows_remove {f : Dump} {doomed names : List String} (hsub : names ⊆ doomed) (ok : Bool) :
    Proc.Follows Possible (Turn cfg) (fun g _ => g = .doomed f doomed) (remove ok names)
      (.doomed f doomed) := by
  induction names generalizing ok with
  | nil => rfl
  | cons name names ih =>
    have hrest := fun b => ih (fun n hn => hsub (List.mem_cons_of_mem _ hn)) b
    exact follows_command (hrest _) fun s _ _ =>
      ⟨_, .remove s f doomed name (hsub List.mem_cons_self), hrest _⟩

lemma follows_copyNote (g : Held) :
    Proc.Follows Possible (Turn cfg) (fun _ _ => True) copyNote g := by
  refine follows_look fun noted => ?_
  cases noted with
  | none => trivial
  | some _ =>
    refine Proc.Follows.exchange fun s i _ => ?_
    dsimp only
    cases hread : (if i.fails then none else s.lastOk) with
    | none => exact ⟨g, .idle g s, trivial⟩
    | some t =>
      have ht : s.lastOk = some t := by
        split at hread
        · cases hread
        · exact hread
      refine ⟨_, .readNote g s t ht, fun s i _ => ?_⟩
      dsimp only
      cases i.fails with
      | true => exact ⟨_, .idle _ s, trivial⟩
      | false => exact ⟨_, .placeNote s t, trivial⟩

lemma follows_copyAll (listed : List (String × Dump)) (ok : Bool) (g : Held) :
    Proc.Follows Possible (Turn cfg) (fun _ _ => True) (copyAll ok listed) g := by
  induction listed generalizing ok g with
  | nil => trivial
  | cons head rest ih =>
    obtain ⟨name, listed⟩ := head
    refine Proc.Follows.ask (fun s => .idle _ s) fun _ i _ => ?_
    cases i.fails with
    | true => trivial
    | false =>
      refine follows_look fun fresh => ?_
      cases fresh with
      | true => exact ih ok g
      | false =>
        refine Proc.Follows.exchange fun s i _ => ?_
        dsimp only
        cases hread : (if i.fails then none else s.dir.get? name) with
        | none => exact ⟨g, .idle g s, ih false g⟩
        | some f =>
          have hf : s.dir.get? name = some f := by
            split at hread
            · cases hread
            · exact hread
          exact ⟨_, .receive g s name f { f with mtime := listed.mtime } hf ⟨rfl, rfl⟩,
            follows_command (ih _ _) fun s _ _ => ⟨_, .place s name _, ih _ _⟩⟩

lemma follows_expireAll (now : ℤ) (names : List String) (ok : Bool) :
    Proc.Follows Possible (Turn cfg) (fun _ _ => True) (expireAll cfg now ok names) (.read now) := by
  induction names generalizing ok with
  | nil => trivial
  | cons name names ih =>
    refine Proc.Follows.look fun s => ?_
    cases hold : ((s.dest.get? name).any fun f => isOld cfg now f) with
    | false => exact ⟨_, .idle _ s, ih ok⟩
    | true =>
      obtain ⟨f, hf, hf'⟩ := (Option.any_eq_true _ _).mp hold
      refine ⟨_, .age s now name f hf (of_decide_eq_true hf'), Proc.Follows.exchange fun s i _ => ?_⟩
      cases i.fails with
      | true => exact ⟨_, .leave s now name, ih _⟩
      | false => exact ⟨_, .expire s now name, ih _⟩

lemma follows_date {f : ℤ → Job α}
    (h : ∀ now, Proc.Follows Possible (Turn cfg) C (f now) (.read now)) :
    Proc.Follows Possible (Turn cfg) C (date >>= f) g :=
  Proc.Follows.exchange fun s i hi => ⟨_, .read g s i.now hi, h _⟩

lemma follows_night (cfg : Conf) :
    Proc.Follows Possible (Turn cfg) (fun _ _ => True) (night cfg) .nothing := by
  refine follows_date fun begun => Proc.Follows.ask (fun s => .idle _ s) fun s i _ => ?_
  split
  · trivial
  rename_i content _
  split
  · trivial
  rename_i htables
  refine follows_date fun mtime => follows_command trivial fun s i _ =>
    ⟨_, .keep s ⟨begun, mtime, content⟩ (not_lt.mp htables), ?_⟩
  refine Proc.Follows.look fun s => ⟨_, .list s _, ?_⟩
  refine (follows_remove (List.Subset.refl _) true).bind (fun g ok hg => ?_) fun _ _ _ => trivial
  subst hg
  cases ok with
  | false => trivial
  | true => exact follows_command trivial fun s i hi => ⟨_, .note s _ _ i.now hi, trivial⟩

lemma follows_pull (cfg : Conf) :
    Proc.Follows Possible (Turn cfg) (fun _ _ => True) (pull cfg) .nothing := by
  refine follows_look fun listed => (follows_copyNote _).bind (fun g noted _ => ?_) fun _ _ _ => trivial
  refine (follows_copyAll listed noted g).bind (fun g ok _ => ?_) fun _ _ _ => trivial
  cases ok with
  | false => trivial
  | true =>
    refine follows_date fun now => follows_look fun names => ?_
    refine (follows_expireAll now names true).bind (fun g ok _ => ?_) fun _ _ _ => trivial
    cases ok with
    | false => trivial
    | true =>
      refine follows_look fun dumps => ?_
      split <;> trivial

/-- **Both scripts take such steps only.** -/
lemma follows_job (cfg : Conf) (task : Task) :
    Proc.Follows Possible (Turn cfg) (fun _ _ => True) (task.job cfg) .nothing := by
  cases task with
  | night => exact follows_night cfg
  | pull => exact follows_pull cfg

end Follows

/-! ### What every step keeps -/

/-- A copy of this name has grown too old. -/
def Hosts.Outlived (cfg : Conf) (s : Hosts) (name : String) : Prop :=
  ∃ x ∈ s.pulled, cfg.name x.begun = name ∧ isOld cfg s.clock x

/-- What holds of both hosts. -/
structure Hosts.Sound (cfg : Conf) (s : Hosts) : Prop where
  dir : ∀ name f, s.dir.get? name = some f → f ∈ s.kept ∧ cfg.name f.begun = name
  kept : ∀ f ∈ s.kept, 1 ≤ cfg.tables f.content ∧ f.mtime ≤ s.clock ∧
    (s.dir.get? (cfg.name f.begun) ≠ none ∨ Overtaken cfg s.kept (cfg.name f.begun))
  dest : ∀ name f, s.dest.get? name = some f → f ∈ s.pulled ∧ cfg.name f.begun = name
  pulled : ∀ f ∈ s.pulled, (∃ y ∈ s.kept, CopyOf f y) ∧
    (s.dest.get? (cfg.name f.begun) ≠ none ∨ s.Outlived cfg (cfg.name f.begun))
  notes : ∀ x ∈ s.notes, x.1 ≤ s.clock ∧ x.2.mtime ≤ x.1 ∧ x.2 ∈ s.kept
  noted : ∀ t, s.lastOk = some t ∨ s.destOk = some t → ∃ f, (t, f) ∈ s.notes

/-- What a script knows is true, and stays so. -/
def Held.Right (cfg : Conf) (s : Hosts) : Held → Prop
  | .nothing => True
  | .read now => now ≤ s.clock
  | .kept f => f ∈ s.kept
  | .doomed f names => f ∈ s.kept ∧ ∀ name ∈ names, Overtaken cfg s.kept name
  | .received name x => cfg.name x.begun = name ∧ ∃ y ∈ s.kept, CopyOf x y
  | .stamp t => ∃ f, (t, f) ∈ s.notes
  | .old now name => now ≤ s.clock ∧ s.Outlived cfg name

section Steps

variable {cfg : Conf} {s s' : Hosts} {g g' : Held}

lemma Overtaken.mono {kept kept' : List Dump} {name : String} (h : Overtaken cfg kept name)
    (hsub : kept ⊆ kept') : Overtaken cfg kept' name := by
  obtain ⟨newer, hlen, hnodup, hnewer⟩ := h
  exact ⟨newer, hlen, hnodup, fun f hf => ⟨hsub (hnewer f hf).1, (hnewer f hf).2⟩⟩

/-- Time and history go on. -/
structure Hosts.Before (s s' : Hosts) : Prop where
  clock : s.clock ≤ s'.clock
  kept : s.kept ⊆ s'.kept
  pulled : s.pulled ⊆ s'.pulled
  notes : s.notes ⊆ s'.notes

lemma Hosts.Before.refl (s : Hosts) : s.Before s :=
  ⟨le_rfl, List.Subset.refl _, List.Subset.refl _, List.Subset.refl _⟩

/-- A copy that is too old stays so. -/
lemma isOld.mono {now now' : ℤ} {f : Dump} (h : isOld cfg now f) (hnow : now ≤ now') : isOld cfg now' f :=
  lt_of_lt_of_le h (Int.ediv_le_ediv (by norm_num) (by omega))

lemma Hosts.Outlived.mono {name : String} (h : s.Outlived cfg name) (hlater : s.Before s') :
    s'.Outlived cfg name := by
  obtain ⟨x, hx, hname, hold⟩ := h
  exact ⟨x, hlater.pulled hx, hname, hold.mono hlater.clock⟩

lemma Held.Right.mono (h : g.Right cfg s) (hlater : s.Before s') : g.Right cfg s' := by
  cases g with
  | nothing => trivial
  | read now => exact le_trans h hlater.clock
  | kept f => exact hlater.kept h
  | doomed f names => exact ⟨hlater.kept h.1, fun name hname => (h.2 name hname).mono hlater.kept⟩
  | received name x =>
    obtain ⟨hname, y, hy, hcopy⟩ := h
    exact ⟨hname, y, hlater.kept hy, hcopy⟩
  | stamp t =>
    obtain ⟨f, hf⟩ := h
    exact ⟨f, hlater.notes hf⟩
  | old now name => exact ⟨le_trans h.1 hlater.clock, h.2.mono hlater⟩

lemma Turn.later (h : Turn cfg g s g' s') : s.Before s' := by
  cases h with
  | idle => exact .refl s
  | read _ _ now hnow => exact { Hosts.Before.refl s with clock := hnow }
  | keep _ f => exact { Hosts.Before.refl s with kept := List.subset_append_left _ _ }
  | list => exact .refl s
  | remove => exact ⟨le_rfl, List.Subset.refl _, List.Subset.refl _, List.Subset.refl _⟩
  | note _ _ _ now hnow =>
    exact ⟨hnow, List.Subset.refl _, List.Subset.refl _, List.subset_append_left _ _⟩
  | readNote => exact .refl s
  | placeNote => exact ⟨le_rfl, List.Subset.refl _, List.Subset.refl _, List.Subset.refl _⟩
  | receive => exact .refl s
  | place =>
    exact ⟨le_rfl, List.Subset.refl _, List.subset_append_left _ _, List.Subset.refl _⟩
  | age => exact .refl s
  | leave => exact .refl s
  | expire => exact ⟨le_rfl, List.Subset.refl _, List.Subset.refl _, List.Subset.refl _⟩

/-- **The files that may be removed are overtaken**: those after them in the glob's order
are as many as are to be kept. -/
lemma Hosts.Sound.overtaken (hs : s.Sound cfg) {name : String}
    (h : name ∈ (inOrder s.dir).take ((inOrder s.dir).length - cfg.keep)) :
    Overtaken cfg s.kept name := by
  have hperm : (inOrder s.dir).Perm (s.dir.entries.map Prod.fst) := List.perm_insertionSort _ _
  have hnodup : (inOrder s.dir).Nodup := hperm.nodup_iff.mpr s.dir.nodup
  have hsorted : (inOrder s.dir).Pairwise (· ≤ ·) := List.pairwise_insertionSort _ _
  have hpos := List.length_pos_of_mem h
  rw [List.length_take] at hpos
  generalize inOrder s.dir = names at *
  have hsplit := List.take_append_drop (names.length - cfg.keep) names
  have hfound : ∀ m ∈ names.drop (names.length - cfg.keep), ∃ f ∈ s.kept, cfg.name f.begun = m := by
    intro m hm
    obtain ⟨x, hx, rfl⟩ := List.mem_map.mp (hperm.mem_iff.mp (List.mem_of_mem_drop hm))
    exact ⟨x.2, hs.dir x.1 x.2 (Dict.get?_eq_some_iff.mpr hx)⟩
  choose! dump hdump using hfound
  have hmap : ((names.drop (names.length - cfg.keep)).map dump).map (fun f => cfg.name f.begun) =
      names.drop (names.length - cfg.keep) := by
    rw [List.map_map]
    exact (List.map_congr_left fun m hm => (hdump m hm).2).trans (List.map_id _)
  refine ⟨(names.drop (names.length - cfg.keep)).map dump, ?_, ?_, fun f hf => ?_⟩
  · rw [List.length_map, List.length_drop]
    omega
  · rw [hmap]
    exact hnodup.sublist (List.drop_sublist _ _)
  · obtain ⟨m, hm, rfl⟩ := List.mem_map.mp hf
    refine ⟨(hdump m hm).1, ?_⟩
    rw [(hdump m hm).2]
    rw [← hsplit] at hsorted hnodup
    exact lt_of_le_of_ne ((List.pairwise_append.mp hsorted).2.2 _ h _ hm)
      ((List.nodup_append.mp hnodup).2.2 _ h _ hm)

/-- What a script knows after its step. -/
lemma Turn.right (hs : s.Sound cfg) (hg : g.Right cfg s) (h : Turn cfg g s g' s') : g'.Right cfg s' := by
  have hlater := h.later
  cases h with
  | idle => exact hg
  | read => exact le_rfl
  | keep _ f => exact List.mem_append_right _ (List.mem_singleton_self f)
  | list _ f => exact ⟨hg, fun name hname => hs.overtaken hname⟩
  | remove => exact hg.mono hlater
  | note => exact hg.mono hlater
  | readNote _ _ t ht => exact hs.noted t (.inl ht)
  | placeNote => trivial
  | receive _ _ name f x hf hx =>
    obtain ⟨hkept, hname⟩ := hs.dir name f hf
    exact ⟨by rw [hx.1, hname], f, hkept, hx⟩
  | place => trivial
  | age _ now name f hf hold =>
    obtain ⟨hpulled, hname⟩ := hs.dest name f hf
    exact ⟨hg, f, hpulled, hname, hold.mono hg⟩
  | leave => exact hg.1
  | expire => exact hg.1

lemma Hosts.Sound.later (hs : s.Sound cfg) {now : ℤ} (hnow : s.clock ≤ now) :
    Hosts.Sound cfg { s with clock := now } where
  dir := hs.dir
  kept f hf := ⟨(hs.kept f hf).1, (hs.kept f hf).2.1.trans hnow, (hs.kept f hf).2.2⟩
  dest := hs.dest
  pulled f hf := (hs.pulled f hf).imp_right <| Or.imp_right fun hold =>
    hold.mono { Hosts.Before.refl s with clock := hnow }
  notes x hx := ⟨(hs.notes x hx).1.trans hnow, (hs.notes x hx).2⟩
  noted := hs.noted

/-- A dump is moved into place. -/
lemma Hosts.Sound.keep (hs : s.Sound cfg) {f : Dump} (hread : 1 ≤ cfg.tables f.content)
    (hmtime : f.mtime ≤ s.clock) :
    Hosts.Sound cfg { s with dir := s.dir.insert (cfg.name f.begun) f, kept := s.kept ++ [f] } where
  dir name x hx := by
    rw [Dict.get?_insert] at hx
    split_ifs at hx with hname
    · obtain rfl := Option.some.inj hx
      exact ⟨List.mem_append_right _ (List.mem_singleton_self _), hname.symm⟩
    · exact ⟨List.mem_append_left _ (hs.dir name x hx).1, (hs.dir name x hx).2⟩
  kept x hx := by
    rcases List.mem_append.mp hx with hx | hx
    · obtain ⟨hreadx, hmtimex, hthere⟩ := hs.kept x hx
      refine ⟨hreadx, hmtimex, hthere.imp (fun hthere => ?_) fun hover =>
        hover.mono (List.subset_append_left _ _)⟩
      rw [Dict.get?_insert]
      split_ifs
      · simp
      · exact hthere
    · rw [List.mem_singleton.mp hx]
      refine ⟨hread, hmtime, .inl ?_⟩
      rw [Dict.get?_insert, if_pos rfl]
      simp
  dest := hs.dest
  pulled x hx := by
    obtain ⟨⟨y, hy, hcopy⟩, hthere⟩ := hs.pulled x hx
    exact ⟨⟨y, List.mem_append_left _ hy, hcopy⟩, hthere⟩
  notes x hx := ⟨(hs.notes x hx).1, (hs.notes x hx).2.1, List.mem_append_left _ (hs.notes x hx).2.2⟩
  noted := hs.noted

/-- An overtaken dump is removed. -/
lemma Hosts.Sound.remove (hs : s.Sound cfg) {name : String} (hover : Overtaken cfg s.kept name) :
    Hosts.Sound cfg { s with dir := s.dir.erase name } where
  dir n x hx := by
    rw [Dict.get?_erase] at hx
    split_ifs at hx
    exact hs.dir n x hx
  kept x hx := by
    obtain ⟨hread, hmtime, hthere⟩ := hs.kept x hx
    refine ⟨hread, hmtime, ?_⟩
    by_cases hname : cfg.name x.begun = name
    · exact .inr (hname ▸ hover)
    · refine hthere.imp_left fun hthere => ?_
      rw [Dict.get?_erase, if_neg hname]
      exact hthere
  dest := hs.dest
  pulled := hs.pulled
  notes := hs.notes
  noted := hs.noted

/-- A copy is moved into place. -/
lemma Hosts.Sound.place (hs : s.Sound cfg) {x y : Dump} (hy : y ∈ s.kept) (hcopy : CopyOf x y) :
    Hosts.Sound cfg
      { s with dest := s.dest.insert (cfg.name x.begun) x, pulled := s.pulled ++ [x] } where
  dir := hs.dir
  kept := hs.kept
  dest name f hf := by
    rw [Dict.get?_insert] at hf
    split_ifs at hf with hname
    · obtain rfl := Option.some.inj hf
      exact ⟨List.mem_append_right _ (List.mem_singleton_self _), hname.symm⟩
    · exact ⟨List.mem_append_left _ (hs.dest name f hf).1, (hs.dest name f hf).2⟩
  pulled f hf := by
    rcases List.mem_append.mp hf with hf | hf
    · obtain ⟨hkept, hthere⟩ := hs.pulled f hf
      refine ⟨hkept, hthere.imp (fun hthere => ?_) fun hold => hold.mono
        { Hosts.Before.refl s with pulled := List.subset_append_left _ _ }⟩
      rw [Dict.get?_insert]
      split_ifs
      · simp
      · exact hthere
    · rw [List.mem_singleton.mp hf]
      refine ⟨⟨y, hy, hcopy⟩, .inl ?_⟩
      rw [Dict.get?_insert, if_pos rfl]
      simp
  notes := hs.notes
  noted := hs.noted

/-- A name that a copy has outlived is removed. -/
lemma Hosts.Sound.expire (hs : s.Sound cfg) {name : String} (hold : s.Outlived cfg name) :
    Hosts.Sound cfg { s with dest := s.dest.erase name } where
  dir := hs.dir
  kept := hs.kept
  dest n x hx := by
    rw [Dict.get?_erase] at hx
    split_ifs at hx
    exact hs.dest n x hx
  pulled x hx := by
    obtain ⟨hkept, hthere⟩ := hs.pulled x hx
    refine ⟨hkept, ?_⟩
    by_cases hn : cfg.name x.begun = name
    · exact .inr (hn ▸ hold)
    · refine hthere.imp_left fun hthere => ?_
      rw [Dict.get?_erase, if_neg hn]
      exact hthere
  notes := hs.notes
  noted := hs.noted

/-- **What every step keeps.** -/
lemma Turn.sound (hs : s.Sound cfg) (hg : g.Right cfg s) (h : Turn cfg g s g' s') : s'.Sound cfg := by
  cases h with
  | idle => exact hs
  | read _ _ now hnow => exact hs.later hnow
  | keep _ f hread => exact hs.keep hread hg
  | list => exact hs
  | remove _ f names name hname => exact hs.remove (hg.2 name hname)
  | note _ f names now hnow =>
    have hlater := hs.later hnow
    refine ⟨hlater.dir, hlater.kept, hlater.dest, hlater.pulled, fun x hx => ?_, fun t ht => ?_⟩
    · rcases List.mem_append.mp hx with hx | hx
      · exact hlater.notes x hx
      · rw [List.mem_singleton.mp hx]
        exact ⟨le_rfl, (hs.kept f hg.1).2.1.trans hnow, hg.1⟩
    · rcases ht with ht | ht
      · exact ⟨f, List.mem_append_right _ (by rw [← Option.some.inj ht]; exact List.mem_singleton_self _)⟩
      · obtain ⟨x, hx⟩ := hs.noted t (.inr ht)
        exact ⟨x, List.mem_append_left _ hx⟩
  | readNote => exact hs
  | placeNote _ t =>
    refine ⟨hs.dir, hs.kept, hs.dest, hs.pulled, hs.notes, fun u hu => ?_⟩
    rcases hu with hu | hu
    · exact hs.noted u (.inl hu)
    · obtain rfl := Option.some.inj hu
      exact hg
  | receive => exact hs
  | place _ name x =>
    obtain ⟨rfl, y, hy, hcopy⟩ := hg
    exact hs.place hy hcopy
  | age => exact hs
  | leave => exact hs
  | expire _ now name => exact hs.expire hg.2

end Steps

/-! ### Every run -/

/-- What the scripts are for. -/
structure Assured (cfg : Conf) (s : Hosts) : Prop where
  /-- A dump of whose name no file is on the portal any more was begun before as many
  others. -/
  newest : ∀ f ∈ s.kept, s.dir.get? (cfg.name f.begun) ≠ none ∨
    ∃ newer : List Dump, newer.length = cfg.keep ∧ (newer.map fun x => cfg.name x.begun).Nodup ∧
      ∀ x ∈ newer, x ∈ s.kept ∧ f.begun < x.begun
  /-- Every file, there and here, is a whole dump of its night. -/
  whole : ∀ name f, s.dir.get? name = some f ∨ s.dest.get? name = some f →
    (∃ y ∈ s.kept, CopyOf f y) ∧ cfg.name f.begun = name ∧ 1 ≤ cfg.tables f.content
  /-- Once a copy is there, a file of its name stays until one is too old. -/
  copies : ∀ f ∈ s.pulled, s.dest.get? (cfg.name f.begun) ≠ none ∨ s.Outlived cfg (cfg.name f.begun)
  /-- Whoever reads `LAST_OK` can rely on a dump on the portal, of the night that noted it
  or one with a later name. -/
  fresh : 1 ≤ cfg.keep → ∀ t, s.lastOk = some t ∨ s.destOk = some t →
    ∃ f, (t, f) ∈ s.notes ∧ f.mtime ≤ t ∧
      ∃ name x, s.dir.get? name = some x ∧ cfg.name f.begun ≤ name

section Runs

variable {κ : Type} [DecidableEq κ] {cfg : Conf} {tasks : κ → Task} {sched : List (κ × Input)}

/-- Both directories empty, and all the runs of the scripts to come. -/
def atFirst (cfg : Conf) (tasks : κ → Task) : Cfg κ Hosts Input Unit Unit :=
  ⟨{}, fun k => (tasks k).job cfg⟩

lemma hosts_sound (h : Admitted (fun _ => Possible) (atFirst cfg tasks) sched) :
    ((atFirst cfg tasks).run sched).state.Sound cfg := by
  have hempty : Hosts.Sound cfg {} := by
    refine ⟨fun name f hf => ?_, fun f hf => ?_, fun name f hf => ?_, fun f hf => ?_, fun x hx => ?_,
      fun t ht => ?_⟩
    · cases hf
    · cases hf
    · cases hf
    · cases hf
    · cases hx
    · rcases ht with ht | ht <;> cases ht
  have hstart : (fun (s : Hosts) (γ : κ → Held) => s.Sound cfg ∧ ∀ k, (γ k).Right cfg s)
      (atFirst cfg tasks).state fun _ => .nothing := ⟨hempty, fun _ => trivial⟩
  have hstep : ∀ s (γ : κ → Held) k g' s', (s.Sound cfg ∧ ∀ l, (γ l).Right cfg s) →
      Turn cfg (γ k) s g' s' → s'.Sound cfg ∧ ∀ l, (Function.update γ k g' l).Right cfg s' := by
    intro s γ k g' s' hinv hturn
    refine ⟨hturn.sound hinv.1 (hinv.2 k), fun l => ?_⟩
    by_cases hl : l = k
    · subst hl
      rw [Function.update_self]
      exact hturn.right hinv.1 (hinv.2 l)
    · rw [Function.update_of_ne hl]
      exact (hinv.2 l).mono hturn.later
  obtain ⟨γ, ⟨hsound, -⟩, -⟩ :=
    exists_accounts hstart (fun k => follows_job cfg (tasks k)) hstep h
  exact hsound

/-- The kept dump with the last name is on the portal. -/
lemma Hosts.Sound.last {s : Hosts} (hs : s.Sound cfg) (hkeep : 1 ≤ cfg.keep) {f : Dump} (hf : f ∈ s.kept) :
    ∃ name x, s.dir.get? name = some x ∧ cfg.name f.begun ≤ name := by
  obtain ⟨last, hlast, hmax⟩ :=
    Finset.exists_max_image s.kept.toFinset (fun x => cfg.name x.begun) ⟨f, List.mem_toFinset.mpr hf⟩
  simp only [List.mem_toFinset] at hlast hmax
  obtain ⟨-, -, hthere | ⟨newer, hlen, -, hnewer⟩⟩ := hs.kept last hlast
  · obtain ⟨x, hx⟩ := Option.ne_none_iff_exists'.mp hthere
    exact ⟨_, x, hx, hmax f hf⟩
  · -- none has a later name
    obtain ⟨x, hx⟩ := List.exists_mem_of_length_pos (hlen ▸ hkeep)
    exact absurd (hnewer x hx).2 (not_lt.mpr (hmax x (hnewer x hx).1))

/-- **The backups**: however nights and pulls overlap and whatever commands fail, the
names of the newest dumps stay on the portal, those of the copies stay until one is too
old, every file is a whole dump, and `LAST_OK` does not say more than there is. -/
theorem backups_kept (hnames : Monotone cfg.name)
    (h : Admitted (fun _ => Possible) (atFirst cfg tasks) sched) :
    Assured cfg ((atFirst cfg tasks).run sched).state := by
  have hs := hosts_sound h
  refine ⟨fun f hf => ?_, fun name f hf => ?_, fun f hf => (hs.pulled f hf).2, fun hkeep t ht => ?_⟩
  · refine (hs.kept f hf).2.2.imp_right ?_
    rintro ⟨newer, hlen, hnodup, hnewer⟩
    refine ⟨newer, hlen, hnodup, fun x hx => ⟨(hnewer x hx).1, ?_⟩⟩
    by_contra hle
    exact absurd (hnewer x hx).2 (not_lt.mpr (hnames (not_lt.mp hle)))
  · rcases hf with hf | hf
    · obtain ⟨hkept, hname⟩ := hs.dir name f hf
      exact ⟨⟨f, hkept, rfl, rfl⟩, hname, (hs.kept f hkept).1⟩
    · obtain ⟨hpulled, hname⟩ := hs.dest name f hf
      obtain ⟨y, hy, hcopy⟩ := (hs.pulled f hpulled).1
      exact ⟨⟨y, hy, hcopy⟩, hname, hcopy.2 ▸ (hs.kept y hy).1⟩
  · obtain ⟨f, hf⟩ := hs.noted t ht
    exact ⟨f, hf, (hs.notes _ hf).2.1, hs.last hkeep (hs.notes _ hf).2.2⟩

end Runs

/-- One dump is kept; there are two nights. -/
def twoNights : Conf where
  keep := 1
  name t := if t < 500 then "vpn-20260101-0300.dump.age" else "vpn-20260102-0300.dump.age"
  tables := String.length

lemma monotone_twoNights : Monotone twoNights.name := by
  intro t u htu
  change (if t < 500 then _ else _) ≤ (if u < 500 then _ else _)
  split_ifs with ht hu
  · exact le_rfl
  · decide
  · omega
  · exact le_rfl

/-- The first night, the second night and pulls. -/
def threeRuns : ℕ → Task
  | 0 => .night
  | 1 => .night
  | _ => .pull

/-- Nothing fails. -/
def allWell (_ : ℕ) (s : Hosts) : Input := ⟨s.clock + 100, false, "TABLE"⟩

lemma possible_allWell (k : ℕ) (s : Hosts) : Possible s (allWell k s) :=
  le_add_of_nonneg_right (by norm_num)

/-- One after another. -/
def afterAnother : List (ℕ × Input) :=
  scheduleBy allWell (atFirst twoNights threeRuns)
    (List.replicate 8 0 ++ List.replicate 8 1 ++ List.replicate 12 2)

lemma afterAnother_admitted :
    Admitted (fun _ => Possible) (atFirst twoNights threeRuns) afterAnother :=
  admitted_scheduleBy possible_allWell _ _

/-- The first dump is gone from the portal, the second one is there and has been copied. -/
theorem backups_kept_three :
    (((atFirst twoNights threeRuns).run afterAnother).state.kept.length = 2 ∧
      ((atFirst twoNights threeRuns).run afterAnother).state.dir.entries.length = 1 ∧
      ((atFirst twoNights threeRuns).run afterAnother).state.dest.entries.length = 1) ∧
    Assured twoNights ((atFirst twoNights threeRuns).run afterAnother).state :=
  ⟨by decide, backups_kept monotone_twoNights afterAnother_admitted⟩

end VpnPortal.Backups
