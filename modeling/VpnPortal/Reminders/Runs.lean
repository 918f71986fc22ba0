/-
Runs of `remind_due` beside each other (`pwa/services/notify.py`).

Each statement of a run is a move of its own. A message is inserted under a
savepoint: if a row with its key is committed, or the run has one, the insert
fails alone; if another run holds such a row, it waits until that run has
committed or rolled back. `Services.Notify` has the same function inside the
portal's sessions, where a message becomes a row at the commit.

The users are selected as they are committed when the query runs, in any order.
A user that the first query has loaded keeps its attributes in the second, since
a session has one object per row.

* `Reminder`, `Task`, `dueSubs`, `dueTrials`, `trialTasks`: what a run has to do;
* `Bell`, `Move`, `move`, `exec`: any number of runs, and everybody else;
* `Step`, `step_of_move`: a move leaves the rows alone, or adds, commits or drops one run's.
-/
import VpnPortal.Db.Models

namespace VpnPortal.Reminders

open Tables

/-! ### What a run has to do -/

/-- The reminders of `remind_due`. -/
inductive Reminder where
  | sub3 | sub1 | trial1
  deriving DecidableEq, Repr

/-- The kind of its message. -/
def Reminder.kind : Reminder → NoticeKind
  | .sub3 => .subEnds3d
  | .sub1 => .subEnds1d
  | .trial1 => .trialEnds1d

/-- The key of its message carries the period's end. -/
def Reminder.key : Reminder → Time → DedupeKey
  | .sub3 => .sub3
  | .sub1 => .sub1
  | .trial1 => .trial1

/-- A letter goes with it. -/
def Reminder.letter : Reminder → Bool
  | .sub1 => false
  | _ => true

/-- One call of `notify` that a run makes. -/
structure Task where
  user : User
  reminder : Reminder
  until_ : Time
  deriving DecidableEq, Repr

/-- The paid periods that end within three days. -/
def dueSubs (t : Time) (users : List User) : List User :=
  users.filter fun u =>
    u.isSubscribed ∧ u.subscribedUntil.any fun x => t < x ∧ x ≤ t + days 3

def subTask (t : Time) (u : User) : Task :=
  let until_ := u.subscribedUntil.getD 0
  if until_ ≤ t + days 1 then ⟨u, .sub1, until_⟩ else ⟨u, .sub3, until_⟩

/-- The trials that end within a day. -/
def dueTrials (t : Time) (users : List User) : List User :=
  users.filter fun u => u.trialUntil.any fun x => t < x ∧ x ≤ t + days 1

/-- The session's object for a row: the one already loaded, if there is one. -/
def asLoaded (loaded : List User) (u : User) : User :=
  (loaded.find? fun v => v.id = u.id).getD u

/-- A paid period that is running leaves nothing to remind of the trial. -/
def trialTasks (t : Time) (loaded users : List User) : List Task :=
  (((dueTrials t users).map (asLoaded loaded)).filter fun u =>
    ¬ u.subscribedUntil.any (t < ·)).map fun u => ⟨u, .trial1, u.trialUntil.getD 0⟩

/-! ### The runs -/

/-- A row of `notifications`; `until_` is the date in its text. -/
structure Notice where
  userId : ℕ
  kind : NoticeKind
  until_ : Option Time := none
  dedupeKey : Option DedupeKey := none
  deriving DecidableEq, Repr

def Task.notice (task : Task) : Notice :=
  ⟨task.user.id, task.reminder.kind, some task.until_, some (task.reminder.key task.until_)⟩

/-- The row is kept by `(user_id, dedupe_key)`. -/
def Notice.has (userId : ℕ) (key : DedupeKey) (n : Notice) : Bool :=
  decide (n.userId = userId ∧ n.dedupeKey = some key)

/-- A row with the task's key is there. -/
def Task.taken (task : Task) (rows : List Notice) : Bool :=
  rows.any (Notice.has task.user.id (task.reminder.key task.until_))

/-- A letter on its way. -/
structure Posted where
  userId : ℕ
  address : String
  kind : NoticeKind
  until_ : Time
  deriving DecidableEq, Repr

/-- `_letter`: `mailer.send_later` drops a letter without an address. -/
def Task.posted (task : Task) : List Posted :=
  match task.user.email with
  | none => []
  | some address =>
      if address = "" ∨ task.reminder.letter = false then []
      else [⟨task.user.id, address, task.reminder.kind, task.until_⟩]

/-- Which of its two loops a run is in; after the first query the session keeps
the users it loaded. -/
inductive Part where
  | paid (loaded : List User)
  | trials
  deriving DecidableEq, Repr

/-- Where a run stands: before the query for a duplicate, or before the insert. -/
inductive Stage where
  | idle
  | asking (part : Part) (todo : List Task)
  | adding (part : Part) (task : Task) (todo : List Task)
  | committed
  | aborted
  deriving DecidableEq, Repr

/-- A run and the number it will report. -/
structure Run where
  stage : Stage := .idle
  reminders : ℕ := 0
  deriving DecidableEq, Repr

/-- What the runs share. `held` are the rows that a run has inserted and neither
committed nor rolled back. -/
structure Bell where
  users : Table User
  notices : List Notice := []
  held : List (ℕ × Notice) := []
  letters : List Posted := []
  run : ℕ → Run := fun _ => {}

/-- The rows of run `k` that are not committed. -/
def Bell.own (b : Bell) (k : ℕ) : List Notice :=
  (b.held.filter fun h => h.1 = k).map Prod.snd

/-- The other runs' rows that are not committed. -/
def Bell.others (b : Bell) (k : ℕ) : List Notice :=
  (b.held.filter fun h => h.1 ≠ k).map Prod.snd

/-- All rows, committed or not. -/
def Bell.rows (b : Bell) : List Notice := b.notices ++ b.held.map Prod.snd

/-- Run `k` goes on to `stage`. -/
def Bell.goes (b : Bell) (k : ℕ) (stage : Stage) : Bell :=
  { b with run := Function.update b.run k { b.run k with stage := stage } }

/-- A message that is none of the reminders. -/
def Notice.foreign (n : Notice) : Bool :=
  match n.kind, n.dedupeKey with
  | .subEnds3d, _ | .subEnds1d, _ | .trialEnds1d, _ => false
  | _, some (.sub3 _) | _, some (.sub1 _) | _, some (.trial1 _) => false
  | _, _ => true

inductive Move where
  /-- Other sessions: the users as they leave them, and other messages. -/
  | elsewhere (users : Table User) (posted : List Notice)
  | begin (k : ℕ)
  /-- The query for a duplicate. -/
  | look (k : ℕ)
  /-- The insert under its savepoint. -/
  | insert (k : ℕ)
  /-- The second query. -/
  | trials (k : ℕ)
  | commit (k : ℕ)
  /-- An exception, or the end of the process: the transaction is rolled back. -/
  | abort (k : ℕ)

/-- One move; `none` if it cannot be made now. Run `k` has `now = times k`. -/
def move (times : ℕ → Time) (b : Bell) : Move → Option Bell
  | .elsewhere users posted =>
      if posted.all Notice.foreign then
        some { b with users := users, notices := b.notices ++ posted }
      else none
  | .begin k =>
      match (b.run k).stage with
      | .idle =>
          let subs := dueSubs (times k) b.users.rows
          some (b.goes k (.asking (.paid subs) (subs.map (subTask (times k)))))
      | _ => none
  | .look k =>
      match (b.run k).stage with
      | .asking part (task :: todo) =>
          if task.taken (b.notices ++ b.own k) then some (b.goes k (.asking part todo))
          else some (b.goes k (.adding part task todo))
      | _ => none
  | .insert k =>
      match (b.run k).stage with
      | .adding part task todo =>
          -- `IntegrityError`
          if task.taken (b.notices ++ b.own k) then some (b.goes k (.asking part todo))
          -- the insert waits for the other transaction
          else if task.taken (b.others k) then none
          else some
            { b with
              held := b.held ++ [(k, task.notice)]
              letters := b.letters ++ task.posted
              run := Function.update b.run k
                ⟨.asking part todo, (b.run k).reminders + 1⟩ }
      | _ => none
  | .trials k =>
      match (b.run k).stage with
      | .asking (.paid loaded) [] =>
          some (b.goes k (.asking .trials (trialTasks (times k) loaded b.users.rows)))
      | _ => none
  | .commit k =>
      match (b.run k).stage with
      | .asking .trials [] =>
          some
            { b with
              notices := b.notices ++ b.own k
              held := b.held.filter fun h => h.1 ≠ k
              run := Function.update b.run k { b.run k with stage := .committed } }
      | _ => none
  | .abort k =>
      match (b.run k).stage with
      | .asking _ _ | .adding _ _ _ =>
          some
            { b with
              held := b.held.filter fun h => h.1 ≠ k
              run := Function.update b.run k { b.run k with stage := .aborted } }
      | _ => none

/-- A history. -/
def exec (times : ℕ → Time) : List Move → Bell → Option Bell
  | [], b => some b
  | m :: moves, b => (move times b m).bind (exec times moves)

/-- Before the first run. -/
def start (users : Table User) : Bell := { users := users }

/-! ### What a move can do -/

/-- The tasks a run has yet to do. -/
def Stage.pending : Stage → List Task
  | .asking _ todo => todo
  | .adding _ task todo => task :: todo
  | _ => []

/-- The users a run has loaded in its first query, while it is in the paid part. -/
def Stage.loaded : Stage → List User
  | .asking (.paid loaded) _ | .adding (.paid loaded) _ _ => loaded
  | _ => []

/-- The run is in the paid part. -/
def Stage.isPaid : Stage → Bool
  | .asking (.paid _) _ | .adding (.paid _) _ _ => true
  | _ => false

/-- The run has begun and not ended. -/
def Stage.isActive : Stage → Bool
  | .asking _ _ | .adding _ _ _ => true
  | _ => false

/-- One move of the history, by its effect. -/
inductive Step (times : ℕ → Time) (b : Bell) : Move → Bell → Prop where
  | elsewhere (users : Table User) (posted : List Notice) (h : ∀ n ∈ posted, n.foreign = true) :
      Step times b (.elsewhere users posted)
        { b with users := users, notices := b.notices ++ posted }
  | begin (k : ℕ) (h : (b.run k).stage = .idle) :
      Step times b (.begin k) (b.goes k (.asking (.paid (dueSubs (times k) b.users.rows))
        ((dueSubs (times k) b.users.rows).map (subTask (times k)))))
  | skip (m : Move) (k : ℕ) (part : Part) (task : Task) (todo : List Task)
      (h : (b.run k).stage = .asking part (task :: todo) ∨
        (b.run k).stage = .adding part task todo)
      (htaken : task.taken (b.notices ++ b.own k) = true) :
      Step times b m (b.goes k (.asking part todo))
  | ask (k : ℕ) (part : Part) (task : Task) (todo : List Task)
      (h : (b.run k).stage = .asking part (task :: todo)) :
      Step times b (.look k) (b.goes k (.adding part task todo))
  | insert (k : ℕ) (part : Part) (task : Task) (todo : List Task)
      (h : (b.run k).stage = .adding part task todo)
      (hfree : task.taken (b.notices ++ b.own k) = false)
      (hothers : task.taken (b.others k) = false) :
      Step times b (.insert k)
        { b with
          held := b.held ++ [(k, task.notice)]
          letters := b.letters ++ task.posted
          run := Function.update b.run k ⟨.asking part todo, (b.run k).reminders + 1⟩ }
  | trials (k : ℕ) (loaded : List User) (h : (b.run k).stage = .asking (.paid loaded) []) :
      Step times b (.trials k)
        (b.goes k (.asking .trials (trialTasks (times k) loaded b.users.rows)))
  | commit (k : ℕ) (h : (b.run k).stage = .asking .trials []) :
      Step times b (.commit k)
        { b with
          notices := b.notices ++ b.own k
          held := b.held.filter fun h => h.1 ≠ k
          run := Function.update b.run k { b.run k with stage := .committed } }
  | abort (k : ℕ) (h : (b.run k).stage.isActive = true) :
      Step times b (.abort k)
        { b with
          held := b.held.filter fun h => h.1 ≠ k
          run := Function.update b.run k { b.run k with stage := .aborted } }

/-- **What a move can do.** -/
lemma step_of_move {times : ℕ → Time} {b b' : Bell} {m : Move} (h : move times b m = some b') :
    Step times b m b' := by
  cases m with
  | elsewhere users posted =>
    simp only [move] at h
    split at h
    · next hall =>
      obtain rfl := Option.some.inj h
      exact .elsewhere users posted (by simpa [List.all_eq_true] using hall)
    · cases h
  | begin k =>
    simp only [move] at h
    split at h
    · next hs =>
      obtain rfl := Option.some.inj h
      exact .begin k hs
    · cases h
  | look k =>
    simp only [move] at h
    split at h
    · next part task todo hs =>
      split at h
      · next htaken =>
        obtain rfl := Option.some.inj h
        exact .skip _ k part task todo (.inl hs) htaken
      · obtain rfl := Option.some.inj h
        exact .ask k part task todo hs
    · cases h
  | insert k =>
    simp only [move] at h
    split at h
    · next part task todo hs =>
      split at h
      · next htaken =>
        obtain rfl := Option.some.inj h
        exact .skip _ k part task todo (.inr hs) htaken
      · next hfree =>
        split at h
        · cases h
        · next hothers =>
          obtain rfl := Option.some.inj h
          exact .insert k part task todo hs (by simpa using hfree) (by simpa using hothers)
    · cases h
  | trials k =>
    simp only [move] at h
    split at h
    · next loaded hs =>
      obtain rfl := Option.some.inj h
      exact .trials k loaded hs
    · cases h
  | commit k =>
    simp only [move] at h
    split at h
    · next hs =>
      obtain rfl := Option.some.inj h
      exact .commit k hs
    · cases h
  | abort k =>
    simp only [move] at h
    split at h
    · next hs =>
      obtain rfl := Option.some.inj h
      exact .abort k (by rw [hs]; rfl)
    · next hs =>
      obtain rfl := Option.some.inj h
      exact .abort k (by rw [hs]; rfl)
    · cases h

/-- `P` holds of every move of a history, with the state it is made in. -/
def Along (times : ℕ → Time) (P : Bell → Move → Prop) : List Move → Bell → Prop
  | [], _ => True
  | m :: moves, b => P b m ∧ ∀ b' ∈ move times b m, Along times P moves b'

/-- An invariant of the moves holds at the end of every history. -/
lemma exec_induction {times : ℕ → Time} {P : Bell → Move → Prop} {Inv : Bell → Prop}
    (hstep : ∀ b m b', Inv b → P b m → Step times b m b' → Inv b') {moves : List Move}
    {b b' : Bell} (hb : Inv b) (hP : Along times P moves b) (h : exec times moves b = some b') :
    Inv b' := by
  induction moves generalizing b with
  | nil =>
    obtain rfl := Option.some.inj h
    exact hb
  | cons m moves ih =>
    obtain ⟨c, hc, hrest⟩ := Option.bind_eq_some_iff.mp h
    exact ih (hstep _ _ _ hb hP.1 (step_of_move hc)) (hP.2 c hc) hrest

lemma along_true (times : ℕ → Time) (moves : List Move) (b : Bell) :
    Along times (fun _ _ => True) moves b := by
  induction moves generalizing b with
  | nil => trivial
  | cons m moves ih => exact ⟨trivial, fun b' _ => ih b'⟩

end VpnPortal.Reminders
