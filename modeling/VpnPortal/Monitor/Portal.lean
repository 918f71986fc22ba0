/-
The portal's side of the monitoring (`pwa/api/monitor.py`,
`pwa/services/monitor_watch.py`): the history of problems and the dead man's
switch.

A report opens an event for every problem that has none open and closes the open
events whose problem it does not carry; a notice is an event that is born closed.
The portal's own event says that the monitor fell silent: `watch` opens it once
the letter about the silence went out and closes it once the all-clear did, and a
report leaves it alone. Times are exact numbers of seconds; a time in a report is
`none` where the monitor sent no number.

* `Event`, `Db`: the two tables;
* `receive`: a report comes in; `none` if it raises, which undoes everything;
* `watch`: one check of the reports;
* `History`: reports and checks one after another.
-/
import VpnPortal.Monitor.Report
import VpnPortal.Tables.Table

namespace VpnPortal.Panel

open Tables Monitor

/-! ### Rows -/

/-- `MonitorEvent.level`: a problem's, or that of a notice. -/
inductive Mark where
  | bad
  | warn
  | info
deriving DecidableEq, Repr

/-- The level of a problem. -/
def Mark.ofLevel : Level → Mark
  | .bad => bad
  | .warn => warn

/-- `MonitorEvent` -/
structure Event where
  id : ℕ
  key : String
  level : Mark
  text : String
  startedAt : ℚ
  endedAt : Option ℚ
deriving DecidableEq

instance : Row Event := ⟨Event.id⟩

/-- When the last report was received, and the events. -/
structure Db where
  receivedAt : Option ℚ := none
  events : Table Event := default

/-- A problem of a report, as it is received. -/
structure Problem where
  key : String
  text : String
  level : Level
  since : Option ℚ

/-- A notice of a report, as it is received, with its `at`. -/
structure Notice where
  key : String
  text : String
  time : Option ℚ

/-- What `receive` reads of a report. -/
structure Report where
  problems : List Problem := []
  notices : List Notice := []

/-! ### A report comes in -/

/-- `SILENT_KEY` -/
def silentKey : String := "portal:monitor-silent"

/-- The first moment a `datetime` can name, and the first it cannot name any more. -/
def datetimeMin : ℚ := -62135596800

def datetimeEnd : ℚ := 253402300800

/-- `_ts`: a time from the backup host's clock, never later than ours. -/
def ts (value : Option ℚ) (now : ℚ) : ℚ :=
  match value with
  | some t => if datetimeMin ≤ t ∧ t < datetimeEnd then min t now else now
  | none => now

/-- `open_by_key`: the open events that are the monitor's. -/
def openByKey (db : Db) : Dict String Event :=
  Dict.empty.update ((db.events.rows.filter fun e => e.endedAt = none ∧ e.key ≠ silentKey).map
    fun e => (e.key, e))

/-- `current` -/
def current (report : Report) : Dict String Problem :=
  Dict.empty.update (report.problems.map fun p => (p.key, p))

/-- An event of `open_by_key` follows its problem or is closed. -/
def turn (now : ℚ) (report : Report) (db : Db) (e : Event) : Event :=
  if (openByKey db).get? e.key = some e then
    match (current report).get? e.key with
    | some p => { e with text := p.text, level := .ofLevel p.level }
    | none => { e with endedAt := some now }
  else e

lemma id_turn (now : ℚ) (report : Report) (db : Db) (e : Event) : (turn now report db e).id = e.id := by
  rw [turn]
  split_ifs
  · split <;> rfl
  · rfl

/-- The event of a problem that has none open. -/
def opened (now : ℚ) (key : String) (p : Problem) (id : ℕ) : Event :=
  ⟨id, key, .ofLevel p.level, p.text, ts p.since now, none⟩

/-- The problems of a report that have no open event. -/
def fresh (report : Report) (db : Db) : List (String × Problem) :=
  (current report).entries.filter fun x => (openByKey db).get? x.1 = none

/-- The events after the problems of a report. -/
def withProblems (now : ℚ) (report : Report) (db : Db) : Table Event :=
  (fresh report db).foldl (fun t x => t.insert (opened now x.1 x.2) fun _ => rfl)
    (db.events.mapRows (turn now report db) (id_turn now report db))

/-- One notice: a row unless an event of its key is as late, up to a quarter of an
hour; a time too early to look back from raises. -/
def withNotice (now : ℚ) (t : Table Event) (n : Notice) : Option (Table Event) :=
  let time := ts n.time now
  if time - 900 < datetimeMin then none
  else if t.rows.any fun e => e.key = n.key ∧ time - 900 ≤ e.startedAt then some t
  else some (t.insert (fun id => ⟨id, n.key, .info, n.text, time, some time⟩) fun _ => rfl)

/-- The events that are not kept: closed, and begun over 90 days ago. -/
def outdated (now : ℚ) (e : Event) : Bool := e.endedAt ≠ none ∧ e.startedAt < now - 90 * 86400

/-- `receive` -/
def receive (now : ℚ) (report : Report) (db : Db) : Option Db := do
  let events ← report.notices.foldlM (withNotice now) (withProblems now report db)
  return ⟨some now, events.filter fun e => !outdated now e⟩

/-! ### The dead man's switch -/

/-- `STALE_AFTER_S` -/
def staleAfterS : ℚ := 600

/-- What a check did. -/
inductive Verdict where
  | noReports
  | silent
  | alertFailed
  | alerted
  | quiet
  | recoveryFailed
  | recovered
deriving DecidableEq, Repr

/-- The open event about the silence. -/
def silence (db : Db) : Option Event :=
  db.events.rows.find? fun e => e.key = silentKey ∧ e.endedAt = none

/-- The event about a silence that began with the last report. -/
def openSilence (last : ℚ) (db : Db) : Db where
  receivedAt := db.receivedAt
  events := db.events.insert
    (fun id => ⟨id, silentKey, .bad, "Мониторинг (am1) молчит", last, none⟩) fun _ => rfl

/-- `open_event.ended_at = now` -/
def closeSilence (now : ℚ) (e : Event) (db : Db) : Db where
  receivedAt := db.receivedAt
  events := db.events.update e.id (fun e => { e with endedAt := some now }) fun _ => rfl

/-- `watch`; `mail` says whether `send_email` delivers the letter. -/
def watch (now : ℚ) (mail : Bool) (db : Db) : Verdict × Db :=
  match db.receivedAt with
  | none => (.noReports, db)
  | some last =>
      if staleAfterS < now - last then
        match silence db with
        | some _ => (.silent, db)
        | none =>
            if mail then (.alerted, openSilence last db) else (.alertFailed, db)
      else
        match silence db with
        | none => (.quiet, db)
        | some e =>
            if mail then (.recovered, closeSilence now e db) else (.recoveryFailed, db)

/-! ### One after another -/

/-- What was done: a report that was accepted, or a check with what it did. -/
inductive Done where
  | received (now : ℚ) (report : Report)
  | watched (now : ℚ) (mail : Bool) (verdict : Verdict)

/-- The reports so far, with their times. -/
def reports (log : List Done) : List (ℚ × Report) :=
  log.filterMap fun d => match d with
    | .received now report => some (now, report)
    | .watched _ _ _ => none

/-- The report does not use the portal's own key. -/
def Foreign (report : Report) : Prop :=
  (∀ p ∈ report.problems, p.key ≠ silentKey) ∧ ∀ n ∈ report.notices, n.key ≠ silentKey

instance (report : Report) : Decidable (Foreign report) :=
  inferInstanceAs (Decidable ((∀ p ∈ report.problems, p.key ≠ silentKey) ∧
    ∀ n ∈ report.notices, n.key ≠ silentKey))

/-- Reports that were accepted and checks, from empty tables; none of them is
earlier than a report before it. -/
inductive History : List Done → Db → Prop where
  | nil : History [] {}
  | receive {log : List Done} {db db' : Db} {now : ℚ} {report : Report} : History log db →
      (∀ r ∈ reports log, r.1 ≤ now) → Foreign report → receive now report db = some db' →
      History (log ++ [.received now report]) db'
  | watch {log : List Done} {db : Db} (now : ℚ) (mail : Bool) : History log db →
      (∀ r ∈ reports log, r.1 ≤ now) →
      History (log ++ [.watched now mail (watch now mail db).1]) (watch now mail db).2

end VpnPortal.Panel
