/-
The bell (`pwa/services/notify.py`). A message is added to the session and
becomes a row at the caller's commit; the same session sees its own earlier
messages when it looks for a duplicate, which is what the list `sent` is for.
The copy that goes to Telegram is not kept.
-/
import VpnPortal.Portal.World

namespace VpnPortal

open Sessions

/-- A message added to the session, not yet committed. -/
structure NewNotice where
  userId : ℕ
  kind : NoticeKind
  dedupeKey : Option DedupeKey
  deriving DecidableEq, Repr

/-- The messages of a session, written at its commit. -/
def writeNotices (sent : List NewNotice) (db : Db) : Db :=
  sent.foldl (fun db n => db.addNotification n.userId n.kind n.dedupeKey) db

/-- Messages touch the bell only. -/
lemma writeNotices_eq (sent : List NewNotice) (db : Db) :
    writeNotices sent db = { db with
      notifications := sent.foldl (fun t n => post t n.userId n.kind n.dedupeKey)
        db.notifications } := by
  unfold writeNotices
  induction sent generalizing db with
  | nil => rfl
  | cons n sent ih => rw [List.foldl_cons, ih]; rfl

/-- `notify`: `none` if `dedupe` says the message was already sent. -/
def notify (sent : List NewNotice) (user : User) (kind : NoticeKind)
    (dedupe : Option DedupeKey) : Portal (Option NewNotice) :=
  match dedupe with
  | none => pure (some ⟨user.id, kind, none⟩)
  | some key => do
      let exists_ ← select fun db =>
        db.notifications.rows.any (fun n => n.userId = user.id ∧ n.dedupeKey = some key)
          || sent.any (fun n => n.userId = user.id ∧ n.dedupeKey = some key)
      if exists_ then pure none else pure (some ⟨user.id, kind, some key⟩)

/-- `ended`: called by the expiry sweeps when a period's devices have come
off. -/
def ended (sent : List NewNotice) (user : User) (kind : NoticeKind) (until_ : Time) :
    Portal (List NewNotice) := do
  match ← notify sent user kind (some (.ended kind until_)) with
  | none => pure sent
  | some n =>
      if kind = .subEnded then sendLater user.email kind until_
      pure (sent ++ [n])

/-- One reminder of `remind_due`: the message, and the letter that goes with it. -/
def remind (sent : List NewNotice) (user : User) (kind : NoticeKind) (key : DedupeKey)
    (letter : Bool) (until_ : Time) : Portal (List NewNotice) := do
  match ← notify sent user kind (some key) with
  | none => pure sent
  | some n =>
      if letter then sendLater user.email kind until_
      pure (sent ++ [n])

/-- The paid part of `remind_due`. -/
def remindSubs (t : Time) : List User → List NewNotice → Portal (List NewNotice)
  | [], sent => pure sent
  | u :: rest, sent => do
      let until_ := u.subscribedUntil.getD 0
      let sent ← if until_ ≤ t + days 1
        then remind sent u .subEnds1d (.sub1 until_) false until_
        else remind sent u .subEnds3d (.sub3 until_) true until_
      remindSubs t rest sent

/-- The trial part of `remind_due`. -/
def remindTrials (t : Time) : List User → List NewNotice → Portal (List NewNotice)
  | [], sent => pure sent
  | u :: rest, sent => do
      let until_ := u.trialUntil.getD 0
      -- a purchase ends the trial early: nothing to remind
      let sent ← if u.subscribedUntil.any (t < ·) then pure sent
        else remind sent u .trialEnds1d (.trial1 until_) true until_
      remindTrials t rest sent

/-- `remind_due`: reminders before an end; the number of messages made. -/
def remindDue : Portal ℕ := do
  let t ← now
  let subs ← select fun db => db.users.rows.filter fun u =>
    u.isSubscribed ∧ u.subscribedUntil.any (fun x => t < x ∧ x ≤ t + days 3)
  let sent ← remindSubs t subs []
  let trials ← select fun db => db.users.rows.filter fun u =>
    u.trialUntil.any (fun x => t < x ∧ x ≤ t + days 1)
  let sent ← remindTrials t trials sent
  commit (writeNotices sent)
  pure sent.length

end VpnPortal
