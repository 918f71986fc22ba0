/-
The app's long-lived sign-in (`pwa/services/app_sessions.py`).

A refresh token is handed to the app once and stored only as its digest. It does
not rotate: every use moves its expiry ahead. An account keeps ten sessions, and
a sign-in past that removes the ones used longest ago; signing out of the app
removes its own session, a reset of the password all of them.

* `AppSession`, `Store`: the rows, no two with one digest;
* `openSession`, `useSession`, `closeSession`, `closeAll`: the endpoints' calls;
* `Action`, `Entry`, `trace`: sequential runs and what they answered.
-/
import VpnPortal.Db.Models

namespace VpnPortal.AppSessions

open Tables

/-- `AppSession` -/
structure AppSession where
  id : ℕ
  userId : ℕ
  tokenHash : String
  createdAt : Time
  lastUsedAt : Time
  expiresAt : Time
  deriving DecidableEq

instance : Row AppSession := ⟨AppSession.id⟩

/-- `APP_SESSION_DAYS` -/
def appSessionDays : ℤ := 90

/-- `MAX_SESSIONS_PER_USER` -/
def maxSessionsPerUser : ℕ := 10

/-- The sessions, with the unique digests of their tokens, and the accounts that
are enabled. -/
structure Store where
  sessions : Table AppSession
  unique : (sessions.rows.map AppSession.tokenHash).Nodup
  active : ℕ → Bool

namespace Store

/-- `delete(AppSession).where(p)` -/
def delete (s : Store) (p : AppSession → Bool) : Store where
  sessions := s.sessions.filter fun r => !p r
  unique := s.unique.sublist (List.filter_sublist.map _)
  active := s.active

/-- A row after a use at `now`. -/
def touched (now : Time) (r : AppSession) : AppSession :=
  { r with lastUsedAt := now, expiresAt := now + days appSessionDays }

lemma num_touched (now : Time) (r : AppSession) : Row.num (touched now r) = Row.num r := rfl

/-- The row `k` was used at `now`. -/
def touch (s : Store) (k : ℕ) (now : Time) : Store where
  sessions := s.sessions.update k (touched now) (num_touched now)
  unique := by
    have h : ((s.sessions.update k (touched now) (num_touched now)).rows.map AppSession.tokenHash)
        = s.sessions.rows.map AppSession.tokenHash := by
      rw [Table.rows_update, List.map_map]
      refine List.map_congr_left fun r _ => ?_
      dsimp only [Function.comp]
      split <;> rfl
    rw [h]
    exact s.unique
  active := s.active

/-- A new row; the unique constraint refuses a digest that is there. -/
def add (s : Store) (user : ℕ) (hash : String) (now : Time) : Store :=
  if h : hash ∈ s.sessions.rows.map AppSession.tokenHash then s
  else
    { sessions := s.sessions.insert
        (fun id => ⟨id, user, hash, now, now, now + days appSessionDays⟩) fun _ => rfl
      unique := by
        rw [Table.rows_insert, List.map_append, List.map_singleton]
        refine List.nodup_append.mpr ⟨s.unique, by simp, ?_⟩
        intro a ha b hb
        rw [List.mem_singleton.mp hb]
        rintro rfl
        exact h ha
      active := s.active }

/-- The sessions of an account, the last used first. -/
def byLastUse (s : Store) (user : ℕ) : List AppSession :=
  (s.sessions.rows.filter fun r => r.userId = user).insertionSort fun a b =>
    b.lastUsedAt ≤ a.lastUsedAt

section Operations

variable (digest : String → String)

/-- The sessions that `open_session` removes for the new one. -/
def stale (s : Store) (user : ℕ) : List AppSession := (s.byLastUse user).drop (maxSessionsPerUser - 1)

/-- `open_session`, with the token it drew and the sessions it evicted. -/
def openSession (s : Store) (user : ℕ) (token : String) (now : Time) : List AppSession × Store :=
  let s := s.delete fun r => r.userId = user ∧ r.expiresAt < now
  let stale := s.stale user
  let s := if stale ≠ [] then s.delete fun r => r.id ∈ stale.map AppSession.id else s
  (stale, s.add user (digest token) now)

/-- `use_session`: the account behind the token. -/
def useSession (s : Store) (token : String) (now : Time) : Option ℕ × Store :=
  if token = "" ∨ 128 < token.length then (none, s)
  else
    match s.sessions.rows.find? fun r => r.tokenHash = digest token with
    | none => (none, s)
    | some row =>
        if row.expiresAt ≤ now then (none, s.delete fun r => r.id = row.id)
        else if s.active row.userId = false then (none, s)
        else (some row.userId, s.touch row.id now)

/-- `close_session` -/
def closeSession (s : Store) (token : String) : Store :=
  if token ≠ "" ∧ token.length ≤ 128 then s.delete fun r => r.tokenHash = digest token else s

/-- `close_all` -/
def closeAll (s : Store) (user : ℕ) : Store := s.delete fun r => r.userId = user

end Operations

/-- An account is enabled or disabled. -/
def setActive (s : Store) (user : ℕ) (b : Bool) : Store :=
  { s with active := fun u => if u = user then b else s.active u }

end Store

/-! ### Runs -/

/-- What happens to the sessions. A sign-in comes with the token that was drawn. -/
inductive Action where
  | login (user : ℕ) (token : String)
  | use (token : String)
  | close (token : String)
  | reset (user : ℕ)
  | setActive (user : ℕ) (b : Bool)

/-- What an action answered: the sessions a sign-in evicted, the account a use found. -/
inductive Answer where
  | opened (evicted : List AppSession)
  | used (user : Option ℕ)
  | done

/-- An action with its time and its answer. -/
structure Entry where
  time : Time
  action : Action
  answer : Answer

section Runs

variable (digest : String → String)

/-- One action. -/
def Store.act (s : Store) (now : Time) : Action → Answer × Store
  | .login user token =>
      let x := s.openSession digest user token now
      (.opened x.1, x.2)
  | .use token =>
      let x := s.useSession digest token now
      (.used x.1, x.2)
  | .close token => (.done, s.closeSession digest token)
  | .reset user => (.done, s.closeAll user)
  | .setActive user b => (.done, s.setActive user b)

/-- The store after the actions. -/
def Store.run (s : Store) : List (Time × Action) → Store
  | [] => s
  | x :: rest => Store.run (s.act digest x.1 x.2).2 rest

/-- The actions with their answers. -/
def Store.trace (s : Store) : List (Time × Action) → List Entry
  | [] => []
  | x :: rest => ⟨x.1, x.2, (s.act digest x.1 x.2).1⟩ :: Store.trace (s.act digest x.1 x.2).2 rest

/-- No sessions yet. -/
def fresh (active : ℕ → Bool) : Store := ⟨⟨[], 0, by simp, by simp⟩, by simp, active⟩

end Runs

end VpnPortal.AppSessions
