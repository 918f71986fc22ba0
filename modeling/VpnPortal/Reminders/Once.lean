/-
A reminder is made at most once.

The key of a message carries the period's end, and a row with the key is
inserted by one run only: the committed rows and the rows still held never have
two with one key.

* `Reminder.Window`: when a run makes a reminder for an end, with the tasks of
  the two queries (`of_mem_subTasks`, `mem_subTasks`, `of_mem_trialTasks`,
  `mem_trialTasks`);
* `Sound`, `Sound.step`: no two rows have one key, committed or held; every move keeps it;
* `Sound.countP_about`: at most one message of a kind about an end.
-/
import VpnPortal.Reminders.Runs

namespace VpnPortal.Reminders

open Tables

/-! ### Windows -/

/-- A run at time `t` makes the reminder for the end `T`. -/
def Reminder.Window : Reminder → Time → Time → Prop
  | .sub3, T, t => T - days 3 ≤ t ∧ t < T - days 1
  | .sub1, T, t => T - days 1 ≤ t ∧ t < T
  | .trial1, T, t => T - days 1 ≤ t ∧ t < T

/-- The task belongs to a run at time `t`. -/
def Task.Timely (t : Time) (task : Task) : Prop := task.reminder.Window task.until_ t

/-- The users of the paid part, with their ends. -/
lemma mem_dueSubs {t : Time} {users : List User} {u : User} :
    u ∈ dueSubs t users ↔ u ∈ users ∧ u.isSubscribed = true ∧
      ∃ T, u.subscribedUntil = some T ∧ t < T ∧ T ≤ t + days 3 := by
  unfold dueSubs
  cases h : u.subscribedUntil with
  | none => simp [h]
  | some T => simp [h]

lemma mem_dueTrials {t : Time} {users : List User} {u : User} :
    u ∈ dueTrials t users ↔ u ∈ users ∧ ∃ T, u.trialUntil = some T ∧ t < T ∧ T ≤ t + days 1 := by
  unfold dueTrials
  cases h : u.trialUntil with
  | none => simp [h]
  | some T => simp [h]

lemma subTask_of_window {t T : Time} {u : User} {r : Reminder} (hu : u.subscribedUntil = some T)
    (hr : r ≠ .trial1) (hw : r.Window T t) : subTask t u = ⟨u, r, T⟩ := by
  unfold subTask
  rw [hu, Option.getD_some]
  cases r with
  | sub3 =>
    rw [if_neg]
    have := hw.2
    linarith
  | sub1 =>
    rw [if_pos]
    have := hw.1
    linarith
  | trial1 => exact absurd rfl hr

/-- A task of the paid part is made for a user with that end, in its window. -/
lemma of_mem_subTasks {t : Time} {users : List User} {task : Task}
    (h : task ∈ (dueSubs t users).map (subTask t)) :
    task.Timely t ∧ task.reminder ≠ .trial1 ∧ task.user ∈ users ∧
      task.user.subscribedUntil = some task.until_ := by
  obtain ⟨u, hu, rfl⟩ := List.mem_map.mp h
  obtain ⟨hmem, -, T, hT, hlt, hle⟩ := mem_dueSubs.mp hu
  have hdays : days 1 < days 3 := by decide
  by_cases h1 : T ≤ t + days 1
  · have hw : Reminder.sub1.Window T t := ⟨by linarith, hlt⟩
    rw [subTask_of_window hT (by decide) hw]
    exact ⟨hw, by simp, hmem, hT⟩
  · have hw : Reminder.sub3.Window T t := ⟨by linarith, by linarith⟩
    rw [subTask_of_window hT (by decide) hw]
    exact ⟨hw, by simp, hmem, hT⟩

/-- A user in a window is in the paid part. -/
lemma mem_subTasks {t T : Time} {users : List User} {u : User} {r : Reminder} (hmem : u ∈ users)
    (hsub : u.isSubscribed = true) (hT : u.subscribedUntil = some T) (hr : r ≠ .trial1)
    (hw : r.Window T t) : ⟨u, r, T⟩ ∈ (dueSubs t users).map (subTask t) := by
  have hdue : u ∈ dueSubs t users := by
    have hdays : days 1 < days 3 := by decide
    have hpos : 0 < days 1 := by decide
    refine mem_dueSubs.mpr ⟨hmem, hsub, T, hT, ?_⟩
    cases r with
    | sub3 => exact ⟨by have := hw.2; linarith, by have := hw.1; linarith⟩
    | sub1 => exact ⟨hw.2, by have := hw.1; linarith⟩
    | trial1 => exact absurd rfl hr
  exact List.mem_map.mpr ⟨u, hdue, subTask_of_window hT hr hw⟩

/-- A task of the trial part is made for a user as it is in the table: one that
the paid part has loaded has a paid period running. -/
lemma of_mem_trialTasks {t : Time} {loaded users : List User} {task : Task}
    (hloaded : ∀ v ∈ loaded, v.subscribedUntil.any (t < ·) = true)
    (h : task ∈ trialTasks t loaded users) :
    task.Timely t ∧ task.reminder = .trial1 ∧ task.user ∈ users ∧
      task.user.trialUntil = some task.until_ := by
  obtain ⟨u, hu, rfl⟩ := List.mem_map.mp h
  obtain ⟨hu', hpaid⟩ := List.mem_filter.mp hu
  obtain ⟨v, hv, rfl⟩ := List.mem_map.mp hu'
  have hfresh : asLoaded loaded v = v := by
    unfold asLoaded
    cases hfind : loaded.find? fun w => w.id = v.id with
    | none => rfl
    | some w =>
      have hw := hloaded w (List.mem_of_find?_eq_some hfind)
      simp [asLoaded, hfind, hw] at hpaid
  obtain ⟨hmem, T, hT, hlt, hle⟩ := mem_dueTrials.mp hv
  have huntil : (asLoaded loaded v).trialUntil.getD 0 = T := by rw [hfresh, hT, Option.getD_some]
  rw [huntil, hfresh]
  exact ⟨⟨by linarith, hlt⟩, rfl, hmem, hT⟩

/-- A user whose trial runs out, and for whom no paid period runs, is in the
trial part. -/
lemma mem_trialTasks {t T : Time} {loaded users : List User} {u : User} (hmem : u ∈ users)
    (hT : u.trialUntil = some T) (hpaid : u.subscribedUntil.any (t < ·) = false)
    (hloaded : ∀ v ∈ loaded, v.id ≠ u.id) (hw : Reminder.trial1.Window T t) :
    ⟨u, .trial1, T⟩ ∈ trialTasks t loaded users := by
  have hdue : u ∈ dueTrials t users :=
    mem_dueTrials.mpr ⟨hmem, T, hT, hw.2, by have := hw.1; linarith⟩
  have hfresh : asLoaded loaded u = u := by
    unfold asLoaded
    rw [List.find?_eq_none.mpr fun v hv => by simpa using hloaded v hv]
    rfl
  refine List.mem_map.mpr ⟨u, List.mem_filter.mpr ⟨List.mem_map.mpr ⟨u, hdue, hfresh⟩, ?_⟩, ?_⟩
  · simp [hpaid]
  · simp [hT]

/-! ### The invariant -/

lemma has_notice (task : Task) (uid : ℕ) (r : Reminder) (T : Time) :
    task.notice.has uid (r.key T) = true ↔
      task.user.id = uid ∧ task.reminder = r ∧ task.until_ = T := by
  have hkey : task.reminder.key task.until_ = r.key T ↔ task.reminder = r ∧ task.until_ = T := by
    cases task.reminder <;> cases r <;> simp [Reminder.key]
  simp [Notice.has, Task.notice, hkey]

lemma not_has_of_foreign {n : Notice} (h : n.foreign = true) (uid : ℕ) (r : Reminder) (T : Time) :
    n.has uid (r.key T) = false := by
  by_contra hne
  have hkey : n.dedupeKey = some (r.key T) := by
    have := by simpa [Notice.has] using hne
    exact this.2
  unfold Notice.foreign at h
  rw [hkey] at h
  cases r <;> cases hk : n.kind <;> simp [hk, Reminder.key] at h

lemma countP_foreign {posted : List Notice} (h : ∀ n ∈ posted, n.foreign = true) (uid : ℕ)
    (r : Reminder) (T : Time) : posted.countP (Notice.has uid (r.key T)) = 0 :=
  List.countP_eq_zero.mpr fun n hn => by simp [not_has_of_foreign (h n hn) uid r T]

/-- The invariant of all histories. -/
structure Sound (times : ℕ → Time) (b : Bell) : Prop where
  pending : ∀ k, ∀ task ∈ (b.run k).stage.pending, task.Timely (times k)
  loaded : ∀ k, ∀ u ∈ (b.run k).stage.loaded, u.subscribedUntil.any (times k < ·) = true
  active : ∀ h ∈ b.held, (b.run h.1).stage.isActive = true
  held : ∀ h ∈ b.held, ∃ task : Task, task.Timely (times h.1) ∧ h.2 = task.notice
  notices : ∀ n ∈ b.notices, n.foreign = true ∨ ∃ task : Task, n = task.notice
  unique : ∀ uid r T, b.rows.countP (Notice.has uid (Reminder.key r T)) ≤ 1

section Steps

variable {times : ℕ → Time} {b : Bell} {k : ℕ}

@[simp] lemma goes_stage_self (stage : Stage) : ((b.goes k stage).run k).stage = stage := by
  simp [Bell.goes]

lemma goes_run_of_ne (stage : Stage) {j : ℕ} (h : j ≠ k) : (b.goes k stage).run j = b.run j := by
  simp [Bell.goes, h]

/-- A move changes what run `k` has loaded only by its queries and its end. -/
lemma loaded_step {m : Move} {b' : Bell} (hstep : Step times b m b') :
    (b'.run k).stage.loaded = (b.run k).stage.loaded ∨ (b'.run k).stage.loaded = [] ∨
      (m = .begin k ∧ (b'.run k).stage.loaded = dueSubs (times k) b.users.rows) := by
  cases hstep with
  | elsewhere users posted _ => exact .inl rfl
  | begin j _ =>
    by_cases hj : k = j
    · subst hj
      exact .inr (.inr ⟨rfl, by rw [goes_stage_self]; rfl⟩)
    · exact .inl (by rw [goes_run_of_ne _ hj])
  | skip m j part task todo hstage _ =>
    by_cases hj : k = j
    · subst hj
      left
      rw [goes_stage_self]
      rcases hstage with h | h <;> rw [h] <;> cases part <;> rfl
    · exact .inl (by rw [goes_run_of_ne _ hj])
  | ask j part task todo hstage =>
    by_cases hj : k = j
    · subst hj
      left
      rw [goes_stage_self, hstage]
      cases part <;> rfl
    · exact .inl (by rw [goes_run_of_ne _ hj])
  | insert j part task todo hstage _ _ =>
    left
    by_cases hj : k = j
    · subst hj
      rw [hstage]
      cases part <;> simp [Stage.loaded]
    · simp [hj]
  | trials j loaded hstage =>
    by_cases hj : k = j
    · subst hj
      exact .inr (.inl (by rw [goes_stage_self]; rfl))
    · exact .inl (by rw [goes_run_of_ne _ hj])
  | commit j hstage =>
    by_cases hj : k = j
    · exact .inr (.inl (by simp [hj, Stage.loaded]))
    · exact .inl (by simp [hj])
  | abort j _ =>
    by_cases hj : k = j
    · exact .inr (.inl (by simp [hj, Stage.loaded]))
    · exact .inl (by simp [hj])

/-- A task that a run has after a move it had before, or takes on by a query. -/
lemma pending_step (hloaded : ∀ u ∈ (b.run k).stage.loaded,
      u.subscribedUntil.any (times k < ·) = true) {m : Move} {b' : Bell}
    (hstep : Step times b m b') {task : Task} (h : task ∈ (b'.run k).stage.pending) :
    task ∈ (b.run k).stage.pending ∨
      (m = .begin k ∧ task ∈ (dueSubs (times k) b.users.rows).map (subTask (times k))) ∨
      (m = .trials k ∧ ∃ loaded, (∀ v ∈ loaded, v.subscribedUntil.any (times k < ·) = true) ∧
        task ∈ trialTasks (times k) loaded b.users.rows) := by
  cases hstep with
  | elsewhere users posted _ => exact .inl h
  | begin j _ =>
    by_cases hj : k = j
    · subst hj
      rw [goes_stage_self] at h
      exact .inr (.inl ⟨rfl, h⟩)
    · rw [goes_run_of_ne _ hj] at h
      exact .inl h
  | skip m j part t todo hstage _ =>
    by_cases hj : k = j
    · subst hj
      rw [goes_stage_self] at h
      left
      rcases hstage with h' | h' <;> rw [h'] <;> exact List.mem_cons_of_mem _ h
    · rw [goes_run_of_ne _ hj] at h
      exact .inl h
  | ask j part t todo hstage =>
    by_cases hj : k = j
    · subst hj
      rw [goes_stage_self] at h
      left
      rw [hstage]
      exact h
    · rw [goes_run_of_ne _ hj] at h
      exact .inl h
  | insert j part t todo hstage _ _ =>
    left
    by_cases hj : k = j
    · subst hj
      rw [hstage]
      exact List.mem_cons_of_mem _ (by simpa [Stage.pending] using h)
    · simpa [hj] using h
  | trials j loaded hstage =>
    by_cases hj : k = j
    · subst hj
      rw [goes_stage_self] at h
      exact .inr (.inr ⟨rfl, loaded, fun v hv => hloaded v (by rw [hstage]; exact hv), h⟩)
    · rw [goes_run_of_ne _ hj] at h
      exact .inl h
  | commit j hstage =>
    by_cases hj : k = j
    · simp [hj, Stage.pending] at h
    · exact .inl (by simpa [hj] using h)
  | abort j _ =>
    by_cases hj : k = j
    · simp [hj, Stage.pending] at h
    · exact .inl (by simpa [hj] using h)

/-- The rows that are not committed are the run's own and the others'. -/
lemma countP_held (b : Bell) (k : ℕ) (p : Notice → Bool) :
    (b.held.map Prod.snd).countP p = (b.own k).countP p + (b.others k).countP p := by
  simp only [Bell.own, Bell.others, List.countP_map]
  rw [List.countP_eq_countP_filter_add b.held _ fun h => decide (h.1 = k)]
  congr 2
  exact List.filter_congr fun h _ => by simp

lemma countP_rows (b : Bell) (k : ℕ) (p : Notice → Bool) :
    b.rows.countP p =
      b.notices.countP p + (b.own k).countP p + (b.others k).countP p := by
  rw [Bell.rows, List.countP_append, countP_held b k, Nat.add_assoc]

/-- A task whose key no row has. -/
lemma countP_eq_zero_of_not_taken {task : Task} {rows : List Notice} (h : task.taken rows = false) :
    rows.countP (Notice.has task.user.id (task.reminder.key task.until_)) = 0 :=
  List.countP_eq_zero.mpr fun n hn => by
    simpa using List.any_eq_false.mp h n hn

/-- The row of an insert is the first with its key. -/
lemma rows_insert {task : Task}
    (hfree : task.taken (b.notices ++ b.own k) = false)
    (hothers : task.taken (b.others k) = false) :
    b.rows.countP (Notice.has task.user.id (task.reminder.key task.until_)) = 0 := by
  have h₁ := countP_eq_zero_of_not_taken hfree
  have h₂ := countP_eq_zero_of_not_taken hothers
  rw [List.countP_append] at h₁
  rw [countP_rows b k]
  omega

/-- What a run loads in its first query has a paid period running. -/
lemma Sound.loaded_step (hs : Sound times b) {m : Move} {b' : Bell} (h : Step times b m b') :
    ∀ u ∈ (b'.run k).stage.loaded, u.subscribedUntil.any (times k < ·) = true := by
  intro u hu
  rcases Reminders.loaded_step (k := k) h with heq | heq | ⟨-, heq⟩ <;> rw [heq] at hu
  · exact hs.loaded k u hu
  · cases hu
  · obtain ⟨-, -, T, hT, hlt, -⟩ := mem_dueSubs.mp hu
    simp [hT, hlt]

lemma Sound.pending_step (hs : Sound times b) {m : Move} {b' : Bell} (h : Step times b m b') :
    ∀ task ∈ (b'.run k).stage.pending, task.Timely (times k) := by
  intro task htask
  rcases Reminders.pending_step (hs.loaded k) h htask with hold | ⟨-, hnew⟩ | ⟨-, loaded, hl, hnew⟩
  · exact hs.pending k task hold
  · exact (of_mem_subTasks hnew).1
  · exact (of_mem_trialTasks hl hnew).1

/-- Rows are held by runs that are going on. -/
lemma Sound.active_step (hs : Sound times b) {m : Move} {b' : Bell} (h : Step times b m b') :
    ∀ e ∈ b'.held, (b'.run e.1).stage.isActive = true := by
  have hgoes : ∀ k stage, stage.isActive = true →
      ∀ e ∈ b.held, ((b.goes k stage).run e.1).stage.isActive = true := by
    intro k stage hactive e he
    by_cases hk : e.1 = k
    · rw [hk, goes_stage_self]
      exact hactive
    · rw [goes_run_of_ne stage hk]
      exact hs.active e he
  have hends : ∀ k (run : Run), ∀ e ∈ b.held.filter (fun e => e.1 ≠ k),
      (Function.update b.run k run e.1).stage.isActive = true := by
    intro k run e he
    obtain ⟨hmem, hne⟩ := List.mem_filter.mp he
    rw [Function.update_of_ne (by simpa using hne)]
    exact hs.active e hmem
  cases h with
  | elsewhere => exact hs.active
  | begin k => exact hgoes k _ rfl
  | skip m k => exact hgoes k _ rfl
  | ask k => exact hgoes k _ rfl
  | trials k => exact hgoes k _ rfl
  | commit k => exact hends k _
  | abort k => exact hends k _
  | insert k part task todo =>
    intro e he
    show (Function.update b.run k _ e.1).stage.isActive = true
    by_cases hk : e.1 = k
    · simp [hk, Stage.isActive]
    · rw [Function.update_of_ne hk]
      rcases List.mem_append.mp he with he | he
      · exact hs.active e he
      · exact absurd (by rw [List.mem_singleton.mp he]) hk

/-- A row that is held was some task of its run. -/
lemma Sound.held_step (hs : Sound times b) {m : Move} {b' : Bell} (h : Step times b m b') :
    ∀ e ∈ b'.held, ∃ task : Task, task.Timely (times e.1) ∧ e.2 = task.notice := by
  cases h with
  | elsewhere => exact hs.held
  | begin => exact hs.held
  | skip => exact hs.held
  | ask => exact hs.held
  | trials => exact hs.held
  | commit => exact fun e he => hs.held e (List.mem_filter.mp he).1
  | abort => exact fun e he => hs.held e (List.mem_filter.mp he).1
  | insert k part task todo hstage =>
    intro e he
    rcases List.mem_append.mp he with he | he
    · exact hs.held e he
    · rw [List.mem_singleton.mp he]
      exact ⟨task, hs.pending k task (by rw [hstage]; exact List.mem_cons_self), rfl⟩

lemma Sound.notices_step (hs : Sound times b) {m : Move} {b' : Bell} (h : Step times b m b') :
    ∀ n ∈ b'.notices, n.foreign = true ∨ ∃ task : Task, n = task.notice := by
  cases h with
  | begin => exact hs.notices
  | skip => exact hs.notices
  | ask => exact hs.notices
  | trials => exact hs.notices
  | insert => exact hs.notices
  | abort => exact hs.notices
  | elsewhere users posted hforeign =>
    intro n hn
    rcases List.mem_append.mp hn with hn | hn
    · exact hs.notices n hn
    · exact .inl (hforeign n hn)
  | commit k =>
    intro n hn
    rcases List.mem_append.mp hn with hn | hn
    · exact hs.notices n hn
    · obtain ⟨e, he, rfl⟩ := List.mem_map.mp hn
      obtain ⟨task, -, htask⟩ := hs.held e (List.mem_filter.mp he).1
      exact .inr ⟨task, htask⟩

/-- **One row per key**: the constraint is checked against the committed rows and
against those still held. -/
lemma Sound.unique_step (hs : Sound times b) {m : Move} {b' : Bell} (h : Step times b m b')
    (uid : ℕ) (r : Reminder) (T : Time) :
    b'.rows.countP (Notice.has uid (r.key T)) ≤ 1 := by
  have hold := hs.unique uid r T
  cases h with
  | begin => exact hold
  | skip => exact hold
  | ask => exact hold
  | trials => exact hold
  | elsewhere users posted hforeign =>
    have hzero : posted.countP (Notice.has uid (r.key T)) = 0 := countP_foreign hforeign uid r T
    simp only [Bell.rows, List.countP_append] at hold ⊢
    omega
  | insert k part task todo _ hfree hothers =>
    have hzero := rows_insert hfree hothers
    simp only [Bell.rows, List.map_append, List.map_cons, List.map_nil, ← List.append_assoc] at *
    rw [List.countP_append, List.countP_singleton]
    split
    · next hhas =>
      obtain ⟨rfl, rfl, rfl⟩ := (has_notice task uid r T).mp hhas
      omega
    · omega
  | commit k =>
    rw [countP_rows b k] at hold
    simp only [Bell.rows, List.countP_append]
    exact hold
  | abort k =>
    rw [countP_rows b k] at hold
    show (b.notices ++ b.others k).countP _ ≤ 1
    rw [List.countP_append]
    omega

/-- **Every move keeps the invariant.** -/
lemma Sound.step (hs : Sound times b) {m : Move} {b' : Bell} (h : Step times b m b') :
    Sound times b' where
  pending _ := hs.pending_step h
  loaded _ := hs.loaded_step h
  active := hs.active_step h
  held := hs.held_step h
  notices := hs.notices_step h
  unique := hs.unique_step h

lemma sound_start (users : Table User) : Sound times (start users) where
  pending k task h := by cases h
  loaded k u h := by cases h
  active h hh := by cases hh
  held h hh := by cases hh
  notices n hn := by cases hn
  unique uid r T := by simp [start, Bell.rows]

end Steps

/-! ### Once -/

/-- The messages of one kind to one account about one end. -/
def about (uid : ℕ) (r : Reminder) (T : Time) (n : Notice) : Bool :=
  decide (n.userId = uid ∧ n.kind = r.kind ∧ n.until_ = some T)

/-- A message about an end is the one with that end in its key. -/
lemma Sound.about_eq {times : ℕ → Time} {b : Bell} (hs : Sound times b) {n : Notice}
    (hn : n ∈ b.notices) (uid : ℕ) (r : Reminder) (T : Time) :
    about uid r T n = n.has uid (r.key T) := by
  rcases hs.notices n hn with hforeign | ⟨task, rfl⟩
  · rw [not_has_of_foreign hforeign]
    unfold Notice.foreign at hforeign
    cases r <;> cases hk : n.kind <;> simp_all [about, Reminder.kind]
  · have hhas := has_notice task uid r T
    have hkind : task.reminder.kind = r.kind ↔ task.reminder = r := by
      cases task.reminder <;> cases r <;> simp [Reminder.kind]
    rw [Bool.eq_iff_iff, hhas]
    simp [about, Task.notice, hkind]

/-- **At most one message** of a kind to an account about an end. -/
lemma Sound.countP_about {times : ℕ → Time} {b : Bell} (hs : Sound times b) (uid : ℕ)
    (r : Reminder) (T : Time) :
    b.notices.countP (about uid r T) = b.notices.countP (Notice.has uid (r.key T)) ∧
      b.notices.countP (about uid r T) ≤ 1 := by
  have heq : b.notices.countP (about uid r T) = b.notices.countP (Notice.has uid (r.key T)) :=
    List.countP_congr fun n hn => by rw [hs.about_eq hn]
  have hle := hs.unique uid r T
  rw [Bell.rows, List.countP_append] at hle
  exact ⟨heq, by omega⟩

end VpnPortal.Reminders
