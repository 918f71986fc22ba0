/-
Reminders are sent once and not missed.

A run whose time lies in the window of a reminder has the task in its hands from
its query on, until a row with the key is there; with all runs of the window
committed the row is committed. A letter goes with the insert of the row, so there
are as many letters as rows while no run of the window is rolled back.

* `SubSeen`, `TrialSeen`: what the runs find of an end;
* `Assured`, `Assured.step`: the task of one run, and that every move keeps it;
* `Tracked`: one end and one reminder through a history, with its letters;
* `exists_in_window`: runs at most a day apart do not step over a window;
* `reminders_once`: **at most one message of a kind about an end**, and exactly one, with
  its letter, if the runs of the days before it commit and find the end set and flagged;
  `no_letter_without_mailbox`: an account without an address.
-/
import VpnPortal.Reminders.Once

namespace VpnPortal.Reminders

open Tables

/-! ### Not missed -/

/-- The account has a mailbox. -/
def hasMailbox (u : User) : Bool := u.email.any fun address => decide (address ≠ "")

/-- Whenever a run in the last three days before `T` selects the paid periods,
account `uid` is flagged with that end. -/
def SubSeen (times : ℕ → Time) (uid : ℕ) (T : Time) (mail : Bool) (b : Bell) : Move → Prop
  | .begin k => T - days 3 ≤ times k → times k < T →
      ∃ u ∈ b.users.rows, u.id = uid ∧ u.isSubscribed = true ∧ u.subscribedUntil = some T ∧
        hasMailbox u = mail
  | _ => True

/-- Whenever a run in the last day before `T` looks, the trial of account `uid`
ends at `T` and no paid period is running. -/
def TrialSeen (times : ℕ → Time) (uid : ℕ) (T : Time) (mail : Bool) (b : Bell) : Move → Prop
  | .begin k => T - days 1 ≤ times k → times k < T →
      ∀ u ∈ b.users.rows, u.id = uid → u.subscribedUntil.any (times k < ·) = false
  | .trials k => T - days 1 ≤ times k → times k < T →
      ∃ u ∈ b.users.rows, u.id = uid ∧ u.trialUntil = some T ∧
        u.subscribedUntil.any (times k < ·) = false ∧ hasMailbox u = mail
  | _ => True

/-- What the runs see of the end a reminder is about. -/
def Reminder.Seen (r : Reminder) : (ℕ → Time) → ℕ → Time → Bool → Bell → Move → Prop :=
  if r = .trial1 then TrialSeen else SubSeen

/-- The run has not come to the reminder yet, or never will. -/
def Before (r : Reminder) (stage : Stage) : Prop :=
  stage = .idle ∨ stage = .aborted ∨ (r = .trial1 ∧ stage.isPaid = true)

/-- Run `k` will make the reminder, or sees that it is made. -/
def Assured (r : Reminder) (uid : ℕ) (T : Time) (b : Bell) (k : ℕ) : Prop :=
  Before r (b.run k).stage ∨
    (∃ task ∈ (b.run k).stage.pending, task.user.id = uid ∧ task.reminder = r ∧ task.until_ = T) ∨
    ∃ n ∈ b.notices ++ b.own k, n.has uid (r.key T) = true

section Assurance

variable {times : ℕ → Time} {r : Reminder} {uid : ℕ} {T : Time} {b : Bell} {k : ℕ}

/-- Rows do not go away under a run that stays where it is. -/
lemma Assured.mono {b' : Bell} (h : Assured r uid T b k) (hrun : (b'.run k).stage = (b.run k).stage)
    (hrows : ∀ n ∈ b.notices ++ b.own k, n ∈ b'.notices ++ b'.own k) : Assured r uid T b' k := by
  unfold Assured at h ⊢
  rw [hrun]
  rcases h with h | h | ⟨n, hn, hhas⟩
  · exact .inl h
  · exact .inr (.inl h)
  · exact .inr (.inr ⟨n, hrows n hn, hhas⟩)

lemma Assured.goes_of_ne (h : Assured r uid T b k) {j : ℕ} (hj : k ≠ j) (stage : Stage) :
    Assured r uid T (b.goes j stage) k :=
  h.mono (by rw [goes_run_of_ne stage hj]) fun n hn => hn

/-- A task that is dropped because its key is taken was not needed. -/
lemma Assured.skip (h : Assured r uid T b k) {part : Part} {task : Task} {todo : List Task}
    (hstage : (b.run k).stage = .asking part (task :: todo) ∨
      (b.run k).stage = .adding part task todo)
    (htaken : task.taken (b.notices ++ b.own k) = true) :
    Assured r uid T (b.goes k (.asking part todo)) k := by
  have hpending : (b.run k).stage.pending = task :: todo := by
    rcases hstage with h | h <;> rw [h] <;> rfl
  rcases h with hbefore | ⟨t, ht, htask⟩ | hrow
  · refine .inl (.inr (.inr ?_))
    rcases hbefore with h | h | ⟨hr, hpaid⟩
    · rcases hstage with h' | h' <;> rw [h'] at h <;> cases h
    · rcases hstage with h' | h' <;> rw [h'] at h <;> cases h
    · refine ⟨hr, ?_⟩
      rw [goes_stage_self]
      rcases hstage with h' | h' <;> rw [h'] at hpaid <;> cases part <;> first | rfl | cases hpaid
  · rw [hpending] at ht
    rcases List.mem_cons.mp ht with rfl | ht
    · obtain ⟨n, hn, hhas⟩ := List.any_eq_true.mp htaken
      obtain ⟨rfl, rfl, rfl⟩ := htask
      exact .inr (.inr ⟨n, hn, hhas⟩)
    · exact .inr (.inl ⟨t, by rw [goes_stage_self]; exact ht, htask⟩)
  · exact .inr (.inr hrow)

lemma own_filter_ne (held : List (ℕ × Notice)) {j : ℕ} (hj : k ≠ j) :
    ((held.filter fun h => h.1 ≠ j).filter fun h => h.1 = k) = held.filter fun h => h.1 = k := by
  rw [List.filter_filter]
  refine List.filter_congr fun h _ => ?_
  by_cases hk : h.1 = k
  · simp [hk, hj]
  · simp [hk]

lemma Reminder.Window.sub (hr : r ≠ .trial1) {t : Time} (hw : r.Window T t) :
    T - days 3 ≤ t ∧ t < T := by
  have hdays : days 1 < days 3 := by decide
  have hpos : 0 < days 1 := by decide
  cases r with
  | sub3 => exact ⟨hw.1, by have := hw.2; linarith⟩
  | sub1 => exact ⟨by have := hw.1; linarith, hw.2⟩
  | trial1 => exact absurd rfl hr

lemma seen_sub (hr : r ≠ .trial1) {mail : Bool} {m : Move} (h : r.Seen times uid T mail b m) :
    SubSeen times uid T mail b m := by
  unfold Reminder.Seen at h
  rwa [if_neg hr] at h

lemma seen_trial (hr : r = .trial1) {mail : Bool} {m : Move} (h : r.Seen times uid T mail b m) :
    TrialSeen times uid T mail b m := by
  unfold Reminder.Seen at h
  rwa [if_pos hr] at h

/-- A run that begins in the window takes the task on. -/
lemma assured_begin {mail : Bool} (hseen : r.Seen times uid T mail b (.begin k))
    (hw : r.Window T (times k)) :
    Assured r uid T (b.goes k (.asking (.paid (dueSubs (times k) b.users.rows))
      ((dueSubs (times k) b.users.rows).map (subTask (times k))))) k := by
  by_cases hr : r = .trial1
  · exact .inl (.inr (.inr ⟨hr, by rw [goes_stage_self]; rfl⟩))
  · obtain ⟨hlow, hhigh⟩ := hw.sub hr
    obtain ⟨u, hu, hid, hsub, hT, -⟩ := seen_sub hr hseen hlow hhigh
    refine .inr (.inl ⟨⟨u, r, T⟩, ?_, hid, rfl, rfl⟩)
    rw [goes_stage_self]
    exact mem_subTasks hu hsub hT hr hw

/-- The trial's task is taken on by the second query. -/
lemma assured_trials {mail : Bool} {loaded : List User} (h : Assured r uid T b k)
    (hstage : (b.run k).stage = .asking (.paid loaded) [])
    (haside : r = .trial1 → ∀ u ∈ (b.run k).stage.loaded, u.id ≠ uid)
    (hseen : r.Seen times uid T mail b (.trials k)) (hw : r.Window T (times k)) :
    Assured r uid T (b.goes k (.asking .trials (trialTasks (times k) loaded b.users.rows))) k := by
  by_cases hr : r = .trial1
  · subst hr
    obtain ⟨u, hu, rfl, hT, hpaid, -⟩ := seen_trial rfl hseen hw.1 hw.2
    refine .inr (.inl ⟨⟨u, .trial1, T⟩, ?_, rfl, rfl, rfl⟩)
    rw [goes_stage_self]
    refine mem_trialTasks hu hT hpaid (fun v hv => haside rfl v ?_) hw
    rw [hstage]
    exact hv
  · rcases h with hbefore | ⟨t, ht, -⟩ | hrow
    · rw [hstage] at hbefore
      rcases hbefore with h | h | ⟨h, -⟩
      · cases h
      · cases h
      · exact absurd h hr
    · rw [hstage] at ht
      cases ht
    · exact .inr (.inr hrow)

lemma Assured.insert (h : Assured r uid T b k) {j : ℕ} {part : Part} {task : Task}
    {todo : List Task} (hstage : (b.run j).stage = .adding part task todo) :
    Assured r uid T
      { b with
        held := b.held ++ [(j, task.notice)]
        letters := b.letters ++ task.posted
        run := Function.update b.run j ⟨.asking part todo, (b.run j).reminders + 1⟩ } k := by
  set b' : Bell :=
    { b with
      held := b.held ++ [(j, task.notice)]
      letters := b.letters ++ task.posted
      run := Function.update b.run j ⟨.asking part todo, (b.run j).reminders + 1⟩ } with hb'
  have hrows : ∀ n ∈ b.notices ++ b.own k, n ∈ b'.notices ++ b'.own k := by
    intro n hn
    rcases List.mem_append.mp hn with hn | hn
    · exact List.mem_append_left _ hn
    · refine List.mem_append_right _ ?_
      simp only [hb', Bell.own, List.filter_append, List.map_append]
      exact List.mem_append_left _ hn
  by_cases hjk : k = j
  · subst hjk
    have hnew : (b'.run k).stage = .asking part todo := by simp [hb']
    rcases h with hbefore | ⟨t, ht, htask⟩ | ⟨n, hn, hhas⟩
    · refine .inl (.inr (.inr ?_))
      rw [hstage] at hbefore
      rcases hbefore with h | h | ⟨hr, hpaid⟩
      · cases h
      · cases h
      · refine ⟨hr, ?_⟩
        rw [hnew]
        cases part <;> first | rfl | cases hpaid
    · rw [hstage] at ht
      rcases List.mem_cons.mp ht with rfl | ht
      · refine .inr (.inr ⟨t.notice, List.mem_append_right _ ?_, (has_notice t uid r T).mpr htask⟩)
        simp [hb', Bell.own]
      · exact .inr (.inl ⟨t, by rw [hnew]; exact ht, htask⟩)
    · exact .inr (.inr ⟨n, hrows n hn, hhas⟩)
  · exact h.mono (by simp [hb', hjk]) hrows

lemma Assured.commit (h : Assured r uid T b k) {j : ℕ}
    (hstage : (b.run j).stage = .asking .trials []) :
    Assured r uid T
      { b with
        notices := b.notices ++ b.own j
        held := b.held.filter fun h => h.1 ≠ j
        run := Function.update b.run j { b.run j with stage := .committed } } k := by
  by_cases hjk : k = j
  · subst hjk
    rcases h with hbefore | ⟨t, ht, -⟩ | ⟨n, hn, hhas⟩
    · rw [hstage] at hbefore
      rcases hbefore with h | h | ⟨-, h⟩ <;> cases h
    · rw [hstage] at ht
      cases ht
    · exact .inr (.inr ⟨n, List.mem_append_left _ hn, hhas⟩)
  · refine h.mono (by simp [hjk]) fun n hn => ?_
    rcases List.mem_append.mp hn with hn | hn
    · exact List.mem_append_left _ (List.mem_append_left _ hn)
    · refine List.mem_append_right _ ?_
      unfold Bell.own at hn ⊢
      rwa [own_filter_ne b.held hjk]

/-- **A run keeps the reminder in its hands** from its query to its commit. -/
lemma Assured.step {mail : Bool} (h : Assured r uid T b k)
    (haside : r = .trial1 → ∀ u ∈ (b.run k).stage.loaded, u.id ≠ uid)
    (hw : r.Window T (times k)) {m : Move} (hseen : r.Seen times uid T mail b m) {b' : Bell}
    (hstep : Step times b m b') : Assured r uid T b' k := by
  cases hstep with
  | elsewhere users posted _ =>
    refine h.mono rfl fun n hn => ?_
    rcases List.mem_append.mp hn with hn | hn
    · exact List.mem_append_left _ (List.mem_append_left _ hn)
    · exact List.mem_append_right _ hn
  | begin j _ =>
    by_cases hj : k = j
    · subst hj
      exact assured_begin hseen hw
    · exact h.goes_of_ne hj _
  | skip m j part task todo hstage htaken =>
    by_cases hj : k = j
    · subst hj
      exact h.skip hstage htaken
    · exact h.goes_of_ne hj _
  | ask j part task todo hstage =>
    by_cases hj : k = j
    · subst hj
      rcases h with hbefore | htask | hrow
      · rw [hstage] at hbefore
        rcases hbefore with h | h | ⟨hr, hpaid⟩
        · cases h
        · cases h
        · refine .inl (.inr (.inr ⟨hr, ?_⟩))
          rw [goes_stage_self]
          cases part <;> exact hpaid
      · rw [hstage] at htask
        exact .inr (.inl (by rw [goes_stage_self]; exact htask))
      · exact .inr (.inr hrow)
    · exact h.goes_of_ne hj _
  | insert j part task todo hstage _ _ => exact h.insert hstage
  | trials j loaded hstage =>
    by_cases hj : k = j
    · subst hj
      exact assured_trials h hstage haside hseen hw
    · exact h.goes_of_ne hj _
  | commit j hstage => exact h.commit hstage
  | abort j _ =>
    by_cases hj : k = j
    · subst hj
      exact .inl (.inr (.inl (by simp)))
    · refine h.mono (by simp [hj]) fun n hn => ?_
      unfold Bell.own at hn ⊢
      rwa [own_filter_ne b.held hj]

/-- The letters of one kind to one account about one end. -/
def letterAbout (uid : ℕ) (r : Reminder) (T : Time) (l : Posted) : Bool :=
  decide (l.userId = uid ∧ l.kind = r.kind ∧ l.until_ = T)

/-- One account, one end and one reminder followed through a history. -/
structure Tracked (times : ℕ → Time) (r : Reminder) (uid : ℕ) (T : Time) (mail : Bool)
    (b : Bell) : Prop where
  sound : Sound times b
  aside : r = .trial1 → ∀ k, r.Window T (times k) → ∀ u ∈ (b.run k).stage.loaded, u.id ≠ uid
  assured : ∀ k, r.Window T (times k) → Assured r uid T b k
  mailed : ∀ k, ∀ task ∈ (b.run k).stage.pending, task.user.id = uid → task.reminder = r →
    task.until_ = T → hasMailbox task.user = mail
  counted : (∀ k, r.Window T (times k) → (b.run k).stage ≠ .aborted) →
    b.letters.countP (letterAbout uid r T) =
      if mail && r.letter then b.rows.countP (Notice.has uid (r.key T)) else 0

lemma tracked_start (times : ℕ → Time) (r : Reminder) (uid : ℕ) (T : Time) (mail : Bool)
    (users : Table User) : Tracked times r uid T mail (start users) where
  sound := sound_start users
  aside _ k _ u hu := by cases hu
  assured k _ := .inl (.inl rfl)
  mailed k task h := by cases h
  counted _ := by simp [start, Bell.rows]

lemma aside_step {mail : Bool} (hr : r = .trial1) (hw : r.Window T (times k))
    (h : ∀ u ∈ (b.run k).stage.loaded, u.id ≠ uid) {m : Move}
    (hseen : r.Seen times uid T mail b m) {b' : Bell} (hstep : Step times b m b') :
    ∀ u ∈ (b'.run k).stage.loaded, u.id ≠ uid := by
  intro u hu hid
  rcases loaded_step (k := k) hstep with heq | heq | ⟨rfl, heq⟩ <;> rw [heq] at hu
  · exact h u hu hid
  · cases hu
  · obtain ⟨hmem, -, T', hT', hlt, -⟩ := mem_dueSubs.mp hu
    subst hr
    have hnone := seen_trial rfl hseen hw.1 hw.2 u hmem hid
    simp [hT', hlt] at hnone

lemma mail_step {mail : Bool} (hs : Sound times b)
    (h : ∀ task ∈ (b.run k).stage.pending, task.user.id = uid → task.reminder = r →
      task.until_ = T → hasMailbox task.user = mail) {m : Move}
    (hseen : r.Seen times uid T mail b m) {b' : Bell} (hstep : Step times b m b') :
    ∀ task ∈ (b'.run k).stage.pending, task.user.id = uid → task.reminder = r →
      task.until_ = T → hasMailbox task.user = mail := by
  intro task htask hid hr hT
  rcases pending_step (hs.loaded k) hstep htask with hold | ⟨rfl, hnew⟩ | ⟨rfl, loaded, hloaded, hnew⟩
  · exact h task hold hid hr hT
  · obtain ⟨htimely, hne, hmem, -⟩ := of_mem_subTasks hnew
    rw [hr] at hne
    have hw : r.Window T (times k) := by rw [← hr, ← hT]; exact htimely
    obtain ⟨hlow, hhigh⟩ := hw.sub hne
    obtain ⟨u, hu, huid, -, -, hmail⟩ := seen_sub hne hseen hlow hhigh
    rw [← hmail, Table.eq_of_num_eq hmem hu (by simp [hid, huid])]
  · obtain ⟨htimely, htrial, hmem, -⟩ := of_mem_trialTasks hloaded hnew
    have hw : r.Window T (times k) := by rw [← hr, ← hT]; exact htimely
    have hrt : r = .trial1 := hr.symm.trans htrial
    subst hrt
    obtain ⟨u, hu, huid, -, -, hmail⟩ := seen_trial rfl hseen hw.1 hw.2
    rw [← hmail, Table.eq_of_num_eq hmem hu (by simp [hid, huid])]

/-- The letters of an insert: one if the account has a mailbox and a letter goes
with the reminder. -/
lemma countP_posted (task : Task) (uid : ℕ) (r : Reminder) (T : Time) :
    task.posted.countP (letterAbout uid r T) =
      if task.user.id = uid ∧ task.reminder = r ∧ task.until_ = T ∧
        (hasMailbox task.user && r.letter) = true then 1 else 0 := by
  have hkind : task.reminder.kind = r.kind ↔ task.reminder = r := by
    cases task.reminder <;> cases r <;> simp [Reminder.kind]
  unfold Task.posted hasMailbox
  cases hemail : task.user.email with
  | none => simp
  | some address =>
    by_cases hr : task.reminder = r
    · subst hr
      by_cases hempty : address = ""
      · simp [hempty]
      · cases task.reminder.letter <;> simp [hempty, letterAbout]
    · cases hletter : task.reminder.letter <;> by_cases hempty : address = "" <;>
        simp [hempty, hr, letterAbout, hkind]

/-- An aborted run stays so. -/
lemma aborted_step {m : Move} {b' : Bell} (hstep : Step times b m b')
    (h : (b.run k).stage = .aborted) : (b'.run k).stage = .aborted := by
  have hne : ∀ j, (b.run j).stage ≠ .aborted → k ≠ j := by
    rintro j hj rfl
    exact hj h
  cases hstep with
  | elsewhere users posted _ => exact h
  | begin j hstage => rw [goes_run_of_ne _ (hne j (by simp [hstage]))]; exact h
  | skip m j part task todo hstage _ =>
    rw [goes_run_of_ne _ (hne j (by rcases hstage with h' | h' <;> simp [h']))]
    exact h
  | ask j part task todo hstage => rw [goes_run_of_ne _ (hne j (by simp [hstage]))]; exact h
  | insert j part task todo hstage _ _ => simpa [hne j (by simp [hstage])] using h
  | trials j loaded hstage => rw [goes_run_of_ne _ (hne j (by simp [hstage]))]; exact h
  | commit j hstage => simpa [hne j (by simp [hstage])] using h
  | abort j hactive =>
    simpa [hne j (fun h' => by rw [h'] at hactive; cases hactive)] using h

/-- Outside the window a run holds no row of the reminder. -/
lemma Sound.own_eq_zero (hs : Sound times b) (hw : ¬ r.Window T (times k)) :
    (b.own k).countP (Notice.has uid (r.key T)) = 0 := by
  refine List.countP_eq_zero.mpr fun n hn hhas => ?_
  obtain ⟨e, he, rfl⟩ := List.mem_map.mp hn
  obtain ⟨hmem, hk⟩ := List.mem_filter.mp he
  obtain ⟨task, htimely, htask⟩ := hs.held e hmem
  rw [htask] at hhas
  obtain ⟨-, hr, hT⟩ := (has_notice task uid r T).mp hhas
  have hek : e.1 = k := by simpa using hk
  unfold Task.Timely at htimely
  rw [hr, hT, hek] at htimely
  exact hw htimely

/-- **One letter per row**, as long as no run of the window is rolled back. -/
lemma Tracked.counted_step {mail : Bool} (h : Tracked times r uid T mail b) {m : Move} {b' : Bell}
    (hstep : Step times b m b')
    (hlive : ∀ k, r.Window T (times k) → (b'.run k).stage ≠ .aborted) :
    b'.letters.countP (letterAbout uid r T) =
      if mail && r.letter then b'.rows.countP (Notice.has uid (r.key T)) else 0 := by
  have hold := h.counted fun k hw habort => hlive k hw (aborted_step hstep habort)
  cases hstep with
  | elsewhere users posted hforeign =>
    have hzero := countP_foreign hforeign uid r T
    simpa [Bell.rows, List.countP_append, hzero] using hold
  | begin j _ => exact hold
  | skip m j part task todo _ _ => exact hold
  | ask j part task todo _ => exact hold
  | insert j part task todo hstage _ _ =>
    have hrows : Bell.rows
        { b with
          held := b.held ++ [(j, task.notice)]
          letters := b.letters ++ task.posted
          run := Function.update b.run j ⟨.asking part todo, (b.run j).reminders + 1⟩ } =
        b.rows ++ [task.notice] := by
      simp [Bell.rows]
    rw [hrows]
    simp only [List.countP_append, hold, countP_posted, List.countP_singleton, has_notice]
    by_cases hmine : task.user.id = uid ∧ task.reminder = r ∧ task.until_ = T
    · obtain ⟨hid, hr, hT⟩ := hmine
      have hmail := h.mailed j task (by rw [hstage]; exact List.mem_cons_self) hid hr hT
      rw [hmail]
      simp only [hid, hr, hT, true_and, and_self, if_true]
      split <;> rfl
    · have hnone : ¬ (task.user.id = uid ∧ task.reminder = r ∧ task.until_ = T ∧
          (hasMailbox task.user && r.letter) = true) :=
        fun h' => hmine ⟨h'.1, h'.2.1, h'.2.2.1⟩
      simp only [if_neg hmine, if_neg hnone, Nat.add_zero]
  | trials j loaded _ => exact hold
  | commit j _ =>
    rw [countP_rows b j] at hold
    simpa [Bell.rows, Bell.others, List.countP_append, Nat.add_assoc] using hold
  | abort j _ =>
    have hw : ¬ r.Window T (times j) := fun hw => hlive j hw (by simp)
    rw [countP_rows b j, h.sound.own_eq_zero hw] at hold
    simpa [Bell.rows, Bell.others, List.countP_append] using hold

/-- **Every move keeps the reminder tracked.** -/
lemma Tracked.step {mail : Bool} (h : Tracked times r uid T mail b) {m : Move}
    (hseen : r.Seen times uid T mail b m) {b' : Bell} (hstep : Step times b m b') :
    Tracked times r uid T mail b' where
  sound := h.sound.step hstep
  aside hr k hw := aside_step hr hw (h.aside hr k hw) hseen hstep
  assured k hw := (h.assured k hw).step (fun hr => h.aside hr k hw) hw hseen hstep
  mailed k := mail_step h.sound (h.mailed k) hseen hstep
  counted hlive := h.counted_step hstep hlive

/-- A committed run holds nothing. -/
lemma Sound.own_of_committed (hs : Sound times b) (h : (b.run k).stage = .committed) :
    b.own k = [] := by
  have hnone : (b.held.filter fun e => e.1 = k) = [] := by
    refine List.filter_eq_nil_iff.mpr fun e he hk => ?_
    have hactive := hs.active e he
    have hek : e.1 = k := by simpa using hk
    rw [hek, h] at hactive
    cases hactive
  rw [Bell.own, hnone, List.map_nil]

/-- **Exactly one**: with a committed run in the window, and all runs of the
window committed, the message is there once, and so is its letter if the account
has a mailbox and a letter goes with the reminder. -/
lemma Tracked.exactly_one {mail : Bool} (h : Tracked times r uid T mail b)
    (hw : r.Window T (times k))
    (hdone : ∀ j, r.Window T (times j) → (b.run j).stage = .committed) :
    b.notices.countP (about uid r T) = 1 ∧
      b.letters.countP (letterAbout uid r T) = if mail && r.letter then 1 else 0 := by
  obtain ⟨heq, hle⟩ := h.sound.countP_about uid r T
  have hrow : 0 < b.notices.countP (Notice.has uid (r.key T)) := by
    rcases h.assured k hw with hbefore | ⟨t, ht, -⟩ | ⟨n, hn, hhas⟩
    · rw [hdone k hw] at hbefore
      rcases hbefore with h' | h' | ⟨-, h'⟩ <;> cases h'
    · rw [hdone k hw] at ht
      cases ht
    · rw [h.sound.own_of_committed (hdone k hw), List.append_nil] at hn
      exact List.countP_pos_iff.mpr ⟨n, hn, hhas⟩
  have hletters := h.counted fun j hj habort => by
    rw [hdone j hj] at habort
    cases habort
  have hunique := h.sound.unique uid r T
  have hrows : b.rows.countP (Notice.has uid (r.key T)) = 1 := by
    rw [Bell.rows, List.countP_append] at hunique ⊢
    omega
  rw [hrows] at hletters
  exact ⟨by omega, hletters⟩

end Assurance

/-! ### Every history -/

/-- Runs at most a day apart do not step over a window of a day or more. -/
lemma exists_in_window {times : ℕ → Time} (hmono : Monotone times)
    (hgap : ∀ k, times (k + 1) ≤ times k + days 1) {lo hi : Time} (hlen : lo + days 1 ≤ hi)
    (hbefore : ∃ k, times k < hi) (hafter : ∃ k, lo ≤ times k) :
    ∃ k, lo ≤ times k ∧ times k < hi := by
  -- the first run that is not before the window
  classical
  refine ⟨Nat.find hafter, Nat.find_spec hafter, ?_⟩
  cases hfirst : Nat.find hafter with
  | zero =>
    obtain ⟨i, hi'⟩ := hbefore
    exact lt_of_le_of_lt (hmono (Nat.zero_le i)) hi'
  | succ j =>
    have hj : times j < lo := by
      by_contra hle
      have := Nat.find_min' hafter (not_lt.mp hle)
      omega
    have hnext := hgap j
    linarith

/-- A tracked reminder with a run in its window is made exactly once. -/
lemma exec_exactly_one {times : ℕ → Time} {users : Table User} {moves : List Move} {b : Bell}
    {r : Reminder} {uid : ℕ} {T : Time} {mail : Bool} {k : ℕ}
    (h : exec times moves (start users) = some b)
    (hseen : Along times (r.Seen times uid T mail) moves (start users))
    (hw : r.Window T (times k))
    (hdone : ∀ j, r.Window T (times j) → (b.run j).stage = .committed) :
    b.notices.countP (about uid r T) = 1 ∧
      b.letters.countP (letterAbout uid r T) = if mail && r.letter then 1 else 0 :=
  Tracked.exactly_one (exec_induction (fun _ _ _ hb hP hstep => hb.step hP hstep)
    (tracked_start times r uid T mail users) hseen h) hw hdone

/-- **Reminders are sent once and not missed.** In every history of runs of
`remind_due` beside each other and beside everybody else, an account gets at most
one message of each kind about an end. If the runs are at most a day apart, then
an end that the runs of the three days before it find set and flagged gets exactly
one message of each kind once these runs have committed, and one letter if the
account has a mailbox, none otherwise; and a trial that the runs of its last day
find running out, with no paid period, gets exactly one reminder and its letter. -/
theorem reminders_once (times : ℕ → Time) (users : Table User) (moves : List Move) (b : Bell)
    (h : exec times moves (start users) = some b) :
    (∀ uid r T, b.notices.countP (about uid r T) ≤ 1) ∧
    (Monotone times → (∀ k, times (k + 1) ≤ times k + days 1) →
      (∀ uid T mail, Along times (SubSeen times uid T mail) moves (start users) →
        (∃ k, times k < T - days 1) → (∃ k, T - days 1 ≤ times k) →
        (∀ k, T - days 3 ≤ times k → times k < T → (b.run k).stage = .committed) →
        b.notices.countP (about uid .sub3 T) = 1 ∧ b.notices.countP (about uid .sub1 T) = 1 ∧
          b.letters.countP (letterAbout uid .sub3 T) + b.letters.countP (letterAbout uid .sub1 T) =
            if mail then 1 else 0) ∧
      (∀ uid T mail, Along times (TrialSeen times uid T mail) moves (start users) →
        (∃ k, times k < T) → (∃ k, T - days 1 ≤ times k) →
        (∀ k, T - days 1 ≤ times k → times k < T → (b.run k).stage = .committed) →
        b.notices.countP (about uid .trial1 T) = 1 ∧
          b.letters.countP (letterAbout uid .trial1 T) = if mail then 1 else 0)) := by
  have hsound : Sound times b :=
    exec_induction (P := fun _ _ => True) (fun _ _ _ hb _ hstep => hb.step hstep)
      (sound_start users) (along_true _ _ _) h
  have hdays : days 3 = days 1 + days 1 + days 1 := by decide
  have hpos : 0 < days 1 := by decide
  refine ⟨fun uid r T => (hsound.countP_about uid r T).2, fun hmono hgap => ⟨?_, ?_⟩⟩
  · intro uid T mail hseen hbefore hafter hdone
    obtain ⟨i, hi⟩ := hbefore
    obtain ⟨j, hj⟩ := hafter
    have hmade : ∀ r : Reminder, r ≠ .trial1 → (∃ k, r.Window T (times k)) →
        b.notices.countP (about uid r T) = 1 ∧
          b.letters.countP (letterAbout uid r T) = if mail && r.letter then 1 else 0 := by
      rintro r hr ⟨k, hw⟩
      refine exec_exactly_one h ?_ hw fun l hl => hdone l (hl.sub hr).1 (hl.sub hr).2
      unfold Reminder.Seen
      rwa [if_neg hr]
    have h3 := hmade .sub3 (by decide) (exists_in_window hmono hgap (by linarith) ⟨i, hi⟩
      ⟨j, by linarith⟩)
    have h1 := hmade .sub1 (by decide) (exists_in_window hmono hgap (by linarith)
      ⟨i, by linarith⟩ ⟨j, hj⟩)
    refine ⟨h3.1, h1.1, ?_⟩
    rw [h3.2, h1.2]
    cases mail <;> rfl
  · intro uid T mail hseen hbefore hafter hdone
    obtain ⟨k, hlo, hhi⟩ := exists_in_window hmono hgap (le_of_eq (by ring)) hbefore hafter
    have hmade := exec_exactly_one (r := .trial1) h hseen ⟨hlo, hhi⟩ fun l hl =>
      hdone l hl.1 hl.2
    refine ⟨hmade.1, ?_⟩
    rw [hmade.2]
    cases mail <;> rfl

/-! ### A history of three runs -/

/-- Where the users stay as they are, it is enough to look at them once. -/
lemma along_of_users {times : ℕ → Time} {P : Bell → Move → Prop} {users : Table User}
    (hP : ∀ b m, b.users = users → P b m) {moves : List Move}
    (hquiet : ∀ m ∈ moves, ∀ users' posted, m ≠ .elsewhere users' posted) {b : Bell}
    (hb : b.users = users) : Along times P moves b := by
  induction moves generalizing b with
  | nil => trivial
  | cons m moves ih =>
    refine ⟨hP b m hb, fun b' hb' => ih (fun m' hm' => hquiet m' (List.mem_cons_of_mem _ hm')) ?_⟩
    have hm := hquiet m List.mem_cons_self
    rw [← hb]
    cases step_of_move hb' with
    | elsewhere users' posted _ => exact absurd rfl (hm users' posted)
    | begin => rfl
    | skip => rfl
    | ask => rfl
    | insert => rfl
    | trials => rfl
    | commit => rfl
    | abort => rfl

/-- An account with a paid period and one with a trial, both ending on day 3. -/
def twoAccounts (email : Option String) : Table User where
  rows := [{ id := 0, username := "ivan_1", email := email, isSubscribed := true,
             subscribedUntil := some (days 3) },
           { id := 1, username := "anna_2", email := some "anna@example.com",
             trialUntil := some (days 3) }]
  next := 2
  nodup := by simp
  lt_next := by simp

/-- A run every midnight. -/
def midnights (k : ℕ) : Time := days k

/-- The runs of three nights: two messages about the paid period, one about the trial. -/
def threeNights : List Move :=
  [.begin 0, .look 0, .insert 0, .trials 0, .commit 0,
    .begin 1, .look 1, .trials 1, .commit 1,
    .begin 2, .look 2, .insert 2, .trials 2, .look 2, .insert 2, .commit 2]

lemma monotone_midnights : Monotone midnights := by
  intro i j hij
  have hij' : (i : ℤ) ≤ j := by exact_mod_cast hij
  unfold midnights days
  linarith

lemma midnights_succ (k : ℕ) : midnights (k + 1) ≤ midnights k + days 1 := by
  unfold midnights days
  push_cast
  linarith

lemma quiet_threeNights :
    ∀ m ∈ threeNights, ∀ users posted, m ≠ Move.elsewhere users posted := by
  intro m hm users posted
  simp only [threeNights, List.mem_cons, List.not_mem_nil, or_false] at hm
  rcases hm with rfl | rfl | rfl | rfl | rfl | rfl | rfl | rfl | rfl | rfl | rfl | rfl | rfl | rfl |
    rfl | rfl <;> simp

lemma subSeen_threeNights (email : Option String) {mail : Bool}
    (hmail : (email.any fun address => decide (address ≠ "")) = mail) :
    Along midnights (SubSeen midnights 0 (days 3) mail) threeNights (start (twoAccounts email)) := by
  refine @along_of_users _ _ (twoAccounts email) (fun b m hb => ?_) _ quiet_threeNights _ rfl
  cases m with
  | begin k =>
    intro _ _
    rw [hb]
    exact ⟨_, List.mem_cons_self, rfl, rfl, rfl, hmail⟩
  | elsewhere => trivial
  | look => trivial
  | insert => trivial
  | trials => trivial
  | commit => trivial
  | abort => trivial

lemma committed_threeNights (email : Option String) {b : Bell}
    (h : exec midnights threeNights (start (twoAccounts email)) = some b)
    (hrun : ∀ k < 3, ((exec midnights threeNights (start (twoAccounts email))).map
      fun b => (b.run k).stage) = some .committed) (k : ℕ) (hk : midnights k < days 3) :
    (b.run k).stage = .committed := by
  have hlt : k < 3 := by
    unfold midnights days at hk
    have : (k : ℤ) < 3 := by linarith
    exact_mod_cast this
  have hstage := hrun k hlt
  rw [h] at hstage
  exact Option.some.inj hstage

/-- Three nights of reminders, with a mailbox: one message of each kind and one letter. -/
theorem reminders_once_nights :
    ∃ b, exec midnights threeNights (start (twoAccounts (some "ivan@example.com"))) = some b ∧
      b.notices.countP (about 0 .sub3 (days 3)) = 1 ∧
      b.notices.countP (about 0 .sub1 (days 3)) = 1 ∧
      b.letters.countP (letterAbout 0 .sub3 (days 3)) +
        b.letters.countP (letterAbout 0 .sub1 (days 3)) = 1 := by
  obtain ⟨b, hb⟩ := Option.isSome_iff_exists.mp (show (exec midnights threeNights
    (start (twoAccounts (some "ivan@example.com")))).isSome = true by decide)
  have hdone := committed_threeNights _ hb (by decide)
  have hmade := ((reminders_once midnights _ threeNights b hb).2 monotone_midnights
    midnights_succ).1 0 (days 3) true (subSeen_threeNights _ (by decide)) ⟨0, by decide⟩
    ⟨2, by decide⟩ fun k _ hk => hdone k hk
  exact ⟨b, hb, hmade.1, hmade.2.1, by simpa using hmade.2.2⟩

/-- Without a mailbox there is no letter. -/
theorem no_letter_without_mailbox :
    ¬ ∀ (times : ℕ → Time) (users : Table User) (moves : List Move) (b : Bell),
      exec times moves (start users) = some b → Monotone times →
      (∀ k, times (k + 1) ≤ times k + days 1) →
      ∀ uid T mail, Along times (SubSeen times uid T mail) moves (start users) →
        (∃ k, times k < T - days 1) → (∃ k, T - days 1 ≤ times k) →
        (∀ k, T - days 3 ≤ times k → times k < T → (b.run k).stage = .committed) →
        b.letters.countP (letterAbout uid .sub3 T) +
          b.letters.countP (letterAbout uid .sub1 T) = 1 := by
  intro hclaim
  obtain ⟨b, hb⟩ := Option.isSome_iff_exists.mp (show (exec midnights threeNights
    (start (twoAccounts none))).isSome = true by decide)
  have hdone := committed_threeNights _ hb (by decide)
  have hone := hclaim midnights _ threeNights b hb monotone_midnights midnights_succ 0 (days 3)
    false (subSeen_threeNights _ (by decide)) ⟨0, by decide⟩ ⟨2, by decide⟩
    fun k _ hk => hdone k hk
  have hletters : (exec midnights threeNights (start (twoAccounts none))).map
      (fun b => b.letters.countP (letterAbout 0 .sub3 (days 3)) +
        b.letters.countP (letterAbout 0 .sub1 (days 3))) = some 0 := by decide
  rw [hb, Option.map_some] at hletters
  exact absurd (hone.symm.trans (Option.some.inj hletters)) (by decide)

end VpnPortal.Reminders
