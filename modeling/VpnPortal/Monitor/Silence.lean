/-
The dead man's switch neither repeats nor forgets.

The open event about the monitor's silence is also the record that its letter was
delivered: it is opened by a delivered letter about the silence and closed by a
delivered all-clear, and no report touches it. So the letters alternate, whatever
reports come in between and however often a letter fails.

* `openSilences`, `openSilences_eq`: none or one is open;
* `alerts`, `allClears`: the letters that were delivered;
* `letters_alternate`: along every sequence of reports and checks the letters about a
  silence are as many as the all-clears and the open events together, and each comes
  only when the age of the last report calls for it.
-/
import VpnPortal.Monitor.History

namespace VpnPortal.Panel

open Tables Monitor

/-! ### The event of a silence -/

/-- The open events about a silence. -/
def openSilences (db : Db) : ℕ :=
  (db.events.rows.filter fun e => e.key = silentKey ∧ e.endedAt = none).length

section Count

variable {db db' : Db}

lemma openSilences_eq_zero : openSilences db = 0 ↔ silence db = none := by
  rw [openSilences, List.length_eq_zero_iff, List.filter_eq_nil_iff, silence, List.find?_eq_none]

/-- One at most is open, so what `watch` finds says how many there are. -/
lemma openSilences_eq (hone : OneOpen db) : openSilences db = if (silence db).isSome then 1 else 0 := by
  cases hs : silence db with
  | none => simpa using openSilences_eq_zero.mpr hs
  | some e =>
      have hpos : openSilences db ≠ 0 := by
        intro hzero
        rw [openSilences_eq_zero.mp hzero] at hs
        cases hs
      have hle : openSilences db ≤ 1 := by
        have hnodup : (db.events.rows.filter fun e => e.key = silentKey ∧ e.endedAt = none).Nodup :=
          (List.Nodup.of_map _ db.events.nodup).filter _
        have hsame : ∀ a ∈ db.events.rows.filter (fun e => e.key = silentKey ∧ e.endedAt = none),
            ∀ b ∈ db.events.rows.filter (fun e => e.key = silentKey ∧ e.endedAt = none), a = b := by
          intro a ha b hb
          obtain ⟨ha, hopena⟩ := List.mem_filter.mp ha
          obtain ⟨hb, hopenb⟩ := List.mem_filter.mp hb
          rw [decide_eq_true_eq] at hopena hopenb
          exact hone a ha b hb hopena.2 hopenb.2 (hopena.1.trans hopenb.1.symm)
        rw [openSilences]
        generalize db.events.rows.filter (fun e => e.key = silentKey ∧ e.endedAt = none) = l at hnodup hsame
        rcases l with _ | ⟨a, _ | ⟨b, rest⟩⟩
        · simp
        · simp
        · have hab := hsame a (by simp) b (by simp)
          simp [hab] at hnodup
      simp only [Option.isSome_some, if_true]
      omega

lemma silence_isSome : (silence db).isSome = true
    ↔ ∃ e ∈ db.events.rows, e.key = silentKey ∧ e.endedAt = none := by
  rw [silence, List.find?_isSome]
  simp

/-- A report leaves the event of a silence open or closed as it is. -/
lemma openSilences_receive {rs : List (ℚ × Report)} {now : ℚ} {report : Report} (h : Agrees rs db)
    (hown : Foreign report) (hrec : receive now report db = some db') :
    openSilences db' = openSilences db := by
  have hiff : (silence db').isSome = true ↔ (silence db).isSome = true := by
    rw [silence_isSome, silence_isSome]
    constructor
    · rintro ⟨e, he, hkey, hopen⟩
      exact ⟨e, ((mem_silent_receive h.oneOpen hown hrec hkey).mp he).1, hkey, hopen⟩
    · rintro ⟨e, he, hkey, hopen⟩
      have hkept : outdated now e = false := by simp [outdated, hopen]
      exact ⟨e, (mem_silent_receive h.oneOpen hown hrec hkey).mpr ⟨he, hkept⟩, hkey, hopen⟩
  rw [openSilences_eq (h.oneOpen_receive hown hrec), openSilences_eq h.oneOpen, if_congr hiff rfl rfl]

lemma openSilences_openSilence (hnone : silence db = none) (last : ℚ) :
    openSilences (openSilence last db) = 1 := by
  have hzero := openSilences_eq_zero.mpr hnone
  rw [openSilences, List.length_eq_zero_iff] at hzero
  rw [openSilences, openSilence, Table.rows_insert, List.filter_append, hzero]
  simp

lemma openSilences_closeSilence (hone : OneOpen db) {e : Event} (hsome : silence db = some e) (now : ℚ) :
    openSilences (closeSilence now e db) = 0 := by
  obtain ⟨he, hkey, hopen⟩ := silence_some hsome
  rw [openSilences_eq_zero, silence, List.find?_eq_none]
  intro a ha
  rcases (mem_closeSilence hsome).mp ha with ⟨ha, hid⟩ | rfl
  · -- another open one would be this one
    have hnot : ¬ (a.key = silentKey ∧ a.endedAt = none) := by
      rintro ⟨hakey, haopen⟩
      exact hid (congrArg Event.id (hone a ha e he haopen hopen (hakey.trans hkey.symm)))
    simpa using hnot
  · simp

end Count

/-! ### The letters -/

/-- The delivered letters about a silence. -/
def alerts (log : List Done) : ℕ :=
  (log.filter fun d => match d with
    | .watched _ _ .alerted => true
    | _ => false).length

/-- The delivered all-clears. -/
def allClears (log : List Done) : ℕ :=
  (log.filter fun d => match d with
    | .watched _ _ .recovered => true
    | _ => false).length

/-- When the last report was received. -/
def lastReport (log : List Done) : Option ℚ := (reports log).getLast?.map Prod.fst

section Letters

variable {log : List Done} {db : Db}

/-- A check delivers a letter exactly when it opens or closes the event. -/
lemma openSilences_watch (now : ℚ) (mail : Bool) (hone : OneOpen db) :
    openSilences (watch now mail db).2 + (if (watch now mail db).1 = .recovered then 1 else 0)
      = openSilences db + if (watch now mail db).1 = .alerted then 1 else 0 := by
  rcases watch_cases now mail db with ⟨hsame, halert, hclear⟩ | ⟨last, -, -, hnone, -, heq⟩
    | ⟨last, e, -, -, hsome, -, heq⟩
  · rw [hsame, if_neg halert, if_neg hclear]
  · rw [heq, openSilences_openSilence hnone, openSilences_eq_zero.mpr hnone]
    simp
  · have hopen : openSilences db = 1 := by
      rw [openSilences_eq hone, hsome]
      rfl
    rw [heq, openSilences_closeSilence hone hsome, hopen]
    simp

/-- Without a letter nothing changes. -/
lemma watch_unmailed (now : ℚ) (db : Db) : (watch now false db).2 = db := by
  rcases watch_cases now false db with ⟨hsame, -⟩ | ⟨last, -, -, -, hmail, -⟩ | ⟨last, e, -, -, -, hmail, -⟩
  · exact hsame
  · cases hmail
  · cases hmail

lemma alerts_watched (log : List Done) (now : ℚ) (mail : Bool) (verdict : Verdict) :
    alerts (log ++ [.watched now mail verdict]) = alerts log + if verdict = .alerted then 1 else 0 := by
  rw [alerts, List.filter_append, List.length_append]
  cases verdict <;> rfl

lemma allClears_watched (log : List Done) (now : ℚ) (mail : Bool) (verdict : Verdict) :
    allClears (log ++ [.watched now mail verdict])
      = allClears log + if verdict = .recovered then 1 else 0 := by
  rw [allClears, List.filter_append, List.length_append]
  cases verdict <;> rfl

/-- The letters that are one ahead are the events that are open. -/
lemma History.alerts_eq (h : History log db) : alerts log = allClears log + openSilences db := by
  induction h with
  | nil => rfl
  | @receive log db db' now report hist _ hown hrec ih =>
      have hsame : alerts (log ++ [.received now report]) = alerts log
          ∧ allClears (log ++ [.received now report]) = allClears log := by
        simp [alerts, allClears]
      rw [hsame.1, hsame.2, openSilences_receive hist.agrees hown hrec, ih]
  | watch now mail hist _ ih =>
      have hcount := openSilences_watch now mail hist.agrees.oneOpen
      rw [alerts_watched, allClears_watched, ih]
      omega

/-- With working mail a check leaves the event open or closed as the last report
says. -/
lemma openSilences_mailed (now : ℚ) (hone : OneOpen db) {last : ℚ} (hlast : db.receivedAt = some last) :
    openSilences (watch now true db).2 = if staleAfterS < now - last then 1 else 0 := by
  simp only [watch, hlast]
  by_cases hstale : staleAfterS < now - last
  · simp only [if_pos hstale]
    cases hs : silence db with
    | some e =>
        rw [openSilences_eq hone, hs]
        rfl
    | none => exact openSilences_openSilence hs last
  · simp only [if_neg hstale]
    cases hs : silence db with
    | none => exact openSilences_eq_zero.mpr hs
    | some e => exact openSilences_closeSilence hone hs now

/-- **The letters alternate.** After every sequence of reports and checks, whatever
letters were delivered: the delivered letters about a silence are as many as the
delivered all-clears and the open events together, and at most one is open. In
every further check a letter about a silence is delivered only if the last report
is more than ten minutes old, an all-clear only if it is not; and if the mail works
an event is open after it in the first case and none in the second. -/
theorem letters_alternate (h : History log db) :
    alerts log = allClears log + openSilences db ∧ openSilences db ≤ 1
      ∧ ∀ now mail, (∀ r ∈ reports log, r.1 ≤ now) →
        ((watch now mail db).1 = .alerted → ∃ last, lastReport log = some last ∧ staleAfterS < now - last)
        ∧ ((watch now mail db).1 = .recovered →
          ∃ last, lastReport log = some last ∧ now - last ≤ staleAfterS)
        ∧ (mail = true → ∀ last, lastReport log = some last →
          (staleAfterS < now - last → openSilences (watch now mail db).2 = 1)
          ∧ (now - last ≤ staleAfterS → openSilences (watch now mail db).2 = 0)) := by
  have hreceived : db.receivedAt = lastReport log := h.agrees.received
  have hone := h.agrees.oneOpen
  refine ⟨h.alerts_eq, ?_, fun now mail htime => ?_⟩
  · rw [openSilences_eq hone]
    split_ifs <;> simp
  · have hcases := watch_cases now mail db
    rw [hreceived] at hcases
    refine ⟨fun halert => ?_, fun hclear => ?_, ?_⟩
    · rcases hcases with ⟨-, hnot, -⟩ | ⟨last, hlast, hstale, -⟩ | ⟨last, e, -, -, -, -, heq⟩
      · exact absurd halert hnot
      · exact ⟨last, hlast, hstale⟩
      · rw [heq] at halert
        cases halert
    · rcases hcases with ⟨-, -, hnot⟩ | ⟨last, -, -, -, -, heq⟩ | ⟨last, e, hlast, hfresh, -⟩
      · exact absurd hclear hnot
      · rw [heq] at hclear
        cases hclear
      · exact ⟨last, hlast, not_lt.mp hfresh⟩
    · rintro rfl last hlast
      have hmailed := openSilences_mailed now hone (hreceived.trans hlast)
      refine ⟨fun hstale => ?_, fun hfresh => ?_⟩
      · rw [hmailed, if_pos hstale]
      · rw [hmailed, if_neg (not_lt.mpr hfresh)]

end Letters

/-! ### A silence of an hour -/

/-- A report at 0. -/
def firstReport : Db := (receive 0 {} {}).get (by decide)

/-- The next one, after a check that told of the silence. -/
def backAgain : Db := (receive 7500 {} (watch 3900 true firstReport).2).get (by decide)

/-- What was done: the first letter failed, the second went out, and the reports
came back. -/
def silentHour : List Done :=
  [.received 0 {}, .watched 3600 false (watch 3600 false firstReport).1,
    .watched 3900 true (watch 3900 true firstReport).1, .received 7500 {},
    .watched 7560 true (watch 7560 true backAgain).1]

lemma history_silentHour : History silentHour (watch 7560 true backAgain).2 := by
  have hfirst : History [.received 0 {}] firstReport :=
    .receive .nil (by simp [reports]) (by decide) (Option.some_get _).symm
  have hfailed := hfirst.watch 3600 false (by simp [reports])
  rw [watch_unmailed] at hfailed
  have htold := hfailed.watch 3900 true (by simp [reports])
  have hback : History _ backAgain :=
    htold.receive (by simp [reports]) (by decide) (Option.some_get _).symm
  exact hback.watch 7560 true (by simp [reports]; norm_num)

/-- One letter about the silence and one all-clear were delivered. -/
theorem letters_alternate_hour :
    alerts silentHour = 1 ∧ allClears silentHour = 1
      ∧ alerts silentHour = allClears silentHour + openSilences (watch 7560 true backAgain).2 :=
  ⟨by decide +kernel, by decide +kernel, (letters_alternate history_silentHour).1⟩

end VpnPortal.Panel
