/-
The portal's history agrees with the reports.

After every report the open events are the problems it carries, and the event
about the monitor's silence. An event that a report opened was opened by the first
report with its problem after one without, and it is closed when the first later
report without it was received (`Stretch`). The proof is one invariant over
reports and checks (`Agrees`), kept by each of them.

* `receive_spec`: the rows a report leaves;
* `Stretch`: an event of a problem is opened by the first report with it and closed by the
  first one without;
* `Agrees`, `History.agrees`: the invariant, along every history;
* `history_agrees`: **events and reports agree**, and after a report the open events are
  its problems, once each, and the event about a silence.
-/
import VpnPortal.Monitor.Portal

namespace VpnPortal.Panel

open Tables Monitor

/-! ### The rows a report leaves -/

section Receive

variable {now : ℚ} {report : Report} {db db' : Db}

lemma ts_le (value : Option ℚ) (now : ℚ) : ts value now ≤ now := by
  cases value with
  | none => exact le_rfl
  | some t =>
      simp only [ts]
      split_ifs
      · exact min_le_right _ _
      · exact le_rfl

/-- What a notice may add. -/
lemma withNotice_spec {t t' : Table Event} {n : Notice} (h : withNotice now t n = some t') :
    t' = t ∨ ∃ id, t'.rows = t.rows ++ [⟨id, n.key, .info, n.text, ts n.time now, some (ts n.time now)⟩] := by
  simp only [withNotice] at h
  split_ifs at h
  · exact Or.inl (Option.some.inj h).symm
  · obtain rfl := Option.some.inj h
    exact Or.inr ⟨_, rfl⟩

/-- A row that a notice added. -/
def Noted (now : ℚ) (report : Report) (e : Event) : Prop :=
  ∃ n ∈ report.notices, e.key = n.key ∧ e.level = .info ∧ e.startedAt = ts n.time now
    ∧ e.endedAt = some (ts n.time now)

lemma withNotices_spec {notices : List Notice} {t t' : Table Event}
    (hsub : ∀ n ∈ notices, n ∈ report.notices) (h : notices.foldlM (withNotice now) t = some t') :
    ∃ notes : List Event, t'.rows = t.rows ++ notes ∧ ∀ e ∈ notes, Noted now report e := by
  induction notices generalizing t with
  | nil =>
      obtain rfl : t = t' := by simpa using h
      exact ⟨[], by simp, by simp⟩
  | cons n rest ih =>
      rw [List.foldlM_cons] at h
      obtain ⟨t₁, hone, h⟩ := Option.bind_eq_some_iff.mp h
      obtain ⟨notes, hrows, hnotes⟩ := ih (fun m hm => hsub m (List.mem_cons_of_mem _ hm)) h
      rcases withNotice_spec hone with rfl | ⟨id, hnew⟩
      · exact ⟨notes, hrows, hnotes⟩
      · refine ⟨_ :: notes, by rw [hrows, hnew, List.append_assoc, List.singleton_append], ?_⟩
        intro e he
        rcases List.mem_cons.mp he with rfl | he
        · exact ⟨n, hsub n List.mem_cons_self, rfl, rfl, rfl, rfl⟩
        · exact hnotes e he

/-- The rows a report leaves: those before, the events it opened, and its notices,
less those that are outdated. -/
lemma receive_spec (h : receive now report db = some db') :
    db'.receivedAt = some now ∧ ∃ new notes : List Event,
      db'.events.rows = (db.events.rows.map (turn now report db) ++ new ++ notes).filter
        (fun e => !outdated now e)
      ∧ List.Forall₂ (fun x e => ∃ id, e = opened now x.1 x.2 id) (fresh report db) new
      ∧ ∀ e ∈ notes, Noted now report e := by
  obtain ⟨events, hevents, h⟩ := Option.bind_eq_some_iff.mp h
  obtain rfl := Option.some.inj h
  obtain ⟨notes, hnotes, hnoted⟩ := withNotices_spec (fun n hn => hn) hevents
  obtain ⟨new, hnew, hopened⟩ := Table.rows_foldl_insert
    (fun x : String × Problem => opened now x.1 x.2) (fun _ _ => rfl) (fresh report db)
    (db.events.mapRows (turn now report db) (id_turn now report db))
  refine ⟨rfl, new, notes, ?_, hopened, hnoted⟩
  rw [Table.rows_filter, hnotes, withProblems, hnew, Table.rows_mapRows]

/-! ### The events that are open -/

/-- At most one event of a key is open. -/
def OneOpen (db : Db) : Prop :=
  ∀ e ∈ db.events.rows, ∀ e' ∈ db.events.rows, e.endedAt = none → e'.endedAt = none → e.key = e'.key →
    e = e'

lemma openByKey_spec {key : String} {e : Event} (h : (openByKey db).get? key = some e) :
    e ∈ db.events.rows ∧ e.endedAt = none ∧ e.key ≠ silentKey ∧ e.key = key := by
  rcases Dict.mem_update (Dict.get?_eq_some_iff.mp h) with h | h
  · cases h
  · obtain ⟨a, ha, heq⟩ := List.mem_map.mp h
    obtain ⟨rfl, rfl⟩ := Prod.mk.inj heq
    obtain ⟨hrow, hopen⟩ := List.mem_filter.mp ha
    rw [decide_eq_true_eq] at hopen
    exact ⟨hrow, hopen.1, hopen.2, rfl⟩

lemma openByKey_none {key : String} (h : (openByKey db).get? key = none) {e : Event}
    (he : e ∈ db.events.rows) (hopen : e.endedAt = none) (hkey : e.key ≠ silentKey) : e.key ≠ key := by
  rw [openByKey, Dict.get?_update_eq_none] at h
  refine h.2 (e.key, e) (List.mem_map.mpr ⟨e, List.mem_filter.mpr ⟨he, ?_⟩, rfl⟩)
  simpa using ⟨hopen, hkey⟩

/-- The open events of the monitor are the ones a report looks at. -/
lemma openByKey_iff (hone : OneOpen db) {e : Event} (he : e ∈ db.events.rows) :
    (openByKey db).get? e.key = some e ↔ e.endedAt = none ∧ e.key ≠ silentKey := by
  constructor
  · intro h
    obtain ⟨-, hopen, hkey, -⟩ := openByKey_spec h
    exact ⟨hopen, hkey⟩
  · rintro ⟨hopen, hkey⟩
    cases hget : (openByKey db).get? e.key with
    | none => exact absurd rfl (openByKey_none hget he hopen hkey)
    | some a =>
        obtain ⟨ha, haopen, -, hakey⟩ := openByKey_spec hget
        rw [hone a ha e he haopen hopen hakey]

/-- A report carries a problem. -/
def Carries (key : String) (r : ℚ × Report) : Prop := ∃ p ∈ r.2.problems, p.key = key

lemma current_none {key : String} : (current report).get? key = none ↔ ¬ Carries key (now, report) := by
  rw [current, Dict.get?_update_eq_none]
  simp only [List.mem_map, forall_exists_index, and_imp, forall_apply_eq_imp_iff₂, Carries, not_exists,
    not_and]
  exact ⟨fun h => h.2, fun h => ⟨rfl, h⟩⟩

lemma current_some {key : String} {p : Problem} (h : (current report).get? key = some p) :
    p ∈ report.problems ∧ p.key = key := by
  rcases Dict.mem_update (Dict.get?_eq_some_iff.mp h) with h | h
  · cases h
  · obtain ⟨a, ha, heq⟩ := List.mem_map.mp h
    obtain ⟨rfl, rfl⟩ := Prod.mk.inj heq
    exact ⟨ha, rfl⟩

/-- What a report does to the events that were there. -/
lemma turn_spec (now : ℚ) (report : Report) (hone : OneOpen db) {e : Event} (he : e ∈ db.events.rows) :
    (turn now report db e).key = e.key ∧ (turn now report db e).startedAt = e.startedAt
      ∧ ((e.endedAt ≠ none ∨ e.key = silentKey) → turn now report db e = e)
      ∧ (e.endedAt = none → e.key ≠ silentKey → Carries e.key (now, report) →
        (turn now report db e).endedAt = none ∧ (turn now report db e).level ≠ .info)
      ∧ (e.endedAt = none → e.key ≠ silentKey → ¬ Carries e.key (now, report) →
        (turn now report db e).endedAt = some now ∧ (turn now report db e).level = e.level) := by
  have hiff := openByKey_iff hone he
  by_cases hheld : (openByKey db).get? e.key = some e
  · obtain ⟨hopen, hkey⟩ := hiff.mp hheld
    rw [turn, if_pos hheld]
    cases hcur : (current report).get? e.key with
    | none =>
        refine ⟨rfl, rfl, fun h => ?_, fun _ _ h => ?_, fun _ _ _ => ⟨rfl, rfl⟩⟩
        · exact absurd h (by simp [hopen, hkey])
        · exact absurd h (current_none.mp hcur)
    | some p =>
        refine ⟨rfl, rfl, fun h => ?_, fun _ _ _ => ⟨hopen, ?_⟩, fun _ _ h => ?_⟩
        · exact absurd h (by simp [hopen, hkey])
        · show Mark.ofLevel p.level ≠ .info
          cases p.level <;> simp [Mark.ofLevel]
        · rw [← current_none, hcur] at h
          cases h
  · rw [turn, if_neg hheld]
    refine ⟨rfl, rfl, fun _ => rfl, fun hopen hkey => ?_, fun hopen hkey => ?_⟩
    all_goals exact absurd (hiff.mpr ⟨hopen, hkey⟩) hheld

/-- The events a report opens: one for each problem that has none open. -/
lemma mem_opened {new : List Event}
    (hnew : List.Forall₂ (fun x e => ∃ id, e = opened now x.1 x.2 id) (fresh report db) new) {e : Event}
    (he : e ∈ new) : (openByKey db).get? e.key = none ∧ e.endedAt = none ∧ e.level ≠ .info
      ∧ ∃ p ∈ report.problems, p.key = e.key ∧ e.startedAt = ts p.since now := by
  obtain ⟨x, hx, id, rfl⟩ := exists_left_of_forall₂ hnew he
  obtain ⟨hcur, hnone⟩ := List.mem_filter.mp hx
  obtain ⟨hp, hkey⟩ := current_some (Dict.get?_eq_some_iff.mpr hcur)
  refine ⟨by simpa [opened] using hnone, rfl, ?_, x.2, hp, hkey, rfl⟩
  show Mark.ofLevel x.2.level ≠ .info
  cases x.2.level <;> simp [Mark.ofLevel]

lemma keys_opened {new : List Event}
    (hnew : List.Forall₂ (fun x e => ∃ id, e = opened now x.1 x.2 id) (fresh report db) new) :
    new.map Event.key = (fresh report db).map Prod.fst := by
  generalize fresh report db = l at hnew
  induction hnew with
  | nil => rfl
  | cons hx _ ih =>
      obtain ⟨id, rfl⟩ := hx
      rw [List.map_cons, List.map_cons, ih]
      rfl

lemma nodup_opened {new : List Event}
    (hnew : List.Forall₂ (fun x e => ∃ id, e = opened now x.1 x.2 id) (fresh report db) new) :
    (new.map Event.key).Nodup := by
  rw [keys_opened hnew]
  exact (current report).nodup.sublist (List.filter_sublist.map Prod.fst)

end Receive

/-! ### What an event says about the reports -/

/-- The event of a problem: the report that opened it carries the problem and the
report before that one does not; while it is open every later report carries it,
and it was closed when the first later report without it was received. -/
structure Stretch (rs : List (ℚ × Report)) (e : Event) (pre : List (ℚ × Report)) (r : ℚ × Report)
    (post : List (ℚ × Report)) : Prop where
  split : rs = pre ++ r :: post
  carries : Carries e.key r
  first : ∀ q, pre.getLast? = some q → ¬ Carries e.key q
  started : ∃ p ∈ r.2.problems, p.key = e.key ∧ e.startedAt = ts p.since r.1
  lasting : e.endedAt = none → ∀ q ∈ post, Carries e.key q
  closed : ∀ t, e.endedAt = some t → ∃ mid q rest, post = mid ++ q :: rest
    ∧ (∀ x ∈ mid, Carries e.key x) ∧ ¬ Carries e.key q ∧ t = q.1

/-- Some stretch of the reports is what the event says. -/
def Explained (rs : List (ℚ × Report)) (e : Event) : Prop := ∃ pre r post, Stretch rs e pre r post

/-- The tables and the reports agree. -/
structure Agrees (rs : List (ℚ × Report)) (db : Db) : Prop where
  foreign : ∀ r ∈ rs, Foreign r.2
  received : db.receivedAt = rs.getLast?.map Prod.fst
  oneOpen : OneOpen db
  known : ∀ e ∈ db.events.rows, e.endedAt = none → e.key ≠ silentKey →
    ∃ r, rs.getLast? = some r ∧ Carries e.key r
  shown : ∀ r, rs.getLast? = some r → ∀ key, Carries key r →
    ∃ e ∈ db.events.rows, e.endedAt = none ∧ e.key = key
  level : ∀ e ∈ db.events.rows, e.endedAt = none → e.level ≠ .info
  explained : ∀ e ∈ db.events.rows, e.key ≠ silentKey → e.level ≠ .info → Explained rs e
  begun : ∀ e ∈ db.events.rows, ∃ r, rs.getLast? = some r ∧ e.startedAt ≤ r.1
  ordered : ∀ e ∈ db.events.rows, ∀ t, e.endedAt = some t → e.startedAt ≤ t

section Keep

variable {rs : List (ℚ × Report)} {now : ℚ} {report : Report} {db db' : Db}

/-- A row after a report: an old one, one it opened, or a notice. -/
lemma mem_receive {new notes : List Event}
    (hrows : db'.events.rows = (db.events.rows.map (turn now report db) ++ new ++ notes).filter
      (fun e => !outdated now e)) {e : Event} (he : e ∈ db'.events.rows) :
    (∃ a ∈ db.events.rows, e = turn now report db a) ∨ e ∈ new ∨ e ∈ notes := by
  rw [hrows] at he
  have hmem := (List.mem_filter.mp he).1
  rw [List.mem_append, List.mem_append, List.mem_map] at hmem
  rcases hmem with (⟨a, ha, rfl⟩ | h) | h
  · exact Or.inl ⟨a, ha, rfl⟩
  · exact Or.inr (Or.inl h)
  · exact Or.inr (Or.inr h)

/-- What is open is kept. -/
lemma mem_receive_of_open {new notes : List Event}
    (hrows : db'.events.rows = (db.events.rows.map (turn now report db) ++ new ++ notes).filter
      (fun e => !outdated now e)) {e : Event} (hopen : e.endedAt = none)
    (he : (∃ a ∈ db.events.rows, e = turn now report db a) ∨ e ∈ new) : e ∈ db'.events.rows := by
  rw [hrows]
  refine List.mem_filter.mpr ⟨?_, by simp [outdated, hopen]⟩
  rw [List.mem_append, List.mem_append, List.mem_map]
  rcases he with ⟨a, ha, rfl⟩ | he
  · exact Or.inl (Or.inl ⟨a, ha, rfl⟩)
  · exact Or.inl (Or.inr he)

/-- What is open after a report was open before it. -/
lemma open_of_turn (hone : OneOpen db) {a : Event} (ha : a ∈ db.events.rows)
    (h : (turn now report db a).endedAt = none) : a.endedAt = none := by
  by_contra hne
  rw [(turn_spec now report hone ha).2.2.1 (Or.inl hne)] at h
  exact hne h

/-- An open event of the monitor that stays open is carried by the report. -/
lemma carries_of_turn (hone : OneOpen db) {a : Event} (ha : a ∈ db.events.rows)
    (hkey : a.key ≠ silentKey) (h : (turn now report db a).endedAt = none) :
    Carries a.key (now, report) := by
  by_contra hnot
  obtain ⟨hclosed, -⟩ := (turn_spec now report hone ha).2.2.2.2 (open_of_turn hone ha h) hkey hnot
  rw [hclosed] at h
  cases h

lemma Agrees.oneOpen_receive (h : Agrees rs db) (hown : Foreign report)
    (hrec : receive now report db = some db') : OneOpen db' := by
  obtain ⟨-, new, notes, hrows, hnew, hnoted⟩ := receive_spec hrec
  have hold : ∀ a ∈ db.events.rows, (turn now report db a).endedAt = none →
      ∀ e ∈ new, (turn now report db a).key ≠ e.key := by
    intro a ha hopen e he heq
    obtain ⟨hnone, -, -, p, hp, hpkey, -⟩ := mem_opened hnew he
    rw [(turn_spec now report h.oneOpen ha).1] at heq
    have hkey : a.key ≠ silentKey := by
      rw [heq, ← hpkey]
      exact hown.1 p hp
    exact openByKey_none hnone ha (open_of_turn h.oneOpen ha hopen) hkey heq
  intro e he e' he' hopen hopen' hkey
  rcases mem_receive hrows he with ⟨a, ha, rfl⟩ | hn | hn
  · rcases mem_receive hrows he' with ⟨a', ha', rfl⟩ | hn' | hn'
    · rw [(turn_spec now report h.oneOpen ha).1, (turn_spec now report h.oneOpen ha').1] at hkey
      rw [h.oneOpen a ha a' ha' (open_of_turn h.oneOpen ha hopen) (open_of_turn h.oneOpen ha' hopen') hkey]
    · exact absurd hkey (hold a ha hopen e' hn')
    · obtain ⟨n, -, -, -, -, hclosed⟩ := hnoted e' hn'
      rw [hclosed] at hopen'
      cases hopen'
  · rcases mem_receive hrows he' with ⟨a', ha', rfl⟩ | hn' | hn'
    · exact absurd hkey.symm (hold a' ha' hopen' e hn)
    · exact List.inj_on_of_nodup_map (nodup_opened hnew) hn hn' hkey
    · obtain ⟨n, -, -, -, -, hclosed⟩ := hnoted e' hn'
      rw [hclosed] at hopen'
      cases hopen'
  · obtain ⟨n, -, -, -, -, hclosed⟩ := hnoted e hn
    rw [hclosed] at hopen
    cases hopen

/-- Every problem of the report has an open event. -/
lemma Agrees.shown_receive (h : Agrees rs db) (hrec : receive now report db = some db')
    {key : String} (hcarries : Carries key (now, report)) :
    ∃ e ∈ db'.events.rows, e.endedAt = none ∧ e.key = key := by
  obtain ⟨-, new, notes, hrows, hnew, -⟩ := receive_spec hrec
  cases hheld : (openByKey db).get? key with
  | some a =>
      obtain ⟨ha, hopen, hkey, rfl⟩ := openByKey_spec hheld
      obtain ⟨hsame, -, -, hstays, -⟩ := turn_spec now report h.oneOpen ha
      have hopen' := (hstays hopen hkey hcarries).1
      exact ⟨_, mem_receive_of_open hrows hopen' (Or.inl ⟨a, ha, rfl⟩), hopen', hsame⟩
  | none =>
      -- then the report opens one
      obtain ⟨p, hp⟩ : ∃ p, (current report).get? key = some p := by
        refine Option.ne_none_iff_exists'.mp fun hnone => ?_
        exact current_none.mp hnone hcarries
      have hkeys : key ∈ new.map Event.key := by
        rw [keys_opened hnew]
        exact List.mem_map.mpr ⟨(key, p), List.mem_filter.mpr
          ⟨Dict.get?_eq_some_iff.mp hp, by simpa using hheld⟩, rfl⟩
      obtain ⟨e, he, rfl⟩ := List.mem_map.mp hkeys
      have hopen := (mem_opened hnew he).2.1
      exact ⟨e, mem_receive_of_open hrows hopen (Or.inr he), hopen, rfl⟩

/-- An event that was explained is explained after one more report. -/
lemma Stretch.turn {a : Event} {pre : List (ℚ × Report)} {r : ℚ × Report} {post : List (ℚ × Report)}
    (hst : Stretch rs a pre r post) (hone : OneOpen db) (ha : a ∈ db.events.rows)
    (hkey : a.key ≠ silentKey) :
    Stretch (rs ++ [(now, report)]) (turn now report db a) pre r (post ++ [(now, report)]) := by
  obtain ⟨hsame, hstarted, hrest, hstays, hcloses⟩ := turn_spec now report hone ha
  have hsplit : rs ++ [(now, report)] = pre ++ r :: (post ++ [(now, report)]) := by
    rw [hst.split, List.append_assoc, List.cons_append]
  refine ⟨hsplit, by rw [hsame]; exact hst.carries, by rw [hsame]; exact hst.first,
    by rw [hsame, hstarted]; exact hst.started, fun hopen q hq => ?_, fun t ht => ?_⟩
  · have hopen' := open_of_turn hone ha hopen
    rw [hsame]
    rcases List.mem_append.mp hq with hq | hq
    · exact hst.lasting hopen' q hq
    · rw [List.mem_singleton.mp hq]
      exact carries_of_turn hone ha hkey hopen
  · rw [hsame]
    cases hended : a.endedAt with
    | some t' =>
        -- it was closed before
        have heq := hrest (Or.inl (by rw [hended]; exact Option.some_ne_none t'))
        rw [heq, hended] at ht
        obtain rfl := Option.some.inj ht
        obtain ⟨mid, q, rest, hpost, hmid, hq, hqt⟩ := hst.closed t' hended
        exact ⟨mid, q, rest ++ [(now, report)], by rw [hpost, List.append_assoc, List.cons_append], hmid,
          hq, hqt⟩
    | none =>
        -- it is closed by this report
        have hnot : ¬ Carries a.key (now, report) := by
          intro hcarries
          rw [(hstays hended hkey hcarries).1] at ht
          cases ht
        rw [(hcloses hended hkey hnot).1] at ht
        obtain rfl := Option.some.inj ht
        exact ⟨post, (now, report), [], rfl, hst.lasting hended, hnot, rfl⟩

/-- The report before did not carry the problem of an event that this one opens. -/
lemma Agrees.stretch_opened (h : Agrees rs db) (hown : Foreign report) {new : List Event}
    (hnew : List.Forall₂ (fun x e => ∃ id, e = opened now x.1 x.2 id) (fresh report db) new) {e : Event}
    (he : e ∈ new) : Stretch (rs ++ [(now, report)]) e rs (now, report) [] := by
  obtain ⟨hnone, hopen, -, p, hp, hkey, hstarted⟩ := mem_opened hnew he
  have hown' : e.key ≠ silentKey := by
    rw [← hkey]
    exact hown.1 p hp
  refine ⟨rfl, ⟨p, hp, hkey⟩, fun q hq hcarries => ?_, ⟨p, hp, hkey, hstarted⟩, fun _ => by simp, ?_⟩
  · obtain ⟨a, ha, haopen, hakey⟩ := h.shown q hq e.key hcarries
    exact openByKey_none hnone ha haopen (by rw [hakey]; exact hown') hakey
  · intro t ht
    rw [hopen] at ht
    cases ht

lemma Agrees.started_le (h : Agrees rs db) (htime : ∀ r ∈ rs, r.1 ≤ now) {e : Event}
    (he : e ∈ db.events.rows) : e.startedAt ≤ now := by
  obtain ⟨r, hr, hle⟩ := h.begun e he
  exact hle.trans (htime r (List.mem_of_getLast? hr))

/-- A report keeps the tables and the reports in agreement. -/
lemma Agrees.receive (h : Agrees rs db) (htime : ∀ r ∈ rs, r.1 ≤ now) (hown : Foreign report)
    (hrec : receive now report db = some db') : Agrees (rs ++ [(now, report)]) db' := by
  obtain ⟨hreceived, new, notes, hrows, hnew, hnoted⟩ := receive_spec hrec
  have hlast : (rs ++ [(now, report)]).getLast? = some (now, report) := List.getLast?_concat
  refine ⟨fun r hr => ?_, by rw [hreceived, hlast]; rfl, h.oneOpen_receive hown hrec, ?_, ?_, ?_, ?_,
    ?_, ?_⟩
  · rcases List.mem_append.mp hr with hr | hr
    · exact h.foreign r hr
    · rw [List.mem_singleton.mp hr]
      exact hown
  · intro e he hopen hkey
    refine ⟨_, hlast, ?_⟩
    rcases mem_receive hrows he with ⟨a, ha, rfl⟩ | hn | hn
    · rw [(turn_spec now report h.oneOpen ha).1] at hkey ⊢
      exact carries_of_turn h.oneOpen ha hkey hopen
    · obtain ⟨-, -, -, p, hp, hpkey, -⟩ := mem_opened hnew hn
      exact ⟨p, hp, hpkey⟩
    · obtain ⟨n, -, -, -, -, hclosed⟩ := hnoted e hn
      rw [hclosed] at hopen
      cases hopen
  · intro r hr key hcarries
    obtain rfl := Option.some.inj (hlast.symm.trans hr)
    exact h.shown_receive hrec hcarries
  · intro e he hopen
    rcases mem_receive hrows he with ⟨a, ha, rfl⟩ | hn | hn
    · obtain ⟨-, -, hrest, hstays, -⟩ := turn_spec now report h.oneOpen ha
      have hopen' := open_of_turn h.oneOpen ha hopen
      by_cases hkey : a.key = silentKey
      · rw [hrest (Or.inr hkey)]
        exact h.level a ha hopen'
      · exact (hstays hopen' hkey (carries_of_turn h.oneOpen ha hkey hopen)).2
    · exact (mem_opened hnew hn).2.2.1
    · obtain ⟨n, -, -, -, -, hclosed⟩ := hnoted e hn
      rw [hclosed] at hopen
      cases hopen
  · intro e he hkey hlevel
    rcases mem_receive hrows he with ⟨a, ha, rfl⟩ | hn | hn
    · obtain ⟨hsame, -, hrest, -, -⟩ := turn_spec now report h.oneOpen ha
      rw [hsame] at hkey
      have hlevel' : a.level ≠ .info := by
        cases hended : a.endedAt with
        | none => exact h.level a ha hended
        | some t =>
            rw [hrest (Or.inl (by rw [hended]; exact Option.some_ne_none t))] at hlevel
            exact hlevel
      obtain ⟨pre, r, post, hst⟩ := h.explained a ha hkey hlevel'
      exact ⟨pre, r, _, hst.turn h.oneOpen ha hkey⟩
    · exact ⟨rs, _, [], h.stretch_opened hown hnew hn⟩
    · obtain ⟨n, -, -, hinfo, -⟩ := hnoted e hn
      exact absurd hinfo hlevel
  · intro e he
    refine ⟨_, hlast, ?_⟩
    rcases mem_receive hrows he with ⟨a, ha, rfl⟩ | hn | hn
    · rw [(turn_spec now report h.oneOpen ha).2.1]
      exact h.started_le htime ha
    · obtain ⟨-, -, -, p, -, -, hstarted⟩ := mem_opened hnew hn
      rw [hstarted]
      exact ts_le _ _
    · obtain ⟨n, -, -, -, hstarted, -⟩ := hnoted e hn
      rw [hstarted]
      exact ts_le _ _
  · intro e he t ht
    rcases mem_receive hrows he with ⟨a, ha, rfl⟩ | hn | hn
    · obtain ⟨-, hstarted, hrest, hstays, hcloses⟩ := turn_spec now report h.oneOpen ha
      rw [hstarted]
      by_cases hheld : a.endedAt ≠ none ∨ a.key = silentKey
      · rw [hrest hheld] at ht
        exact h.ordered a ha t ht
      · rw [not_or, not_not] at hheld
        by_cases hcarries : Carries a.key (now, report)
        · rw [(hstays hheld.1 hheld.2 hcarries).1] at ht
          cases ht
        · rw [(hcloses hheld.1 hheld.2 hcarries).1] at ht
          obtain rfl := Option.some.inj ht
          exact h.started_le htime ha
    · rw [(mem_opened hnew hn).2.1] at ht
      cases ht
    · obtain ⟨n, -, -, -, hstarted, hclosed⟩ := hnoted e hn
      rw [hclosed] at ht
      rw [hstarted, Option.some.inj ht]

/-! ### A check -/

/-- What a check does to the tables: nothing, or the event of a silence is opened
or closed. -/
lemma watch_cases (now : ℚ) (mail : Bool) (db : Db) :
    ((watch now mail db).2 = db ∧ (watch now mail db).1 ≠ .alerted ∧ (watch now mail db).1 ≠ .recovered)
      ∨ (∃ last, db.receivedAt = some last ∧ staleAfterS < now - last ∧ silence db = none ∧ mail = true
        ∧ watch now mail db = (.alerted, openSilence last db))
      ∨ ∃ last e, db.receivedAt = some last ∧ ¬ staleAfterS < now - last ∧ silence db = some e
        ∧ mail = true ∧ watch now mail db = (.recovered, closeSilence now e db) := by
  simp only [watch]
  cases hlast : db.receivedAt with
  | none => exact Or.inl ⟨rfl, by simp, by simp⟩
  | some last =>
      by_cases hstale : staleAfterS < now - last
      · simp only [if_pos hstale]
        cases hopen : silence db with
        | some e => exact Or.inl ⟨rfl, by simp, by simp⟩
        | none =>
            cases mail with
            | true => exact Or.inr (Or.inl ⟨last, rfl, hstale, rfl, rfl, rfl⟩)
            | false => exact Or.inl ⟨rfl, by simp, by simp⟩
      · simp only [if_neg hstale]
        cases hopen : silence db with
        | none => exact Or.inl ⟨rfl, by simp, by simp⟩
        | some e =>
            cases mail with
            | true => exact Or.inr (Or.inr ⟨last, e, rfl, hstale, rfl, rfl, rfl⟩)
            | false => exact Or.inl ⟨rfl, by simp, by simp⟩

lemma silence_none (h : silence db = none) {e : Event} (he : e ∈ db.events.rows)
    (hkey : e.key = silentKey) : e.endedAt ≠ none := by
  have hnot := List.find?_eq_none.mp h e he
  simpa [hkey] using hnot

lemma silence_some {e : Event} (h : silence db = some e) :
    e ∈ db.events.rows ∧ e.key = silentKey ∧ e.endedAt = none := by
  have hfound := List.find?_some h
  rw [decide_eq_true_eq] at hfound
  exact ⟨List.mem_of_find?_eq_some h, hfound.1, hfound.2⟩

/-- The rows after the event of a silence is closed. -/
lemma mem_closeSilence {e b : Event} (h : silence db = some e) :
    b ∈ (closeSilence now e db).events.rows
      ↔ (b ∈ db.events.rows ∧ b.id ≠ e.id) ∨ b = { e with endedAt := some now } := by
  have hfind : db.events.find e.id = some e := Table.find_of_mem (silence_some h).1
  rw [closeSilence, Table.mem_update, hfind]
  simp only [Option.some.injEq, exists_eq_left']
  rfl

lemma Agrees.openSilence (h : Agrees rs db) {last : ℚ} (hlast : db.receivedAt = some last)
    (hnone : silence db = none) : Agrees rs (openSilence last db) := by
  have hmem : ∀ e, e ∈ (Panel.openSilence last db).events.rows ↔ e ∈ db.events.rows
      ∨ e = ⟨db.events.next, silentKey, .bad, "Мониторинг (am1) молчит", last, none⟩ := by
    intro e
    rw [Panel.openSilence, Table.rows_insert, List.mem_append, List.mem_singleton]
  obtain ⟨r, hr, hrlast⟩ := Option.map_eq_some_iff.mp (h.received.symm.trans hlast)
  refine ⟨h.foreign, h.received, ?_, ?_, ?_, ?_, ?_, ?_, ?_⟩
  · intro e he e' he' hopen hopen' hkey
    rcases (hmem e).mp he with he | rfl
    · rcases (hmem e').mp he' with he' | rfl
      · exact h.oneOpen e he e' he' hopen hopen' hkey
      · exact absurd hopen (silence_none hnone he hkey)
    · rcases (hmem e').mp he' with he' | rfl
      · exact absurd hopen' (silence_none hnone he' hkey.symm)
      · rfl
  · intro e he hopen hkey
    rcases (hmem e).mp he with he | rfl
    · exact h.known e he hopen hkey
    · exact absurd rfl hkey
  · intro q hq key hcarries
    obtain ⟨e, he, hopen⟩ := h.shown q hq key hcarries
    exact ⟨e, (hmem e).mpr (Or.inl he), hopen⟩
  · intro e he hopen
    rcases (hmem e).mp he with he | rfl
    · exact h.level e he hopen
    · simp
  · intro e he hkey hlevel
    rcases (hmem e).mp he with he | rfl
    · exact h.explained e he hkey hlevel
    · exact absurd rfl hkey
  · intro e he
    rcases (hmem e).mp he with he | rfl
    · exact h.begun e he
    · exact ⟨r, hr, hrlast.ge⟩
  · intro e he t ht
    rcases (hmem e).mp he with he | rfl
    · exact h.ordered e he t ht
    · cases ht

lemma Agrees.closeSilence (h : Agrees rs db) (htime : ∀ r ∈ rs, r.1 ≤ now) {e : Event}
    (hsome : silence db = some e) : Agrees rs (closeSilence now e db) := by
  obtain ⟨he, hkey, -⟩ := silence_some hsome
  refine ⟨h.foreign, h.received, ?_, ?_, ?_, ?_, ?_, ?_, ?_⟩
  · intro a ha a' ha' hopen hopen' hsame
    rcases (mem_closeSilence hsome).mp ha with ⟨ha, -⟩ | rfl
    · rcases (mem_closeSilence hsome).mp ha' with ⟨ha', -⟩ | rfl
      · exact h.oneOpen a ha a' ha' hopen hopen' hsame
      · cases hopen'
    · cases hopen
  · intro a ha hopen hakey
    rcases (mem_closeSilence hsome).mp ha with ⟨ha, -⟩ | rfl
    · exact h.known a ha hopen hakey
    · cases hopen
  · intro q hq key hcarries
    obtain ⟨a, ha, hopen, hakey⟩ := h.shown q hq key hcarries
    refine ⟨a, (mem_closeSilence hsome).mpr (Or.inl ⟨ha, fun hid => ?_⟩), hopen, hakey⟩
    -- a problem of a report is not the portal's own
    obtain ⟨p, hp, hpkey⟩ := hcarries
    have hsame : a = e := Table.eq_of_num_eq ha he hid
    refine (h.foreign q (List.mem_of_getLast? hq)).1 p hp ?_
    rw [hpkey, ← hakey, hsame, hkey]
  · intro a ha hopen
    rcases (mem_closeSilence hsome).mp ha with ⟨ha, -⟩ | rfl
    · exact h.level a ha hopen
    · cases hopen
  · intro a ha hakey hlevel
    rcases (mem_closeSilence hsome).mp ha with ⟨ha, -⟩ | rfl
    · exact h.explained a ha hakey hlevel
    · exact absurd hkey hakey
  · intro a ha
    rcases (mem_closeSilence hsome).mp ha with ⟨ha, -⟩ | rfl
    · exact h.begun a ha
    · exact h.begun e he
  · intro a ha t ht
    rcases (mem_closeSilence hsome).mp ha with ⟨ha, -⟩ | rfl
    · exact h.ordered a ha t ht
    · obtain rfl := Option.some.inj ht
      show e.startedAt ≤ now
      exact h.started_le htime he

lemma Agrees.watch (h : Agrees rs db) (htime : ∀ r ∈ rs, r.1 ≤ now) (mail : Bool) :
    Agrees rs (watch now mail db).2 := by
  rcases watch_cases now mail db with ⟨hsame, -⟩ | ⟨last, hlast, -, hnone, -, heq⟩
    | ⟨last, e, -, -, hsome, -, heq⟩
  · rw [hsame]
    exact h
  · rw [heq]
    exact h.openSilence hlast hnone
  · rw [heq]
    exact h.closeSilence htime hsome

end Keep

/-! ### Along every history -/

section Histories

variable {log : List Done} {db : Db}

lemma reports_received (log : List Done) (now : ℚ) (report : Report) :
    reports (log ++ [.received now report]) = reports log ++ [(now, report)] := by
  simp [reports]

lemma reports_watched (log : List Done) (now : ℚ) (mail : Bool) (verdict : Verdict) :
    reports (log ++ [.watched now mail verdict]) = reports log := by
  simp [reports]

lemma History.agrees (h : History log db) : Agrees (reports log) db := by
  induction h with
  | nil =>
      refine ⟨by simp [reports], rfl, ?_, ?_, ?_, ?_, ?_, ?_, ?_⟩
      · exact fun e he => absurd he List.not_mem_nil
      · exact fun e he => absurd he List.not_mem_nil
      · simp [reports]
      all_goals exact fun e he => absurd he List.not_mem_nil
  | receive _ htime hown hrec ih =>
      rw [reports_received]
      exact ih.receive htime hown hrec
  | watch now mail _ htime ih =>
      rw [reports_watched]
      exact ih.watch htime mail

/-- The rows of the portal's own event after a report. -/
lemma mem_silent_receive {now : ℚ} {report : Report} {db' : Db} (hone : OneOpen db)
    (hown : Foreign report) (hrec : receive now report db = some db') {e : Event}
    (hkey : e.key = silentKey) :
    e ∈ db'.events.rows ↔ e ∈ db.events.rows ∧ outdated now e = false := by
  obtain ⟨-, new, notes, hrows, hnew, hnoted⟩ := receive_spec hrec
  constructor
  · intro he
    refine ⟨?_, ?_⟩
    · rcases mem_receive hrows he with ⟨a, ha, rfl⟩ | hn | hn
      · obtain ⟨hsame, -, hrest, -⟩ := turn_spec now report hone ha
        rw [hrest (Or.inr (hsame ▸ hkey))]
        exact ha
      · obtain ⟨-, -, -, p, hp, hpkey, -⟩ := mem_opened hnew hn
        exact absurd (hpkey.trans hkey) (hown.1 p hp)
      · obtain ⟨n, hn, hnkey, -⟩ := hnoted e hn
        exact absurd (hnkey.symm.trans hkey) (hown.2 n hn)
    · rw [hrows] at he
      simpa using (List.mem_filter.mp he).2
  · rintro ⟨he, hkept⟩
    rw [hrows]
    refine List.mem_filter.mpr ⟨?_, by simp [hkept]⟩
    rw [List.mem_append, List.mem_append, List.mem_map]
    exact Or.inl (Or.inl ⟨e, he, (turn_spec now report hone he).2.2.1 (Or.inr hkey)⟩)

/-- **The history agrees with the reports.** After every sequence of accepted
reports and checks: every event of a problem was opened by the first report with
it after one without, and closed when the first later report without it was
received; no event ends before it starts, whatever times the reports carry. And
after every further report each of its problems has exactly one open event, there
is no other open event but the one about the monitor's silence, a notice within a
quarter of an hour of a stored event of its key adds no row, and the rows of the
portal's own event are what they were, up to the closed ones that are too old. -/
theorem history_agrees (h : History log db) :
    (∀ e ∈ db.events.rows, e.key ≠ silentKey → e.level ≠ .info → Explained (reports log) e)
      ∧ (∀ e ∈ db.events.rows, ∀ t, e.endedAt = some t → e.startedAt ≤ t)
      ∧ ∀ now report db', (∀ r ∈ reports log, r.1 ≤ now) → Foreign report →
        receive now report db = some db' →
        (∀ key, Carries key (now, report) →
          ∃! e, e ∈ db'.events.rows ∧ e.endedAt = none ∧ e.key = key)
        ∧ (∀ e ∈ db'.events.rows, e.endedAt = none → e.key = silentKey ∨ Carries e.key (now, report))
        ∧ (∀ a n b t t', report.notices = a ++ n :: b →
          a.foldlM (withNotice now) (withProblems now report db) = some t →
          withNotice now t n = some t' →
          (∃ e ∈ t.rows, e.key = n.key ∧ |e.startedAt - ts n.time now| ≤ 900) → t' = t)
        ∧ ∀ e, e.key = silentKey →
          (e ∈ db'.events.rows ↔ e ∈ db.events.rows ∧ outdated now e = false) := by
  refine ⟨h.agrees.explained, h.agrees.ordered, fun now report db' htime hown hrec => ?_⟩
  have hafter := h.agrees.receive htime hown hrec
  have hlast : (reports log ++ [(now, report)]).getLast? = some (now, report) := List.getLast?_concat
  refine ⟨fun key hcarries => ?_, fun e he hopen => ?_, ?_, fun e hkey =>
    mem_silent_receive h.agrees.oneOpen hown hrec hkey⟩
  · obtain ⟨e, he, hopen, hkey⟩ := hafter.shown _ hlast key hcarries
    refine ⟨e, ⟨he, hopen, hkey⟩, ?_⟩
    rintro e' ⟨he', hopen', hkey'⟩
    exact hafter.oneOpen e' he' e he hopen' hopen (hkey'.trans hkey.symm)
  · by_cases hkey : e.key = silentKey
    · exact Or.inl hkey
    · obtain ⟨r, hr, hcarries⟩ := hafter.known e he hopen hkey
      obtain rfl := Option.some.inj (hlast.symm.trans hr)
      exact Or.inr hcarries
  · rintro a n b t t' - - hnotice ⟨e, he, hkey, hnear⟩
    have hlate : ts n.time now - 900 ≤ e.startedAt := by
      linarith [(abs_le.mp hnear).1]
    have hseen : (t.rows.any fun e => e.key = n.key ∧ ts n.time now - 900 ≤ e.startedAt) = true :=
      List.any_eq_true.mpr ⟨e, he, decide_eq_true ⟨hkey, hlate⟩⟩
    simp only [withNotice, hseen, if_true] at hnotice
    split_ifs at hnotice
    exact (Option.some.inj hnotice).symm

end Histories

/-! ### An exit that is down -/

/-- A report with the exit down, and one without problems. -/
def downReport : Report := { problems := [⟨"exit:down", "exit: не отвечает", .bad, some 880⟩] }

def afterDown : Db := (receive 1000 downReport {}).get (by decide)

def afterUp : Db := (receive 1120 {} afterDown).get (by decide)

lemma history_down : History [.received 1000 downReport] afterDown :=
  .receive .nil (by simp [reports]) (by decide) (Option.some_get _).symm

lemma history_up : History [.received 1000 downReport, .received 1120 {}] afterUp := by
  refine History.receive history_down ?_ ⟨by simp, by simp⟩ (Option.some_get _).symm
  simp only [reports, List.filterMap_cons, List.filterMap_nil, List.mem_singleton, forall_eq]
  norm_num

/-- The event is open from the problem's beginning to the second report. -/
theorem history_agrees_exit :
    (afterUp.events.rows.map fun e => (e.key, e.startedAt, e.endedAt)) = [("exit:down", 880, some 1120)]
      ∧ ∀ e ∈ afterUp.events.rows, ∀ t, e.endedAt = some t → e.startedAt ≤ t :=
  ⟨by decide +kernel, (history_agrees history_up).2.1⟩

end VpnPortal.Panel
