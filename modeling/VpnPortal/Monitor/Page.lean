/-
The page that the admin sees of a report.

A report of the monitor has its problems on the cards of its page, as long as
there is a page: the moment it was sent and the moments of the backups have to be
within the years that `datetime` holds, in Moscow time too. The page says "нет
данных" for an age that is no number, but an age too far away raises.

* `Printed`: the values a probe prints, `Showable`: times that can be shown;
* `problems_on_cards`: **every problem of a report is on exactly one card** of its page,
  and there is a page exactly if the times on it can be shown;
* `far_backup_no_page`: a backup too far away.
-/
import VpnPortal.Monitor.Cards

namespace VpnPortal.Monitor

open Tables View

/-! ### Times that can be said -/

/-- `datetime` holds the moment. -/
def Held (t : Moment) : Prop := earliest ≤ t ∧ t ≤ latest

instance (t : Moment) : Decidable (Held t) := inferInstanceAs (Decidable (_ ∧ _))

/-- The moment can be said in Moscow time; the first of all days has no yesterday. -/
def Sayable (t now : Moment) : Prop :=
  Held (t + seconds 10800) ∧ Held (now + seconds 10800) ∧
    (dayOf (t + seconds 10800) = dayOf (now + seconds 10800) ∨
      dayOf (now + seconds 10800) ≠ dayOf earliest)

lemma holdable_eq_some_iff {t u : Moment} : holdable t = some u ↔ Held t ∧ t = u := by
  rw [holdable, Held]
  split_ifs with h
  · simp [h]
  · simp [h]

lemma dayWord_isSome_iff {t today : Moment} :
    (dayWord t today).isSome ↔ dayOf t = dayOf today ∨ dayOf today ≠ dayOf earliest := by
  rw [dayWord]
  split_ifs with h₁ h₂ h₃
  · simp [h₁]
  · simp [← h₂, h₁]
  · simp [h₂]
  · simp [h₂]

lemma when_isSome_iff {t now : Moment} : (when t now).isSome ↔ Sayable t now := by
  rw [Sayable, ← dayWord_isSome_iff, when]
  cases ht : msk t with
  | none =>
    refine iff_of_false (by simp) fun h => ?_
    rw [msk, holdable_eq_some_iff.mpr ⟨h.1, rfl⟩] at ht
    cases ht
  | some u =>
    obtain ⟨hheld, rfl⟩ := holdable_eq_some_iff.mp ht
    cases hnow : msk now with
    | none =>
      refine iff_of_false (by simp) fun h => ?_
      rw [msk, holdable_eq_some_iff.mpr ⟨h.2.1, rfl⟩] at hnow
      cases hnow
    | some today =>
      obtain ⟨hheld', rfl⟩ := holdable_eq_some_iff.mp hnow
      cases hday : dayWord (t + seconds 10800) (now + seconds 10800) <;>
        simp [hday, hheld, hheld']

/-! ### The lines of a host -/

section Lines

variable {F : Type} [Floats F] [LoadMarks F] {p : Values F} {base now : Moment}

/-- The values of `sov-probe` that the page counts with are whole numbers. -/
structure Printed (p : Values F) : Prop where
  ages : ∀ key ∈ ["backup_age", "pulled_backup_age", "expiry_age"], ∀ v, p.get? key = some v →
    ∃ n, v = .num (.int n)
  fresh : ∀ ifname v, p.get? ("awg." ++ ifname ++ ".fresh") = some v → ∃ n, v = .num (.int n)

/-- The backup of this age has a moment that can be said. -/
def ShowsAge (p : Values F) (base now : Moment) (key : String) : Prop :=
  ∀ n, p.get? key = some (.num (.int n)) →
    Held (base - seconds n) ∧ Sayable (base - seconds n) now

/-- A span between two moments is not too long for `timedelta`. -/
lemma days_of_span {b m : ℤ} (hb : -62135596800000000 ≤ b ∧ b ≤ 253402300799999999)
    (hm : -62135596800000000 ≤ b - m ∧ b - m ≤ 253402300799999999) :
    -999999999 ≤ m / 86400000000 ∧ m / 86400000000 ≤ 999999999 := by
  omega

lemma before_eq_some_iff (hbase : Held base) {n : ℤ} {t : Moment} :
    before (F := F) base (.int n) = some t ↔ Held (base - seconds n) ∧ base - seconds n = t := by
  rw [before]
  split_ifs with hdays
  · exact holdable_eq_some_iff
  · -- a span of more days than `timedelta` has leaves the years
    exact iff_of_false (by simp) fun h => hdays (days_of_span hbase h.1)

lemma stamp_isSome_iff (hbase : Held base) {n : ℤ} :
    (stamp (F := F) base now (.num (.int n))).isSome ↔
      Held (base - seconds n) ∧ Sayable (base - seconds n) now := by
  have hstamp : stamp (F := F) base now (.num (.int n)) = (before (F := F) base (.int n)).bind
      fun t => (when t now).bind fun day =>
        some (day ++ " (" ++ View.ago (whole (F := F) (.int n)) ++ ")") := rfl
  rw [hstamp, ← when_isSome_iff]
  cases hbefore : before (F := F) base (.int n) with
  | none =>
    refine iff_of_false (by simp) fun h => ?_
    rw [(before_eq_some_iff hbase).mpr ⟨h.1, rfl⟩] at hbefore
    cases hbefore
  | some t =>
    obtain ⟨hheld, rfl⟩ := (before_eq_some_iff hbase).mp hbefore
    cases hwhen : when (base - seconds n) now <;> simp [hwhen, hheld]

lemma ageLine_isSome_iff {key : String} {say : Val F → Option String} :
    (ageLine p key say).isSome ↔ ∀ v, p.get? key = some v → (say v).isSome := by
  rw [ageLine]
  cases hkey : p.get? key <;> simp

/-- A line about a backup. -/
lemma stampLine_isSome_iff (hbase : Held base) (hp : Printed p) {key text : String}
    (hkey : key ∈ ["backup_age", "pulled_backup_age", "expiry_age"]) :
    (ageLine p key fun v => (stamp base now v).map (text ++ ·)).isSome ↔
      ShowsAge p base now key := by
  rw [ageLine_isSome_iff]
  simp only [Option.isSome_map]
  constructor
  · intro h n hn
    exact (stamp_isSome_iff hbase).mp (h _ hn)
  · intro h v hv
    obtain ⟨n, rfl⟩ := hp.ages key hkey v hv
    exact (stamp_isSome_iff hbase).mpr (h n hv)

/-- The load that the monitor has judged can be put into a word. -/
lemma resources_isSome {limits : Limits F} {name : String} {found : List (String × String)}
    (h : checkLoad limits name p = some found) : (resources p).isSome := by
  have hword : (loadWord (p.get? "load1") (p.get? "ncpu")).isSome := by
    unfold checkLoad at h
    unfold loadWord
    cases hload : (p.get? "load1").bind Val.num? with
    | none => rfl
    | some x =>
      rw [hload] at h
      obtain ⟨n, hn, h⟩ := Option.bind_eq_some_iff.mp h
      obtain ⟨per, hper, -⟩ := Option.bind_eq_some_iff.mp h
      have hcpus : orOne (p.get? "ncpu") = some n := by
        unfold ncpu at hn
        cases hv : p.get? "ncpu" with
        | none =>
          rw [hv] at hn
          exact hn
        | some v =>
          rw [hv] at hn
          rw [orOne]
          dsimp only at hn
          split_ifs at hn ⊢ <;> exact hn
      rw [hcpus]
      simp [hper]
  unfold resources
  obtain ⟨word, hword⟩ := Option.isSome_iff_exists.mp hword
  rw [hword]
  rfl

/-- **The lines of a host** can be written iff its backups have moments that can be said. -/
lemma hostLines_isSome_iff (hbase : Held base) (hp : Printed p) (hload : (resources p).isSome)
    {clients : List String} {pools : List PoolUse} :
    (hostLines p clients base now pools).isSome ↔
      ∀ key ∈ ["backup_age", "pulled_backup_age"], ShowsAge p base now key := by
  have hexpiry : (ageLine p "expiry_age" fun v => (agoOf v).map fun text =>
      "Подписки проверены " ++ text ++ (((p.get? "expiry_failures").filter Val.truthy).map
        fun n => ", ошибок: " ++ n.shown).getD "").isSome := by
    rw [ageLine_isSome_iff]
    intro v hv
    obtain ⟨n, rfl⟩ := hp.ages "expiry_age" (by simp) v hv
    rfl
  have hbackup : (ageLine p "backup_age" fun v =>
      (stamp base now v).map ("Бэкап базы: " ++ ·)).isSome ↔ ShowsAge p base now "backup_age" :=
    stampLine_isSome_iff hbase hp (by simp)
  have hpulled : (ageLine p "pulled_backup_age" fun v =>
      (stamp base now v).map ("Копия бэкапа здесь: " ++ ·)).isSome ↔
        ShowsAge p base now "pulled_backup_age" :=
    stampLine_isSome_iff hbase hp (by simp)
  simp only [List.mem_cons, List.not_mem_nil, or_false, forall_eq_or_imp, forall_eq]
  rw [← hbackup, ← hpulled, hostLines]
  obtain ⟨load, hload⟩ := Option.isSome_iff_exists.mp hload
  obtain ⟨expiry, hexpiry⟩ := Option.isSome_iff_exists.mp hexpiry
  rw [hload, hexpiry]
  cases hb : ageLine p "backup_age" fun v => (stamp base now v).map ("Бэкап базы: " ++ ·) with
  | none => simp
  | some backup =>
    cases hc : ageLine p "pulled_backup_age" fun v =>
      (stamp base now v).map ("Копия бэкапа здесь: " ++ ·) <;> simp

end Lines

/-! ### The cards of a report -/

section Report

variable {F : Type} [Floats F] [LoadMarks F] {setup : Setup F} {r : Report F}
  {receivedAt base now : Moment}

/-- What a page needs of the values of a report: they are printed by a probe, and
the load has been judged. -/
def Readable (r : Report F) : Prop :=
  ∀ x ∈ r.hosts.entries, ∀ p, x.2 = some p → Printed p ∧ (resources p).isSome

/-- The moments of the backups of a report can be said. -/
def ShowsBackups (r : Report F) (base now : Moment) : Prop :=
  ∀ x ∈ r.hosts.entries, ∀ p, x.2 = some p →
    ∀ key ∈ ["backup_age", "pulled_backup_age"], ShowsAge p base now key

/-- The times of a page can be shown: when the report was sent, when its backups
were made, and since when the monitor is silent. -/
def Showable (r : Report F) (receivedAt now : Moment) : Prop :=
  (∃ base, baseOf r receivedAt = some base ∧ ShowsBackups r base now) ∧
    (seconds staleAfterS < now - receivedAt → Sayable receivedAt now)

lemma hostCard_isSome_iff {x : String × Option (Values F)} : (hostCard r base now x).isSome ↔
    ∀ p, x.2 = some p → (hostLines p ((r.clients.lookup x.1).getD []) base now
      ((r.pools.lookup x.1).getD [])).isSome := by
  unfold hostCard
  cases x.2 with
  | none => simp
  | some p =>
    cases h : hostLines p ((r.clients.lookup x.1).getD []) base now ((r.pools.lookup x.1).getD [])
      <;> simp [h]

lemma hostCards_isSome_iff (hbase : Held base) (hread : Readable r) :
    (r.hosts.entries.mapM (hostCard r base now)).isSome ↔ ShowsBackups r base now := by
  rw [mapM_isSome_iff]
  refine forall₂_congr fun x hx => ?_
  rw [hostCard_isSome_iff]
  refine forall₂_congr fun p hp => ?_
  obtain ⟨hprinted, hload⟩ := hread x hx p hp
  exact hostLines_isSome_iff hbase hprinted hload

lemma linkLine_isSome {name ifname : String} {probe : Option (Values F)}
    (hprinted : ∀ p, probe = some p → Printed p) : (linkLine name probe ifname).isSome := by
  unfold linkLine
  cases probe with
  | none => rfl
  | some p =>
    dsimp only
    cases hfresh : p.get? ("awg." ++ ifname ++ ".fresh") with
    | none => rfl
    | some v =>
      obtain ⟨n, rfl⟩ := (hprinted p rfl).fresh ifname v hfresh
      rfl

lemma linksCard_isSome (hread : Readable r) : (linksCard r).isSome := by
  have hlines : (linkLines r).isSome := by
    have hmap : (r.links.mapM fun x : String × List String =>
        x.2.mapM (linkLine x.1 ((r.hosts.get? x.1).bind id))).isSome := by
      refine mapM_isSome_iff.mpr fun x _ => mapM_isSome_iff.mpr fun ifname _ => ?_
      refine linkLine_isSome fun p hp => ?_
      obtain ⟨v, hv, rfl⟩ := Option.bind_eq_some_iff.mp hp
      exact (hread _ (Dict.get?_eq_some_iff.mp hv) p rfl).1
    obtain ⟨lines, hlines⟩ := Option.isSome_iff_exists.mp hmap
    rw [linkLines, hlines]
    rfl
  obtain ⟨lines, hlines⟩ := Option.isSome_iff_exists.mp hlines
  rw [linksCard, hlines]
  rfl

/-- There are lines of links iff there are links. -/
lemma linkLines_eq_nil_iff (hr : Reports setup r) {lines : List String}
    (h : linkLines r = some lines) : lines = [] ↔ r.links = [] := by
  obtain ⟨lists, hlists, h⟩ := Option.bind_eq_some_iff.mp h
  obtain rfl := Option.some.inj h
  have hall := forall₂_of_mapM hlists
  constructor
  · intro hnil
    by_contra hne
    obtain ⟨x, hx⟩ := List.exists_mem_of_ne_nil _ hne
    -- an entry of the links has at least one interface
    have hifaces : x.2 ≠ [] := by
      rw [hr.links] at hx
      obtain ⟨y, hy, rfl⟩ := List.mem_map.mp hx
      simpa using (List.mem_filter.mp hy).2
    obtain ⟨l, hl, hmap⟩ := exists_right_of_mapM hlists hx
    obtain rfl := List.flatten_eq_nil_iff.mp hnil l hl
    have hlen := (forall₂_of_mapM hmap).length_eq
    exact hifaces (List.eq_nil_of_length_eq_zero hlen)
  · intro hnil
    rw [hnil] at hall
    cases hall
    rfl

/-- **The cards fit the seats.** -/
lemma cardsOf_fits (hr : Reports setup r) (hnames : ProperNames setup) {cards : List Card}
    (h : cardsOf r receivedAt now = some cards) :
    List.Forall₂ (CardFits r.problems) (seatsOf r) cards := by
  obtain ⟨base, -, h⟩ := Option.bind_eq_some_iff.mp h
  obtain ⟨hosts, hhosts, h⟩ := Option.bind_eq_some_iff.mp h
  obtain ⟨links, hlinks, h⟩ := Option.bind_eq_some_iff.mp h
  obtain rfl := Option.some.inj h
  have hhost : List.Forall₂ (CardFits r.problems)
      (r.hosts.entries.map fun x => Seat.host x.1) hosts := by
    rw [List.forall₂_map_left_iff]
    exact ((List.forall₂_and_left _ _).mpr ⟨fun x hx => hx, forall₂_of_mapM hhosts⟩).imp
      fun x c hc => hr.host_fits hnames hc.1 hc.2
  have hlink : List.Forall₂ (CardFits r.problems) (if r.links = [] then [] else [.links])
      links := by
    obtain ⟨lines, hlines, hlinks⟩ := Option.bind_eq_some_iff.mp hlinks
    obtain rfl := Option.some.inj hlinks
    by_cases hnil : r.links = []
    · rw [if_pos hnil, if_pos ((linkLines_eq_nil_iff hr hlines).mpr hnil)]
      exact .nil
    · rw [if_neg hnil, if_neg fun h => hnil ((linkLines_eq_nil_iff hr hlines).mp h)]
      refine .cons (card_fits (hr.links_perm hnames) ?_) .nil
      split_ifs with h
      · exact .inr (.inr h.2)
      · exact .inl rfl
  exact .cons (hr.site_fits hnames) (List.rel_append hlink hhost)

lemma held_baseOf (hreceived : Held receivedAt) (h : baseOf r receivedAt = some base) :
    Held base := by
  unfold baseOf at h
  split_ifs at h
  · obtain rfl := Option.some.inj h
    exact hreceived
  · obtain ⟨hheld, rfl⟩ := holdable_eq_some_iff.mp h
    exact hheld

/-- The cards can be made iff the moments on them can be said. -/
lemma cardsOf_isSome_iff (hread : Readable r) (hreceived : Held receivedAt) :
    (cardsOf r receivedAt now).isSome ↔
      ∃ base, baseOf r receivedAt = some base ∧ ShowsBackups r base now := by
  obtain ⟨links, hlinks⟩ := Option.isSome_iff_exists.mp (linksCard_isSome hread)
  cases hbase : baseOf r receivedAt with
  | none => simp [cardsOf, hbase]
  | some base =>
    have hheld := held_baseOf hreceived hbase
    have hcards : (cardsOf r receivedAt now).isSome ↔
        (r.hosts.entries.mapM (hostCard r base now)).isSome := by
      rw [cardsOf, hbase, hlinks]
      cases hhosts : r.hosts.entries.mapM (hostCard r base now) <;> simp [hhosts]
    rw [hcards, hostCards_isSome_iff hheld hread]
    simp

/-- **A page is shown iff its times can be.** -/
lemma build_isSome_iff (hread : Readable r) (hreceived : Held receivedAt) :
    (build (some r) (some receivedAt) now).isSome ↔ Showable r receivedAt now := by
  rw [Showable, ← cardsOf_isSome_iff hread hreceived, ← when_isSome_iff, build]
  cases hcards : cardsOf r receivedAt now with
  | none => simp
  | some cards =>
    by_cases hstale : seconds staleAfterS < now - receivedAt
    · cases when receivedAt now <;> simp [hstale]
    · simp [hstale]

/-- A page has every problem on one card, and while it is fresh the highest colour
of its cards. -/
def PlacesAll (r : Report F) (receivedAt now : Moment) (page : Page) : Prop :=
  OnOneCard r.problems page.cards ∧
    (now - receivedAt ≤ seconds staleAfterS →
      page.status ∈ page.cards.map Card.status ∧ ∀ c ∈ page.cards, c.status.rank ≤ page.status.rank)

/-- The page of a report of this configuration. -/
lemma build_places (hr : Reports setup r) (hnames : ProperNames setup) {page : Page}
    (h : build (some r) (some receivedAt) now = some page) : PlacesAll r receivedAt now page := by
  obtain ⟨cards, hcards, h⟩ := Option.bind_eq_some_iff.mp h
  have hone : OnOneCard r.problems cards :=
    onOneCard_of_seats (cardsOf_fits hr hnames hcards) (seatsOf_nodup r) (hr.seated hnames)
  by_cases hstale : seconds staleAfterS < now - receivedAt
  · rw [if_pos hstale] at h
    obtain ⟨since, -, h⟩ := Option.bind_eq_some_iff.mp h
    obtain rfl := Option.some.inj h
    exact ⟨hone, fun hfresh => absurd hstale (not_lt.mpr hfresh)⟩
  · rw [if_neg hstale] at h
    obtain rfl := Option.some.inj h
    refine ⟨hone, fun _ => ⟨?_, fun c hc => le_highest _ (List.mem_map_of_mem hc)⟩⟩
    -- the card of the site is always there
    obtain ⟨c, rest, rfl⟩ : ∃ c rest, cards = c :: rest := by
      obtain ⟨c, rest, -, -, heq⟩ := List.forall₂_cons_left_iff.mp (cardsOf_fits hr hnames hcards)
      exact ⟨c, rest, heq⟩
    exact highest_mem

end Report

/-! ### The reports of the runs -/

section Runs

variable {F : Type} [Floats F] {setup : Setup F} {pre : List (Look F)} {look : Look F}
  {o : Outcome} {report : Report F}

/-- A run reports the hosts of its configuration with the answers of their probes. -/
lemma hosts_of_main {state : State} (h : main setup state look = some (o, report)) :
    (∀ x ∈ report.hosts.entries, ∃ y ∈ setup.hosts.entries, y.1 = x.1 ∧
      ∃ why, probeOf setup look y = some (x.2, why)) ∧
    ∀ y ∈ setup.hosts.entries, ∃ v, (y.1, v) ∈ report.hosts.entries := by
  obtain ⟨probes, _, hprobes, _, hreport, _⟩ := main_spec h
  obtain ⟨hhosts, -, -⟩ := buildReport_spec hreport
  rw [hhosts]
  refine ⟨fun x hx => ?_, fun y hy => ?_⟩
  · rcases Dict.mem_update hx with hx | hx
    · cases hx
    · obtain ⟨z, hz, rfl⟩ := List.mem_map.mp hx
      obtain ⟨hmem, hprobe⟩ := mem_probesOf hprobes hz
      exact ⟨z.1, hmem, rfl, z.2.2, hprobe⟩
  · by_contra hnone
    have hget := Dict.get?_eq_none_iff.mpr fun v hv => hnone ⟨v, hv⟩
    rw [Dict.get?_update_eq_none] at hget
    obtain ⟨z, hz, hzy⟩ := exists_right_of_mapM hprobes hy
    obtain ⟨answer, -, rfl⟩ := Option.map_eq_some_iff.mp hzy
    exact hget.2 _ (List.mem_map_of_mem hz) rfl

/-- The report of a run, after any history of runs. -/
lemma reports_of_main (h : main setup (leftBy setup pre) look = some (o, report)) :
    Reports setup report := by
  obtain ⟨hknown, hall⟩ := hosts_of_main h
  refine ⟨?_, fun x hx => ?_, hall, ?_⟩
  · exact reported (P := fun x => Keyed setup x.1)
      (fun l _ r hr x hx => keyed_observed hr x hx) h
  · obtain ⟨y, hy, heq, -⟩ := hknown x hx
    exact ⟨y, hy, heq⟩
  · obtain ⟨probes, r, _, _, hreport, _⟩ := main_spec h
    obtain ⟨pools, -, hpools⟩ := Option.bind_eq_some_iff.mp hreport
    obtain rfl := Option.some.inj hpools
    rfl

/-- The load of a host that answered has been judged. -/
lemma checkLoad_of_main {state : State} (h : main setup state look = some (o, report))
    {y : String × Section F} (hy : y ∈ setup.hosts.entries) {p : Values F} {why : String}
    (hp : probeOf setup look y = some (some p, why)) :
    ∃ found, checkLoad setup.limits y.1 p = some found := by
  obtain ⟨_, r, _, hr, _, _⟩ := main_spec h
  obtain ⟨probes, hprobes, hr⟩ := Option.bind_eq_some_iff.mp hr
  obtain ⟨found, hfound, -⟩ := Option.bind_eq_some_iff.mp hr
  obtain ⟨hosts, hhosts, -⟩ := Option.bind_eq_some_iff.mp hfound
  obtain ⟨z, hz, hzy⟩ := exists_right_of_mapM hprobes hy
  obtain ⟨answer, hanswer, rfl⟩ := Option.map_eq_some_iff.mp hzy
  obtain rfl := Option.some.inj (hp.symm.trans hanswer)
  obtain ⟨l, -, hl⟩ := exists_right_of_mapM hhosts hz
  obtain ⟨lists, hlists, -⟩ := Option.map_eq_some_iff.mp hl
  obtain ⟨load, -, hload⟩ := exists_right_of_mapM (x := checkLoad setup.limits y.1 p) hlists
    (by simp [checks])
  exact ⟨load, hload⟩

variable [LoadMarks F] {receivedAt now : Moment}

/-- The probes of the look print what `sov-probe` prints. -/
def PrintsValues (setup : Setup F) (look : Look F) : Prop :=
  ∀ y ∈ setup.hosts.entries, ∀ p why, probeOf setup look y = some (some p, why) → Printed p

/-- What a run reports can be read by the page. -/
lemma readable_of_main {state : State} (hprints : PrintsValues setup look)
    (h : main setup state look = some (o, report)) : Readable report := by
  intro x hx p hp
  obtain ⟨y, hy, -, why, hprobe⟩ := (hosts_of_main h).1 x hx
  rw [hp] at hprobe
  obtain ⟨found, hfound⟩ := checkLoad_of_main h hy hprobe
  exact ⟨hprints y hy p why hprobe, resources_isSome hfound⟩

/-- **Every problem is on exactly one card.** For every configuration whose names
tell the keys apart, every history of runs and every report after it: the page
of the report has each of its problems on exactly one card, if and only if the
times of the page can be shown; otherwise there is no page. -/
theorem problems_on_cards (hnames : ProperNames setup) (hprints : PrintsValues setup look)
    (h : main setup (leftBy setup pre) look = some (o, report)) (hreceived : Held receivedAt) :
    (∃ page, build (some report) (some receivedAt) now = some page ∧
      PlacesAll report receivedAt now page) ↔ Showable report receivedAt now := by
  have hread := readable_of_main hprints h
  rw [← build_isSome_iff hread hreceived, Option.isSome_iff_exists]
  constructor
  · rintro ⟨page, hpage, -⟩
    exact ⟨page, hpage⟩
  · rintro ⟨page, hpage⟩
    exact ⟨page, hpage, build_places (reports_of_main h) hnames hpage⟩

end Runs

/-! ### A backup -/

instance exactMarks : LoadMarks ℚ := ⟨7 / 10, 3 / 2⟩

/-- The exit has a failed unit, and a backup of some age. -/
def agedText (age : String) : String :=
  "host=exit\nfailed_units=1\nfailed_unit_names=a@0.service\nbackup_age=" ++ age ++ "\n"

def agedLook (age : String) (now : ℚ) : Look ℚ := exitLook now (.done (agedText age)) true

/-- The values of this probe. -/
def agedValues (age : ℤ) : Values ℚ :=
  ⟨[("host", .text "exit"), ("failed_units", .num (.int 1)),
    ("failed_unit_names", .text "a@0.service"), ("backup_age", .num (.int age))], by simp⟩

lemma proper_exitSetup : ProperNames exitSetup := by
  intro x hx
  obtain rfl := List.mem_singleton.mp hx
  exact ⟨by decide, by decide, by decide⟩

section Aged

variable {text : String} {age : ℤ} (hparse : parseProbe (F := ℚ) (agedText text) = agedValues age)

include hparse in
lemma probeOf_aged (now : ℚ) : probeOf exitSetup (agedLook text now) ("exit", {})
    = some (some (agedValues age), "") := by
  have hcall : runProbe (F := ℚ) ((agedLook text now).call "exit")
      = (some (agedValues age), "") := by
    show runProbe (F := ℚ) (.done (agedText text)) = _
    rw [runProbe, hparse]
    rfl
  rw [probeOf, hcall]
  rfl

lemma printed_aged : Printed (agedValues age) := by
  refine ⟨fun key hkey v hv => ?_, fun ifname v hv => ?_⟩
  · simp only [List.mem_cons, List.not_mem_nil, or_false] at hkey
    rcases hkey with rfl | rfl | rfl
    · exact ⟨age, (Option.some.inj hv).symm⟩
    · cases hv
    · cases hv
  · -- no key of the probe begins with `awg.`
    have hmem := Dict.get?_eq_some_iff.mp hv
    simp only [agedValues, List.mem_cons, Prod.mk.injEq, List.not_mem_nil, or_false,
      ← String.toList_inj, String.toList_append] at hmem
    simp at hmem

include hparse in
lemma prints_aged (now : ℚ) : PrintsValues exitSetup (agedLook text now) := by
  intro y hy p why hp
  obtain rfl := List.mem_singleton.mp hy
  rw [probeOf_aged hparse] at hp
  obtain ⟨hp, -⟩ := Prod.mk.inj (Option.some.inj hp)
  obtain rfl := Option.some.inj hp
  exact printed_aged

include hparse in
/-- A report has the probe of the exit. -/
lemma hosts_aged {state : State} {now : ℚ} {o : Outcome} {report : Report ℚ}
    (h : main exitSetup state (agedLook text now) = some (o, report)) :
    ∀ x ∈ report.hosts.entries, x = ("exit", some (agedValues age)) := by
  intro x hx
  obtain ⟨y, hy, hname, why, hprobe⟩ := (hosts_of_main h).1 x hx
  obtain rfl := List.mem_singleton.mp hy
  rw [probeOf_aged hparse] at hprobe
  obtain ⟨hvalue, -⟩ := Prod.mk.inj (Option.some.inj hprobe)
  exact Prod.ext hname.symm hvalue.symm

end Aged

/-- That far ahead there is no moment. -/
lemma not_held_far {base : Moment} (hbase : Held base) :
    ¬ Held (base - seconds (-100000000000000)) := by
  have hspan : ∀ b : ℤ, -62135596800000000 ≤ b →
      ¬ b - -100000000000000000000 ≤ 253402300799999999 := by
    omega
  exact fun h => hspan base hbase.1 h.2

/-- The second run of two with a failed unit reports it. -/
def reportsOne (age : String) : Bool :=
  (main exitSetup (leftBy exitSetup [agedLook age 120]) (agedLook age 240)).any fun x =>
    x.2.problems.length = 1 ∧ x.2.sentAt = 240

/-- A backup of a hundred seconds: the failed unit is on the page. -/
theorem problems_on_cards_near : ∃ o report page,
    main exitSetup (leftBy exitSetup [agedLook "100" 120]) (agedLook "100" 240) = some (o, report) ∧
      report.problems.length = 1 ∧
      build (some report) (some (seconds 240)) (seconds 240) = some page ∧
      PlacesAll report (seconds 240) (seconds 240) page := by
  have hparse : parseProbe (F := ℚ) (agedText "100") = agedValues 100 := rfl
  have hsome : reportsOne "100" = true := by decide +kernel
  obtain ⟨⟨o, report⟩, hmain, hone⟩ := (Option.any_eq_true _ _).mp hsome
  obtain ⟨hone, hsent⟩ : report.problems.length = 1 ∧ report.sentAt = 240 := by simpa using hone
  have hshow : Showable report (seconds 240) (seconds 240) := by
    refine ⟨⟨seconds 240, ?_, fun x hx p hp key hkey n hn => ?_⟩, fun h => absurd h (by decide)⟩
    · rw [baseOf, hsent]
      decide +kernel
    · obtain rfl := hosts_aged hparse hmain x hx
      obtain rfl := Option.some.inj hp
      simp only [List.mem_cons, List.not_mem_nil, or_false] at hkey
      rcases hkey with rfl | rfl
      · obtain rfl : 100 = n := by simpa using Option.some.inj hn
        exact ⟨by decide, by decide, by decide, by decide⟩
      · cases hn
  obtain ⟨page, hpage, hplaces⟩ := (problems_on_cards proper_exitSetup (prints_aged hparse _) hmain
    (by decide)).mpr hshow
  exact ⟨o, report, page, hmain, hone, hpage, hplaces⟩

/-- **A far backup takes the page away.** The age of a backup that leaves the years
of `datetime`: the failed unit is reported and there is no page. -/
theorem far_backup_no_page :
    ¬ ∀ (setup : Setup ℚ) (pre : List (Look ℚ)) (look : Look ℚ) (o : Outcome) (report : Report ℚ)
      (receivedAt now : Moment), ProperNames setup → PrintsValues setup look →
        main setup (leftBy setup pre) look = some (o, report) → Held receivedAt → Held now →
        ∃ page, build (some report) (some receivedAt) now = some page ∧
          PlacesAll report receivedAt now page := by
  intro h
  have hparse : parseProbe (F := ℚ) (agedText "-100000000000000") = agedValues (-100000000000000) :=
    rfl
  have hsome : reportsOne "-100000000000000" = true := by decide +kernel
  obtain ⟨⟨o, report⟩, hmain, -⟩ := (Option.any_eq_true _ _).mp hsome
  obtain ⟨page, hpage, -⟩ := h _ _ _ o report (seconds 240) (seconds 240) proper_exitSetup
    (prints_aged hparse _) hmain (by decide) (by decide)
  have hread := readable_of_main (prints_aged hparse _) hmain
  obtain ⟨⟨base, hbase, hshows⟩, -⟩ := (build_isSome_iff hread (by decide)).mp
    (Option.isSome_iff_exists.mpr ⟨page, hpage⟩)
  obtain ⟨v, hv⟩ := (hosts_of_main hmain).2 ("exit", {}) List.mem_cons_self
  obtain rfl : v = some (agedValues (-100000000000000)) :=
    congrArg Prod.snd (hosts_aged hparse hmain _ hv)
  have hfar := (hshows _ hv _ rfl "backup_age" List.mem_cons_self _ rfl).1
  exact not_held_far (held_baseOf (by decide) hbase) hfar

end VpnPortal.Monitor
