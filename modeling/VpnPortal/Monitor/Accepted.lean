/-
Which reports the portal accepts.

The monitor puts names, lists and numbers of a probe into its texts as they come,
and the portal refuses a report with one key over 120 or one text over 300
characters. `HostRoom` says, check by check, how long the values may be; a host
that does not answer always fits, since the reason is cut. The texts of a report
come from this run or, for a host that does not answer, from the remembered
state, so runs whose values all have room only make reports that are accepted.

* `HostRoom`, `WebRoom`: room for the values of a run;
* `fits_hostProblems`, `fits_webChecks`: then the texts of all problems fit;
* `reports_accepted`: **every report of a sequence of such runs is accepted**;
* `long_units_refused`: a long list of failed units is refused.
-/
import VpnPortal.Monitor.Report
import VpnPortal.Tables.Table

namespace VpnPortal.Monitor

open Tables

/-! ### Room for the values -/

section Room

variable {F : Type} [Floats F]

/-- Room for what the probe of a host that answered puts into its problems: each
bound is on the values of one check, where it finds something. -/
structure HostRoom (limits : Limits F) (name : String) (sec : Section F) (probe : Values F) : Prop where
  disk : ∀ n, (probe.get? "disk_root_pct").bind Val.int? = some n → limits.diskPct ≤ n →
    name.length + (toString n).length ≤ 283
  mem : ∀ n, (probe.get? "mem_avail_pct").bind Val.int? = some n → n < limits.memAvailPct →
    name.length + (toString n).length ≤ 280
  load : ∀ load n x, (probe.get? "load1").bind Val.num? = some load → (ncpu probe).num? = some n →
    Floats.div load n = some x → Num.le (.float limits.loadPerCpu) (.float x) = true →
    name.length + load.shown.length + n.shown.length ≤ 281
  units : (probe.get? "failed_units").any Val.truthy = true →
    name.length + (unitNames probe).length ≤ 283
  clock : (probe.get? "clock_synced").any Val.isZero = false → ∀ skew far,
    (probe.get? "clock_skew_s").bind Val.num? = some skew →
    Num.le (.float limits.clockSkewS) skew.abs = true → Floats.fixed skew.abs = some far →
    name.length + far.length ≤ if Num.lt (.int 0) skew then 264 else 263
  link : ∀ ifname ∈ sec.links, (probe.get? ("awg." ++ ifname ++ ".fresh")).all
    (fun v => v.num?.any fun fresh => fresh.lt (.int 0) ∨ Num.lt (.int limits.linkStaleS) fresh) = true →
    name.length + ifname.length ≤ 114
  fresh : ∀ ifname ∈ sec.links, ∀ fresh : Num F,
    probe.get? ("awg." ++ ifname ++ ".fresh") = some (.num fresh) → fresh.lt (.int 0) = false →
    Num.lt (.int limits.linkStaleS) fresh = true →
    name.length + ifname.length + fresh.minutes.shown.length ≤ 252
  client : ∀ ifname ∈ sec.clients, probe.get? ("awg." ++ ifname ++ ".peers") = none →
    name.length + ifname.length ≤ 113
  full : ∀ pool ∈ sec.pools, ∀ use, usageOf sec probe pool = some use → limits.poolBadPct ≤ use.pct →
    name.length + use.label.length ≤ 110 ∧ name.length + (poolLabel use.label).length
      + (toString use.pct).length + (toString use.used).length + (toString use.size).length ≤ 245
  pool : ∀ pool ∈ sec.pools, ∀ use, usageOf sec probe pool = some use → use.pct < limits.poolBadPct →
    limits.poolWarnPct ≤ use.pct →
    name.length + use.label.length ≤ 114 ∧ name.length + (poolLabel use.label).length
      + (toString use.pct).length + (toString use.used).length + (toString use.size).length ≤ 280
  backup : ∀ tail, tooOld (sec.backupMaxH.getD limits.backupMaxH) (probe.get? "backup_age") = some true →
    hoursAgo (probe.get? "backup_age") = some tail → name.length + tail.length ≤ 276
  pulled : ∀ tail,
    tooOld (sec.pulledBackupMaxH.getD limits.pulledBackupMaxH) (probe.get? "pulled_backup_age")
      = some true →
    hoursAgo (probe.get? "pulled_backup_age") = some tail → name.length + tail.length ≤ 271
  failures : ∀ v, probe.get? "expiry_failures" = some v → v.truthy = true →
    tooOld (sec.expiryMaxH.getD limits.expiryMaxH) (probe.get? "expiry_age") = some false →
    name.length + v.shown.length ≤ 238
  containers : ∀ want up, (probe.get? "containers_expected").bind Val.int? = some want →
    (probe.get? "containers_up").bind Val.int? = some up → up < want →
    name.length + (toString up).length + (toString want).length ≤ 273

/-- Room for what the looks at the site put into theirs. -/
structure WebRoom (limits : Limits F) (urls : List (String × String)) (certs : List (String × Cert F)) :
    Prop where
  page : ∀ x ∈ urls, x.2 ≠ "" → x.1.length + x.2.length ≤ 278
  failed : ∀ host exc, (host, .error exc) ∈ certs → host.length + exc.length ≤ 274
  days : ∀ host days shown, (host, .ok days) ∈ certs →
    Num.lt (.float days) (.float limits.certMinDays) = true →
    Floats.fixed (.float days) = some shown → host.length + shown.length ≤ 270

end Room

/-! ### Problems that fit -/

section Checks

variable {F : Type} [Floats F] {limits : Limits F} {name : String} {sec : Section F} {probe : Values F}
  {found : List (String × String)}

lemma fits_down {call : Call} (hname : name.length ≤ 60)
    (h : hostProblems limits name sec none (runProbe (F := F) call).2 = some found) :
    ∀ x ∈ found, Fits x := by
  -- the reason is one of two texts, or is cut at 200 characters
  have hwhy : (runProbe (F := F) call).2.length ≤ 200 := by
    simp only [← String.length_toList]
    cases call with
    | timeout => simp [runProbe]
    | failed code stderr => simp [runProbe]
    | done stdout =>
        simp only [runProbe]
        split_ifs <;> simp
  obtain rfl := Option.some.inj h
  simp only [← String.length_toList] at hname hwhy
  simp [Fits, Bounded, ← String.length_toList]
  omega

lemma fits_checkDisk (hname : name.length ≤ 60) (room : HostRoom limits name sec probe)
    (h : checkDisk limits name probe = some found) : ∀ x ∈ found, Fits x := by
  rw [checkDisk] at h
  split at h
  · rename_i disk hdisk
    obtain rfl := Option.some.inj h
    split_ifs with hle
    · have hroom := room.disk disk hdisk hle
      simp [← String.length_toList] at hname hroom
      simp [Fits, Bounded, ← String.length_toList]
      omega
    · simp
  · obtain rfl := Option.some.inj h
    simp

lemma fits_checkMem (hname : name.length ≤ 60) (room : HostRoom limits name sec probe)
    (h : checkMem limits name probe = some found) : ∀ x ∈ found, Fits x := by
  rw [checkMem] at h
  split at h
  · rename_i mem hmem
    obtain rfl := Option.some.inj h
    split_ifs with hlt
    · have hroom := room.mem mem hmem hlt
      simp [← String.length_toList] at hname hroom
      simp [Fits, Bounded, ← String.length_toList]
      omega
    · simp
  · obtain rfl := Option.some.inj h
    simp

lemma fits_checkLoad (hname : name.length ≤ 60) (room : HostRoom limits name sec probe)
    (h : checkLoad limits name probe = some found) : ∀ x ∈ found, Fits x := by
  rw [checkLoad] at h
  split at h
  · rename_i load hload
    obtain ⟨n, hn, h⟩ := Option.bind_eq_some_iff.mp h
    obtain ⟨x, hx, h⟩ := Option.bind_eq_some_iff.mp h
    obtain rfl := Option.some.inj h
    split_ifs with hle
    · have hroom := room.load load n x hload hn hx hle
      simp only [← String.length_toList] at hname hroom
      simp [Fits, Bounded, ← String.length_toList]
      omega
    · simp
  · obtain rfl := Option.some.inj h
    simp

lemma fits_checkUnits (hname : name.length ≤ 60) (room : HostRoom limits name sec probe)
    (h : checkUnits name probe = some found) : ∀ x ∈ found, Fits x := by
  obtain rfl := Option.some.inj h
  split_ifs with htruthy
  · have hroom := room.units htruthy
    simp only [← String.length_toList] at hname hroom
    simp [Fits, Bounded, ← String.length_toList]
    omega
  · simp

lemma fits_checkClock (hname : name.length ≤ 60) (room : HostRoom limits name sec probe)
    (h : checkClock limits name probe = some found) : ∀ x ∈ found, Fits x := by
  rw [checkClock] at h
  split_ifs at h with hsynced
  · obtain rfl := Option.some.inj h
    simp only [← String.length_toList] at hname
    simp [Fits, Bounded, ← String.length_toList]
    omega
  · split at h
    · rename_i skew hskew
      by_cases hle : Num.le (.float limits.clockSkewS) skew.abs = true
      · rw [if_pos hle] at h
        obtain ⟨far, hfar, h⟩ := Option.bind_eq_some_iff.mp h
        obtain rfl := Option.some.inj h
        have hroom := room.clock (by simpa using hsynced) skew far hskew hle hfar
        simp only [← String.length_toList] at hname hroom
        split_ifs at hroom ⊢
        all_goals
          simp [Fits, Bounded, ← String.length_toList]
          omega
      · rw [if_neg hle] at h
        obtain rfl := Option.some.inj h
        simp
    · obtain rfl := Option.some.inj h
      simp

lemma fits_checkLink {ifname : String} (hname : name.length ≤ 60) (hif : ifname.length ≤ 60)
    (room : HostRoom limits name sec probe) (hmem : ifname ∈ sec.links)
    (h : checkLink limits name probe ifname = some found) : ∀ x ∈ found, Fits x := by
  have hkey := room.link ifname hmem
  rw [checkLink] at h
  split at h
  · rename_i hnone
    obtain rfl := Option.some.inj h
    have hroom := hkey (by simp [hnone])
    simp only [← String.length_toList] at hname hif hroom
    simp [Fits, Bounded, ← String.length_toList]
    omega
  · cases h
  · rename_i fresh hfresh
    obtain rfl := Option.some.inj h
    split_ifs with hstale
    · have hroom := hkey (by simpa [hfresh, Val.num?] using hstale)
      simp only [ago]
      split_ifs with hnever
      · simp only [← String.length_toList] at hname hif hroom
        simp [Fits, Bounded, ← String.length_toList]
        omega
      · have hlate := room.fresh ifname hmem fresh hfresh (by simpa using hnever)
          (hstale.resolve_left hnever)
        simp only [← String.length_toList] at hname hif hroom hlate
        simp [Fits, Bounded, ← String.length_toList]
        omega
    · simp

lemma fits_checkClient {ifname : String} (hname : name.length ≤ 60) (hif : ifname.length ≤ 60)
    (room : HostRoom limits name sec probe) (hmem : ifname ∈ sec.clients)
    (h : checkClient name probe ifname = some found) : ∀ x ∈ found, Fits x := by
  obtain rfl := Option.some.inj h
  split_ifs with hnone
  · have hroom := room.client ifname hmem (Option.isNone_iff_eq_none.mp hnone)
    simp only [← String.length_toList] at hname hif hroom
    simp [Fits, Bounded, ← String.length_toList]
    omega
  · simp

lemma fits_checkPool {pool : Pool} {use : PoolUse} (hname : name.length ≤ 60)
    (room : HostRoom limits name sec probe) (hmem : pool ∈ sec.pools)
    (huse : usageOf sec probe pool = some use) (h : checkPool limits name use = some found) :
    ∀ x ∈ found, Fits x := by
  obtain ⟨-, hfound⟩ := Option.ite_none_left_eq_some.mp h
  obtain rfl := Option.some.inj hfound
  split_ifs with hbad hwarn
  · have hroom := room.full pool hmem use huse hbad
    simp [← String.length_toList] at hname hroom
    simp [Fits, Bounded, poolText, ← String.length_toList]
    omega
  · have hroom := room.pool pool hmem use huse (by omega) hwarn
    simp [← String.length_toList] at hname hroom
    simp [Fits, Bounded, poolText, ← String.length_toList]
    omega
  · simp

/-- A backup's text has room for the hours if these have room behind it. -/
lemma fits_checkAge {own : Option F} {maxH : F} {age : Option (Val F)} {kind what : String}
    (hname : name.length ≤ 60) (hkind : kind.length ≤ 59) (hwhat : what.length ≤ 298)
    (hroom : ∀ tail, tooOld (own.getD maxH) age = some true → hoursAgo age = some tail →
      name.length + tail.length ≤ 298 - what.length)
    (h : checkAge name own maxH age kind what = some found) : ∀ x ∈ found, Fits x := by
  rw [checkAge] at h
  by_cases hchecked : own.isSome = true ∨ age.isSome = true
  · rw [if_pos hchecked] at h
    obtain ⟨old, hold, h⟩ := Option.bind_eq_some_iff.mp h
    cases old with
    | true =>
        rw [if_pos rfl] at h
        obtain ⟨tail, htail, h⟩ := Option.bind_eq_some_iff.mp h
        obtain rfl := Option.some.inj h
        have hlen := hroom tail hold htail
        simp only [← String.length_toList] at hname hkind hwhat hlen
        simp [Fits, Bounded, ← String.length_toList]
        omega
    | false =>
        obtain rfl := Option.some.inj h
        simp
  · rw [if_neg hchecked] at h
    obtain rfl := Option.some.inj h
    simp

lemma fits_checkBackup (hname : name.length ≤ 60) (room : HostRoom limits name sec probe)
    (h : checkBackup limits name sec probe = some found) : ∀ x ∈ found, Fits x :=
  fits_checkAge hname (by decide) (by decide) room.backup h

lemma fits_checkPulled (hname : name.length ≤ 60) (room : HostRoom limits name sec probe)
    (h : checkPulled limits name sec probe = some found) : ∀ x ∈ found, Fits x :=
  fits_checkAge hname (by decide) (by decide) room.pulled h

lemma fits_checkExpiry (hname : name.length ≤ 60) (room : HostRoom limits name sec probe)
    (h : checkExpiry limits name sec probe = some found) : ∀ x ∈ found, Fits x := by
  simp only [checkExpiry] at h
  by_cases hchecked : sec.expiryMaxH.isSome = true ∨ (probe.get? "expiry_age").isSome = true
  · rw [if_pos hchecked] at h
    obtain ⟨old, hold, h⟩ := Option.bind_eq_some_iff.mp h
    obtain rfl := Option.some.inj h
    cases old with
    | true =>
        rw [if_pos rfl]
        simp only [← String.length_toList] at hname
        simp [Fits, Bounded, ← String.length_toList]
        omega
    | false =>
        rw [if_neg (by decide)]
        split
        · rename_i v hv
          split_ifs with htruthy
          · have hroom := room.failures v hv htruthy hold
            simp only [← String.length_toList] at hname hroom
            simp [Fits, Bounded, ← String.length_toList]
            omega
          · simp
        · simp
  · rw [if_neg hchecked] at h
    obtain rfl := Option.some.inj h
    simp

lemma fits_checkContainers (hname : name.length ≤ 60) (room : HostRoom limits name sec probe)
    (h : checkContainers name probe = some found) : ∀ x ∈ found, Fits x := by
  rw [checkContainers] at h
  split at h
  · rename_i want up hwant hup
    obtain rfl := Option.some.inj h
    split_ifs with hlt
    · have hroom := room.containers want up hwant hup hlt
      simp [← String.length_toList] at hname hroom
      simp [Fits, Bounded, ← String.length_toList]
      omega
    · simp
  · obtain rfl := Option.some.inj h
    simp

/-- Every problem of a host whose values have room fits. -/
lemma fits_hostProblems (hname : name.length ≤ 60) (hlinks : ∀ i ∈ sec.links, i.length ≤ 60)
    (hclients : ∀ i ∈ sec.clients, i.length ≤ 60) (room : HostRoom limits name sec probe) {why : String}
    (h : hostProblems limits name sec (some probe) why = some found) : ∀ x ∈ found, Fits x := by
  obtain ⟨lists, hlists, rfl⟩ := Option.map_eq_some_iff.mp h
  intro x hx
  obtain ⟨l, hl, hx⟩ := List.mem_flatten.mp hx
  obtain ⟨check, hcheck, heq⟩ := exists_of_mem_mapM hlists l hl
  obtain rfl : check = some l := heq
  simp only [checks, List.mem_append, List.mem_cons, List.not_mem_nil, or_false, List.mem_map] at hcheck
  rcases hcheck with (((h | h | h | h | h) | ⟨i, hi, h⟩) | ⟨i, hi, h⟩) | h | h | h | h | h
  · exact fits_checkDisk hname room h.symm x hx
  · exact fits_checkMem hname room h.symm x hx
  · exact fits_checkLoad hname room h.symm x hx
  · exact fits_checkUnits hname room h.symm x hx
  · exact fits_checkClock hname room h.symm x hx
  · exact fits_checkLink hname (hlinks i hi) room hi h x hx
  · exact fits_checkClient hname (hclients i hi) room hi h x hx
  · obtain ⟨uses, huses, h⟩ := Option.bind_eq_some_iff.mp h.symm
    obtain ⟨parts, hparts, rfl⟩ := Option.map_eq_some_iff.mp h
    obtain ⟨part, hpart, hx⟩ := List.mem_flatten.mp hx
    obtain ⟨use, huse, hpool⟩ := exists_of_mem_mapM hparts part hpart
    obtain ⟨pool, hmem, husage⟩ := exists_of_mem_mapM huses use huse
    exact fits_checkPool hname room hmem husage hpool x hx
  · exact fits_checkBackup hname room h.symm x hx
  · exact fits_checkPulled hname room h.symm x hx
  · exact fits_checkExpiry hname room h.symm x hx
  · exact fits_checkContainers hname room h.symm x hx

/-- Every problem of the site fits. -/
lemma fits_webChecks {urls : List (String × String)} {certs : List (String × Cert F)}
    (hurls : ∀ x ∈ urls, x.1.length ≤ 60) (hcerts : ∀ x ∈ certs, x.1.length ≤ 60)
    (room : WebRoom limits urls certs) (h : webChecks limits urls certs = some found) :
    ∀ x ∈ found, Fits x := by
  obtain ⟨lists, hlists, h⟩ := Option.bind_eq_some_iff.mp h
  obtain rfl := Option.some.inj h
  intro x hx
  rcases List.mem_append.mp hx with hx | hx
  · obtain ⟨⟨url, why⟩, hurl, hx⟩ := List.mem_flatMap.mp hx
    simp only [checkPage] at hx
    split_ifs at hx with hwhy
    · have hroom := room.page _ hurl hwhy
      have hlen := hurls _ hurl
      obtain rfl := List.mem_singleton.mp hx
      simp only [← String.length_toList] at hlen hroom
      simp [Fits, Bounded, ← String.length_toList]
      omega
    · cases hx
  · obtain ⟨l, hl, hx⟩ := List.mem_flatten.mp hx
    obtain ⟨⟨host, cert⟩, hcert, hl⟩ := exists_of_mem_mapM hlists l hl
    have hlen := hcerts _ hcert
    cases cert with
    | error exc =>
        obtain rfl := Option.some.inj hl
        obtain rfl := List.mem_singleton.mp hx
        have hroom := room.failed host exc hcert
        simp only [← String.length_toList] at hlen hroom
        simp [Fits, Bounded, ← String.length_toList]
        omega
    | ok days =>
        simp only [checkCert] at hl
        split_ifs at hl with hlow
        · obtain ⟨shown, hshown, hl⟩ := Option.bind_eq_some_iff.mp hl
          obtain rfl := Option.some.inj hl
          obtain rfl := List.mem_singleton.mp hx
          have hroom := room.days host days shown hcert hlow hshown
          simp only [← String.length_toList] at hlen hroom
          simp [Fits, Bounded, ← String.length_toList]
          omega
        · obtain rfl := Option.some.inj hl
          cases hx

end Checks

/-! ### The texts of a run -/

/-- Every remembered problem has the property, with its text. -/
def Remembers (P : String × String → Prop) (state : State) : Prop :=
  ∀ x ∈ state.problems.entries, P (x.1, x.2.text)

/-- The texts of a run's problems were found on it or are remembered. -/
lemma mem_carryOver {state : State} {probes : Dict String (Option Probe)} {observed : Dict String String}
    {x : String × String} (h : x ∈ (carryOver state probes observed).entries) :
    x ∈ observed.entries ∨ ∃ s, (x.1, s) ∈ state.problems.entries ∧ s.text = x.2 := by
  have hkeep : ∀ (name : String) (l : List (String × Entry)) (d : Dict String String),
      (∀ y ∈ l, y ∈ state.problems.entries) →
      x ∈ (l.foldl (fun acc y => if OfHost name y.1 then acc.setdefault y.1 y.2.text else acc) d).entries →
      x ∈ d.entries ∨ ∃ s, (x.1, s) ∈ state.problems.entries ∧ s.text = x.2 := by
    intro name l
    induction l with
    | nil => exact fun d _ hx => Or.inl hx
    | cons y rest ih =>
        intro d hl hx
        rcases ih _ (fun z hz => hl z (List.mem_cons_of_mem _ hz)) hx with hx | hx
        · dsimp only at hx
          split_ifs at hx
          · rcases Dict.mem_setdefault hx with hx | rfl
            · exact Or.inl hx
            · exact Or.inr ⟨y.2, hl y List.mem_cons_self, rfl⟩
          · exact Or.inl hx
        · exact Or.inr hx
  have hfold : ∀ (l : List (String × Option Probe)) (d : Dict String String),
      x ∈ (l.foldl (carryHost state) d).entries →
      x ∈ d.entries ∨ ∃ s, (x.1, s) ∈ state.problems.entries ∧ s.text = x.2 := by
    intro l
    induction l with
    | nil => exact fun d hx => Or.inl hx
    | cons y rest ih =>
        intro d hx
        rcases ih _ hx with hx | hx
        · obtain ⟨name, _ | probe⟩ := y
          · exact hkeep name state.problems.entries d (fun z hz => hz) hx
          · exact Or.inl hx
        · exact Or.inr hx
  exact hfold probes.entries observed h

lemma text_keepSeen (cfg : Config) (now : ℚ) (old : Dict String Entry) (key text : String) :
    (keepSeen cfg now old key text).text = text := by
  simp only [keepSeen]
  split_ifs <;> rfl

/-- What a run is about to save was found on it or was remembered. -/
lemma Remembers.newState {P : String × String → Prop} {cfg : Config} {state : State} {r : Round}
    (hst : Remembers P state) (hfound : ∀ x ∈ r.observed.entries, P x) :
    Remembers P (newState cfg state r) := by
  intro x hx
  rw [problems_newState] at hx
  obtain ⟨y, hy, rfl⟩ := List.mem_map.mp hx
  rw [text_keepSeen]
  rcases mem_carryOver hy with h | ⟨s, hs, htext⟩
  · exact hfound _ h
  · rw [← htext]
    exact hst _ hs

lemma Remembers.run {P : String × String → Prop} {cfg : Config} {state : State} {r : Round}
    (hst : Remembers P state) (hfound : ∀ x ∈ r.observed.entries, P x) :
    Remembers P (run cfg state r).after := by
  rcases after_run cfg state r with h | h
  · rw [h]
    exact hst.newState hfound
  · rw [h]
    exact hst

lemma Remembers.confirmed {P : String × String → Prop} {cfg : Config} {state : State}
    (hst : Remembers P state) : ∀ p ∈ confirmed cfg state, P (p.key, p.text) := by
  intro p hp
  obtain ⟨x, hx, hpx⟩ := List.mem_filterMap.mp hp
  dsimp only at hpx
  split_ifs at hpx
  obtain rfl := Option.some.inj hpx
  exact hst x hx

/-- A reboot's notice names a host of the run, and there is one for a host. -/
lemma notices_reboots (state : State) (probes : Dict String (Option Probe)) (now : ℚ) :
    (reboots state probes now).2.notices.length ≤ probes.entries.length
      ∧ ∀ n ∈ (reboots state probes now).2.notices, ∃ x ∈ probes.entries,
        n.key = x.1 ++ ":reboot" ∧ n.text = x.1 ++ ": перезагрузился" := by
  have hfold : ∀ (l : List (String × Option Probe)) (acc : List Message × List Notice × Dict String ℚ),
      (l.foldl (fun acc x => rebootOf now acc x.1 x.2) acc).2.1.length ≤ acc.2.1.length + l.length
      ∧ ∀ n ∈ (l.foldl (fun acc x => rebootOf now acc x.1 x.2) acc).2.1, n ∈ acc.2.1 ∨ ∃ x ∈ l,
        n.key = x.1 ++ ":reboot" ∧ n.text = x.1 ++ ": перезагрузился" := by
    intro l
    induction l with
    | nil => exact fun acc => ⟨le_rfl, fun n hn => Or.inl hn⟩
    | cons x rest ih =>
        intro acc
        obtain ⟨hlen, hmem⟩ := ih (rebootOf now acc x.1 x.2)
        have hone : (rebootOf now acc x.1 x.2).2.1 = acc.2.1 ∨ ∃ at', (rebootOf now acc x.1 x.2).2.1
            = acc.2.1 ++ [⟨x.1 ++ ":reboot", x.1 ++ ": перезагрузился", at'⟩] := by
          simp only [rebootOf]
          split
          · exact Or.inl rfl
          · split
            · exact Or.inl rfl
            · split_ifs
              · exact Or.inr ⟨_, rfl⟩
              · exact Or.inl rfl
        rw [List.foldl_cons, List.length_cons]
        refine ⟨?_, fun n hn => ?_⟩
        · rcases hone with h | ⟨at', h⟩
          · rw [h] at hlen
            omega
          · rw [h, List.length_append, List.length_singleton] at hlen
            omega
        · rcases hmem n hn with h | ⟨y, hy, h⟩
          · rcases hone with heq | ⟨at', heq⟩
            · exact Or.inl (heq ▸ h)
            · rw [heq] at h
              rcases List.mem_append.mp h with h | h
              · exact Or.inl h
              · obtain rfl := List.mem_singleton.mp h
                exact Or.inr ⟨x, List.mem_cons_self, rfl, rfl⟩
          · exact Or.inr ⟨y, List.mem_cons_of_mem _ hy, h⟩
  obtain ⟨hlen, hmem⟩ := hfold probes.entries ([], [], state.boots)
  refine ⟨by simpa [reboots] using hlen, fun n hn => ?_⟩
  rcases hmem n hn with h | h
  · cases h
  · exact h

lemma notices_newState (cfg : Config) (state : State) (r : Round) :
    (newState cfg state r).notices
      = (reboots (step cfg r.now state (r.problems state)).2 r.probes r.now).2.notices := by
  rw [newState, withDigest]
  split_ifs <;> rfl

/-! ### Whole runs -/

section Runs

variable {F : Type} [Floats F]

/-- A configuration of the size the portal is meant for. -/
structure Modest (setup : Setup F) : Prop where
  few : setup.hosts.entries.length ≤ 20
  name : ∀ x ∈ setup.hosts.entries, x.1.length ≤ 60
  links : ∀ x ∈ setup.hosts.entries, ∀ i ∈ x.2.links, i.length ≤ 60
  clients : ∀ x ∈ setup.hosts.entries, ∀ i ∈ x.2.clients, i.length ≤ 60
  urls : ∀ url ∈ setup.urls, url.length ≤ 60
  certHosts : ∀ host ∈ setup.certHosts, host.length ≤ 60

/-- Room for everything that a look finds. -/
structure Room (setup : Setup F) (look : Look F) : Prop where
  host : ∀ x ∈ setup.hosts.entries, ∀ values why, probeOf setup look x = some (some values, why) →
    HostRoom setup.limits x.1 x.2 values
  web : WebRoom setup.limits (setup.urls.map fun url => (url, look.page url))
    (setup.certHosts.map fun host => (host, look.cert host))

variable {setup : Setup F} {look : Look F} {state : State}

/-- A host without values did not answer the call. -/
lemma why_of_probeOf {x : String × Section F} {why : String}
    (h : probeOf setup look x = some (none, why)) : why = (runProbe (F := F) (look.call x.1)).2 := by
  simp only [probeOf] at h
  split_ifs at h
  · exact (congrArg Prod.snd (Option.some.inj h)).symm
  · obtain ⟨p, -, hp⟩ := Option.map_eq_some_iff.mp h
    exact (congrArg Prod.snd hp).symm

lemma mem_probesOf {probes : List ((String × Section F) × Option (Values F) × String)}
    (h : probesOf setup look = some probes) {y : (String × Section F) × Option (Values F) × String}
    (hy : y ∈ probes) : y.1 ∈ setup.hosts.entries ∧ probeOf setup look y.1 = some y.2 := by
  obtain ⟨x, hx, heq⟩ := exists_of_mem_mapM h y hy
  obtain ⟨answer, hanswer, rfl⟩ := Option.map_eq_some_iff.mp heq
  exact ⟨hx, hanswer⟩

/-- Every problem that a look with room finds fits. -/
lemma fits_foundOf {probes : List ((String × Section F) × Option (Values F) × String)}
    {found : List (String × String)} (hsetup : Modest setup) (room : Room setup look)
    (hprobes : probesOf setup look = some probes) (h : foundOf setup look probes = some found) :
    ∀ x ∈ found, Fits x := by
  obtain ⟨hosts, hhosts, h⟩ := Option.bind_eq_some_iff.mp h
  obtain ⟨web, hweb, h⟩ := Option.bind_eq_some_iff.mp h
  obtain rfl := Option.some.inj h
  intro x hx
  rcases List.mem_append.mp hx with hx | hx
  · obtain ⟨l, hl, hx⟩ := List.mem_flatten.mp hx
    obtain ⟨⟨y, values, why⟩, hy, hl⟩ := exists_of_mem_mapM hhosts l hl
    obtain ⟨hmem, hprobe⟩ := mem_probesOf hprobes hy
    cases values with
    | none =>
        have hwhy : why = (runProbe (F := F) (look.call y.1)).2 := why_of_probeOf hprobe
        subst hwhy
        exact fits_down (hsetup.name y hmem) hl x hx
    | some values =>
        exact fits_hostProblems (hsetup.name y hmem) (hsetup.links y hmem) (hsetup.clients y hmem)
          (room.host y hmem values why hprobe) hl x hx
  · refine fits_webChecks ?_ ?_ room.web hweb x hx
    · simpa using hsetup.urls
    · simpa using hsetup.certHosts

/-- A look with room observes problems that fit, on hosts of the configuration. -/
lemma observe_spec {r : Round} (hsetup : Modest setup) (room : Room setup look)
    (h : observe setup look = some r) :
    (∀ x ∈ r.observed.entries, Fits x) ∧ r.probes.entries.length ≤ 20
      ∧ ∀ x ∈ r.probes.entries, x.1.length ≤ 60 := by
  obtain ⟨probes, hprobes, h⟩ := Option.bind_eq_some_iff.mp h
  obtain ⟨found, hfound, h⟩ := Option.bind_eq_some_iff.mp h
  obtain ⟨shown, hshown, h⟩ := Option.bind_eq_some_iff.mp h
  obtain rfl := Option.some.inj h
  refine ⟨fun x hx => ?_, ?_, fun x hx => ?_⟩
  · rcases Dict.mem_update hx with hx | hx
    · cases hx
    · exact fits_foundOf hsetup room hprobes hfound x hx
  · have hlen := Dict.length_update_le (Dict.empty : Dict String (Option Probe)) shown
    have hshownLen := (forall₂_of_mapM hshown).length_eq
    have hprobesLen := (forall₂_of_mapM hprobes).length_eq
    have hfew := hsetup.few
    have hempty : (Dict.empty : Dict String (Option Probe)).entries.length = 0 := rfl
    show ((Dict.empty : Dict String (Option Probe)).update shown).entries.length ≤ 20
    omega
  · rcases Dict.mem_update hx with hx | hx
    · cases hx
    · obtain ⟨y, hy, heq⟩ := exists_of_mem_mapM hshown x hx
      obtain ⟨p, -, rfl⟩ := Option.map_eq_some_iff.mp heq
      exact hsetup.name _ (mem_probesOf hprobes hy).1

/-- What a run leaves: nothing new if it raised. -/
def leftBy (setup : Setup F) (looks : List (Look F)) : State :=
  looks.foldl (fun state look => ((main setup state look).map fun x => x.1.after).getD state) {}

/-- What a run is made of. -/
lemma main_spec {o : Outcome} {report : Report F} (h : main setup state look = some (o, report)) :
    ∃ probes r, probesOf setup look = some probes ∧ observe setup look = some r
      ∧ buildReport setup look probes (newState setup.cfg state r) = some report
      ∧ o = run setup.cfg state r := by
  obtain ⟨probes, hprobes, h⟩ := Option.bind_eq_some_iff.mp h
  obtain ⟨r, hr, h⟩ := Option.bind_eq_some_iff.mp h
  obtain ⟨report', hreport, h⟩ := Option.bind_eq_some_iff.mp h
  obtain ⟨rfl, rfl⟩ := Prod.mk.inj (Option.some.inj h)
  exact ⟨probes, r, hprobes, hr, hreport, rfl⟩

/-- What the portal bounds of a report. -/
lemma buildReport_spec {probes : List ((String × Section F) × Option (Values F) × String)}
    {report : Report F} (h : buildReport setup look probes state = some report) :
    report.hosts = Dict.empty.update (probes.map fun x => (x.1.1, x.2.1))
      ∧ report.problems = confirmed setup.cfg state ∧ report.notices = state.notices := by
  obtain ⟨pools, -, h⟩ := Option.bind_eq_some_iff.mp h
  obtain rfl := Option.some.inj h
  exact ⟨rfl, rfl, rfl⟩

/-- What the runs leave was found on one of them. -/
lemma remembers_leftBy {P : String × String → Prop} {looks : List (Look F)}
    (hfound : ∀ look ∈ looks, ∀ r, observe setup look = some r → ∀ x ∈ r.observed.entries, P x) :
    Remembers P (leftBy setup looks) := by
  induction looks using List.reverseRecOn with
  | nil =>
      intro x hx
      cases hx
  | append_singleton looks look ih =>
      have hst := ih fun l hl => hfound l (List.mem_append_left _ hl)
      have hleft : leftBy setup (looks ++ [look]) = ((main setup (leftBy setup looks) look).map
          fun x => x.1.after).getD (leftBy setup looks) := by
        simp [leftBy]
      rw [hleft]
      cases hmain : main setup (leftBy setup looks) look with
      | none => exact hst
      | some out =>
          obtain ⟨o, report⟩ := out
          obtain ⟨-, r, -, hr, -, rfl⟩ := main_spec hmain
          exact hst.run (hfound look (by simp) r hr)

/-- What a run reports was found on it or on a run before it. -/
lemma reported {P : String × String → Prop} {pre : List (Look F)} {o : Outcome} {report : Report F}
    (hfound : ∀ l ∈ pre ++ [look], ∀ r, observe setup l = some r → ∀ x ∈ r.observed.entries, P x)
    (h : main setup (leftBy setup pre) look = some (o, report)) :
    ∀ p ∈ report.problems, P (p.key, p.text) := by
  obtain ⟨probes, r, -, hr, hreport, -⟩ := main_spec h
  obtain ⟨-, hproblems, -⟩ := buildReport_spec hreport
  rw [hproblems]
  have hst : Remembers P (leftBy setup pre) :=
    remembers_leftBy fun l hl => hfound l (List.mem_append_left _ hl)
  exact (hst.newState (hfound look (by simp) r hr)).confirmed

/-- **Every report is accepted.** For every configuration of at most 20 hosts with
names, interfaces and pages of at most 60 characters, and every sequence of runs
whose looks have room for what they find and that have at most 200 problems at a
time: the portal's model takes the report of every run. -/
theorem reports_accepted {looks : List (Look F)} (hsetup : Modest setup)
    (hroom : ∀ look ∈ looks, Room setup look)
    (hfew : ∀ pre look post r, looks = pre ++ look :: post → observe setup look = some r →
      (r.problems (leftBy setup pre)).entries.length ≤ 200) :
    ∀ pre look post o report, looks = pre ++ look :: post →
      main setup (leftBy setup pre) look = some (o, report) → Accepts report := by
  intro pre look post o report heq hmain
  obtain ⟨probes, r, hprobes, hr, hreport, -⟩ := main_spec hmain
  have hlook : Room setup look := hroom look (by simp [heq])
  obtain ⟨-, hprobesLen, hnames⟩ := observe_spec hsetup hlook hr
  obtain ⟨hhosts, hproblems, hnotes⟩ := buildReport_spec hreport
  have hnotices := notices_reboots (step setup.cfg r.now (leftBy setup pre)
    (r.problems (leftBy setup pre))).2 r.probes r.now
  rw [← notices_newState] at hnotices
  refine ⟨?_, ?_, ?_, ?_, ?_⟩
  · have hlen := Dict.length_update_le (Dict.empty : Dict String (Option (Values F)))
      (probes.map fun x => (x.1.1, x.2.1))
    have hprobesLen := (forall₂_of_mapM hprobes).length_eq
    have hfew := hsetup.few
    have hempty : (Dict.empty : Dict String (Option (Values F))).entries.length = 0 := rfl
    rw [List.length_map] at hlen
    rw [hhosts]
    omega
  · have hlen : (confirmed setup.cfg (newState setup.cfg (leftBy setup pre) r)).length
        ≤ (r.problems (leftBy setup pre)).entries.length := by
      refine (List.length_filterMap_le _ _).trans_eq ?_
      rw [problems_newState]
      exact List.length_map _
    rw [hproblems]
    exact hlen.trans (hfew pre look post r heq hr)
  · refine reported (P := Fits) (fun l hl r' hr' => (observe_spec hsetup (hroom l ?_) hr').1) hmain
    rw [heq, List.append_cons]
    exact List.mem_append_left _ hl
  · rw [hnotes]
    exact hnotices.1.trans (by omega)
  · intro n hn
    rw [hnotes] at hn
    obtain ⟨x, hx, hkey, htext⟩ := hnotices.2 n hn
    have hname := hnames x hx
    rw [hkey, htext]
    simp only [← String.length_toList] at hname
    simp [Fits, Bounded, ← String.length_toList]
    omega

end Runs

/-! ### Failed units -/

/-- The exit's probe with its failed units. -/
def unitsText (names : List Char) : String :=
  "host=exit\nfailed_units=25\nfailed_unit_names=" ++ String.ofList names ++ "\n"

/-- The exit answers with its failed units on two runs. -/
def unitsLook (names : List Char) (now : ℚ) : Look ℚ := exitLook now (.done (unitsText names)) true

/-- One unit that failed, and twenty-five. -/
def oneUnit : List Char := "a@0.service".toList

def manyUnits : List Char := (List.replicate 25 "a@0.service,".toList).flatten

/-- The values of this probe. -/
def unitsValues (names : String) : Values ℚ :=
  ⟨[("host", .text "exit"), ("failed_units", .num (.int 25)), ("failed_unit_names", .text names)],
    by simp⟩

lemma modest_exitSetup : Modest exitSetup := by
  refine ⟨?_, ?_, ?_, ?_, ?_, ?_⟩ <;> simp [exitSetup]
  decide

section Units

variable {names : List Char}

/-- The names are one line of the probe and nothing is stripped of them. -/
def OneLine (names : List Char) : Prop :=
  splitlines ("host=exit\nfailed_units=25\nfailed_unit_names=".toList ++ names ++ "\n".toList) []
      = ["host=exit".toList, "failed_units=25".toList, "failed_unit_names=".toList ++ names]
    ∧ Words.strip names = names

instance (names : List Char) : Decidable (OneLine names) := by
  unfold OneLine
  infer_instance

lemma toList_around (a b : String) (l : List Char) :
    (a ++ String.ofList l ++ b).toList = a.toList ++ l ++ b.toList := by
  simp

lemma text_units : (unitsText names).toList
        = "host=exit\nfailed_units=25\nfailed_unit_names=".toList ++ names ++ "\n".toList :=
  toList_around _ _ _

lemma parse_units (h : OneLine names) : parseProbe (F := ℚ) (unitsText names) = unitsValues (String.ofList (Words.strip names)) := by
  rw [parseProbe, text_units, h.1]
  rfl

lemma runProbe_units (h : OneLine names) :
    runProbe (F := ℚ) (.done (unitsText names)) = (some (unitsValues (String.ofList names)), "") := by
  rw [runProbe, parse_units h, h.2]
  rfl

lemma probesOf_units (h : OneLine names) (now : ℚ) : probesOf exitSetup (unitsLook names now)
    = some [(("exit", {}), some (unitsValues (String.ofList names)), "")] := by
  have hprobe : probeOf exitSetup (unitsLook names now) ("exit", {})
      = some (some (unitsValues (String.ofList names)), "") := by
    have hcall : runProbe (F := ℚ) ((unitsLook names now).call "exit")
        = (some (unitsValues (String.ofList names)), "") := runProbe_units h
    rw [probeOf, hcall]
    rfl
  have hone : probesOf exitSetup (unitsLook names now)
      = (probeOf exitSetup (unitsLook names now) ("exit", {})).map fun answer => [(("exit", {}), answer)] := by
    show [("exit", ({} : Section ℚ))].mapM _ = _
    rw [List.mapM_cons, List.mapM_nil]
    cases probeOf exitSetup (unitsLook names now) ("exit", {}) <;> rfl
  rw [hone, hprobe]
  rfl

/-- The round of such a look: the exit has one problem. -/
def unitsRound (names : List Char) (now : ℚ) : Round where
  now := now
  probes := Dict.empty.update [("exit", some ⟨none, (unitsValues (String.ofList names)).mapVal
    fun _ v => match v with
      | .num (.int n) => Value.int n
      | .num (.float x) => .text (Floats.repr x)
      | .text s => .text s⟩)]
  observed := Dict.empty.update
    [("exit" ++ ":units", "exit" ++ ": упали сервисы: " ++ String.ofList names)]
  sends := true

lemma observe_units (h : OneLine names) (now : ℚ) :
    observe exitSetup (unitsLook names now) = some (unitsRound names now) := by
  rw [observe, probesOf_units h]
  rfl

lemma problems_units (now : ℚ) (st : State) : ((unitsRound names now).problems st).entries
    = [("exit" ++ ":units", "exit" ++ ": упали сервисы: " ++ String.ofList names)] := rfl

lemma main_units (h : OneLine names) (now : ℚ) (st : State) :
    ∃ report, main exitSetup st (unitsLook names now) = some (run usual st (unitsRound names now), report)
      ∧ report.problems = confirmed usual (newState usual st (unitsRound names now)) := by
  rw [main, probesOf_units h, observe_units h]
  exact ⟨_, rfl, rfl⟩

lemma leftBy_units (h : OneLine names) (now : ℚ) :
    leftBy exitSetup [unitsLook names now] = (run usual {} (unitsRound names now)).after := by
  obtain ⟨report, hmain, -⟩ := main_units h now {}
  simp [leftBy, hmain]

/-- At most 200 problems at a time. -/
lemma few_units (h : OneLine names) : ∀ pre look post r,
    [unitsLook names 120, unitsLook names 240] = pre ++ look :: post → observe exitSetup look = some r →
      (r.problems (leftBy exitSetup pre)).entries.length ≤ 200 := by
  intro pre look post r heq hr
  have hmem : look ∈ [unitsLook names 120, unitsLook names 240] := by simp [heq]
  have hround : ∃ now, r = unitsRound names now := by
    simp only [List.mem_cons, List.not_mem_nil, or_false] at hmem
    rcases hmem with rfl | rfl <;> exact ⟨_, Option.some.inj (hr.symm.trans (observe_units h _))⟩
  obtain ⟨now, rfl⟩ := hround
  rw [problems_units]
  simp

/-- There is room for the names up to 279 characters. -/
lemma room_units (h : OneLine names) (hlen : names.length ≤ 279) (now : ℚ) :
    Room exitSetup (unitsLook names now) := by
  refine ⟨fun x hx values why hprobe => ?_, ⟨by simp [exitSetup], by simp [exitSetup],
    by simp [exitSetup]⟩⟩
  obtain rfl : x = ("exit", {}) := List.mem_singleton.mp hx
  have hcall : runProbe (F := ℚ) ((unitsLook names now).call "exit")
      = (some (unitsValues (String.ofList names)), "") := runProbe_units h
  have hvalues : some (some (unitsValues (String.ofList names)), "") = some (some values, why) := by
    rw [← hprobe, probeOf, hcall]
    rfl
  obtain ⟨hv, -⟩ := Prod.mk.inj (Option.some.inj hvalues)
  obtain rfl := Option.some.inj hv
  -- the probe has nothing for the other checks
  refine ⟨?_, ?_, ?_, fun _ => ?_, ?_, by simp, by simp, by simp, by simp, by simp, ?_, ?_, ?_, ?_⟩
  · rintro n ⟨⟩
  · rintro n ⟨⟩
  · rintro load n x ⟨⟩
  · have hnames : (unitNames (unitsValues (String.ofList names))).length = names.length :=
      String.length_ofList
    show 4 + (unitNames (unitsValues (String.ofList names))).length ≤ 283
    omega
  · rintro _ skew far ⟨⟩
  · rintro tail _ ⟨⟩
    decide
  · rintro tail _ ⟨⟩
    decide
  · rintro v ⟨⟩
  · rintro want up ⟨⟩

end Units

/-- One failed unit on two runs: the second report has the problem and is accepted. -/
theorem reports_accepted_unit :
    ∃ o report, main exitSetup (leftBy exitSetup [unitsLook oneUnit 120]) (unitsLook oneUnit 240)
        = some (o, report) ∧ report.problems ≠ [] ∧ Accepts report := by
  have hline : OneLine oneUnit := by decide
  have hroom : ∀ look ∈ [unitsLook oneUnit 120, unitsLook oneUnit 240], Room exitSetup look := by
    have hlen : oneUnit.length ≤ 279 := by decide
    simp only [List.mem_cons, List.not_mem_nil, or_false]
    rintro look (rfl | rfl) <;> exact room_units hline hlen _
  obtain ⟨report, hmain, hproblems⟩ := main_units hline 240 (leftBy exitSetup [unitsLook oneUnit 120])
  refine ⟨_, report, hmain, ?_, reports_accepted modest_exitSetup hroom (few_units hline)
    [unitsLook oneUnit 120] (unitsLook oneUnit 240) [] _ report rfl hmain⟩
  rw [hproblems, leftBy_units hline]
  refine List.ne_nil_of_length_pos ?_
  decide

/-- **A long list of failed units is refused.** Twenty-five units that failed on
the exit make a text of over 300 characters: the report of the second run has it,
and the portal refuses the whole report. -/
theorem long_units_refused :
    ¬ ∀ setup : Setup ℚ, Modest setup → ∀ looks : List (Look ℚ),
      (∀ pre look post r, looks = pre ++ look :: post → observe setup look = some r →
        (r.problems (leftBy setup pre)).entries.length ≤ 200) →
      ∀ pre look post o report, looks = pre ++ look :: post →
        main setup (leftBy setup pre) look = some (o, report) → Accepts report := by
  intro h
  have hline : OneLine manyUnits := by decide +kernel
  obtain ⟨report, hmain, hproblems⟩ := main_units hline 240 (leftBy exitSetup [unitsLook manyUnits 120])
  have haccepts := h exitSetup modest_exitSetup _ (few_units hline) [unitsLook manyUnits 120]
    (unitsLook manyUnits 240) [] _ report rfl hmain
  -- both looks find the long text, so whatever is reported has it
  have hlong : ∀ p ∈ report.problems, 300 < p.text.length := by
    refine reported (P := fun x => 300 < x.2.length) (fun l hl r hr x hx => ?_) hmain
    have hround : ∃ now, r = unitsRound manyUnits now := by
      simp only [List.mem_append, List.mem_cons, List.not_mem_nil, or_false] at hl
      rcases hl with rfl | rfl <;>
        exact ⟨_, Option.some.inj (hr.symm.trans (observe_units hline _))⟩
    obtain ⟨now, rfl⟩ := hround
    obtain rfl := List.mem_singleton.mp hx
    have hmany : manyUnits.length = 300 := by decide +kernel
    simp only [← String.length_toList]
    simp [hmany]
  have hsome : 0 < report.problems.length := by
    rw [hproblems, leftBy_units hline]
    decide
  obtain ⟨p, hp⟩ := List.exists_mem_of_length_pos hsome
  exact absurd (haccepts.problem p hp).2.2 (by simpa using hlong p hp)

end VpnPortal.Monitor
