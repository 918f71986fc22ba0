/-
Which outputs the monitor's run comes through
(`infrastructure/monitoring/sov_monitor.py`).

Some checks look at the type of a value before they use it and some do not, so a
text can meet a comparison, and a number that is too large a division or a
format. `Probing.HostFine` says of one host's values what the run relies on, check
by check; every part of it is needed, and a host that does not answer needs
nothing.

* `PythonFloats`: where the operations of `float` raise;
* `hostProblems_isSome`, `parsePools_isSome`, `reboots_isSome`: the parts come through
  exactly for values of the right types and sizes;
* `Probing.HostFine`, `Probing.chain_completes_iff`: **the run comes through** exactly if
  every host that answered is fine;
* `text_handshake_stops_run`: one word on one host stops it.
-/
import VpnPortal.Monitor.Accepted
import VpnPortal.Monitor.Chain

namespace VpnPortal.Monitor

open Tables Numerals

/-! ### Numbers that fit -/

/-- A number that becomes a `float`. -/
def Num.Fits {F : Type} : Num F → Prop
  | .int n => n.natAbs < floatBound
  | .float _ => True

/-- `x / y` has a result: of two integers the quotient is rounded once, any other
pair is made `float` first. -/
def Divides {F : Type} : Num F → Num F → Prop
  | .int m, .int n => m.natAbs < floatBound * n.natAbs
  | x, y => x.Fits ∧ y.Fits

/-- Python's `float`: its operations raise on integers that are too large, and
only on these. -/
class PythonFloats (F : Type) [Floats F] [Uptimes F] : Prop where
  sub_isSome : ∀ (x : Num F) (y : F), (Floats.sub x y).isSome = true ↔ x.Fits
  fixed_isSome : ∀ x : Num F, (Floats.fixed x).isSome = true ↔ x.Fits
  div_isSome : ∀ x y : Num F, y.isZero = false → ((Floats.div x y).isSome = true ↔ Divides x y)
  bootAt_isSome : ∀ (now : F) (x : Num F), (Uptimes.bootAt now x).isSome = true ↔ x.Fits

/-! ### What each check relies on -/

section Checks

variable {F : Type} [Floats F]

lemma numbered_iff {addr : String} {ip : List Char} : numbered addr ip = true ↔
    (rpartition ip).1 = addr.toList ∧ (rpartition ip).2 ≠ []
      ∧ (rpartition ip).2.all isDigit = true :=
  decide_eq_true_iff

/-- An address of the pool's net can be read. -/
lemma lastOf_isSome (addr : String) (ip : List Char) : (lastOf addr ip).isSome = true ↔
    (numbered addr ip = true → (rpartition ip).2.all (fun c => (decimal? c).isSome) = true
      ∧ (rpartition ip).2.length ≤ 4300) := by
  unfold lastOf
  split
  · rename_i hnum
    obtain ⟨-, hne, hdigit⟩ := numbered_iff.mp hnum
    rw [Option.isSome_map, readInt_isSome hne hdigit]
    simp [hnum]
  · rename_i hnum
    simp [hnum]

/-- What the pools of a section rely on, given the pools: none of size nought or
of a size that cannot be written, and addresses of their nets that can be read. -/
def PoolFine (sec : Section F) (probe : Values F) (pool : Pool) : Prop :=
  pool.hi - pool.lo + 1 ≠ 0 ∧ writable (pool.hi - pool.lo + 1) = true
    ∧ ∀ ip ∈ clientIps sec probe, numbered pool.addr ip = true →
      (rpartition ip).2.all (fun c => (decimal? c).isSome) = true ∧ (rpartition ip).2.length ≤ 4300

lemma usageOf_isSome (sec : Section F) (probe : Values F) (pool : Pool) :
    (usageOf sec probe pool).isSome = true ↔ pool.hi - pool.lo + 1 ≠ 0
      ∧ ∀ ip ∈ clientIps sec probe, (lastOf pool.addr ip).isSome = true := by
  rw [← mapM_isSome_iff, usageOf]
  cases (clientIps sec probe).mapM (lastOf pool.addr) with
  | none => simp
  | some ends =>
      by_cases hsize : pool.hi - pool.lo + 1 = 0
      · simp [hsize]
      · simp [hsize]

lemma size_of_usageOf {sec : Section F} {probe : Values F} {pool : Pool} {use : PoolUse}
    (h : usageOf sec probe pool = some use) : use.size = pool.hi - pool.lo + 1 := by
  obtain ⟨ends, -, h⟩ := Option.bind_eq_some_iff.mp h
  obtain ⟨-, h⟩ := Option.ite_none_left_eq_some.mp h
  obtain rfl := Option.some.inj h
  rfl

omit [Floats F] in
lemma checkPool_isSome (limits : Limits F) (name : String) (use : PoolUse) :
    (checkPool limits name use).isSome = true ↔ writable use.size = true := by
  unfold checkPool
  cases writable use.size <;> simp

/-- The pools of a section, counted and judged. -/
lemma checkPools_isSome (limits : Limits F) (name : String) (sec : Section F) (probe : Values F) :
    ((poolUsage sec probe).bind fun pools =>
        (pools.mapM (checkPool limits name)).map List.flatten).isSome = true
      ↔ ∀ pool ∈ sec.pools, PoolFine sec probe pool := by
  constructor
  · intro h pool hpool
    obtain ⟨found, hfound⟩ := Option.isSome_iff_exists.mp h
    obtain ⟨uses, huses, hfound⟩ := Option.bind_eq_some_iff.mp hfound
    obtain ⟨parts, hparts, -⟩ := Option.map_eq_some_iff.mp hfound
    have husage := mapM_isSome_iff.mp (Option.isSome_iff_exists.mpr ⟨uses, huses⟩) pool hpool
    obtain ⟨use, huse⟩ := Option.isSome_iff_exists.mp husage
    have hmem : use ∈ uses := by
      obtain ⟨k, hk, rfl⟩ := List.getElem_of_mem hpool
      have hall := forall₂_of_mapM huses
      have hget := hall.get hk (hall.length_eq ▸ hk)
      obtain rfl := Option.some.inj (huse.symm.trans hget)
      exact List.get_mem _ _
    have hcheck := mapM_isSome_iff.mp (Option.isSome_iff_exists.mpr ⟨parts, hparts⟩) use hmem
    obtain ⟨hsize, hends⟩ := (usageOf_isSome sec probe pool).mp husage
    refine ⟨hsize, ?_, fun ip hip => (lastOf_isSome pool.addr ip).mp (hends ip hip)⟩
    rw [← size_of_usageOf huse]
    exact (checkPool_isSome limits name use).mp hcheck
  · intro h
    have huses : (poolUsage sec probe).isSome = true := by
      refine mapM_isSome_iff.mpr fun pool hpool => (usageOf_isSome sec probe pool).mpr ?_
      obtain ⟨hsize, -, hends⟩ := h pool hpool
      exact ⟨hsize, fun ip hip => (lastOf_isSome pool.addr ip).mpr (hends ip hip)⟩
    obtain ⟨uses, huses⟩ := Option.isSome_iff_exists.mp huses
    have hparts : (uses.mapM (checkPool limits name)).isSome = true := by
      refine mapM_isSome_iff.mpr fun use huse => (checkPool_isSome limits name use).mpr ?_
      obtain ⟨pool, hpool, husage⟩ := exists_of_mem_mapM huses use huse
      rw [size_of_usageOf husage]
      exact (h pool hpool).2.1
    rw [huses, Option.bind_some, Option.isSome_map]
    exact hparts

variable (limits : Limits F) (name : String) (probe : Values F)

/-- `ncpu` is never a zero. -/
lemma isZero_ncpu {n : Num F} (h : (ncpu probe).num? = some n) : n.isZero = false := by
  unfold ncpu at h
  split at h
  · split at h
    · rename_i v _ htruthy
      cases v with
      | num x =>
          obtain rfl := Option.some.inj h
          simpa [Val.truthy] using htruthy
      | text t => cases h
    · obtain rfl := Option.some.inj h
      rfl
  · obtain rfl := Option.some.inj h
    rfl

lemma fits_abs (x : Num F) : x.abs.Fits ↔ x.Fits := by
  cases x with
  | int n => simp [Num.abs, Num.Fits, Int.natAbs_abs]
  | float x => simp [Num.abs, Num.Fits]

/-- A load is divided by a number. -/
def LoadFine : Prop := ∀ load, (probe.get? "load1").bind Val.num? = some load →
  ∃ n, (ncpu probe).num? = some n ∧ Divides load n

/-- A skew that is told can be written. -/
def SkewFine : Prop := (probe.get? "clock_synced").any Val.isZero = false →
  ∀ skew, (probe.get? "clock_skew_s").bind Val.num? = some skew →
    Num.le (.float limits.clockSkewS) skew.abs = true → skew.Fits

/-- The last handshake is a number, if it is there. -/
def LinkFine (ifname : String) : Prop := ∀ t, probe.get? ("awg." ++ ifname ++ ".fresh") ≠ some (.text t)

/-- The age of a backup is a number, and if it is too old its hours are one too. -/
def AgeFine (maxH : F) : Option (Val F) → Prop
  | none => True
  | some (.text _) => False
  | some (.num age) => Num.lt (.float (Floats.hours maxH)) age = true → Divides age (.int 3600)

lemma checkLink_isSome (ifname : String) :
    (checkLink limits name probe ifname).isSome = true ↔ LinkFine probe ifname := by
  unfold checkLink LinkFine
  split
  · rename_i h
    simp [h]
  · rename_i t h
    simp [h]
  · rename_i fresh h
    simp [h]

lemma checkExpiry_isSome (sec : Section F) : (checkExpiry limits name sec probe).isSome = true ↔
    ∀ t, probe.get? "expiry_age" ≠ some (.text t) := by
  unfold checkExpiry
  cases probe.get? "expiry_age" with
  | none => cases sec.expiryMaxH <;> simp [tooOld]
  | some v => cases v <;> simp [tooOld]

/-- What the checks of a host rely on, that of its clock apart. -/
structure ValuesFine (sec : Section F) : Prop where
  load : LoadFine probe
  link : ∀ ifname ∈ sec.links, LinkFine probe ifname
  pool : ∀ pool ∈ sec.pools, PoolFine sec probe pool
  backup : AgeFine (sec.backupMaxH.getD limits.backupMaxH) (probe.get? "backup_age")
  pulled : AgeFine (sec.pulledBackupMaxH.getD limits.pulledBackupMaxH) (probe.get? "pulled_backup_age")
  expiry : ∀ t, probe.get? "expiry_age" ≠ some (.text t)

section Python

variable [Uptimes F] [PythonFloats F]

lemma checkLoad_isSome : (checkLoad limits name probe).isSome = true ↔ LoadFine probe := by
  unfold checkLoad LoadFine
  cases (probe.get? "load1").bind Val.num? with
  | none => simp
  | some load =>
      cases hn : (ncpu probe).num? with
      | none => simp
      | some n =>
          have hdiv := PythonFloats.div_isSome load n (isZero_ncpu probe hn)
          cases hx : Floats.div load n with
          | none =>
              rw [hx] at hdiv
              simpa [hx] using hdiv
          | some x =>
              rw [hx] at hdiv
              simpa [hx] using hdiv

lemma checkClock_isSome : (checkClock limits name probe).isSome = true ↔ SkewFine limits probe := by
  unfold checkClock SkewFine
  cases (probe.get? "clock_synced").any Val.isZero with
  | true => simp
  | false =>
      cases (probe.get? "clock_skew_s").bind Val.num? with
      | none => simp
      | some skew =>
          have hfixed := PythonFloats.fixed_isSome skew.abs
          rw [fits_abs] at hfixed
          cases hle : Num.le (.float limits.clockSkewS) skew.abs with
          | false => simp [hle]
          | true =>
              cases hfar : Floats.fixed skew.abs with
              | none =>
                  rw [hfar] at hfixed
                  simpa [hle, hfar] using hfixed
              | some far =>
                  rw [hfar] at hfixed
                  simpa [hle, hfar] using hfixed

lemma checkAge_isSome (own : Option F) (maxH : F) (age : Option (Val F)) (kind what : String) :
    (checkAge name own maxH age kind what).isSome = true ↔ AgeFine (own.getD maxH) age := by
  cases age with
  | none => cases own <;> simp [checkAge, AgeFine, tooOld, hoursAgo]
  | some v =>
      cases v with
      | text t => simp [checkAge, AgeFine, tooOld]
      | num age =>
          have hdiv := PythonFloats.div_isSome age (.int 3600) rfl
          cases hold : Num.lt (.float (Floats.hours (own.getD maxH))) age with
          | false => simp [checkAge, AgeFine, tooOld, hold]
          | true =>
              cases hx : Floats.div age (.int 3600) with
              | none =>
                  rw [hx] at hdiv
                  simpa [checkAge, AgeFine, tooOld, hoursAgo, hold, hx] using hdiv
              | some x =>
                  rw [hx] at hdiv
                  have hfixed := (PythonFloats.fixed_isSome (Num.float x)).mpr trivial
                  obtain ⟨shown, hshown⟩ := Option.isSome_iff_exists.mp hfixed
                  simpa [checkAge, AgeFine, tooOld, hoursAgo, hold, hx, hshown] using hdiv

/-- `host_problems` ends exactly if the values are what its checks rely on. -/
lemma hostProblems_isSome (sec : Section F) (why : String) :
    (hostProblems limits name sec (some probe) why).isSome = true
      ↔ SkewFine limits probe ∧ ValuesFine limits probe sec := by
  have hdisk : (checkDisk limits name probe).isSome = true := by
    unfold checkDisk
    split <;> rfl
  have hmem : (checkMem limits name probe).isSome = true := by
    unfold checkMem
    split <;> rfl
  have hcontainers : (checkContainers name probe).isSome = true := by
    unfold checkContainers
    split <;> rfl
  have hunits : (checkUnits name probe).isSome = true := rfl
  have hclient : ∀ ifname, (checkClient name probe ifname).isSome = true := fun _ => rfl
  have hall : (hostProblems limits name sec (some probe) why).isSome = true
      ↔ ∀ c ∈ checks limits name sec probe, c.isSome = true := by
    rw [hostProblems, Option.isSome_map, mapM_isSome_iff]
    rfl
  rw [hall]
  simp only [checks, List.forall_mem_append, List.forall_mem_cons, List.forall_mem_map,
    List.not_mem_nil, false_imp_iff, implies_true, and_true, hdisk, hmem, hunits, hclient,
    hcontainers, true_and, checkLoad_isSome, checkClock_isSome, checkLink_isSome,
    checkPools_isSome, checkBackup, checkPulled, checkAge_isSome, checkExpiry_isSome]
  constructor
  · rintro ⟨⟨⟨hload, hclock⟩, hlink⟩, hpool, hbackup, hpulled, hexpiry⟩
    exact ⟨hclock, hload, hlink, hpool, hbackup, hpulled, hexpiry⟩
  · rintro ⟨hclock, hload, hlink, hpool, hbackup, hpulled, hexpiry⟩
    exact ⟨⟨⟨hload, hclock⟩, hlink⟩, hpool, hbackup, hpulled, hexpiry⟩

end Python

/-! ### The skew that am1 writes -/

lemma awg_ne (ifname part : String) : "awg." ++ ifname ++ part ≠ "clock_skew_s" := by
  intro h
  have hlist := congrArg String.toList h
  simp at hlist

/-- No other check reads the skew. -/
lemma ValuesFine.congr {limits : Limits F} {probe probe' : Values F} {sec : Section F}
    (hsame : ∀ key, key ≠ "clock_skew_s" → probe'.get? key = probe.get? key) :
    ValuesFine limits probe' sec ↔ ValuesFine limits probe sec := by
  have hload : LoadFine probe' ↔ LoadFine probe := by
    unfold LoadFine ncpu
    rw [hsame "load1" (by decide), hsame "ncpu" (by decide)]
  have hlink : ∀ ifname, LinkFine probe' ifname ↔ LinkFine probe ifname := by
    intro ifname
    unfold LinkFine
    rw [hsame _ (awg_ne ifname ".fresh")]
  have hips : clientIps sec probe' = clientIps sec probe := by
    unfold clientIps
    simp only [hsame _ (awg_ne _ ".ips")]
  have hpool : ∀ pool, PoolFine sec probe' pool ↔ PoolFine sec probe pool := by
    intro pool
    unfold PoolFine
    rw [hips]
  constructor
  · rintro ⟨h₁, h₂, h₃, h₄, h₅, h₆⟩
    rw [hsame _ (by decide)] at h₄ h₅
    simp only [hsame "expiry_age" (by decide)] at h₆
    exact ⟨hload.mp h₁, fun i hi => (hlink i).mp (h₂ i hi), fun p hp => (hpool p).mp (h₃ p hp),
      h₄, h₅, h₆⟩
  · rintro ⟨h₁, h₂, h₃, h₄, h₅, h₆⟩
    refine ⟨hload.mpr h₁, fun i hi => (hlink i).mpr (h₂ i hi), fun p hp => (hpool p).mpr (h₃ p hp),
      ?_, ?_, ?_⟩
    · rw [hsame _ (by decide)]
      exact h₄
    · rw [hsame _ (by decide)]
      exact h₅
    · simp only [hsame "expiry_age" (by decide)]
      exact h₆

end Checks

/-! ### The ranges of a section -/

/-- No number of a range is too long. -/
def RangesFine (value : String) : Prop :=
  ∀ item ∈ value.toList.splitOn ',', ∀ label addr lo hi, poolParts item = some (label, addr, lo, hi) →
    lo.length ≤ 4300 ∧ hi.length ≤ 4300

/-- A run of decimal digits. -/
def Decimal (part : List Char) : Prop := part ≠ [] ∧ ∀ c ∈ part, (decimal? c).isSome = true

lemma Decimal.readInt_isSome {part : List Char} (h : Decimal part) :
    (readInt part).isSome = true ↔ part.length ≤ 4300 := by
  obtain ⟨hne, hdec⟩ := h
  have hdigit : part.all isDigit = true := by
    refine List.all_eq_true.mpr fun c hc => ?_
    rw [isDigit, hdec c hc]
    rfl
  have hall : (part.all fun c => (decimal? c).isSome) = true := List.all_eq_true.mpr hdec
  rw [Numerals.readInt_isSome hne hdigit, hall]
  simp

lemma decimal_of_matchRange {rng addr lo hi : List Char} (h : matchRange rng = some (addr, lo, hi)) :
    Decimal lo ∧ Decimal hi := by
  unfold matchRange at h
  split at h
  · split at h
    · obtain ⟨hall, heq⟩ := Option.ite_none_right_eq_some.mp h
      obtain ⟨-, rfl, rfl⟩ := by simpa using heq
      simp only [List.all_cons, List.all_nil, Bool.and_true, Bool.and_eq_true, decide_eq_true_eq,
        List.all_eq_true] at hall
      obtain ⟨-, -, -, hlo, hhi⟩ := hall
      exact ⟨hlo, hhi⟩
    · cases h
  · cases h

lemma parsePool_isSome (item : List Char) : (parsePool item).isSome = true ↔
    ∀ label addr lo hi, poolParts item = some (label, addr, lo, hi) →
      lo.length ≤ 4300 ∧ hi.length ≤ 4300 := by
  unfold parsePool
  cases hparts : poolParts item with
  | none => simp
  | some parts =>
      obtain ⟨label, addr, lo, hi⟩ := parts
      obtain ⟨-, m, hm, heq⟩ : _ ∧ ∃ m, matchRange _ = some m ∧ (_, m) = (label, addr, lo, hi) := by
        unfold poolParts at hparts
        obtain ⟨hne, hparts⟩ := Option.ite_none_left_eq_some.mp hparts
        exact ⟨hne, Option.map_eq_some_iff.mp hparts⟩
      obtain ⟨-, rfl⟩ := Prod.mk.inj heq
      obtain ⟨hlo, hhi⟩ := decimal_of_matchRange hm
      have hboth : ((do
          let lo ← readInt lo
          let hi ← readInt hi
          return some (⟨String.ofList (Words.strip label), String.ofList addr, lo, hi⟩ : Pool)) :
          Option (Option Pool)).isSome = true ↔ (readInt lo).isSome = true ∧ (readInt hi).isSome = true := by
        cases readInt lo <;> cases readInt hi <;> simp
      simp only [Option.some.injEq, Prod.mk.injEq]
      rw [hboth, hlo.readInt_isSome, hhi.readInt_isSome]
      constructor
      · rintro h _ _ _ _ ⟨-, -, rfl, rfl⟩
        exact h
      · intro h
        exact h _ _ _ _ ⟨rfl, rfl, rfl, rfl⟩

lemma parsePools_isSome (value : String) : (parsePools value).isSome = true ↔ RangesFine value := by
  rw [parsePools, Option.isSome_map, mapM_isSome_iff]
  simp only [parsePool_isSome, RangesFine]

/-! ### The boot of a host -/

section Boots

variable {F : Type} [Floats F] [Uptimes F]

/-- The uptime is a number that becomes a `float`; if the boot has moved it is
finite. -/
def UptimeFine (now : F) (last : Option F) : Option (Val F) → Prop
  | none => True
  | some (.text _) => False
  | some (.num uptime) => uptime.Fits ∧ ∀ boot, Uptimes.bootAt now uptime = some boot →
      last.any (Uptimes.moved boot) = true → ∀ x, uptime = .float x → (Uptimes.minutes x).isSome = true

lemma durOf_isSome (uptime : Num F) : (durOf uptime).isSome = true
    ↔ ∀ x, uptime = .float x → (Uptimes.minutes x).isSome = true := by
  cases uptime with
  | int n => simp [durOf]
  | float x => cases hx : Uptimes.minutes x <;> simp [durOf, hx]

lemma rebootOf_isSome [PythonFloats F] (now : F) (out : Rebooted F)
    (x : String × Option (Values F)) : (Rebooted.rebootOf now out x).isSome = true
      ↔ UptimeFine now (out.boots.get? x.1) (x.2.bind fun probe => probe.get? "uptime_s") := by
  unfold Rebooted.rebootOf
  cases x.2.bind fun probe => probe.get? "uptime_s" with
  | none => simp [UptimeFine]
  | some v =>
      cases v with
      | text t => simp [UptimeFine]
      | num uptime =>
          have hfits := PythonFloats.bootAt_isSome now uptime
          cases hboot : Uptimes.bootAt now uptime with
          | none =>
              rw [hboot] at hfits
              simpa [UptimeFine, hboot] using fun h => absurd (hfits.mpr h) (by simp)
          | some boot =>
              rw [hboot] at hfits
              have hfits' : uptime.Fits := hfits.mp rfl
              have htell : (out.tell x.1 uptime boot).isSome = true
                  ↔ ((out.boots.get? x.1).any (Uptimes.moved boot) = true →
                    ∀ y, uptime = .float y → (Uptimes.minutes y).isSome = true) := by
                rw [← durOf_isSome]
                unfold Rebooted.tell
                cases (out.boots.get? x.1).any (Uptimes.moved boot) <;> simp
              cases htold : out.tell x.1 uptime boot with
              | none =>
                  rw [htold] at htell
                  simpa [UptimeFine, hboot, hfits', htold] using htell
              | some told =>
                  rw [htold] at htell
                  simpa [UptimeFine, hboot, hfits', htold] using htell

/-- A host writes its own boot only. -/
lemma boots_rebootOf {now : F} {out out' : Rebooted F} {x : String × Option (Values F)}
    (h : Rebooted.rebootOf now out x = some out') {name : String} (hne : name ≠ x.1) :
    out'.boots.get? name = out.boots.get? name := by
  unfold Rebooted.rebootOf at h
  split at h
  · obtain rfl := Option.some.inj h
    rfl
  · cases h
  · obtain ⟨boot, -, h⟩ := Option.bind_eq_some_iff.mp h
    obtain ⟨told, htold, h⟩ := Option.bind_eq_some_iff.mp h
    obtain rfl := Option.some.inj h
    have hboots : told.boots = out.boots := by
      unfold Rebooted.tell at htold
      split at htold
      · obtain ⟨ago, -, rfl⟩ := Option.map_eq_some_iff.mp htold
        rfl
      · obtain rfl := Option.some.inj htold
        rfl
    rw [Dict.get?_insert, if_neg hne, hboots]

/-- `reboots` ends exactly if every uptime is fine, given what was remembered. -/
lemma reboots_isSome [PythonFloats F] (now : F) (probes : List (String × Option (Values F)))
    (hnodup : (probes.map Prod.fst).Nodup) (out : Rebooted F) :
    (probes.foldlM (Rebooted.rebootOf now) out).isSome = true ↔ ∀ x ∈ probes,
      UptimeFine now (out.boots.get? x.1) (x.2.bind fun probe => probe.get? "uptime_s") := by
  induction probes generalizing out with
  | nil => simp
  | cons x rest ih =>
      obtain ⟨hnot, hrest⟩ := List.nodup_cons.mp hnodup
      rw [List.foldlM_cons, List.forall_mem_cons, ← rebootOf_isSome]
      cases hstep : Rebooted.rebootOf now out x with
      | none => simp
      | some out' =>
          have hkept : ∀ y ∈ rest, out'.boots.get? y.1 = out.boots.get? y.1 := by
            intro y hy
            refine boots_rebootOf hstep ?_
            rintro heq
            exact hnot (heq ▸ List.mem_map_of_mem hy)
          have hih := ih hrest out'
          rw [Option.bind_eq_bind, Option.bind_some, hih]
          simp only [Option.isSome_some, true_and]
          refine forall₂_congr fun y hy => ?_
          rw [hkept y hy]

end Boots

/-! ### The whole run -/

namespace Probing

section

variable {F : Type} [Floats F] (w : Probing F)

/-- The time of a remote host that am1 compares with its own. -/
def measured (x : String × HostText F) (probe : Values F) : Option (Num F) :=
  if w.unsynced || x.2.here then none else (probe.get? "clock_now").bind Val.num?

/-- The time lies outside the window. -/
def outside (window : F × F) (t : Num F) : Bool :=
  t.lt (.float window.1) || Num.lt (.float window.2) t

/-- What a host that answered may print: am1 can take the difference of the
clocks, or what the host says about its skew can be written; the values of the
other checks are numbers where they are compared or divided; the ranges of its
pools can be read, counted and written; its uptime is a time. -/
structure HostFine [Uptimes F] (x : String × HostText F) (probe : Values F) : Prop where
  clockNow : ∀ t, w.measured x probe = some t → outside (w.window x.1) t = true → t.Fits
  skew : w.measured x probe = none → SkewFine w.limits probe
  ranges : RangesFine x.2.pools
  values : ∀ pools, parsePools x.2.pools = some pools → ValuesFine w.limits probe (x.2.read pools)
  uptime : UptimeFine w.now (w.boots.get? x.1) (probe.get? "uptime_s")

/-- The values of a host after `apply_clock_skews`: as they were, or with a skew
that is a `float`. -/
lemma skewed_eq_some {x : String × HostText F} {probe : Values F} {y : Probed F}
    (hanswer : (w.answer x.1).1 = some probe) (h : w.skewed x = some y) :
    y.1 = x ∧ ∃ probe', y.2.1 = some probe'
      ∧ (∀ key, key ≠ "clock_skew_s" → probe'.get? key = probe.get? key)
      ∧ (w.measured x probe = none → probe' = probe)
      ∧ (w.measured x probe ≠ none → SkewFine w.limits probe') := by
  unfold skewed at h
  unfold measured
  cases hsync : w.unsynced with
  | true =>
      rw [hsync, if_pos rfl] at h
      obtain rfl := Option.some.inj h
      exact ⟨rfl, probe, hanswer, fun _ _ => rfl, fun _ => rfl, fun h => absurd rfl h⟩
  | false =>
      rw [hsync, if_neg (by simp), hanswer] at h
      obtain ⟨p, hp, rfl⟩ := Option.map_eq_some_iff.mp h
      unfold applyClockSkew at hp
      cases hhere : x.2.here with
      | true =>
          rw [hhere] at hp
          obtain rfl := Option.some.inj hp
          exact ⟨rfl, probe, rfl, fun _ _ => rfl, fun _ => rfl, fun h => absurd rfl h⟩
      | false =>
          rw [hhere] at hp
          dsimp only at hp
          rw [if_neg (by simp)] at hp
          obtain ⟨skew, hskew, rfl⟩ := Option.map_eq_some_iff.mp hp
          rw [Bool.or_self, if_neg (by simp)]
          unfold clockSkew at hskew
          cases hnow : (probe.get? "clock_now").bind Val.num? with
          | none =>
              rw [hnow] at hskew
              obtain rfl := Option.some.inj hskew
              exact ⟨rfl, probe, rfl, fun _ _ => rfl, fun _ => rfl, fun h => absurd rfl h⟩
          | some t =>
              rw [hnow] at hskew
              have hsome : ∃ z, skew = some z := by
                dsimp only at hskew
                split_ifs at hskew
                · obtain ⟨z, -, rfl⟩ := Option.map_eq_some_iff.mp hskew
                  exact ⟨z, rfl⟩
                · obtain ⟨z, -, rfl⟩ := Option.map_eq_some_iff.mp hskew
                  exact ⟨z, rfl⟩
                · exact ⟨_, (Option.some.inj hskew).symm⟩
              obtain ⟨z, rfl⟩ := hsome
              refine ⟨rfl, _, rfl, fun key hkey => ?_, fun h => (by cases h), fun _ => ?_⟩
              · rw [Dict.get?_insert, if_neg hkey]
              · intro _ skew hskew _
                rw [Dict.get?_insert, if_pos rfl] at hskew
                obtain rfl := Option.some.inj hskew
                trivial

variable [Uptimes F] [PythonFloats F]

/-- The difference of the clocks can be taken. -/
lemma skewed_isSome (x : String × HostText F) : (w.skewed x).isSome = true ↔
    ∀ probe, (w.answer x.1).1 = some probe →
      ∀ t, w.measured x probe = some t → outside (w.window x.1) t = true → t.Fits := by
  unfold skewed measured
  cases w.unsynced with
  | true => simp
  | false =>
      simp only [Bool.false_eq_true, if_false, Option.isSome_map, Bool.false_or]
      cases (w.answer x.1).1 with
      | none => simp [applyClockSkew]
      | some probe =>
          unfold applyClockSkew
          cases x.2.here with
          | true => simp
          | false =>
              simp only [Bool.false_eq_true, if_false, Option.isSome_map, Option.some.injEq,
                forall_eq']
              unfold clockSkew
              cases (probe.get? "clock_now").bind Val.num? with
              | none => simp
              | some t =>
                  have hbefore := PythonFloats.sub_isSome t (w.window x.1).1
                  have hafter := PythonFloats.sub_isSome t (w.window x.1).2
                  simp only [Option.some.injEq, forall_eq', outside, Bool.or_eq_true]
                  cases t.lt (.float (w.window x.1).1) with
                  | true => simpa using hbefore
                  | false =>
                      cases Num.lt (.float (w.window x.1).2) t with
                      | true => simpa using hafter
                      | false => simp

/-- A host that is down is one problem; one that answered is judged by its
values and its pools. -/
lemma problemsOf_isSome (limits : Limits F) (y : Probed F) :
    (problemsOf limits y).isSome = true ↔ ∀ probe, y.2.1 = some probe →
      RangesFine y.1.2.pools ∧ SkewFine limits probe
        ∧ ∀ pools, parsePools y.1.2.pools = some pools → ValuesFine limits probe (y.1.2.read pools) := by
  unfold problemsOf
  cases y.2.1 with
  | none => simp [hostProblems]
  | some probe =>
      simp only [Option.some.injEq, forall_eq']
      rw [← parsePools_isSome]
      cases parsePools y.1.2.pools with
      | none => simp
      | some pools =>
          have hhost := hostProblems_isSome limits y.1.1 probe (y.1.2.read pools) y.2.2
          simpa using hhost

omit [Uptimes F] [PythonFloats F] in
/-- Pools that could be judged can be counted once more. -/
lemma poolUsageOf_isSome {s : HostText F} {probe : Values F} {limits : Limits F}
    (hranges : RangesFine s.pools)
    (hvalues : ∀ pools, parsePools s.pools = some pools → ValuesFine limits probe (s.read pools)) :
    (poolUsageOf s probe).isSome = true := by
  obtain ⟨pools, hpools⟩ := Option.isSome_iff_exists.mp ((parsePools_isSome s.pools).mpr hranges)
  rw [poolUsageOf, hpools]
  refine mapM_isSome_iff.mpr fun pool hpool => (usageOf_isSome _ probe pool).mpr ?_
  obtain ⟨hsize, -, hends⟩ := (hvalues pools hpools).pool pool hpool
  exact ⟨hsize, fun ip hip => (lastOf_isSome pool.addr ip).mpr (hends ip hip)⟩

lemma report_isSome {probes : List (Probed F)} (notices : List (String × String × F))
    (h : ∀ y ∈ probes, (problemsOf w.limits y).isSome = true) :
    (w.report probes notices).isSome = true := by
  have hpools : ((probes.filter fun x => x.1.2.pools ≠ "").mapM reportedPools).isSome = true := by
    refine mapM_isSome_iff.mpr fun y hy => ?_
    have hproblems := (problemsOf_isSome w.limits y).mp (h y (List.mem_filter.mp hy).1)
    unfold reportedPools
    cases hprobe : y.2.1 with
    | none => rfl
    | some probe =>
        obtain ⟨hranges, -, hvalues⟩ := hproblems probe hprobe
        rw [Option.isSome_map]
        exact poolUsageOf_isSome hranges hvalues
  obtain ⟨pools, hpools⟩ := Option.isSome_iff_exists.mp hpools
  unfold report
  rw [hpools]
  rfl

/-- A fine host comes through `apply_clock_skews`, `host_problems` and
`reboots`, and only such a host does. -/
lemma hostFine_iff (x : String × HostText F) :
    (∀ probe, (w.answer x.1).1 = some probe → w.HostFine x probe)
      ↔ (w.skewed x).isSome = true ∧ ∀ y, w.skewed x = some y →
        (problemsOf w.limits y).isSome = true
          ∧ UptimeFine w.now (w.boots.get? x.1) (y.2.1.bind fun probe => probe.get? "uptime_s") := by
  rw [skewed_isSome]
  cases hanswer : (w.answer x.1).1 with
  | none =>
      have hdown : ∀ y, w.skewed x = some y → y.2.1 = none := by
        intro y hy
        unfold skewed at hy
        split at hy
        · obtain rfl := Option.some.inj hy
          exact hanswer
        · rw [hanswer] at hy
          obtain ⟨p, hp, rfl⟩ := Option.map_eq_some_iff.mp hy
          exact (Option.some.inj hp).symm
      simp only [reduceCtorEq, false_imp_iff, implies_true, true_and, true_iff]
      intro y hy
      rw [problemsOf_isSome, hdown y hy]
      exact ⟨fun probe h => (by cases h), trivial⟩
  | some probe =>
      simp only [Option.some.injEq, forall_eq']
      have hsome : ∀ y, w.skewed x = some y → (((problemsOf w.limits y).isSome = true
          ∧ UptimeFine w.now (w.boots.get? x.1) (y.2.1.bind fun probe => probe.get? "uptime_s"))
          ↔ (w.measured x probe = none → SkewFine w.limits probe) ∧ RangesFine x.2.pools
            ∧ (∀ pools, parsePools x.2.pools = some pools →
              ValuesFine w.limits probe (x.2.read pools))
            ∧ UptimeFine w.now (w.boots.get? x.1) (probe.get? "uptime_s")) := by
        intro y hy
        obtain ⟨hx, probe', hprobe', hsame, hkept, hfloat⟩ := w.skewed_eq_some hanswer hy
        rw [problemsOf_isSome, hprobe', hx]
        simp only [Option.some.injEq, forall_eq', Option.bind_some, hsame "uptime_s" (by decide),
          ValuesFine.congr hsame]
        have hskew : SkewFine w.limits probe'
            ↔ (w.measured x probe = none → SkewFine w.limits probe) := by
          by_cases hmeasured : w.measured x probe = none
          · simp [hkept hmeasured, hmeasured]
          · simp [hfloat hmeasured, hmeasured]
        rw [hskew]
        tauto
      constructor
      · rintro ⟨hnow, hskew, hranges, hvalues, huptime⟩
        exact ⟨hnow, fun y hy => (hsome y hy).mpr ⟨hskew, hranges, hvalues, huptime⟩⟩
      · rintro ⟨hnow, hrest⟩
        have hfits : (w.skewed x).isSome = true := by
          rw [skewed_isSome]
          intro probe₁ h
          obtain rfl := Option.some.inj (hanswer.symm.trans h)
          exact hnow
        obtain ⟨y, hy⟩ := Option.isSome_iff_exists.mp hfits
        obtain ⟨hskew, hranges, hvalues, huptime⟩ := (hsome y hy).mp (hrest y hy)
        exact ⟨hnow, hskew, hranges, hvalues, huptime⟩

omit [Uptimes F] [PythonFloats F] in
lemma fst_of_skewed {x : String × HostText F} {y : Probed F} (h : w.skewed x = some y) : y.1 = x := by
  unfold skewed at h
  split at h
  · obtain rfl := Option.some.inj h
    rfl
  · obtain ⟨p, -, rfl⟩ := Option.map_eq_some_iff.mp h
    rfl

omit [Uptimes F] [PythonFloats F] in
/-- The names of the probes are those of the hosts. -/
lemma names_applyClockSkews {probes : List (Probed F)} (h : w.applyClockSkews = some probes) :
    (probes.map fun y => (y.1.1, y.2.1)).map Prod.fst = w.hosts.entries.map Prod.fst := by
  have hall := forall₂_of_mapM h
  rw [List.map_map]
  clear h
  generalize w.hosts.entries = hosts at hall ⊢
  induction hall with
  | nil => rfl
  | cons hxy _ ih =>
      rw [List.map_cons, List.map_cons, ih]
      dsimp only [Function.comp]
      rw [w.fst_of_skewed hxy]

/-- **One host's output and the run.** The run from the probes to the report ends
exactly if every host that answered is fine; a host that is down stops
nothing. -/
theorem chain_completes_iff : w.chain.isSome = true ↔
    ∀ x ∈ w.hosts.entries, ∀ probe, (w.answer x.1).1 = some probe → w.HostFine x probe := by
  have hboots : ∀ probes, w.applyClockSkews = some probes →
      ((Rebooted.reboots w.now w.boots (probes.map fun y => (y.1.1, y.2.1))).isSome = true
        ↔ ∀ y ∈ probes, UptimeFine w.now (w.boots.get? y.1.1)
          (y.2.1.bind fun probe => probe.get? "uptime_s")) := by
    intro probes hprobes
    unfold Rebooted.reboots
    rw [reboots_isSome, List.forall_mem_map]
    · rw [w.names_applyClockSkews hprobes]
      exact w.hosts.nodup
  have hchain : w.chain.isSome = true ↔ ∃ probes, w.applyClockSkews = some probes
      ∧ ∀ y ∈ probes, (problemsOf w.limits y).isSome = true
        ∧ UptimeFine w.now (w.boots.get? y.1.1) (y.2.1.bind fun probe => probe.get? "uptime_s") := by
    unfold chain
    cases hprobes : w.applyClockSkews with
    | none => simp
    | some probes =>
        have hb := hboots probes hprobes
        simp only [Option.some.injEq, exists_eq_left', forall₂_and]
        rw [← hb, ← mapM_isSome_iff]
        constructor
        · intro h
          obtain ⟨out, hout⟩ := Option.isSome_iff_exists.mp h
          obtain ⟨_, hsame, hout⟩ := Option.bind_eq_some_iff.mp hout
          obtain rfl := Option.some.inj hsame
          obtain ⟨problems, hproblems, hout⟩ := Option.bind_eq_some_iff.mp hout
          obtain ⟨rebooted, hrebooted, -⟩ := Option.bind_eq_some_iff.mp hout
          exact ⟨Option.isSome_iff_exists.mpr ⟨_, hproblems⟩,
            Option.isSome_iff_exists.mpr ⟨_, hrebooted⟩⟩
        · rintro ⟨hproblems, hrebooted⟩
          have hreport := fun notices => w.report_isSome notices (mapM_isSome_iff.mp hproblems)
          obtain ⟨problems, hproblems⟩ := Option.isSome_iff_exists.mp hproblems
          obtain ⟨rebooted, hrebooted⟩ := Option.isSome_iff_exists.mp hrebooted
          obtain ⟨report, hreport⟩ := Option.isSome_iff_exists.mp (hreport rebooted.notices)
          simp [hproblems, hrebooted, hreport]
  rw [hchain]
  constructor
  · rintro ⟨probes, hprobes, hfine⟩ x hx
    refine (w.hostFine_iff x).mpr ⟨?_, fun y hy => ?_⟩
    · exact mapM_isSome_iff.mp (Option.isSome_iff_exists.mpr ⟨probes, hprobes⟩) x hx
    · obtain ⟨z, hz, hxz⟩ := exists_right_of_mapM hprobes hx
      obtain rfl := Option.some.inj (hy.symm.trans hxz)
      obtain ⟨hproblems, huptime⟩ := hfine y hz
      rw [w.fst_of_skewed hy] at huptime
      exact ⟨hproblems, huptime⟩
  · intro h
    have hhosts := fun x hx => (w.hostFine_iff x).mp (h x hx)
    obtain ⟨probes, hprobes⟩ := Option.isSome_iff_exists.mp
      (mapM_isSome_iff.mpr fun x hx => (hhosts x hx).1)
    refine ⟨probes, hprobes, fun y hy => ?_⟩
    obtain ⟨x, hx, hxy⟩ := exists_of_mem_mapM hprobes y hy
    obtain ⟨hproblems, huptime⟩ := (hhosts x hx).2 y hxy
    rw [w.fst_of_skewed hxy]
    exact ⟨hproblems, huptime⟩

end

end Probing

/-! ### One host prints a text -/

/-- Exact numbers with the bound of `float`. -/
structure Wide where
  val : ℚ

def Num.wide : Num Wide → ℚ
  | int n => n
  | float x => x.val

instance {F : Type} (x : Num F) : Decidable x.Fits :=
  match x with
  | .int n => inferInstanceAs (Decidable (n.natAbs < floatBound))
  | .float _ => isTrue trivial

instance {F : Type} (x y : Num F) : Decidable (Divides x y) :=
  match x, y with
  | .int m, .int n => inferInstanceAs (Decidable (m.natAbs < floatBound * n.natAbs))
  | .int m, .float y => inferInstanceAs (Decidable ((Num.int (F := F) m).Fits ∧ (Num.float y).Fits))
  | .float x, y => inferInstanceAs (Decidable ((Num.float x).Fits ∧ y.Fits))

instance : Floats Wide where
  read s := (Floats.read s).map Wide.mk
  zero := ⟨0⟩
  repr x := Floats.repr x.val
  fixed x := if x.Fits then some (toString (round x.wide)) else none
  isZero x := x.val = 0
  lt a b := a.wide < b.wide
  le a b := a.wide ≤ b.wide
  abs x := ⟨|x.val|⟩
  sub a b := if a.Fits then some ⟨a.wide - b.val⟩ else none
  div a b := if b.wide ≠ 0 ∧ Divides a b then some ⟨a.wide / b.wide⟩ else none
  floorDiv x n := ⟨⌊x.val / n⌋⟩
  hours x := ⟨x.val * 3600⟩
  round1 x := ⟨round (x.val * 10) / 10⟩
  toRat x := x.val

instance : Uptimes Wide where
  bootAt now x := if x.Fits then some ⟨now.val - x.wide⟩ else none
  moved a b := 300 < |a.val - b.val|
  minutes x := some ⌊x.val / 60⌋

instance : PythonFloats Wide where
  sub_isSome x y := by simp [Floats.sub]
  fixed_isSome x := by simp [Floats.fixed]
  div_isSome x y hy := by
    have hne : y.wide ≠ 0 := by
      cases y with
      | int n => simpa [Num.isZero, Num.wide] using hy
      | float y => simpa [Num.isZero, Num.wide, Floats.isZero] using hy
    simp [Floats.div, hne]
  bootAt_isSome now x := by simp [Uptimes.bootAt]

/-- The limits of the example configuration. -/
def wideLimits : Limits Wide := ⟨85, 10, ⟨2⟩, 300, ⟨14⟩, ⟨26⟩, ⟨27⟩, ⟨2⟩, 70, 95, ⟨2⟩⟩

/-- An entry with a link and a pool, and a portal. -/
def twoHosts : Dict String (HostText Wide) :=
  ⟨[("entry", { links := "awg1", clients := "awg0", pools := "paid:10.88.88.42-199" }), ("portal", {})],
    by decide⟩

/-- What the entry prints beside its name and its clients, and a portal whose disk
is nearly full. -/
def twoAnswers (entry : String) (name : String) : Call :=
  if name = "entry" then .done ("host=entry\nawg.awg0.ips=10.88.88.50\n" ++ entry)
  else .done "host=portal\ndisk_root_pct=97\n"

/-- A run over both. -/
def twoProbing (entry : String) : Probing Wide where
  limits := wideLimits
  hosts := twoHosts
  call := twoAnswers entry
  window _ := (⟨1000⟩, ⟨1001⟩)
  now := ⟨1002⟩
  cfg := usual

/-- A handshake of forty seconds ago: the run ends, so the values were fine. -/
theorem chain_completes_quiet :
    (twoProbing "awg.awg1.fresh=40\n").chain.isSome = true
      ∧ ∀ x ∈ twoHosts.entries, ∀ probe,
        ((twoProbing "awg.awg1.fresh=40\n").answer x.1).1 = some probe →
          (twoProbing "awg.awg1.fresh=40\n").HostFine x probe := by
  have hends : (twoProbing "awg.awg1.fresh=40\n").chain.isSome = true := by decide +kernel
  exact ⟨hends, (twoProbing "awg.awg1.fresh=40\n").chain_completes_iff.mp hends⟩

/-- **A text stops the run.** The entry prints a word for its last handshake and is
accepted, `fresh < 0` raises on it, and nobody hears of the portal's disk. -/
theorem text_handshake_stops_run :
    let w := twoProbing "awg.awg1.fresh=never\n"
    (w.answer "entry").1.isSome = true
      ∧ (hostProblems w.limits "portal" ((({} : HostText Wide)).read []) (w.answer "portal").1 "").map
          (List.map Prod.fst) = some ["portal:disk"]
      ∧ w.chain.isSome = false := by
  decide

end VpnPortal.Monitor
