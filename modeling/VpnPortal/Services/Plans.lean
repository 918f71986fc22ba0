/-
The plans (`pwa/config.py`) and the locations (`pwa/services/locations.py`).
-/
import VpnPortal.Portal.World

namespace VpnPortal

/-! ### Plans -/

inductive Tier where
  | basic | ext
  deriving DecidableEq, Repr

structure PlanInfo where
  tier : Tier
  configs : ℕ
  days : ℤ
  amount : ℤ
  currency : String := "RUB"
  deriving DecidableEq, Repr

/-- `PLANS` -/
def plans : List (String × PlanInfo) :=
  [("basic-1m", { tier := .basic, configs := 2, days := 30, amount := 350 }),
   ("basic-3m", { tier := .basic, configs := 2, days := 90, amount := 900 }),
   ("basic-6m", { tier := .basic, configs := 2, days := 180, amount := 1700 }),
   ("ext-1m", { tier := .ext, configs := 5, days := 30, amount := 650 }),
   ("ext-3m", { tier := .ext, configs := 5, days := 90, amount := 1700 }),
   ("ext-6m", { tier := .ext, configs := 5, days := 180, amount := 3200 })]

/-- `_LEGACY_PLAN_ALIASES` -/
def legacyPlanAliases : List (String × String) := [("Basic", "basic-1m"), ("Family", "ext-1m")]

/-- `plan_info`: plan metadata by key, names from before periods included. -/
def planInfo (key : Option String) : Option PlanInfo :=
  match key with
  | none => none
  | some "" => none
  | some k =>
      match plans.lookup k with
      | some info => some info
      | none => plans.lookup ((legacyPlanAliases.lookup k).getD "")

/-- `DEFAULT_CONFIG_LIMIT` -/
def defaultConfigLimit : ℕ := 1

/-- `config_limit`: how many active devices a plan allows in a location. -/
def configLimit (plan : Option String) : ℕ :=
  match planInfo plan with
  | some info => info.configs
  | none => defaultConfigLimit

lemma mem_plans_of_lookup {k : String} {info : PlanInfo} (h : plans.lookup k = some info) :
    (k, info) ∈ plans := by
  rw [List.lookup_eq_some_iff] at h
  obtain ⟨l₁, l₂, hl, -⟩ := h
  rw [hl]
  simp

/-- The metadata of a plan is an entry of the table. -/
lemma mem_plans_of_planInfo {key : Option String} {info : PlanInfo}
    (h : planInfo key = some info) : ∃ k, (k, info) ∈ plans := by
  unfold planInfo at h
  split at h
  · cases h
  · cases h
  · split at h
    · rename_i hl
      obtain rfl := Option.some.inj h
      exact ⟨_, mem_plans_of_lookup hl⟩
    · exact ⟨_, mem_plans_of_lookup h⟩

/-- Every plan lasts. -/
lemma planInfo_days_pos {key : Option String} {info : PlanInfo}
    (h : planInfo key = some info) : 0 < info.days := by
  have hall : ∀ e ∈ plans, 0 < e.2.days := by decide
  obtain ⟨k, hk⟩ := mem_plans_of_planInfo h
  exact hall _ hk

/-- Every plan has room for a device, and so has an account without one. -/
lemma configLimit_pos (plan : Option String) : 0 < configLimit plan := by
  have hall : ∀ e ∈ plans, 0 < e.2.configs := by decide
  unfold configLimit
  split
  · rename_i info hinfo
    obtain ⟨k, hk⟩ := mem_plans_of_planInfo hinfo
    exact hall _ hk
  · decide

/-! ### Locations -/

namespace Settings

variable (cfg : Settings)

/-- `DEFAULT` -/
def defaultLocation : String := "de"

/-- `_germany` -/
def germany : Location := ⟨"de", cfg.bridgeIp⟩

/-- `_netherlands`: present once all its settings are. -/
def netherlands : Option Location := cfg.nlEntryIp.map fun host => ⟨"nl", host⟩

/-- `all_locations`, recommended first. -/
def allLocations : List Location := cfg.netherlands.toList ++ [cfg.germany]

/-- `get`: the location by key, `none` for an unknown or unconfigured one. -/
def getLocation (key : String) : Option Location :=
  cfg.allLocations.find? fun loc => loc.key = if key = "" then defaultLocation else key

/-- `keys` -/
def locationKeys : List String := cfg.allLocations.map Location.key

/-- `recommended`: the first location not paused, the first of all if every one
is. -/
def recommended : String :=
  match cfg.locationKeys.find? (fun k => k ∉ cfg.paused) with
  | some k => k
  | none => cfg.locationKeys.headD defaultLocation

/-- `default_for_new`: where a device goes when none is named. -/
def defaultForNew : String :=
  if defaultLocation ∉ cfg.paused then defaultLocation else cfg.recommended

end Settings

/-- `config.location or DEFAULT` -/
def Config.locationKey (c : Config) : String :=
  if c.location = "" then Settings.defaultLocation else c.location

end VpnPortal
