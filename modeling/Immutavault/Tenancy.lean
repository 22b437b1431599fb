import Immutavault.Configuration
import Immutavault.GlobPatterns

/-!
# Tenants

A tenant owns the platforms whose names match its patterns. The enterprise
configuration wraps the core one and is accepted only when tenant identifiers are
distinct and every configured platform is owned by exactly one tenant; both facts
are fields of the accepted record.

Ownership of any other name is decided by the same patterns, and such a name may
have no owner or several. An identity is limited to the tenants it names, unless it
names the star.
-/

namespace Immutavault.Tenancy

open Values Configuration GlobPatterns

structure TenantConfig where
  id : String
  name : String
  platforms : List String := ["*"]

structure ObservabilityConfig where
  include_platform_labels : Bool := true

/-- The identifiers of the tenants that own a platform. -/
def owners (tenants : List TenantConfig) (platform_name : String) : List String :=
  (tenants.filter fun tenant => tenant.platforms.any (fnmatch platform_name)).map (·.id)

/-- The tenant of a configuration that names none has no namesake. -/
theorem default_distinct :
    (([⟨"default", "Default", ["*"]⟩] : List TenantConfig).map (·.id)).Nodup :=
  List.nodup_singleton _

structure EnterpriseConfig where
  core : Config
  tenants : List TenantConfig
  observability : ObservabilityConfig := {}
  tenants_distinct : (tenants.map (·.id)).Nodup
  owned : ∀ platform ∈ core.platforms, ∃ tenant, owners tenants platform.name = [tenant]

/-- What the owners of a platform are reported as. -/
def ownersText (tenants : List String) : String :=
  if tenants = [] then "none" else (Json.arr (tenants.map .str)).toText

/-- Accept a configuration with tenant rows, or say what is wrong with it. -/
def loadEnterpriseConfig (core : Config) (rows : List TenantConfig)
    (observability : ObservabilityConfig) : Except Exn EnterpriseConfig :=
  let tenants := if rows = [] then [⟨"default", "Default", ["*"]⟩] else rows
  if tenants.any (·.id = "") then .error ⟨.valueError, "tenant.id is required"⟩
  else if tenants.any (·.id = "*") then
    .error ⟨.valueError, "tenant id '*' is reserved for authorization scope"⟩
  else if distinct : (tenants.map (·.id)).Nodup then
    match unowned : core.platforms.find? fun platform =>
        (owners tenants platform.name).length ≠ 1 with
    | some platform =>
      .error ⟨.valueError, s!"platform {Json.reprText platform.name} must match exactly one tenant; matched {
        ownersText (owners tenants platform.name)}"⟩
    | none => .ok {
        core := core, tenants := tenants, observability := observability
        tenants_distinct := distinct
        owned := fun platform member => by
          have single := List.find?_eq_none.mp unowned platform member
          exact List.length_eq_one_iff.mp (by simpa using single) }
  else .error ⟨.valueError, "tenant ids must be unique"⟩

namespace EnterpriseConfig

variable (cfg : EnterpriseConfig)

def tenantForPlatform (platform_name : String) : Except Exn String :=
  match owners cfg.tenants platform_name with
  | [tenant] => .ok tenant
  | others =>
    .error ⟨.valueError, s!"platform {Json.reprText platform_name} must resolve to exactly one tenant; resolved {
      ownersText others}"⟩

def tenantName (tenant_id : String) : String :=
  ((cfg.tenants.find? (·.id = tenant_id)).map (·.name)).getD tenant_id

/-- The platform is owned by exactly one tenant. -/
def Resolves (platform_name : String) : Prop :=
  ∃ tenant, cfg.tenantForPlatform platform_name = .ok tenant

theorem tenantForPlatform_eq_ok {platform_name tenant : String} :
    cfg.tenantForPlatform platform_name = .ok tenant ↔
      owners cfg.tenants platform_name = [tenant] := by
  unfold tenantForPlatform
  split
  · rename_i owner only
    simp [only]
  · rename_i several
    constructor
    · intro impossible
      cases impossible
    · exact fun only => absurd only (several tenant)

theorem resolves_iff (platform_name : String) :
    cfg.Resolves platform_name ↔ (owners cfg.tenants platform_name).length = 1 := by
  simp only [Resolves, tenantForPlatform_eq_ok, List.length_eq_one_iff]

instance (platform_name : String) : Decidable (cfg.Resolves platform_name) :=
  decidable_of_iff _ (cfg.resolves_iff platform_name).symm

/-- A configured platform resolves. -/
theorem resolves_configured {platform : PlatformConfig} (member : platform ∈ cfg.core.platforms) :
    cfg.Resolves platform.name := by
  obtain ⟨tenant, only⟩ := cfg.owned platform member
  exact ⟨tenant, cfg.tenantForPlatform_eq_ok.mpr only⟩

end EnterpriseConfig

/-- Who is acting, and for which tenants. -/
structure Identity where
  subject : String
  name : String
  role : String
  tenants : List String
  source : String
  mfa : Bool
  tenant_id : Option String := none

def Identity.allowsTenant (identity : Identity) (tenant_id : String) : Bool :=
  "*" ∈ identity.tenants ∨ tenant_id ∈ identity.tenants

end Immutavault.Tenancy
