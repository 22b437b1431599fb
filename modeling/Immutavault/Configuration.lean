import Immutavault.Values

/-!
# Configuration

The parts of the loaded configuration that backup, restore, retention and
disaster recovery read. Names of platforms, replicas and workloads are distinct
once a configuration is accepted, and the records carry that as a field. The
thresholds of the anomaly detector are fractional numbers and stay with the
detector.
-/

namespace Immutavault.Configuration

open Values

/-- The supported hypervisor families. -/
inductive PlatformType where
  | vmware
  | proxmox
  | xcpng
  deriving DecidableEq, Repr

def PlatformType.text : PlatformType → String
  | .vmware => "vmware"
  | .proxmox => "proxmox"
  | .xcpng => "xcpng"

structure RetentionConfig where
  keep_within_days : Nat := 30
  keep_daily : Nat := 30
  keep_weekly : Nat := 8
  keep_monthly : Nat := 12
  keep_yearly : Nat := 3
  min_restore_points : Nat := 2

structure RepositoryConfig where
  url : String
  local_path : String
  staging_path : String
  cacert : Option String := none
  lock_file : String := "/run/lock/immutavault.lock"
  retention : RetentionConfig := {}

structure RuntimeConfig where
  keep_staging_on_failure : Bool := true
  restore_staging_path : String := "/srv/immutavault/restore-staging"
  verify_staging_path : String := "/srv/immutavault/verify-staging"
  staging_min_free_percent : Nat := 10

structure PlatformConfig where
  name : String
  type : PlatformType
  endpoint : String
  enabled : Bool := true
  ssh_user : Option String := none
  includes : List String := ["*"]
  excludes : List String := []
  options : Dict := []

structure ProtectionConfig where
  rpo_target_minutes : Nat := 1440
  preserve_suspicious_points_days : Nat := 90
  verify_after_backup : Bool := false
  require_four_eyes_restore : Bool := true

/-- How a replica stores its repository. -/
inductive Backend where
  | rest
  | filesystem
  | s3
  deriving DecidableEq, Repr

def Backend.text : Backend → String
  | .rest => "rest"
  | .filesystem => "filesystem"
  | .s3 => "s3"

structure ReplicaConfig where
  name : String
  backend : Backend := .rest
  url : Option String := none
  path : Option String := none
  enabled : Bool := true
  cacert : Option String := none
  password_env : String := "RESTIC_REPLICA_PASSWORD"
  provider : String := "custom"
  endpoint : Option String := none
  bucket : Option String := none
  keyPrefix : String := "immutavault"
  region : Option String := none
  access_key_env : String := "AWS_ACCESS_KEY_ID"
  secret_key_env : String := "AWS_SECRET_ACCESS_KEY"
  session_token_env : Option String := none
  bucket_lookup : String := "path"
  connections : Nat := 10
  mount_required : Bool := false
  mount_type : Option String := none
  mount_source : Option String := none
  object_lock_enabled : Bool := false
  object_lock_mode : String := "COMPLIANCE"
  object_lock_days : Nat := 30
  r2_bucket_lock_enabled : Bool := false
  r2_bucket_lock_days : Nat := 30
  r2_lock_rule_id : String := "immutavault-retention"
  r2_account_id_env : String := "CLOUDFLARE_ACCOUNT_ID"
  r2_api_token_env : String := "CLOUDFLARE_API_TOKEN"

/-- How a health check probes its target. -/
inductive CheckType where
  | tcp
  | http
  | https
  | icmp
  deriving DecidableEq, Repr

structure HealthCheckConfig where
  type : CheckType := .tcp
  host : Option String := none
  port : Option Nat := none
  url : Option String := none
  timeout_seconds : Nat := 5
  expected_status : Nat := 200
  attempts : Nat := 12
  interval_seconds : Nat := 10

structure DRGatewayConfig where
  host : String
  ssh_user : Option String := none
  isLocal : Bool := false
  underlay_interface : String := "eth0"
  trunk_interface : String := "eth1"
  vtep_ip : String := ""
  router_id : String := ""
  ospf_area : String := "0.0.0.0"
  ospf_cost : Nat := 10
  ospf_auth_key_env : Option String := none
  ospf_auth_key_id : Nat := 1

structure DRSiteConfig where
  name : String
  gateway : DRGatewayConfig

structure DRNetworkConfig where
  vlan_id : Nat
  vni : Nat
  gateway_cidr : String
  mtu : Nat := 1450
  enabled : Bool := true

structure DRVMConfig where
  name : String
  source_platform : String
  target_platform : String
  boot_order : Int := 100
  target_name : Option String := none
  health_checks : List HealthCheckConfig := []
  restore_options : Dict := []

/-- Whether the primary site is fenced by an operator or by commands. -/
inductive FenceMode where
  | manual
  | command
  deriving DecidableEq, Repr

structure FenceConfig where
  mode : FenceMode := .manual
  command_env : Option String := none
  verify_command_env : Option String := none

structure DRConfig where
  enabled : Bool := false
  primary_site : String := "primary"
  dr_site : String := "dr"
  replica : String := ""
  rpo_max_minutes : Nat := 1440
  auto_failover : Bool := false
  failure_threshold : Nat := 5
  check_interval_seconds : Nat := 60
  primary_failure_quorum : Nat := 0
  maintenance_file : String := "/var/lib/immutavault/dr-maintenance"
  primary_probes : List HealthCheckConfig := []
  fence : FenceConfig := {}
  sites : List DRSiteConfig := []
  networks : List DRNetworkConfig := []
  workloads : List DRVMConfig := []
  workloads_distinct : (workloads.map (·.name)).Nodup := by decide

theorem no_workloads_distinct : (([] : List DRVMConfig).map (·.name)).Nodup := List.nodup_nil

theorem no_replicas_distinct : (([] : List ReplicaConfig).map (·.name)).Nodup := List.nodup_nil

/-- An accepted configuration. Whether cross-hypervisor restores are certified is
the difference between the two engines. -/
structure Config where
  repository : RepositoryConfig
  runtime : RuntimeConfig := {}
  platforms : List PlatformConfig
  protection : ProtectionConfig := {}
  replicas : List ReplicaConfig := []
  dr : DRConfig := {}
  platforms_distinct : (platforms.map (·.name)).Nodup := by decide
  replicas_distinct : (replicas.map (·.name)).Nodup := by decide

end Immutavault.Configuration
