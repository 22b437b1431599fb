import Immutavault.PromotionSafety

/-!
# The conversion policy

A machine restored to another hypervisor family is converted. The policy decides from
the recovery point, the target and the options whether it may be, and by whom: by the
built-in conversion from VMware to Proxmox, or by a configured provider that owns the
pair of families. The base plan collects everything that speaks against it; the
certified plan withdraws a built-in plan whose point does not attest an export.

Pairs are written with a colon. The attestation is read from the metadata of the point,
which may be any JSON value, or no JSON at all.
-/

namespace Immutavault.ConversionPolicy

open Programs Values Timestamps Catalog Machine Configuration StateDatabase RestoreEngine
open Histories PromotionSafety

structure V2VProviderConfig where
  name : String
  helper : String
  sha256 : String
  pairs : List String
  certification_id : String
  enabled : Bool := true

/-- The part of the accepted settings that planning reads. No two providers have one
name, and no pair is claimed twice. -/
structure V2VConfig where
  enabled : Bool := false
  builtin_vmware_to_proxmox : Bool := true
  require_verified_point : Bool := true
  allow_suspicious_points : Bool := false
  providers : List V2VProviderConfig := []
  names_distinct : (providers.map (·.name)).Nodup := by decide
  pairs_distinct : (providers.flatMap (·.pairs)).Nodup := by decide

/-- The fields of a recovery point that planning reads. The metadata is what its text
denotes, and none when the text is no JSON. -/
structure PointView where
  platform_type : PlatformType
  verified : Bool
  suspicious : Bool
  metadata : Option Json

/-- A point of the catalogue, as planning reads it. -/
def viewOf (point : Point) : PointView where
  platform_type := point.platform_type
  verified := point.verified
  suspicious := point.suspicious
  metadata := some (.obj point.metadata)

/-- The pair of two families. -/
def pair (source target : PlatformType) : String := s!"{source.text}:{target.text}"

def builtinPair : String := "vmware:proxmox"

/-- Characters of a storage identifier. -/
def isStorageCharacter (character : Char) : Bool :=
  character.isAlphanum ∨ character ∈ ['_', '.', ':', '-']

/-- One to sixty-four characters of a storage identifier. -/
def isStorageId (text : String) : Bool :=
  text.toList.all isStorageCharacter ∧ 1 ≤ text.length ∧ text.length ≤ 64

/-- The first of the values that is not empty, as a text without surrounding white space. -/
def firstText : List (Option Json) → String
  | [] => ""
  | none :: rest => firstText rest
  | some value :: rest => if value.truthy then trimmed value.toText else firstText rest

/-- The storage that a converted machine is created on. -/
def storageOf (target : PlatformConfig) (options : Dict) : String :=
  firstText [options.get? "storage", target.options.get? "v2v_storage",
    target.options.get? "restore_storage"]

/-- The value under a key, with an empty value read as an empty object. -/
def objectUnder (dict : Dict) (key : String) : Option Dict :=
  match dict.get? key with
  | none => some []
  | some value =>
    if ¬ value.truthy then some []
    else match value with
      | .obj fields => some fields
      | _ => none

/-- The transport that a point's metadata attests. -/
def vmwareTransport (point : PointView) : Option String := do
  let metadata ← point.metadata
  match metadata with
  | .obj metadata =>
    let info ← objectUnder metadata "platform_info"
    let transport ← objectUnder info "backup_transport"
    let requested := (firstText [transport.get? "requested"]).toLower
    if requested = "" then none else some requested
  | _ => none

/-- Transports that leave a complete export behind. -/
def ovfExportTransports : List String :=
  ["export", "cold-export", "hot-clone-export", "snapshot-clone-export", "hot"]

def nativeIncrementalTransports : List String := ["auto", "cbt", "vddk", "vddk-cbt"]

namespace V2VConfig

variable (v2v : V2VConfig)

/-- The provider that owns a pair. -/
def providerForPair (pair : String) : Option V2VProviderConfig :=
  v2v.providers.find? fun provider => provider.enabled ∧ pair ∈ provider.pairs

/-- What speaks against converting a point at all. -/
def pointReasons (point : PointView) : List String :=
  (if ¬ v2v.enabled then ["v2v.enabled is false"] else []) ++
  (if v2v.require_verified_point ∧ ¬ point.verified
    then ["recovery point has not passed full verification"] else []) ++
  if point.suspicious ∧ ¬ v2v.allow_suspicious_points
    then ["recovery point is marked suspicious"] else []

/-- What speaks against a storage. -/
def storageReasons (storage : String) : List String :=
  if storage = "" then ["target Proxmox platform requires options.v2v_storage or restore storage"]
  else if ¬ isStorageId storage then ["target V2V storage id contains unsupported characters"]
  else []

/-- The plan of the base manager. -/
def basePlan (point : PointView) (target : PlatformConfig) (options : Dict) : V2VPlan :=
  let source_type := point.platform_type.text
  let target_type := target.type.text
  if source_type = target_type then
    { allowed := true, source_type := source_type, target_type := target_type, mode := "native"
      certification_id := some "native-family-restore" }
  else
    let reasons := v2v.pointReasons point
    let wanted := pair point.platform_type target.type
    if wanted = builtinPair ∧ v2v.builtin_vmware_to_proxmox then
      let reasons := reasons ++ storageReasons (storageOf target options)
      { allowed := reasons = [], source_type := source_type, target_type := target_type
        mode := "builtin", certification_id := some "immutavault-vmware-proxmox-v1"
        reasons := reasons }
    else match v2v.providerForPair wanted with
      | some provider =>
        { allowed := reasons = [], source_type := source_type, target_type := target_type
          mode := "provider", certification_id := some provider.certification_id
          provider := some provider.name, reasons := reasons }
      | none =>
        { allowed := false, source_type := source_type, target_type := target_type
          mode := "blocked"
          reasons := reasons ++ [s!"no certified conversion provider is configured for {wanted}"] }

/-- Why a transport is no export. -/
def transportReason (transport : Option String) : String :=
  match transport.filter (· ∈ nativeIncrementalTransports) with
  | some native =>
    s!"VMware recovery point transport {Json.reprText native} is a native CBT/VDDK layout, " ++
      "not an attested OVF input; capture an export-format recovery point or configure a " ++
      "certified provider for native-layout conversion"
  | none =>
    "VMware recovery point does not attest an OVF/export transport; built-in V2V refuses to " ++
      "guess the source layout"

/-- The plan of the certified manager. -/
def plan (point : PointView) (target : PlatformConfig) (options : Dict) : V2VPlan :=
  let base := v2v.basePlan point target options
  if pair point.platform_type target.type ≠ builtinPair ∨ base.mode ≠ "builtin" ∨ ¬ base.allowed then
    base
  else
    let transport := vmwareTransport point
    if transport.any (· ∈ ovfExportTransports) then base
    else { base with allowed := false, reasons := base.reasons ++ [transportReason transport] }

/-- What a plan that allows a conversion vouches for. -/
structure Cleared (point : PointView) (target : PlatformConfig) (options : Dict) : Prop where
  enabled : v2v.enabled = true
  verified : v2v.require_verified_point = true → point.verified = true
  unsuspicious : v2v.allow_suspicious_points = false → point.suspicious = false
  way : (point.platform_type = .vmware ∧ target.type = .proxmox ∧
      v2v.builtin_vmware_to_proxmox = true ∧ isStorageId (storageOf target options) = true ∧
      ∃ transport ∈ ovfExportTransports, vmwareTransport point = some transport) ∨
    ∃ provider ∈ v2v.providers, provider.enabled = true ∧
      pair point.platform_type target.type ∈ provider.pairs

theorem text_injective {first second : PlatformType} (same : first.text = second.text) :
    first = second := by
  cases first <;> cases second <;> first | rfl | exact absurd same (by decide)

/-- The built-in pair is VMware to Proxmox. -/
theorem pair_builtin {source target : PlatformType} (same : pair source target = builtinPair) :
    source = .vmware ∧ target = .proxmox := by
  revert same
  cases source <;> cases target <;> decide

/-- Nothing speaks against a point exactly when its gates are open. -/
theorem pointReasons_nil {point : PointView} (clear : v2v.pointReasons point = []) :
    v2v.enabled = true ∧ (v2v.require_verified_point = true → point.verified = true) ∧
      (v2v.allow_suspicious_points = false → point.suspicious = false) := by
  simp only [pointReasons, List.append_eq_nil_iff, ite_eq_right_iff, List.cons_ne_nil, imp_false,
    not_not, not_and] at clear
  obtain ⟨⟨enabled, verified⟩, unsuspicious⟩ := clear
  refine ⟨enabled, verified, fun strict => ?_⟩
  cases suspicious : point.suspicious with
  | false => rfl
  | true => exact absurd (unsuspicious suspicious) (by simp [strict])

theorem storageReasons_nil {storage : String} (clear : storageReasons storage = []) :
    isStorageId storage = true := by
  unfold storageReasons at clear
  split at clear
  · cases clear
  · split at clear
    · cases clear
    · rename_i valid
      simpa using valid

/-- A conversion that is allowed has passed every gate. -/
theorem plan_cleared {point : PointView} {target : PlatformConfig} {options : Dict}
    (cross : point.platform_type ≠ target.type)
    (allowed : (v2v.plan point target options).allowed = true) :
    v2v.Cleared point target options := by
  have unlike : ¬ point.platform_type.text = target.type.text := fun same =>
    cross (text_injective same)
  unfold plan at allowed
  dsimp only at allowed
  by_cases builtin : pair point.platform_type target.type = builtinPair ∧
      v2v.builtin_vmware_to_proxmox = true
  · obtain ⟨fromVMware, toProxmox⟩ := pair_builtin builtin.1
    have base : v2v.basePlan point target options = {
        allowed := v2v.pointReasons point ++ storageReasons (storageOf target options) = []
        source_type := point.platform_type.text, target_type := target.type.text
        mode := "builtin", certification_id := some "immutavault-vmware-proxmox-v1"
        reasons := v2v.pointReasons point ++ storageReasons (storageOf target options) } := by
      simp only [basePlan, if_neg unlike, if_pos builtin]
    split at allowed
    · rename_i untouched
      rw [base] at untouched allowed
      rcases untouched with other | other | refused
      · exact absurd builtin.1 other
      · exact absurd rfl other
      · exact absurd allowed refused
    · rename_i considered
      split at allowed
      · rename_i attested
        rw [base] at allowed
        have clear := of_decide_eq_true allowed
        obtain ⟨general, storage⟩ := List.append_eq_nil_iff.mp clear
        obtain ⟨enabled, verified, unsuspicious⟩ := v2v.pointReasons_nil general
        refine ⟨enabled, verified, unsuspicious, Or.inl ⟨fromVMware, toProxmox, builtin.2,
          storageReasons_nil storage, ?_⟩⟩
        cases transport : vmwareTransport point with
        | none => simp [transport] at attested
        | some name => exact ⟨name, by simpa [transport] using attested, rfl⟩
      · cases allowed
  · have elsewhere : (v2v.basePlan point target options).mode ≠ "builtin" := by
      simp only [basePlan, if_neg unlike, if_neg builtin]
      split <;> simp
    rw [if_pos (Or.inr (Or.inl elsewhere))] at allowed
    simp only [basePlan, if_neg unlike, if_neg builtin] at allowed
    split at allowed
    · rename_i provider found
      obtain ⟨enabled, verified, unsuspicious⟩ :=
        v2v.pointReasons_nil (of_decide_eq_true allowed)
      refine ⟨enabled, verified, unsuspicious, Or.inr ⟨provider, List.mem_of_find?_eq_some found, ?_⟩⟩
      simpa using List.find?_some found
    · cases allowed

end V2VConfig

section Executing

variable (v2v : V2VConfig) (engine : Engine) (env : Environment)

/-- A world whose conversion policy answers as the certified manager computes. -/
def planning : Environment where
  answer := fun history external => match external with
    | .v2vPlan point target options => .ok (v2v.plan (viewOf point) target options)
    | other => env.answer history other
  elapsed := env.elapsed

/-- What a request stands for in a catalogue: its row, its live point and its target. -/
structure Located (db : Database) (request_id : Nat) (req : RequestRow) (point : Point)
    (target : PlatformConfig) : Prop where
  request : db.requests.lookup request_id = some req
  point : db.livePoint req.snapshot_id = some point
  target : engine.platform req.target_platform = .ok target

/-- What an execution has looked up before it starts is what its request stands for, and
when the families differ, a plan for it allows the conversion. -/
structure Current (request_id : Nat) (db : Database) (prepared : Engine.Prepared) : Prop where
  own : prepared.request_id = request_id
  located : ∃ req, Located engine db request_id req prepared.point prepared.target ∧
    prepared.options = req.options
  decided : prepared.conversion = none ∧ prepared.target.type = prepared.point.platform_type ∨
    prepared.conversion.isSome ∧ prepared.target.type ≠ prepared.point.platform_type ∧
      (v2v.plan (viewOf prepared.point) prepared.target prepared.options).allowed = true

theorem ensurePlannable_started (req : RequestRow) :
    Engine.ensurePlannable req false = pure () := by
  simp [Engine.ensurePlannable]

variable {v2v engine env}

/-- A native lookup reads what the catalogue holds. -/
theorem lookupNative_current {request_id : Nat} {world final : World} {req : RequestRow}
    {point : Point} {target : PlatformConfig} {prepared : Engine.Prepared}
    (present : world.db.requests.lookup request_id = some req)
    (found : world.db.livePoint req.snapshot_id = some point)
    (known : engine.platform req.target_platform = .ok target)
    (same : target.type = point.platform_type)
    (ran : run env.handler (engine.lookupNative request_id false) world = (.ok prepared, final)) :
    Current v2v engine request_id world.db prepared := by
  have read : Transaction.read world.db (.selectRequest request_id) = some req := present
  rw [Engine.lookupNative, getRestoreRequest, run_transact_bind, read] at ran
  dsimp only at ran
  rw [ensurePlannable_started, pure_bind, getPoint, run_transact_bind] at ran
  have there : Transaction.read (env.handler (.transact (.selectRequest request_id))
      world).2.db (.selectPoint req.snapshot_id) = some point := found
  rw [there] at ran
  obtain ⟨resolved, own, ran⟩ := run_raised_bind ran
  obtain rfl : target = resolved := Except.ok.inj (known.symm.trans own)
  obtain ⟨source, _, _, ran⟩ := (run_bind_eq_ok env.handler).mp ran
  cases ran
  exact ⟨rfl, ⟨req, ⟨present, found, known⟩, rfl⟩, Or.inl ⟨rfl, same⟩⟩

/-- What a certified lookup returns is current, and its conversion was allowed now. -/
theorem lookup_current (certified : engine.certified = true) {request_id : Nat}
    {world final : World} {prepared : Engine.Prepared}
    (ran : run (planning v2v env).handler (engine.lookup request_id false) world =
      (.ok prepared, final)) : Current v2v engine request_id world.db prepared := by
  unfold Engine.lookup at ran
  rw [if_neg (by simp [certified]), getRestoreRequest, run_transact_bind] at ran
  cases present : Transaction.read world.db (.selectRequest request_id) with
  | none =>
    rw [present] at ran
    cases ran
  | some req =>
    rw [present] at ran
    dsimp only at ran
    rw [getPoint, run_transact_bind] at ran
    cases found : world.db.livePoint req.snapshot_id with
    | none =>
      have missing : Transaction.read ((planning v2v env).handler
          (.transact (.selectRequest request_id)) world).2.db (.selectPoint req.snapshot_id) =
          none := found
      rw [missing] at ran
      cases ran
    | some point =>
      have there : Transaction.read ((planning v2v env).handler
          (.transact (.selectRequest request_id)) world).2.db (.selectPoint req.snapshot_id) =
          some point := found
      rw [there] at ran
      obtain ⟨target, known, ran⟩ := run_raised_bind ran
      dsimp only at ran
      split at ran
      · rename_i same
        have native := fun present found => @lookupNative_current v2v engine _ _ _ _ req point
          target _ present found known same ran
        exact native present found
      · rename_i cross
        rw [Engine.lookupConversion, ensurePlannable_started, pure_bind] at ran
        obtain ⟨plan, answered, ran⟩ := run_request_bind ran
        have computed : v2v.plan (viewOf point) target req.options = plan :=
          Except.ok.inj answered
        split at ran
        · cases ran
        · rename_i allowed
          obtain ⟨source, _, _, ran⟩ := (run_bind_eq_ok _).mp ran
          cases ran
          exact ⟨rfl, ⟨req, ⟨present, found, known⟩, rfl⟩,
            Or.inr ⟨rfl, cross, by rw [computed]; simpa using allowed⟩⟩

/-- Commands of an execution that start a request or convert a machine speak about what
was prepared. -/
structure Faithful (prepared : Engine.Prepared) (command : Command) : Prop where
  starts : ∀ started time, command = .transact (.startRequest started time) →
    started = prepared.request_id
  converts : ∀ source point target target_name options,
    command = .request (.v2vExecute source point target target_name options) →
      point = prepared.point ∧ target = prepared.target ∧ options = prepared.options ∧
        prepared.conversion.isSome

/-- A command that neither writes requests nor creates a machine is faithful. -/
theorem faithful_other {prepared : Engine.Prepared} {command : Command}
    (unwritten : command.effect ≠ .writing .requests) (uncreated : command.effect ≠ .creation) :
    Faithful prepared command where
  starts := by
    rintro started time rfl
    exact absurd rfl unwritten
  converts := by
    rintro source point target target_name options rfl
    exact absurd rfl uncreated

theorem faithful_footprint {α : Type} {prepared : Engine.Prepared} {effects : List Effect}
    {program : Prog α} (footprint : Footprint effects program)
    (unwritten : .writing .requests ∉ effects) (uncreated : .creation ∉ effects) :
    Issues (fun command : controller.Command => Faithful prepared command) program :=
  issues_mono footprint fun _ listed => faithful_other (fun same => unwritten (same ▸ listed))
    fun same => uncreated (same ▸ listed)

/-- Finishing a request is neither. -/
theorem faithful_finishRestore (prepared : Engine.Prepared) (request_id : Nat) (success : Bool)
    (result : Dict) (error : Option String) :
    Issues (fun command : controller.Command => Faithful prepared command)
      (finishRestore request_id success result error) := by
  have reading : Footprint [.silent] utcnow := footprint_utcnow (by simp)
  refine issues_bind (faithful_footprint reading (by simp) (by simp)) fun time =>
    (issues_perform _).mpr ?_
  constructor
  · intro started at_ impossible
    cases impossible
  · intro source point target target_name options impossible
    cases impossible

/-- Starting a request starts that request. -/
theorem faithful_startRestore (prepared : Engine.Prepared) (actor : String) :
    Issues (fun command : controller.Command => Faithful prepared command)
      (startRestore prepared.request_id actor) := by
  have reading : Footprint [.silent] (getRestoreRequest prepared.request_id) :=
    footprint_reading rfl (by simp)
  have clock : Footprint [.silent] utcnow := footprint_utcnow (by simp)
  refine issues_bind (faithful_footprint reading (by simp) (by simp)) fun req => ?_
  split
  · exact issues_throw _
  · split
    · exact issues_throw _
    · refine issues_bind (faithful_footprint clock (by simp) (by simp)) fun time => ?_
      refine issues_bind ((issues_perform _).mpr ?_) fun _ => ?_
      · constructor
        · intro started at_ same
          cases same
          rfl
        · intro source point target target_name options impossible
          cases impossible
      · have chained : Footprint [.silent, .writing .audits] (audit actor "restore.execute"
            "restore_request" (toString prepared.request_id) []) :=
          footprint_audit (by simp) (by simp) _ _ _ _ _
        refine issues_bind (faithful_footprint chained (by simp) (by simp)) fun _ => ?_
        exact issues_bind (faithful_footprint reading (by simp) (by simp)) fun _ => issues_pure _

/-- Creating the machine converts what was prepared, or converts nothing. -/
theorem faithful_createMachine (prepared : Engine.Prepared) (target_name : String) :
    Issues (fun command : controller.Command => Faithful prepared command)
      (engine.createMachine prepared target_name) := by
  unfold Engine.createMachine
  dsimp only
  split
  · refine issues_bind ((issues_perform _).mpr ?_) fun _ => issues_pure _
    constructor
    · intro started at_ impossible
      cases impossible
    · intro source point target name options impossible
      cases impossible
  · rename_i plan converts
    refine issues_bind ((issues_perform _).mpr ?_) fun _ => issues_pure _
    constructor
    · intro started at_ impossible
      cases impossible
    · intro source point target name options same
      simp only [Command.request.injEq, External.v2vExecute.injEq] at same
      obtain ⟨_, ownPoint, ownTarget, _, ownOptions⟩ := same
      exact ⟨ownPoint.symm, ownTarget.symm, ownOptions.symm, by simp [converts]⟩

/-- Everything after the preparation is faithful to it. -/
theorem faithful_runRestore (prepared : Engine.Prepared) (actor : String) :
    Issues (fun command : controller.Command => Faithful prepared command)
      (engine.runRestore prepared actor) := by
  refine issues_bind (faithful_startRestore prepared actor) fun req => ?_
  refine issues_tryCatch ?_ fun error => ?_
  · refine issues_bind (faithful_footprint (engine.footprint_fetchSource prepared) (by simp)
      (by simp)) fun _ => ?_
    refine issues_bind (faithful_createMachine prepared _) fun result => ?_
    refine issues_bind (faithful_finishRestore prepared _ _ _ _) fun _ => ?_
    have chained : Footprint [.silent, .writing .audits] (do
        audit actor (prepared.actionFamily ++ ".complete") "restore_request"
          (toString prepared.request_id) result
        rmtree (engine.restoreRoot prepared.request_id)
        return result) :=
      footprint_bind (footprint_audit (by simp) (by simp) _ _ _ _ _) fun _ =>
        footprint_bind (footprint_rmtree (by simp) _) fun _ => footprint_pure _
    exact faithful_footprint chained (by simp) (by simp)
  · refine issues_bind (faithful_finishRestore prepared _ _ _ _) fun _ => ?_
    refine issues_bind (faithful_footprint (footprint_audit
      (show .silent ∈ [Effect.silent, .writing .audits] by simp) (by simp) _ _ _ _ _)
      (by simp) (by simp)) fun _ => ?_
    dsimp only
    split
    · refine issues_bind (faithful_footprint (footprint_rmtree
        (show Effect.silent ∈ [Effect.silent] by simp) _) (by simp) (by simp)) fun _ => ?_
      exact issues_throw _
    · exact issues_throw _

/-- An execution that starts a request or converts a machine has looked up what the
catalogue holds now, and was not a dry run. -/
theorem executeRestore_current (certified : engine.certified = true) {request_id : Nat}
    {actor : String} {dry_run : Bool} {world : World} {entry : World × Command}
    (member : entry ∈ issued (planning v2v env).handler
      (engine.executeRestore request_id actor dry_run) world)
    (opening : entry.2.effect = .writing .requests ∨ entry.2.effect = .creation) :
    ∃ prepared, Current v2v engine request_id world.db prepared ∧ Faithful prepared entry.2 ∧
      entry.1.db.points = world.db.points := by
  have foreign : ∀ {effects : List Effect}, .writing .requests ∉ effects → .creation ∉ effects →
      entry.2.effect ∉ effects := by
    intro effects unwritten uncreated listed
    rcases opening with written | created
    · exact unwritten (written ▸ listed)
    · exact uncreated (created ▸ listed)
  have points : Table.points.Same world.db entry.1.db :=
    same_issued (engine.footprint_executeRestore request_id actor dry_run) (by simp) member
  unfold Engine.executeRestore at member
  split at member
  · have planned : Footprint [.silent, .outside] (do
        let prepared ← engine.lookup request_id true
        return engine.dryRunReport prepared) :=
      footprint_bind (engine.footprint_lookup request_id true) fun _ => footprint_pure _
    exact absurd member (not_issued planned (foreign (by simp) (by simp)))
  · obtain ⟨prepared, middle, ran, later⟩ := issued_after
      (engine.footprint_prepareRestore request_id actor) (foreign (by simp) (by simp)) member
    obtain ⟨found, looked, lookup, ran⟩ := (run_bind_eq_ok _).mp ran
    obtain ⟨_, checked, _, returned⟩ := (run_bind_eq_ok _).mp ran
    cases returned
    exact ⟨prepared, lookup_current certified lookup,
      issues_issued (faithful_runRestore prepared actor) middle entry later, points⟩

end Executing

/-- The gates of conversions are closed unless everything opens them. A plan across
families that allows a conversion was made under an enabled policy for a point that is
verified and unsuspicious as the policy demands, and either the built-in conversion from
VMware to Proxmox has a storage and an attested export or an enabled provider owns the
pair. And whatever became of the catalogue since a request was made, an execution starts
it across families, or converts its point, only when the plan for the request, the point
and the target that it finds now allows it. -/
theorem conversions_gated (v2v : V2VConfig) :
    (∀ point target options, point.platform_type ≠ target.type →
      (v2v.plan point target options).allowed = true → v2v.Cleared point target options) ∧
    ∀ (engine : Engine), engine.certified = true →
      ∀ (env : Environment) request_id actor dry_run (world : World),
      ∀ entry ∈ issued (planning v2v env).handler
        (engine.executeRestore request_id actor dry_run) world,
      (∀ started time, entry.2 = .transact (.startRequest started time) →
        started = request_id ∧ ∃ req point target,
          Located engine world.db request_id req point target ∧
          entry.1.db.points = world.db.points ∧ (target.type = point.platform_type ∨
            (v2v.plan (viewOf point) target req.options).allowed = true)) ∧
      ∀ source point target target_name options,
        entry.2 = .request (.v2vExecute source point target target_name options) →
        ∃ req, Located engine world.db request_id req point target ∧ options = req.options ∧
          entry.1.db.points = world.db.points ∧ target.type ≠ point.platform_type ∧
          (v2v.plan (viewOf point) target options).allowed = true := by
  refine ⟨fun point target options => v2v.plan_cleared, ?_⟩
  intro engine certified env request_id actor dry_run world entry member
  constructor
  · intro started time starts
    obtain ⟨prepared, current, faithful, points⟩ :=
      executeRestore_current certified member (Or.inl (by rw [starts]; rfl))
    obtain ⟨req, located, same⟩ := current.located
    refine ⟨(faithful.starts started time starts).trans current.own, req, prepared.point,
      prepared.target, located, points, ?_⟩
    rcases current.decided with ⟨_, native⟩ | ⟨_, _, allowed⟩
    · exact Or.inl native
    · exact Or.inr (same ▸ allowed)
  · intro source point target target_name options converts
    obtain ⟨prepared, current, faithful, points⟩ :=
      executeRestore_current certified member (Or.inr (by rw [converts]; rfl))
    obtain ⟨req, located, same⟩ := current.located
    obtain ⟨rfl, rfl, rfl, converting⟩ :=
      faithful.converts source point target target_name options converts
    rcases current.decided with ⟨unconverted, _⟩ | ⟨_, cross, allowed⟩
    · rw [unconverted] at converting
      cases converting
    · exact ⟨req, located, same, points, cross, allowed⟩

/-- A policy with the built-in conversion. -/
def builtinOnly : V2VConfig := { enabled := true }

/-- A catalogue with a verified VMware point that attests an export, and an approved
request to restore it on the Proxmox platform. -/
def exported : Database where
  points := Tables.Keyed.empty.replace "4f1c" {
    created_at := 0, platform := "vc", platform_type := .vmware, vm_id := "vm-7"
    vm_name := "web", power_state := none, source_path := "/srv/staging/web"
    backup_bytes := 1, data_added := 1, file_count := 1, manifest_sha256 := none
    immutable_until := 0, suspicious := false, suspicious_reason := none, verified := true
    verified_at := none
    metadata := [("platform_info", .obj [("backup_transport", .obj [("requested", .str "Hot ")])])] }
  requests := Tables.Numbered.empty.insert {
    created_at := 0, requester := "alice", snapshot_id := "4f1c", source_platform := "vc"
    vm_id := "vm-7", vm_name := "web", target_platform := "pve", target_name := "web-v2v"
    options := [("storage", .str "local-zfs")], status := .approved, approved_by := some "bob" }

/-- Whether a command converts a machine. -/
def converts : Command → Bool
  | .request (.v2vExecute ..) => true
  | _ => false

theorem converts_eq {command : Command} (converting : converts command = true) :
    ∃ source point target target_name options,
      command = .request (.v2vExecute source point target target_name options) := by
  unfold converts at converting
  split at converting
  · exact ⟨_, _, _, _, _, rfl⟩
  · cases converting

/-- The certified engine converts the point, and every gate was open when it did. -/
theorem conversions_gated_builtin : ∃ point target options,
    builtinOnly.Cleared (viewOf point) target options := by
  let engine : Engine := { vault with certified := true }
  have converting : ((issued (planning builtinOnly .obliging).handler
      (engine.executeRestore 1 "bob" false) ⟨exported, 0, []⟩).any
      fun entry => converts entry.2) = true := by decide +kernel
  obtain ⟨entry, member, conversion⟩ := List.any_eq_true.mp converting
  obtain ⟨source, point, target, name, options, same⟩ := converts_eq conversion
  obtain ⟨_, _, _, _, cross, allowed⟩ := ((conversions_gated builtinOnly).2 engine rfl
    .obliging 1 "bob" false ⟨exported, 0, []⟩ entry member).2 source point target name options same
  exact ⟨point, target, options, (conversions_gated builtinOnly).1 (viewOf point) target options
    (fun same => cross same.symm) allowed⟩

end Immutavault.ConversionPolicy
