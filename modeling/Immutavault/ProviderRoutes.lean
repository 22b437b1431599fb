import Immutavault.ConversionPolicy
import Immutavault.DiskImages
import Immutavault.LooseValues

/-!
# By which route a conversion is executed

A conversion goes through the built-in tools or through the helper of a provider. The
manager plans it, and takes the route of the plan: the plan is made by the base manager
and may be withdrawn by the certified one, and both executions make it anew. A helper is
run only when its file has the configured digest. It is asked what it is capable of
before it converts, and what it answers has to attest that the conversion was safe.

What is proved here is when a provider can be reached. A refusal of the built-in route
asks for one, and so does the manual; but the built-in route is chosen by the pair of
families alone, so no provider is considered for that pair while the route is switched on.
-/

namespace Immutavault.ProviderRoutes

open Programs Values Configuration Machine ConversionPolicy
open JsonTexts (LoadError)

/-- What the helper of a provider leaves behind: its standard output as the value that it
denotes. -/
structure HelperResult where
  returncode : Int
  stdout : Except LoadError Json
  stderr : String

/-- What the manager asks of its host. The helper reads its request as JSON. The built-in
route prepares the storage of the target before it converts the restored machine. -/
inductive ConversionCommand where
  | isRunnable (helper : String)
  | sha256File (helper : String)
  | helper (path action : String) (timeout : Nat) (request : Dict)
  | preflightStorage (target : PlatformConfig) (options : Dict) (include_efi : Bool)
  | convertBuiltin (source : String) (target : PlatformConfig) (target_name : String)
      (options : Dict) (dry_run : Bool)

@[reducible] def ConversionCommand.Answer : ConversionCommand → Type
  | .isRunnable _ => Bool
  | .sha256File _ => String
  | .helper .. => HelperResult
  | .preflightStorage .. => Unit
  | .convertBuiltin .. => Dict

abbrev converting : Interface := ⟨ConversionCommand, ConversionCommand.Answer⟩

abbrev Prog (α : Type) := Program converting Exn α

def ask (command : ConversionCommand) : Prog command.Answer :=
  @Program.perform converting Exn command

/-- A recovery point as the execution reads it. -/
structure ConversionPoint extends PointView where
  snapshot_id : String
  platform : String
  vm_name : String

def v2vProtocol : Int := 1

/-- What a provider has to be capable of. -/
def requiredFeatures : List String := ["inspect", "convert", "validate", "rollback"]

/-- What a conversion has to attest. -/
def requiredAttestations : List String :=
  ["source_read_only", "target_new_vm", "network_mapped", "rollback_available"]

/-- The value under a key; what is missing is null. -/
def get (payload : Dict) (key : String) : Json := (payload.get? key).getD .null

/-- A value is this text. -/
def isText (text : String) : Json → Bool
  | .str value => value = text
  | _ => false

/-- A value is the true one, and not merely one that counts as true. -/
def isTrue : Json → Bool
  | .bool value => value
  | _ => false

/-- The elements of the first list that the second lacks, each once and in order. -/
def missing (expected found : List String) : List String :=
  (expected.dedup.filter fun entry => entry ∉ found).insertionSort (· ≤ ·)

/-- The texts of what a value holds; a missing value holds nothing. -/
def texts (payload : Dict) (key : String) : Except Exn (List String) :=
  (DiskImages.iterated ((payload.get? key).getD (.arr []))).map fun items => items.map (·.toText)

/-- The text of a value that is true. -/
def spoken (value : Json) : Option String := if value.truthy then some value.toText else none

section Provider

variable (provider_timeout_seconds : Nat) (provider : V2VProviderConfig)

/-- Run the helper of a provider, if it is the configured one. -/
def providerPayload (action : String) (request : Dict) : Prog Dict := do
  let runnable : Bool ← ask (.isRunnable provider.helper)
  if ¬ runnable then
    raiseRuntimeError s!"V2V provider {provider.name} helper is missing or not executable"
  else
    let actual : String ← ask (.sha256File provider.helper)
    if actual ≠ provider.sha256 then
      raiseRuntimeError
        s!"V2V provider {provider.name} SHA-256 mismatch; refusing unpinned helper"
    else
      let result : HelperResult ←
        ask (.helper provider.helper action provider_timeout_seconds request)
      if result.returncode ≠ 0 then
        let reason := trimmed result.stderr
        raiseRuntimeError s!"V2V provider {provider.name} {action} failed: {reason}"
      else match result.stdout with
        | .error .malformed =>
          raiseRuntimeError s!"V2V provider {provider.name} returned invalid JSON"
        | .error .tooLong => throw LoadError.tooLong.exn
        | .ok (.obj payload) => return payload
        | .ok _ => raiseRuntimeError s!"V2V provider {provider.name} returned a non-object response"

/-- What the capabilities of a provider lack. -/
def capabilityProblems (payload : Dict) : Except Exn (List String) := do
  let protocol ← ((payload.get? "protocol").getD (.int 0)).toInt
  let pairs ← texts payload "pairs"
  let features ← texts payload "features"
  let missing_pairs := missing provider.pairs pairs
  let missing_features := missing requiredFeatures features
  return (if protocol ≠ v2vProtocol then ["provider protocol mismatch"] else []) ++
    (if isText provider.certification_id (get payload "certification_id") then []
      else ["provider certification_id does not match configuration"]) ++
    (if missing_pairs = [] then []
      else ["provider does not advertise configured pairs: " ++ ", ".intercalate missing_pairs]) ++
    if missing_features = [] then []
      else ["provider lacks required safety features: " ++ ", ".intercalate missing_features]

/-- What speaks against using a provider. A helper that cannot be asked is a problem, and
an answer that cannot be looked into is an error. -/
def providerDoctor : Prog (List String) := do
  match ← (providerPayload provider_timeout_seconds provider "capabilities" []).attempt with
  | .error error => return [error.message]
  | .ok payload => raised (capabilityProblems provider payload)

/-- The request to a provider. -/
def providerRequest (source : String) (point : ConversionPoint) (target : PlatformConfig)
    (target_name : String) (options : Dict) (dry_run : Bool) : Dict :=
  [("protocol", .int v2vProtocol), ("action", .str (if dry_run then "plan" else "convert")),
    ("certification_id", .str provider.certification_id),
    ("pair", .str (pair point.platform_type target.type)),
    ("source", .obj [("path", .str source), ("snapshot_id", .str point.snapshot_id),
      ("platform", .str point.platform), ("platform_type", .str point.platform_type.text),
      ("vm_name", .str point.vm_name), ("manifest_verified", .bool true)]),
    ("target", .obj [("platform", .str target.name), ("platform_type", .str target.type.text),
      ("target_name", .str target_name)]),
    ("options", .obj options),
    ("safety", .obj [("new_vm_only", .bool true), ("source_read_only", .bool true),
      ("automatic_overwrite", .bool false)])]

/-- Every attestation is given. -/
def attested (validation : Dict) : Bool :=
  requiredAttestations.all fun key => isTrue (get validation key)

/-- The result of a provider under its name. -/
def signed (result : Dict) : Dict :=
  ((Dict.set result "mode" (.str "certified-provider-v2v")).set "provider"
    (.str provider.name)).set "certification_id" (.str provider.certification_id)

/-- What an answer of a provider is worth. -/
def accepted (payload : Dict) (dry_run : Bool) : Except Exn Dict :=
  if ¬ isText "success" (get payload "status") then
    let reason := ((spoken (get payload "error")).orElse fun _ =>
      spoken (get payload "reason")).getD "unspecified"
    .error ⟨.runtimeError, s!"certified V2V provider refused operation: {reason}"⟩
  else if ¬ isText provider.certification_id (get payload "certification_id") then
    .error ⟨.runtimeError, "certified V2V provider response certification_id mismatch"⟩
  else match get payload "result" with
    | .obj result =>
      if dry_run then .ok (signed provider result)
      else match get payload "validation" with
        | .obj validation =>
          if ¬ attested validation then
            .error ⟨.runtimeError, "certified V2V provider returned incomplete safety validation"⟩
          else .ok (signed provider (Dict.set result "validation" (.obj validation)))
        | _ => .error ⟨.runtimeError, "certified V2V provider omitted validation attestation"⟩
    | _ => .error ⟨.runtimeError, "certified V2V provider omitted result object"⟩

/-- Convert by a provider, once nothing speaks against it. -/
def executeProvider (source : String) (point : ConversionPoint) (target : PlatformConfig)
    (target_name : String) (options : Dict) (dry_run : Bool) : Prog Dict := do
  let problems ← providerDoctor provider_timeout_seconds provider
  if problems ≠ [] then
    let listed := "; ".intercalate problems
    raiseRuntimeError s!"certified V2V provider preflight failed: {listed}"
  else
    let payload ← providerPayload provider_timeout_seconds provider
      (if dry_run then "plan" else "convert")
      (providerRequest provider source point target target_name options dry_run)
    raised (accepted provider payload dry_run)

end Provider

section Execution

variable (v2v : V2VConfig) (provider_timeout_seconds : Nat) (source : String)
  (point : ConversionPoint) (target : PlatformConfig) (target_name : String) (options : Dict)
  (dry_run : Bool)

/-- The execution of the base manager, with the plan of the certified one. -/
def baseExecute : Prog Dict := do
  let plan := v2v.plan point.toPointView target options
  if ¬ plan.allowed then
    let reasons := "; ".intercalate plan.reasons
    raiseRuntimeError s!"cross-hypervisor recovery blocked: {reasons}"
  else if plan.mode = "native" then
    raiseRuntimeError "native same-family restore must use the normal adapter path"
  else
    let pair := pair point.platform_type target.type
    if pair = builtinPair ∧ plan.mode = "builtin" then
      ask (.convertBuiltin source target target_name options dry_run)
    else match v2v.providerForPair pair with
      | none =>
        raiseRuntimeError
          s!"cross-hypervisor recovery blocked: no certified provider for {pair}"
      | some provider =>
        executeProvider provider_timeout_seconds provider source point target target_name options
          dry_run

/-- The execution of the certified manager: before the built-in route the storage for
images is examined. -/
def execute : Prog Dict := do
  let plan := v2v.plan point.toPointView target options
  if plan.allowed ∧ plan.mode = "builtin" ∧ pair point.platform_type target.type = builtinPair ∧
      ¬ dry_run then
    let _ : Unit ← ask (.preflightStorage target options false)
  baseExecute v2v provider_timeout_seconds source point target target_name options dry_run

end Execution

section Attestation

variable {provider : V2VProviderConfig} {payload result : Dict} {dry_run : Bool}

/-- An accepted answer is signed by the provider and bears its certification, and unless
nothing was converted every attestation of it is given. -/
theorem accepted_attested (accepts : accepted provider payload dry_run = .ok result) :
    get result "provider" = .str provider.name ∧
      get result "certification_id" = .str provider.certification_id ∧
      get result "mode" = .str "certified-provider-v2v" ∧
      (dry_run = false → ∃ validation, get result "validation" = .obj validation ∧
        attested validation = true) := by
  have signature : ∀ given : Dict, get (signed provider given) "provider" = .str provider.name ∧
      get (signed provider given) "certification_id" = .str provider.certification_id ∧
      get (signed provider given) "mode" = .str "certified-provider-v2v" ∧
      get (signed provider given) "validation" = get given "validation" := by
    intro given
    simp [get, signed, Dict.get?_set_ne]
  unfold accepted at accepts
  split at accepts
  · cases accepts
  · split at accepts
    · cases accepts
    · split at accepts
      · rename_i given _
        split at accepts
        · rename_i rehearsed
          cases accepts
          obtain ⟨named, certified, mode, _⟩ := signature given
          exact ⟨named, certified, mode, fun real => absurd (rehearsed.symm.trans real) (by decide)⟩
        · split at accepts
          · rename_i validation _
            split at accepts
            · cases accepts
            · rename_i complete
              cases accepts
              obtain ⟨named, certified, mode, kept⟩ :=
                signature (Dict.set given "validation" (.obj validation))
              refine ⟨named, certified, mode, fun _ => ⟨validation, ?_, by simpa using complete⟩⟩
              rw [kept]
              simp [get]
          · cases accepts
      · cases accepts

end Attestation

section Routes

variable {v2v : V2VConfig} {point : ConversionPoint} {target : PlatformConfig} {options : Dict}
  {provider : V2VProviderConfig}

/-- The pair of families is the built-in one, and its route is switched on. -/
def BuiltinChosen (v2v : V2VConfig) (point : ConversionPoint) (target : PlatformConfig) : Prop :=
  pair point.platform_type target.type = builtinPair ∧ v2v.builtin_vmware_to_proxmox = true

/-- The built-in route can convert a point: there is a storage for its images, and the point
attests an export. -/
structure BuiltinApplicable (v2v : V2VConfig) (point : ConversionPoint) (target : PlatformConfig)
    (options : Dict) : Prop where
  chosen : BuiltinChosen v2v point target
  storage : V2VConfig.storageReasons (storageOf target options) = []
  exported : (vmwareTransport point.toPointView).any (· ∈ ovfExportTransports) = true

/-- The plan names the provider, and every execution is the one by this provider. -/
structure Usable (v2v : V2VConfig) (point : ConversionPoint) (target : PlatformConfig)
    (options : Dict) (provider : V2VProviderConfig) : Prop where
  allowed : (v2v.plan point.toPointView target options).allowed = true
  named : (v2v.plan point.toPointView target options).provider = some provider.name
  runs : ∀ (provider_timeout_seconds : Nat) (source target_name : String) (dry_run : Bool),
    execute v2v provider_timeout_seconds source point target target_name options dry_run =
      executeProvider provider_timeout_seconds provider source point target target_name options
        dry_run

/-- Without the built-in route the plan for an owned pair is the provider's. -/
theorem plan_provider (gates : v2v.pointReasons point.toPointView = [])
    (cross : point.platform_type ≠ target.type)
    (owned : v2v.providerForPair (pair point.platform_type target.type) = some provider)
    (unchosen : ¬ BuiltinChosen v2v point target) :
    v2v.plan point.toPointView target options = {
      allowed := true, source_type := point.platform_type.text, target_type := target.type.text
      mode := "provider", certification_id := some provider.certification_id
      provider := some provider.name } := by
  have unlike : ¬ point.platform_type.text = target.type.text := fun same =>
    cross (V2VConfig.text_injective same)
  have base : v2v.basePlan point.toPointView target options = {
      allowed := true, source_type := point.platform_type.text, target_type := target.type.text
      mode := "provider", certification_id := some provider.certification_id
      provider := some provider.name } := by
    have elsewhere : ¬ (pair point.platform_type target.type = builtinPair ∧
        v2v.builtin_vmware_to_proxmox = true) := unchosen
    simp only [V2VConfig.basePlan, if_neg unlike, if_neg elsewhere, owned, gates, decide_true]
  rw [V2VConfig.plan]
  dsimp only
  rw [base, if_pos (Or.inr (Or.inl (show "provider" ≠ "builtin" by decide)))]

/-- Where the built-in route is chosen and cannot convert the point, the plan refuses. -/
theorem plan_refused (cross : point.platform_type ≠ target.type)
    (chosen : BuiltinChosen v2v point target)
    (inapplicable : ¬ BuiltinApplicable v2v point target options) :
    (v2v.plan point.toPointView target options).allowed = false := by
  have unlike : ¬ point.platform_type.text = target.type.text := fun same =>
    cross (V2VConfig.text_injective same)
  have here : pair point.platform_type target.type = builtinPair ∧
      v2v.builtin_vmware_to_proxmox = true := chosen
  have base : (v2v.basePlan point.toPointView target options).allowed =
        decide (v2v.pointReasons point.toPointView ++
          V2VConfig.storageReasons (storageOf target options) = []) ∧
      (v2v.basePlan point.toPointView target options).mode = "builtin" := by
    simp only [V2VConfig.basePlan, if_neg unlike, if_pos here, and_self]
  rw [V2VConfig.plan]
  dsimp only
  split
  · rename_i untouched
    rcases untouched with other | other | refused
    · exact absurd here.1 other
    · exact absurd base.2 other
    · simpa using refused
  · rename_i considered
    split
    · rename_i exported
      have accepted : (v2v.basePlan point.toPointView target options).allowed = true := by
        simp only [not_or, not_not] at considered
        exact considered.2.2
      rw [base.1] at accepted
      have storage := (List.append_eq_nil_iff.mp (of_decide_eq_true accepted)).2
      exact absurd ⟨chosen, storage, exported⟩ inapplicable
    · rfl

/-- The execution of a provider's plan is the provider's. -/
theorem execute_provider {plan : V2VPlan}
    (planned : v2v.plan point.toPointView target options = plan) (allowed : plan.allowed = true)
    (mode : plan.mode = "provider")
    (owned : v2v.providerForPair (pair point.platform_type target.type) = some provider)
    (provider_timeout_seconds : Nat) (source target_name : String) (dry_run : Bool) :
    execute v2v provider_timeout_seconds source point target target_name options dry_run =
      executeProvider provider_timeout_seconds provider source point target target_name options
        dry_run := by
  have unbuilt : ¬ plan.mode = "builtin" := by
    rw [mode]
    decide
  have foreign : ¬ plan.mode = "native" := by
    rw [mode]
    decide
  unfold execute baseExecute
  simp only [planned, allowed, unbuilt, foreign, owned, not_true_eq_false, false_and, and_false,
    if_false]

/-- Suppose that the common gates are open for a point, that an enabled provider owns its
pair, and that the built-in route cannot convert it. The provider is usable exactly when the
built-in route is not the one for this pair or is switched off. -/
theorem usable_iff (gates : v2v.pointReasons point.toPointView = [])
    (cross : point.platform_type ≠ target.type)
    (owned : v2v.providerForPair (pair point.platform_type target.type) = some provider)
    (inapplicable : ¬ BuiltinApplicable v2v point target options) :
    Usable v2v point target options provider ↔
      ¬ (pair point.platform_type target.type = builtinPair ∧
        v2v.builtin_vmware_to_proxmox = true) := by
  constructor
  · intro usable chosen
    exact absurd (usable.allowed.symm.trans (plan_refused cross chosen inapplicable)) (by decide)
  · intro unchosen
    have planned := @plan_provider v2v point target options provider gates cross owned unchosen
    refine ⟨by rw [planned], by rw [planned], ?_⟩
    exact execute_provider planned rfl rfl owned

end Routes

section NativeLayout

/-- A provider for the pair of the built-in route. -/
def layoutProvider : V2VProviderConfig where
  name := "native-layout"
  helper := "/usr/lib/immutavault/native-layout"
  sha256 := "00"
  pairs := [builtinPair]
  certification_id := "native-layout-v1"

/-- The provider next to the built-in route, which is on or off. -/
def providing (builtin : Bool) : V2VConfig where
  enabled := true
  builtin_vmware_to_proxmox := builtin
  providers := [layoutProvider]

/-- A verified point in a native layout. -/
def nativePoint : ConversionPoint where
  platform_type := .vmware
  verified := true
  suspicious := false
  metadata := some (.obj [("platform_info",
    .obj [("backup_transport", .obj [("requested", .str "cbt")])])])
  snapshot_id := "4f1c"
  platform := "vc"
  vm_name := "web"

def shelf : PlatformConfig := { name := "pve", type := .proxmox, endpoint := "pve" }

def ontoZfs : Dict := [("storage", .str "local-zfs")]

theorem transport_native : vmwareTransport nativePoint.toPointView = some "cbt" := by
  decide +kernel

theorem inapplicable_native (builtin : Bool) :
    ¬ BuiltinApplicable (providing builtin) nativePoint shelf ontoZfs := by
  intro applicable
  have exported := applicable.exported
  rw [transport_native] at exported
  exact absurd exported (by decide)

/-- With the built-in route off, the provider is used for the native layout. -/
theorem usable_alone : Usable (providing false) nativePoint shelf ontoZfs layoutProvider :=
  (usable_iff rfl (by decide) rfl (inapplicable_native false)).mpr fun chosen =>
    absurd chosen.2 (by decide)

/-- With the built-in route on, every gate is open and the provider owns the pair, but the
plan refuses and names no provider. -/
theorem unusable_beside : (providing true).pointReasons nativePoint.toPointView = [] ∧
    (providing true).providerForPair (pair nativePoint.platform_type shelf.type) =
      some layoutProvider ∧
    ¬ BuiltinApplicable (providing true) nativePoint shelf ontoZfs ∧
    ¬ Usable (providing true) nativePoint shelf ontoZfs layoutProvider := by
  refine ⟨rfl, rfl, inapplicable_native true, fun usable => ?_⟩
  have refused := @plan_refused (providing true) nativePoint shelf ontoZfs (by decide)
    ⟨rfl, rfl⟩ (inapplicable_native true)
  exact absurd (usable.allowed.symm.trans refused) (by decide)

end NativeLayout

end Immutavault.ProviderRoutes
