import Immutavault.VddkProvider

/-!
# Exports that prefer increments

An adapter in an incremental mode asks the helper for an increment into a cache that is kept
for the machine, and delivers a view of the cache. When the helper is not available, or when it
fails, a clone of the whole machine may be exported instead, and a marker says why.

A clone is only made where the configuration allows it and the reason is a known one. Before the
helper was asked for a backup the reason alone decides; after that the helper also has to declare
that a clone is safe, and the cache is removed before anything is decided, whatever has failed.
What cannot be removed of the cache is left without an error.
-/

namespace Immutavault.IncrementalExports

open Programs Values PosixPaths GuestFiles JsonTexts VddkProvider
open SessionOwnership (safeComponent printed)

/-- What an export asks of its host besides what the provider asks. -/
inductive ExportCommand where
  | secureParent
  | snapshotView
  | removeCache
  | fullExport (mode : Str) (dry_run : Bool)
  | writeMarker (text : List Char)

abbrev exporting : Interface := ⟨ExportCommand, fun _ => Unit⟩

abbrev ExportProg (α : Type) := Program (providing.both exporting) Failure α

def provided {α : Type} (program : Prog α) : ExportProg α := program.first

def order (command : ExportCommand) : ExportProg Unit :=
  (Program.perform command : Program exporting Failure Unit).second

section Policy

def incrementalModes : List Str := [str "auto", str "cbt", str "vddk", str "vddk-cbt"]

/-- Reasons that are found before the helper is asked for a backup. -/
def safeCapabilityReasons : List Str := [str "helper_missing", str "missing_required_capability"]

/-- Reasons that the helper gives. -/
def safeProviderReasons : List Str :=
  [str "cbt_disabled", str "cbt_uninitialized", str "cbt_not_supported", str "cbt_invalid",
    str "change_id_reset", str "invalid_change_id", str "unsupported_disk",
    str "baseline_required"]

/-- Whether a clone may stand in for an increment. -/
def incrementalFallbackAllowed (strict configured : Bool) (reason : Str)
    (fallback_safe capability_stage : Bool) : Bool :=
  if strict ∨ ¬ configured ∨ ¬ fallback_safe then false
  else reason ∈ (if capability_stage then safeCapabilityReasons else safeProviderReasons)

def ambiguousState : Str := str "provider_state_ambiguous"

end Policy

variable {Φ : Type} [Floating Φ]

/-- A platform whose machines are exported. The environment of its commands may be incomplete. -/
structure Adapter (Φ : Type) where
  name : Str
  endpoint : Str
  mode : Str
  options : List (Str × Value Φ)
  timeout : Int
  govcEnv : Except Exn (List (Str × Str))

structure VM where
  id : Str
  name : Str

namespace Adapter

variable (adapter : Adapter Φ)

/-- An option that is a truth value. -/
def flag (key : String) (default : Bool) : Bool :=
  ((Value.get? adapter.options (str key)).getD (.bool default)).truthy

def strict : Bool := adapter.flag "incremental_strict" false

def fallbackConfigured : Bool := adapter.flag "incremental_fallback" true

def incrementalMode (lower : Str → Str) : Bool := lower adapter.mode ∈ incrementalModes

/-- The directory in which the increments of a machine are kept. -/
def cacheRoot (vm : VM) : Path :=
  ((PurePath.parse ((get adapter.options "incremental_cache_root").orElse
    (.text (str "/var/cache/immutavault/vddk"))).toText).joinpath
      (safeComponent adapter.name)).joinpath (safeComponent vm.name)

def provider (env : List (Str × Str)) : Provider Φ := ⟨adapter.options, adapter.timeout, env⟩

def call (vm : VM) : BackupCall :=
  ⟨adapter.name, adapter.endpoint, vm.id, vm.name, adapter.cacheRoot vm,
    adapter.flag "quiesce" true⟩

end Adapter

/-- What is recorded beside a clone that stands in for an increment. -/
def marker (reason error : Str) (cache_invalidated : Bool) : Value Φ :=
  .dict [(str "version", .int 1), (str "provider", .text (str "hot-clone-export")),
    (str "mode", .text (str "fallback-full")), (str "fallback_reason", .text reason),
    (str "fallback_error", .text error), (str "native_cache_invalidated", .bool cache_invalidated),
    (str "incremental_strict", .bool false)]

variable (Φ) in
/-- Export a clone and say why. -/
def fullFallback (reason error : Str) (cache_invalidated : Bool) : ExportProg Unit := do
  order (.fullExport (str "hot-clone-export") false)
  order (.writeMarker (fileText (marker reason error cache_invalidated : Value Φ)))

/-- What keeps a clone from being made. -/
def refusalPolicy (strict : Bool) (otherwise : String) : String :=
  if strict then "incremental_strict=true" else otherwise

section Export

variable (adapter : Adapter Φ) (lower : Str → Str) (vm : VM)

/-- Without a helper there is a clone or nothing. -/
def exportWithout (caps : Capabilities Φ) (dry_run : Bool) : ExportProg Unit :=
  let reason := orText (caps.reason.getD []) ambiguousState
  let allowed :=
    incrementalFallbackAllowed adapter.strict adapter.fallbackConfigured reason true true
  let policy := refusalPolicy adapter.strict "unsafe/ambiguous provider capability state"
  if dry_run then
    if allowed then order (.fullExport (str "hot-clone-export") true)
    else throw (.exn ⟨.runtimeError, "native VMware incremental backup would fail closed " ++
      s!"({policy}); reason={printed reason}; no fallback permitted"⟩)
  else if allowed then fullFallback Φ reason (orText (caps.error.getD []) reason) false
  else throw (.exn ⟨.runtimeError, "native VMware incremental backup failed closed " ++
    s!"({policy}); reason={printed reason}; no fallback was attempted"⟩)

/-- Once the helper was asked for a backup and something failed, the cache goes first. -/
def recover : Failure → ExportProg Unit
  | .transport message reason fallback_safe => do
    order .removeCache
    if incrementalFallbackAllowed adapter.strict adapter.fallbackConfigured
        (orText reason ambiguousState) fallback_safe false then
      fullFallback Φ reason message true
    else
      let policy := refusalPolicy adapter.strict "unsafe/ambiguous provider state"
      throw (.exn ⟨.runtimeError, s!"native VMware incremental backup failed closed ({policy}); " ++
        s!"reason={printed (orText reason ambiguousState)}; no fallback was attempted: " ++
        printed message⟩)
  | .exn error => do
    order .removeCache
    throw (.exn ⟨.runtimeError, "native VMware incremental provider failed ambiguously; backup " ++
      s!"failed closed and no fallback was attempted: {error.message}"⟩)

/-- An increment into the cache, and a view of the cache. -/
def exportIncrement (env : List (Str × Str)) : ExportProg Unit := do
  let _ ← provided (backup (adapter.provider env) lower (adapter.call vm))
  order .snapshotView

/-- Export a machine. -/
def exportVM (destination : Path) (dry_run : Bool) : ExportProg Path := do
  let target := destination.joinpath (safeComponent vm.name)
  if ¬ adapter.incrementalMode lower then
    order (.fullExport adapter.mode dry_run)
    return target
  else
    let env ← provided (converted adapter.govcEnv)
    let caps : Capabilities Φ ← provided (capabilities (adapter.provider env))
    if ¬ caps.available then
      exportWithout adapter caps dry_run
      return target
    else if dry_run then return target
    else
      order .secureParent
      match ← (exportIncrement adapter lower vm env).attempt with
      | .ok () => return target
      | .error failure =>
        recover adapter failure
        return target

end Export

end Immutavault.IncrementalExports
