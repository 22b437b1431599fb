import Immutavault.ConversionPolicy

/-!
# Planning a conversion and requesting it

A user may ask the certified engine for the plan of a conversion before requesting it.
The plan and the request look up the same point and the same target and consult the same
policy. The plan refuses a disabled target platform. So does a request within one family,
but a request across families does not ask whether the target is enabled.
-/

namespace Immutavault.PlannedRequests

open Programs Values Timestamps Catalog Machine Configuration StateDatabase RestoreEngine
open Histories ConversionPolicy

/-- The plan of a conversion. -/
def v2vPlan (engine : Engine) (snapshot_id target_platform : String) (options : Dict) :
    Prog V2VPlan := do
  match ← getPoint snapshot_id with
  | none => raiseValueError "unknown recovery point"
  | some point =>
    let target ← raised (engine.platform target_platform)
    if ¬ target.enabled then raiseValueError "target platform is disabled"
    else request (.v2vPlan point target options)

/-- A plan that allows the conversion is returned. -/
def Plans (env : Environment) (engine : Engine) (snapshot_id target_platform : String)
    (options : Dict) (world : World) : Prop :=
  ∃ plan after, run env.handler (v2vPlan engine snapshot_id target_platform options) world =
    (.ok plan, after) ∧ plan.allowed = true

/-- The request is answered with the number of a row that it inserted. -/
def Requests (env : Environment) (engine : Engine) (snapshot_id requester target_platform : String)
    (target_name : Option String) (options : Dict) (world : World) : Prop :=
  ∃ after row, run env.handler (engine.requestRestore snapshot_id requester target_platform
      target_name options) world = (.ok world.db.requests.next, after) ∧
    row.target_platform = target_platform ∧ after.db.requests = world.db.requests.insert row

/-- Requesting and planning agree, a disabled target is accepted by neither, and what is
not requested leaves the requests alone. -/
structure Agrees (env : Environment) (engine : Engine) (snapshot_id requester : String)
    (target : PlatformConfig) (target_name : Option String) (options : Dict) (world : World) :
    Prop where
  same : Requests env engine snapshot_id requester target.name target_name options world ↔
    Plans env engine snapshot_id target.name options world
  unplanned : target.enabled = false → ¬ Plans env engine snapshot_id target.name options world
  unrequested : target.enabled = false →
    ¬ Requests env engine snapshot_id requester target.name target_name options world

section Deciding

variable {v2v : V2VConfig} {env : Environment} {engine : Engine} {world : World}
  {snapshot_id : String} {point : Point} {target : PlatformConfig} {options : Dict}

theorem engine_platform_name {name : String} (known : engine.platform name = .ok target) :
    target.name = name := by
  unfold Engine.platform at known
  split at known
  · rename_i found
    cases known
    simpa using List.find?_some found
  · cases known

/-- A plan allows exactly what the policy allows for an enabled target. -/
theorem plans_iff (found : world.db.livePoint snapshot_id = some point)
    (known : engine.platform target.name = .ok target) :
    Plans (planning v2v env) engine snapshot_id target.name options world ↔
      target.enabled = true ∧ (v2v.plan (viewOf point) target options).allowed = true := by
  have read : Transaction.read world.db (.selectPoint snapshot_id) = some point := found
  unfold Plans
  rw [v2vPlan, getPoint, run_transact_bind, read]
  dsimp only
  rw [known, raised_ok, pure_bind]
  cases enabled : target.enabled with
  | false =>
    refine iff_of_false ?_ (by simp)
    rintro ⟨plan, after, impossible, _⟩
    cases impossible
  | true =>
    constructor
    · rintro ⟨plan, after, ran, allowed⟩
      obtain ⟨answered, _⟩ := request_ran ran
      cases answered
      exact ⟨rfl, allowed⟩
    · rintro ⟨_, allowed⟩
      exact ⟨_, _, rfl, allowed⟩

/-- A request across families is created exactly when the policy allows the conversion. -/
theorem requests_iff (certified : engine.certified = true)
    (found : world.db.livePoint snapshot_id = some point)
    (known : engine.platform target.name = .ok target)
    (cross : target.type ≠ point.platform_type) (requester : String)
    (target_name : Option String) :
    Requests (planning v2v env) engine snapshot_id requester target.name target_name options world ↔
      (v2v.plan (viewOf point) target options).allowed = true := by
  have read : Transaction.read world.db (.selectPoint snapshot_id) = some point := found
  unfold Requests
  rw [Engine.requestRestore, if_neg (by simp [certified]), getPoint, run_transact_bind, read]
  dsimp only
  rw [known, raised_ok, pure_bind, if_neg cross]
  constructor
  · rintro ⟨after, row, ran, _⟩
    obtain ⟨plan, answered, rest⟩ := run_request_bind ran
    cases answered
    by_contra refused
    rw [if_pos (by simpa using refused)] at rest
    cases rest
  · intro allowed
    have consulted : run (planning v2v env).handler (request (.v2vPlan point target options))
        ((planning v2v env).handler (.transact (.selectPoint snapshot_id)) world).2 =
      (.ok (v2v.plan (viewOf point) target options), ((planning v2v env).handler
        (.request (.v2vPlan point target options))
        ((planning v2v env).handler (.transact (.selectPoint snapshot_id)) world).2).2) := rfl
    rw [run_bind, consulted]
    dsimp only
    rw [if_neg (by simpa using allowed)]
    exact ⟨_, _, rfl, engine_platform_name known, rfl⟩

/-- Requesting agrees with planning exactly when the target is enabled, or the policy refuses
the conversion anyway. -/
theorem request_agrees_iff (certified : engine.certified = true)
    (found : world.db.livePoint snapshot_id = some point)
    (known : engine.platform target.name = .ok target)
    (cross : target.type ≠ point.platform_type) (requester : String)
    (target_name : Option String) :
    Agrees (planning v2v env) engine snapshot_id requester target target_name options world ↔
      target.enabled = true ∨ (v2v.plan (viewOf point) target options).allowed = false := by
  have plans := @plans_iff v2v env engine world snapshot_id point target options found known
  have requests := @requests_iff v2v env engine world snapshot_id point target options certified
    found known cross requester target_name
  constructor
  · intro agrees
    cases enabled : target.enabled with
    | true => exact Or.inl rfl
    | false =>
      refine Or.inr ?_
      by_contra allowed
      exact agrees.unrequested enabled (requests.mpr (by simpa using allowed))
  · rintro (enabled | refused)
    · refine ⟨requests.trans ?_, fun disabled => ?_, fun disabled => ?_⟩
      · rw [plans]
        exact ⟨fun allowed => ⟨enabled, allowed⟩, fun both => both.2⟩
      · exact absurd (enabled.symm.trans disabled) (by decide)
      · exact absurd (enabled.symm.trans disabled) (by decide)
    · have unplanned : ¬ Plans (planning v2v env) engine snapshot_id target.name options world :=
        fun planned => absurd ((plans.mp planned).2.symm.trans refused) (by decide)
      have unrequested : ¬ Requests (planning v2v env) engine snapshot_id requester target.name
          target_name options world :=
        fun requested => absurd ((requests.mp requested).symm.trans refused) (by decide)
      exact ⟨iff_of_false unrequested unplanned, fun _ => unplanned, fun _ => unrequested⟩

end Deciding

section Retired

/-- A platform that takes converted machines. -/
def shelf (enabled : Bool) : PlatformConfig :=
  { name := "shelf", type := .proxmox, endpoint := "shelf", enabled := enabled }

/-- A certified engine with that platform. -/
def converting (enabled : Bool) : Engine where
  cfg := {
    repository := vault.cfg.repository
    platforms := [{ name := "vc", type := .vmware, endpoint := "vc" }, shelf enabled]
    dr := { workloads_distinct := no_workloads_distinct }
    platforms_distinct := by cases enabled <;> decide
    replicas_distinct := no_replicas_distinct }
  certified := true

def ontoZfs : Dict := [("storage", .str "local-zfs")]

/-- A conversion to the enabled platform is planned and requested. -/
theorem agrees_enabled : Agrees (planning builtinOnly .obliging) (converting true) "4f1c" "alice"
    (shelf true) none ontoZfs ⟨exported, 0, []⟩ :=
  (request_agrees_iff rfl rfl rfl (by decide) "alice" none).mpr (Or.inl rfl)

/-- Once the platform is disabled, it is requested still, but not planned. -/
theorem requested_disabled :
    Requests (planning builtinOnly .obliging) (converting false) "4f1c" "alice" "shelf" none
      ontoZfs ⟨exported, 0, []⟩ ∧
    ¬ Plans (planning builtinOnly .obliging) (converting false) "4f1c" "shelf" ontoZfs
      ⟨exported, 0, []⟩ := by
  constructor
  · refine (@requests_iff builtinOnly .obliging (converting false) ⟨exported, 0, []⟩ "4f1c" _
      (shelf false) ontoZfs rfl rfl rfl (by decide) "alice" none).mpr ?_
    decide +kernel
  · rintro ⟨plan, after, impossible, _⟩
    cases impossible

end Retired

end Immutavault.PlannedRequests
