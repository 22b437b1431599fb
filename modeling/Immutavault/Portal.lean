import Immutavault.RecoveryTests
import Immutavault.SessionOwnership

/-!
# The portal

A request to the portal is made by an authenticated identity: the user of a local token,
or whoever signed in at the identity provider. An identity has a role and a tenant scope.
The user of a local token is limited further, by patterns for source platforms and for
names of machines, and these are looked up again by the user's name.

Recovery points are listed and handed out within the tenant scope and the patterns;
restore requests are listed, approved and executed within the tenant scope. A restore is
created only where source and target belong to one tenant. Recovery sessions are kept by
the broker, a process of its own, which is asked on behalf of the identity's subject.
-/

namespace Immutavault.Portal

open Programs Values GlobPatterns Timestamps Tenancy Catalog Machine Configuration
open ResticRepository StateDatabase Management RecoveryTests
open GuestFiles (Str str PublicSession)
open SessionOwnership (Broker brokering)

/-- A user with a local token. -/
structure PortalUserConfig where
  name : String
  role : String
  token_env : String
  sources : List String := ["*"]
  vm_patterns : List String := ["*"]

/-- The patterns of a user match a platform and the name of a machine. -/
def PortalUserConfig.permits (user : PortalUserConfig) (platform vm_name : String) : Bool :=
  user.sources.any (fnmatch platform) ∧ user.vm_patterns.any (fnmatch vm_name)

/-- The portal with the parts of its configuration that decide about requests. -/
structure EnterprisePortal where
  cfg : V11Config
  users : List PortalUserConfig
  user_tenants : List (String × List String) := []
  oidc_enabled : Bool := false
  allow_local_tokens : Bool := false
  getenv : Environ

namespace EnterprisePortal

variable (portal : EnterprisePortal)

section Identities

/-- The engine of the portal. -/
def engine : ManagedRecoveryEngine := ⟨portal.cfg, portal.getenv⟩

/-- The users whose token is set, with their tokens. -/
def staticUsers : List (PortalUserConfig × String) :=
  if portal.oidc_enabled ∧ ¬ portal.allow_local_tokens then []
  else portal.users.filterMap fun user =>
    match portal.getenv user.token_env with
    | some token => if token = "" then none else some (user, token)
    | none => none

/-- The tenant scope of a user; the last entry under a name counts. -/
def tenantsOf (name : String) : List String :=
  ((portal.user_tenants.reverse.find? fun entry => entry.1 = name).map (·.2)).getD ["*"]

/-- The identity of a user. -/
def identityOf (user : PortalUserConfig) : Identity where
  subject := "local:" ++ user.name
  name := user.name
  role := user.role
  tenants := portal.tenantsOf user.name
  source := "local-token"
  mfa := false

def staticIdentity (token : String) : Option Identity :=
  (portal.staticUsers.find? fun entry => token = entry.2).map fun entry =>
    portal.identityOf entry.1

/-- An identity that the portal accepts: of a local token, or signed in elsewhere. -/
def Authenticated (identity : Identity) : Prop :=
  (∃ token, portal.staticIdentity token = some identity) ∨
    (identity.source = "oidc" ∧ ∃ rest, identity.subject = "oidc:" ++ rest)

end Identities

section Scope

/-- The user whose patterns limit an identity. -/
def localPolicy (identity : Identity) : Option PortalUserConfig :=
  if identity.source ≠ "local-token" then none
  else portal.users.find? fun user => user.name = identity.name

def allowedPlatform (identity : Identity) (platform : String) : Bool :=
  match portal.cfg.enterprise.tenantForPlatform platform with
  | .ok tenant => identity.allowsTenant tenant
  | .error _ => false

def allowedPoint (identity : Identity) (platform vm_name : String) : Bool :=
  portal.allowedPlatform identity platform ∧
    (portal.localPolicy identity).all fun user => user.permits platform vm_name

end Scope

end EnterprisePortal

/-- Machines with their recovery points, as they are listed. -/
structure VMRow where
  platform : String
  platform_type : PlatformType
  vm_id : String
  vm_name : String
  latest_point : Timestamp
  restore_points : Nat
  has_verified_point : Bool
  has_suspicious_point : Bool

/-- What the portal answers. Listed rows are shown with their tenant. -/
inductive Reply where
  | failed (code : Nat) (error : String)
  | vms (rows : List (String × VMRow))
  | points (rows : List (String × Point))
  | restores (rows : List (String × (Nat × RequestRow)))
  | created (request_id : Nat) (status : Option RequestStatus)
  | approved (row : Option RequestRow)
  | executed (result : Dict)
  | session (opened : PublicSession)
  | browsed (reply : GuestFiles.Reply)
  | closed (session_id : String)

/-- What an exception is answered with. -/
def failure (error : Exn) : Reply :=
  match error.kind with
  | .permissionError => .failed 403 error.message
  | .valueError => .failed 400 error.message
  | _ => .failed 500 "internal server error"

section Lists

variable (db : Database)

/-- Two points belong to one machine. -/
def SameMachine (first second : Point) : Prop :=
  first.platform = second.platform ∧ first.platform_type = second.platform_type ∧
    first.vm_id = second.vm_id ∧ first.vm_name = second.vm_name

instance (first second : Point) : Decidable (SameMachine first second) := instDecidableAnd

/-- The row of the machine that a point belongs to. -/
def vmRow (point : Point) : VMRow :=
  let points := db.livePoints.filter fun other => SameMachine other point
  { platform := point.platform, platform_type := point.platform_type, vm_id := point.vm_id
    vm_name := point.vm_name
    latest_point := (points.map (·.created_at)).foldr max 0
    restore_points := points.length
    has_verified_point := points.any (·.verified)
    has_suspicious_point := points.any (·.suspicious) }

/-- The rows come by platform, then by name. -/
def ListedBefore (first second : VMRow) : Prop :=
  first.platform < second.platform ∨
    first.platform = second.platform ∧ first.vm_name ≤ second.vm_name

instance : DecidableRel ListedBefore := fun _ _ => instDecidableOr

def listVms : List VMRow :=
  ((db.livePoints.pwFilter fun first second => ¬ SameMachine first second).map (vmRow db))
    |>.insertionSort ListedBefore

/-- The newest requests. -/
def listRestoreRequests (limit : Nat) : List (Nat × RequestRow) :=
  (db.requests.rows.insertionSort fun first second =>
    second.2.created_at ≤ first.2.created_at).take limit

end Lists

namespace EnterprisePortal

variable (portal : EnterprisePortal)

section Views

variable (identity : Identity) (db : Database)

/-- The permitted rows of a list, each with the tenant of its platform. -/
def shown {ρ : Type} (platform : ρ → String) (permitted : ρ → Bool) :
    List ρ → Except Exn (List (String × ρ))
  | [] => .ok []
  | row :: rest =>
    if permitted row then do
      let tenant ← portal.cfg.enterprise.tenantForPlatform (platform row)
      let others ← shown platform permitted rest
      return (tenant, row) :: others
    else shown platform permitted rest

def vms : Except Exn Reply := do
  let rows ← portal.shown (·.platform)
    (fun row => portal.allowedPoint identity row.platform row.vm_name) (listVms db)
  return .vms rows

def recoveryPoints (platform vm_id : Option String) : Except Exn Reply := do
  let rows ← portal.shown (·.platform)
    (fun point : Point => portal.allowedPoint identity point.platform point.vm_name)
    (Transaction.read db (.selectPoints platform vm_id 500))
  return .points rows

/-- A request that the list of requests shows an identity. -/
def listsRequest (row : RequestRow) : Bool :=
  portal.allowedPlatform identity row.source_platform ∧
    (identity.role ∈ ["admin", "approver"] ∨ row.requester = identity.subject)

def restores : Except Exn Reply := do
  let rows ← portal.shown (fun row : Nat × RequestRow => row.2.source_platform)
    (fun row => portal.listsRequest identity row.2) (listRestoreRequests db 200)
  return .restores rows

end Views

section Restores

variable (identity : Identity)

/-- The recovery point an identity asks for, or the answer that refuses it. -/
def point (snapshot : String) : Prog (Except Reply Point) := do
  match ← getPoint snapshot with
  | none => return .error (.failed 404 "recovery point not found")
  | some point =>
    if portal.allowedPoint identity point.platform point.vm_name then return .ok point
    else return .error (.failed 403 "recovery point outside your tenant/scope")

/-- The restore request an identity asks for, or the answer that refuses it. -/
def restore (request_id : Nat) : Prog (Except Reply RequestRow) := do
  match ← getRestoreRequest request_id with
  | none => return .error (.failed 404 "restore request not found")
  | some req =>
    if portal.allowedPlatform identity req.source_platform then return .ok req
    else return .error (.failed 403 "restore request outside your tenant scope")

def createRestore (snapshot target : String) (target_name : Option String) (options : Dict) :
    Prog Reply := do
  if identity.role ∉ ["restore_operator", "admin"] then
    return .failed 403 "restore_operator or admin role required"
  else match ← portal.point identity snapshot with
    | .error reply => return reply
    | .ok point =>
      if ¬ portal.allowedPlatform identity target then
        return .failed 403 "target platform outside your tenant scope"
      else
        let target_tenant ← raised (portal.cfg.enterprise.tenantForPlatform target)
        let source_tenant ← raised (portal.cfg.enterprise.tenantForPlatform point.platform)
        if target_tenant ≠ source_tenant then
          return .failed 403 "cross-tenant restore is prohibited"
        else
          let rid ← portal.engine.requestRestore point.snapshot_id identity.subject target
            target_name options
          let req ← getRestoreRequest rid
          return .created rid (req.map (·.status))

def approve (request_id : Nat) : Prog Reply := do
  if identity.role ∉ ["approver", "admin"] then
    return .failed 403 "approver or admin role required"
  else match ← portal.restore identity request_id with
    | .error reply => return reply
    | .ok _ =>
      portal.engine.super.approveRestore request_id identity.subject
      return .approved (← getRestoreRequest request_id)

def execute (request_id : Nat) : Prog Reply := do
  if identity.role ∉ ["restore_operator", "admin"] then
    return .failed 403 "restore_operator or admin role required"
  else match ← portal.restore identity request_id with
    | .error reply => return reply
    | .ok req =>
      if identity.role ≠ "admin" ∧ req.requester ≠ identity.subject then
        return .failed 403 "only an admin can execute another identity's restore"
      else
        return .executed (← portal.engine.executeRestore request_id identity.subject false)

end Restores

end EnterprisePortal

/-- The portal uses the catalogue and asks the broker. -/
abbrev serving : Interface := controller.both brokering

abbrev Serving (α : Type) := Program serving Exn α

/-- How an error of the broker arrives at the portal. -/
def remoteError (error : Exn) : Exn :=
  let message := if error.message = "" then "FLR broker request failed" else error.message
  match error.kind with
  | .permissionError => ⟨.permissionError, message⟩
  | .valueError => ⟨.valueError, message⟩
  | _ => ⟨.runtimeError, message⟩

/-- What the portal sends the broker of a recovery point. -/
def brokerPoint (point : Point) : SessionOwnership.RecoveryPoint where
  snapshot_id := some (str point.snapshot_id)
  platform := some (str point.platform)
  vm_name := some (str point.vm_name)
  source_path := some (str point.source_path)

/-- What the portal runs on: the catalogue's environment, and the broker with its own. -/
structure Deployment where
  env : Environment
  surroundings : SessionOwnership.Surroundings
  settings : SessionOwnership.Settings
  casefold : Str → Str

/-- The catalogue, and the broker with its sessions. -/
abbrev Site := World × Broker

/-- What the portal is asked for. -/
inductive Action where
  | vms
  | recoveryPoints (platform vm_id : Option String)
  | restores
  | openSession (snapshot : String)
  | browse (session_id path : String)
  | download (session_id path : String)
  | closeSession (session_id : String)
  | createRestore (snapshot target : String) (target_name : Option String) (options : Dict)
  | approve (request_id : Nat)
  | execute (request_id : Nat)

namespace EnterprisePortal

variable (portal : EnterprisePortal) (deployment : Deployment) (identity : Identity)

section Sessions

/-- What a request to the broker carries. -/
def brokerFields (session_id user_path : Option String) : GuestFiles.BrokerRequest where
  actor := some (str identity.subject)
  session_id := session_id.map str
  user_path := user_path.map str

/-- Ask the broker on behalf of the identity. -/
def askBroker (order : SessionOwnership.Order) (session_id user_path : Option String) :
    Serving SessionOwnership.Answer :=
  tryCatch (Program.second (SessionOwnership.dispatch deployment.settings deployment.casefold
    false false ⟨order, brokerFields identity session_id user_path⟩))
    fun error => throw (remoteError error)

/-- An answer of the broker that does not fit. -/
def omittedResult : Serving Reply :=
  throw ⟨.runtimeError, "FLR broker response omitted result object"⟩

def openSession (snapshot : String) : Serving Reply := do
  if identity.role ∉ ["restore_operator", "admin"] then
    return .failed 403 "restore_operator or admin role required"
  else match ← Program.first (portal.point identity snapshot) with
    | .error reply => return reply
    | .ok point =>
      match ← askBroker deployment identity (.opening (some (brokerPoint point))) none none with
      | .opened session =>
        if session.session_id = [] then
          throw ⟨.runtimeError, "FLR broker returned a session without an id"⟩
        else
          Program.first (audit identity.subject "flr.session.open" "recovery_point"
            point.snapshot_id [("session_id", .str (SessionOwnership.printed session.session_id)),
              ("read_only", .bool true)])
          return .session session
      | _ => omittedResult

def browse (session_id path : String) : Serving Reply := do
  if identity.role ∉ ["restore_operator", "admin"] then
    return .failed 403 "restore_operator or admin role required"
  else match ← askBroker deployment identity (.browse .list) (some session_id) (some path) with
    | .browsed reply => return .browsed reply
    | _ => omittedResult

/-- A download is inspected, audited and then streamed, if the file is still as large. -/
def download (session_id path : String) : Serving Reply := do
  if identity.role ∉ ["restore_operator", "admin"] then
    return .failed 403 "restore_operator or admin role required"
  else match ← askBroker deployment identity (.browse .stat) (some session_id) (some path) with
    | .browsed (.file _ size) =>
      Program.first (audit identity.subject "flr.file.download" "flr_session" session_id
        [("path", .str path), ("size", .int size)])
      match ← askBroker deployment identity (.browse .download) (some session_id) (some path) with
      | .browsed (.stream name streamed content) =>
        if streamed ≠ size then
          throw ⟨.runtimeError, "FLR file changed between validation and streaming"⟩
        else return .browsed (.stream name streamed content)
      | _ => omittedResult
    | _ => omittedResult

def closeSession (session_id : String) : Serving Reply := do
  if identity.role ∉ ["restore_operator", "admin"] then
    return .failed 403 s!"role {identity.role} is not permitted"
  else
    let _ ← askBroker deployment identity .close (some session_id) none
    Program.first (audit identity.subject "flr.session.close" "flr_session" session_id [])
    return .closed session_id

end Sessions

/-- A list is read from the catalogue; everything else is a program. -/
def outcome (site : Site) : Action → Except Exn Reply × Site
  | .vms => (portal.vms identity site.1.db, site)
  | .recoveryPoints platform vm_id =>
    (portal.recoveryPoints identity site.1.db platform vm_id, site)
  | .restores => (portal.restores identity site.1.db, site)
  | .openSession snapshot => served (portal.openSession deployment identity snapshot)
  | .browse session_id path => served (browse deployment identity session_id path)
  | .download session_id path => served (download deployment identity session_id path)
  | .closeSession session_id => served (closeSession deployment identity session_id)
  | .createRestore snapshot target target_name options =>
    served (Program.first (portal.createRestore identity snapshot target target_name options))
  | .approve request_id => served (Program.first (portal.approve identity request_id))
  | .execute request_id => served (Program.first (portal.execute identity request_id))
where
  served (program : Serving Reply) : Except Exn Reply × Site :=
    run (deployment.env.handler.both deployment.surroundings.handler) program site

/-- What the portal answers, and what it leaves. -/
def serve (site : Site) (action : Action) : Reply × Site :=
  if identity.role ∉ ["viewer", "restore_operator", "approver", "admin"] then
    (.failed 403 s!"role {identity.role} is not permitted", site)
  else match portal.outcome deployment identity site action with
    | (.ok reply, after) => (reply, after)
    | (.error error, after) => (failure error, after)

end EnterprisePortal

end Immutavault.Portal
