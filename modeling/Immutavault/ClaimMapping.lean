import Immutavault.EnterpriseFields
import Immutavault.JsonRoundTrips
import Mathlib.Data.List.MinMax
import Mathlib.Data.List.Sort
import Mathlib.Data.String.Basic

/-!
# How claims of an identity provider become an identity

The enterprise configuration maps groups and application roles to roles and to tenants, and
names a role and tenants for everybody. The claims of a token are a dictionary with values
of any kind. Groups and application roles are read as sets of texts: what a loop over the
value under a key goes through, in whatever order the set is gone through afterwards. The
role is the highest of those that apply, and the tenants are those of all maps together.

Nothing is assumed of the claims. What is under the keys may not be something to loop over,
and then there is no identity. The configuration is an accepted one: what the loader has
checked of roles and tenants is used, and stated as a lemma first.
-/

namespace Immutavault.ClaimMapping

open Values DRConfigurations EnterpriseFields Tenancy JsonTexts
open GuestFiles (Str str)
open SignedTokens (roleOrder TokenIdentity fieldOr fieldTexts)
open RawValue KindedValue

structure OIDCConfig where
  enabled : Bool
  issuer : String
  client_id : String
  client_secret_env : Option String
  redirect_uri : String
  session_secret_env : String
  session_minutes : Int
  require_mfa : Bool
  allowed_tenant_ids : List String
  required_acrs : List String
  allow_local_tokens : Bool
  default_role : String
  default_tenants : List String
  group_role_map : List (String × String)
  group_tenant_map : List (String × List String)
  app_role_map : List (String × String)
  app_role_tenant_map : List (String × List String)

section Loading

variable {V : Type} [KindedValue V]

/-- A text without the slashes at its end. -/
def withoutSlashes (text : String) : String :=
  String.ofList ((text.toList.reverse.dropWhile (· = '/')).reverse)

/-- What has to be configured when the provider is enabled. -/
def checkProvider (issuer client_id redirect_uri : String) : Except Exn Unit := do
  refuse (¬ issuer.startsWith "https://") "identity.oidc.issuer must be an https URL"
  refuse (client_id = "") "identity.oidc.client_id is required when OIDC is enabled"
  refuse (¬ redirect_uri.startsWith "https://" ∧ ¬ redirect_uri.startsWith "http://127.0.0.1" ∧
      ¬ redirect_uri.startsWith "http://localhost")
    "identity.oidc.redirect_uri must use https except for loopback development"

/-- An integer under a key, within bounds. -/
def boundedInt (item : V) (key : String) (default : Int) (name : String) (minimum maximum : Int) :
    Except Exn Int := do
  let parsed ← intAt item key default
  refuse (¬ (minimum ≤ parsed ∧ parsed ≤ maximum))
    s!"{name} must be between {minimum} and {maximum}"
  return parsed

/-- The text under a key, or the empty one when it is false. -/
def filledText (item : V) (key : String) : Except Exn String := do
  textOr (← get? item key) ""

def namesAt (item : V) (key : String) : Except Exn (List String) := do
  stringList (← get? item key) []

def roleMapAt (oidc_raw : V) (key : String) : Except Exn (List (String × String)) := do
  roleMap (← get? oidc_raw key) s!"identity.oidc.{key}"

def tenantMapAt (oidc_raw : V) (key : String) : Except Exn (List (String × List String)) := do
  tenantMap (← get? oidc_raw key) s!"identity.oidc.{key}"

def defaultRole (oidc_raw : V) : Except Exn String := do
  roleText (← get? oidc_raw "default_role") "identity.oidc.default_role"

def readOidc (oidc_raw : V) : Except Exn OIDCConfig := do
  let enabled ← boolAt oidc_raw "enabled" false
  let issuer := withoutSlashes (← filledText oidc_raw "issuer")
  let client_id ← filledText oidc_raw "client_id"
  let redirect_uri ← filledText oidc_raw "redirect_uri"
  cond enabled (checkProvider issuer client_id redirect_uri) (.ok ())
  let client_secret_env ← optionalText oidc_raw "client_secret_env"
  let session_secret_env ← textAt oidc_raw "session_secret_env" "IMMUTAVAULT_OIDC_SESSION_SECRET"
  let session_minutes ← boundedInt oidc_raw "session_minutes" 60 "identity.oidc.session_minutes"
    5 720
  let require_mfa ← boolAt oidc_raw "require_mfa" true
  let allowed_tenant_ids ← namesAt oidc_raw "allowed_tenant_ids"
  let required_acrs ← namesAt oidc_raw "required_acrs"
  let allow_local_tokens ← boolAt oidc_raw "allow_local_tokens" false
  let default_role ← defaultRole oidc_raw
  let default_tenants ← namesAt oidc_raw "default_tenants"
  let group_role_map ← roleMapAt oidc_raw "group_role_map"
  let group_tenant_map ← tenantMapAt oidc_raw "group_tenant_map"
  let app_role_map ← roleMapAt oidc_raw "app_role_map"
  let app_role_tenant_map ← tenantMapAt oidc_raw "app_role_tenant_map"
  return {
    enabled, issuer, client_id, client_secret_env, redirect_uri, session_secret_env
    session_minutes, require_mfa, allowed_tenant_ids, required_acrs, allow_local_tokens
    default_role, default_tenants, group_role_map, group_tenant_map, app_role_map
    app_role_tenant_map }

/-- The lists of tenants in a configuration, with what they are called. -/
def OIDCConfig.scopeLists (cfg : OIDCConfig) : List (String × List String) :=
  ("identity.oidc.default_tenants", cfg.default_tenants) ::
    (cfg.group_tenant_map.map fun entry =>
      (s!"identity.oidc.group_tenant_map.{entry.1}", entry.2)) ++
    cfg.app_role_tenant_map.map fun entry =>
      (s!"identity.oidc.app_role_tenant_map.{entry.1}", entry.2)

/-- A list of tenants names only configured ones, or the star. -/
def checkScopes (configured : List String) (entry : String × List String) : Except Exn Unit :=
  let invalid := unknownScopes configured entry.2
  refuse (invalid ≠ []) s!"{entry.1} references unknown tenant(s): {
    Json.repr (.arr (invalid.map .str))}"

/-- The section on the identity provider, with the identifiers of the configured tenants. -/
def loadOidc (configured : List String) (raw : V) : Except Exn OIDCConfig := do
  let identity_raw ← sectionAt raw "identity"
  let oidc_raw ← sectionAt identity_raw "oidc"
  let cfg ← readOidc oidc_raw
  let _ ← cfg.scopeLists.mapM (checkScopes configured)
  return cfg

/-- What has been checked of an accepted configuration. -/
structure OIDCConfig.Accepted (cfg : OIDCConfig) (configured : List String) : Prop where
  default_role : cfg.default_role ∈ roleOrder
  group_roles : ∀ entry ∈ cfg.group_role_map, entry.2 ∈ roleOrder
  app_roles : ∀ entry ∈ cfg.app_role_map, entry.2 ∈ roleOrder
  scopes : ∀ entry ∈ cfg.scopeLists, ∀ scope ∈ entry.2, scope = "*" ∨ scope ∈ configured

end Loading

section Accepting

variable {V : Type} [KindedValue V] {configured : List String} {raw : V} {cfg : OIDCConfig}

theorem checkScopes_eq_ok {entry : String × List String} {done : Unit}
    (ran : checkScopes configured entry = .ok done) :
    ∀ scope ∈ entry.2, scope = "*" ∨ scope ∈ configured :=
  unknownScopes_eq_nil.mp (not_not.mp (refuse_eq_ok.mp ran))

theorem roleMapAt_known {oidc_raw : V} {key : String} {entries : List (String × String)}
    (ran : roleMapAt oidc_raw key = .ok entries) : ∀ entry ∈ entries, entry.2 ∈ roleOrder := by
  obtain ⟨_, _, ran⟩ := bind_eq_ok.mp ran
  exact roleMap_known ran

/-- The roles that are read belong to the order. -/
theorem readOidc_roles {oidc_raw : V} (ran : readOidc oidc_raw = .ok cfg) :
    cfg.default_role ∈ roleOrder ∧ (∀ entry ∈ cfg.group_role_map, entry.2 ∈ roleOrder) ∧
      ∀ entry ∈ cfg.app_role_map, entry.2 ∈ roleOrder := by
  unfold readOidc at ran
  obtain ⟨_, _, ran⟩ := bind_eq_ok.mp ran
  obtain ⟨_, _, ran⟩ := bind_eq_ok.mp ran
  obtain ⟨_, _, ran⟩ := bind_eq_ok.mp ran
  obtain ⟨_, _, ran⟩ := bind_eq_ok.mp ran
  obtain ⟨_, _, ran⟩ := bind_eq_ok.mp ran
  obtain ⟨_, _, ran⟩ := bind_eq_ok.mp ran
  obtain ⟨_, _, ran⟩ := bind_eq_ok.mp ran
  obtain ⟨_, _, ran⟩ := bind_eq_ok.mp ran
  obtain ⟨_, _, ran⟩ := bind_eq_ok.mp ran
  obtain ⟨_, _, ran⟩ := bind_eq_ok.mp ran
  obtain ⟨_, _, ran⟩ := bind_eq_ok.mp ran
  obtain ⟨_, _, ran⟩ := bind_eq_ok.mp ran
  obtain ⟨_, default_role, ran⟩ := bind_eq_ok.mp ran
  obtain ⟨_, _, ran⟩ := bind_eq_ok.mp ran
  obtain ⟨_, group_roles, ran⟩ := bind_eq_ok.mp ran
  obtain ⟨_, _, ran⟩ := bind_eq_ok.mp ran
  obtain ⟨_, app_roles, ran⟩ := bind_eq_ok.mp ran
  obtain ⟨_, _, ran⟩ := bind_eq_ok.mp ran
  rw [← Except.ok.inj ran]
  obtain ⟨_, _, named⟩ := bind_eq_ok.mp default_role
  exact ⟨roleText_known named, roleMapAt_known group_roles, roleMapAt_known app_roles⟩

/-- What is accepted has roles of the order, and tenants that are configured. -/
theorem accepted_of_loadOidc (ran : loadOidc configured raw = .ok cfg) :
    cfg.Accepted configured := by
  unfold loadOidc at ran
  obtain ⟨_, _, ran⟩ := bind_eq_ok.mp ran
  obtain ⟨oidc_raw, _, ran⟩ := bind_eq_ok.mp ran
  obtain ⟨read, fields, ran⟩ := bind_eq_ok.mp ran
  obtain ⟨checks, checked, ran⟩ := bind_eq_ok.mp ran
  obtain rfl : read = cfg := Except.ok.inj ran
  obtain ⟨default_role, group_roles, app_roles⟩ := readOidc_roles fields
  refine ⟨default_role, group_roles, app_roles, fun entry member => ?_⟩
  obtain ⟨done, own⟩ := mapM_succeeds.mp ⟨checks, checked⟩ entry member
  exact checkScopes_eq_ok own

end Accepting

/-- The rank of a role. -/
def rank (role : String) : Nat := roleOrder.idxOf role

/-- In which order the elements of a set are gone through. -/
structure SetOrder where
  iterate : List Str → List Str
  nodup : ∀ items, (iterate items).Nodup
  mem : ∀ items item, item ∈ iterate items ↔ item ∈ items

/-- The portal's side of the identity provider. -/
structure OIDCClient where
  enterprise : EnterpriseConfig
  cfg : OIDCConfig

/-- A text in lower case, as far as its letters can be those of the words for second factors. -/
def lowerText (text : Str) : Str :=
  text.map fun point => if 65 ≤ point.val ∧ point.val ≤ 90 then point + 32 else point

/-- The highest of the roles that are in the order, and the first of several such. -/
def highestRole (roles : List String) (default_role : String) : String :=
  let candidates := default_role :: roles.filter (· ∈ roleOrder)
  (candidates.argmax rank).getD default_role

/-- What is under the texts of a map's keys. -/
def mapped {α : Type} (entries : List (String × α)) (texts : List Str) : List α :=
  texts.filterMap fun text => (entries.find? fun entry => str entry.1 = text).map (·.2)

namespace OIDCClient

variable (client : OIDCClient) {Φ : Type} [Floating Φ] (order : SetOrder)

def mappedRoles (groups app_roles : List Str) : List String :=
  mapped client.cfg.group_role_map groups ++ mapped client.cfg.app_role_map app_roles

/-- The tenants of all maps together, as a set. -/
def scopes (groups app_roles : List Str) : List String :=
  (client.cfg.default_tenants ++ (mapped client.cfg.group_tenant_map groups).flatten ++
    (mapped client.cfg.app_role_tenant_map app_roles).flatten).dedup

/-- The claims say that a second factor was used. -/
def evidence (amr acrs : List Str) : Bool :=
  [str "mfa", str "ngcmfa"].any (amr.map lowerText).contains ∨
    (client.cfg.required_acrs.map str).any acrs.contains

def subjectText (claims : Value Φ) : Except Exn Str := do
  let oid ← claims.field (str "oid") .null
  let sub ← claims.field (str "sub") .null
  return (oid.orElse (sub.orElse (.text []))).toText

def identityFromClaims (claims : Value Φ) : Except Exn TokenIdentity := do
  let groups := order.iterate (← fieldTexts claims "groups")
  let app_roles := order.iterate (← fieldTexts claims "roles")
  let role := highestRole (client.mappedRoles groups app_roles) client.cfg.default_role
  let scopes := client.scopes groups app_roles
  if scopes = [] then .error ⟨.permissionError, "OIDC identity has no Immutavault tenant scope"⟩
  else if unknownScopes (client.enterprise.tenants.map (·.id)) scopes ≠ [] then
    .error ⟨.permissionError, "OIDC identity resolved an unknown tenant scope"⟩
  else do
    let amr ← fieldTexts claims "amr"
    let acrs ← fieldTexts claims "acrs"
    let mfa := client.evidence amr acrs
    if client.cfg.require_mfa ∧ ¬ mfa then
      .error ⟨.permissionError, "MFA evidence is required; configure Entra to emit amr " ++
        "(mfa/ngcmfa) or a required authentication-context ID"⟩
    else do
      let tid ← fieldOr claims "tid" []
      let oid ← subjectText claims
      if oid = [] then
        .error ⟨.permissionError, "OIDC token has no stable subject identifier"⟩
      else do
        let preferred ← fieldOr claims "preferred_username" oid
        let name ← fieldOr claims "name" preferred
        return {
          subject := str "oidc:" ++ (if tid = [] then str "tenant" else tid) ++ str ":" ++ oid
          name
          role := str role
          tenants := (scopes.insertionSort (· ≤ ·)).map str
          source := str "oidc"
          mfa
          tenant_id := if tid = [] then none else some tid }

end OIDCClient

section Meaning

variable (client : OIDCClient)

/-- A map gives a value for some of these texts. -/
def Gives {α : Type} (entries : List (String × α)) (texts : List Str) (value : α) : Prop :=
  ∃ text ∈ texts, ∃ entry, entries.find? (fun entry => str entry.1 = text) = some entry ∧
    entry.2 = value

/-- What claims say: texts, and a subject. -/
structure Said where
  groups : List Str
  app_roles : List Str
  amr : List Str
  acrs : List Str
  subject : Str

/-- What the claims say can be read. -/
structure Reads {Φ : Type} [Floating Φ] (claims : Value Φ) (said : Said) : Prop where
  groups : fieldTexts claims "groups" = .ok said.groups
  app_roles : fieldTexts claims "roles" = .ok said.app_roles
  amr : fieldTexts claims "amr" = .ok said.amr
  acrs : fieldTexts claims "acrs" = .ok said.acrs
  subject : OIDCClient.subjectText claims = .ok said.subject

variable (said : Said)

/-- A role that applies to what is said: the default one, or one that is mapped. -/
def Applies (role : String) : Prop :=
  role = client.cfg.default_role ∨ Gives client.cfg.group_role_map said.groups role ∨
    Gives client.cfg.app_role_map said.app_roles role

/-- A tenant that is in the scope: a default one, or one that is mapped. -/
def InScope (tenant : String) : Prop :=
  tenant ∈ client.cfg.default_tenants ∨
    (∃ tenants, Gives client.cfg.group_tenant_map said.groups tenants ∧ tenant ∈ tenants) ∨
    ∃ tenants, Gives client.cfg.app_role_tenant_map said.app_roles tenants ∧ tenant ∈ tenants

/-- A second factor was used: by a word for it, in any case, or by a required context. -/
def Evidence : Prop :=
  (∃ method ∈ said.amr, lowerText method = str "mfa" ∨ lowerText method = str "ngcmfa") ∨
    ∃ context ∈ client.cfg.required_acrs, str context ∈ said.acrs

/-- Why an identity is refused. -/
def Refusable : Prop :=
  (∀ tenant, ¬ InScope client said tenant) ∨
    (∃ tenant, InScope client said tenant ∧ tenant ≠ "*" ∧
      tenant ∉ client.enterprise.tenants.map (·.id)) ∨
    (client.cfg.require_mfa = true ∧ ¬ Evidence client said) ∨ said.subject = []

/-- An identity has the highest of the roles that apply, and the tenants in scope, in order and
each of them once. -/
structure Mapped (identity : TokenIdentity) : Prop where
  role : ∃ role, identity.role = str role ∧ Applies client said role ∧
    ∀ other, Applies client said other → rank other ≤ rank role
  tenants : ∃ tenants : List String, identity.tenants = tenants.map str ∧
    tenants.Pairwise (· < ·) ∧ ∀ tenant, tenant ∈ tenants ↔ InScope client said tenant

/-- The claims of one identity are among those of another one. -/
def Within (said further : Said) : Prop :=
  said.groups ⊆ further.groups ∧ said.app_roles ⊆ further.app_roles

/-- An identity may do no more than another one. -/
def Below (identity further : TokenIdentity) : Prop :=
  (∃ role higher, identity.role = str role ∧ further.role = str higher ∧ rank role ≤ rank higher) ∧
    identity.tenants ⊆ further.tenants

end Meaning

section Mapping

variable {client : OIDCClient} {said further : Said}

theorem mem_mapped {α : Type} {entries : List (String × α)} {texts : List Str} {value : α} :
    value ∈ mapped entries texts ↔ Gives entries texts value := by
  simp only [mapped, Gives, List.mem_filterMap, Option.map_eq_some_iff]

theorem Gives.mono {α : Type} {entries : List (String × α)} {texts others : List Str} {value : α}
    (gives : Gives entries texts value) (within : texts ⊆ others) : Gives entries others value := by
  obtain ⟨text, member, found⟩ := gives
  exact ⟨text, within member, found⟩

theorem mem_of_gives {α : Type} {entries : List (String × α)} {texts : List Str} {value : α}
    (gives : Gives entries texts value) : ∃ entry ∈ entries, entry.2 = value := by
  obtain ⟨_, _, entry, found, same⟩ := gives
  exact ⟨entry, List.mem_of_find?_eq_some found, same⟩

theorem Applies.mono {role : String} (applies : Applies client said role)
    (within : Within said further) : Applies client further role :=
  applies.imp_right (Or.imp (fun gives => gives.mono within.1) fun gives => gives.mono within.2)

theorem InScope.mono {tenant : String} (inScope : InScope client said tenant)
    (within : Within said further) : InScope client further tenant := by
  rcases inScope with default | ⟨tenants, gives, member⟩ | ⟨tenants, gives, member⟩
  · exact Or.inl default
  · exact Or.inr (Or.inl ⟨tenants, gives.mono within.1, member⟩)
  · exact Or.inr (Or.inr ⟨tenants, gives.mono within.2, member⟩)

/-- The roles that apply under an accepted configuration belong to the order. -/
theorem Applies.known (accepted : client.cfg.Accepted (client.enterprise.tenants.map (·.id)))
    {role : String} (applies : Applies client said role) : role ∈ roleOrder := by
  rcases applies with rfl | gives | gives
  · exact accepted.default_role
  · obtain ⟨entry, member, rfl⟩ := mem_of_gives gives
    exact accepted.group_roles entry member
  · obtain ⟨entry, member, rfl⟩ := mem_of_gives gives
    exact accepted.app_roles entry member

/-- What is in scope under an accepted configuration is configured. -/
theorem InScope.known (accepted : client.cfg.Accepted (client.enterprise.tenants.map (·.id)))
    {tenant : String} (inScope : InScope client said tenant) :
    tenant = "*" ∨ tenant ∈ client.enterprise.tenants.map (·.id) := by
  rcases inScope with default | ⟨tenants, gives, member⟩ | ⟨tenants, gives, member⟩
  · exact accepted.scopes _ List.mem_cons_self tenant default
  · obtain ⟨entry, listed, rfl⟩ := mem_of_gives gives
    refine accepted.scopes (s!"identity.oidc.group_tenant_map.{entry.1}", entry.2) ?_ tenant member
    exact List.mem_append_left _ (List.mem_cons_of_mem _ (List.mem_map.mpr ⟨entry, listed, rfl⟩))
  · obtain ⟨entry, listed, rfl⟩ := mem_of_gives gives
    exact accepted.scopes (s!"identity.oidc.app_role_tenant_map.{entry.1}", entry.2)
      (List.mem_append_right _ (List.mem_map.mpr ⟨entry, listed, rfl⟩)) tenant member

variable (order : SetOrder)

theorem gives_iterate {α : Type} {entries : List (String × α)} {texts : List Str} {value : α} :
    Gives entries (order.iterate texts) value ↔ Gives entries texts value := by
  simp only [Gives, order.mem]

theorem mem_scopes {tenant : String} :
    tenant ∈ client.scopes (order.iterate said.groups) (order.iterate said.app_roles) ↔
      InScope client said tenant := by
  simp only [OIDCClient.scopes, List.mem_dedup, List.mem_append, List.mem_flatten, mem_mapped,
    gives_iterate, InScope, or_assoc]

/-- The role that is chosen applies, and no role that applies is higher. -/
theorem highestRole_spec (accepted : client.cfg.Accepted (client.enterprise.tenants.map (·.id))) :
    let role := highestRole (client.mappedRoles (order.iterate said.groups)
      (order.iterate said.app_roles)) client.cfg.default_role
    Applies client said role ∧ ∀ other, Applies client said other → rank other ≤ rank role := by
  intro role
  have candidate : ∀ other, Applies client said other ↔
      other ∈ client.cfg.default_role :: (client.mappedRoles (order.iterate said.groups)
        (order.iterate said.app_roles)).filter (· ∈ roleOrder) := by
    intro other
    rw [List.mem_cons, List.mem_filter, OIDCClient.mappedRoles, List.mem_append, mem_mapped,
      mem_mapped, gives_iterate, gives_iterate, Applies]
    constructor
    · intro applies
      exact applies.imp_right fun gives =>
        ⟨gives, decide_eq_true (Applies.known accepted (Or.inr gives : Applies client said other))⟩
    · exact fun listed => listed.imp_right (·.1)
  obtain ⟨best, chosen⟩ : ∃ best, List.argmax rank (client.cfg.default_role ::
      (client.mappedRoles (order.iterate said.groups)
        (order.iterate said.app_roles)).filter (· ∈ roleOrder)) = some best := by
    refine Option.ne_none_iff_exists'.mp fun none => ?_
    cases List.argmax_eq_none.mp none
  have same : role = best := by
    show (List.argmax rank _).getD _ = best
    rw [chosen]
    rfl
  rw [same]
  exact ⟨(candidate best).mpr (List.argmax_mem chosen), fun other applies =>
    List.le_of_mem_argmax ((candidate other).mp applies) chosen⟩

/-- The tenants come in order, and each of them once. -/
theorem sorted_scopes {groups app_roles : List Str} :
    ((client.scopes groups app_roles).insertionSort (· ≤ ·)).Pairwise (· < ·) := by
  have sorted := List.pairwise_insertionSort (· ≤ ·) (client.scopes groups app_roles)
  have distinct : ((client.scopes groups app_roles).insertionSort (· ≤ ·)).Nodup :=
    (List.perm_insertionSort _ _).nodup_iff.mpr (List.nodup_dedup _)
  exact sorted.imp₂ (fun _ _ below other => lt_of_le_of_ne below other) distinct

theorem evidence_iff : client.evidence said.amr said.acrs = true ↔ Evidence client said := by
  rw [OIDCClient.evidence, decide_eq_true_eq, Evidence]
  refine or_congr ?_ ?_
  · simp only [List.any_cons, List.any_nil, Bool.or_false, Bool.or_eq_true, List.contains_iff_mem,
      List.mem_map]
    constructor
    · rintro (⟨method, member, same⟩ | ⟨method, member, same⟩)
      · exact ⟨method, member, Or.inl same⟩
      · exact ⟨method, member, Or.inr same⟩
    · rintro ⟨method, member, same | same⟩
      · exact Or.inl ⟨method, member, same⟩
      · exact Or.inr ⟨method, member, same⟩
  · simp only [List.any_map, List.any_eq_true, Function.comp_apply, List.contains_iff_mem]

variable {Φ : Type} [Floating Φ] {fields : List (Str × Value Φ)}

/-- The text under a key of a dictionary. -/
theorem fieldOr_dict (fields : List (Str × Value Φ)) (key : String) (default : Str) :
    ∃ text, fieldOr (.dict fields) key default = .ok text :=
  ⟨_, rfl⟩

/-- Claims that can be read give an identity with the highest role and all tenants, unless
there is a reason to refuse them. -/
theorem identityFromClaims_reads
    (accepted : client.cfg.Accepted (client.enterprise.tenants.map (·.id)))
    (reads : Reads (.dict fields) said) :
    (Refusable client said → ∃ message,
      client.identityFromClaims order (.dict fields) = .error ⟨.permissionError, message⟩) ∧
    (¬ Refusable client said → ∃ identity,
      client.identityFromClaims order (.dict fields) = .ok identity ∧
        Mapped client said identity) := by
  have unscoped : client.scopes (order.iterate said.groups) (order.iterate said.app_roles) = [] ↔
      ∀ tenant, ¬ InScope client said tenant := by
    rw [List.eq_nil_iff_forall_not_mem]
    exact forall_congr' fun tenant => not_congr (mem_scopes order)
  have known : unknownScopes (client.enterprise.tenants.map (·.id))
      (client.scopes (order.iterate said.groups) (order.iterate said.app_roles)) = [] :=
    unknownScopes_eq_nil.mpr fun tenant member =>
      InScope.known accepted ((mem_scopes order).mp member)
  have configured : ¬ ∃ tenant, InScope client said tenant ∧ tenant ≠ "*" ∧
      tenant ∉ client.enterprise.tenants.map (·.id) := by
    rintro ⟨tenant, inScope, notStar, unknown⟩
    exact (InScope.known accepted inScope).elim notStar unknown
  unfold OIDCClient.identityFromClaims
  rw [reads.groups, ok_bind, reads.app_roles, ok_bind]
  dsimp only
  by_cases empty : client.scopes (order.iterate said.groups) (order.iterate said.app_roles) = []
  · rw [if_pos empty]
    exact ⟨fun _ => ⟨_, rfl⟩, fun allowed => absurd (Or.inl (unscoped.mp empty)) allowed⟩
  rw [if_neg empty, known, if_neg (not_not.mpr rfl), reads.amr, ok_bind, reads.acrs, ok_bind]
  by_cases unproved : client.cfg.require_mfa = true ∧ ¬ client.evidence said.amr said.acrs = true
  · rw [if_pos unproved]
    refine ⟨fun _ => ⟨_, rfl⟩, fun allowed => absurd (Or.inr (Or.inr (Or.inl ?_))) allowed⟩
    exact ⟨unproved.1, fun evidence => unproved.2 (evidence_iff.mpr evidence)⟩
  obtain ⟨tid, tid_read⟩ := fieldOr_dict fields "tid" []
  rw [if_neg unproved, tid_read, ok_bind, reads.subject, ok_bind]
  by_cases anonymous : said.subject = []
  · rw [if_pos anonymous]
    exact ⟨fun _ => ⟨_, rfl⟩, fun allowed => absurd (Or.inr (Or.inr (Or.inr anonymous))) allowed⟩
  obtain ⟨preferred, preferred_read⟩ := fieldOr_dict fields "preferred_username" said.subject
  obtain ⟨name, name_read⟩ := fieldOr_dict fields "name" preferred
  rw [if_neg anonymous, preferred_read, ok_bind, name_read, ok_bind]
  constructor
  · rintro (none | unknown | ⟨required, missing⟩ | nobody)
    · exact absurd (unscoped.mpr none) empty
    · exact absurd unknown configured
    · exact absurd ⟨required, fun evidence => missing (evidence_iff.mp evidence)⟩ unproved
    · exact absurd nobody anonymous
  · intro _
    refine ⟨_, rfl, ⟨_, rfl, highestRole_spec order accepted⟩, _, rfl, sorted_scopes, ?_⟩
    intro tenant
    rw [List.mem_insertionSort, mem_scopes]

/-- An identity is given only for claims that can be read. -/
theorem reads_of_identityFromClaims {claims : Value Φ} {identity : TokenIdentity}
    (ran : client.identityFromClaims order claims = .ok identity) :
    ∃ said, Reads claims said := by
  unfold OIDCClient.identityFromClaims at ran
  obtain ⟨groups, groups_read, ran⟩ := bind_eq_ok.mp ran
  obtain ⟨app_roles, app_roles_read, ran⟩ := bind_eq_ok.mp ran
  dsimp only at ran
  split at ran
  · cases ran
  split at ran
  · cases ran
  obtain ⟨amr, amr_read, ran⟩ := bind_eq_ok.mp ran
  obtain ⟨acrs, acrs_read, ran⟩ := bind_eq_ok.mp ran
  split at ran
  · cases ran
  obtain ⟨_, _, ran⟩ := bind_eq_ok.mp ran
  obtain ⟨subject, subject_read, _⟩ := bind_eq_ok.mp ran
  exact ⟨⟨groups, app_roles, amr, acrs, subject⟩,
    ⟨groups_read, app_roles_read, amr_read, acrs_read, subject_read⟩⟩

/-- Whoever has more groups and application roles may do no less. -/
theorem Mapped.mono {identity higher : TokenIdentity} (own : Mapped client said identity)
    (other : Mapped client further higher) (within : Within said further) :
    Below identity higher := by
  obtain ⟨role, same, applies, _⟩ := own.role
  obtain ⟨highest, named, _, highest_spec⟩ := other.role
  obtain ⟨tenants, listed, _, exact_tenants⟩ := own.tenants
  obtain ⟨others, others_listed, _, exact_others⟩ := other.tenants
  refine ⟨⟨role, highest, same, named, highest_spec role (applies.mono within)⟩, ?_⟩
  rw [listed, others_listed]
  refine List.map_subset str fun tenant member => ?_
  exact (exact_others tenant).mpr (((exact_tenants tenant).mp member).mono within)

/-- The order of groups and application roles, and how often they are named, do not matter. -/
theorem Mapped.unique (accepted : client.cfg.Accepted (client.enterprise.tenants.map (·.id)))
    {identity other : TokenIdentity} (own : Mapped client said identity)
    (again : Mapped client further other) (within : Within said further)
    (back : Within further said) :
    other.role = identity.role ∧ other.tenants = identity.tenants := by
  obtain ⟨role, same, applies, highest⟩ := own.role
  obtain ⟨role', same', applies', highest'⟩ := again.role
  obtain ⟨tenants, listed, sorted, exact_tenants⟩ := own.tenants
  obtain ⟨tenants', listed', sorted', exact_tenants'⟩ := again.tenants
  have ranks : rank role' = rank role :=
    Nat.le_antisymm (highest role' (applies'.mono back)) (highest' role (applies.mono within))
  have roles : role' = role := (List.idxOf_inj (applies'.known accepted)).mp ranks
  have scopes : tenants' = tenants := by
    refine sorted'.eq_of_mem_iff sorted fun tenant => ?_
    rw [exact_tenants', exact_tenants]
    exact ⟨fun inScope => inScope.mono back, fun inScope => inScope.mono within⟩
  rw [same, same', listed, listed', roles, scopes]
  exact ⟨rfl, rfl⟩

end Mapping

section Samples

open RecoveryTests (bench)

/-- A section that asks for no second factor, gives everybody all tenants and maps a group. -/
def sampleSection : Json :=
  .obj [("identity", .obj [("oidc", .obj [("require_mfa", .bool false),
    ("default_tenants", .arr [.str "*"]), ("group_role_map", .obj [("ops", .str "Approver")])])])]

def sampleConfig : OIDCConfig where
  enabled := false
  issuer := ""
  client_id := ""
  client_secret_env := none
  redirect_uri := ""
  session_secret_env := "IMMUTAVAULT_OIDC_SESSION_SECRET"
  session_minutes := 60
  require_mfa := false
  allowed_tenant_ids := []
  required_acrs := []
  allow_local_tokens := false
  default_role := "viewer"
  default_tenants := ["*"]
  group_role_map := [("ops", "approver")]
  group_tenant_map := []
  app_role_map := []
  app_role_tenant_map := []

def sampleClient : OIDCClient := ⟨bench.cfg.enterprise, sampleConfig⟩

/-- Go through a set in the order of its last mentions. -/
def lastMentions : SetOrder where
  iterate := List.dedup
  nodup := List.nodup_dedup
  mem _ _ := List.mem_dedup

theorem loadOidc_sample : loadOidc (sampleClient.enterprise.tenants.map (·.id)) sampleSection =
    .ok sampleClient.cfg := by
  rfl

/-- The claims of somebody in the mapped group and in another one. -/
def sampleClaims : List (Str × Value Constant) :=
  [(str "sub", .text (str "u1")),
    (str "groups", .list [.text (str "dev"), .text (str "ops"), .text (str "dev")])]

def sampleSaid : Said := ⟨[str "dev", str "ops", str "dev"], [], [], [], str "u1"⟩

theorem reads_sample : Reads (.dict sampleClaims) sampleSaid := ⟨rfl, rfl, rfl, rfl, rfl⟩

/-- Groups that are a number. -/
def numberedClaims : List (Str × Value Constant) :=
  [(str "sub", .text (str "u1")), (str "groups", .int 5)]

end Samples

end Immutavault.ClaimMapping
