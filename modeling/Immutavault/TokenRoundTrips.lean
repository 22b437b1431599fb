import Immutavault.SignedTokens

/-!
# Identities in tokens

A session and a ticket for the live view carry an identity with all its fields, and two
readers take it out again. Each has a default for every field, also for the role, and only
the reader of sessions looks whether the role is one of the four. What is written as a JSON
text joins two halves of a character that stand side by side, so the texts of an identity
are kept exactly when none of them holds such halves; texts that come from a JSON text or
from bytes hold none.

That nobody else makes digests that fit is a condition on the presented text. It says that
the payload was handed out, for an identity that the portal issues tokens for: with a known
role, and with texts that are kept.
-/

namespace Immutavault.TokenRoundTrips

open Values JsonTexts SignedTokens
open GuestFiles (Str str)
open BrokerMessages.Wire (joinSurrogates)
open Integrity (utf8)

section Issuing

variable {Φ : Type}

def identityPairs (identity : TokenIdentity) : List (Str × Value Φ) :=
  [(str "sub", .text identity.subject), (str "name", .text identity.name),
    (str "role", .text identity.role), (str "tenants", .list (identity.tenants.map .text)),
    (str "source", .text identity.source), (str "mfa", .bool identity.mfa),
    (str "tenant_id", (identity.tenant_id.map .text).getD .null)]

/-- The payload of a token with an identity. -/
def carrying (typ : String) (now lifetime : Int) (identity : TokenIdentity) :
    List (Str × Value Φ) :=
  timedFields typ now lifetime ++ identityPairs identity

variable [Floating Φ] (signer : SignedToken) (now : Int)

variable (Φ) in
def identityToken (identity : TokenIdentity) (minutes : Int) : Except Exn Str :=
  signer.encode (.dict (carrying "session" now (minutes * 60) identity) : Value Φ)

variable (Φ) in
def issueWsTicket (identity : TokenIdentity) (ttl_seconds : Int) : Except Exn Str :=
  signer.encode (.dict (carrying "ws" now ttl_seconds identity) : Value Φ)

variable (otherwise : List UInt8 → Except Exn (Value Φ))

def identityFromWsTicket (ticket : Str) : Except Exn TokenIdentity := do
  let value ← signer.decode otherwise now ticket "ws"
  let tenants ← fieldTexts value "tenants"
  if tenants = [] then .error ⟨.permissionError, "WebSocket ticket has no tenant scope"⟩
  else
    let subject ← fieldOr value "sub" []
    let name ← fieldOr value "name"
      ((← value.field (str "sub") .null).orElse (.text (str "operator"))).toText
    let role ← fieldOr value "role" (str "viewer")
    let source ← fieldOr value "source" (str "session")
    let mfa := (← value.field (str "mfa") (.bool false)).truthy
    let tenant_id ← value.field (str "tenant_id") .null
    return { subject, name, role, tenants, source, mfa
             tenant_id := if tenant_id.truthy then some tenant_id.toText else none }

end Issuing

section Identities

/-- No two points of a text that stand side by side are halves of a character. -/
def Whole (text : Str) : Prop := text.IsChain fun first second => ¬ Halved first second

/-- The texts of an identity. -/
def texts (identity : TokenIdentity) : List Str :=
  identity.subject :: identity.name :: identity.role :: identity.source ::
    (identity.tenants ++ identity.tenant_id.toList)

/-- An identity that tokens are issued for. -/
structure Issuable (identity : TokenIdentity) : Prop where
  role : identity.role ∈ roleOrder.map str
  whole : ∀ text ∈ texts identity, Whole text

theorem Issuable.role_filled {identity : TokenIdentity} (issuable : Issuable identity) :
    identity.role ≠ [] := by
  intro empty
  have listed := issuable.role
  rw [empty] at listed
  exact absurd listed (by decide)

/-- Every field that a reader has a default for is filled. -/
structure Filled (identity : TokenIdentity) : Prop where
  subject : identity.subject ≠ []
  name : identity.name ≠ []
  source : identity.source ≠ []
  tenants : identity.tenants ≠ []
  tenant_id : identity.tenant_id ≠ some []

theorem joinSurrogates_whole {text : Str} (whole : Whole text) : joinSurrogates text = text := by
  induction text with
  | nil => rfl
  | cons first rest inductionHypothesis =>
    cases rest with
    | nil => rfl
    | cons second rest =>
      obtain ⟨apart, whole⟩ := List.isChain_cons_cons.mp whole
      rw [joinSurrogates_cons, inductionHypothesis whole]
      intro other member
      obtain rfl : second = other := Option.some.inj member
      exact apart

/-- A text of characters holds no halves of characters. -/
theorem whole_str (text : String) : Whole (str text) := by
  refine List.Pairwise.isChain (List.pairwise_of_forall_mem_list fun first member second _ => ?_)
  obtain ⟨character, _, rfl⟩ := List.mem_map.mp member
  have valid : character.toNat < 55296 ∨ 57343 < character.toNat ∧ character.toNat < 1114112 :=
    character.valid
  have same := GuestFiles.val_ofNat character
  unfold Halved
  omega

end Identities

section Payloads

variable {Φ : Type} {typ : String} {now lifetime : Int} {identity : TokenIdentity}

/-- The payload of a token is clean, once its times can be written. -/
theorem clean_carrying (whole : ∀ text ∈ texts identity, Whole text)
    (fits : (Value.dict (carrying typ now lifetime identity) : Value Φ).fits = true) :
    Clean (.dict (carrying typ now lifetime identity) : Value Φ) := by
  have keys : [str "typ", str "iat", str "exp", str "sub", str "name", str "role", str "tenants",
      str "source", str "mfa", str "tenant_id"].Nodup := by decide
  have joined : ∀ text ∈ texts identity, joinSurrogates text = text :=
    fun text member => joinSurrogates_whole (whole text member)
  have tenants : CleanItems (identity.tenants.map fun tenant => (.text tenant : Value Φ)) :=
    Integrity.cleanItems_iff.mpr fun item member => by
      obtain ⟨tenant, listed, rfl⟩ := List.mem_map.mp member
      exact joined tenant (by simp [texts, listed])
  have tenant : Clean ((identity.tenant_id.map fun tenant => (.text tenant : Value Φ)).getD
      .null) := by
    cases given : identity.tenant_id with
    | none => trivial
    | some tenant => exact joined tenant (by simp [texts, given])
  have subject : joinSurrogates identity.subject = identity.subject :=
    joined _ (by simp [texts])
  have name : joinSurrogates identity.name = identity.name := joined _ (by simp [texts])
  have role : joinSurrogates identity.role = identity.role := joined _ (by simp [texts])
  have source : joinSurrogates identity.source = identity.source := joined _ (by simp [texts])
  simp only [carrying, timedFields, identityPairs, List.cons_append, List.nil_append, Value.fits,
    Value.fitsFields, Bool.and_eq_true, decide_eq_true_eq] at fits
  refine ⟨keys, ?_⟩
  simp only [carrying, timedFields, identityPairs, List.cons_append, List.nil_append, CleanFields,
    Clean, BrokerMessages.joinSurrogates_str, subject, name, role, source, tenants, tenant,
    fits.2.1, fits.2.2.1, and_true]

/-- A payload can be written when its times can. -/
theorem fits_carrying (issued : (Value.int now : Value Φ).fits = true)
    (expires : (Value.int (now + lifetime) : Value Φ).fits = true) :
    (Value.dict (carrying typ now lifetime identity) : Value Φ).fits = true := by
  have items : ∀ tenants : List Str,
      Value.fitsItems (tenants.map fun tenant => (.text tenant : Value Φ)) = true := by
    intro tenants
    induction tenants with
    | nil => rfl
    | cons tenant rest inductionHypothesis => exact inductionHypothesis
  have tenant : ((identity.tenant_id.map fun tenant => (.text tenant : Value Φ)).getD
      .null).fits = true := by
    cases identity.tenant_id <;> rfl
  simp only [carrying, timedFields, identityPairs, List.cons_append, List.nil_append, Value.fits,
    Value.fitsFields, items, tenant, Bool.and_true, Bool.true_and, Bool.and_eq_true]
  exact ⟨issued, expires⟩

end Payloads

section Decoding

variable {Φ : Type} [Floating Φ] {signer : SignedToken} {token : Str} {typ : String} {now : Int}
  {otherwise : List UInt8 → Except Exn (Value Φ)} {fields : List (Str × Value Φ)}

/-- A text that is decoded has a digest that fits. -/
theorem digest_of_decode {value : Value Φ}
    (decoded : signer.decode otherwise now token typ = .ok value) :
    ∃ body bytes, splitStop token = some (body, signer.signature bytes) ∧
      encoded body = .ok bytes := by
  unfold SignedToken.decode at decoded
  split at decoded
  · cases decoded
  · rename_i body signature split_token
    obtain ⟨bytes, read, decoded⟩ := bind_eq_ok.mp decoded
    obtain ⟨fits, compared, decoded⟩ := bind_eq_ok.mp decoded
    split at decoded
    · cases decoded
    · rename_i same
      unfold compareDigest at compared
      split at compared
      · obtain rfl : decide (signature = signer.signature bytes) = fits := Except.ok.inj compared
        have equal : signature = signer.signature bytes := by simpa using same
        exact ⟨body, bytes, by rw [split_token, equal], read⟩
      · cases compared

variable [LawfulFloating Φ]

/-- What is encoded is decoded again, until it expires and for the type that it says. -/
theorem decode_encoded (filled : fields ≠ []) (clean : Clean (.dict fields)) {own : String}
    {exp : Int} (typed : Value.get? fields (str "typ") = some (.text (str own)))
    (timed : Value.get? fields (str "exp") = some (.int exp))
    (encodes : signer.encode (.dict fields) = .ok token) :
    signer.decode otherwise now token typ =
      if exp < now then .error ⟨.permissionError, "signed token expired"⟩
      else if str own = str typ then .ok (arranged (.dict fields))
      else .error ⟨.permissionError, "signed token type mismatch"⟩ := by
  obtain ⟨body, bytes, written, read, split_token⟩ := splitStop_encoded encodes
  obtain ⟨_, same⟩ := jsonB64_ok written
  have loaded : (b64urlDecode body >>= loadsBytes otherwise) = .ok (arranged (.dict fields)) := by
    rw [same, b64urlDecode_encode, ok_bind, loadsBytes_dumps otherwise filled clean]
  have ascii := ascii_b64urlEncode (hmacSha256 signer.secret bytes)
  rw [SignedToken.decode, split_token]
  dsimp only
  rw [read, ok_bind, compareDigest, if_pos ⟨ascii, ascii⟩, ok_bind, if_neg (by simp), loaded]
  dsimp only
  rw [field_arranged clean, field_arranged clean, timed, typed]
  simp only [Option.map_some, Option.getD_some, arranged, ok_bind, Value.toInt, Value.isText]
  split
  · rfl
  · by_cases fitting : str own = str typ <;> simp [fitting]

/-- The payloads that are handed out: identities in sessions and in tickets, and the states of
logins. -/
inductive Handed : List (Str × Value Φ) → Prop
  | session (now minutes : Int) (identity : TokenIdentity) (issuable : Issuable identity) :
    Handed (carrying "session" now (minutes * 60) identity)
  | ticket (now ttl_seconds : Int) (identity : TokenIdentity) (issuable : Issuable identity) :
    Handed (carrying "ws" now ttl_seconds identity)
  | login (now : Int) (state nonce verifier return_to : String) :
    Handed (loginPayload now state nonce verifier return_to)

variable (Φ) in
/-- If the digest of a text fits, its payload was handed out. -/
def Authentic (signer : SignedToken) (token : Str) : Prop :=
  ∀ body bytes, splitStop token = some (body, signer.signature bytes) → encoded body = .ok bytes →
    ∃ fields : List (Str × Value Φ), Handed fields ∧ jsonB64 (.dict fields) = .ok body

omit [LawfulFloating Φ] in
theorem Handed.clean (handed : Handed fields) (fits : (Value.dict fields).fits = true) :
    Clean (.dict fields) := by
  cases handed with
  | session _ _ _ issuable => exact clean_carrying issuable.whole fits
  | ticket _ _ _ issuable => exact clean_carrying issuable.whole fits
  | login => exact clean_login fits

/-- A text that is decoded, and whose digest was not forged, was handed out. -/
theorem handed_of_decode {value : Value Φ} (authentic : Authentic Φ signer token)
    (decoded : signer.decode otherwise now token typ = .ok value) :
    ∃ fields, Handed fields ∧ signer.encode (.dict fields) = .ok token ∧
      value = arranged (.dict fields) ∧ Clean (.dict fields) ∧
      Value.get? fields (str "typ") = some (.text (str typ)) := by
  obtain ⟨body, bytes, split_token, read⟩ := digest_of_decode decoded
  obtain ⟨fields, handed, written⟩ := authentic body bytes split_token read
  have clean := handed.clean (jsonB64_ok written).1
  have encodes : signer.encode (.dict fields) = .ok token := by
    rw [SignedToken.encode, written, ok_bind, read, ok_bind, splitStop_join split_token]
    rfl
  obtain ⟨own, exp, filled, typed, timed⟩ : ∃ (own : String) (exp : Int), fields ≠ [] ∧
      Value.get? fields (str "typ") = some (.text (str own)) ∧
      Value.get? fields (str "exp") = some (.int exp) := by
    cases handed <;> exact ⟨_, _, List.cons_ne_nil _ _, rfl, rfl⟩
  rw [decode_encoded filled clean typed timed encodes] at decoded
  split at decoded
  · cases decoded
  · split at decoded
    · rename_i same
      exact ⟨fields, handed, encodes, (Except.ok.inj decoded).symm, clean, by rw [typed, same]⟩
    · cases decoded

end Decoding

section Reading

variable {Φ : Type} [Floating Φ] {typ : String} {now lifetime : Int} {identity : TokenIdentity}

/-- The fields of an identity in a payload, in any order of the keys. -/
structure Shows (value : Value Φ) (identity : TokenIdentity) : Prop where
  sub : ∀ default, value.field (str "sub") default = .ok (.text identity.subject)
  name : ∀ default, value.field (str "name") default = .ok (.text identity.name)
  role : ∀ default, value.field (str "role") default = .ok (.text identity.role)
  tenants : ∀ default, value.field (str "tenants") default =
    .ok (.list (identity.tenants.map .text))
  source : ∀ default, value.field (str "source") default = .ok (.text identity.source)
  mfa : ∀ default, value.field (str "mfa") default = .ok (.bool identity.mfa)
  tenant_id : ∀ default, value.field (str "tenant_id") default =
    .ok ((identity.tenant_id.map .text).getD .null)

theorem arranged_texts (items : List Str) :
    arranged (.list (items.map .text) : Value Φ) = .list (items.map .text) := by
  rw [arranged]
  congr 1
  induction items with
  | nil => rfl
  | cons item rest inductionHypothesis =>
    rw [List.map_cons, arrangedItems, inductionHypothesis]
    rfl

theorem shows_arranged (clean : Clean (.dict (carrying typ now lifetime identity) : Value Φ)) :
    Shows (arranged (.dict (carrying typ now lifetime identity)) : Value Φ) identity := by
  refine ⟨?_, ?_, ?_, ?_, ?_, ?_, ?_⟩ <;> intro default <;> rw [field_arranged clean]
  · rfl
  · rfl
  · rfl
  · exact congrArg Except.ok (arranged_texts identity.tenants)
  · rfl
  · rfl
  · show Except.ok (arranged ((identity.tenant_id.map .text).getD .null)) = _
    cases identity.tenant_id <;> rfl

variable {value : Value Φ}

/-- A text, or another one in place of the empty text. -/
def orText (text default : Str) : Str := if text = [] then default else text

theorem orText_nil (text : Str) : orText text [] = text := by
  cases text <;> rfl

theorem toText_orElse (text default : Str) :
    ((Value.text text).orElse (.text default) : Value Φ).toText = orText text default := by
  cases text <;> rfl

theorem fieldOr_text {key : String} {text : Str}
    (shown : ∀ default, value.field (str key) default = .ok (.text text)) (default : Str) :
    fieldOr value key default = .ok (orText text default) := by
  rw [fieldOr, shown, ok_bind, toText_orElse]
  rfl

theorem fieldTexts_shows (shows : Shows value identity) :
    fieldTexts value "tenants" = .ok identity.tenants := by
  have texts : (identity.tenants.map (.text : Str → Value Φ)).map (·.toText) =
      identity.tenants := by
    rw [List.map_map]
    exact List.map_id _
  have given : (Value.list (identity.tenants.map .text) : Value Φ).orElse (.list []) =
      .list (identity.tenants.map .text) := by
    cases identity.tenants <;> rfl
  rw [fieldTexts, shows.tenants, ok_bind, given]
  exact congrArg Except.ok texts

/-- An identity with the defaults of a reader in place of what is empty. -/
def withDefaults (name source : String) (identity : TokenIdentity) : TokenIdentity :=
  { identity with
    name := orText identity.name (orText identity.subject (str name))
    source := orText identity.source (str source)
    tenant_id := identity.tenant_id.filter (· ≠ []) }

/-- Where everything is filled, no default is taken. -/
theorem withDefaults_filled (filled : Filled identity) (name source : String) :
    withDefaults name source identity = identity := by
  have tenant_id : identity.tenant_id.filter (· ≠ []) = identity.tenant_id := by
    cases given : identity.tenant_id with
    | none => rfl
    | some tenant =>
      have nonempty : tenant ≠ [] := fun empty => filled.tenant_id (by rw [given, empty])
      simp [nonempty]
  rw [withDefaults, tenant_id, orText, if_neg filled.name, orText, if_neg filled.source]

/-- The mark of a tenant, or none in place of an empty one. -/
theorem tenant_id_shown (tenant_id : Option Str) :
    (if ((tenant_id.map (.text : Str → Value Φ)).getD .null).truthy = true then
      some ((tenant_id.map (.text : Str → Value Φ)).getD .null).toText else none) =
      tenant_id.filter (· ≠ []) := by
  cases tenant_id with
  | none => rfl
  | some tenant => cases tenant <;> rfl

variable {signer : SignedToken} {token : Str} {otherwise : List UInt8 → Except Exn (Value Φ)}

/-- The reader of sessions refuses unknown roles and empty scopes. -/
theorem identityFromToken_shows (shows : Shows value identity)
    (decoded : signer.decode otherwise now token "session" = .ok value) :
    signer.identityFromToken otherwise now token =
      if identity.role ∉ roleOrder.map str then .error ⟨.permissionError, "invalid session role"⟩
      else if identity.tenants = [] then
        .error ⟨.permissionError, "session has no tenant scope"⟩
      else .ok (withDefaults "OIDC user" "oidc" identity) := by
  rw [SignedToken.identityFromToken, decoded, ok_bind, shows.role, ok_bind]
  have role : (Value.text identity.role : Value Φ).toText = identity.role := rfl
  dsimp only
  rw [role]
  split
  · rfl
  · rw [fieldTexts_shows shows, ok_bind]
    split
    · rfl
    · rw [fieldOr_text shows.sub, ok_bind, shows.sub, ok_bind, toText_orElse,
        fieldOr_text shows.name, ok_bind, fieldOr_text shows.source, ok_bind, shows.mfa, ok_bind,
        shows.tenant_id, ok_bind, tenant_id_shown, orText_nil]
      rfl

/-- The reader of tickets refuses empty scopes. -/
theorem identityFromWsTicket_shows (shows : Shows value identity)
    (decoded : signer.decode otherwise now token "ws" = .ok value) :
    identityFromWsTicket signer now otherwise token =
      if identity.tenants = [] then
        .error ⟨.permissionError, "WebSocket ticket has no tenant scope"⟩
      else .ok { withDefaults "operator" "session" identity with
        role := orText identity.role (str "viewer") } := by
  rw [identityFromWsTicket, decoded, ok_bind, fieldTexts_shows shows, ok_bind]
  split
  · rfl
  · rw [fieldOr_text shows.sub, ok_bind, shows.sub, ok_bind, toText_orElse,
      fieldOr_text shows.name, ok_bind, fieldOr_text shows.role, ok_bind,
      fieldOr_text shows.source, ok_bind, shows.mfa, ok_bind, shows.tenant_id, ok_bind,
      tenant_id_shown, orText_nil]
    rfl

end Reading

section RoundTrips

variable {Φ : Type} [Floating Φ] {signer : SignedToken} {identity : TokenIdentity}
  {otherwise : List UInt8 → Except Exn (Value Φ)} {token : Str} {typ own : String}
  {issued now lifetime : Int}

/-- What is encoded for an issuable identity has a clean payload. -/
theorem clean_of_encode (whole : ∀ text ∈ texts identity, Whole text)
    (encodes : signer.encode (.dict (carrying typ issued lifetime identity) : Value Φ) =
      .ok token) :
    Clean (.dict (carrying typ issued lifetime identity) : Value Φ) := by
  obtain ⟨body, _, written, _⟩ := splitStop_encoded encodes
  exact clean_carrying whole (jsonB64_ok written).1

variable [LawfulFloating Φ]

/-- A token that carries an identity is decoded until it expires, and as its own type. -/
theorem decode_carrying (otherwise : List UInt8 → Except Exn (Value Φ)) (now : Int) (typ : String)
    (whole : ∀ text ∈ texts identity, Whole text)
    (encodes : signer.encode (.dict (carrying own issued lifetime identity) : Value Φ) =
      .ok token) :
    signer.decode otherwise now token typ =
      if issued + lifetime < now then .error ⟨.permissionError, "signed token expired"⟩
      else if str own = str typ then .ok (arranged (.dict (carrying own issued lifetime identity)))
      else .error ⟨.permissionError, "signed token type mismatch"⟩ :=
  decode_encoded (List.cons_ne_nil _ _) (clean_of_encode whole encodes) rfl rfl encodes

/-- As another type it is refused. -/
theorem decode_mistyped (otherwise : List UInt8 → Except Exn (Value Φ)) (now : Int)
    (whole : ∀ text ∈ texts identity, Whole text)
    (encodes : signer.encode (.dict (carrying own issued lifetime identity) : Value Φ) =
      .ok token) (other : str own ≠ str typ) :
    Refused (signer.decode otherwise now token typ) := by
  rw [decode_carrying otherwise now typ whole encodes, if_neg other]
  split <;> exact ⟨_, rfl, rfl⟩

theorem session_roundTrip (issuable : Issuable identity) (filled : Filled identity) {minutes : Int}
    (encodes : identityToken Φ signer issued identity minutes = .ok token)
    (unexpired : now ≤ issued + minutes * 60) :
    signer.identityFromToken otherwise now token = .ok identity := by
  have decoded := decode_carrying otherwise now "session" issuable.whole encodes
  rw [if_neg (by omega), if_pos rfl] at decoded
  rw [identityFromToken_shows (shows_arranged (clean_of_encode issuable.whole encodes)) decoded,
    if_neg (not_not.mpr issuable.role), if_neg filled.tenants, withDefaults_filled filled]

theorem ticket_roundTrip (issuable : Issuable identity) (filled : Filled identity)
    {ttl_seconds : Int} (encodes : issueWsTicket Φ signer issued identity ttl_seconds = .ok token)
    (unexpired : now ≤ issued + ttl_seconds) :
    identityFromWsTicket signer now otherwise token = .ok identity := by
  have decoded := decode_carrying otherwise now "ws" issuable.whole encodes
  rw [if_neg (by omega), if_pos rfl] at decoded
  rw [identityFromWsTicket_shows (shows_arranged (clean_of_encode issuable.whole encodes)) decoded,
    if_neg filled.tenants, withDefaults_filled filled, orText, if_neg issuable.role_filled]

/-- A session is no ticket. -/
theorem session_refused (issuable : Issuable identity) {minutes : Int}
    (encodes : identityToken Φ signer issued identity minutes = .ok token) :
    Refused (identityFromWsTicket signer now otherwise token) := by
  obtain ⟨error, refused, kind⟩ := decode_mistyped otherwise now issuable.whole encodes
    (show str "session" ≠ str "ws" by decide)
  exact ⟨error, by rw [identityFromWsTicket, refused, error_bind], kind⟩

/-- A ticket is no session. -/
theorem ticket_refused (issuable : Issuable identity) {ttl_seconds : Int}
    (encodes : issueWsTicket Φ signer issued identity ttl_seconds = .ok token) :
    Refused (signer.identityFromToken otherwise now token) := by
  obtain ⟨error, refused, kind⟩ := decode_mistyped otherwise now issuable.whole encodes
    (show str "ws" ≠ str "session" by decide)
  exact ⟨error, by rw [SignedToken.identityFromToken, refused, error_bind], kind⟩

/-- An accepted session was issued for an identity with its role and its tenants. -/
theorem session_issued {reply : TokenIdentity} (authentic : Authentic Φ signer token)
    (accepted : signer.identityFromToken otherwise now token = .ok reply) :
    ∃ identity issued minutes, Issuable identity ∧
      identityToken Φ signer issued identity minutes = .ok token ∧
      reply.role = identity.role ∧ reply.tenants = identity.tenants := by
  have given := accepted
  rw [SignedToken.identityFromToken] at given
  obtain ⟨value, decoded, _⟩ := bind_eq_ok.mp given
  obtain ⟨fields, handed, encodes, rfl, clean, typed⟩ := handed_of_decode authentic decoded
  cases handed with
  | session issued minutes identity issuable =>
    refine ⟨identity, issued, minutes, issuable, encodes, ?_⟩
    rw [identityFromToken_shows (shows_arranged clean) decoded] at accepted
    split at accepted
    · cases accepted
    · split at accepted
      · cases accepted
      · rw [← Except.ok.inj accepted]
        exact ⟨rfl, rfl⟩
  | ticket =>
    have other : str "ws" = str "session" := Value.text.inj (Option.some.inj typed)
    exact absurd other (by decide)
  | login =>
    have other : str "oidc_state" = str "session" := Value.text.inj (Option.some.inj typed)
    exact absurd other (by decide)

/-- An accepted ticket was issued for an identity with its role and its tenants. -/
theorem ticket_issued {reply : TokenIdentity} (authentic : Authentic Φ signer token)
    (accepted : identityFromWsTicket signer now otherwise token = .ok reply) :
    ∃ identity issued ttl_seconds, Issuable identity ∧
      issueWsTicket Φ signer issued identity ttl_seconds = .ok token ∧
      reply.role = identity.role ∧ reply.tenants = identity.tenants := by
  have given := accepted
  rw [identityFromWsTicket] at given
  obtain ⟨value, decoded, _⟩ := bind_eq_ok.mp given
  obtain ⟨fields, handed, encodes, rfl, clean, typed⟩ := handed_of_decode authentic decoded
  cases handed with
  | ticket issued ttl_seconds identity issuable =>
    refine ⟨identity, issued, ttl_seconds, issuable, encodes, ?_⟩
    rw [identityFromWsTicket_shows (shows_arranged clean) decoded] at accepted
    split at accepted
    · cases accepted
    · rw [← Except.ok.inj accepted]
      exact ⟨if_neg issuable.role_filled, rfl⟩
  | session =>
    have other : str "session" = str "ws" := Value.text.inj (Option.some.inj typed)
    exact absurd other (by decide)
  | login =>
    have other : str "oidc_state" = str "ws" := Value.text.inj (Option.some.inj typed)
    exact absurd other (by decide)

end RoundTrips

/-- The tokens of an identity can be made when their times can be written. Before they expire
they give a filled identity back, and neither is taken for the other. Whatever is accepted,
with a digest that was not forged, has the role and the tenants of an identity that a token was
issued for. -/
theorem tokens_keep_identities {Φ : Type} [Floating Φ] [LawfulFloating Φ] (signer : SignedToken)
    (otherwise : List UInt8 → Except Exn (Value Φ)) (now : Int) :
    (∀ identity issued minutes ttl_seconds, Issuable identity →
      ((Value.int issued : Value Φ).fits = true →
        ((Value.int (issued + minutes * 60) : Value Φ).fits = true →
          ∃ token, identityToken Φ signer issued identity minutes = .ok token) ∧
        ((Value.int (issued + ttl_seconds) : Value Φ).fits = true →
          ∃ ticket, issueWsTicket Φ signer issued identity ttl_seconds = .ok ticket)) ∧
      (∀ token, identityToken Φ signer issued identity minutes = .ok token →
        (Filled identity → now ≤ issued + minutes * 60 →
          signer.identityFromToken otherwise now token = .ok identity) ∧
        Refused (identityFromWsTicket signer now otherwise token)) ∧
      (∀ ticket, issueWsTicket Φ signer issued identity ttl_seconds = .ok ticket →
        (Filled identity → now ≤ issued + ttl_seconds →
          identityFromWsTicket signer now otherwise ticket = .ok identity) ∧
        Refused (signer.identityFromToken otherwise now ticket))) ∧
    ∀ token, Authentic Φ signer token → ∀ reply,
      (signer.identityFromToken otherwise now token = .ok reply →
        ∃ identity issued minutes, Issuable identity ∧
          identityToken Φ signer issued identity minutes = .ok token ∧
          reply.role = identity.role ∧ reply.tenants = identity.tenants) ∧
      (identityFromWsTicket signer now otherwise token = .ok reply →
        ∃ identity issued ttl_seconds, Issuable identity ∧
          issueWsTicket Φ signer issued identity ttl_seconds = .ok token ∧
          reply.role = identity.role ∧ reply.tenants = identity.tenants) := by
  refine ⟨fun identity issued minutes ttl_seconds issuable => ⟨fun issued_fits => ⟨?_, ?_⟩,
    fun token encodes => ⟨?_, ?_⟩, fun ticket encodes => ⟨?_, ?_⟩⟩,
    fun token authentic reply => ⟨?_, ?_⟩⟩
  · exact fun expires => encode_fits signer (fits_carrying issued_fits expires)
  · exact fun expires => encode_fits signer (fits_carrying issued_fits expires)
  · exact fun filled unexpired => session_roundTrip issuable filled encodes unexpired
  · exact session_refused issuable encodes
  · exact fun filled unexpired => ticket_roundTrip issuable filled encodes unexpired
  · exact ticket_refused issuable encodes
  · exact session_issued authentic
  · exact ticket_issued authentic

section Unicode

open Tenancy (Identity)

variable {Φ : Type}

/-- The texts of an identity of the portal are kept. -/
theorem whole_ofIdentity (identity : Identity) :
    ∀ text ∈ texts (.ofIdentity identity), Whole text := by
  intro text member
  simp only [texts, TokenIdentity.ofIdentity, List.mem_cons, List.mem_append, List.mem_map,
    Option.mem_toList, Option.map_eq_some_iff] at member
  rcases member with rfl | rfl | rfl | rfl | ⟨tenant, _, rfl⟩ | ⟨tenant, _, rfl⟩
  all_goals exact whole_str _

/-- The payloads of an identity of the portal are the ones described here. -/
theorem sessionPayload_carrying (now : Int) (minutes : Nat) (identity : Identity) :
    (sessionPayload now minutes identity : List (Str × Value Φ)) =
      carrying "session" now (minutes * 60) (.ofIdentity identity) := by
  simp [sessionPayload, carrying, identityFields, identityPairs, TokenIdentity.ofIdentity,
    Function.comp_def]

theorem ticketPayload_carrying (now : Int) (ttl_seconds : Nat) (identity : Identity) :
    (ticketPayload now ttl_seconds identity : List (Str × Value Φ)) =
      carrying "ws" now ttl_seconds (.ofIdentity identity) := by
  simp [ticketPayload, carrying, identityFields, identityPairs, TokenIdentity.ofIdentity,
    Function.comp_def]

end Unicode

section Samples

/-- The identity of the sample of a session, as a token tells it. -/
def aliceTold : TokenIdentity := .ofIdentity alice

theorem issuable_alice : Issuable aliceTold := ⟨by decide, whole_ofIdentity alice⟩

theorem filled_alice : Filled aliceTold := ⟨by decide, by decide, by decide, by decide, by decide⟩

theorem keeps_alice : ∃ token, identityToken Constant keeper 0 aliceTold 60 = .ok token ∧
    keeper.identityFromToken unread 0 token = .ok aliceTold := by
  obtain ⟨kept, _⟩ := tokens_keep_identities keeper unread 0
  obtain ⟨made, sessions, _⟩ := kept aliceTold 0 60 60 issuable_alice
  obtain ⟨token, encodes⟩ := (made (by decide)).1 (by decide)
  exact ⟨token, encodes, (sessions token encodes).1 filled_alice (by decide)⟩

/-- An identity with a tenant of two halves of a character, and one with the character. -/
def halved : TokenIdentity := { aliceTold with tenants := [[pointOf 0xd83d, pointOf 0xde00]] }

def joined : TokenIdentity := { aliceTold with tenants := [[pointOf 0x1f600]] }

theorem issuable_joined : Issuable joined where
  role := issuable_alice.role
  whole text member := by
    have listed : text ∈ texts aliceTold ∨ text = [pointOf 0x1f600] := by
      simp only [texts, joined, List.mem_cons, List.mem_append] at member ⊢
      tauto
    rcases listed with told | rfl
    · exact issuable_alice.whole text told
    · exact List.IsChain.singleton _

/-- They have the same token, and it gives the identity with the character. -/
theorem confuses_halves : halved.role ∈ roleOrder.map str ∧ Filled halved ∧
    ∃ token, identityToken Constant keeper 0 halved 60 = .ok token ∧
      keeper.identityFromToken unread 0 token ≠ .ok halved := by
  have written : dumpsSorted .compact
      (.dict (carrying "session" 0 3600 halved) : Value Constant) =
        dumpsSorted .compact (.dict (carrying "session" 0 3600 joined) : Value Constant) := by
    decide +kernel
  have bodies : jsonB64 (.dict (carrying "session" 0 3600 halved) : Value Constant) =
      jsonB64 (.dict (carrying "session" 0 3600 joined) : Value Constant) := by
    rw [jsonB64, jsonB64, Value.writtenSorted, Value.writtenSorted, written]
    rfl
  have same : identityToken Constant keeper 0 halved 60 =
      identityToken Constant keeper 0 joined 60 := by
    show keeper.encode (.dict (carrying "session" 0 3600 halved) : Value Constant) =
      keeper.encode (.dict (carrying "session" 0 3600 joined) : Value Constant)
    rw [SignedToken.encode, SignedToken.encode]
    exact congrArg (· >>= _) bodies
  have filled : Filled joined := ⟨by decide, by decide, by decide, by decide, by decide⟩
  have fits : (Value.dict (carrying "session" 0 3600 joined) : Value Constant).fits = true :=
    fits_carrying (by decide) (by decide)
  obtain ⟨token, made⟩ := encode_fits keeper fits
  have encodes : identityToken Constant keeper 0 joined 60 = .ok token := made
  refine ⟨by decide, ⟨by decide, by decide, by decide, by decide, by decide⟩, token,
    same.trans encodes, fun kept => ?_⟩
  have other : keeper.identityFromToken unread 0 token = .ok joined :=
    session_roundTrip issuable_joined filled encodes (by decide)
  have equal : joined.tenants = halved.tenants :=
    congrArg TokenIdentity.tenants (Except.ok.inj (other.symm.trans kept))
  exact absurd equal (by decide)

end Samples

end Immutavault.TokenRoundTrips
