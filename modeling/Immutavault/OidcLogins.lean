import Mathlib.Data.Rat.Defs
import Immutavault.ClaimMapping
import Immutavault.Interleavings
import Immutavault.LoginRedirects
import Immutavault.PublicKeys

/-!
# Logins with an identity provider

A login is begun with texts that are drawn for it: a state, a nonce, and a verifier of which
only a digest goes to the provider. The browser is sent there with them, and carries the signed
state of the login in a cookie. When it comes back with a code, the code is redeemed together
with the verifier, and the identity token that the provider answers with is checked: its
signature against the published keys by an external program, then its claims.

What the provider announces of itself, and its keys, are kept and shared by all requests of the
portal, which are served at the same time. The announcement is fetched once. The keys are
fetched again when they are an hour old, or when a token names a key that is not among them.
Each reading and writing of what is kept is a command of its own, as are the clock, the random
bytes, the requests to the provider and the runs of the external program.
-/

namespace Immutavault.OidcLogins

open Programs Values JsonTexts SignedTokens ClaimMapping
open GuestFiles (Str str)
open SessionOwnership (printed)
open Integrity (utf8)
open PublicKeys (rsaPublicKeyPem)

/-- A request to the provider. -/
structure Request where
  url : Str
  data : Option (List UInt8) := none
  headers : List (String × String) := []

structure Response where
  status : Int
  body : List UInt8

section Commands

variable (Φ : Type)

/-- What a login asks of its host, and of what the portal keeps. In the end a browser is sent to
the provider, or an identity is signed in. -/
inductive LoginCommand where
  | time
  | tokenBytes (nbytes : Nat)
  | getenv (key : String)
  | urlopen (request : Request)
  | dgst (key signature input : List UInt8)
  | metadata
  | keepMetadata (metadata : Value Φ)
  | jwks
  | keepJwks (jwks : Value Φ)
  | jwksLoadedAt
  | keepJwksLoadedAt (time : ℚ)
  | sendAway (location state_token : Str)
  | signIn (identity : TokenIdentity) (return_to : Str)

def LoginCommand.Answer : LoginCommand Φ → Type
  | .time | .jwksLoadedAt => ℚ
  | .tokenBytes _ => List UInt8
  | .getenv _ => Option Str
  | .urlopen _ => Response
  | .dgst .. => Int × List UInt8
  | .metadata | .jwks => Value Φ
  | _ => Unit

abbrev logins : Interface := ⟨LoginCommand Φ, LoginCommand.Answer Φ⟩

abbrev Prog (α : Type) := Program (logins Φ) Exn α

variable {Φ}

def ask (command : LoginCommand Φ) : Prog Φ (LoginCommand.Answer Φ command) :=
  (Program.perform command : Program (logins Φ) Exn _)

def time : Prog Φ ℚ := ask .time

/-- Nothing was kept yet where nothing is read. -/
def keptMetadata : Prog Φ (Value Φ) := ask .metadata

def keptJwks : Prog Φ (Value Φ) := ask .jwks

end Commands

section Checks

/-- Raise an error where a condition holds. -/
def forbid (kind : ErrorKind) (condition : Prop) [Decidable condition] (message : String) :
    Except Exn Unit :=
  if condition then .error ⟨kind, message⟩ else .ok ()

theorem forbid_eq_ok {kind : ErrorKind} {condition : Prop} [Decidable condition]
    {message : String} {done : Unit} :
    forbid kind condition message = .ok done ↔ ¬ condition := by
  unfold forbid
  split <;> simp_all

variable {Φ : Type}

def isNull : Value Φ → Bool
  | .null => true
  | _ => false

def isDict : Value Φ → Bool
  | .dict _ => true
  | _ => false

/-- A text without the slashes at its end. -/
def slashless (text : Str) : Str := (text.reverse.dropWhile (· = pointOf 47)).reverse

def https : Str := str "https://"

/-- A time in whole seconds. -/
def truncated (time : ℚ) : Int := time.num.tdiv time.den

/-- Letters, digits and four signs stand for themselves in a form. -/
def isUnreserved (byte : UInt8) : Bool :=
  (65 ≤ byte.toNat ∧ byte.toNat ≤ 90) ∨ (97 ≤ byte.toNat ∧ byte.toNat ≤ 122) ∨
    (48 ≤ byte.toNat ∧ byte.toNat ≤ 57) ∨ byte ∈ [45, 46, 95, 126]

def hexDigit (value : Nat) : UInt8 := UInt8.ofNat (if value < 10 then 48 + value else 55 + value)

def quoteByte (byte : UInt8) : List UInt8 :=
  if byte = 32 then [43]
  else if isUnreserved byte then [byte]
  else [37, hexDigit (byte.toNat / 16), hexDigit (byte.toNat % 16)]

def quotePlus (bytes : List UInt8) : List UInt8 := bytes.flatMap quoteByte

/-- A form as bytes: ampersands between its pairs, and equals signs in them. -/
def urlencode (pairs : List (List UInt8 × List UInt8)) : List UInt8 :=
  [38].intercalate (pairs.map fun pair => quotePlus pair.1 ++ 61 :: quotePlus pair.2)

/-- The bytes of a form with texts. -/
def formBytes (pairs : List (String × Str)) : Except Exn (List UInt8) := do
  let values ← pairs.mapM fun pair => do return (utf8 pair.1.toList, ← encoded pair.2)
  return urlencode values

end Checks

/-- The portal's side of the identity provider, with its signer. JSON texts in unusual encodings
are read in some way, and sets are gone through in some order. -/
structure LoginClient (Φ : Type) extends OIDCClient where
  signer : SignedToken
  otherwise : List UInt8 → Except Exn (Value Φ)
  order : SetOrder

variable {Φ : Type} [Floating Φ] (client : LoginClient Φ)

section Provider

def maxAnswerBytes : Nat := 4 * 1024 * 1024

/-- The value that the provider answers a request with. -/
def fetchJson (request : Request) : Prog Φ (Value Φ) := do
  raised (forbid .runtimeError (¬ https.isPrefixOf request.url)
    "OIDC metadata/token/JWKS endpoints must use https")
  let response : Response ← ask (.urlopen request)
  raised (forbid .runtimeError (response.status < 200 ∨ 300 ≤ response.status)
    s!"OIDC endpoint returned HTTP {response.status}")
  let value ← raised (loadsBytes client.otherwise (response.body.take maxAnswerBytes))
  raised (forbid .runtimeError (¬ isDict value)
    "OIDC endpoint returned a non-object JSON value")
  return value

def discoveryUrl : Str :=
  slashless (str client.cfg.issuer) ++ str "/.well-known/openid-configuration"

def endpointKeys : List String := ["authorization_endpoint", "token_endpoint", "jwks_uri"]

def checkEndpoint (metadata : Value Φ) (key : String) : Except Exn Unit := do
  let endpoint ← fieldOr metadata key []
  forbid .runtimeError (¬ https.isPrefixOf endpoint) s!"OIDC discovery is missing a secure {key}"

def checkMetadata (metadata : Value Φ) : Except Exn Unit := do
  let issuer ← fieldOr metadata "issuer" []
  forbid .runtimeError (slashless issuer ≠ slashless (str client.cfg.issuer))
    "OIDC discovery issuer does not match configured issuer"
  let _ ← endpointKeys.mapM (checkEndpoint metadata)
  return ()

/-- Fetch what the provider announces of itself, and keep it if it is sound. -/
def discover : Prog Φ Unit := do
  let metadata ← fetchJson client ⟨discoveryUrl client, none, []⟩
  raised (checkMetadata client metadata)
  ask (.keepMetadata metadata)

def metadata : Prog Φ (Value Φ) := do
  let kept ← keptMetadata
  cond (isNull kept) (discover client) (pure ())
  keptMetadata

/-- The keys are to be fetched: none are kept, or they are an hour old. -/
def staleJwks : Prog Φ Bool := do
  let kept ← keptJwks
  if isNull kept then return true
  else
    let now ← time
    let loaded_at : ℚ ← ask .jwksLoadedAt
    return 3600 < now - loaded_at

def fetchJwks : Prog Φ Unit := do
  let announced ← metadata client
  let uri ← raised (announced.subscript (str "jwks_uri"))
  let jwks ← fetchJson client ⟨uri.toText, none, []⟩
  ask (.keepJwks jwks)
  let loaded_at ← time
  ask (.keepJwksLoadedAt loaded_at)

def jwksValue (force : Bool) : Prog Φ (Value Φ) := do
  let stale ← cond force (pure true) staleJwks
  cond stale (fetchJwks client) (pure ())
  keptJwks

end Provider

section Tokens

/-- The parts of an identity token. -/
structure IdToken (Φ : Type) where
  header : Value Φ
  claims : Value Φ
  signature : List UInt8
  signing_input : Str

def readParts (token : Str) : Except Exn (IdToken Φ) :=
  match token.splitOn stop with
  | [header_raw, payload_raw, signature_raw] => do
    let header ← b64urlDecode header_raw >>= loadsBytes client.otherwise
    let claims ← b64urlDecode payload_raw >>= loadsBytes client.otherwise
    let signature ← b64urlDecode signature_raw
    return ⟨header, claims, signature, header_raw ++ stop :: payload_raw⟩
  | _ => .error ⟨.valueError, "expected 3 values to unpack"⟩

/-- Whatever keeps a token from being read, it is malformed. -/
def readToken (token : Str) : Except Exn (IdToken Φ) :=
  (readParts client token).mapError fun _ => ⟨.permissionError, "malformed OIDC ID token"⟩

/-- The name of the key that a token is signed with. -/
def keyName (header : Value Φ) : Except Exn Str := do
  let alg ← header.field (str "alg") .null
  forbid .permissionError (¬ alg.isText (str "RS256")) "only RS256 OIDC ID tokens are accepted"
  let kid ← fieldOr header "kid" []
  forbid .permissionError (kid = []) "OIDC ID token is missing kid"
  return kid

def firstKey (kid : Str) : List (Value Φ) → Except Exn (Option (Value Φ))
  | [] => .ok none
  | item :: rest => do
    let named ← fieldOr item "kid" []
    let kty ← item.field (str "kty") .null
    if named = kid ∧ kty.isText (str "RSA") then return some item else firstKey kid rest

def findKey (kid : Str) (jwks : Value Φ) : Except Exn (Option (Value Φ)) := do
  let keys ← jwks.field (str "keys") .null
  let items ← (keys.orElse (.list [])).iterated
  firstKey kid items

/-- The key of a name, from keys that are fetched again if it is not among those kept. -/
def signingKey (kid : Str) : Prog Φ (Value Φ) := do
  let jwks ← jwksValue client false
  match ← raised (findKey kid jwks) with
  | some jwk => return jwk
  | none =>
    let refreshed ← jwksValue client true
    match ← raised (findKey kid refreshed) with
    | some jwk => return jwk
    | none => raisePermissionError "OIDC signing key is unknown"

def publicKeyPem (jwk : Value Φ) : Except Exn (List UInt8) := do
  let n ← jwk.subscript (str "n")
  -- The modulus is decoded before the exponent is looked up.
  let _ ← b64urlDecode n.toText
  let e ← jwk.subscript (str "e")
  rsaPublicKeyPem n.toText e.toText

def verifiedOk : List UInt8 := "Verified OK".toUTF8.toList

def verifyRs256 (signing_input : Str) (signature : List UInt8) (jwk : Value Φ) : Prog Φ Unit := do
  let input ← raised (encoded signing_input)
  let pem ← raised (publicKeyPem jwk)
  let (returncode, stdout) ← ask (.dgst pem signature input)
  raised (forbid .permissionError (returncode ≠ 0 ∨ ¬ verifiedOk <:+: stdout)
    "OIDC ID token signature validation failed")

/-- For whom a token is. -/
def audiencesOf (claims : Value Φ) : Except Exn (List Str) := do
  match ← claims.field (str "aud") .null with
  | .text audience => return [audience]
  | audience => return (← (audience.orElse (.list [])).iterated).map (·.toText)

def skew : Int := 90

/-- The checks of the claims behind that of the issuer. -/
def checkClaims (now : Int) (nonce : Str) (claims : Value Φ) : Except Exn Unit := do
  let audiences ← audiencesOf claims
  forbid .permissionError (str client.cfg.client_id ∉ audiences) "OIDC audience mismatch"
  let exp ← (← claims.field (str "exp") (.int 0)).toInt
  forbid .permissionError (exp < now - skew) "OIDC ID token expired"
  let nbf ← ((← claims.field (str "nbf") (.int 0)).orElse (.int 0)).toInt
  forbid .permissionError (now + skew < nbf) "OIDC ID token is not active yet"
  let same ← compareDigest (← fieldOr claims "nonce" []) nonce
  forbid .permissionError (¬ same) "OIDC nonce mismatch"
  let tenant_id ← fieldOr claims "tid" []
  forbid .permissionError (client.cfg.allowed_tenant_ids ≠ [] ∧
    tenant_id ∉ client.cfg.allowed_tenant_ids.map str) "OIDC tenant is not authorized"

/-- Check what a token with a valid signature says. -/
def examineClaims (nonce : Str) (claims : Value Φ) : Prog Φ Unit := do
  let now ← time
  let issuer ← raised (fieldOr claims "iss" [])
  let announced ← metadata client
  let own ← raised (announced.subscript (str "issuer"))
  raised (forbid .permissionError (slashless issuer ≠ slashless own.toText)
    "OIDC issuer mismatch")
  raised (checkClaims client (truncated now) nonce claims)

def validateIdToken (token nonce : Str) : Prog Φ (Value Φ) := do
  let parts ← raised (readToken client token)
  let kid ← raised (keyName parts.header)
  let jwk ← signingKey client kid
  verifyRs256 parts.signing_input parts.signature jwk
  examineClaims client nonce parts.claims
  return parts.claims

end Tokens

section Logins

/-- The query with which a browser is sent to the provider. -/
def loginQuery (state nonce challenge : Str) : List (String × Str) :=
  [("client_id", str client.cfg.client_id), ("response_type", str "code"),
    ("redirect_uri", str client.cfg.redirect_uri), ("response_mode", str "query"),
    ("scope", str "openid profile email"), ("state", state), ("nonce", nonce),
    ("code_challenge", challenge), ("code_challenge_method", str "S256")]

/-- The digest of a verifier that the provider is told. -/
def challengeOf (verifier : Str) : Except Exn Str := do
  return b64urlEncode (sha256Digest (← encoded verifier))

/-- Begin a login: where the browser is sent, and the signed state. -/
def beginLogin (return_to : String) : Prog Φ (Str × Str) := do
  let verifier := b64urlEncode (← ask (.tokenBytes 48))
  let challenge ← raised (challengeOf verifier)
  let state := b64urlEncode (← ask (.tokenBytes 24))
  let nonce := b64urlEncode (← ask (.tokenBytes 24))
  let now ← time
  let state_token ← raised (LoginRedirects.beginLogin Φ client.signer (truncated now)
    (printed state) (printed nonce) (printed verifier) return_to)
  let announced ← metadata client
  let endpoint ← raised (announced.subscript (str "authorization_endpoint"))
  let query ← raised (formBytes (loginQuery client state nonce challenge))
  return (endpoint.toText ++ str "?" ++ latin query, state_token)

/-- The saved state of the login whose signed state and state come back. -/
def savedState (now : Int) (state state_token : Str) : Except Exn (Value Φ) := do
  let saved ← client.signer.decode client.otherwise now state_token "oidc_state"
  let expected ← fieldOr saved "state" []
  let same ← cond state.isEmpty (.ok false) (compareDigest state expected)
  forbid .permissionError (¬ same) "OIDC state mismatch"
  return saved

/-- The secret of the portal in the form, if it has one. -/
def clientSecret : Prog Φ (List (String × Str)) :=
  match client.cfg.client_secret_env with
  | none | some "" => return []
  | some name => do
    let secret := (← ask (.getenv name)).getD []
    raised (forbid .runtimeError (secret = []) s!"{name} is required for OIDC token exchange")
    return [("client_secret", secret)]

/-- The form with which a code is redeemed. -/
def tokenForm (code verifier : Str) : List (String × Str) :=
  [("grant_type", str "authorization_code"), ("client_id", str client.cfg.client_id),
    ("code", code), ("redirect_uri", str client.cfg.redirect_uri), ("code_verifier", verifier)]

/-- Redeem a code for an identity token. -/
def redeem (code verifier : Str) : Prog Φ Str := do
  let secret ← clientSecret client
  let announced ← metadata client
  let endpoint ← raised (announced.subscript (str "token_endpoint"))
  let data ← raised (formBytes (tokenForm client code verifier ++ secret))
  let answer ← fetchJson client ⟨endpoint.toText, some data,
    [("Content-Type", "application/x-www-form-urlencoded")]⟩
  let id_token ← raised (fieldOr answer "id_token" [])
  raised (forbid .permissionError (id_token = []) "OIDC provider did not return an ID token")
  return id_token

/-- Finish a login: the identity, and where the login returns to. -/
def completeLogin (code state state_token : Str) : Prog Φ (TokenIdentity × Str) := do
  let now ← time
  let saved ← raised (savedState client (truncated now) state state_token)
  raised (forbid .permissionError (code = []) "OIDC authorization code is missing")
  let verifier ← raised (saved.subscript (str "verifier"))
  let id_token ← redeem client code verifier.toText
  let nonce ← raised (saved.subscript (str "nonce"))
  let claims ← validateIdToken client id_token nonce.toText
  let identity ← raised (client.identityFromClaims client.order claims)
  let return_to ← raised (fieldOr saved "return_to" (str "/"))
  return (identity, return_to)

end Logins

section Portal

/-- The requests of browsers that concern logins. -/
inductive Visit where
  | login (return_to : String)
  | callback (code state state_token : Str)

/-- The portal serves a visit. -/
def serve : Visit → Prog Φ Unit
  | .login return_to => do
    let (location, state_token) ← beginLogin client return_to
    ask (.sendAway location state_token)
  | .callback code state state_token => do
    let (identity, return_to) ← completeLogin client code state state_token
    ask (.signIn identity return_to)

/-- What answers the portal, by the number of the command. -/
structure Host (Φ : Type) where
  answers : Nat → (command : LoginCommand Φ) → Except Exn (LoginCommand.Answer Φ command)

/-- What is kept for all requests, and how many commands there were. -/
structure World (Φ : Type) where
  commands : Nat := 0
  metadata : Value Φ := .null
  jwks : Value Φ := .null
  jwksLoadedAt : ℚ := 0

def World.counted (world : World Φ) : World Φ := { world with commands := world.commands + 1 }

def Host.handler (host : Host Φ) : Handler (logins Φ) Exn (World Φ)
  | .metadata, world => (.ok world.metadata, world.counted)
  | .keepMetadata metadata, world => (.ok (), { world.counted with metadata := metadata })
  | .jwks, world => (.ok world.jwks, world.counted)
  | .keepJwks jwks, world => (.ok (), { world.counted with jwks := jwks })
  | .jwksLoadedAt, world => (.ok world.jwksLoadedAt, world.counted)
  | .keepJwksLoadedAt time, world => (.ok (), { world.counted with jwksLoadedAt := time })
  | command, world => (host.answers world.commands command, world.counted)

end Portal

end Immutavault.OidcLogins
