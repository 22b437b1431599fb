import Immutavault.Base64Texts
import Immutavault.Integrity
import Immutavault.Portal

/-!
# The signed tokens of the portal

Sessions, the state of a login and tickets for the live view are handed out as tokens. A
token is the payload as a JSON text in base64, a full stop, and a keyed digest of what
stands before it, with a secret that the portal keeps. Whoever presents a text gets the
payload back if the digest fits, the token has not expired and is of the expected type.

A presented text may hold any code points. Nobody but the portal can make digests that fit:
that a text with a fitting digest was handed out is a condition on the text, stated where
it is used. What is proved is which texts are answered, and which fail otherwise: before
the digests are compared the text is encoded, and only comparable texts are compared.
-/

namespace Immutavault.SignedTokens

open Values GuestFiles JsonTexts Tenancy Portal Base64Texts
open Digests (absorb pad bigEndianBytes Chain)
open Integrity (utf8 decoded)

section Texts

def isAscii (point : CodePoint) : Bool := point.val < 128

def isSurrogate (point : CodePoint) : Bool := 55296 ≤ point.val ∧ point.val < 57344

/-- The full stop between payload and digest. -/
def stop : CodePoint := pointOf 46

/-- Bytes as a text. -/
def latin (bytes : List UInt8) : Str := bytes.map fun byte => pointOf byte.toNat

/-- The bytes of a text; lone surrogates have none. -/
def encoded (text : Str) : Except Exn (List UInt8) :=
  if text.any isSurrogate then
    .error ⟨.valueError, "UnicodeEncodeError: surrogates not allowed"⟩
  else .ok (utf8 (text.map fun point => Char.ofNat point.val))

/-- Compare two texts in constant time. -/
def compareDigest (first second : Str) : Except Exn Bool :=
  if first.all isAscii ∧ second.all isAscii then .ok (first = second)
  else .error ⟨.otherError, "comparing strings with non-ASCII characters is not supported"⟩

/-- The parts of a text before and behind its first full stop. -/
def splitStop : Str → Option (Str × Str)
  | [] => none
  | point :: rest =>
    if point = stop then some ([], rest)
    else (splitStop rest).map fun parts => (point :: parts.1, parts.2)

def b64urlEncode (data : List UInt8) : Str := latin (stripped (Base64Texts.encode data))

def b64urlDecode (value : Str) : Except Exn (List UInt8) :=
  let padded := value ++ List.replicate ((4 - value.length % 4) % 4) (pointOf 61)
  if padded.all isAscii then
    match Base64Texts.decode (padded.map fun point => UInt8.ofNat point.val) with
    | some data => .ok data
    | none => .error ⟨.valueError, "Incorrect padding"⟩
  else .error ⟨.valueError, "string argument should contain only ASCII characters"⟩

/-- The digest as bytes. -/
def sha256Digest (message : List UInt8) : List UInt8 :=
  (absorb ((pad message).length / 64) .initial (pad message)).words.flatMap fun word =>
    bigEndianBytes 4 word.toNat

/-- The keyed digest. -/
def hmacSha256 (key message : List UInt8) : List UInt8 :=
  let short := if 64 < key.length then sha256Digest key else key
  let block := short ++ List.replicate (64 - short.length) 0
  sha256Digest (block.map (· ^^^ 0x5c) ++ sha256Digest (block.map (· ^^^ 0x36) ++ message))

/-- Whether a JSON text in bytes is taken to be in UTF-8, by its first two bytes. A text
that begins like a byte order mark is left to the other encodings. -/
def readsUtf8 : List UInt8 → Bool
  | first :: second :: _ => first ≠ 0 ∧ second ≠ 0 ∧ first ∉ [0xef, 0xfe, 0xff]
  | _ => true

variable {Φ : Type} [Floating Φ] (otherwise : List UInt8 → Except Exn (Value Φ))

/-- The value of a JSON text in bytes. Other encodings, and bytes that are no text, are read
in some other way. -/
def loadsBytes (data : List UInt8) : Except Exn (Value Φ) :=
  if readsUtf8 data then
    match decoded data with
    | some text => (loads text).mapError LoadError.exn
    | none => otherwise data
  else otherwise data

end Texts

section Tokens

/-- The signer of tokens; a short secret is refused. -/
structure SignedToken where
  secret : List UInt8
  long : 32 ≤ secret.length

variable {Φ : Type} [Floating Φ]

def jsonB64 (payload : Value Φ) : Except Exn Str :=
  (payload.writtenSorted .compact).map fun text => b64urlEncode (utf8 text)

variable (signer : SignedToken)

/-- The digest of a text's bytes. -/
def SignedToken.signature (body : List UInt8) : Str := b64urlEncode (hmacSha256 signer.secret body)

def SignedToken.encode (payload : Value Φ) : Except Exn Str := do
  let body ← jsonB64 payload
  let bytes ← encoded body
  return body ++ stop :: signer.signature bytes

variable (otherwise : List UInt8 → Except Exn (Value Φ)) (now : Int)

def SignedToken.decode (token : Str) (expected_type : String) : Except Exn (Value Φ) :=
  match splitStop token with
  | none => .error ⟨.permissionError, "invalid signed token"⟩
  | some (body, signature) => do
    let bytes ← encoded body
    let fits ← compareDigest signature (signer.signature bytes)
    if ¬ fits then .error ⟨.permissionError, "invalid signed token signature"⟩
    else match b64urlDecode body >>= loadsBytes otherwise with
      | .error _ => .error ⟨.permissionError, "invalid signed token payload"⟩
      | .ok payload => do
        let exp ← (← payload.field (str "exp") (.int 0)).toInt
        let typ ← payload.field (str "typ") .null
        if exp < now then .error ⟨.permissionError, "signed token expired"⟩
        else if ¬ typ.isText (str expected_type) then
          .error ⟨.permissionError, "signed token type mismatch"⟩
        else .ok payload

end Tokens

section Identities

/-- An identity as a token tells it. -/
structure TokenIdentity where
  subject : Str
  name : Str
  role : Str
  tenants : List Str
  source : Str
  mfa : Bool
  tenant_id : Option Str

def TokenIdentity.ofIdentity (identity : Identity) : TokenIdentity where
  subject := str identity.subject
  name := str identity.name
  role := str identity.role
  tenants := identity.tenants.map str
  source := str identity.source
  mfa := identity.mfa
  tenant_id := identity.tenant_id.map str

def roleOrder : List String := ["viewer", "restore_operator", "approver", "admin"]

variable {Φ : Type} [Floating Φ]

/-- The fields that say what a token is for and how long. -/
def timedFields (typ : String) (now lifetime : Int) : List (Str × Value Φ) :=
  [(str "typ", .text (str typ)), (str "iat", .int now), (str "exp", .int (now + lifetime))]

def identityFields (identity : Identity) : List (Str × Value Φ) :=
  [(str "sub", .text (str identity.subject)), (str "name", .text (str identity.name)),
    (str "role", .text (str identity.role)),
    (str "tenants", .list (identity.tenants.map fun tenant => .text (str tenant))),
    (str "source", .text (str identity.source)), (str "mfa", .bool identity.mfa),
    (str "tenant_id", (identity.tenant_id.map fun tenant => .text (str tenant)).getD .null)]

def sessionPayload (now : Int) (minutes : Nat) (identity : Identity) : List (Str × Value Φ) :=
  timedFields "session" now (minutes * 60) ++ identityFields identity

def loginPayload (now : Int) (state nonce verifier return_to : String) : List (Str × Value Φ) :=
  timedFields "oidc_state" now 600 ++
    [(str "state", .text (str state)), (str "nonce", .text (str nonce)),
      (str "verifier", .text (str verifier)),
      (str "return_to", .text (str (if return_to.startsWith "/" ∧ ¬ return_to.startsWith "//"
        then return_to else "/")))]

def ticketPayload (now : Int) (ttl_seconds : Nat) (identity : Identity) : List (Str × Value Φ) :=
  timedFields "ws" now ttl_seconds ++ identityFields identity

/-- The payloads that the portal hands out. -/
inductive Issued : List (Str × Value Φ) → Prop
  | session (now : Int) (minutes : Nat) (identity : Identity) :
    Issued (sessionPayload now minutes identity)
  | login (now : Int) (state nonce verifier return_to : String) :
    Issued (loginPayload now state nonce verifier return_to)
  | ticket (now : Int) (ttl_seconds : Nat) (identity : Identity) :
    Issued (ticketPayload now ttl_seconds identity)

/-- The value under a key, or another one in place of a missing or false value. -/
def fieldOr (payload : Value Φ) (key : String) (default : Str) : Except Exn Str := do
  let value ← payload.field (str key) .null
  return (value.orElse (.text default)).toText

/-- The texts of what is under a key. -/
def fieldTexts (payload : Value Φ) (key : String) : Except Exn (List Str) := do
  let value ← payload.field (str key) .null
  let items ← (value.orElse (.list [])).iterated
  return items.map (·.toText)

variable (signer : SignedToken) (otherwise : List UInt8 → Except Exn (Value Φ)) (now : Int)

def SignedToken.identityFromToken (token : Str) : Except Exn TokenIdentity := do
  let value ← signer.decode otherwise now token "session"
  let role := (← value.field (str "role") (.text (str "viewer"))).toText
  if role ∉ roleOrder.map str then .error ⟨.permissionError, "invalid session role"⟩
  else
    let tenants ← fieldTexts value "tenants"
    if tenants = [] then .error ⟨.permissionError, "session has no tenant scope"⟩
    else
      let subject ← fieldOr value "sub" []
      let name ← fieldOr value "name"
        ((← value.field (str "sub") .null).orElse (.text (str "OIDC user"))).toText
      let source ← fieldOr value "source" (str "oidc")
      let mfa := (← value.field (str "mfa") (.bool false)).truthy
      let tenant_id ← value.field (str "tenant_id") .null
      return { subject, name, role, tenants, source, mfa
               tenant_id := if tenant_id.truthy then some tenant_id.toText else none }

/-- The identity of the first user whose token is this one. -/
def staticIdentity (portal : EnterprisePortal) (token : Str) :
    List (PortalUserConfig × String) → Except Exn (Option TokenIdentity)
  | [] => .ok none
  | (user, expected) :: rest => do
    if ← compareDigest token (str expected) then
      return some (.ofIdentity (portal.identityOf user))
    else staticIdentity portal token rest

def bearer : Str := str "Bearer "

/-- Who makes a request, by its header and its session cookie. -/
def auth (portal : EnterprisePortal) (signer : Option SignedToken) (header : Str)
    (cookie : Option Str) : Except Exn (Option TokenIdentity) := do
  let named ← if bearer.isPrefixOf header then
      staticIdentity portal (header.drop bearer.length) portal.staticUsers
    else .ok none
  match named, signer, cookie with
  | some identity, _, _ => return some identity
  | none, some signer, some token =>
    match signer.identityFromToken otherwise now token with
    | .ok identity => return some identity
    | .error error => if error.kind = .permissionError then return none else throw error
  | none, _, _ => return none

end Identities

section Payloads

variable {Φ : Type}

/-- What is under a key is there in any order of the keys, arranged. -/
theorem get?_arranged {fields : List (Str × Value Φ)} (clean : Clean (.dict fields)) (key : Str) :
    Value.get? ((arrangedFields fields).insertionSort
      fun first second => ¬ second.1 < first.1) key = (Value.get? fields key).map arranged := by
  have sorted : (((arrangedFields fields).insertionSort
      fun first second => ¬ second.1 < first.1).map Prod.fst).Nodup := (clean_arranged clean).1
  ext value
  rw [Option.map_eq_some_iff, get?_eq_some_iff sorted, mem_arranged]
  simp only [get?_eq_some_iff clean.1]

theorem field_arranged {fields : List (Str × Value Φ)} (clean : Clean (.dict fields)) (key : Str)
    (default : Value Φ) : (arranged (.dict fields)).field key default =
      .ok (((Value.get? fields key).map arranged).getD default) := by
  rw [arranged, Value.field, get?_arranged clean]

/-- The fields of an identity's token are clean, once its times can be written. -/
theorem clean_identity {typ : String} {now lifetime : Int} {identity : Identity}
    (fits : (Value.dict (timedFields typ now lifetime ++ identityFields identity) :
      Value Φ).fits = true) :
    Clean (.dict (timedFields typ now lifetime ++ identityFields identity) : Value Φ) := by
  have keys : [str "typ", str "iat", str "exp", str "sub", str "name", str "role", str "tenants",
      str "source", str "mfa", str "tenant_id"].Nodup := by decide
  have tenants : CleanItems (identity.tenants.map fun tenant => (.text (str tenant) : Value Φ)) :=
    Integrity.cleanItems_iff.mpr fun item member => by
      obtain ⟨tenant, _, rfl⟩ := List.mem_map.mp member
      exact BrokerMessages.joinSurrogates_str tenant
  have tenant : Clean ((identity.tenant_id.map fun tenant =>
      (.text (str tenant) : Value Φ)).getD .null) := by
    cases identity.tenant_id with
    | none => trivial
    | some tenant => exact BrokerMessages.joinSurrogates_str tenant
  simp only [timedFields, identityFields, List.cons_append, List.nil_append, Value.fits,
    Value.fitsFields, Bool.and_eq_true, decide_eq_true_eq] at fits
  refine ⟨keys, ?_⟩
  simp only [timedFields, identityFields, List.cons_append, List.nil_append, CleanFields, Clean,
    BrokerMessages.joinSurrogates_str, tenants, tenant, fits.2.1, fits.2.2.1, and_true]

theorem clean_login {now : Int} {state nonce verifier return_to : String}
    (fits : (Value.dict (loginPayload now state nonce verifier return_to) : Value Φ).fits = true) :
    Clean (.dict (loginPayload now state nonce verifier return_to) : Value Φ) := by
  have keys : [str "typ", str "iat", str "exp", str "state", str "nonce", str "verifier",
      str "return_to"].Nodup := by decide
  simp only [loginPayload, timedFields, List.cons_append, List.nil_append, Value.fits,
    Value.fitsFields, Bool.and_eq_true, decide_eq_true_eq] at fits
  refine ⟨keys, ?_⟩
  simp only [loginPayload, timedFields, List.cons_append, List.nil_append, CleanFields, Clean,
    BrokerMessages.joinSurrogates_str, fits.2.1, fits.2.2.1, and_true]

/-- A payload that is handed out is clean, once it can be written. -/
theorem clean_issued {fields : List (Str × Value Φ)} (issued : Issued fields)
    (fits : (Value.dict fields).fits = true) : Clean (.dict fields) := by
  cases issued with
  | session now minutes identity => exact clean_identity fits
  | login now state nonce verifier return_to => exact clean_login fits
  | ticket now ttl_seconds identity => exact clean_identity fits

/-- A payload that is handed out says what it is for and until when. -/
theorem issued_timed {fields : List (Str × Value Φ)} (issued : Issued fields) :
    ∃ (typ : String) (exp : Int), Value.get? fields (str "typ") = some (.text (str typ)) ∧
      Value.get? fields (str "exp") = some (.int exp) := by
  cases issued <;> exact ⟨_, _, rfl, rfl⟩

theorem issued_filled {fields : List (Str × Value Φ)} (issued : Issued fields) : fields ≠ [] := by
  cases issued <;> exact List.cons_ne_nil _ _

end Payloads

section Transport

theorem latin_map (bytes : List UInt8) :
    (latin bytes).map (fun point => UInt8.ofNat point.val) = bytes := by
  rw [latin, List.map_map]
  refine (List.map_congr_left fun byte _ => ?_).trans (List.map_id bytes)
  have small : byte.toNat < 1114112 := Nat.lt_trans byte.toNat_lt (by decide)
  simp [val_pointOf small]

/-- The marks and letters of an encoded text are ASCII. -/
theorem ascii_b64 {bytes : List UInt8} : ∀ byte ∈ Base64Texts.encode bytes, byte.toNat < 128 := by
  intro byte member
  have letters : ∀ value < 64, (letter value).toNat < 128 := by decide
  obtain ⟨values, small, same⟩ := encode_letters bytes
  rw [same, List.mem_append] at member
  rcases member with own | mark
  · obtain ⟨value, listed, rfl⟩ := List.mem_map.mp own
    exact letters value (small value listed)
  · rw [List.eq_of_mem_replicate mark]
    decide

theorem ascii_latin {bytes : List UInt8} (all : ∀ byte ∈ bytes, byte.toNat < 128) :
    (latin bytes).all isAscii = true := by
  rw [List.all_eq_true]
  intro point member
  obtain ⟨byte, listed, rfl⟩ := List.mem_map.mp member
  have small := all byte listed
  rw [isAscii, val_pointOf (by omega)]
  exact decide_eq_true small

/-- An encoded text is ASCII. -/
theorem ascii_b64urlEncode (data : List UInt8) : (b64urlEncode data).all isAscii = true :=
  ascii_latin fun byte member => by
    obtain ⟨value, small, rfl⟩ := mem_stripped member
    exact (show ∀ value < 64, (letter value).toNat < 128 by decide) value small

/-- No encoded text holds a full stop. -/
theorem stopless_b64urlEncode (data : List UInt8) : stop ∉ b64urlEncode data := by
  intro member
  obtain ⟨byte, listed, same⟩ := List.mem_map.mp member
  obtain ⟨value, small, rfl⟩ := mem_stripped listed
  exact (show ∀ value < 64, pointOf (letter value).toNat ≠ stop by decide) value small same

/-- What was encoded is decoded again. -/
theorem b64urlDecode_encode (data : List UInt8) : b64urlDecode (b64urlEncode data) = .ok data := by
  have padded : b64urlEncode data ++
      List.replicate ((4 - (b64urlEncode data).length % 4) % 4) (pointOf 61) =
        latin (Base64Texts.encode data) := by
    rw [← filled_stripped data, filled]
    simp [b64urlEncode, latin, padding]
  unfold b64urlDecode
  dsimp only
  rw [padded, if_pos (ascii_latin ascii_b64), latin_map, decode_encode]

/-- An ASCII text has bytes. -/
theorem encoded_ascii {text : Str} (ascii : text.all isAscii = true) :
    ∃ bytes, encoded text = .ok bytes := by
  have plain : text.any isSurrogate = false := by
    rw [List.any_eq_false]
    intro point member
    have small := of_decide_eq_true (List.all_eq_true.mp ascii point member)
    simp only [isSurrogate, decide_eq_true_eq, not_and, not_lt]
    omega
  exact ⟨_, by rw [encoded, plain]; rfl⟩

/-- The parts of a text with a full stop make up the text. -/
theorem splitStop_join {token body signature : Str}
    (split : splitStop token = some (body, signature)) : token = body ++ stop :: signature := by
  induction token generalizing body with
  | nil => cases split
  | cons point rest inductionHypothesis =>
    rw [splitStop] at split
    split at split
    · rename_i same
      cases split
      rw [same]
      rfl
    · obtain ⟨parts, later, same⟩ := Option.map_eq_some_iff.mp split
      cases same
      rw [inductionHypothesis later]
      rfl

theorem splitStop_append {body : Str} (stopless : stop ∉ body) (signature : Str) :
    splitStop (body ++ stop :: signature) = some (body, signature) := by
  induction body with
  | nil => rw [List.nil_append, splitStop, if_pos rfl]
  | cons point rest inductionHypothesis =>
    rw [List.mem_cons, not_or] at stopless
    rw [List.cons_append, splitStop, if_neg fun same => stopless.1 same.symm,
      inductionHypothesis stopless.2]
    rfl

end Transport

section Reading

variable {Φ : Type} [Floating Φ]

/-- The text of a filled dictionary begins with its bracket and a quotation mark. -/
theorem dumpsSorted_begins {fields : List (Str × Value Φ)} (filled : fields ≠ []) :
    ∃ rest, dumpsSorted .compact (.dict fields) = '\x7b' :: '"' :: rest := by
  have sorted : (arrangedFields fields).insertionSort (fun first second => ¬ second.1 < first.1) ≠
      [] := by
    intro empty
    have length := (List.perm_insertionSort
      (fun first second : Str × Value Φ => ¬ second.1 < first.1) (arrangedFields fields)).length_eq
    rw [empty, arrangedFields_eq_map, List.length_map] at length
    exact filled (List.length_eq_zero_iff.mp length.symm)
  rw [dumpsSorted, arranged]
  cases listed : (arrangedFields fields).insertionSort
      (fun first second => ¬ second.1 < first.1) with
  | nil => exact absurd listed sorted
  | cons field rest => exact ⟨_, rfl⟩

theorem readsUtf8_object (rest : List Char) :
    readsUtf8 (utf8 ('\x7b' :: '"' :: rest)) = true := by
  rw [utf8, List.flatMap_cons, List.flatMap_cons]
  rfl

/-- The body of a token that is handed out. -/
theorem jsonB64_ok {payload : Value Φ} {body : Str} (written : jsonB64 payload = .ok body) :
    payload.fits = true ∧ body = b64urlEncode (utf8 (dumpsSorted .compact payload)) := by
  rw [jsonB64, Value.writtenSorted] at written
  split at written
  · rename_i fits
    cases written
    exact ⟨fits, rfl⟩
  · cases written

variable [LawfulFloating Φ] (otherwise : List UInt8 → Except Exn (Value Φ))

/-- The bytes of a payload's text are read as the payload with its keys in order. -/
theorem loadsBytes_dumps {fields : List (Str × Value Φ)} (filled : fields ≠ [])
    (clean : Clean (.dict fields)) :
    loadsBytes otherwise (utf8 (dumpsSorted .compact (.dict fields))) =
      .ok (arranged (.dict fields)) := by
  have loaded : loads (dumpsSorted .compact (.dict fields) ++ []) =
      .ok (arranged (.dict fields)) :=
    loads_dumps .compact (clean_arranged clean) fun _ impossible => nomatch impossible
  rw [List.append_nil] at loaded
  have reads : readsUtf8 (utf8 (dumpsSorted .compact (.dict fields))) = true := by
    obtain ⟨rest, same⟩ := dumpsSorted_begins filled
    rw [same]
    exact readsUtf8_object rest
  rw [loadsBytes, if_pos reads, Integrity.decoded_utf8]
  dsimp only
  rw [loaded]
  rfl

/-- The body of a token that was handed out is read as its payload. -/
theorem payload_issued {fields : List (Str × Value Φ)} {body : Str} (issued : Issued fields)
    (written : jsonB64 (.dict fields) = .ok body) :
    (b64urlDecode body >>= loadsBytes otherwise) = .ok (arranged (.dict fields)) := by
  obtain ⟨fits, rfl⟩ := jsonB64_ok written
  rw [b64urlDecode_encode, ok_bind]
  exact loadsBytes_dumps otherwise (issued_filled issued) (clean_issued issued fits)

end Reading

section Presenting

variable {Φ : Type} [Floating Φ]

/-- A text that can be examined: the part before its first full stop has bytes, and the part
behind it is ASCII. -/
def Presentable (token : Str) : Prop :=
  ∀ body signature, splitStop token = some (body, signature) →
    body.any isSurrogate = false ∧ signature.all isAscii = true

variable (Φ) in
/-- A digest that fits was made by the portal, for a payload that it handed out. -/
def Unforged (signer : SignedToken) (token : Str) : Prop :=
  ∀ body signature bytes, splitStop token = some (body, signature) → encoded body = .ok bytes →
    signature = signer.signature bytes →
    ∃ fields : List (Str × Value Φ), Issued fields ∧ jsonB64 (.dict fields) = .ok body

/-- A value is the payload of this token: it was handed out, has not expired and is of the
type. -/
def HandedOut (signer : SignedToken) (now : Int) (token : Str) (typ : String) (value : Value Φ) :
    Prop :=
  ∃ fields, Issued fields ∧ signer.encode (.dict fields) = .ok token ∧
    value = arranged (.dict fields) ∧ Value.get? fields (str "typ") = some (.text (str typ)) ∧
    ∃ exp, Value.get? fields (str "exp") = some (.int exp) ∧ now ≤ exp

/-- A failure that callers expect. -/
def Refused {α : Type} (outcome : Except Exn α) : Prop :=
  ∃ error, outcome = .error error ∧ error.kind = .permissionError

variable {signer : SignedToken} {otherwise : List UInt8 → Except Exn (Value Φ)} {now : Int}
  {token : Str}

/-- A text that cannot be examined fails in a way that callers do not expect. -/
theorem decode_unpresentable (unpresentable : ¬ Presentable token) (typ : String) :
    ∃ error, signer.decode otherwise now token typ = .error error ∧
      error.kind ≠ .permissionError := by
  simp only [Presentable, not_forall] at unpresentable
  obtain ⟨body, signature, split, hostile⟩ := unpresentable
  rw [SignedToken.decode, split]
  dsimp only
  cases surrogates : body.any isSurrogate with
  | true =>
    rw [encoded, if_pos surrogates]
    exact ⟨_, rfl, by simp⟩
  | false =>
    rw [encoded, if_neg (by simp [surrogates]), ok_bind, compareDigest, if_neg]
    · exact ⟨_, rfl, by simp⟩
    · exact fun both => hostile ⟨surrogates, both.1⟩

variable [LawfulFloating Φ]

/-- A text that can be examined is refused, or the payload of a token that was handed out. -/
theorem decode_presentable (unforged : Unforged Φ signer token) (presentable : Presentable token)
    (typ : String) : Refused (signer.decode otherwise now token typ) ∨
      ∃ value, signer.decode otherwise now token typ = .ok value ∧
        HandedOut signer now token typ value := by
  rw [SignedToken.decode]
  cases split : splitStop token with
  | none => exact Or.inl ⟨_, rfl, rfl⟩
  | some parts =>
    obtain ⟨body, signature⟩ := parts
    obtain ⟨plain, ascii⟩ := presentable body signature split
    have read : encoded body = .ok (utf8 (body.map fun point => Char.ofNat point.val)) := by
      rw [encoded, if_neg (by simp [plain])]
    dsimp only
    rw [read, ok_bind, compareDigest, if_pos ⟨ascii, ascii_b64urlEncode _⟩, ok_bind]
    split
    · exact Or.inl ⟨_, rfl, rfl⟩
    · rename_i same
      have fits : signature =
          signer.signature (utf8 (body.map fun point => Char.ofNat point.val)) := by
        simpa using same
      obtain ⟨fields, issued, written⟩ := unforged body signature _ split read fits
      obtain ⟨own, exp, typed, timed⟩ := issued_timed issued
      have clean := clean_issued issued (jsonB64_ok written).1
      rw [payload_issued otherwise issued written]
      dsimp only
      rw [field_arranged clean, field_arranged clean, timed, typed]
      simp only [Option.map_some, Option.getD_some, arranged, ok_bind, Value.toInt]
      split
      · exact Or.inl ⟨_, rfl, rfl⟩
      · rename_i unexpired
        split
        · exact Or.inl ⟨_, rfl, rfl⟩
        · rename_i fitting
          refine Or.inr ⟨_, rfl, fields, issued, ?_, rfl, ?_, exp, timed, by omega⟩
          · rw [SignedToken.encode, written, ok_bind, read, ok_bind, splitStop_join split, fits]
            rfl
          · have named : str own = str typ := by simpa [Value.isText] using fitting
            rw [typed, named]

omit [Floating Φ] [LawfulFloating Φ] in
/-- What is handed out as a session is the payload of one. -/
theorem issued_session {fields : List (Str × Value Φ)} (issued : Issued fields)
    (typed : Value.get? fields (str "typ") = some (.text (str "session"))) :
    ∃ at_ minutes identity, fields = sessionPayload at_ minutes identity := by
  cases issued with
  | session at_ minutes identity => exact ⟨at_, minutes, identity, rfl⟩
  | login at_ state nonce verifier return_to =>
    have other : str "oidc_state" = str "session" := Value.text.inj (Option.some.inj typed)
    exact absurd other (by decide)
  | ticket at_ ttl_seconds identity =>
    have other : str "ws" = str "session" := Value.text.inj (Option.some.inj typed)
    exact absurd other (by decide)

omit [LawfulFloating Φ] in
/-- A session payload that was handed out names an identity, or is refused. -/
theorem identity_handedOut {value : Value Φ} (handed : HandedOut signer now token "session" value)
    (decoded : signer.decode otherwise now token "session" = .ok value) :
    Refused (signer.identityFromToken otherwise now token) ∨
      ∃ identity, signer.identityFromToken otherwise now token = .ok identity := by
  obtain ⟨fields, issued, encodes, rfl, typed, _⟩ := handed
  have fits : (Value.dict fields).fits = true := by
    rw [SignedToken.encode] at encodes
    obtain ⟨body, written, _⟩ := bind_eq_ok.mp encodes
    exact (jsonB64_ok written).1
  have clean := clean_issued issued fits
  have fieldOr_ok : ∀ key default, ∃ text,
      fieldOr (arranged (.dict fields)) key default = .ok text := by
    intro key default
    rw [fieldOr, field_arranged clean]
    exact ⟨_, rfl⟩
  obtain ⟨at_, minutes, identity, rfl⟩ := issued_session issued typed
  have tenants : ∃ texts, fieldTexts (arranged (.dict (sessionPayload at_ minutes identity) :
      Value Φ)) "tenants" = .ok texts := by
    have listed : Value.get? (sessionPayload at_ minutes identity) (str "tenants") =
        some (.list (identity.tenants.map fun tenant => (.text (str tenant) : Value Φ))) := rfl
    rw [fieldTexts, field_arranged clean, listed]
    simp only [Option.map_some, Option.getD_some, arranged, ok_bind, Value.orElse]
    split <;> exact ⟨_, rfl⟩
  obtain ⟨texts, read⟩ := tenants
  obtain ⟨subject, sub⟩ := fieldOr_ok "sub" []
  obtain ⟨source, origin⟩ := fieldOr_ok "source" (str "oidc")
  rw [SignedToken.identityFromToken, decoded, ok_bind, field_arranged clean, ok_bind]
  dsimp only
  split
  · exact Or.inl ⟨_, rfl, rfl⟩
  · rw [read, ok_bind]
    split
    · exact Or.inl ⟨_, rfl, rfl⟩
    · rw [sub, ok_bind, field_arranged clean, ok_bind]
      let payload : List (Str × Value Φ) := sessionPayload at_ minutes identity
      obtain ⟨name, named⟩ := fieldOr_ok "name" (((((Value.get? payload (str "sub")).map
        arranged).getD .null).orElse (.text (str "OIDC user"))).toText)
      rw [named, ok_bind, origin, ok_bind, field_arranged clean, ok_bind, field_arranged clean,
        ok_bind]
      exact Or.inr ⟨_, rfl⟩

end Presenting

section Static

/-- A token that can be compared with the tokens of users, up to the first that is equal. -/
def Comparable (users : List (PortalUserConfig × String)) (token : Str) : Prop :=
  ∀ front entry back, users = front ++ entry :: back → (∀ earlier ∈ front, str earlier.2 ≠ token) →
    token.all isAscii = true ∧ (str entry.2).all isAscii = true

variable {portal : EnterprisePortal} {token : Str} {users : List (PortalUserConfig × String)}

theorem comparable_cons {entry : PortalUserConfig × String} :
    Comparable (entry :: users) token ↔
      (token.all isAscii = true ∧ (str entry.2).all isAscii = true) ∧
        (str entry.2 ≠ token → Comparable users token) := by
  constructor
  · intro comparable
    refine ⟨comparable [] entry users rfl (by simp), fun other front later back same differ => ?_⟩
    refine comparable (entry :: front) later back (by rw [same]; rfl) fun earlier member => ?_
    rcases List.mem_cons.mp member with rfl | within
    · exact other
    · exact differ earlier within
  · rintro ⟨here, later⟩ front entry' back same differ
    cases front with
    | nil =>
      cases same
      exact here
    | cons first front =>
      cases same
      exact later (differ _ List.mem_cons_self) front entry' back rfl fun earlier member =>
        differ earlier (List.mem_cons_of_mem _ member)

/-- A comparable token is answered: with nobody when no user has it. -/
theorem staticIdentity_comparable (comparable : Comparable users token) :
    ∃ answer, staticIdentity portal token users = .ok answer ∧
      (answer = none ↔ ∀ entry ∈ users, str entry.2 ≠ token) := by
  induction users with
  | nil => exact ⟨none, rfl, by simp⟩
  | cons entry rest inductionHypothesis =>
    obtain ⟨⟨ascii, expected⟩, later⟩ := comparable_cons.mp comparable
    rw [staticIdentity, compareDigest, if_pos ⟨ascii, expected⟩, ok_bind]
    by_cases same : token = str entry.2
    · exact ⟨_, by rw [if_pos (by simpa using same)]; rfl, by simp [same]⟩
    · obtain ⟨answer, answered, known⟩ := inductionHypothesis (later (Ne.symm same))
      refine ⟨answer, by rw [if_neg (by simpa using same), answered], known.trans ?_⟩
      simp [Ne.symm same]

/-- A token that cannot be compared fails in a way that callers do not expect. -/
theorem staticIdentity_incomparable (incomparable : ¬ Comparable users token) :
    ∃ error, staticIdentity portal token users = .error error := by
  induction users with
  | nil =>
    refine absurd (fun front entry back same => ?_) incomparable
    simp at same
  | cons entry rest inductionHypothesis =>
    rw [staticIdentity, compareDigest]
    by_cases both : token.all isAscii = true ∧ (str entry.2).all isAscii = true
    · rw [if_pos both, ok_bind]
      obtain ⟨other, further⟩ := Classical.not_imp.mp fun later =>
        incomparable (comparable_cons.mpr ⟨both, later⟩)
      obtain ⟨error, raised⟩ := inductionHypothesis further
      exact ⟨error, by rw [if_neg (by simpa using Ne.symm other), raised]⟩
    · rw [if_neg both]
      exact ⟨_, rfl⟩

end Static

section Answers

variable {Φ : Type} [Floating Φ]

/-- What a text is presented as. -/
inductive Role where
  | session
  | login
  | ticket
  | bearer

variable (portal : EnterprisePortal) (signer : SignedToken)
  (otherwise : List UInt8 → Except Exn (Value Φ)) (now : Int) (token : Str)

/-- Decoding a text gives the payload of a token that was handed out, or is refused. -/
def Sound (typ : String) : Prop :=
  Refused (signer.decode otherwise now token typ) ∨
    ∃ value, signer.decode otherwise now token typ = .ok value ∧
      HandedOut signer now token typ value

/-- A text is answered in its role. A session that is refused, and a bearer token that no
user has, name nobody. -/
def Answered : Role → Prop
  | .session => Sound signer otherwise now token "session" ∧
    ∃ answer, auth otherwise now portal (some signer) [] (some token) = .ok answer ∧
      (Refused (signer.identityFromToken otherwise now token) → answer = none)
  | .login => Sound signer otherwise now token "oidc_state"
  | .ticket => Sound signer otherwise now token "ws"
  | .bearer => ∃ answer, auth otherwise now portal (some signer) (bearer ++ token) none =
      .ok answer ∧ (answer = none ↔ ∀ entry ∈ portal.staticUsers, str entry.2 ≠ token)

/-- A text that is answered in its role. -/
def Acceptable : Role → Prop
  | .bearer => Comparable portal.staticUsers token
  | _ => Presentable token

variable {portal signer otherwise now token}

theorem sound_iff [LawfulFloating Φ] (unforged : Unforged Φ signer token) (typ : String) :
    Sound signer otherwise now token typ ↔ Presentable token := by
  constructor
  · intro sound
    by_contra unpresentable
    obtain ⟨error, failed, unexpected⟩ := @decode_unpresentable Φ _ signer otherwise now token
      unpresentable typ
    rcases sound with ⟨refusal, refused, expected⟩ | ⟨value, returned, _⟩
    · rw [failed] at refused
      cases refused
      exact unexpected expected
    · rw [failed] at returned
      cases returned
  · exact fun presentable => decode_presentable unforged presentable typ

/-- A text that can be examined is answered as a session. -/
theorem auth_session [LawfulFloating Φ] (unforged : Unforged Φ signer token)
    (presentable : Presentable token) :
    ∃ answer, auth otherwise now portal (some signer) [] (some token) = .ok answer ∧
      (Refused (signer.identityFromToken otherwise now token) → answer = none) := by
  have tried : Refused (signer.identityFromToken otherwise now token) ∨
      ∃ identity, signer.identityFromToken otherwise now token = .ok identity := by
    have decoded := @decode_presentable Φ _ signer otherwise now token _ unforged presentable
      "session"
    rcases decoded with ⟨error, refused, expected⟩ | ⟨value, returned, handed⟩
    · exact Or.inl ⟨error, by rw [SignedToken.identityFromToken, refused, error_bind], expected⟩
    · exact identity_handedOut handed returned
  rw [auth, if_neg (show ¬ bearer.isPrefixOf [] = true by decide), ok_bind]
  dsimp only
  rcases tried with ⟨error, refused, expected⟩ | ⟨identity, named⟩
  · rw [refused]
    dsimp only
    rw [if_pos expected]
    exact ⟨none, rfl, fun _ => rfl⟩
  · rw [named]
    refine ⟨some identity, rfl, ?_⟩
    rintro ⟨error, impossible, _⟩
    cases impossible

theorem auth_bearer (header : Str) :
    auth otherwise now portal (some signer) (bearer ++ header) none =
      staticIdentity portal header portal.staticUsers := by
  have begins : bearer.isPrefixOf (bearer ++ header) = true := by simp
  rw [auth, if_pos begins, List.drop_left]
  cases staticIdentity portal header portal.staticUsers with
  | error error => rfl
  | ok answer => cases answer <;> rfl

end Answers

section Hostile

variable {Φ : Type} [Floating Φ] {signer : SignedToken} {token : Str}

/-- A payload is encoded when its integers can be written. -/
theorem encode_fits (signer : SignedToken) {payload : Value Φ} (fits : payload.fits = true) :
    ∃ token, signer.encode payload = .ok token := by
  obtain ⟨bytes, read⟩ := encoded_ascii (ascii_b64urlEncode (utf8 (dumpsSorted .compact payload)))
  have written : jsonB64 payload = .ok (b64urlEncode (utf8 (dumpsSorted .compact payload))) := by
    rw [jsonB64, Value.writtenSorted, if_pos fits]
    rfl
  rw [SignedToken.encode, written, ok_bind, read]
  exact ⟨_, rfl⟩

/-- The parts of a token that is handed out. -/
theorem splitStop_encoded {payload : Value Φ} (encodes : signer.encode payload = .ok token) :
    ∃ body bytes, jsonB64 payload = .ok body ∧ encoded body = .ok bytes ∧
      splitStop token = some (body, signer.signature bytes) := by
  rw [SignedToken.encode] at encodes
  obtain ⟨body, written, rest⟩ := bind_eq_ok.mp encodes
  obtain ⟨bytes, read, joined⟩ := bind_eq_ok.mp rest
  cases joined
  refine ⟨body, bytes, written, read, splitStop_append ?_ _⟩
  rw [(jsonB64_ok written).2]
  exact stopless_b64urlEncode _

/-- What the portal hands out is not forged. -/
theorem unforged_encoded {fields : List (Str × Value Φ)} (issued : Issued fields)
    (encodes : signer.encode (.dict fields) = .ok token) : Unforged Φ signer token := by
  obtain ⟨body, bytes, written, _, split⟩ := splitStop_encoded encodes
  intro other signature _ found _ _
  cases split.symm.trans found
  exact ⟨fields, issued, written⟩

/-- What the portal hands out can be examined. -/
theorem presentable_encoded {payload : Value Φ} (encodes : signer.encode payload = .ok token) :
    Presentable token := by
  obtain ⟨body, bytes, written, _, split⟩ := splitStop_encoded encodes
  intro other signature found
  cases split.symm.trans found
  refine ⟨?_, ascii_b64urlEncode _⟩
  rw [(jsonB64_ok written).2, List.any_eq_false]
  intro point member surrogate
  have ascii := of_decide_eq_true (List.all_eq_true.mp (ascii_b64urlEncode _) point member)
  have bounds := of_decide_eq_true surrogate
  omega

end Hostile

section Portals

open RecoveryTests (bench)

/-- A portal with one user and a local token. -/
def desk : EnterprisePortal where
  cfg := bench.cfg
  users := [{ name := "alice", role := "admin", token_env := "ALICE" }]
  getenv := fun name => if name = "ALICE" then some "wonderland" else none

/-- A signer with the shortest secret that is accepted. -/
def keeper : SignedToken := ⟨List.replicate 32 97, by decide⟩

def alice : Identity :=
  { subject := "oidc:alice", name := "Alice", role := "admin", tenants := ["*"], source := "oidc"
    mfa := true }

/-- Nothing is read in another encoding. -/
def unread : List UInt8 → Except Exn (Value Constant) :=
  fun _ => .error ⟨.valueError, "UnicodeDecodeError"⟩

/-- A text with an accent behind its full stop. -/
def accented : Str := [pointOf 97, stop, pointOf 233]

end Portals

end Immutavault.SignedTokens
