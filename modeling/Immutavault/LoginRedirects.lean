import Immutavault.DownloadNames
import Immutavault.TokenRoundTrips

/-!
# Where a login returns to

A login remembers where its browser came from: the text that was given in the query, when
it begins with one slash and not with two, and the root otherwise. The text goes into the
signed state of the login, comes back with the browser's cookie, and is the location that
the finished login redirects to. Nothing else looks at it.

A header's value is written as it is, so a text with a line end writes further lines, and a
text with a character beyond Latin-1 breaks the response off. And a browser leaves tabs out
of a location and takes a backslash for a slash, so a text may begin with one slash and still
lead to another host. The provider's side of the login is a parameter.
-/

namespace Immutavault.LoginRedirects

open Programs Values JsonTexts SignedTokens TokenRoundTrips PortalResponses HttpFields DownloadNames
open BrokerMessages (ascii)
open FileDownloads (run_serving portalSite)
open GuestFiles (Str str val_ofNat)

section Login

/-- The text begins with one slash, and not with two. -/
def Passes (return_to : String) : Prop := return_to.startsWith "/" ∧ ¬ return_to.startsWith "//"

instance (return_to : String) : Decidable (Passes return_to) := inferInstanceAs (Decidable (_ ∧ _))

/-- Where a login returns to. -/
def returnTo (return_to : String) : String := if Passes return_to then return_to else "/"

variable {Φ : Type} [Floating Φ] (signer : SignedToken)

variable (Φ) in
/-- The state of a login that begins, with the texts that are drawn for it. -/
def beginLogin (now : Int) (state nonce verifier return_to : String) : Except Exn Str :=
  signer.encode (.dict (loginPayload now state nonce verifier return_to) : Value Φ)

variable (otherwise : List UInt8 → Except Exn (Value Φ)) (now : Int)
  (exchange : Str → Str → Str → Except Exn TokenIdentity)

/-- Finish a login: the provider is asked with the code, the verifier and the nonce. -/
def completeLogin (code state state_token : Str) : Except Exn (TokenIdentity × Str) := do
  let saved ← signer.decode otherwise now state_token "oidc_state"
  let expected ← fieldOr saved "state" []
  let same ← cond state.isEmpty (.ok false) (compareDigest state expected)
  if ¬ same then .error ⟨.permissionError, "OIDC state mismatch"⟩
  else if code = [] then .error ⟨.permissionError, "OIDC authorization code is missing"⟩
  else do
    let verifier ← saved.subscript (str "verifier")
    let nonce ← saved.subscript (str "nonce")
    let identity ← exchange code verifier.toText nonce.toText
    let return_to ← fieldOr saved "return_to" (str "/")
    return (identity, return_to)

end Login

section Callback

variable (site : Site)

def sessionCookie (session : Str) (minutes : Nat) (secure : Bool) : Str :=
  str "immutavault_session=" ++ session ++ str "; Path=/; HttpOnly; SameSite=Lax; Max-Age=" ++
    str (toString (minutes * 60)) ++ str (if secure then "; Secure" else "")

def clearedCookie : Str :=
  str "immutavault_oidc_state=; Path=/auth/callback; HttpOnly; SameSite=Lax; Max-Age=0"

/-- The fields of a redirect. -/
def redirectFields (location : Str) (cookies : List Str) : List (String × Str) :=
  ("Location", location) :: cookies.map fun cookie => ("Set-Cookie", cookie)

def redirect (location : Str) (cookies : List Str) : Sending Unit := do
  sendResponse site 302
  sendHeaders (redirectFields location cookies)
  sendHeaders securityHeaders
  endHeaders

variable {Φ : Type} [Floating Φ] (signer : SignedToken)
  (otherwise : List UInt8 → Except Exn (Value Φ)) (now : Int)
  (exchange : Str → Str → Str → Except Exn TokenIdentity)
  (audit : TokenIdentity → Except Exn Unit) (minutes : Nat) (secure : Bool)

/-- The provider sends the browser here. -/
def callback (code state : Str) (state_cookie : Option Str) : Sending Unit := do
  match state_cookie with
  | none => raised (.error ⟨.permissionError, "OIDC state cookie is missing"⟩)
  | some state_token =>
    let (identity, return_to) ← raised (completeLogin signer otherwise now exchange code state
      state_token)
    let session ← raised (identityToken Φ signer now identity minutes)
    raised (audit identity)
    redirect site return_to [sessionCookie session minutes secure, clearedCookie]

/-- What is sent for it, on a connection that takes a number of bytes. -/
def answerCallback (code state : Str) (state_cookie : Option Str) (budget : Nat) : List UInt8 :=
  (run Connection.handler (serving site (callback site signer otherwise now exchange audit minutes
    secure code state state_cookie)) { budget := budget }).2.out

end Callback

section Reading

/-- A field with no line end in its value. -/
structure Unbroken (field : Field) : Prop extends field.Legible where
  lineless : 10 ∉ field.value

/-- Bytes are the lines of these fields and an empty line. -/
def Head (bytes : List UInt8) (fields : List Field) : Prop :=
  bytes = fields.flatMap Field.line ++ [13, 10] ∧ ∀ field ∈ fields, Unbroken field

/-- Bytes are read as fields in at most one way. -/
theorem Head.unique {bytes : List UInt8} {fields others : List Field} (head : Head bytes fields)
    (again : Head bytes others) : fields = others := by
  obtain ⟨same, unbroken⟩ := head
  obtain ⟨other, whole⟩ := again
  rw [same] at other
  clear same
  induction fields generalizing others with
  | nil =>
    cases others with
    | nil => rfl
    | cons field rest =>
      rw [List.flatMap_cons, List.append_assoc] at other
      exact absurd other.symm (line_ne_ended (whole field List.mem_cons_self).toLegible _ [])
  | cons field rest inductionHypothesis =>
    rw [List.flatMap_cons, List.append_assoc] at other
    cases others with
    | nil => exact absurd other (line_ne_ended (unbroken field List.mem_cons_self).toLegible _ [])
    | cons second more =>
      rw [List.flatMap_cons, List.append_assoc] at other
      obtain ⟨rfl, further⟩ := line_injective (unbroken field List.mem_cons_self).toLegible
        (whole second List.mem_cons_self).toLegible other
      rw [inductionHypothesis (fun field member => unbroken field (List.mem_cons_of_mem _ member))
        further fun field member => whole field (List.mem_cons_of_mem _ member)]

/-- A location as a browser takes it: without tabs. -/
def untabbed (location : Str) : Str := location.filter fun point => point.val ≠ 9

/-- A location that begins with a slash and stays on the host: what follows the slash is
neither a slash nor a backslash. No line end is in it, and it can be sent. -/
structure SameOrigin (location : Str) : Prop where
  sendable : ∀ point ∈ location, point.val < 256 ∧ point.val ≠ 10 ∧ point.val ≠ 13
  rooted : ∃ rest, untabbed location = 47 :: rest ∧ ∀ point ∈ rest.head?,
    point.val ≠ 47 ∧ point.val ≠ 92

/-- The fields of a redirect that the portal means to send. -/
def intended (site : Site) (location : Str) (cookies : List Str) : List (String × Str) :=
  [("Server", site.software), ("Date", site.date)] ++ redirectFields location cookies ++
    securityHeaders

/-- A response is a redirect to a place on the same host, with these cookies and with no
other fields than the portal means to send. -/
def RedirectsSafely (site : Site) (cookies : List Str) (response : List UInt8) : Prop :=
  ∃ location head, SameOrigin location ∧ response = statusLine 302 ++ head ∧
    Head head ((intended site location cookies).map wireField)

end Reading

section Remembering

variable {Φ : Type} [Floating Φ] [LawfulFloating Φ] {signer : SignedToken}
  {otherwise : List UInt8 → Except Exn (Value Φ)} {now issued : Int}
  {exchange : Str → Str → Str → Except Exn TokenIdentity} {code state : Str} {state_token : Str}
  {drawn nonce verifier given : String}

/-- The state of a login, as it is decoded until it expires. -/
theorem decode_beginLogin (otherwise : List UInt8 → Except Exn (Value Φ)) (now : Int)
    (begins : beginLogin Φ signer issued drawn nonce verifier given = .ok state_token) :
    Clean (.dict (loginPayload issued drawn nonce verifier given) : Value Φ) ∧
      signer.decode otherwise now state_token "oidc_state" =
        if issued + 600 < now then .error ⟨.permissionError, "signed token expired"⟩
        else .ok (arranged (.dict (loginPayload issued drawn nonce verifier given))) := by
  obtain ⟨body, _, written, _⟩ := splitStop_encoded begins
  have clean : Clean (.dict (loginPayload issued drawn nonce verifier given) : Value Φ) :=
    clean_login (jsonB64_ok written).1
  have filled : (loginPayload issued drawn nonce verifier given : List (Str × Value Φ)) ≠ [] :=
    List.cons_ne_nil _ _
  refine ⟨clean, ?_⟩
  rw [decode_encoded filled clean rfl rfl begins, if_pos rfl]

theorem returnTo_filled (given : String) : str (returnTo given) ≠ [] := by
  unfold returnTo
  split
  · rename_i rooted
    obtain ⟨rest, same⟩ := String.startsWith_string_iff.mp rooted.1
    rw [str, ← same]
    exact List.cons_ne_nil _ _
  · decide

/-- A login that comes back with its state and a code, before it expires, asks the provider. -/
theorem completeLogin_begun (exchange : Str → Str → Str → Except Exn TokenIdentity)
    (begins : beginLogin Φ signer issued drawn nonce verifier given = .ok state_token)
    (unexpired : now ≤ issued + 600) (ascii : (str drawn).all isAscii = true)
    (filled : str drawn ≠ []) (coded : code ≠ []) {identity : TokenIdentity}
    (known : exchange code (str verifier) (str nonce) = .ok identity) :
    completeLogin signer otherwise now exchange code (str drawn) state_token =
      .ok (identity, str (returnTo given)) := by
  obtain ⟨clean, decoded⟩ := decode_beginLogin otherwise now begins
  rw [if_neg (by omega)] at decoded
  let payload : List (Str × Value Φ) := loginPayload issued drawn nonce verifier given
  have under : ∀ key text, Value.get? payload (str key) = some (.text text) → ∀ default,
      (arranged (.dict payload)).field (str key) default = .ok (.text text) := by
    intro key text found default
    rw [field_arranged clean, found]
    rfl
  have behind : ∀ key text, Value.get? payload (str key) = some (.text text) →
      (arranged (.dict payload)).subscript (str key) = .ok (.text text) := by
    intro key text found
    have sorted := get?_arranged clean (str key)
    rw [found] at sorted
    rw [arranged, Value.subscript, sorted]
    rfl
  have saved : fieldOr (arranged (.dict payload)) "state" [] = .ok (str drawn) := by
    rw [fieldOr_text (under "state" _ rfl), orText_nil]
  have returns : fieldOr (arranged (.dict payload)) "return_to" (str "/") =
      .ok (str (returnTo given)) := by
    rw [fieldOr_text (under "return_to" (str (returnTo given)) rfl), orText,
      if_neg (returnTo_filled given)]
  have given_state : (str drawn).isEmpty = false := by
    cases whole : str drawn with
    | nil => exact absurd whole filled
    | cons => rfl
  rw [completeLogin, decoded, ok_bind, saved, ok_bind, given_state, cond_false, compareDigest,
    if_pos ⟨ascii, ascii⟩, ok_bind, if_neg (by simp), if_neg coded, behind "verifier" _ rfl,
    ok_bind, behind "nonce" _ rfl, ok_bind]
  show (exchange code (str verifier) (str nonce) >>= _) = _
  rw [known, ok_bind, returns]
  rfl

/-- A login returns to what it remembered. -/
theorem completeLogin_returns {identity : TokenIdentity} {return_to : Str}
    (begins : beginLogin Φ signer issued drawn nonce verifier given = .ok state_token)
    (completes : completeLogin signer otherwise now exchange code state state_token =
      .ok (identity, return_to)) : return_to = str (returnTo given) := by
  obtain ⟨clean, decoded⟩ := decode_beginLogin otherwise now begins
  unfold completeLogin at completes
  rw [decoded] at completes
  split at completes
  · cases completes
  · rw [ok_bind] at completes
    obtain ⟨_, _, completes⟩ := bind_eq_ok.mp completes
    obtain ⟨_, _, completes⟩ := bind_eq_ok.mp completes
    split at completes
    · cases completes
    · split at completes
      · cases completes
      · obtain ⟨_, _, completes⟩ := bind_eq_ok.mp completes
        obtain ⟨_, _, completes⟩ := bind_eq_ok.mp completes
        obtain ⟨_, _, completes⟩ := bind_eq_ok.mp completes
        obtain ⟨text, read, done⟩ := bind_eq_ok.mp completes
        have shown : ∀ default, (arranged (.dict (loginPayload issued drawn nonce verifier given)) :
            Value Φ).field (str "return_to") default = .ok (.text (str (returnTo given))) := by
          intro default
          rw [field_arranged clean]
          rfl
        rw [fieldOr_text shown, orText, if_neg (returnTo_filled given)] at read
        obtain ⟨_, rfl⟩ := Prod.mk.inj (Except.ok.inj done)
        exact (Except.ok.inj read).symm

end Remembering

section Sending

variable {site : Site} {location session : Str} {cookies : List Str}

/-- A field with a value that can be sent and has no line end is read as one line. -/
theorem unbroken_wireField {keyword : String} (named : Named keyword) {value : Str}
    (sendable : ∀ point ∈ value, point.val < 256 ∧ point.val ≠ 10 ∧ point.val ≠ 13) :
    Unbroken (wireField (keyword, value)) := by
  refine ⟨legible_wireField named (fun point member => (sendable point member).1)
    fun point member => (sendable point member).2.2, fun member => ?_⟩
  rcases List.mem_cons.mp member with impossible | inside
  · exact absurd impossible (by decide)
  · obtain ⟨point, listed, same⟩ := List.mem_map.mp inside
    obtain ⟨small, line, _⟩ := sendable point listed
    have back := congrArg UInt8.toNat same
    rw [UInt8.toNat_ofNat', Nat.mod_eq_of_lt small] at back
    exact line back

theorem sendable_plain {text : Str} (plain : Plain text) :
    ∀ point ∈ text, point.val < 256 ∧ point.val ≠ 10 ∧ point.val ≠ 13 := by
  intro point member
  have printable := plain point member
  omega

theorem unbroken_plain {keyword : String} (named : Named keyword) {value : Str}
    (plain : Plain value) : Unbroken (wireField (keyword, value)) :=
  unbroken_wireField named (sendable_plain plain)

/-- A token is printable. -/
theorem plain_encode {Φ : Type} [Floating Φ] {signer : SignedToken} {payload : Value Φ}
    {token : Str} (encodes : signer.encode payload = .ok token) : Plain token := by
  have letters : ∀ value < 64,
      32 ≤ (Base64Texts.letter value).toNat ∧ (Base64Texts.letter value).toNat < 127 := by decide
  have printable : ∀ data : List UInt8, Plain (b64urlEncode data) := by
    intro data point member
    obtain ⟨byte, listed, rfl⟩ := List.mem_map.mp member
    obtain ⟨value, small, rfl⟩ := Base64Texts.mem_stripped listed
    have known := letters value small
    rw [val_pointOf (by omega)]
    exact known
  obtain ⟨body, bytes, written, _, split_token⟩ := splitStop_encoded encodes
  rw [splitStop_join split_token, (jsonB64_ok written).2]
  intro point member
  rcases List.mem_append.mp member with before | behind
  · exact printable _ point before
  · rcases List.mem_cons.mp behind with rfl | inside
    · decide
    · exact printable _ point inside

theorem plain_append {first second : Str} (before : Plain first) (after : Plain second) :
    Plain (first ++ second) := by
  intro point member
  rcases List.mem_append.mp member with inside | behind
  · exact before point inside
  · exact after point behind

theorem plain_sessionCookie (plain : Plain session) (minutes : Nat) (secure : Bool) :
    Plain (sessionCookie session minutes secure) := by
  have ending : Plain (str (if secure then "; Secure" else "")) := by
    cases secure <;> exact plain_literal (by decide)
  exact plain_append (plain_append (plain_append (plain_append (plain_literal (by decide)) plain)
    (plain_literal (by decide))) (plain_toString _)) ending

theorem plain_clearedCookie : Plain clearedCookie := plain_literal (by decide)

/-- All fields of a redirect but its location are printable. -/
theorem unbroken_intended (plain : ∀ cookie ∈ cookies, Plain cookie)
    (sendable : SameOrigin location) :
    ∀ field ∈ (intended site location cookies).map wireField, Unbroken field := by
  intro field member
  simp only [intended, redirectFields, List.map_append, List.map_cons, List.map_nil,
    List.map_map, List.mem_append, List.mem_cons, List.not_mem_nil, or_false] at member
  rcases member with ((rfl | rfl) | rfl | setting) | security
  · exact unbroken_plain (by decide) site.plain_software
  · exact unbroken_plain (by decide) site.plain_date
  · exact unbroken_wireField (by decide) sendable.sendable
  · obtain ⟨cookie, listed, rfl⟩ := List.mem_map.mp setting
    exact unbroken_plain (by decide) (plain cookie listed)
  · have valid := valid_securityHeaders field security
    exact ⟨valid.toLegible, fun member => absurd (valid.value 10 member) (by decide)⟩

variable (site location cookies) in
/-- All bytes of a redirect. -/
def redirectHead : List UInt8 :=
  responseLines site 302 ++ (fieldBytes [("Location", location)] ++
    (fieldBytes (cookies.map fun cookie => ("Set-Cookie", cookie)) ++
      (fieldBytes securityHeaders ++ ascii "\r\n")))

theorem redirectHead_lines : redirectHead site location cookies =
    statusLine 302 ++ (((intended site location cookies).map wireField).flatMap Field.line ++
      [13, 10]) := by
  have ended : ascii "\r\n" = [13, 10] := by decide
  have fields : intended site location cookies = [("Server", site.software), ("Date", site.date)] ++
      ([("Location", location)] ++ ((cookies.map fun cookie => ("Set-Cookie", cookie)) ++
        securityHeaders)) := by
    simp [intended, redirectFields]
  rw [← fieldBytes_lines, redirectHead, responseLines, ended, fields]
  simp only [fieldBytes_append, List.append_assoc]

/-- A response redirects safely when it is all of a redirect to a place on the same host. -/
theorem redirectsSafely_iff {response : List UInt8} (plain : ∀ cookie ∈ cookies, Plain cookie) :
    RedirectsSafely site cookies response ↔
      ∃ location, SameOrigin location ∧ response = redirectHead site location cookies := by
  constructor
  · rintro ⟨location, head, sameOrigin, rfl, rfl, _⟩
    exact ⟨location, sameOrigin, redirectHead_lines.symm⟩
  · rintro ⟨location, sameOrigin, rfl⟩
    exact ⟨location, _, sameOrigin, redirectHead_lines, rfl, unbroken_intended plain sameOrigin⟩

theorem latin_toBytes {text : Str} (encodable : Encodable text) : latin (toBytes text) = text := by
  rw [latin, toBytes, List.map_map]
  refine (List.map_congr_left fun point member => ?_).trans (List.map_id text)
  have small : point.val < 256 := encodable point member
  rw [Function.comp_apply, UInt8.toNat_ofNat', Nat.mod_eq_of_lt small, pointOf_val]
  rfl

/-- The bytes of a redirect determine its location. -/
theorem redirectHead_injective {other : Str} (encodable : Encodable location)
    (sendable : Encodable other)
    (same : redirectHead site location cookies = redirectHead site other cookies) :
    location = other := by
  have lines := List.append_cancel_right (List.append_cancel_left same)
  simp only [fieldBytes, List.flatMap_cons, List.flatMap_nil, List.append_nil, fieldLine,
    toBytes_append] at lines
  have values := List.append_cancel_left (List.append_cancel_right lines)
  rw [← latin_toBytes encodable, ← latin_toBytes sendable, values]

theorem encodable_named {keyword : String} (named : Encodable (str keyword)) {value : Str}
    (encodable : Encodable value) : Encodable (fieldLine keyword value) :=
  (encodable_fieldLine named value).mpr encodable

theorem longer_redirectHead :
    (responseLines site 302).length < (redirectHead site location cookies).length := by
  have keyword : 0 < (fieldBytes [("Location", location)]).length := by
    have named : (str "Location").length = 8 := by decide
    simp only [fieldBytes, List.flatMap_cons, List.flatMap_nil, List.append_nil, fieldLine, toBytes,
      List.length_map, List.length_append, named]
    omega
  rw [redirectHead, List.length_append, List.length_append]
  omega

/-- An answer to an error behind the first lines of a redirect makes no redirect of them. -/
theorem not_redirectHead {rest : List UInt8} {budget : Nat}
    (room : (responseLines site 302).length < budget) :
    [] ++ (responseLines site 302 ++ (ascii "HTTP/1.0 " ++ rest)).take budget ≠
      redirectHead site location cookies := by
  intro same
  have first := congrArg (fun bytes => bytes[(responseLines site 302).length]?) same
  have answer : (ascii "HTTP/1.0 " ++ rest)[0]? = some 72 := rfl
  have place : (fieldBytes [("Location", location)] ++
      (fieldBytes (cookies.map fun cookie => ("Set-Cookie", cookie)) ++
        (fieldBytes securityHeaders ++ ascii "\r\n")))[0]? = some 76 := by
    have named : toBytes (str "Location") = [76, 111, 99, 97, 116, 105, 111, 110] := by decide
    simp only [fieldBytes, List.flatMap_cons, fieldLine, toBytes_append, named, List.cons_append]
    rfl
  rw [List.nil_append, List.getElem?_take, if_pos room, List.getElem?_append_right (Nat.le_refl _),
    redirectHead, List.getElem?_append_right (Nat.le_refl _), Nat.sub_self, answer, place] at first
  cases first

/-- A redirect is sent whole when its location can be sent. -/
theorem run_redirect (plain : ∀ cookie ∈ cookies, Plain cookie) (encodable : Encodable location)
    {budget : Nat} (room : (redirectHead site location cookies).length ≤ budget) :
    run Connection.handler (redirect site location cookies) { budget := budget } =
      (.ok (), {
        budget := budget - (redirectHead site location cookies).length
        out := redirectHead site location cookies }) := by
  have collected : ∀ field ∈ redirectFields location cookies,
      Encodable (fieldLine field.1 field.2) := by
    have place : Encodable (str "Location") := by decide
    have setter : Encodable (str "Set-Cookie") := by decide
    intro field member
    rcases List.mem_cons.mp member with rfl | setting
    · exact encodable_named place encodable
    · obtain ⟨cookie, listed, rfl⟩ := List.mem_map.mp setting
      exact encodable_named setter (plain cookie listed).encodable
  have whole : responseLines site 302 ++ fieldBytes (redirectFields location cookies) ++
      fieldBytes securityHeaders ++ ascii "\r\n" = redirectHead site location cookies := by
    simp [redirectHead, redirectFields, fieldBytes]
  simp only [redirect, run_bind, run_sendResponse, run_sendHeaders collected,
    run_sendHeaders encodable_securityHeaders, run_endHeaders, List.nil_append, whole,
    Connection.send, if_pos room]

/-- Any other location ends the redirect before it. -/
theorem run_redirect_broken (broken : ¬ Encodable location) {budget : Nat} :
    run Connection.handler (redirect site location cookies) { budget := budget } =
      (.error (encodingError (fieldLine "Location" location)), {
        budget := budget
        buffer := responseLines site 302 }) := by
  have refused : ¬ Encodable (fieldLine "Location" location) :=
    fun encodable => broken ((encodable_fieldLine (by decide) location).mp encodable)
  have raises := @run_sendHeaders_raises [] "Location" location (by simp) refused
    (cookies.map fun cookie => ("Set-Cookie", cookie))
  rw [List.nil_append] at raises
  simp only [redirect, redirectFields, run_bind, run_sendResponse, raises]
  simp [fieldBytes]

end Sending

section Values

/-- All characters are Latin-1 and none is a line end, and what follows the first one, tabs left
out, is neither a slash nor a backslash. -/
def Contained (given : String) : Prop :=
  (∀ character ∈ given.toList, character.toNat < 256 ∧ character.toNat ≠ 10 ∧
    character.toNat ≠ 13) ∧
  ∀ second ∈ ((given.toList.drop 1).filter fun character => character.toNat ≠ 9).head?,
    second.toNat ≠ 47 ∧ second.toNat ≠ 92

theorem untabbed_str (characters : List Char) :
    untabbed (characters.map fun character => Fin.ofNat 1114112 character.toNat) =
      (characters.filter fun character => character.toNat ≠ 9).map
        fun character => Fin.ofNat 1114112 character.toNat := by
  rw [untabbed, List.filter_map]
  refine congrArg _ (List.filter_congr fun character _ => ?_)
  simp only [Function.comp_apply, val_ofNat]

/-- A text that begins with a slash is a place on the same host exactly if it is contained. -/
theorem sameOrigin_iff {given : String} (rooted : given.startsWith "/") :
    SameOrigin (str given) ↔ Contained given := by
  obtain ⟨rest, same⟩ := String.startsWith_string_iff.mp rooted
  have listed : given.toList = '/' :: rest := same.symm
  have slash : (Fin.ofNat 1114112 '/'.toNat : GuestFiles.CodePoint) = 47 := by decide
  have sendable : (∀ point ∈ str given, point.val < 256 ∧ point.val ≠ 10 ∧ point.val ≠ 13) ↔
      ∀ character ∈ given.toList, character.toNat < 256 ∧ character.toNat ≠ 10 ∧
        character.toNat ≠ 13 := by
    simp only [str, List.forall_mem_map, val_ofNat]
  have tabless : untabbed (str given) = 47 ::
      (rest.filter fun character => character.toNat ≠ 9).map
        fun character => Fin.ofNat 1114112 character.toNat := by
    rw [str, untabbed_str, listed, List.filter_cons_of_pos (by decide), List.map_cons, slash]
  constructor
  · intro sameOrigin
    refine ⟨sendable.mp sameOrigin.sendable, fun second member => ?_⟩
    obtain ⟨behind, split_text, safe⟩ := sameOrigin.rooted
    rw [tabless] at split_text
    obtain ⟨_, rfl⟩ := List.cons.inj split_text
    rw [listed, List.drop_one, List.tail_cons] at member
    have first := safe (Fin.ofNat 1114112 second.toNat) (by
      rw [List.head?_map]
      exact Option.mem_map_of_mem _ member)
    rw [val_ofNat] at first
    exact first
  · rintro ⟨characters, safe⟩
    refine ⟨sendable.mpr characters, _, tabless, fun point member => ?_⟩
    rw [List.head?_map] at member
    obtain ⟨second, first, rfl⟩ := Option.map_eq_some_iff.mp member
    rw [val_ofNat]
    refine safe second ?_
    rw [listed, List.drop_one, List.tail_cons]
    exact first

theorem sameOrigin_root : SameOrigin (str "/") := by
  rw [show str "/" = [47] by decide]
  refine ⟨fun point member => ?_, [], rfl, nofun⟩
  obtain rfl := List.mem_singleton.mp member
  decide

theorem sameOrigin_returnTo (given : String) :
    SameOrigin (str (returnTo given)) ↔ (Passes given → Contained given) := by
  unfold returnTo
  by_cases passes : Passes given
  · rw [if_pos passes, sameOrigin_iff passes.1]
    exact ⟨fun contained _ => contained, fun contained => contained passes⟩
  · rw [if_neg passes]
    exact ⟨fun _ passed => absurd passed passes, fun _ => sameOrigin_root⟩

end Values

section Answering

variable {Φ : Type} [Floating Φ] [LawfulFloating Φ] {site : Site} {signer : SignedToken}
  {otherwise : List UInt8 → Except Exn (Value Φ)} {now issued : Int}
  {exchange : Str → Str → Str → Except Exn TokenIdentity}
  {audit : TokenIdentity → Except Exn Unit} {minutes : Nat} {secure : Bool}
  {code state state_token session return_to : Str} {identity : TokenIdentity}
  {drawn nonce verifier given : String} {budget : Nat}

/-- The cookies that a finished login sets. -/
def loginCookies (session : Str) (minutes : Nat) (secure : Bool) : List Str :=
  [sessionCookie session minutes secure, clearedCookie]

theorem plain_loginCookies (signs : identityToken Φ signer now identity minutes = .ok session) :
    ∀ cookie ∈ loginCookies session minutes secure, Plain cookie := by
  intro cookie member
  simp only [loginCookies, List.mem_cons, List.not_mem_nil, or_false] at member
  rcases member with rfl | rfl
  · exact plain_sessionCookie (plain_encode signs) minutes secure
  · exact plain_clearedCookie

/-- A login that is finished, signed and recorded is answered with its redirect. -/
theorem run_callback (connection : Connection)
    (completes : completeLogin signer otherwise now exchange code state state_token =
      .ok (identity, return_to))
    (signs : identityToken Φ signer now identity minutes = .ok session)
    (audited : audit identity = .ok ()) :
    run Connection.handler (callback site signer otherwise now exchange audit minutes secure code
      state (some state_token)) connection =
      run Connection.handler (redirect site return_to (loginCookies session minutes secure))
        connection := by
  simp only [callback, run_bind, completes, raised_ok, run_pure, signs, audited]
  rfl

/-- The answer to a login that is finished redirects safely exactly if the text that was given
to its beginning does not pass as a local path, or is contained. -/
theorem redirectsSafely_callback_iff
    (begins : beginLogin Φ signer issued drawn nonce verifier given = .ok state_token)
    (completes : completeLogin signer otherwise now exchange code state state_token =
      .ok (identity, return_to))
    (signs : identityToken Φ signer now identity minutes = .ok session)
    (audited : audit identity = .ok ())
    (room : (redirectHead site return_to (loginCookies session minutes secure)).length ≤ budget) :
    RedirectsSafely site (loginCookies session minutes secure)
        (answerCallback site signer otherwise now exchange audit minutes secure code state
          (some state_token) budget) ↔
      (Passes given → Contained given) := by
  have plain : ∀ cookie ∈ loginCookies session minutes secure, Plain cookie :=
    plain_loginCookies signs
  rw [← sameOrigin_returnTo, ← completeLogin_returns begins completes, redirectsSafely_iff plain,
    answerCallback, run_serving, run_callback _ completes signs audited]
  by_cases encodable : Encodable return_to
  · rw [run_redirect plain encodable room]
    constructor
    · rintro ⟨location, sameOrigin, same⟩
      rw [redirectHead_injective encodable (fun point member =>
        (sameOrigin.sendable point member).1) same]
      exact sameOrigin
    · exact fun sameOrigin => ⟨return_to, sameOrigin, rfl⟩
  · obtain ⟨rest, answered⟩ := answerError_out site (encodingError (fieldLine "Location" return_to))
    rw [run_redirect_broken encodable]
    dsimp only
    rw [answered]
    constructor
    · rintro ⟨location, _, same⟩
      exact absurd same (not_redirectHead (Nat.lt_of_lt_of_le longer_redirectHead room))
    · exact fun sameOrigin => absurd (fun point member => (sameOrigin.sendable point member).1)
        encodable

end Answering

section Samples

/-- The provider knows Alice, and the sign-in is recorded. -/
def knowsAlice (_ _ _ : Str) : Except Exn TokenIdentity := .ok aliceTold

def recorded (_ : TokenIdentity) : Except Exn Unit := .ok ()

/-- A login with any text is finished, if it comes back with its state and a code. -/
theorem login_finishes (given : String) : ∃ state_token session,
    beginLogin Constant keeper 0 "s1" "n1" "v1" given = .ok state_token ∧
    completeLogin keeper unread 0 knowsAlice (str "c1") (str "s1") state_token =
      .ok (aliceTold, str (returnTo given)) ∧
    identityToken Constant keeper 0 aliceTold 60 = .ok session := by
  have timed : (Value.dict (loginPayload 0 "s1" "n1" "v1" given) : Value Constant).fits = true :=
    rfl
  obtain ⟨state_token, begins⟩ := encode_fits keeper timed
  have fits : (Value.dict (carrying "session" 0 3600 aliceTold) : Value Constant).fits = true :=
    fits_carrying (by decide) (by decide)
  obtain ⟨session, signs⟩ := encode_fits keeper fits
  refine ⟨state_token, session, begins, ?_, signs⟩
  exact completeLogin_begun knowsAlice begins (by decide) (by decide) (by decide) (by decide) rfl

/-- A line end, and a field behind it. -/
def hostile : String := "/\r\nSet-Cookie: x=1"

/-- A location with the line end is the root, and a cookie. -/
theorem redirectHead_hostile (site : Site) (cookies : List Str) :
    redirectHead site (str hostile) cookies =
      redirectHead site (str "/") (str "x=1" :: cookies) := by
  have line : toBytes (fieldLine "Location" (str hostile)) =
      toBytes (fieldLine "Location" (str "/")) ++ toBytes (fieldLine "Set-Cookie" (str "x=1")) := by
    decide
  simp only [redirectHead, fieldBytes, List.flatMap_cons, List.flatMap_nil, List.append_nil,
    List.map_cons, line, List.append_assoc]

/-- The answer sets a cookie that the portal does not mean to set. -/
theorem hostile_injects : ∃ state_token session head budget,
    beginLogin Constant keeper 0 "s1" "n1" "v1" hostile = .ok state_token ∧
    identityToken Constant keeper 0 aliceTold 60 = .ok session ∧
    answerCallback portalSite keeper unread 0 knowsAlice recorded 60 false (str "c1") (str "s1")
      (some state_token) budget = statusLine 302 ++ head ∧
    Head head ((intended portalSite (str "/") (str "x=1" :: loginCookies session 60 false)).map
      wireField) ∧
    ¬ RedirectsSafely portalSite (loginCookies session 60 false) (statusLine 302 ++ head) := by
  obtain ⟨state_token, session, begins, completes, signs⟩ := login_finishes hostile
  have plain : ∀ cookie ∈ loginCookies session 60 false, Plain cookie := plain_loginCookies signs
  have more : ∀ cookie ∈ str "x=1" :: loginCookies session 60 false, Plain cookie := by
    intro cookie member
    rcases List.mem_cons.mp member with rfl | other
    · exact plain_literal (by decide)
    · exact plain cookie other
  have target : returnTo hostile = hostile := if_pos ⟨by decide +kernel, by decide +kernel⟩
  have encodable : Encodable (str hostile) := by decide
  rw [target] at completes
  have read : Head (((intended portalSite (str "/") (str "x=1" ::
      loginCookies session 60 false)).map wireField).flatMap Field.line ++ [13, 10])
      ((intended portalSite (str "/") (str "x=1" :: loginCookies session 60 false)).map
        wireField) :=
    ⟨rfl, unbroken_intended more sameOrigin_root⟩
  refine ⟨state_token, session, _,
    (redirectHead portalSite (str hostile) (loginCookies session 60 false)).length, begins, signs,
    ?_, read, ?_⟩
  · rw [answerCallback, run_serving, run_callback _ completes signs rfl,
      run_redirect plain encodable (Nat.le_refl _), ← redirectHead_lines]
    exact redirectHead_hostile portalSite _
  · rintro ⟨location, head, _, same, again⟩
    obtain rfl := List.append_cancel_left same
    have lengths := congrArg List.length (read.unique again)
    simp [intended, redirectFields] at lengths

/-- A path of the portal is where the login returns to. -/
theorem redirects_home : ∃ state_token session budget,
    beginLogin Constant keeper 0 "s1" "n1" "v1" "/restores" = .ok state_token ∧
    RedirectsSafely portalSite (loginCookies session 60 false)
      (answerCallback portalSite keeper unread 0 knowsAlice recorded 60 false (str "c1") (str "s1")
        (some state_token) budget) := by
  obtain ⟨state_token, session, begins, completes, signs⟩ := login_finishes "/restores"
  refine ⟨state_token, session, (redirectHead portalSite (str (returnTo "/restores"))
    (loginCookies session 60 false)).length, begins, (redirectsSafely_callback_iff begins completes
    signs rfl (Nat.le_refl _)).mpr fun _ => ⟨fun character member => ?_, fun second member => ?_⟩⟩
  · have all : "/restores".toList.all (fun character => character.toNat < 256 ∧
        character.toNat ≠ 10 ∧ character.toNat ≠ 13) = true := by decide
    exact of_decide_eq_true (List.all_eq_true.mp all character member)
  · have first : (("/restores".toList.drop 1).filter fun character => character.toNat ≠ 9).head? =
        some 'r' := by decide
    obtain rfl : 'r' = second := Option.some.inj (first.symm.trans member)
    decide

end Samples

end Immutavault.LoginRedirects
