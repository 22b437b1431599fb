import Immutavault.OidcLogins

/-!
# What a signed-in identity rests on

Browsers begin logins and come back from the provider in any order, and the portal serves them
at the same time, with one announcement of the provider and one set of keys kept for all. The
provider, the clock and the external program may answer anything at any time, and any request
may fail.

A thread keeps only an announcement that it fetched where the configuration says and that names
the configured issuer, and only keys that it fetched where an announcement says. So whatever a
thread finds kept has been fetched so by some thread, over every interleaving, and what one
thread needs for an identity is put together from what all of them did. The one assumption is
about presented texts: nobody else makes digests that fit.
-/

namespace Immutavault.GroundedLogins

open Programs Interleavings Values JsonTexts SignedTokens TokenRoundTrips ClaimMapping OidcLogins
open GuestFiles (Str str)
open LoginRedirects (returnTo decode_beginLogin)

variable {ι Φ : Type} [Floating Φ] (client : LoginClient Φ)

section Facts

variable (history : List (ι × Exchange (logins Φ) Exn))

omit [Floating Φ] in
/-- A thread got an answer to a command. -/
def Answered (thread : ι) (command : LoginCommand Φ) (answer : LoginCommand.Answer Φ command) :
    Prop :=
  (thread, (⟨command, .ok answer⟩ : Exchange (logins Φ) Exn)) ∈ history

/-- A thread fetched a value over a secure connection, and the provider meant it as an answer. -/
def Fetched (thread : ι) (request : Request) (value : Value Φ) : Prop :=
  https.isPrefixOf request.url = true ∧ ∃ response,
    Answered history thread (.urlopen request) response ∧
    200 ≤ response.status ∧ response.status < 300 ∧
    loadsBytes client.otherwise (response.body.take maxAnswerBytes) = .ok value ∧
    isDict value = true

/-- The provider announced this of itself, where it is configured, and it is sound. -/
def Announced (metadata : Value Φ) : Prop :=
  (∃ thread, Fetched client history thread ⟨discoveryUrl client, none, []⟩ metadata) ∧
    checkMetadata client metadata = .ok ()

/-- Keys were fetched where an announcement says. -/
def Published (jwks : Value Φ) : Prop :=
  ∃ thread metadata uri, Announced client history metadata ∧
    metadata.subscript (str "jwks_uri") = .ok uri ∧
    Fetched client history thread ⟨uri.toText, none, []⟩ jwks

variable (thread : ι)

/-- A code was redeemed for an identity token, with a verifier. -/
def Redeemed (code verifier id_token : Str) : Prop :=
  ∃ metadata endpoint secret data answer, Announced client history metadata ∧
    metadata.subscript (str "token_endpoint") = .ok endpoint ∧
    formBytes (tokenForm client code verifier ++ secret) = .ok data ∧
    Fetched client history thread ⟨endpoint.toText, some data,
      [("Content-Type", "application/x-www-form-urlencoded")]⟩ answer ∧
    fieldOr answer "id_token" [] = .ok id_token ∧ id_token ≠ []

/-- The external program verified the signature of a token under a published key. -/
def Verified (id_token : Str) (claims : Value Φ) : Prop :=
  ∃ parts kid jwks jwk input pem stdout, readToken client id_token = .ok parts ∧
    parts.claims = claims ∧ keyName parts.header = .ok kid ∧ Published client history jwks ∧
    findKey kid jwks = .ok (some jwk) ∧ encoded parts.signing_input = .ok input ∧
    publicKeyPem jwk = .ok pem ∧
    Answered history thread (.dgst pem parts.signature input) (0, stdout) ∧
    verifiedOk <:+: stdout

/-- The claims are for this portal and this login, and they hold at a time. -/
structure Fitting (now : Int) (nonce : Str) (claims : Value Φ) : Prop where
  audience : ∃ audiences, audiencesOf claims = .ok audiences ∧
    str client.cfg.client_id ∈ audiences
  unexpired : ∃ value exp, claims.field (str "exp") (.int 0) = .ok value ∧
    value.toInt = .ok exp ∧ now - skew ≤ exp
  active : ∃ value nbf, claims.field (str "nbf") (.int 0) = .ok value ∧
    (value.orElse (.int 0)).toInt = .ok nbf ∧ nbf ≤ now + skew
  nonce : fieldOr claims "nonce" [] = .ok nonce
  tenant : ∃ tenant_id, fieldOr claims "tid" [] = .ok tenant_id ∧
    (client.cfg.allowed_tenant_ids ≠ [] → tenant_id ∈ client.cfg.allowed_tenant_ids.map str)

/-- The claims are the provider's own, and fitting when they are examined. -/
def Meant (nonce : Str) (claims : Value Φ) : Prop :=
  ∃ time metadata own issuer, Answered history thread .time time ∧
    Announced client history metadata ∧ metadata.subscript (str "issuer") = .ok own ∧
    fieldOr claims "iss" [] = .ok issuer ∧ slashless issuer = slashless own.toText ∧
    Fitting client (truncated time) nonce claims

end Facts

section Checking

variable {client}

/-- Claims that pass the checks are fitting. -/
theorem fitting_of_checkClaims {now : Int} {nonce : Str} {claims : Value Φ} {done : Unit}
    (checked : checkClaims client now nonce claims = .ok done) :
    Fitting client now nonce claims := by
  unfold checkClaims at checked
  obtain ⟨audiences, listed, checked⟩ := bind_eq_ok.mp checked
  obtain ⟨_, audience, checked⟩ := bind_eq_ok.mp checked
  obtain ⟨value, expires, checked⟩ := bind_eq_ok.mp checked
  obtain ⟨exp, expiry, checked⟩ := bind_eq_ok.mp checked
  obtain ⟨_, unexpired, checked⟩ := bind_eq_ok.mp checked
  obtain ⟨start, begins, checked⟩ := bind_eq_ok.mp checked
  obtain ⟨nbf, beginning, checked⟩ := bind_eq_ok.mp checked
  obtain ⟨_, active, checked⟩ := bind_eq_ok.mp checked
  obtain ⟨given, said, checked⟩ := bind_eq_ok.mp checked
  obtain ⟨same, compared, checked⟩ := bind_eq_ok.mp checked
  obtain ⟨_, equal, checked⟩ := bind_eq_ok.mp checked
  obtain ⟨tenant_id, tenant, checked⟩ := bind_eq_ok.mp checked
  have own : given = nonce := by
    unfold compareDigest at compared
    split at compared
    · obtain rfl := Except.ok.inj compared
      simpa using forbid_eq_ok.mp equal
    · cases compared
  constructor
  · exact ⟨audiences, listed, not_not.mp (forbid_eq_ok.mp audience)⟩
  · exact ⟨value, exp, expires, expiry, not_lt.mp (forbid_eq_ok.mp unexpired)⟩
  · exact ⟨start, nbf, begins, beginning, not_lt.mp (forbid_eq_ok.mp active)⟩
  · exact own ▸ said
  · refine ⟨tenant_id, tenant, fun restricted => ?_⟩
    by_contra foreign
    exact forbid_eq_ok.mp checked ⟨restricted, foreign⟩

end Checking

section Handed

/-- A login, with the texts that were drawn for it. -/
structure Login where
  issued : Int
  state : String
  nonce : String
  verifier : String
  given : String

/-- A signed state is the one that the portal handed out for a login. -/
def Login.HandedOut (login : Login) (state_token : Str) : Prop :=
  LoginRedirects.beginLogin Φ client.signer login.issued login.state login.nonce login.verifier
    login.given = .ok state_token

variable {client} [LawfulFloating Φ]

/-- A saved state that is accepted is that of a login that was begun at most ten minutes ago. -/
theorem savedState_handed {now : Int} {state state_token : Str} {saved : Value Φ}
    (authentic : Authentic Φ client.signer state_token)
    (accepted : savedState client now state state_token = .ok saved) :
    ∃ login : Login, login.HandedOut client state_token ∧ now ≤ login.issued + 600 ∧
      state = str login.state ∧ state ≠ [] ∧
      saved.subscript (str "verifier") = .ok (.text (str login.verifier)) ∧
      saved.subscript (str "nonce") = .ok (.text (str login.nonce)) ∧
      fieldOr saved "return_to" (str "/") = .ok (str (returnTo login.given)) := by
  unfold savedState at accepted
  obtain ⟨value, decoded, accepted⟩ := bind_eq_ok.mp accepted
  obtain ⟨expected, saved_state, accepted⟩ := bind_eq_ok.mp accepted
  obtain ⟨same, compared, accepted⟩ := bind_eq_ok.mp accepted
  obtain ⟨_, equal, done⟩ := bind_eq_ok.mp accepted
  obtain rfl : value = saved := Except.ok.inj done
  obtain rfl : same = true := not_not.mp (forbid_eq_ok.mp equal)
  obtain ⟨fields, handed, encodes, rfl, clean, typed⟩ := handed_of_decode authentic decoded
  cases handed with
  | session => cases typed
  | ticket => cases typed
  | login issued drawn nonce verifier given =>
    have unexpired := (decode_beginLogin client.otherwise now encodes).2.symm.trans decoded
    have recent : now ≤ issued + 600 := by
      by_contra late
      rw [if_pos (by omega)] at unexpired
      cases unexpired
    have shown : ∀ key text, Value.get? (loginPayload issued drawn nonce verifier given :
        List (Str × Value Φ)) (str key) = some (.text text) → ∀ default,
          (arranged (.dict (loginPayload issued drawn nonce verifier given)) : Value Φ).field
            (str key) default = .ok (.text text) := by
      intro key text found default
      rw [field_arranged clean, found]
      rfl
    have behind : ∀ key text, Value.get? (loginPayload issued drawn nonce verifier given :
        List (Str × Value Φ)) (str key) = some (.text text) →
          (arranged (.dict (loginPayload issued drawn nonce verifier given)) : Value Φ).subscript
            (str key) = .ok (.text text) := by
      intro key text found
      rw [arranged, Value.subscript, get?_arranged clean, found]
      rfl
    rw [fieldOr_text (shown "state" (str drawn) rfl), orText_nil] at saved_state
    obtain rfl := Except.ok.inj saved_state
    have returns : fieldOr (arranged (.dict (loginPayload issued drawn nonce verifier given)) :
        Value Φ) "return_to" (str "/") = .ok (str (returnTo given)) := by
      rw [fieldOr_text (shown "return_to" (str (returnTo given)) rfl), orText,
        if_neg (LoginRedirects.returnTo_filled given)]
    cases state with
    | nil => cases compared
    | cons first rest =>
      have own : first :: rest = str drawn := by
        unfold compareDigest at compared
        split at compared
        · exact of_decide_eq_true (Except.ok.inj compared)
        · cases compared
      exact ⟨⟨issued, drawn, nonce, verifier, given⟩, encodes, recent, own, List.cons_ne_nil _ _,
        behind "verifier" _ rfl, behind "nonce" _ rfl, returns⟩

end Handed

section Judging

variable (history : List (ι × Exchange (logins Φ) Exn)) (visits : ι → Visit)

/-- What an identity is signed in for: a login that the portal began not long ago and that comes
back with its own state; a code that was redeemed with its verifier, for a token whose signature
was verified under a published key; and claims that are fitting, with the nonce of the login. -/
def Grounded (thread : ι) (visit : Visit) (identity : TokenIdentity) (return_to : Str) : Prop :=
  ∃ (code state state_token : Str) (login : Login) (time : ℚ) (id_token : Str) (claims : Value Φ),
    visit = .callback code state state_token ∧ code ≠ [] ∧
    login.HandedOut client state_token ∧ state = str login.state ∧ state ≠ [] ∧
    Answered history thread .time time ∧ truncated time ≤ login.issued + 600 ∧
    Redeemed client history thread code (str login.verifier) id_token ∧
    Verified client history thread id_token claims ∧
    Meant client history thread (str login.nonce) claims ∧
    client.identityFromClaims client.order claims = .ok identity ∧
    return_to = str (returnTo login.given)

/-- In a history, threads keep only what was fetched where it should be, and find only such
things kept. An identity is signed in only for a grounded login. -/
def trusting : Monitor (logins Φ) Exn ι where
  permits := fun thread command =>
    match command with
    | .keepMetadata metadata => Announced client history metadata
    | .keepJwks jwks => Published client history jwks
    | .signIn identity return_to =>
      Grounded client history thread (visits thread) identity return_to
    | _ => True
  possible := fun thread command answer =>
    (thread, (⟨command, answer⟩ : Exchange (logins Φ) Exn)) ∈ history ∧
      match command, answer with
      | .metadata, .ok metadata => isNull metadata = true ∨ Announced client history metadata
      | .jwks, .ok jwks => isNull jwks = true ∨ Published client history jwks
      | _, _ => True
  next := fun thread _ _ => thread

variable {α β : Type}

/-- A program of a thread is as the monitor demands, and what it returns is a fact. -/
def Learns (thread : ι) (program : Prog Φ α) (fact : α → Prop) : Prop :=
  wp (trusting client history visits) program
    (fun outcome final => final = thread ∧ ∀ value, outcome = .ok value → fact value) thread

variable {client history visits} {thread : ι} {fact : α → Prop} {goal : β → Prop}

theorem learns_pure {value : α} (holds : fact value) :
    Learns client history visits thread (pure value) fact :=
  wp_pure ⟨rfl, fun _ same => Except.ok.inj same ▸ holds⟩

theorem learns_throw (error : Exn) :
    Learns client history visits thread (throw error : Prog Φ α) fact := wp_throw ⟨rfl, nofun⟩

theorem learns_bind {program : Prog Φ α} {next : α → Prog Φ β}
    (first : Learns client history visits thread program fact)
    (rest : ∀ value, fact value → Learns client history visits thread (next value) goal) :
    Learns client history visits thread (program >>= next) goal := by
  refine wp_bind (wp_mono first ?_)
  rintro outcome final ⟨rfl, learnt⟩
  cases outcome with
  | ok value => exact rest value (learnt value rfl)
  | error error => exact ⟨rfl, nofun⟩

/-- A pure computation gives its own value. -/
theorem learns_raised (value : Except Exn α) :
    Learns client history visits thread (raised value) fun given => value = .ok given := by
  cases value with
  | ok given => exact learns_pure rfl
  | error error => exact learns_throw error

theorem learns_mono {program : Prog Φ α} {weaker : α → Prop}
    (learns : Learns client history visits thread program fact)
    (implies : ∀ value, fact value → weaker value) :
    Learns client history visits thread program weaker := by
  refine wp_mono learns ?_
  rintro outcome final ⟨same, learnt⟩
  exact ⟨same, fun value returned => implies value (learnt value returned)⟩

/-- A permitted command teaches its answer. -/
theorem learns_ask {command : LoginCommand Φ}
    (permitted : (trusting client history visits).permits thread command) :
    Learns client history visits thread (ask command) fun answer =>
      (trusting client history visits).possible thread command (.ok answer) := by
  refine wp_perform permitted fun answer possible => ⟨rfl, ?_⟩
  rintro value rfl
  exact possible

theorem learns_cond {program : Prog Φ Unit} (condition : Bool)
    (learns : Learns client history visits thread program fun _ => True) :
    Learns client history visits thread (cond condition program (pure ())) fun _ => True := by
  cases condition with
  | true => exact learns
  | false => exact learns_pure trivial

end Judging

section Provider

variable {client} {history : List (ι × Exchange (logins Φ) Exn)} {visits : ι → Visit} {thread : ι}

theorem learns_time : Learns client history visits thread time fun now =>
    Answered history thread .time now :=
  learns_mono (learns_ask trivial) fun _ possible => possible.1

theorem learns_fetchJson (request : Request) :
    Learns client history visits thread (fetchJson client request)
      (Fetched client history thread request) := by
  refine learns_bind (learns_raised _) fun _ secure => ?_
  refine learns_bind (learns_ask trivial) fun response answered => ?_
  refine learns_bind (learns_raised _) fun _ status => ?_
  refine learns_bind (learns_raised _) fun value read => ?_
  refine learns_bind (learns_raised _) fun _ dict => ?_
  obtain ⟨least, most⟩ := not_or.mp (forbid_eq_ok.mp status)
  apply learns_pure
  exact ⟨not_not.mp (forbid_eq_ok.mp secure), response, answered.1, not_lt.mp least,
    not_le.mp most, read, not_not.mp (forbid_eq_ok.mp dict)⟩

theorem learns_keptMetadata : Learns client history visits thread keptMetadata fun metadata =>
    isNull metadata = true ∨ Announced client history metadata :=
  learns_mono (learns_ask trivial) fun _ possible => possible.2

theorem learns_metadata : Learns client history visits thread (metadata client) fun metadata =>
    isNull metadata = true ∨ Announced client history metadata := by
  refine learns_bind learns_keptMetadata fun kept _ => ?_
  have discovers : Learns client history visits thread (discover client) fun _ => True := by
    refine learns_bind (learns_fetchJson _) fun metadata fetched => ?_
    refine learns_bind (learns_raised _) fun _ sound => ?_
    exact learns_mono (learns_ask ⟨⟨thread, fetched⟩, sound⟩) fun _ _ => trivial
  exact learns_bind (learns_cond _ discovers) fun _ _ => learns_keptMetadata

/-- Something that stands in the announcement of the provider. -/
theorem learns_subscript {β : Type} {goal : β → Prop} {next : Value Φ → Prog Φ β} (key : Str)
    (rest : ∀ metadata value, Announced client history metadata →
      metadata.subscript key = .ok value → Learns client history visits thread (next value) goal) :
    Learns client history visits thread (do
      let announced ← metadata client
      let value ← raised (announced.subscript key)
      next value) goal := by
  refine learns_bind learns_metadata fun metadata known => ?_
  refine learns_bind (learns_raised _) fun value named => ?_
  rcases known with null | announced
  · cases metadata with
    | null => cases named
    | _ => cases null
  · exact rest metadata value announced named

theorem learns_keptJwks : Learns client history visits thread keptJwks fun jwks =>
    isNull jwks = true ∨ Published client history jwks :=
  learns_mono (learns_ask trivial) fun _ possible => possible.2

/-- Keys are kept when they were fetched where the announcement says. -/
theorem learns_jwksValue (force : Bool) :
    Learns client history visits thread (jwksValue client force) fun jwks =>
      isNull jwks = true ∨ Published client history jwks := by
  have stale : Learns client history visits thread (cond force (pure true) staleJwks)
      fun _ => True := by
    cases force with
    | true => exact learns_pure trivial
    | false =>
      refine learns_bind learns_keptJwks fun kept _ => ?_
      split
      · exact learns_pure trivial
      · refine learns_bind learns_time fun now _ => ?_
        exact learns_bind (learns_ask trivial) fun loaded_at _ => learns_pure trivial
  have fetches : Learns client history visits thread (fetchJwks client) fun _ => True := by
    apply learns_subscript
    intro announced uri known named
    refine learns_bind (learns_fetchJson _) fun jwks fetched => ?_
    refine learns_bind (learns_ask ⟨thread, announced, uri, known, named, fetched⟩) fun _ _ => ?_
    refine learns_bind learns_time fun loaded_at _ => ?_
    exact learns_mono (learns_ask trivial) fun _ _ => trivial
  refine learns_bind stale fun old _ => ?_
  exact learns_bind (learns_cond old fetches) fun _ _ => learns_keptJwks

end Provider

section Tokens

variable {client} {history : List (ι × Exchange (logins Φ) Exn)} {visits : ι → Visit} {thread : ι}

/-- Keys among which one was found were published. -/
theorem published_of_found {jwks jwk : Value Φ} {kid : Str}
    (known : isNull jwks = true ∨ Published client history jwks)
    (found : findKey kid jwks = .ok (some jwk)) : Published client history jwks := by
  rcases known with null | published
  · cases jwks with
    | null => cases found
    | _ => cases null
  · exact published

theorem learns_signingKey (kid : Str) :
    Learns client history visits thread (signingKey client kid) fun jwk =>
      ∃ jwks, Published client history jwks ∧ findKey kid jwks = .ok (some jwk) := by
  refine learns_bind (learns_jwksValue false) fun jwks known => ?_
  refine learns_bind (learns_raised _) fun found first => ?_
  cases found with
  | some jwk => exact learns_pure ⟨jwks, published_of_found known first, first⟩
  | none =>
    refine learns_bind (learns_jwksValue true) fun refreshed known => ?_
    refine learns_bind (learns_raised _) fun found second => ?_
    cases found with
    | some jwk => exact learns_pure ⟨refreshed, published_of_found known second, second⟩
    | none => exact learns_throw _

theorem learns_verifyRs256 (signing_input : Str) (signature : List UInt8) (jwk : Value Φ) :
    Learns client history visits thread (verifyRs256 signing_input signature jwk) fun _ =>
      ∃ input pem stdout, encoded signing_input = .ok input ∧ publicKeyPem jwk = .ok pem ∧
        Answered history thread (.dgst pem signature input) (0, stdout) ∧
        verifiedOk <:+: stdout := by
  refine learns_bind (learns_raised _) fun input signing => ?_
  refine learns_bind (learns_raised _) fun pem armored => ?_
  refine learns_bind (learns_ask trivial) fun result answered => ?_
  obtain ⟨returncode, stdout⟩ := result
  refine learns_mono (learns_raised _) fun _ passed => ?_
  obtain ⟨zero, shown⟩ := not_or.mp (forbid_eq_ok.mp passed)
  obtain rfl : returncode = 0 := not_not.mp zero
  exact ⟨input, pem, stdout, signing, armored, answered.1, not_not.mp shown⟩

theorem learns_examineClaims (nonce : Str) (claims : Value Φ) :
    Learns client history visits thread (examineClaims client nonce claims) fun _ =>
      Meant client history thread nonce claims := by
  refine learns_bind learns_time fun time read => ?_
  refine learns_bind (learns_raised _) fun issuer said => ?_
  apply learns_subscript
  intro announced own known named
  refine learns_bind (learns_raised _) fun _ equal => ?_
  refine learns_mono (learns_raised _) fun _ checked => ?_
  exact ⟨time, announced, own, issuer, read, known, named, said,
    not_not.mp (forbid_eq_ok.mp equal), fitting_of_checkClaims checked⟩

theorem learns_validateIdToken (token nonce : Str) :
    Learns client history visits thread (validateIdToken client token nonce) fun claims =>
      Verified client history thread token claims ∧ Meant client history thread nonce claims := by
  refine learns_bind (learns_raised _) fun parts read => ?_
  refine learns_bind (learns_raised _) fun kid named => ?_
  refine learns_bind (learns_signingKey kid) fun jwk known => ?_
  obtain ⟨jwks, published, found⟩ := known
  refine learns_bind (learns_verifyRs256 _ _ _) fun _ verified => ?_
  obtain ⟨input, pem, stdout, signing, armored, answered, shown⟩ := verified
  refine learns_bind (learns_examineClaims nonce parts.claims) fun _ meant => ?_
  apply learns_pure
  exact ⟨⟨parts, kid, jwks, jwk, input, pem, stdout, read, rfl, named, published, found, signing,
    armored, answered, shown⟩, meant⟩

end Tokens

section Logins

variable {client} {history : List (ι × Exchange (logins Φ) Exn)} {visits : ι → Visit} {thread : ι}

theorem learns_redeem (code verifier : Str) :
    Learns client history visits thread (redeem client code verifier) fun id_token =>
      Redeemed client history thread code verifier id_token := by
  have secrets : Learns client history visits thread (clientSecret client) fun _ => True := by
    unfold clientSecret
    split
    · exact learns_pure trivial
    · exact learns_pure trivial
    · refine learns_bind (learns_ask trivial) fun secret _ => ?_
      exact learns_bind (learns_raised _) fun _ _ => learns_pure trivial
  refine learns_bind secrets fun secret _ => ?_
  apply learns_subscript
  intro announced endpoint known named
  refine learns_bind (learns_raised _) fun data form => ?_
  refine learns_bind (learns_fetchJson _) fun answer fetched => ?_
  refine learns_bind (learns_raised _) fun id_token given => ?_
  refine learns_bind (learns_raised _) fun _ filled => ?_
  apply learns_pure
  exact ⟨announced, endpoint, secret, data, answer, known, named, form, fetched, given,
    forbid_eq_ok.mp filled⟩

/-- A login that is finished grounds its identity, when nobody else makes digests that fit. -/
theorem learns_completeLogin [LawfulFloating Φ] {code state state_token : Str}
    (authentic : Authentic Φ client.signer state_token) :
    Learns client history visits thread (completeLogin client code state state_token)
      fun returned => Grounded client history thread (.callback code state state_token)
        returned.1 returned.2 := by
  refine learns_bind learns_time fun time read => ?_
  refine learns_bind (learns_raised _) fun saved known => ?_
  obtain ⟨login, handed, recent, own, filled, verifier_own, nonce_own, returning⟩ :=
    savedState_handed authentic known
  refine learns_bind (learns_raised _) fun _ coded => ?_
  refine learns_bind (learns_raised _) fun verifier drawn => ?_
  obtain rfl := Except.ok.inj (verifier_own.symm.trans drawn)
  refine learns_bind (learns_redeem code (str login.verifier)) fun id_token redeemed => ?_
  refine learns_bind (learns_raised _) fun nonce told => ?_
  obtain rfl := Except.ok.inj (nonce_own.symm.trans told)
  refine learns_bind (learns_validateIdToken id_token (str login.nonce)) fun claims validated => ?_
  refine learns_bind (learns_raised _) fun identity named => ?_
  refine learns_bind (learns_raised _) fun return_to returns => ?_
  obtain rfl := Except.ok.inj (returning.symm.trans returns)
  apply learns_pure
  exact ⟨code, state, state_token, login, time, id_token, claims, rfl, forbid_eq_ok.mp coded,
    handed, own, filled, read, recent, redeemed, validated.1, validated.2, named, rfl⟩

theorem learns_beginLogin (return_to : String) :
    Learns client history visits thread (beginLogin client return_to) fun _ => True := by
  refine learns_bind (learns_ask trivial) fun verifier _ => ?_
  refine learns_bind (learns_raised _) fun challenge _ => ?_
  refine learns_bind (learns_ask trivial) fun state _ => ?_
  refine learns_bind (learns_ask trivial) fun nonce _ => ?_
  refine learns_bind learns_time fun now _ => ?_
  refine learns_bind (learns_raised _) fun state_token _ => ?_
  apply learns_subscript
  intro announced endpoint _ _
  exact learns_bind (learns_raised _) fun query _ => learns_pure trivial

/-- Every visit is served as the monitor demands. -/
theorem learns_serve [LawfulFloating Φ] (authentic : ∀ code state state_token,
    visits thread = .callback code state state_token → Authentic Φ client.signer state_token) :
    Learns client history visits thread (serve client (visits thread)) fun _ => True := by
  cases visit : visits thread with
  | login return_to =>
    refine learns_bind (learns_beginLogin return_to) fun sent _ => ?_
    exact learns_mono (learns_ask trivial) fun _ _ => trivial
  | callback code state state_token =>
    refine learns_bind (learns_completeLogin (authentic _ _ _ visit)) fun returned grounded => ?_
    rw [← visit] at grounded
    exact learns_mono (learns_ask grounded) fun _ _ => trivial

end Logins

section Runs

variable [DecidableEq ι]

/-- All visits, before anything was asked. -/
def arriving (visits : ι → Visit) : Pool (logins Φ) Exn ι (World Φ) :=
  Pool.start (fun thread => serve client (visits thread)) {}

variable {client} {history : List (ι × Exchange (logins Φ) Exn)} {visits : ι → Visit}

/-- What is kept was fetched where it should be. -/
structure Kept (client : LoginClient Φ) (history : List (ι × Exchange (logins Φ) Exn))
    (world : World Φ) : Prop where
  metadata : isNull world.metadata = true ∨ Announced client history world.metadata
  jwks : isNull world.jwks = true ∨ Published client history world.jwks

omit [DecidableEq ι] in
/-- One command that is permitted is answered as is possible, and keeps what is kept so. -/
theorem kept_step {host : Host Φ} {world : World Φ} {thread : ι} {command : LoginCommand Φ}
    (kept : Kept client history world)
    (permitted : (trusting client history visits).permits thread command)
    (happened : (thread, ⟨command, (host.handler command world).1⟩) ∈ history) :
    (trusting client history visits).possible thread command (host.handler command world).1 ∧
      Kept client history (host.handler command world).2 := by
  cases command with
  | metadata => exact ⟨⟨happened, kept.metadata⟩, kept.metadata, kept.jwks⟩
  | jwks => exact ⟨⟨happened, kept.jwks⟩, kept.metadata, kept.jwks⟩
  | keepMetadata given => exact ⟨⟨happened, trivial⟩, Or.inr permitted, kept.jwks⟩
  | keepJwks given => exact ⟨⟨happened, trivial⟩, kept.metadata, Or.inr permitted⟩
  | _ => exact ⟨⟨happened, trivial⟩, kept.metadata, kept.jwks⟩

end Runs

end Immutavault.GroundedLogins
