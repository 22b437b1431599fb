import Immutavault.DROrchestrator
import Immutavault.Histories

/-!
# Health probes

A health check sends a ping, opens a connection, or asks for a page, and reports whether
that went well. Errors of three classes become a result that is not good; any other leaves
the check, and the evaluation of the primary site with it.

The libraries are taken as they are documented. A ping that hangs is stopped with an error
of its own class, and so is a reply that is not HTTP. A page with a status outside of the
two hundreds is an error of the operating system's class, also when it is the status that
was expected; what is read from a file or from the address itself has no status at all.

An evaluation is recorded when none of its probes leaves it, and only then.
-/

namespace Immutavault.HealthProbes

open Programs Values Timestamps Catalog Machine Configuration Histories StateDatabase
open RestoreEngine ResticRepository DROrchestrator

/-- The final response to a request: its status, when it has one, and the reason. -/
structure Response where
  status : Option Nat
  reason : String := ""

/-- What the libraries meet when a check is made: whether a command is installed, a ping with
its time limit, a connection and a request. -/
structure Network where
  installed : String → Bool := fun _ => true
  ping : List String → Nat → Except Exn CommandResult
  connect : String → Nat → Nat → Except Exn Unit
  respond : String → Nat → Except Exn Response

section Probes

variable (net : Network) (check : HealthCheckConfig)

def typeText : CheckType → String
  | .tcp => "tcp"
  | .http => "http"
  | .https => "https"
  | .icmp => "icmp"

/-- The status of a response. Statuses of HTTP outside of the two hundreds raise. -/
def urlopen (url : String) (timeout : Nat) : Except Exn (Option Nat) :=
  match net.respond url timeout with
  | .error error => .error error
  | .ok response =>
    match response.status with
    | none => .ok none
    | some code =>
      if 200 ≤ code ∧ code < 300 then .ok (some code)
      else .error ⟨.osError, s!"HTTP Error {code}: {response.reason}"⟩

/-- The host of a check, when there is one. -/
def hostOf : Option String := check.host.filter (· ≠ "")

/-- The port of a check, when there is one. -/
def portOf : Option Nat := check.port.filter (· ≠ 0)

def pingArgv (host : String) : List String :=
  ["ping", "-c", "1", "-W", toString check.timeout_seconds, host]

def probeUrl : String :=
  let host := check.host.getD "None"
  let port := (portOf check).getD (if check.type = .https then 443 else 80)
  (check.url.filter (· ≠ "")).getD s!"{typeText check.type}://{host}:{port}/"

/-- The last characters of a text. -/
def lastCharacters (count : Nat) (text : String) : String :=
  String.ofList (text.toList.drop (text.length - count))

/-- What the check does, before errors are caught. -/
def attemptCheck : Except Exn ProbeResult :=
  match check.type with
  | .icmp =>
    match hostOf check with
    | none => .error ⟨.valueError, "icmp health check requires host"⟩
    | some host =>
      if net.installed "ping" = false then
        .error ⟨.runtimeError, "ping command is not installed"⟩
      else
        match net.ping (pingArgv check host) (check.timeout_seconds + 2) with
        | .error error => .error error
        | .ok result =>
          let shown := stripped result.stderr
          .ok ⟨result.returncode = 0, [("type", .str "icmp"), ("target", .str host), ("detail",
            .str (if shown = "" then lastCharacters 200 (stripped result.stdout) else shown))]⟩
  | .tcp =>
    match hostOf check, portOf check with
    | some host, some port =>
      match net.connect host port check.timeout_seconds with
      | .error error => .error error
      | .ok _ => .ok ⟨true, [("type", .str "tcp"), ("target", .str s!"{host}:{port}")]⟩
    | _, _ => .error ⟨.valueError, "tcp health check requires host and port"⟩
  | .http | .https =>
    match urlopen net (probeUrl check) check.timeout_seconds with
    | .error error => .error error
    | .ok none => .error ⟨.otherError, "int() argument must be a string, a bytes-like object " ++
        "or a real number, not 'NoneType'"⟩
    | .ok (some code) => .ok ⟨code = check.expected_status, [("type", .str (typeText check.type)),
        ("target", .str (probeUrl check)), ("status", .int code)]⟩

/-- The classes of errors that become a result. -/
def caught (kind : ErrorKind) : Bool :=
  kind.isOSError || kind = .runtimeError || kind = .valueError

def runHealthCheck : Except Exn ProbeResult :=
  match attemptCheck net check with
  | .ok result => .ok result
  | .error exc =>
    if caught exc.kind then
      .ok ⟨false, [("type", .str (typeText check.type)),
        ("target", match check.url.filter (· ≠ "") with
          | some url => .str url
          | none =>
            match check.host with
            | some host => .str host
            | none => .null),
        ("error", .str exc.message)]⟩
    else .error exc

/-- The ping exited with zero, the connection was opened, or the final status is the one that
is expected. -/
def Succeeded : Prop :=
  match check.type with
  | .icmp => ∃ host result, hostOf check = some host ∧ net.installed "ping" = true ∧
      net.ping (pingArgv check host) (check.timeout_seconds + 2) = .ok result ∧
        result.returncode = 0
  | .tcp => ∃ host port, hostOf check = some host ∧ portOf check = some port ∧
      net.connect host port check.timeout_seconds = .ok ()
  | .http | .https => ∃ response, net.respond (probeUrl check) check.timeout_seconds =
      .ok response ∧ response.status = some check.expected_status

/-- The library raises nothing but what is caught, and a response has a status. -/
def Contained : Prop :=
  match check.type with
  | .icmp => ∀ host error, hostOf check = some host → net.installed "ping" = true →
      net.ping (pingArgv check host) (check.timeout_seconds + 2) = .error error →
        caught error.kind = true
  | .tcp => ∀ host port error, hostOf check = some host → portOf check = some port →
      net.connect host port check.timeout_seconds = .error error → caught error.kind = true
  | .http | .https =>
    (∀ error, net.respond (probeUrl check) check.timeout_seconds = .error error →
      caught error.kind = true) ∧
    ∀ response, net.respond (probeUrl check) check.timeout_seconds = .ok response →
      response.status ≠ none

/-- A check for a page. -/
def AsksPage : Prop := check.type = .http ∨ check.type = .https

/-- A status that is expected and met is one of the two hundreds. -/
def Expectable : Prop :=
  AsksPage check → ∀ response,
    net.respond (probeUrl check) check.timeout_seconds = .ok response →
      response.status = some check.expected_status →
        200 ≤ check.expected_status ∧ check.expected_status < 300

/-- A check returns a result, which is good exactly when the check succeeded. -/
def Exact : Prop :=
  ∃ result, runHealthCheck net check = .ok result ∧ (result.ok = true ↔ Succeeded net check)

variable {net check}

/-- A check returns a result exactly when its attempt raises nothing but what is caught. -/
theorem runHealthCheck_returns : (∃ result, runHealthCheck net check = .ok result) ↔
    ∀ error, attemptCheck net check = .error error → caught error.kind = true := by
  unfold runHealthCheck
  cases attemptCheck net check with
  | ok result => exact iff_of_true ⟨result, rfl⟩ fun _ impossible => by cases impossible
  | error exc =>
    dsimp only
    split
    · rename_i handled
      refine iff_of_true ⟨_, rfl⟩ fun error same => ?_
      cases same
      exact handled
    · rename_i unhandled
      refine iff_of_false ?_ fun all => unhandled (all exc rfl)
      rintro ⟨_, impossible⟩
      cases impossible

/-- The result of a check is good exactly when its attempt has a good result. -/
theorem runHealthCheck_ok {result : ProbeResult} (ran : runHealthCheck net check = .ok result) :
    result.ok = true ↔ ∃ good, attemptCheck net check = .ok good ∧ good.ok = true := by
  unfold runHealthCheck at ran
  cases attempted : attemptCheck net check with
  | ok good =>
    rw [attempted] at ran
    cases ran
    constructor
    · exact fun ok => ⟨_, rfl, ok⟩
    · rintro ⟨_, same, ok⟩
      cases same
      exact ok
  | error exc =>
    rw [attempted] at ran
    dsimp only at ran
    split at ran
    · cases ran
      refine iff_of_false (by simp) ?_
      rintro ⟨_, impossible, _⟩
      cases impossible
    · cases ran

/-- Asking for a page raises nothing but what is caught exactly when the library does so. -/
theorem urlopen_error_iff {url : String} {timeout : Nat} :
    (∀ error, urlopen net url timeout = .error error → caught error.kind = true) ↔
      ∀ error, net.respond url timeout = .error error → caught error.kind = true := by
  unfold urlopen
  cases net.respond url timeout with
  | error error =>
    constructor <;> rintro all _ ⟨⟩ <;> exact all _ rfl
  | ok response =>
    refine iff_of_true (fun error failed => ?_) fun error impossible => by cases impossible
    dsimp only at failed
    split at failed
    · cases failed
    · split at failed
      · cases failed
      · cases failed
        rfl

/-- A page has no status exactly when its response has none. -/
theorem urlopen_none_iff {url : String} {timeout : Nat} : urlopen net url timeout = .ok none ↔
    ∃ response, net.respond url timeout = .ok response ∧ response.status = none := by
  unfold urlopen
  cases net.respond url timeout with
  | error error => simp
  | ok response =>
    dsimp only
    cases status : response.status with
    | none => simp [status]
    | some code =>
      dsimp only
      split <;> simp [status]

/-- A page has a status exactly when its response has it and it is one of the two hundreds. -/
theorem urlopen_some_iff {url : String} {timeout code : Nat} :
    urlopen net url timeout = .ok (some code) ↔ (∃ response, net.respond url timeout =
      .ok response ∧ response.status = some code) ∧ 200 ≤ code ∧ code < 300 := by
  unfold urlopen
  cases net.respond url timeout with
  | error error => simp
  | ok response =>
    dsimp only
    cases status : response.status with
    | none => simp [status]
    | some found =>
      dsimp only
      split
      · rename_i within
        constructor
        · intro same
          cases same
          exact ⟨⟨response, rfl, status⟩, within⟩
        · rintro ⟨⟨_, same, found⟩, _⟩
          cases same
          rw [status] at found
          cases found
          rfl
      · rename_i outside
        refine iff_of_false (by simp) ?_
        rintro ⟨⟨_, same, found⟩, within⟩
        cases same
        rw [status] at found
        cases found
        exact outside within

/-- What a ping comes to, when it is sent. -/
theorem attempt_icmp (kind : check.type = .icmp) {host : String} (named : hostOf check = some host)
    (installed : net.installed "ping" = true) :
    attemptCheck net check =
      match net.ping (pingArgv check host) (check.timeout_seconds + 2) with
      | .error error => .error error
      | .ok result => .ok ⟨result.returncode = 0, [("type", .str "icmp"), ("target", .str host),
          ("detail", .str (if stripped result.stderr = "" then
            lastCharacters 200 (stripped result.stdout) else stripped result.stderr))]⟩ := by
  rw [attemptCheck, kind]
  dsimp only
  rw [named]
  dsimp only
  rw [if_neg (by simp [installed])]

/-- A ping that is not sent is an error that is caught. -/
theorem attempt_icmp_unsent (kind : check.type = .icmp)
    (unsent : ¬ ∃ host, hostOf check = some host ∧ net.installed "ping" = true) :
    ∃ error, attemptCheck net check = .error error ∧ caught error.kind = true := by
  rw [attemptCheck, kind]
  dsimp only
  split
  · exact ⟨_, rfl, rfl⟩
  · rename_i host named
    split
    · exact ⟨_, rfl, rfl⟩
    · rename_i present
      exact absurd ⟨host, named, by simpa using present⟩ unsent

/-- What a connection comes to, when it is opened. -/
theorem attempt_tcp (kind : check.type = .tcp) {host : String} {port : Nat}
    (named : hostOf check = some host) (numbered : portOf check = some port) :
    attemptCheck net check =
      match net.connect host port check.timeout_seconds with
      | .error error => .error error
      | .ok _ => .ok ⟨true, [("type", .str "tcp"), ("target", .str s!"{host}:{port}")]⟩ := by
  rw [attemptCheck, kind]
  dsimp only
  rw [named, numbered]

/-- A connection that is not opened is an error that is caught. -/
theorem attempt_tcp_unopened (kind : check.type = .tcp)
    (unopened : ¬ ∃ host port, hostOf check = some host ∧ portOf check = some port) :
    ∃ error, attemptCheck net check = .error error ∧ caught error.kind = true := by
  rw [attemptCheck, kind]
  dsimp only
  split
  · rename_i host port named numbered
    exact absurd ⟨host, port, named, numbered⟩ unopened
  · exact ⟨_, rfl, rfl⟩

/-- What asking for a page comes to. -/
theorem attempt_page (kind : AsksPage check) :
    attemptCheck net check =
      match urlopen net (probeUrl check) check.timeout_seconds with
      | .error error => .error error
      | .ok none => .error ⟨.otherError, "int() argument must be a string, a bytes-like object " ++
          "or a real number, not 'NoneType'"⟩
      | .ok (some code) => .ok ⟨code = check.expected_status,
          [("type", .str (typeText check.type)), ("target", .str (probeUrl check)),
            ("status", .int code)]⟩ := by
  rw [attemptCheck]
  rcases kind with kind | kind <;> rw [kind]

theorem attempt_page_contained (kind : AsksPage check) :
    (∀ error, attemptCheck net check = .error error → caught error.kind = true) ↔
      (∀ error, net.respond (probeUrl check) check.timeout_seconds = .error error →
        caught error.kind = true) ∧
      ∀ response, net.respond (probeUrl check) check.timeout_seconds = .ok response →
        response.status ≠ none := by
  rw [attempt_page kind, ← urlopen_error_iff]
  have statusless := @urlopen_none_iff net (probeUrl check) check.timeout_seconds
  cases opened : urlopen net (probeUrl check) check.timeout_seconds with
  | error error =>
    rw [opened] at statusless
    have some_status : ∀ response, net.respond (probeUrl check) check.timeout_seconds =
        .ok response → response.status ≠ none := fun response answered none => by
      cases statusless.mpr ⟨response, answered, none⟩
    rw [and_iff_left some_status]
    constructor <;> rintro all _ ⟨⟩ <;> exact all _ rfl
  | ok status =>
    rw [opened] at statusless
    cases status with
    | none =>
      obtain ⟨response, answered, none⟩ := statusless.mp rfl
      refine iff_of_false (fun all => ?_) fun both => both.2 response answered none
      have handled := all _ rfl
      cases handled
    | some code =>
      have raising : ∀ error : Exn, (Except.ok (some code) : Except Exn (Option Nat)) =
          .error error → caught error.kind = true := fun _ impossible => by cases impossible
      refine iff_of_true (fun _ impossible => by cases impossible) ⟨raising, ?_⟩
      intro response answered none
      cases statusless.mpr ⟨response, answered, none⟩

/-- An attempt raises nothing but what is caught exactly when the library does so and a
response has a status. -/
theorem attempt_contained :
    (∀ error, attemptCheck net check = .error error → caught error.kind = true) ↔
      Contained net check := by
  cases kind : check.type with
  | icmp =>
    rw [Contained, kind]
    by_cases sent : ∃ host, hostOf check = some host ∧ net.installed "ping" = true
    · obtain ⟨host, named, installed⟩ := sent
      rw [attempt_icmp kind named installed]
      constructor
      · rintro all other error same _ failed
        cases named.symm.trans same
        rw [failed] at all
        exact all error rfl
      · intro all error same
        split at same
        · rename_i failed
          cases same
          exact all host error named installed failed
        · cases same
    · obtain ⟨error, failed, handled⟩ := attempt_icmp_unsent kind sent
      rw [failed]
      refine iff_of_true (fun _ same => by cases same; exact handled) ?_
      exact fun host _ named installed => absurd ⟨host, named, installed⟩ sent
  | tcp =>
    rw [Contained, kind]
    by_cases opened : ∃ host port, hostOf check = some host ∧ portOf check = some port
    · obtain ⟨host, port, named, numbered⟩ := opened
      rw [attempt_tcp kind named numbered]
      constructor
      · rintro all other _ error same also failed
        cases named.symm.trans same
        cases numbered.symm.trans also
        rw [failed] at all
        exact all error rfl
      · intro all error same
        split at same
        · rename_i failed
          cases same
          exact all host port error named numbered failed
        · cases same
    · obtain ⟨error, failed, handled⟩ := attempt_tcp_unopened kind opened
      rw [failed]
      refine iff_of_true (fun _ same => by cases same; exact handled) ?_
      exact fun host port _ named numbered => absurd ⟨host, port, named, numbered⟩ opened
  | http =>
    rw [Contained, kind]
    exact attempt_page_contained (Or.inl kind)
  | https =>
    rw [Contained, kind]
    exact attempt_page_contained (Or.inr kind)

/-- The status that a check for a page expects is one of the two hundreds. -/
def Ordinary (check : HealthCheckConfig) : Prop :=
  AsksPage check → 200 ≤ check.expected_status ∧ check.expected_status < 300

theorem attempt_page_good (kind : AsksPage check) :
    (∃ good, attemptCheck net check = .ok good ∧ good.ok = true) ↔
      (∃ response, net.respond (probeUrl check) check.timeout_seconds = .ok response ∧
        response.status = some check.expected_status) ∧
      200 ≤ check.expected_status ∧ check.expected_status < 300 := by
  rw [attempt_page kind, ← urlopen_some_iff]
  cases urlopen net (probeUrl check) check.timeout_seconds with
  | error error => simp
  | ok status =>
    cases status with
    | none => simp
    | some code => simp

/-- An attempt has a good result exactly when the check succeeded and, for a page, expected a
status of the two hundreds. -/
theorem attempt_good : (∃ good, attemptCheck net check = .ok good ∧ good.ok = true) ↔
    Succeeded net check ∧ Ordinary check := by
  have ordinary (other : ¬ AsksPage check) : Ordinary check := fun asks => absurd asks other
  cases kind : check.type with
  | icmp =>
    rw [and_iff_left (ordinary (by simp [AsksPage, kind])), Succeeded, kind]
    by_cases sent : ∃ host, hostOf check = some host ∧ net.installed "ping" = true
    · obtain ⟨host, named, installed⟩ := sent
      rw [attempt_icmp kind named installed]
      cases answer : net.ping (pingArgv check host) (check.timeout_seconds + 2) with
      | error error =>
        refine iff_of_false (by simp) ?_
        rintro ⟨other, result, same, _, answered, _⟩
        cases named.symm.trans same
        cases answer.symm.trans answered
      | ok result =>
        constructor
        · rintro ⟨good, same, ok⟩
          cases same
          exact ⟨host, result, named, installed, answer, by simpa using ok⟩
        · rintro ⟨other, result, same, _, answered, zero⟩
          cases named.symm.trans same
          cases answer.symm.trans answered
          exact ⟨_, rfl, by simpa using zero⟩
    · obtain ⟨error, failed, _⟩ := attempt_icmp_unsent kind sent
      rw [failed]
      refine iff_of_false (by simp) ?_
      rintro ⟨host, _, named, installed, _⟩
      exact sent ⟨host, named, installed⟩
  | tcp =>
    rw [and_iff_left (ordinary (by simp [AsksPage, kind])), Succeeded, kind]
    by_cases opened : ∃ host port, hostOf check = some host ∧ portOf check = some port
    · obtain ⟨host, port, named, numbered⟩ := opened
      rw [attempt_tcp kind named numbered]
      cases answer : net.connect host port check.timeout_seconds with
      | error error =>
        refine iff_of_false (by simp) ?_
        rintro ⟨_, _, same, also, answered⟩
        cases named.symm.trans same
        cases numbered.symm.trans also
        cases answer.symm.trans answered
      | ok _ => exact iff_of_true ⟨_, rfl, rfl⟩ ⟨host, port, named, numbered, answer⟩
    · obtain ⟨error, failed, _⟩ := attempt_tcp_unopened kind opened
      rw [failed]
      refine iff_of_false (by simp) ?_
      rintro ⟨host, port, named, numbered, _⟩
      exact opened ⟨host, port, named, numbered⟩
  | http =>
    rw [attempt_page_good (Or.inl kind), Succeeded, kind, Ordinary,
      forall_prop_of_true (show AsksPage check from Or.inl kind)]
  | https =>
    rw [attempt_page_good (Or.inr kind), Succeeded, kind, Ordinary,
      forall_prop_of_true (show AsksPage check from Or.inr kind)]

/-- A check that expects and meets a status expects one of the two hundreds, exactly when it is
one of those whenever it succeeded. -/
theorem expectable_iff : Expectable net check ↔ (Succeeded net check → Ordinary check) := by
  by_cases asks : AsksPage check
  · have succeeded : Succeeded net check ↔ ∃ response,
        net.respond (probeUrl check) check.timeout_seconds = .ok response ∧
          response.status = some check.expected_status := by
      rcases asks with kind | kind <;> rw [Succeeded, kind]
    rw [Expectable, Ordinary, succeeded, forall_prop_of_true asks, forall_prop_of_true asks]
    constructor
    · rintro all ⟨response, answered, status⟩
      exact all response answered status
    · exact fun all response answered status => all ⟨response, answered, status⟩
  · exact iff_of_true (fun also => absurd also asks) fun _ also => absurd also asks

/-- A check is exact exactly when the library raises nothing but what is caught, a response has
a status, and a status that is expected and met is one of the two hundreds. -/
theorem exact_iff : Exact net check ↔ Contained net check ∧ Expectable net check := by
  rw [← attempt_contained, ← runHealthCheck_returns, expectable_iff]
  constructor
  · rintro ⟨result, ran, exactly⟩
    refine ⟨⟨result, ran⟩, fun succeeded => ?_⟩
    exact (attempt_good.mp ((runHealthCheck_ok ran).mp (exactly.mpr succeeded))).2
  · rintro ⟨⟨result, ran⟩, ordinary⟩
    refine ⟨result, ran, (runHealthCheck_ok ran).trans (attempt_good.trans ?_)⟩
    exact and_iff_left_of_imp ordinary

end Probes

section Rounds

variable (engine : Engine)

/-- A watch up to its evaluation: an outcome when none is due. -/
def round : Prog (Option Watch) := do
  ensureEnabled engine
  let maintenance : Bool ← request (.pathExists engine.cfg.dr.maintenance_file)
  if maintenance then return some .maintenance
  else
    let previous ← getDrHealth "primary-site"
    match ← waitingTime engine previous with
    | some (seconds, health) => return some (.notDue seconds health)
    | none => return none

/-- What a watch does with an evaluation. -/
def react (state : HealthRow) : Prog Watch := do
  if state.healthy ∨ state.consecutive_failures < engine.cfg.dr.failure_threshold ∨
      ¬ engine.cfg.dr.auto_failover then
    return .observed state
  else
    let active ← alreadyFailedOver
    if active then return .alreadyFailedOver state
    else
      let promotion ← promote engine true false true
      return .promoted state promotion

/-- A watch evaluates the primary site when it is due. -/
theorem watch_eq : watch engine = round engine >>= fun outcome =>
    match outcome with
    | some outcome => pure outcome
    | none => evaluatePrimary engine >>= react engine := by
  simp only [watch, round, bind_assoc]
  refine congrArg _ (funext fun _ => congrArg _ (funext fun maintenance => ?_))
  split
  · rfl
  · simp only [bind_assoc]
    refine congrArg _ (funext fun previous => congrArg _ (funext fun waiting => ?_))
    split <;> rfl

variable {engine} {env : Environment} {world after : World}

/-- The failures in a row that follow on a recorded row. -/
def failuresAfter (previous : Option HealthRow) (healthy : Bool) : Nat :=
  if healthy then 0 else (previous.map (·.consecutive_failures + 1)).getD 1

/-- Recording an evaluation does not fail. The time it answers is read after the row was
written. -/
theorem run_updateDrHealth (name : String) (healthy : Bool) (detail : Dict) (world : World) :
    ∃ (row : HealthRow) (read : Timestamp) (after : World),
      run env.handler (updateDrHealth name healthy detail) world =
        (.ok { row with checked_at := read }, after) ∧
      row.healthy = healthy ∧ row.detail = detail ∧
      row.consecutive_failures = failuresAfter (world.db.health.lookup name) healthy ∧
      world.clock ≤ row.checked_at ∧ row.checked_at ≤ read ∧ read ≤ after.clock ∧
      after.db = { world.db with health := world.db.health.store name row } ∧
      Since world [⟨.transact (.upsertHealth name row), .ok ()⟩] after := by
  let selected := (env.handler (.transact (.selectHealth name)) world).2
  let timed := (env.handler .utcnow selected).2
  let row : HealthRow := ⟨selected.clock, healthy,
    failuresAfter (world.db.health.lookup name) healthy, detail⟩
  let written := (env.handler (.transact (.upsertHealth name row)) timed).2
  have since : Since timed [⟨.transact (.upsertHealth name row), .ok ()⟩] written :=
    (Since.refl timed).exchange _
  have before : world.log <+: timed.log :=
    (List.prefix_append world.log _).trans (List.prefix_append selected.log _)
  refine ⟨row, written.clock, (env.handler .utcnow written).2, rfl, rfl, rfl, rfl,
    Nat.le_add_right _ _, ?_, Nat.le_add_right _ _, rfl,
    (since.earlier before).grown (List.prefix_append written.log _)⟩
  exact (Nat.le_add_right _ _).trans (Nat.le_add_right timed.clock _)

/-- What an evaluation has recorded, given the results of its probes and the state in which
they returned. -/
structure Evaluated (engine : Engine) (world : World) (results : List ProbeResult)
    (returned : World) (row : HealthRow) (after : World) : Prop where
  stored : after.db = { world.db with health := world.db.health.store "primary-site" row }
  recorded : Since world [⟨.transact (.upsertHealth "primary-site" row), .ok ()⟩] after
  healthy : row.healthy =
    decide (results.countP (fun item => ¬ item.ok) < failureQuorum engine results)
  failures : row.consecutive_failures =
    failuresAfter (world.db.health.lookup "primary-site") row.healthy
  failed : Dict.get? row.detail "failed_probes" =
    some (.int (results.countP fun item => ¬ item.ok))
  late : returned.clock ≤ row.checked_at
  early : row.checked_at ≤ after.clock

/-- An evaluation whose probes return records their results, and answers what it recorded but
for the time. -/
theorem evaluated_of_probeAll {results : List ProbeResult} {probed : World}
    (ran : run env.handler (probeAll engine.cfg.dr.primary_probes) world = (.ok results, probed)) :
    ∃ row read after,
      run env.handler (evaluatePrimary engine) world =
        (.ok { row with checked_at := read }, after) ∧
      Evaluated engine world results probed row after := by
  have kept : probed.db = world.db := db_ran (footprint_probeAll _) (by simp) ran
  let report : HealthReport := { ok := results.all (·.ok), checks := results }
  let failed := results.countP fun item => ¬ item.ok
  let required := failureQuorum engine results
  let detail : Dict := report.toDict ++ [("failed_probes", .int failed),
    ("failure_quorum", .int required), ("site_healthy", .bool (failed < required))]
  obtain ⟨row, read, after, recorded, healthy, detailed, failures, late, early, ended, stored,
    since⟩ := @run_updateDrHealth env "primary-site" (failed < required) detail probed
  refine ⟨row, read, after, ?_, ?_⟩
  · rw [evaluatePrimary, runHealthChecks, bind_assoc, run_bind, ran]
    exact recorded
  · exact {
      stored := by rw [stored, kept]
      recorded := since.earlier (log_ran ran)
      healthy := healthy
      failures := by rw [failures, kept, healthy]
      failed := by rw [detailed]; rfl
      late := late
      early := early.trans ended }

end Rounds

section Recording

/-- Whether a command makes a health check. -/
def isProbe : Command → Bool
  | .request (.healthCheck _) => true
  | _ => false

/-- How many health checks were made. -/
def probed (log : History) : Nat := log.countP fun exchange => isProbe exchange.1

/-- A world in which health checks are made by the program, over one network after another. -/
def probing (base : Environment) (network : Nat → Network) : Environment where
  answer := fun log external =>
    match external with
    | .healthCheck check => runHealthCheck (network (probed log)) check
    | external => base.answer log external
  elapsed := base.elapsed

/-- The probes of the primary site, each with the number of its network. -/
def entries (engine : Engine) (world : World) : List (HealthCheckConfig × Nat) :=
  engine.cfg.dr.primary_probes.zipIdx (probed world.log)

/-- An evaluation is recorded in which every probe that did not succeed has failed, and the
failed ones are counted. -/
def Recorded (engine : Engine) (network : Nat → Network) (world after : World) : Prop :=
  ∃ (results : List ProbeResult) (row : HealthRow),
    List.Forall₂ (fun entry result => ¬ Succeeded (network entry.2) entry.1 → result.ok = false)
      (entries engine world) results ∧
    row.healthy = decide (results.countP (fun item => ¬ item.ok) < failureQuorum engine results) ∧
    Dict.get? row.detail "failed_probes" = some (.int (results.countP fun item => ¬ item.ok)) ∧
    Since world [⟨.transact (.upsertHealth "primary-site" row), .ok ()⟩] after

variable {engine : Engine} {base : Environment} {network : Nat → Network} {world after : World}

/-- Probes that return have the results of their checks, in turn. -/
theorem probeAll_ran {checks : List HealthCheckConfig} {results : List ProbeResult}
    (ran : run (probing base network).handler (probeAll checks) world = (.ok results, after)) :
    List.Forall₂ (fun entry result => runHealthCheck (network entry.2) entry.1 = .ok result)
      (checks.zipIdx (probed world.log)) results := by
  induction checks generalizing world results with
  | nil =>
    cases ran
    exact List.Forall₂.nil
  | cons check rest inductionHypothesis =>
    obtain ⟨result, answered, others⟩ := run_request_bind ran
    obtain ⟨later, middle, also, ended⟩ := (run_bind_eq_ok _).mp others
    cases ended
    have counted : probed ((probing base network).handler (.request (.healthCheck check))
        world).2.log = probed world.log + 1 := by
      simp [probed, Environment.handler, isProbe, List.countP_append]
    have following := inductionHypothesis also
    rw [counted] at following
    rw [List.zipIdx_cons]
    exact List.Forall₂.cons answered following

/-- Probes all of which return a result return. -/
theorem probeAll_returns {checks : List HealthCheckConfig}
    (returns : ∀ entry ∈ checks.zipIdx (probed world.log),
      ∃ result, runHealthCheck (network entry.2) entry.1 = .ok result) :
    ∃ results after,
      run (probing base network).handler (probeAll checks) world = (.ok results, after) := by
  induction checks generalizing world with
  | nil => exact ⟨_, _, rfl⟩
  | cons check rest inductionHypothesis =>
    rw [List.zipIdx_cons] at returns
    obtain ⟨result, answered⟩ := returns _ List.mem_cons_self
    let asked := ((probing base network).handler (.request (.healthCheck check)) world).2
    have counted : probed asked.log = probed world.log + 1 := by
      simp [asked, probed, Environment.handler, isProbe, List.countP_append]
    obtain ⟨results, after, ran⟩ := @inductionHypothesis asked (by
      rw [counted]
      exact fun entry member => returns entry (List.mem_cons_of_mem _ member))
    refine ⟨result :: results, after, ?_⟩
    have replied : run (probing base network).handler (request (.healthCheck check)) world =
        (.ok result, asked) :=
      (run_perform (probing base network).handler (Command.request (.healthCheck check))
        world).trans (Prod.ext answered rfl)
    rw [probeAll, run_bind, replied]
    dsimp only
    rw [run_bind, ran]
    rfl

/-- A probe returns a result exactly when the library raises nothing but what is caught and a
response has a status. -/
theorem returns_iff {net : Network} {check : HealthCheckConfig} :
    (∃ result, runHealthCheck net check = .ok result) ↔ Contained net check :=
  runHealthCheck_returns.trans attempt_contained

/-- A probe that did not succeed has no good result. -/
theorem failed_of_unsuccessful {net : Network} {check : HealthCheckConfig} {result : ProbeResult}
    (ran : runHealthCheck net check = .ok result) (unsuccessful : ¬ Succeeded net check) :
    result.ok = false := by
  by_contra good
  have ok : result.ok = true := by simpa using good
  exact unsuccessful (attempt_good.mp ((runHealthCheck_ok ran).mp ok)).1

/-- A due watch goes on with the evaluation. -/
theorem run_watch {middle : World} (due : run base.handler (round engine) world =
    (.ok none, middle)) : run base.handler (watch engine) world =
      run base.handler (evaluatePrimary engine >>= react engine) middle := by
  rw [watch_eq, run_bind, due]

/-- An evaluation whose probes raise does nothing else. -/
theorem evaluatePrimary_raises {error : Exn} (ran : run base.handler
    (probeAll engine.cfg.dr.primary_probes) world = (.error error, after)) :
    run base.handler (evaluatePrimary engine) world = (.error error, after) := by
  rw [evaluatePrimary, runHealthChecks, bind_assoc, run_bind, ran]

/-- A check returns a result, good exactly when the check succeeded, just when the library
raises nothing but what is caught, a response has a status, and a status that is expected and
met is one of the two hundreds. A due watch records an evaluation, in which every probe that
did not succeed has failed, exactly when the first two hold of every probe of the site. -/
theorem probes_exact (net : Network) (check : HealthCheckConfig) :
    (Exact net check ↔ Contained net check ∧ Expectable net check) ∧
      ∀ (engine : Engine) (base : Environment) (network : Nat → Network) (world middle : World),
        run (probing base network).handler (round engine) world = (.ok none, middle) →
          (Recorded engine network middle
              (run (probing base network).handler (watch engine) world).2 ↔
            ∀ entry ∈ entries engine middle, Contained (network entry.2) entry.1) := by
  refine ⟨exact_iff, fun engine base network world middle due => ?_⟩
  rw [run_watch due]
  constructor
  · rintro ⟨results, row, _, _, _, since⟩ entry member
    rcases ran : run (probing base network).handler (probeAll engine.cfg.dr.primary_probes)
      middle with ⟨outcome, probed⟩
    cases outcome with
    | ok results =>
      have paired : List.Forall₂ (fun entry result => Contained (network entry.2) entry.1 ∧
          runHealthCheck (network entry.2) entry.1 = .ok result) (entries engine middle) results :=
        (probeAll_ran ran).imp fun entry result returned =>
          ⟨returns_iff.mp ⟨result, returned⟩, returned⟩
      exact ((List.forall₂_and_left _ _).mp paired).1 entry member
    | error error =>
      rw [run_bind, evaluatePrimary_raises ran] at since
      have outside := since.issues_ran (footprint_probeAll _) ran
      simp [Command.effect, writes] at outside
  · intro contained
    obtain ⟨results, probed, ran⟩ := probeAll_returns fun entry member =>
      returns_iff.mpr (contained entry member)
    obtain ⟨row, read, after, evaluated, recorded⟩ := evaluated_of_probeAll ran
    refine ⟨results, row, ?_, recorded.healthy, recorded.failed, ?_⟩
    · exact (probeAll_ran ran).imp fun entry result returned => failed_of_unsuccessful returned
    · rw [run_bind, evaluated]
      exact recorded.recorded.run _

/-- A world without maintenance, in which requests succeed. -/
def attentive : Environment where
  answer := fun _ external =>
    match external with
    | .pathExists _ => .ok false
    | external => .ok (Environment.favourable external)
  elapsed := fun _ _ => 1

/-- A network in which pings hang, connections are opened and no page is found. -/
def hanging : Network where
  ping := fun _ _ => .error ⟨.timeoutExpired, "Command 'ping' timed out"⟩
  connect := fun _ _ _ => .ok ()
  respond := fun _ _ => .ok ⟨some 404, "Not Found"⟩

/-- An engine that evaluates the primary site with one check. -/
def evaluating (check : HealthCheckConfig) : Engine :=
  { recovery with cfg := { recovery.cfg with
      dr := { recovery.cfg.dr with primary_probes := [check] } } }

def pinged : HealthCheckConfig := { type := .icmp, host := some "gw" }

def connected : HealthCheckConfig := { host := some "gw", port := some 22 }

def missing : HealthCheckConfig := { type := .http, host := some "gw", expected_status := 404 }

/-- A connection that is opened is recorded. -/
theorem probes_exact_connected : Exact hanging connected ∧ Recorded (evaluating connected)
    (fun _ => hanging)
    (run (probing attentive fun _ => hanging).handler (round (evaluating connected))
      { db := {}, clock := 0 }).2
    (run (probing attentive fun _ => hanging).handler (watch (evaluating connected))
      { db := {}, clock := 0 }).2 := by
  have contained : Contained hanging connected := fun _ _ _ _ _ impossible => by cases impossible
  obtain ⟨exactly, recorded⟩ := probes_exact hanging connected
  refine ⟨exactly.mpr ⟨contained, fun asks => ?_⟩, ?_⟩
  · rcases asks with impossible | impossible <;> cases impossible
  · refine (recorded _ _ _ _ _ rfl).mpr fun entry member => ?_
    obtain rfl := List.mem_singleton.mp member
    exact contained

/-- A ping that hangs leaves the check, and a page that is expected not to be found is not met.
The watch that hangs records nothing. -/
theorem probes_escape : ¬ Exact hanging pinged ∧ ¬ Exact hanging missing ∧
    (run (probing attentive fun _ => hanging).handler (watch (evaluating pinged))
      { db := {}, clock := 0 }).1 = .error ⟨.timeoutExpired, "Command 'ping' timed out"⟩ ∧
    (run (probing attentive fun _ => hanging).handler (watch (evaluating pinged))
      { db := {}, clock := 0 }).2.db.health.lookup "primary-site" = none := by
  refine ⟨?_, ?_, rfl, rfl⟩
  · rintro ⟨result, returned, _⟩
    cases returned
  · rintro ⟨result, returned, exactly⟩
    cases returned
    have good := exactly.mpr ⟨⟨some 404, "Not Found"⟩, rfl, rfl⟩
    cases good

end Recording

end Immutavault.HealthProbes
