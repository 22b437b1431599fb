import Immutavault.PortalResponses

/-!
# Downloading a recovered file

The broker answers a download with one line and then the bytes of the file, read and
sent chunk by chunk. Whatever it raises after the line is answered like any error, on
the same stream. The portal reads as many bytes as the line announced and writes them
to its own client, whose response it has announced before; what it raises is answered
like any error, on the same connection.

A download can fail wherever the broker reads, wherever the stream between the two ends,
and wherever the client's connection breaks. The bytes of the file are those that the
broker would read if nothing failed.
-/

namespace Immutavault.FileDownloads

open Programs Values GuestFiles SessionOwnership BrokerMessages PortalResponses

section Broker

/-- Read a file chunk by chunk and send each chunk. A round of reading may raise; the
round after the last chunk finds the end of the file. -/
def streamFile (fails : Nat → Option Exn) : Nat → List (List UInt8) → List UInt8 × Option Exn
  | round, [] => ([], fails round)
  | round, chunk :: rest =>
    match fails round with
    | some error => ([], some error)
    | none =>
      let (further, outcome) := streamFile fails (round + 1) rest
      (chunk ++ further, outcome)

/-- What the broker sends for a download: a message, unless it was too long to be sent,
and what follows the message on the stream. -/
structure Reply where
  message : Option Wire
  body : List UInt8

/-- The line of an error, or nothing when it is too long. -/
def errorLine (error : Exn) : List UInt8 :=
  match jsonLine (errorPayload error) with
  | .ok line => line
  | .error _ => []

def errorReply (error : Exn) : Reply where
  message := (jsonLine (errorPayload error)).toOption.map fun _ => errorPayload error
  body := []

/-- What the broker tells about a file before its bytes. -/
def fileMessage (name : Str) (size : Nat) : Wire :=
  okPayload (.dict [(str "name", .text name), (str "size", .number size)])

/-- Answer a download: the file's name and size, then its bytes, and the line of
whatever is raised. -/
def handleDownload (opened : Except Exn (Str × Nat)) (fails : Nat → Option Exn)
    (chunks : List (List UInt8)) : Reply :=
  match opened with
  | .error error => errorReply error
  | .ok (name, size) =>
    match jsonLine (fileMessage name size) with
    | .error error => errorReply error
    | .ok _ =>
      match streamFile fails 0 chunks with
      | (bytes, none) => ⟨some (fileMessage name size), bytes⟩
      | (bytes, some error) => ⟨some (fileMessage name size), bytes ++ errorLine error⟩

end Broker

section Client

/-- Write what arrives until nothing remains. Reading yields nothing only at the end of
the stream. -/
def receive (chunk_size remaining : Nat) (stream : List UInt8) : Sending Unit :=
  if remaining = 0 then pure ()
  else
    let chunk := stream.take (min chunk_size remaining)
    if _ended : chunk = [] then raiseRuntimeError "FLR broker ended file stream early"
    else do
      write chunk
      receive chunk_size (remaining - chunk.length) (stream.drop chunk.length)
termination_by remaining
decreasing_by
  have progress : 0 < (stream.take (min chunk_size remaining)).length :=
    List.length_pos_iff.mpr (by assumption)
  omega

/-- The size that a message announces. -/
def announcedSize (message : Wire) : Option Nat :=
  match message.get? (str "result") with
  | some result =>
    match result.get? (str "size") with
    | some (.number size) => some size
    | _ => none
  | none => none

/-- Stream a file that was validated with a size. As many bytes of the reply's body
arrive as are given; nothing at all arrives of a reply that is cut off in its line. -/
def streamRemote (chunk_size size : Nat) (reply : Reply) (arrives : Option Nat) : Sending Unit :=
  match reply.message, arrives with
  | some message, some count =>
    match message.get? (str "ok") with
    | some (.bool true) =>
      if announcedSize message ≠ some size then
        raiseRuntimeError "FLR file changed between validation and streaming"
      else receive chunk_size size (reply.body.take count)
    | _ => throw (raiseRemote message)
  | _, _ => raiseRuntimeError "FLR broker closed the connection"

/-- A first chunk and what remains after it make up what is taken. -/
theorem take_chunk (stream : List UInt8) {count remaining : Nat} (within : count ≤ remaining) :
    stream.take remaining = stream.take count ++
      (stream.drop (stream.take count).length).take (remaining - (stream.take count).length) := by
  have shorter : (stream.take count).length ≤ remaining :=
    Nat.le_trans (List.length_take_le count stream) within
  have whole : (stream.take count).length + (remaining - (stream.take count).length) = remaining := by
    omega
  have first : stream.take (stream.take count).length = stream.take count :=
    (List.prefix_iff_eq_take.mp (List.take_prefix count stream)).symm
  rw [← congrArg (stream.take ·) whole, List.take_add, first]

/-- What is received is written as far as the connection takes it. Receiving succeeds
when all of it was there and was taken. -/
theorem run_receive {chunk_size : Nat} (positive : 0 < chunk_size) (remaining : Nat)
    (stream : List UInt8) (connection : Connection) :
    ∃ outcome, run Connection.handler (receive chunk_size remaining stream) connection =
        (outcome, { connection with
          budget := connection.budget - (stream.take remaining).length
          out := connection.out ++ (stream.take remaining).take connection.budget }) ∧
      (outcome = .ok () ↔ remaining ≤ stream.length ∧ remaining ≤ connection.budget) := by
  fun_induction receive chunk_size remaining stream generalizing connection with
  | case1 stream => exact ⟨.ok (), by simp, by simp⟩
  | case2 remaining stream more chunk ended =>
    have empty : stream = [] := by
      rcases List.take_eq_nil_iff.mp ended with none | empty
      · omega
      · exact empty
    subst empty
    refine ⟨.error ⟨.runtimeError, "FLR broker ended file stream early"⟩, by simp [raiseRuntimeError], ?_⟩
    simp
    omega
  | case3 remaining stream more chunk some_ inductionHypothesis =>
    have bounded : chunk.length ≤ remaining :=
      Nat.le_trans (List.length_take_le _ _) (Nat.min_le_right _ _)
    have parts : stream.take remaining =
        chunk ++ (stream.drop chunk.length).take (remaining - chunk.length) :=
      take_chunk stream (Nat.min_le_right chunk_size remaining)
    have shorter : chunk.length ≤ stream.length := List.length_take_le' _ _
    by_cases fits : chunk.length ≤ connection.budget
    · obtain ⟨outcome, ran, succeeds⟩ := inductionHypothesis
        { connection with budget := connection.budget - chunk.length, out := connection.out ++ chunk }
      refine ⟨outcome, ?_, ?_⟩
      · simp only [run_bind, run_write, Connection.send, if_pos fits, ran, parts, List.length_append,
          List.take_append, List.take_of_length_le fits, List.append_assoc, Nat.sub_sub]
      · rw [succeeds, List.length_drop]
        dsimp only
        omega
    · have cut : connection.budget - chunk.length = 0 := by omega
      refine ⟨.error ⟨.osError, "[Errno 32] Broken pipe"⟩, ?_, ?_⟩
      · simp only [run_bind, run_write, Connection.send, if_neg fits, parts, List.length_append,
          List.take_append, cut, List.take_zero, List.append_nil]
        have nothing : connection.budget - (chunk.length +
            ((stream.drop chunk.length).take (remaining - chunk.length)).length) = 0 := by omega
        rw [nothing]
      · simp
        omega

end Client

/-- One download of a file that was validated with a size: what opening it again gives,
its chunks and the rounds in which reading them raises, and how much of the reply
arrives. -/
structure Transfer where
  size : Nat
  opened : Except Exn (Str × Nat)
  chunks : List (List UInt8)
  fails : Nat → Option Exn := fun _ => none
  arrives : Option Nat
  chunk_size : Nat := 1024 * 1024

namespace Transfer

variable (transfer : Transfer)

/-- The bytes of the file. -/
def content : List UInt8 := transfer.chunks.flatten

def reply : Reply := handleDownload transfer.opened transfer.fails transfer.chunks

/-- The bytes that follow the line of the reply. -/
def body : List UInt8 := transfer.reply.body

def stream : Sending Unit :=
  streamRemote transfer.chunk_size transfer.size transfer.reply transfer.arrives

/-- How many bytes of the body arrive, when the broker opened the file again with the
size that was validated and its line arrives. -/
def accepted : Option Nat :=
  match transfer.opened, transfer.arrives with
  | .ok (name, size), some count =>
    if size = transfer.size ∧ (jsonLine (fileMessage name size)).isOk then some count else none
  | _, _ => none

end Transfer

section Streaming

/-- What was written is a part of the file from its start on, and all of it when
streaming succeeded. -/
def Faithful (content : List UInt8) (ran : Except Exn Unit × Connection) : Prop :=
  ran.2.out <+: content ∧ (ran.1 = .ok () → ran.2.out = content)

/-- The error of a request adds nothing to the response that has announced the file: to
as many bytes as it announced, or to its headers if these never ended. -/
def Clean (site : Site) (name : Str) (transfer : Transfer) (budget : Nat) : Prop :=
  let request := sendFile site name transfer.size transfer.stream
  let raised := (run Connection.handler request { budget := budget }).2
  let answered := (run Connection.handler (serving site request) { budget := budget }).2
  (if raised.buffer = [] then
    answered.out.take ((fileHead site name transfer.size).length + transfer.size)
  else answered.out) <+: raised.out ++ raised.buffer

/-- As far as they arrive and are taken, the bytes that the broker sends for an accepted
file are the file's own, and if as many are taken as were announced these are all. -/
def Streams (transfer : Transfer) (budget : Nat) : Prop :=
  ∀ count, transfer.accepted = some count →
    transfer.body.take (min budget (min transfer.size count)) <+: transfer.content ∧
      (transfer.size ≤ min (min count budget) transfer.body.length →
        transfer.size = transfer.content.length)

/-- Every byte of the announced file that the connection takes after the headers is sent
by the broker and arrives. A name that cannot be announced leaves the connection no byte
after the headers before it. -/
def Answers (site : Site) (name : Str) (transfer : Transfer) (budget : Nat) : Prop :=
  if Encodable name then
    min transfer.size (budget - (fileHead site name transfer.size).length) ≤
      min (transfer.accepted.getD 0) transfer.body.length
  else budget ≤ (fileStart site name transfer.size).length

variable {transfer : Transfer}

/-- The broker's line is read as it was written. -/
theorem announcedSize_fileMessage (name : Str) (size : Nat) :
    (fileMessage name size).get? (str "ok") = some (.bool true) ∧
      announcedSize (fileMessage name size) = some size := ⟨rfl, rfl⟩

/-- An error that is read is raised. -/
theorem run_errorReply (chunk_size size : Nat) (error : Exn) (arrives : Option Nat)
    (connection : Connection) : ∃ raised, run Connection.handler
      (streamRemote chunk_size size (errorReply error) arrives) connection =
        (.error raised, connection) := by
  have refused : (errorPayload error).get? (str "ok") = some (.bool false) := rfl
  unfold streamRemote errorReply
  cases (jsonLine (errorPayload error)).toOption with
  | none => exact ⟨_, rfl⟩
  | some line =>
    cases arrives with
    | none => exact ⟨_, rfl⟩
    | some count =>
      simp only [Option.map_some, refused]
      exact ⟨_, rfl⟩

/-- The reply to a file that the broker opened holds its line and its bytes. -/
theorem reply_opened {name : Str} {size : Nat} {line : List UInt8}
    (opened : transfer.opened = .ok (name, size))
    (fits : jsonLine (fileMessage name size) = .ok line) :
    transfer.reply.message = some (fileMessage name size) := by
  simp only [Transfer.reply, handleDownload, opened, fits]
  split <;> rfl

/-- An accepted file is received, and of any other nothing is written. -/
theorem run_stream (transfer : Transfer) (connection : Connection) :
    (∀ count, transfer.accepted = some count →
      run Connection.handler transfer.stream connection = run Connection.handler
        (receive transfer.chunk_size transfer.size (transfer.body.take count)) connection) ∧
    (transfer.accepted = none → ∃ error,
      run Connection.handler transfer.stream connection = (.error error, connection)) := by
  unfold Transfer.accepted Transfer.stream
  cases opened : transfer.opened with
  | error error =>
    refine ⟨fun _ impossible => (nomatch impossible), fun _ => ?_⟩
    have reply : transfer.reply = errorReply error := by
      simp only [Transfer.reply, handleDownload, opened]
    rw [reply]
    exact run_errorReply _ _ error _ connection
  | ok file =>
    obtain ⟨name, size⟩ := file
    cases fits : jsonLine (fileMessage name size) with
    | error error =>
      have reply : transfer.reply = errorReply error := by
        simp only [Transfer.reply, handleDownload, opened, fits]
      rw [reply]
      have long : (jsonLine (fileMessage name size)).isOk = false := by rw [fits]; rfl
      constructor
      · intro count
        cases transfer.arrives <;> simp [long]
      · exact fun _ => run_errorReply _ _ error _ connection
    | ok line =>
      have short : (jsonLine (fileMessage name size)).isOk = true := by rw [fits]; rfl
      have message := reply_opened opened fits
      obtain ⟨ok, announced⟩ := announcedSize_fileMessage name size
      cases arrives : transfer.arrives with
      | none =>
        refine ⟨fun _ impossible => (nomatch impossible), fun _ => ?_⟩
        simp only [streamRemote, message]
        exact ⟨_, rfl⟩
      | some count =>
        by_cases same : size = transfer.size
        · constructor
          · intro arriving accepted
            simp only [same, true_and] at accepted short
            rw [if_pos short] at accepted
            obtain rfl := Option.some.inj accepted
            subst same
            simp only [streamRemote, message, ok, announced, ne_eq, not_true_eq_false, if_false]
            rfl
          · intro impossible
            simp only [same, true_and] at impossible short
            rw [if_pos short] at impossible
            cases impossible
        · have changed : some size ≠ some transfer.size := fun equal => same (Option.some.inj equal)
          constructor
          · intro arriving impossible
            simp [same] at impossible
          · intro _
            simp only [streamRemote, message, ok, announced, ne_eq, changed, not_false_eq_true,
              if_true]
            exact ⟨_, rfl⟩

/-- The first elements of a list and another stay in the list if they are no more than
it has, or if there is nothing after it. -/
theorem take_append_prefix_iff (first second : List UInt8) (count : Nat) :
    (first ++ second).take count <+: first ↔ count ≤ first.length ∨ second = [] := by
  constructor
  · intro within
    have bounded := within.length_le
    rw [List.length_take, List.length_append] at bounded
    by_cases empty : second = []
    · exact Or.inr empty
    · have filled : 0 < second.length := List.length_pos_iff.mpr empty
      exact Or.inl (by omega)
  · rintro (within | rfl)
    · rw [List.take_append_of_le_length within]
      exact List.take_prefix _ _
    · rw [List.append_nil]
      exact List.take_prefix _ _

/-- Streaming to the portal's client. -/
theorem faithful_iff (positive : 0 < transfer.chunk_size) (budget : Nat) :
    Faithful transfer.content (run Connection.handler transfer.stream { budget := budget }) ↔
      Streams transfer budget := by
  obtain ⟨receives, refuses⟩ := run_stream transfer { budget := budget }
  unfold Streams
  cases accepted : transfer.accepted with
  | none =>
    obtain ⟨error, ran⟩ := refuses accepted
    rw [ran]
    exact ⟨fun _ _ impossible => (nomatch impossible), fun _ =>
      ⟨List.nil_prefix, fun impossible => (nomatch impossible)⟩⟩
  | some count =>
    obtain ⟨outcome, ran, succeeds⟩ := run_receive positive transfer.size
      (transfer.body.take count) { budget := budget }
    rw [receives count accepted, ran]
    simp only [Option.some.injEq, forall_eq', Faithful, List.nil_append, List.take_take,
      List.length_take] at succeeds ⊢
    refine and_congr_right fun within => ?_
    rw [succeeds]
    have ends : transfer.size ≤ min count transfer.body.length ∧ transfer.size ≤ budget ↔
        transfer.size ≤ min (min count budget) transfer.body.length := by omega
    rw [ends]
    refine forall_congr' fun complete => ?_
    have taken : (transfer.body.take (min budget (min transfer.size count))).length =
        transfer.size := by
      rw [List.length_take]
      omega
    constructor
    · intro whole
      rw [← whole, taken]
    · intro same
      exact within.eq_of_length (taken.trans same)

/-- What the handler of a request leaves on the connection. -/
theorem run_serving (site : Site) (request : Sending Unit) (connection : Connection) :
    run Connection.handler (serving site request) connection =
      match run Connection.handler request connection with
      | (.ok value, later) => (.ok value, later)
      | (.error error, later) => run Connection.handler (answerError site error) later := by
  rw [serving, run_tryCatch]
  cases run Connection.handler request connection with
  | mk outcome later => cases outcome <;> rfl

/-- An error of a stream stays out of the response if nothing of it is sent, or if as
many bytes were written as were announced. -/
theorem clean_streaming {site : Site} {head written : List UInt8} {size : Nat} {error : Exn}
    {later : Connection} (unbuffered : later.buffer = []) (sent : later.out = head ++ written) :
    ((run Connection.handler (answerError site error) later).2.out.take (head.length + size)) <+:
      later.out ++ later.buffer ↔ size ≤ written.length ∨ later.budget = 0 := by
  obtain ⟨bytes, answered⟩ := answerError_out site error
  have filled : ascii "HTTP/1.0 " ++ bytes ≠ [] := by simp [ascii]
  rw [answered, unbuffered, List.append_nil, List.nil_append, sent, take_append_prefix_iff,
    List.length_append, List.take_eq_nil_iff]
  constructor
  · rintro (enough | none | empty)
    · exact Or.inl (by omega)
    · exact Or.inr none
    · exact absurd empty filled
  · rintro (enough | none)
    · exact Or.inl (by omega)
    · exact Or.inr (Or.inl none)

/-- The portal's whole answer. -/
theorem clean_iff (site : Site) (name : Str) (positive : 0 < transfer.chunk_size) (budget : Nat) :
    Clean site name transfer budget ↔ Answers site name transfer budget := by
  unfold Clean Answers
  simp only [run_serving]
  by_cases encodable : Encodable name
  · rw [if_pos encodable, run_sendFile site encodable]
    by_cases fits : (fileHead site name transfer.size).length ≤ budget
    · simp only [Connection.send, List.nil_append, if_pos fits]
      generalize fileHead site name transfer.size = head at fits
      obtain ⟨receives, refuses⟩ :=
        run_stream transfer { budget := budget - head.length, out := head }
      cases accepted : transfer.accepted with
      | none =>
        obtain ⟨error, ran⟩ := refuses accepted
        simp only [ran, if_true]
        rw [clean_streaming rfl (List.append_nil head).symm]
        simp only [List.length_nil, Option.getD_none]
        omega
      | some count =>
        obtain ⟨outcome, ran, succeeds⟩ := run_receive positive transfer.size
          (transfer.body.take count) { budget := budget - head.length, out := head }
        simp only [receives count accepted, ran, List.length_take, Option.getD_some] at succeeds ⊢
        cases outcome with
        | ok value =>
          have complete := succeeds.mp rfl
          simp only [if_true, List.append_nil]
          exact ⟨fun _ => by omega, fun _ => List.take_prefix _ _⟩
        | error error =>
          have incomplete := mt succeeds.mpr (by simp)
          simp only [if_true]
          rw [clean_streaming rfl rfl]
          simp only [List.length_take]
          omega
    · simp only [Connection.send, List.nil_append, if_neg fits]
      obtain ⟨bytes, answered⟩ := answerError_out site
        ⟨.osError, "[Errno 32] Broken pipe"⟩
      have collected : responseLines site 200 ++ fieldBytes (fileHeaders site name transfer.size) ++
          fieldBytes securityHeaders ≠ [] := by
        simp [responseLines, statusLine, ascii]
      simp only [answered, List.take_zero, List.append_nil, if_neg collected]
      exact ⟨fun _ => by omega, fun _ => List.prefix_append _ _⟩
  · rw [if_neg encodable, run_sendFile_refused site encodable]
    obtain ⟨bytes, answered⟩ := answerError_out site
      (encodingError (fieldLine "Content-Disposition" (disposition name)))
    have filled : ascii "HTTP/1.0 " ++ bytes ≠ [] := by simp [ascii]
    have collected : fileStart site name transfer.size ≠ [] := by
      simp [fileStart, responseLines, statusLine, ascii]
    simp only [answered, List.nil_append, if_neg collected]
    rw [take_append_prefix_iff]
    exact ⟨fun within => within.resolve_right filled, Or.inl⟩

/-- Reading that never raises sends every chunk. -/
theorem streamFile_whole {fails : Nat → Option Exn} (never : ∀ round, fails round = none)
    (round : Nat) (chunks : List (List UInt8)) :
    streamFile fails round chunks = (chunks.flatten, none) := by
  induction chunks generalizing round with
  | nil => simp [streamFile, never]
  | cons chunk rest inductionHypothesis => simp [streamFile, never, inductionHypothesis]

/-- The bytes that follow the line are the file's own when nothing fails. -/
theorem body_whole {again : Str} (opened : transfer.opened = .ok (again, transfer.size))
    (fits : (jsonLine (fileMessage again transfer.size)).isOk)
    (never : ∀ round, transfer.fails round = none) : transfer.body = transfer.content := by
  cases line : jsonLine (fileMessage again transfer.size) with
  | error error =>
    rw [line] at fits
    cases fits
  | ok line =>
    simp [Transfer.body, Transfer.reply, handleDownload, opened, line, streamFile_whole never,
      Transfer.content]

/-- A file is accepted when the broker opens it again with the same size and its line is
written. -/
theorem accepted_whole {again : Str} (opened : transfer.opened = .ok (again, transfer.size))
    (fits : (jsonLine (fileMessage again transfer.size)).isOk) :
    transfer.accepted = transfer.arrives := by
  cases arrives : transfer.arrives with
  | none => simp [Transfer.accepted, arrives]
  | some count => simp [Transfer.accepted, opened, arrives, fits]

/-- Nothing stands in the way of a download when the broker opens the file again as it
was validated, reads all of it, and all of it arrives. -/
theorem undisturbed {site : Site} {name : Str} (encodable : Encodable name) {again : Str}
    (opened : transfer.opened = .ok (again, transfer.size))
    (fits : (jsonLine (fileMessage again transfer.size)).isOk)
    (never : ∀ round, transfer.fails round = none)
    (whole : transfer.content.length = transfer.size) {count : Nat}
    (arrives : transfer.arrives = some count) (enough : transfer.size ≤ count) (budget : Nat) :
    Streams transfer budget ∧ Answers site name transfer budget := by
  have accepted : transfer.accepted = some count := (accepted_whole opened fits).trans arrives
  have body : transfer.body = transfer.content := body_whole opened fits never
  constructor
  · intro arriving same
    rw [body]
    exact ⟨List.take_prefix _ _, fun _ => whole.symm⟩
  · rw [Answers, if_pos encodable, accepted, body, Option.getD_some]
    omega

end Streaming

section Examples

/-- A portal. -/
def portalSite : Site where
  software := str "ImmutavaultEnterprisePortal/1.1"
  date := str "Thu, 01 Jan 1970 00:00:00 GMT"
  guess_type := fun _ => none
  plain_software := by
    have plain : (str "ImmutavaultEnterprisePortal/1.1").all
      (fun point => 32 ≤ point.val ∧ point.val < 127) = true := by decide
    exact fun point member => by simpa using List.all_eq_true.mp plain point member
  plain_date := by
    have plain : (str "Thu, 01 Jan 1970 00:00:00 GMT").all
      (fun point => 32 ≤ point.val ∧ point.val < 127) = true := by decide
    exact fun point member => by simpa using List.all_eq_true.mp plain point member
  plain_type := fun _ _ impossible => (nomatch impossible)

/-- A file of two chunks, of which all arrives. -/
def reading (fails : Nat → Option Exn) : Transfer where
  size := 4
  opened := .ok (str "a.txt", 4)
  chunks := [[1, 2], [3, 4]]
  fails := fails
  arrives := some 1000

/-- A disk error in the second round of reading. -/
def failing : Nat → Option Exn := fun round =>
  if round = 1 then some ⟨.osError, "[Errno 5] Input/output error"⟩ else none

end Examples

end Immutavault.FileDownloads
