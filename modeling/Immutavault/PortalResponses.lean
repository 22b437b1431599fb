import Immutavault.BrokerMessages

/-!
# Responses of the portal

The portal answers over a connection that takes bytes until it breaks. Headers are
collected and sent together when they end; their values are encoded in strict Latin-1, so
a value with any other character raises while the headers collected before it stay where
they are. A request that raises is answered once more, whatever was sent or collected.

A response is well formed when its status line is followed by lines that each hold the
name of a field and a value without control characters, by an empty line, and by the
body.
-/

namespace Immutavault.PortalResponses

open Programs Values GuestFiles BrokerMessages SessionOwnership

/-- What an answer does: it collects headers, ends them, and writes its body. -/
inductive HttpCommand where
  | sendHeader (line : List UInt8)
  | endHeaders
  | write (bytes : List UInt8)

abbrev http : Interface := ⟨HttpCommand, fun _ => Unit⟩

abbrev Sending (α : Type) := Program http Exn α

/-- A connection: how many bytes it still takes, the headers that are collected, and
what was sent. -/
structure Connection where
  budget : Nat
  buffer : List UInt8 := []
  out : List UInt8 := []

namespace Connection

/-- Send bytes. A connection that breaks has sent what it still took. -/
def send (connection : Connection) (bytes : List UInt8) : Except Exn Unit × Connection :=
  if bytes.length ≤ connection.budget then
    (.ok (), { connection with
      budget := connection.budget - bytes.length
      out := connection.out ++ bytes })
  else
    (.error ⟨.osError, "[Errno 32] Broken pipe"⟩, { connection with
      budget := 0
      out := connection.out ++ bytes.take connection.budget })

/-- A connection has sent what it could take. -/
theorem send_out (connection : Connection) (bytes : List UInt8) :
    (connection.send bytes).2.out = connection.out ++ bytes.take connection.budget := by
  unfold send
  split
  · rename_i fits
    rw [List.take_of_length_le fits]
  · rfl

/-- The headers are forgotten once they are sent. -/
def handler : Handler http Exn Connection
  | .sendHeader line, connection => (.ok (), { connection with buffer := connection.buffer ++ line })
  | .write bytes, connection => connection.send bytes
  | .endHeaders, connection =>
    match connection.send (connection.buffer ++ ascii "\r\n") with
    | (.ok (), later) => (.ok (), { later with buffer := [] })
    | (.error error, later) => (.error error, later)

end Connection

def collect (line : List UInt8) : Sending Unit := @Program.perform http Exn (.sendHeader line)

def endHeaders : Sending Unit := @Program.perform http Exn .endHeaders

def write (bytes : List UInt8) : Sending Unit := @Program.perform http Exn (.write bytes)

/-- The message of a failed encoding names the first run of characters that do not fit. -/
def encodingError (text : Str) : Exn :=
  let before := text.takeWhile fun point => point.val < 256
  let failing := (text.dropWhile fun point => point.val < 256).takeWhile fun point => 256 ≤ point.val
  let escaped (point : CodePoint) : String :=
    if point.val < 65536 then "\\u" ++ hexDigits 4 point.val else "\\U" ++ hexDigits 8 point.val
  let place := before.length
  ⟨.valueError, match failing with
    | [point] => s!"'latin-1' codec can't encode character '{escaped point}' in position {
        place}: ordinal not in range(256)"
    | _ => s!"'latin-1' codec can't encode characters in position {place}-{
        place + failing.length - 1}: ordinal not in range(256)"⟩

/-- Every character fits in a byte. -/
def Encodable (text : Str) : Prop := ∀ point ∈ text, point.val < 256

instance (text : Str) : Decidable (Encodable text) := List.decidableBAll _ text

/-- Characters as bytes. -/
def toBytes (text : Str) : List UInt8 := text.map fun point => UInt8.ofNat point.val

/-- Encode a text in strict Latin-1. -/
def latin1 (text : Str) : Except Exn (List UInt8) :=
  if Encodable text then .ok (toBytes text) else .error (encodingError text)

/-- The line of a field. -/
def fieldLine (keyword : String) (value : Str) : Str :=
  str keyword ++ str ": " ++ value ++ str "\r\n"

def sendHeader (keyword : String) (value : Str) : Sending Unit := do
  let line ← raised (latin1 (fieldLine keyword value))
  collect line

/-- A text of printable ASCII characters. -/
def Plain (text : Str) : Prop := ∀ point ∈ text, 32 ≤ point.val ∧ point.val < 127

/-- What the portal's machine supplies: how the server names itself, the time of the
answer, and the types that it knows for the names of files. -/
structure Site where
  software : Str
  date : Str
  guess_type : Str → Option Str
  plain_software : Plain software
  plain_date : Plain date
  plain_type : ∀ name type, guess_type name = some type → Plain type

section Answering

variable (site : Site)

def phrase : Nat → String
  | 200 => "OK"
  | 302 => "Found"
  | 400 => "Bad Request"
  | 403 => "Forbidden"
  | 500 => "Internal Server Error"
  | _ => ""

def statusLine (code : Nat) : List UInt8 := ascii s!"HTTP/1.0 {code} {phrase code}\r\n"

def sendResponse (code : Nat) : Sending Unit := do
  collect (statusLine code)
  sendHeader "Server" site.software
  sendHeader "Date" site.date

def sendHeaders : List (String × Str) → Sending Unit
  | [] => pure ()
  | (keyword, value) :: rest => do
    sendHeader keyword value
    sendHeaders rest

def securityHeaders : List (String × Str) := [("Cache-Control", str "no-store"),
  ("X-Content-Type-Options", str "nosniff"), ("X-Frame-Options", str "DENY"),
  ("Referrer-Policy", str "no-referrer"),
  ("Permissions-Policy", str "camera=(), microphone=(), geolocation=()")]

/-- Answer with an error. -/
def json (code : Nat) (message : Str) : Sending Unit := do
  let payload := ascii "\x7b\"error\": " ++ Wire.encodeText message ++ ascii "\x7d"
  sendResponse site code
  sendHeader "Content-Type" (str "application/json")
  sendHeader "Content-Length" (str (toString payload.length))
  sendHeaders securityHeaders
  endHeaders
  write payload

/-- The name of a file as the header of a download holds it. -/
def safeName (name : Str) : Str := name.map fun point =>
  if point ∈ str "\\\"\r\n" then 95 else point

/-- The fields of a download. -/
def fileHeaders (name : Str) (size : Nat) : List (String × Str) :=
  [("Content-Type", (site.guess_type name).getD (str "application/octet-stream")),
    ("Content-Length", str (toString size)),
    ("Content-Disposition", str "attachment; filename=\"" ++ safeName name ++ str "\"")]

/-- Announce a file and stream it. -/
def sendFile (name : Str) (size : Nat) (stream : Sending Unit) : Sending Unit := do
  sendResponse site 200
  sendHeaders (fileHeaders site name size)
  sendHeaders securityHeaders
  endHeaders
  stream

/-- Answer an error of a request. -/
def answerError (error : Exn) : Sending Unit :=
  if error.kind = .permissionError then json site 403 (str error.message)
  else if error.kind = .valueError then json site 400 (str error.message)
  else json site 500 (str "internal server error")

/-- Serve a request, and answer its error. -/
def serving (request : Sending Unit) : Sending Unit := tryCatch request (answerError site)

end Answering

section Collecting

variable (site : Site)

@[simp] theorem run_collect (line : List UInt8) (connection : Connection) :
    run Connection.handler (collect line) connection =
      (.ok (), { connection with buffer := connection.buffer ++ line }) := rfl

@[simp] theorem run_write (bytes : List UInt8) (connection : Connection) :
    run Connection.handler (write bytes) connection = connection.send bytes :=
  run_perform _ _ _

@[simp] theorem run_endHeaders (connection : Connection) :
    run Connection.handler endHeaders connection =
      match connection.send (connection.buffer ++ ascii "\r\n") with
      | (.ok (), later) => (.ok (), { later with buffer := [] })
      | (.error error, later) => (.error error, later) :=
  run_perform _ _ _

theorem encodable_append (first second : Str) :
    Encodable (first ++ second) ↔ Encodable first ∧ Encodable second := by
  simp only [Encodable, List.mem_append]
  constructor
  · exact fun all => ⟨fun point member => all point (Or.inl member),
      fun point member => all point (Or.inr member)⟩
  · rintro ⟨first, second⟩ point (member | member)
    · exact first point member
    · exact second point member

/-- A field whose keyword is printable is encoded when its value is. -/
theorem encodable_fieldLine {keyword : String} (plain : Encodable (str keyword)) (value : Str) :
    Encodable (fieldLine keyword value) ↔ Encodable value := by
  have colon : Encodable (str ": ") := by decide
  have ended : Encodable (str "\r\n") := by decide
  simp [fieldLine, encodable_append, plain, colon, ended]

/-- The bytes of some fields. -/
def fieldBytes (fields : List (String × Str)) : List UInt8 :=
  fields.flatMap fun field => toBytes (fieldLine field.1 field.2)

/-- Fields with encodable lines are collected. -/
theorem run_sendHeaders {fields : List (String × Str)}
    (encodable : ∀ field ∈ fields, Encodable (fieldLine field.1 field.2)) (connection : Connection) :
    run Connection.handler (sendHeaders fields) connection =
      (.ok (), { connection with buffer := connection.buffer ++ fieldBytes fields }) := by
  induction fields generalizing connection with
  | nil => simp [sendHeaders, fieldBytes]
  | cons field rest inductionHypothesis =>
    obtain ⟨keyword, value⟩ := field
    have now : latin1 (fieldLine keyword value) = .ok (toBytes (fieldLine keyword value)) :=
      if_pos (encodable _ List.mem_cons_self)
    have later := inductionHypothesis fun other member =>
      encodable other (List.mem_cons_of_mem _ member)
    simp only [sendHeaders, sendHeader, run_bind, now, raised_ok, run_pure, run_collect, later]
    simp [fieldBytes]

/-- A line that is not encodable raises, and leaves the lines before it collected. -/
theorem run_sendHeaders_raises {before : List (String × Str)} {keyword : String} {value : Str}
    (encodable : ∀ field ∈ before, Encodable (fieldLine field.1 field.2))
    (refused : ¬ Encodable (fieldLine keyword value)) (after : List (String × Str))
    (connection : Connection) :
    run Connection.handler (sendHeaders (before ++ (keyword, value) :: after)) connection =
      (.error (encodingError (fieldLine keyword value)),
        { connection with buffer := connection.buffer ++ fieldBytes before }) := by
  induction before generalizing connection with
  | nil =>
    have now : latin1 (fieldLine keyword value) = .error (encodingError (fieldLine keyword value)) :=
      if_neg refused
    simp [sendHeaders, sendHeader, run_bind, now, fieldBytes]
  | cons field rest inductionHypothesis =>
    obtain ⟨name, text⟩ := field
    have now : latin1 (fieldLine name text) = .ok (toBytes (fieldLine name text)) :=
      if_pos (encodable _ List.mem_cons_self)
    have later := inductionHypothesis fun other member =>
      encodable other (List.mem_cons_of_mem _ member)
    simp only [List.cons_append, sendHeaders, sendHeader, run_bind, now, raised_ok, run_pure,
      run_collect, later]
    simp [fieldBytes]

/-- Printable texts are encodable. -/
theorem Plain.encodable {text : Str} (plain : Plain text) : Encodable text :=
  fun point member => Nat.lt_trans (plain point member).2 (by decide)

/-- The decimal digits of a number are printable. -/
theorem plain_toString (number : Nat) : Plain (str (toString number)) := by
  intro point member
  obtain ⟨character, digit, rfl⟩ := List.mem_map.mp member
  have digits : character.isDigit := by
    rw [Nat.toString_eq_repr, Nat.repr, String.toList_ofList] at digit
    exact Nat.isDigit_of_mem_toDigits (by decide) (by decide) digit
  have bounds : 48 ≤ character.toNat ∧ character.toNat ≤ 57 := Char.isDigit_iff_toNat.mp digits
  have same : (Fin.ofNat 1114112 character.toNat).val = character.toNat :=
    Nat.mod_eq_of_lt (by omega)
  rw [same]
  omega

/-- The name of a file is encodable as it is and as a header holds it. -/
theorem encodable_safeName (name : Str) : Encodable (safeName name) ↔ Encodable name := by
  have small : ∀ point : CodePoint, point ∈ str "\\\"\r\n" → point.val < 256 := by
    have all : (str "\\\"\r\n").all (fun point => point.val < 256) = true := by decide
    exact fun point member => by simpa using List.all_eq_true.mp all point member
  simp only [Encodable, safeName, List.forall_mem_map]
  refine forall₂_congr fun point _ => ?_
  split
  · rename_i replaced
    exact ⟨fun _ => small point replaced, fun _ => by decide⟩
  · exact Iff.rfl

/-- What an answer begins with. -/
def responseLines (code : Nat) : List UInt8 :=
  statusLine code ++ fieldBytes [("Server", site.software), ("Date", site.date)]

theorem run_sendResponse (code : Nat) (connection : Connection) :
    run Connection.handler (sendResponse site code) connection =
      (.ok (), { connection with buffer := connection.buffer ++ responseLines site code }) := by
  have server : latin1 (fieldLine "Server" site.software) =
      .ok (toBytes (fieldLine "Server" site.software)) :=
    if_pos ((encodable_fieldLine (by decide) _).mpr site.plain_software.encodable)
  have date : latin1 (fieldLine "Date" site.date) = .ok (toBytes (fieldLine "Date" site.date)) :=
    if_pos ((encodable_fieldLine (by decide) _).mpr site.plain_date.encodable)
  simp [sendResponse, sendHeader, run_bind, server, date, responseLines, fieldBytes]

/-- The fields of a download before the one that holds its name. -/
def announcing (name : Str) (size : Nat) : List (String × Str) :=
  [("Content-Type", (site.guess_type name).getD (str "application/octet-stream")),
    ("Content-Length", str (toString size))]

/-- The field of a download that holds its name. -/
def disposition (name : Str) : Str := str "attachment; filename=\"" ++ safeName name ++ str "\""

theorem fileHeaders_eq (name : Str) (size : Nat) : fileHeaders site name size =
    announcing site name size ++ [("Content-Disposition", disposition name)] := rfl

/-- What announces a file up to its name. -/
def fileStart (name : Str) (size : Nat) : List UInt8 :=
  responseLines site 200 ++ fieldBytes (announcing site name size)

/-- All that announces a file. -/
def fileHead (name : Str) (size : Nat) : List UInt8 :=
  responseLines site 200 ++ fieldBytes (fileHeaders site name size) ++
    fieldBytes securityHeaders ++ ascii "\r\n"

theorem encodable_announcing (name : Str) (size : Nat) :
    ∀ field ∈ announcing site name size, Encodable (fieldLine field.1 field.2) := by
  have type : Encodable ((site.guess_type name).getD (str "application/octet-stream")) := by
    cases guessed : site.guess_type name with
    | none => decide
    | some type => exact (site.plain_type name type guessed).encodable
  have typed : Encodable (str "Content-Type") := by decide
  have sized : Encodable (str "Content-Length") := by decide
  intro field member
  simp only [announcing, List.mem_cons, List.not_mem_nil, or_false] at member
  rcases member with rfl | rfl
  · exact (encodable_fieldLine typed _).mpr type
  · exact (encodable_fieldLine sized _).mpr (plain_toString size).encodable

theorem encodable_disposition (name : Str) :
    Encodable (fieldLine "Content-Disposition" (disposition name)) ↔ Encodable name := by
  have before : Encodable (str "attachment; filename=\"") := by decide
  have after : Encodable (str "\"") := by decide
  rw [encodable_fieldLine (by decide), disposition, encodable_append, encodable_append,
    encodable_safeName]
  simp [before, after]

theorem encodable_securityHeaders :
    ∀ field ∈ securityHeaders, Encodable (fieldLine field.1 field.2) := by decide

/-- A file whose name is encodable is announced before it is streamed. -/
theorem run_sendFile {name : Str} (encodable : Encodable name) (size : Nat)
    (stream : Sending Unit) (connection : Connection) :
    run Connection.handler (sendFile site name size stream) connection =
      match connection.send (connection.buffer ++ fileHead site name size) with
      | (.ok (), later) => run Connection.handler stream { later with buffer := [] }
      | (.error error, later) => (.error error, { later with
          buffer := connection.buffer ++ responseLines site 200 ++
            fieldBytes (fileHeaders site name size) ++ fieldBytes securityHeaders }) := by
  have announced : ∀ field ∈ fileHeaders site name size, Encodable (fieldLine field.1 field.2) := by
    intro field member
    rw [fileHeaders_eq, List.mem_append, List.mem_singleton] at member
    rcases member with before | rfl
    · exact encodable_announcing site name size field before
    · exact (encodable_disposition name).mpr encodable
  simp only [sendFile, run_bind, run_sendResponse, run_sendHeaders announced,
    run_sendHeaders encodable_securityHeaders, run_endHeaders]
  have whole : connection.buffer ++ responseLines site 200 ++
      fieldBytes (fileHeaders site name size) ++ fieldBytes securityHeaders ++ ascii "\r\n" =
        connection.buffer ++ fileHead site name size := by
    simp only [fileHead, List.append_assoc]
  simp only [whole, Connection.send]
  by_cases fits : (connection.buffer ++ fileHead site name size).length ≤ connection.budget
  · simp only [if_pos fits]
  · simp only [if_neg fits]

/-- Any other name ends the announcement before the name. -/
theorem run_sendFile_refused {name : Str} (refused : ¬ Encodable name) (size : Nat)
    (stream : Sending Unit) (connection : Connection) :
    run Connection.handler (sendFile site name size stream) connection =
      (.error (encodingError (fieldLine "Content-Disposition" (disposition name))),
        { connection with buffer := connection.buffer ++ fileStart site name size }) := by
  have other : ¬ Encodable (fieldLine "Content-Disposition" (disposition name)) :=
    fun encodable => refused ((encodable_disposition name).mp encodable)
  have raises := run_sendHeaders_raises (encodable_announcing site name size) other []
  simp only [sendFile, run_bind, run_sendResponse, fileHeaders_eq, raises]
  simp [fileStart]

/-- The body of an error, and the fields that announce it. -/
def errorBody (message : Str) : List UInt8 :=
  ascii "\x7b\"error\": " ++ Wire.encodeText message ++ ascii "\x7d"

def errorFields (message : Str) : List (String × Str) :=
  [("Content-Type", str "application/json"),
    ("Content-Length", str (toString (errorBody message).length))]

/-- All that announces an error. -/
def errorHead (code : Nat) (message : Str) : List UInt8 :=
  responseLines site code ++ fieldBytes (errorFields message) ++ fieldBytes securityHeaders ++
    ascii "\r\n"

theorem encodable_errorFields (message : Str) :
    ∀ field ∈ errorFields message, Encodable (fieldLine field.1 field.2) := by
  have typed : Encodable (fieldLine "Content-Type" (str "application/json")) := by decide
  have sized : Encodable (str "Content-Length") := by decide
  intro field member
  simp only [errorFields, List.mem_cons, List.not_mem_nil, or_false] at member
  rcases member with rfl | rfl
  · exact typed
  · exact (encodable_fieldLine sized _).mpr (plain_toString _).encodable

theorem json_eq (code : Nat) (message : Str) : json site code message = (do
    sendResponse site code
    sendHeaders (errorFields message)
    sendHeaders securityHeaders
    endHeaders
    write (errorBody message)) := by
  simp [json, errorFields, errorBody, sendHeaders]

/-- An error is answered with a response of its own, which does not depend on what was
sent before. What was collected before goes with it, as far as the connection takes it. -/
theorem answerError_out (error : Exn) : ∃ rest, ∀ connection,
    (run Connection.handler (answerError site error) connection).2.out = connection.out ++
      (connection.buffer ++ (ascii "HTTP/1.0 " ++ rest)).take connection.budget := by
  have answered : ∀ code message, ∃ rest, ∀ connection,
      (run Connection.handler (json site code message) connection).2.out = connection.out ++
        (connection.buffer ++ (ascii "HTTP/1.0 " ++ rest)).take connection.budget := by
    intro code message
    have begins : ∃ rest, errorHead site code message ++ errorBody message =
        ascii "HTTP/1.0 " ++ rest := by
      simp only [errorHead, responseLines, statusLine, ascii_append, List.append_assoc]
      exact ⟨_, rfl⟩
    obtain ⟨rest, begins⟩ := begins
    refine ⟨rest, fun connection => ?_⟩
    rw [← begins]
    have whole : connection.buffer ++ responseLines site code ++ fieldBytes (errorFields message) ++
        fieldBytes securityHeaders ++ ascii "\r\n" =
          connection.buffer ++ errorHead site code message := by
      simp only [errorHead, List.append_assoc]
    have headers := run_sendHeaders (encodable_errorFields message)
    simp only [json_eq, run_bind, run_sendResponse, headers,
      run_sendHeaders encodable_securityHeaders, run_endHeaders, whole]
    rw [← List.append_assoc]
    generalize connection.buffer ++ errorHead site code message = head
    by_cases fits : head.length ≤ connection.budget
    · simp only [Connection.send, if_pos fits, List.take_append, List.take_of_length_le fits]
      rw [run_write, Connection.send_out, List.append_assoc]
    · have cut : connection.budget - head.length = 0 := by omega
      simp [Connection.send, fits, List.take_append, cut]
  unfold answerError
  split
  · exact answered _ _
  · split <;> exact answered _ _

end Collecting

end Immutavault.PortalResponses
