import Immutavault.BrokerMessages
import Mathlib.Algebra.Order.BigOperators.Group.List
import Mathlib.Algebra.Order.Ring.Nat

/-!
# The broker in place of the manager

The portal lists directories and opens files through the broker. A call is written as one
line, which a socket takes in one piece or not at all as far as the broker is concerned;
the broker admits its peer and its actor, calls the manager, and writes one line back.

What a call returns is what the manager returns for the arguments as the broker reads
them: the actor without surrounding blanks, and texts whose halves of characters are
joined. A result that does not fit in a line is an error of the broker, and an error keeps
its class only if that is one of the three that cross.
-/

namespace Immutavault.BrokerRefinement

open Programs Values Tables GuestFiles SessionOwnership BrokerMessages

section Messages

/-- What a listing calls an entry. -/
def kindText : FileKind → String
  | .symlink => "symlink"
  | .directory => "directory"
  | .regular => "file"
  | .special => "special"

def entryWire (entry : GuestEntry) : Wire := .dict [(str "name", .text entry.name),
  (str "type", .text (str (kindText entry.kind))),
  (str "size", match entry.size with
    | some size => .number size
    | none => .null),
  (str "modified", .text (str entry.modified)), (str "downloadable", .bool entry.downloadable)]

def sessionWire (session : PublicSession) : Wire := .dict [
  (str "session_id", .text session.session_id), (str "snapshot_id", .text session.snapshot_id),
  (str "platform", .text session.platform), (str "vm_name", .text session.vm_name),
  (str "created_at", .text (str session.created_at)),
  (str "expires_at", .text (str session.expires_at)),
  (str "disks", .list (session.disks.map .text)), (str "read_only", .bool session.read_only)]

def listingWire (listing : Listing) : Wire := .dict [(str "session", sessionWire listing.session),
  (str "path", .text listing.path), (str "entries", .list (listing.entries.map entryWire))]

def fileWire (name : Str) (size : Nat) : Wire :=
  .dict [(str "name", .text name), (str "size", .number size)]

def statusWire (status : Status) : Wire := .dict [(str "enabled", .bool status.enabled),
  (str "active_sessions", .number status.active_sessions),
  (str "session_ttl_minutes", .number status.session_ttl_minutes),
  (str "max_download_bytes", .number status.max_download_bytes),
  (str "prerequisite_problems", .list (status.prerequisite_problems.map fun problem =>
    .text (str problem)))]

/-- The result of a request as it is written. -/
def answerWire : Answer → Wire
  | .status status => statusWire status
  | .opened session => sessionWire session
  | .browsed (.listing listing) => listingWire listing
  | .browsed (.file name size) | .browsed (.stream name size _) => fileWire name size
  | .closed session_id => .dict [(str "session_id", .text session_id), (str "status", .text (str "closed"))]

/-- The text of a field. -/
def field (message : Wire) (key : String) : Option Str :=
  match message.get? (str key) with
  | some (.text text) => some text
  | _ => none

def pointOf : Option Wire → Option RecoveryPoint
  | some (.dict fields) => some {
      snapshot_id := field (.dict fields) "snapshot_id"
      platform := field (.dict fields) "platform"
      vm_name := field (.dict fields) "vm_name"
      source_path := field (.dict fields) "source_path" }
  | _ => none

/-- The request that a message makes. Downloads are not dispatched. -/
def request (message : Wire) : Request where
  order :=
    let action := textOr (field message "action") []
    if action = str "status" then .status
    else if action = str "open" then .opening (pointOf (message.get? (str "point")))
    else if action = str "list" then .browse .list
    else if action = str "stat" then .browse .stat
    else if action = str "close" then .close
    else .other (printed action)
  fields := ⟨field message "actor", field message "session_id", field message "user_path"⟩

/-- A call about a path of a session. -/
def calling (action : String) (session_id user_path actor : Str) : Wire := .dict [
  (str "action", .text (str action)), (str "session_id", .text session_id),
  (str "user_path", .text user_path), (str "actor", .text actor)]

end Messages

/-- A connection between the two: who asks, who may, and how many bytes the socket takes
at once. -/
structure Link where
  uid : Nat
  allowed_uid : Nat
  takes : Nat

section Serving

variable (settings : Settings) (casefold : Str → Str) (link : Link)

def authorize : Except Exn Unit :=
  if link.uid = 0 ∨ link.uid = link.allowed_uid then .ok ()
  else .error ⟨.permissionError, "FLR broker rejected unauthorized local peer"⟩

/-- Answer a message with the line of its result. -/
def answering (message : Wire) : Prog Wire := do
  raised (authorize link)
  let answer ← dispatch settings casefold false false (request message)
  let _ ← raised (jsonLine (okPayload (answerWire answer)))
  return okPayload (answerWire answer)

/-- What the broker writes for a message. An error whose line is too long is not told. -/
def handle (message : Wire) : Prog (Option Wire) :=
  tryCatch (do return some (← answering settings casefold link message)) fun error =>
    return (jsonLine (errorPayload error)).toOption.map fun _ => errorPayload error

/-- What the portal makes of what was written. -/
def readResponse : Option Wire → Except Exn Wire
  | none => .error ⟨.runtimeError, "FLR broker closed the connection"⟩
  | some message =>
    match message.read.get? (str "ok") with
    | some (.bool true) =>
      match message.read.get? (str "result") with
      | some (.dict fields) => .ok (.dict fields)
      | _ => .error ⟨.runtimeError, "FLR broker response omitted result object"⟩
    | _ => .error (raiseRemote message.read)

/-- Ask the broker. Of a line that the socket takes only in part the rest is not sent, and
both sides wait for each other until the portal gives up. -/
def clientRequest (message : Wire) : Prog Wire := do
  let line ← raised (jsonLine message)
  if link.takes < line.length then throw ⟨.osError, "timed out"⟩
  else raised (readResponse (← handle settings casefold link message.read))

/-- A file that the broker has opened once. -/
structure RemoteFLRFile where
  session_id : Str
  user_path : Str
  actor : Str
  name : Str
  size : Nat

/-- The portal's way to list a directory. -/
def listRemote (session_id user_path actor : Str) : Prog Wire :=
  clientRequest settings casefold link (calling "list" session_id user_path actor)

/-- The file that a result tells of. -/
def remoteFile (session_id user_path actor : Str) (result : Wire) : Except Exn RemoteFLRFile :=
  match result.get? (str "name"), result.get? (str "size") with
  | some (.text name), some (.number size) => .ok ⟨session_id, user_path, actor, name, size⟩
  | _, _ => .error ⟨.keyError, "'name'"⟩

/-- The portal's way to open a file. -/
def openRemote (session_id user_path actor : Str) : Prog RemoteFLRFile := do
  let result ← clientRequest settings casefold link (calling "stat" session_id user_path actor)
  raised (remoteFile session_id user_path actor result)

/-- The manager's way to list a directory. -/
def listManaged (session_id user_path actor : Str) (admin : Bool) : Prog Listing := do
  let session ← ownedSession settings session_id actor admin
  browsing (listGuest settings casefold session session_id user_path)

/-- The manager's way to open a file. -/
def openManaged (session_id user_path actor : Str) (admin : Bool) : Prog FLRFile := do
  let session ← ownedSession settings session_id actor admin
  browsing (openGuest settings session user_path)

end Serving

section Refinement

/-- Whom the broker takes the caller of a message for, or how the call is refused. -/
def admitted (link : Link) (message : Wire) (actor : Str) : Except Exn Str := do
  let _ ← jsonLine message
  authorize link
  requiredActor ⟨some (Wire.joinSurrogates actor), none, none⟩

/-- What crosses of a result or an error. -/
def cross : Except Exn Wire → Except Exn Wire
  | .ok result =>
    if (jsonLine (okPayload result)).isOk then .ok result.read
    else .error ⟨.valueError, "FLR broker message exceeds maximum size"⟩
  | .error error =>
    if (jsonLine (errorPayload error)).isOk then .error (crossed error)
    else .error ⟨.runtimeError, "FLR broker closed the connection"⟩

/-- What a call through the broker yields, given what the manager yields for a session, a
path and an actor. -/
def through (link : Link) (action : String) (session_id user_path actor : Str)
    (managed : Str → Str → Str → Except Exn Wire) : Except Exn Wire := do
  let caller ← admitted link (calling action session_id user_path actor) actor
  cross (managed (Wire.joinSurrogates session_id) (Wire.joinSurrogates user_path) caller)

variable (surroundings : Surroundings) (settings : Settings) (casefold : Str → Str) (link : Link)
  (broker : Broker)

/-- What is written of an answer or of an error. -/
def written : Except Exn Wire → Option Wire
  | .ok payload => some payload
  | .error error => (jsonLine (errorPayload error)).toOption.map fun _ => errorPayload error

/-- Writing never fails. -/
theorem handle_writes (message : Wire) :
    (run surroundings.handler (handle settings casefold link message) broker).1 =
      .ok (written (run surroundings.handler (answering settings casefold link message) broker).1) := by
  unfold handle
  rw [run_tryCatch, run_bind]
  cases run surroundings.handler (answering settings casefold link message) broker with
  | mk outcome after => cases outcome <;> rfl

/-- An error that is written is raised on the other side. -/
theorem readResponse_error (error : Exn) :
    readResponse (written (.error error)) = cross (.error error) := by
  have refused : (errorPayload error).get? (str "ok") = some (.bool false) := rfl
  cases told : jsonLine (errorPayload error) with
  | error long => simp [cross, written, told, Except.toOption, Except.isOk, Except.toBool, readResponse]
  | ok line =>
    simp [cross, written, told, Except.toOption, Except.isOk, Except.toBool, readResponse, refused,
      raiseRemote_crossed]

/-- A result that is written is returned on the other side. -/
theorem readResponse_ok (fields : List (Str × Wire)) :
    readResponse (some (okPayload (.dict fields))) = .ok (Wire.dict fields).read := by
  have whole : (Wire.dict fields).read = .dict (Wire.readFields fields) := by rw [Wire.read]
  obtain ⟨ok, result⟩ := okPayload_result (.dict (Wire.readFields fields))
  simp only [readResponse, okPayload_read, whole, ok, result]

/-- The result of a request is an object. -/
theorem answerWire_dict (answer : Answer) : ∃ fields, answerWire answer = .dict fields := by
  cases answer with
  | browsed reply => cases reply <;> exact ⟨_, rfl⟩
  | _ => exact ⟨_, rfl⟩

/-- The broker's own refusals cross as they are. -/
theorem cross_refusal {error : Exn} (kept : crossed error = error)
    (told : (jsonLine (errorPayload error)).isOk) : cross (.error error) = .error error := by
  rw [cross, if_pos told, kept]

/-- What the portal makes of what the broker answers to a result. -/
theorem readResponse_answer (answer : Answer) :
    readResponse (written (do
        let _ ← jsonLine (okPayload (answerWire answer))
        return okPayload (answerWire answer))) =
      cross (.ok (answerWire answer)) := by
  obtain ⟨fields, wire⟩ := answerWire_dict answer
  rw [wire]
  cases line : jsonLine (okPayload (.dict fields)) with
  | ok bytes =>
    refine (readResponse_ok fields).trans ?_
    simp [cross, line, Except.isOk, Except.toBool]
  | error error =>
    obtain rfl := jsonLine_error line
    refine (readResponse_error _).trans ((cross_refusal rfl (by decide)).trans ?_)
    simp [cross, line, Except.isOk, Except.toBool]

theorem calling_read (action : String) (session_id user_path actor : Str) :
    (calling action session_id user_path actor).read =
      calling action (Wire.joinSurrogates session_id) (Wire.joinSurrogates user_path)
        (Wire.joinSurrogates actor) := by
  simp [calling, Wire.read, Wire.readFields]

/-- The refusals of an actor cross as they are. -/
theorem cross_requiredActor {fields : BrokerRequest} {error : Exn}
    (refused : requiredActor fields = .error error) : cross (.error error) = .error error := by
  unfold requiredActor at refused
  dsimp only at refused
  split_ifs at refused
  · obtain rfl := Except.error.inj refused
    exact cross_refusal rfl (by decide)
  · obtain rfl := Except.error.inj refused
    exact cross_refusal rfl (by decide)

/-- So does the refusal of a peer. -/
theorem cross_authorize {error : Exn} (refused : authorize link = .error error) :
    cross (.error error) = .error error := by
  unfold authorize at refused
  split at refused
  · cases refused
  · obtain rfl := Except.error.inj refused
    exact cross_refusal rfl (by decide)

/-- A run through a sequence gives what its parts give. -/
theorem run_bind_fst {α β : Type} (program : Prog α) (next : α → Prog β) :
    (run surroundings.handler (program >>= next) broker).1 = (do
      let value ← (run surroundings.handler program broker).1
      (run surroundings.handler (next value) (run surroundings.handler program broker).2).1) := by
  rw [run_bind]
  cases run surroundings.handler program broker with
  | mk outcome after => cases outcome <;> rfl

/-- What the broker answers to a call. -/
theorem run_answering {message : Wire} {action : Action} {fields : BrokerRequest}
    (calls : request message = ⟨.browse action, fields⟩) :
    (run surroundings.handler (answering settings casefold link message) broker).1 = (do
      authorize link
      let caller ← requiredActor fields
      let reply ← (run surroundings.handler (serveOwned settings casefold action
        (textOr fields.session_id [])
        (textOr fields.user_path (if action = .list then str "/" else [])) caller false) broker).1
      let _ ← jsonLine (okPayload (answerWire (.browsed reply)))
      return okPayload (answerWire (.browsed reply))) := by
  unfold answering
  rw [calls]
  simp only [dispatch, run_bind_fst, SessionOwnership.run_raised, run_pure, bind_assoc]
  rfl

/-- A call that the socket takes yields what crosses of the manager's reply. -/
theorem run_clientRequest (action : Action) (title : String)
    (names : ∀ session_id user_path actor, request (calling title session_id user_path actor) =
      ⟨.browse action, ⟨some actor, some session_id, some user_path⟩⟩)
    (session_id user_path actor : Str)
    (whole : ∀ line, jsonLine (calling title session_id user_path actor) = .ok line →
      line.length ≤ link.takes) :
    (run surroundings.handler (clientRequest settings casefold link
        (calling title session_id user_path actor)) broker).1 =
      through link title session_id user_path actor fun session_id user_path caller =>
        (run surroundings.handler (serveOwned settings casefold action
          (textOr (some session_id) [])
          (textOr (some user_path) (if action = .list then str "/" else [])) caller false)
            broker).1.map fun reply => answerWire (.browsed reply) := by
  unfold clientRequest through admitted
  rw [run_bind_fst, SessionOwnership.run_raised]
  cases line : jsonLine (calling title session_id user_path actor) with
  | error error => rfl
  | ok bytes =>
    have taken : ¬ link.takes < bytes.length := Nat.not_lt.mpr (whole bytes line)
    rw [ok_bind, ok_bind, if_neg taken, run_bind_fst, handle_writes, ok_bind,
      SessionOwnership.run_raised, calling_read, run_answering _ _ _ _ _ (names _ _ _)]
    cases permitted : authorize link with
    | error error =>
      rw [error_bind, error_bind, error_bind]
      dsimp only
      rw [readResponse_error, cross_authorize link permitted]
    | ok _ =>
      rw [ok_bind, ok_bind]
      have same : requiredActor ⟨some (Wire.joinSurrogates actor),
          some (Wire.joinSurrogates session_id), some (Wire.joinSurrogates user_path)⟩ =
            requiredActor ⟨some (Wire.joinSurrogates actor), none, none⟩ := rfl
      rw [same]
      cases known : requiredActor ⟨some (Wire.joinSurrogates actor), none, none⟩ with
      | error error =>
        rw [error_bind, error_bind]
        dsimp only
        rw [readResponse_error, cross_requiredActor known]
      | ok caller =>
        rw [ok_bind, ok_bind]
        dsimp only
        generalize (run surroundings.handler (serveOwned settings casefold action _ _ caller false)
          broker).1 = outcome
        cases outcome with
        | error error =>
          simp only [error_bind, Except.map]
          exact readResponse_error error
        | ok reply =>
          simp only [ok_bind, Except.map]
          exact readResponse_answer (.browsed reply)

theorem textOr_same (text : Str) : textOr (some text) [] = text := by
  unfold textOr
  dsimp only
  split
  · rename_i empty
    exact empty.symm
  · rfl

/-- A missing path is the root for the manager as it is for the broker. -/
theorem listGuest_default (session : FLRSession) (session_id user_path : Str) :
    listGuest settings casefold session session_id (textOr (some user_path) (str "/")) =
      listGuest settings casefold session session_id user_path := by
  by_cases empty : user_path = []
  · subst empty
    have root : relativeParts [] = relativeParts (str "/") := by rfl
    unfold listGuest
    rw [root]
    rfl
  · rw [textOr, if_neg empty]

/-- What the broker is asked for when it lists is what the manager lists. -/
theorem run_listed (session_id user_path actor : Str) (admin : Bool) :
    (run surroundings.handler (serveOwned settings casefold .list (textOr (some session_id) [])
      (textOr (some user_path) (str "/")) actor false) broker).1 =
    (run surroundings.handler (listManaged settings casefold session_id user_path actor admin)
      broker).1.map Reply.listing := by
  have managed : serveOwned settings casefold .list (textOr (some session_id) [])
      (textOr (some user_path) (str "/")) actor false = (do
        return .listing (← listManaged settings casefold session_id user_path actor admin)) := by
    simp only [serveOwned, listManaged, textOr_same, listGuest_default, bind_assoc]
    rfl
  rw [managed, run_bind]
  cases run surroundings.handler (listManaged settings casefold session_id user_path actor admin)
    broker with
  | mk outcome after => cases outcome <;> rfl

/-- What the broker is asked for when it inspects a file is what the manager opens. -/
theorem run_opened (session_id user_path actor : Str) (admin : Bool) :
    (run surroundings.handler (serveOwned settings casefold .stat (textOr (some session_id) [])
      (textOr (some user_path) []) actor false) broker).1 =
    (run surroundings.handler (openManaged settings session_id user_path actor admin)
      broker).1.map fun file => Reply.file file.name file.size := by
  have managed : serveOwned settings casefold .stat (textOr (some session_id) [])
      (textOr (some user_path) []) actor false = (do
        let file ← openManaged settings session_id user_path actor admin
        return .file file.name file.size) := by
    simp only [serveOwned, openManaged, textOr_same, bind_assoc]
    rfl
  rw [managed, run_bind]
  cases run surroundings.handler (openManaged settings session_id user_path actor admin) broker with
  | mk outcome after => cases outcome <;> rfl

/-- A call through the broker that the socket takes yields what crosses of the manager's
listing, and the name and size of the manager's file, for the arguments as the broker
reads them. -/
theorem broker_refines_manager (session_id user_path actor : Str) (admin : Bool)
    (listing : ∀ line, jsonLine (calling "list" session_id user_path actor) = .ok line →
      line.length ≤ link.takes)
    (opening : ∀ line, jsonLine (calling "stat" session_id user_path actor) = .ok line →
      line.length ≤ link.takes) :
    (run surroundings.handler (listRemote settings casefold link session_id user_path actor)
        broker).1 =
      through link "list" session_id user_path actor (fun session_id user_path caller =>
        (run surroundings.handler (listManaged settings casefold session_id user_path caller admin)
          broker).1.map listingWire) ∧
    (run surroundings.handler (openRemote settings casefold link session_id user_path actor)
        broker).1 = (do
      let result ← through link "stat" session_id user_path actor
        (fun session_id user_path caller =>
          (run surroundings.handler (openManaged settings session_id user_path caller admin)
            broker).1.map fun file => fileWire file.name file.size)
      remoteFile session_id user_path actor result) := by
  constructor
  · unfold listRemote
    rw [run_clientRequest surroundings settings casefold link broker .list "list"
      (fun _ _ _ => rfl) _ _ _ listing]
    simp only [if_true, run_listed surroundings settings casefold broker _ _ _ admin]
    congr
    funext session_id user_path caller
    cases (run surroundings.handler (listManaged settings casefold session_id user_path caller admin)
      broker).1 <;> rfl
  · unfold openRemote
    rw [run_bind_fst, run_clientRequest surroundings settings casefold link broker .stat "stat"
      (fun _ _ _ => rfl) _ _ _ opening]
    have foreign : (Action.stat = Action.list) = False := by simp
    simp only [foreign, if_false, run_opened surroundings settings casefold broker _ _ _ admin,
      SessionOwnership.run_raised]
    congr
    funext session_id user_path caller
    cases (run surroundings.handler (openManaged settings session_id user_path caller admin)
      broker).1 <;> rfl

/-- An entry takes sixty-seven bytes at least. -/
theorem length_entryWire (entry : GuestEntry) : 67 ≤ (entryWire entry).encode.length := by
  have keys : (Wire.encodeText (str "name")).length = 6 ∧
      (Wire.encodeText (str "type")).length = 6 ∧ (Wire.encodeText (str "size")).length = 6 ∧
        (Wire.encodeText (str "modified")).length = 10 ∧
          (Wire.encodeText (str "downloadable")).length = 14 := by decide
  have kind : 6 ≤ (Wire.text (str (kindText entry.kind))).encode.length := by
    cases entry.kind <;> decide
  have truth : 4 ≤ (Wire.bool entry.downloadable).encode.length := by
    cases entry.downloadable <;> decide
  have texts : ∀ text : Str, 2 ≤ (Wire.text text).encode.length := by
    intro text
    have least := (length_encodeText text).1
    rw [Wire.encode]
    omega
  have name := texts entry.name
  have modified := texts (str entry.modified)
  rw [entryWire, length_encode_dict]
  simp only [List.map_cons, List.map_nil, List.sum_cons, List.sum_nil, List.length_cons,
    List.length_nil, keys]
  omega

/-- A directory of sixteen thousand entries is never listed through the broker. -/
theorem long_listing_refused {listing : Listing} (many : 16000 ≤ listing.entries.length) :
    cross (.ok (listingWire listing)) =
      .error ⟨.valueError, "FLR broker message exceeds maximum size"⟩ := by
  have least : (listing.entries.map entryWire).length • 67 ≤
      ((listing.entries.map entryWire).map fun item => item.encode.length).sum := by
    have each : ∀ length ∈ (listing.entries.map entryWire).map fun item => item.encode.length,
        67 ≤ length := by
      simp only [List.forall_mem_map]
      exact fun entry _ => length_entryWire entry
    have total := List.card_nsmul_le_sum _ 67 each
    rwa [List.length_map] at total
  have entries := length_encode_list (listing.entries.map entryWire)
  have inner := length_encode_dict [(str "session", sessionWire listing.session),
    (str "path", .text listing.path), (str "entries", .list (listing.entries.map entryWire))]
  have outer := length_encode_dict [(str "ok", .bool true), (str "result", listingWire listing)]
  have long : ¬ (jsonLine (okPayload (listingWire listing))).isOk := by
    rw [jsonLine_isOk, maxMessageBytes]
    simp only [List.map_cons, List.map_nil, List.sum_cons, List.sum_nil, List.length_cons,
      List.length_nil, List.length_map, nsmul_eq_mul, Nat.cast_id] at least entries inner outer
    have wire : (listingWire listing).encode.length = _ := inner
    have payload : (okPayload (listingWire listing)).encode.length = _ := outer
    omega
  rw [cross, if_neg long]

theorem many_links_refused :
    cross (.ok (listingWire ⟨sampleSession.public (str "s1"), str "/",
        List.replicate 16000 ⟨str "ln", .symlink, none, "", false⟩⟩)) =
      .error ⟨.valueError, "FLR broker message exceeds maximum size"⟩ :=
  long_listing_refused (List.length_replicate).ge

end Refinement

section Examples

/-- The broker's own machine, on which a path below a file is asked for. -/
def belowFile : Surroundings where
  clock := fun _ => 0
  answer := fun _ request =>
    match request with
    | .present _ => .ok false
    | .look (.lstat _) => .error ⟨.osError, "[Errno 20] Not a directory"⟩
    | _ => .error ⟨.osError, "[Errno 5] Input/output error"⟩

/-- A broker with one session. -/
def keeping : Broker where
  sessions := Keyed.empty.store (str "s1") sampleSession

/-- A connection of the portal that takes short lines. -/
def portalLink : Link where
  uid := 998
  allowed_uid := 998
  takes := 65536

/-- The class of what was raised. -/
def raisedKind {α : Type} : Except Exn α → Option ErrorKind
  | .ok _ => none
  | .error error => some error.kind

/-- The manager raises an error of the operating system for a path below a file, and the
portal raises another class. -/
theorem broker_changes_class :
    raisedKind (run belowFile.handler (listManaged mounting id (str "s1") (str "/etc/passwd/x")
      (str "alice") false) keeping).1 = some .osError ∧
    raisedKind (run belowFile.handler (listRemote mounting id portalLink (str "s1")
      (str "/etc/passwd/x") (str "alice")) keeping).1 = some .runtimeError := by
  decide

/-- A refinement in a run. -/
theorem broker_refines_sample :
    (run belowFile.handler (listRemote mounting id portalLink (str "s1") (str "/etc/passwd/x")
        (str "alice")) keeping).1 =
      through portalLink "list" (str "s1") (str "/etc/passwd/x") (str "alice")
        (fun session_id user_path caller => (run belowFile.handler
          (listManaged mounting id session_id user_path caller false) keeping).1.map listingWire) :=
  (broker_refines_manager belowFile mounting id portalLink keeping (str "s1") (str "/etc/passwd/x")
    (str "alice") false
    (fun _ written => (length_jsonLine written).trans_le (by decide))
    (fun _ written => (length_jsonLine written).trans_le (by decide))).1

end Examples

end Immutavault.BrokerRefinement
