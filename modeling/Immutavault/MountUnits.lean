import Immutavault.JsonRoundTrips
import Immutavault.ManagementService
import Immutavault.SettingFiles

/-!
# The files of a mounted share

A share that a storage target lies on is mounted by a unit of the system's manager. The
service writes the unit line by line from texts of the request, and for an SMB share a second
file that holds the user's name and the password. The manager and the mount program read
these files line by line; the manager joins a line whose end is escaped with the next one.

Of the texts only the source is checked for ends of lines, so the files say what was meant
just when the others hold none either, the path begins and ends with no blank, and neither
the source nor the path escapes the end of its line. What the path resolves to
is always below the directory of the targets.
-/

namespace Immutavault.MountUnits

open Programs ManagementService SettingFiles SettingFiles.Signs
open Values (raiseRuntimeError lowered)
open DRConfigurations (refuse_eq_ok)
open SessionOwnership (printed)
open GuestFiles (CodePoint Str str strip isSpace)
open JsonTexts (Floating Value)
open SetupRequests (strippedAt textOr)

section Formats

def newline : CodePoint := 10

/-- Units end lines at a line feed, a carriage return or a null character. -/
def unitSigns : Signs CodePoint where
  isEnd point := point.val = 10 ∨ point.val = 13 ∨ point.val = 0
  isBlank point := point.val = 32 ∨ point.val = 9 ∨ point.val = 10 ∨ point.val = 13
  isHash point := point.val = 35 ∨ point.val = 59
  brackets := some (91, 93)
  assigns := 61
  escape := some 92
  space := 32
  space_inside := by decide
  assigns_other := by decide

/-- Files of credentials know lines and the sign of equality only. -/
def credentialSigns : Signs CodePoint where
  isEnd point := point.val = 10
  isBlank _ := false
  isHash _ := false
  brackets := none
  assigns := 61
  escape := none
  space := 32
  space_inside := by decide
  assigns_other := by decide

/-- The items in front of the mount. -/
def frontItems : List (Item CodePoint) :=
  [.heading (str "Unit"),
    .assignment (str "Description") (str "Immutavault managed backup storage mount"),
    .assignment (str "After") (str "network-online.target"),
    .assignment (str "Wants") (str "network-online.target"),
    .heading (str "Mount")]

def backItems : List (Item CodePoint) :=
  [.assignment (str "TimeoutSec") (str "120"),
    .heading (str "Install"),
    .assignment (str "WantedBy") (str "multi-user.target")]

/-- What a unit is meant to say. -/
def meantUnit (spec : MountSpec) (options : Str) : List (Item CodePoint) :=
  frontItems ++ .assignment (str "What") spec.source :: .assignment (str "Where") spec.target ::
    .assignment (str "Type") (str spec.mount_type.text) ::
    .assignment (str "Options") options :: backItems

def meantCredentials (spec : MountSpec) : List (Item CodePoint) :=
  [.assignment (str "username") spec.username, .assignment (str "password") spec.password]

/-- Both files say what was meant. -/
structure Meant (credentials : Str) (spec : MountSpec) : Prop where
  unit : unitSigns.read (mountUnit spec (mountOptions credentials spec.mount_type)) =
    meantUnit spec (mountOptions credentials spec.mount_type)
  credentials : spec.mount_type = .cifs →
    credentialSigns.read (credentialsText spec) = meantCredentials spec

/-- The texts of a request that can be written into the files. -/
structure Spliceable (spec : MountSpec) : Prop where
  target_inside : ∀ point ∈ spec.target, unitSigns.isEnd point = false
  target_trimmed : trim unitSigns.isBlank spec.target = spec.target
  target_open : unitSigns.escapes spec.target = false
  source_open : unitSigns.escapes spec.source = false
  credentials_inside : spec.mount_type = .cifs →
    newline ∉ spec.username ∧ newline ∉ spec.password

end Formats

section Units

/-- A text stays inside its line when each of its signs does. -/
theorem inside_of_all {isEnd : CodePoint → Bool} {text : Str}
    (each : (text.all fun point => ! isEnd point) = true) :
    ∀ point ∈ text, isEnd point = false := by
  intro point member
  simpa using List.all_eq_true.mp each point member

variable {spec : MountSpec} {options : Str}

/-- The lines of a unit in front of those that name the mount. -/
def frontLines : List Str :=
  [str "[Unit]", str "Description=Immutavault managed backup storage mount",
    str "After=network-online.target", str "Wants=network-online.target", [], str "[Mount]"]

/-- The lines behind the options. -/
def backLines : List Str :=
  [str "TimeoutSec=120", [], str "[Install]", str "WantedBy=multi-user.target"]

def unitLines (spec : MountSpec) (options : Str) : List Str :=
  frontLines ++ (unitSigns.assigning (str "What") spec.source ::
    unitSigns.assigning (str "Where") spec.target ::
    unitSigns.assigning (str "Type") (str spec.mount_type.text) ::
    unitSigns.assigning (str "Options") options :: backLines)

theorem mountUnit_lines : mountUnit spec options = written newline (unitLines spec options) := by
  have front : str "[Unit]\nDescription=Immutavault managed backup storage mount\n" ++
      str "After=network-online.target\nWants=network-online.target\n\n[Mount]\nWhat=" =
        written newline frontLines ++ (str "What" ++ [61]) := by decide +kernel
  have between : str "\nWhere=" = newline :: (str "Where" ++ [61]) := rfl
  have kind : str "\nType=" = newline :: (str "Type" ++ [61]) := rfl
  have chosen : str "\nOptions=" = newline :: (str "Options" ++ [61]) := rfl
  have back : str "\nTimeoutSec=120\n\n[Install]\nWantedBy=multi-user.target\n" =
      newline :: written newline backLines := by decide
  rw [mountUnit, front, between, kind, chosen, back]
  simp [unitLines, written, Signs.assigning, unitSigns]

theorem front_own : ∀ line ∈ frontLines, unitSigns.stands line = true :=
  List.all_eq_true.mp (by decide : frontLines.all unitSigns.stands = true)

theorem back_own : ∀ line ∈ backLines, unitSigns.stands line = true :=
  List.all_eq_true.mp (by decide : backLines.all unitSigns.stands = true)

theorem front_items : frontLines.filterMap unitSigns.itemOf = frontItems := by decide

theorem back_items : backLines.filterMap unitSigns.itemOf = backItems := by decide

theorem keys_named : unitSigns.isKey (str "What") = true ∧ unitSigns.isKey (str "Where") = true ∧
    unitSigns.isKey (str "Type") = true ∧ unitSigns.isKey (str "Options") = true := by
  decide

/-- The texts that the service checks or chooses itself. -/
structure Sound (spec : MountSpec) (options : Str) : Prop where
  source_inside : ∀ point ∈ spec.source, unitSigns.isEnd point = false
  source_trimmed : trim unitSigns.isBlank spec.source = spec.source
  options_inside : ∀ point ∈ options, unitSigns.isEnd point = false
  options_trimmed : trim unitSigns.isBlank options = options
  options_open : unitSigns.escapes options = false

/-- No line of a unit holds an end of a line when no text does. -/
theorem unit_inside (sound : Sound spec options)
    (inside : ∀ point ∈ spec.target, unitSigns.isEnd point = false) :
    ∀ line ∈ unitLines spec options, ∀ point ∈ line, unitSigns.isEnd point = false := by
  have fixed : (frontLines ++ str "What" :: str "Where" :: str "Type" :: str "Options" ::
      str MountType.nfs.text :: str MountType.cifs.text :: backLines).all
        (fun line => line.all fun point => ! unitSigns.isEnd point) = true := by decide
  have plain : ∀ line ∈ frontLines ++ str "What" :: str "Where" :: str "Type" :: str "Options" ::
      str MountType.nfs.text :: str MountType.cifs.text :: backLines,
        ∀ point ∈ line, unitSigns.isEnd point = false :=
    fun line member => inside_of_all (List.all_eq_true.mp fixed line member)
  have kind : ∀ point ∈ str spec.mount_type.text, unitSigns.isEnd point = false := by
    cases spec.mount_type with
    | nfs => exact plain _ (by simp)
    | cifs => exact plain _ (by simp)
  intro line member
  simp only [unitLines, List.mem_append, List.mem_cons] at member
  rcases member with front | rfl | rfl | rfl | rfl | back
  · exact plain line (List.mem_append_left _ front)
  · exact inside_assigning (plain _ (by simp)) rfl sound.source_inside
  · exact inside_assigning (plain _ (by simp)) rfl inside
  · exact inside_assigning (plain _ (by simp)) rfl kind
  · exact inside_assigning (plain _ (by simp)) rfl sound.options_inside
  · exact plain line (List.mem_append_right _ (by simp [back]))

theorem kind_plain : unitSigns.escapes (str spec.mount_type.text) = false ∧
    trim unitSigns.isBlank (str spec.mount_type.text) = str spec.mount_type.text := by
  cases spec.mount_type with
  | nfs => decide
  | cifs => decide

/-- The lines that are read of a unit. -/
theorem read_unit (sound : Sound spec options)
    (inside : ∀ point ∈ spec.target, unitSigns.isEnd point = false) :
    unitSigns.read (mountUnit spec options) = frontItems ++
      (unitSigns.wholeLines [] (unitSigns.assigning (str "What") spec.source ::
        unitSigns.assigning (str "Where") spec.target ::
        unitSigns.assigning (str "Type") (str spec.mount_type.text) ::
        unitSigns.assigning (str "Options") options ::
        (backLines ++ [[]]))).filterMap unitSigns.itemOf := by
  rw [mountUnit_lines, Signs.read, split_written rfl (unit_inside sound inside), unitLines,
    List.append_assoc, wholeLines_append front_own, List.filterMap_append, front_items]
  simp only [List.cons_append]

/-- What stands behind the lines that name the mount is always read. -/
theorem back_read : (unitSigns.wholeLines [] (backLines ++ [[]])).filterMap unitSigns.itemOf =
    backItems := by
  rw [wholeLines_append back_own, List.filterMap_append, back_items]
  rfl

/-- A unit whose texts can be written says what was meant. -/
theorem unit_meant (sound : Sound spec options)
    (inside : ∀ point ∈ spec.target, unitSigns.isEnd point = false)
    (trimmed : trim unitSigns.isBlank spec.target = spec.target)
    (target_open : unitSigns.escapes spec.target = false)
    (source_open : unitSigns.escapes spec.source = false) :
    unitSigns.read (mountUnit spec options) = meantUnit spec options := by
  obtain ⟨what, where_, type, chosen⟩ := keys_named
  obtain ⟨kind_open, kind_trimmed⟩ := @kind_plain spec
  rw [read_unit sound inside, wholeLines_cons (stands_assigning what source_open) rfl,
    wholeLines_cons (stands_assigning where_ target_open) rfl,
    wholeLines_cons (stands_assigning type kind_open) rfl,
    wholeLines_cons (stands_assigning chosen sound.options_open) rfl]
  simp only [List.nil_append]
  rw [List.filterMap_cons_some (itemOf_assigning what),
    List.filterMap_cons_some (itemOf_assigning where_),
    List.filterMap_cons_some (itemOf_assigning type),
    List.filterMap_cons_some (itemOf_assigning chosen), back_read, sound.source_trimmed, trimmed,
    kind_trimmed, sound.options_trimmed, meantUnit]

theorem space_open (text : Str) : unitSigns.escapes (text ++ [unitSigns.space]) = false :=
  escapes_concat (by decide)

/-- When the line of the source goes on with that of the path, no item names the path. -/
theorem source_continued (sound : Sound spec options)
    (inside : ∀ point ∈ spec.target, unitSigns.isEnd point = false)
    (escaped : unitSigns.escapes spec.source = true) :
    unitSigns.read (mountUnit spec options) ≠ meantUnit spec options := by
  obtain ⟨what, where_, type, chosen⟩ := keys_named
  obtain ⟨kind_open, _⟩ := @kind_plain spec
  have filled : spec.source ≠ [] := by
    intro empty
    rw [empty] at escaped
    cases escaped
  have apart : ∀ given (key : Str) value, key ≠ str "Where" → ∀ items,
      frontItems ++ .assignment (str "What") given :: .assignment key value :: items ≠
        meantUnit spec options := by
    intro given key value other items same
    rw [meantUnit, List.append_cancel_left_eq, List.cons.injEq, List.cons.injEq] at same
    exact other (Item.assignment.inj same.2.1).1
  rw [read_unit sound inside, wholeLines_escaped (isComment_assigning what)
    (by rw [List.nil_append, escapes_assigning]; exact escaped), List.nil_append,
    dropLast_assigning filled, assigning_append]
  cases target_open : unitSigns.escapes spec.target with
  | false =>
    obtain ⟨given, items, read⟩ := items_begun what (space_open _)
      (stands_assigning where_ target_open) type kind_open
    rw [read]
    exact apart _ _ _ (by decide) _
  | true =>
    have joined : unitSigns.escapes (unitSigns.assigning (str "What")
        (spec.source.dropLast ++ [unitSigns.space]) ++
          unitSigns.assigning (str "Where") spec.target) = true := by
      rw [escapes_append (escapes_assigning.trans (space_open _)), escapes_assigning]
      exact target_open
    rw [wholeLines_escaped (isComment_assigning where_) joined, assigning_append,
      dropLast_assigning (by simp), assigning_append]
    obtain ⟨given, items, read⟩ := items_begun what (space_open _)
      (stands_assigning type kind_open) chosen sound.options_open
    rw [read]
    exact apart _ _ _ (by decide) _

/-- When the line of the path goes on with that of the type, no item names the type. -/
theorem target_continued (sound : Sound spec options)
    (inside : ∀ point ∈ spec.target, unitSigns.isEnd point = false)
    (source_open : unitSigns.escapes spec.source = false)
    (escaped : unitSigns.escapes spec.target = true) :
    unitSigns.read (mountUnit spec options) ≠ meantUnit spec options := by
  obtain ⟨what, where_, type, chosen⟩ := keys_named
  obtain ⟨kind_open, _⟩ := @kind_plain spec
  have filled : spec.target ≠ [] := by
    intro empty
    rw [empty] at escaped
    cases escaped
  rw [read_unit sound inside, wholeLines_cons (stands_assigning what source_open) rfl,
    List.nil_append, List.filterMap_cons_some (itemOf_assigning what),
    wholeLines_escaped (isComment_assigning where_)
      (by rw [List.nil_append, escapes_assigning]; exact escaped), List.nil_append,
    dropLast_assigning filled, assigning_append]
  obtain ⟨given, items, read⟩ := items_begun where_ (space_open _)
    (stands_assigning type kind_open) chosen sound.options_open
  rw [read, meantUnit]
  intro same
  rw [List.append_cancel_left_eq, List.cons.injEq, List.cons.injEq, List.cons.injEq] at same
  have other : str "Options" ≠ str "Type" := by decide
  exact other (Item.assignment.inj same.2.2.1).1

/-- A unit says what was meant just when its texts can be written. -/
theorem unit_meant_iff (sound : Sound spec options) :
    unitSigns.read (mountUnit spec options) = meantUnit spec options ↔
      (∀ point ∈ spec.target, unitSigns.isEnd point = false) ∧
      trim unitSigns.isBlank spec.target = spec.target ∧
      unitSigns.escapes spec.target = false ∧ unitSigns.escapes spec.source = false := by
  constructor
  · intro read
    have member : .assignment (str "Where") spec.target ∈
        unitSigns.read (mountUnit spec options) := by
      rw [read, meantUnit]
      simp
    obtain ⟨trimmed, inside⟩ := value_of_read member
    have source_open : unitSigns.escapes spec.source = false := by
      by_contra escaped
      exact source_continued sound inside (by simpa using escaped) read
    refine ⟨inside, trimmed, ?_, source_open⟩
    by_contra escaped
    exact target_continued sound inside source_open (by simpa using escaped) read
  · rintro ⟨inside, trimmed, target_open, source_open⟩
    exact unit_meant sound inside trimmed target_open source_open

end Units

section Credentials

variable {spec : MountSpec}

theorem credentialsText_lines : credentialsText spec = written newline
    [credentialSigns.assigning (str "username") spec.username,
      credentialSigns.assigning (str "password") spec.password] := by
  have user : str "username=" = str "username" ++ [61] := rfl
  have word : str "\npassword=" = newline :: (str "password" ++ [61]) := rfl
  have end_ : str "\n" = [newline] := rfl
  rw [credentialsText, user, word, end_]
  simp [written, Signs.assigning, credentialSigns]

/-- The credentials are read as they were given just when neither holds an end of a line. -/
theorem credentials_meant_iff : credentialSigns.read (credentialsText spec) =
    meantCredentials spec ↔ newline ∉ spec.username ∧ newline ∉ spec.password := by
  have ends : ∀ {text : Str}, newline ∉ text ↔
      ∀ point ∈ text, credentialSigns.isEnd point = false := by
    intro text
    constructor
    · intro absent point member
      refine decide_eq_false fun same => absent ?_
      rwa [show newline = point from Fin.ext same.symm]
    · intro inside member
      exact absurd (inside newline member) (by decide)
  constructor
  · intro read
    rw [ends, ends]
    constructor
    · exact (value_of_read (by rw [read]; simp [meantCredentials] :
        .assignment (str "username") spec.username ∈ credentialSigns.read _)).2
    · exact (value_of_read (by rw [read]; simp [meantCredentials] :
        .assignment (str "password") spec.password ∈ credentialSigns.read _)).2
  · rw [ends, ends]
    rintro ⟨user_inside, word_inside⟩
    have named : credentialSigns.isKey (str "username") = true ∧
        credentialSigns.isKey (str "password") = true := by decide
    have fixed : [str "username", str "password"].all
        (fun key => key.all fun point => ! credentialSigns.isEnd point) = true := by
      decide
    have plain : ∀ key ∈ [str "username", str "password"], ∀ point ∈ key,
        credentialSigns.isEnd point = false :=
      fun key member => inside_of_all (List.all_eq_true.mp fixed key member)
    have open_ : ∀ text, credentialSigns.escapes text = false := by
      intro text
      induction text using List.reverseRecOn with
      | nil => rfl
      | append_singleton front last _ => exact escapes_concat (by simp [credentialSigns])
    have whole : ∀ text, trim credentialSigns.isBlank text = text := by
      intro text
      exact trim_eq_self (fun _ _ => rfl) fun _ _ => rfl
    rw [credentialsText_lines, read_written rfl]
    · rw [List.filterMap_cons_some (itemOf_assigning named.1),
        List.filterMap_cons_some (itemOf_assigning named.2), whole, whole]
      rfl
    · intro line member
      rcases List.mem_cons.mp member with rfl | member
      · exact inside_assigning (plain _ (by simp)) rfl user_inside
      · obtain rfl := List.mem_singleton.mp member
        exact inside_assigning (plain _ (by simp)) rfl word_inside
    · intro line member
      rcases List.mem_cons.mp member with rfl | member
      · exact stands_assigning named.1 (open_ _)
      · obtain rfl := List.mem_singleton.mp member
        exact stands_assigning named.2 (open_ _)

end Credentials

section Requests

variable {Φ : Type} [Floating Φ] {isalnum : CodePoint → Bool} {resolve : Str → Str}
  {body : List (Str × Value Φ)} {spec : MountSpec}

/-- White space of a unit is white space everywhere. -/
theorem strip_trimmed (text : Str) : trim unitSigns.isBlank (strip text) = strip text := by
  have wider : ∀ point, unitSigns.isBlank point = true → isSpace point = true := by
    intro point blank
    have narrow : point.val = 32 ∨ point.val = 9 ∨ point.val = 10 ∨ point.val = 13 :=
      of_decide_eq_true blank
    apply decide_eq_true
    omega
  exact trim_trim wider

/-- What a request that is accepted guarantees. -/
theorem mountSpec_accepted (accepted : mountSpec resolve body = .ok spec) :
    spec.source = strippedAt body "mount_source" ∧
      (∀ point ∈ spec.source, unitSigns.isEnd point = false) ∧
      isBelow (resolve (str "/srv/immutavault/storage")) spec.target = true := by
  unfold mountSpec at accepted
  obtain ⟨_, plain, accepted⟩ := Values.bind_eq_ok.mp accepted
  obtain ⟨_, _, accepted⟩ := Values.bind_eq_ok.mp accepted
  obtain ⟨_, _, accepted⟩ := Values.bind_eq_ok.mp accepted
  obtain ⟨_, _, accepted⟩ := Values.bind_eq_ok.mp accepted
  obtain ⟨_, below, accepted⟩ := Values.bind_eq_ok.mp accepted
  obtain ⟨_, _, accepted⟩ := Values.bind_eq_ok.mp accepted
  obtain rfl := Except.ok.inj accepted
  have sound := refuse_eq_ok.mp plain
  have inside := refuse_eq_ok.mp below
  refine ⟨rfl, ?_, eq_true_of_ne_false inside⟩
  intro point member
  apply decide_eq_false
  intro control
  apply sound
  exact Or.inr ⟨point, member, by omega⟩

/-- Names of files consist of letters and digits, as they are known, and of hyphens. -/
theorem credentials_inside
    (letters : ∀ point, isalnum point = true → unitSigns.isEnd point = false) :
    ∀ point ∈ credentialsPath isalnum body, unitSigns.isEnd point = false := by
  have plain : ∀ point ∈ str "/etc/immutavault/mount-" ++ str ".credentials",
      unitSigns.isEnd point = false := inside_of_all (by decide)
  intro point member
  rw [credentialsPath, credentialsFile, List.mem_append, List.mem_append] at member
  rcases member with (front | name) | back
  · exact plain point (List.mem_append_left _ front)
  · obtain ⟨original, _, same⟩ := List.mem_map.mp (List.mem_of_mem_take name)
    split at same
    · rename_i letter
      exact same ▸ letters original letter
    · rw [← same]
      decide
  · exact plain point (List.mem_append_right _ back)

/-- The options hold no end of a line and no blank at an end. -/
theorem options_sound (kind : MountType) {credentials : Str}
    (inside : ∀ point ∈ credentials, unitSigns.isEnd point = false) :
    (∀ point ∈ mountOptions credentials kind, unitSigns.isEnd point = false) ∧
      trim unitSigns.isBlank (mountOptions credentials kind) = mountOptions credentials kind ∧
      unitSigns.escapes (mountOptions credentials kind) = false := by
  cases kind with
  | nfs =>
    have whole : trim unitSigns.isBlank (str "rw,hard,noatime,nosuid,nodev,_netdev") =
        str "rw,hard,noatime,nosuid,nodev,_netdev" := by decide
    have open_ : unitSigns.escapes (str "rw,hard,noatime,nosuid,nodev,_netdev") = false := by
      decide
    have plain : ∀ point ∈ str "rw,hard,noatime,nosuid,nodev,_netdev",
        unitSigns.isEnd point = false := inside_of_all (by decide)
    exact ⟨plain, whole, open_⟩
  | cifs =>
    have plain : ∀ point ∈ str "rw,credentials=" ++ str ",vers=3.1.1,nosuid,nodev,noexec,_netdev",
        unitSigns.isEnd point = false := inside_of_all (by decide)
    have last : str ",vers=3.1.1,nosuid,nodev,noexec,_netdev" =
        str ",vers=3.1.1,nosuid,nodev,noexec,_netde" ++ [118] := by decide
    have first : str "rw,credentials=" = 114 :: str "w,credentials=" := by decide
    refine ⟨fun point member => ?_, ?_, ?_⟩
    · rw [mountOptions, List.mem_append, List.mem_append] at member
      rcases member with (front | own) | back
      · exact plain point (List.mem_append_left _ front)
      · exact inside point own
      · exact plain point (List.mem_append_right _ back)
    · apply trim_eq_self
      · intro point member
        rw [mountOptions, first] at member
        obtain rfl : 114 = point := by simpa using member
        decide
      · intro point member
        rw [mountOptions, last, ← List.append_assoc, List.getLast?_concat] at member
        obtain rfl : 118 = point := by simpa using member
        decide
    · rw [mountOptions, last, ← List.append_assoc]
      exact escapes_concat (by decide)

/-- The files that are written for a mount, with their texts. -/
def WritesOnly (credentials : Str) (spec : MountSpec) : Command → Prop
  | .writeFile path text =>
    (path = credentials ∧ spec.mount_type = .cifs ∧ text = credentialsText spec) ∨
      ∃ unit, str ".mount" <:+ unit ∧ path = unitPath unit ∧
        text = mountUnit spec (mountOptions credentials spec.mount_type)
  | _ => True

theorem writes_checked (credentials : Str) (arguments : List Str) (message : String) :
    Issues (WritesOnly credentials spec) (checked arguments message) := by
  refine issues_bind ((issues_perform _).mpr trivial) fun succeeded => ?_
  cases succeeded with
  | true => exact issues_pure ()
  | false => exact issues_throw _

/-- Whatever the machine answers, the mount writes these two files only. -/
theorem writes_persistMount (credentials : Str) :
    Issues (WritesOnly credentials spec) (persistMount credentials spec) := by
  refine issues_bind ((issues_perform _).mpr trivial) fun _ => ?_
  refine issues_bind ((issues_perform _).mpr trivial) fun unit => ?_
  by_cases mount : str ".mount" <:+ unit
  · refine issues_bind ?_ fun _ => ?_
    · rw [decide_eq_true mount]
      exact issues_pure ()
    refine issues_bind ?_ fun _ => ?_
    · unfold writeCredentials
      split
      · exact issues_pure ()
      · rename_i kind
        refine issues_bind ((issues_perform _).mpr (Or.inl ⟨rfl, kind, rfl⟩)) fun _ => ?_
        exact (issues_perform _).mpr trivial
    refine issues_bind ((issues_perform _).mpr (Or.inr ⟨unit, mount, rfl, rfl⟩)) fun _ => ?_
    refine issues_bind ((issues_perform _).mpr trivial) fun _ => ?_
    refine issues_bind (writes_checked _ _ _) fun _ => ?_
    exact issues_bind (writes_checked _ _ _) fun _ => writes_checked _ _ _
  · have refused : (cond (decide (str ".mount" <:+ unit)) (return ())
        (raiseRuntimeError "systemd-escape did not return a mount unit") : Prog Unit) =
          raiseRuntimeError "systemd-escape did not return a mount unit" := by
      rw [decide_eq_false mount]
      rfl
    rw [refused]
    exact issues_throw _

end Requests

section Shares

open JsonTexts (Constant)

/-- A request for a share of a file server. -/
def share (password : String) : List (Str × Value Constant) :=
  [(str "name", .text (str "share")), (str "mount_type", .text (str "cifs")),
    (str "mount_source", .text (str "//nas/backup")), (str "mount_username", .text (str "svc")),
    (str "mount_password", .text (str password))]

def shareSpec (password : String) : MountSpec :=
  ⟨.cifs, str "//nas/backup", str "/srv/immutavault/storage/share", str "svc", str password⟩

/-- The request is accepted when its password, the only text left open, is given. -/
theorem mountSpec_share (password : String)
    (given : textOr (share password) "mount_password" [] = str password)
    (filled : str password ≠ []) :
    mountSpec id (share password) = .ok (shareSpec password) := by
  have source : strippedAt (share password) "mount_source" = str "//nas/backup" := rfl
  have type : strippedAt (share password) "mount_type" = str "cifs" := rfl
  have kind : ([MountType.nfs, .cifs].find? fun kind =>
      kind.text = lowered (printed (str "cifs"))) = some .cifs := by decide
  have name : strippedAt (share password) "name" = str "share" := rfl
  have path : strippedAt (share password) "path" = [] := rfl
  have user : strippedAt (share password) "mount_username" = str "svc" := rfl
  have plain : ¬ (str "//nas/backup" = [] ∨
      ∃ point ∈ str "//nas/backup", point.val = 13 ∨ point.val = 10 ∨ point.val = 0) := by
    have inside : (str "//nas/backup").all (fun point => 32 ≤ point.val) = true := by
      decide
    rintro (empty | ⟨point, member, control⟩)
    · cases empty
    · have large : 32 ≤ point.val := by simpa using List.all_eq_true.mp inside point member
      omega
  have shared : ¬ (True ∧ ¬ str "//" <+: str "//nas/backup") := by
    decide
  have below : ¬ isBelow (str "/srv/immutavault/storage")
      (joined (str "/srv/immutavault/storage") (str "share")) = false := by decide
  have named : ¬ (True ∧ (str "svc" = [] ∨ str password = [])) := by
    rintro ⟨_, empty | empty⟩
    · cases empty
    · exact filled empty
  have target : joined (str "/srv/immutavault/storage") (str "share") =
      str "/srv/immutavault/storage/share" := by decide
  have exported : ¬ (some MountType.cifs = some .nfs ∧ ¬ str ":" <:+: str "//nas/backup") := by
    decide
  have known : ¬ (some MountType.cifs = none) := by decide
  unfold mountSpec
  simp only [source, type, kind, name, path, user, given, id_eq, if_pos]
  refine Values.bind_eq_ok.mpr ⟨(), refuse_eq_ok.mpr plain, ?_⟩
  refine Values.bind_eq_ok.mpr ⟨(), refuse_eq_ok.mpr known, ?_⟩
  refine Values.bind_eq_ok.mpr ⟨(), refuse_eq_ok.mpr exported, ?_⟩
  refine Values.bind_eq_ok.mpr ⟨(), refuse_eq_ok.mpr shared, ?_⟩
  refine Values.bind_eq_ok.mpr ⟨(), refuse_eq_ok.mpr below, ?_⟩
  refine Values.bind_eq_ok.mpr ⟨(), refuse_eq_ok.mpr named, ?_⟩
  rw [target]
  rfl

end Shares

end Immutavault.MountUnits
