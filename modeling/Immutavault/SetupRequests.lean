import Immutavault.EnterpriseFields

/-!
# Requests that set up platforms and storage

A platform or a storage target is set up from the body of a request. The body becomes an
entry of the configuration and the environment variables that hold its secrets. The entry
names these variables; their names are made from the display name, of which only the ASCII
letters and digits count: they are written in upper case, and one underscore stands for
everything between two runs of them.

What a body holds is arbitrary: every field may be missing or of any kind, and its text is
what is used. Texts are lists of code points, lone surrogates included.
-/

namespace Immutavault.SetupRequests

open Values DRConfigurations Configuration
open GuestFiles hiding textOr
open JsonTexts (Value Floating)

section Names

/-- ASCII letters and digits. -/
def isAlphanumeric (point : CodePoint) : Bool :=
  let code := point.val
  48 ≤ code ∧ code ≤ 57 ∨ 65 ≤ code ∧ code ≤ 90 ∨ 97 ≤ code ∧ code ≤ 122

/-- Replace each run of what is neither an ASCII letter nor a digit by one underscore. -/
def underscored : Bool → Str → List Char
  | _, [] => []
  | replaced, point :: rest =>
    if isAlphanumeric point then Char.ofNat point.val :: underscored false rest
    else if replaced then underscored true rest
    else '_' :: underscored true rest

/-- A text without the underscores at its two ends. -/
def stripUnderscores (text : List Char) : List Char :=
  ((text.dropWhile (· = '_')).reverse.dropWhile (· = '_')).reverse

/-- The part of a variable's name that stands for a display name. -/
def name (value : Str) : Except Exn String := do
  let result := (stripUnderscores (underscored false (strip value))).map Char.toUpper
  refuse (result = []) "name is required"
  return String.ofList result

/-- The first letter or digit of a text is a digit. -/
def startsWithDigit (value : Str) : Bool :=
  match value.find? isAlphanumeric with
  | none => false
  | some point => 48 ≤ point.val ∧ point.val ≤ 57

/-- Capital letters, digits and the underscore. -/
def isTagCharacter (character : Char) : Bool :=
  character.isUpper || character.isDigit || character = '_'

theorem upper_code {code : Nat} (small : code < 128) :
    (48 ≤ code ∧ code ≤ 57 ∨ 65 ≤ code ∧ code ≤ 90 ∨ 97 ≤ code ∧ code ≤ 122) →
      isTagCharacter (Char.ofNat code).toUpper = true ∧ Char.ofNat code ≠ '_' ∧
        ((Char.ofNat code).toUpper.isDigit = true ↔ 48 ≤ code ∧ code ≤ 57) := by
  have all : (List.range 128).all (fun code =>
      !decide (48 ≤ code ∧ code ≤ 57 ∨ 65 ≤ code ∧ code ≤ 90 ∨ 97 ≤ code ∧ code ≤ 122) ||
        (isTagCharacter (Char.ofNat code).toUpper && decide (Char.ofNat code ≠ '_') &&
          ((Char.ofNat code).toUpper.isDigit == decide (48 ≤ code ∧ code ≤ 57)))) = true := by
    decide
  intro within
  have own := List.all_eq_true.mp all code (List.mem_range.mpr small)
  simp only [within, decide_true, Bool.not_true, Bool.false_or, Bool.and_eq_true,
    decide_eq_true_eq, beq_iff_eq] at own
  exact ⟨own.1.1, own.1.2, by rw [own.2, decide_eq_true_eq]⟩

theorem tag_point {point : CodePoint} (kept : isAlphanumeric point = true) :
    isTagCharacter (Char.ofNat point.val).toUpper = true ∧ Char.ofNat point.val ≠ '_' ∧
      ((Char.ofNat point.val).toUpper.isDigit = true ↔ 48 ≤ point.val ∧ point.val ≤ 57) := by
  have within := of_decide_eq_true kept
  exact upper_code (by omega) within

/-- Every mark of a replaced text is an underscore or a kept letter. -/
theorem mem_underscored {replaced : Bool} {value : Str} {character : Char}
    (member : character ∈ underscored replaced value) :
    character = '_' ∨ ∃ point, isAlphanumeric point = true ∧ character = Char.ofNat point.val := by
  induction value generalizing replaced with
  | nil => cases member
  | cons point rest inductionHypothesis =>
    rw [underscored] at member
    split at member
    · rename_i kept
      rcases List.mem_cons.mp member with rfl | later
      · exact Or.inr ⟨point, kept, rfl⟩
      · exact inductionHypothesis later
    · split at member
      · exact inductionHypothesis member
      · rcases List.mem_cons.mp member with rfl | later
        · exact Or.inl rfl
        · exact inductionHypothesis later

/-- Without its leading underscore, a replaced text begins with the first kept letter. -/
theorem dropWhile_underscored (replaced : Bool) (value : Str) :
    ((underscored replaced value).dropWhile (· = '_')).head? =
      (value.find? isAlphanumeric).map fun point => Char.ofNat point.val := by
  induction value generalizing replaced with
  | nil => rfl
  | cons point rest inductionHypothesis =>
    cases kept : isAlphanumeric point with
    | true =>
      have other := (tag_point kept).2.1
      simp [underscored, kept, other]
    | false =>
      cases replaced <;> simp [underscored, kept, inductionHypothesis]

/-- Stripping the end keeps a first mark that is no underscore. -/
theorem head?_stripUnderscores (text : List Char) :
    (stripUnderscores text).head? = (text.dropWhile (· = '_')).head? := by
  unfold stripUnderscores
  cases shape : text.dropWhile (· = '_') with
  | nil => rfl
  | cons first rest =>
    have other : first ≠ '_' := by
      have := List.head?_dropWhile_not (fun character : Char => decide (character = '_')) text
      rw [shape] at this
      simpa using this
    rw [List.reverse_cons, List.dropWhile_append]
    split
    · simp [other]
    · simp

theorem filter_dropWhile (text : Str) :
    (text.dropWhile isSpace).filter isAlphanumeric = text.filter isAlphanumeric := by
  induction text with
  | nil => rfl
  | cons point rest inductionHypothesis =>
    cases space : isSpace point with
    | false => simp [space]
    | true =>
      have other : isAlphanumeric point = false := by
        simp only [isSpace, isAlphanumeric, decide_eq_true_eq, decide_eq_false_iff_not] at space ⊢
        omega
      simp [space, other, inductionHypothesis]

theorem find?_strip (value : Str) :
    (strip value).find? isAlphanumeric = value.find? isAlphanumeric := by
  rw [← List.head?_filter, ← List.head?_filter, strip, List.filter_reverse, filter_dropWhile,
    List.filter_reverse, List.reverse_reverse, filter_dropWhile]

/-- A tag consists of capital letters, digits and underscores. It does not begin with an
underscore, and with a digit just when the display name's first letter or digit is one. -/
theorem name_shape {value : Str} {tag : String} (named : name value = .ok tag) :
    (∀ character ∈ tag.toList, isTagCharacter character = true) ∧
      ∃ first rest, tag.toList = first :: rest ∧ first.isDigit = startsWithDigit value := by
  unfold name at named
  obtain ⟨_, filled, done⟩ := bind_eq_ok.mp named
  replace filled := refuse_eq_ok.mp filled
  obtain rfl := Except.ok.inj done
  rw [String.toList_ofList]
  have starts : (stripUnderscores (underscored false (strip value))).head? =
      (value.find? isAlphanumeric).map fun point => Char.ofNat point.val := by
    rw [head?_stripUnderscores, dropWhile_underscored, find?_strip]
  constructor
  · intro character member
    obtain ⟨mark, kept, rfl⟩ := List.mem_map.mp member
    have inner : mark ∈ underscored false (strip value) :=
      List.dropWhile_subset _ (List.mem_reverse.mp (List.dropWhile_subset _
        (List.mem_reverse.mp kept)))
    rcases mem_underscored inner with rfl | ⟨point, alphanumeric, rfl⟩
    · decide
    · exact (tag_point alphanumeric).1
  · cases shape : stripUnderscores (underscored false (strip value)) with
    | nil => exact absurd (by rw [shape]; rfl) filled
    | cons first rest =>
      rw [shape] at starts
      obtain ⟨point, found, same⟩ := Option.map_eq_some_iff.mp starts.symm
      refine ⟨first.toUpper, rest.map Char.toUpper, rfl, ?_⟩
      rw [startsWithDigit, found, ← same, Bool.eq_iff_iff,
        (tag_point (List.find?_some found)).2.2, decide_eq_true_eq]

end Names

section Bodies

variable {Φ : Type} [Floating Φ]

/-- The text of a field, or a default in place of a missing or false value. -/
def textOr (body : List (Str × Value Φ)) (key : String) (default : Str) : Str :=
  (((Value.get? body (str key)).getD .null).orElse (.text default)).toText

/-- The text of a field without white space at its ends. -/
def strippedAt (body : List (Str × Value Φ)) (key : String) : Str := strip (textOr body key [])

/-- The given fields of a request, under their own keys. -/
def filledFields (body : List (Str × Value Φ)) (keys : List String) : List (Str × Value Φ) :=
  (keys.filter fun key => strippedAt body key ≠ []).map fun key =>
    (str key, .text (strippedAt body key))

/-- A field that holds a text. -/
def textField (key : String) (text : Str) : Str × Value Φ := (str key, .text text)

def boolField (key : String) (value : Bool) : Str × Value Φ := (str key, .bool value)

/-- An entry of the configuration with the variables that its secrets go to. -/
structure Prepared (Φ : Type) where
  entry : List (Str × Value Φ)
  env : List (String × Str)

def platformType (typ : Str) : Option PlatformType :=
  [.vmware, .proxmox, .xcpng].find? fun kind => str kind.text = typ

def usernameVariable (tag : String) : String := s!"IMMUTAVAULT_{tag}_USERNAME"

def passwordVariable (tag : String) : String := s!"IMMUTAVAULT_{tag}_PASSWORD"

def sshKeyVariable (tag : String) : String := s!"IMMUTAVAULT_{tag}_SSH_KEY"

variable (b : List (Str × Value Φ))

/-- How a platform is reached through its interface. -/
def vmwarePart (tag : String) : Prepared Φ where
  entry := [textField "mode" (str "hot-clone-export"),
    (str "options", .dict ([textField "username_env" (str (usernameVariable tag)),
      textField "password_env" (str (passwordVariable tag)), boolField "insecure" false,
      boolField "quiesce" true, boolField "quiesce_fallback_crash_consistent" false] ++
        filledFields b ["datacenter", "datastore", "network", "resource_pool"]))]
  env := [(usernameVariable tag, textOr b "username" []),
    (passwordVariable tag, textOr b "password" [])]

def proxmoxOptions : List (Str × Value Φ) :=
  [textField "compress" (str "0"),
    textField "restore_storage" (textOr b "datastore" (str "local-lvm"))]

/-- How a platform is reached over SSH. -/
def sshPart (tag : String) (mode : String) (options : List (Str × Value Φ)) : Prepared Φ where
  entry := [textField "ssh_user" (strip (textOr b "ssh_user" (str "backupsvc"))),
    textField "mode" (str mode),
    (str "options", .dict (textField "ssh_key_env" (str (sshKeyVariable tag)) :: options))]
  env := if strippedAt b "ssh_key_path" = [] then []
    else [(sshKeyVariable tag, strippedAt b "ssh_key_path")]

def platformPart (tag : String) : PlatformType → Prepared Φ
  | .vmware => vmwarePart b tag
  | .proxmox => sshPart b tag "vzdump" (proxmoxOptions b)
  | .xcpng => sshPart b tag "snapshot-export" (filledFields b ["restore_sr_uuid"])

/-- The entry and the variables of a platform. -/
def platform : Except Exn (Prepared Φ) :=
  match platformType (strippedAt b "type") with
  | none => .error ⟨.valueError, "name, endpoint and a supported type are required"⟩
  | some kind => do
    refuse (strippedAt b "name" = [] ∨ strippedAt b "endpoint" = [])
      "name, endpoint and a supported type are required"
    let tag ← name (strippedAt b "name")
    let part := platformPart b tag kind
    return {
      entry := [textField "name" (strippedAt b "name"), textField "type" (strippedAt b "type"),
        boolField "enabled" true, textField "endpoint" (strippedAt b "endpoint"),
        (str "include", .list [.text (str "*")]), (str "exclude", .list [])] ++ part.entry
      env := part.env }

def repositoryVariable (tag : String) : String := s!"RESTIC_{tag}_PASSWORD"

def accessKeyVariable (tag : String) : String := s!"{tag}_ACCESS_KEY_ID"

def secretKeyVariable (tag : String) : String := s!"{tag}_SECRET_ACCESS_KEY"

def intField (key : String) (value : Int) : Str × Value Φ := (str key, .int value)

/-- How a bucket keeps its objects from being deleted. -/
def lockFields (named : Str) (immutable : Bool) (days : Int) : Bool → List (Str × Value Φ)
  | true => [boolField "object_lock_enabled" false, boolField "r2_bucket_lock_enabled" immutable,
      intField "r2_bucket_lock_days" days,
      textField "r2_lock_rule_id" (str "immutavault-" ++ named ++ str "-retention"),
      textField "r2_account_id_env" (str "CLOUDFLARE_ACCOUNT_ID"),
      textField "r2_api_token_env" (str "CLOUDFLARE_API_TOKEN")]
  | false => [boolField "object_lock_enabled" immutable,
      textField "object_lock_mode" (str "COMPLIANCE"), intField "object_lock_days" days]

/-- A bucket; a provider's own lock needs a region and has other fields. -/
def s3Part (named : Str) (tag : String) : Except Exn (Prepared Φ) := do
  refuse (strippedAt b "endpoint" = [] ∨ strippedAt b "bucket" = [])
    "S3 endpoint and bucket are required"
  let lock_days ← (((Value.get? b (str "lock_days")).getD .null).orElse (.int 30)).toInt
  let immutable := ((Value.get? b (str "immutable")).getD (.bool true)).truthy
  let provider := textOr b "provider" (str "custom")
  let isR2 := provider = str "cloudflare_r2"
  let region := strippedAt b "region"
  return {
    entry := [textField "provider" provider, textField "endpoint" (strippedAt b "endpoint"),
      textField "region" (if isR2 ∧ region = [] then str "auto" else region),
      textField "bucket" (strippedAt b "bucket"),
      textField "prefix" (strip (textOr b "prefix" (str "prod"))), intField "connections" 10,
      textField "access_key_env" (str (accessKeyVariable tag)),
      textField "secret_key_env" (str (secretKeyVariable tag))] ++
        lockFields named immutable (max 1 lock_days) isR2
    env := [(accessKeyVariable tag, textOr b "access_key" []),
      (secretKeyVariable tag, textOr b "secret_key" [])] }

def filesystemPart : Except Exn (Prepared Φ) := do
  refuse (strippedAt b "path" = []) "mounted filesystem path is required"
  return ⟨[textField "path" (strippedAt b "path"), boolField "mount_required" true,
    textField "mount_source" (strippedAt b "mount_source")], []⟩

/-- Another vault; its address may be given as an endpoint. -/
def restPart : Except Exn (Prepared Φ) := do
  let endpoint := ((Value.get? b (str "endpoint")).getD .null).orElse (.text [])
  let url := strip (((Value.get? b (str "url")).getD .null).orElse endpoint).toText
  refuse (¬ str "rest:" <+: url) "second-vault URL must start with rest:"
  return ⟨[textField "url" url], []⟩

def backendOf (backend : Str) : Option Backend :=
  [.s3, .filesystem, .rest].find? fun kind => str kind.text = backend

def replicaPart (named : Str) (tag : String) : Backend → Except Exn (Prepared Φ)
  | .s3 => s3Part b named tag
  | .filesystem => filesystemPart b
  | .rest => restPart b

/-- The entry and the variables of a storage target. -/
def replica : Except Exn (Prepared Φ) :=
  match backendOf (strippedAt b "backend") with
  | none => .error ⟨.valueError, "storage name and backend are required"⟩
  | some kind => do
    refuse (strippedAt b "name" = []) "storage name and backend are required"
    let tag ← name (strippedAt b "name")
    let part ← replicaPart b (strippedAt b "name") tag kind
    return {
      entry := [textField "name" (strippedAt b "name"), boolField "enabled" true,
        textField "backend" (strippedAt b "backend"),
        textField "password_env" (str (repositoryVariable tag))] ++ part.entry
      env := (repositoryVariable tag, textOr b "password" []) :: part.env }

end Bodies

end Immutavault.SetupRequests
