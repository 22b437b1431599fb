import Immutavault.EnterpriseFields
import Immutavault.SignedTokens

/-!
# The rows of the portal's users

A user of the portal is an entry of a list. The core configuration keeps the name, the
role, the variable of the token and the patterns of every entry, and the enterprise
configuration reads the list once more for the tenants, which it keeps under the name. A
request with a local token takes the role of the first entry whose token is equal, the
tenants that are kept under the name of that entry, and the patterns of the first entry
with that name.

Names are not checked for being distinct, and the second reading passes over an entry
whose name is false, such as the number zero, although the first one keeps it. So what
applies to a request need not be one entry; stated here is exactly when it is. Patterns are
values of any kind, since the loader does not look at them.
-/

namespace Immutavault.UserRows

open Values Configuration DRConfigurations EnterpriseFields Tenancy Portal SignedTokens
open GuestFiles (Str str)
open ResticRepository (Environ)
open RawValue KindedValue

/-- What the core configuration keeps of an entry, with patterns of any kind. -/
structure UserRow (P : Type) where
  name : String
  role : String
  token_env : String
  sources : List P
  vm_patterns : List P

section Loading

variable {V : Type} [KindedValue V]

/-- The text of what has to be there: not null, and not the empty text. -/
def require (item : V) (key : String) : Except Exn String :=
  let missing := s!"missing required config key: {key}"
  do
    match given (← get? item key) with
    | none => .error ⟨.valueError, missing⟩
    | some value =>
      let text ← toText value
      refuse (text = "") missing
      return text

/-- The patterns under a key: what a loop goes through, or the star. -/
def patternsAt (item : V) (key : String) : Except Exn (List V) := do
  match ← get? item key with
  | none => return [ofText "*"]
  | some value => iterated value

def allowedRoles : List String := ["viewer", "restore_operator", "approver", "admin"]

def userRow (item : V) : Except Exn (UserRow V) := do
  let role := lowered (← textAt item "role" "viewer")
  refuse (role ∉ allowedRoles) s!"unsupported portal role: {role}"
  let name ← require item "name"
  let token_env ← require item "token_env"
  let sources ← patternsAt item "sources"
  let vm_patterns ← patternsAt item "vm_patterns"
  return { name, role, token_env, sources, vm_patterns }

/-- The tenants of an entry. -/
def scopesOf (item : V) : Except Exn (List String) := do
  stringList (← get? item "tenants") ["*"]

/-- An entry with a name that is not false. -/
def named (item : V) : Bool :=
  match get? item "name" with
  | .ok (some name) => match truthy name with
    | .ok filled => filled
    | .error _ => false
  | _ => false

/-- What the second reading keeps of an entry. What is no dictionary has no name. -/
def tenantEntry (configured : List String) (item : V) :
    Except Exn (Option (String × List String)) :=
  match get? item "name" with
  | .error _ | .ok none => .ok none
  | .ok (some name) => do
    let filled ← truthy name
    cond filled (do
        let scopes ← scopesOf item
        let invalid := unknownScopes configured scopes
        refuse (invalid ≠ []) s!"portal user {reprText name} references unknown tenant(s): {
          Json.repr (.arr (invalid.map .str))}"
        let text ← toText name
        return some (text, scopes))
      (return none)

/-- The users of an accepted list, and the tenants under their names. -/
structure Users (P : Type) where
  users : List (UserRow P)
  user_tenants : List (String × List String)

def loadUsers (configured : List String) (items : List V) : Except Exn (Users V) := do
  let users ← items.mapM userRow
  let kept ← items.mapM (tenantEntry configured)
  return ⟨users, kept.filterMap id⟩

end Loading

/-- The settings of local tokens, and the environment that they are read from. -/
structure LocalTokens where
  oidc_enabled : Bool
  allow_local_tokens : Bool
  getenv : Environ

namespace LocalTokens

variable (tokens : LocalTokens) {P : Type} (loaded : Users P)

/-- The token of a user, if it is set. -/
def tokenOf (user : UserRow P) : Option String :=
  (tokens.getenv user.token_env).filter (· ≠ "")

def staticUsers : List (UserRow P × String) :=
  if tokens.oidc_enabled ∧ ¬ tokens.allow_local_tokens then []
  else loaded.users.filterMap fun user => (tokens.tokenOf user).map fun token => (user, token)

end LocalTokens

section Requests

variable {P : Type} (loaded : Users P)

def identityOf (user : UserRow P) : Identity where
  subject := "local:" ++ user.name
  name := user.name
  role := user.role
  tenants := (under loaded.user_tenants user.name).getD ["*"]
  source := "local-token"
  mfa := false

/-- The identity of the first user whose token is this one. -/
def staticIdentity (token : Str) : List (UserRow P × String) → Except Exn (Option Identity)
  | [] => .ok none
  | (user, expected) :: rest => do
    let same ← compareDigest token (str expected)
    cond same (return some (identityOf loaded user)) (staticIdentity token rest)

/-- The user whose patterns limit an identity. -/
def localPolicy (identity : Identity) : Option (UserRow P) :=
  if identity.source ≠ "local-token" then none
  else loaded.users.find? fun user => user.name = identity.name

end Requests

section Rows

variable {V : Type} [KindedValue V] (tokens : LocalTokens)

/-- An entry as it was written, with what the core configuration keeps of it. -/
abbrev Entry (V : Type) := V × UserRow V

variable (entries : List (Entry V))

/-- The token of an entry is this one. -/
def hasToken (token : Str) (entry : Entry V) : Bool :=
  (tokens.tokenOf entry.2).any fun expected => str expected = token

/-- The tenants of a name are kept by an entry. -/
def keepsName (name : String) (entry : Entry V) : Bool := named entry.1 ∧ entry.2.name = name

/-- The last entry that keeps the tenants of a name. -/
def lastNamed (name : String) : Option (Entry V) := entries.reverse.find? (keepsName name)

/-- The first entry with a name. -/
def firstNamed (name : String) : Option (Entry V) := entries.find? fun entry => entry.2.name = name

/-- What is under the name of an entry is its own: the tenants of the last entry that keeps
this name, or the star if none does, and the patterns of the first entry with this name. -/
structure Sole (entry : Entry V) : Prop where
  tenants : ((lastNamed entries entry.2.name).elim (.ok ["*"]) fun last => scopesOf last.1) =
    scopesOf entry.1
  patterns : ∀ first, firstNamed entries entry.2.name = some first →
    first.2.sources = entry.2.sources ∧ first.2.vm_patterns = entry.2.vm_patterns

/-- An entry that some request is authenticated by: local tokens are accepted, no entry before
it has its token, and its token and those before it can be compared. -/
structure Reached (token : Str) (entry : Entry V) : Prop where
  accepted : ¬ (tokens.oidc_enabled = true ∧ ¬ tokens.allow_local_tokens = true)
  first : entries.find? (hasToken tokens token) = some entry
  ascii : token.all isAscii = true
  comparable : ∀ earlier ∈ entries.takeWhile fun entry => ¬ hasToken tokens token entry,
    ∀ expected, tokens.tokenOf earlier.2 = some expected → (str expected).all isAscii = true

/-- Everything that applies to a request with a local token is of the entry that has it. -/
def Coherent (items : List V) (loaded : Users V) : Prop :=
  ∀ token identity, staticIdentity loaded token (tokens.staticUsers loaded) = .ok (some identity) →
    ∃ entry user, (items.zip loaded.users).find? (hasToken tokens token) = some entry ∧
      localPolicy loaded identity = some user ∧
      identity.role = entry.2.role ∧ scopesOf entry.1 = .ok identity.tenants ∧
      user.sources = entry.2.sources ∧ user.vm_patterns = entry.2.vm_patterns

end Rows

section Accepted

variable {V : Type} [KindedValue V] {configured : List String} {items : List V} {item : V}
  {row : UserRow V}

/-- The name of an accepted row is the text of what stands under the key. -/
theorem userRow_name (read : userRow item = .ok row) :
    ∃ name, get? item "name" = .ok (some name) ∧ toText name = .ok row.name := by
  unfold userRow at read
  obtain ⟨_, _, read⟩ := bind_eq_ok.mp read
  obtain ⟨_, _, read⟩ := bind_eq_ok.mp read
  obtain ⟨name, required, read⟩ := bind_eq_ok.mp read
  obtain ⟨_, _, read⟩ := bind_eq_ok.mp read
  obtain ⟨_, _, read⟩ := bind_eq_ok.mp read
  obtain ⟨_, _, read⟩ := bind_eq_ok.mp read
  rw [← Except.ok.inj read]
  obtain ⟨found, there, required⟩ := bind_eq_ok.mp required
  split at required
  · cases required
  · rename_i value filled
    obtain ⟨text, told, required⟩ := bind_eq_ok.mp required
    obtain ⟨_, _, required⟩ := bind_eq_ok.mp required
    rw [← Except.ok.inj required]
    obtain ⟨present, _⟩ := Option.filter_eq_some_iff.mp filled
    exact ⟨value, by rw [there, present], told⟩

theorem named_eq {name : V} {filled : Bool} (there : get? item "name" = .ok (some name))
    (tested : truthy name = .ok filled) : named item = filled := by
  unfold named
  rw [there]
  dsimp only
  rw [tested]

/-- The second reading keeps the tenants of an entry exactly when its name is not false. -/
theorem tenantEntry_spec {kept : Option (String × List String)} (read : userRow item = .ok row)
    (ran : tenantEntry configured item = .ok kept) :
    if named item then ∃ scopes, scopesOf item = .ok scopes ∧ kept = some (row.name, scopes)
    else kept = none := by
  obtain ⟨name, there, told⟩ := userRow_name read
  unfold tenantEntry at ran
  rw [there] at ran
  dsimp only at ran
  obtain ⟨filled, tested, ran⟩ := bind_eq_ok.mp ran
  rw [named_eq there tested]
  cases filled with
  | false => exact (Except.ok.inj ran).symm
  | true =>
    obtain ⟨scopes, listed, ran⟩ := bind_eq_ok.mp ran
    obtain ⟨_, _, ran⟩ := bind_eq_ok.mp ran
    obtain ⟨text, again, ran⟩ := bind_eq_ok.mp ran
    obtain rfl : text = row.name := Except.ok.inj (again.symm.trans told)
    exact ⟨scopes, listed, (Except.ok.inj ran).symm⟩

/-- What the second reading keeps of an accepted entry. -/
def keptOf (entry : Entry V) : Option (String × List String) :=
  if named entry.1 then (scopesOf entry.1).toOption.map fun scopes => (entry.2.name, scopes)
  else none

/-- An accepted list in one view: each entry is one row, and the tenants that are kept are those
of the entries whose names are not false. -/
structure Parallel (items : List V) (loaded : Users V) : Prop where
  rows : (items.zip loaded.users).map (·.2) = loaded.users
  kept : loaded.user_tenants = (items.zip loaded.users).filterMap keptOf
  listed : ∀ entry ∈ items.zip loaded.users, named entry.1 = true →
    ∃ scopes, scopesOf entry.1 = .ok scopes

theorem parallel_of_mapM {users : List (UserRow V)} {kept : List (Option (String × List String))}
    (read : items.mapM userRow = .ok users)
    (again : items.mapM (tenantEntry configured) = .ok kept) :
    Parallel items ⟨users, kept.filterMap id⟩ := by
  induction items generalizing users kept with
  | nil =>
    obtain rfl : [] = users := Except.ok.inj read
    obtain rfl : [] = kept := Except.ok.inj again
    exact ⟨rfl, rfl, nofun⟩
  | cons item rest inductionHypothesis =>
    obtain ⟨row, rows, own, further, rfl⟩ := mapM_cons_ok.mp read
    obtain ⟨first, others, scopes, later, rfl⟩ := mapM_cons_ok.mp again
    have tail := inductionHypothesis further later
    have same : first = keptOf (item, row) := by
      have spec := tenantEntry_spec own scopes
      unfold keptOf
      split at spec
      · rename_i filled
        obtain ⟨scopes, listed, rfl⟩ := spec
        rw [if_pos filled, listed]
        rfl
      · rename_i unnamed
        rw [spec, if_neg unnamed]
    refine ⟨?_, ?_, ?_⟩
    · exact congrArg (row :: ·) tail.rows
    · have others_kept : others.filterMap id = (rest.zip rows).filterMap keptOf := tail.kept
      rw [List.zip_cons_cons, List.filterMap_cons, List.filterMap_cons, ← same, ← others_kept]
      rfl
    · intro entry member filled
      rcases List.mem_cons.mp member with rfl | within
      · have spec := tenantEntry_spec own scopes
        rw [if_pos filled] at spec
        exact spec.imp fun _ both => both.1
      · exact tail.listed entry within filled

theorem parallel_of_loadUsers {loaded : Users V} (ran : loadUsers configured items = .ok loaded) :
    Parallel items loaded := by
  unfold loadUsers at ran
  obtain ⟨users, read, ran⟩ := bind_eq_ok.mp ran
  obtain ⟨kept, again, ran⟩ := bind_eq_ok.mp ran
  rw [← Except.ok.inj ran]
  exact parallel_of_mapM read again

/-- What the portal finds under a name is the scope of the last entry that keeps it. -/
theorem under_user_tenants {loaded : Users V} (parallel : Parallel items loaded) (name : String) :
    (lastNamed (items.zip loaded.users) name).elim (.ok ["*"]) (fun last => scopesOf last.1) =
      .ok ((under loaded.user_tenants name).getD ["*"]) := by
  have kept_iff : ∀ entry ∈ (items.zip loaded.users).reverse,
      ((keptOf entry).any fun kept => decide (kept.1 = name)) = keepsName name entry := by
    intro entry member
    unfold keptOf keepsName
    by_cases filled : named entry.1 = true
    · obtain ⟨scopes, listed⟩ := parallel.listed entry (List.mem_reverse.mp member) filled
      simp [filled, listed, Except.toOption]
    · simp [filled]
  have found : under loaded.user_tenants name =
      ((lastNamed (items.zip loaded.users) name).bind keptOf).map (·.2) := by
    rw [under, parallel.kept, ← List.filterMap_reverse, List.find?_filterMap, lastNamed,
      ← List.head?_filter, List.filter_congr kept_iff, List.head?_filter]
  rw [found]
  cases last : lastNamed (items.zip loaded.users) name with
  | none => rfl
  | some entry =>
    have keeps : keepsName name entry = true := List.find?_some last
    have filled : named entry.1 = true := (of_decide_eq_true keeps).1
    obtain ⟨scopes, listed⟩ := parallel.listed entry
      (List.mem_reverse.mp (List.mem_of_find?_eq_some last)) filled
    simp [keptOf, filled, listed, Except.toOption]

end Accepted

section Authenticating

variable {V : Type} [KindedValue V] {tokens : LocalTokens} {entries : List (Entry V)}
  {loaded : Users V} {token : Str}

/-- The tokens of entries, as the portal goes through them. -/
def activeTokens (tokens : LocalTokens) (entries : List (Entry V)) : List (UserRow V × String) :=
  (entries.map (·.2)).filterMap fun user => (tokens.tokenOf user).map fun token => (user, token)

omit [KindedValue V] in
/-- A token authenticates as the first entry that has it, if everything compared until then
can be compared. -/
theorem staticIdentity_eq_some {identity : Identity} :
    staticIdentity loaded token (activeTokens tokens entries) = .ok (some identity) ↔
      ∃ entry, entries.find? (hasToken tokens token) = some entry ∧ token.all isAscii = true ∧
        (∀ earlier ∈ entries.takeWhile fun entry => ¬ hasToken tokens token entry,
          ∀ expected, tokens.tokenOf earlier.2 = some expected →
            (str expected).all isAscii = true) ∧
        identity = identityOf loaded entry.2 := by
  induction entries with
  | nil => simp [activeTokens, staticIdentity]
  | cons entry rest inductionHypothesis =>
    cases own : tokens.tokenOf entry.2 with
    | none =>
      have skipped : activeTokens tokens (entry :: rest) = activeTokens tokens rest := by
        simp [activeTokens, own]
      have other : hasToken tokens token entry = false := by simp [hasToken, own]
      rw [skipped, inductionHypothesis]
      simp [other, own]
    | some expected =>
      have asked : activeTokens tokens (entry :: rest) =
          (entry.2, expected) :: activeTokens tokens rest := by
        simp [activeTokens, own]
      rw [asked, staticIdentity, compareDigest]
      by_cases same : str expected = token
      · have matching : hasToken tokens token entry = true := by simp [hasToken, own, same]
        by_cases ascii : token.all isAscii = true
        · rw [if_pos ⟨ascii, by rw [same]; exact ascii⟩]
          rw [ok_bind, same, decide_eq_true rfl, cond_true]
          constructor
          · intro ran
            cases ran
            exact ⟨entry, by simp [matching], ascii, by simp [matching], rfl⟩
          · rintro ⟨found, first, _, _, rfl⟩
            obtain rfl : entry = found := by simpa [matching] using first
            rfl
        · rw [if_neg fun both => ascii both.1]
          simp [error_bind, ascii]
      · have other : hasToken tokens token entry = false := by simp [hasToken, own, same]
        by_cases both : token.all isAscii = true ∧ (str expected).all isAscii = true
        · have before : ((entry :: rest).takeWhile fun entry => ¬ hasToken tokens token entry) =
              entry :: rest.takeWhile fun entry => ¬ hasToken tokens token entry := by
            simp [other]
          have here : ∀ first, tokens.tokenOf entry.2 = some first →
              (str first).all isAscii = true := by
            intro first found
            obtain rfl : expected = first := Option.some.inj (own.symm.trans found)
            exact both.2
          rw [if_pos both, ok_bind, decide_eq_false (Ne.symm same), cond_false,
            inductionHypothesis, List.find?_cons_of_neg (by simp [other]), before]
          simp only [List.forall_mem_cons, and_iff_right here]
        · rw [if_neg both, error_bind]
          simp only [reduceCtorEq, false_iff]
          rintro ⟨found, _, ascii, comparable, _⟩
          exact both ⟨ascii, comparable entry (by simp [other]) expected own⟩

variable {configured : List String} {items : List V}

theorem staticUsers_active (parallel : Parallel items loaded) :
    tokens.staticUsers loaded =
      if tokens.oidc_enabled ∧ ¬ tokens.allow_local_tokens then []
      else activeTokens tokens (items.zip loaded.users) := by
  unfold LocalTokens.staticUsers activeTokens
  rw [parallel.rows]

/-- The identities that local tokens give are those of the entries that are reached. -/
theorem authenticates_iff (parallel : Parallel items loaded) {identity : Identity} :
    staticIdentity loaded token (tokens.staticUsers loaded) = .ok (some identity) ↔
      ∃ entry, Reached tokens (items.zip loaded.users) token entry ∧
        identity = identityOf loaded entry.2 := by
  rw [staticUsers_active parallel]
  split
  · rename_i refused
    constructor
    · intro ran
      cases ran
    · rintro ⟨entry, reached, _⟩
      exact absurd refused (by simpa using reached.accepted)
  · rename_i accepted
    rw [staticIdentity_eq_some]
    constructor
    · rintro ⟨entry, first, ascii, comparable, same⟩
      exact ⟨entry, ⟨by simpa using accepted, first, ascii, comparable⟩, same⟩
    · rintro ⟨entry, reached, same⟩
      exact ⟨entry, reached.first, reached.ascii, reached.comparable, same⟩

/-- The patterns of an entry's name are those of the first entry with this name. -/
theorem localPolicy_identityOf (parallel : Parallel items loaded) {entry : Entry V}
    (member : entry ∈ items.zip loaded.users) :
    ∃ first, firstNamed (items.zip loaded.users) entry.2.name = some first ∧
      localPolicy loaded (identityOf loaded entry.2) = some first.2 := by
  obtain ⟨first, found⟩ : ∃ first,
      firstNamed (items.zip loaded.users) entry.2.name = some first :=
    Option.isSome_iff_exists.mp (List.find?_isSome.mpr ⟨entry, member, by simp⟩)
  refine ⟨first, found, ?_⟩
  have located : loaded.users.find? (fun user => user.name = entry.2.name) = some first.2 := by
    rw [← parallel.rows, List.find?_map]
    exact congrArg (Option.map (·.2)) found
  exact located

/-- Everything that applies to requests with local tokens is of the entries that have them
exactly when, for every entry that some request is authenticated by, the last entry that keeps
its name has the same tenants, and the first entry with its name the same patterns. -/
theorem coherent_iff (tokens : LocalTokens)
    (accepted : loadUsers configured items = .ok loaded) :
    Coherent tokens items loaded ↔
      ∀ token entry, Reached tokens (items.zip loaded.users) token entry →
        Sole (items.zip loaded.users) entry := by
  have parallel := parallel_of_loadUsers accepted
  constructor
  · intro coherent token entry reached
    obtain ⟨first, named, policy⟩ := localPolicy_identityOf parallel
      (List.mem_of_find?_eq_some reached.first)
    obtain ⟨found, user, matched, limits, _, tenants, sources, vm_patterns⟩ := coherent token _
      ((authenticates_iff parallel).mpr ⟨entry, reached, rfl⟩)
    obtain rfl : entry = found := Option.some.inj (reached.first.symm.trans matched)
    obtain rfl : first.2 = user := Option.some.inj (policy.symm.trans limits)
    refine ⟨?_, fun other same => ?_⟩
    · rw [under_user_tenants parallel]
      exact tenants.symm
    · obtain rfl : first = other := Option.some.inj (named.symm.trans same)
      exact ⟨sources, vm_patterns⟩
  · intro sole token identity authenticated
    obtain ⟨entry, reached, rfl⟩ := (authenticates_iff parallel).mp authenticated
    obtain ⟨first, named, policy⟩ := localPolicy_identityOf parallel
      (List.mem_of_find?_eq_some reached.first)
    have own := sole token entry reached
    have patterns := own.patterns first named
    refine ⟨entry, first.2, reached.first, policy, rfl, ?_, patterns.1, patterns.2⟩
    rw [← own.tenants, under_user_tenants parallel]
    rfl

end Authenticating

section Distinct

variable {V : Type} [KindedValue V]

/-- Among entries with different names that are not false, each is the only one under its
name. -/
theorem sole_of_distinct {entries : List (Entry V)}
    (distinct : (entries.map fun entry => entry.2.name).Nodup)
    (filled : ∀ entry ∈ entries, named entry.1 = true) {entry : Entry V}
    (member : entry ∈ entries) : Sole entries entry := by
  have alone : ∀ other ∈ entries, other.2.name = entry.2.name → other = entry :=
    fun other present same => List.inj_on_of_nodup_map distinct present member same
  refine ⟨?_, fun first found => ?_⟩
  · obtain ⟨last, found⟩ : ∃ last, lastNamed entries entry.2.name = some last :=
      Option.isSome_iff_exists.mp (List.find?_isSome.mpr
        ⟨entry, List.mem_reverse.mpr member, by simp [keepsName, filled entry member]⟩)
    have keeps : keepsName entry.2.name last = true := List.find?_some found
    rw [found, alone last (List.mem_reverse.mp (List.mem_of_find?_eq_some found))
      (of_decide_eq_true keeps).2]
    rfl
  · have same : first.2.name = entry.2.name := by simpa using List.find?_some found
    rw [alone first (List.mem_of_find?_eq_some found) same]
    exact ⟨rfl, rfl⟩

end Distinct

section Namesakes

/-- Two entries with one name, of which the first one is limited and the second one is not. -/
def namesakes : List Json :=
  [.obj [("name", .str "ops"), ("role", .str "viewer"), ("token_env", .str "FIRST"),
      ("tenants", .arr [.str "north"]), ("sources", .arr [.str "lab-*"])],
    .obj [("name", .str "ops"), ("role", .str "admin"), ("token_env", .str "SECOND")]]

def loadedNamesakes : Users Json where
  users := [⟨"ops", "viewer", "FIRST", [.str "lab-*"], [.str "*"]⟩,
    ⟨"ops", "admin", "SECOND", [.str "*"], [.str "*"]⟩]
  user_tenants := [("ops", ["north"]), ("ops", ["*"])]

/-- Local tokens are accepted, and both variables are set. -/
def bothTokens : LocalTokens where
  oidc_enabled := false
  allow_local_tokens := false
  getenv := fun name => if name = "FIRST" then some "one" else some "two"

theorem loadUsers_namesakes : loadUsers ["north", "south"] namesakes = .ok loadedNamesakes := by
  rfl

/-- The list is accepted, and the token of the limited entry gives the tenants of the other
one. -/
theorem incoherent_namesakes : loadUsers ["north", "south"] namesakes = .ok loadedNamesakes ∧
    ¬ Coherent bothTokens namesakes loadedNamesakes := by
  refine ⟨loadUsers_namesakes, fun coherent => ?_⟩
  have limited : staticIdentity loadedNamesakes (str "one")
      (bothTokens.staticUsers loadedNamesakes) =
        .ok (some (identityOf loadedNamesakes ⟨"ops", "viewer", "FIRST", [.str "lab-*"],
          [.str "*"]⟩)) := by rfl
  obtain ⟨entry, user, matched, _, _, tenants, _⟩ := coherent (str "one") _ limited
  cases matched
  have same : ["north"] = ["*"] := Except.ok.inj tenants
  exact absurd same (by decide)

/-- The limited entry on its own. -/
def lone : List Json := namesakes.take 1

def loadedLone : Users Json :=
  ⟨loadedNamesakes.users.take 1, loadedNamesakes.user_tenants.take 1⟩

theorem loadUsers_lone : loadUsers ["north", "south"] lone = .ok loadedLone := by
  rfl

/-- What applies to its token is its own. -/
theorem coherent_lone : Coherent bothTokens lone loadedLone := by
  refine (coherent_iff bothTokens loadUsers_lone).mpr fun token entry reached => ?_
  refine sole_of_distinct ?_ ?_ (List.mem_of_find?_eq_some reached.first)
  · exact List.nodup_singleton _
  · intro other member
    obtain rfl := List.mem_singleton.mp member
    rfl

end Namesakes

section Portals

/-- A user whose patterns are texts, as the portal is configured with it. -/
def UserRow.config (user : UserRow String) : PortalUserConfig :=
  { name := user.name, role := user.role, token_env := user.token_env
    sources := user.sources, vm_patterns := user.vm_patterns }

variable {portal : EnterprisePortal} {loaded : Users String}

/-- The portal is configured with these users. -/
structure Configures (portal : EnterprisePortal) (loaded : Users String) : Prop where
  users : portal.users = loaded.users.map UserRow.config
  user_tenants : portal.user_tenants = loaded.user_tenants

/-- The settings of a portal's local tokens. -/
def settings (portal : EnterprisePortal) : LocalTokens :=
  ⟨portal.oidc_enabled, portal.allow_local_tokens, portal.getenv⟩

theorem identityOf_config (configures : Configures portal loaded) (user : UserRow String) :
    portal.identityOf user.config = identityOf loaded user := by
  rw [EnterprisePortal.identityOf, identityOf, EnterprisePortal.tenantsOf, under,
    configures.user_tenants]
  rfl

theorem staticUsers_config (configures : Configures portal loaded) :
    portal.staticUsers =
      ((settings portal).staticUsers loaded).map fun entry => (entry.1.config, entry.2) := by
  rw [EnterprisePortal.staticUsers, LocalTokens.staticUsers, configures.users]
  show (if portal.oidc_enabled = true ∧ ¬ portal.allow_local_tokens = true then [] else _) =
    List.map _ (if portal.oidc_enabled = true ∧ ¬ portal.allow_local_tokens = true then [] else _)
  split
  · rfl
  · rw [List.filterMap_map, List.map_filterMap]
    refine List.filterMap_congr fun user _ => ?_
    dsimp only [Function.comp_apply, UserRow.config, settings, LocalTokens.tokenOf]
    cases portal.getenv user.token_env with
    | none => rfl
    | some token => by_cases empty : token = "" <;> simp [empty]

/-- For patterns that are texts, the portal authenticates and limits as described here. -/
theorem staticIdentity_config (configures : Configures portal loaded) (token : Str)
    (users : List (UserRow String × String)) :
    SignedTokens.staticIdentity portal token (users.map fun entry => (entry.1.config, entry.2)) =
      (staticIdentity loaded token users).map fun identity =>
        identity.map TokenIdentity.ofIdentity := by
  induction users with
  | nil => rfl
  | cons entry rest inductionHypothesis =>
    rw [List.map_cons, SignedTokens.staticIdentity, staticIdentity, identityOf_config configures]
    cases compareDigest token (str entry.2) with
    | error error => rfl
    | ok same =>
      cases same with
      | false => exact inductionHypothesis
      | true => rfl

theorem localPolicy_config (configures : Configures portal loaded) (identity : Identity) :
    portal.localPolicy identity = (localPolicy loaded identity).map UserRow.config := by
  rw [EnterprisePortal.localPolicy, localPolicy, configures.users]
  split
  · rfl
  · rw [List.find?_map]
    rfl

end Portals

end Immutavault.UserRows
