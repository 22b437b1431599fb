import Immutavault.ManagementService

/-!
# Edits of the environment

A variable that is read from the environment file changes only when some line of an update
assigns it: the line of its own name, or a line that begins inside the value of another one.

While a target is looked at, the variables of the file and of the request are set in the
process of the service. They are put back behind that. When one of them cannot be set, the
others are not: what was set before it stays.
-/

namespace Immutavault.EnvironmentEdits

open Programs Values ManagementService EnterpriseFields EnvironmentFiles SetupRequests
open GuestFiles (CodePoint Str str)
open SessionOwnership (printed)
open SignedTokens (isSurrogate)

section Assignments

/-- A line that is written for an update assigns a variable. -/
def Assigns (updates : List (String × Str)) (key : String) : Prop :=
  ∃ update ∈ updates, update.2 ≠ [] ∧
    ∃ reading ∈ readings (update.1, printed update.2), reading.1 = key

/-- No update is unfit for a file. -/
def encodable (updates : List (String × Str)) : Bool :=
  updates.all fun update => update.2.all fun point => !isSurrogate point

theorem linesAfter_clean_append {front : List Char}
    (clean : ∀ character ∈ front, isLineBreak character = false) (current rest : List Char) :
    linesAfter current (front ++ rest) = linesAfter (front.reverse ++ current) rest := by
  induction front generalizing current with
  | nil => rfl
  | cons character front inductionHypothesis =>
    obtain ⟨own, others⟩ := List.forall_mem_cons.mp clean
    have notReturn : character ≠ '\r' := by
      rintro rfl
      exact absurd own (by decide)
    rw [List.cons_append, linesAfter.eq_3 _ _ _ (fun _ same _ => notReturn same), own,
      if_neg (by decide), inductionHypothesis others]
    simp

/-- What has been read of a line stays in front of it. -/
theorem linesAfter_begun {current : List Char} (text : List Char) (begun : current ≠ []) :
    ∃ piece lines, linesAfter current text =
      String.ofList (current.reverse ++ piece) :: lines := by
  fun_induction linesAfter current text with
  | case1 => exact absurd rfl begun
  | case2 => exact ⟨[], [], by rw [List.append_nil]⟩
  | case3 => exact ⟨[], _, by rw [List.append_nil]⟩
  | case4 => exact ⟨[], _, by rw [List.append_nil]⟩
  | case5 current character rest other continues inductionHypothesis =>
    obtain ⟨piece, lines, same⟩ := inductionHypothesis (List.cons_ne_nil _ _)
    exact ⟨character :: piece, lines, by rw [same]; simp⟩

/-- The first line of an update assigns its own variable. -/
theorem readings_own {key : String} (named : isVariable key.toList = true) (value : String) :
    ∃ reading ∈ readings (key, value), reading.1 = key := by
  have clean : ∀ character ∈ key.toList ++ ['='], isLineBreak character = false := by
    intro character member
    rcases List.mem_append.mp member with name | equals
    · exact isLineBreak_tag ((variable_characters named).2 character name)
    · rw [List.mem_singleton.mp equals]
      decide
  have shape : lineOf (key, value) = (key.toList ++ ['=']) ++ quote value.toList := by simp [lineOf]
  have begun : (key.toList ++ ['=']).reverse ++ [] ≠ [] := by simp
  obtain ⟨piece, lines, same⟩ := linesAfter_begun (quote value.toList) begun
  rw [readings, shape, linesAfter_clean_append clean, same, List.append_nil, List.reverse_reverse,
    List.append_assoc, List.singleton_append, List.filterMap_cons, readLine_assignment named]
  exact ⟨_, List.mem_cons_self, rfl⟩

variable {updates : List (String × Str)} {key : String} {file : Option String}

theorem envWrite_eq (whole : encodable updates = true) (file : Option String) :
    EnvironmentFiles.envWrite file updates = .ok (written (updated (envRead file)
      ((updates.filter fun update => update.2 ≠ []).map fun update =>
        (update.1, printed update.2)))) := by
  rw [EnvironmentFiles.envWrite, encodedPair_encodable]
  · rfl
  · intro update member
    have own := List.all_eq_true.mp whole update (List.mem_filter.mp member).1
    rw [List.any_eq_false]
    intro point inside
    simpa using List.all_eq_true.mp own point inside

theorem encodable_of_envWrite {text : String}
    (writes : EnvironmentFiles.envWrite file updates = .ok text) : encodable updates = true := by
  obtain ⟨pairs, encodes, _⟩ := bind_eq_ok.mp writes
  refine List.all_eq_true.mpr fun update listed => ?_
  by_cases empty : update.2 = []
  · rw [empty]
    rfl
  · have kept : update ∈ updates.filter fun update => update.2 ≠ [] :=
      List.mem_filter.mpr ⟨listed, by simpa using empty⟩
    obtain ⟨pair, own⟩ := mapM_succeeds.mp ⟨pairs, encodes⟩ update kept
    unfold encodedPair at own
    split at own
    · cases own
    · rename_i none
      rw [Bool.not_eq_true, List.any_eq_false] at none
      exact List.all_eq_true.mpr fun point member => by simpa using none point member

theorem known_unnamed (unnamed : ¬ isVariable key.toList = true) : known file key = none := by
  rw [known, Option.map_eq_none_iff, Option.eq_none_iff_forall_ne_some]
  exact fun value found => unnamed (envRead_sound (mem_of_under found)).1

/-- A variable that no line of the updates assigns is read as before. -/
theorem known_envWrite {text : String}
    (writes : EnvironmentFiles.envWrite file updates = .ok text)
    (free : ¬ Assigns updates key) : known (some text) key = known file key := by
  by_cases named : isVariable key.toList = true
  · rw [envWrite_eq (encodable_of_envWrite writes)] at writes
    obtain rfl := Except.ok.inj writes
    have distinct := nodup_envRead file
    have others : ∀ update ∈ updates.filter fun update => update.2 ≠ [],
        update.1 ≠ key ∧ ∀ reading ∈ readings (update.1, printed update.2), reading.1 ≠ key := by
      intro update member
      obtain ⟨listed, filled⟩ := List.mem_filter.mp member
      have unread : ∀ reading ∈ readings (update.1, printed update.2), reading.1 ≠ key :=
        fun reading reads same => free ⟨update, listed, by simpa using filled, reading, reads, same⟩
      refine ⟨?_, unread⟩
      rintro rfl
      obtain ⟨reading, reads, same⟩ := readings_own named (printed update.2)
      exact unread reading reads same
    rw [known, known, under_written (nodup_updated distinct _), under_updated distinct]
    · have absent : under ((updates.filter fun update => update.2 ≠ []).map fun update =>
          (update.1, printed update.2)) key = none := by
        rw [Option.eq_none_iff_forall_ne_some]
        intro value found
        obtain ⟨update, listed, same⟩ := List.mem_map.mp (mem_of_under found)
        exact (others update listed).1 (Prod.mk.inj same).1
      rw [absent, Option.none_or]
    · intro entry member
      rcases mem_updated member with old | new
      · exact Or.inl (envRead_sound old)
      · obtain ⟨update, listed, rfl⟩ := List.mem_map.mp new
        exact Or.inr (others update listed)
  · rw [known_unnamed named, known_unnamed named]

/-- A variable that some line assigns is set, also where it was not. -/
theorem known_assigned (distinct : (updates.map (·.1)).Nodup) (whole : encodable updates = true)
    (assigns : Assigns updates key) : ∃ text value,
      EnvironmentFiles.envWrite none updates = .ok text ∧ known (some text) key = some value := by
  obtain ⟨update, listed, filled, reading, reads, rfl⟩ := assigns
  generalize shape : ((updates.filter fun update => update.2 ≠ []).map fun update =>
    (update.1, printed update.2)) = pairs
  have writes := envWrite_eq whole none
  rw [shape] at writes
  have kept : (pairs.map (·.1)).Nodup := by
    rw [← shape, List.map_map]
    exact distinct.sublist (List.filter_sublist.map _)
  have given : (update.1, printed update.2) ∈ pairs := by
    rw [← shape]
    exact List.mem_map.mpr ⟨update, List.mem_filter.mpr ⟨listed, by simpa using filled⟩, rfl⟩
  have stored : under (updated (envRead none) pairs) update.1 = some (printed update.2) := by
    rw [under_updated (nodup_envRead none), (under_eq_some_iff kept).mpr given, Option.some_or]
  have sorted := List.perm_insertionSort (fun one other : String × String => one.1 ≤ other.1)
    (updated (envRead none) pairs)
  obtain ⟨value, found⟩ := under_isSome (List.mem_flatMap.mpr
    ⟨_, sorted.mem_iff.mpr (mem_of_under stored), reads⟩)
  refine ⟨_, str value, writes, ?_⟩
  rw [known, under_envRead_written, found]
  rfl

end Assignments
section Processes

variable (world : World)

/-- The variables of a process behind settings, of which the first unfit one ends the rest. -/
def setEach (environ : String → Option Str) : List (String × Str) → String → Option Str
  | [] => environ
  | entry :: rest => if isSettable entry.2 then
      setEach (Function.update environ entry.1 (some entry.2)) rest else environ

def restoreEach (environ : String → Option Str) : List (String × Option Str) → String → Option Str
  | [] => environ
  | entry :: rest => restoreEach (Function.update environ entry.1 entry.2) rest

theorem run_settings (values : List (String × Str)) (state : Appliance) :
    run (handler world) (Program.each (fun entry => ask (.setVariable entry.1 entry.2)) values)
      state = (if values.all fun entry => isSettable entry.2 then .ok () else
        .error ⟨.valueError, "embedded null byte"⟩,
          { state with environ := setEach state.environ values }) := by
  induction values generalizing state with
  | nil => rfl
  | cons entry rest inductionHypothesis =>
    show run (handler world) (Program.bind (ask (.setVariable entry.1 entry.2)) _) state = _
    cases settable : isSettable entry.2 with
    | true =>
      have step : handler world (.setVariable entry.1 entry.2) state = (.ok (),
          { state with environ := Function.update state.environ entry.1 (some entry.2) }) := by
        simp [handler, Command.inMemory, obey, settable]
      refine (run_bind _ _ _ state).trans ?_
      rw [ask, run_perform, step]
      refine (inductionHypothesis _).trans ?_
      simp only [setEach, settable, List.all_cons, Bool.true_and, if_true]
    | false =>
      have step : handler world (.setVariable entry.1 entry.2) state =
          (.error ⟨.valueError, "embedded null byte"⟩, state) := by
        simp [handler, Command.inMemory, obey, settable]
      refine (run_bind _ _ _ state).trans ?_
      rw [ask, run_perform, step]
      simp [setEach, settable]

theorem run_restorings (old : List (String × Option Str)) (state : Appliance) :
    run (handler world) (Program.each (fun entry => ask (.restoreVariable entry.1 entry.2)) old)
      state = (.ok (), { state with environ := restoreEach state.environ old }) := by
  induction old generalizing state with
  | nil => rfl
  | cons entry rest inductionHypothesis =>
    have step : handler world (.restoreVariable entry.1 entry.2) state = (.ok (),
        { state with environ := Function.update state.environ entry.1 entry.2 }) := rfl
    show run (handler world) (Program.bind (ask (.restoreVariable entry.1 entry.2)) _) state = _
    refine (run_bind _ _ _ state).trans ?_
    rw [ask, run_perform, step]
    exact inductionHypothesis _

theorem run_savedVariables (values : List (String × Str)) (state : Appliance) :
    run (handler world) (savedVariables values) state =
      (.ok (values.map fun entry => (entry.1, state.environ entry.1)), state) := by
  induction values with
  | nil => rfl
  | cons entry rest inductionHypothesis =>
    have read : run (handler world) (getVariable entry.1) state =
        (.ok (state.environ entry.1), state) := rfl
    rw [savedVariables, run_bind, read]
    dsimp only
    rw [run_bind, inductionHypothesis]
    rfl

theorem setEach_absent {values : List (String × Str)} {key : String}
    (absent : key ∉ values.map (·.1)) (environ : String → Option Str) :
    setEach environ values key = environ key := by
  induction values generalizing environ with
  | nil => rfl
  | cons entry rest inductionHypothesis =>
    rw [List.map_cons, List.mem_cons, not_or] at absent
    rw [setEach]
    split
    · rw [inductionHypothesis absent.2, Function.update_of_ne absent.1]
    · rfl

/-- Putting back what variables were undoes settings of them. -/
theorem restoreEach_setEach (values settings : List (String × Str))
    (environ : String → Option Str) (listed : ∀ key, setEach environ settings key ≠ environ key →
      key ∈ values.map (·.1)) :
    restoreEach (setEach environ settings) (values.map fun entry =>
      (entry.1, environ entry.1)) = environ := by
  have fold : ∀ (values : List (String × Str)) (current : String → Option Str),
      (∀ key, current key ≠ environ key → key ∈ values.map (·.1)) →
        restoreEach current (values.map fun entry => (entry.1, environ entry.1)) = environ := by
    intro values
    induction values with
    | nil =>
      intro current others
      funext key
      by_contra different
      exact absurd (others key different) List.not_mem_nil
    | cons entry rest inductionHypothesis =>
      intro current others
      refine inductionHypothesis _ fun key different => ?_
      by_cases same : key = entry.1
      · rw [same, Function.update_self] at different
        exact absurd rfl different
      · rw [Function.update_of_ne same] at different
        exact (List.mem_cons.mp (others key different)).resolve_left same
  exact fold values _ listed

/-- A look at a target leaves the variables as they were, but for those that were set before
one of them could not be. -/
theorem run_temporaryEnv (values : List (String × Str)) (state : Appliance) :
    (run (handler world) (temporaryEnv values) state).2 = { state with
      environ := if values.all fun entry => isSettable entry.2 then state.environ
        else setEach state.environ values } := by
  rw [temporaryEnv, run_bind, run_savedVariables]
  dsimp only
  rw [run_bind, run_settings]
  cases all : values.all fun entry => isSettable entry.2 with
  | false => rfl
  | true =>
    rw [if_pos rfl]
    dsimp only
    have looked : ∀ state, (run (handler world) examine state).2 = state := by
      intro state
      refine (congrArg Prod.snd (run_ask world .examine state)).trans ?_
      rcases handler_cases world .examine state with ⟨error, _, same⟩ | same <;> rw [same] <;> rfl
    rw [run_bind, run_attempt, looked]
    dsimp only
    rw [run_bind, run_restorings]
    dsimp only
    rw [run_raised, restoreEach_setEach]
    · rfl
    · intro key different
      by_contra absent
      exact different (setEach_absent absent _)

end Processes

section Settings

variable {values : List (String × Str)} {key : String} {value : Str}

/-- A variable is as it was, or it was set before a setting that failed. -/
theorem setEach_cases (distinct : (values.map (·.1)).Nodup) (environ : String → Option Str)
    (key : String) : setEach environ values key = environ key ∨
      ∃ before value after, values = before ++ (key, value) :: after ∧
        (before.all fun entry => isSettable entry.2) = true ∧ isSettable value = true ∧
          setEach environ values key = some value := by
  induction values generalizing environ with
  | nil => exact Or.inl rfl
  | cons entry rest inductionHypothesis =>
    obtain ⟨fresh, distinct⟩ := List.nodup_cons.mp distinct
    cases settable : isSettable entry.2 with
    | false =>
      left
      rw [setEach, settable, if_neg (by decide)]
    | true =>
      have step : setEach environ (entry :: rest) =
          setEach (Function.update environ entry.1 (some entry.2)) rest := by
        rw [setEach, settable, if_pos rfl]
      rw [step]
      by_cases same : key = entry.1
      · subst same
        exact Or.inr ⟨[], entry.2, rest, rfl, rfl, settable, by
          rw [setEach_absent fresh, Function.update_self]⟩
      · rcases inductionHypothesis distinct (Function.update environ entry.1 (some entry.2)) with
          kept | ⟨before, value, after, split, fine, own, set⟩
        · exact Or.inl (kept.trans (Function.update_of_ne same _ _))
        · exact Or.inr ⟨entry :: before, value, after, by rw [split, List.cons_append],
            by rw [List.all_cons, settable, fine]; rfl, own, set⟩

theorem setEach_set {before after : List (String × Str)}
    (distinct : ((before ++ (key, value) :: after).map (·.1)).Nodup)
    (fine : (before.all fun entry => isSettable entry.2) = true)
    (settable : isSettable value = true) (environ : String → Option Str) :
    setEach environ (before ++ (key, value) :: after) key = some value := by
  induction before generalizing environ with
  | nil =>
    rw [List.nil_append, setEach, if_pos settable, setEach_absent, Function.update_self]
    exact (List.nodup_cons.mp distinct).1
  | cons entry rest inductionHypothesis =>
    rw [List.all_cons, Bool.and_eq_true] at fine
    rw [List.cons_append, setEach, if_pos fine.1]
    exact inductionHypothesis (List.nodup_cons.mp distinct).2 fine.2 _

/-- The test of a target can leave a variable behind: one of its own that can be set. A
variable that is read from the file may come before a setting of the file that fails; any
other one comes behind those, and then a later one of its own has to fail. -/
def Leaks (env : List (String × Str)) (key : String) : Prop :=
  ∃ before value after, env = before ++ (key, value) :: after ∧ isSettable value = true ∧
    (isVariable key.toList = true ∨ (before.all fun entry => isSettable entry.2) = true ∧
      (after.all fun entry => isSettable entry.2) = false)

theorem assign_append {α : Type} (front rest : List (String × α)) (key : String) (value : α) :
    assign (front ++ rest) key value = if key ∈ front.map (·.1) then
      assign front key value ++ rest else front ++ assign rest key value := by
  induction front with
  | nil => rfl
  | cons entry front inductionHypothesis =>
    by_cases same : entry.1 = key
    · simp [assign, same]
    · have other : ¬ key = entry.1 := fun equal => same equal.symm
      rw [List.cons_append, assign, if_neg same, inductionHypothesis, List.map_cons, assign,
        if_neg same]
      simp only [List.mem_cons, other, false_or]
      split <;> rfl

theorem mem_assign_of_ne {α : Type} {entries : List (String × α)} {entry : String × α}
    (member : entry ∈ entries) {key : String} (other : entry.1 ≠ key) (value : α) :
    entry ∈ assign entries key value := by
  induction entries with
  | nil => cases member
  | cons first rest inductionHypothesis =>
    rw [assign]
    split
    · rename_i same
      rcases List.mem_cons.mp member with rfl | later
      · exact absurd same other
      · exact List.mem_cons_of_mem _ later
    · rcases List.mem_cons.mp member with rfl | later
      · exact List.mem_cons_self
      · exact List.mem_cons_of_mem _ (inductionHypothesis later)

theorem assign_fresh {α : Type} {entries : List (String × α)} {key : String}
    (fresh : key ∉ entries.map (·.1)) (value : α) :
    assign entries key value = entries ++ [(key, value)] := by
  induction entries with
  | nil => rfl
  | cons entry rest inductionHypothesis =>
    rw [List.map_cons, List.mem_cons, not_or] at fresh
    rw [assign, if_neg (Ne.symm fresh.1), inductionHypothesis fresh.2, List.cons_append]

/-- Later updates of other variables leave a variable between what was in front of it and
what they add. -/
theorem updated_around {α : Type} {key : String} {value : α} {kept : List (String × α)}
    {updates : List (String × α)} (others : key ∉ updates.map (·.1))
    (apart : ∀ entry ∈ kept, entry.1 ∉ updates.map (·.1)) (front rest : List (String × α))
    (within : ∀ entry ∈ kept, entry ∈ front) :
    ∃ before after, updated (front ++ (key, value) :: rest) updates =
      before ++ (key, value) :: after ∧ (∀ entry ∈ kept, entry ∈ before) ∧
        ∀ entry ∈ after, entry ∈ rest ∨ entry ∈ updates := by
  induction updates generalizing front rest with
  | nil => exact ⟨front, rest, rfl, within, fun _ member => Or.inl member⟩
  | cons update updates inductionHypothesis =>
    rw [List.map_cons, List.mem_cons, not_or] at others
    have later : ∀ entry ∈ kept, entry.1 ∉ updates.map (·.1) := fun entry member listed =>
      apart entry member (List.mem_cons_of_mem _ listed)
    have different : ∀ entry ∈ kept, entry.1 ≠ update.1 := fun entry member same =>
      apart entry member (same ▸ List.mem_cons_self)
    show ∃ before after, updated (assign (front ++ (key, value) :: rest) update.1 update.2)
      updates = _ ∧ _
    rw [assign_append]
    split
    · obtain ⟨before, after, same, inside, added⟩ := inductionHypothesis others.2 later
        (assign front update.1 update.2) rest fun entry member =>
          mem_assign_of_ne (within entry member) (different entry member) _
      exact ⟨before, after, same, inside, fun entry member =>
        (added entry member).imp_right (List.mem_cons_of_mem _)⟩
    · rw [assign, if_neg others.1]
      obtain ⟨before, after, same, inside, added⟩ := inductionHypothesis others.2 later front
        (assign rest update.1 update.2) within
      refine ⟨before, after, same, inside, fun entry member => ?_⟩
      rcases added entry member with old | new
      · rcases mem_assign old with earlier | rfl
        · exact Or.inl earlier
        · exact Or.inr List.mem_cons_self
      · exact Or.inr (List.mem_cons_of_mem _ new)

end Settings

section Merging

variable {env : List (String × Str)} {key : String}

theorem keys_loaded (file : Option String) :
    (((envRead file).map fun entry => (entry.1, str entry.2)).map (·.1)).Nodup := by
  rw [List.map_map]
  exact nodup_envRead file

theorem nodup_merged (file : Option String) (env : List (String × Str)) :
    ((merged file env).map (·.1)).Nodup := nodup_updated (keys_loaded file) env

theorem under_merged (file : Option String) (env : List (String × Str)) (key : String) :
    under (merged file env) key = (under env key).or (known file key) := by
  rw [merged, under_updated (keys_loaded file), under_map]
  rfl

/-- A variable that is in no file comes behind all that is in the file, and between the
request's own variables as the request has them. -/
theorem merged_around {front rest : List (String × Str)} {value : Str} {file : Option String}
    (distinct : ((front ++ (key, value) :: rest).map (·.1)).Nodup)
    (unread : known file key = none) : ∃ before after,
      merged file (front ++ (key, value) :: rest) = before ++ (key, value) :: after ∧
        (∀ entry ∈ front, entry ∈ before) ∧ ∀ entry ∈ after, entry ∈ rest := by
  rw [List.map_append, List.map_cons, List.nodup_append] at distinct
  obtain ⟨fronts, rests, apart⟩ := distinct
  obtain ⟨own, rests⟩ := List.nodup_cons.mp rests
  generalize loaded : ((envRead file).map fun entry => (entry.1, str entry.2)) = base
  have bases : (base.map (·.1)).Nodup := loaded ▸ keys_loaded file
  have absent : key ∉ (updated base front).map (·.1) := by
    intro listed
    obtain ⟨⟨same, other⟩, member, rfl⟩ := List.mem_map.mp listed
    rcases mem_updated member with old | new
    · rw [← loaded] at old
      obtain ⟨value, found⟩ := under_isSome old
      rw [under_map] at found
      exact absurd (unread.symm.trans found) (by simp)
    · exact apart same (List.mem_map_of_mem new) same List.mem_cons_self rfl
  have kept : ∀ entry ∈ front, entry ∈ updated base front := by
    intro entry member
    refine mem_of_under ?_
    rw [under_updated bases, (under_eq_some_iff fronts).mpr member, Option.some_or]
  obtain ⟨before, after, same, inside, added⟩ := updated_around own
    (fun entry member listed => apart entry.1 (List.mem_map_of_mem member) entry.1
      (List.mem_cons_of_mem _ listed) rfl) (updated base front) [] kept
  refine ⟨before, after, ?_, inside, fun entry member =>
    (added entry member).resolve_left List.not_mem_nil⟩
  rw [← same, ← assign_fresh absent, merged, loaded, updated, List.foldl_append, List.foldl_cons]
  rfl

/-- What a variable is when setting the variables of a look fails: as it was or as the file
has it, unless it leaks. -/
theorem setEach_merged (distinct : (env.map (·.1)).Nodup) (sealed : ¬ Leaks env key)
    (file : Option String) (environ : String → Option Str)
    (fails : ((merged file env).all fun entry => isSettable entry.2) = false) :
    setEach environ (merged file env) key = environ key ∨ ∃ value,
      known file key = some value ∧ setEach environ (merged file env) key = some value := by
  rcases setEach_cases (nodup_merged file env) environ key with
    same | ⟨before, value, after, split, fine, settable, set⟩
  · exact Or.inl same
  · have found : under (merged file env) key = some value :=
      (under_eq_some_iff (nodup_merged file env)).mpr (by rw [split]; simp)
    rw [under_merged] at found
    cases own : under env key with
    | none =>
      rw [own, Option.none_or] at found
      exact Or.inr ⟨value, found, set⟩
    | some given =>
      rw [own, Option.some_or] at found
      obtain rfl := Option.some.inj found
      obtain ⟨front, rest, parts⟩ := List.append_of_mem (mem_of_under own)
      refine absurd ⟨front, given, rest, parts, settable, ?_⟩ sealed
      by_cases named : isVariable key.toList = true
      · exact Or.inl named
      · right
        subst parts
        have unread : known file key = none := known_unnamed named
        obtain ⟨others, later, around, inside, added⟩ := merged_around distinct unread
        have keys := nodup_merged file (front ++ (key, given) :: rest)
        rw [around, List.map_append, List.map_cons, List.nodup_append] at keys
        obtain ⟨_, behind, apart⟩ := keys
        have notBefore : (key, given) ∉ others := fun member =>
          apart key (List.mem_map_of_mem member) key List.mem_cons_self rfl
        have notBehind : (key, given) ∉ later := fun member =>
          (List.nodup_cons.mp behind).1 (List.mem_map_of_mem member)
        rw [around] at fails split
        obtain ⟨rfl, -, rfl⟩ := (List.append_cons_inj_of_notMem notBefore notBehind).mp split
        refine ⟨List.all_eq_true.mpr fun entry member =>
          List.all_eq_true.mp fine entry (inside entry member), ?_⟩
        rw [List.all_append, List.all_cons, fine, settable, Bool.true_and, Bool.true_and] at fails
        refine Bool.eq_false_iff.mpr fun all => Bool.eq_false_iff.mp fails ?_
        exact List.all_eq_true.mpr fun entry member =>
          List.all_eq_true.mp all entry (added entry member)

/-- New variables are appended in their order. -/
theorem updated_fresh {α : Type} {data updates : List (String × α)}
    (distinct : ((data ++ updates).map (·.1)).Nodup) : updated data updates = data ++ updates := by
  induction updates generalizing data with
  | nil => rw [List.append_nil]; rfl
  | cons update updates inductionHypothesis =>
    have fresh : update.1 ∉ data.map (·.1) := by
      rw [List.map_append, List.map_cons, List.nodup_append] at distinct
      exact fun listed => distinct.2.2 update.1 listed update.1 List.mem_cons_self rfl
    show updated (assign data update.1 update.2) updates = _
    rw [assign_fresh fresh, inductionHypothesis (by rwa [List.append_cons] at distinct),
      List.append_assoc, List.singleton_append]

/-- The first variable stays the first one. -/
theorem updated_head {α : Type} (key : String) (value : α) (rest updates : List (String × α)) :
    ∃ other later, updated ((key, value) :: rest) updates = (key, other) :: later := by
  induction updates generalizing value rest with
  | nil => exact ⟨value, rest, rfl⟩
  | cons update updates inductionHypothesis =>
    show ∃ other later, updated (assign ((key, value) :: rest) update.1 update.2) updates = _
    rw [assign]
    split
    · exact inductionHypothesis _ _
    · exact inductionHypothesis _ _

/-- The file with these lines. -/
def fileOf (entries : List (String × String)) : String :=
  String.ofList (['\n'].intercalate (entries.map lineOf) ++ ['\n'])

theorem splitlines_fileOf {entries : List (String × String)} (filled : entries ≠ [])
    (sound : ∀ entry ∈ entries, isVariable entry.1.toList = true ∧ OneLine entry.2) :
    splitlines (fileOf entries) = entries.map fun entry => String.ofList (lineOf entry) := by
  have closed : ∀ text ∈ entries.map lineOf,
      ∃ last, text.getLast? = some last ∧ isLineBreak last = false := by
    intro text listed
    obtain ⟨entry, _, rfl⟩ := List.mem_map.mp listed
    exact lineOf_closed entry
  have each : ∀ entry ∈ entries, linesAfter [] (lineOf entry) =
      [String.ofList (lineOf entry)] := by
    intro entry listed
    obtain ⟨named, clean⟩ := sound entry listed
    rw [linesAfter_line (lineOf_clean (variable_characters named).2 clean) [] (by simp [lineOf]), List.reverse_nil,
      List.nil_append]
  rw [splitlines, fileOf, String.toList_ofList, linesAfter_joined closed (by simpa using filled),
    List.flatMap_map, List.flatMap_congr each, List.map_eq_flatMap]

/-- What is read of what was written, one for one. -/
theorem filterMap_map_self {α β : Type} {reads : β → Option α} {writes : α → β} {items : List α}
    (each : ∀ item ∈ items, reads (writes item) = some item) :
    (items.map writes).filterMap reads = items := by
  induction items with
  | nil => rfl
  | cons item rest inductionHypothesis =>
    obtain ⟨own, others⟩ := List.forall_mem_cons.mp each
    rw [List.map_cons, List.filterMap_cons, own, inductionHypothesis others]

theorem envRead_fileOf {entries : List (String × String)} (filled : entries ≠ [])
    (distinct : (entries.map (·.1)).Nodup)
    (sound : ∀ entry ∈ entries, isVariable entry.1.toList = true ∧ OneLine entry.2) :
    envRead (some (fileOf entries)) = entries := by
  have reads : (entries.map fun entry => String.ofList (lineOf entry)).filterMap readLine =
      entries := filterMap_map_self fun entry listed => readLine_lineOf (sound entry listed).1
  have whole : updated [] entries = [] ++ entries := updated_fresh distinct
  rw [envRead, splitlines_fileOf filled sound, reads]
  exact whole

/-- Where a variable leaks, there is a file with which the test of the target leaves it
behind in a process that did not have it. -/
theorem leak_left (distinct : (env.map (·.1)).Nodup) (own : "_" ∉ env.map (·.1))
    (leaks : Leaks env key) : ∃ file value,
      ((merged file env).all fun entry => isSettable entry.2) = false ∧
        known file key ≠ some value ∧
          setEach (fun _ => none) (merged file env) key = some value := by
  obtain ⟨before, value, after, rfl, settable, way⟩ := leaks
  by_cases fails : (before.all fun entry => isSettable entry.2) = true ∧
      (after.all fun entry => isSettable entry.2) = false
  · have plain : updated [] (before ++ (key, value) :: after) =
        [] ++ (before ++ (key, value) :: after) := updated_fresh distinct
    replace plain : merged none (before ++ (key, value) :: after) =
        before ++ (key, value) :: after := plain
    refine ⟨none, value, ?_, by simp [known, envRead, under], ?_⟩
    · rw [plain, List.all_append, List.all_cons, fails.2, Bool.and_false, Bool.and_false]
    · rw [plain]
      exact setEach_set distinct fails.1 settable _
  · have named := way.resolve_right fails
    obtain ⟨text, other, clean⟩ : ∃ text, str text ≠ value ∧ OneLine text := by
      by_cases same : str "a" = value
      · exact ⟨"b", by rw [← same]; decide, List.forall_mem_singleton.mpr (by decide)⟩
      · exact ⟨"a", same, List.forall_mem_singleton.mpr (by decide)⟩
    generalize keys : before ++ (key, value) :: after = env at distinct own
    have listed : (key, value) ∈ env := keys ▸ List.mem_append_right _ List.mem_cons_self
    have absent : under env "_" = none := by
      rw [Option.eq_none_iff_forall_ne_some]
      exact fun value found => own (List.mem_map_of_mem (mem_of_under found))
    have foreign : key ≠ "_" := fun same => own (same ▸ List.mem_map_of_mem listed)
    have null : OneLine "\x00" := List.forall_mem_singleton.mpr (by decide)
    have reads : envRead (some (fileOf [(key, text), ("_", "\x00")])) =
        [(key, text), ("_", "\x00")] := by
      refine envRead_fileOf (by simp) (by simpa using foreign) ?_
      exact List.forall_mem_cons.mpr ⟨⟨named, clean⟩,
        List.forall_mem_singleton.mpr ⟨by decide, null⟩⟩
    generalize fileOf [(key, text), ("_", "\x00")] = file at reads
    have own : under (envRead (some file)) key = some text :=
      (under_eq_some_iff (nodup_envRead _)).mpr (by simp [reads])
    have last : under (envRead (some file)) "_" = some "\x00" :=
      (under_eq_some_iff (nodup_envRead _)).mpr (by simp [reads])
    refine ⟨some file, value, ?_, ?_, ?_⟩
    · have found : under (merged (some file) env) "_" = some (str "\x00") := by
        rw [under_merged, absent, Option.none_or, known, last, Option.map_some]
      refine Bool.eq_false_iff.mpr fun all => ?_
      exact absurd (List.all_eq_true.mp all _ (mem_of_under found)) (by decide)
    · rw [known, own, Option.map_some]
      exact fun same => other (Option.some.inj same)
    · have first : ∃ given later, merged (some file) env = (key, given) :: later := by
        rw [merged, reads]
        exact updated_head key (str text) [("_", str "\x00")] env
      obtain ⟨given, later, same⟩ := first
      have keys := nodup_merged (some file) env
      have stored : under (merged (some file) env) key = some value := by
        rw [under_merged, (under_eq_some_iff distinct).mpr listed, Option.some_or]
      have begins := (under_eq_some_iff keys).mpr (same ▸ List.mem_cons_self)
      obtain rfl := Option.some.inj (stored.symm.trans begins)
      have around : merged (some file) env = [] ++ (key, value) :: later := same
      rw [around] at keys ⊢
      exact setEach_set keys rfl settable _

end Merging

section Files

/-- Commands that leave the environment file alone. -/
def KeepsEnv (command : Command) : Prop :=
  ∀ world state, (obey world command state).2.envFile = state.envFile

theorem envFile_kept {α : Type} {world : World} {program : Prog α}
    (issues : Issues KeepsEnv program) (state : Appliance) :
    (run (handler world) program state).2.envFile = state.envFile := by
  refine @issues_run appliance Exn _ _ _ (handler world) program
    (fun after => after.envFile = state.envFile) issues ?_ state rfl
  intro command middle keeps kept
  rcases handler_cases world command middle with ⟨error, _, same⟩ | same
  · rw [same]
    exact kept
  · rw [same, keeps world middle]
    exact kept

theorem issues_ask {property : Command → Prop} {command : Command} (holds : property command) :
    Issues property (ask command) := (@issues_perform appliance Exn property command).mpr holds

theorem setVariable_keepsEnv (key : String) (value : Str) : KeepsEnv (.setVariable key value) := by
  intro world state
  unfold obey
  dsimp only
  split <;> rfl

theorem issues_reloadEnv : Issues KeepsEnv reloadEnv :=
  issues_bind (issues_ask fun _ _ => rfl) fun _ =>
    issues_each fun _ _ => issues_ask (setVariable_keepsEnv _ _)

end Files

end Immutavault.EnvironmentEdits
