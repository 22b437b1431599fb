import Immutavault.GlobPatterns
import Immutavault.ResticRepository

/-!
# Inventories

An adapter asks its platform which machines there are, and keeps those whose names match
a pattern that is included and none that is excluded. A vCenter and a Proxmox cluster
answer with one JSON document, an XCP-ng host with one text for the identifiers and two
for each machine.

A host answers from everything that it was asked in one inventory. What it lists is what
it would answer if every name matched; an inventory is that list without the machines
whose names do not match.
-/

namespace Immutavault.Inventories

open Programs Values Configuration Machine ResticRepository GlobPatterns

/-- What an adapter asks its platform: `govc find` and `pvesh get /cluster/resources`, which
print a JSON document or nothing, and the `xe` commands of a pool. -/
inductive Survey where
  | findMachines
  | clusterResources
  | machineUuids
  | nameLabel (uuid : String)
  | powerState (uuid : String)

@[reducible] def Survey.Answer : Survey → Type
  | .findMachines | .clusterResources => Option Json
  | .machineUuids | .nameLabel _ | .powerState _ => String

abbrev surveys : Interface := ⟨Survey, Survey.Answer⟩

abbrev SurveyProg (α : Type) := Program surveys Exn α

def ask (survey : Survey) : SurveyProg survey.Answer := @Program.perform surveys Exn survey

/-- Go on with a value, or raise. -/
def settled {α : Type} : Except Exn α → SurveyProg α
  | .ok value => pure value
  | .error error => throw error

/-- A machine as its platform lists it. Its name is read first, and the rest when it is kept. -/
structure Row where
  name : String
  machine : Except Exn VM

section Rows

/-- The part of a path behind its last separator. -/
def baseName (path : String) : String :=
  String.ofList (path.toList.reverse.takeWhile (· ≠ '/')).reverse

/-- The elements of what `govc find` printed. -/
def elements (data : Json) : Except Exn (List Json) := do
  let data ← asDict data
  match data.get? "elements" with
  | none => return []
  | some paths => if paths.truthy then asItems paths else return []

/-- The path of an element; elements without one are passed over. -/
def elementPath : Json → Except Exn (Option String)
  | .obj fields =>
    match Dict.get? fields "path" with
    | none => .ok none
    | some path =>
      if ¬ path.truthy then .ok none
      else match path with
        | .str text => .ok (some text)
        | _ => .error ⟨.otherError, "object has no attribute 'rsplit'"⟩
  | item => .ok (if item.toText = "" then none else some item.toText)

def readElement (item : Json) : Except Exn (Option Row) := do
  match ← elementPath item with
  | none => return none
  | some path =>
    let name := baseName path
    return some ⟨name, .ok { id := path, name := name, kind := "vmware" }⟩

/-- The field of a resource, or another value where it is missing. -/
def resourceField (row : Dict) (key fallback : String) : String :=
  ((row.get? key).getD (.str fallback)).toText

def readResource (row : Json) : Except Exn (Option Row) := do
  let row ← asDict row
  let vmid := (row.get? "vmid").getD .null
  let name := match row.get? "name" with
    | some given => if given.truthy then given.toText else vmid.toText
    | none => vmid.toText
  return some ⟨name, match row.get? "vmid" with
    | none => .error ⟨.otherError, "'vmid'"⟩
    | some vmid => .ok {
        id := vmid.toText, name := name, power_state := resourceField row "status" "unknown"
        kind := resourceField row "type" "qemu" }⟩

/-- The identifiers in a list that is separated by commas. -/
def uuidList (text : String) : List String :=
  (((stripped text).splitOn ",").map stripped).filter (· ≠ "")

end Rows

section Sweeps

variable {α : Type}

/-- Go through the items of a document, and read each. -/
def documentSweep (document : SurveyProg (Option Json))
    (items : Option Json → Except Exn (List Json)) (read : Json → Except Exn (Option Row))
    (keep : Row → Except Exn (List α)) : SurveyProg (List α) := do
  let data ← document
  let found ← settled (items data)
  let kept ← settled (found.mapM fun item => read item >>= (·.elim (pure []) keep))
  return kept.flatten

/-- Go through the machines of a vCenter. -/
def vmwareSweep (keep : Row → Except Exn (List α)) : SurveyProg (List α) :=
  documentSweep (ask .findMachines) (fun data => elements (data.getD (.obj []))) readElement keep

/-- Go through the machines of a Proxmox cluster. -/
def proxmoxSweep (keep : Row → Except Exn (List α)) : SurveyProg (List α) :=
  documentSweep (ask .clusterResources) (fun data => asItems (data.getD (.arr []))) readResource keep

def xcpngMachines (keep : Row → Except Exn (List α)) : List String → SurveyProg (List α)
  | [] => return []
  | uuid :: rest => do
    let label : String ← ask (.nameLabel uuid)
    let state : String ← ask (.powerState uuid)
    let name := stripped label
    let kept ← settled (keep ⟨name, .ok {
      id := uuid, name := name, power_state := stripped state, kind := "xcpng" }⟩)
    let others ← xcpngMachines keep rest
    return kept ++ others

/-- Go through the machines of an XCP-ng pool. -/
def xcpngSweep (keep : Row → Except Exn (List α)) : SurveyProg (List α) := do
  let text : String ← ask .machineUuids
  xcpngMachines keep (uuidList text)

def sweep (type : PlatformType) (keep : Row → Except Exn (List α)) : SurveyProg (List α) :=
  match type with
  | .vmware => vmwareSweep keep
  | .proxmox => proxmoxSweep keep
  | .xcpng => xcpngSweep keep

end Sweeps

/-- The name is included and not excluded. -/
def selected (cfg : PlatformConfig) (name : String) : Bool :=
  cfg.includes.any (fnmatch name) && ! cfg.excludes.any (fnmatch name)

/-- The machine of a row whose name is selected. -/
def keepSelected (cfg : PlatformConfig) (row : Row) : Except Exn (List VM) :=
  if selected cfg row.name then do return [← row.machine] else return []

/-- The selected machines of a platform. -/
def inventory (cfg : PlatformConfig) : SurveyProg (List VM) :=
  sweep cfg.type (keepSelected cfg)

/-- How a host answers, from what the inventory asked before. -/
abbrev Host := List (Exchange surveys Exn) → (survey : Survey) → Except Exn survey.Answer

/-- A host answers, and what it was asked is kept. -/
def Host.handler (host : Host) : Handler surveys Exn (List (Exchange surveys Exn)) :=
  fun survey asked => (host asked survey, asked ++ [⟨survey, host asked survey⟩])

/-- All rows that a host of this type shows. -/
def rows (host : Host) (type : PlatformType) : Except Exn (List Row) :=
  (run host.handler (sweep type fun row => pure [row]) []).1

/-- The machines that a host lists: the rows that can be read. -/
def listed (host : Host) (type : PlatformType) : List VM :=
  match rows host type with
  | .ok rows => rows.filterMap (·.machine.toOption)
  | .error _ => []

section Listings

variable {α : Type} {host : Host} {asked after : List (Exchange surveys Exn)}

/-- A row shows the name of its machine. -/
def Row.Honest (row : Row) : Prop := ∀ vm, row.machine = .ok vm → vm.name = row.name

theorem settled_ran {value : Except Exn α} {result : α}
    (ran : run host.handler (settled value) asked = (.ok result, after)) :
    value = .ok result ∧ asked = after := by
  cases value with
  | ok given =>
    cases ran
    exact ⟨rfl, rfl⟩
  | error error => cases ran

/-- Keeping a part of every item is listing all rows and keeping a part of each. -/
theorem mapM_rows {read : Json → Except Exn (Option Row)} {keep : Row → Except Exn (List α)}
    {items : List Json} {parts : List (List α)}
    (honest : ∀ item row, read item = .ok (some row) → row.Honest)
    (done : (items.mapM fun item => read item >>= (·.elim (pure []) keep)) = .ok parts) :
    ∃ rows kept,
      (items.mapM fun item => read item >>= (·.elim (pure []) fun row => pure [row])) = .ok rows ∧
      rows.flatten.mapM keep = .ok kept ∧ kept.flatten = parts.flatten ∧
      ∀ row ∈ rows.flatten, row.Honest := by
  induction items generalizing parts with
  | nil =>
    cases done
    exact ⟨[], [], rfl, rfl, rfl, fun row member => absurd member List.not_mem_nil⟩
  | cons item rest inductionHypothesis =>
    obtain ⟨part, others, own, further, rfl⟩ := mapM_cons_ok.mp done
    obtain ⟨found, reading, keeping⟩ := bind_eq_ok.mp own
    obtain ⟨rows, kept, listing, collecting, joined, shown⟩ := inductionHypothesis further
    cases found with
    | none =>
      cases keeping
      refine ⟨[] :: rows, kept, ?_, collecting, joined, shown⟩
      exact mapM_cons_ok.mpr ⟨[], rows, bind_eq_ok.mpr ⟨none, reading, rfl⟩, listing, rfl⟩
    | some row =>
      refine ⟨[row] :: rows, part :: kept, ?_, ?_, ?_, ?_⟩
      · exact mapM_cons_ok.mpr ⟨[row], rows, bind_eq_ok.mpr ⟨some row, reading, rfl⟩, listing, rfl⟩
      · exact mapM_cons_ok.mpr ⟨part, kept, keeping, collecting, rfl⟩
      · rw [List.flatten_cons, List.flatten_cons, joined]
      · exact List.forall_mem_cons.mpr ⟨honest item row reading, shown⟩

theorem readElement_honest (item : Json) (row : Row) (read : readElement item = .ok (some row)) :
    row.Honest := by
  obtain ⟨found, _, shown⟩ := bind_eq_ok.mp read
  cases found with
  | none => cases shown
  | some path =>
    cases shown
    rintro vm machine
    cases machine
    rfl

theorem readResource_honest (item : Json) (row : Row) (read : readResource item = .ok (some row)) :
    row.Honest := by
  obtain ⟨fields, _, shown⟩ := bind_eq_ok.mp read
  cases shown
  intro vm machine
  dsimp only at machine
  split at machine
  · cases machine
  · cases machine
    rfl

theorem documentSweep_rows {document : SurveyProg (Option Json)}
    {items : Option Json → Except Exn (List Json)} {read : Json → Except Exn (Option Row)}
    {keep : Row → Except Exn (List α)} {part : List α}
    (honest : ∀ item row, read item = .ok (some row) → row.Honest)
    (ran : run host.handler (documentSweep document items read keep) asked = (.ok part, after)) :
    ∃ rows kept,
      run host.handler (documentSweep document items read fun row => pure [row]) asked =
        (.ok rows, after) ∧
      rows.mapM keep = .ok kept ∧ kept.flatten = part ∧ ∀ row ∈ rows, row.Honest := by
  obtain ⟨data, answered, asking, ran⟩ := (run_bind_eq_ok _).mp ran
  obtain ⟨found, _, finding, ran⟩ := (run_bind_eq_ok _).mp ran
  obtain ⟨parts, _, reading, done⟩ := (run_bind_eq_ok _).mp ran
  obtain ⟨there, rfl⟩ := settled_ran finding
  obtain ⟨collected, rfl⟩ := settled_ran reading
  obtain ⟨rfl, rfl⟩ : parts.flatten = part ∧ _ = after := by
    simpa only [run_pure, Prod.mk.injEq, Except.ok.injEq] using done
  obtain ⟨rows, kept, listing, keeping, joined, shown⟩ := mapM_rows honest collected
  refine ⟨rows.flatten, kept, ?_, keeping, joined, shown⟩
  refine (run_bind_eq_ok _).mpr ⟨data, answered, asking, ?_⟩
  refine (run_bind_eq_ok _).mpr ⟨found, answered, by rw [there]; rfl, ?_⟩
  exact (run_bind_eq_ok _).mpr ⟨rows, answered, by rw [listing]; rfl, rfl⟩

/-- The same for the machines of a pool, which are asked for one by one. -/
theorem xcpngMachines_rows {keep : Row → Except Exn (List α)} {uuids : List String}
    {part : List α}
    (ran : run host.handler (xcpngMachines keep uuids) asked = (.ok part, after)) :
    ∃ rows kept,
      run host.handler (xcpngMachines (fun row => pure [row]) uuids) asked = (.ok rows, after) ∧
      rows.mapM keep = .ok kept ∧ kept.flatten = part ∧ ∀ row ∈ rows, row.Honest := by
  induction uuids generalizing asked part with
  | nil =>
    cases ran
    exact ⟨[], [], rfl, rfl, rfl, fun row member => absurd member List.not_mem_nil⟩
  | cons uuid rest inductionHypothesis =>
    obtain ⟨label, labelled, labelling, ran⟩ := (run_bind_eq_ok _).mp ran
    obtain ⟨state, stated, stating, ran⟩ := (run_bind_eq_ok _).mp ran
    obtain ⟨own, _, keeping, ran⟩ := (run_bind_eq_ok _).mp ran
    obtain ⟨kept, rfl⟩ := settled_ran keeping
    obtain ⟨others, _, further, done⟩ := (run_bind_eq_ok _).mp ran
    obtain ⟨rfl, rfl⟩ : own ++ others = part ∧ _ = after := by
      simpa only [run_pure, Prod.mk.injEq, Except.ok.injEq] using done
    obtain ⟨rows, parts, listing, collecting, joined, shown⟩ := inductionHypothesis further
    refine ⟨_ :: rows, own :: parts, ?_, mapM_cons_ok.mpr ⟨own, parts, kept, collecting, rfl⟩,
      by rw [List.flatten_cons, joined], List.forall_mem_cons.mpr ⟨?_, shown⟩⟩
    · refine (run_bind_eq_ok _).mpr ⟨label, labelled, labelling, ?_⟩
      refine (run_bind_eq_ok _).mpr ⟨state, stated, stating, ?_⟩
      refine (run_bind_eq_ok _).mpr ⟨_, stated, rfl, ?_⟩
      exact (run_bind_eq_ok _).mpr ⟨rows, _, listing, rfl⟩
    · rintro vm machine
      cases machine
      rfl

/-- Going through a platform is listing all its rows and keeping a part of each. -/
theorem sweep_rows {type : PlatformType} {keep : Row → Except Exn (List α)} {part : List α}
    (ran : run host.handler (sweep type keep) asked = (.ok part, after)) :
    ∃ rows kept,
      run host.handler (sweep type fun row => pure [row]) asked = (.ok rows, after) ∧
      rows.mapM keep = .ok kept ∧ kept.flatten = part ∧ ∀ row ∈ rows, row.Honest := by
  cases type with
  | vmware => exact documentSweep_rows readElement_honest ran
  | proxmox => exact documentSweep_rows readResource_honest ran
  | xcpng =>
    obtain ⟨text, answered, asking, ran⟩ := (run_bind_eq_ok _).mp ran
    obtain ⟨rows, kept, listing, keeping, joined, shown⟩ := xcpngMachines_rows ran
    refine ⟨rows, kept, ?_, keeping, joined, shown⟩
    exact (run_bind_eq_ok _).mpr ⟨text, answered, asking, listing⟩

/-- Keeping the selected machines of honest rows is filtering by the names. -/
theorem mapM_keepSelected {cfg : PlatformConfig} {rows : List Row} {kept : List (List VM)}
    (honest : ∀ row ∈ rows, row.Honest) (done : rows.mapM (keepSelected cfg) = .ok kept) :
    kept.flatten =
      (rows.filterMap (·.machine.toOption)).filter fun vm => selected cfg vm.name := by
  induction rows generalizing kept with
  | nil =>
    cases done
    rfl
  | cons row rest inductionHypothesis =>
    obtain ⟨own, others, keeping, further, rfl⟩ := mapM_cons_ok.mp done
    obtain ⟨first, later⟩ := List.forall_mem_cons.mp honest
    have rest_kept := inductionHypothesis later further
    unfold keepSelected at keeping
    rw [List.flatten_cons, rest_kept]
    split at keeping
    · rename_i chosen
      obtain ⟨vm, machine, shown⟩ := bind_eq_ok.mp keeping
      cases shown
      rw [List.filterMap_cons, machine]
      simp [Except.toOption, first vm machine, chosen]
    · rename_i passed
      cases keeping
      cases machine : row.machine with
      | error error => simp [machine, Except.toOption]
      | ok vm => simp [machine, Except.toOption, first vm machine, passed]

/-- An inventory is what the host lists, without the names that are not selected. -/
theorem inventory_listed {cfg : PlatformConfig} {machines : List VM}
    (ran : (run host.handler (inventory cfg) []).1 = .ok machines) :
    machines = (listed host cfg.type).filter fun vm => selected cfg vm.name := by
  cases outcome : run host.handler (inventory cfg) [] with
  | mk answer after =>
    rw [outcome] at ran
    cases ran
    obtain ⟨found, kept, listing, keeping, joined, shown⟩ := sweep_rows outcome
    have shows : rows host cfg.type = .ok found := congrArg Prod.fst listing
    rw [listed, shows, ← joined]
    exact mapM_keepSelected shown keeping

end Listings

/-- A world whose inventories are taken by the adapters, host by host. -/
def surveying (hosts : String → Host) (base : Environment) : Environment where
  answer := fun log external => match external with
    | .inventory platform => (run (hosts platform.name).handler (inventory platform) []).1
    | external => base.answer log external
  elapsed := base.elapsed

end Immutavault.Inventories
