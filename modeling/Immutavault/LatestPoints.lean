import Immutavault.DROrchestrator
import Immutavault.Histories

/-!
# The newest point of a protected machine

A plan for the second site, and the copying that goes before it, look for the newest
recovery point of each protected machine. They ask the catalogue for the newest thousand
live points of the machine's platform and take the first one that bears its name. What
the name selects is the newest there is as long as the machine's own points are not
crowded out of the thousand by the points of its neighbours.
-/

namespace Immutavault.LatestPoints

open Programs Values Timestamps Catalog Machine Configuration StateDatabase DROrchestrator
open Histories

section Searches

variable {α : Type} {test : α → Bool}

/-- A search that stops after a number of entries finds what an unbounded search finds,
unless too many entries are passed over first. -/
theorem find?_take_iff {entries : List α} {count : Nat} {entry : α} :
    (entries.take count).find? test = some entry ↔
      entries.find? test = some entry ∧
        (entries.takeWhile fun other => ! test other).length < count := by
  induction entries generalizing count with
  | nil => simp
  | cons first rest inductionHypothesis =>
    cases count with
    | zero => simp
    | succ count =>
      rw [List.take_succ_cons]
      cases passes : test first with
      | true => simp [passes]
      | false => simp [passes, inductionHypothesis]

/-- In a list that descends, the first entry that passes a test is at least as great as
every other one that does. -/
theorem find?_greatest {rank : α → Nat} {entries : List α} {entry : α}
    (descending : entries.Pairwise fun first second => rank second ≤ rank first)
    (found : entries.find? test = some entry) :
    ∀ other ∈ entries, test other = true → rank other ≤ rank entry := by
  induction entries with
  | nil => cases found
  | cons first rest inductionHypothesis =>
    obtain ⟨before, descending⟩ := List.pairwise_cons.mp descending
    intro other member passes
    by_cases here : test first = true
    · obtain rfl : first = entry := by simpa [here] using found
      rcases List.mem_cons.mp member with rfl | later
      · exact le_rfl
      · exact before other later
    · rcases List.mem_cons.mp member with rfl | later
      · exact absurd passes here
      · exact inductionHypothesis descending (by simpa [here] using found) other later passes

end Searches

section Newest

variable (db : Database) (workload : DRVMConfig)

/-- The live points of the workload's source platform, in the order of the query. -/
def listing : List Point :=
  Database.newestFirst (db.livePoints.filter fun point => point.platform = workload.source_platform)

/-- The live points of a workload on its source platform. -/
def Own (point : Point) : Prop :=
  point ∈ db.livePoints ∧ point.platform = workload.source_platform ∧ point.vm_name = workload.name

/-- What is found is a point of the workload, and none is newer; nothing is found only
where there is nothing. -/
def Newest : Option Point → Prop
  | some point => Own db workload point ∧
      ∀ other, Own db workload other → other.created_at ≤ point.created_at
  | none => ∀ point, ¬ Own db workload point

/-- The points that are listed before the first one of the workload. -/
def overtaking : List Point :=
  (listing db workload).takeWhile fun point => ! decide (point.vm_name = workload.name)

variable {db workload}

/-- The listing holds the live points of the platform, and a workload's among them. -/
theorem own_iff {point : Point} :
    Own db workload point ↔ point ∈ listing db workload ∧ point.vm_name = workload.name := by
  rw [listing, Database.newestFirst, List.mem_insertionSort, List.mem_filter, decide_eq_true_eq,
    and_assoc]
  rfl

theorem listing_descends : (listing db workload).Pairwise fun first second =>
    second.created_at ≤ first.created_at := by
  have : Std.Total fun first second : Point => second.created_at ≤ first.created_at :=
    ⟨fun first second => Nat.le_total second.created_at first.created_at⟩
  have : IsTrans Point fun first second => second.created_at ≤ first.created_at :=
    ⟨fun _ _ _ second third => Nat.le_trans third second⟩
  exact List.pairwise_insertionSort _ _

/-- A search through the whole listing finds the newest point of a workload. -/
theorem newest_find : Newest db workload
    ((listing db workload).find? fun point => point.vm_name = workload.name) := by
  cases found : (listing db workload).find? fun point => point.vm_name = workload.name with
  | none =>
    intro point own
    obtain ⟨listed, named⟩ := own_iff.mp own
    have other := List.find?_eq_none.mp found point listed
    exact other (decide_eq_true named)
  | some point =>
    refine ⟨own_iff.mpr ⟨List.mem_of_find?_eq_some found, ?_⟩, fun other own => ?_⟩
    · simpa using List.find?_some found
    · obtain ⟨listed, named⟩ := own_iff.mp own
      exact find?_greatest listing_descends found other listed (decide_eq_true named)

/-- The search that a plan makes reads the first thousand of the listing. -/
theorem run_latestPoint (named : workload.source_platform ≠ "") (env : Environment)
    (world : World) : (run env.handler (DROrchestrator.latestPoint workload) world).1 =
      .ok (((listing world.db workload).take 1000).find? fun point =>
        point.vm_name = workload.name) := by
  have same : Transaction.read world.db (.selectPoints (some workload.source_platform) none 1000) =
      (listing world.db workload).take 1000 := by
    simp [Transaction.read, listing, named]
  rw [DROrchestrator.latestPoint, listPoints, run_transact_bind, same]
  rfl

end Newest

section Crowd

/-- The machine that is protected, and where it is restored to. -/
def web : DRVMConfig := { name := "web", source_platform := "pve-1", target_platform := "pve-2" }

/-- A live point of a machine on the first platform. -/
def rowOf (vm_name : String) (created_at : Timestamp) : PointRow where
  created_at := created_at
  platform := "pve-1"
  platform_type := .proxmox
  vm_id := vm_name
  vm_name := vm_name
  power_state := none
  source_path := "/srv/staging"
  backup_bytes := 1
  data_added := 1
  file_count := 1
  manifest_sha256 := none
  immutable_until := 0
  suspicious := false
  suspicious_reason := none
  verified := true
  verified_at := none
  metadata := []

/-- Newer points of another machine, and a point of the protected one. -/
def crowdRows (count : Nat) : List (String × PointRow) :=
  (List.range count).map (fun number =>
    (String.ofList (List.replicate number 'a'), rowOf "batch" 1)) ++ [("web", rowOf "web" 0)]

theorem crowd_distinct (count : Nat) : ((crowdRows count).map Prod.fst).Nodup := by
  rw [crowdRows, List.map_append, List.map_map, List.nodup_append']
  refine ⟨?_, List.nodup_singleton _, ?_⟩
  · refine (List.nodup_range).map fun first second same => ?_
    have lengths := congrArg (fun text : String => text.toList.length) same
    simpa using lengths
  · rintro key member own
    obtain rfl := List.mem_singleton.mp own
    obtain ⟨number, _, same⟩ := List.mem_map.mp member
    have letters : List.replicate number 'a' = ['w', 'e', 'b'] := by
      simpa using congrArg String.toList same
    have inside : 'w' ∈ List.replicate number 'a' := letters ▸ List.mem_cons_self
    exact absurd (List.eq_of_mem_replicate inside) (by decide)

def crowd (count : Nat) : Database where
  points := ⟨crowdRows count, crowd_distinct count⟩

/-- The points are listed as they stand. -/
theorem listing_crowd (count : Nat) : listing (crowd count) web =
    (crowdRows count).map fun entry => { entry.2 with snapshot_id := entry.1 } := by
  have alike : ∀ entry ∈ crowdRows count, entry.2.expired = false ∧ entry.2.platform = "pve-1" := by
    intro entry member
    rcases List.mem_append.mp member with other | own
    · obtain ⟨number, _, rfl⟩ := List.mem_map.mp other
      exact ⟨rfl, rfl⟩
    · obtain rfl := List.mem_singleton.mp own
      exact ⟨rfl, rfl⟩
  have live : (crowd count).livePoints =
      (crowdRows count).map fun entry => { entry.2 with snapshot_id := entry.1 } := by
    refine congrArg (List.map _) (List.filter_eq_self.mpr fun entry member => ?_)
    simp [(alike entry member).1]
  have nearby : ((crowd count).livePoints.filter fun point => point.platform = web.source_platform) =
      (crowd count).livePoints := by
    refine List.filter_eq_self.mpr fun point member => ?_
    rw [live] at member
    obtain ⟨entry, kept, rfl⟩ := List.mem_map.mp member
    exact decide_eq_true (alike entry kept).2
  rw [listing, nearby, live, Database.newestFirst]
  refine List.Pairwise.insertionSort_eq ?_
  rw [List.pairwise_map, crowdRows, List.pairwise_append]
  refine ⟨?_, List.pairwise_singleton _ _, ?_⟩
  · refine List.pairwise_map.mpr (List.pairwise_of_forall fun first second => ?_)
    exact Nat.le_refl 1
  · intro first member second own
    obtain ⟨number, _, rfl⟩ := List.mem_map.mp member
    obtain rfl := List.mem_singleton.mp own
    exact Nat.zero_le 1

/-- The points of the other machine do not bear the name of the protected one. -/
theorem others_crowd (count : Nat) : ∀ point ∈ ((List.range count).map fun number =>
    (String.ofList (List.replicate number 'a'), rowOf "batch" 1)).map
      (fun entry => ({ entry.2 with snapshot_id := entry.1 } : Point)),
    point.vm_name ≠ web.name := by
  intro point member
  obtain ⟨entry, kept, rfl⟩ := List.mem_map.mp member
  obtain ⟨number, _, rfl⟩ := List.mem_map.mp kept
  exact (by decide : "batch" ≠ "web")

theorem overtaking_crowd (count : Nat) : (overtaking (crowd count) web).length = count := by
  have others := others_crowd count
  rw [overtaking, listing_crowd, crowdRows, List.map_append,
    List.takeWhile_append_of_pos fun point member => by simp [others point member],
    List.length_append]
  simp [rowOf, web]

theorem own_crowd (count : Nat) : Own (crowd count) web
    { rowOf "web" 0 with snapshot_id := "web" } := by
  refine own_iff.mpr ⟨?_, rfl⟩
  rw [listing_crowd]
  exact List.mem_map.mpr ⟨_, List.mem_append_right _ List.mem_cons_self, rfl⟩

end Crowd

end Immutavault.LatestPoints
