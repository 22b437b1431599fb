import Mathlib.Data.List.Dedup
import Immutavault.OperationsView

/-!
# What tenants see of each other, and of the past

The operations view is judged in two ways. Two databases that hold the same rows for
the tenants of an identity should give it the same view; and a database that holds
rows of platforms that are no longer configured should still be shown.

The view cuts the list of jobs before it filters by tenant, and it asks for the owner
of every row that it passes. Both laws therefore have a condition: the jobs in scope
must fall to equal numbers among the newest, and every platform that a row mentions
must still have exactly one owner.
-/

namespace Immutavault.TenantViews

open Values Timestamps Catalog Tables Configuration Tenancy OperationsView

section Reports

variable {cfg : EnterpriseConfig} {poll : Poll} {db : Database} {scopes : List String}

/-- The platform has one owner, and the owner is in scope. -/
def inScope (cfg : EnterpriseConfig) (scopes : List String) (platform : String) : Bool :=
  match cfg.tenantForPlatform platform with
  | .ok tenant => allowed tenant scopes
  | .error _ => false

/-- The platform of every job has one owner. -/
def Owned (cfg : EnterpriseConfig) (rows : List (Nat × JobRow)) : Prop :=
  ∀ entry ∈ rows, cfg.Resolves entry.2.platform

instance (cfg : EnterpriseConfig) (rows : List (Nat × JobRow)) : Decidable (Owned cfg rows) :=
  inferInstanceAs (Decidable (∀ entry ∈ rows, cfg.Resolves entry.2.platform))

/-- The report of a job under its owner. -/
def ownReport (cfg : EnterpriseConfig) (poll : Poll) (db : Database) (entry : Nat × JobRow) :
    JobReport :=
  jobReport cfg poll db ((owners cfg.tenants entry.2.platform).headD "") entry.1 entry.2

/-- Jobs that all have an owner are reported: those in scope, in their order. -/
theorem reports_owned {rows : List (Nat × JobRow)} (owned : Owned cfg rows) :
    reports cfg poll db scopes rows =
      .ok ((rows.filter fun entry => inScope cfg scopes entry.2.platform).map
        (ownReport cfg poll db)) := by
  induction rows with
  | nil => rfl
  | cons entry rest inductionHypothesis =>
    obtain ⟨tenant, resolved⟩ := owned entry List.mem_cons_self
    have others := inductionHypothesis fun later member => owned later (List.mem_cons_of_mem _ member)
    have only := cfg.tenantForPlatform_eq_ok.mp resolved
    rw [reports, resolved, others]
    by_cases within : allowed tenant scopes = true
    · have kept : inScope cfg scopes entry.2.platform = true := by
        simp only [inScope, resolved, within]
      rw [List.filter_cons_of_pos (by simpa using kept), List.map_cons]
      simp [bind, Except.bind, pure, Except.pure, within, ownReport, only]
    · have dropped : ¬ inScope cfg scopes entry.2.platform = true := by
        simpa only [inScope, resolved] using within
      rw [List.filter_cons_of_neg (by simpa using dropped)]
      simp [bind, Except.bind, within]

/-- Jobs are reported only when all of them have an owner. -/
theorem owned_of_reports {rows : List (Nat × JobRow)} {reported : List JobReport}
    (ran : reports cfg poll db scopes rows = .ok reported) : Owned cfg rows := by
  induction rows generalizing reported with
  | nil => exact fun _ member => absurd member List.not_mem_nil
  | cons entry rest inductionHypothesis =>
    rw [reports] at ran
    cases resolved : cfg.tenantForPlatform entry.2.platform with
    | error error =>
      rw [resolved] at ran
      cases ran
    | ok tenant =>
      have others : ∃ later, reports cfg poll db scopes rest = .ok later := by
        rw [resolved] at ran
        cases further : reports cfg poll db scopes rest with
        | ok later => exact ⟨later, rfl⟩
        | error error =>
          rw [further] at ran
          by_cases within : allowed tenant scopes = true <;>
            simp [bind, Except.bind, within] at ran
      obtain ⟨later, further⟩ := others
      intro passed member
      rcases List.mem_cons.mp member with rfl | deeper
      · exact ⟨tenant, resolved⟩
      · exact inductionHypothesis further passed deeper

/-- Every reported job belongs to a platform whose one owner is in scope. -/
theorem reported_inScope {rows : List (Nat × JobRow)} {reported : List JobReport}
    (ran : reports cfg poll db scopes rows = .ok reported) :
    ∀ report ∈ reported, inScope cfg scopes report.platform = true := by
  rw [reports_owned (owned_of_reports ran)] at ran
  cases ran
  intro report member
  obtain ⟨entry, kept, rfl⟩ := List.mem_map.mp member
  exact (List.mem_filter.mp kept).2

/-- The enabled platforms of a configuration can be listed, and those listed are in scope. -/
theorem scopedPlatforms_ok (cfg : EnterpriseConfig) (scopes : List String)
    {platforms : List PlatformConfig} (configured : platforms ⊆ cfg.core.platforms) :
    ∃ listed, scopedPlatforms cfg scopes platforms = .ok listed ∧
      ∀ entry ∈ listed, inScope cfg scopes entry.1 = true := by
  induction platforms with
  | nil => exact ⟨[], rfl, fun _ member => absurd member List.not_mem_nil⟩
  | cons platform rest inductionHypothesis =>
    obtain ⟨listed, further, within⟩ := inductionHypothesis
      fun later member => configured (List.mem_cons_of_mem _ member)
    obtain ⟨tenant, resolved⟩ := cfg.resolves_configured (configured List.mem_cons_self)
    by_cases enabled : platform.enabled = true
    · by_cases own : allowed tenant scopes = true
      · refine ⟨(platform.name, tenant) :: listed, ?_, ?_⟩
        · simp [scopedPlatforms, enabled, resolved, further, own, bind, Except.bind, pure,
            Except.pure]
        · intro entry member
          rcases List.mem_cons.mp member with rfl | later
          · simp only [inScope, resolved, own]
          · exact within entry later
      · refine ⟨listed, ?_, within⟩
        simp [scopedPlatforms, enabled, resolved, further, own, bind, Except.bind, pure,
          Except.pure]
    · exact ⟨listed, by simp [scopedPlatforms, enabled, further], within⟩

/-- The summary is always returned. -/
theorem summary_ok (cfg : EnterpriseConfig) (db : Database) (scopes : List String) :
    ∃ result, summary cfg db scopes = .ok result := by
  obtain ⟨listed, ran, _⟩ := scopedPlatforms_ok cfg scopes (List.Subset.refl _)
  exact ⟨_, by rw [summary, ran]; rfl⟩

end Reports

section Noninterference

variable {cfg : EnterpriseConfig} {scopes : List String} {first second : Database}

/-- Two databases hold the same rows for the tenants in scope. -/
structure Agree (cfg : EnterpriseConfig) (scopes : List String) (first second : Database) :
    Prop where
  jobs : (first.jobs.rows.filter fun entry => inScope cfg scopes entry.2.platform) =
    second.jobs.rows.filter fun entry => inScope cfg scopes entry.2.platform
  points : (first.points.rows.filter fun entry => inScope cfg scopes entry.2.platform) =
    second.points.rows.filter fun entry => inScope cfg scopes entry.2.platform
  requests : (first.requests.rows.filter fun entry => inScope cfg scopes entry.2.source_platform) =
    second.requests.rows.filter fun entry => inScope cfg scopes entry.2.source_platform

/-- Lists that agree on a part agree on every smaller part. -/
theorem filter_smaller {α : Type} {wide narrow : α → Bool} {left right : List α}
    (same : left.filter wide = right.filter wide)
    (smaller : ∀ entry, narrow entry = true → wide entry = true) :
    left.filter narrow = right.filter narrow := by
  have twice : ∀ entries : List α, entries.filter narrow = (entries.filter wide).filter narrow := by
    intro entries
    rw [List.filter_filter]
    apply List.filter_congr
    intro entry _
    cases kept : narrow entry with
    | true => simp [smaller entry kept]
    | false => rfl
  rw [twice left, twice right, same]

/-- The live points of platforms in scope are the same. -/
theorem Agree.livePoints (agree : Agree cfg scopes first second) {keep : Point → Bool}
    (within : ∀ point, keep point = true → inScope cfg scopes point.platform = true) :
    first.livePoints.filter keep = second.livePoints.filter keep := by
  unfold Database.livePoints
  rw [List.filter_map, List.filter_map, List.filter_filter, List.filter_filter]
  congr 1
  apply filter_smaller agree.points
  intro entry kept
  have chosen : keep { entry.2 with snapshot_id := entry.1 } = true :=
    (Bool.and_eq_true_iff.mp kept).1
  exact within { entry.2 with snapshot_id := entry.1 } chosen

theorem Agree.expectedBytes (agree : Agree cfg scopes first second) {row : JobRow}
    (within : inScope cfg scopes row.platform = true) :
    expectedBytes first row = expectedBytes second row := by
  have points : ∀ point : Point,
      decide (point.platform = row.platform ∧ point.vm_id = row.vm_id) = true →
        inScope cfg scopes point.platform = true := by
    intro point own
    have named : point.platform = row.platform := (of_decide_eq_true own).1
    exact named ▸ within
  simp only [OperationsView.expectedBytes, Transaction.read, agree.livePoints points]

/-- A job in scope is reported the same. -/
theorem Agree.ownReport (agree : Agree cfg scopes first second) (poll : Poll)
    {entry : Nat × JobRow} (within : inScope cfg scopes entry.2.platform = true) :
    ownReport cfg poll first entry = ownReport cfg poll second entry := by
  simp only [TenantViews.ownReport, jobReport, progress, estimateRunningProgress,
    agree.expectedBytes within]

/-- The counts over platforms in scope are the same. -/
theorem Agree.counts (agree : Agree cfg scopes first second) {platforms : List (String × String)}
    (within : ∀ entry ∈ platforms, inScope cfg scopes entry.1 = true) :
    counts first platforms = counts second platforms := by
  have named : ∀ name ∈ platforms.map Prod.fst, inScope cfg scopes name = true := by
    intro name member
    obtain ⟨entry, listed, rfl⟩ := List.mem_map.mp member
    exact within entry listed
  have points : first.livePoints.filter (·.platform ∈ platforms.map Prod.fst) =
      second.livePoints.filter (·.platform ∈ platforms.map Prod.fst) :=
    agree.livePoints fun point listed => named _ (of_decide_eq_true listed)
  have running : (first.jobs.rows.filter fun entry =>
        entry.2.status = "running" ∧ entry.2.platform ∈ platforms.map Prod.fst) =
      second.jobs.rows.filter fun entry =>
        entry.2.status = "running" ∧ entry.2.platform ∈ platforms.map Prod.fst :=
    filter_smaller agree.jobs fun entry listed => named _ (of_decide_eq_true listed).2
  have pending : (first.requests.rows.filter fun entry =>
        activeRequest entry.2.status ∧ entry.2.source_platform ∈ platforms.map Prod.fst) =
      second.requests.rows.filter fun entry =>
        activeRequest entry.2.status ∧ entry.2.source_platform ∈ platforms.map Prod.fst :=
    filter_smaller agree.requests fun entry listed => named _ (of_decide_eq_true listed).2
  simp only [OperationsView.counts, List.countP_eq_length_filter, points, running, pending]

theorem Agree.summary (agree : Agree cfg scopes first second) :
    summary cfg first scopes = summary cfg second scopes := by
  obtain ⟨listed, ran, within⟩ := scopedPlatforms_ok cfg scopes (List.Subset.refl _)
  simp only [OperationsView.summary, ran, bind, Except.bind, agree.counts within]

/-- Equally many jobs in scope among the newest are the same jobs. -/
theorem Agree.newest (agree : Agree cfg scopes first second) {limit : Int}
    (equal : (newestJobs first limit).countP (fun entry => inScope cfg scopes entry.2.platform) =
      (newestJobs second limit).countP fun entry => inScope cfg scopes entry.2.platform) :
    (newestJobs first limit).filter (fun entry => inScope cfg scopes entry.2.platform) =
      (newestJobs second limit).filter fun entry => inScope cfg scopes entry.2.platform := by
  have begins : ∀ db : Database,
      (newestJobs db limit).filter (fun entry => inScope cfg scopes entry.2.platform) <+:
        (db.jobs.rows.filter fun entry => inScope cfg scopes entry.2.platform).reverse := by
    intro db
    rw [← List.filter_reverse]
    exact (List.take_prefix _ _).filter _
  have lengths := equal
  simp only [List.countP_eq_length_filter] at lengths
  exact (List.prefix_of_prefix_length_le (begins first) (agree.jobs ▸ begins second)
    lengths.le).eq_of_length lengths

end Noninterference

/-- Two databases that agree for the tenants of an identity give it the same view exactly
when every platform among their hundred newest jobs has one owner, and equally many of
those jobs are in scope. -/
theorem views_agree_iff {cfg : EnterpriseConfig} {identity : Identity} {first second : Database}
    (agree : Agree cfg identity.tenants first second) (poll : Poll) :
    (∃ view, snapshot cfg poll first identity = .ok view ∧
        snapshot cfg poll second identity = .ok view) ↔
      Owned cfg (newestJobs first 100) ∧ Owned cfg (newestJobs second 100) ∧
        (newestJobs first 100).countP (fun entry => inScope cfg identity.tenants entry.2.platform) =
          (newestJobs second 100).countP fun entry =>
            inScope cfg identity.tenants entry.2.platform := by
  obtain ⟨result, summarized⟩ := summary_ok cfg second identity.tenants
  have summarizedFirst := agree.summary.trans summarized
  constructor
  · rintro ⟨view, here, there⟩
    cases left : jobs cfg poll first identity.tenants 100 with
    | error error => simp [snapshot, left, bind, Except.bind] at here
    | ok reported =>
      cases right : jobs cfg poll second identity.tenants 100 with
      | error error => simp [snapshot, right, bind, Except.bind] at there
      | ok reportedThere =>
        have ownedHere := owned_of_reports left
        have ownedThere := owned_of_reports right
        have same : reported = reportedThere := by
          simp only [snapshot, left, summarizedFirst, bind, Except.bind, pure, Except.pure] at here
          simp only [snapshot, right, summarized, bind, Except.bind, pure, Except.pure] at there
          exact (congrArg OperationsSnapshot.jobs (Except.ok.inj here)).trans
            (congrArg OperationsSnapshot.jobs (Except.ok.inj there)).symm
        refine ⟨ownedHere, ownedThere, ?_⟩
        rw [jobs, reports_owned ownedHere] at left
        rw [jobs, reports_owned ownedThere] at right
        have lengths := congrArg List.length
          ((Except.ok.inj left).trans (same.trans (Except.ok.inj right).symm))
        simpa only [List.length_map, List.countP_eq_length_filter] using lengths
  · rintro ⟨ownedHere, ownedThere, equal⟩
    have reported : jobs cfg poll first identity.tenants 100 =
        jobs cfg poll second identity.tenants 100 := by
      rw [jobs, jobs, reports_owned ownedHere, reports_owned ownedThere, ← agree.newest equal]
      congr 1
      apply List.map_congr_left
      intro entry member
      exact agree.ownReport poll (List.mem_filter.mp member).2
    have shown : ∃ jobsShown, jobs cfg poll second identity.tenants 100 = .ok jobsShown :=
      ⟨_, reports_owned ownedThere⟩
    obtain ⟨jobsShown, shown⟩ := shown
    refine ⟨⟨jobsShown, result⟩, ?_, ?_⟩
    · simp [snapshot, reported, shown, summarizedFirst, bind, Except.bind, pure, Except.pure]
    · simp [snapshot, shown, summarized, bind, Except.bind, pure, Except.pure]

section Sample

/-- Two tenants with one platform each. -/
def neighbours : EnterpriseConfig where
  core := {
    repository := { url := "rest:https://vault/repo", local_path := "/srv/repo"
                    staging_path := "/srv/staging" }
    platforms := [{ name := "vc-1", type := .vmware, endpoint := "vc.example" },
      { name := "pve-1", type := .proxmox, endpoint := "pve.example" }]
    dr := { workloads_distinct := no_workloads_distinct }
    replicas_distinct := no_replicas_distinct }
  tenants := [⟨"acme", "Acme", ["vc-*"]⟩, ⟨"globex", "Globex", ["pve-*"]⟩]
  tenants_distinct := by decide
  owned := List.forall_mem_cons.mpr ⟨⟨"acme", by decide⟩,
    List.forall_mem_cons.mpr ⟨⟨"globex", by decide⟩, fun _ member => absurd member List.not_mem_nil⟩⟩

/-- A viewer of the first tenant. -/
def acmeViewer : Identity where
  subject := "anna"
  name := "anna"
  role := "viewer"
  tenants := ["acme"]
  source := "oidc"
  mfa := true

def quietPoll : Poll where
  now := 0
  cached := fun _ => none
  staged := fun _ _ => 0
  share := fun _ _ => 0

def finishedJob (platform : String) : JobRow where
  started_at := 0
  finished_at := some 0
  platform := platform
  vm_id := "7"
  vm_name := "app"
  status := "success"

/-- One job of the first tenant, and then so many of the second. -/
def busy (count : Nat) : Database where
  jobs := (List.replicate count (finishedJob "pve-1")).foldl Numbered.insert
    (Numbered.empty.insert (finishedJob "vc-1"))

/-- Inserting rows that fail a test leaves the rows that pass it. -/
theorem filter_inserted {ρ : Type} {keep : ρ → Bool} {added : List ρ}
    (outside : ∀ row ∈ added, keep row = false) (table : Numbered ρ) :
    ((added.foldl Numbered.insert table).rows.filter fun entry => keep entry.2) =
      table.rows.filter fun entry => keep entry.2 := by
  induction added generalizing table with
  | nil => rfl
  | cons row rest inductionHypothesis =>
    have dropped : keep row = false := outside row List.mem_cons_self
    rw [List.foldl_cons, inductionHypothesis fun later member =>
      outside later (List.mem_cons_of_mem _ member)]
    simp [dropped]

/-- Jobs of the second tenant change nothing for the first tenant's rows. -/
theorem busy_agree (count : Nat) : Agree neighbours acmeViewer.tenants (busy 0) (busy count) where
  jobs := by
    have outside : ∀ row ∈ List.replicate count (finishedJob "pve-1"),
        inScope neighbours acmeViewer.tenants row.platform = false := by
      intro row member
      rw [List.eq_of_mem_replicate member]
      decide
    exact (filter_inserted outside (Numbered.empty.insert (finishedJob "vc-1"))).symm
  points := rfl
  requests := rfl

theorem views_agree_busy : ∃ view,
    snapshot neighbours quietPoll (busy 0) acmeViewer = .ok view ∧
      snapshot neighbours quietPoll (busy 2) acmeViewer = .ok view :=
  (views_agree_iff (busy_agree 2) quietPoll).mpr
    ⟨by decide, by decide, by decide⟩

/-- A hundred later jobs of another tenant take the place of the first tenant's own. -/
theorem busy_neighbour_hides_jobs : ¬ ∀ (cfg : EnterpriseConfig) (poll : Poll)
    (identity : Identity) (first second : Database), "*" ∉ identity.tenants →
      Agree cfg identity.tenants first second → ∃ view,
        snapshot cfg poll first identity = .ok view ∧
          snapshot cfg poll second identity = .ok view := by
  intro claimed
  obtain ⟨view, here, there⟩ := claimed neighbours quietPoll acmeViewer (busy 0) (busy 100)
    (by decide) (busy_agree 100)
  have differ : ((snapshot neighbours quietPoll (busy 0) acmeViewer).toOption.map
      (·.jobs.length)) ≠ (snapshot neighbours quietPoll (busy 100) acmeViewer).toOption.map
        (·.jobs.length) := by decide +kernel
  exact differ (by rw [here, there])

end Sample

section History

variable {cfg : EnterpriseConfig} {db : Database}

/-- The platforms that jobs, live points and restore requests mention. -/
def mentioned (db : Database) : List String :=
  db.jobs.rows.map (·.2.platform) ++ db.livePoints.map (·.platform) ++
    db.requests.rows.map (·.2.source_platform)

/-- Every platform that the database mentions has one owner. -/
def Remembered (cfg : EnterpriseConfig) (db : Database) : Prop :=
  ∀ platform ∈ mentioned db, cfg.Resolves platform

/-- Every view of a database is returned, and a view shows only what is in scope: the
jobs it lists are, and its summary depends on nothing else. -/
structure Survives (cfg : EnterpriseConfig) (db : Database) : Prop where
  jobs : ∀ poll scopes limit, ∃ reported, jobs cfg poll db scopes limit = .ok reported ∧
    ∀ report ∈ reported, inScope cfg scopes report.platform = true
  summary : ∀ scopes, ∃ result, summary cfg db scopes = .ok result ∧
    ∀ other, Agree cfg scopes db other → OperationsView.summary cfg other scopes = .ok result
  metrics : ∀ version now, ∃ text, renderPrometheus cfg db version now = .ok text

/-- The lines of a group are returned when its platform has one owner. -/
theorem groupLines_succeeds {lines : String → List String → List String} {key : List String} :
    (∃ result, groupLines cfg lines key = .ok result) ↔ cfg.Resolves (key.headD "") := by
  constructor
  · rintro ⟨result, ran⟩
    obtain ⟨tenant, resolved, _⟩ := bind_eq_ok.mp ran
    exact ⟨tenant, resolved⟩
  · rintro ⟨tenant, resolved⟩
    exact ⟨_, bind_eq_ok.mpr ⟨tenant, resolved, rfl⟩⟩

/-- The lines of all groups are returned when every platform among them has one owner. -/
theorem groups_succeed {lines : String → List String → List String} {keys : List (List String)} :
    (∃ results, (groups keys).mapM (groupLines cfg lines) = .ok results) ↔
      ∀ key ∈ keys, cfg.Resolves (key.headD "") := by
  rw [mapM_succeeds]
  constructor
  · intro all key member
    exact groupLines_succeeds.mp (all key (by simpa [groups] using member))
  · intro all key member
    exact groupLines_succeeds.mpr (all key (by simpa [groups] using member))

theorem platformLines_succeeds (cfg : EnterpriseConfig) (db : Database) (now : Timestamp) :
    ∃ results, cfg.core.platforms.mapM (platformLines cfg db now) = .ok results := by
  rw [mapM_succeeds]
  intro platform member
  obtain ⟨tenant, resolved⟩ := cfg.resolves_configured member
  unfold platformLines
  split
  · exact ⟨_, rfl⟩
  · exact ⟨_, bind_eq_ok.mpr ⟨tenant, resolved, rfl⟩⟩

/-- A copy is counted under the platform of a live point. -/
theorem copyKeys_live {key : List String} (member : key ∈ (copyKeys db).map Prod.fst) :
    key.headD "" ∈ db.livePoints.map (·.platform) := by
  obtain ⟨entry, counted, rfl⟩ := List.mem_map.mp member
  obtain ⟨⟨place, copy⟩, _, joined⟩ := List.mem_filterMap.mp counted
  obtain ⟨point, live, rfl⟩ := Option.map_eq_some_iff.mp joined
  obtain ⟨row, found, fresh⟩ := Option.bind_eq_some_iff.mp live
  have unexpired : row.expired = false := by
    cases expired : row.expired with
    | false => rfl
    | true => simp [expired] at fresh
  have same : point = { row with snapshot_id := place.1 } := by
    simpa [unexpired] using fresh.symm
  refine List.mem_map.mpr ⟨{ row with snapshot_id := place.1 }, ?_, by rw [same]; rfl⟩
  refine List.mem_map.mpr ⟨(place.1, row), List.mem_filter.mpr ⟨?_, by simp [unexpired]⟩, rfl⟩
  exact (Keyed.mem_rows_iff _ _ _).mpr found

/-- The metrics are returned exactly when every mentioned platform has one owner. -/
theorem metrics_succeed (version : String) (now : Timestamp) :
    (∃ text, renderPrometheus cfg db version now = .ok text) ↔ Remembered cfg db := by
  have points : (∃ results, (groups (db.livePoints.map fun point => [point.platform])).mapM
      (groupLines cfg (pointLines cfg db)) = .ok results) ↔
        ∀ platform ∈ db.livePoints.map (·.platform), cfg.Resolves platform := by
    rw [groups_succeed, List.forall_mem_map, List.forall_mem_map]
    rfl
  have jobs : (∃ results, (groups (db.jobs.rows.map fun entry => jobKey entry.2)).mapM
      (groupLines cfg (jobLines cfg db)) = .ok results) ↔
        ∀ platform ∈ db.jobs.rows.map (·.2.platform), cfg.Resolves platform := by
    rw [groups_succeed, List.forall_mem_map, List.forall_mem_map]
    rfl
  have restores : (∃ results,
      (groups (db.requests.rows.map fun entry => restoreKey entry.2)).mapM
        (groupLines cfg (restoreLines cfg db)) = .ok results) ↔
        ∀ platform ∈ db.requests.rows.map (·.2.source_platform), cfg.Resolves platform := by
    rw [groups_succeed, List.forall_mem_map, List.forall_mem_map]
    rfl
  constructor
  · rintro ⟨text, ran⟩
    obtain ⟨_, pointsRan, ran⟩ := bind_eq_ok.mp ran
    obtain ⟨_, jobsRan, ran⟩ := bind_eq_ok.mp ran
    obtain ⟨_, restoresRan, ran⟩ := bind_eq_ok.mp ran
    intro platform member
    rcases List.mem_append.mp member with early | requested
    · rcases List.mem_append.mp early with worked | pointed
      · exact jobs.mp ⟨_, jobsRan⟩ platform worked
      · exact points.mp ⟨_, pointsRan⟩ platform pointed
    · exact restores.mp ⟨_, restoresRan⟩ platform requested
  · intro remembered
    have pointed : ∀ platform ∈ db.livePoints.map (·.platform), cfg.Resolves platform :=
      fun platform member => remembered platform
        (List.mem_append_left _ (List.mem_append_right _ member))
    obtain ⟨_, pointsRan⟩ := points.mpr pointed
    obtain ⟨_, jobsRan⟩ := jobs.mpr fun platform member => remembered platform
      (List.mem_append_left _ (List.mem_append_left _ member))
    obtain ⟨_, restoresRan⟩ := restores.mpr fun platform member => remembered platform
      (List.mem_append_right _ member)
    obtain ⟨_, platformsRan⟩ := platformLines_succeeds cfg db now
    obtain ⟨_, copiesRan⟩ := (@groups_succeed cfg (copyLines cfg db) _).mpr
      fun key member => pointed _ (copyKeys_live member)
    simp only [renderPrometheus, pointsRan, jobsRan, restoresRan, platformsRan, copiesRan, bind,
      Except.bind, pure, Except.pure]
    exact ⟨_, rfl⟩

/-- A database whose platforms all have one owner is shown in every view. -/
theorem survives_remembered (remembered : Remembered cfg db) : Survives cfg db where
  jobs := by
    intro poll scopes limit
    have owned : Owned cfg (newestJobs db limit) := by
      intro entry member
      have listed : entry ∈ db.jobs.rows := List.mem_reverse.mp (List.mem_of_mem_take member)
      exact remembered _ (List.mem_append_left _ (List.mem_append_left _
        (List.mem_map.mpr ⟨entry, listed, rfl⟩)))
    exact ⟨_, reports_owned owned, reported_inScope (reports_owned owned)⟩
  summary := by
    intro scopes
    obtain ⟨result, ran⟩ := summary_ok cfg db scopes
    exact ⟨result, ran, fun other agree => agree.summary.symm.trans ran⟩
  metrics := fun version now => (metrics_succeed version now).mpr remembered

/-- The frames of a push loop are returned when every snapshot is. -/
theorem pushed_survives {history : List Database} (survives : ∀ db ∈ history, Survives cfg db)
    (poll : Poll) (identity : Identity) :
    ∃ frames, pushed cfg poll identity history = .ok frames := by
  induction history with
  | nil => exact ⟨[], rfl⟩
  | cons current later inductionHypothesis =>
    have own := survives current List.mem_cons_self
    obtain ⟨frames, others⟩ := inductionHypothesis
      fun db member => survives db (List.mem_cons_of_mem _ member)
    obtain ⟨reported, listed, _⟩ := own.jobs poll identity.tenants 100
    obtain ⟨result, summarized, _⟩ := own.summary identity.tenants
    have frame : snapshot cfg poll current identity = .ok ⟨reported, result⟩ :=
      bind_eq_ok.mpr ⟨_, listed, bind_eq_ok.mpr ⟨_, summarized, rfl⟩⟩
    exact ⟨_, bind_eq_ok.mpr ⟨_, frame, bind_eq_ok.mpr ⟨_, others, rfl⟩⟩⟩

end History

/-- While the databases of a history are polled, every view of each is returned and the push
loop goes on exactly when each of them mentions only platforms with one owner. -/
theorem views_survive_iff (cfg : EnterpriseConfig) (history : List Database) :
    ((∀ db ∈ history, Survives cfg db) ∧
        ∀ poll identity, ∃ frames, pushed cfg poll identity history = .ok frames) ↔
      ∀ db ∈ history, Remembered cfg db := by
  constructor
  · rintro ⟨survives, _⟩ db member
    exact (metrics_succeed "" 0).mp ((survives db member).metrics "" 0)
  · intro remembered
    have survives : ∀ db ∈ history, Survives cfg db :=
      fun db member => survives_remembered (remembered db member)
    exact ⟨survives, fun poll identity => pushed_survives survives poll identity⟩

/-- A platform that was removed from the configuration makes the views of its old jobs fail. -/
theorem removed_platform_fails : ¬ ∀ (cfg : EnterpriseConfig) (db : Database), Survives cfg db := by
  intro claimed
  let db : Database := { jobs := Numbered.empty.insert (finishedJob "xen-old") }
  obtain ⟨reported, listed, _⟩ := (claimed neighbours db).jobs quietPoll ["*"] 100
  have unowned : ¬ Owned neighbours (newestJobs db 100) := by decide
  exact unowned (owned_of_reports listed)

end Immutavault.TenantViews
