import Immutavault.CheckpointChains

/-!
# When a clone stands in for an increment

A clone of a whole machine is a costly answer to a failure, and a wrong one where it is not
known what has failed. It is made in place of an increment only when the configuration allows
it and a known reason is at hand: one that was found before the helper was asked for a backup,
or one that its failed backup gave together with the word that a clone is safe.

Whatever the host does, each package that an incremental export delivers is therefore a view
of the cache, or a clone with a marker that tells the truth about the reason and the cache.
-/

namespace Immutavault.FallbackPolicies

open Programs Values PosixPaths GuestFiles JsonTexts VddkProvider IncrementalExports
open CheckpointChains

section Packages

variable {Φ : Type} [Floating Φ] {host : Host} {root : Path} {lower : Str → Str}
  {adapter : Adapter Φ} {vm : VM} {world after : World}

variable (Φ) in
/-- The backup of a machine failed, with a reason and with the word that a clone is safe. -/
def Declared (host : Host) (lower : Str → Str) (adapter : Adapter Φ) (vm : VM) (root : Path)
    (reason : Str) : Prop :=
  ∃ env message before after,
    run (host.below root) (backup (adapter.provider env) lower (adapter.call vm)) before =
      (.error (.transport message reason true), after)

/-- Why a package may be delivered by an incremental export. -/
inductive Justified (host : Host) (lower : Str → Str) (adapter : Adapter Φ) (vm : VM) (root : Path)
    (cache : Files) : Package → Prop where
  | increment : Justified host lower adapter vm root cache (.view cache)
  | capability {reason error : Str} (known : reason ∈ safeCapabilityReasons)
      (lax : adapter.strict = false) (configured : adapter.fallbackConfigured = true) :
      Justified host lower adapter vm root cache
        (.clone (some (fileText (marker reason error false : Value Φ))))
  | provider {reason error : Str} (known : reason ∈ safeProviderReasons)
      (lax : adapter.strict = false) (configured : adapter.fallbackConfigured = true)
      (declared : Declared Φ host lower adapter vm root reason)
      (removed : ∃ clock files, cache = host.removing clock files) :
      Justified host lower adapter vm root cache
        (.clone (some (fileText (marker reason error true : Value Φ))))

theorem allowed_iff {strict configured fallback_safe capability_stage : Bool} {reason : Str} :
    incrementalFallbackAllowed strict configured reason fallback_safe capability_stage = true ↔
      strict = false ∧ configured = true ∧ fallback_safe = true ∧
        reason ∈ if capability_stage then safeCapabilityReasons else safeProviderReasons := by
  unfold incrementalFallbackAllowed
  cases strict <;> cases configured <;> cases fallback_safe <;> simp

theorem fullFallback_ok {reason error : Str} {cache_invalidated : Bool}
    (ran : run (host.handler root) (fullFallback Φ reason error cache_invalidated) world =
      (.ok (), after)) :
    after.target = .clone (some (fileText (marker reason error cache_invalidated : Value Φ))) ∧
      after.caches = world.caches := by
  obtain ⟨_, middle, cloned, marked⟩ := (run_bind_eq_ok _).mp ran
  rw [run_aside_ok (by simp) marked, run_aside_ok (by simp) cloned]
  exact ⟨rfl, rfl⟩

/-- Without a helper there is a clone for a known reason, or nothing. -/
theorem exportWithout_ok {caps : Capabilities Φ}
    (ran : run (host.handler root) (exportWithout adapter caps false) world = (.ok (), after)) :
    Justified host lower adapter vm root (after.caches root) after.target := by
  unfold exportWithout at ran
  dsimp only at ran
  rw [if_neg Bool.false_ne_true] at ran
  split at ran
  · rename_i allowed
    obtain ⟨lax, configured, _, known⟩ := allowed_iff.mp allowed
    rw [(fullFallback_ok ran).1]
    exact .capability known lax configured
  · cases ran

/-- A failed backup is made up for by a clone that it has declared safe, or not at all. -/
theorem recover_ok {failure : Failure}
    (declared : ∀ message reason, failure = .transport message reason true →
      Declared Φ host lower adapter vm root reason)
    (ran : run (host.handler root) (recover adapter failure) world = (.ok (), after)) :
    Justified host lower adapter vm root (after.caches root) after.target := by
  cases failure with
  | transport message reason fallback_safe =>
    obtain ⟨_, middle, removed, behind⟩ := (run_bind_eq_ok _).mp ran
    split at behind
    · rename_i allowed
      obtain ⟨lax, configured, rfl, known⟩ := allowed_iff.mp allowed
      have named : orText reason ambiguousState = reason := by
        unfold orText
        split
        · rename_i empty
          rw [orText, if_pos empty] at known
          exact absurd known (by decide)
        · rfl
      rw [named, if_neg Bool.false_ne_true] at known
      obtain ⟨target, same⟩ := fullFallback_ok behind
      rw [target]
      apply Justified.provider known lax configured (declared message reason rfl)
      rw [run_order, Host.above] at removed
      obtain rfl := congrArg Prod.snd removed
      refine ⟨world.clock, world.caches root, ?_⟩
      rw [same]
      exact Function.update_self _ _ _
    · cases behind
  | exn error =>
    obtain ⟨_, middle, _, behind⟩ := (run_bind_eq_ok _).mp ran
    cases behind

/-- An increment that returns has staged a view of the cache. -/
theorem exportIncrement_ok {env : List (Str × Str)}
    (ran : run (host.handler root) (exportIncrement adapter lower vm env) world =
      (.ok (), after)) : after.target = .view (after.caches root) := by
  obtain ⟨_, middle, _, viewed⟩ := (run_bind_eq_ok _).mp ran
  rw [run_aside_ok (by simp) viewed]
  rfl

/-- An increment that fails with leave for a clone has it from its backup. -/
theorem exportIncrement_declares {env : List (Str × Str)} {message reason : Str}
    (ran : run (host.handler root) (exportIncrement adapter lower vm env) world =
      (.error (.transport message reason true), after)) :
    Declared Φ host lower adapter vm root reason := by
  rcases run_bind_cases _ ran with ⟨_, same, raised⟩ | ⟨_, middle, _, viewed⟩
  · obtain rfl := Except.error.inj same
    rw [run_provided] at raised
    exact ⟨env, message, world, after, raised⟩
  · rw [run_aside (by simp)] at viewed
    cases answer : host.order middle.clock with
    | ok done =>
      rw [answer] at viewed
      cases viewed
    | error error =>
      rw [answer] at viewed
      cases viewed

/-- What an incremental export delivers is justified. -/
theorem exportVM_justified {destination path : Path}
    (incremental : adapter.incrementalMode lower = true)
    (ran : run (host.handler root) (exportVM adapter lower vm destination false) world =
      (.ok path, after)) :
    Justified host lower adapter vm root (after.caches root) after.target := by
  unfold exportVM at ran
  dsimp only at ran
  rw [if_neg (not_not.mpr incremental)] at ran
  obtain ⟨env, one, _, behind⟩ := (run_bind_eq_ok _).mp ran
  obtain ⟨caps, two, _, decided⟩ := (run_bind_eq_ok _).mp behind
  split at decided
  · obtain ⟨_, three, stood, returned⟩ := (run_bind_eq_ok _).mp decided
    cases returned
    exact exportWithout_ok stood
  · rw [if_neg Bool.false_ne_true] at decided
    obtain ⟨_, three, _, begun⟩ := (run_bind_eq_ok _).mp decided
    obtain ⟨outcome, four, attempted, last⟩ := (run_bind_eq_ok _).mp begun
    rw [run_attempt] at attempted
    have ended : run (host.handler root) (exportIncrement adapter lower vm env) three =
        (outcome, four) :=
      Prod.ext (Except.ok.inj (Prod.mk.inj attempted).1) (Prod.mk.inj attempted).2
    cases outcome with
    | ok done =>
      cases last
      rw [exportIncrement_ok ended]
      exact .increment
    | error failure =>
      obtain ⟨_, five, recovered, returned⟩ := (run_bind_eq_ok _).mp last
      cases returned
      apply recover_ok _ recovered
      rintro message reason rfl
      exact exportIncrement_declares ended

/-- A host without a helper. -/
def bareHost : Host :=
  { copyingHost with provider := fun _ => { VddkProvider.host "" with which := fun _ => none } }

def bareNight : Except Failure Path × World := exported bareHost id (nightly "web01") {}

end Packages

end Immutavault.FallbackPolicies
