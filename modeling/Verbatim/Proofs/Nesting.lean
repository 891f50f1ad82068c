import Verbatim.Proofs.Build.Failures
import Verbatim.Proofs.Tree.Plant

/-!
# The limit of the nesting

A raw tree that is nested deeper than the limit is refused, whether it is to be built or only to be
printed, and no other raw tree is refused for that reason. The check comes first and looks at the raw
tree alone, so it does not matter what else is wrong with it. A build that has passed the check may
still fail, but a failure of it never looks like one of the check.

## Main definitions

* `BuildFailure.IsTooDeep`: the raw tree is refused for its nesting

## Main results

* `Tree.nesting_limit`: **the limit is exact**
-/

namespace Verbatim

/-- The raw tree is refused for its nesting. -/
def BuildFailure.IsTooDeep (failure : BuildFailure) : Prop :=
  ∃ limit, failure.error = .tooDeep limit

theorem BuildError.IsFault.not_tooDeep {error : BuildError} (fault : error.IsFault) (limit : Nat) :
    error ≠ .tooDeep limit := by
  rintro rfl
  exact fault

/-- A failed build is never refused for the nesting. -/
theorem Node.not_tooDeep_of_ofRaw {strict asChild : Bool} {raw : Json} {failure : BuildFailure}
    (failed : ofRaw strict asChild raw = .error failure) : ¬failure.IsTooDeep := by
  rintro ⟨limit, deep⟩
  obtain ⟨fault, -⟩ | ⟨-, -, -, -, refused, -⟩ := (fails_of_ofRaw raw failed).plain_or_connector
  · exact fault.not_tooDeep limit deep
  · rw [refused] at deep
    cases deep

namespace Tree

variable {label : String} {settings : Settings} {raw : Json} {failure : BuildFailure}

theorem not_tooDeep_of_build {tree : Tree} (failed : (tree.build raw).2 = .error failure) :
    ¬failure.IsTooDeep :=
  Node.not_tooDeep_of_ofRaw (build_eq_error failed).1

theorem ofRaw_of_deep (deep : settings.maxDepth < raw.nesting) :
    ofRaw label settings raw = .error { error := .tooDeep settings.maxDepth } := by
  rw [ofRaw, checkDepth_eq, if_pos deep]
  rfl

theorem renderRaw_of_deep (deep : settings.maxDepth < raw.nesting) :
    renderRaw label settings raw = .error (.build { error := .tooDeep settings.maxDepth }) := by
  rw [renderRaw, checkDepth_eq, if_pos deep]
  rfl

/-- Below the limit, only the build can fail. -/
theorem build_of_ofRaw_error (shallow : ¬settings.maxDepth < raw.nesting)
    (failed : ofRaw label settings raw = .error failure) :
    ((empty label settings).build raw).2 = .error failure := by
  rw [ofRaw, checkDepth_eq, if_neg shallow] at failed
  cases built : ((empty label settings).build raw).2 with
  | ok id => simp [bind, Except.bind, pure, Except.pure, built] at failed
  | error wrong => simpa [bind, Except.bind, built] using failed

theorem build_of_renderRaw_error (shallow : ¬settings.maxDepth < raw.nesting)
    (failed : renderRaw label settings raw = .error (.build failure)) :
    ((empty label settings).build raw).2 = .error failure := by
  rw [renderRaw, checkDepth_eq, if_neg shallow] at failed
  cases built : ((empty label settings).build raw).2 with
  | ok id =>
    simp only [bind, Except.bind, Except.mapError, built] at failed
    split at failed <;> cases failed
  | error wrong => simpa [bind, Except.bind, Except.mapError, built] using failed

/-- **The limit is exact.** A raw tree is refused for its nesting if it is nested deeper than the
limit, and only then, both when it is built and when it is printed. The check that tells so ends for
every raw tree, after no more turns than there are values in it. -/
theorem nesting_limit (label : String) (settings : Settings) (raw : Json) :
    ((∃ failure, ofRaw label settings raw = .error failure ∧ failure.IsTooDeep) ↔
      settings.maxDepth < raw.nesting) ∧
    ((∃ failure, renderRaw label settings raw = .error (.build failure) ∧ failure.IsTooDeep) ↔
      settings.maxDepth < raw.nesting) ∧
    ∃ turns ≤ raw.weight,
      Json.DepthRun settings.maxDepth [(raw, 1)] turns (decide (settings.maxDepth < raw.nesting)) := by
  refine ⟨⟨?_, ?_⟩, ⟨?_, ?_⟩, Json.exists_depthRun_raw settings.maxDepth raw⟩
  · rintro ⟨failure, failed, deep⟩
    by_contra shallow
    exact not_tooDeep_of_build (build_of_ofRaw_error shallow failed) deep
  · exact fun deep => ⟨_, ofRaw_of_deep deep, settings.maxDepth, rfl⟩
  · rintro ⟨failure, failed, deep⟩
    by_contra shallow
    exact not_tooDeep_of_build (build_of_renderRaw_error shallow failed) deep
  · exact fun deep => ⟨_, renderRaw_of_deep deep, settings.maxDepth, rfl⟩

end Tree

end Verbatim
