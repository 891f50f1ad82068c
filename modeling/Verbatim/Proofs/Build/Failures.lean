import Verbatim.Proofs.Build.RawNode

/-!
# Where a failed build ends

A build stops at the first fault, and the failure comes up from there. On the way up numbers and kinds
are added to it, but the error and the node that it leaves behind stay as they are. So all that there
is to say of them is said where the build stopped.

Most faults are faults of one raw node, and leave nothing behind. The one exception is a connector as
a condition: it counts as an expression and is built, the edit that should attach it refuses it, and
nobody drops it.

## Main definitions

* `BuildError.report`: the class of exceptions an error belongs to
* `BuildError.IsFault`: the faults of one raw node
* `BuildFailure.Ends`: what is said of the error and of the node left behind
* `Json.Asks`: a raw tree as the condition or a child of another
* `Json.PairsConnector`: a raw node that asks for a connector as its condition
* `Json.Fails`: the ways in which a build can fail

## Main results

* `Node.complete_ends`: where the build of one raw node ends
* `Node.fails_of_ofRaw`: **how a failed build ends**
-/

namespace Verbatim

open Relation

/-! ### Classes of errors -/

/-- A class of exceptions. -/
inductive BuildError.Report where
  /-- The raw tree is not what it should be. -/
  | malformedTree
  /-- The raw tree names a kind that is not known. -/
  | unknownType
  /-- The edit that was to attach a node is refused. -/
  | invalidMutation
  deriving DecidableEq, Repr

/-- The class of exceptions an error belongs to. -/
def BuildError.report : BuildError → Report
  | .unknownTag _ => .unknownType
  | .refused _ => .invalidMutation
  | _ => .malformedTree

/-- The error is a fault of one raw node. The others are an edit that is refused, and the nesting of a
raw tree as a whole. -/
def BuildError.IsFault : BuildError → Prop
  | .refused _ | .tooDeep _ => False
  | _ => True

theorem BuildError.IsFault.report_ne {error : BuildError} (fault : error.IsFault) :
    error.report ≠ .invalidMutation := by
  cases error with
  | refused refusal => exact fault.elim
  | _ => exact Report.noConfusion

/-- The error and the node left behind have the property. -/
def BuildFailure.Ends (ends : BuildError → Option Node → Prop) (failure : BuildFailure) : Prop :=
  ends failure.error failure.stranded

namespace Node

variable {strict asChild : Bool} {kind : Kind} {tag : String} {raw : Json} {error : BuildError}
  {operator : Option String} {failure : BuildFailure}

/-! ### Faults of one raw node -/

theorem isFault_of_rawKind (failed : rawKind raw = .error error) : error.IsFault := by
  unfold rawKind at failed
  split at failed
  · split at failed
    · split at failed
      · contradiction
      · exact Except.error.inj failed ▸ trivial
    · exact Except.error.inj failed ▸ trivial
  · exact Except.error.inj failed ▸ trivial

theorem isFault_of_toldKind
    (failed : (if asChild then rawChildKind raw else rawKind raw) = .error error) :
    error.IsFault := by
  unfold rawChildKind at failed
  split at failed
  · split at failed
    · contradiction
    · exact isFault_of_rawKind failed
  · exact isFault_of_rawKind failed

theorem isFault_of_readAttributes {names : List String} {attributes : List (String × Json)}
    (failed : readAttributes kind tag raw names = (attributes, some error)) : error.IsFault := by
  induction names generalizing attributes with
  | nil => cases failed
  | cons name rest ih =>
    rw [readAttributes] at failed
    split at failed
    · cases failed
      trivial
    · split at failed
      · cases failed
        trivial
      · exact ih (Prod.ext rfl (Prod.mk.inj failed).2)

theorem isFault_of_readGaps {gaps : Gaps} (failed : readGaps kind tag raw gaps = .error error) :
    error.IsFault := by
  unfold readGaps at failed
  split at failed
  · contradiction
  · obtain ⟨problem, -, rfl⟩ := mapError_eq_error.1 failed
    trivial

theorem isFault_of_countFault {count : Nat} (failed : countFault? kind tag count = some error) :
    error.IsFault := by
  have told : error = .childCount tag count := by
    cases limit : kind.maxChildren <;> simp_all [countFault?]
  rw [told]
  trivial

theorem isFault_of_childrenFault (failed : childrenFault? kind tag raw = some error) :
    error.IsFault := by
  unfold childrenFault? at failed
  split at failed
  · exact isFault_of_countFault failed
  · exact isFault_of_countFault failed
  · exact Option.some.inj failed ▸ trivial

theorem isFault_of_childFault {before : List (Kind × Option String)} {child : Kind × Option String}
    (failed : childFault? strict kind tag operator before child = some error) : error.IsFault := by
  unfold childFault? at failed
  split at failed
  · exact Option.some.inj failed ▸ trivial
  · obtain ⟨problem, -, rfl⟩ := Option.map_eq_some_iff.1 failed
    trivial

/-! ### Ends of one raw node -/

section

-- A fault of a raw node is at an end of which the property holds.
variable {ends : BuildError → Option Node → Prop}
  (fault : ∀ error : BuildError, error.IsFault → ends error none)
include fault

theorem takeChildren_ends {before : List (Kind × Option String)}
    {children : List (Except BuildFailure Node)}
    (below : ∀ inner, .error inner ∈ children → inner.Ends ends)
    (failed : takeChildren strict kind tag operator before children = .error failure) :
    failure.Ends ends := by
  induction children generalizing before failure with
  | nil => exact absurd failed (by simp [takeChildren])
  | cons child rest ih =>
    cases child with
    | error inner =>
      rw [takeChildren] at failed
      exact Except.error.inj failed ▸ below inner List.mem_cons_self
    | ok child =>
      rw [takeChildren] at failed
      split at failed
      · next error wrong =>
        exact Except.error.inj failed ▸ fault error (isFault_of_childFault wrong)
      · split at failed
        · contradiction
        · next inner deeper =>
          have deeper := ih (fun inner member => below inner (List.mem_cons_of_mem _ member)) deeper
          exact Except.error.inj failed ▸ deeper

/-- A condition that is refused stays behind. -/
theorem takeCondition_ends {condition : Option (Except BuildFailure Node)}
    (below : ∀ inner, condition = some (.error inner) → inner.Ends ends)
    (refused : ∀ node, kind.hasCondition → condition = some (.ok node) →
      node.kind = .connectorCreation →
      ends (.refused ⟨.setCondition, .notExpression .connectorCreation⟩) (some node))
    (failed : takeCondition kind raw condition = .error failure) : failure.Ends ends := by
  unfold takeCondition at failed
  split at failed
  · next given slot _ =>
    cases given with
    | error inner => exact Except.error.inj failed ▸ below inner rfl
    | ok node =>
      simp only [bind, Except.bind] at failed
      split at failed
      · next problem wrong =>
        obtain rfl : problem = failure := Except.error.inj failed
        unfold conditionFault? at wrong
        split at wrong
        · exact Option.some.inj wrong ▸ fault _ trivial
        · split at wrong
          · next connector =>
            have left := refused node slot rfl connector
            rw [← connector] at left
            exact Option.some.inj wrong ▸ left
          · contradiction
      · contradiction
  · contradiction

theorem fill_ends {condition : Option (Except BuildFailure Node)}
    {children : List (Except BuildFailure Node)}
    (belowCondition : ∀ inner, takeCondition kind raw condition = .error inner → inner.Ends ends)
    (below : ∀ inner, .error inner ∈ children → inner.Ends ends)
    (failed : fill strict kind raw condition children = .error failure) : failure.Ends ends := by
  rcases own : readAttributes kind (rawTag kind raw) raw kind.attributes with ⟨attributes, _ | problem⟩
  · simp only [fill, own, bind, Except.bind] at failed
    cases read : readGaps kind (rawTag kind raw) raw [] with
    | error error =>
      rw [read] at failed
      exact Except.error.inj failed ▸ fault error (isFault_of_readGaps read)
    | ok gaps =>
      cases taken : takeCondition kind raw condition with
      | error inner =>
        rw [read, taken] at failed
        exact Except.error.inj failed ▸ belowCondition inner taken
      | ok given =>
        rw [read, taken] at failed
        simp only [Except.mapError] at failed
        cases wrong : childrenFault? kind (rawTag kind raw) raw with
        | some error =>
          rw [wrong] at failed
          exact Except.error.inj failed ▸ fault error (isFault_of_childrenFault wrong)
        | none =>
          rw [wrong] at failed
          simp only at failed
          cases taken : takeChildren strict kind (rawTag kind raw)
              (mk kind attributes none [] []).operator? [] children with
          | ok nodes =>
            rw [taken] at failed
            simp [pure, Except.pure] at failed
          | error inner =>
            rw [taken] at failed
            have := takeChildren_ends fault below taken
            exact Except.error.inj failed ▸ this
  · simp only [fill, own, bind, Except.bind, throw, throwThe, MonadExceptOf.throw] at failed
    exact Except.error.inj failed ▸ fault problem (isFault_of_readAttributes own)

/-- Where the build of one raw node ends: at a fault of its own, or where its condition or one of its
children ended. -/
theorem complete_ends {condition : Option (Except BuildFailure Node)}
    {children : List (Except BuildFailure Node)}
    (belowCondition : ∀ kind, (if asChild then rawChildKind raw else rawKind raw) = .ok kind →
      ∀ inner, takeCondition kind raw condition = .error inner → inner.Ends ends)
    (below : ∀ inner, .error inner ∈ children → inner.Ends ends)
    (failed : complete strict asChild raw condition children = .error failure) :
    failure.Ends ends := by
  rw [complete] at failed
  cases told : if asChild then rawChildKind raw else rawKind raw with
  | error error =>
    rw [told] at failed
    exact Except.error.inj failed ▸ fault error (isFault_of_toldKind told)
  | ok kind =>
    rw [told] at failed
    cases filled : fill strict kind raw condition children with
    | ok node => simp [Except.mapError, bind, Except.bind, filled] at failed
    | error inner =>
      have left := fill_ends fault (belowCondition kind told) below filled
      simp only [Except.mapError, bind, Except.bind, filled, Except.error.injEq] at failed
      rw [← failed]
      cases asChild <;> exact left

end

end Node

/-! ### Whole raw trees -/

namespace Json

variable {raw other given : Json} {strict : Bool} {connector : Node}

/-- The first raw tree asks for the second one as its condition, or as one of its children. -/
inductive Asks : Json → Json → Prop where
  | condition {raw given : Json} (found : raw.get? "condition" = some given) : raw.Asks given
  | child {raw item : Json} {items : List Json}
      (listed : raw.get? "children" = some (.array items)) (member : item ∈ items) : raw.Asks item

/-- The raw node asks for a condition, which is built and is the connector. -/
structure PairsConnector (strict : Bool) (raw : Json) (connector : Node) : Prop where
  slot : ∃ kind, Node.rawKind raw = .ok kind ∧ kind.hasCondition
  built : ∃ given, raw.get? "condition" = some given ∧ Node.ofRaw strict false given = .ok connector
  kind : connector.kind = .connectorCreation

/-- How the build of a raw tree can fail: at a fault of the raw node, at a failure of what it asks
for, or because what it asks for as its condition is a connector. -/
inductive Fails (strict : Bool) : Json → BuildError → Option Node → Prop where
  | fault (raw : Json) {error : BuildError} (plain : error.IsFault) :
      Fails strict raw error none
  | asked {raw other : Json} {error : BuildError} {stranded : Option Node} (asks : raw.Asks other)
      (fails : Fails strict other error stranded) : Fails strict raw error stranded
  | connector {raw : Json} {connector : Node} (pairs : raw.PairsConnector strict connector) :
      Fails strict raw (.refused ⟨.setCondition, .notExpression .connectorCreation⟩) (some connector)

/-- A failure is a fault of a raw node, which leaves nothing behind, or comes from a connector that
was to be a condition somewhere, which it leaves behind. -/
theorem Fails.plain_or_connector {error : BuildError} {stranded : Option Node}
    (fails : Fails strict raw error stranded) :
    error.IsFault ∧ stranded = none ∨
      ∃ statement connector, ReflTransGen Asks raw statement ∧
        statement.PairsConnector strict connector ∧
        error = .refused ⟨.setCondition, .notExpression .connectorCreation⟩ ∧
        stranded = some connector := by
  induction fails with
  | fault raw plain => exact .inl ⟨plain, rfl⟩
  | asked asks _ ih =>
    obtain plain | ⟨statement, connector, above, rest⟩ := ih
    · exact .inl plain
    · exact .inr ⟨statement, connector, above.head asks, rest⟩
  | connector pairs => exact .inr ⟨_, _, .refl, pairs, rfl, rfl⟩

end Json

namespace Node

variable {strict : Bool}

/-- A kind with a condition is told from the tag alone. -/
theorem rawKind_of_hasCondition {asChild : Bool} {raw : Json} {kind : Kind}
    (told : (if asChild then rawChildKind raw else rawKind raw) = .ok kind)
    (slot : kind.hasCondition) : rawKind raw = .ok kind := by
  unfold rawChildKind at told
  split at told
  · split at told
    · obtain rfl := Except.ok.inj told
      contradiction
    · exact told
  · exact told

mutual

/-- **How a failed build ends.** -/
theorem fails_of_ofRaw : ∀ (raw : Json) {asChild : Bool} {failure : BuildFailure},
    ofRaw strict asChild raw = .error failure → raw.Fails strict failure.error failure.stranded
  | .object fields, _, _, failed => by
    rw [ofRaw] at failed
    refine complete_ends (fun _ => .fault _) (fun kind told inner => ?_) (fun inner member => ?_)
      failed
    · refine takeCondition_ends (fun _ => .fault _) (fun inner found => ?_)
        fun node slot found connector => ?_
      · obtain ⟨given, there, fails⟩ := fails_of_rawCondition fields inner found
        exact .asked (.condition there) fails
      · rw [rawCondition_eq] at found
        obtain ⟨given, there, built⟩ := Option.map_eq_some_iff.1 found
        exact .connector ⟨⟨kind, rawKind_of_hasCondition told slot, slot⟩, ⟨given, there, built⟩,
          connector⟩
    · obtain ⟨items, listed, item, inside, fails⟩ := fails_of_rawChildren fields inner member
      exact .asked (.child listed inside) fails
  | .null, _, _, failed | .bool _, _, _, failed | .int _, _, _, failed | .float _, _, _, failed
  | .text _, _, _, failed | .array _, _, _, failed => by
    simp only [ofRaw] at failed
    exact complete_ends (fun _ => .fault _)
      (fun _ _ _ => takeCondition_ends (fun _ => .fault _) (by simp) (by simp))
      (fun _ member => absurd member List.not_mem_nil) failed

theorem fails_of_rawCondition : ∀ (fields : List (String × Json)) (failure : BuildFailure),
    rawCondition strict fields = some (.error failure) →
      ∃ given, fields.lookup "condition" = some given ∧
        given.Fails strict failure.error failure.stranded
  | [], _, failed => nomatch failed
  | (name, value) :: rest, failure, failed => by
    rw [rawCondition] at failed
    split at failed
    · next here =>
      subst here
      exact ⟨value, List.lookup_cons_self, fails_of_ofRaw value (Option.some.inj failed)⟩
    · next away =>
      obtain ⟨given, there, fails⟩ := fails_of_rawCondition rest failure failed
      rw [List.lookup_cons, beq_false_of_ne (Ne.symm away)]
      exact ⟨given, there, fails⟩

theorem fails_of_rawChildren : ∀ (fields : List (String × Json)) (failure : BuildFailure),
    .error failure ∈ rawChildren strict fields →
      ∃ items, fields.lookup "children" = some (.array items) ∧
        ∃ item ∈ items, item.Fails strict failure.error failure.stranded
  | [], _, member => absurd member List.not_mem_nil
  | (name, value) :: rest, failure, member => by
    unfold rawChildren at member
    split at member
    · next here =>
      subst here
      cases value with
      | array items =>
        exact ⟨items, List.lookup_cons_self, fails_of_rawItems items failure member⟩
      | _ => exact absurd member List.not_mem_nil
    · next away =>
      obtain ⟨items, there, fails⟩ := fails_of_rawChildren rest failure member
      rw [List.lookup_cons, beq_false_of_ne (Ne.symm away)]
      exact ⟨items, there, fails⟩

theorem fails_of_rawItems : ∀ (items : List Json) (failure : BuildFailure),
    .error failure ∈ rawItems strict items →
      ∃ item ∈ items, item.Fails strict failure.error failure.stranded
  | [], _, member => absurd member List.not_mem_nil
  | item :: rest, failure, member => by
    rw [rawItems] at member
    rcases List.mem_cons.1 member with here | later
    · exact ⟨item, List.mem_cons_self, fails_of_ofRaw item here.symm⟩
    · obtain ⟨other, inside, fails⟩ := fails_of_rawItems rest failure later
      exact ⟨other, List.mem_cons_of_mem item inside, fails⟩

end

end Node

end Verbatim
