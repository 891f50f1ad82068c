import Verbatim.Proofs.Build.LaidOut
import Verbatim.Proofs.RoundTrip

/-!
# Printed trees come back

A unit that was built without gaps of its own is printed with default ones. Where it has what the
grammar asks for, its text can be read, and what was read can be built again, in any tree: it is the
unit that was printed, except for the gaps.

## Main results

* `Tree.parse_of_source`: printing, reading and building give the unit back

## Implementation notes

Numbers of gaps are written and read as numerals, and numerals of more than `Text.digitLimit` digits
are refused. A list with more than `10 ^ Text.digitLimit` expressions could be printed and read and
not be built again, so lists are asked to be shorter.
-/

namespace Verbatim

namespace Tree

/-- **A unit that is printed can be read and built again.** -/
theorem parse_of_source {tree later : Tree} {raw : Json} {id : NodeId}
    (strict : tree.settings.strictStructure) (bare : raw.withoutGaps = raw)
    (made : (tree.build raw).2 = .ok id) (unit : id.kind = .compilationUnit)
    (regular : ((tree.build raw).1.view id).All Node.Regular)
    (countable : ((tree.build raw).1.view id).All Node.Countable) :
    ∃ text parsed again, (tree.build raw).1.source id = .ok text ∧ parseUnit text = .ok parsed ∧
      (later.build parsed.toRaw).2 = .ok again ∧
      ((later.build parsed.toRaw).1.view again).toJson.withoutGaps =
        ((tree.build raw).1.view id).toJson.withoutGaps := by
  obtain ⟨node, built, same, rfl⟩ := build_eq_ok made
  rw [same, view_plant] at regular countable
  rw [strict] at built
  have accepted := Node.accepted_of_ofRaw built
  have noGaps := Node.gaps_of_ofRaw built bare
  have isUnit : node.kind = .compilationUnit := unit
  have takes : Start.unit.Takes node.laidOut := by
    show node.laidOut.kind = .compilationUnit
    rw [Node.kind_laidOut, isUnit]
    rfl
  obtain ⟨text, printed, read⟩ := Node.parse_of_accepted accepted regular noGaps takes
  have loadable : node.laidOut.All Node.Loadable :=
    Node.all_laidOut (fun _ here => here.1.loadable_laidOut here.2) (accepted.and countable)
  have again : Node.ofRaw later.settings.strictStructure false node.laidOut.toRaw =
      .ok (node.laidOut.settle false) :=
    (Node.ofRaw_of_grammatical (Node.grammatical_laidOut accepted regular)).2 ⟨rfl, loadable⟩
  refine ⟨text, node.laidOut, (later.plant (node.laidOut.settle false)).2, ?_, read, ?_, ?_⟩
  · rw [source, same, view_plant, printed]
  · rw [build, again]
  · rw [build, again, same, view_plant, view_plant, Node.withoutGaps_toJson_settle]

/-- A unit that defines a connector is printed and read again. -/
theorem parse_of_source_connector : ∃ raw id, raw.withoutGaps = raw ∧
    ((empty "t" {}).build raw).2 = .ok id ∧ ∃ text parsed again,
      ((empty "t" {}).build raw).1.source id = .ok text ∧ parseUnit text = .ok parsed ∧
        ((empty "u" {}).build parsed.toRaw).2 = .ok again ∧
        (((empty "u" {}).build parsed.toRaw).1.view again).toJson.withoutGaps =
          (((empty "t" {}).build raw).1.view id).toJson.withoutGaps := by
  let declaration : Node := .mk .declaration
    [("type_name", .text "A"), ("variable_name", .text "b")] none [] []
  let creation : Node := .mk .connectorCreation [("connector_name", .text "C")] none [] []
  let definition : Node := .mk .connectorDefinition [] none [declaration, creation] []
  let node : Node := .mk .compilationUnit [] none [definition] []
  have made : ((empty "t" {}).build node.toJson).2 = .ok ⟨.compilationUnit, 1⟩ := by cbv
  have same : ((empty "t" {}).build node.toJson).1.view ⟨.compilationUnit, 1⟩ = node := by cbv
  have leaf {kind : Kind} {attributes : List (String × Json)}
      (names : kind = .declaration ∨ kind = .connectorCreation) :
      (Node.mk kind attributes none [] []).Regular := by
    rcases names with rfl | rfl <;>
      exact ⟨Kind.noConfusion, by simp [Node.kind], by simp [Node.children], Bool.noConfusion,
        Kind.noConfusion⟩
  have regularDefinition : definition.Regular := by
    refine ⟨Kind.noConfusion, fun _ => ⟨declaration, creation, rfl, rfl, rfl⟩, ?_, Bool.noConfusion,
      Kind.noConfusion⟩
    intro child place found connector
    rcases place with _ | _ | place
    · obtain rfl := Option.some.inj found
      exact absurd connector Kind.noConfusion
    · exact ⟨.inr rfl, rfl⟩
    · exact absurd found.symm (Option.some_ne_none child)
  have regularUnit : node.Regular := by
    refine ⟨Kind.noConfusion, by simp [node, Node.kind], ?_, Bool.noConfusion, Kind.noConfusion⟩
    intro child place found connector
    rcases place with _ | place
    · obtain rfl := Option.some.inj found
      exact absurd connector Kind.noConfusion
    · exact absurd found.symm (Option.some_ne_none child)
  have few : 4 ≤ 10 ^ Text.digitLimit :=
    Nat.le_trans (by decide) (Nat.le_self_pow (show Text.digitLimit ≠ 0 by decide) 10)
  have noCommas {below : Node} (none : below.kind.layout.separatorBase? = none) :
      below.Countable := by
    intro base member
    rw [none] at member
    exact absurd member (Option.not_mem_none base)
  have countableCreation : creation.Countable := by
    intro base member
    obtain rfl : 4 = base := Option.some.inj member
    exact few
  have whole {property : Node → Prop} (first : property declaration) (second : property creation)
      (third : property definition) (last : property node) : node.All property := by
    have none (below : Node) (member : below ∈ (none : Option Node)) : below.All property :=
      absurd member (Option.not_mem_none below)
    have noChild (below : Node) (member : below ∈ ([] : List Node)) : below.All property :=
      absurd member List.not_mem_nil
    refine .mk last none (List.forall_mem_singleton.2 (.mk third none ?_))
    exact List.forall_mem_cons.2 ⟨.mk first none noChild,
      List.forall_mem_singleton.2 (.mk second none noChild)⟩
  have bare : node.toJson.withoutGaps = node.toJson := by cbv
  refine ⟨node.toJson, ⟨.compilationUnit, 1⟩, bare, made, parse_of_source rfl bare made rfl ?_ ?_⟩
  · rw [same]
    exact whole (leaf (.inl rfl)) (leaf (.inr rfl)) regularDefinition regularUnit
  · rw [same]
    exact whole (noCommas rfl) countableCreation (noCommas rfl) (noCommas rfl)

end Tree

end Verbatim
