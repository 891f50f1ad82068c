import Verbatim.Proofs.Build.RawForm
import Verbatim.Proofs.Source.Completeness

/-!
# Units and their statements

A unit is a row of statements behind blank text. It is read from the same words as its statements,
one after the other, so a text with one statement is read as a statement and as a unit alike. The
statement on its own has no place for the blank text in front of its first word.

## Main definitions

* `Node.ofStatements`: the unit of the given statements
* `blankFront`: the blank text in front of a text

## Main results

* `parse_unit_iff`, `parse_statement_iff`: what is read as a unit, and as a statement
* `statement_iff_unit`: **a statement is read from the texts whose unit has just this statement**
-/

namespace Verbatim

/-- The blank text in front of the first word. -/
def blankFront (text : String) : String :=
  String.ofList (takeGap false text.toList).1

theorem leading_lex (expectation : Expectation) (text : String) :
    (lex expectation text).leading = blankFront text :=
  rfl

/-- A text is the blank text in front and what a statement keeps of it. -/
theorem blankFront_append_kept (text : String) :
    blankFront text ++ Start.statement.kept text = text := by
  rw [blankFront, Start.kept, ← String.ofList_append, takeGap_append, String.ofList_toList]

namespace Node

/-- The unit of statements with the given blank text in front. -/
def ofStatements (leading : String) (statements : List Node) : Node :=
  .mk .compilationUnit [] none statements [(0, leading)]

theorem leading_ofStatements (leading : String) (statements : List Node) :
    (ofStatements leading statements).leading = leading := by
  show gapText .compilationUnit [(0, leading)] 0 = leading
  exact gapText_of_get? rfl

theorem lexemes_ofStatements (leading : String) (statements : List Node) :
    (ofStatements leading statements).lexemes = statements.flatMap lexemes :=
  lexemes_unit leading statements

/-- What the grammar derives as a unit is made of statements that it derives. -/
theorem Grammatical.exists_statements {node : Node} (h : node.Grammatical)
    (unit : node.kind = .compilationUnit) :
    ∃ leading statements, node = ofStatements leading statements ∧
      ∀ statement ∈ statements, statement.Grammatical ∧ statement.IsStatement := by
  cases h with
  | @unit leading statements below all =>
    exact ⟨leading, statements, rfl, fun statement member =>
      ⟨below statement member, all statement member⟩⟩
  | @guarded kind words left right opening closing condition body guard =>
    obtain rfl : kind = .compilationUnit := unit
    exact absurd rfl guard
  | _ => exact absurd unit Kind.noConfusion

/-- The raw value of a unit lists those of its statements. -/
theorem get?_children_ofStatements (leading : String) (statements : List Node) :
    (ofStatements leading statements).toRaw.get? "children" =
      some (.array (statements.map toRaw)) := by
  rw [toRaw_eq]
  rfl

end Node

/-! ### What a text is read as -/

/-- What is read is what can be read as such. -/
theorem takes_of_parse {start : Start} {text : String} {node : Node}
    (h : parse start text = .ok node) : start.Takes node := by
  simp only [parse] at h
  split at h
  · next read =>
    split at h
    · next done =>
      obtain rfl := Except.ok.inj h
      have spelled := lex_spelled start.expectation text
      cases start with
      | unit =>
        simp only [Start.parseTokens, bind_eq_ok, Prod.exists] at read
        obtain ⟨statements, rest, -, read⟩ := read
        obtain ⟨rfl, -⟩ := by simpa using read
        rfl
      | statement => exact (parseStatement_reads spelled read).statement
      | expression => exact (parseExpression_reads spelled (Nat.zero_le _) read).operand
    · contradiction
  · contradiction
  · contradiction

/-- The words of the text are those of the given statements, which the grammar derives. -/
structure Holds (text : String) (statements : List Node) : Prop where
  words : (lex .statement text).tokens.map Token.lexeme = statements.flatMap Node.lexemes
  finished : (lex .statement text).stuck = none
  statements : ∀ statement ∈ statements, statement.Grammatical ∧ statement.IsStatement

/-- **A unit is read from the words of its statements**, and keeps the blank text in front. -/
theorem parse_unit_iff {text : String} {node : Node} :
    parse .unit text = .ok node ↔
      ∃ statements, node = .ofStatements (blankFront text) statements ∧ Holds text statements := by
  constructor
  · intro h
    obtain ⟨reads, finished⟩ := parse_reads h
    obtain ⟨leading, statements, rfl, all⟩ := reads.grammatical.exists_statements (takes_of_parse h)
    have words := reads.words
    have front := reads.leading
    rw [Node.lexemes_ofStatements] at words
    rw [Node.leading_ofStatements, if_pos rfl, leading_lex] at front
    exact ⟨statements, by rw [front], words.symm, finished, all⟩
  · rintro ⟨statements, rfl, words, finished, all⟩
    refine parse_complete (.unit (fun statement member => (all statement member).1)
      fun statement member => (all statement member).2) rfl ?_ (fun _ => ?_) finished
    · exact words.trans (Node.lexemes_ofStatements _ _).symm
    · exact Node.leading_ofStatements _ _

/-- **A statement is read from its words.** -/
theorem parse_statement_iff {text : String} {node : Node} :
    parse .statement text = .ok node ↔ Holds text [node] := by
  constructor
  · intro h
    obtain ⟨reads, finished⟩ := parse_reads h
    refine ⟨?_, finished, List.forall_mem_singleton.2 ⟨reads.grammatical, takes_of_parse h⟩⟩
    rw [List.flatMap_singleton]
    exact reads.words.symm
  · rintro ⟨words, finished, all⟩
    obtain ⟨grammatical, isStatement⟩ := List.forall_mem_singleton.1 all
    rw [List.flatMap_singleton] at words
    exact parse_complete grammatical isStatement words Start.noConfusion finished

/-- A text is read as a statement exactly if it is read as the unit of that statement. -/
theorem parse_statement_iff_parse_unit {text : String} {node : Node} :
    parse .statement text = .ok node ↔
      parse .unit text = .ok (.ofStatements (blankFront text) [node]) := by
  rw [parse_statement_iff, parse_unit_iff]
  constructor
  · intro holds
    exact ⟨[node], rfl, holds⟩
  · rintro ⟨statements, same, holds⟩
    obtain rfl : [node] = statements := congrArg Node.children same
    exact holds

/-- **A statement is read from the texts whose unit has just this statement.** The blank text in
front of the first word, which is the gap of the unit, is all of the text that the statement
drops. -/
theorem statement_iff_unit (text : String) (raw : Json) :
    ((parse .statement text).map Node.toRaw = .ok raw ↔
        ∃ whole, (parse .unit text).map Node.toRaw = .ok whole ∧
          whole.get? "children" = some (.array [raw])) ∧
      ∀ node, parse .statement text = .ok node →
        parse .unit text =
            .ok (.mk .compilationUnit [] none [node] [(0, blankFront text)]) ∧
          ∃ own, node.render = .ok own ∧ blankFront text ++ own = text := by
  refine ⟨⟨fun h => ?_, ?_⟩, fun node read => ?_⟩
  · obtain ⟨node, read, rfl⟩ := map_eq_ok.1 h
    refine ⟨_, map_eq_ok.2 ⟨_, parse_statement_iff_parse_unit.1 read, rfl⟩, ?_⟩
    rw [Node.get?_children_ofStatements]
    rfl
  · rintro ⟨whole, h, only⟩
    obtain ⟨unit, read, rfl⟩ := map_eq_ok.1 h
    obtain ⟨statements, rfl, -⟩ := parse_unit_iff.1 read
    rw [Node.get?_children_ofStatements] at only
    have single : statements.map Node.toRaw = [raw] := by simpa using only
    obtain ⟨node, rfl, rfl⟩ := List.map_eq_singleton_iff.1 single
    exact map_eq_ok.2 ⟨node, parse_statement_iff_parse_unit.2 read, rfl⟩
  · exact ⟨parse_statement_iff_parse_unit.1 read, _, render_of_parse read,
      blankFront_append_kept text⟩

/-- A statement behind a comment. -/
theorem statement_iff_unit_comment : ∃ node,
    parse .statement "// c\nwhile(x){}\n" = .ok node ∧
      parse .unit "// c\nwhile(x){}\n" =
          .ok (.mk .compilationUnit [] none [node] [(0, "// c\n")]) ∧
        ∃ own, node.render = .ok own ∧ "// c\n" ++ own = "// c\nwhile(x){}\n" := by
  let node : Node := .mk .whileLoop []
    (some (.mk .reference [("variable_name", .text "x")] none [] [(0, "")])) []
    [(0, ""), (1, ""), (2, ""), (3, ""), (4, "\n")]
  have read : parse .statement "// c\nwhile(x){}\n" = .ok node := by cbv
  exact ⟨node, read, (statement_iff_unit _ node.toRaw).2 node read⟩

end Verbatim
