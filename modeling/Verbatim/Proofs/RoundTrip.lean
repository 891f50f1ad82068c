import Verbatim.Proofs.Build.Parsed
import Verbatim.Proofs.Tree.Plant

/-!
# Texts come back as they were

A text that is read and built gives the same text again, whatever the tree and its settings. A
unit keeps its text whole; a statement or an expression on its own has no place for the blank text
in front of its first word.

## Main definitions

* `BlankThen`: a text, and what is left of it without the blank text in front
* `Start.Keeps`: what of a text is kept

## Main results

* `Tree.source_of_parse`: the text of what was built is the text that was read
-/

namespace Verbatim

/-! ### Blank text -/

/-- Whether a space or a comment stands in front. -/
def BeginsBlank (chars : List Char) : Prop :=
  (∃ c ∈ chars.head?, isSpace c) ∨ ∃ rest, chars = '/' :: '/' :: rest

/-- What is left of a text without the spaces and comments in front. The flag says whether a comment
has begun; it runs to the end of its line, or of the text. -/
inductive BlankThen (kept : List Char) : Bool → List Char → Prop
  | here (word : ¬ BeginsBlank kept) : BlankThen kept false kept
  | ending (nothing : kept = []) : BlankThen kept true []
  | space {c : Char} {rest : List Char} (h : isSpace c) (later : BlankThen kept false rest) :
      BlankThen kept false (c :: rest)
  | opens {rest : List Char} (later : BlankThen kept true rest) :
      BlankThen kept false ('/' :: '/' :: rest)
  | inside {c : Char} {rest : List Char} (h : c ≠ '\n') (later : BlankThen kept true rest) :
      BlankThen kept true (c :: rest)
  | closes {rest : List Char} (later : BlankThen kept false rest) :
      BlankThen kept true ('\n' :: rest)

theorem blankThen_takeGap (comment : Bool) (chars : List Char) :
    BlankThen (takeGap comment chars).2 comment chars := by
  induction chars generalizing comment with
  | nil =>
    cases comment with
    | true => exact .ending rfl
    | false => exact .here (by simp [takeGap, BeginsBlank])
  | cons c rest ih =>
    cases comment with
    | true =>
      by_cases newline : c = '\n'
      · subst newline
        exact .closes (ih false)
      · rw [takeGap, bne_iff_ne.2 newline]
        exact .inside newline (ih true)
    | false =>
      rw [takeGap]
      split
      · next space => exact .space space (ih false)
      · split
        · next opening =>
          obtain ⟨rfl, next⟩ := opening
          obtain ⟨behind, rfl⟩ := List.head?_eq_some_iff.1 next
          cases ih true with
          | inside _ later => exact .opens later
        · next space opening =>
          refine .here ?_
          rintro (⟨first, same, blank⟩ | ⟨behind, same⟩)
          · obtain rfl := Option.some.inj same
            exact space blank
          · obtain ⟨rfl, rfl⟩ := List.cons.inj same
            exact opening ⟨rfl, rfl⟩

/-- Only one text can be left. -/
theorem BlankThen.eq_takeGap {kept chars : List Char} {comment : Bool}
    (h : BlankThen kept comment chars) : kept = (takeGap comment chars).2 := by
  induction h with
  | here word =>
    cases kept with
    | nil => rfl
    | cons c rest =>
      rw [takeGap, if_neg fun space => word (.inl ⟨c, rfl, space⟩), if_neg]
      rintro ⟨rfl, next⟩
      obtain ⟨behind, rfl⟩ := List.head?_eq_some_iff.1 next
      exact word (.inr ⟨behind, rfl⟩)
  | ending nothing => exact nothing
  | space h _ ih => rw [takeGap, if_pos h, ih]
  | opens _ ih =>
    rw [ih]
    rfl
  | inside h _ ih => rw [takeGap, bne_iff_ne.2 h, ih]
  | closes _ ih =>
    rw [ih]
    rfl

/-- What of a text is kept: all of a unit, and of other texts what stands behind the blank text in
front. -/
def Start.Keeps (start : Start) (text kept : String) : Prop :=
  match start with
  | .unit => kept = text
  | .statement | .expression => BlankThen kept.toList false text.toList

theorem Start.keeps_kept (start : Start) (text : String) : start.Keeps text (start.kept text) := by
  have fragment : BlankThen (String.ofList (takeGap false text.toList).2).toList false
      text.toList := by
    rw [String.toList_ofList]
    exact blankThen_takeGap false text.toList
  cases start with
  | unit => rfl
  | statement => exact fragment
  | expression => exact fragment

theorem Start.Keeps.eq_kept {start : Start} {text kept : String} (h : start.Keeps text kept) :
    kept = start.kept text := by
  cases start with
  | unit => exact h
  | statement => rw [Start.kept, ← BlankThen.eq_takeGap h, String.ofList_toList]
  | expression => rw [Start.kept, ← BlankThen.eq_takeGap h, String.ofList_toList]

/-! ### From text to text -/

namespace Tree

/-- **The text of what was built is the text that was read.** -/
theorem source_of_parse {start : Start} {text : String} {node : Node} {tree : Tree} {id : NodeId}
    (read : parse start text = .ok node) (made : (tree.build node.toRaw).2 = .ok id) :
    ∃ kept, start.Keeps text kept ∧ (tree.build node.toRaw).1.source id = .ok kept := by
  have grammatical := parse_grammatical read
  obtain ⟨built, below, same, rfl⟩ := build_eq_ok made
  obtain rfl := ((Node.ofRaw_of_grammatical grammatical).1 below).1
  refine ⟨start.kept text, start.keeps_kept text, ?_⟩
  rw [source, same, view_plant, Node.render_settle grammatical.complete, render_of_parse read]

/-- A connector that is defined behind a comment, and what is kept of the text. -/
theorem source_of_parse_connector : ∃ node id,
    parse .statement "// c\nA b = create C(-x) ;\n" = .ok node ∧
      ((empty "t" {}).build node.toRaw).2 = .ok id ∧
      ∃ kept, Start.statement.Keeps "// c\nA b = create C(-x) ;\n" kept ∧
        ((empty "t" {}).build node.toRaw).1.source id = .ok kept := by
  let node : Node := .mk .definition [] none
    [.mk .declaration [("type_name", .text "A"), ("variable_name", .text "b")] none []
        [(0, " "), (1, " ")],
      .mk .connectorCreation [("connector_name", .text "C")] none
        [.mk .unary [("operator", .text "-")] none
            [.mk .reference [("variable_name", .text "x")] none [] [(0, "")]] [(0, "")]]
        [(0, " "), (1, ""), (2, ""), (3, " ")]]
    [(0, " "), (1, "\n")]
  have read : parse .statement "// c\nA b = create C(-x) ;\n" = .ok node := by cbv
  have made : ((empty "t" {}).build node.toRaw).2 = .ok ⟨.definition, 1⟩ := by cbv
  exact ⟨node, ⟨.definition, 1⟩, read, made, source_of_parse read made⟩

end Tree

end Verbatim
