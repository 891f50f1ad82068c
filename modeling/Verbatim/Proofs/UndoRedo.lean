import Verbatim.Proofs.Rebuilding
import Verbatim.Proofs.Tree.Trails
import Verbatim.Tree.Workspace

/-!
# Undo and redo walk the history

A tree is built, and a history watches it from the start. Then edits that work, undoing and redoing
follow each other in any order. What is seen of the root is written down after every edit, in a list
with a cursor: a new change cuts the list behind the cursor, undoing moves the cursor back, and redoing
moves it forth. The program does not have this list. It keeps changes only, and takes them back by
making them in the other direction. Still the tree looks at all times as the list says.

## Main definitions

* `Timeline`: what was seen, the changes in between, and the cursor
* `Session`: what is done to the tree and its history, with the timeline beside it

## Main results

* `Standing.undo`, `Standing.redo`, `Standing.edit`: each step moves the tree as it moves the timeline
* `Session.follows`: **after every session the tree and its history are where the timeline is**

## Implementation notes

A history with a limit forgets its oldest changes, so that the cursor cannot go back to the start.
How far it can go back is part of the timeline.
-/

namespace Verbatim

/-! ### Timelines -/

/-- What was seen at first and after each change, and where one stands. -/
structure Timeline where
  /-- The most changes that can be taken back; zero stands for all. -/
  limit : Nat
  seen : List Snapshot
  changes : List Change := []
  /-- How many of the changes are made at the moment. -/
  cursor : Nat := 0
  /-- How many of the changes are forgotten, so that they cannot be taken back. -/
  forgotten : Nat := 0

namespace Timeline

/-- One change further. -/
def advance (timeline : Timeline) : Timeline :=
  { timeline with
    cursor := timeline.cursor + 1
    forgotten := if timeline.limit = 0 then timeline.forgotten
      else max timeline.forgotten (timeline.cursor + 1 - timeline.limit) }

/-- A new change, and what is seen after it. What was ahead of the cursor is cut off. -/
def record (timeline : Timeline) (change : Change) (now : Snapshot) : Timeline :=
  advance { timeline with
    seen := timeline.seen.take (timeline.cursor + 1) ++ [now]
    changes := timeline.changes.take timeline.cursor ++ [change] }

/-- What an edit told of, if it changed anything. -/
def note (timeline : Timeline) (result : Option Change) (now : Snapshot) : Timeline :=
  match result with
  | some change => timeline.record change now
  | none => timeline

/-- The cursor goes back, where there is a change that can be taken back. -/
def back (timeline : Timeline) : Timeline :=
  if timeline.forgotten < timeline.cursor then { timeline with cursor := timeline.cursor - 1 }
  else timeline

/-- The cursor goes forth, where there is a change ahead. -/
def forth (timeline : Timeline) : Timeline :=
  if timeline.cursor < timeline.changes.length then timeline.advance else timeline

/-- A timeline from where one stands: the steps that led here, the newest first, and those ahead. -/
structure Splits (timeline : Timeline) (now : Snapshot) (past ahead : List (Change × Snapshot)) :
    Prop where
  changes : timeline.changes = (past.map Prod.fst).reverse ++ ahead.map Prod.fst
  seen : timeline.seen = (past.map Prod.snd).reverse ++ now :: ahead.map Prod.snd
  cursor : timeline.cursor = past.length
  kept : timeline.forgotten ≤ timeline.cursor
  bounded : 0 < timeline.limit → timeline.cursor ≤ timeline.forgotten + timeline.limit

variable {timeline : Timeline} {now next : Snapshot} {change : Change}
  {past ahead : List (Change × Snapshot)}

/-- How many changes can be taken back after one more. -/
theorem advance_reach (kept : timeline.forgotten ≤ timeline.cursor) :
    timeline.advance.cursor - timeline.advance.forgotten =
      if timeline.limit = 0 then timeline.cursor - timeline.forgotten + 1
      else min timeline.limit (timeline.cursor - timeline.forgotten + 1) := by
  simp only [advance]
  split <;> omega

theorem advance_bounds (kept : timeline.forgotten ≤ timeline.cursor) :
    timeline.advance.forgotten ≤ timeline.advance.cursor ∧ (0 < timeline.limit →
      timeline.advance.cursor ≤ timeline.advance.forgotten + timeline.limit) := by
  simp only [advance]
  split <;> omega

namespace Splits

variable (splits : timeline.Splits now past ahead)
include splits

theorem take_changes : timeline.changes.take timeline.cursor = (past.map Prod.fst).reverse := by
  rw [splits.changes, splits.cursor]
  exact List.take_left' (by simp)

theorem drop_changes : timeline.changes.drop timeline.cursor = ahead.map Prod.fst := by
  rw [splits.changes, splits.cursor]
  exact List.drop_left' (by simp)

theorem getElem?_seen : timeline.seen[timeline.cursor]? = some now := by
  rw [splits.seen, splits.cursor, List.getElem?_append_right (by simp)]
  simp

theorem record (change : Change) (next : Snapshot) :
    (timeline.record change next).Splits next ((change, now) :: past) [] := by
  have seen : timeline.seen.take (timeline.cursor + 1) = (past.map Prod.snd).reverse ++ [now] := by
    rw [splits.seen, splits.cursor, List.append_cons]
    exact List.take_left' (by simp)
  obtain ⟨kept, bounded⟩ := advance_bounds splits.kept
  refine ⟨?_, ?_, ?_, kept, bounded⟩
  · show timeline.changes.take timeline.cursor ++ [change] = _
    rw [splits.take_changes]
    simp
  · show timeline.seen.take (timeline.cursor + 1) ++ [next] = _
    rw [seen]
    simp
  · show timeline.cursor + 1 = _
    rw [splits.cursor]
    rfl

end Splits

theorem Splits.back (splits : timeline.Splits now ((change, next) :: past) ahead)
    (more : timeline.forgotten < timeline.cursor) :
    timeline.back.Splits next past ((change, now) :: ahead) := by
  rw [Timeline.back, if_pos more]
  refine ⟨?_, ?_, ?_, Nat.le_sub_one_of_lt more, fun limited => ?_⟩
  · rw [splits.changes]
    simp
  · rw [splits.seen]
    simp
  · show timeline.cursor - 1 = _
    rw [splits.cursor]
    rfl
  · exact Nat.le_trans (Nat.sub_le _ 1) (splits.bounded limited)

theorem Splits.forth (splits : timeline.Splits now past ((change, next) :: ahead)) :
    timeline.forth = timeline.advance ∧ timeline.advance.Splits next ((change, now) :: past) ahead := by
  obtain ⟨kept, bounded⟩ := advance_bounds splits.kept
  refine ⟨if_pos ?_, ?_, ?_, ?_, kept, bounded⟩
  · rw [splits.changes, splits.cursor]
    simp
  · show timeline.changes = _
    rw [splits.changes]
    simp
  · show timeline.seen = _
    rw [splits.seen]
    simp
  · show timeline.cursor + 1 = _
    rw [splits.cursor]
    rfl

end Timeline

/-! ### A tree and its history -/

/-- The tree and its history are where the timeline is. -/
structure Standing (root : NodeId) (timeline : Timeline) (tree : Tree) (history : History)
    (past ahead : List (Change × Snapshot)) : Prop where
  ready : tree.Ready
  top : tree.root = some root
  splits : timeline.Splits (tree.snapshot root) past ahead
  /-- The way back is the way of the inverse changes. -/
  behind : Tree.Trail root tree (past.map fun step => (step.1.inverse, step.2))
  forward : Tree.Trail root tree ahead
  limit : history.limit = timeline.limit
  undoable : history.undoable =
    (past.map Prod.fst).take (timeline.cursor - timeline.forgotten)
  redoable : history.redoable = ahead.map Prod.fst

/-- The cursor is one change further, and the history keeps the change. -/
theorem History.keep_eq {history : History} {timeline : Timeline} {now : Snapshot}
    {past ahead : List (Change × Snapshot)} (splits : timeline.Splits now past ahead)
    (limit : history.limit = timeline.limit)
    (undoable : history.undoable = (past.map Prod.fst).take (timeline.cursor - timeline.forgotten))
    (change : Change) : history.keep change =
      (change :: past.map Prod.fst).take (timeline.advance.cursor - timeline.advance.forgotten) := by
  rw [Timeline.advance_reach splits.kept, History.keep, limit, undoable, ← List.take_succ_cons]
  split
  · rfl
  · rw [List.take_take]

theorem History.eq_of_ofLimit {limit : Nat} {history : History}
    (made : History.ofLimit limit = .ok history) : history = { limit } := by
  unfold ofLimit at made
  split at made
  · contradiction
  · split at made
    · contradiction
    · exact (Except.ok.inj made).symm

theorem History.undo_eq {history : History} {tree other : Tree} {change : Change}
    {rest : List Change} (found : history.undoable = change :: rest)
    (made : tree.replay change Tree.revert = (other, .ok ())) : history.undo tree =
      ({ history with undoable := rest, redoable := change :: history.redoable }, other,
        .ok (some change)) := by
  rw [undo, found]
  dsimp only
  rw [made]

theorem History.redo_eq {history : History} {tree other : Tree} {change : Change}
    {rest : List Change} (found : history.redoable = change :: rest)
    (made : tree.replay change Tree.reapply = (other, .ok ())) : history.redo tree =
      ({ history with undoable := history.keep change, redoable := rest }, other,
        .ok (some change)) := by
  rw [redo, found]
  dsimp only
  rw [made]

namespace Standing

variable {root : NodeId} {timeline : Timeline} {tree : Tree} {history : History}
  {past ahead : List (Change × Snapshot)}

section

variable (standing : Standing root timeline tree history past ahead)
include standing

/-- Growing changes nothing. -/
theorem extended {other : Tree} (extended : tree.Extended other) :
    Standing root timeline other history past ahead := by
  obtain ⟨ready, frame, same, -, trails⟩ := extended.keeps standing.ready standing.top
  exact { standing with
    ready
    top := frame.root.trans standing.top
    splits := same ▸ standing.splits
    behind := trails _ standing.behind
    forward := trails _ standing.forward }

/-- A change is made and recorded. -/
theorem record {other : Tree} {change : Change} (ready : other.Ready) (frame : tree.SameFrame other)
    (leads : tree.Leads other change) (inside : tree.Below root change.node) :
    Standing root (timeline.record change (other.snapshot root)) other (history.record change)
      ((change, tree.snapshot root) :: past) [] where
  ready := ready
  top := frame.root.trans standing.top
  splits := standing.splits.record change _
  behind := .cons standing.ready frame.symm leads.inverse
    (leads.below standing.ready.sound.toForest inside) standing.behind
  forward := .nil other
  limit := standing.limit
  undoable := History.keep_eq standing.splits standing.limit standing.undoable change
  redoable := rfl

/-- An edit works, and is recorded if it changed anything. -/
theorem edit {edit : Edit} {result : Option Change} (allowed : edit.Allowed tree)
    (worked : (edit.apply tree).2 = .ok result) :
    ∃ past ahead, Standing root (timeline.note result ((edit.apply tree).1.snapshot root))
      (edit.apply tree).1 (result.elim history history.record) past ahead := by
  have ready := standing.ready.apply allowed worked
  obtain ⟨base, extended, led, receiver⟩ := Edit.led standing.ready allowed worked
  have grown := standing.extended extended
  -- A condition from a text is built first, and what was built is not part of the change.
  obtain ⟨-, further, -, below, -⟩ := extended.keeps standing.ready standing.top
  have frame := further.symm.trans (edit.frame standing.ready.sound)
  obtain ⟨top, isRoot, inside⟩ := allowed.inside
  obtain rfl : top = root := Option.some.inj (isRoot.symm.trans standing.top)
  have inside := below _ inside
  revert ready led frame
  generalize (edit.apply tree).1 = later
  intro ready led frame
  cases led with
  | idle => exact ⟨past, ahead, grown⟩
  | change leads =>
    rw [← receiver _ rfl] at inside
    exact ⟨_, _, grown.record ready frame leads inside⟩

/-- The newest change is taken back, if the history still has it. -/
theorem undo : (history.undo tree).2.2 = .ok history.undoable.head? ∧
    tree.SameFrame (history.undo tree).2.1 ∧
    ∃ past ahead, Standing root timeline.back (history.undo tree).2.1 (history.undo tree).1
      past ahead := by
  have undoable := standing.undoable
  rw [standing.splits.cursor] at undoable
  cases found : history.undoable with
  | nil =>
    rw [found] at undoable
    have none_left : ¬ timeline.forgotten < timeline.cursor := by
      have length := congrArg List.length undoable
      rw [List.length_nil, List.length_take, List.length_map] at length
      have cursor := standing.splits.cursor
      omega
    rw [History.undo, found, Timeline.back, if_neg none_left]
    exact ⟨rfl, .refl tree, past, ahead, standing⟩
  | cons change rest =>
    rw [found] at undoable
    cases past with
    | nil => simp at undoable
    | cons step past =>
      obtain ⟨newest, before⟩ := step
      rw [List.length_cons] at undoable
      -- There is something to take back, so the cursor is beyond what was forgotten.
      obtain ⟨reach, more⟩ : ∃ reach, past.length + 1 - timeline.forgotten = reach + 1 := by
        refine Nat.exists_eq_succ_of_ne_zero fun none => ?_
        rw [none] at undoable
        contradiction
      rw [more] at undoable
      obtain ⟨rfl, rfl⟩ := List.cons.inj undoable
      obtain ⟨other, made, ready, frame, rfl, behind, forward⟩ :=
        standing.behind.walk standing.ready standing.top
      rw [← Tree.replay_revert] at made
      have cursor := standing.splits.cursor
      rw [List.length_cons] at cursor
      have able : timeline.forgotten < timeline.cursor := by omega
      have splits := standing.splits.back able
      have forward := forward _ standing.forward
      rw [Change.inverse_inverse] at forward
      rw [History.undo_eq found made]
      refine ⟨rfl, frame, past, (change, tree.snapshot root) :: ahead, ?_⟩
      exact {
        ready
        top := frame.root.trans standing.top
        splits
        behind
        forward
        limit := by
          rw [Timeline.back, if_pos able]
          exact standing.limit
        undoable := by
          rw [Timeline.back, if_pos able]
          show List.take reach _ = List.take (timeline.cursor - 1 - timeline.forgotten) _
          rw [show timeline.cursor - 1 - timeline.forgotten = reach by omega]
        redoable := congrArg (List.cons change) standing.redoable }

/-- The change is made again that was taken back last. -/
theorem redo : (history.redo tree).2.2 = .ok history.redoable.head? ∧
    tree.SameFrame (history.redo tree).2.1 ∧
    ∃ past ahead, Standing root timeline.forth (history.redo tree).2.1 (history.redo tree).1
      past ahead := by
  have redoable := standing.redoable
  cases ahead with
  | nil =>
    have none_left : ¬ timeline.cursor < timeline.changes.length := by
      rw [standing.splits.changes, standing.splits.cursor]
      simp
    rw [History.redo, redoable, Timeline.forth, if_neg none_left]
    exact ⟨rfl, .refl tree, past, [], standing⟩
  | cons step ahead =>
    obtain ⟨change, next⟩ := step
    obtain ⟨other, made, ready, frame, rfl, forward, behind⟩ :=
      standing.forward.walk standing.ready standing.top
    obtain ⟨forth, splits⟩ := standing.splits.forth
    rw [History.redo_eq redoable made, forth, redoable]
    refine ⟨rfl, frame, (change, tree.snapshot root) :: past, ahead, ?_⟩
    exact {
      ready
      top := frame.root.trans standing.top
      splits
      behind := behind _ standing.behind
      forward
      limit := standing.limit
      undoable := History.keep_eq standing.splits standing.limit standing.undoable change
      redoable := rfl }

end

end Standing

/-! ### Sessions -/

/-- What is done to a tree and to the history that watches it, with the timeline beside it. Trees are
built in between, edits work, and changes are taken back and made again. -/
inductive Session (number log : Nat) (root : NodeId) (start : Workspace) (first : Timeline) :
    Workspace → Timeline → Prop where
  | start : Session number log root start first start first
  | build {workspace : Workspace} {timeline : Timeline} {tree : Tree} {raw : Json} {id : NodeId}
      (session : Session number log root start first workspace timeline)
      (found : workspace.tree? number = some tree) (made : (tree.build raw).2 = .ok id) :
      Session number log root start first (workspace.setTree number (tree.build raw).1) timeline
  | edit {workspace : Workspace} {timeline : Timeline} {tree : Tree} {edit : Edit}
      {result : Option Change} (session : Session number log root start first workspace timeline)
      (found : workspace.tree? number = some tree) (allowed : edit.Allowed tree)
      (worked : (edit.apply tree).2 = .ok result) :
      Session number log root start first (workspace.edit number tree false edit.apply).1
        (timeline.note result ((edit.apply tree).1.snapshot root))
  | undo {workspace : Workspace} {timeline : Timeline}
      (session : Session number log root start first workspace timeline) :
      Session number log root start first (workspace.undo log).1 timeline.back
  | redo {workspace : Workspace} {timeline : Timeline}
      (session : Session number log root start first workspace timeline) :
      Session number log root start first (workspace.redo log).1 timeline.forth

namespace Workspace

variable {workspace : Workspace} {number log : Nat} {tree other : Tree} {history : History}

/-- A tree that a history watches, being told once of every change. -/
structure Watching (workspace : Workspace) (number log : Nat) (tree : Tree) (history : History) :
    Prop where
  found : workspace.tree? number = some tree
  watch : workspace.watches[log]? = some { history, watched := some number }
  told : tree.observers.count (.log log) = 1

/-- A history records a change as often as it is among those that are told. -/
theorem foldl_tell (change : Change) {watched : Option Nat}
    (watch : workspace.watches[log]? = some { history, watched }) (observers : List Observer) :
    ((observers.map (·, change)).foldl tell workspace).trees = workspace.trees ∧
      ((observers.map (·, change)).foldl tell workspace).watches[log]? = some
        { history := (History.record · change)^[observers.count (.log log)] history, watched } := by
  induction observers generalizing workspace history with
  | nil => exact ⟨rfl, watch⟩
  | cons observer rest ih =>
    rw [List.map_cons, List.foldl_cons]
    by_cases here : observer = .log log
    · subst here
      have next : (tell workspace (.log log, change)).watches[log]? =
          some { history := history.record change, watched } := by
        simp only [tell, List.getElem?_modify, if_true, watch]
        rfl
      rw [List.count_cons_self, Function.iterate_succ_apply]
      exact ih next
    · have next : (tell workspace (observer, change)).trees = workspace.trees ∧
          (tell workspace (observer, change)).watches[log]? = some { history, watched } := by
        cases observer with
        | recorder => exact ⟨rfl, watch⟩
        | log other =>
          have apart : other ≠ log := fun same => here (same ▸ rfl)
          refine ⟨rfl, ?_⟩
          simp only [tell, List.getElem?_modify, if_neg apart, watch]
          rfl
      rw [List.count_cons_of_ne here]
      obtain ⟨trees, told⟩ := ih next.2
      exact ⟨trees.trans next.1, told⟩

namespace Watching

variable (watching : workspace.Watching number log tree history)
include watching

theorem history? : workspace.history? log = some history := by
  rw [Workspace.history?, watching.watch]
  rfl

theorem setTree (observers : other.observers = tree.observers) :
    (workspace.setTree number other).Watching number log other history where
  found := by
    have inside := (List.getElem?_eq_some_iff.1 watching.found).1
    exact List.getElem?_set_self inside
  watch := watching.watch
  told := by
    rw [observers]
    exact watching.told

theorem setHistory (later : History) :
    (workspace.setHistory log later).Watching number log tree later where
  found := watching.found
  watch := by
    simp only [Workspace.setHistory, List.getElem?_modify, if_true, watching.watch]
    rfl
  told := watching.told

theorem publish (change : Change) :
    (workspace.publish tree change).Watching number log tree (history.record change) := by
  obtain ⟨trees, told⟩ := foldl_tell change watching.watch tree.observers
  rw [watching.told] at told
  exact {
    found := by
      rw [tree?, Workspace.publish, Tree.deliveries, trees]
      exact watching.found
    watch := told
    told := watching.told }

theorem edit {action : Tree → Tree × Except Tree.ConditionTextError (Option Change)}
    {result : Option Change} (worked : (action tree).2 = .ok result)
    (frame : tree.SameFrame (action tree).1) :
    (workspace.edit number tree false action).1.Watching number log (action tree).1
      (result.elim history history.record) := by
  have changed := watching.setTree frame.observers
  rcases acted : action tree with ⟨later, outcome⟩
  rw [acted] at worked changed
  obtain rfl : outcome = .ok result := worked
  unfold Workspace.edit
  rw [acted]
  cases result with
  | none => exact changed
  | some change => exact changed.publish change

theorem walk {step : History → Tree → History × Tree × Except Refusal (Option Change)}
    {stepDetached : History → History × Except Refusal (Option Change)}
    (frame : tree.SameFrame (step history tree).2.1) :
    (workspace.walk log step stepDetached).2 = (step history tree).2.2 ∧
      (workspace.walk log step stepDetached).1.Watching number log (step history tree).2.1
        (step history tree).1 := by
  have walked : workspace.walk log step stepDetached =
      ((workspace.setTree number (step history tree).2.1).setHistory log (step history tree).1,
        (step history tree).2.2) := by
    unfold Workspace.walk
    simp only [watching.watch, Option.bind_some, watching.found, Option.map_some]
  rw [walked]
  exact ⟨rfl, (watching.setTree frame.observers).setHistory _⟩

end Watching

theorem watching_attach (found : workspace.tree? number = some tree)
    (free : workspace.watches[log]? = some { history, watched := none })
    (untold : .log log ∉ tree.observers) :
    (workspace.attach log number).Watching number log (tree.subscribe (.log log)) history := by
  have still : workspace.detach log = workspace := by
    rw [detach, free]
  have attached : workspace.attach log number =
      ({ workspace with
        watches := workspace.watches.set log { history, watched := some number } }).setTree number
          (tree.subscribe (.log log)) := by
    unfold attach
    simp only [still, free, found]
  rw [attached]
  exact {
    found := List.getElem?_set_self (List.getElem?_eq_some_iff.1 found).1
    watch := List.getElem?_set_self (List.getElem?_eq_some_iff.1 free).1
    told := by
      rw [Tree.subscribe, if_neg (by simpa using untold), List.count_append,
        List.count_eq_zero_of_not_mem untold, List.count_singleton_self] }

/-- A new history watches a tree that nobody else watches. -/
theorem watching_of_watch {before start : Workspace} (unwatched : tree.observers = [])
    (watched : (before.addTree tree).1.watch before.trees.length = .ok (start, log)) :
    start.Watching before.trees.length log (tree.subscribe (.log log))
      { limit := tree.settings.undoLimit } := by
  have here : (before.addTree tree).1.tree? before.trees.length = some tree := by
    rw [tree?, addTree, List.getElem?_concat_length]
  unfold watch at watched
  rw [here] at watched
  obtain ⟨history, made, same⟩ := bind_eq_ok.1 watched
  obtain rfl := History.eq_of_ofLimit made
  obtain ⟨rfl, rfl⟩ := Prod.mk.inj (Except.ok.inj same)
  exact watching_attach here List.getElem?_concat_length (unwatched ▸ List.not_mem_nil)

end Workspace

/-- What the tree and its history show is what the timeline says. -/
structure Timeline.Shown (timeline : Timeline) (root : NodeId) (tree : Tree) (history : History) :
    Prop where
  top : tree.root = some root
  seen : timeline.seen[timeline.cursor]? = some (tree.snapshot root)
  changes : history.changes =
    (timeline.changes.take timeline.cursor).drop timeline.forgotten
  bounded : 0 < timeline.limit → history.changes.length ≤ timeline.limit
  ahead : history.redoable = timeline.changes.drop timeline.cursor

theorem Standing.shown {root : NodeId} {timeline : Timeline} {tree : Tree} {history : History}
    {past ahead : List (Change × Snapshot)}
    (standing : Standing root timeline tree history past ahead) :
    timeline.Shown root tree history where
  top := standing.top
  seen := standing.splits.getElem?_seen
  changes := by
    rw [standing.splits.take_changes, History.changes, standing.undoable, List.drop_reverse,
      List.length_map, standing.splits.cursor]
  bounded limited := by
    have bounded := standing.splits.bounded limited
    rw [History.changes, List.length_reverse, standing.undoable, List.length_take]
    omega
  ahead := standing.redoable.trans standing.splits.drop_changes.symm

theorem Session.limit {number log : Nat} {root : NodeId} {start workspace : Workspace}
    {first timeline : Timeline}
    (session : Session number log root start first workspace timeline) :
    timeline.limit = first.limit := by
  induction session with
  | start => rfl
  | build _ _ _ ih => exact ih
  | @edit _ _ _ _ result _ _ _ _ ih =>
    cases result with
    | none => exact ih
    | some change => exact ih
  | @undo _ timeline _ ih =>
    rw [Timeline.back]
    split <;> exact ih
  | @redo _ timeline _ ih =>
    rw [Timeline.forth]
    split <;> exact ih

/-- In a session, the tree and its history are where the timeline is. -/
theorem Session.standing {number log : Nat} {root : NodeId} {start workspace : Workspace}
    {first timeline : Timeline} {tree : Tree} {history : History}
    (watching : start.Watching number log tree history) {past ahead : List (Change × Snapshot)}
    (standing : Standing root first tree history past ahead)
    (session : Session number log root start first workspace timeline) :
    ∃ tree history past ahead, workspace.Watching number log tree history ∧
      Standing root timeline tree history past ahead := by
  induction session with
  | start => exact ⟨tree, history, past, ahead, watching, standing⟩
  | build _ found made ih =>
    obtain ⟨tree, history, past, ahead, watching, standing⟩ := ih
    obtain rfl := Option.some.inj (found.symm.trans watching.found)
    exact ⟨_, history, past, ahead, watching.setTree (Tree.SameFrame.build _ _).observers,
      standing.extended (Tree.extended_build made)⟩
  | @edit _ _ _ edit _ _ found allowed worked ih =>
    obtain ⟨tree, history, past, ahead, watching, standing⟩ := ih
    obtain rfl := Option.some.inj (found.symm.trans watching.found)
    obtain ⟨past, ahead, standing'⟩ := standing.edit allowed worked
    exact ⟨_, _, past, ahead, watching.edit worked (edit.frame standing.ready.sound), standing'⟩
  | undo _ ih =>
    obtain ⟨tree, history, past, ahead, watching, standing⟩ := ih
    obtain ⟨-, frame, past, ahead, standing⟩ := standing.undo
    exact ⟨_, _, past, ahead, (watching.walk frame).2, standing⟩
  | redo _ ih =>
    obtain ⟨tree, history, past, ahead, watching, standing⟩ := ih
    obtain ⟨-, frame, past, ahead, standing⟩ := standing.redo
    exact ⟨_, _, past, ahead, (watching.walk frame).2, standing⟩

/-- **After every session the tree and its history are where the timeline is**, and undoing and
redoing work. -/
theorem Session.follows {label : String} {settings : Settings} {raw : Json} {first : Tree}
    {root : NodeId} {before start workspace : Workspace} {log : Nat} {timeline : Timeline}
    (built : Tree.ofRaw label settings raw = .ok first) (isRoot : first.root = some root)
    (watched : (before.addTree first).1.watch before.trees.length = .ok (start, log))
    (session : Session before.trees.length log root start
      { limit := settings.undoLimit, seen := [first.snapshot root] } workspace timeline) :
    timeline.limit = settings.undoLimit ∧ ∃ tree history,
      workspace.tree? before.trees.length = some tree ∧ workspace.history? log = some history ∧
      timeline.Shown root tree history ∧
      (workspace.undo log).2 = .ok history.undoable.head? ∧
      (workspace.redo log).2 = .ok history.redoable.head? := by
  obtain ⟨ready, same, -⟩ := Tree.ready_of_ofRaw built
  have unwatched : first.observers = [] := by
    obtain ⟨-, node, -, rfl⟩ := Tree.ofRaw_eq_ok.1 built
    rfl
  have watching := Workspace.watching_of_watch unwatched watched
  have standing : Standing root { limit := settings.undoLimit, seen := [first.snapshot root] }
      (first.subscribe (.log log)) { limit := first.settings.undoLimit } [] [] := by
    rw [← same]
    -- Subscribing changes the observers only, and nothing that is seen.
    have observed : first.subscribe (.log log) = { first with observers := [.log log] } := by
      rw [Tree.subscribe, unwatched]
      rfl
    have alike : first.Matches { first with observers := [.log log] } := Tree.matches_of_cells rfl
    have shown := Tree.snapshot_congr (alike.view root)
    rw [observed, ← shown]
    exact {
      ready := ⟨ready.sound.of_cells rfl rfl, ready.fitting, ready.calm⟩
      top := isRoot
      splits := ⟨rfl, rfl, rfl, Nat.le_refl _, fun _ => Nat.zero_le _⟩
      behind := .nil _
      forward := .nil _
      limit := rfl
      undoable := rfl
      redoable := rfl }
  obtain ⟨tree, history, past, ahead, watching, standing⟩ := session.standing watching standing
  have undone := standing.undo
  have redone := standing.redo
  refine ⟨session.limit, tree, history, watching.found, ?_, standing.shown,
    (watching.walk undone.2.1).1.trans undone.1, (watching.walk redone.2.1).1.trans redone.1⟩
  rw [Workspace.history?, watching.watch]
  rfl

/-- A loop is removed, put back and removed again. -/
theorem Session.follows_loop : ∃ raw first start workspace timeline,
    Tree.ofRaw "t" {} raw = .ok first ∧ first.root = some ⟨.compilationUnit, 1⟩ ∧
      (({} : Workspace).addTree first).1.watch 0 = .ok (start, 0) ∧
      Session 0 0 ⟨.compilationUnit, 1⟩ start
        { limit := ({} : Settings).undoLimit, seen := [first.snapshot ⟨.compilationUnit, 1⟩] }
        workspace timeline ∧ timeline.cursor = 1 ∧
      timeline.limit = ({} : Settings).undoLimit ∧ ∃ tree history,
        workspace.tree? 0 = some tree ∧ workspace.history? 0 = some history ∧
        timeline.Shown ⟨.compilationUnit, 1⟩ tree history ∧
        (workspace.undo 0).2 = .ok history.undoable.head? ∧
        (workspace.redo 0).2 = .ok history.redoable.head? := by
  let node : Node := .mk .compilationUnit [] none
    [.mk .whileLoop [] (some (.mk .reference [("variable_name", .text "x")] none [] [])) [] []] []
  let unit : NodeId := ⟨.compilationUnit, 1⟩
  let removal : Edit := .removeChild unit (.own ⟨.whileLoop, 2⟩)
  obtain ⟨first, made⟩ : ∃ tree, tree = { ((Tree.empty "t" {}).plant node).1 with
    root := some ((Tree.empty "t" {}).plant node).2 } := ⟨_, rfl⟩
  have built : Tree.ofRaw "t" {} node.toJson = .ok first :=
    Tree.ofRaw_eq_ok.2 ⟨by cbv, node, by cbv, made⟩
  have isRoot : first.root = some unit := by
    rw [made]
    cbv
  obtain ⟨start, watched⟩ : ∃ start,
      (({} : Workspace).addTree first).1.watch 0 = .ok (start, 0) := by
    rw [made]
    exact ⟨_, rfl⟩
  have unwatched : first.observers = [] := by
    rw [made]
    cbv
  have watching := Workspace.watching_of_watch unwatched watched
  obtain ⟨tree, subscribed⟩ : ∃ tree, tree = first.subscribe (.log 0) := ⟨_, rfl⟩
  have found : start.tree? 0 = some tree := subscribed ▸ watching.found
  have allowed : removal.Allowed tree := by
    have top : tree.root = some unit := by
      rw [subscribed, made]
      cbv
    exact ⟨⟨unit, top, .refl⟩, trivial, Bool.noConfusion⟩
  let change : Change :=
    { action := .removeChild, node := unit, path := [], index := some 0,
      before := .node ⟨.whileLoop, 2⟩ }
  have worked : (removal.apply tree).2 = .ok (some change) := by
    rw [subscribed, made]
    cbv
  have opened : Session 0 0 unit start
      { limit := ({} : Settings).undoLimit, seen := [first.snapshot unit] } start
      { limit := ({} : Settings).undoLimit, seen := [first.snapshot unit] } := .start
  have session := ((opened.edit found allowed worked).undo).redo
  exact ⟨node.toJson, first, start, _, _, built, isRoot, watched, session, rfl,
    Session.follows built isRoot watched session⟩

end Verbatim
