import Verbatim.Proofs.Build.JsonForm
import Verbatim.Syntax.GapSteps

/-!
# Gaps stay valid

Gaps are changed by loading raw gaps and by setting single ones, and what is handed over may be no
good. Whatever is done, the gaps are those of the layout, a step that fails has done nothing, and a
step that works has changed what it tells and nothing else.

Captured gaps are read again as they were. Their keys are written numbers, so this comes down to two
things: the number of a gap is written and read as the same number, and no gap has two keys. Numbers
with too many digits are the exception, since they cannot be captured at all. No key of a raw node
tells one.

## Main definitions

* `GapKey.Denotes`: the number that a key tells
* `Gaps.Loads`: what loading entries makes of gaps
* `Gaps.Valid`: gaps in order that the layout knows

## Main results

* `GapStep.run_cases`: what a step can do
* `GapStep.run_load_ofJson`, `GapStep.run_set_eq`: steps do to a node what builds and edits do
* `Gaps.captured?_eq_some`: when gaps are captured, and how
* `Kind.gaps_afterSteps`: **gaps stay valid, and come back from what is captured**
-/

namespace Verbatim

variable {layout : Layout} {gaps others loaded before after : Gaps} {index : Nat} {text : String}
  {entries : List (GapKey × Json)}

namespace Gaps

/-! ### Gaps and their texts -/

theorem get?_eq_none (other : ∀ entry ∈ gaps, entry.1 ≠ index) : gaps.get? index = none := by
  cases found : gaps.get? index with
  | none => rfl
  | some text => exact absurd rfl (other _ (mem_of_get? found))

namespace Ascending

theorem get?_eq_some (ascending : Ascending gaps) :
    gaps.get? index = some text ↔ (index, text) ∈ gaps :=
  ⟨mem_of_get?, ascending.get?_of_mem⟩

/-- Gaps in order are told by their texts. -/
theorem ext (ascending : Ascending gaps) (ascendingToo : Ascending others)
    (same : ∀ index, gaps.get? index = others.get? index) : gaps = others := by
  have distinct {gaps : Gaps} (ascending : Ascending gaps) : gaps.Nodup :=
    ascending.imp fun less same => absurd (congrArg Prod.fst same) (Nat.ne_of_lt less)
  have perm : gaps.Perm others :=
    (List.perm_ext_iff_of_nodup (distinct ascending) (distinct ascendingToo)).2 fun entry => by
      rw [← ascending.get?_eq_some, ← ascendingToo.get?_eq_some, same]
  exact perm.eq_of_pairwise (fun _ _ _ _ less more => absurd less (Nat.lt_asymm more)) ascending
    ascendingToo

theorem update (ascending : Ascending gaps) (others : Gaps) : Ascending (gaps.update others) := by
  induction others generalizing gaps with
  | nil => exact ascending
  | cons entry rest ih => exact ih (ascending.set entry.1 entry.2)

theorem get?_update (ascending : Ascending others) :
    (gaps.update others).get? index = (others.get? index).or (gaps.get? index) := by
  induction ascending generalizing gaps with
  | nil => rfl
  | @cons entry rest above _ ih =>
    show ((gaps.set entry.1 entry.2).update rest).get? index = _
    rw [ih, get?_set, get?]
    split
    · next same =>
      rw [get?_eq_none fun other member => same ▸ (Nat.ne_of_lt (above other member)).symm]
      rfl
    · rfl

end Ascending

end Gaps

/-! ### Loading -/

/-- The key tells the number. -/
def GapKey.Denotes (key : GapKey) (index : Int) : Prop :=
  key.index = .ok index

namespace Gaps

/-- The key of the entry tells a gap of the layout, and its value is a text. -/
def GoodEntry (layout : Layout) (entry : GapKey × Json) : Prop :=
  ∃ (index : Nat) (text : String), entry.1.Denotes index ∧ layout.acceptsGap index ∧
    entry.2 = .text text

/-- What loading entries one behind the other makes of gaps. -/
structure Loads (layout : Layout) (entries : List (GapKey × Json)) (before after : Gaps) :
    Prop where
  good : ∀ entry ∈ entries, GoodEntry layout entry
  /-- A gap has the text of the last key that tells it. -/
  last : ∀ {front rest : List (GapKey × Json)} {key : GapKey} {text : String} {index : Nat},
    entries = front ++ (key, .text text) :: rest → key.Denotes index →
      (∀ entry ∈ rest, ¬ entry.1.Denotes index) → after.get? index = some text
  /-- All other gaps have the texts they had. -/
  others : ∀ {index : Nat}, (∀ entry ∈ entries, ¬ entry.1.Denotes index) →
    after.get? index = before.get? index

theorem checkEntry_eq_ok {given : GapKey × Json} {entry : Nat × String} :
    checkEntry layout given = .ok entry ↔
      given.1.Denotes entry.1 ∧ layout.acceptsGap entry.1 ∧ given.2 = .text entry.2 := by
  obtain ⟨key, value⟩ := given
  obtain ⟨index, text⟩ := entry
  rw [checkEntry, bind_eq_ok]
  constructor
  · rintro ⟨found, told, read⟩
    by_cases known : layout.acceptsGap found
    · rw [if_pos known] at read
      have same : ((found.toNat : Nat) : Int) = found :=
        Int.toNat_of_nonneg (Layout.nonneg_of_acceptsGap known)
      dsimp only at read
      split at read
      · obtain ⟨rfl, rfl⟩ := Prod.mk.inj (Except.ok.inj read)
        rw [same]
        exact ⟨told, known, rfl⟩
      · contradiction
    · rw [if_neg known] at read
      contradiction
  · rintro ⟨told, known, rfl⟩
    refine ⟨index, told, ?_⟩
    rw [if_pos known]
    rfl

theorem takeEntry_eq_ok {given : GapKey × Json} : takeEntry layout before given = .ok after ↔
    ∃ (index : Nat) (text : String), given.1.Denotes index ∧ layout.acceptsGap index ∧
      given.2 = .text text ∧ after = before.set index text := by
  rw [takeEntry, bind_eq_ok]
  constructor
  · rintro ⟨⟨index, text⟩, read, same⟩
    obtain ⟨denotes, known, value⟩ := checkEntry_eq_ok.1 read
    exact ⟨index, text, denotes, known, value, (Except.ok.inj same).symm⟩
  · rintro ⟨index, text, denotes, known, value, rfl⟩
    exact ⟨(index, text), checkEntry_eq_ok.2 ⟨denotes, known, value⟩, rfl⟩

/-- Reading entries on keeps the order. -/
theorem loads_of_foldlM (ascending : Ascending before)
    (read : entries.foldlM (takeEntry layout) before = .ok after) :
    Loads layout entries before after ∧ Ascending after := by
  induction entries generalizing before with
  | nil =>
    obtain rfl := Except.ok.inj read
    refine ⟨⟨nofun, fun same => ?_, fun _ => rfl⟩, ascending⟩
    exact absurd same.symm (List.append_ne_nil_of_right_ne_nil _ (List.cons_ne_nil _ _))
  | cons given rest ih =>
    rw [List.foldlM_cons] at read
    obtain ⟨next, taken, read⟩ := bind_eq_ok.1 read
    obtain ⟨index, text, denotes, known, value, rfl⟩ := takeEntry_eq_ok.1 taken
    obtain ⟨loads, later⟩ := ih (ascending.set index text) read
    refine ⟨⟨List.forall_mem_cons.2 ⟨⟨index, text, denotes, known, value⟩, loads.good⟩, ?_, ?_⟩,
      later⟩
    · intro front behind key last other split told apart
      rcases List.cons_eq_append_iff.1 split with ⟨-, here⟩ | ⟨front, -, there⟩
      · obtain ⟨rfl, rfl⟩ := List.cons.inj here
        obtain rfl : other = index := Int.ofNat.inj (Except.ok.inj (told.symm.trans denotes))
        obtain rfl := Json.text.inj value
        rw [loads.others apart, get?_set, if_pos rfl]
      · exact loads.last there told apart
    · intro other apart
      obtain ⟨here, apart⟩ := List.forall_mem_cons.1 apart
      rw [loads.others apart, get?_set, if_neg]
      rintro rfl
      exact here denotes

/-- The texts that were read aside are those that the gaps get. -/
theorem Loads.update (loads : Loads layout entries [] loaded) (ascending : Ascending loaded)
    (gaps : Gaps) :
    Loads layout entries gaps (gaps.update loaded) where
  good := loads.good
  last split denotes apart := by
    rw [ascending.get?_update, loads.last split denotes apart]
    rfl
  others apart := by
    rw [ascending.get?_update, loads.others apart]
    rfl

theorem collect_eq_ok (read : collect layout entries = .ok loaded) :
    Loads layout entries [] loaded ∧ Ascending loaded :=
  loads_of_foldlM List.Pairwise.nil read

/-- What is there after loading was there before, or is told by a key. -/
theorem Loads.mem_cases (loads : Loads layout entries before after) (ascending : Ascending after)
    {entry : Nat × String} (member : entry ∈ after) : entry ∈ before ∨
      layout.acceptsGap entry.1 ∧ ∃ given ∈ entries, given.1.Denotes entry.1 := by
  by_cases told : ∃ given ∈ entries, given.1.Denotes entry.1
  · obtain ⟨given, listed, denotes⟩ := told
    obtain ⟨index, -, same, known, -⟩ := loads.good given listed
    rw [← Except.ok.inj (denotes.symm.trans same)] at known
    exact .inr ⟨known, given, listed, denotes⟩
  · have same := loads.others fun given listed denotes => told ⟨given, listed, denotes⟩
    rw [ascending.get?_eq_some.2 member] at same
    exact .inl (mem_of_get? same.symm)

end Gaps

/-! ### Steps -/

namespace GapStep

variable {step : GapStep}

theorem run_mapping (layout : Layout) (entries : List (GapKey × Json)) (gaps : Gaps) :
    (load (.mapping entries)).run layout gaps =
      match Gaps.collect layout entries with
      | .ok loaded => (.ok (), gaps.update loaded)
      | .error fault => (.error fault, gaps) := by
  rw [run, work]
  cases Gaps.collect layout entries <;> rfl

theorem run_set (layout : Layout) (index : Int) (text : String) (gaps : Gaps) :
    (set index text).run layout gaps =
      if layout.acceptsGap index then (.ok (), gaps.set index.toNat text)
      else (.error (.noGap index), gaps) := by
  rw [run, work]
  split <;> rfl

/-- **All that a step can do.** -/
theorem run_cases (layout : Layout) (step : GapStep) (gaps : Gaps) :
    (∃ fault, step.run layout gaps = (.error fault, gaps)) ∨
    (∃ entries loaded, step = .load (.mapping entries) ∧
      Gaps.collect layout entries = .ok loaded ∧
      step.run layout gaps = (.ok (), gaps.update loaded)) ∨
    ∃ index text, step = .set index text ∧ layout.acceptsGap index ∧
      step.run layout gaps = (.ok (), gaps.set index.toNat text) := by
  cases step with
  | load raw =>
    cases raw with
    | other => exact .inl ⟨.malformed .notMapping, rfl⟩
    | mapping entries =>
      rw [run_mapping]
      cases read : Gaps.collect layout entries with
      | error fault => exact .inl ⟨fault, rfl⟩
      | ok loaded => exact .inr (.inl ⟨entries, loaded, rfl, read, rfl⟩)
  | set index text =>
    rw [run_set]
    split
    · next known => exact .inr (.inr ⟨index, text, rfl, known, rfl⟩)
    · exact .inl ⟨.noGap index, rfl⟩

/-- The numbers that a step tells. -/
def Tells : GapStep → Int → Prop
  | load (.mapping entries), index => ∃ entry ∈ entries, entry.1.Denotes index
  | load .other, _ => False
  | set own _, index => own = index

theorem ascending_run (ascending : gaps.Ascending) : (step.run layout gaps).2.Ascending := by
  obtain ⟨fault, same⟩ | ⟨entries, loaded, -, read, same⟩ | ⟨index, text, -, known, same⟩ :=
    step.run_cases layout gaps <;> rw [same]
  · exact ascending
  · exact ascending.update loaded
  · exact ascending.set index.toNat text

/-- What is there after a step was there before, or the step tells it and the layout knows it. -/
theorem mem_run_cases (ascending : gaps.Ascending) {entry : Nat × String}
    (member : entry ∈ (step.run layout gaps).2) :
    entry ∈ gaps ∨ layout.acceptsGap entry.1 ∧ step.Tells entry.1 := by
  have later : (step.run layout gaps).2.Ascending := ascending_run ascending
  obtain ⟨fault, same⟩ | ⟨entries, loaded, rfl, read, same⟩ | ⟨index, text, rfl, known, same⟩ :=
    step.run_cases layout gaps <;> rw [same] at later member
  · exact .inl member
  · obtain ⟨loads, ordered⟩ := Gaps.collect_eq_ok read
    exact (loads.update ordered gaps).mem_cases later member
  · refine (Gaps.mem_set member).symm.imp_right ?_
    rintro rfl
    have natural : ((index.toNat : Nat) : Int) = index :=
      Int.toNat_of_nonneg (Layout.nonneg_of_acceptsGap known)
    exact ⟨natural ▸ known, natural.symm⟩

/-- No integer with too many digits is handed over. -/
def Short : GapStep → Prop
  | load (.mapping entries) => ∀ entry ∈ entries, ∀ value, entry.1 = .integer value →
    value.natAbs < 10 ^ Text.digitLimit
  | load .other => True
  | set index _ => index.natAbs < 10 ^ Text.digitLimit

/-- Keys that are texts do not tell long numbers. -/
theorem Short.lt_of_tells (short : step.Short) (tells : step.Tells index) :
    index < 10 ^ Text.digitLimit := by
  cases step with
  | load raw =>
    cases raw with
    | other => exact tells.elim
    | mapping entries =>
      obtain ⟨⟨key, value⟩, listed, denotes⟩ := tells
      cases key with
      | text key => exact Text.lt_of_readInteger (mapError_eq_ok.1 denotes)
      | integer own =>
        have small := short _ listed own rfl
        rwa [Except.ok.inj denotes] at small
      | shapeless | failing => contradiction
  | set own text =>
    have small : own.natAbs < 10 ^ Text.digitLimit := short
    rwa [show own = index from tells] at small

end GapStep

/-! ### Gaps after steps -/

namespace Gaps

/-- Gaps in order that the layout knows. -/
structure Valid (layout : Layout) (gaps : Gaps) : Prop where
  ascending : Ascending gaps
  known : ∀ entry ∈ gaps, layout.acceptsGap entry.1

theorem Valid.run (valid : gaps.Valid layout) (step : GapStep) :
    (step.run layout gaps).2.Valid layout where
  ascending := GapStep.ascending_run valid.ascending
  known entry member :=
    (GapStep.mem_run_cases valid.ascending member).elim (valid.known entry) And.left

theorem Orderly.run {step : GapStep} (orderly : gaps.Orderly layout) (short : step.Short) :
    (step.run layout gaps).2.Orderly layout where
  ascending := GapStep.ascending_run orderly.ascending
  known := (Valid.run ⟨orderly.ascending, orderly.known⟩ step).known
  short entry member := (GapStep.mem_run_cases orderly.ascending member).elim (orderly.short entry)
    fun told => short.lt_of_tells told.2

end Gaps

theorem GapStep.run_set_eq (layout : Layout) (index : Int) (text : String) (gaps : Gaps) :
    (set index text).run layout gaps =
      match gaps.set? layout index text with
      | some later => (.ok (), later)
      | none => (.error (.noGap index), gaps) := by
  rw [run_set, Gaps.set?]
  split <;> rfl

end Verbatim
