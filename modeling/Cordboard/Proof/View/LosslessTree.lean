import Cordboard.Proof.View.InputOrder

namespace Cordboard.Viewer
open Data Archive LiveReconciliation

/-- A Step that resumes another one names it by a text. -/
def Textual (spans : SpanMap) : Prop :=
  ∀ span, spans.holds span → ∀ value, span.attributes.get? "cord.resumed_from" = some value → ∃ text, value = .str text

section
variable {spans others : SpanMap} {reference : Int} {drafts tables : Drafts} {runs permuted : List RunRecord}
  {records further : List StepRecord} {step other rival : StepRecord} {original : String}

theorem plain_of_textual (texts : Textual spans) : Plain spans := by
  intro span held _
  cases found : span.attributes.get? "cord.resumed_from" with
  | none => rfl
  | some value =>
      obtain ⟨text, rfl⟩ := texts span held value found
      rfl

/-- A Step of the tree resumes nothing or a Step that it names by a text. -/
theorem resumed_text (lossless : Lossless spans runs) (texts : Textual spans) (member : step ∈ allSteps runs) :
    step.resumedFrom = .null ∨ ∃ original, step.resumedFrom = .str original := by
  obtain ⟨span, inside, shows⟩ := lossless.steps step member
  rw [shows.resumed]
  cases found : span.attributes.get? "cord.resumed_from" with
  | none => exact .inl rfl
  | some value =>
      obtain ⟨text, rfl⟩ := texts span (mem_spansOf.mp inside).1 value found
      exact .inr ⟨text, rfl⟩

/-- The identifier of a Step names one record of the tree. -/
theorem Lossless.unique (lossless : Lossless spans runs) (member : step ∈ allSteps runs)
    (listed : other ∈ allSteps runs) (same : step.spanId = other.spanId) : step = other :=
  List.inj_on_of_nodup_map (lossless.stepsOnce.nodup_iff.mpr (spanIds_nodup spans .step)) member listed same

/-- A Step of one tree has its counterpart in the other tree. -/
theorem counterpart (perm : (records.map StepRecord.unordered).Perm (further.map StepRecord.unordered))
    (member : step ∈ records) : ∃ other ∈ further, other.spanId = step.spanId ∧ other.startNs = step.startNs ∧
      other.resumedFrom = step.resumedFrom := by
  obtain ⟨other, listed, same⟩ := List.mem_map.mp (perm.mem_iff.mp (List.mem_map_of_mem member))
  obtain ⟨named, _, _, start, _, resumed, _⟩ := StepRecord.mk.inj (Prod.mk.inj same).1
  exact ⟨other, listed, named, start, resumed⟩

theorem resumer_counterpart (perm : (records.map StepRecord.unordered).Perm (further.map StepRecord.unordered))
    (member : rival ∈ resumers records original) :
    ∃ other ∈ resumers further original, other.spanId = rival.spanId ∧ other.startNs = rival.startNs := by
  obtain ⟨inside, origin⟩ := List.mem_filter.mp member
  obtain ⟨other, listed, same, start, resumed⟩ := counterpart perm inside
  refine ⟨other, List.mem_filter.mpr ⟨listed, ?_⟩, same, start⟩
  rw [resumed]
  exact origin

/-- A tie in one tree is a tie in the other tree. -/
theorem Tied.transfer (perm : (records.map StepRecord.unordered).Perm (further.map StepRecord.unordered))
    (same : step.spanId = other.spanId) (start : step.startNs = other.startNs)
    (tied : Tied (resumers records original) step) : Tied (resumers further original) other := by
  obtain ⟨least, rival, member, apart, level⟩ := tied
  constructor
  · intro later listed
    obtain ⟨found, inside, _, begins⟩ := resumer_counterpart perm.symm listed
    rw [← start, ← begins]
    exact least found inside
  · obtain ⟨found, inside, named, begins⟩ := resumer_counterpart perm member
    refine ⟨found, inside, ?_, ?_⟩
    · rw [named, ← same]
      exact apart
    · rw [begins, level, start]

/-- A group has a Step that is not flagged. -/
theorem Flagged.exists_clear {group : List StepRecord} (flagged : Flagged group) (member : step ∈ group) :
    ∃ clear ∈ group, clear.repeatedExecution = false := by
  by_contra none_
  have all : group.filter StepRecord.repeatedExecution = group := by
    apply List.filter_eq_self.mpr
    intro other listed
    by_contra clear
    exact none_ ⟨other, listed, by simpa using clear⟩
  have count := flagged.others (List.ne_nil_of_mem member)
  rw [all] at count
  omega

/-- A Step that is flagged in the other tree only has a rival that is not flagged there. -/
theorem tied_of_clear (lossless : Lossless spans runs) (kept : Lossless others permuted)
    (perm : ((allSteps runs).map StepRecord.unordered).Perm ((allSteps permuted).map StepRecord.unordered))
    (member : step ∈ resumers (allSteps runs) original) (listed : other ∈ resumers (allSteps permuted) original)
    (same : step.spanId = other.spanId) (start : step.startNs = other.startNs) (clear : step.repeatedExecution = false)
    (flag : other.repeatedExecution = true) : Tied (resumers (allSteps runs) original) step := by
  have least := (lossless.repeated original).first step member clear
  obtain ⟨rival, inside, free⟩ := (kept.repeated original).exists_clear listed
  obtain ⟨found, group, named, begins⟩ := resumer_counterpart perm.symm inside
  refine ⟨least, found, group, ?_, ?_⟩
  · intro equal
    have one := kept.unique (List.mem_filter.mp inside).1 (List.mem_filter.mp listed).1
      (named.symm.trans (equal.trans same))
    rw [one, flag] at free
    cases free
  · apply Nat.le_antisymm
    · rw [begins, start]
      exact (kept.repeated original).first rival inside free other listed
    · exact least found group

/-- The flags differ only where several Steps start first in their group. -/
theorem flags_same (lossless : Lossless spans runs) (kept : Lossless others permuted) (texts : Textual spans)
    (perm : ((allSteps runs).map StepRecord.unordered).Perm ((allSteps permuted).map StepRecord.unordered))
    (member : step ∈ allSteps runs) (listed : other ∈ allSteps permuted) (same : step.spanId = other.spanId)
    (differ : step.repeatedExecution ≠ other.repeatedExecution) :
    ∃ original, step ∈ resumers (allSteps runs) original ∧ Tied (resumers (allSteps runs) original) step := by
  obtain ⟨twin, inside, named, start, resumed⟩ := counterpart perm member
  obtain rfl := kept.unique inside listed (named.trans same)
  rcases resumed_text lossless texts member with none_ | ⟨original, origin⟩
  · have plain : isNone step.resumedFrom = true := by rw [none_]; rfl
    rw [lossless.fresh step member plain, kept.fresh twin listed (resumed ▸ plain)] at differ
    exact absurd rfl differ
  · have group : step ∈ resumers (allSteps runs) original :=
      List.mem_filter.mpr ⟨member, pyEq_text.mpr origin⟩
    have grouped : twin ∈ resumers (allSteps permuted) original :=
      List.mem_filter.mpr ⟨listed, pyEq_text.mpr (resumed.trans origin)⟩
    refine ⟨original, group, ?_⟩
    cases flag : step.repeatedExecution with
    | false =>
        have flagged : twin.repeatedExecution = true := by
          rw [flag] at differ
          exact Bool.eq_true_of_not_eq_false (Ne.symm differ)
        exact tied_of_clear lossless kept perm group grouped same start.symm flag flagged
    | true =>
        have clear : twin.repeatedExecution = false := by
          rw [flag] at differ
          exact Bool.eq_false_of_not_eq_true (Ne.symm differ)
        have tied := tied_of_clear kept lossless perm.symm grouped group same.symm start clear flag
        exact tied.transfer perm.symm same.symm start

/-- The trees of two orders of one map are the same up to the order of records. -/
theorem finished_same (same : SameMap spans others) (filled : Filled spans drafts) (full : Filled others tables) :
    ((finished drafts).map RunRecord.unordered).Perm ((finished tables).map RunRecord.unordered) ∧
      ((allSteps (finished drafts)).map StepRecord.unordered).Perm
        ((allSteps (finished tables)).map StepRecord.unordered) := by
  have steps := steps_same same filled full
  obtain ⟨stepKeys, runKeys⟩ := keys_same same filled full
  have shared : ∀ key ∈ drafts.runs.keys, SameRun ((drafts.runs.get? key).getD blankRun)
      ((tables.runs.get? key).getD blankRun) := by
    intro key member
    obtain ⟨first, found⟩ := Option.isSome_iff_exists.mp (mem_keys_iff.mp member)
    obtain ⟨second, stored, equal⟩ := runs_same same filled full found
    rw [found, stored]
    exact equal
  rw [finished_eq, finished_eq]
  constructor
  · rw [List.map_map, List.map_map]
    refine .trans (.of_eq ?_) (runKeys.map _)
    apply List.map_congr_left
    intro key member
    exact finishRun_same steps stepKeys.length_eq (shared key member)
  · rw [allSteps, allSteps, List.flatMap_map, List.flatMap_map, List.map_flatMap, List.map_flatMap]
    apply runKeys.flatMap
    intro key member
    show ((flattenAll (assemble drafts.steps (drafts.steps.keys.length + 1) _)).map StepRecord.unordered).Perm
      ((flattenAll (assemble tables.steps (tables.steps.keys.length + 1) _)).map StepRecord.unordered)
    rw [stepKeys.length_eq]
    exact steps.assemble _ (shared key member).steps

/-- Sorting the Runs changes no record. -/
theorem sameTree_sorted (lossless : Lossless spans (byStart RunRecord.startNs (finished drafts)))
    (kept : Lossless others (byStart RunRecord.startNs (finished tables))) (texts : Textual spans)
    (same : SameMap spans others) (filled : Filled spans drafts) (full : Filled others tables) :
    SameTree (byStart RunRecord.startNs (finished drafts)) (byStart RunRecord.startNs (finished tables)) := by
  obtain ⟨runs, steps⟩ := finished_same same filled full
  have sorted : ∀ drafts : Drafts, (allSteps (byStart RunRecord.startNs (finished drafts))).Perm
      (allSteps (finished drafts)) := fun drafts => (byStart_perm _ _).flatMap_right _
  have perm := ((sorted drafts).map StepRecord.unordered).trans (steps.trans ((sorted tables).map _).symm)
  constructor
  · exact ((byStart_perm _ _).map _).trans (runs.trans ((byStart_perm _ _).map _).symm)
  · exact perm
  · intro step member other listed equal differ
    exact flags_same lossless kept texts perm member listed equal differ

/-- The tree of an accepted map is lossless, and the order of the map matters only for ties. -/
theorem tree_lossless (spans : SpanMap) (reference top : Int) (rows : List Row)
    (done : querySpans spans reference top = .ok rows) (texts : Textual spans) :
    ∃ runs, buildExecutionTree spans = .ok runs ∧ Lossless spans runs ∧
      ∀ others : SpanMap, spans.entries.items.Perm others.entries.items →
        ∃ permuted, buildExecutionTree others = .ok permuted ∧ SameTree runs permuted := by
  have accepted := (querySpans_ok.mp ⟨rows, done⟩).2
  obtain ⟨runs, built⟩ := tree_returns accepted (plain_of_textual texts)
  obtain ⟨drafts, filled, _, rfl⟩ := filled_of_built accepted built
  have lossless := lossless_finished accepted filled
  refine ⟨_, built, lossless, ?_⟩
  intro others perm
  have same := sameMap_of_perm perm
  have valid := same.accepted accepted
  have named : Textual others := fun span held => texts span (same.holds.mpr held)
  obtain ⟨permuted, rebuilt⟩ := tree_returns valid (plain_of_textual named)
  obtain ⟨tables, full, _, rfl⟩ := filled_of_built valid rebuilt
  exact ⟨_, rebuilt, sameTree_sorted lossless (lossless_finished valid full) texts same filled full⟩

end

/-- An absent value and a text pass. -/
def passesAsText : Option Json → Bool
  | none => true
  | some (.str _) => true
  | some _ => false

theorem textual_of_check {spans : SpanMap} (checked : (spans.values.all fun entry =>
    passesAsText (entry.span.attributes.get? "cord.resumed_from")) = true) : Textual spans := by
  rintro span ⟨entry, member, rfl⟩ value found
  have passes := List.all_eq_true.mp checked entry member
  rw [found] at passes
  cases value with
  | str text => exact ⟨text, rfl⟩
  | _ => cases passes

/-- The tree of the archive with two overlapping waits is lossless. -/
theorem tree_lossless_parallel : ∃ runs, buildExecutionTree parallelArchive = .ok runs ∧ Lossless parallelArchive runs ∧
    ∀ others : SpanMap, parallelArchive.entries.items.Perm others.entries.items →
      ∃ permuted, buildExecutionTree others = .ok permuted ∧ SameTree runs permuted :=
  tree_lossless parallelArchive 0 1 [] (by decide +kernel) (textual_of_check (by decide +kernel))

end Cordboard.Viewer
