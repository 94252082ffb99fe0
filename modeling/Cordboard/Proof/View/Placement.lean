import Cordboard.Proof.View.Assembly

namespace Cordboard.Viewer
open Data Archive

section
variable {spans : SpanMap} {reference : Int} {drafts : Drafts} {span root : Span} {path : List Span} {key : String}

/-- A path of spans is a path of their identifiers. -/
theorem path_ids (climbs : Path (parentOf spans) span path root) (held : spans.holds span) :
    Path (parentKey spans) span.spanId (path.map Span.spanId) root.spanId := by
  induction climbs with
  | stop span => exact .stop _
  | step up rest ih =>
      have parent := parentKey_of_holds held
      rw [up, Option.map_some] at parent
      exact .step parent (ih (holds_parent up))

/-- Each Step of an accepted map has a path to a Run, which is not longer than the table of the Steps. -/
theorem step_path (accepted : Accepted spans reference) (filled : Filled spans drafts)
    (member : key ∈ drafts.steps.keys) :
    ∃ keys root, Path (parentKey spans) key keys root ∧ root ∈ drafts.runs.keys ∧ key ≠ root ∧
      keys.length ≤ drafts.steps.keys.length + 1 ∧ keys ⊆ root :: drafts.steps.keys := by
  obtain ⟨draft, found⟩ := Option.isSome_iff_exists.mp (mem_keys_iff.mp member)
  obtain ⟨span, held, step, rfl, _⟩ := filled.steps key draft found
  obtain ⟨path, root, rooted⟩ := accepted.chain held step (by decide)
  have inside := fun other member => (rooted.agree other member).1
  have rootless := accepted.run_alone (inside root rooted.climbs.last_mem) rooted.top
  have run : root.spanId ∈ drafts.runs.keys :=
    filled.runKeys.mem_iff.mpr (List.mem_map_of_mem (mem_spansOf.mpr ⟨inside root rooted.climbs.last_mem, rooted.top⟩))
  have covered : path.map Span.spanId ⊆ root.spanId :: drafts.steps.keys := by
    intro id listed
    obtain ⟨other, visited, rfl⟩ := List.mem_map.mp listed
    have kind : other = root ∨ role other = .ok (some .step) := by
      obtain ⟨rest, rfl⟩ := rooted.climbs.head
      rcases List.mem_cons.mp visited with rfl | later
      · exact .inr step
      · exact rooted.through other later
    rcases kind with rfl | below
    · exact List.mem_cons_self
    · apply List.mem_cons_of_mem
      exact filled.stepKeys.mem_iff.mpr (List.mem_map_of_mem (mem_spansOf.mpr ⟨inside other visited, below⟩))
  have shorter := (List.subperm_of_subset (once_of_path rooted.climbs held rootless) covered).length_le
  refine ⟨_, _, path_ids rooted.climbs held, run, ?_, by simpa using shorter, covered⟩
  intro same
  obtain rfl := holds_inj held (inside root rooted.climbs.last_mem) same
  rw [rooted.top] at step
  cases step

theorem run_parentless (accepted : Accepted spans reference) (filled : Filled spans drafts)
    (member : key ∈ drafts.runs.keys) : parentKey spans key = none := by
  obtain ⟨draft, found⟩ := Option.isSome_iff_exists.mp (mem_keys_iff.mp member)
  obtain ⟨span, held, run, rfl, _⟩ := filled.runs key draft found
  rw [parentKey_of_holds held, accepted.run_alone held run, Option.map_none]

/-- No Step of the table is a Run of the table. -/
theorem keys_apart (filled : Filled spans drafts) (step : key ∈ drafts.steps.keys) : key ∉ drafts.runs.keys := by
  intro run
  obtain ⟨draft, found⟩ := Option.isSome_iff_exists.mp (mem_keys_iff.mp step)
  obtain ⟨other, stored⟩ := Option.isSome_iff_exists.mp (mem_keys_iff.mp run)
  obtain ⟨span, held, below, rfl, _⟩ := filled.steps key draft found
  obtain ⟨root, also, top, same, _⟩ := filled.runs _ other stored
  obtain rfl := holds_inj also held same
  rw [below] at top
  cases top

/-- The children of a Step in the table name it as their parent. -/
theorem parent_of_child (filled : Filled spans drafts) {draft : StepDraft} (found : drafts.steps.get? key = some draft)
    {child : String} (member : child ∈ draft.childSteps) :
    child ∈ drafts.steps.keys ∧ parentKey spans child = some key := by
  obtain ⟨span, _, _, rfl, _, _, children⟩ := filled.steps key draft found
  obtain ⟨below, listed, rfl⟩ := List.mem_map.mp (children.mem_iff.mp member)
  obtain ⟨inside, up⟩ := List.mem_filter.mp listed
  exact ⟨filled.stepKeys.mem_iff.mpr (List.mem_map_of_mem inside), of_decide_eq_true up⟩

theorem parent_of_top (filled : Filled spans drafts) {draft : RunDraft} (found : drafts.runs.get? key = some draft)
    {child : String} (member : child ∈ draft.steps) : child ∈ drafts.steps.keys ∧ parentKey spans child = some key := by
  obtain ⟨span, _, _, rfl, _, children⟩ := filled.runs key draft found
  obtain ⟨below, listed, rfl⟩ := List.mem_map.mp (children.mem_iff.mp member)
  obtain ⟨inside, up⟩ := List.mem_filter.mp listed
  exact ⟨filled.stepKeys.mem_iff.mpr (List.mem_map_of_mem inside), of_decide_eq_true up⟩

/-- The longer the path to the Run, the less remains below the Step. -/
theorem within_of_path (accepted : Accepted spans reference) (filled : Filled spans drafts) {fuel : Nat}
    (member : key ∈ drafts.steps.keys) {keys : List String} {last : String}
    (climbs : Path (parentKey spans) key keys last) (ended : parentKey spans last = none)
    (enough : drafts.steps.keys.length + 1 < keys.length + fuel) : Within drafts.steps fuel key := by
  induction fuel generalizing key keys with
  | zero =>
      obtain ⟨others, root, path, run, _, short, _⟩ := step_path accepted filled member
      obtain ⟨rfl, _⟩ := climbs.unique ended path (run_parentless accepted filled run)
      omega
  | succ fuel ih =>
      obtain ⟨draft, found⟩ := Option.isSome_iff_exists.mp (mem_keys_iff.mp member)
      refine .step found fun child below => ?_
      obtain ⟨known, up⟩ := parent_of_child filled found below
      exact ih known (.step up climbs) (by rw [List.length_cons]; omega)

/-- The Steps of a Run in the table are assembled within the bound. -/
theorem within_of_run (accepted : Accepted spans reference) (filled : Filled spans drafts) {draft : RunDraft}
    (found : drafts.runs.get? key = some draft) :
    ∀ child ∈ draft.steps, Within drafts.steps (drafts.steps.keys.length + 1) child := by
  intro child member
  obtain ⟨known, up⟩ := parent_of_top filled found member
  have ended := run_parentless accepted filled (Dict.mem_keys_of_get? found)
  exact within_of_path accepted filled known (.step up (.stop key)) ended (by simp)

/-- The Runs of the tree, in the order of the table. -/
def finished (drafts : Drafts) : List RunRecord := drafts.runs.items.map fun item => finishRun drafts.steps item.2

theorem mem_finished {run : RunRecord} (member : run ∈ finished drafts) :
    ∃ key draft, drafts.runs.get? key = some draft ∧ run = finishRun drafts.steps draft := by
  obtain ⟨item, listed, rfl⟩ := List.mem_map.mp member
  exact ⟨item.1, item.2, (Dict.get?_eq_some_iff _ _ _).mpr listed, rfl⟩

theorem allSteps_assembled (accepted : Accepted spans reference) (filled : Filled spans drafts) {step : StepRecord}
    (member : step ∈ allSteps (finished drafts)) : ∃ draft, Assembled drafts.steps step draft := by
  obtain ⟨run, listed, inside⟩ := List.mem_flatMap.mp member
  obtain ⟨key, draft, found, rfl⟩ := mem_finished listed
  exact assembled_of_mem (within_of_run accepted filled found) inside

theorem mem_under {kind : Role} {above child : String} :
    child ∈ (under spans above (spansOf spans kind)).map Span.spanId ↔
      child ∈ (spansOf spans kind).map Span.spanId ∧ parentKey spans child = some above := by
  simp only [under, List.mem_map, List.mem_filter, decide_eq_true_eq]
  constructor
  · rintro ⟨span, ⟨member, up⟩, rfl⟩
    exact ⟨⟨span, member, rfl⟩, up⟩
  · rintro ⟨⟨span, member, rfl⟩, up⟩
    exact ⟨span, ⟨member, up⟩, rfl⟩

theorem under_nodup (spans : SpanMap) (above : String) (kind : Role) :
    ((under spans above (spansOf spans kind)).map Span.spanId).Nodup :=
  (spanIds_nodup spans kind).sublist (List.filter_sublist.map Span.spanId)

/-- A Step stands once below its parent, and below no other span. -/
theorem count_under (filled : Filled spans drafts) {child up : String} (known : child ∈ drafts.steps.keys)
    (parent : parentKey spans child = some up) (above : String) :
    ((under spans above (spansOf spans .step)).map Span.spanId).count child = if above = up then 1 else 0 := by
  rw [List.Nodup.count (under_nodup spans above .step)]
  have listed := filled.stepKeys.mem_iff.mp known
  simp only [mem_under, listed, parent, true_and, Option.some.injEq]
  by_cases same : above = up
  · rw [if_pos same, if_pos same.symm]
  · rw [if_neg same, if_neg (Ne.symm same)]

theorem sum_keys (keys : List String) (distinct : keys.Nodup) (up : String) :
    (keys.map fun key => if key = up then 1 else 0).sum = if up ∈ keys then 1 else 0 := by
  rw [← List.Nodup.count distinct]
  induction keys with
  | nil => rfl
  | cons key rest ih =>
      rw [List.map_cons, List.sum_cons, ih (List.nodup_cons.mp distinct).2, List.count_cons, Nat.add_comm]
      simp only [beq_iff_eq]

/-- The tops of the Runs list a Step once when its parent is a Run. -/
theorem count_tops (accepted : Accepted spans reference) (filled : Filled spans drafts) {child up : String}
    (known : child ∈ drafts.steps.keys) (parent : parentKey spans child = some up) :
    (((finished drafts).flatMap RunRecord.steps).map StepRecord.spanId).count child =
      if up ∈ drafts.runs.keys then 1 else 0 := by
  have distinct : drafts.runs.keys.Nodup := drafts.runs.distinct
  rw [← sum_keys _ distinct, List.map_flatMap, List.count_flatMap, finished, List.map_map, Dict.keys,
    List.map_map]
  congr 1
  apply List.map_congr_left
  intro item member
  have found := (Dict.get?_eq_some_iff _ _ _).mpr member
  obtain ⟨span, _, _, _, _, steps⟩ := filled.runs item.1 item.2 found
  have ids : ((finishRun drafts.steps item.2).steps.map StepRecord.spanId).Perm item.2.steps :=
    assemble_ids (within_of_run accepted filled found)
  exact (ids.count_eq child).trans ((steps.count_eq child).trans (count_under filled known parent item.1))

/-- The tree holds each Step of the table once. -/
theorem steps_once (accepted : Accepted spans reference) (filled : Filled spans drafts) :
    ((allSteps (finished drafts)).map StepRecord.spanId).Perm drafts.steps.keys := by
  have inside : ∀ key ∈ (allSteps (finished drafts)).map StepRecord.spanId, key ∈ drafts.steps.keys := by
    intro key member
    obtain ⟨step, listed, rfl⟩ := List.mem_map.mp member
    obtain ⟨draft, assembled⟩ := allSteps_assembled accepted filled listed
    exact Dict.mem_keys_of_get? assembled.stored
  have listing : ((allSteps (finished drafts)).map StepRecord.spanId).Perm
      (((finished drafts).flatMap RunRecord.steps).map StepRecord.spanId ++
        ((allSteps (finished drafts)).map StepRecord.spanId).flatMap fun above =>
          (under spans above (spansOf spans .step)).map Span.spanId) := by
    rw [allSteps_eq]
    refine (flattenAll_ids _).trans (.append_left _ ?_)
    rw [← allSteps_eq, List.flatMap_map]
    apply List.Perm.flatMap_left
    intro step member
    obtain ⟨draft, assembled⟩ := allSteps_assembled accepted filled member
    obtain ⟨span, _, _, _, _, _, children⟩ := filled.steps _ draft assembled.stored
    exact assembled.children.trans children
  have distinct : drafts.steps.keys.Nodup := drafts.steps.distinct
  apply List.perm_iff_count.mpr
  intro key
  rw [List.Nodup.count distinct]
  by_cases known : key ∈ drafts.steps.keys
  · obtain ⟨keys, root, path, run, below, _, covered⟩ := step_path accepted filled known
    have ended := run_parentless accepted filled run
    have recorded : ∀ node ∈ keys, ∀ up, parentKey spans node = some up → node ∈ drafts.steps.keys := by
      intro node member up parent
      rcases List.mem_cons.mp (covered member) with rfl | step
      · rw [ended] at parent
        cases parent
      · exact step
    have apart : ∀ root, parentKey spans root = none → root ∉ (allSteps (finished drafts)).map StepRecord.spanId := by
      intro root parentless member
      obtain ⟨others, top, climbs, _, different, _, _⟩ := step_path accepted filled (inside root member)
      cases climbs with
      | stop => exact different rfl
      | step up rest =>
          rw [parentless] at up
          cases up
    rw [if_pos known, Path.count_listing listing apart (fun root => run_parentless accepted filled) path ended below
      (fun node member up parent => count_tops accepted filled (recorded node member up parent) parent)
      (fun node member up parent above _ => count_under filled (recorded node member up parent) parent above),
      if_pos run]
  · rw [if_neg known, List.count_eq_zero.mpr fun member => known (inside key member)]

end

end Cordboard.Viewer
