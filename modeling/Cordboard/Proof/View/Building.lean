import Cordboard.Construction.Viewer.Tree
import Cordboard.Proof.Archive.Accepting
import Cordboard.Proof.Archive.Twins

namespace Cordboard.Viewer
open Data Archive

section
variable {spans : SpanMap} {reference : Int} {span root : Span} {path : List Span} {drafts next : Drafts}

theorem member_of_text {key : String} (text : isText (span.attributes.get? key) = true) :
    ∃ own, member span key = .ok (.str own) := by
  unfold member
  generalize span.attributes.get? key = value at text ⊢
  rcases value with _ | (_ | _ | _ | _ | own | _ | _)
  case some.str => exact ⟨own, rfl⟩
  all_goals cases text

theorem member_of_outcome {key : String} {texts : List String}
    (listed : isOneOf (span.attributes.get? key) texts = true) : ∃ value, member span key = .ok value := by
  unfold member
  generalize span.attributes.get? key = value at listed ⊢
  cases value with
  | none => cases listed
  | some value => exact ⟨value, rfl⟩

/-- A Step of an accepted map has a Node and an outcome. -/
theorem step_members {value : Option (String × String)} (checked : querySpan spans reference span = .ok value)
    (kind : role span = .ok (some .step)) :
    (∃ node, member span "cord.node.name" = .ok node) ∧ ∃ outcome, member span "cord.outcome" = .ok outcome := by
  have node := (accepted_texts checked kind).2 (by decide)
  obtain ⟨own, named⟩ := member_of_text node
  obtain ⟨found, known, later⟩ := bind_ok.mp checked
  obtain rfl : found = some .step := Except.ok.inj (known.symm.trans kind)
  obtain ⟨_, later⟩ := require_bind_ok.mp later
  obtain ⟨_, later⟩ := require_bind_ok.mp later
  obtain ⟨_, stepped, _⟩ := bind_ok.mp later
  obtain ⟨outcome, _⟩ := require_bind_ok.mp stepped
  exact ⟨⟨_, named⟩, member_of_outcome outcome⟩

/-- An Attempt of an accepted map has a number, an outcome, and a Step. -/
theorem attempt_members {value : Option (String × String)} (checked : querySpan spans reference span = .ok value)
    (kind : role span = .ok (some .attempt)) :
    (∃ number, member span "cord.step.attempt" = .ok number) ∧ (∃ outcome, member span "cord.outcome" = .ok outcome) ∧
      ∃ step, parent spans span .step = .ok step := by
  obtain ⟨found, known, later⟩ := bind_ok.mp checked
  obtain rfl : found = some .attempt := Except.ok.inj (known.symm.trans kind)
  obtain ⟨_, later⟩ := require_bind_ok.mp later
  obtain ⟨_, later⟩ := require_bind_ok.mp later
  obtain ⟨positive, later⟩ := require_bind_ok.mp later
  obtain ⟨outcome, later⟩ := require_bind_ok.mp later
  obtain ⟨step, above, _⟩ := bind_ok.mp later
  refine ⟨?_, member_of_outcome outcome, step, above⟩
  unfold member
  generalize span.attributes.get? "cord.step.attempt" = number at positive ⊢
  cases number with
  | none => cases positive
  | some number => exact ⟨number, rfl⟩

/-- The Steps of the table name the Steps that they resume by values that can be keys. -/
def Drafts.Keyed (drafts : Drafts) : Prop :=
  ∀ key draft, drafts.steps.get? key = some draft → draft.resumedFrom.hashable = true

theorem Drafts.Keyed.set (keyed : drafts.Keyed) {step : String} {draft : StepDraft}
    (plain : draft.resumedFrom.hashable = true) : Drafts.Keyed { drafts with steps := drafts.steps.set step draft } := by
  intro key other found
  rw [Dict.get?_set] at found
  split at found
  · obtain rfl := Option.some.inj found
    exact plain
  · exact keyed key other found

theorem Drafts.Keyed.attachToRun (keyed : drafts.Keyed) (run step : String) : (drafts.attachToRun run step).Keyed := by
  unfold Drafts.attachToRun
  split
  · exact keyed
  · exact keyed

theorem Drafts.Keyed.attachToStep (keyed : drafts.Keyed) (above step : String) :
    (drafts.attachToStep above step).Keyed := by
  unfold Drafts.attachToStep
  split
  · rename_i draft found
    exact keyed.set (keyed above draft found)
  · exact keyed

theorem Drafts.Keyed.attachAttempt (keyed : drafts.Keyed) (step : String) (attempt : AttemptRecord) :
    (drafts.attachAttempt step attempt).Keyed := by
  unfold Drafts.attachAttempt
  split
  · rename_i draft found
    exact keyed.set (keyed step draft found)
  · exact keyed

/-- A program over the tables returns, and its tables stay keyed. -/
abbrev Grows (outcome : Checked Drafts) : Prop := ∃ next, outcome = .ok next ∧ next.Keyed

theorem ensureRun_grows (keyed : drafts.Keyed)
    (texts : identity.all (fun key => isText (span.attributes.get? key)) = true) : Grows (ensureRun drafts span) := by
  have each : ∀ key ∈ identity, ∃ own, member span key = .ok (.str own) :=
    fun key listed => member_of_text (List.all_eq_true.mp texts key listed)
  obtain ⟨graph, graphId⟩ := each "cord.graph.id" (by decide)
  obtain ⟨run, runId⟩ := each "cord.run.id" (by decide)
  obtain ⟨type, subjectType⟩ := each "cord.subject.type" (by decide)
  obtain ⟨subject, subjectId⟩ := each "cord.subject.id" (by decide)
  unfold ensureRun
  split
  · exact ⟨drafts, rfl, keyed⟩
  · simp only [textAttribute, graphId, runId, subjectType, subjectId, bind, Except.bind]
    exact ⟨_, rfl, keyed⟩

/-- Each Step of the map names the Step that it resumes by a value that can be a key. -/
def Plain (spans : SpanMap) : Prop :=
  ∀ span, spans.holds span → role span = .ok (some .step) →
    ((span.attributes.get? "cord.resumed_from").getD .null).hashable = true

/-- A Step is recorded along its path to the Run. -/
theorem ensureStep_grows (accepted : Accepted spans reference) (plain : Plain spans) {fuel : Nat}
    (climbs : Path (parentOf spans) span path root) (held : spans.holds span) (step : role span = .ok (some .step))
    (top : role root = .ok (some .run)) (through : ∀ other ∈ path, other = root ∨ role other = .ok (some .step))
    (enough : path.length ≤ fuel) (keyed : drafts.Keyed) : Grows (ensureStep spans fuel drafts span) := by
  induction climbs generalizing fuel drafts with
  | stop span =>
      rw [step] at top
      cases top
  | @step span above root path up rest ih =>
      obtain ⟨fuel, rfl⟩ : ∃ rest, fuel = rest + 1 := by
        rw [List.length_cons] at enough
        exact Nat.exists_eq_add_one.mpr (by omega)
      obtain ⟨value, checked⟩ := accepted.checked held
      obtain ⟨⟨node, named⟩, outcome, ended⟩ := step_members checked step
      obtain ⟨entry, got, rfl⟩ := parentOf_some.mp up
      have higher := holds_parent up
      unfold ensureStep
      split
      · exact ⟨drafts, rfl, keyed⟩
      · simp only [named, ended, spanAt, got, bind, Except.bind]
        have recorded := fun draft : StepDraft => fun plain : draft.resumedFrom.hashable = true =>
          @Drafts.Keyed.set drafts keyed span.spanId draft plain
        have own := recorded ⟨node, outcome, span.startTimeUnixNano, span.endTimeUnixNano,
          (span.attributes.get? "cord.resumed_from").getD .null, [], []⟩ (plain span held step)
        obtain ⟨others, rfl⟩ := rest.head
        rcases through entry.span (by simp) with same | upper
        · have run : role entry.span = .ok (some .run) := same ▸ top
          obtain ⟨_, read⟩ := accepted.checked higher
          obtain ⟨next, done, kept⟩ := ensureRun_grows own (accepted_texts read run).1
          rw [run]
          dsimp only
          rw [done]
          exact ⟨_, rfl, kept.attachToRun _ _⟩
        · obtain ⟨next, done, kept⟩ := ih higher upper top
            (fun other member => through other (List.mem_cons_of_mem _ member)) (by simpa using enough) own
          rw [upper]
          dsimp only
          rw [done]
          exact ⟨_, rfl, kept.attachToStep _ _⟩

theorem ensureStep_returns (accepted : Accepted spans reference) (plain : Plain spans) (held : spans.holds span)
    (step : role span = .ok (some .step)) (keyed : drafts.Keyed) :
    Grows (ensureStep spans (depthBound spans) drafts span) := by
  obtain ⟨path, root, rooted⟩ := accepted.chain held step (by decide)
  have rootless := accepted.run_alone (rooted.agree root rooted.climbs.last_mem).1 rooted.top
  have few := length_of_path rooted.climbs held rootless
  apply ensureStep_grows accepted plain rooted.climbs held step rooted.top _ (Nat.le_succ_of_le few) keyed
  intro other member
  obtain ⟨others, same⟩ := rooted.climbs.head
  rw [same] at member
  rcases List.mem_cons.mp member with rfl | later
  · exact .inr step
  · apply rooted.through other
    rw [same]
    exact later

/-- Each span of an accepted map finds its place in the tables. -/
theorem visitSpan_grows (accepted : Accepted spans reference) (plain : Plain spans) (held : spans.holds span)
    (keyed : drafts.Keyed) : Grows (visitSpan spans drafts span) := by
  obtain ⟨value, checked⟩ := accepted.checked held
  obtain ⟨kind, known, _⟩ := bind_ok.mp checked
  unfold visitSpan
  rw [known]
  rcases kind with _ | (_ | _ | _)
  · exact ⟨drafts, rfl, keyed⟩
  · exact ensureRun_grows keyed (accepted_texts checked known).1
  · exact ensureStep_returns accepted plain held known keyed
  · obtain ⟨⟨number, counted⟩, ⟨outcome, ended⟩, step, above⟩ := attempt_members checked known
    obtain ⟨up, kind, _⟩ := parent_ok above
    obtain ⟨next, done, kept⟩ := ensureStep_returns accepted plain (holds_parent up) kind keyed
    simp only [above, done, counted, ended, bind, Except.bind]
    exact ⟨_, rfl, kept.attachAttempt _ _⟩

theorem visitSpans_grows (accepted : Accepted spans reference) (plain : Plain spans) {entries : List Entry}
    (inside : ∀ entry ∈ entries, entry ∈ spans.values) (keyed : drafts.Keyed) :
    Grows (visitSpans spans entries drafts) := by
  induction entries generalizing drafts with
  | nil => exact ⟨drafts, rfl, keyed⟩
  | cons entry rest ih =>
      obtain ⟨own, others⟩ := List.forall_mem_cons.mp inside
      obtain ⟨next, done, kept⟩ := visitSpan_grows accepted plain ⟨entry, own, rfl⟩ keyed
      obtain ⟨last, finished, stays⟩ := ih others kept
      exact ⟨last, bind_ok.mpr ⟨next, at_ok.mpr done, finished⟩, stays⟩

/-- The tree of an accepted map is built when each resumed Step can be a key. -/
theorem tree_returns (accepted : Accepted spans reference) (plain : Plain spans) :
    ∃ runs, buildExecutionTree spans = .ok runs := by
  have keyed : Drafts.empty.Keyed := by
    intro key draft found
    cases found
  obtain ⟨drafts, visited, kept⟩ := visitSpans_grows accepted plain (fun entry member => member) keyed
  have checked : checkResumed drafts.steps = .ok () := by
    apply if_pos
    apply List.all_eq_true.mpr
    intro item member
    exact kept item.1 item.2 ((Dict.get?_eq_some_iff _ _ _).mpr member)
  obtain ⟨rows, validated⟩ := (@querySpans_ok spans 0 1).mpr ⟨by decide, accepted.at⟩
  unfold buildExecutionTree
  split
  · rw [validated, visited]
    simp only [bind, Except.bind, checked]
    exact ⟨_, rfl⟩
  · rw [visited]
    simp only [bind, Except.bind, checked]
    exact ⟨_, rfl⟩

end

end Cordboard.Viewer
