import Cordboard.Proof.Archive.Producer

namespace Cordboard.Execution
open Data Archive

section
variable {E : Type} {platform : Platform} {supply : Supply} {state next : State E}
variable {context : SpanContext} {attributes base : Dict String Json} {pause own : E → Bool} {older : List (Opened E)}
variable {node : String} {resumedFrom tier : Json} {outcome : StepOutcome} {tried : AttemptOutcome} {number : Int}

/-- A span that starts under the context of another span stands under it. -/
theorem under_of_start {name : String} {given : Dict String Json} {scope : Scope E} {above : Opened E}
    (valid : context.valid = true) (same : above.context = context)
    (values : ∀ key ∈ identity, (startSpan platform supply (some context) name given scope).attributes.get? key =
      above.attributes.get? key) : Under above (startSpan platform supply (some context) name given scope) where
  parent := startSpan_parent.mpr ⟨valid, by rw [same]⟩
  trace := by rw [startSpan_trace valid, same]
  same := values

/-- The Step of a recording Run is fine when its Node is. -/
theorem step_fine (sturdy : Sturdy older) (valid : context.valid = true) {above : Opened E} (member : above ∈ older)
    (same : above.context = context) (kind : above.scope.role ≠ .attempt) (carries : Carries platform above base) :
    Fine older (stepSpan platform supply context base node resumedFrom outcome pause) ↔
      isText (some (.str node)) = true := by
  constructor
  · intro fine
    have named := fine.2.1
    rwa [stepSpan_node] at named
  · intro named
    refine ⟨?_, by rwa [stepSpan_node], above, member, kind, ?_⟩
    · exact stepSpan_carries.texts.mpr (carries.texts.mp (sturdy.texts above member).1)
    · apply under_of_start valid same
      intro key inside
      exact (stepSpan_carries key inside).trans (carries key inside).symm

/-- The Step of a resumed Run is fine when its Node is and its continuation names a span. -/
theorem resumed_fine :
    Fine state.opened (stepSpan platform supply context base node resumedFrom outcome pause) ↔
      isText (some (.str node)) = true ∧ Designated state context base := by
  constructor
  · rintro ⟨texts, named, above, member, kind, under⟩
    rw [stepSpan_node] at named
    have plain : Texts base := stepSpan_carries.texts.mp texts
    obtain ⟨valid, spanId⟩ := startSpan_parent.mp under.parent
    have trace := under.trace
    rw [stepSpan, startSpan_trace valid] at trace
    have same : above.context = context := by
      cases context
      cases found : above.context
      simp_all
    refine ⟨named, valid, plain, above, member, same, kind, fun key inside => ?_⟩
    rw [← under.same key inside, stepSpan_carries key inside, exported_of_isText (plain key inside)]
  · rintro ⟨named, valid, texts, above, member, same, kind, values⟩
    refine ⟨stepSpan_carries.texts.mpr texts, by rwa [stepSpan_node], above, member, kind, ?_⟩
    apply under_of_start valid same
    intro key inside
    rw [values key inside]
    exact (stepSpan_carries key inside).trans (exported_of_isText (texts key inside))

/-- The Attempt of a Step is fine. -/
theorem attempt_fine (sturdy : Sturdy older) (valid : context.valid = true) {above : Opened E} (member : above ∈ older)
    (same : above.context = context) (kind : above.scope.role = .step) (carries : Carries platform above attributes)
    (named : above.attributes.get? "cord.node.name" = (attributes.get? "cord.node.name").bind platform.exported) :
    Fine older (attemptSpan platform supply context attributes number tier tried pause) := by
  have checked := sturdy.texts above member
  have below : above.scope.role ≠ .run := by
    rw [kind]
    decide
  refine ⟨attemptSpan_carries.texts.mpr (carries.texts.mp checked.1), ?_, above, member, kind, ?_, ?_⟩
  · rw [attemptSpan_node, ← named]
    exact checked.2 below
  · apply under_of_start valid same
    intro key inside
    exact (attemptSpan_carries key inside).trans (carries key inside).symm
  · rw [attemptSpan_node, named]

/-- A call keeps the facts, and the spans stay sturdy exactly when the call is sound. -/
structure Kept (platform : Platform) (state : State E) (call : Call E) (next : State E) : Prop where
  inv : Inv platform next
  sturdy : Sturdy next.opened ↔ Sturdy state.opened ∧ Sound state call

section Run
variable {subject subjectType graphId runId causedByRunId cascadeDepth : Json}

/-- The Run that has passed its checks is fine when the type of its Subject is a text. -/
theorem run_fine (fresh : blank supply.uuid = false) (named : isText (some subject) = true)
    (graph : isText (some graphId) = true) (run : (isNone runId || isText (some runId)) = true) :
    Fine older (runSpan platform supply
        (runAttributes supply subject subjectType graphId runId causedByRunId cascadeDepth)) ↔
      isText (some subjectType) = true := by
  have texts := @runAttributes_texts supply subject subjectType graphId runId causedByRunId cascadeDepth fresh named graph run
  have carried := (@runSpan_carries E platform supply
    (runAttributes supply subject subjectType graphId runId causedByRunId cascadeDepth)).texts
  exact (iff_of_eq (and_true _)).trans (carried.trans texts)

theorem run_kept (inv : Inv platform state) (fresh : supply.Fresh state)
    (done : openRun platform supply state subject subjectType graphId runId causedByRunId cascadeDepth = .ok next) :
    Kept platform state (.run subject subjectType graphId runId causedByRunId cascadeDepth) next := by
  obtain ⟨named, graph, run, rfl⟩ := openRun_ok done
  constructor
  · apply inv.open fresh rfl runSpan_shaped (startSpan_valid fresh.valid)
    · intro above same
      cases same
    · intro handle member
      obtain rfl := List.mem_singleton.mp member
      exact ⟨runAttributes_plain, fun _ => ⟨fresh.valid, _, List.mem_cons_self, rfl, rfl, runSpan_carries⟩⟩
  · exact (and_congr_left' (run_fine fresh.uuid named graph run)).trans and_comm

end Run

/-- A resumed Run opens no span. -/
theorem resume_kept {continuation : RunContinuation} (inv : Inv platform state)
    (done : resumeRun platform state continuation = .ok next) :
    Kept platform state (.resumeRun continuation) next := by
  obtain ⟨traceId, _, later⟩ := bind_ok.mp done
  obtain ⟨spanId, _, later⟩ := bind_ok.mp later
  obtain rfl := Except.ok.inj later
  have plain : Plain (continuationAttributes continuation) := by
    constructor <;> simp [continuationAttributes, Dict.get?_set]
  refine ⟨⟨inv.shaped, inv.valid, inv.distinct, inv.ordered, inv.loopless, ?_, inv.bounded, inv.ended, ?_⟩, (iff_of_eq (and_true _)).symm⟩
  · intro span member above same
    rcases inv.mentioned span member above same with opened | ⟨handle, old, named⟩
    · exact .inl opened
    · exact .inr ⟨handle, List.mem_append_left _ old, named⟩
  · intro handle member
    rcases List.mem_append.mp member with old | new
    · exact inv.backed handle old
    · obtain rfl := List.mem_singleton.mp new
      exact ⟨plain, fun recorded => by cases recorded⟩

/-- The end of a span opens no span. -/
theorem close_kept {spanId : Int} {ending : Ending E} (inv : Inv platform state)
    (done : closeSpan supply state spanId ending = .ok next) : Kept platform state (.close spanId ending) next := by
  unfold closeSpan at done
  split at done
  · rename_i span found _
    obtain rfl := Except.ok.inj done
    refine ⟨⟨inv.shaped, inv.valid, inv.distinct, inv.ordered, inv.loopless, inv.mentioned, inv.bounded, ?_,
      inv.backed⟩, (iff_of_eq (and_true _)).symm⟩
    intro other closing stored
    rw [Dict.get?_set] at stored
    split at stored
    · rename_i same
      obtain rfl := Option.some.inj stored
      refine ⟨span, List.mem_of_find?_eq_some found, ?_, ending, rfl⟩
      rw [same]
      simpa using List.find?_some found
    · exact inv.ended other closing stored
  · cases done

/-- A Step opens under the context of an object of the state. -/
theorem step_inv {handle : Handle E} {value : Json} {declared : Option StepOutcome} (inv : Inv platform state)
    (fresh : supply.Fresh state) (member : handle ∈ state.handles) (plain : Plain base)
    (done : openStep platform supply state handle.context base value declared resumedFrom pause = .ok next) :
    ∃ node outcome, value = .str node ∧ Inv platform next ∧
      next.opened = stepSpan platform supply handle.context base node resumedFrom outcome pause :: state.opened := by
  obtain ⟨node, outcome, rfl, rfl⟩ := openStep_ok done
  refine ⟨node, outcome, rfl, ?_, rfl⟩
  apply inv.open fresh rfl (stepSpan_shaped plain) (startSpan_valid fresh.valid)
  · intro above same
    exact ⟨handle, member, startSpan_parent.mp same⟩
  · intro new inside
    obtain rfl := List.mem_singleton.mp inside
    refine ⟨stepAttributes_plain plain, plain, startSpan_valid fresh.valid, _, List.mem_cons_self, rfl, rfl, ?_,
      stepSpan_carries, ?_⟩
    · intro key identified
      rw [stepAttributes_identity identified]
      exact stepSpan_carries key identified
    · rw [stepSpan_node, stepAttributes_node]
      exact (platform.exported_text node).symm

/-- The Step of a Run asks for the designated span only when the Run is resumed. -/
theorem sound_step {handle : Nat} {declared : Option StepOutcome} {recording : Bool}
    (found : state.handles[handle]? = some (.run context attributes recording)) :
    Sound state (.step handle (.str node) declared resumedFrom pause) ↔
      isText (some (.str node)) = true ∧ (recording = false → Designated state context attributes) := by
  apply and_congr_right
  intro _
  constructor
  · rintro designated rfl
    exact designated context attributes found
  · intro designated other values same
    obtain ⟨rfl, rfl, rfl⟩ := Handle.run.inj (Option.some.inj (found.symm.trans same))
    exact designated rfl

theorem call_kept {call : Call E} (inv : Inv platform state) (fresh : supply.Fresh state)
    (done : perform platform supply state call = .ok next) : Kept platform state call next := by
  cases call with
  | run subject subjectType graphId runId causedByRunId cascadeDepth => exact run_kept inv fresh done
  | resumeRun continuation => exact resume_kept inv done
  | close spanId ending => exact close_kept inv done
  | step handle node outcome resumedFrom pause =>
      simp only [perform] at done
      split at done
      · rename_i context attributes recording found
        have member := List.mem_of_getElem? found
        obtain ⟨plain, recorded⟩ := inv.backed _ member
        obtain ⟨text, declared, rfl, kept, opened⟩ :=
          @step_inv E platform supply state next attributes pause resumedFrom _ _ _ inv fresh member plain done
        refine ⟨kept, ?_⟩
        rw [opened, sound_step found, Sturdy, and_comm]
        apply and_congr_right
        intro sturdy
        cases recording with
        | false =>
            simp only [forall_const]
            exact resumed_fine
        | true =>
            obtain ⟨valid, above, inside, same, kind, carries⟩ := recorded rfl
            have upper : above.scope.role ≠ .attempt := by
              rw [kind]
              decide
            simp only [Bool.true_eq_false, false_implies, and_true]
            exact step_fine sturdy valid inside same upper carries
      · cases done
  | child handle node outcome resumedFrom pause =>
      simp only [perform] at done
      split at done
      · rename_i context attributes own base found
        have member := List.mem_of_getElem? found
        obtain ⟨_, plain, valid, above, inside, same, kind, _, carries, _⟩ := inv.backed _ member
        obtain ⟨text, declared, rfl, kept, opened⟩ :=
          @step_inv E platform supply state next base _ resumedFrom _ _ _ inv fresh member plain done
        refine ⟨kept, ?_⟩
        rw [opened, Sturdy, and_comm]
        apply and_congr_right
        intro sturdy
        have upper : above.scope.role ≠ .attempt := by
          rw [kind]
          decide
        exact step_fine sturdy valid inside same upper carries
      · cases done
  | attempt handle number tier outcome =>
      simp only [perform] at done
      split at done
      · rename_i context attributes pause base found
        have member := List.mem_of_getElem? found
        obtain ⟨plain, _, valid, above, inside, same, kind, carries, _, named⟩ := inv.backed _ member
        obtain ⟨count, tried, positive, tiered, rfl⟩ := openAttempt_ok done
        constructor
        · apply inv.open fresh rfl (attemptSpan_shaped plain positive tiered) (startSpan_valid fresh.valid)
          · intro id parent
            exact ⟨_, member, startSpan_parent.mp parent⟩
          · intro handle new
            cases new
        · constructor
          · rintro ⟨_, sturdy⟩
            exact ⟨sturdy, trivial⟩
          · rintro ⟨sturdy, _⟩
            exact ⟨attempt_fine sturdy valid inside same kind carries named, sturdy⟩
      · cases done

/-- The spans of a producer are sturdy exactly when all its calls were sound. -/
theorem produced_sturdy {past : List (State E × Call E)} (produced : Produced platform past state) :
    Inv platform state ∧ (Sturdy state.opened ↔ ∀ moment ∈ past, Sound moment.1 moment.2) := by
  induction produced with
  | start => exact ⟨inv_empty, by simp [State.empty, Sturdy]⟩
  | call before fresh done ih =>
      have kept := call_kept ih.1 fresh done
      refine ⟨kept.inv, kept.sturdy.trans ?_⟩
      rw [List.forall_mem_cons, ih.2, and_comm]

end

end Cordboard.Execution
