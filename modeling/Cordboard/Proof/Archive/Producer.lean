import Cordboard.Construction.Archive.Execution
import Cordboard.Proof.Archive.Checked

namespace Cordboard.Execution
open Data Archive

section
variable {E : Type}

/-- The role that the reader finds in a span of this scope. -/
def Scope.role : Scope E → Role
  | .run => .run
  | .step _ => .step
  | .attempt _ => .attempt

/-- The identity values are texts. -/
def Texts (attributes : Dict String Json) : Prop := ∀ key ∈ identity, isText (attributes.get? key) = true

/-- The span carries the exported identity values of these attributes. -/
def Carries (platform : Platform) (span : Opened E) (attributes : Dict String Json) : Prop :=
  ∀ key ∈ identity, span.attributes.get? key = (attributes.get? key).bind platform.exported

/-- What a span shows about itself once it is open. -/
def Shaped (span : Opened E) : Prop :=
  match span.scope with
  | .run => span.name = "run" ∧ span.parent = none ∧ span.attributes.get? "cord.step.attempt" = none ∧
      span.attributes.get? "cord.node.name" = none ∧
      span.attributes.get? "cord.semconv.version" = some (.str semconvVersion)
  | .step _ => (∃ node, span.name = "step:" ++ node) ∧ span.attributes.get? "cord.step.attempt" = none ∧
      isOneOf (span.attributes.get? "cord.outcome") (stepOutcomes.map StepOutcome.value) = true
  | .attempt _ => span.name = "attempt" ∧ isPositive (span.attributes.get? "cord.step.attempt") = true ∧
      isOneOf (span.attributes.get? "cord.outcome") (attemptOutcomes.map AttemptOutcome.value) = true ∧
      (span.attributes.get? "cord.tier" = none ∨ isText (span.attributes.get? "cord.tier") = true)

/-- The one span is the parent of the other, in its trace and with its identity. -/
structure Under (above span : Opened E) : Prop where
  parent : span.parent = some above.context.spanId
  trace : above.context.traceId = span.context.traceId
  same : ∀ key ∈ identity, span.attributes.get? key = above.attributes.get? key

/-- The reader has nothing against the span when these spans are older. -/
def Fine (older : List (Opened E)) (span : Opened E) : Prop :=
  Texts span.attributes ∧
  match span.scope with
  | .run => True
  | .step _ => isText (span.attributes.get? "cord.node.name") = true ∧
      ∃ above ∈ older, above.scope.role ≠ .attempt ∧ Under above span
  | .attempt _ => isText (span.attributes.get? "cord.node.name") = true ∧
      ∃ above ∈ older, above.scope.role = .step ∧ Under above span ∧
        span.attributes.get? "cord.node.name" = above.attributes.get? "cord.node.name"

/-- Each span is fine above the spans that are older. -/
def Sturdy : List (Opened E) → Prop
  | [] => True
  | span :: older => Fine older span ∧ Sturdy older

/-- These keys belong to Attempts only. -/
structure Plain (attributes : Dict String Json) : Prop where
  attempt : attributes.get? "cord.step.attempt" = none
  tier : attributes.get? "cord.tier" = none

/-- The object of a call stands for a span, unless it is a resumed Run. -/
def Handle.Backed (platform : Platform) (opened : List (Opened E)) : Handle E → Prop
  | .run context attributes recording => Plain attributes ∧ (recording = true →
      context.valid = true ∧ ∃ span ∈ opened, span.context = context ∧ span.scope.role = .run ∧
        Carries platform span attributes)
  | .step context attributes _ base => Plain attributes ∧ Plain base ∧ context.valid = true ∧
      ∃ span ∈ opened, span.context = context ∧ span.scope.role = .step ∧ Carries platform span attributes ∧
        Carries platform span base ∧
        span.attributes.get? "cord.node.name" = (attributes.get? "cord.node.name").bind platform.exported

theorem get?_setOptional {attributes : Dict String Json} {key other : String} {value : Json} :
    (setOptional attributes key value).get? other =
      if other = key ∧ isNone value = false then some value else attributes.get? other := by
  unfold setOptional
  cases isNone value
  · simp [Dict.get?_set]
  · simp

variable {platform : Platform} {supply : Supply}

theorem exported_isText {value : Option Json} : isText (value.bind platform.exported) = isText value := by
  rcases value with _ | value
  · rfl
  · cases changed : platform.exported value with
    | none =>
        cases value with
        | str text =>
            rw [platform.exported_text] at changed
            cases changed
        | _ => simp [changed, isText]
    | some other =>
        cases other with
        | str text =>
            obtain rfl := platform.text_of_exported value text changed
            simp [changed]
        | _ =>
            cases value with
            | str text =>
                rw [platform.exported_text] at changed
                cases changed
            | _ => simp [changed, isText]

/-- A text value is exported as it is. -/
theorem exported_of_isText {value : Option Json} (text : isText value = true) : value.bind platform.exported = value := by
  rcases value with _ | (_ | _ | _ | _ | text | _ | _)
  case some.str => exact platform.exported_text _
  all_goals cases text

section Start
variable {parent : Option SpanContext} {name : String} {attributes : Dict String Json} {scope : Scope E}

@[simp] theorem startSpan_spanId :
    (startSpan platform supply parent name attributes scope).context.spanId = supply.context.spanId := rfl

@[simp] theorem startSpan_name : (startSpan platform supply parent name attributes scope).name = name := rfl

@[simp] theorem startSpan_scope : (startSpan platform supply parent name attributes scope).scope = scope := rfl

@[simp] theorem startSpan_attribute {key : String} :
    (startSpan platform supply parent name attributes scope).attributes.get? key =
      (attributes.get? key).bind platform.exported :=
  Dict.get?_filterMap _ _ _

@[simp] theorem startSpan_root :
    (startSpan platform supply none name attributes scope).parent = none ∧
      (startSpan platform supply none name attributes scope).context = supply.context :=
  ⟨rfl, rfl⟩

theorem startSpan_parent {context : SpanContext} {above : Int} :
    (startSpan platform supply (some context) name attributes scope).parent = some above ↔
      context.valid = true ∧ context.spanId = above := by
  cases valid : context.valid <;> simp [startSpan, Option.filter, valid]

theorem startSpan_trace {context : SpanContext} (valid : context.valid = true) :
    (startSpan platform supply (some context) name attributes scope).context.traceId = context.traceId := by
  simp [startSpan, Option.filter, valid]

/-- The ids of a new span are valid. -/
theorem startSpan_valid (fresh : supply.context.valid = true) :
    (startSpan platform supply parent name attributes scope).context.valid = true := by
  rcases parent with _ | context
  · exact fresh
  · cases valid : context.valid
    · have root : (startSpan platform supply (some context) name attributes scope).context = supply.context := by
        simp [startSpan, Option.filter, valid]
      rw [root]
      exact fresh
    · simp only [SpanContext.valid, decide_eq_true_eq] at fresh ⊢
      rw [startSpan_trace valid, startSpan_spanId]
      simp only [SpanContext.valid, decide_eq_true_eq] at valid
      exact ⟨valid.1, valid.2.1, fresh.2.2⟩

end Start

section Steps
variable {state next : State E}

theorem check_bind {condition : Bool} {raised : Raised} {A : Type} {rest : Unit → Except Raised A} {value : A} :
    (check condition raised >>= rest) = .ok value ↔ condition = true ∧ rest () = .ok value := by
  unfold check
  cases condition
  · constructor
    · intro same
      cases same
    · rintro ⟨holds, _⟩
      cases holds
  · constructor
    · exact fun done => ⟨rfl, done⟩
    · rintro ⟨_, done⟩
      exact done

theorem expected_bind {A B : Type} {value : Option A} {rest : A → Except Raised B} {result : B} :
    (expected value >>= rest) = .ok result ↔ ∃ outcome, value = some outcome ∧ rest outcome = .ok result := by
  cases value with
  | none =>
      constructor
      · intro same
        cases same
      · rintro ⟨_, same, _⟩
        cases same
  | some outcome =>
      constructor
      · exact fun done => ⟨outcome, rfl, done⟩
      · rintro ⟨_, same, done⟩
        obtain rfl := Option.some.inj same
        exact done

/-- The attributes of a Step are those of its base and its Node. -/
def stepAttributes (base : Dict String Json) (node resumedFrom : Json) : Dict String Json :=
  setOptional (base.set "cord.node.name" node) "cord.resumed_from" resumedFrom

/-- The span of a Step. -/
def stepSpan (platform : Platform) (supply : Supply) (parent : SpanContext) (base : Dict String Json) (node : String)
    (resumedFrom : Json) (outcome : StepOutcome) (pause : E → Bool) : Opened E :=
  startSpan platform supply (some parent) ("step:" ++ node)
    ((stepAttributes base (.str node) resumedFrom).set "cord.outcome" (.str outcome.value)) (.step pause)

theorem openStep_ok {parent : SpanContext} {base : Dict String Json} {node resumedFrom : Json}
    {outcome : Option StepOutcome} {pause : E → Bool}
    (done : openStep platform supply state parent base node outcome resumedFrom pause = .ok next) :
    ∃ text outcome, node = .str text ∧
      next = state.open (stepSpan platform supply parent base text resumedFrom outcome pause)
        [.step (stepSpan platform supply parent base text resumedFrom outcome pause).context
          (stepAttributes base (.str text) resumedFrom) pause base] := by
  obtain ⟨outcome, _, later⟩ := expected_bind.mp done
  obtain ⟨_, later⟩ := check_bind.mp later
  obtain ⟨_, later⟩ := check_bind.mp later
  cases node with
  | str text => exact ⟨text, outcome, rfl, (Except.ok.inj later).symm⟩
  | _ => cases later

/-- The span of an Attempt. -/
def attemptSpan (platform : Platform) (supply : Supply) (parent : SpanContext) (attributes : Dict String Json)
    (number : Int) (tier : Json) (outcome : AttemptOutcome) (pause : E → Bool) : Opened E :=
  startSpan platform supply (some parent) "attempt"
    (setOptional ((attributes.set "cord.step.attempt" (.int number)).set "cord.outcome" (.str outcome.value))
      "cord.tier" tier) (.attempt pause)

theorem openAttempt_ok {parent : SpanContext} {attributes : Dict String Json} {pause : E → Bool} {number tier : Json}
    {outcome : Option AttemptOutcome}
    (done : openAttempt platform supply state parent attributes pause number tier outcome = .ok next) :
    ∃ count outcome, 0 < count ∧ (isNone tier || isText (some tier)) = true ∧
      next = state.open (attemptSpan platform supply parent attributes count tier outcome pause) [] := by
  obtain ⟨outcome, _, later⟩ := expected_bind.mp done
  obtain ⟨positive, later⟩ := check_bind.mp later
  obtain ⟨tiered, later⟩ := check_bind.mp later
  cases number with
  | int count => exact ⟨count, outcome, of_decide_eq_true positive, tiered, (Except.ok.inj later).symm⟩
  | _ => cases positive

/-- The calls add no identity key. -/
theorem identity_ne {key : String} (member : key ∈ identity) :
    key ≠ "cord.node.name" ∧ key ≠ "cord.resumed_from" ∧ key ≠ "cord.outcome" ∧ key ≠ "cord.step.attempt" ∧
      key ≠ "cord.tier" ∧ key ≠ "cord.semconv.version" := by
  have cases : key = "cord.graph.id" ∨ key = "cord.run.id" ∨ key = "cord.subject.id" ∨ key = "cord.subject.type" := by
    simpa [identity] using member
  rcases cases with rfl | rfl | rfl | rfl <;> decide

section
variable {parent : SpanContext} {base attributes : Dict String Json} {node : String} {resumedFrom tier : Json}
variable {outcome : StepOutcome} {tried : AttemptOutcome} {pause : E → Bool} {number : Int}

theorem stepAttributes_identity {key : String} (member : key ∈ identity) :
    (stepAttributes base (.str node) resumedFrom).get? key = base.get? key := by
  obtain ⟨name, resumed, _⟩ := identity_ne member
  simp [stepAttributes, get?_setOptional, Dict.get?_set, name, resumed]

theorem stepAttributes_plain (plain : Plain base) : Plain (stepAttributes base (.str node) resumedFrom) where
  attempt := by simp [stepAttributes, get?_setOptional, Dict.get?_set, plain.attempt]
  tier := by simp [stepAttributes, get?_setOptional, Dict.get?_set, plain.tier]

theorem stepAttributes_node : (stepAttributes base (.str node) resumedFrom).get? "cord.node.name" = some (.str node) := by
  simp [stepAttributes, get?_setOptional]

theorem stepSpan_carries : Carries platform (stepSpan platform supply parent base node resumedFrom outcome pause) base := by
  intro key member
  obtain ⟨_, _, declared, _⟩ := identity_ne member
  rw [stepSpan, startSpan_attribute, Dict.get?_set, if_neg declared, stepAttributes_identity member]

theorem stepSpan_node : (stepSpan platform supply parent base node resumedFrom outcome pause).attributes.get?
    "cord.node.name" = some (.str node) := by
  rw [stepSpan, startSpan_attribute, Dict.get?_set, if_neg (by decide), stepAttributes_node]
  exact platform.exported_text node

theorem stepSpan_shaped (plain : Plain base) :
    Shaped (stepSpan platform supply parent base node resumedFrom outcome pause) := by
  refine ⟨⟨node, rfl⟩, ?_, ?_⟩
  · rw [stepSpan, startSpan_attribute, Dict.get?_set, if_neg (by decide), (stepAttributes_plain plain).attempt]
    rfl
  · rw [stepSpan, startSpan_attribute, Dict.get?_set_self, Option.bind_some, platform.exported_text]
    cases outcome <;> decide

theorem attemptSpan_carries :
    Carries platform (attemptSpan platform supply parent attributes number tier tried pause) attributes := by
  intro key member
  obtain ⟨_, _, declared, attempt, tiered, _⟩ := identity_ne member
  simp [attemptSpan, get?_setOptional, Dict.get?_set, declared, attempt, tiered]

theorem attemptSpan_node : (attemptSpan platform supply parent attributes number tier tried pause).attributes.get?
    "cord.node.name" = (attributes.get? "cord.node.name").bind platform.exported := by
  simp [attemptSpan, get?_setOptional, Dict.get?_set]

theorem attemptSpan_shaped (plain : Plain attributes) (positive : 0 < number)
    (tiered : (isNone tier || isText (some tier)) = true) :
    Shaped (attemptSpan platform supply parent attributes number tier tried pause) := by
  refine ⟨rfl, ?_, ?_, ?_⟩
  · simp [attemptSpan, get?_setOptional, Dict.get?_set, platform.exported_int, isPositive, positive]
  · simp only [attemptSpan, startSpan_attribute, get?_setOptional, Dict.get?_set]
    rw [if_neg (by simp), if_pos trivial, Option.bind_some, platform.exported_text]
    cases tried <;> decide
  · simp only [attemptSpan, startSpan_attribute, get?_setOptional, Dict.get?_set, true_and]
    cases absent : isNone tier with
    | true => simp [plain.tier]
    | false =>
        rw [absent, Bool.false_or] at tiered
        rw [if_pos rfl, exported_isText]
        exact .inr tiered

end

/-- The span of a Run. -/
def runSpan (platform : Platform) (supply : Supply) (attributes : Dict String Json) : Opened E :=
  startSpan platform supply none "run" (attributes.set "cord.semconv.version" (.str semconvVersion)) .run

theorem openRun_ok {subject subjectType graphId runId causedByRunId cascadeDepth : Json}
    (done : openRun platform supply state subject subjectType graphId runId causedByRunId cascadeDepth = .ok next) :
    isText (some subject) = true ∧ isText (some graphId) = true ∧ (isNone runId || isText (some runId)) = true ∧
      next = state.open (runSpan platform supply
          (runAttributes supply subject subjectType graphId runId causedByRunId cascadeDepth))
        [.run supply.context (runAttributes supply subject subjectType graphId runId causedByRunId cascadeDepth)
          true] := by
  obtain ⟨named, later⟩ := check_bind.mp done
  obtain ⟨graph, later⟩ := check_bind.mp later
  obtain ⟨run, later⟩ := check_bind.mp later
  obtain ⟨_, later⟩ := check_bind.mp later
  obtain ⟨_, later⟩ := check_bind.mp later
  exact ⟨(Bool.and_eq_true _ _ ▸ named).1, graph, run, (Except.ok.inj later).symm⟩

section
variable {subject subjectType graphId runId causedByRunId cascadeDepth : Json}

theorem runAttributes_plain :
    Plain (runAttributes supply subject subjectType graphId runId causedByRunId cascadeDepth) where
  attempt := by simp [runAttributes, get?_setOptional, Dict.get?_set]
  tier := by simp [runAttributes, get?_setOptional, Dict.get?_set]

theorem runSpan_carries {attributes : Dict String Json} :
    Carries platform (runSpan platform supply attributes : Opened E) attributes := by
  intro key member
  obtain ⟨_, _, _, _, _, versioned⟩ := identity_ne member
  rw [runSpan, startSpan_attribute, Dict.get?_set, if_neg versioned]

theorem runSpan_shaped : Shaped (runSpan platform supply
    (runAttributes supply subject subjectType graphId runId causedByRunId cascadeDepth) : Opened E) := by
  refine ⟨rfl, rfl, ?_, ?_, ?_⟩
  · simp [runSpan, runAttributes, get?_setOptional, Dict.get?_set]
  · simp [runSpan, runAttributes, get?_setOptional, Dict.get?_set]
  · simp [runSpan, platform.exported_text]

/-- A Run that opens has texts, but its checks leave the type of the Subject open. -/
theorem runAttributes_texts (fresh : blank supply.uuid = false) (named : isText (some subject) = true)
    (graph : isText (some graphId) = true) (run : (isNone runId || isText (some runId)) = true) :
    Texts (runAttributes supply subject subjectType graphId runId causedByRunId cascadeDepth) ↔
      isText (some subjectType) = true := by
  have identified : isText (some (runId.orElse (.str supply.uuid))) = true := by
    cases runId with
    | str text =>
        have nonempty : text ≠ "" := by
          rintro rfl
          cases run
        have whole : Json.orElse (.str text) (.str supply.uuid) = .str text := by
          simp [Json.orElse, Json.truthy, nonempty]
        rw [whole]
        exact run
    | null => simpa [Json.orElse, Json.truthy, isText] using fresh
    | _ => cases run
  constructor
  · intro texts
    have type := texts "cord.subject.type" (by decide)
    simpa [runAttributes, get?_setOptional, Dict.get?_set] using type
  · intro type key member
    have cases : key = "cord.graph.id" ∨ key = "cord.run.id" ∨ key = "cord.subject.id" ∨ key = "cord.subject.type" := by
      simpa [identity] using member
    rcases cases with rfl | rfl | rfl | rfl
    · simpa [runAttributes, get?_setOptional, Dict.get?_set] using graph
    · simpa [runAttributes, get?_setOptional, Dict.get?_set] using identified
    · simpa [runAttributes, get?_setOptional, Dict.get?_set] using named
    · simpa [runAttributes, get?_setOptional, Dict.get?_set] using type

end

theorem Carries.texts {span : Opened E} {attributes : Dict String Json} (carries : Carries platform span attributes) :
    Texts span.attributes ↔ Texts attributes := by
  apply forall_congr'
  intro key
  apply forall_congr'
  intro member
  rw [carries key member, exported_isText]

/-- The Run that a continuation names is the span of a Run or a Step with these identity values. -/
def Designated (state : State E) (context : SpanContext) (attributes : Dict String Json) : Prop :=
  context.valid = true ∧ Texts attributes ∧ ∃ above ∈ state.opened, above.context = context ∧
    above.scope.role ≠ .attempt ∧ ∀ key ∈ identity, above.attributes.get? key = attributes.get? key

/-- The arguments of the call keep what the reader asks for. -/
def Sound (state : State E) : Call E → Prop
  | .run _ subjectType _ _ _ _ => isText (some subjectType) = true
  | .step handle node _ _ _ => isText (some node) = true ∧ ∀ context attributes,
      state.handles[handle]? = some (.run context attributes false) → Designated state context attributes
  | .child _ node _ _ _ => isText (some node) = true
  | _ => True

/-- The facts about the producer that every call keeps. -/
structure Inv (platform : Platform) (state : State E) : Prop where
  shaped : ∀ span ∈ state.opened, Shaped span
  valid : ∀ span ∈ state.opened, span.context.valid = true
  distinct : state.opened.Pairwise fun newer older => newer.context.spanId ≠ older.context.spanId
  ordered : state.opened.Pairwise fun newer older => older.parent ≠ some newer.context.spanId
  loopless : ∀ span ∈ state.opened, span.parent ≠ some span.context.spanId
  mentioned : ∀ span ∈ state.opened, ∀ above, span.parent = some above → state.Mentions above
  bounded : ∀ span ∈ state.opened, ∀ above, span.parent = some above → 0 < above ∧ above < 2 ^ 64
  ended : ∀ spanId closing, state.closed.get? spanId = some closing →
    ∃ span ∈ state.opened, span.context.spanId = spanId ∧ ∃ ending, closing.outcome = span.scope.outcome ending
  backed : ∀ handle ∈ state.handles, handle.Backed platform state.opened

/-- The parent of a span has been the context of a call. -/
theorem mentions_parent {above : Int}
    (parent : ∃ handle ∈ state.handles, handle.context.valid = true ∧ handle.context.spanId = above) :
    state.Mentions above := by
  obtain ⟨handle, member, _, same⟩ := parent
  exact .inr ⟨handle, member, same⟩

theorem inv_empty : Inv platform (State.empty : State E) where
  shaped _ member := by cases member
  valid _ member := by cases member
  distinct := .nil
  ordered := .nil
  loopless _ member := by cases member
  mentioned _ member := by cases member
  bounded _ member := by cases member
  ended _ _ found := by cases found
  backed _ member := by cases member

theorem Handle.Backed.cons {opened : List (Opened E)} {handle : Handle E} (backed : handle.Backed platform opened)
    (span : Opened E) : handle.Backed platform (span :: opened) := by
  cases handle with
  | run context attributes recording =>
      refine ⟨backed.1, fun recorded => ?_⟩
      obtain ⟨valid, above, member, rest⟩ := backed.2 recorded
      exact ⟨valid, above, List.mem_cons_of_mem _ member, rest⟩
  | step context attributes pause base =>
      obtain ⟨plain, bare, valid, above, member, rest⟩ := backed
      exact ⟨plain, bare, valid, above, List.mem_cons_of_mem _ member, rest⟩

/-- A new span under an id that the state knows keeps the facts. -/
theorem Inv.open {span : Opened E} {handles : List (Handle E)} (inv : Inv platform state) (fresh : supply.Fresh state)
    (named : span.context.spanId = supply.context.spanId) (shaped : Shaped span) (valid : span.context.valid = true)
    (parent : ∀ above, span.parent = some above →
      ∃ handle ∈ state.handles, handle.context.valid = true ∧ handle.context.spanId = above)
    (backed : ∀ handle ∈ handles, handle.Backed platform (span :: state.opened)) :
    Inv platform (state.open span handles) where
  shaped := List.forall_mem_cons.mpr ⟨shaped, inv.shaped⟩
  valid := List.forall_mem_cons.mpr ⟨valid, inv.valid⟩
  distinct := by
    refine List.pairwise_cons.mpr ⟨fun older member same => fresh.new ?_, inv.distinct⟩
    exact .inl ⟨older, member, by rw [← same, named]⟩
  ordered := by
    refine List.pairwise_cons.mpr ⟨fun older member same => fresh.new ?_, inv.ordered⟩
    rw [← named]
    exact inv.mentioned older member _ same
  loopless := by
    refine List.forall_mem_cons.mpr ⟨fun same => fresh.new ?_, inv.loopless⟩
    rw [← named]
    exact mentions_parent (parent _ same)
  mentioned := by
    have keep : ∀ {above : Int}, state.Mentions above → (state.open span handles).Mentions above := by
      rintro above (⟨other, member, same⟩ | ⟨handle, member, same⟩)
      · exact .inl ⟨other, List.mem_cons_of_mem _ member, same⟩
      · exact .inr ⟨handle, List.mem_append_left _ member, same⟩
    refine List.forall_mem_cons.mpr ⟨fun above same => keep (mentions_parent (parent above same)), ?_⟩
    exact fun other member above same => keep (inv.mentioned other member above same)
  bounded := by
    refine List.forall_mem_cons.mpr ⟨fun above same => ?_, inv.bounded⟩
    obtain ⟨handle, _, valid, rfl⟩ := parent above same
    simp only [SpanContext.valid, decide_eq_true_eq] at valid
    exact valid.2.2
  ended spanId closing found := by
    obtain ⟨other, member, rest⟩ := inv.ended spanId closing found
    exact ⟨other, List.mem_cons_of_mem _ member, rest⟩
  backed handle member := by
    rcases List.mem_append.mp member with old | new
    · exact (inv.backed handle old).cons span
    · exact backed handle new

theorem Sturdy.texts {opened : List (Opened E)} (sturdy : Sturdy opened) :
    ∀ span ∈ opened, Texts span.attributes ∧
      (span.scope.role ≠ .run → isText (span.attributes.get? "cord.node.name") = true) := by
  induction opened with
  | nil => simp
  | cons span older ih =>
      refine List.forall_mem_cons.mpr ⟨⟨sturdy.1.1, fun below => ?_⟩, ih sturdy.2⟩
      have fine := sturdy.1.2
      cases scope : span.scope with
      | run =>
          rw [scope] at below
          exact absurd rfl below
      | step pause =>
          rw [scope] at fine
          exact fine.1
      | attempt pause =>
          rw [scope] at fine
          exact fine.1

end Steps

end

end Cordboard.Execution
