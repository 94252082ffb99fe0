import Cordboard.Proof.Callbacks.Discipline
import Cordboard.Proof.Archive.Checked
import Cordboard.Effects.Schedule

namespace Cordboard.Callbacks
open Data Effects Execution
open Archive (StepOutcome)

variable {Pid : Type} {platform : Platform} {identity : Identity} {handler : Handler}
  {calls : Pid → Call} {history : Chronicle Pid} {config : Config signature Handler Pid (Except Raised Unit)}

/-- The call of the thread has returned. -/
def Returned (config : Config signature Handler Pid (Except Raised Unit)) (pid : Pid) : Prop :=
  ∃ outcome, config.code pid = some (.pure outcome)

variable [DecidableEq Pid]

/-- The threads start with their calls. -/
abbrev Run (platform : Platform) (identity : Identity) (handler : Handler) (calls : Pid → Call) :
    Chronicle Pid → Config signature Handler Pid (Except Raised Unit) → Prop :=
  Reaches (sharing platform identity Pid) uniqueCallbacks (fun pid => ((calls pid).perform platform).toProgram) handler

theorem holds_run (resumedFrom : Option String) (run : Run platform identity (fresh resumedFrom) calls history config) :
    Holds resumedFrom history config.shared := by
  apply duties.invariant (fun _ => none) (fun pid => perform_obeys platform (calls pid)) (Holds resumedFrom)
    (holds_fresh resumedFrom) _ _ run
  · intro history handler pid op answer after holds _ permitted move meets
    exact holds.act permitted move meets
  · intro history handler pid _ never
    cases never

/-- A call that has returned has no work left. -/
theorem left_returned (run : Run platform identity handler calls history config) {pid : Pid}
    (returned : Returned config pid) : left history pid = [] := by
  obtain ⟨outcome, live⟩ := returned
  have done := duties.wp_of_reaches (fun _ _ => True) (fun _ => none) run pid (perform_does platform (calls pid))
    (fun _ _ => trivial) live
  rcases done with none | some
  · rw [left, none]
    rfl
  · rw [left, some]
    rfl

theorem endings_le_foldl (span : Nat) (work : List Work) (object : TracedSpan) :
    object.endings ≤ (work.foldl (Work.on span) object).endings := by
  induction work generalizing object with
  | nil => exact Nat.le_refl _
  | cons next rest ih =>
      apply Nat.le_trans _ (ih _)
      unfold Work.on
      split
      · cases next with
        | setOutcome span value =>
            simp only [Work.apply, TracedSpan.setAttribute]
            split <;> exact Nat.le_refl _
        | setError span =>
            simp only [Work.apply, TracedSpan.setError]
            split <;> exact Nat.le_refl _
        | finish span => exact Nat.le_succ _
      · exact Nat.le_refl _

theorem create_fresh {arguments : Arguments} (made : create arguments = .ok (identity, handler)) :
    handler = fresh arguments.resumedFrom := by
  unfold create at made
  split at made
  · split at made
    · cases made
    · exact (Prod.mk.inj (Except.ok.inj made)).2.symm
  · obtain ⟨graphId, -, made⟩ := bind_ok.mp made
    obtain ⟨subject, -, made⟩ := bind_ok.mp made
    obtain ⟨subjectType, -, made⟩ := bind_ok.mp made
    exact (Prod.mk.inj (Except.ok.inj made)).2.symm

/-- A closed handler opens no span. -/
theorem respond_closed (platform : Platform) (identity : Identity) (closed : handler.closed = true) (op : Op) :
    (respond platform identity handler op).2.spans.length = handler.spans.length := by
  cases op with
  | openStep runId node checkpointNs => simp [respond, openStep, closed]
  | popStep runId =>
      simp only [respond, popStep]
      split <;> rfl
  | failStep runId error =>
      simp only [respond, failStep, popStep]
      cases handler.byRunId.get? runId with
      | none => rfl
      | some step =>
          simp only [recordError]
          split <;> exact change_spans_length ..
  | shut => simp [respond, shut, closed]
  | work work => exact change_spans_length ..

/-- A span object is open, or one call has taken it and ends it once. -/
def EndsOnce (history : Chronicle Pid) (config : Config signature Handler Pid (Except Raised Unit)) (span : Nat)
    (object : TracedSpan) : Prop :=
  config.shared.closed = false ∧ taken history span = [] ∧ object.endings = 0 ∨
    ∃ pid outcome, taken history span = [(pid, outcome)] ∧ (Returned config pid → Settled outcome object)

/-- These are the duties of the handler over its spans. -/
structure SpanDiscipline (platform : Platform) (identity : Identity) (resumedFrom : Option String)
    (history : Chronicle Pid) (config : Config signature Handler Pid (Except Raised Unit)) : Prop where
  atMostOnce : ∀ object ∈ config.shared.spans, object.endings ≤ 1
  endsOnce : ∀ span object, config.shared.spans[span]? = some object → EndsOnce history config span object
  ended : HasClosed history → (∀ label ∈ history, Returned config label.pid) →
    ∀ object ∈ config.shared.spans, object.endings = 1
  outcomes : ∀ step ∈ opened history, ∀ pid outcome, taken history step.span = [(pid, outcome)] → outcome ≠ none
  opening : ∀ later label before, history = later ++ label :: before → ∀ step ∈ opens label,
    ∃ object, config.shared.spans[step.span]? = some object ∧
      OpenedUnder resumedFrom before config.shared step object
  owned : ∀ span < config.shared.spans.length,
    config.shared.runSpan = some span ∨ ∃ step ∈ opened history, step.span = span
  shut : HasClosed history → ∀ op,
    (respond platform identity config.shared op).2.spans.length = config.shared.spans.length
  idempotent : HasClosed history → respond platform identity config.shared .shut = (none, config.shared)

omit [DecidableEq Pid] in
/-- The thread of a label in the list of takers has moved. -/
theorem taker_moved {span : Nat} {pid : Pid} {outcome : Option StepOutcome}
    (member : (pid, outcome) ∈ taken history span) : ∃ label ∈ history, label.pid = pid := by
  induction history with
  | nil => cases member
  | cons label history ih =>
      cases label with
      | crash other =>
          obtain ⟨found, held, same⟩ := ih member
          exact ⟨found, List.mem_cons_of_mem _ held, same⟩
      | act other event =>
          rcases List.mem_append.mp member with own | earlier
          · obtain ⟨_, -, same⟩ := List.mem_map.mp own
            exact ⟨_, List.mem_cons_self, congrArg Prod.fst same⟩
          · obtain ⟨found, held, same⟩ := ih earlier
            exact ⟨found, List.mem_cons_of_mem _ held, same⟩

/-- A span object is taken once at most, and its taker ends it before it returns. -/
theorem ends_once {resumedFrom : Option String} (holds : Holds resumedFrom history config.shared)
    (run : Run platform identity (fresh resumedFrom) calls history config) {span : Nat} {object : TracedSpan}
    (at_ : config.shared.spans[span]? = some object) : EndsOnce history config span object := by
  by_cases free : taken history span = []
  · obtain ⟨zero, owner⟩ := holds.ledger.idle span object at_ free
    refine .inl ⟨?_, free, zero⟩
    rcases owner with ⟨-, running⟩ | ⟨runId, step, stored, -⟩
    · exact running
    · cases closed : config.shared.closed with
      | false => rfl
      | true =>
          rw [holds.ledger.empty closed runId] at stored
          cases stored
  · obtain ⟨pid, outcome, owned, -, settled⟩ := holds.ledger.settled span object at_ free
    refine .inr ⟨pid, outcome, owned, ?_⟩
    intro returned
    rw [left_returned run returned] at settled
    exact settled

/-- In every interleaving of the callbacks, a span of the handler is ended at most once, and it is ended exactly once when
its call and the close have returned. -/
theorem spans_disciplined {arguments : Arguments} (made : create arguments = .ok (identity, handler))
    (run : Run platform identity handler calls history config) :
    SpanDiscipline platform identity arguments.resumedFrom history config := by
  obtain rfl := create_fresh made
  have holds := holds_run arguments.resumedFrom run
  constructor
  · intro object member
    obtain ⟨span, before, rfl⟩ := List.mem_iff_getElem.mp member
    have at_ := List.getElem?_eq_getElem before
    by_cases free : taken history span = []
    · have zero := (holds.ledger.idle span _ at_ free).1
      omega
    · obtain ⟨pid, outcome, -, -, settled⟩ := holds.ledger.settled span _ at_ free
      have bound := endings_le_foldl span (left history pid) config.shared.spans[span]
      rw [settled.1] at bound
      exact bound
  · exact fun span object at_ => ends_once holds run at_
  · intro closing returned object member
    obtain ⟨span, before, rfl⟩ := List.mem_iff_getElem.mp member
    rcases ends_once holds run (List.getElem?_eq_getElem before) with ⟨running, -⟩ | ⟨pid, outcome, owned, settled⟩
    · rw [holds.shut.mpr closing] at running
      cases running
    · have inside : (pid, outcome) ∈ taken history span := by
        rw [owned]
        exact List.mem_singleton_self _
      obtain ⟨label, held, rfl⟩ := taker_moved inside
      exact (settled (returned label held)).1
  · intro step known pid outcome owned absent
    obtain ⟨before, apart⟩ := holds.inside step known
    have some : taken history step.span ≠ [] := by
      rw [owned]
      exact List.cons_ne_nil _ _
    obtain ⟨other, found, same, run, -⟩ := holds.ledger.settled _ _ (List.getElem?_eq_getElem before) some
    rw [owned] at same
    obtain ⟨-, rfl⟩ := Prod.mk.inj (List.cons.inj same).1
    exact apart (run absent)
  · exact holds.opening
  · exact holds.owned
  · exact fun closing op => respond_closed platform identity (holds.shut.mpr closing) op
  · intro closing
    simp [respond, shut, holds.shut.mpr closing]

instance (history : Chronicle Pid) (handler : Handler) : (label : Label signature Pid) →
    Decidable (uniqueCallbacks history handler label)
  | .act _ ⟨.openStep runId _ checkpointNs, _⟩ => inferInstanceAs
      (Decidable (runId ∉ startedRuns history ∧ ∀ step ∈ openSteps history, step.checkpointNs ≠ checkpointNs))
  | .act _ ⟨.popStep _, _⟩ => .isTrue trivial
  | .act _ ⟨.failStep .., _⟩ => .isTrue trivial
  | .act _ ⟨.shut, _⟩ => .isTrue trivial
  | .act _ ⟨.work _, _⟩ => .isTrue trivial
  | .crash _ => .isFalse id

/-- The handler answers each operation at once. -/
def answering (platform : Platform) (identity : Identity) : Scheduler (sharing platform identity Nat) where
  respond _ _ handler op := some (respond platform identity handler op)
  sound _ _ _ _ _ _ answered := Option.some.inj answered

def samplePlatform : Platform := ⟨fun _ => none, Char.isDigit, fun index => ⟨1, index + 1⟩, "run-1"⟩

def sampleArguments : Arguments := ⟨some "graph", some "urn:test:5", some "fixture", none, none, some "00000000000000aa"⟩

/-- One Step opens below another one. The inner Step pauses. -/
def sampleCalls (pid : Nat) : Call :=
  if pid = 0 then .onChainStart 10 (some ["graph:step:1"]) (some ⟨some "collect", some "collect:1"⟩)
  else if pid = 1 then .onChainStart 11 (some ["graph:step:2"]) (some ⟨some "gather", some "collect:1|gather:2"⟩)
  else if pid = 2 then .onChainError 11 ⟨[("langgraph.errors", "GraphInterrupt")]⟩
  else if pid = 3 then .onChainEnd 10
  else .close

/-- The calls take turns. -/
def sampleRun (turns : List Nat) : Option (Reached signature Handler Nat (Except Raised Unit)) :=
  (answering samplePlatform (.new "graph" "urn:test:5" "fixture" none)).run uniqueCallbacks (turns.map .act)
    ⟨[], ⟨fresh sampleArguments.resumedFrom, fun pid => some ((sampleCalls pid).perform samplePlatform).toProgram⟩⟩

theorem sampleRun_reaches {turns : List Nat} {reached : Reached signature Handler Nat (Except Raised Unit)}
    (played : sampleRun turns = some reached) : Run samplePlatform (.new "graph" "urn:test:5" "fixture" none)
      (fresh sampleArguments.resumedFrom) sampleCalls reached.history reached.config :=
  (answering samplePlatform (.new "graph" "urn:test:5" "fixture" none)).run_reaches uniqueCallbacks .start played

/-- All calls return, and the handler has opened the Run and two Steps. -/
theorem spans_disciplined_sample : ∃ (history : Chronicle Nat)
    (config : Config signature Handler Nat (Except Raised Unit)),
      SpanDiscipline samplePlatform (.new "graph" "urn:test:5" "fixture" none) (some "00000000000000aa") history config ∧
      config.shared.spans.map (fun span => (span.name, span.parent, span.attributes.get? "cord.outcome", span.endings)) =
        [("run", none, none, 1), ("step:collect", some 0, some "passed", 1),
          ("step:gather", some 1, some "awaiting_approval", 1)] := by
  obtain ⟨reached, played⟩ := Option.isSome_iff_exists.mp
    (show (sampleRun [0, 1, 2, 2, 3, 3, 4, 4]).isSome = true by decide +kernel)
  have spans : (sampleRun [0, 1, 2, 2, 3, 3, 4, 4]).map (fun reached => reached.config.shared.spans.map
      fun span => (span.name, span.parent, span.attributes.get? "cord.outcome", span.endings)) =
        some [("run", none, none, 1), ("step:collect", some 0, some "passed", 1),
          ("step:gather", some 1, some "awaiting_approval", 1)] := by
    decide +kernel
  rw [played] at spans
  have made : create sampleArguments =
      .ok (.new "graph" "urn:test:5" "fixture" none, fresh sampleArguments.resumedFrom) := rfl
  exact ⟨reached.history, reached.config, spans_disciplined made (sampleRun_reaches played), Option.some.inj spans⟩

/-- The close returns while the call that took a Step has not ended its span yet. -/
theorem close_overtakes_end : ∃ history config,
    Run samplePlatform (.new "graph" "urn:test:5" "fixture" none) (fresh sampleArguments.resumedFrom) sampleCalls history
        config ∧
      HasClosed history ∧ Returned config 4 ∧ ∃ step ∈ opened history,
        (config.shared.spans[step.span]?).map TracedSpan.endings = some 0 := by
  obtain ⟨reached, played⟩ := Option.isSome_iff_exists.mp (show (sampleRun [0, 3, 4, 4]).isSome = true by decide +kernel)
  have closed : (sampleRun [0, 3, 4, 4]).map (fun reached => reached.config.shared.closed) = some true := by
    decide +kernel
  have ended : (sampleRun [0, 3, 4, 4]).map (fun reached => ((reached.config.code 4).bind Program.value?).isSome) =
      some true := by
    decide +kernel
  have late : (sampleRun [0, 3, 4, 4]).map (fun reached => (opened reached.history).any fun step =>
      (reached.config.shared.spans[step.span]?).map TracedSpan.endings = some 0) = some true := by
    decide +kernel
  rw [played] at closed ended late
  have run := sampleRun_reaches played
  refine ⟨reached.history, reached.config, run, ?_, ?_, ?_⟩
  · exact (holds_run _ run).shut.mp (Option.some.inj closed)
  · obtain ⟨outcome, returned⟩ := Option.isSome_iff_exists.mp (Option.some.inj ended)
    exact ⟨outcome, Program.eq_pure_of_value? returned⟩
  · obtain ⟨step, member, zero⟩ := List.any_eq_true.mp (Option.some.inj late)
    exact ⟨step, member, of_decide_eq_true zero⟩

end Cordboard.Callbacks
