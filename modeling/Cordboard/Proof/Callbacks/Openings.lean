import Cordboard.Proof.Callbacks.Ledger

namespace Cordboard.Callbacks
open Data Effects Execution
open Archive (StepOutcome)

/-- The first namespace is the second one without its last segment. -/
def DirectPrefix (above below : String) : Prop := ∃ last : List Char, '|' ∉ last ∧ below.toList = above.toList ++ '|' :: last

/-- A segment without separator stands before the rest of the reversed namespace. -/
theorem dropWhile_segment (last : List Char) (free : '|' ∉ last) (rest : List Char) :
    (last ++ '|' :: rest).dropWhile (fun char => char ≠ '|') = '|' :: rest := by
  rw [List.dropWhile_append_of_pos]
  · rfl
  · intro char member
    simp only [ne_eq, decide_not, Bool.not_eq_eq_eq_not, Bool.not_true, decide_eq_false_iff_not]
    rintro rfl
    exact free member

/-- The key of the parent is the direct prefix of the namespace. -/
theorem parentKey_eq_some_iff (checkpointNs key : String) :
    parentKey checkpointNs = some key ↔ DirectPrefix key checkpointNs := by
  unfold parentKey DirectPrefix
  constructor
  · intro found
    split at found
    · rename_i member
      obtain ⟨last, rest, reversed, free⟩ := List.eq_append_cons_of_mem (List.mem_reverse.mpr member)
      rw [reversed, dropWhile_segment last free] at found
      obtain rfl := Option.some.inj found
      refine ⟨last.reverse, by simpa using free, ?_⟩
      rw [← List.reverse_reverse checkpointNs.toList, reversed]
      simp
    · cases found
  · rintro ⟨last, free, split⟩
    have reversed : checkpointNs.toList.reverse = last.reverse ++ '|' :: key.toList.reverse := by
      rw [split]
      simp
    rw [if_pos (by rw [split]; simp), reversed, dropWhile_segment _ (by simpa using free)]
    simp

/-- A segment does not hold the separator, so a namespace has one direct prefix at most. -/
theorem directPrefix_unique {first second below : String} (one : DirectPrefix first below)
    (two : DirectPrefix second below) : first = second := by
  have same := (parentKey_eq_some_iff below first).mpr one
  rw [(parentKey_eq_some_iff below second).mpr two] at same
  exact (Option.some.inj same).symm

section
variable {Pid : Type}

abbrev Chronicle (Pid : Type) : Type := History signature Pid

/-- The label opens a Step. -/
def opens : Label signature Pid → Option OpenStep
  | .act _ ⟨.openStep .., .ok step⟩ => step
  | _ => none

/-- The Steps of the handler, the newest one first. -/
def opened (history : Chronicle Pid) : List OpenStep := history.filterMap opens

/-- The sections that took a span object, each with its thread. -/
def taken : Chronicle Pid → Nat → List (Pid × Option StepOutcome)
  | [], _ => []
  | .act pid ⟨op, answer⟩ :: history, span => takenBy pid op answer span ++ taken history span
  | .crash _ :: history, span => taken history span

/-- The Steps that no section has taken. -/
def openSteps (history : Chronicle Pid) : List OpenStep :=
  (opened history).filter fun step => (taken history step.span).isEmpty

/-- The callback runs whose start reached its section. -/
def startedRuns (history : Chronicle Pid) : List Uuid :=
  history.filterMap fun label =>
    match label with
    | .act _ ⟨.openStep runId _ _, _⟩ => some runId
    | _ => none

/-- A callback run starts once, and it starts in a namespace that no open Step has. No thread stops inside a call. -/
def uniqueCallbacks : Condition signature Handler Pid := fun history _ label =>
  match label with
  | .act _ ⟨.openStep runId _ checkpointNs, _⟩ =>
      runId ∉ startedRuns history ∧ ∀ step ∈ openSteps history, step.checkpointNs ≠ checkpointNs
  | .act .. => True
  | .crash _ => False

/-- A close has entered its section. -/
def HasClosed (history : Chronicle Pid) : Prop :=
  ∃ pid, ∃ answer : Op.Answer .shut, Label.act pid ⟨Op.shut, answer⟩ ∈ history

variable [DecidableEq Pid]

/-- The work that a thread has not done yet. -/
def left (history : Chronicle Pid) (pid : Pid) : List Work := (duties.phase (fun _ => none) history pid).getD []

/-- A Step has the parent that was open under its direct prefix, or the Run. The first Step has the reference to the
Step that it resumes. -/
structure OpenedUnder (resumedFrom : Option String) (before : Chronicle Pid) (handler : Handler) (step : OpenStep)
    (object : TracedSpan) : Prop where
  nested : ∀ above ∈ openSteps before, DirectPrefix above.checkpointNs step.checkpointNs →
    object.parent = some above.span
  top : (∀ above ∈ openSteps before, ¬ DirectPrefix above.checkpointNs step.checkpointNs) →
    handler.runSpan.isSome ∧ object.parent = handler.runSpan
  resumed : object.attributes.get? "cord.resumed_from" = if opened before = [] then resumedFrom else none

/-- The handler agrees with its past. -/
structure Holds (resumedFrom : Option String) (history : Chronicle Pid) (handler : Handler) : Prop where
  ledger : Ledger (taken history) (left history) handler
  indexed : ∀ runId step, handler.byRunId.get? runId = some step → step ∈ opened history ∧ runId ∈ startedRuns history
  inside : ∀ step ∈ opened history, step.span < handler.spans.length ∧ handler.runSpan ≠ some step.span
  distinct : ∀ first ∈ opened history, ∀ second ∈ opened history, first.span = second.span → first = second
  owned : ∀ span < handler.spans.length, handler.runSpan = some span ∨ ∃ step ∈ opened history, step.span = span
  names : ∀ checkpointNs step, handler.byCheckpointNs.get? checkpointNs = some step ↔
    (∃ runId, handler.byRunId.get? runId = some step) ∧ step.checkpointNs = checkpointNs
  pending : handler.pendingResumedFrom = if opened history = [] then resumedFrom else none
  unmarked : handler.runAttributes.get? "cord.resumed_from" = none
  opening : ∀ later label before, history = later ++ label :: before → ∀ step ∈ opens label,
    ∃ object, handler.spans[step.span]? = some object ∧ OpenedUnder resumedFrom before handler step object
  shut : handler.closed = true ↔ HasClosed history

variable {resumedFrom : Option String} {history : Chronicle Pid} {handler after : Handler} {pid : Pid} {step : OpenStep}

omit [DecidableEq Pid] in
theorem mem_openSteps : step ∈ openSteps history ↔ step ∈ opened history ∧ taken history step.span = [] := by
  rw [openSteps, List.mem_filter, List.isEmpty_iff]

/-- The index holds the open Steps. -/
theorem Holds.open_iff (holds : Holds resumedFrom history handler) :
    step ∈ openSteps history ↔ ∃ runId, handler.byRunId.get? runId = some step := by
  rw [mem_openSteps]
  constructor
  · rintro ⟨known, free⟩
    obtain ⟨before, apart⟩ := holds.inside step known
    obtain ⟨object, at_⟩ : ∃ object, handler.spans[step.span]? = some object :=
      ⟨_, List.getElem?_eq_getElem before⟩
    rcases (holds.ledger.idle step.span object at_ free).2 with ⟨run, -⟩ | ⟨runId, found, stored, same⟩
    · exact absurd run apart
    · have equal := holds.distinct found (holds.indexed runId found stored).1 step known same
      exact ⟨runId, equal ▸ stored⟩
  · rintro ⟨runId, stored⟩
    exact ⟨(holds.indexed runId step stored).1, (holds.ledger.steps runId step stored).1⟩

end

variable {handler after : Handler}

/-- An operation keeps the objects of the past, their parents and their references. -/
structure Grows (handler after : Handler) : Prop where
  objects : ∀ (span : Nat) (object : TracedSpan), handler.spans[span]? = some object →
    ∃ next : TracedSpan, after.spans[span]? = some next ∧ next.parent = object.parent ∧
      next.attributes.get? "cord.resumed_from" = object.attributes.get? "cord.resumed_from"
  run : ∀ span, handler.runSpan = some span → after.runSpan = some span

theorem Grows.refl (handler : Handler) : Grows handler handler :=
  ⟨fun _ object held => ⟨object, held, rfl, rfl⟩, fun _ same => same⟩

theorem Grows.trans {middle : Handler} (first : Grows handler middle) (second : Grows middle after) :
    Grows handler after := by
  constructor
  · intro span object held
    obtain ⟨next, at_, parent, mark⟩ := first.objects span object held
    obtain ⟨last, last_at, last_parent, last_mark⟩ := second.objects span next at_
    exact ⟨last, last_at, last_parent.trans parent, last_mark.trans mark⟩
  · intro span same
    exact second.run span (first.run span same)

theorem setAttribute_keeps (object : TracedSpan) (value : String) :
    (object.setAttribute "cord.outcome" value).parent = object.parent ∧
      (object.setAttribute "cord.outcome" value).attributes.get? "cord.resumed_from" =
        object.attributes.get? "cord.resumed_from" := by
  unfold TracedSpan.setAttribute
  split
  · exact ⟨rfl, Dict.get?_set_of_ne _ (by decide) _⟩
  · exact ⟨rfl, rfl⟩

theorem setError_keeps (object : TracedSpan) : object.setError.parent = object.parent ∧
    object.setError.attributes = object.attributes := by
  unfold TracedSpan.setError
  split <;> exact ⟨rfl, rfl⟩

/-- A change of one object keeps what it leaves alone. -/
theorem change_grows (handler : Handler) (span : Nat) {update : TracedSpan → TracedSpan}
    (keeps : ∀ object, (update object).parent = object.parent ∧
      (update object).attributes.get? "cord.resumed_from" = object.attributes.get? "cord.resumed_from") :
    Grows handler (handler.change span update) := by
  constructor
  · intro index object held
    rw [change_spans, held, Option.map_some]
    refine ⟨_, rfl, ?_⟩
    split
    · exact keeps object
    · exact ⟨rfl, rfl⟩
  · exact fun _ same => same

theorem work_grows (handler : Handler) (work : Work) : Grows handler (handler.change work.span work.apply) := by
  apply change_grows
  intro object
  cases work with
  | setOutcome span value => exact setAttribute_keeps object value
  | setError span =>
      obtain ⟨parent, attributes⟩ := setError_keeps object
      exact ⟨parent, congrArg (Dict.get? · "cord.resumed_from") attributes⟩
  | finish span => exact ⟨rfl, rfl⟩

theorem concat_grows (handler : Handler) (object : TracedSpan) (run : Option Nat)
    (keeps : ∀ span, handler.runSpan = some span → run = some span) (attributes : Dict String String)
    (runs : Dict Uuid OpenStep) (names : Dict String OpenStep) (pending : Option String) :
    Grows handler { handler with
      runSpan := run, runAttributes := attributes, spans := handler.spans ++ [object], byRunId := runs,
      byCheckpointNs := names, pendingResumedFrom := pending } :=
  ⟨fun _ found held => ⟨found, held_concat object held, rfl, rfl⟩, keeps⟩

end Cordboard.Callbacks
