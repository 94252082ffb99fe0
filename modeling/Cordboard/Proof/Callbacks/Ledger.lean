import Cordboard.Proof.Callbacks.Duties

namespace Cordboard.Callbacks
open Data Effects Execution
open Archive (StepOutcome)

/-- A section takes these span objects: a Step with its outcome, and the Run without one. -/
def takes : (op : Op) → op.Answer → List (Nat × Option StepOutcome)
  | .popStep _, some step => [(step.span, some .passed)]
  | .failStep _ error, some step =>
      [(step.span, some (if isGraphInterrupt error then .awaitingApproval else .failed))]
  | .shut, some (leaked, runSpan) =>
      leaked.map (fun step => (step.span, some .failed)) ++ runSpan.toList.map fun span => (span, none)
  | _, _ => []

/-- A span object has ended once, and a Step has this outcome. -/
def Settled (outcome : Option StepOutcome) (object : TracedSpan) : Prop :=
  object.endings = 1 ∧ ∀ known ∈ outcome,
    object.attributes.get? "cord.outcome" = some known.value ∧ object.error = decide (known = .failed)

/-- The Step has been declared as passed, and nothing has changed this yet. -/
def Running (object : TracedSpan) : Prop :=
  object.recording = true ∧ object.attributes.get? "cord.outcome" = some "passed" ∧ object.error = false

/-- A call of a span object leaves the other objects alone. -/
def Work.on (span : Nat) (object : TracedSpan) (work : Work) : TracedSpan :=
  if work.span = span then work.apply object else object

variable {Pid : Type} {taken : Nat → List (Pid × Option StepOutcome)} {left : Pid → List Work}
  {handler after : Handler} {pid : Pid} {runId : Uuid} {step : OpenStep}

/-- A span object is open until one section takes it. The thread of this section ends it with the work that is left. -/
structure Ledger (taken : Nat → List (Pid × Option StepOutcome)) (left : Pid → List Work) (handler : Handler) :
    Prop where
  known : ∀ span, taken span ≠ [] → span < handler.spans.length
  work : ∀ pid, ∀ work ∈ left pid, ∃ outcome, taken work.span = [(pid, outcome)]
  steps : ∀ runId step, handler.byRunId.get? runId = some step → taken step.span = [] ∧
    handler.runSpan ≠ some step.span ∧ ∃ object, handler.spans[step.span]? = some object ∧ Running object
  single : ∀ first second one two, handler.byRunId.get? first = some one → handler.byRunId.get? second = some two →
    one.span = two.span → first = second
  run : ∀ span, handler.runSpan = some span → span < handler.spans.length ∧ (handler.closed = false → taken span = [])
  idle : ∀ span object, handler.spans[span]? = some object → taken span = [] → object.endings = 0 ∧
    (handler.runSpan = some span ∧ handler.closed = false ∨
      ∃ runId step, handler.byRunId.get? runId = some step ∧ step.span = span)
  settled : ∀ span object, handler.spans[span]? = some object → taken span ≠ [] → ∃ pid outcome,
    taken span = [(pid, outcome)] ∧ (outcome = none → handler.runSpan = some span) ∧
      Settled outcome ((left pid).foldl (Work.on span) object)
  empty : handler.closed = true → ∀ runId, handler.byRunId.get? runId = none

/-- A handler without spans has an empty ledger. -/
theorem ledger_fresh (resumedFrom : Option String) :
    Ledger (fun _ => ([] : List (Pid × Option StepOutcome))) (fun _ => []) (fresh resumedFrom) where
  known _ some := absurd rfl some
  work _ _ never := absurd never List.not_mem_nil
  steps _ _ never := by cases never
  single _ _ _ _ never := by cases never
  run _ never := by cases never
  idle _ _ never := by cases never
  settled _ _ never := by cases never
  empty never := by cases never

/-- A new object is not taken. -/
theorem Ledger.untaken (ledger : Ledger taken left handler) : taken handler.spans.length = [] := by
  by_contra some
  exact Nat.lt_irrefl _ (ledger.known _ some)

theorem found_concat {A : Type} {items : List A} {item found : A} {index : Nat}
    (held : (items ++ [item])[index]? = some found) :
    items[index]? = some found ∨ index = items.length ∧ found = item := by
  rcases Nat.lt_trichotomy index items.length with before | rfl | behind
  · rw [List.getElem?_append_left before] at held
    exact .inl held
  · rw [List.getElem?_concat_length] at held
    exact .inr ⟨rfl, (Option.some.inj held).symm⟩
  · rw [List.getElem?_eq_none (by rw [List.length_append, List.length_singleton]; omega)] at held
    cases held

theorem held_concat {A : Type} {items : List A} {index : Nat} {found : A} (item : A)
    (held : items[index]? = some found) : (items ++ [item])[index]? = some found := by
  obtain ⟨before, -⟩ := List.getElem?_eq_some_iff.mp held
  rw [List.getElem?_append_left before, held]

/-- The Run opens with an object of its own. -/
theorem Ledger.openRun (ledger : Ledger taken left handler) (running : handler.closed = false)
    (none : handler.runSpan = none) (attributes : Dict String String) {object : TracedSpan} (new : object.endings = 0) :
    Ledger taken left { handler with
      runSpan := some handler.spans.length, runAttributes := attributes, spans := handler.spans ++ [object] } where
  known span some := by
    have before := ledger.known span some
    simp only [List.length_append, List.length_singleton]
    omega
  work := ledger.work
  steps runId step held := by
    obtain ⟨free, -, found, stored, passed⟩ := ledger.steps runId step held
    obtain ⟨before, -⟩ := List.getElem?_eq_some_iff.mp stored
    refine ⟨free, ?_, found, held_concat object stored, passed⟩
    intro same
    have equal : handler.spans.length = step.span := Option.some.inj same
    omega
  single := ledger.single
  run span same := by
    obtain rfl := Option.some.inj same
    refine ⟨?_, fun _ => ledger.untaken⟩
    simp only [List.length_append, List.length_singleton]
    omega
  idle span found held free := by
    rcases found_concat held with old | ⟨rfl, rfl⟩
    · obtain ⟨zero, owner⟩ := ledger.idle span found old free
      refine ⟨zero, .inr ?_⟩
      rcases owner with ⟨same, -⟩ | indexed
      · rw [none] at same
        cases same
      · exact indexed
    · exact ⟨new, .inl ⟨rfl, running⟩⟩
  settled span found held some := by
    rcases found_concat held with old | ⟨rfl, -⟩
    · obtain ⟨pid, outcome, owned, run, done⟩ := ledger.settled span found old some
      refine ⟨pid, outcome, owned, ?_, done⟩
      intro no_outcome
      have same := run no_outcome
      rw [none] at same
      cases same
    · exact absurd ledger.untaken some
  empty := ledger.empty

/-- A Step opens under a callback run that the index does not hold. -/
theorem Ledger.openStep (ledger : Ledger taken left handler) (running : handler.closed = false)
    (unused : handler.byRunId.get? runId = none) (resumedFrom : Option String) (names : Dict String OpenStep)
    {object : TracedSpan} (new : object.endings = 0) (passed : Running object)
    (same : step.span = handler.spans.length) : Ledger taken left { handler with
      pendingResumedFrom := resumedFrom, spans := handler.spans ++ [object],
      byRunId := handler.byRunId.set runId step, byCheckpointNs := names } where
  known span some := by
    have before := ledger.known span some
    simp only [List.length_append, List.length_singleton]
    omega
  work := ledger.work
  steps other found held := by
    rw [Dict.get?_set] at held
    split at held
    · obtain rfl := Option.some.inj held
      rw [same]
      refine ⟨ledger.untaken, ?_, object, List.getElem?_concat_length, passed⟩
      intro owned
      have before := (ledger.run _ owned).1
      omega
    · obtain ⟨free, apart, stored, at_, kept⟩ := ledger.steps other found held
      exact ⟨free, apart, stored, held_concat object at_, kept⟩
  single first second one two held other equal := by
    have fresh {runId : Uuid} {old : OpenStep} (stored : handler.byRunId.get? runId = some old) :
        old.span ≠ step.span := by
      obtain ⟨-, -, found, at_, -⟩ := ledger.steps runId old stored
      obtain ⟨before, -⟩ := List.getElem?_eq_some_iff.mp at_
      omega
    rw [Dict.get?_set] at held other
    split at held
    · rename_i is_first
      obtain rfl := Option.some.inj held
      split at other
      · rename_i is_second
        rw [is_first, is_second]
      · exact absurd equal.symm (fresh other)
    · split at other
      · obtain rfl := Option.some.inj other
        exact absurd equal (fresh held)
      · exact ledger.single first second one two held other equal
  run span owned := by
    obtain ⟨before, free⟩ := ledger.run span owned
    refine ⟨?_, free⟩
    simp only [List.length_append, List.length_singleton]
    omega
  idle span found held free := by
    rcases found_concat held with old | ⟨rfl, rfl⟩
    · obtain ⟨zero, owner⟩ := ledger.idle span found old free
      refine ⟨zero, ?_⟩
      rcases owner with run | ⟨other, stored, at_, equal⟩
      · exact .inl run
      · refine .inr ⟨other, stored, ?_, equal⟩
        have different : other ≠ runId := by
          rintro rfl
          rw [unused] at at_
          cases at_
        rw [Dict.get?_set_of_ne _ different]
        exact at_
    · exact ⟨new, .inr ⟨runId, step, Dict.get?_set_self _ _ _, same⟩⟩
  settled span found held some := by
    rcases found_concat held with old | ⟨rfl, -⟩
    · exact ledger.settled span found old some
    · exact absurd ledger.untaken some
  empty closed := by
    rw [running] at closed
    cases closed

@[simp] theorem change_spans_length (handler : Handler) (span : Nat) (update : TracedSpan → TracedSpan) :
    (handler.change span update).spans.length = handler.spans.length := List.length_modify ..

theorem change_spans (handler : Handler) (span index : Nat) (update : TracedSpan → TracedSpan) :
    (handler.change span update).spans[index]? =
      (handler.spans[index]?).map fun object => if span = index then update object else object :=
  List.getElem?_modify ..

/-- A change of one object keeps the others. -/
theorem change_spans_of_ne (handler : Handler) {span index : Nat} (update : TracedSpan → TracedSpan)
    (different : index ≠ span) : (handler.change span update).spans[index]? = handler.spans[index]? := by
  rw [change_spans]
  cases handler.spans[index]? with
  | none => rfl
  | some object => simp [Ne.symm different]

section
variable [DecidableEq Pid]

/-- The section that takes a Step leaves its end to the thread. -/
theorem Ledger.pop (ledger : Ledger taken left handler) (idle : left pid = [])
    (stored : handler.byRunId.get? runId = some step) (outcome : StepOutcome) (names : Dict String OpenStep)
    (approvals : List AwaitingApproval) (update : TracedSpan → TracedSpan)
    (ends : ∀ object, object.endings = 0 → Running object → Settled (some outcome) (update object).finish) :
    Ledger (fun span => if span = step.span then [(pid, some outcome)] else taken span)
      (Function.update left pid [.finish step.span])
      { handler.change step.span update with
        byRunId := handler.byRunId.erase runId, byCheckpointNs := names, awaitingApprovalSteps := approvals } := by
  obtain ⟨free, apart, object, at_, passed⟩ := ledger.steps runId step stored
  obtain ⟨before, -⟩ := List.getElem?_eq_some_iff.mp at_
  have other_step {other : Uuid} {found : OpenStep} (held : (handler.byRunId.erase runId).get? other = some found) :
      handler.byRunId.get? other = some found ∧ found.span ≠ step.span := by
    by_cases same : other = runId
    · rw [same, Dict.get?_erase_self] at held
      cases held
    · rw [Dict.get?_erase_of_ne _ same] at held
      exact ⟨held, fun equal => same (ledger.single other runId found step held stored equal)⟩
  constructor
  · intro span some
    show span < (handler.change step.span update).spans.length
    rw [change_spans_length]
    by_cases same : span = step.span
    · omega
    · rw [if_neg same] at some
      exact ledger.known span some
  · intro other work member
    by_cases same : other = pid
    · subst other
      rw [Function.update_self, List.mem_singleton] at member
      exact ⟨outcome, by rw [member]; exact if_pos rfl⟩
    · rw [Function.update_of_ne same] at member
      obtain ⟨known, owned⟩ := ledger.work other work member
      refine ⟨known, ?_⟩
      rw [if_neg, owned]
      intro equal
      rw [equal, free] at owned
      cases owned
  · intro other found held
    obtain ⟨earlier, different⟩ := other_step held
    obtain ⟨untaken, run, old, held_at, kept⟩ := ledger.steps other found earlier
    refine ⟨by rw [if_neg different, untaken], run, old, ?_, kept⟩
    exact (change_spans_of_ne handler update different).trans held_at
  · intro first second one two held other equal
    exact ledger.single first second one two (other_step held).1 (other_step other).1 equal
  · intro span same
    obtain ⟨inside, untaken⟩ := ledger.run span same
    refine ⟨?_, ?_⟩
    · show span < (handler.change step.span update).spans.length
      rw [change_spans_length]
      exact inside
    · intro running
      rw [if_neg, untaken running]
      rintro rfl
      exact apart same
  · intro span found held untaken
    have different : span ≠ step.span := by
      intro equal
      rw [if_pos equal] at untaken
      cases untaken
    rw [if_neg different] at untaken
    obtain ⟨zero, owner⟩ := ledger.idle span found ((change_spans_of_ne handler update different).symm.trans held) untaken
    refine ⟨zero, ?_⟩
    rcases owner with run | ⟨other, kept, indexed, equal⟩
    · exact .inl run
    · refine .inr ⟨other, kept, ?_, equal⟩
      have apart : other ≠ runId := by
        rintro rfl
        rw [stored] at indexed
        obtain rfl := Option.some.inj indexed
        exact different equal.symm
      rw [← indexed]
      exact Dict.get?_erase_of_ne _ apart
  · intro span found held some
    by_cases same : span = step.span
    · subst span
      have new : found = update object := by
        have moved := change_spans handler step.span step.span update
        rw [at_, Option.map_some, if_pos rfl] at moved
        exact Option.some.inj (held.symm.trans moved)
      refine ⟨pid, outcome, if_pos rfl, (by simp), ?_⟩
      rw [Function.update_self, new]
      have zero := (ledger.idle step.span object at_ free).1
      simpa [Work.on, Work.span, Work.apply] using ends object zero passed
    · rw [if_neg same] at some
      obtain ⟨owner, known, owned, run, done⟩ :=
        ledger.settled span found ((change_spans_of_ne handler update same).symm.trans held) some
      refine ⟨owner, known, by rw [if_neg same, owned], run, ?_⟩
      by_cases mine : owner = pid
      · subst owner
        rw [idle] at done
        rw [Function.update_self]
        simpa [Work.on, Work.span, Ne.symm same] using done
      · rw [Function.update_of_ne mine]
        exact done
  · intro closed
    have never := ledger.empty closed runId
    rw [stored] at never
    cases never

/-- A thread does the first work that is left to it. -/
theorem Ledger.does (ledger : Ledger taken left handler) {work : Work} {rest : List Work}
    (next : left pid = work :: rest) :
    Ledger taken (Function.update left pid rest) (handler.change work.span work.apply) := by
  obtain ⟨outcome, mine⟩ := ledger.work pid work (by rw [next]; exact List.mem_cons_self)
  have other_object {span : Nat} (free : taken span = []) : span ≠ work.span := by
    rintro rfl
    rw [mine] at free
    cases free
  constructor
  · intro span some
    rw [change_spans_length]
    exact ledger.known span some
  · intro other found member
    by_cases same : other = pid
    · subst other
      rw [Function.update_self] at member
      exact ledger.work pid found (by rw [next]; exact List.mem_cons_of_mem _ member)
    · rw [Function.update_of_ne same] at member
      exact ledger.work other found member
  · intro runId step held
    obtain ⟨free, apart, object, at_, passed⟩ := ledger.steps runId step held
    exact ⟨free, apart, object, (change_spans_of_ne handler _ (other_object free)).trans at_, passed⟩
  · exact ledger.single
  · intro span same
    rw [change_spans_length]
    exact ledger.run span same
  · intro span object held free
    exact ledger.idle span object ((change_spans_of_ne handler _ (other_object free)).symm.trans held) free
  · intro span object held some
    rw [change_spans] at held
    obtain ⟨old, at_, rfl⟩ := Option.map_eq_some_iff.mp held
    obtain ⟨owner, known, owned, run, done⟩ := ledger.settled span old at_ some
    refine ⟨owner, known, owned, run, ?_⟩
    by_cases same : work.span = span
    · subst span
      rw [mine, List.cons.injEq, Prod.mk.injEq] at owned
      obtain ⟨⟨rfl, rfl⟩, -⟩ := owned
      rw [next, List.foldl_cons, Work.on, if_pos rfl] at done
      rw [Function.update_self, if_pos rfl]
      exact done
    · rw [if_neg same]
      by_cases own : owner = pid
      · subst owner
        rw [next, List.foldl_cons, Work.on, if_neg same] at done
        rw [Function.update_self]
        exact done
      · rw [Function.update_of_ne own]
        exact done
  · exact ledger.empty

end

/-- The work for other objects leaves an object alone. -/
theorem foldl_others {work : List Work} {span : Nat} (others : ∀ next ∈ work, next.span ≠ span) (object : TracedSpan) :
    work.foldl (Work.on span) object = object := by
  induction work with
  | nil => rfl
  | cons next rest ih =>
      obtain ⟨first, later⟩ := List.forall_mem_cons.mp others
      rw [List.foldl_cons, Work.on, if_neg first]
      exact ih later

theorem leakedWork_span {leaked : List OpenStep} {work : Work} (member : work ∈ leaked.flatMap leakedWork) :
    ∃ step ∈ leaked, work.span = step.span := by
  obtain ⟨step, held, own⟩ := List.mem_flatMap.mp member
  refine ⟨step, held, ?_⟩
  simp only [leakedWork, List.mem_cons, List.not_mem_nil, or_false] at own
  rcases own with rfl | rfl | rfl <;> rfl

/-- The work for a leaked Step fails and ends its own object. -/
theorem foldl_leaked {leaked : List OpenStep} (distinct : (leaked.map OpenStep.span).Nodup) (held : step ∈ leaked)
    (object : TracedSpan) : (leaked.flatMap leakedWork).foldl (Work.on step.span) object =
      ((object.setAttribute "cord.outcome" "failed").setError).finish := by
  induction leaked generalizing object with
  | nil => cases held
  | cons first leaked ih =>
      rw [List.map_cons, List.nodup_cons] at distinct
      rw [List.flatMap_cons, List.foldl_append]
      have apart {other : OpenStep} (member : other ∈ leaked) : other.span ≠ first.span := fun same =>
        distinct.1 (List.mem_map.mpr ⟨other, member, same⟩)
      rcases List.mem_cons.mp held with rfl | later
      · rw [foldl_others]
        · simp [leakedWork, Work.on, Work.span, Work.apply]
        · intro work member
          obtain ⟨other, inside, equal⟩ := leakedWork_span member
          rw [equal]
          exact apart inside
      · rw [ih distinct.2 later]
        have different : first.span ≠ step.span := fun same => apart later same.symm
        simp [leakedWork, Work.on, Work.span, different]

/-- A section takes an object for its thread. -/
def takenBy (pid : Pid) (op : Op) (answer : op.Answer) (span : Nat) : List (Pid × Option StepOutcome) :=
  ((takes op answer).filter fun taken => taken.1 = span).map fun taken => (pid, taken.2)

theorem takenBy_shut (pid : Pid) (leaked : List OpenStep) (runSpan : Option Nat) (span : Nat) :
    takenBy pid .shut (some (leaked, runSpan)) span =
      (leaked.filter fun step => step.span = span).map (fun _ => (pid, some .failed)) ++
        (runSpan.toList.filter fun run => run = span).map fun _ => (pid, none) := by
  unfold takenBy takes
  rw [List.filter_append, List.map_append, List.filter_map, List.filter_map, List.map_map, List.map_map]
  rfl

theorem filter_single {leaked : List OpenStep} (distinct : (leaked.map OpenStep.span).Nodup) (held : step ∈ leaked) :
    (leaked.filter fun other => other.span = step.span) = [step] := by
  induction leaked with
  | nil => cases held
  | cons first leaked ih =>
      rw [List.map_cons, List.nodup_cons] at distinct
      rcases List.mem_cons.mp held with rfl | later
      · rw [List.filter_cons_of_pos (by simp)]
        congr 1
        apply List.filter_eq_nil_iff.mpr
        intro other member same
        exact distinct.1 (List.mem_map.mpr ⟨other, member, of_decide_eq_true same⟩)
      · rw [List.filter_cons_of_neg, ih distinct.2 later]
        intro same
        exact distinct.1 (List.mem_map.mpr ⟨step, later, (of_decide_eq_true same).symm⟩)

/-- The open Steps of the index. -/
def Handler.leaked (handler : Handler) : List OpenStep := handler.byRunId.items.map Prod.snd

theorem mem_leaked : step ∈ handler.leaked ↔ ∃ runId, handler.byRunId.get? runId = some step := by
  unfold Handler.leaked
  rw [List.mem_map]
  constructor
  · rintro ⟨⟨runId, stored⟩, held, rfl⟩
    exact ⟨runId, (Dict.get?_eq_some_iff _ _ _).mpr held⟩
  · rintro ⟨runId, stored⟩
    exact ⟨(runId, step), (Dict.get?_eq_some_iff _ _ _).mp stored, rfl⟩

theorem Ledger.leaked_distinct (ledger : Ledger taken left handler) : (handler.leaked.map OpenStep.span).Nodup := by
  unfold Handler.leaked
  rw [List.map_map]
  apply List.Nodup.map_on _ (List.Nodup.of_map Prod.fst handler.byRunId.distinct)
  rintro ⟨first, one⟩ held ⟨second, two⟩ other same
  have held := (Dict.get?_eq_some_iff _ _ _).mpr held
  have other := (Dict.get?_eq_some_iff _ _ _).mpr other
  obtain rfl := ledger.single first second one two held other same
  rw [held] at other
  rw [Option.some.inj other]

section
variable [DecidableEq Pid]

/-- The section of the first close takes the Run and every Step that is still open. -/
theorem Ledger.shut (ledger : Ledger taken left handler) (idle : left pid = []) (running : handler.closed = false) :
    Ledger (fun span => takenBy pid .shut (some (handler.leaked, handler.runSpan)) span ++ taken span)
      (Function.update left pid (handler.leaked.flatMap leakedWork ++ handler.runSpan.toList.map .finish))
      { handler with closed := true, byRunId := .empty, byCheckpointNs := .empty } := by
  have of_step {step : OpenStep} (held : step ∈ handler.leaked) :
      takenBy pid .shut (some (handler.leaked, handler.runSpan)) step.span ++ taken step.span =
        [(pid, some .failed)] := by
    obtain ⟨runId, stored⟩ := mem_leaked.mp held
    obtain ⟨free, apart, -⟩ := ledger.steps runId step stored
    have no_run : handler.runSpan.toList.filter (fun run => run = step.span) = [] := by
      apply List.filter_eq_nil_iff.mpr
      intro run same equal
      rw [of_decide_eq_true equal] at same
      exact apart (Option.mem_toList.mp same)
    rw [takenBy_shut, filter_single ledger.leaked_distinct held, free, no_run]
    rfl
  have of_run {span : Nat} (same : handler.runSpan = some span) :
      takenBy pid .shut (some (handler.leaked, handler.runSpan)) span ++ taken span = [(pid, none)] := by
    have no_step : handler.leaked.filter (fun step => step.span = span) = [] := by
      apply List.filter_eq_nil_iff.mpr
      intro step held equal
      obtain ⟨runId, stored⟩ := mem_leaked.mp held
      exact (ledger.steps runId step stored).2.1 (by rw [of_decide_eq_true equal]; exact same)
    rw [takenBy_shut, no_step, (ledger.run span same).2 running, same]
    simp
  have of_other {span : Nat} (no_step : ∀ step ∈ handler.leaked, step.span ≠ span) (no_run : handler.runSpan ≠ some span) :
      takenBy pid .shut (some (handler.leaked, handler.runSpan)) span ++ taken span = taken span := by
    have none_left : handler.leaked.filter (fun step => step.span = span) = [] := by
      apply List.filter_eq_nil_iff.mpr
      intro step held equal
      exact no_step step held (of_decide_eq_true equal)
    have no_object : handler.runSpan.toList.filter (fun run => run = span) = [] := by
      apply List.filter_eq_nil_iff.mpr
      intro run same equal
      rw [of_decide_eq_true equal] at same
      exact no_run (Option.mem_toList.mp same)
    rw [takenBy_shut, none_left, no_object]
    rfl
  constructor
  · intro span some
    by_cases run : handler.runSpan = Option.some span
    · exact (ledger.run span run).1
    · by_cases step : ∃ step ∈ handler.leaked, step.span = span
      · obtain ⟨step, held, rfl⟩ := step
        obtain ⟨runId, stored⟩ := mem_leaked.mp held
        obtain ⟨-, -, object, at_, -⟩ := ledger.steps runId step stored
        exact (List.getElem?_eq_some_iff.mp at_).1
      · beta_reduce at some
        rw [of_other (fun other held same => step ⟨other, held, same⟩) run] at some
        exact ledger.known span some
  · intro other work member
    by_cases same : other = pid
    · subst other
      rw [Function.update_self, List.mem_append] at member
      rcases member with leaked | run
      · obtain ⟨step, held, equal⟩ := leakedWork_span leaked
        exact ⟨some .failed, by rw [equal]; exact of_step held⟩
      · obtain ⟨span, held, rfl⟩ := List.mem_map.mp run
        exact ⟨none, of_run (Option.mem_toList.mp held)⟩
    · rw [Function.update_of_ne same] at member
      obtain ⟨outcome, owned⟩ := ledger.work other work member
      refine ⟨outcome, ?_⟩
      rw [of_other, owned]
      · intro step held equal
        obtain ⟨runId, stored⟩ := mem_leaked.mp held
        have free := (ledger.steps runId step stored).1
        rw [equal, owned] at free
        cases free
      · intro run
        have free := (ledger.run _ run).2 running
        rw [owned] at free
        cases free
  · intro runId step never
    cases never
  · intro first second one two never
    cases never
  · intro span same
    refine ⟨(ledger.run span same).1, ?_⟩
    intro never
    cases never
  · intro span object held free
    beta_reduce at free
    have untaken : taken span = [] := (List.append_eq_nil_iff.mp free).2
    rcases (ledger.idle span object held untaken).2 with ⟨run, -⟩ | ⟨runId, step, stored, rfl⟩
    · rw [of_run run] at free
      cases free
    · rw [of_step (mem_leaked.mpr ⟨runId, stored⟩)] at free
      cases free
  · intro span object held some
    beta_reduce at some ⊢
    by_cases untaken : taken span = []
    · obtain ⟨zero, owner⟩ := ledger.idle span object held untaken
      rcases owner with ⟨run, -⟩ | ⟨runId, step, stored, rfl⟩
      · refine ⟨pid, none, of_run run, fun _ => run, ?_⟩
        have alone : (handler.leaked.flatMap leakedWork).foldl (Work.on span) object = object := by
          apply foldl_others
          intro work member same
          obtain ⟨step, inside, equal⟩ := leakedWork_span member
          obtain ⟨runId, stored⟩ := mem_leaked.mp inside
          apply (ledger.steps runId step stored).2.1
          rw [run, ← same, equal]
        rw [Function.update_self, List.foldl_append, alone, run]
        refine ⟨?_, fun _ never => by cases never⟩
        simp [Work.on, Work.span, Work.apply, TracedSpan.finish, zero]
      · have inside := mem_leaked.mpr ⟨runId, stored⟩
        obtain ⟨-, apart, found, at_, passed⟩ := ledger.steps runId step stored
        obtain rfl := Option.some.inj (held.symm.trans at_)
        refine ⟨pid, Option.some .failed, of_step inside, (by simp), ?_⟩
        rw [Function.update_self, List.foldl_append, foldl_leaked ledger.leaked_distinct inside, foldl_others]
        · simp [Settled, TracedSpan.setAttribute, TracedSpan.setError, TracedSpan.finish, zero, passed.1,
            StepOutcome.value]
        · intro work member same
          obtain ⟨run, own, rfl⟩ := List.mem_map.mp member
          apply apart
          rw [Option.mem_toList.mp own]
          exact congrArg Option.some same
    · obtain ⟨owner, outcome, owned, own_run, done⟩ := ledger.settled span object held untaken
      have no_step : ∀ step ∈ handler.leaked, step.span ≠ span := by
        rintro step inside rfl
        obtain ⟨runId, stored⟩ := mem_leaked.mp inside
        exact untaken (ledger.steps runId step stored).1
      have no_run : handler.runSpan ≠ Option.some span := fun run => untaken ((ledger.run span run).2 running)
      refine ⟨owner, outcome, by rw [of_other no_step no_run, owned], own_run, ?_⟩
      by_cases mine : owner = pid
      · subst owner
        rw [idle] at done
        rw [Function.update_self, foldl_others]
        · exact done
        · intro work member same
          rcases List.mem_append.mp member with leaked | run
          · obtain ⟨step, inside, equal⟩ := leakedWork_span leaked
            exact no_step step inside (equal.symm.trans same)
          · obtain ⟨run, own, rfl⟩ := List.mem_map.mp run
            exact no_run ((Option.mem_toList.mp own).trans (congrArg Option.some same))
      · rw [Function.update_of_ne mine]
        exact done
  · intro _ runId
    rfl

end

end Cordboard.Callbacks
