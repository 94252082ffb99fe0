import Cordboard.Proof.Callbacks.Openings

namespace Cordboard.Callbacks
open Data Effects Execution
open Archive (StepOutcome)

variable {Pid : Type} [DecidableEq Pid] {resumedFrom : Option String} {history : Chronicle Pid}
  {handler middle after : Handler} {pid : Pid} {step : OpenStep} {platform : Platform} {identity : Identity}

/-- A call that enters a section has done nothing before. -/
theorem left_section {op : Op} {answer : op.Answer} (inside : ∀ work, op ≠ .work work)
    (permitted : permits (duties.phase (fun _ => none) history pid) op) : left history pid = [] ∧
      left (.act pid ⟨op, answer⟩ :: history) = Function.update (left history) pid (owed op answer) := by
  have entering : duties.phase (fun _ => none) history pid = none := by
    cases known : duties.phase (fun _ => none) history pid with
    | none => rfl
    | some work =>
        rw [known] at permitted
        cases op with
        | work next => exact absurd rfl (inside next)
        | _ => cases permitted
  have leaves : advance none op answer = some (owed op answer) := by
    cases op <;> rfl
  constructor
  · rw [left, entering]
    rfl
  · funext other
    by_cases same : other = pid
    · subst other
      rw [Function.update_self, left, Protocol.phase_act_self, entering]
      show (advance none op answer).getD [] = owed op answer
      rw [leaves]
      rfl
    · rw [Function.update_of_ne same, left, left, Protocol.phase_act_of_ne _ _ same]

/-- A call of a span object is the first work that is left. -/
theorem left_work {work : Work} {answer : Unit}
    (permitted : permits (duties.phase (fun _ => none) history pid) (.work work)) : ∃ rest,
      left history pid = work :: rest ∧
        left (.act pid ⟨.work work, answer⟩ :: history) = Function.update (left history) pid rest := by
  cases known : duties.phase (fun _ => none) history pid with
  | none =>
      rw [known] at permitted
      cases permitted
  | some works =>
      rw [known] at permitted
      obtain ⟨rest, rfl⟩ : ∃ rest, works = work :: rest := by
        cases works with
        | nil => cases permitted
        | cons first rest => exact ⟨rest, by rw [Option.some.inj permitted]⟩
      refine ⟨rest, by rw [left, known]; rfl, ?_⟩
      funext other
      by_cases same : other = pid
      · subst other
        rw [Function.update_self, left, Protocol.phase_act_self, known]
        rfl
      · rw [Function.update_of_ne same, left, left, Protocol.phase_act_of_ne _ _ same]

omit [DecidableEq Pid] in
/-- An operation that takes nothing keeps the takers. -/
theorem taken_none {op : Op} {answer : op.Answer} (nothing : takes op answer = []) :
    taken (.act pid ⟨op, answer⟩ :: history) = taken history := by
  funext span
  rw [taken, takenBy, nothing]
  rfl

omit [DecidableEq Pid] in
theorem taken_step {op : Op} {answer : op.Answer} {outcome : StepOutcome}
    (one : takes op answer = [(step.span, some outcome)]) (free : taken history step.span = []) :
    taken (.act pid ⟨op, answer⟩ :: history) =
      fun span => if span = step.span then [(pid, some outcome)] else taken history span := by
  funext span
  rw [taken, takenBy, one]
  by_cases same : span = step.span
  · subst span
    simp [free]
  · simp [same, Ne.symm same]

omit [DecidableEq Pid] in
/-- Growth keeps what is known about the opening of a Step. -/
theorem OpenedUnder.grows {before : Chronicle Pid} {object : TracedSpan}
    (known : OpenedUnder resumedFrom before handler step object) (at_ : handler.spans[step.span]? = some object)
    (grows : Grows handler after) :
    ∃ next, after.spans[step.span]? = some next ∧ OpenedUnder resumedFrom before after step next := by
  obtain ⟨next, next_at, parent, mark⟩ := grows.objects step.span object at_
  refine ⟨next, next_at, ?_, ?_, mark.trans known.resumed⟩
  · intro above held nested
    rw [parent]
    exact known.nested above held nested
  · intro alone
    obtain ⟨some, same⟩ := known.top alone
    obtain ⟨run, run_at⟩ := Option.isSome_iff_exists.mp some
    have kept := grows.run run run_at
    rw [parent, same, run_at, kept]
    exact ⟨rfl, rfl⟩

/-- An operation that opens no Step keeps the agreement with the past. -/
theorem Holds.unopened (holds : Holds resumedFrom history handler) {label : Label signature Pid}
    (none : opens label = none) (grows : Grows handler after) (run : after.runSpan = handler.runSpan)
    (length : after.spans.length = handler.spans.length) (pending : after.pendingResumedFrom = handler.pendingResumedFrom)
    (attributes : after.runAttributes = handler.runAttributes)
    (ledger : Ledger (taken (label :: history)) (left (label :: history)) after)
    (indexed : ∀ runId step, after.byRunId.get? runId = some step → handler.byRunId.get? runId = some step)
    (names : ∀ checkpointNs step, after.byCheckpointNs.get? checkpointNs = some step ↔
      (∃ runId, after.byRunId.get? runId = some step) ∧ step.checkpointNs = checkpointNs)
    (shut : after.closed = true ↔ HasClosed (label :: history)) :
    Holds resumedFrom (label :: history) after := by
  have same : opened (label :: history) = opened history := List.filterMap_cons_none none
  constructor
  · exact ledger
  · intro runId step stored
    obtain ⟨known, started⟩ := holds.indexed runId step (indexed runId step stored)
    rw [same]
    refine ⟨known, ?_⟩
    obtain ⟨entry, held, found⟩ := List.mem_filterMap.mp started
    exact List.mem_filterMap.mpr ⟨entry, List.mem_cons_of_mem _ held, found⟩
  · rw [same, length, run]
    exact holds.inside
  · rw [same]
    exact holds.distinct
  · rw [same, length, run]
    exact holds.owned
  · exact names
  · rw [pending, same]
    exact holds.pending
  · rw [attributes]
    exact holds.unmarked
  · intro later entry before split step opening
    cases later with
    | nil =>
        obtain ⟨rfl, -⟩ := List.cons.inj split
        rw [none] at opening
        cases opening
    | cons first later =>
        obtain ⟨object, at_, known⟩ := holds.opening later entry before (List.cons.inj split).2 step opening
        exact known.grows at_ grows
  · exact shut

omit [DecidableEq Pid] in
/-- Another section than the close does not close the handler. -/
theorem shut_cons {op : Op} {answer : op.Answer} (other : op ≠ .shut) :
    HasClosed (.act pid ⟨op, answer⟩ :: history : Chronicle Pid) ↔ HasClosed history := by
  constructor
  · rintro ⟨thread, found, member⟩
    rcases List.mem_cons.mp member with same | member
    · exact absurd (congrArg (fun event => event.1) (Label.act.inj same).2).symm other
    · exact ⟨thread, found, member⟩
  · rintro ⟨thread, found, member⟩
    exact ⟨thread, found, List.mem_cons_of_mem _ member⟩

/-- A section that changes nothing keeps the agreement with the past. -/
theorem Holds.quiet (holds : Holds resumedFrom history handler) {op : Op} {answer : op.Answer}
    (inside : ∀ work, op ≠ .work work) (permitted : permits (duties.phase (fun _ => none) history pid) op)
    (none : opens (.act pid ⟨op, answer⟩ : Label signature Pid) = none) (nothing : takes op answer = [])
    (free : owed op answer = []) (shut : op = .shut → handler.closed = true) :
    Holds resumedFrom (.act pid ⟨op, answer⟩ :: history) handler := by
  obtain ⟨idle, work⟩ := @left_section Pid _ history pid op answer inside permitted
  apply holds.unopened none (Grows.refl handler) rfl rfl rfl rfl
  · rw [taken_none nothing, work, free, ← idle, Function.update_eq_self]
    exact holds.ledger
  · exact fun _ _ stored => stored
  · exact holds.names
  · by_cases closing : op = .shut
    · subst op
      exact ⟨fun _ => ⟨pid, answer, List.mem_cons_self⟩, fun _ => shut rfl⟩
    · exact holds.shut.trans (shut_cons closing).symm

/-- The Run is there, or it opens with an object of its own. -/
theorem ensureRun_cases (ready : ensureRun platform identity handler = .ok middle) :
    handler.runSpan.isSome ∧ middle = handler ∨ handler.runSpan = none ∧
      ∃ (graphId runId subject subjectType : String) (object : TracedSpan), object.endings = 0 ∧
        middle = { handler with
          runSpan := some handler.spans.length, runAttributes := runAttributes graphId runId subject subjectType,
          spans := handler.spans ++ [object] } := by
  unfold ensureRun at ready
  split at ready
  · rename_i present
    exact .inl ⟨present, (Except.ok.inj ready).symm⟩
  · rename_i absent
    refine .inr ⟨Option.not_isSome_iff_eq_none.mp absent, ?_⟩
    split at ready
    · split at ready
      · obtain rfl := Except.ok.inj ready
        exact ⟨_, _, _, _, _, rfl, rfl⟩
      · cases ready
    · obtain rfl := Except.ok.inj ready
      exact ⟨_, _, _, _, _, rfl, rfl⟩

/-- The handler with its Run agrees with the same past. -/
theorem Holds.ready (holds : Holds resumedFrom history handler) (running : handler.closed = false)
    (ready : ensureRun platform identity handler = .ok middle) :
    Holds resumedFrom history middle ∧ middle.runSpan.isSome ∧ middle.closed = false := by
  rcases ensureRun_cases ready with ⟨present, rfl⟩ | ⟨none, graphId, runId, subject, subjectType, object, new, rfl⟩
  · exact ⟨holds, present, running⟩
  · refine ⟨?_, rfl, running⟩
    have grows : Grows handler { handler with
        runSpan := some handler.spans.length, runAttributes := runAttributes graphId runId subject subjectType,
        spans := handler.spans ++ [object] } := by
      constructor
      · exact fun _ found held => ⟨found, held_concat object held, rfl, rfl⟩
      · intro span same
        rw [none] at same
        cases same
    constructor
    · exact holds.ledger.openRun running none _ new
    · exact holds.indexed
    · intro step known
      have before := (holds.inside step known).1
      refine ⟨?_, ?_⟩
      · rw [List.length_append, List.length_singleton]
        omega
      · intro same
        have equal : handler.spans.length = step.span := Option.some.inj same
        omega
    · exact holds.distinct
    · intro span before
      rw [List.length_append, List.length_singleton] at before
      rcases Nat.lt_succ_iff_lt_or_eq.mp before with old | rfl
      · rcases holds.owned span old with run | known
        · rw [none] at run
          cases run
        · exact .inr known
      · exact .inl rfl
    · exact holds.names
    · exact holds.pending
    · rfl
    · intro later label before split step opening
      obtain ⟨found, at_, known⟩ := holds.opening later label before split step opening
      exact known.grows at_ grows
    · exact holds.shut

/-- The new Step carries the reference that was pending. -/
theorem stepAttributes_mark (unmarked : handler.runAttributes.get? "cord.resumed_from" = none) (node : String) :
    (stepAttributes node handler).get? "cord.resumed_from" = handler.pendingResumedFrom := by
  have before : (handler.runAttributes.set "cord.node.name" node).get? "cord.resumed_from" = none := by
    rw [Dict.get?_set_of_ne _ (by decide), unmarked]
  unfold stepAttributes
  cases handler.pendingResumedFrom with
  | none => exact before
  | some resumedFrom => exact Dict.get?_set_self _ _ _

/-- The index of the namespaces finds the open Step under the direct prefix. -/
theorem Holds.parentSpan_open (holds : Holds resumedFrom history handler) {above : OpenStep} {checkpointNs : String}
    (held : above ∈ openSteps history) (nested : DirectPrefix above.checkpointNs checkpointNs) :
    parentSpan checkpointNs handler = some above.span := by
  have indexed := (holds.names above.checkpointNs above).mpr ⟨holds.open_iff.mp held, rfl⟩
  unfold parentSpan
  rw [(parentKey_eq_some_iff _ _).mpr nested, Option.bind_some, indexed]

theorem Holds.parentSpan_top (holds : Holds resumedFrom history handler) {checkpointNs : String}
    (alone : ∀ above ∈ openSteps history, ¬ DirectPrefix above.checkpointNs checkpointNs) :
    parentSpan checkpointNs handler = handler.runSpan := by
  have missing : (parentKey checkpointNs).bind handler.byCheckpointNs.get? = none := by
    apply Option.eq_none_iff_forall_ne_some.mpr
    intro above found
    obtain ⟨key, is_key, stored⟩ := Option.bind_eq_some_iff.mp found
    obtain ⟨indexed, same⟩ := (holds.names key above).mp stored
    apply alone above (holds.open_iff.mpr indexed)
    rw [same]
    exact (parentKey_eq_some_iff _ _).mp is_key
  unfold parentSpan
  rw [missing]

/-- A new Step agrees with the past and with its own opening. -/
theorem Holds.pushed (holds : Holds resumedFrom history handler) (ready : handler.runSpan.isSome)
    (running : handler.closed = false) {runId : Uuid} {node checkpointNs : String}
    (permitted : permits (duties.phase (fun _ => none) history pid) (.openStep runId node checkpointNs))
    (new_run : runId ∉ startedRuns history) (apart : ∀ step ∈ openSteps history, step.checkpointNs ≠ checkpointNs) :
    Holds resumedFrom
      (.act pid ⟨.openStep runId node checkpointNs, .ok (some (pushStep platform runId node checkpointNs handler).1)⟩ ::
        history)
      (pushStep platform runId node checkpointNs handler).2 := by
  have unused : handler.byRunId.get? runId = none := by
    apply Option.eq_none_iff_forall_ne_some.mpr
    intro old stored
    exact new_run (holds.indexed runId old stored).2
  have mark := stepAttributes_mark holds.unmarked node
  let object : TracedSpan := ⟨"step:" ++ node, parentSpan checkpointNs handler, platform.context handler.spans.length,
    true, (stepAttributes node handler).set "cord.outcome" "passed", false, 0⟩
  let step : OpenStep := ⟨handler.spans.length, stepAttributes node handler, checkpointNs⟩
  have passed : Running object := ⟨rfl, Dict.get?_set_self _ _ _, rfl⟩
  have grows : Grows handler (pushStep platform runId node checkpointNs handler).2 :=
    ⟨fun _ found held => ⟨found, held_concat object held, rfl, rfl⟩, fun _ same => same⟩
  have old_span {old : OpenStep} (known : old ∈ opened history) : old.span ≠ handler.spans.length :=
    Nat.ne_of_lt (holds.inside old known).1
  let answer : Op.Answer (.openStep runId node checkpointNs) := Except.ok (some step)
  obtain ⟨idle, work⟩ := @left_section Pid _ history pid _ answer (by simp) permitted
  constructor
  · rw [taken_none rfl]
    show Ledger (taken history) (left (.act pid ⟨.openStep runId node checkpointNs, answer⟩ :: history)) _
    rw [work]
    show Ledger (taken history) (Function.update (left history) pid []) _
    rw [← idle, Function.update_eq_self]
    exact holds.ledger.openStep running unused none _ rfl passed rfl
  · intro other found stored
    by_cases same : other = runId
    · subst other
      obtain rfl : step = found := Option.some.inj ((Dict.get?_set_self _ _ _).symm.trans stored)
      exact ⟨List.mem_cons_self, List.mem_cons_self⟩
    · obtain ⟨known, started⟩ := holds.indexed other found ((Dict.get?_set_of_ne _ same _).symm.trans stored)
      exact ⟨List.mem_cons_of_mem _ known, List.mem_cons_of_mem _ started⟩
  · intro found known
    have longer : (pushStep platform runId node checkpointNs handler).2.spans.length = handler.spans.length + 1 :=
      List.length_append
    rcases List.mem_cons.mp known with rfl | old
    · refine ⟨by rw [longer]; exact Nat.lt_succ_self _, ?_⟩
      intro same
      exact Nat.lt_irrefl _ (holds.ledger.run _ same).1
    · obtain ⟨before, different⟩ := holds.inside found old
      exact ⟨by omega, different⟩
  · intro first one second two same
    rcases List.mem_cons.mp one with rfl | one
    · rcases List.mem_cons.mp two with rfl | two
      · rfl
      · exact absurd same.symm (old_span two)
    · rcases List.mem_cons.mp two with rfl | two
      · exact absurd same (old_span one)
      · exact holds.distinct first one second two same
  · intro span before
    have longer : span < handler.spans.length + 1 := by
      have counted : (pushStep platform runId node checkpointNs handler).2.spans.length = handler.spans.length + 1 :=
        List.length_append
      omega
    rcases Nat.lt_succ_iff_lt_or_eq.mp longer with old | rfl
    · rcases holds.owned span old with run | ⟨found, known, same⟩
      · exact .inl run
      · exact .inr ⟨found, List.mem_cons_of_mem _ known, same⟩
    · exact .inr ⟨step, List.mem_cons_self, rfl⟩
  · intro name found
    show (handler.byCheckpointNs.set checkpointNs step).get? name = some found ↔
      (∃ other, (handler.byRunId.set runId step).get? other = some found) ∧ found.checkpointNs = name
    rw [Dict.get?_set]
    constructor
    · intro stored
      split at stored
      · rename_i same
        obtain rfl := Option.some.inj stored
        exact ⟨⟨runId, Dict.get?_set_self _ _ _⟩, same.symm⟩
      · obtain ⟨⟨other, indexed⟩, named⟩ := (holds.names name found).mp stored
        refine ⟨⟨other, ?_⟩, named⟩
        rw [Dict.get?_set_of_ne, indexed]
        rintro rfl
        rw [unused] at indexed
        cases indexed
    · rintro ⟨⟨other, indexed⟩, rfl⟩
      rw [Dict.get?_set] at indexed
      split at indexed
      · obtain rfl := Option.some.inj indexed
        rw [if_pos rfl]
      · have held := holds.open_iff.mpr ⟨other, indexed⟩
        rw [if_neg (apart found held)]
        exact (holds.names _ found).mpr ⟨⟨other, indexed⟩, rfl⟩
  · rfl
  · exact holds.unmarked
  · intro later label before split found opening
    cases later with
    | nil =>
        obtain ⟨rfl, rfl⟩ := List.cons.inj split
        obtain rfl := Option.some.inj opening
        refine ⟨object, List.getElem?_concat_length, ?_, ?_, ?_⟩
        · exact fun above held nested => holds.parentSpan_open held nested
        · exact fun alone => ⟨ready, holds.parentSpan_top alone⟩
        · show ((stepAttributes node handler).set "cord.outcome" "passed").get? "cord.resumed_from" = _
          rw [Dict.get?_set_of_ne _ (by decide), mark, holds.pending]
    | cons first later =>
        obtain ⟨old, at_, known⟩ := holds.opening later label before (List.cons.inj split).2 found opening
        exact known.grows at_ grows
  · exact holds.shut.trans (shut_cons (by simp)).symm

/-- Two callback runs of the index have different Steps in different namespaces. -/
theorem Holds.index_inj (holds : Holds resumedFrom history handler) {first second : Uuid} {one two : OpenStep}
    (held : handler.byRunId.get? first = some one) (other : handler.byRunId.get? second = some two)
    (same : one.checkpointNs = two.checkpointNs) : first = second := by
  have named := (holds.names one.checkpointNs one).mpr ⟨⟨first, held⟩, rfl⟩
  have renamed := (holds.names one.checkpointNs two).mpr ⟨⟨second, other⟩, same.symm⟩
  rw [named] at renamed
  obtain rfl := Option.some.inj renamed
  exact holds.ledger.single first second one one held other rfl

/-- A section that closes a Step takes it out of both indexes. -/
theorem Holds.popped (holds : Holds resumedFrom history handler) {op : Op} {answer : op.Answer} {runId : Uuid}
    {outcome : StepOutcome} (inside : ∀ work, op ≠ .work work) (other : op ≠ .shut)
    (permitted : permits (duties.phase (fun _ => none) history pid) op)
    (none : opens (.act pid ⟨op, answer⟩ : Label signature Pid) = none)
    (stored : handler.byRunId.get? runId = some step) (one : takes op answer = [(step.span, some outcome)])
    (owes : owed op answer = [.finish step.span]) (update : TracedSpan → TracedSpan) (approvals : List AwaitingApproval)
    (ends : ∀ object, object.endings = 0 → Running object → Settled (some outcome) (update object).finish)
    (keeps : ∀ object, (update object).parent = object.parent ∧
      (update object).attributes.get? "cord.resumed_from" = object.attributes.get? "cord.resumed_from") :
    Holds resumedFrom (.act pid ⟨op, answer⟩ :: history) { handler.change step.span update with
      byRunId := handler.byRunId.erase runId, byCheckpointNs := handler.byCheckpointNs.erase step.checkpointNs,
      awaitingApprovalSteps := approvals } := by
  obtain ⟨idle, work⟩ := @left_section Pid _ history pid op answer inside permitted
  have erased {runId' : Uuid} {found : OpenStep} (held : (handler.byRunId.erase runId).get? runId' = some found) :
      runId' ≠ runId ∧ handler.byRunId.get? runId' = some found := by
    by_cases same : runId' = runId
    · rw [same, Dict.get?_erase_self] at held
      cases held
    · exact ⟨same, (Dict.get?_erase_of_ne _ same).symm.trans held⟩
  have grows := change_grows handler step.span keeps
  apply holds.unopened none
  · exact ⟨grows.objects, grows.run⟩
  · rfl
  · exact change_spans_length handler step.span update
  · rfl
  · rfl
  · rw [taken_step one (holds.ledger.steps runId step stored).1, work, owes]
    exact holds.ledger.pop idle stored outcome _ approvals update ends
  · exact fun _ _ held => (erased held).2
  · intro name found
    show (handler.byCheckpointNs.erase step.checkpointNs).get? name = some found ↔
      (∃ other, (handler.byRunId.erase runId).get? other = some found) ∧ found.checkpointNs = name
    by_cases same : name = step.checkpointNs
    · rw [same, Dict.get?_erase_self]
      constructor
      · intro never
        cases never
      · rintro ⟨⟨another, held⟩, equal⟩
        obtain ⟨different, indexed⟩ := erased held
        exact absurd (holds.index_inj indexed stored equal) different
    · rw [Dict.get?_erase_of_ne _ same, holds.names name found]
      constructor
      · rintro ⟨⟨another, indexed⟩, equal⟩
        refine ⟨⟨another, ?_⟩, equal⟩
        rw [Dict.get?_erase_of_ne, indexed]
        rintro rfl
        rw [stored] at indexed
        obtain rfl := Option.some.inj indexed
        exact same equal.symm
      · rintro ⟨⟨another, held⟩, equal⟩
        exact ⟨⟨another, (erased held).2⟩, equal⟩
  · exact holds.shut.trans (shut_cons other).symm

/-- A Step that is closed without an error keeps its outcome. -/
theorem passed_ends {object : TracedSpan} (zero : object.endings = 0) (running : Running object) :
    Settled (some .passed) object.finish := by
  refine ⟨by simp [TracedSpan.finish, zero], ?_⟩
  rintro _ ⟨⟩
  exact ⟨running.2.1, running.2.2⟩

theorem paused_ends {object : TracedSpan} (zero : object.endings = 0) (running : Running object) :
    Settled (some .awaitingApproval) (object.setAttribute "cord.outcome" "awaiting_approval").finish := by
  obtain ⟨recording, -, status⟩ := running
  simp [Settled, TracedSpan.setAttribute, TracedSpan.finish, zero, recording, status, StepOutcome.value]

theorem failed_ends {object : TracedSpan} (zero : object.endings = 0) (running : Running object) :
    Settled (some .failed) ((object.setAttribute "cord.outcome" "failed").setError).finish := by
  obtain ⟨recording, -, -⟩ := running
  simp [Settled, TracedSpan.setAttribute, TracedSpan.setError, TracedSpan.finish, zero, recording, StepOutcome.value]

theorem change_id (handler : Handler) (span : Nat) : handler.change span id = handler := by
  unfold Handler.change
  rw [List.modify_id]

/-- The section of `on_chain_end` keeps the agreement with the past. -/
theorem Holds.ended (holds : Holds resumedFrom history handler) {runId : Uuid}
    (permitted : permits (duties.phase (fun _ => none) history pid) (.popStep runId)) :
    Holds resumedFrom (.act pid ⟨.popStep runId, (popStep runId handler).1⟩ :: history) (popStep runId handler).2 := by
  unfold popStep
  split
  · rename_i step stored
    have popped := @Holds.popped Pid _ resumedFrom history handler pid step holds (.popStep runId) (some step) runId
      .passed (by simp) (by simp) permitted rfl stored rfl rfl id handler.awaitingApprovalSteps
      (fun object => passed_ends) (fun object => ⟨rfl, rfl⟩)
    rw [change_id] at popped
    exact popped
  · exact @Holds.quiet Pid _ resumedFrom history handler pid holds (.popStep runId) none (by simp) permitted rfl rfl rfl
      (by simp)

/-- The section of `on_chain_error` keeps the agreement with the past. -/
theorem Holds.failed (holds : Holds resumedFrom history handler) {runId : Uuid} {error : Exception}
    (permitted : permits (duties.phase (fun _ => none) history pid) (.failStep runId error)) :
    Holds resumedFrom (.act pid ⟨.failStep runId error, (failStep runId error handler).1⟩ :: history)
      (failStep runId error handler).2 := by
  unfold failStep popStep
  cases stored : handler.byRunId.get? runId with
  | none =>
      exact @Holds.quiet Pid _ resumedFrom history handler pid holds (.failStep runId error) none (by simp) permitted rfl
        rfl rfl (by simp)
  | some step =>
      simp only [recordError]
      cases interrupt : isGraphInterrupt error with
      | true =>
          exact @Holds.popped Pid _ resumedFrom history handler pid step holds (.failStep runId error) (some step) runId
            .awaitingApproval (by simp) (by simp) permitted rfl stored (by simp [takes, interrupt]) rfl _ _
            (fun object => paused_ends) (fun object => setAttribute_keeps object _)
      | false =>
          apply @Holds.popped Pid _ resumedFrom history handler pid step holds (.failStep runId error) (some step) runId
            .failed (by simp) (by simp) permitted rfl stored (by simp [takes, interrupt]) rfl _ _
            (fun object => failed_ends)
          intro object
          obtain ⟨parent, attributes⟩ := setError_keeps (object.setAttribute "cord.outcome" "failed")
          obtain ⟨old_parent, mark⟩ := setAttribute_keeps object "failed"
          exact ⟨parent.trans old_parent, by rw [attributes, mark]⟩

/-- The section of `close` keeps the agreement with the past. -/
theorem Holds.closed (holds : Holds resumedFrom history handler)
    (permitted : permits (duties.phase (fun _ => none) history pid) .shut) :
    Holds resumedFrom (.act pid ⟨.shut, (Callbacks.shut handler).1⟩ :: history) (Callbacks.shut handler).2 := by
  unfold Callbacks.shut
  split
  · rename_i already
    exact @Holds.quiet Pid _ resumedFrom history handler pid holds .shut none (by simp) permitted rfl rfl rfl
      (fun _ => already)
  · rename_i open_
    have running : handler.closed = false := by simpa using open_
    obtain ⟨idle, work⟩ := @left_section Pid _ history pid .shut (some (handler.leaked, handler.runSpan)) (by simp) permitted
    apply holds.unopened
    · rfl
    · exact ⟨fun _ object held => ⟨object, held, rfl, rfl⟩, fun _ same => same⟩
    · rfl
    · rfl
    · rfl
    · rfl
    · show Ledger _ (left (.act pid ⟨.shut, some (handler.leaked, handler.runSpan)⟩ :: history)) _
      rw [work]
      exact holds.ledger.shut idle running
    · intro runId step never
      cases never
    · intro name found
      constructor
      · intro never
        cases never
      · rintro ⟨⟨_, never⟩, -⟩
        cases never
    · exact ⟨fun _ => ⟨pid, _, List.mem_cons_self⟩, fun _ => rfl⟩

/-- A call of a span object keeps the agreement with the past. -/
theorem Holds.works (holds : Holds resumedFrom history handler) {work : Work} {answer : Unit}
    (permitted : permits (duties.phase (fun _ => none) history pid) (.work work)) :
    Holds resumedFrom (.act pid ⟨.work work, answer⟩ :: history) (handler.change work.span work.apply) := by
  obtain ⟨rest, first, later⟩ := @left_work Pid _ history pid work answer permitted
  apply holds.unopened rfl (work_grows handler work) rfl (change_spans_length handler _ _) rfl rfl
  · rw [taken_none rfl, later]
    exact holds.ledger.does first
  · exact fun _ _ held => held
  · exact holds.names
  · exact holds.shut.trans (shut_cons (by simp)).symm

/-- The section of `on_chain_start` keeps the agreement with the past. -/
theorem Holds.started (holds : Holds resumedFrom history handler) {runId : Uuid} {node checkpointNs : String}
    (permitted : permits (duties.phase (fun _ => none) history pid) (.openStep runId node checkpointNs))
    (new_run : runId ∉ startedRuns history) (apart : ∀ step ∈ openSteps history, step.checkpointNs ≠ checkpointNs)
    {answer : Op.Answer (.openStep runId node checkpointNs)}
    (done : respond platform identity handler (.openStep runId node checkpointNs) = (answer, after)) :
    Holds resumedFrom (.act pid ⟨.openStep runId node checkpointNs, answer⟩ :: history) after := by
  have quiet {answer : Op.Answer (.openStep runId node checkpointNs)}
      (nothing : opens (.act pid ⟨.openStep runId node checkpointNs, answer⟩ : Label signature Pid) = none) :
      Holds resumedFrom (.act pid ⟨.openStep runId node checkpointNs, answer⟩ :: history) handler :=
    @Holds.quiet Pid _ resumedFrom history handler pid holds _ answer (by simp) permitted nothing rfl rfl (by simp)
  unfold respond openStep at done
  cases closed : handler.closed with
  | true =>
      simp only [closed, if_pos] at done
      obtain ⟨rfl, rfl⟩ := Prod.mk.inj done
      exact quiet rfl
  | false =>
      simp only [closed, Bool.false_eq_true, if_false] at done
      cases ready : ensureRun platform identity handler with
      | error raised =>
          rw [ready] at done
          obtain ⟨rfl, rfl⟩ := Prod.mk.inj done
          exact quiet rfl
      | ok middle =>
          rw [ready] at done
          obtain ⟨rfl, rfl⟩ := Prod.mk.inj done
          obtain ⟨held, present, running⟩ := holds.ready closed ready
          exact held.pushed present running permitted new_run apart

theorem holds_fresh (resumedFrom : Option String) : Holds resumedFrom ([] : Chronicle Pid) (fresh resumedFrom) where
  ledger := ledger_fresh resumedFrom
  indexed _ _ never := by cases never
  inside _ never := absurd never List.not_mem_nil
  distinct _ never := absurd never List.not_mem_nil
  owned _ never := absurd never (Nat.not_lt_zero _)
  names _ _ := by
    constructor
    · intro never
      cases never
    · rintro ⟨⟨_, never⟩, -⟩
      cases never
  pending := rfl
  unmarked := rfl
  opening later label before split := by
    have never := List.append_ne_nil_of_right_ne_nil later (List.cons_ne_nil label before)
    exact absurd split.symm never
  shut := by
    constructor
    · intro never
      cases never
    · rintro ⟨_, _, never⟩
      cases never

/-- Each operation of a call keeps the agreement with the past. -/
theorem Holds.act (holds : Holds resumedFrom history handler) {op : Op} {answer : op.Answer}
    (permitted : permits (duties.phase (fun _ => none) history pid) op)
    (done : respond platform identity handler op = (answer, after))
    (meets : uniqueCallbacks history handler (.act pid ⟨op, answer⟩)) :
    Holds resumedFrom (.act pid ⟨op, answer⟩ :: history) after := by
  cases op with
  | openStep runId node checkpointNs => exact holds.started permitted meets.1 meets.2 done
  | popStep runId =>
      obtain ⟨rfl, rfl⟩ := Prod.mk.inj done
      exact holds.ended permitted
  | failStep runId error =>
      obtain ⟨rfl, rfl⟩ := Prod.mk.inj done
      exact holds.failed permitted
  | shut =>
      obtain ⟨rfl, rfl⟩ := Prod.mk.inj done
      exact holds.closed permitted
  | work work =>
      obtain ⟨-, rfl⟩ := Prod.mk.inj done
      exact holds.works permitted

end Cordboard.Callbacks
