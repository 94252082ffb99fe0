import Cordboard.Proof.Sweep.FinishWatch

namespace Cordboard.Finish
open Data Effects PendingCompletions Router

/-- The identity of a routed Run is absent or not blank. -/
def namedResponse : Response → Bool
  | .routed _ _ result _ => result.runId = "" || !blank result.runId
  | _ => true

/-- The identity of the Signal starts with its type. -/
theorem finished_named (run : FinishedRun) : blank (Signal.finished run).id = false := by
  simp only [Signal.id, blank, String.toList_append, List.all_append]
  rw [show "run.finished:".toList.all isSpace = false by decide, Bool.false_and]

/-- The value of the outcome has this property, or its error has this kind. -/
def Yields {A : Type} (kind : ExcKind) (good : A → Prop) : Except Exc A → Prop
  | .ok value => good value
  | .error exc => exc.kind = kind

section
variable {A B : Type} {kind : ExcKind} {first : A → Prop} {second : B → Prop}

theorem Yields.bind {outcome : Except Exc A} {rest : A → Except Exc B} (yields : Yields kind first outcome)
    (later : ∀ value, first value → Yields kind second (rest value)) : Yields kind second (outcome >>= rest) := by
  cases outcome with
  | error exc => exact yields
  | ok value => exact later value yields

theorem yields_mapM {change : A → Except Exc B} (items : List A)
    (each : ∀ item, Yields kind (fun _ => True) (change item)) : Yields kind (fun _ => True) (items.mapM change) := by
  induction items with
  | nil => trivial
  | cons item rest ih =>
      rw [List.mapM_cons]
      exact (each item).bind fun _ _ => ih.bind fun _ _ => trivial

end

theorem yields_lookup (payload : Json) (path : String) : Yields .mapping (fun _ => True) (lookup payload path) := by
  unfold lookup
  split
  · trivial
  · exact rfl

/-- A mapping gives a Subject that is not blank, or it fails with one kind of error. -/
theorem yields_apply (rule : Rule) (signal : Signal) :
    Yields .mapping (fun mapped => blank mapped.2 = false) (apply rule signal) := by
  have fields : Yields .mapping (fun _ => True) (rule.input.mapM fun field => do
      let value ← lookup signal.payload field.2
      pure (field.1, value)) :=
    yields_mapM rule.input fun field => (yields_lookup signal.payload field.2).bind fun _ _ => trivial
  apply fields.bind
  intro graphInput _
  apply (yields_lookup signal.payload rule.subject).bind
  intro subject _
  split
  · split
    · exact rfl
    · rename_i named
      exact Bool.eq_false_of_not_eq_true named
  · exact rfl

section
variable {now : Time} {rule : Rule} {subject : String}

theorem named_texts (named : namedRule rule = true) : blank rule.assistant = false ∧ blank rule.connection = false := by
  simpa [namedRule] using named

/-- An accepted Run is recorded without an error. -/
theorem recordAccepted_delivers (signal : Signal) (named : namedRule rule = true) (about : blank subject = false)
    {result : ExecuteResult} (identified : namedResult result = true) :
    Delivers (recordAccepted signal rule subject result now) fun submitted =>
      ∃ response, submitted.response = .ok response ∧ namedResponse response = true := by
  obtain ⟨assistant, connection⟩ := named_texts named
  have answered : namedResponse (.routed signal.id rule.name result none) = true := by
    simp only [namedResult, Bool.or_eq_true, Bool.and_eq_true, decide_eq_true_eq] at identified
    simp only [namedResponse, Bool.or_eq_true, decide_eq_true_eq]
    rcases identified with absent | ⟨present, -⟩
    · exact .inl absent
    · exact .inr present
  unfold recordAccepted
  dsimp only
  split
  · exact delivers_pure ⟨_, rfl, answered⟩
  rename_i present
  push Not at present
  have texts : blank result.runId = false ∧ blank result.threadId = false := by
    simpa [namedResult, present.1, present.2] using identified
  apply (delivers_note fun _ => rfl).bind
  intro _ _
  apply (recordSubmission_delivers connection texts.2 texts.1).bind
  intro _ _
  split
  · exact delivers_pure ⟨_, rfl, answered⟩
  · apply (recordPending_delivers connection texts.2 texts.1 assistant about _ _ _).attempt.bind
    rintro _ ⟨_, rfl, _⟩
    exact delivers_pure ⟨_, rfl, answered⟩

/-- The submission returns a response. -/
theorem submitStarted_delivers {signal : Signal} (identified : blank signal.id = false) (named : namedRule rule = true)
    (about : blank subject = false) (connection : Connection) (graphInput : List (String × Json)) (timeout : Time) :
    Delivers (submitStarted signal rule connection graphInput subject timeout now) fun submitted =>
      ∃ response, submitted.response = .ok response ∧ namedResponse response = true := by
  apply (claim_delivers identified _).bind
  intro granted _
  split
  · exact delivers_pure ⟨_, rfl, rfl⟩
  apply (delivers_note fun _ => rfl).bind
  intro _ _
  have execute : Delivers (call (.execute connection.endpoint rule.assistant subject graphInput timeout
      signal.causedByRunId signal.childCascadeDepth)) fun answer => handled (.call (.execute connection.endpoint
        rule.assistant subject graphInput timeout signal.causedByRunId signal.childCascadeDepth)) answer = true :=
    delivers_request (fun _ _ => rfl) rfl fun _ good => good
  apply execute.bind
  intro answer good
  cases answer with
  | error exc =>
      have caught : (exc.isValueError || exc.isRuntimeError) = true := good
      dsimp only
      rw [if_pos caught]
      exact delivers_pure ⟨_, rfl, rfl⟩
  | ok result => exact recordAccepted_delivers signal named about good

theorem submitRun_delivers {signal : Signal} (identified : blank signal.id = false) (named : namedRule rule = true)
    (about : blank subject = false) (connection : Connection) (graphInput : List (String × Json)) (timeout : Time) :
    Delivers (submitRun signal rule connection graphInput subject timeout now) fun submitted =>
      ∃ response, submitted.response = .ok response ∧ namedResponse response = true := by
  apply (ensureStarted_delivers _ _ _ _).bind
  intro started _
  split
  · exact delivers_pure ⟨_, rfl, rfl⟩
  · exact submitStarted_delivers identified named about _ _ _
  · exact submitStarted_delivers identified named about _ _ _

theorem releaseUnlessRetained_delivers (signal : Signal) (named : namedRule rule = true)
    (about : blank subject = false) (connection : Connection) (retainDeployment retainConcurrency : Bool) :
    Delivers (releaseUnlessRetained signal rule connection subject now retainDeployment retainConcurrency)
      fun _ => True := by
  apply (delivers_whenever (releaseActive_delivers _ _ _)).bind
  intro _ _
  exact delivers_whenever (release_delivers (named_texts named).1 about _)

theorem settleRun_delivers {signal : Signal} (identified : blank signal.id = false) (named : namedRule rule = true)
    (about : blank subject = false) (connection : Connection) (graphInput : List (String × Json)) (timeout : Time) :
    Delivers (settleRun signal rule connection graphInput subject timeout now) fun response =>
      namedResponse response = true := by
  apply (submitRun_delivers identified named about _ _ _).attempt.bind
  rintro _ ⟨submitted, rfl, response, same, good⟩
  apply (releaseUnlessRetained_delivers _ named about _ _ _).bind
  intro _ _
  rw [same]
  exact delivers_pure good

/-- A Signal whose texts are not blank is built. -/
theorem runFinishedSignal_ok {run : FinishedRun} (runId : blank run.runId = false) (subject : blank run.subject = false)
    (connection : blank run.connection = false) (assistant : blank run.assistant = false)
    (status : blank run.status = false) : runFinishedSignal run = .ok (.finished run) := by
  simp [runFinishedSignal, runId, subject, connection, assistant, status]

/-- A cascade returns a response for each Run of this depth. -/
def Cascades (cascade : Signal → Py Response) (cascadeDepth : Nat) : Prop :=
  ∀ run : FinishedRun, run.cascadeDepth = cascadeDepth → Delivers (cascade (.finished run)) fun _ => True

variable {cascade : Signal → Py Response} {signal : Signal}

theorem chain_delivers (cascades : Cascades cascade signal.childCascadeDepth) (named : namedRule rule = true)
    (about : blank subject = false) {response : Response} (good : namedResponse response = true) :
    Delivers (chain cascade signal rule subject response) fun _ => True := by
  obtain ⟨assistant, connection⟩ := named_texts named
  unfold chain
  split
  · rename_i signalId name result
    split
    · rename_i succeeded
      have run : blank result.runId = false := by simpa [namedResponse, succeeded.2] using good
      have status : blank "success" = false := by decide
      rw [runFinishedSignal_ok run about connection assistant status]
      exact (cascades _ rfl).bind fun _ _ => delivers_pure trivial
    · exact delivers_pure trivial
  · exact delivers_pure trivial

theorem routeMapped_delivers (cascades : Cascades cascade signal.childCascadeDepth)
    (identified : blank signal.id = false) (named : namedRule rule = true) (about : blank subject = false)
    (connection : Connection) (graphInput : List (String × Json)) (timeout : Time) :
    Delivers (routeMapped cascade signal rule connection graphInput subject timeout now) fun _ => True := by
  apply (tryClaim_delivers (named_texts named).1 about _ _).bind
  intro taken _
  split
  · exact delivers_pure trivial
  apply (settleRun_delivers identified named about _ _ _).bind
  intro response good
  exact chain_delivers cascades named about good

/-- The outcome of a mapping names a Subject, or it is an error that `route_signal` handles. -/
def Mapped : Except Exc ((List (String × Json) × String) × Connection) → Prop
  | .ok mapped => blank mapped.1.2 = false
  | .error exc => exc.kind = .mapping ∨ exc.kind = .invalidConnection

/-- A mapping fails only in the ways that `route_signal` handles. -/
theorem mapRule_ends (rule : Rule) (signal : Signal) : Ends (mapRule rule signal) Mapped := by
  have subject := yields_apply rule signal
  have connection : Ends (getConnection rule.connection) (Yields .invalidConnection fun _ => True) := by
    have file : Delivers (readFile .connections) fun _ => True :=
      delivers_request (fun _ _ => rfl) rfl fun _ _ => trivial
    have loaded : Ends (load .connections) (Yields .invalidConnection fun _ => True) := by
      apply file.bind
      intro file _
      apply ends_ofExcept
      cases file with
      | missing => trivial
      | unreadable corruption => cases corruption <;> exact rfl
      | content data => trivial
    apply loaded.bind
    · intro data _
      split
      · exact ends_ofExcept (.ok _) trivial
      · exact ends_ofExcept (.error _) rfl
    · exact fun _ failed => failed
  unfold mapRule
  cases mapped : apply rule signal with
  | error exc =>
      rw [mapped] at subject
      exact ends_ofExcept (.error exc) (.inl subject)
  | ok value =>
      rw [mapped] at subject
      change Ends (getConnection rule.connection >>= fun connection => pure (value, connection)) Mapped
      apply connection.bind
      · exact fun found _ => ends_ofExcept (.ok (value, found)) subject
      · exact fun _ failed => .inr failed

theorem routeByRule_delivers (cascades : Cascades cascade signal.childCascadeDepth)
    (identified : blank signal.id = false) (timeout : Time) :
    Delivers (routeByRule cascade timeout now signal) fun _ => True := by
  have rules : Delivers loadRules fun rules => rules.all namedRule = true := by
    apply delivers_load
    intro file good
    have named : namedRules file = true := good
    unfold namedRules at named
    split at named
    · rename_i rules decoded
      exact ⟨rules, decoded, named⟩
    · cases named
  apply rules.bind
  intro rules all
  dsimp only
  split
  · exact (recordUnmatched_delivers _ _).bind fun _ _ => delivers_pure trivial
  · rename_i rule _ found
    have member : rule ∈ rules.filter fun rule => matchesSignal rule signal := by
      rw [found]
      exact List.mem_cons_self
    have named : namedRule rule = true := List.all_eq_true.mp all rule (List.mem_filter.mp member).1
    apply (mapRule_ends rule signal).attempt.bind
    intro mapped good
    cases mapped with
    | error exc =>
        have caught : exc.kind = .mapping ∨ exc.kind = .invalidConnection := good
        dsimp only
        rw [if_pos caught]
        exact (recordUnmatched_delivers _ _).bind fun _ _ => delivers_pure trivial
    | ok mapped =>
        exact routeMapped_delivers cascades identified named good _ _ _

/-- The recursion of `route_signal` returns within its bound. -/
theorem routeWithin_delivers (timeout : Time) (fuel : Nat) (run : FinishedRun)
    (bounded : remainingDepth (.finished run) ≤ fuel) :
    Delivers (routeWithin timeout now fuel (.finished run)) fun _ => True := by
  induction fuel generalizing run with
  | zero =>
      simp only [remainingDepth] at bounded
      omega
  | succ fuel ih =>
      unfold routeWithin routeHop
      apply (delivers_note fun _ => rfl).bind
      intro _ _
      split
      · exact (recordUnmatched_delivers _ _).bind fun _ _ => delivers_pure trivial
      · have cascades : Cascades (routeWithin timeout now fuel) (Signal.finished run).childCascadeDepth := by
          intro child deeper
          apply ih
          simp only [remainingDepth, Signal.childCascadeDepth] at bounded deeper ⊢
          omega
        exact routeByRule_delivers cascades (finished_named run) timeout

/-- `route_signal` returns a response. -/
theorem routeSignal_delivers (run : FinishedRun) (timeout : Time) :
    Delivers (routeSignal (.finished run) timeout now) fun _ => True :=
  routeWithin_delivers timeout _ run le_rfl

/-- The completed Run has an identity that is not blank. -/
theorem completedRunId_delivers (deployment threadId : String) {entry : PendingEntry}
    (named : blank entry.invocationId = false) :
    Delivers (completedRunId deployment threadId entry) fun runId => blank runId = false := by
  have found : Ends (RunContinuity.logicalRun deployment threadId)
      (Yields .unknownThread fun record => blank record.runId = false) := by
    apply loadContinuity_delivers.bind
    intro data texts
    split
    · rename_i record stored
      obtain ⟨threads, present, inner⟩ := Option.bind_eq_some_iff.mp stored
      exact ends_ofExcept (.ok record) (texts _ _ _ _ present inner)
    · exact ends_ofExcept (.error _) rfl
  apply found.attempt.bind
  intro outcome good
  cases outcome with
  | ok record => exact delivers_pure good
  | error exc =>
      have unknown : exc.kind = .unknownThread := good
      dsimp only
      rw [if_pos unknown]
      exact delivers_pure named

end

end Cordboard.Finish
