import Cordboard.Proof.Cascade.Provenance

namespace Cordboard.Provenance
open Data Effects
open PendingCompletions (Pair)
open RunContinuity (recordOf)
open Router DeploymentLifecycle

/-- A response about a successful Run comes with the cause of the next execution. -/
def Completes (strict : Prop) (signal : Signal) (rule : Rule) (subject : String) (phase : Phase)
    (response : Except Exc Response) : Prop :=
  ∀ signalId name result, response = .ok (.routed signalId name result none) → result.status = .success →
    result.runId ≠ "" → Suits strict phase (.finished
      ⟨result.runId, subject, rule.connection, rule.assistant, "success", signal.childCascadeDepth⟩)

/-- The submission ends with its invariant and with the cause of the next execution. -/
def Submits (strict : Prop) (items : List (Pair × PendingEntry)) (signal : Signal) (rule : Rule) (subject : String)
    (outcome : Except Exc Submitted) (state : Board × Phase) : Prop :=
  Traced strict items state ∧
    ∀ submitted, outcome = .ok submitted → Completes strict signal rule subject state.2 submitted.response

section
variable {strict : Prop} {items : List (Pair × PendingEntry)} {limit : Limit} {board : Board} {phase : Phase}
  {signal : Signal} {rule : Rule} {subject : String} {timeout now : Time}

/-- Another response completes nothing. -/
theorem completes_other {response : Except Exc Response}
    (other : ∀ signalId name result, response ≠ .ok (.routed signalId name result none)) :
    Completes strict signal rule subject phase response :=
  fun signalId name result same => absurd same (other signalId name result)

/-- A Signal gives the hops of its cause to its execution. -/
theorem Suits.hops (suits : Suits strict phase signal) : strict → signal.childCascadeDepth = phase.cause.hops := by
  intro exact_
  cases signal with
  | external source id payload =>
      have cause : phase.cause = .external := suits
      rw [cause]
      rfl
  | finished run =>
      rcases suits with ⟨origin, cause, -, hops⟩ | ⟨loose, -⟩
      · rw [cause]
        exact (congrArg (· + 1) (hops exact_)).symm
      · exact absurd exact_ loose

/-- An execution on behalf of a Signal is exact. -/
theorem Suits.exact (suits : Suits strict phase signal) (exact_ : strict) :
    Execution.Exact ⟨signal.childCascadeDepth, signal.causedByRunId, phase.cause⟩ := by
  refine ⟨?_, suits.hops exact_, ?_⟩
  all_goals
    cases signal with
    | external source id payload =>
        have cause : phase.cause = .external := suits
        simp [cause, Signal.causedByRunId, Cause.runId]
    | finished run =>
        rcases suits with ⟨origin, cause, same, -⟩ | ⟨loose, -⟩
        · simp [cause, ← same, Signal.causedByRunId, Cause.runId]
        · exact absurd exact_ loose

/-- An execution is recorded with its cause. -/
theorem Traced.execute (traced : Traced strict items (board, phase)) (accepted : Option Accepted)
    {execution : Execution} (exact_ : strict → execution.Exact) :
    Traced strict items (board, { phase with executions := execution :: phase.executions, accepted := accepted }) := by
  refine ⟨traced.placed, traced.entries, traced.items, ?_, traced.routed⟩
  intro strictly other member
  rcases List.mem_cons.mp member with rfl | earlier
  · exact exact_ strictly
  · exact traced.executions strictly other earlier

/-- An accepted Thread has its origin. -/
theorem origins_learn {accepted : Accepted} (accepting : phase.accepted = some accepted) (pair : Pair) (runId : String)
    (state : Learned) : (phase.learn pair runId state).origins pair = some (accepted.origin pair runId) := by
  unfold Phase.learn Phase.complete
  rw [accepting]
  dsimp only
  split <;> exact Function.update_self ..

/-- The success of an accepted Run causes what follows. -/
theorem cause_learn {accepted : Accepted} (accepting : phase.accepted = some accepted) (pair : Pair) (runId : String) :
    (phase.learn pair runId .succeeded).cause = .completed (accepted.origin pair runId) := by
  simp [Phase.learn, Phase.complete, Phase.completion, accepting]

/-- An accepted Run is recorded under its Rule. -/
theorem recordAccepted_traced (traced : Traced strict items (board, phase))
    {hops : Nat} (accepting : phase.accepted = some ⟨rule.assistant, subject, signal.childCascadeDepth, hops⟩)
    (exact_ : strict → signal.childCascadeDepth = hops) {result : ExecuteResult} (named : result.threadId ≠ "") :
    Fallible.wp (tracing limit) (recordAccepted signal rule subject result now)
      (fun _ outcome state => Submits strict items signal rule subject outcome state) (board, phase) := by
  unfold recordAccepted
  dsimp only
  by_cases absent : result.threadId = "" ∨ result.runId = ""
  · rw [if_pos absent, Fallible.wp_pure]
    refine ⟨traced, ?_⟩
    rintro submitted same
    obtain rfl := Except.ok.inj same
    rintro signalId name other same _ present
    obtain ⟨_, _, rfl, _⟩ := Response.routed.inj (Except.ok.inj same)
    rcases absent with nameless | nameless
    · exact absurd nameless named
    · exact absurd nameless present
  rw [if_neg absent, Fallible.wp_bind]
  apply watched_note (free limit)
  intro fresh
  rw [Fallible.after_ok]
  have unrecorded : recordOf (board .continuity) (rule.connection, result.threadId) = none :=
    fresh (by rw [accepting]; rfl)
  have learned := traced.learn accepting exact_ unrecorded result.runId (ExecuteStatus.learned result.status)
  have origin := origins_learn accepting (rule.connection, result.threadId) result.runId
    (ExecuteStatus.learned result.status)
  have cause := cause_learn accepting (rule.connection, result.threadId) result.runId
  revert learned origin
  generalize next : phase.learn (rule.connection, result.threadId) result.runId
    (ExecuteStatus.learned result.status) = moved
  intro learned origin
  have records := @recordSubmission_traced strict items limit board moved learned rule.connection result.threadId
    result.runId (by
      intro known present _
      rw [origin] at present
      obtain rfl := Option.some.inj present
      rfl)
  change Fallible.wp (tracing limit) _ _ (board, phase.learn (rule.connection, result.threadId) result.runId
    (ExecuteStatus.learned result.status))
  rw [next]
  apply Fallible.wp_seq records
  · rintro _ runId ⟨after, _⟩ ⟨recorded, rfl, _, anchored⟩
    obtain ⟨record, present, _⟩ := anchored runId rfl
    split
    · rename_i succeeded
      rw [Fallible.wp_pure]
      refine ⟨recorded, ?_⟩
      rintro submitted same
      obtain rfl := Except.ok.inj same
      rintro signalId name other same _ _
      obtain ⟨_, _, rfl, _⟩ := Response.routed.inj (Except.ok.inj same)
      rw [succeeded] at next
      rw [← next]
      exact .inl ⟨_, cause, rfl, fun strictly => (exact_ strictly).symm⟩
    · rename_i waiting
      have tracks : Fallible.wp (tracing limit) _ _ _ := recordPending_traced recorded ⟨rule.connection, result.threadId, result.runId,
        rule.assistant, subject, signal.childCascadeDepth, result.status ≠ .interrupted, result.status ≠ .interrupted,
        now⟩ fun _ => ⟨by rw [present]; rfl, by
          intro known same
          rw [origin] at same
          obtain rfl := Option.some.inj same
          exact ⟨rfl, rfl, rfl⟩, fun _ => by rw [origin]; rfl⟩
      apply Fallible.wp_caught tracks
      rintro _ outcome ⟨final, _⟩ ⟨tracked, rfl⟩
      rw [Fallible.wp_pure]
      refine ⟨tracked, ?_⟩
      rintro submitted same
      obtain rfl := Except.ok.inj same
      rintro signalId name other same succeeded _
      cases outcome with
      | error exc => cases same
      | ok _ =>
          obtain ⟨_, _, rfl, _⟩ := Response.routed.inj (Except.ok.inj same)
          exact absurd succeeded waiting
  · rintro _ exc ⟨after, _⟩ ⟨recorded, _, _⟩
    refine ⟨recorded, ?_⟩
    rintro submitted same
    cases same

/-- A program outside the trace keeps the invariant and what the phase says. -/
theorem aside (holds : Phase → Prop) {A : Type} {areas : List Area} {program : Py A} (within : Within areas program)
    (disjoint : ∀ area ∈ areas, area ∉ Area.store .pending :: .store .continuity :: phaseAreas)
    (traced : Traced strict items (board, phase)) (held : holds phase) :
    Fallible.wp (tracing limit) program (fun _ _ after => Traced strict items after ∧ holds after.2) (board, phase) :=
  traced_aside within disjoint holds (board, phase) ⟨traced, held⟩

/-- An execution is submitted with its cause. -/
theorem submitStarted_traced (traced : Traced strict items (board, phase)) (suits : Suits strict phase signal)
    (connection : Connection) (graphInput : List (String × Json)) :
    Fallible.wp (tracing limit) (submitStarted signal rule connection graphInput subject timeout now)
      (fun _ outcome state => Submits strict items signal rule subject outcome state) (board, phase) := by
  unfold submitStarted
  apply Fallible.wp_seq (aside (Suits strict · signal) (SignalDedupe.claim_inside _ _ _) (by decide) traced suits)
  · rintro _ granted ⟨claimed, kept⟩ ⟨traced, suits⟩
    split
    · rw [Fallible.wp_pure]
      refine ⟨traced, ?_⟩
      rintro submitted same
      obtain rfl := Except.ok.inj same
      exact completes_other (by simp)
    rw [Fallible.wp_bind]
    apply watched_note (free limit)
    intro _
    rw [Fallible.after_ok, Fallible.wp_bind]
    apply watched_call (free limit)
    intro answer meets
    rw [Fallible.after_ok]
    have executed := fun accepted => traced.execute accepted suits.exact
    cases answer with
    | error exc =>
        dsimp only
        split
        · rw [Fallible.wp_pure]
          refine ⟨executed none, ?_⟩
          rintro submitted same
          obtain rfl := Except.ok.inj same
          exact completes_other (by simp)
        · rw [Fallible.wp_raise]
          refine ⟨executed none, ?_⟩
          rintro submitted same
          cases same
    | ok result => exact recordAccepted_traced (executed _) rfl suits.hops meets
  · rintro _ exc ⟨claimed, kept⟩ ⟨traced, _⟩
    refine ⟨traced, ?_⟩
    rintro submitted same
    cases same

theorem submitRun_traced (traced : Traced strict items (board, phase)) (suits : Suits strict phase signal)
    (connection : Connection) (graphInput : List (String × Json)) :
    Fallible.wp (tracing limit) (submitRun signal rule connection graphInput subject timeout now)
      (fun _ outcome state => Submits strict items signal rule subject outcome state) (board, phase) := by
  unfold submitRun
  apply Fallible.wp_seq (aside (Suits strict · signal) (ensureStarted_inside _ _ _ _ _) (by decide) traced suits)
  · rintro _ started ⟨ready, kept⟩ ⟨traced, suits⟩
    cases started with
    | startFailed error =>
        dsimp only
        rw [Fallible.wp_pure]
        refine ⟨traced, ?_⟩
        rintro submitted same
        obtain rfl := Except.ok.inj same
        exact completes_other (by simp)
    | external => exact submitStarted_traced traced suits connection graphInput
    | running record => exact submitStarted_traced traced suits connection graphInput
  · rintro _ exc ⟨ready, kept⟩ ⟨traced, _⟩
    refine ⟨traced, ?_⟩
    rintro submitted same
    cases same

/-- The releases touch nothing that the trace follows. -/
theorem releaseUnlessRetained_within (signal : Signal) (rule : Rule) (connection : Connection) (subject : String)
    (retainDeployment retainConcurrency : Bool) :
    Within [.store .lifecycle, .store .concurrency]
      (releaseUnlessRetained signal rule connection subject now retainDeployment retainConcurrency) := by
  apply Within.bind
  · exact whenever_within ((releaseActive_inside _ _ _ rfl).mono (by simp))
  · exact fun _ => whenever_within ((Concurrency.release_inside _ _ rfl).mono (by simp))

theorem settleRun_traced (traced : Traced strict items (board, phase)) (suits : Suits strict phase signal)
    (connection : Connection) (graphInput : List (String × Json)) :
    Fallible.wp (tracing limit) (settleRun signal rule connection graphInput subject timeout now)
      (fun _ outcome state => Traced strict items state ∧ Completes strict signal rule subject state.2 outcome)
      (board, phase) := by
  unfold settleRun
  apply Fallible.wp_caught (submitRun_traced traced suits connection graphInput)
  rintro _ outcome ⟨submitted, kept⟩ ⟨traced, completes⟩
  cases outcome with
  | error exc =>
      apply Fallible.wp_seq (aside (fun _ => True) (releaseUnlessRetained_within signal rule connection subject false false)
        (by decide) traced trivial)
      · rintro _ _ ⟨released, last⟩ ⟨traced, _⟩
        exact ⟨traced, completes_other (by simp)⟩
      · rintro _ other ⟨released, last⟩ ⟨traced, _⟩
        exact ⟨traced, completes_other (by simp)⟩
  | ok answered =>
      apply Fallible.wp_seq (aside (Completes strict signal rule subject · answered.response)
        (releaseUnlessRetained_within signal rule connection subject answered.retainDeployment
          answered.retainConcurrency) (by decide) traced (completes answered rfl))
      · rintro _ _ ⟨released, last⟩ ⟨traced, completes⟩
        rw [Fallible.wp_ofExcept]
        exact ⟨traced, completes⟩
      · rintro _ other ⟨released, last⟩ ⟨traced, _⟩
        exact ⟨traced, completes_other (by simp)⟩

/-- A recursive call keeps the invariant for a Signal that suits the cause. -/
def Follows (strict : Prop) (items : List (Pair × PendingEntry)) (limit : Limit) (cascade : Signal → Py Response) :
    Prop :=
  ∀ signal board phase, Traced strict items (board, phase) → Suits strict phase signal →
    Fallible.wp (tracing limit) (cascade signal) (fun _ _ after => Traced strict items after) (board, phase)

variable {cascade : Signal → Py Response}

theorem chain_traced (follows : Follows strict items limit cascade) (traced : Traced strict items (board, phase))
    {response : Response} (completes : Completes strict signal rule subject phase (.ok response)) :
    Fallible.wp (tracing limit) (chain cascade signal rule subject response)
      (fun _ _ after => Traced strict items after) (board, phase) := by
  unfold chain
  split
  · rename_i signalId name result
    split
    · rename_i succeeded
      have suits := completes signalId name result rfl succeeded.1 succeeded.2
      rw [Fallible.wp_bind, Fallible.wp_ofExcept]
      unfold runFinishedSignal
      dsimp only
      split
      · exact traced
      · rw [Fallible.after_ok]
        apply Fallible.wp_seq (follows _ board phase traced suits)
        · exact fun _ _ _ kept => kept
        · exact fun _ _ _ kept => kept
    · exact traced
  · exact traced

theorem routeMapped_traced (follows : Follows strict items limit cascade) (traced : Traced strict items (board, phase))
    (suits : Suits strict phase signal) (connection : Connection) (graphInput : List (String × Json)) :
    Fallible.wp (tracing limit) (routeMapped cascade signal rule connection graphInput subject timeout now)
      (fun _ _ after => Traced strict items after) (board, phase) := by
  unfold routeMapped
  dsimp only
  apply Fallible.wp_seq (aside (Suits strict · signal) (Concurrency.tryClaim_inside _ _ _ _ _) (by decide) traced suits)
  · rintro _ taken ⟨claimed, kept⟩ ⟨traced, suits⟩
    split
    · exact traced
    apply Fallible.wp_seq (settleRun_traced traced suits connection graphInput)
    · rintro _ response ⟨settled, moved⟩ ⟨traced, completes⟩
      exact chain_traced follows traced completes
    · exact fun _ _ _ kept => kept.1
  · exact fun _ _ _ kept => kept.1

theorem routeByRule_traced (follows : Follows strict items limit cascade) (traced : Traced strict items (board, phase))
    (suits : Suits strict phase signal) :
    Fallible.wp (tracing limit) (routeByRule cascade timeout now signal) (fun _ _ after => Traced strict items after)
      (board, phase) := by
  have unmatched (reason : String) (response : Response) {board : Board} {phase : Phase}
      (traced : Traced strict items (board, phase)) : Fallible.wp (tracing limit)
        (recordUnmatched signal reason >>= fun _ => pure response) (fun _ _ after => Traced strict items after)
        (board, phase) := by
    apply Fallible.wp_seq (aside (fun _ => True) (recordUnmatched_inside _ _) (by decide) traced trivial)
    · exact fun _ _ _ kept => kept.1
    · exact fun _ _ _ kept => kept.1
  unfold routeByRule
  apply Fallible.wp_seq (aside (Suits strict · signal) (load_inside .rules) (by decide) traced suits)
  · rintro _ rules ⟨read, kept⟩ ⟨traced, suits⟩
    split
    · exact unmatched _ _ traced
    · rename_i found _ _
      apply Fallible.wp_caught (aside (Suits strict · signal) (mapRule_within found signal) (by decide) traced suits)
      rintro _ outcome ⟨mapped, moved⟩ ⟨traced, suits⟩
      cases outcome with
      | error exc =>
          dsimp only
          split
          · exact unmatched _ _ traced
          · exact traced
      | ok target => exact routeMapped_traced follows traced suits target.2 target.1.1
  · exact fun _ _ _ kept => kept.1

/-- A routed completion is recorded with the origin of its Run. -/
theorem Traced.route (traced : Traced strict items (board, phase)) {run : FinishedRun}
    (suits : Suits strict phase (.finished run)) :
    Traced strict items (board, phase.next (.note (.routing run)) ()) ∧
      Suits strict (phase.next (.note (.routing run)) ()) (.finished run) := by
  rcases suits with ⟨origin, cause, same, hops⟩ | ⟨loose, unknown⟩
  · have next : phase.next (.note (.routing run)) () = { phase with routed := (run, origin) :: phase.routed } := by
      simp [Phase.next, cause]
    rw [next]
    refine ⟨⟨traced.placed, traced.entries, traced.items, traced.executions, ?_⟩, .inl ⟨origin, cause, same, hops⟩⟩
    intro routed member
    rcases List.mem_cons.mp member with rfl | earlier
    · exact same.symm
    · exact traced.routed routed earlier
  · have next : phase.next (.note (.routing run)) () = phase := by simp [Phase.next, unknown]
    rw [next]
    exact ⟨traced, .inr ⟨loose, unknown⟩⟩

theorem routeHop_traced (follows : Follows strict items limit cascade) (traced : Traced strict items (board, phase))
    (suits : Suits strict phase signal) :
    Fallible.wp (tracing limit) (routeHop cascade timeout now signal) (fun _ _ after => Traced strict items after)
      (board, phase) := by
  cases signal with
  | external source id payload => exact routeByRule_traced follows traced suits
  | finished run =>
      obtain ⟨traced, suits⟩ := traced.route suits
      unfold routeHop
      rw [Fallible.wp_bind]
      apply watched_note (free limit)
      intro _
      rw [Fallible.after_ok]
      split
      · apply Fallible.wp_seq (aside (fun _ => True) (recordUnmatched_inside _ _) (by decide) traced trivial)
        · exact fun _ _ _ kept => kept.1
        · exact fun _ _ _ kept => kept.1
      · exact routeByRule_traced follows traced suits

/-- The recursion keeps the invariant down each chain of completions. -/
theorem routeWithin_traced (fuel : Nat) : Follows strict items limit (routeWithin timeout now fuel) := by
  induction fuel with
  | zero => exact fun _ _ _ traced _ => traced
  | succ fuel ih => exact fun signal board phase traced suits => routeHop_traced ih traced suits

/-- A routed Signal keeps the invariant. -/
theorem routeSignal_traced (traced : Traced strict items (board, phase)) (suits : Suits strict phase signal) :
    Fallible.wp (tracing limit) (routeSignal signal timeout now) (fun _ _ after => Traced strict items after)
      (board, phase) :=
  routeWithin_traced _ signal board phase traced suits

end

end Cordboard.Provenance
