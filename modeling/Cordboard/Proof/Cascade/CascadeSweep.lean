import Cordboard.Proof.Cascade.CascadeRoute

namespace Cordboard.Provenance
open Data Effects
open PendingCompletions (Pair)
open RunContinuity (recordOf)
open Router DeploymentLifecycle

section
variable {strict : Prop} {items : List (Pair × PendingEntry)} {limit : Limit} {board : Board} {phase : Phase}
  {timeout now : Time} {deployment threadId : String} {entry : PendingEntry}

/-- The sweep names the completed Run by the logical Run of its origin. -/
theorem completedRunId_traced (traced : Traced strict items (board, phase))
    (sound : Sound strict board phase.origins (deployment, threadId) entry) :
    Fallible.wp (tracing limit) (completedRunId deployment threadId entry)
      (fun _ outcome after => (Traced strict items after ∧ after.2 = phase) ∧ ∀ runId, outcome = .ok runId →
        ∀ origin, phase.origins (deployment, threadId) = some origin → origin.run.runId = runId) (board, phase) := by
  have names : Fallible.wp boardMachine (completedRunId deployment threadId entry)
      (fun _ outcome after => after = board ∧ ∀ runId, outcome = .ok runId →
        ∀ origin, phase.origins (deployment, threadId) = some origin → origin.run.runId = runId) board := by
    unfold completedRunId
    have found : Fallible.wp boardMachine (RunContinuity.logicalRun deployment threadId)
        (fun _ outcome after => after = board ∧ (∀ record, outcome = .ok record →
          recordOf (board .continuity) (deployment, threadId) = some record) ∧
          ∀ exc, outcome = .error exc → exc.kind ≠ .unknownThread) board := by
      apply RunContinuity.logicalRun_ends board
      · rintro data record _ present
        refine ⟨rfl, ?_, by simp⟩
        intro other same
        rw [← Except.ok.inj same]
        exact present
      · intro data exc _ _ absent
        have anchored := sound.anchored
        rw [absent] at anchored
        cases anchored
      · intro exc failed
        refine ⟨rfl, by simp, ?_⟩
        intro other same
        have kind : exc.kind = Store.continuity.errorKind := kind_of_decode failed
        rw [← Except.error.inj same, kind]
        decide
    apply Fallible.wp_caught found
    rintro _ outcome _ ⟨rfl, present, known⟩
    cases outcome with
    | error exc =>
        dsimp only
        rw [if_neg (known exc rfl), Fallible.wp_raise]
        exact ⟨rfl, by simp⟩
    | ok record =>
        dsimp only
        rw [Fallible.wp_pure]
        refine ⟨rfl, ?_⟩
        intro runId same origin submitted
        rw [← Except.ok.inj same]
        exact ((traced.placed _ origin submitted).logical record (present record rfl)).symm
  apply Fallible.wp_mono ((phaseLens limit).wp_beside (completedRunId_inside _ _ _) (store_outside limit _) names phase)
  rintro _ outcome ⟨after, _⟩ ⟨⟨same, named⟩, rfl, _⟩
  obtain rfl : after = board := same
  exact ⟨⟨traced, rfl⟩, named⟩

/-- The completion of a sound entry suits its cause. -/
theorem suits_of_entry (traced : Traced strict items (board, phase))
    (sound : Sound strict board phase.origins (deployment, threadId) entry)
    (caused : phase.cause = phase.completion (deployment, threadId)) {runId : String}
    (named : ∀ origin, phase.origins (deployment, threadId) = some origin → origin.run.runId = runId) :
    Suits strict phase
      (.finished ⟨runId, entry.subject, deployment, entry.assistant, "success", entry.cascadeDepth⟩) := by
  unfold Phase.completion at caused
  cases known : phase.origins (deployment, threadId) with
  | none =>
      rw [known] at caused
      refine .inr ⟨fun strictly => ?_, caused⟩
      have tracked := sound.known strictly
      rw [known] at tracked
      cases tracked
  | some origin =>
      rw [known] at caused
      have placed := traced.placed _ origin known
      have agrees := sound.agrees origin known
      refine .inl ⟨origin, caused, ?_, ?_⟩
      · obtain ⟨⟨id, subject, connection, assistant, status, cascadeDepth⟩, hops⟩ := origin
        obtain rfl : id = runId := named _ known
        obtain rfl : connection = deployment := placed.connection
        obtain rfl : status = "success" := placed.status
        rw [agrees.subject, agrees.assistant, agrees.cascadeDepth]
      · intro strictly
        exact ((agrees.cascadeDepth).trans (placed.depth strictly)).symm

/-- The claims of an entry are released outside the trace. -/
theorem releaseHeld_aside (holds : Phase → Prop) (connection : Connection) (traced : Traced strict items (board, phase))
    (held : holds phase) : Fallible.wp (tracing limit) (releaseHeld connection deployment threadId entry now)
      (fun _ _ after => Traced strict items after ∧ holds after.2) (board, phase) :=
  aside holds (releaseHeld_within connection deployment threadId entry now) (by decide) traced held

/-- A finished entry leaves, and its completion is routed with its cause. -/
theorem finalizeEntry_traced (connection : Connection) (rawStatus : String)
    (traced : Traced strict (((deployment, threadId), entry) :: items) (board, phase))
    (caused : rawStatus = "success" → phase.cause = phase.completion (deployment, threadId)) :
    Fallible.wp (tracing limit) (finalizeEntry connection deployment threadId entry rawStatus timeout now)
      (fun _ _ after => Traced strict items after) (board, phase) := by
  unfold finalizeEntry
  apply Fallible.wp_seq (releaseHeld_aside
    (fun phase => rawStatus = "success" → phase.cause = phase.completion (deployment, threadId)) connection traced caused)
  · rintro _ _ ⟨released, kept⟩ ⟨freed, caused⟩
    apply Fallible.wp_seq (resolvePending_traced freed deployment threadId)
    · rintro _ _ ⟨resolved, _⟩ ⟨removed, rfl⟩
      split
      · rename_i success
        apply Fallible.wp_seq (completedRunId_traced removed (removed.items _ List.mem_cons_self))
        · rintro _ runId ⟨read, _⟩ ⟨⟨completed, rfl⟩, named⟩
          have suits := suits_of_entry completed (completed.items _ List.mem_cons_self) (caused success) (named runId rfl)
          rw [Fallible.wp_bind, Fallible.wp_ofExcept]
          unfold runFinishedSignal
          dsimp only
          split
          · exact completed.drop
          · rw [Fallible.after_ok]
            apply Fallible.wp_seq (routeSignal_traced completed.drop suits)
            · rintro _ response ⟨routed, last⟩ traced
              rw [Fallible.wp_bind]
              apply watched_note (free limit)
              exact fun _ => traced
            · exact fun _ _ _ kept => kept
        · exact fun _ _ _ kept => kept.1.1.drop
      · exact removed.drop
    · exact fun _ _ _ kept => kept.1.drop
  · exact fun _ _ _ kept => kept.1.drop

theorem settleEntry_traced (connection : Connection) (rawStatus : String)
    (traced : Traced strict (((deployment, threadId), entry) :: items) (board, phase))
    (caused : rawStatus = "success" → phase.cause = phase.completion (deployment, threadId)) :
    Fallible.wp (tracing limit) (settleEntry connection deployment threadId entry rawStatus timeout now)
      (fun _ _ after => Traced strict items after) (board, phase) := by
  unfold settleEntry
  split
  · have renews : Within [.store .concurrency] (whenever entry.concurrencyHeld
        (Concurrency.renew entry.assistant entry.subject now (.entry deployment threadId))) :=
      whenever_within (Concurrency.renew_inside _ _ _ _)
    apply Fallible.wp_seq (aside (fun _ => True) renews (by decide) traced trivial)
    · exact fun _ _ _ kept => kept.1.drop
    · exact fun _ _ _ kept => kept.1.drop
  · split
    · apply Fallible.wp_seq (releaseHeld_aside (fun _ => True) connection traced trivial)
      · rintro _ _ ⟨released, kept⟩ ⟨traced, _⟩
        apply Fallible.wp_seq (updatePending_traced traced deployment threadId none (some false) (some false) now)
        · exact fun _ _ _ kept => kept.1.drop
        · exact fun _ _ _ kept => kept.1.drop
      · exact fun _ _ _ kept => kept.1.drop
    · exact finalizeEntry_traced connection rawStatus traced caused

/-- The sweep learns the cause before it settles the entry. -/
theorem sweepEntry_traced (connections : Dict String Connection)
    (traced : Traced strict (((deployment, threadId), entry) :: items) (board, phase)) :
    Fallible.wp (tracing limit) (sweepEntry connections deployment threadId entry timeout now)
      (fun _ _ after => Traced strict items after) (board, phase) := by
  unfold sweepEntry
  split
  · exact traced.drop
  · rename_i connection _
    rw [Fallible.wp_bind]
    apply watched_call (free limit)
    intro answer _
    rw [Fallible.after_ok]
    have described : Traced strict (((deployment, threadId), entry) :: items)
        (board, { phase with reported := answer.toOption }) :=
      ⟨traced.placed, traced.entries, traced.items, traced.executions, traced.routed⟩
    cases answer with
    | error exc =>
        dsimp only
        split
        · exact described.drop
        · exact described.drop
    | ok info =>
        dsimp only
        rw [Fallible.wp_bind]
        apply watched_note (free limit)
        intro _
        rw [Fallible.after_ok]
        apply settleEntry_traced connection info.status (described.complete _ _)
        intro success
        simp [Phase.complete, Phase.completion, learnedRaw, success]

/-- The sweep settles its snapshot one entry after another. -/
theorem sweepEntries_traced (connections : Dict String Connection) (entries : List (Pair × PendingEntry))
    (traced : Traced strict entries (board, phase)) :
    Fallible.wp (tracing limit) (sweepEntries connections timeout now entries)
      (fun _ _ after => Traced strict [] after) (board, phase) := by
  induction entries generalizing board phase with
  | nil => exact traced
  | cons item rest ih =>
      obtain ⟨⟨deployment, threadId⟩, entry⟩ := item
      have clear {state : Board × Phase} (traced : Traced strict rest state) : Traced strict [] state :=
        ⟨traced.placed, traced.entries, by simp, traced.executions, traced.routed⟩
      unfold sweepEntries
      apply Fallible.wp_seq (sweepEntry_traced connections traced)
      · rintro _ observed ⟨settled, moved⟩ traced
        apply Fallible.wp_seq (ih traced)
        · exact fun _ _ _ kept => kept
        · exact fun _ _ _ kept => kept
      · exact fun _ _ _ kept => clear kept

/-- A sweep keeps the invariant. -/
theorem sweepPending_traced (traced : Traced strict [] (board, phase)) :
    Fallible.wp (tracing limit) (sweepPending timeout now) (fun _ _ after => Traced strict [] after) (board, phase) := by
  unfold sweepPending
  apply Fallible.wp_seq (aside (fun _ => True) (load_inside .connections) (by decide) traced trivial)
  · rintro _ connections ⟨read, kept⟩ ⟨traced, _⟩
    rw [Fallible.wp_bind]
    apply watched_load (free limit)
    intro _
    cases decoded : decode .pending (read .pending) with
    | error exc => exact traced
    | ok tracked =>
        rw [Fallible.after_ok]
        apply sweepEntries_traced connections tracked.items
        refine ⟨traced.placed, traced.entries, ?_, traced.executions, traced.routed⟩
        rintro ⟨pair, entry⟩ member
        apply traced.entries pair entry
        rw [PendingCompletions.find?_of_decode decoded]
        exact (tracked.get?_eq_some_iff pair entry).mpr member
  · exact fun _ _ _ kept => kept.1

end

end Cordboard.Provenance
