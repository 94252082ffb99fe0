import Cordboard.Proof.Sweep.HandoverProtocol

namespace Cordboard.Handover
open Data Effects PendingCompletions Router

section
variable {done : List Claim} {pair : Pair} {before middle after : Phase}

/-- A release at a pair keeps the open claims at this pair. -/
theorem ReleasesOnly.openAt {kind : HeldClaim} (released : ReleasesOnly (pair, kind) before after)
    (opening : ∀ claim ∈ before.opened, claim.1 = pair) : ∀ claim ∈ after.opened, claim.1 = pair := by
  rcases released with ⟨same, -⟩ | ⟨more, -⟩
  · rwa [same]
  · rw [more]
    exact List.forall_mem_cons.mpr ⟨rfl, opening⟩

/-- Only this claim is new among the released ones. -/
theorem ReleasesOnly.done_subset {claim other : Claim} (released : ReleasesOnly claim before after)
    (member : other ∈ after.done) : other ∈ before.done ∨ other = claim := by
  rcases released with ⟨-, same⟩ | ⟨-, more⟩
  · exact .inl (same ▸ member)
  · rw [more] at member
    exact (List.mem_cons.mp member).symm

end

/-- The phase after an entry was visited has no open claims, and new claims of its pair only. -/
def Visited (pair : Pair) (done : List Claim) (phase : Phase) : Prop :=
  ∃ released, Closed released phase ∧ ∀ claim ∈ released, claim ∈ done ∨ claim.1 = pair

section
variable {done : List Claim} {deployment threadId : String} {entry : PendingEntry} {phase : Phase}

/-- Both claims of an entry are released once. -/
theorem releaseHeld_opens (connection : Connection) (now : Time) (closed : Closed done phase)
    (fresh : ∀ claim ∈ done, claim.1 ≠ (deployment, threadId)) :
    Fallible.wp handover.machine (releaseHeld connection deployment threadId entry now)
      (fun _ _ after => ∃ released, OpenAt (deployment, threadId) released after ∧
        ∀ claim ∈ released, claim ∈ done ∨ claim.1 = (deployment, threadId)) phase := by
  obtain ⟨opened, rfl⟩ := closed
  have unspent (kind : HeldClaim) : ((deployment, threadId), kind) ∉ phase.done := fun member => fresh _ member rfl
  have first : Fallible.wp handover.machine
      (whenever entry.deploymentHeld
        (DeploymentLifecycle.releaseActive deployment connection now (.entry deployment threadId)))
      (fun _ _ after => ReleasesOnly ((deployment, threadId), .activity) phase after) phase := by
    rw [wp_whenever]
    split
    · exact releaseActive_opens _ _ _ _ (unspent .activity)
    · exact .inl ⟨rfl, rfl⟩
  have finished {after : Phase} (own : ∀ claim ∈ after.opened, claim.1 = (deployment, threadId))
      (known : ∀ claim ∈ after.done, claim ∈ phase.done ∨ claim.1 = (deployment, threadId)) :
      ∃ released, OpenAt (deployment, threadId) released after ∧
        ∀ claim ∈ released, claim ∈ phase.done ∨ claim.1 = (deployment, threadId) :=
    ⟨after.done, ⟨own, rfl⟩, known⟩
  have own {middle : Phase} (released : ReleasesOnly ((deployment, threadId), .activity) phase middle) :
      ∀ claim ∈ middle.opened, claim.1 = (deployment, threadId) :=
    released.openAt (by simp [opened])
  have known {middle : Phase} (released : ReleasesOnly ((deployment, threadId), .activity) phase middle) :
      ∀ claim ∈ middle.done, claim ∈ phase.done ∨ claim.1 = (deployment, threadId) :=
    fun claim member => (released.done_subset member).imp id fun same => congrArg Prod.fst same
  refine Fallible.wp_seq first ?_ fun _ _ _ released => finished (own released) (known released)
  intro _ _ middle released
  rw [wp_whenever]
  split
  · have open_ : ((deployment, threadId), HeldClaim.concurrency) ∉ middle.done := by
      intro member
      rcases released.done_subset member with older | same
      · exact unspent .concurrency older
      · cases same
    apply Fallible.wp_mono (release_opens entry.assistant entry.subject deployment threadId open_)
    intro _ _ after second
    refine finished (second.openAt (own released)) ?_
    intro claim member
    rcases second.done_subset member with older | rfl
    · exact known released claim older
    · exact .inr rfl
  · exact finished (own released) (known released)

/-- The raw status decides the handover, which leaves no claim open unless it raises. -/
theorem settleEntry_visits (connection : Connection) (rawStatus : String) (timeout now : Time)
    (closed : Closed done phase) (fresh : ∀ claim ∈ done, claim.1 ≠ (deployment, threadId)) :
    Fallible.wp handover.machine (settleEntry connection deployment threadId entry rawStatus timeout now)
      (fun _ outcome after => ∀ value, outcome = .ok value → Visited (deployment, threadId) done after) phase := by
  have kept : Visited (deployment, threadId) done phase := ⟨done, closed, fun _ => .inl⟩
  have raised {A : Type} {exc : Exc} {P : Prop} : ∀ value : A, Except.error exc = .ok value → P :=
    fun _ equal => by cases equal
  unfold settleEntry
  split
  · refine Fallible.wp_seq (closed_within (by decide) (whenever_within (Concurrency.renew_inside _ _ _ _)) done phase
      closed) ?_ ?_
    · exact fun _ _ after kept _ _ => ⟨done, kept, fun _ => .inl⟩
    · exact fun _ _ _ _ => raised
  split
  · refine Fallible.wp_seq (releaseHeld_opens connection now closed fresh) ?_ fun _ _ _ _ => raised
    rintro _ _ middle ⟨released, opening, known⟩
    refine Fallible.wp_seq (updatePending_closes _ _ now opening) ?_ fun _ _ _ _ => raised
    intro _ value after closes _ _
    exact ⟨released, closes value rfl, known⟩
  · refine Fallible.wp_seq (releaseHeld_opens connection now closed fresh) ?_ fun _ _ _ _ => raised
    rintro _ _ middle ⟨released, opening, known⟩
    refine Fallible.wp_seq (resolvePending_closes _ _ opening) ?_ fun _ _ _ _ => raised
    intro _ value resolved closes
    have visited {after : Phase} (closed : Closed released after) : Visited (deployment, threadId) done after :=
      ⟨released, closed, known⟩
    split
    · have completed : KeepsClosed released (completedRunId deployment threadId entry) :=
        closed_within (by decide) (completedRunId_inside _ _ _) released
      have routed (signal : Signal) : KeepsClosed released (routeSignal signal timeout now) :=
        routeSignal_recording (keeps_sequential handover.machine (Closed released))
          (fun within => closed_within (by decide) within released)
          (fun _ _ _ _ _ _ _ _ => recordPending_closed _ _ _ _ _ _ _ _ _ _) signal
      have cascaded : Inside .knowledge (note (.cascaded deployment threadId)) := note_inside _
      refine Fallible.wp_mono (Fallible.Keeps.bind completed ?_ resolved (closes value rfl)) ?_
      · intro runId
        apply Fallible.Keeps.bind (Fallible.keeps_ofExcept _)
        intro finished
        apply Fallible.Keeps.bind (routed finished)
        intro cascade
        exact Fallible.Keeps.bind (closed_within (by decide) cascaded released) fun _ => Fallible.keeps_pure _
      · exact fun _ _ _ closed _ _ => visited closed
    · exact fun _ _ => visited (closes value rfl)

/-- One entry of the snapshot is visited. -/
theorem sweepEntry_visits (connections : Dict String Connection) (timeout now : Time) (closed : Closed done phase)
    (fresh : ∀ claim ∈ done, claim.1 ≠ (deployment, threadId)) :
    Fallible.wp handover.machine (sweepEntry connections deployment threadId entry timeout now)
      (fun _ outcome after => ∀ value, outcome = .ok value → Visited (deployment, threadId) done after) phase := by
  unfold sweepEntry
  split
  · exact fun _ _ => ⟨done, closed, fun _ => .inl⟩
  · rename_i connection _
    have described : Inside .inspection (call (.describeRun connection.endpoint threadId entry.invocationId)) :=
      call_inside _
    refine Fallible.wp_seq (closed_within (by decide) described done phase closed) ?_
      fun _ _ _ _ _ equal => by cases equal
    intro _ answer after kept
    cases answer with
    | error exc =>
        dsimp only
        split
        · exact fun _ _ => ⟨done, kept, fun _ => .inl⟩
        · exact fun _ equal => by cases equal
    | ok info =>
        have observed : Inside .knowledge
            (note (.observed deployment threadId entry.invocationId (learnedRaw info.status))) := note_inside _
        refine Fallible.wp_seq (closed_within (by decide) observed done after kept) ?_
          fun _ _ _ _ _ equal => by cases equal
        exact fun _ _ _ kept => settleEntry_visits connection info.status timeout now kept fresh

/-- The snapshot names each pair once, so the sweep releases each claim once. -/
theorem sweepEntries_hands (connections : Dict String Connection) (timeout now : Time)
    (items : List (Pair × PendingEntry)) (distinct : (items.map Prod.fst).Nodup) {done : List Claim} {phase : Phase}
    (closed : Closed done phase) (fresh : ∀ claim ∈ done, claim.1 ∉ items.map Prod.fst) :
    Fallible.wp handover.machine (sweepEntries connections timeout now items) (fun _ _ _ => True) phase := by
  induction items generalizing done phase with
  | nil => trivial
  | cons item rest ih =>
      obtain ⟨⟨deployment, threadId⟩, entry⟩ := item
      rw [List.map_cons, List.nodup_cons] at distinct
      have unvisited : ∀ claim ∈ done, claim.1 ≠ (deployment, threadId) := by
        intro claim member same
        exact fresh claim member (by rw [same]; exact List.mem_cons_self ..)
      unfold sweepEntries
      refine Fallible.wp_seq (sweepEntry_visits connections timeout now closed unvisited) ?_ fun _ _ _ _ => trivial
      intro _ value after visited
      obtain ⟨released, kept, known⟩ := visited value rfl
      refine Fallible.wp_seq (ih distinct.2 kept ?_) (fun _ _ _ _ => trivial) fun _ _ _ _ => trivial
      intro claim member
      rcases known claim member with older | same
      · exact fun later => fresh claim older (List.mem_cons_of_mem _ later)
      · rw [same]
        exact distinct.1

/-- A sweep obeys the protocol. -/
theorem sweepPending_hands (timeout now : Time) :
    Fallible.wp handover.machine (sweepPending timeout now) (fun _ _ _ => True) ⟨none, none, [], []⟩ := by
  have start : Closed [] ⟨none, none, [], []⟩ := ⟨rfl, rfl⟩
  refine Fallible.wp_seq (closed_within (by decide) (load_inside .connections) [] _ start) ?_ fun _ _ _ _ => trivial
  rintro _ connections ⟨seen, announced, opened, released⟩ ⟨rfl, rfl⟩
  simp only [Fallible.wp_bind, loadPending, wp_load]
  refine ⟨unreleased rfl _, ?_⟩
  intro file after moved
  subst moved
  cases decode .pending file with
  | error exc => trivial
  | ok data => exact sweepEntries_hands connections timeout now data.items data.distinct ⟨rfl, rfl⟩ (List.forall_mem_nil _)

end

end Cordboard.Handover
