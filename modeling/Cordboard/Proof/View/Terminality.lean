import Cordboard.Proof.View.Replay

namespace Cordboard.LiveReconciliation
open Data AegraClient

/-- The number of the event is above every number before it. An event without an identifier is always new. -/
def Fresh (builtins : Builtins) (before : List LifecycleEvent) (event : LifecycleEvent) : Prop :=
  ∀ eventId, event.eventId = some eventId → -1 < sequence builtins eventId ∧
    ∀ earlier ∈ before, ∀ other, earlier.eventId = some other → sequence builtins other < sequence builtins eventId

/-- The last new end or error reports this status. -/
def LastReport (builtins : Builtins) (events : List LifecycleEvent) (status : Json) : Prop :=
  ∃ before event after, events = before ++ event :: after ∧ Fresh builtins before event ∧ terminal event = true ∧
    outcome event = status ∧ ∀ middle other later, after = middle ++ other :: later →
      Fresh builtins (before ++ event :: middle) other → terminal other = false

/-- The status is one of the terminal ones. -/
def Concluded (status : Json) : Prop := ∃ text ∈ terminalStatuses, status = .str text

/-- A live Run after its events: the sequence number, and the last report with the time of a completion. -/
structure Followed (builtins : Builtins) (events : List LifecycleEvent) (live : LiveRun) : Prop where
  height : ∀ number : Int, number ≤ live.lastEventSeq ↔
    number ≤ -1 ∨ ∃ event ∈ events, ∃ eventId, event.eventId = some eventId ∧ number ≤ sequence builtins eventId
  completed : live.completedAt.isSome = true ↔ ∃ status, LastReport builtins events status
  reported : ∀ status, LastReport builtins events status →
    live.status = status ∨ (status = .str "pending" ∧ live.status = .str "running")
  unreported : (∀ status, ¬ LastReport builtins events status) →
    live.status = .str "pending" ∨ live.status = .str "running"

section
variable {builtins : Builtins} {live : LiveRun} {events : List LifecycleEvent} {event : LifecycleEvent} {now : Time}
  {status : Json}

theorem concluded_iff : live.isTerminal = .ok true ↔ Concluded live.status := by
  have member : (terminalStatuses.any fun status => live.status.pyEq (.str status)) = true ↔ Concluded live.status := by
    rw [List.any_eq_true]
    simp only [pyEq_text, Concluded]
  unfold LiveRun.isTerminal
  cases hashable : live.status.hashable with
  | true => rw [if_pos rfl, Except.ok.injEq, member]
  | false =>
      rw [if_neg Bool.false_ne_true]
      constructor
      · intro same
        cases same
      · rintro ⟨text, _, same⟩
        rw [same] at hashable
        cases hashable

/-- The live Run takes exactly the new events. -/
theorem Followed.takes (followed : Followed builtins events live) :
    live.takes builtins event ↔ Fresh builtins events event := by
  unfold LiveRun.takes Fresh
  apply forall_congr'
  intro eventId
  apply forall_congr'
  intro _
  rw [← Int.not_le, followed.height, not_or]
  simp only [not_exists, not_and, Int.not_le]

/-- A new end or error is the last report from then on. -/
theorem lastReport_new (fresh : Fresh builtins events event) (finishes : terminal event = true) :
    LastReport builtins (events ++ [event]) status ↔ outcome event = status := by
  constructor
  · rintro ⟨before, other, after, split, _, _, reported, quiet⟩
    rcases List.eq_nil_or_concat after with rfl | ⟨middle, last, rfl⟩
    · obtain ⟨_, same⟩ := List.append_inj' split rfl
      obtain rfl := (List.cons.inj same).1
      exact reported
    · rw [List.concat_eq_append, ← List.cons_append, ← List.append_assoc] at split
      obtain ⟨rfl, same⟩ := List.append_inj' split rfl
      obtain rfl := (List.cons.inj same).1
      rw [quiet middle event [] (by simp) fresh] at finishes
      cases finishes
  · intro reported
    refine ⟨events, event, [], rfl, fresh, finishes, reported, ?_⟩
    intro middle other later split
    cases middle <;> cases split

/-- A replay and an event that finishes nothing leave the last report. -/
theorem lastReport_other (other : Fresh builtins events event → terminal event = false) :
    LastReport builtins (events ++ [event]) status ↔ LastReport builtins events status := by
  constructor
  · rintro ⟨before, report, after, split, fresh, finishes, reported, quiet⟩
    rcases List.eq_nil_or_concat after with rfl | ⟨middle, last, rfl⟩
    · obtain ⟨rfl, same⟩ := List.append_inj' split rfl
      obtain rfl := (List.cons.inj same).1
      rw [other fresh] at finishes
      cases finishes
    · rw [List.concat_eq_append, ← List.cons_append, ← List.append_assoc] at split
      obtain ⟨rfl, _⟩ := List.append_inj' split rfl
      refine ⟨before, report, middle, rfl, fresh, finishes, reported, ?_⟩
      rintro front next rest rfl
      exact quiet front next (rest ++ [last]) (by simp)
  · rintro ⟨before, report, after, rfl, fresh, finishes, reported, quiet⟩
    refine ⟨before, report, after ++ [event], by simp, fresh, finishes, reported, ?_⟩
    intro middle next later split
    rcases List.eq_nil_or_concat later with rfl | ⟨later, last, rfl⟩
    · obtain ⟨rfl, same⟩ := List.append_inj' split rfl
      obtain rfl := (List.cons.inj same).1
      exact other
    · rw [List.concat_eq_append, ← List.cons_append, ← List.append_assoc] at split
      obtain ⟨rfl, _⟩ := List.append_inj' split rfl
      exact quiet middle next later rfl

/-- A status that is not terminal keeps a Run out of the terminal handling. -/
theorem waiting_not_concluded : ¬ Concluded (.str "pending") ∧ ¬ Concluded (.str "running") := by
  constructor
  all_goals
    rintro ⟨text, member, same⟩
    obtain rfl := Json.str.inj same
    revert member
    decide

theorem fold_other (live : LiveRun) (now : Time) (other : terminal event = false) :
    (live.fold event now).completedAt = live.completedAt ∧
    ((live.fold event now).status = live.status ∨
      (live.status = .str "pending" ∧ (live.fold event now).status = .str "running")) := by
  have names : event.event ≠ "end" ∧ event.event ≠ "error" := by simpa [terminal] using other
  unfold LiveRun.fold
  rw [if_neg names.1, if_neg names.2]
  split
  · rename_i started
    exact ⟨rfl, .inr ⟨pending_iff.mp started.2, rfl⟩⟩
  · exact ⟨rfl, .inl rfl⟩

/-- One event keeps the account of the live Run. -/
theorem Followed.step (event : LifecycleEvent) (now : Time) (followed : Followed builtins events live) :
    Followed builtins (events ++ [event]) (live.apply builtins event now) := by
  have height : ∀ number : Int, number ≤ (live.apply builtins event now).lastEventSeq ↔ number ≤ -1 ∨
      ∃ other ∈ events ++ [event], ∃ eventId, other.eventId = some eventId ∧ number ≤ sequence builtins eventId := by
    intro number
    rw [apply_lastEventSeq, followed.height, or_assoc]
    simp only [List.mem_append, List.mem_singleton, or_and_right, exists_or, exists_eq_left]
  by_cases takes : live.takes builtins event
  · have fresh := followed.takes.mp takes
    obtain ⟨before, applied, status, completed⟩ := @apply_takes _ _ _ now takes
    cases finishes : terminal event with
    | true =>
        obtain ⟨reports, done⟩ := @fold_terminal before _ now finishes
        rw [← applied] at reports done
        refine ⟨height, ?_, ?_, ?_⟩
        · simp only [done, true_iff]
          exact ⟨_, (lastReport_new fresh finishes).mpr rfl⟩
        · intro status last
          rw [lastReport_new fresh finishes] at last
          exact .inl (reports.trans last)
        · intro none
          exact absurd ((lastReport_new fresh finishes).mpr rfl) (none _)
    | false =>
        obtain ⟨kept, moved⟩ := fold_other before now finishes
        rw [← applied, completed] at kept
        rw [← applied, status] at moved
        have same : ∀ status, LastReport builtins (events ++ [event]) status ↔ LastReport builtins events status :=
          fun status => lastReport_other fun _ => finishes
        refine ⟨height, ?_, ?_, ?_⟩
        · rw [kept, followed.completed]
          simp only [same]
        · intro status last
          have before := followed.reported status ((same status).mp last)
          rcases moved with still | ⟨pending, running⟩
          · rw [still]
            exact before
          · rcases before with equal | ⟨_, started⟩
            · exact .inr ⟨equal.symm.trans pending, running⟩
            · rw [pending] at started
              exact absurd (Json.str.inj started) (by decide)
        · intro none
          rcases moved with still | ⟨_, running⟩
          · rw [still]
            exact followed.unreported fun status last => none status ((same status).mpr last)
          · exact .inr running
  · have replayed := @apply_replay _ _ _ now takes
    have stale : ¬ Fresh builtins events event := fun fresh => takes (followed.takes.mpr fresh)
    have same : ∀ status, LastReport builtins (events ++ [event]) status ↔ LastReport builtins events status :=
      fun status => lastReport_other fun fresh => absurd fresh stale
    refine ⟨height, ?_, ?_, ?_⟩
    · rw [replayed, followed.completed]
      simp only [same]
    · intro status last
      rw [replayed]
      exact followed.reported status ((same status).mp last)
    · intro none
      rw [replayed]
      exact followed.unreported fun status last => none status ((same status).mpr last)

/-- A fresh live Run has no report. -/
theorem followed_create (builtins : Builtins) {runId threadId : String} {graphId assistantId subject : Json}
    (created : LiveRun.create runId threadId graphId assistantId subject = .ok live) : Followed builtins [] live := by
  have shape : live = ⟨runId, threadId, graphId, assistantId, subject, .str "pending", -1, none⟩ := by
    unfold LiveRun.create at created
    split at created
    · cases created
    · split at created
      · cases created
      · exact (Except.ok.inj created).symm
  have none : ∀ status, ¬ LastReport builtins [] status := by
    rintro status ⟨before, event, after, split, _⟩
    cases before <;> cases split
  rw [shape]
  refine ⟨fun number => by simp, ?_, fun status last => absurd last (none status), fun _ => .inl rfl⟩
  constructor
  · intro same
    cases same
  · rintro ⟨status, last⟩
    exact absurd last (none status)

theorem Followed.deliver (followed : Followed builtins events live) (received : List (LifecycleEvent × Time)) :
    Followed builtins (events ++ received.map Prod.fst) (deliver builtins live received) := by
  induction received generalizing events live with
  | nil =>
      rw [List.map_nil, List.append_nil]
      exact followed
  | cons item rest ih =>
      have next := ih (followed.step item.1 item.2)
      rw [List.append_assoc, List.singleton_append] at next
      exact next

/-- A completion and a terminal status agree exactly when the last report is terminal. -/
theorem completion_tracks_terminality (builtins : Builtins) (runId threadId : String)
    (graphId assistantId subject : Json) (live : LiveRun)
    (created : LiveRun.create runId threadId graphId assistantId subject = .ok live)
    (received : List (LifecycleEvent × Time)) :
    ((deliver builtins live received).completedAt.isSome = true ↔ (deliver builtins live received).isTerminal = .ok true) ↔
      ∀ status, LastReport builtins (received.map Prod.fst) status → Concluded status := by
  have followed := (followed_create builtins created).deliver received
  rw [List.nil_append] at followed
  rw [concluded_iff, followed.completed]
  constructor
  · intro agree status last
    have concluded := agree.mp ⟨status, last⟩
    rcases followed.reported status last with same | ⟨_, running⟩
    · rwa [same] at concluded
    · rw [running] at concluded
      exact absurd concluded waiting_not_concluded.2
  · intro each
    constructor
    · rintro ⟨status, last⟩
      rcases followed.reported status last with same | ⟨pending, _⟩
      · rw [same]
        exact each status last
      · have concluded := each status last
        rw [pending] at concluded
        exact absurd concluded waiting_not_concluded.1
    · intro concluded
      by_contra none
      rcases followed.unreported (fun status last => none ⟨status, last⟩) with same | same
      · rw [same] at concluded
        exact waiting_not_concluded.1 concluded
      · rw [same] at concluded
        exact waiting_not_concluded.2 concluded

end

section Example

/-- The stream of a cancelled Run ends with this event. -/
def cancelledEnd : LifecycleEvent := ⟨"end", [("status", .str "cancelled")], none⟩

def freshRun : LiveRun := ⟨"run-1", "thread-1", .str "g", .str "a", .null, .str "pending", -1, none⟩

/-- The cancelled Run is completed, and it is not terminal. -/
theorem cancelled_run_split :
    LiveRun.create "run-1" "thread-1" (.str "g") (.str "a") .null = .ok freshRun ∧
    (deliver sampleBuiltins freshRun [(cancelledEnd, 7)]).completedAt = some 7 ∧
    (deliver sampleBuiltins freshRun [(cancelledEnd, 7)]).isTerminal = .ok false ∧
    ¬ ((deliver sampleBuiltins freshRun [(cancelledEnd, 7)]).completedAt.isSome = true ↔
      (deliver sampleBuiltins freshRun [(cancelledEnd, 7)]).isTerminal = .ok true) := by
  have completed : (deliver sampleBuiltins freshRun [(cancelledEnd, 7)]).completedAt = some 7 := rfl
  have excluded : (deliver sampleBuiltins freshRun [(cancelledEnd, 7)]).isTerminal = .ok false := rfl
  refine ⟨rfl, completed, excluded, ?_⟩
  rw [completed, excluded]
  decide

theorem completion_tracks_terminality_cancelled :
    ¬ ∀ status, LastReport sampleBuiltins [cancelledEnd] status → Concluded status := by
  intro each
  have agree := (completion_tracks_terminality sampleBuiltins "run-1" "thread-1" (.str "g") (.str "a") .null freshRun rfl
    [(cancelledEnd, 7)]).mpr each
  have completed : (deliver sampleBuiltins freshRun [(cancelledEnd, 7)]).completedAt.isSome = true := rfl
  cases agree.mp completed

end Example

end Cordboard.LiveReconciliation
