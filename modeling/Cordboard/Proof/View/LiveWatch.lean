import Cordboard.Proof.View.WatchQueue

namespace Cordboard

namespace LiveReconciliation
open AegraClient

/-- An end or an error finishes an invocation. -/
def terminal (event : LifecycleEvent) : Bool := event.event = "end" || event.event = "error"

/-- The status that a terminal event reports. -/
def outcome (event : LifecycleEvent) : Json :=
  if event.event = "end" then ((event.data.lookup "status").getD .null).orElse (.str "success") else .str "error"

/-- The event leaves this status as it is. -/
def keepsStatus (event : LifecycleEvent) (status : Json) : Prop :=
  if terminal event then outcome event = status else event.event = "metadata" → status ≠ .str "pending"

/-- The event is not a replay for the live Run. -/
def LiveRun.takes (builtins : Builtins) (live : LiveRun) (event : LifecycleEvent) : Prop :=
  ∀ eventId, event.eventId = some eventId → live.lastEventSeq < sequence builtins eventId

section
variable {builtins : Builtins} {live : LiveRun} {event : LifecycleEvent} {now : Time}

theorem pyEq_text {status : Json} {text : String} : status.pyEq (.str text) = true ↔ status = .str text := by
  cases status <;> simp [Json.pyEq, Json.number?]

theorem pending_iff {status : Json} : status.pyEq (.str "pending") = true ↔ status = .str "pending" := pyEq_text

@[simp] theorem fold_lastEventSeq : (live.fold event now).lastEventSeq = live.lastEventSeq := by
  unfold LiveRun.fold
  split
  · rfl
  · split
    · rfl
    · split <;> rfl

theorem fold_terminal (finishes : terminal event = true) :
    (live.fold event now).status = outcome event ∧ (live.fold event now).completedAt.isSome = true := by
  unfold LiveRun.fold outcome
  unfold terminal at finishes
  by_cases ended : event.event = "end"
  · rw [if_pos ended, if_pos ended]
    exact ⟨rfl, by simp⟩
  · have failed : event.event = "error" := by simpa [ended] using finishes
    rw [if_neg ended, if_neg ended, if_pos failed]
    exact ⟨rfl, by simp⟩

theorem fold_completed (completed : live.completedAt.isSome = true) :
    (live.fold event now).completedAt.isSome = true := by
  unfold LiveRun.fold
  split
  · simp
  · split
    · simp
    · split <;> exact completed

/-- An applied event keeps the status exactly when it reports the same one. -/
theorem fold_status : (live.fold event now).status = live.status ↔ keepsStatus event live.status := by
  unfold keepsStatus
  cases finishes : terminal event with
  | true =>
      rw [if_pos rfl, (fold_terminal finishes).1]
  | false =>
      rw [if_neg Bool.false_ne_true]
      have other : event.event ≠ "end" ∧ event.event ≠ "error" := by simpa [terminal] using finishes
      unfold LiveRun.fold
      rw [if_neg other.1, if_neg other.2]
      split
      · rename_i started
        obtain ⟨metadata, pending⟩ := started
        rw [pending_iff] at pending
        dsimp only
        rw [pending]
        simp [metadata]
      · rename_i waits
        simp only [true_iff]
        intro metadata pending
        exact waits ⟨metadata, pending_iff.mpr pending⟩

theorem apply_takes (takes : live.takes builtins event) : ∃ before : LiveRun, live.apply builtins event now =
    before.fold event now ∧ before.status = live.status ∧ before.completedAt = live.completedAt := by
  unfold LiveRun.apply
  cases stored : event.eventId with
  | none => exact ⟨live, rfl, rfl, rfl⟩
  | some eventId =>
      dsimp only
      rw [if_neg (Int.not_le.mpr (takes eventId stored))]
      exact ⟨_, rfl, rfl, rfl⟩

theorem apply_replay (replay : ¬ live.takes builtins event) : live.apply builtins event now = live := by
  unfold LiveRun.apply
  cases stored : event.eventId with
  | none =>
      refine absurd ?_ replay
      intro eventId same
      rw [stored] at same
      cases same
  | some eventId =>
      dsimp only
      rw [if_pos]
      apply Int.not_lt.mp
      intro above
      apply replay
      intro other same
      obtain rfl := Option.some.inj (stored.symm.trans same)
      exact above

/-- The last sequence number is the highest one. -/
theorem apply_lastEventSeq (number : Int) : number ≤ (live.apply builtins event now).lastEventSeq ↔
    number ≤ live.lastEventSeq ∨ ∃ eventId, event.eventId = some eventId ∧ number ≤ sequence builtins eventId := by
  unfold LiveRun.apply
  cases stored : event.eventId with
  | none => simp
  | some eventId =>
      simp only [Option.some.injEq, exists_eq_left']
      split
      · omega
      · rw [fold_lastEventSeq]
        dsimp only
        omega

end

end LiveReconciliation

namespace Cli
open Data AegraClient LiveReconciliation

def Message.identifies (logicalId : String) : Message → Bool
  | .identified other _ _ => other == logicalId
  | _ => false

/-- An event of the logical Run is in the queue. -/
def Message.carries (logicalId : String) (event : LifecycleEvent) (message : Message) : Prop :=
  ∃ threadId, message = .event logicalId threadId event

variable {I : Type} [DecidableEq I]

/-- An event of the Run with this number or a higher one stands after the last identity. -/
def Covered (builtins : Builtins) (logicalId : String) (queue : List (Entry I)) (number : Int) : Prop :=
  ∃ front entry back event eventId, queue = front ++ entry :: back ∧ entry.message.carries logicalId event ∧
    event.eventId = some eventId ∧ number ≤ sequence builtins eventId ∧
    ∀ later ∈ back, later.message.identifies logicalId = false

/-- The table after a queue knows the identified Runs and the highest numbers. -/
structure Tracks (builtins : Builtins) (logicalId : String) (queue : List (Entry I)) (liveById : LiveRuns) : Prop where
  known : (liveById.get? logicalId).isSome = true ↔ ∃ entry ∈ queue, entry.message.identifies logicalId = true
  height : ∀ live, liveById.get? logicalId = some live → ∀ number, 0 ≤ number →
    (number ≤ live.lastEventSeq ↔ Covered builtins logicalId queue number)

/-- Each identity has a name, and each event follows the identity of its Run. -/
structure Prepared (queue : List (Entry I)) : Prop where
  named : ∀ entry ∈ queue, ∀ logicalId threadId payload, entry.message = .identified logicalId threadId payload →
    blank logicalId = false ∧ blank threadId = false
  announced : ∀ front entry back logicalId event, queue = front ++ entry :: back →
    entry.message.carries logicalId event → ∃ earlier ∈ front, earlier.message.identifies logicalId = true

section
variable {builtins : Builtins} {logicalId : String} {queue : List (Entry I)} {entry : Entry I} {liveById next : LiveRuns}

omit [DecidableEq I] in
theorem covered_snoc {number : Int} : Covered builtins logicalId (queue ++ [entry]) number ↔
    (∃ event eventId, entry.message.carries logicalId event ∧ event.eventId = some eventId ∧
      number ≤ sequence builtins eventId) ∨
    entry.message.identifies logicalId = false ∧ Covered builtins logicalId queue number := by
  constructor
  · rintro ⟨front, other, back, event, eventId, same, carries, stored, above, later⟩
    rcases List.eq_nil_or_concat back with rfl | ⟨back, last, rfl⟩
    · obtain ⟨_, one⟩ := List.append_inj' same rfl
      obtain rfl := (List.cons.inj one).1
      exact .inl ⟨event, eventId, carries, stored, above⟩
    · rw [List.concat_eq_append] at same later
      rw [← List.cons_append, ← List.append_assoc] at same
      obtain ⟨rfl, one⟩ := List.append_inj' same rfl
      obtain rfl := (List.cons.inj one).1
      refine .inr ⟨later entry (by simp), front, other, back, event, eventId, rfl, carries, stored, above, ?_⟩
      exact fun item member => later item (by simp [member])
  · rintro (⟨event, eventId, carries, stored, above⟩ | ⟨quiet, front, other, back, event, eventId, rfl, rest⟩)
    · refine ⟨queue, entry, [], event, eventId, rfl, carries, stored, above, ?_⟩
      intro later member
      cases member
    · obtain ⟨carries, stored, above, later⟩ := rest
      refine ⟨front, other, back ++ [entry], event, eventId, by simp, carries, stored, above, ?_⟩
      intro item member
      rcases List.mem_append.mp member with member | member
      · exact later item member
      · rwa [List.mem_singleton.mp member]

/-- A message changes the live Run of its own logical identifier. -/
inductive Moves (builtins : Builtins) (logicalId : String) (message : Message) (now : Time)
    (before after : Option LiveRun) : Prop where
  | identity (identifies : message.identifies logicalId = true) (live : LiveRun) (fresh : after = some live)
      (unseen : live.lastEventSeq = -1) (incomplete : live.completedAt = none)
  | event (event : LifecycleEvent) (carries : message.carries logicalId event) (live : LiveRun)
      (known : before = some live) (applied : after = some (live.apply builtins event now))
  | other (quiet : message.identifies logicalId = false) (silent : ∀ event, ¬ message.carries logicalId event)
      (same : after = before)

theorem create_ok {runId threadId : String} {graphId assistantId subject : Json} (run : blank runId = false)
    (thread : blank threadId = false) : LiveRun.create runId threadId graphId assistantId subject =
      .ok ⟨runId, threadId, graphId, assistantId, subject, .str "pending", -1, none⟩ := by
  rw [LiveRun.create, if_neg (ne_true_of_eq_false run), if_neg (ne_true_of_eq_false thread)]

theorem consumeMessage_moves {message : Message} {now : Time}
    (read : consumeMessage builtins liveById message now = .ok next) (logicalId : String) :
    Moves builtins logicalId message now (liveById.get? logicalId) (next.get? logicalId) := by
  cases message with
  | identified other threadId payload =>
      obtain ⟨live, created, same⟩ := bind_ok.mp read
      obtain rfl := Except.ok.inj same
      have fresh : live = ⟨other, threadId, payload.graphId, payload.assistantId, payload.subject, .str "pending", -1,
          none⟩ := by
        unfold LiveRun.create at created
        split at created
        · cases created
        · split at created
          · cases created
          · exact (Except.ok.inj created).symm
      by_cases equal : other = logicalId
      · subst other
        refine .identity (by simp [Message.identifies]) _ (Dict.get?_set_self _ _ _) ?_ ?_ <;>
        · rw [fresh]
          split <;> rfl
      · refine .other (by simpa [Message.identifies] using equal) ?_ (Dict.get?_set_of_ne _ (Ne.symm equal) _)
        rintro event ⟨_, same⟩
        cases same
  | event other threadId payload =>
      cases known : liveById.get? other with
      | none =>
          simp only [consumeMessage, known] at read
          cases read
      | some live =>
          simp only [consumeMessage, known] at read
          obtain rfl := Except.ok.inj read
          by_cases equal : other = logicalId
          · subst other
            exact .event payload ⟨threadId, rfl⟩ live known (Dict.get?_set_self _ _ _)
          · refine .other rfl ?_ (Dict.get?_set_of_ne _ (Ne.symm equal) _)
            rintro event ⟨_, same⟩
            cases same
            exact equal rfl
  | failed threadId runId text =>
      obtain rfl := Except.ok.inj read
      refine .other rfl ?_ rfl
      rintro event ⟨_, same⟩
      cases same
  | done threadId runId =>
      obtain rfl := Except.ok.inj read
      refine .other rfl ?_ rfl
      rintro event ⟨_, same⟩
      cases same

theorem identifies_carries {message : Message} {event : LifecycleEvent} (carries : message.carries logicalId event) :
    message.identifies logicalId = false := by
  obtain ⟨_, rfl⟩ := carries
  rfl

theorem carries_unique {message : Message} {event other : LifecycleEvent} (first : message.carries logicalId event)
    (second : message.carries logicalId other) : event = other := by
  obtain ⟨_, rfl⟩ := first
  obtain ⟨_, same⟩ := second
  cases same
  rfl

omit [DecidableEq I] in
theorem Tracks.step (tracks : Tracks builtins logicalId queue liveById)
    (read : consumeMessage builtins liveById entry.message entry.now = .ok next) :
    Tracks builtins logicalId (queue ++ [entry]) next := by
  cases consumeMessage_moves read logicalId with
  | identity identifies live fresh unseen incomplete =>
      refine ⟨?_, fun other same number positive => ?_⟩
      · rw [fresh]
        simp only [Option.isSome_some, true_iff]
        exact ⟨entry, by simp, identifies⟩
      · obtain rfl := Option.some.inj (fresh.symm.trans same)
        rw [covered_snoc, unseen, identifies]
        simp only [Bool.true_eq_false, false_and, or_false]
        constructor
        · omega
        · rintro ⟨event, _, carries, _⟩
          rw [identifies_carries carries] at identifies
          cases identifies
  | event event carries live known applied =>
      have quiet := identifies_carries carries
      refine ⟨?_, fun other same number positive => ?_⟩
      · rw [applied]
        have before := tracks.known
        rw [known] at before
        obtain ⟨earlier, member, identifies⟩ := before.mp rfl
        simp only [Option.isSome_some, true_iff]
        exact ⟨earlier, List.mem_append_left _ member, identifies⟩
      · obtain rfl := Option.some.inj (applied.symm.trans same)
        rw [apply_lastEventSeq, covered_snoc, tracks.height live known number positive, quiet]
        simp only [true_and]
        constructor
        · rintro (covered | ⟨eventId, stored, above⟩)
          · exact .inr covered
          · exact .inl ⟨event, eventId, carries, stored, above⟩
        · rintro (⟨other, eventId, same, stored, above⟩ | covered)
          · obtain rfl := carries_unique carries same
            exact .inr ⟨eventId, stored, above⟩
          · exact .inl covered
  | other quiet silent same =>
      refine ⟨?_, fun live known number positive => ?_⟩
      · rw [same, tracks.known]
        constructor
        · rintro ⟨earlier, member, identifies⟩
          exact ⟨earlier, List.mem_append_left _ member, identifies⟩
        · rintro ⟨earlier, member, identifies⟩
          rcases List.mem_append.mp member with member | member
          · exact ⟨earlier, member, identifies⟩
          · rw [List.mem_singleton.mp member, quiet] at identifies
            cases identifies
      · rw [same] at known
        rw [tracks.height live known number positive, covered_snoc, quiet]
        simp only [true_and]
        constructor
        · exact .inr
        · rintro (⟨event, _, carries, _⟩ | covered)
          · exact absurd carries (silent event)
          · exact covered

omit [DecidableEq I] in
theorem tracks_nil : Tracks builtins logicalId ([] : List (Entry I)) Dict.empty := by
  refine ⟨by simp [Dict.get?], fun live known => ?_⟩
  cases known

omit [DecidableEq I] in
/-- The consumer never raises on a prepared queue, and its table tracks each prefix. -/
theorem Prepared.tracks (prepared : Prepared queue) (builtins : Builtins) {before after : List (Entry I)}
    (split_ : queue = before ++ after) :
    ∃ liveById, consumed builtins before = .ok liveById ∧ ∀ logicalId, Tracks builtins logicalId before liveById := by
  induction before using List.reverseRecOn generalizing after with
  | nil => exact ⟨Dict.empty, rfl, fun _ => tracks_nil⟩
  | append_singleton before entry ih =>
      rw [List.append_assoc, List.singleton_append] at split_
      obtain ⟨liveById, read, tracks⟩ := ih split_
      have returns : ∃ next, consumeMessage builtins liveById entry.message entry.now = .ok next := by
        cases message : entry.message with
        | identified logicalId threadId payload =>
            have names := prepared.named entry (by rw [split_]; simp) logicalId threadId payload message
            exact ⟨_, bind_ok.mpr ⟨_, create_ok names.1 names.2, rfl⟩⟩
        | event logicalId threadId payload =>
            have earlier := prepared.announced before entry after logicalId payload split_ ⟨threadId, message⟩
            obtain ⟨live, known⟩ := Option.isSome_iff_exists.mp ((tracks logicalId).known.mpr earlier)
            refine ⟨liveById.set logicalId (live.apply builtins payload entry.now), ?_⟩
            simp only [consumeMessage, known]
        | failed threadId runId text => exact ⟨liveById, rfl⟩
        | done threadId runId => exact ⟨liveById, rfl⟩
      obtain ⟨next, stepped⟩ := returns
      refine ⟨next, ?_, fun logicalId => (tracks logicalId).step stepped⟩
      rw [consumed_snoc]
      exact bind_ok.mpr ⟨liveById, read, stepped⟩

end

end Cli

end Cordboard
