import Cordboard.Proof.View.LiveWatch

namespace Cordboard.Cli
open Data AegraClient LiveReconciliation

/-- The events of one invocation have their own growing numbers from zero on. -/
structure Sequenced (builtins : Builtins) (events : List LifecycleEvent) : Prop where
  nonnegative : ∀ event ∈ events, ∀ eventId, event.eventId = some eventId → 0 ≤ sequence builtins eventId
  increasing : events.Pairwise fun first second => ∀ one two, first.eventId = some one → second.eventId = some two →
    sequence builtins one < sequence builtins two

/-- Two messages with events have growing numbers. -/
def Rises (builtins : Builtins) (first second : Message) : Prop :=
  ∀ logicalId event otherId other one two, first.carries logicalId event → second.carries otherId other →
    event.eventId = some one → other.eventId = some two → sequence builtins one < sequence builtins two

def silent (message : Message) : Prop := ∀ logicalId event, ¬ message.carries logicalId event

section
variable {builtins : Builtins} {target : WatchTarget} {answers : WatchAnswers}

theorem rises_silent {first second : Message} (quiet : silent first ∨ silent second) : Rises builtins first second := by
  intro logicalId event otherId other one two carries follows _ _
  rcases quiet with quiet | quiet
  · exact absurd carries (quiet logicalId event)
  · exact absurd follows (quiet otherId other)

theorem silent_failure (text : String) : silent (failure target text) := by
  rintro logicalId event ⟨_, same⟩
  cases same

theorem silent_done (threadId runId : String) : silent (.done threadId runId) := by
  rintro logicalId event ⟨_, same⟩
  cases same

theorem silent_identified (logicalId threadId : String) (payload : Identified) :
    silent (.identified logicalId threadId payload) := by
  rintro other event ⟨_, same⟩
  cases same

/-- A worker sends silent messages only, or an identity, the events of its stream, and silent messages. -/
theorem watchWorker_shape : (∀ message ∈ watchWorker builtins target answers,
      silent message ∧ ∀ logicalId, message.identifies logicalId = false) ∨
    ∃ logicalId payload tail, resolveLogicalRunId answers.continuity target.runId = .ok logicalId ∧
      watchWorker builtins target answers = .identified logicalId target.threadId payload ::
        answers.events.map (.event logicalId target.threadId) ++ tail ∧
      ∀ message ∈ tail, silent message ∧ ∀ logicalId, message.identifies logicalId = false := by
  have closing : ∀ message ∈ [Message.done target.threadId target.runId],
      silent message ∧ ∀ logicalId, message.identifies logicalId = false := by
    intro message member
    rw [List.mem_singleton.mp member]
    exact ⟨silent_done _ _, fun _ => rfl⟩
  have failing (text : String) : ∀ message ∈ [failure target text] ++ [Message.done target.threadId target.runId],
      silent message ∧ ∀ logicalId, message.identifies logicalId = false := by
    intro message member
    rcases List.mem_append.mp member with member | member
    · rw [List.mem_singleton.mp member]
      exact ⟨silent_failure _, fun _ => rfl⟩
    · exact closing message member
  unfold watchWorker watchWorkerBody
  split
  · split
    · exact .inl (failing _)
    · exact .inl closing
  · dsimp only
    split
    · split
      · exact .inl (failing _)
      · exact .inl closing
    · exact .inl (failing _)
    · unfold watchStream
      split
      · exact .inl closing
      · rename_i logicalId resolved
        refine .inr ⟨logicalId, _, _, resolved, List.append_assoc _ _ _, ?_⟩
        split
        · split
          · exact failing _
          · exact closing
        · exact closing

theorem watchWorker_rises (sequenced : Sequenced builtins answers.events) :
    (watchWorker builtins target answers).Pairwise (Rises builtins) := by
  rcases @watchWorker_shape builtins target answers with quiet | ⟨logicalId, payload, tail, _, same, quiet⟩
  · apply List.Pairwise.imp_of_mem (R := fun _ _ => True)
    · exact fun member _ _ => rises_silent (.inl (quiet _ member).1)
    · exact List.pairwise_of_forall fun _ _ => trivial
  · have events : (answers.events.map (Message.event logicalId target.threadId)).Pairwise (Rises builtins) := by
      rw [List.pairwise_map]
      apply sequenced.increasing.imp
      intro first second increasing _ _ _ _ one two carries follows
      obtain ⟨_, same⟩ := carries
      obtain ⟨_, other⟩ := follows
      cases same
      cases other
      exact increasing one two
    have last : tail.Pairwise (Rises builtins) := by
      apply List.Pairwise.imp_of_mem (R := fun _ _ => True)
      · exact fun member _ _ => rises_silent (.inl (quiet _ member).1)
      · exact List.pairwise_of_forall fun _ _ => trivial
    rw [same, List.cons_append, List.pairwise_cons, List.pairwise_append]
    refine ⟨fun _ _ => rises_silent (.inl (silent_identified _ _ _)), events, last, ?_⟩
    exact fun _ _ _ member => rises_silent (.inr (quiet _ member).1)

theorem watchWorker_nonnegative (sequenced : Sequenced builtins answers.events) {message : Message}
    (member : message ∈ watchWorker builtins target answers) {logicalId : String} {event : LifecycleEvent}
    (carries : message.carries logicalId event) {eventId : String} (stored : event.eventId = some eventId) :
    0 ≤ sequence builtins eventId := by
  rcases @watchWorker_shape builtins target answers with quiet | ⟨other, payload, tail, _, same, quiet⟩
  · exact absurd carries ((quiet message member).1 logicalId event)
  · rw [same, List.cons_append] at member
    rcases List.mem_cons.mp member with rfl | member
    · exact absurd carries (silent_identified _ _ _ logicalId event)
    · rcases List.mem_append.mp member with member | member
      · obtain ⟨own, inside, rfl⟩ := List.mem_map.mp member
        obtain ⟨_, equal⟩ := carries
        cases equal
        exact sequenced.nonnegative event inside eventId stored
      · exact absurd carries ((quiet message member).1 logicalId event)

/-- An event of a worker follows the identity that the worker sent. -/
theorem watchWorker_announced {front back : List Message} {message : Message} {logicalId : String} {event : LifecycleEvent}
    (split_ : watchWorker builtins target answers = front ++ message :: back) (carries : message.carries logicalId event) :
    ∃ earlier ∈ front, earlier.identifies logicalId = true := by
  have member : message ∈ watchWorker builtins target answers := by simp [split_]
  rcases @watchWorker_shape builtins target answers with quiet | ⟨other, payload, tail, _, same, quiet⟩
  · exact absurd carries ((quiet message member).1 logicalId event)
  · cases front with
    | nil =>
        rw [same] at split_
        obtain ⟨rfl, _⟩ := List.cons.inj split_
        exact absurd carries (silent_identified _ _ _ logicalId event)
    | cons first front =>
        have whole := split_
        rw [same] at split_
        obtain ⟨rfl, _⟩ := List.cons.inj split_
        have owner : other = logicalId := by
          rw [same, List.cons_append] at member
          rcases List.mem_cons.mp member with rfl | member
          · exact absurd carries (silent_identified _ _ _ logicalId event)
          · rcases List.mem_append.mp member with member | member
            · obtain ⟨own, _, rfl⟩ := List.mem_map.mp member
              obtain ⟨_, equal⟩ := carries
              cases equal
              rfl
            · exact absurd carries ((quiet message member).1 logicalId event)
        exact ⟨_, List.mem_cons_self, by simp [Message.identifies, owner]⟩

theorem watchWorker_identified {logicalId threadId : String} {payload : Identified}
    (member : .identified logicalId threadId payload ∈ watchWorker builtins target answers) :
    resolveLogicalRunId answers.continuity target.runId = .ok logicalId ∧ threadId = target.threadId := by
  rcases @watchWorker_shape builtins target answers with quiet | ⟨other, payload, tail, resolved, same, quiet⟩
  · have never := (quiet _ member).2 logicalId
    simp [Message.identifies] at never
  · rw [same, List.cons_append] at member
    rcases List.mem_cons.mp member with equal | member
    · cases equal
      exact ⟨resolved, rfl⟩
    · rcases List.mem_append.mp member with member | member
      · obtain ⟨_, _, never⟩ := List.mem_map.mp member
        cases never
      · have never := (quiet _ member).2 logicalId
        simp [Message.identifies] at never

/-- A recorded Run has a name, and a watched Run ID has one, too. -/
theorem resolve_named (named : ∀ record, answers.continuity = .ok record → blank record.runId = false)
    {logicalId : String} (resolved : resolveLogicalRunId answers.continuity target.runId = .ok logicalId) :
    blank logicalId = false := by
  unfold resolveLogicalRunId at resolved
  split at resolved
  · rename_i record stored
    obtain rfl := Except.ok.inj resolved
    exact named record stored
  · split at resolved
    · obtain rfl := Except.ok.inj resolved
      exact target.runPresent
    · cases resolved

end

variable {I : Type} [DecidableEq I]

section
variable {builtins : Builtins} {targets : I → WatchTarget} {answers : I → WatchAnswers} {queue : List (Entry I)}

theorem mem_worker (merged : Interleaves (fun worker => watchWorker builtins (targets worker) (answers worker)) queue)
    {entry : Entry I} (member : entry ∈ queue) :
    entry.message ∈ watchWorker builtins (targets entry.worker) (answers entry.worker) := by
  have own : entry.message ∈ ofWorker entry.worker queue := mem_ofWorker.mpr ⟨entry, member, rfl, rfl⟩
  rwa [merged entry.worker] at own

theorem prepared (merged : Interleaves (fun worker => watchWorker builtins (targets worker) (answers worker)) queue)
    (named : ∀ worker record, (answers worker).continuity = .ok record → blank record.runId = false) :
    Prepared queue := by
  constructor
  · intro entry member logicalId threadId payload same
    have inside := mem_worker merged member
    rw [same] at inside
    obtain ⟨resolved, rfl⟩ := watchWorker_identified inside
    exact ⟨resolve_named (named entry.worker) resolved, (targets entry.worker).threadPresent⟩
  · rintro front entry back logicalId event rfl carries
    have parts := merged entry.worker
    rw [ofWorker_split] at parts
    obtain ⟨earlier, member, identifies⟩ := watchWorker_announced parts.symm carries
    obtain ⟨source, inside, _, rfl⟩ := mem_ofWorker.mp member
    exact ⟨source, inside, identifies⟩

/-- Two events of one worker keep their order in the queue. -/
theorem rises (merged : Interleaves (fun worker => watchWorker builtins (targets worker) (answers worker)) queue)
    (sequenced : ∀ worker, Sequenced builtins (answers worker).events) {front middle back : List (Entry I)}
    {first second : Entry I} (split_ : queue = front ++ first :: middle ++ second :: back)
    (same : first.worker = second.worker) : Rises builtins first.message second.message := by
  have parts := merged second.worker
  have order : (ofWorker second.worker queue).Pairwise (Rises builtins) := by
    rw [parts]
    exact watchWorker_rises (sequenced second.worker)
  rw [split_, ofWorker_split, List.pairwise_append] at order
  apply order.2.2
  · rw [mem_ofWorker]
    exact ⟨first, by simp, same, rfl⟩
  · exact List.mem_cons_self

end

/-- The terminal event is not the last one of its worker when another one follows. -/
def LastOf (worker : I) (logicalId : String) (back : List (Entry I)) : Prop :=
  ∀ later ∈ back, later.worker = worker → ∀ event, later.message.carries logicalId event → terminal event = false

/-- The loop returns, it discards no terminal event, and the live Run shows the end of the latest invocation. -/
structure Reflected [Fintype I] (builtins : Builtins) (queue : List (Entry I)) (logicalId : String) (latest : I) : Prop where
  returns : ∃ liveById, consume builtins (Fintype.card I) queue Dict.empty = .ok (some liveById) ∧
    consumed builtins queue = .ok liveById
  kept : ∀ before entry after event, queue = before ++ entry :: after → entry.message.carries logicalId event →
    terminal event = true → ∀ liveById, consumed builtins before = .ok liveById →
      ∃ live, liveById.get? logicalId = some live ∧ live.takes builtins event
  shown : ∀ front entry back event, queue = front ++ entry :: back → entry.worker = latest →
    entry.message.carries logicalId event → terminal event = true → LastOf latest logicalId back →
      ∀ middle rest, back = middle ++ rest → ∀ liveById, consumed builtins (front ++ entry :: middle) = .ok liveById →
        ∃ live, liveById.get? logicalId = some live ∧ live.status = outcome event ∧ live.completedAt.isSome = true

/-- No other invocation disturbs the terminal events of the Run. -/
structure Undisturbed (builtins : Builtins) (queue : List (Entry I)) (logicalId : String) (latest : I) : Prop where
  above : ∀ front other middle entry back event eventId earlier earlierId,
    queue = front ++ other :: middle ++ entry :: back → other.worker ≠ entry.worker →
    entry.message.carries logicalId event → terminal event = true → event.eventId = some eventId →
    other.message.carries logicalId earlier → earlier.eventId = some earlierId →
    (∀ between ∈ middle, between.message.identifies logicalId = false) →
      sequence builtins earlierId < sequence builtins eventId
  quiet : ∀ front entry back event, queue = front ++ entry :: back → entry.worker = latest →
    entry.message.carries logicalId event → terminal event = true → LastOf latest logicalId back →
      ∀ later ∈ back, later.message.identifies logicalId = false
  agrees : ∀ front entry middle later back event other, queue = front ++ entry :: middle ++ later :: back →
    entry.worker = latest → entry.message.carries logicalId event → terminal event = true →
    LastOf latest logicalId (middle ++ later :: back) → later.message.carries logicalId other →
    (∀ otherId, other.eventId = some otherId →
      ¬ Covered builtins logicalId (front ++ entry :: middle) (sequence builtins otherId)) →
      keepsStatus other (outcome event)

section
variable {builtins : Builtins} {targets : I → WatchTarget} {answers : I → WatchAnswers} {queue : List (Entry I)}
  {logicalId : String} {latest : I}

omit [DecidableEq I] in
/-- A live Run takes an event whose number is not covered. -/
theorem takes_iff {before : List (Entry I)} {liveById : LiveRuns} {live : LiveRun}
    (tracks : Tracks builtins logicalId before liveById) (known : liveById.get? logicalId = some live)
    {event : LifecycleEvent} (positive : ∀ eventId, event.eventId = some eventId → 0 ≤ sequence builtins eventId) :
    live.takes builtins event ↔ ∀ eventId, event.eventId = some eventId →
      ¬ Covered builtins logicalId before (sequence builtins eventId) := by
  unfold LiveRun.takes
  constructor
  · intro takes eventId stored covered
    have reached := (tracks.height live known _ (positive eventId stored)).mpr covered
    have above := takes eventId stored
    omega
  · intro fresh eventId stored
    by_contra low
    exact fresh eventId stored ((tracks.height live known _ (positive eventId stored)).mp (Int.not_lt.mp low))

theorem mem_nonnegative
    (merged : Interleaves (fun worker => watchWorker builtins (targets worker) (answers worker)) queue)
    (sequenced : ∀ worker, Sequenced builtins (answers worker).events) {entry : Entry I} (member : entry ∈ queue)
    {event : LifecycleEvent} (carries : entry.message.carries logicalId event) :
    ∀ eventId, event.eventId = some eventId → 0 ≤ sequence builtins eventId :=
  fun _ stored => watchWorker_nonnegative (sequenced entry.worker) (mem_worker merged member) carries stored

theorem kept_of_above
    (merged : Interleaves (fun worker => watchWorker builtins (targets worker) (answers worker)) queue)
    (named : ∀ worker record, (answers worker).continuity = .ok record → blank record.runId = false)
    (sequenced : ∀ worker, Sequenced builtins (answers worker).events)
    (undisturbed : Undisturbed builtins queue logicalId latest) {before after : List (Entry I)} {entry : Entry I}
    {event : LifecycleEvent} (split_ : queue = before ++ entry :: after) (carries : entry.message.carries logicalId event)
    (finishes : terminal event = true) {liveById : LiveRuns} (read : consumed builtins before = .ok liveById) :
    ∃ live, liveById.get? logicalId = some live ∧ live.takes builtins event := by
  have ready := prepared merged named
  obtain ⟨table, same, tracks⟩ := ready.tracks builtins split_
  obtain rfl := Except.ok.inj (read.symm.trans same)
  have earlier := ready.announced before entry after logicalId event split_ carries
  obtain ⟨live, known⟩ := Option.isSome_iff_exists.mp ((tracks logicalId).known.mpr earlier)
  have member : entry ∈ queue := by simp [split_]
  refine ⟨live, known, ?_⟩
  rw [takes_iff (tracks logicalId) known (mem_nonnegative merged sequenced member carries)]
  rintro eventId stored ⟨front, other, middle, previous, previousId, whole, follows, number, high, between⟩
  rw [whole] at split_
  have low : sequence builtins previousId < sequence builtins eventId := by
    by_cases own : other.worker = entry.worker
    · exact rises merged sequenced split_ own _ _ _ _ _ _ follows carries number stored
    · exact undisturbed.above front other middle entry after event eventId previous previousId split_ own carries
        finishes stored follows number between
  omega

/-- The live Run shows the end of the latest invocation from its terminal event on. -/
theorem shown_of_kept
    (merged : Interleaves (fun worker => watchWorker builtins (targets worker) (answers worker)) queue)
    (named : ∀ worker record, (answers worker).continuity = .ok record → blank record.runId = false)
    (sequenced : ∀ worker, Sequenced builtins (answers worker).events)
    (undisturbed : Undisturbed builtins queue logicalId latest) {front back : List (Entry I)} {entry : Entry I}
    {event : LifecycleEvent} (split_ : queue = front ++ entry :: back) (own : entry.worker = latest)
    (carries : entry.message.carries logicalId event) (finishes : terminal event = true)
    (last : LastOf latest logicalId back) {middle rest : List (Entry I)} (parts : back = middle ++ rest)
    {liveById : LiveRuns} (read : consumed builtins (front ++ entry :: middle) = .ok liveById) :
    ∃ live, liveById.get? logicalId = some live ∧ live.status = outcome event ∧ live.completedAt.isSome = true := by
  have ready := prepared merged named
  induction middle using List.reverseRecOn generalizing rest liveById with
  | nil =>
      rw [consumed_snoc] at read
      obtain ⟨table, before, step⟩ := bind_ok.mp read
      obtain ⟨live, known, takes⟩ := kept_of_above merged named sequenced undisturbed split_ carries finishes before
      cases consumeMessage_moves step logicalId with
      | identity identifies =>
          rw [identifies_carries carries] at identifies
          cases identifies
      | event other follows found same applied =>
          obtain rfl := carries_unique carries follows
          obtain rfl := Option.some.inj (known.symm.trans same)
          obtain ⟨start, folded, _⟩ := @apply_takes builtins live event entry.now takes
          refine ⟨_, applied, ?_⟩
          rw [folded]
          exact fold_terminal finishes
      | other _ silent => exact absurd carries (silent event)
  | append_singleton middle later ih =>
      rw [List.append_assoc, List.singleton_append] at parts
      rw [← List.cons_append, ← List.append_assoc, consumed_snoc] at read
      obtain ⟨table, before, step⟩ := bind_ok.mp read
      obtain ⟨live, known, status, completed⟩ := ih parts before
      have whole : queue = front ++ entry :: middle ++ later :: rest := by
        rw [split_, parts]
        simp
      cases consumeMessage_moves step logicalId with
      | identity identifies =>
          have calm_ := undisturbed.quiet front entry back event split_ own carries finishes last later
            (by simp [parts])
          rw [calm_] at identifies
          cases identifies
      | event other follows found same applied =>
          obtain rfl := Option.some.inj (known.symm.trans same)
          refine ⟨_, applied, ?_⟩
          by_cases takes : live.takes builtins other
          · obtain ⟨table', again, tracks⟩ := ready.tracks builtins whole
            obtain rfl := Except.ok.inj (before.symm.trans again)
            have member : later ∈ queue := by simp [whole]
            have fresh := (takes_iff (tracks logicalId) known
              (mem_nonnegative merged sequenced member follows)).mp takes
            have keeps := undisturbed.agrees front entry middle later rest event other whole own carries finishes
              (by rwa [← parts]) follows fresh
            obtain ⟨start, folded, same, complete⟩ := @apply_takes builtins live other later.now takes
            rw [folded]
            refine ⟨?_, fold_completed (by rw [complete]; exact completed)⟩
            rw [← status, ← same] at keeps ⊢
            exact fold_status.mpr keeps
          · rw [apply_replay takes]
            exact ⟨status, completed⟩
      | other _ _ same => exact ⟨live, same.trans known, status, completed⟩

end

/-- The watch of a logical Run loses nothing exactly when no other invocation disturbs its terminal events. -/
theorem watched_run_reflected [Fintype I] (builtins : Builtins) (targets : I → WatchTarget) (answers : I → WatchAnswers)
    (queue : List (Entry I))
    (merged : Interleaves (fun worker => watchWorker builtins (targets worker) (answers worker)) queue)
    (named : ∀ worker record, (answers worker).continuity = .ok record → blank record.runId = false)
    (sequenced : ∀ worker, Sequenced builtins (answers worker).events) (logicalId : String) (latest : I) :
    Reflected builtins queue logicalId latest ↔ Undisturbed builtins queue logicalId latest := by
  have ready := prepared merged named
  constructor
  · intro reflected
    constructor
    · intro front other middle entry back event eventId earlier earlierId split_ _ carries finishes stored follows
        number between
      obtain ⟨liveById, read, tracks⟩ := ready.tracks builtins split_
      obtain ⟨live, known, takes⟩ := reflected.kept _ entry back event split_ carries finishes liveById read
      have member : entry ∈ queue := by simp [split_]
      have fresh := (takes_iff (tracks logicalId) known (mem_nonnegative merged sequenced member carries)).mp takes
      by_contra high
      apply fresh eventId stored
      exact ⟨front, other, middle, earlier, earlierId, rfl, follows, number, Int.not_lt.mp high, between⟩
    · intro front entry back event split_ own carries finishes last later member
      rw [← Bool.not_eq_true]
      intro identifies
      obtain ⟨middle, rest, rfl⟩ := List.append_of_mem member
      have whole : queue = (front ++ entry :: middle ++ [later]) ++ rest := by
        rw [split_]
        simp
      obtain ⟨liveById, read, _⟩ := ready.tracks builtins whole
      have listed : consumed builtins (front ++ entry :: (middle ++ [later])) = .ok liveById := by
        rw [← read]
        simp
      obtain ⟨live, known, _, completed⟩ := reflected.shown front entry _ event split_ own carries finishes last
        (middle ++ [later]) rest (by simp) liveById listed
      rw [consumed_snoc] at read
      obtain ⟨table, _, step⟩ := bind_ok.mp read
      cases consumeMessage_moves step logicalId with
      | identity _ found fresh _ incomplete =>
          obtain rfl := Option.some.inj (known.symm.trans fresh)
          rw [incomplete] at completed
          cases completed
      | event other follows =>
          rw [identifies_carries follows] at identifies
          cases identifies
      | other quiet =>
          rw [quiet] at identifies
          cases identifies
    · intro front entry middle later back event other split_ own carries finishes last follows fresh
      have start : queue = front ++ entry :: (middle ++ later :: back) := by
        rw [split_]
        simp
      have whole : queue = (front ++ entry :: middle ++ [later]) ++ back := by
        rw [split_]
        simp
      obtain ⟨before, read, tracks⟩ := ready.tracks builtins split_
      obtain ⟨after, next, _⟩ := ready.tracks builtins whole
      obtain ⟨live, known, status, _⟩ := reflected.shown front entry _ event start own carries finishes last middle
        (later :: back) rfl before read
      have listed : consumed builtins (front ++ entry :: (middle ++ [later])) = .ok after := by
        rw [← next]
        simp
      obtain ⟨final, found, same, _⟩ := reflected.shown front entry _ event start own carries finishes last
        (middle ++ [later]) back (by simp) after listed
      rw [consumed_snoc] at next
      obtain ⟨table, again, step⟩ := bind_ok.mp next
      obtain rfl := Except.ok.inj (read.symm.trans again)
      have member : later ∈ queue := by simp [split_]
      have takes := (takes_iff (tracks logicalId) known (mem_nonnegative merged sequenced member follows)).mpr fresh
      cases consumeMessage_moves step logicalId with
      | identity identifies =>
          rw [identifies_carries follows] at identifies
          cases identifies
      | event another carried current had applied =>
          obtain rfl := carries_unique follows carried
          obtain rfl := Option.some.inj (known.symm.trans had)
          obtain rfl := Option.some.inj (found.symm.trans applied)
          obtain ⟨initial, folded, kept, _⟩ := @apply_takes builtins live other later.now takes
          rw [folded] at same
          rw [← status, ← kept]
          apply (@fold_status initial other later.now).mp
          rw [same, kept, status]
      | other _ silent => exact absurd follows (silent other)
  · intro undisturbed
    obtain ⟨all, read, _⟩ := ready.tracks builtins (List.append_nil queue).symm
    constructor
    · refine ⟨all, ?_, read⟩
      rw [consume_workers merged fun _ => watchWorker_ends, read]
      rfl
    · intro before entry after event split_ carries finishes liveById consumed_
      exact kept_of_above merged named sequenced undisturbed split_ carries finishes consumed_
    · intro front entry back event split_ own carries finishes last middle rest parts liveById consumed_
      exact shown_of_kept merged named sequenced undisturbed split_ own carries finishes last parts consumed_

section Example

/-- This reads a number without a sign. -/
def readDigits (text : String) : Option Int :=
  if text.toList.isEmpty || !text.toList.all Char.isDigit then none
  else some (text.toList.foldl (fun value c => 10 * value + (c.toNat - 48)) 0)

def sampleBuiltins : Builtins := ⟨readDigits, fun _ => ""⟩

/-- A Run pauses in its first invocation, and the second one resumes it. -/
def sampleTargets (worker : Fin 2) : WatchTarget :=
  if worker = 0 then ⟨"local", "thread-1", "run-1", by decide, by decide, by decide⟩
  else ⟨"local", "thread-1", "run-2", by decide, by decide, by decide⟩

def pausedEvents : List LifecycleEvent :=
  [⟨"metadata", [], some "run-1_event_0"⟩, ⟨"end", [("status", .str "interrupted")], some "run-1_event_5"⟩]

def resumedEvents : List LifecycleEvent :=
  [⟨"metadata", [], some "run-2_event_0"⟩, ⟨"end", [("status", .str "success")], some "run-2_event_2"⟩]

def sampleAnswers (worker : Fin 2) : WatchAnswers where
  run := some (.obj [("assistant_id", .str "graph"), ("status", .str "running")])
  assistant := some (.obj [("graph_id", .str "graph")])
  continuity := .ok ⟨"run-1", ["run-1", "run-2"]⟩
  events := if worker = 0 then pausedEvents else resumedEvents
  failure := none

def sampleIdentity : Message := .identified "run-1" "thread-1" ⟨.str "graph", .str "graph", .null, .str "running"⟩

/-- Both workers send their identities before the first events. -/
def overtaking : List (Entry (Fin 2)) :=
  [⟨0, sampleIdentity, 0⟩, ⟨1, sampleIdentity, 1⟩] ++
    pausedEvents.map (fun event => ⟨0, .event "run-1" "thread-1" event, 2⟩) ++
    resumedEvents.map (fun event => ⟨1, .event "run-1" "thread-1" event, 3⟩) ++
    [⟨0, .done "thread-1" "run-1", 4⟩, ⟨1, .done "thread-1" "run-2", 5⟩]

theorem overtaking_merged :
    Interleaves (fun worker => watchWorker sampleBuiltins (sampleTargets worker) (sampleAnswers worker)) overtaking :=
  Fin.forall_fin_two.mpr ⟨rfl, rfl⟩

theorem sample_named (worker : Fin 2) (record : LogicalRun) (stored : (sampleAnswers worker).continuity = .ok record) :
    blank record.runId = false := by
  obtain rfl := Except.ok.inj stored
  decide

theorem sample_sequenced : ∀ worker, Sequenced sampleBuiltins (sampleAnswers worker).events := by
  have paused : Sequenced sampleBuiltins pausedEvents := by
    constructor
    · simp only [pausedEvents, List.forall_mem_cons, List.not_mem_nil, false_implies, implies_true, and_true,
        Option.some.injEq, forall_eq']
      decide +kernel
    · simp only [pausedEvents, List.pairwise_cons, List.forall_mem_cons, List.not_mem_nil, false_implies, implies_true,
        and_true, Option.some.injEq, List.Pairwise.nil]
      rintro _ _ rfl rfl
      decide +kernel
  have resumed : Sequenced sampleBuiltins resumedEvents := by
    constructor
    · simp only [resumedEvents, List.forall_mem_cons, List.not_mem_nil, false_implies, implies_true, and_true,
        Option.some.injEq, forall_eq']
      decide +kernel
    · simp only [resumedEvents, List.pairwise_cons, List.forall_mem_cons, List.not_mem_nil, false_implies, implies_true,
        and_true, Option.some.injEq, List.Pairwise.nil]
      rintro _ _ rfl rfl
      decide +kernel
  exact Fin.forall_fin_two.mpr ⟨paused, resumed⟩

theorem watched_run_reflected_sample : Reflected sampleBuiltins overtaking "run-1" 1 ↔
    Undisturbed sampleBuiltins overtaking "run-1" 1 :=
  watched_run_reflected sampleBuiltins sampleTargets sampleAnswers overtaking overtaking_merged sample_named
    sample_sequenced "run-1" 1

/-- The text of a status in the table. -/
def statusText (liveById : LiveRuns) (logicalId : String) : Option String :=
  match (liveById.get? logicalId).map LiveRun.status with
  | some (.str text) => some text
  | _ => none

/-- The second invocation succeeds under lower numbers, and the live Run keeps the end of the first one. -/
theorem overtaken_end_discarded :
    Interleaves (fun worker => watchWorker sampleBuiltins (sampleTargets worker) (sampleAnswers worker)) overtaking ∧
    (∀ worker, Sequenced sampleBuiltins (sampleAnswers worker).events) ∧
    (∃ liveById, consume sampleBuiltins 2 overtaking Dict.empty = .ok (some liveById) ∧
      statusText liveById "run-1" = some "interrupted") ∧
    ¬ Reflected sampleBuiltins overtaking "run-1" 1 := by
  have shown : ((consumed sampleBuiltins overtaking).toOption.map fun liveById => statusText liveById "run-1") =
      some (some "interrupted") := by decide +kernel
  cases read : consumed sampleBuiltins overtaking with
  | error exc =>
      rw [read] at shown
      cases shown
  | ok liveById =>
      rw [read] at shown
      have text : statusText liveById "run-1" = some "interrupted" := Option.some.inj shown
      have returns : consume sampleBuiltins 2 overtaking Dict.empty = .ok (some liveById) := by
        have loop := @consume_workers _ _ _ sampleBuiltins _ _ overtaking_merged fun _ => watchWorker_ends
        rw [read] at loop
        exact loop
      refine ⟨overtaking_merged, sample_sequenced, ⟨liveById, returns, text⟩, ?_⟩
      intro reflected
      have final : LastOf (1 : Fin 2) "run-1"
          [⟨0, .done "thread-1" "run-1", 4⟩, ⟨1, .done "thread-1" "run-2", 5⟩] := by
        intro later member _ event carries
        rcases List.mem_cons.mp member with rfl | member
        · exact absurd carries (silent_done _ _ _ event)
        · rw [List.mem_singleton.mp member] at carries
          exact absurd carries (silent_done _ _ _ event)
      obtain ⟨live, known, status, _⟩ := reflected.shown
        (overtaking.take 5) ⟨1, .event "run-1" "thread-1" ⟨"end", [("status", .str "success")], some "run-2_event_2"⟩, 3⟩
        _ _ rfl rfl ⟨_, rfl⟩ rfl final _ [] (List.append_nil _).symm liveById read
      rw [statusText, known, Option.map_some, status] at text
      have other : ("success" : String) = "interrupted" := Option.some.inj text
      revert other
      decide

end Example

end Cordboard.Cli
