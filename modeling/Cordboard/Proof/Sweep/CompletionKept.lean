import Cordboard.Proof.Script
import Cordboard.Proof.Sweep.FinishRoute

namespace Cordboard.Finish
open Data Effects PendingCompletions Router

/-- The tracked file and the phase are still those of the earlier state. -/
def Still (before after : Board × Phase) : Prop := after.1 .pending = before.1 .pending ∧ after.2 = before.2

/-- No success is being finished, and each waiting success is tracked. -/
def Settled (state : Board × Phase) : Prop := state.2.finishing = false ∧ Tracked state.1 state.2.waiting

/-- The other pairs have their entries. -/
def Beside (pair : Pair) (before after : Board) : Prop :=
  ∀ other, other ≠ pair → (after .pending).find? other = (before .pending).find? other

/-- No success waits, and the rest of the snapshot is still in the file. -/
def Ready (items : List (Pair × PendingEntry)) (state : Board × Phase) : Prop :=
  state.2 = ⟨[], false, false⟩ ∧ ∀ item ∈ items, (state.1 .pending).find? item.1 = some item.2

section
variable {A : Type} {before after : Board × Phase} {items rest : List (Pair × PendingEntry)}

theorem Settled.safe (settled : Settled before) : watch.safe before.1 before.2 := fun _ => settled.2

theorem Still.settled (still : Still before after) (settled : Settled before) : Settled after := by
  refine ⟨still.2 ▸ settled.1, ?_⟩
  intro success member
  rw [still.1]
  exact settled.2 success (still.2 ▸ member)

theorem Still.ready (still : Still before after) (ready : Ready items before) : Ready items after :=
  ⟨still.2.trans ready.1, fun item member => still.1 ▸ ready.2 item member⟩

theorem Ready.settled (ready : Ready items before) : Settled before := by
  refine ⟨by rw [ready.1], ?_⟩
  rw [ready.1]
  exact List.forall_mem_nil _

/-- A program outside the tracking keeps the file and the phase. -/
theorem keeps_still {areas : List Area} {program : Py A} (within : Within areas program)
    (pending : .store .pending ∉ areas) (knowledge : .knowledge ∉ areas) (settled : Settled before) :
    Fallible.Keeps watch.along (Still before) program := by
  apply Fallible.keeps_of_uses (Fallible.Uses.mono within ?_)
  intro op inside state still
  have outside : op.area ≠ .store .pending := fun equal => pending (equal ▸ inside)
  have unlearned : op.area ≠ .knowledge := fun equal => knowledge (equal ▸ inside)
  refine ⟨⟨trivial, (still.settled settled).safe⟩, ?_⟩
  rintro answer after ⟨move, moved, _⟩
  exact ⟨(boardStep_frame move (writes_of_area outside)).trans still.1,
    moved.trans ((next_neutral outside unlearned state.2 answer).trans still.2)⟩

end

section
variable {deployment threadId : String} {entry : PendingEntry} {state : Board × Phase} {now : Time}

/-- The change of one entry ends in an error before the write, or it changes this pair only. -/
def Changes (state : Board × Phase) (deployment threadId : String) (entry : PendingEntry) {A : Type}
    (outcome : Except Exc A) (after : Board × Phase) : Prop :=
  match outcome with
  | .error _ => after = state
  | .ok _ => Beside (deployment, threadId) state.1 after.1 ∧ blank deployment = false ∧
      (state.2.succeeded = true → namedEntry entry = true) ∧
      after.2 = ⟨state.2.waiting, state.2.succeeded, state.2.succeeded⟩

/-- A change of the tracked file is the note of the change and one write. -/
theorem change_write {A : Type} {change : PendingChange} {data changed : Dict Pair PendingEntry} {value : A}
    (settled : Settled state) (named : blank deployment = false)
    (decoded : decode .pending (state.1 .pending) = .ok data)
    (apart : ∀ other, other ≠ (deployment, threadId) → changed.get? other = data.get? other)
    (texts : meets state.2 (.note (.pendingChanged deployment threadId change)) () = true →
      state.2.succeeded = true → namedEntry entry = true) :
    Fallible.wp watch.along
      (do
        note (.pendingChanged deployment threadId change)
        writeAtomic .pending changed
        pure value)
      (fun _ outcome after => Changes state deployment threadId entry outcome after) state := by
  obtain ⟨board, phase⟩ := state
  simp only [Fallible.wp_bind, wp_note, wp_writeAtomic, Fallible.after_ok, Fallible.wp_pure]
  refine ⟨⟨trivial, settled.safe⟩, ?_⟩
  rintro ⟨noted, marked⟩ ⟨same, moved, met⟩
  obtain rfl : board = noted := Eq.symm same
  obtain rfl : phase = marked := Eq.symm moved
  refine ⟨⟨trivial, settled.safe⟩, ?_⟩
  rintro ⟨written, finishing⟩ ⟨put, moved, -⟩
  obtain rfl : written = board.put .pending _ := put
  refine ⟨?_, named, texts met, moved⟩
  intro other different
  change ((board.put .pending _) .pending).find? other = _
  rw [Board.put_self, File.find?_content, get?_sorted, apart other different, ← find?_of_decode decoded]

/-- A change of the tracked file starts with the lookup of its pair. -/
theorem change_lookup {A : Type} {rest : Dict Pair PendingEntry → Pair → Py A} (settled : Settled state)
    (continues : ∀ data, decode .pending (state.1 .pending) = .ok data → blank deployment = false →
      Fallible.wp watch.along (rest data (deployment, threadId))
        (fun _ outcome after => Changes state deployment threadId entry outcome after) state) :
    Fallible.wp watch.along
      (do
        let data ← loadPending
        let key ← key deployment threadId
        rest data key)
      (fun _ outcome after => Changes state deployment threadId entry outcome after) state := by
  obtain ⟨board, phase⟩ := state
  simp only [Fallible.wp_bind, loadPending, wp_load]
  refine ⟨⟨trivial, settled.safe⟩, ?_⟩
  rintro file ⟨after, moved⟩ ⟨⟨read, same⟩, stays, -⟩
  obtain rfl : board = after := same.symm
  obtain rfl : file = board .pending := read
  obtain rfl : phase = moved := Eq.symm stays
  cases decoded : decode .pending (board .pending) with
  | error exc => exact rfl
  | ok data =>
      simp only [Fallible.after_ok, Fallible.wp_bind, wp_key]
      cases checked : checkTexts .pendingCompletion [("deployment alias", deployment), ("thread ID", threadId)] with
      | error exc => exact rfl
      | ok _ => exact continues data decoded (checkTexts_ok checked ("deployment alias", deployment) (by simp))

theorem resolvePending_changes (present : (state.1 .pending).find? (deployment, threadId) = some entry)
    (settled : Settled state) : Fallible.wp watch.along (resolvePending deployment threadId)
      (fun _ outcome after => Changes state deployment threadId entry outcome after) state := by
  apply change_lookup settled
  intro data decoded named
  rw [find?_of_decode decoded] at present
  rw [present]
  apply change_write settled named decoded fun other different => Dict.get?_erase_of_ne data different
  intro met succeeded
  simpa [meets, succeeded, settled.1] using met

/-- An interrupted Run keeps its entry. -/
theorem updatePending_changes (present : (state.1 .pending).find? (deployment, threadId) = some entry)
    (settled : Settled state) (waiting : state.2.succeeded = false) (invocationId : Option String)
    (concurrencyHeld deploymentHeld : Option Bool) :
    Fallible.wp watch.along (updatePending deployment threadId invocationId concurrencyHeld deploymentHeld now)
      (fun _ outcome after => Changes state deployment threadId entry outcome after) state := by
  apply change_lookup settled
  intro data decoded named
  rw [find?_of_decode decoded] at present
  rw [present]
  apply change_write settled named decoded fun other different => Dict.get?_set_of_ne data different _
  intro _ succeeded
  rw [waiting] at succeeded
  cases succeeded

/-- The visit of an entry ends settled. When it returns, the sweep goes on with the rest of the snapshot. -/
def Visited (rest : List (Pair × PendingEntry)) {A : Type} (outcome : Except Exc A) (after : Board × Phase) : Prop :=
  Settled after ∧ ∀ value, outcome = .ok value → Ready rest after

theorem Ready.visited {A : Type} {rest : List (Pair × PendingEntry)} {after : Board × Phase} (ready : Ready rest after)
    (outcome : Except Exc A) : Visited rest outcome after :=
  ⟨ready.settled, fun _ _ => ready⟩

theorem Settled.raised {A : Type} {rest : List (Pair × PendingEntry)} {after : Board × Phase} (settled : Settled after)
    (exc : Exc) : Visited rest (.error exc : Except Exc A) after :=
  ⟨settled, fun _ same => by cases same⟩

/-- The rest of the program starts in a state that is still finishing. -/
theorem Delivers.seq {A B : Type} {program : Py A} {rest : A → Py B} {first : A → Prop}
    {post : Except Exc B → Board × Phase → Prop} (delivers : Delivers program first) (finishing : Finishing state)
    (later : ∀ value middle, first value → middle.2 = state.2 → Retains state.1 middle.1 →
      Fallible.wp watch.along (rest value) (fun _ => post) middle) :
    Fallible.wp watch.along (program >>= rest) (fun _ => post) state := by
  apply Fallible.wp_seq (delivers state finishing)
  · rintro _ value middle ⟨⟨same, kept⟩, _, returned, good⟩
    obtain rfl := Except.ok.inj returned
    exact later value middle good same kept
  · rintro _ exc middle ⟨_, _, raised, _⟩
    cases raised

section
variable {rest : List (Pair × PendingEntry)} {timeout : Time} {connection : Connection}

/-- The snapshot is in the file, and only its first entry may be a waiting success. -/
structure Visiting (deployment threadId : String) (entry : PendingEntry) (rest : List (Pair × PendingEntry))
    (succeeded : Bool) (state : Board × Phase) : Prop where
  phase : state.2 = ⟨if succeeded then [((deployment, threadId), entry.invocationId)] else [], succeeded, false⟩
  present : (state.1 .pending).find? (deployment, threadId) = some entry
  others : ∀ item ∈ rest, item.1 ≠ (deployment, threadId) ∧ (state.1 .pending).find? item.1 = some item.2

theorem Visiting.settled {succeeded : Bool} (visiting : Visiting deployment threadId entry rest succeeded state) :
    Settled state := by
  refine ⟨by rw [visiting.phase], ?_⟩
  rw [visiting.phase]
  cases succeeded with
  | false => exact List.forall_mem_nil _
  | true =>
      intro success member
      obtain rfl := List.mem_singleton.mp member
      exact ⟨entry, visiting.present, rfl⟩

theorem Visiting.still {succeeded : Bool} {after : Board × Phase}
    (visiting : Visiting deployment threadId entry rest succeeded state) (still : Still state after) :
    Visiting deployment threadId entry rest succeeded after :=
  ⟨still.2.trans visiting.phase, still.1 ▸ visiting.present, fun item member => still.1 ▸ visiting.others item member⟩

/-- After a change of the first entry the rest of the snapshot is still in the file. -/
theorem Visiting.rest_kept {succeeded : Bool} {after : Board}
    (visiting : Visiting deployment threadId entry rest succeeded state)
    (beside : Beside (deployment, threadId) state.1 after) :
    ∀ item ∈ rest, (after .pending).find? item.1 = some item.2 := by
  intro item member
  obtain ⟨different, present⟩ := visiting.others item member
  rw [beside item.1 different, present]

/-- A handover keeps the visit as it was. -/
theorem Visiting.releaseHeld {A : Type} {succeeded : Bool} {program : Unit → Py A} {now : Time}
    (visiting : Visiting deployment threadId entry rest succeeded state)
    (later : ∀ after, Visiting deployment threadId entry rest succeeded after →
      Fallible.wp watch.along (program ()) (fun _ outcome final => Visited rest outcome final) after) :
    Fallible.wp watch.along (releaseHeld connection deployment threadId entry now >>= program)
      (fun _ outcome final => Visited rest outcome final) state := by
  have released := keeps_still (releaseHeld_within connection deployment threadId entry now) (by decide) (by decide)
    visiting.settled
  apply Fallible.wp_seq (released state ⟨rfl, rfl⟩)
  · exact fun _ _ after still => later after (visiting.still still)
  · exact fun _ exc _ still => (still.settled visiting.settled).raised exc

/-- A change of the entry comes before the rest of the visit. -/
theorem Visiting.change {A B : Type} {succeeded : Bool} {change : Py A} {program : A → Py B}
    (visiting : Visiting deployment threadId entry rest succeeded state)
    (changes : Fallible.wp watch.along change
      (fun _ outcome after => Changes state deployment threadId entry outcome after) state)
    (later : ∀ value after, Changes state deployment threadId entry (.ok value : Except Exc A) after →
      Fallible.wp watch.along (program value) (fun _ outcome final => Visited rest outcome final) after) :
    Fallible.wp watch.along (change >>= program) (fun _ outcome final => Visited rest outcome final) state := by
  apply Fallible.wp_seq changes
  · exact fun _ value after changed => later value after changed
  · rintro _ exc after unchanged
    obtain rfl : after = state := unchanged
    exact visiting.settled.raised exc

/-- The cascade of a success returns, and the success waits no longer. -/
theorem cascade_visits {runId : String} (named : namedEntry entry = true) (alias_ : blank deployment = false)
    (run : blank runId = false) (others : ∀ item ∈ rest, (state.1 .pending).find? item.1 = some item.2)
    (phase : state.2 = ⟨[((deployment, threadId), entry.invocationId)], true, true⟩) :
    Fallible.wp watch.along
      (do
        let finished ← Fallible.ofExcept (runFinishedSignal
          ⟨runId, entry.subject, deployment, entry.assistant, "success", entry.cascadeDepth⟩)
        let cascade ← routeSignal finished timeout now
        note (.cascaded deployment threadId)
        pure (some (⟨deployment, threadId, "success", some cascade⟩ : Observed)))
      (fun _ outcome after => Visited rest outcome after) state := by
  have texts : (blank entry.assistant = false ∧ blank entry.subject = false) ∧ blank entry.invocationId = false := by
    simpa [namedEntry] using named
  have status : blank "success" = false := by decide
  rw [runFinishedSignal_ok run texts.1.2 alias_ texts.1.1 status]
  have finishing : Finishing state := by simp [Finishing, phase]
  apply (routeSignal_delivers _ timeout).seq finishing
  intro cascade after _ same kept
  simp only [Fallible.wp_bind, wp_note]
  refine ⟨⟨trivial, safe_of_finishing (by rwa [Finishing, same])⟩, ?_⟩
  rintro ⟨final, settled⟩ ⟨unchanged, moved, -⟩
  obtain rfl : after.1 = final := Eq.symm unchanged
  apply Ready.visited
  refine ⟨?_, fun item member => kept _ _ (others item member)⟩
  rw [show settled = next after.2 (.note (.cascaded deployment threadId)) () from moved, same, phase]
  simp [next]

/-- A finished invocation leaves the file, and a success leaves it for its cascade. -/
theorem finalizeEntry_visits (rawStatus : String)
    (visiting : Visiting deployment threadId entry rest (rawStatus = "success") state) :
    Fallible.wp watch.along (finalizeEntry connection deployment threadId entry rawStatus timeout now)
      (fun _ outcome after => Visited rest outcome after) state := by
  apply visiting.releaseHeld
  intro state visiting
  apply visiting.change (resolvePending_changes visiting.present visiting.settled)
  rintro _ after ⟨beside, named, texts, phase⟩
  have others := visiting.rest_kept beside
  rw [visiting.phase] at phase texts
  split
  · rename_i succeeded
    subst succeeded
    have whole : namedEntry entry = true := texts rfl
    have finishing : Finishing after := by simp [Finishing, phase]
    have invocation : blank entry.invocationId = false := by
      simp only [namedEntry, Bool.and_eq_true, Bool.not_eq_true'] at whole
      exact whole.2
    apply (completedRunId_delivers deployment threadId invocation).seq finishing
    intro runId middle run same kept
    apply cascade_visits whole named run (fun item member => kept _ _ (others item member))
    rw [same, phase]
    rfl
  · rename_i different
    apply Ready.visited
    refine ⟨?_, others⟩
    rw [phase]
    simp [different]

/-- The raw status decides what happens to the entry. -/
theorem settleEntry_visits (rawStatus : String)
    (visiting : Visiting deployment threadId entry rest (rawStatus = "success") state) :
    Fallible.wp watch.along (settleEntry connection deployment threadId entry rawStatus timeout now)
      (fun _ outcome after => Visited rest outcome after) state := by
  have unfinished {after : Board × Phase} (different : rawStatus ≠ "success")
      (visiting : Visiting deployment threadId entry rest (rawStatus = "success") after) : Ready rest after := by
    refine ⟨?_, fun item member => (visiting.others item member).2⟩
    rw [visiting.phase]
    simp [different]
  unfold settleEntry
  split
  · rename_i active
    have different : rawStatus ≠ "success" := by
      rintro rfl
      simp at active
    have renew : Inside (.store .concurrency) (whenever entry.concurrencyHeld
        (Concurrency.renew entry.assistant entry.subject now
          (.entry deployment threadId))) := whenever_within (Concurrency.renew_inside _ _ _ _)
    have renewed := keeps_still renew (by decide) (by decide) visiting.settled
    apply Fallible.wp_seq (renewed state ⟨rfl, rfl⟩)
    · exact fun _ _ after still => (unfinished different (visiting.still still)).visited _
    · exact fun _ exc _ still => (still.settled visiting.settled).raised exc
  split
  · rename_i interrupted
    have different : rawStatus ≠ "success" := by
      rw [interrupted]
      decide
    apply visiting.releaseHeld
    intro state visiting
    have waiting : state.2.succeeded = false := by
      rw [visiting.phase]
      exact decide_eq_false different
    apply visiting.change (updatePending_changes visiting.present visiting.settled waiting _ _ _)
    rintro _ after ⟨beside, _, _, phase⟩
    apply Ready.visited
    refine ⟨?_, visiting.rest_kept beside⟩
    rw [phase, visiting.phase]
    simp [different]
  · exact finalizeEntry_visits rawStatus visiting

/-- Only the raw status of a success is a success. -/
theorem next_observed (deployment threadId : String) (entry : PendingEntry) (rawStatus : String) :
    next ⟨[], false, false⟩ (.note (.observed deployment threadId entry.invocationId (learnedRaw rawStatus))) () =
      ⟨if rawStatus = "success" then [((deployment, threadId), entry.invocationId)] else [],
        rawStatus = "success", false⟩ := by
  unfold learnedRaw
  by_cases active : rawStatus = "pending" ∨ rawStatus = "running"
  · have different : rawStatus ≠ "success" := by
      rintro rfl
      simp at active
    simp [active, next, different]
  by_cases interrupted : rawStatus = "interrupted"
  · simp [interrupted, next]
  by_cases succeeded : rawStatus = "success"
  · subst succeeded
    simp [next]
  · simp [active, interrupted, succeeded, next]

/-- The status of an entry is observed before anything is done with the entry. -/
theorem sweepEntry_visits (connections : Dict String Connection)
    (distinct : ∀ item ∈ rest, item.1 ≠ (deployment, threadId))
    (ready : Ready (((deployment, threadId), entry) :: rest) state) :
    Fallible.wp watch.along (sweepEntry connections deployment threadId entry timeout now)
      (fun _ outcome after => Visited rest outcome after) state := by
  have later : Ready rest state := ⟨ready.1, fun item member => ready.2 item (List.mem_cons_of_mem _ member)⟩
  unfold sweepEntry
  split
  · exact later.visited _
  rename_i connection _
  have described : Inside .inspection (call (.describeRun connection.endpoint threadId entry.invocationId)) :=
    call_inside _
  apply Fallible.wp_seq (keeps_still described (by decide) (by decide) later.settled state ⟨rfl, rfl⟩)
  · intro _ answer after still
    have ready := still.ready ready
    cases answer with
    | error exc =>
        dsimp only
        split
        · exact (still.ready later).visited _
        · exact (still.ready later).settled.raised exc
    | ok info =>
        simp only [Fallible.wp_bind, wp_note, Fallible.after_ok]
        refine ⟨⟨trivial, ready.settled.safe⟩, ?_⟩
        rintro ⟨board, phase⟩ ⟨same, moved, -⟩
        obtain rfl : after.1 = board := Eq.symm same
        apply settleEntry_visits
        refine ⟨?_, ready.2 _ (List.mem_cons_self ..), ?_⟩
        · rw [show phase = next after.2 (.note (.observed deployment threadId entry.invocationId
            (learnedRaw info.status))) () from moved, ready.1]
          simpa using next_observed deployment threadId entry info.status
        · exact fun item member => ⟨distinct item member, ready.2 item (List.mem_cons_of_mem _ member)⟩
  · exact fun _ exc _ still => (still.ready later).settled.raised exc

/-- The sweep is settled at its end, and each step of it may be its last one. -/
theorem sweepEntries_settles (connections : Dict String Connection) (items : List (Pair × PendingEntry))
    (distinct : (items.map Prod.fst).Nodup) {state : Board × Phase} (ready : Ready items state) :
    Fallible.wp watch.along (sweepEntries connections timeout now items) (fun _ _ after => Settled after) state := by
  induction items generalizing state with
  | nil => exact ready.settled
  | cons item rest ih =>
      obtain ⟨⟨deployment, threadId⟩, entry⟩ := item
      rw [List.map_cons, List.nodup_cons] at distinct
      have apart : ∀ other ∈ rest, other.1 ≠ (deployment, threadId) := by
        intro other member same
        exact distinct.1 (List.mem_map.mpr ⟨other, member, same⟩)
      unfold sweepEntries
      apply Fallible.wp_seq (sweepEntry_visits connections apart ready)
      · intro _ value after visited
        apply Fallible.wp_seq (ih distinct.2 (visited.2 value rfl))
        · exact fun _ _ _ settled => settled
        · exact fun _ _ _ settled => settled
      · exact fun _ _ _ visited => visited.1

end

end

/-- A sweep starts with nothing observed. -/
def unobserved : Phase := ⟨[], false, false⟩

theorem sweepPending_settles (timeout now : Time) (board : Board) :
    Fallible.wp watch.along (sweepPending timeout now) (fun _ _ after => Settled after) (board, unobserved) := by
  have start : Ready [] (board, unobserved) := ⟨rfl, List.forall_mem_nil _⟩
  have loaded := keeps_still (load_inside .connections) (by decide) (by decide) start.settled
  apply Fallible.wp_seq (loaded (board, unobserved) ⟨rfl, rfl⟩)
  · rintro _ connections ⟨after, phase⟩ still
    have settled := still.settled start.settled
    obtain rfl : phase = unobserved := still.2
    simp only [Fallible.wp_bind, loadPending, wp_load]
    refine ⟨⟨trivial, settled.safe⟩, ?_⟩
    rintro file ⟨current, phase⟩ ⟨⟨read, same⟩, stays, -⟩
    obtain rfl : after = current := same.symm
    obtain rfl : file = after .pending := read
    obtain rfl : phase = unobserved := stays
    cases decoded : decode .pending (after .pending) with
    | error exc => exact settled
    | ok data =>
        apply sweepEntries_settles connections data.items data.distinct
        refine ⟨rfl, ?_⟩
        intro item member
        rw [find?_of_decode decoded]
        exact (data.get?_eq_some_iff _ _).mpr member
  · exact fun _ _ _ still => still.settled start.settled

instance (board : Board) (phase : Phase) (op : Effect) (answer : op.Answer) :
    Decidable (watch.meets board phase op answer) := inferInstanceAs (Decidable (_ = true))

/-- Each tracked Run has succeeded. -/
def succeeding : Script := fun past target =>
  match target with
  | .describeRun .. => .ok ⟨some "graph", "success", some "42"⟩
  | target => calm past target

/-- One Thread is tracked on a managed Deployment, and some files cannot be read. -/
def trackedBoard (broken : Store → Bool) : Board
  | .connections => .content (Dict.empty.set "local" ⟨"http://localhost", ["serve"], none⟩)
  | .pending => .content (Dict.empty.set ("local", "thread-1")
      ⟨"local", "thread-1", "run-1", "graph", "42", 0, true, true, 0⟩)
  | store => if broken store then .unreadable .notJson else .missing

/-- The activity claim of a success cannot be released. -/
def unreleased : Option (Result signature (Board × Phase) (Except Exc (List Observed))) :=
  watch.exec succeeding.resolver (sweepPending 120 1).toProgram []
    (trackedBoard fun store => store = .lifecycle, unobserved)

/-- The Rules of a finished success cannot be read. -/
def unrouted : Result signature Board (Except Exc (List Observed)) :=
  succeeding.exec (sweepPending 120 1) (trackedBoard fun store => store = .rules)

/-- The observations of a run give the phase at its end. -/
def phaseAfter (trace : List signature.Event) : Phase :=
  trace.foldl (fun phase event => next phase event.1 event.2) unobserved

end Cordboard.Finish
