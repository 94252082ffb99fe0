import Cordboard.Proof.Records
import Cordboard.Proof.Script

namespace Cordboard
open Data Effects

/-- The program runs alone on the board and leaves it as it was. -/
def Answers {A : Type} (board : Board) (program : Py A) (outcome : Except Exc A) : Prop :=
  ∃ trace, Runs boardMachine program.toProgram board trace outcome board

/-- A program with one possible end answers with it and with nothing else. -/
theorem answers_iff {A : Type} {board : Board} {program : Py A} {expected outcome : Except Exc A}
    (ends : Fallible.wp boardMachine program (fun _ outcome after => outcome = expected ∧ after = board) board) :
    Answers board program outcome ↔ outcome = expected := by
  constructor
  · rintro ⟨trace, run⟩
    exact (Fallible.wp_runs ends run).1
  · rintro rfl
    have run := calm.exec_runs program board
    obtain ⟨value, final⟩ := Fallible.wp_runs ends run
    rw [value, final] at run
    exact ⟨_, run⟩

namespace RunContinuity

/-- One call of `record_submission`. -/
structure Recording where
  deployment : String
  threadId : String
  apiRunId : String
deriving DecidableEq

/-- The Thread of a call. -/
def Recording.pair (recording : Recording) : String × String := (recording.deployment, recording.threadId)

/-- A call with a blank text is refused. -/
def Recording.named (recording : Recording) : Bool :=
  !blank recording.deployment && !blank recording.threadId && !blank recording.apiRunId

/-- The identifiers that the calls submit on a Thread. -/
def submitted (recordings : List Recording) (pair : String × String) : List String :=
  (recordings.filter fun recording => recording.named && recording.pair = pair).map Recording.apiRunId

/-- The first identifier names the logical Run, and each identifier is listed once. -/
def logical : List String → Option LogicalRun
  | [] => none
  | first :: rest => some ⟨first, (first :: rest).eraseDups⟩

/-- A call, its outcome, and the boards before it and after it. -/
structure Recorded where
  call : Recording
  before : Board
  outcome : Except Exc String
  after : Board

/-- A run carries out its calls one after another. -/
inductive RecordingRun : Board → List Recorded → Board → Prop
  | done (board : Board) : RecordingRun board [] board
  | next {call : Recording} {before middle final : Board} {trace : List signature.Event} {outcome : Except Exc String}
      {calls : List Recorded}
      (run : Runs boardMachine (recordSubmission call.deployment call.threadId call.apiRunId).toProgram before trace
        outcome middle)
      (rest : RecordingRun middle calls final) : RecordingRun before (⟨call, before, outcome, middle⟩ :: calls) final

section
variable {ids : List String} {apiRunId : String} {recordings : List Recording} {call : Recording} {pair : String × String}

@[simp] theorem submitted_nil : submitted [] pair = [] := rfl

theorem submitted_append (later : List Recording) :
    submitted (recordings ++ later) pair = submitted recordings pair ++ submitted later pair := by
  simp [submitted]

theorem submitted_snoc : submitted (recordings ++ [call]) pair =
    submitted recordings pair ++ if call.named ∧ call.pair = pair then [call.apiRunId] else [] := by
  rw [submitted_append]
  congr 1
  unfold submitted
  by_cases own : call.named ∧ call.pair = pair
  · rw [if_pos own, List.filter_cons_of_pos (by simpa using own)]
    rfl
  · rw [if_neg own, List.filter_cons_of_neg (by simpa using own)]
    rfl

theorem mem_eraseDups_logical {record : LogicalRun} (known : logical ids = some record) :
    record.apiRunIds = ids.eraseDups ∧ ids.head? = some record.runId := by
  cases ids with
  | nil => cases known
  | cons first rest =>
      obtain rfl := Option.some.inj known
      exact ⟨rfl, rfl⟩

/-- A submission joins the list of its Thread at the end, unless it is there. -/
theorem logical_snoc : logical (ids ++ [apiRunId]) = some (joined (logical ids) apiRunId) := by
  cases ids with
  | nil => simp [logical, joined, List.eraseDups_cons]
  | cons first rest =>
      have listed : (first :: (rest ++ [apiRunId])).eraseDups = (first :: rest).eraseDups ++
          ([apiRunId].removeAll (first :: rest)).eraseDups := by
        rw [← List.cons_append, List.eraseDups_append]
      simp only [logical, List.cons_append, listed, joined, List.mem_eraseDups]
      by_cases member : apiRunId ∈ first :: rest
      · have none : [apiRunId].removeAll (first :: rest) = [] :=
          List.filter_cons_of_neg (by simpa [or_iff_not_imp_left] using member)
        rw [if_pos member, none, List.eraseDups_nil, List.append_nil]
      · have own : [apiRunId].removeAll (first :: rest) = [apiRunId] :=
          List.filter_cons_of_pos (by simpa using member)
        rw [if_neg member, own]
        simp [List.eraseDups_cons]

end

/-- The file lists what the calls submitted. -/
structure Holds (board : Board) (recordings : List Recording) : Prop where
  readable : ∃ data, decode .continuity (board .continuity) = .ok data
  records : ∀ pair, recordOf (board .continuity) pair = logical (submitted recordings pair)

/-- What a call does after these ones. -/
structure Recorded.Lawful (recordings : List Recording) (item : Recorded) : Prop where
  holds : Holds item.after (recordings ++ [item.call])
  answer : item.call.named = true → ∃ first,
    (submitted (recordings ++ [item.call]) item.call.pair).head? = some first ∧ item.outcome = .ok first
  refused : item.call.named = false → (∃ message, item.outcome = .error ⟨.runContinuity, message⟩) ∧
    item.after = item.before
  repeated : item.call.apiRunId ∈ submitted recordings item.call.pair → item.after = item.before
  others : ∀ pair, pair ≠ item.call.pair →
    recordOf (item.after .continuity) pair = recordOf (item.before .continuity) pair

section
variable {board start final : Board} {recordings : List Recording} {call : Recording} {calls : List Recorded}

theorem holds_start (fresh : start .continuity = .missing) : Holds start [] := by
  constructor
  · rw [fresh]
    exact ⟨_, rfl⟩
  · intro pair
    rw [fresh]
    rfl

theorem checked_named : checkTexts .runContinuity [("deployment alias", call.deployment),
    ("thread ID", call.threadId), ("API Run ID", call.apiRunId)] = .ok () ↔ call.named = true := by
  unfold checkTexts Recording.named
  cases alias_ : blank call.deployment <;> cases thread : blank call.threadId <;> cases run : blank call.apiRunId <;>
    simp [alias_, thread, run]

/-- A stored record comes from a file that decodes. -/
theorem readable_of_record {pair : String × String} {record : LogicalRun}
    (stored : recordOf (board .continuity) pair = some record) :
    ∃ data, decode .continuity (board .continuity) = .ok data := by
  cases file : board .continuity with
  | content data => exact ⟨data, rfl⟩
  | missing =>
      rw [file] at stored
      cases stored
  | unreadable corruption =>
      rw [file] at stored
      cases stored

theorem submitted_other {pair : String × String} (other : pair ≠ call.pair) :
    submitted (recordings ++ [call]) pair = submitted recordings pair := by
  rw [submitted_snoc, if_neg fun own => other own.2.symm, List.append_nil]

theorem submitted_own (named : call.named = true) :
    submitted (recordings ++ [call]) call.pair = submitted recordings call.pair ++ [call.apiRunId] := by
  rw [submitted_snoc, if_pos ⟨named, rfl⟩]

theorem submitted_unnamed (unnamed : call.named = false) (pair : String × String) :
    submitted (recordings ++ [call]) pair = submitted recordings pair := by
  rw [submitted_snoc, if_neg (by simp [unnamed]), List.append_nil]

/-- A submitted identifier was named. -/
theorem named_of_submitted {pair : String × String} {apiRunId : String}
    (member : apiRunId ∈ submitted recordings pair) : (Recording.mk pair.1 pair.2 apiRunId).named = true := by
  obtain ⟨recording, inside, rfl⟩ := List.mem_map.mp member
  have kept := (List.mem_filter.mp inside).2
  simp only [Bool.and_eq_true, decide_eq_true_eq] at kept
  obtain ⟨named, rfl⟩ := kept
  exact named

theorem recordSubmission_lawful (holds : Holds board recordings) (call : Recording) :
    Fallible.wp boardMachine (recordSubmission call.deployment call.threadId call.apiRunId)
      (fun _ outcome after => Recorded.Lawful recordings ⟨call, board, outcome, after⟩) board := by
  apply recordSubmission_ends
  · intro data after _ checked _ records same
    have named := checked_named.mp checked
    change ∀ pair, _ = if pair = call.pair then _ else _ at records
    have own := records call.pair
    rw [if_pos rfl, holds.records, ← logical_snoc, ← submitted_own named] at own
    have known : recordOf (board .continuity) (call.deployment, call.threadId) = _ := holds.records call.pair
    refine ⟨⟨?_, ?_⟩, ?_, ?_, ?_, ?_⟩
    · rw [submitted_own named, logical_snoc] at own
      exact readable_of_record own
    · intro pair
      by_cases here : pair = call.pair
      · rw [here]
        exact own
      · rw [records pair, if_neg here, holds.records, submitted_other here]
    · intro _
      rw [known, submitted_own named]
      have joins := @logical_snoc (submitted recordings call.pair) call.apiRunId
      exact ⟨_, (mem_eraseDups_logical joins).2, rfl⟩
    · intro unnamed
      rw [named] at unnamed
      cases unnamed
    · intro member
      cases stored : logical (submitted recordings call.pair) with
      | none =>
          cases listed : submitted recordings call.pair with
          | nil =>
              rw [listed] at member
              cases member
          | cons first rest =>
              rw [listed] at stored
              cases stored
      | some record =>
          rw [stored] at known
          apply same record known
          rw [(mem_eraseDups_logical stored).1, List.mem_eraseDups]
          exact member
    · intro pair here
      rw [records pair, if_neg here]
  · intro exc reason
    rcases reason with blank | unreadable
    · have unnamed : call.named = false := by
        cases named : call.named with
        | false => rfl
        | true =>
            rw [checked_named.mpr named] at blank
            cases blank
      refine ⟨⟨holds.readable, ?_⟩, ?_, ?_, fun _ => rfl, fun _ _ => rfl⟩
      · intro pair
        rw [submitted_unnamed unnamed]
        exact holds.records pair
      · intro named
        rw [named] at unnamed
        cases unnamed
      · intro _
        refine ⟨?_, rfl⟩
        unfold checkTexts at blank
        split at blank
        · exact ⟨_, congrArg Except.error (Except.error.inj blank).symm⟩
        · cases blank
    · obtain ⟨data, read⟩ := holds.readable
      rw [read] at unreadable
      cases unreadable

/-- Each call of a run is lawful, and the file lists what the run submitted. -/
theorem RecordingRun.lawful (run : RecordingRun start calls final) (holds : Holds start recordings) :
    (∀ earlier item later, calls = earlier ++ item :: later →
      item.Lawful (recordings ++ earlier.map Recorded.call)) ∧
    Holds final (recordings ++ calls.map Recorded.call) := by
  induction run generalizing recordings with
  | done board =>
      refine ⟨?_, by simpa using holds⟩
      intro earlier item later same
      simp at same
  | @next call before middle final trace outcome calls run rest ih =>
      have first := Fallible.wp_runs (recordSubmission_lawful holds call) run
      obtain ⟨each, last⟩ := ih first.holds
      constructor
      · intro earlier item later same
        cases earlier with
        | nil =>
            obtain ⟨rfl, _⟩ := List.cons.inj same
            simpa using first
        | cons other others =>
            obtain ⟨rfl, tail⟩ := List.cons.inj same
            have own := each others item later tail
            simpa only [List.append_assoc, List.map_cons, List.singleton_append] using own
      · simpa only [List.append_assoc, List.map_cons, List.singleton_append] using last

/-- No identifier is submitted on two Threads of the Deployment. -/
def Separate (recordings : List Recording) (deployment : String) : Prop :=
  ∀ apiRunId first second, apiRunId ∈ submitted recordings (deployment, first) →
    apiRunId ∈ submitted recordings (deployment, second) → first = second

/-- The answer of `logical_run` to these records of its Thread. -/
def described (deployment threadId : String) (ids : List String) : Except Exc LogicalRun :=
  (logical ids).elim (.error ⟨.unknownThread, "no recorded submission for " ++ deployment ++ "/" ++ threadId⟩) .ok

theorem logicalRun_answers (holds : Holds board recordings) (deployment threadId : String)
    (outcome : Except Exc LogicalRun) : Answers board (logicalRun deployment threadId) outcome ↔
      outcome = described deployment threadId (submitted recordings (deployment, threadId)) := by
  apply answers_iff
  apply wp_loaded .continuity
  · intro _ data decoded
    have known := recordOf_of_decode decoded (deployment, threadId)
    rw [holds.records] at known
    dsimp only at known ⊢
    rw [← known, described]
    cases logical (submitted recordings (deployment, threadId)) with
    | none => exact ⟨rfl, rfl⟩
    | some record => exact ⟨rfl, rfl⟩
  · intro _ exc failed
    obtain ⟨data, read⟩ := holds.readable
    rw [read] at failed
    cases failed

theorem logicalRun_ok (holds : Holds board recordings) {deployment threadId : String} {record : LogicalRun} :
    Answers board (logicalRun deployment threadId) (.ok record) ↔
      logical (submitted recordings (deployment, threadId)) = some record := by
  rw [logicalRun_answers holds, described]
  cases logical (submitted recordings (deployment, threadId)) with
  | none => simp
  | some stored => simp [eq_comm]

/-- The search finds the Thread of a logical Run when no identifier is submitted on two Threads. -/
theorem threadForRun_answers (holds : Holds board recordings) {deployment : String}
    (apart : Separate recordings deployment) (runId threadId : String) :
    Answers board (threadForRun deployment runId) (.ok (some threadId)) ↔
      ∃ record, logical (submitted recordings (deployment, threadId)) = some record ∧ record.runId = runId := by
  obtain ⟨data, read⟩ := holds.readable
  have stored : ∀ thread, ((data.get? deployment).getD Dict.empty).get? thread =
      logical (submitted recordings (deployment, thread)) := by
    intro thread
    rw [← holds.records, recordOf_of_decode read]
    cases data.get? deployment <;> rfl
  have ends : Answers board (threadForRun deployment runId) (.ok (some threadId)) ↔
      (.ok (some threadId) : Except Exc (Option String)) =
        .ok ((((data.get? deployment).getD Dict.empty).items.find? fun item => item.2.runId = runId).map Prod.fst) := by
    apply answers_iff
    apply wp_loaded .continuity
    · intro _ other decoded
      obtain rfl := Except.ok.inj (read.symm.trans decoded)
      exact ⟨rfl, rfl⟩
    · intro _ exc failed
      rw [read] at failed
      cases failed
  rw [ends, Except.ok.injEq, eq_comm, Option.map_eq_some_iff]
  constructor
  · rintro ⟨⟨_, record⟩, found, rfl⟩
    have member := (Dict.get?_eq_some_iff _ _ _).mpr (List.mem_of_find?_eq_some found)
    exact ⟨record, (stored _).symm.trans member, by simpa using List.find?_some found⟩
  · rintro ⟨record, known, rfl⟩
    have inside := (Dict.get?_eq_some_iff _ _ _).mp ((stored threadId).trans known)
    cases found : ((data.get? deployment).getD Dict.empty).items.find? fun item => item.2.runId = record.runId with
    | none =>
        have different := List.find?_eq_none.mp found _ inside
        simp at different
    | some item =>
        refine ⟨item, rfl, ?_⟩
        have member := (Dict.get?_eq_some_iff _ item.1 item.2).mpr (List.mem_of_find?_eq_some found)
        have same : item.2.runId = record.runId := by simpa using List.find?_some found
        have first := (mem_eraseDups_logical ((stored item.1).symm.trans member)).2
        have second := (mem_eraseDups_logical known).2
        rw [same] at first
        exact apart record.runId _ _ (List.mem_of_mem_head? first) (List.mem_of_mem_head? second)

end

/-- Each Thread lists its distinct identifiers in the order of their first submission, its first identifier names its
logical Run, and the search for a Thread inverts this naming. -/
structure IdentityLaw (calls : List Recorded) (final : Board) : Prop where
  answered : ∀ earlier item later, calls = earlier ++ item :: later → item.call.named = true →
    ∃ first, item.outcome = .ok first ∧
      (submitted ((earlier ++ [item]).map Recorded.call) item.call.pair).head? = some first ∧
      (submitted (calls.map Recorded.call) item.call.pair).head? = some first
  refused : ∀ item ∈ calls, item.call.named = false →
    (∃ message, item.outcome = .error ⟨.runContinuity, message⟩) ∧ item.after = item.before
  repeated : ∀ earlier item later, calls = earlier ++ item :: later →
    item.call.apiRunId ∈ submitted (earlier.map Recorded.call) item.call.pair → item.after = item.before
  others : ∀ item ∈ calls, ∀ pair, pair ≠ item.call.pair →
    recordOf (item.after .continuity) pair = recordOf (item.before .continuity) pair
  listed : ∀ deployment threadId outcome, Answers final (logicalRun deployment threadId) outcome ↔
    outcome = described deployment threadId (submitted (calls.map Recorded.call) (deployment, threadId))
  inverse : ∀ deployment, Separate (calls.map Recorded.call) deployment → ∀ runId threadId,
    Answers final (threadForRun deployment runId) (.ok (some threadId)) ↔
      ∃ record, Answers final (logicalRun deployment threadId) (.ok record) ∧ record.runId = runId

section
variable {start final : Board} {calls : List Recorded}

theorem identity_stable (run : RecordingRun start calls final) (fresh : start .continuity = .missing) :
    IdentityLaw calls final := by
  obtain ⟨each, holds⟩ := run.lawful (holds_start fresh)
  simp only [List.nil_append] at each holds
  have member : ∀ item ∈ calls, ∃ recordings, item.Lawful recordings := by
    intro item inside
    obtain ⟨earlier, later, same⟩ := List.append_of_mem inside
    exact ⟨_, each earlier item later same⟩
  refine ⟨?_, ?_, ?_, ?_, logicalRun_answers holds, ?_⟩
  · intro earlier item later same named
    obtain ⟨first, head, answer⟩ := (each earlier item later same).answer named
    have listed : (earlier ++ [item]).map Recorded.call = earlier.map Recorded.call ++ [item.call] := List.map_append
    have whole : calls = (earlier ++ [item]) ++ later := by simpa using same
    refine ⟨first, answer, listed ▸ head, ?_⟩
    rw [whole, List.map_append, submitted_append, List.head?_append, listed, head]
    rfl
  · intro item inside named
    obtain ⟨_, lawful⟩ := member item inside
    exact lawful.refused named
  · exact fun earlier item later same => (each earlier item later same).repeated
  · intro item inside
    obtain ⟨_, lawful⟩ := member item inside
    exact lawful.others
  · intro deployment apart runId threadId
    rw [threadForRun_answers holds apart]
    simp only [logicalRun_ok holds]

end

section Example

/-- A plan carries out its calls one after another. -/
def playRecordings : List Recording → Board → List Recorded × Board
  | [], board => ([], board)
  | call :: rest, board =>
      let result := calm.exec (recordSubmission call.deployment call.threadId call.apiRunId) board
      let later := playRecordings rest result.final
      (⟨call, board, result.value, result.final⟩ :: later.1, later.2)

theorem playRecordings_run (plan : List Recording) (board : Board) :
    RecordingRun board (playRecordings plan board).1 (playRecordings plan board).2 := by
  induction plan generalizing board with
  | nil => exact .done board
  | cons call rest ih =>
      exact .next (calm.exec_runs (recordSubmission call.deployment call.threadId call.apiRunId) board) (ih _)

/-- A Run is resumed and submitted again, next to another Thread. -/
def resumedPlan : List Recording := [⟨"d", "t", "r1"⟩, ⟨"d", "u", "r2"⟩, ⟨"d", "t", "r3"⟩, ⟨"d", "t", "r1"⟩, ⟨"d", " ", "r1"⟩]

theorem identity_stable_resumed :
    IdentityLaw (playRecordings resumedPlan fun _ => .missing).1 (playRecordings resumedPlan fun _ => .missing).2 ∧
    (playRecordings resumedPlan fun _ => .missing).1.map Recorded.outcome =
      [.ok "r1", .ok "r2", .ok "r1", .ok "r1", .error ⟨.runContinuity, "thread ID must be a non-empty string"⟩] := by
  constructor
  · exact identity_stable (playRecordings_run resumedPlan fun _ => .missing) rfl
  · decide +kernel

end Example

end RunContinuity

end Cordboard
