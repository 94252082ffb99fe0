import Cordboard.Proof.Concurrency.LinearStores
import Cordboard.Proof.Script
import Mathlib.Tactic.Linarith

namespace Cordboard.LinearStores
open Data Effects

variable {file : LockFile}

/-- Each process performs one call. -/
abbrev tasks (calls : Pid → StoreCall file) : Pid → Program signature (Except Exc StoreAnswer) :=
  fun pid => (calls pid).perform.toProgram

/-- The calls of a run act one after another in this order. A call that has returned is in the order with its value,
or its key was refused before its first operation. A call that has returned when another one begins comes first. -/
structure Linearizes (calls : Pid → StoreCall file) (board : Board) (history : Chronicle)
    (config : Config signature World Pid (Except Exc StoreAnswer)) (order : List Pid) : Prop where
  once : order.Nodup
  serial : ∃ lefts, Serial boardMachine (tasks calls) lefts order board config.shared.board ∧
    ∀ pid value, config.code pid = some (.pure value) →
      (pid ∈ order ∧ lefts pid = .pure value) ∨ tasks calls pid = .pure value
  realTime : ∀ newer older first second, history = newer ++ older →
    (∀ event, Label.act first event ∉ newer) → (∀ event, Label.act second event ∉ older) →
      first ∈ order → second ∈ order →
        ∃ earlier later, order = earlier ++ later ∧ first ∈ earlier ∧ second ∈ later

/-- The call claims the key at this time. It finds the key unheld or stale on the board. -/
def contends (board : Board) (now : Time) : {file : LockFile} → StoreCall file → Key file → Prop
  | _, .tryClaim assistant subject clock staleAfter _, key => key = (assistant, subject) ∧ clock = now ∧ 0 < staleAfter ∧
      Concurrency.isLive (recordAt .concurrency board key) now staleAfter = false
  | _, .release .., _ => False
  | _, .renew .., _ => False
  | _, .claim .., _ => False
  | _, .recordOutcome .., _ => False
  | _, .getClaim .., _ => False

/-- Some calls claim one key at one time, and the other calls are about other keys. -/
structure Contested (calls : Pid → StoreCall file) (board : Board) (now : Time) (key : Key file) : Prop where
  started : ∃ pid, contends board now (calls pid) key
  apart : ∀ pid, contends board now (calls pid) key ∨ (calls pid).key ≠ key
  named : StoreCall.named file key = .ok ()
  readable : Readable file.store board

section
variable {calls : Pid → StoreCall file} {board first last : Board}

/-- A partial run keeps the file readable. -/
theorem readable_performs {A : Type} {store : Store} {program left : Program signature A} {trace : List signature.Event}
    (run : Performs boardMachine program first trace left last) (readable : Readable store first) :
    Readable store last := by
  induction run with
  | stop program board => exact readable
  | perform move rest ih => exact ih (readable_step move readable)

/-- A partial run of a call keeps the records of other keys. -/
theorem frames_performs {call : StoreCall file} {left : Program signature (Except Exc StoreAnswer)}
    {trace : List signature.Event} (run : Performs boardMachine call.perform.toProgram first trace left last) :
    Frames call first last := by
  apply Program.safe_of_performs _ run
  exact Fallible.wp_mono (perform_acts call first) fun _ _ _ acts => acts.frames

/-- A run of a call has its sequential outcome. -/
theorem acts_performs {call : StoreCall file} {value : Except Exc StoreAnswer} {trace : List signature.Event}
    (run : Performs boardMachine call.perform.toProgram first trace (.pure value) last) : Acts call first value last :=
  Program.wp_runs (Program.wp_of_guarded (perform_acts call first)) run.runs

end

section
variable {calls : Pid → StoreCall .concurrency} {board : Board} {now : Time} {key : Key .concurrency}

/-- The first of the claims takes the key, and the other ones find it live. -/
structure Raced (calls : Pid → StoreCall .concurrency) (board : Board) (now : Time) (key : Key .concurrency)
    (lefts : Pid → Program signature (Except Exc StoreAnswer)) (order : List Pid) (last : Board) (winner : Pid) : Prop where
  member : winner ∈ order
  contender : contends board now (calls winner) key
  taken : recordAt .concurrency last key = some ⟨now⟩
  answers : ∀ pid ∈ order, contends board now (calls pid) key →
    lefts pid = .pure (.ok (.granted (decide (pid = winner))))

/-- A contender answers from the record of its key. -/
theorem contends_outcome {call : StoreCall .concurrency} (claims : contends board now call key)
    (record : Option ConcurrencyClaim) : call.key = key ∧ ∃ staleAfter, 0 < staleAfter ∧
      Concurrency.isLive (recordAt .concurrency board key) now staleAfter = false ∧
      call.outcome record = if Concurrency.isLive record now staleAfter then (.ok (.granted false), record)
        else (.ok (.granted true), some ⟨now⟩) := by
  cases call with
  | tryClaim assistant subject clock staleAfter holder =>
      obtain ⟨rfl, rfl, positive, stale⟩ := claims
      exact ⟨rfl, staleAfter, positive, stale, rfl⟩
  | release assistant subject holder => exact absurd claims id
  | renew assistant subject clock holder => exact absurd claims id

/-- A claim on a live key is not granted. -/
theorem isLive_now {staleAfter : Time} (positive : 0 < staleAfter) :
    Concurrency.isLive (some ⟨now⟩) now staleAfter = true := by
  simp [Concurrency.isLive, positive]

/-- The first contender in the order wins. -/
theorem serial_raced {lefts : Pid → Program signature (Except Exc StoreAnswer)} {order : List Pid} {last : Board}
    (contested : Contested calls board now key) (serial : Serial boardMachine (tasks calls) lefts order board last)
    (once : order.Nodup)
    (done : ∀ pid ∈ order, contends board now (calls pid) key → ∃ value, lefts pid = .pure value) :
    Readable .concurrency last ∧
      (((∀ pid ∈ order, ¬ contends board now (calls pid) key) ∧
          recordAt .concurrency last key = recordAt .concurrency board key) ∨
        ∃ winner, Raced calls board now key lefts order last winner) := by
  induction serial with
  | nil board => exact ⟨contested.readable, .inl ⟨fun _ member => absurd member List.not_mem_nil, rfl⟩⟩
  | @snoc order first middle last pid trace earlier run ih =>
      have listed : pid ∈ order ++ [pid] := List.mem_append_right _ (List.mem_singleton_self _)
      have fresh : pid ∉ order := by
        rw [List.nodup_append] at once
        exact fun member => once.2.2 pid member pid (List.mem_singleton_self _) rfl
      obtain ⟨readable, race⟩ := ih contested once.of_append_left fun other member =>
        done other (List.mem_append_left _ member)
      refine ⟨readable_performs run readable, ?_⟩
      rcases contested.apart pid with claims | elsewhere
      · obtain ⟨value, ended⟩ := done pid listed claims
        obtain ⟨about, staleAfter, positive, stale, outcome⟩ :=
          contends_outcome claims (recordAt .concurrency middle key)
        rw [ended] at run
        have acted := (acts_performs run).meets (about ▸ contested.named) readable
        rw [about, outcome] at acted
        right
        rcases race with ⟨none, unchanged⟩ | ⟨winner, raced⟩
        · rw [unchanged, stale] at acted
          obtain ⟨rfl, taken⟩ := Prod.mk.inj acted
          refine ⟨pid, listed, claims, taken, ?_⟩
          intro other member contends
          rcases List.mem_append.mp member with before | same
          · exact absurd contends (none other before)
          · obtain rfl := List.mem_singleton.mp same
            simpa using ended
        · rw [raced.taken, isLive_now positive] at acted
          obtain ⟨rfl, kept⟩ := Prod.mk.inj acted
          refine ⟨winner, List.mem_append_left _ raced.member, raced.contender, kept, ?_⟩
          intro other member contends
          rcases List.mem_append.mp member with before | same
          · exact raced.answers other before contends
          · obtain rfl := List.mem_singleton.mp same
            have different : other ≠ winner := fun same => fresh (same ▸ raced.member)
            simpa [different] using ended
      · have kept : recordAt .concurrency last key = recordAt .concurrency middle key :=
          frames_performs run key (Ne.symm elsewhere)
        have absent : ¬ contends first now (calls pid) key :=
          fun claims => elsewhere (contends_outcome claims none).1
        rcases race with ⟨none, unchanged⟩ | ⟨winner, raced⟩
        · refine .inl ⟨?_, kept.trans unchanged⟩
          intro other member
          rcases List.mem_append.mp member with before | same
          · exact none other before
          · obtain rfl := List.mem_singleton.mp same
            exact absent
        · refine .inr ⟨winner, List.mem_append_left _ raced.member, raced.contender, kept.trans raced.taken, ?_⟩
          intro other member contends
          rcases List.mem_append.mp member with before | same
          · exact raced.answers other before contends
          · obtain rfl := List.mem_singleton.mp same
            exact absurd contends absent

/-- A contender that returns has taken the lock. -/
theorem contender_locks {pid : Pid} (contested : Contested calls board now key)
    (claims : contends board now (calls pid) key) (value : Except Exc StoreAnswer) : tasks calls pid ≠ .pure value := by
  have named := contested.named
  cases call : calls pid with
  | tryClaim assistant subject clock staleAfter holder =>
      rw [call] at claims
      obtain ⟨rfl, -⟩ := claims
      simp only [tasks, call, StoreCall.perform, Concurrency.tryClaim, Concurrency.key, requireTexts_eq]
      simp only [StoreCall.named] at named
      rw [named]
      intro same
      cases same
  | release assistant subject holder =>
      rw [call] at claims
      exact absurd claims id
  | renew assistant subject clock holder =>
      rw [call] at claims
      exact absurd claims id

end

section
variable {calls : Pid → StoreCall file} {board : Board} {history : Chronicle}
  {config : Config signature World Pid (Except Exc StoreAnswer)}

theorem tasks_sectioned (calls : Pid → StoreCall file) (pid : Pid) : (guarded file).Sectioned (tasks calls pid) :=
  perform_sectioned (calls pid)

/-- The calls take effect in the order of their changes. -/
theorem linearizes_of_reaches (reached : Reaches worldSharing anyStep (tasks calls) (World.fresh board) history config) :
    Linearizes calls board history config ((guarded file).order history) := by
  obtain ⟨lefts, linear⟩ := Guarded.linear_of_reaches (tasks_sectioned calls) reached
  refine ⟨linear.once, ⟨lefts, linear.serial, ?_⟩, ?_⟩
  · intro pid value live
    exact linear.returned (tasks_sectioned calls) reached live
  · rintro newer older first second rfl returned waiting one two
    exact (guarded file).order_real_time returned waiting one two

/-- Each step keeps the records of all keys but the key of its own call. -/
theorem step_frames (reached : Reaches worldSharing anyStep (tasks calls) (World.fresh board) history config)
    {pid : Pid} {op : Effect} {next : op.Answer → Program signature (Except Exc StoreAnswer)} {answer : op.Answer}
    {after : World} (ready : config.code pid = some (.perform op next))
    (move : worldSharing.step pid config.shared op answer after) :
    Frames (calls pid) config.shared.board after.board := by
  obtain ⟨lefts, linear⟩ := Guarded.linear_of_reaches (tasks_sectioned calls) reached
  have permitted := (Guarded.leaves_of_reaches (tasks_sectioned calls) reached pid ready).1
  obtain still | ⟨trace, run⟩ := linear.moves ready permitted move
  · intro key _
    have same : after.board = config.shared.board := still
    rw [same]
  · exact frames_performs run

/-- Exactly one of the claims on a contested key is granted. -/
theorem one_granted {now : Time} {key : Key file}
    (reached : Reaches worldSharing anyStep (tasks calls) (World.fresh board) history config)
    (contested : Contested calls board now key)
    (returned : ∀ pid, contends board now (calls pid) key → ∃ value, config.code pid = some (.pure value)) :
    ∃ winner, contends board now (calls winner) key ∧ ∀ pid, contends board now (calls pid) key →
      config.code pid = some (.pure (.ok (.granted (decide (pid = winner))))) := by
  cases file with
  | responseDedupe =>
      obtain ⟨pid, claims⟩ := contested.started
      cases call : calls pid with
      | claim deployment threadId interruptId clock => rw [call] at claims; exact absurd claims id
      | recordOutcome deployment threadId interruptId outcome clock => rw [call] at claims; exact absurd claims id
      | getClaim deployment threadId interruptId => rw [call] at claims; exact absurd claims id
  | concurrency =>
      have linearizes := linearizes_of_reaches reached
      obtain ⟨lefts, serial, values⟩ := linearizes.serial
      have listed (pid : Pid) (claims : contends board now (calls pid) key) :
          pid ∈ (guarded .concurrency).order history ∧ ∃ value,
            config.code pid = some (.pure value) ∧ lefts pid = .pure value := by
        obtain ⟨value, live⟩ := returned pid claims
        obtain ⟨member, left⟩ | refused := values pid value live
        · exact ⟨member, value, live, left⟩
        · exact absurd refused (contender_locks contested claims value)
      obtain ⟨_, race⟩ := serial_raced contested serial linearizes.once fun pid _ claims => by
        obtain ⟨_, value, _, left⟩ := listed pid claims
        exact ⟨value, left⟩
      obtain ⟨none, _⟩ | ⟨winner, raced⟩ := race
      · obtain ⟨pid, claims⟩ := contested.started
        exact absurd claims (none pid (listed pid claims).1)
      · refine ⟨winner, raced.contender, fun pid claims => ?_⟩
        obtain ⟨member, value, live, left⟩ := listed pid claims
        have answer := raced.answers pid member claims
        rw [left] at answer
        obtain rfl := Program.pure.inj answer
        exact live

end

/-- Any number of processes call the functions of one guarded store, and each of them may stop at any point. The calls
act as in a sequential order that respects real time, no step changes the record of another key, and of the claims on
one unheld or stale key exactly one is granted. -/
theorem stores_linearizable (calls : Pid → StoreCall file) (board : Board) {history : Chronicle}
    {config : Config signature World Pid (Except Exc StoreAnswer)}
    (reached : Reaches worldSharing anyStep (tasks calls) (World.fresh board) history config) :
    (∃ order, Linearizes calls board history config order) ∧
      (∀ pid op next answer after, config.code pid = some (.perform op next) →
        worldSharing.step pid config.shared op answer after → Frames (calls pid) config.shared.board after.board) ∧
      ∀ now key, Contested calls board now key →
        (∀ pid, contends board now (calls pid) key → ∃ value, config.code pid = some (.pure value)) →
        ∃ winner, contends board now (calls winner) key ∧ ∀ pid, contends board now (calls pid) key →
          config.code pid = some (.pure (.ok (.granted (decide (pid = winner))))) :=
  ⟨⟨_, linearizes_of_reaches reached⟩, fun _ _ _ _ _ ready move => step_frames reached ready move,
    fun _ _ contested returned => one_granted reached contested returned⟩

/-- Two processes claim one stale pair at the same time, and the other ones renew another pair. -/
def rivals (pid : Pid) : StoreCall .concurrency :=
  if pid < 2 then .tryClaim "assistant" "subject" 100 60 .submission else .renew "assistant" "other" 100 .submission

def rivalBoard : Board
  | .concurrency => .content ((Dict.empty.set ("assistant", "subject") ⟨40⟩).set ("assistant", "other") ⟨90⟩)
  | _ => .missing

def rivalScript : SharedScript := fun _ => calm

/-- A third process stops inside its section before the two claims. -/
def rivalry : Option (Reached signature World Pid (Except Exc StoreAnswer)) :=
  rivalScript.play anyStep (fun pid => (rivals pid).perform) rivalBoard
    (turnsOf 2 3 ++ [.crash 2] ++ turnsOf 1 5 ++ turnsOf 0 3)

theorem rivals_contested : Contested rivals rivalBoard 100 ("assistant", "subject") where
  started := ⟨0, rfl, rfl, by decide, by decide +kernel⟩
  apart pid := by
    by_cases early : pid < 2
    · left
      simp only [rivals, early, if_true]
      exact ⟨rfl, rfl, by decide, by decide +kernel⟩
    · right
      simp only [rivals, early, if_false]
      decide
  named := by decide
  readable := ⟨_, rfl⟩

theorem stores_linearizable_rivals : ∃ reached, rivalry = some reached ∧
    (∃ order, Linearizes rivals rivalBoard reached.history reached.config order) ∧
      ∃ winner, contends rivalBoard 100 (rivals winner) ("assistant", "subject") ∧
        ∀ pid, contends rivalBoard 100 (rivals pid) ("assistant", "subject") →
          reached.config.code pid = some (.pure (.ok (.granted (decide (pid = winner))))) := by
  obtain ⟨reached, played⟩ := Option.isSome_iff_exists.mp (show rivalry.isSome = true by decide +kernel)
  have whole := stores_linearizable rivals rivalBoard (SharedScript.play_reaches played)
  refine ⟨reached, played, whole.1, whole.2.2 100 _ rivals_contested ?_⟩
  have ended : ∀ pid < 2, rivalry.bind (fun reached => (reached.config.code pid).bind Program.value?) =
      some (.ok (.granted (decide (pid = 1)))) := by
    decide +kernel
  rw [played] at ended
  intro pid claims
  have early : pid < 2 := by
    by_contra late
    simp only [rivals, late, if_false] at claims
    exact claims
  exact ⟨_, Program.eq_pure_of_value? (ended pid early)⟩

end Cordboard.LinearStores
