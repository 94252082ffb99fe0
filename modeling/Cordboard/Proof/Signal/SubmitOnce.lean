import Cordboard.Proof.Signal.ClaimProtocol
import Cordboard.Proof.Script
import Mathlib.Tactic.Linarith

namespace Cordboard.SignalDedupe
open Data Effects

/-- These are the clock readings of the calls of `execute` for one Signal, the newest one first. -/
def executions (signalId : String) : Chronicle → List Time
  | [] => []
  | .act _ ⟨.note (.executing other now), _⟩ :: history =>
      if other = signalId then now :: executions signalId history else executions signalId history
  | _ :: history => executions signalId history

/-- Two clock readings lie in no common retention window. -/
def Apart (first second : Time) : Prop := window ≤ first - second ∨ window ≤ second - first

theorem Apart.symm {first second : Time} (apart : Apart first second) : Apart second first := Or.symm apart

/-- These processes have replaced the dedupe file. -/
def writers : Chronicle → List Pid
  | [] => []
  | .act pid event :: history =>
      if event.1.writes .signalDedupe then pid :: writers history else writers history
  | .crash _ :: history => writers history

/-- The claim of a Signal in the file that a process read last. -/
def seenClaim (pid : Pid) (history : Chronicle) (signalId : String) : Option SignalClaim :=
  (lastRead .signalDedupe pid history).bind fun file => file.find? signalId

/-- At each write, the writer has seen every claim of the current file, and its clock is not behind. -/
def claimsSeen (times : Pid → Time) : StepCondition
  | history, world, .act pid event => event.1.writes .signalDedupe = true →
      (∀ signalId ∈ (world.board .signalDedupe).keys,
        seenClaim pid history signalId = (world.board .signalDedupe).find? signalId) ∧
      ∀ other ∈ writers history, times other ≤ times pid
  | _, _, .crash _ => True

instance (times : Pid → Time) : (history : Chronicle) → (world : World) → (label : Label signature Pid) →
    Decidable (claimsSeen times history world label)
  | history, world, .act pid event => inferInstanceAs (Decidable (event.1.writes .signalDedupe = true →
      (∀ signalId ∈ (world.board .signalDedupe).keys,
        seenClaim pid history signalId = (world.board .signalDedupe).find? signalId) ∧
      ∀ other ∈ writers history, times other ≤ times pid))
  | _, _, .crash _ => .isTrue trivial

/-- A claim of this time is in the file, or its window has passed for a later writer. -/
def Covered (times : Pid → Time) (signalId : String) (history : Chronicle) (world : World) (time : Time) : Prop :=
  (∃ claim, (world.board .signalDedupe).find? signalId = some claim ∧ time ≤ claim.claimedAt) ∨
    ∃ pid ∈ writers history, time + window ≤ times pid

/-- A claim is still in the file, or its window has passed for a later writer. -/
def Still (times : Pid → Time) (signalId : String) (history : Chronicle) (world : World) (claim : SignalClaim) :
    Prop :=
  (world.board .signalDedupe).find? signalId = some claim ∨
    ∃ pid ∈ writers history, claim.claimedAt + window ≤ times pid

/-- The executions and the unspent claims of one Signal are apart, and each of them is covered. -/
structure Holds (times : Pid → Time) (signalId : String) (history : Chronicle) (phases : Pid → Phase)
    (world : World) : Prop where
  clock : ∀ pid, (phases pid).now = times pid
  read : ∀ pid file claim, (phases pid).seen = some file → file.find? signalId = some claim →
    Still times signalId history world claim
  executed : ∀ time ∈ executions signalId history, Covered times signalId history world time
  claimed : ∀ pid, (phases pid).claimed = true → Covered times signalId history world (times pid)
  fresh : ∀ pid, (phases pid).claimed = true → ∀ time ∈ executions signalId history, Apart (times pid) time
  alone : ∀ first second, first ≠ second → (phases first).claimed = true → (phases second).claimed = true →
    Apart (times first) (times second)
  apart : (executions signalId history).Pairwise Apart

section
variable {times : Pid → Time} {signalId : String} {history : Chronicle} {phases : Pid → Phase}
  {world after : World} {pid : Pid}

/-- Each process starts with its clock, without a read, and without a claim. -/
def startPhase (times : Pid → Time) (pid : Pid) : Phase := ⟨times pid, none, false⟩

theorem holds_start (world : World) : Holds times signalId [] (startPhase times) world where
  clock _ := rfl
  read _ _ _ read := by cases read
  executed _ member := absurd member List.not_mem_nil
  claimed _ unspent := by cases unspent
  fresh _ unspent := by cases unspent
  alone _ _ _ unspent := by cases unspent
  apart := List.Pairwise.nil

/-- A step that keeps the file, the executions, and the unspent claims keeps the invariant. -/
theorem holds_quiet (holds : Holds times signalId history phases world) {label : Label signature Pid}
    {later : Pid → Phase} (file : after.board .signalDedupe = world.board .signalDedupe)
    (executions_ : executions signalId (label :: history) = executions signalId history)
    (writers_ : writers (label :: history) = writers history)
    (same : ∀ pid, (later pid).now = (phases pid).now ∧ (later pid).claimed = (phases pid).claimed)
    (read : ∀ pid file, (later pid).seen = some file →
      (phases pid).seen = some file ∨ file = world.board .signalDedupe) :
    Holds times signalId (label :: history) later after := by
  have covered {time : Time} (before : Covered times signalId history world time) :
      Covered times signalId (label :: history) after time := by
    unfold Covered
    rw [file, writers_]
    exact before
  refine ⟨fun pid => (same pid).1.trans (holds.clock pid), ?_, ?_, ?_, ?_, ?_, ?_⟩
  · intro pid seen claim known found
    unfold Still
    rw [file, writers_]
    rcases read pid seen known with before | rfl
    · exact holds.read pid seen claim before found
    · exact .inl found
  · intro time member
    rw [executions_] at member
    exact covered (holds.executed time member)
  · intro pid unspent
    rw [(same pid).2] at unspent
    exact covered (holds.claimed pid unspent)
  · intro pid unspent
    rw [(same pid).2] at unspent
    rw [executions_]
    exact holds.fresh pid unspent
  · intro first second different one two
    rw [(same first).2] at one
    rw [(same second).2] at two
    exact holds.alone first second different one two
  · rw [executions_]
    exact holds.apart

theorem phase_of_update {phase : Phase} {other : Pid} (different : other ≠ pid) :
    Function.update phases pid phase other = phases other := Function.update_of_ne different ..

/-- An unspent claim becomes an execution. -/
theorem holds_execute (holds : Holds times signalId history phases world)
    (unspent : (phases pid).claimed = true) :
    Holds times signalId (.act pid ⟨Effect.note (.executing signalId (times pid)), ()⟩ :: history)
      (Function.update phases pid { phases pid with claimed := false }) world := by
  have added : executions signalId (.act pid ⟨Effect.note (.executing signalId (times pid)), ()⟩ :: history) =
      times pid :: executions signalId history := by simp [executions]
  have others {other : Pid} (claimed : (Function.update phases pid { phases pid with claimed := false } other).claimed = true) :
      other ≠ pid ∧ (phases other).claimed = true := by
    by_cases moved : other = pid
    · rw [moved, Function.update_self] at claimed
      cases claimed
    · rw [phase_of_update moved] at claimed
      exact ⟨moved, claimed⟩
  refine ⟨?_, ?_, ?_, ?_, ?_, ?_, ?_⟩
  · intro other
    by_cases moved : other = pid
    · rw [moved, Function.update_self]
      exact holds.clock pid
    · rw [phase_of_update moved]
      exact holds.clock other
  · intro other file claim known
    by_cases moved : other = pid
    · rw [moved, Function.update_self] at known
      exact holds.read pid file claim known
    · rw [phase_of_update moved] at known
      exact holds.read other file claim known
  · intro time member
    rw [added] at member
    rcases List.mem_cons.mp member with rfl | older
    · exact holds.claimed pid unspent
    · exact holds.executed time older
  · exact fun other claimed => holds.claimed other (others claimed).2
  · intro other claimed time member
    obtain ⟨moved, claimed⟩ := others claimed
    rw [added] at member
    rcases List.mem_cons.mp member with rfl | older
    · exact holds.alone other pid moved claimed unspent
    · exact holds.fresh other claimed time older
  · exact fun first second different one two => holds.alone first second different (others one).2 (others two).2
  · rw [added]
    exact List.Pairwise.cons (holds.fresh pid unspent) holds.apart

/-- A claim that is no longer live is a full window old. -/
theorem old_of_not_live {now : Time} {claim : SignalClaim} (expired : live now (some claim) = none) :
    claim.claimedAt + window ≤ now := by
  by_contra young
  have counts : now - claim.claimedAt < window := by linarith
  simp [live, Option.filter, counts] at expired

theorem live_of_some {now : Time} {claim : SignalClaim} (counts : live now (some claim) ≠ none) :
    live now (some claim) = some claim := by
  unfold live at counts ⊢
  rw [Option.filter_some] at counts ⊢
  split at counts
  · rename_i young
    rw [if_pos young]
  · exact absurd rfl counts

/-- A new claim is a full window later than every covered one. -/
theorem apart_of_covered {time : Time} (covered : Covered times signalId history world time)
    (expired : live (times pid) ((world.board .signalDedupe).find? signalId) = none)
    (ordered : ∀ other ∈ writers history, times other ≤ times pid) : Apart (times pid) time := by
  rcases covered with ⟨claim, stored, before⟩ | ⟨other, member, before⟩
  · rw [stored] at expired
    have old := old_of_not_live expired
    exact .inl (by linarith)
  · have later := ordered other member
    exact .inl (by linarith)

/-- A writer that saw every claim keeps each live one and covers the other ones. -/
theorem holds_write (holds : Holds times signalId history phases world) {data : Dict String SignalClaim}
    (written : Written (times pid) ((world.board .signalDedupe).find? signalId) (data.get? signalId))
    (ordered : ∀ other ∈ writers history, times other ≤ times pid) {later : Phase}
    (clock : later.now = times pid) (seen : later.seen = (phases pid).seen)
    (unspent : later.claimed = true → (phases pid).claimed = true ∨
      live (times pid) ((world.board .signalDedupe).find? signalId) = none ∧ data.get? signalId = some ⟨times pid⟩) :
    Holds times signalId (.act pid ⟨Effect.write .signalDedupe data, ()⟩ :: history)
      (Function.update phases pid later) (world.write .signalDedupe data) := by
  have stored : ((world.write .signalDedupe data).board .signalDedupe).find? signalId = data.get? signalId := by
    rw [World.write_board, Board.put_self, File.find?_content]
  have still {claim : SignalClaim} (before : Still times signalId history world claim) :
      Still times signalId (.act pid ⟨Effect.write .signalDedupe data, ()⟩ :: history)
        (world.write .signalDedupe data) claim := by
    rcases before with found | ⟨other, member, passed⟩
    · by_cases expired : live (times pid) (some claim) = none
      · exact .inr ⟨pid, List.mem_cons_self .., old_of_not_live expired⟩
      · rw [found] at written
        rcases written with kept | ⟨gone, -⟩
        · exact .inl (by rw [stored, kept, live_of_some expired])
        · exact absurd gone expired
    · exact .inr ⟨other, List.mem_cons_of_mem _ member, passed⟩
  have covered {time : Time} (before : Covered times signalId history world time) :
      Covered times signalId (.act pid ⟨Effect.write .signalDedupe data, ()⟩ :: history)
        (world.write .signalDedupe data) time := by
    rcases before with ⟨claim, found, older⟩ | ⟨other, member, passed⟩
    · rcases still (.inl found) with kept | ⟨other, member, passed⟩
      · exact .inl ⟨claim, kept, older⟩
      · exact .inr ⟨other, member, by linarith⟩
    · exact .inr ⟨other, List.mem_cons_of_mem _ member, passed⟩
  -- A claim of this write is apart from each earlier one.
  have apart {time : Time} (gone : live (times pid) ((world.board .signalDedupe).find? signalId) = none)
      (before : Covered times signalId history world time) : Apart (times pid) time :=
    apart_of_covered before gone ordered
  have claims {other : Pid} (claimed : (Function.update phases pid later other).claimed = true) :
      (phases other).claimed = true ∨ other = pid ∧
        live (times pid) ((world.board .signalDedupe).find? signalId) = none ∧
        data.get? signalId = some ⟨times pid⟩ := by
    by_cases moved : other = pid
    · subst other
      rw [Function.update_self] at claimed
      exact (unspent claimed).imp_right fun new => ⟨rfl, new⟩
    · rw [phase_of_update moved] at claimed
      exact .inl claimed
  refine ⟨?_, ?_, ?_, ?_, ?_, ?_, ?_⟩
  · intro other
    by_cases moved : other = pid
    · rw [moved, Function.update_self, clock]
    · rw [phase_of_update moved]
      exact holds.clock other
  · intro other file claim known found
    by_cases moved : other = pid
    · rw [moved, Function.update_self, seen] at known
      exact still (holds.read pid file claim known found)
    · rw [phase_of_update moved] at known
      exact still (holds.read other file claim known found)
  · exact fun time member => covered (holds.executed time member)
  · intro other claimed
    rcases claims claimed with old | ⟨rfl, -, new⟩
    · exact covered (holds.claimed other old)
    · exact .inl ⟨_, stored.trans new, le_refl _⟩
  · intro other claimed time member
    rcases claims claimed with old | ⟨rfl, gone, -⟩
    · exact holds.fresh other old time member
    · exact apart gone (holds.executed time member)
  · intro first second different one two
    rcases claims one with first_ | ⟨rfl, gone, -⟩
    · rcases claims two with second_ | ⟨rfl, gone, -⟩
      · exact holds.alone first second different first_ second_
      · exact (apart gone (holds.claimed first first_)).symm
    · rcases claims two with second_ | ⟨rfl, -⟩
      · exact apart gone (holds.claimed second second_)
      · exact absurd rfl different
  · exact holds.apart

/-- A writer that saw every claim sees the same live claim as the current file. -/
theorem live_of_seen (holds : Holds times signalId history phases world)
    {file : File (Dict String SignalClaim)} (read : (phases pid).seen = some file)
    (fresh : signalId ∈ (world.board .signalDedupe).keys →
      file.find? signalId = (world.board .signalDedupe).find? signalId)
    (ordered : ∀ other ∈ writers history, times other ≤ times pid) :
    live (times pid) (file.find? signalId) = live (times pid) ((world.board .signalDedupe).find? signalId) := by
  by_cases member : signalId ∈ (world.board .signalDedupe).keys
  · rw [fresh member]
  · have absent : (world.board .signalDedupe).find? signalId = none := by
      simpa using fun present => member ((File.mem_keys_iff _ _).mpr present)
    rw [absent]
    cases found : file.find? signalId with
    | none => rfl
    | some claim =>
        -- A claim that left the file had expired for its remover, and so it has for this writer.
        rcases holds.read pid file claim read found with current | ⟨other, writer, passed⟩
        · rw [absent] at current
          cases current
        · have later := ordered other writer
          have expired : ¬ times pid - claim.claimedAt < window := by linarith
          rw [live, Option.filter_some, decide_eq_false expired]
          rfl

/-- Only a write and an execution of the Signal change an unspent claim. -/
theorem claimNext_quiet {op : Effect} (quiet : op.writes .signalDedupe = false)
    (other : ∀ now, op ≠ .note (.executing signalId now)) (phase : Phase) (answer : op.Answer) :
    (claimNext signalId phase op answer).now = phase.now ∧
      (claimNext signalId phase op answer).claimed = phase.claimed := by
  cases op with
  | read store => cases store <;> exact ⟨rfl, rfl⟩
  | write store data => cases store <;> first | exact ⟨rfl, rfl⟩ | cases quiet
  | note point =>
      cases point with
      | executing signal now =>
          have different : signal ≠ signalId := fun same => other now (same ▸ rfl)
          exact ⟨rfl, by simp [claimNext, different]⟩
      | _ => exact ⟨rfl, rfl⟩
  | _ => exact ⟨rfl, rfl⟩

/-- A process sees what it saw before, or the current file. -/
theorem claimNext_seen {op : Effect} {answer : op.Answer} (move : worldStep pid world op answer after)
    {phase : Phase} {file : File (Dict String SignalClaim)}
    (read : (claimNext signalId phase op answer).seen = some file) :
    phase.seen = some file ∨ file = world.board .signalDedupe := by
  cases op with
  | read store =>
      cases store with
      | signalDedupe => exact .inr ((Option.some.inj read).symm.trans move.1)
      | _ => exact .inl read
  | write store data => cases store <;> exact .inl read
  | note point => cases point <;> exact .inl read
  | _ => exact .inl read

/-- Only an execution of the Signal adds an execution. -/
theorem executions_quiet {op : Effect} {answer : op.Answer}
    (other : ∀ now, op ≠ .note (.executing signalId now)) :
    executions signalId (.act pid ⟨op, answer⟩ :: history) = executions signalId history := by
  cases op with
  | note point =>
      cases point with
      | executing signal now =>
          have different : signal ≠ signalId := fun same => other now (same ▸ rfl)
          simp [executions, different]
      | _ => rfl
  | _ => rfl

/-- Each permitted operation keeps the invariant when the writer has seen every claim. -/
theorem holds_act (holds : Holds times signalId history phases world)
    (seen : (phases pid).seen = lastRead .signalDedupe pid history) {op : Effect} {answer : op.Answer}
    (permitted : claimGuard signalId (phases pid) op) (move : worldStep pid world op answer after)
    (meets : claimsSeen times history world (.act pid ⟨op, answer⟩)) :
    Holds times signalId (.act pid ⟨op, answer⟩ :: history)
      (Function.update phases pid (claimNext signalId (phases pid) op answer)) after := by
  by_cases writing : op.writes .signalDedupe = true
  · cases op with
    | write store data =>
        obtain rfl : store = .signalDedupe := by simpa [Effect.writes] using writing
        obtain rfl := move
        obtain ⟨file, read, written⟩ := permitted
        obtain ⟨fresh, ordered⟩ := meets rfl
        have last : lastRead .signalDedupe pid history = some file := seen ▸ read
        have same : live (times pid) (file.find? signalId) =
            live (times pid) ((world.board .signalDedupe).find? signalId) := by
          have seenFile : seenClaim pid history signalId = file.find? signalId := by
            simp [seenClaim, last]
          exact live_of_seen holds read (fun member => seenFile ▸ fresh signalId member) ordered
        have follows := written signalId
        rw [Written, holds.clock, same] at follows
        refine holds_write holds follows ordered (holds.clock pid) rfl fun unspent => ?_
        simp only [claimNext, Bool.or_eq_true] at unspent
        refine unspent.imp_right fun filled => ?_
        simp only [fills, read, holds.clock, same, Bool.and_eq_true, Option.isNone_iff_eq_none] at filled
        refine ⟨filled.1, ?_⟩
        rcases follows with kept | ⟨-, new⟩
        · rw [kept, filled.1] at filled
          cases filled.2
        · exact new
    | _ => cases writing
  · have quiet : op.writes .signalDedupe = false := by simpa using writing
    by_cases executing : ∃ now, op = .note (.executing signalId now)
    · obtain ⟨now, rfl⟩ := executing
      obtain ⟨unspent, rfl⟩ := permitted rfl
      obtain rfl := move
      rw [holds.clock pid]
      have spent := holds_execute holds unspent
      simpa [claimNext] using spent
    · have other : ∀ now, op ≠ .note (.executing signalId now) := fun now same => executing ⟨now, same⟩
      refine holds_quiet holds (worldStep_frame move quiet) (executions_quiet other) (by simp [writers, quiet]) ?_ ?_
      · intro process
        by_cases moved : process = pid
        · rw [moved, Function.update_self]
          exact claimNext_quiet quiet other _ _
        · rw [phase_of_update moved]
          exact ⟨rfl, rfl⟩
      · intro process file read
        by_cases moved : process = pid
        · subst process
          rw [Function.update_self] at read
          exact claimNext_seen move read
        · rw [phase_of_update moved] at read
          exact .inl read

end

/-- Each process routes one Signal with its own clock. -/
structure Arrival where
  signal : Signal
  timeout : Time
  now : Time

def Arrival.route (arrival : Arrival) : Py Router.Response :=
  Router.routeSignal arrival.signal arrival.timeout arrival.now

/-- No write erased a claim of the file whose window had not passed for the writer. -/
def NeverErased (times : Pid → Time) (start : File Store.signalDedupe.Data) : Chronicle → Prop
  | [] => True
  | .act pid ⟨.write .signalDedupe data, _⟩ :: history =>
      (∀ signalId claim, (fileAfter .signalDedupe start history).find? signalId = some claim →
        times pid - claim.claimedAt < window → Dict.get? data signalId = some claim) ∧
      NeverErased times start history
  | _ :: history => NeverErased times start history

/-- Each Signal is submitted at most once within a window, and no live claim of it is erased. -/
def SubmitsOnce (times : Pid → Time) (start : File Store.signalDedupe.Data) (history : Chronicle) : Prop :=
  (∀ signalId, (executions signalId history).Pairwise Apart) ∧ NeverErased times start history

section
variable {arrivals : Pid → Arrival} {board : Board} {history : Chronicle}
  {config : Config signature World Pid (Except Exc Router.Response)}

theorem phase_now (signalId : String) (times : Pid → Time) (history : Chronicle) (pid : Pid) :
    ((claimProtocol signalId).phase (startPhase times) history pid).now = times pid := by
  refine (claimProtocol signalId).phase_constant Phase.now ?_ _ history pid
  intro phase op answer
  cases op with
  | read store => cases store <;> rfl
  | write store data => cases store <;> rfl
  | note point => cases point <;> rfl
  | _ => rfl

theorem phase_seen (signalId : String) (times : Pid → Time) (history : Chronicle) (pid : Pid) :
    ((claimProtocol signalId).phase (startPhase times) history pid).seen = lastRead .signalDedupe pid history := by
  refine view_eq_lastRead (claimProtocol signalId) .signalDedupe Phase.seen ?_ (fun _ => rfl) history pid
  intro phase op answer
  cases op with
  | read store => cases store <;> rfl
  | write store data => cases store <;> rfl
  | note point => cases point <;> rfl
  | _ => rfl

theorem route_obeys (signalId : String) (pid : Pid) :
    (claimProtocol signalId).Obeys (arrivals pid).route.toProgram
      (startPhase (fun pid => (arrivals pid).now) pid) :=
  Fallible.wp_mono (Router.routeSignal_settles _ _ _ ⟨rfl, rfl⟩) fun _ _ _ _ => trivial

/-- A writer that has seen every claim erases no live one. -/
theorem never_erased
    (reached : Reaches worldSharing (claimsSeen fun pid => (arrivals pid).now)
      (fun pid => (arrivals pid).route.toProgram) (World.fresh board) history config) :
    config.shared.board .signalDedupe = fileAfter .signalDedupe (board .signalDedupe) history ∧
      NeverErased (fun pid => (arrivals pid).now) (board .signalDedupe) history := by
  let times : Pid → Time := fun pid => (arrivals pid).now
  refine (claimProtocol "").invariant (startPhase times) (route_obeys "")
    (fun history world => world.board .signalDedupe = fileAfter .signalDedupe (board .signalDedupe) history ∧
      NeverErased times (board .signalDedupe) history) ⟨rfl, trivial⟩ ?_ ?_ reached
  swap
  · exact fun history world pid held _ => held
  rintro history world pid op answer after ⟨current, kept⟩ _ permitted move meets
  refine ⟨fileAfter_act _ move current, ?_⟩
  cases op with
  | write store data =>
      cases store with
      | signalDedupe =>
          refine ⟨fun signalId claim stored young => ?_, kept⟩
          obtain ⟨file, read, written⟩ := permitted
          rw [phase_seen] at read
          rw [← current] at stored
          have member := (File.mem_keys_iff _ _).mpr (Option.isSome_iff_exists.mpr ⟨claim, stored⟩)
          have seen := (meets rfl).1 signalId member
          rw [seenClaim, read, Option.bind_some, stored] at seen
          have counts : live (times pid) (some claim) = some claim := by
            rw [live, Option.filter_some, if_pos (decide_eq_true young)]
          have follows := written signalId
          rw [seen, phase_now, Written, counts] at follows
          rcases follows with same | ⟨gone, -⟩
          · exact same
          · cases gone
      | _ => exact kept
  | _ => exact kept

end

/-- One Rule sends each manual Signal to an external Deployment. -/
def dedupeBoard : Board
  | .connections => .content (Dict.empty.set "local" ⟨"http://localhost", [], none⟩)
  | .rules => .content [⟨"answer", .manual, [], [], "local", "graph", "subject", []⟩]
  | _ => .missing

/-- Process 2 routes its own Signal while process 1 routes a redelivery of the Signal of process 0. -/
def redelivery (pid : Pid) : Arrival where
  signal := .external .manual (if pid = 2 then "other" else "event")
    [("subject", .str (if pid = 2 then "43" else "42"))]
  timeout := 120
  now := 0

/-- The redelivery arrives after the first Run has finished. -/
def separate : Option (Reached signature World Pid (Except Exc Router.Response)) :=
  calm.shared.play (claimsSeen fun pid => (redelivery pid).now) (fun pid => (redelivery pid).route) dedupeBoard
    (turnsOf 0 25 ++ turnsOf 2 12 ++ turnsOf 1 9)

/-- Process 2 reads before process 0 claims its Signal, and replaces the file after that. -/
def stale : Option (Reached signature World Pid (Except Exc Router.Response)) :=
  calm.shared.play anyStep (fun pid => (redelivery pid).route) dedupeBoard
    (turnsOf 2 8 ++ turnsOf 0 25 ++ turnsOf 2 1 ++ turnsOf 1 12)

end Cordboard.SignalDedupe
