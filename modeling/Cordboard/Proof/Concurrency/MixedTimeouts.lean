import Cordboard.Proof.Concurrency.TimeoutProtocol

namespace Cordboard.Timeouts
open Data Effects
open Router (healthTimeout staleClaimBuffer)
open LiveHold (window Reclaims)

/-- The claim that a process has announced and not yet written. -/
def announced (pid : Pid) : Chronicle → Option Stamp
  | [] => none
  | .act other event :: history =>
      if other = pid then nextStamp (announced pid history) event.1 else announced pid history
  | .crash _ :: history => announced pid history

/-- The process that last took the claim of this pair. -/
def takenBy (key : Key) : Chronicle → Option Pid
  | [] => none
  | .act pid ⟨.write .concurrency _, _⟩ :: history =>
      if announced pid history = some ⟨key, true⟩ then some pid else takenBy key history
  | _ :: history => takenBy key history

/-- The process that last took or renewed the claim of this pair. -/
def stampedBy (key : Key) : Chronicle → Option Pid
  | [] => none
  | .act pid ⟨.write .concurrency _, _⟩ :: history =>
      if (announced pid history).map Stamp.key = some key then some pid else stampedBy key history
  | _ :: history => stampedBy key history

/-- The file of the claims after a history. -/
def recorded (start : File Store.concurrency.Data) : Chronicle → File Store.concurrency.Data
  | [] => start
  | .act _ ⟨.write .concurrency data, _⟩ :: _ => .content data
  | _ :: history => recorded start history

/-- A recorded claim is taken over only when the window of its taker has passed since the claim was last taken or
renewed. -/
def Protected (timings : Pid → Timing) (start : File Store.concurrency.Data) : Chronicle → Prop
  | [] => True
  | .act pid event :: history =>
      (∀ stamp ∈ stampOf event.1, stamp.taken = true → ((recorded start history).find? stamp.key).isSome = true →
        ∀ taker ∈ takenBy stamp.key history, ∀ last ∈ stampedBy stamp.key history,
          (timings taker).timeout + healthTimeout + staleClaimBuffer ≤ (timings pid).now - (timings last).now) ∧
        Protected timings start history
  | .crash _ :: history => Protected timings start history

instance decidableProtected (timings : Pid → Timing) (start : File Store.concurrency.Data) :
    (history : Chronicle) → Decidable (Protected timings start history)
  | [] => .isTrue trivial
  | .act pid event :: history =>
      have : Decidable (Protected timings start history) := decidableProtected timings start history
      inferInstanceAs (Decidable ((∀ stamp ∈ stampOf event.1, stamp.taken = true →
        ((recorded start history).find? stamp.key).isSome = true → ∀ taker ∈ takenBy stamp.key history,
          ∀ last ∈ stampedBy stamp.key history,
            (timings taker).timeout + healthTimeout + staleClaimBuffer ≤ (timings pid).now - (timings last).now) ∧
        Protected timings start history))
  | .crash _ :: history => decidableProtected timings start history

/-- An arrival that takes a recorded claim over has at least the timeout of the process that took the claim. -/
def longerTakers (timings : Pid → Timing) : StepCondition
  | history, world, .act pid event => ∀ stamp ∈ stampOf event.1, stamp.taken = true →
      ((world.board .concurrency).find? stamp.key).isSome = true → ∀ taker ∈ takenBy stamp.key history,
        (timings taker).timeout ≤ (timings pid).timeout
  | _, _, .crash _ => True

instance (timings : Pid → Timing) : (history : Chronicle) → (world : World) → (label : Label signature Pid) →
    Decidable (longerTakers timings history world label)
  | history, world, .act pid event => inferInstanceAs (Decidable (∀ stamp ∈ stampOf event.1, stamp.taken = true →
      ((world.board .concurrency).find? stamp.key).isSome = true → ∀ taker ∈ takenBy stamp.key history,
        (timings taker).timeout ≤ (timings pid).timeout))
  | _, _, .crash _ => .isTrue trivial

section
variable {timings : Pid → Timing} {start : File Store.concurrency.Data} {history : Chronicle} {world after : World}
  {pid : Pid} {op : Effect} {answer : op.Answer}

/-- The history determines the phase of each process. -/
abbrev phaseOf (timings : Pid → Timing) (history : Chronicle) (pid : Pid) : Phase :=
  timeouts.phase (fun pid => idle (timings pid)) history pid

theorem phaseOf_timing (timings : Pid → Timing) (history : Chronicle) (pid : Pid) :
    (phaseOf timings history pid).timing = timings pid :=
  timeouts.phase_constant Phase.timing (fun _ _ _ => rfl) _ history pid

theorem phaseOf_stamp (timings : Pid → Timing) (history : Chronicle) (pid : Pid) :
    (phaseOf timings history pid).stamp = announced pid history := by
  induction history with
  | nil => rfl
  | cons label history ih =>
      cases label with
      | crash other => exact ih
      | act other event =>
          by_cases same : pid = other
          · subst other
            rw [phaseOf, Protocol.phase_act_self]
            simp only [announced, if_true]
            rw [← ih]
            rfl
          · rw [phaseOf, Protocol.phase_act_of_ne _ _ same]
            simp only [announced, Ne.symm same, if_false]
            exact ih

/-- An operation that does not write the claims keeps the ledger and the file. -/
theorem stampedBy_quiet (unwritten : op.writes .concurrency = false) (key : Key) :
    stampedBy key (.act pid ⟨op, answer⟩ :: history) = stampedBy key history := by
  cases op with
  | write store data => cases store <;> first | rfl | cases unwritten
  | _ => rfl

theorem recorded_quiet (unwritten : op.writes .concurrency = false) :
    recorded start (.act pid ⟨op, answer⟩ :: history) = recorded start history := by
  cases op with
  | write store data => cases store <;> first | rfl | cases unwritten
  | _ => rfl

/-- The file agrees with the ledger: each record has the time of the process that wrote it last. -/
structure Holds (timings : Pid → Timing) (start : File Store.concurrency.Data) (history : Chronicle) (world : World) :
    Prop where
  fresh : monitor.Fresh history (fun pid => (phaseOf timings history pid).visit) world
  file : world.board .concurrency = recorded start history
  stamped : ∀ key record last, (recorded start history).find? key = some record → stampedBy key history = some last →
    record.claimedAt = (timings last).now
  safe : Protected timings start history

theorem holds_start (board : Board) : Holds timings (board .concurrency) [] (World.fresh board) where
  fresh := Monitor.fresh_start monitor _
  file := rfl
  stamped _ _ _ _ last := by cases last
  safe := trivial

/-- The visits of the processes follow the monitor. -/
theorem visits_act (timings : Pid → Timing) (history : Chronicle) (pid : Pid) (op : Effect) (answer : op.Answer) :
    (fun other => (phaseOf timings (.act pid ⟨op, answer⟩ :: history) other).visit) =
      Function.update (fun other => (phaseOf timings history other).visit) pid
        (monitor.visit (fun other => (phaseOf timings history other).visit) pid op answer) := by
  funext other
  by_cases same : other = pid
  · subst other
    rw [Function.update_self, phaseOf, Protocol.phase_act_self]
    rfl
  · rw [Function.update_of_ne same, phaseOf, Protocol.phase_act_of_ne _ _ same]

/-- An arrival with a longer window finds no claim that is live for its taker. -/
theorem protected_act (holds : Holds timings start history world) (running : Label.crash pid ∉ history)
    (permitted : timeoutGuard (phaseOf timings history pid) op)
    (meets : longerTakers timings history world (.act pid ⟨op, answer⟩)) :
    Protected timings start (.act pid ⟨op, answer⟩ :: history) := by
  refine ⟨?_, holds.safe⟩
  rintro ⟨key, taken⟩ announces rfl present taker takes last stamps
  obtain ⟨file, loaded, stale⟩ := permitted.2.1 key announces
  have current : world.board .concurrency = file := holds.fresh.current pid file running loaded
  have longer := meets _ announces rfl (by rw [holds.file]; exact present) taker takes
  obtain ⟨record, found⟩ := Option.isSome_iff_exists.mp present
  have time := holds.stamped key record last found stamps
  rw [← current, holds.file, found, phaseOf_timing] at stale
  simp only [Concurrency.isLive, decide_eq_false_iff_not, not_lt, window, time] at stale
  linarith

/-- Each permitted step keeps the ledger. -/
theorem holds_act (holds : Holds timings start history world) (running : Label.crash pid ∉ history)
    (permitted : timeoutGuard (phaseOf timings history pid) op) (move : worldStep pid world op answer after)
    (meets : longerTakers timings history world (.act pid ⟨op, answer⟩)) :
    Holds timings start (.act pid ⟨op, answer⟩ :: history) after := by
  have fresh := holds.fresh.act running permitted.1 move
  rw [← visits_act] at fresh
  have safe := protected_act holds running permitted meets
  cases unwritten : op.writes .concurrency with
  | false =>
      refine ⟨fresh, ?_, ?_, safe⟩
      · rw [worldStep_frame move unwritten, holds.file, recorded_quiet unwritten]
      · intro key record last found stamps
        rw [recorded_quiet unwritten] at found
        rw [stampedBy_quiet unwritten] at stamps
        exact holds.stamped key record last found stamps
  | true =>
      cases op with
      | write store data =>
          obtain rfl : store = .concurrency := of_decide_eq_true unwritten
          obtain rfl : after = world.write .concurrency data := move
          obtain ⟨file, loaded, keeps⟩ := permitted.2.2
          have current : world.board .concurrency = file := holds.fresh.current pid file running loaded
          refine ⟨fresh, world.board.put_self .concurrency data, ?_, safe⟩
          intro key record last found stamps
          have kept := keeps key record found
          rw [phaseOf_stamp, phaseOf_timing] at kept
          simp only [stampedBy] at stamps
          split at stamps
          · rename_i own
            obtain rfl := Option.some.inj stamps
            rw [if_pos own] at kept
            exact kept
          · rename_i other
            rw [if_neg other, ← current, holds.file] at kept
            exact holds.stamped key record last kept stamps
      | _ => cases unwritten

theorem holds_crash (holds : Holds timings start history world) (pid : Pid) :
    Holds timings start (.crash pid :: history) (world.stop pid) where
  fresh := holds.fresh.crash pid
  file := holds.file
  stamped := holds.stamped
  safe := holds.safe

end

/-- An arrival at any time leaves a claim alone for the window of its taker exactly when its own timeout is at least the
timeout of the taker. -/
theorem spares_iff {board : Board} {assistant subject : String} {claimedAt : Time}
    {data : Dict (String × String) ConcurrencyClaim} (named : checkTexts .concurrency [("assistant", assistant), ("subject", subject)] = .ok ())
    (stored : board .concurrency = .content data) (claimed : data.get? (assistant, subject) = some ⟨claimedAt⟩)
    (timeout arriving : Time) :
    (∀ clock, Reclaims arriving ⟨assistant, subject, clock, clock, board⟩ clock →
      timeout + healthTimeout + staleClaimBuffer ≤ clock - claimedAt) ↔ timeout ≤ arriving := by
  have decides (clock : Time) : Reclaims arriving ⟨assistant, subject, clock, clock, board⟩ clock ↔
      window arriving ≤ clock - claimedAt := LiveHold.reclaims_iff named stored claimed
  simp only [decides, window]
  constructor
  · intro spares
    have passed := spares (claimedAt + (arriving + healthTimeout + staleClaimBuffer)) (by linarith)
    linarith
  · intro longer clock passed
    linarith

/-- Sources, sweeps, and operators act with timeouts and clock readings of their own. When no arrival takes a claim over
with a shorter timeout than the process that took it, each recorded claim stays for the window of its taker. Arrivals at
every time spare a recorded claim for the window of a timeout exactly when their own timeout is at least that long. -/
theorem mixed_timeouts_protect (operations : Pid → Operation) (board : Board) {history : Chronicle}
    {config : Config signature World Pid Unit}
    (reached : Reaches worldSharing (longerTakers fun pid => timingOf (operations pid))
      (fun pid => (operations pid).perform) (World.fresh board) history config) :
    Protected (fun pid => timingOf (operations pid)) (board .concurrency) history ∧
      ∀ assistant subject claimedAt data, config.shared.board .concurrency = .content data →
        checkTexts .concurrency [("assistant", assistant), ("subject", subject)] = .ok () →
        Dict.get? data (assistant, subject) = some ⟨claimedAt⟩ → ∀ timeout arriving,
          (∀ clock, Reclaims arriving ⟨assistant, subject, clock, clock, config.shared.board⟩ clock →
            timeout + healthTimeout + staleClaimBuffer ≤ clock - claimedAt) ↔ timeout ≤ arriving := by
  let timings (pid : Pid) : Timing := timingOf (operations pid)
  have holds : Holds timings (board .concurrency) history config.shared := by
    apply timeouts.invariant (fun pid => idle (timings pid)) (fun pid => perform_obeys (operations pid))
      (Holds timings (board .concurrency)) (holds_start board) _ _ reached
    · intro history world pid op answer after holds running permitted move meets
      exact holds_act holds running permitted move meets
    · intro history world pid holds _
      exact holds_crash holds pid
  exact ⟨holds.safe, fun _ _ _ _ stored named claimed => spares_iff named stored claimed⟩

/-- The first arrival has a timeout of 120 seconds. The second one has a timeout of its own and arrives later. -/
def arrivals (timeout now : Time) (pid : Pid) : Operation :=
  if pid = 0 then .route .manual "event-0" [("subject", .str "42")] 120 0
  else .route .manual "event-1" [("subject", .str "42")] timeout now

/-- The second arrival finds the claim of the first one, which is still in flight. -/
def overtaking (condition : StepCondition) [∀ history world label, Decidable (condition history world label)]
    (timeout now : Time) : Option (Reached signature World Pid Unit) :=
  calm.shared.scheduler.run condition (turnsOf 0 11 ++ turnsOf 1 7)
    ⟨[], ⟨World.fresh LiveHold.chainBoard, fun pid => some (arrivals timeout now pid).perform⟩⟩

theorem overtaking_reaches {condition : StepCondition} [∀ history world label, Decidable (condition history world label)]
    {timeout now : Time} {reached : Reached signature World Pid Unit}
    (played : overtaking condition timeout now = some reached) :
    Reaches worldSharing condition (fun pid => (arrivals timeout now pid).perform) (World.fresh LiveHold.chainBoard)
      reached.history reached.config :=
  calm.shared.scheduler.run_reaches condition .start played

/-- The claim of these arrivals was taken by the process. -/
def takenIn (pid : Pid) (reached : Reached signature World Pid Unit) : Bool :=
  takenBy ("first", "42") reached.history = some pid

/-- The second arrival has the longer timeout, and it takes the claim over when both windows have passed. -/
theorem mixed_timeouts_protect_longer :
    ∃ reached, overtaking (longerTakers fun pid => timingOf (arrivals 300 400 pid)) 300 400 = some reached ∧
      takenBy ("first", "42") reached.history = some 1 ∧
      Protected (fun pid => timingOf (arrivals 300 400 pid)) (LiveHold.chainBoard .concurrency) reached.history := by
  obtain ⟨reached, played⟩ := Option.isSome_iff_exists.mp
    (show (overtaking (longerTakers fun pid => timingOf (arrivals 300 400 pid)) 300 400).isSome = true by decide +kernel)
  have taken : (overtaking (longerTakers fun pid => timingOf (arrivals 300 400 pid)) 300 400).map (takenIn 1) =
      some true := by decide +kernel
  rw [played] at taken
  exact ⟨reached, played, of_decide_eq_true (Option.some.inj taken),
    (mixed_timeouts_protect (arrivals 300 400) LiveHold.chainBoard (overtaking_reaches played)).1⟩

/-- An arrival with a timeout of 5 seconds takes the claim over after 80 seconds, while its holder with a timeout of 120
seconds executes. -/
theorem shorter_timeout_reclaims : ∃ history config,
    Reaches worldSharing anyStep (fun pid => (arrivals 5 80 pid).perform) (World.fresh LiveHold.chainBoard) history config ∧
      ¬ Protected (fun pid => timingOf (arrivals 5 80 pid)) (LiveHold.chainBoard .concurrency) history := by
  obtain ⟨reached, played⟩ := Option.isSome_iff_exists.mp
    (show (overtaking anyStep 5 80).isSome = true by decide +kernel)
  have early : (overtaking anyStep 5 80).map (fun reached => decide (Protected
      (fun pid => timingOf (arrivals 5 80 pid)) (LiveHold.chainBoard .concurrency) reached.history)) = some false := by
    decide +kernel
  rw [played] at early
  exact ⟨reached.history, reached.config, overtaking_reaches played, of_decide_eq_false (Option.some.inj early)⟩

end Cordboard.Timeouts
