import Cordboard.Proof.Deployment.ClaimLedger
import Mathlib.Algebra.Order.Ring.Rat

namespace Cordboard.IdleWindow
open Data Effects DeploymentLifecycle ClaimLedger

/-- Each number of an event comes with the claims that are outstanding from this event to the next. -/
abbrev History := List (Nat × List Claim)

section
variable (clock : Nat → Time)

/-- A claim on the Deployment is held at this instant. -/
def HeldAt (history : History) (deployment : String) (instant : Time) : Prop :=
  ∃ entry ∈ history, (∃ claim ∈ entry.2, claim.deployment = deployment) ∧
    clock entry.1 ≤ instant ∧ instant < clock (entry.1 + 1)

/-- Each claim on the Deployment has ended by this instant. -/
def EndedBy (history : History) (deployment : String) (instant : Time) : Prop :=
  ∀ entry ∈ history, (∃ claim ∈ entry.2, claim.deployment = deployment) → clock (entry.1 + 1) ≤ instant

end

/-- A stop has the time of its pass, the idle window of its Deployment, and the history up to it. -/
structure Stop where
  deployment : String
  now : Time
  window : Time
  history : History

/-- No claim was held in the idle window before the stop. -/
def Stop.Idle (clock : Nat → Time) (stop : Stop) : Prop :=
  ∀ instant, stop.now - stop.window ≤ instant → instant ≤ stop.now →
    ¬ HeldAt clock stop.history stop.deployment instant

/-- A session counts its events. The operation that acts began at an event, and it carries its own time. -/
structure Timing where
  ledger : Ledger
  events : Nat
  began : Nat
  now : Time
  connections : Dict String Connection
  history : History
  stops : List Stop

/-- A claim that its call keeps without a record belongs to nobody after the call. -/
def leave (id : Nat) (claim : Claim) : Claim :=
  match claim.claimant with
  | .inner (.entry ..) => claim
  | .inner _ => { claim with claimant := .call id }
  | .call _ => claim

/-- The record of a hop or of a submission takes over the claim of its call. -/
def inherit (ledger : Ledger) (deployment threadId : String) (cascadeDepth : Nat) : Ledger :=
  if (ledger.held deployment (.hop cascadeDepth)).isSome then ledger.pass deployment threadId (.hop cascadeDepth)
  else ledger.pass deployment threadId .submission

/-- The ledger of a session also follows the records of submissions. -/
def book (ledger : Ledger) : (op : Effect) → op.Answer → Ledger
  | .note (.pendingChanged deployment threadId (.recorded _ new)), _ =>
      if new.deploymentHeld then inherit ledger deployment threadId new.cascadeDepth else ledger
  | op, answer => ledger.next op answer

/-- The idle window of a Deployment. -/
def windowOf (connections : Dict String Connection) (deployment : String) : Time :=
  ((connections.get? deployment).bind Connection.idleAfter).getD defaultIdleAfter

namespace Timing

variable (timing : Timing)

/-- A stop is logged with what was held before it. -/
def stopsAfter : Effect → List Stop
  | .call (.stop deployment _) =>
      ⟨deployment, timing.now, windowOf timing.connections deployment, timing.history⟩ :: timing.stops
  | _ => timing.stops

/-- One event passes. -/
def tick (ledger : Ledger) (stops : List Stop) : Timing :=
  { timing with
    ledger := ledger
    events := timing.events + 1
    history := (timing.events, ledger.claims) :: timing.history
    stops := stops }

def next (op : Effect) (answer : op.Answer) : Timing := timing.tick (book timing.ledger op answer) (timing.stopsAfter op)

/-- An operation carries the reading of the clock at its start. An execution and a resume end by their timeouts. -/
def real (clock : Nat → Time) : Effect → Prop
  | .call (.execute _ _ _ _ timeout _ _) =>
      timing.now = clock timing.began ∧ clock (timing.events + 1) - clock timing.events ≤ timeout
  | .call (.lastPoll _ _ _ timeout) =>
      timing.now = clock timing.began ∧ clock (timing.events + 1) - clock timing.events ≤ timeout
  | _ => timing.now = clock timing.began

/-- A release that ends the last claim on its Deployment happens at the time that its operation carries. -/
def prompt (clock : Nat → Time) : Effect → Prop
  | .note (.activityReleased deployment holder effective) => timing.ledger.outstanding deployment ≠ 0 →
      (timing.ledger.giveBack deployment holder effective).outstanding deployment = 0 → clock timing.events = timing.now
  | _ => True

end Timing

/-- A condition limits the steps of a timed session. -/
abbrev TimedLimit := Timing → (op : Effect) → op.Answer → Prop

/-- Each operation is on a real clock. -/
def realTime (clock : Nat → Time) : TimedLimit := fun timing op _ => timing.real clock op

/-- The releases are prompt, and the steps are entitled to what they do to the claims. -/
def promptTime (clock : Nat → Time) : TimedLimit :=
  fun timing op answer => timing.real clock op ∧ timing.prompt clock op ∧ timing.ledger.entitled op answer

abbrev timedWatch (limit : TimedLimit) : Watch boardMachine where
  Phase := Timing
  next := Timing.next
  meets _ timing op answer := limit timing op answer
  safe _ _ := True

/-- The time that an operation carries. -/
def operationTime : Operation → Time
  | .route _ _ _ _ now => now
  | .sweep _ now => now
  | .submit submission _ => submission.now

/-- An operation acts on the board, or a pass stops the idle Deployments. -/
inductive Action where
  | operate (operation : Operation)
  | stop (connections : Dict String Connection) (now : Time)

def Action.perform : Action → Program signature Unit
  | .operate operation => operation.perform
  | .stop connections now => discard (stopIdle connections now)

def Action.now : Action → Time
  | .operate operation => operationTime operation
  | .stop _ now => now

def Action.connections : Action → Dict String Connection
  | .operate _ => Dict.empty
  | .stop connections _ => connections

/-- The claims that earlier calls left without a record belong to nobody. -/
def retire (ledger : Ledger) (id : Nat) : Ledger := { ledger with claims := ledger.claims.map (leave id) }

def prepare (action : Action) (timing : Timing) : Timing :=
  { timing with
    ledger := retire timing.ledger timing.events
    began := timing.events
    now := action.now
    connections := action.connections }

abbrev actions (limit : TimedLimit) : Service boardMachine Action Unit where
  watch := timedWatch limit
  task := Action.perform
  prepare := prepare

/-- A session starts with the claims of the held entries. -/
def openedAt (board : Board) : Timing := ⟨opened board, 0, 0, 0, Dict.empty, [], []⟩

/-- The claims have ended by the time of the operation, and by the last activity of each idle Deployment. Each stop so
far kept the idle window. -/
structure Stamped (clock : Nat → Time) (now : Time) (state : Board × Timing) : Prop where
  current : state.2.now = now
  logged : ∀ entry ∈ state.2.history, entry.1 < state.2.events
  ended : now = clock state.2.began → ∀ deployment, state.2.ledger.outstanding deployment = 0 →
    EndedBy clock state.2.history deployment now
  stamped : ∀ deployment record, (state.1 .lifecycle).find? deployment = some record → record.status = .running →
    state.2.ledger.outstanding deployment = 0 → record.activeRuns = 0 →
    EndedBy clock state.2.history deployment record.lastActive
  idle : ∀ stop ∈ state.2.stops, stop.Idle clock

/-- The counters cover the claims, and the claims are stamped. -/
structure Honoured (clock : Nat → Time) (now : Time) (state : Board × Timing) : Prop where
  sound : Sound (state.1, state.2.ledger)
  stamped : Stamped clock now state

section
variable {clock : Nat → Time} {now : Time} {board after : Board} {timing : Timing} {ledger : Ledger} {stops : List Stop}

/-- A Deployment without outstanding claims is not in a new entry of the history. -/
theorem unclaimed_iff {deployment : String} : ledger.outstanding deployment = 0 ↔
    ¬ ∃ claim ∈ ledger.claims, claim.deployment = deployment := by
  simp [Ledger.outstanding, List.countP_eq_zero]

/-- Each entry of the history ends before the next event. -/
theorem Stamped.before (stamped : Stamped clock now (board, timing)) (monotone : Monotone clock) (deployment : String) :
    EndedBy clock timing.history deployment (clock timing.events) := by
  intro entry member _
  have earlier := stamped.logged entry member
  exact monotone earlier

theorem EndedBy.tick {history : History} {deployment : String} {instant : Time}
    (ended : EndedBy clock history deployment instant) (unclaimed : ledger.outstanding deployment = 0) (event : Nat) :
    EndedBy clock ((event, ledger.claims) :: history) deployment instant := by
  intro entry member held
  rcases List.mem_cons.mp member with rfl | older
  · exact absurd held (unclaimed_iff.mp unclaimed)
  · exact ended entry older held

/-- One event keeps the stamps when a last claim ends at the time of the operation and each new stamp is this time. -/
theorem Stamped.advance (stamped : Stamped clock now (board, timing)) (monotone : Monotone clock)
    (ends : ∀ deployment, ledger.outstanding deployment = 0 → timing.ledger.outstanding deployment ≠ 0 →
      clock timing.events = now)
    (idle : ∀ stop ∈ stops, stop.Idle clock)
    (records : ∀ deployment record, (after .lifecycle).find? deployment = some record → record.status = .running →
      ledger.outstanding deployment = 0 → record.activeRuns = 0 →
      ((board .lifecycle).find? deployment = some record ∧ timing.ledger.outstanding deployment = 0) ∨
        (record.lastActive = now ∧ now = clock timing.began)) :
    Stamped clock now (after, timing.tick ledger stops) := by
  have ended : now = clock timing.began → ∀ deployment, ledger.outstanding deployment = 0 →
      EndedBy clock ((timing.events, ledger.claims) :: timing.history) deployment now := by
    intro aligned deployment unclaimed
    apply EndedBy.tick ?_ unclaimed
    by_cases before : timing.ledger.outstanding deployment = 0
    · exact stamped.ended aligned deployment before
    · rw [← ends deployment unclaimed before]
      exact stamped.before monotone deployment
  refine ⟨stamped.current, ?_, ended, ?_, idle⟩
  · intro entry member
    rcases List.mem_cons.mp member with rfl | older
    · exact Nat.lt_succ_self _
    · exact Nat.lt_succ_of_lt (stamped.logged entry older)
  · intro deployment record stored running unclaimed free
    rcases records deployment record stored running unclaimed free with ⟨old, before⟩ | ⟨new, aligned⟩
    · exact (stamped.stamped deployment record old running before free).tick unclaimed _
    · rw [new]
      exact ended aligned deployment unclaimed

/-- An event that keeps the file and ends no claim keeps the stamps. -/
theorem Stamped.quiet (stamped : Stamped clock now (board, timing)) (monotone : Monotone clock)
    (same : after .lifecycle = board .lifecycle)
    (more : ∀ deployment, timing.ledger.outstanding deployment ≤ ledger.outstanding deployment) :
    Stamped clock now (after, timing.tick ledger timing.stops) := by
  apply stamped.advance monotone
  · intro deployment unclaimed before
    have fewer := more deployment
    omega
  · exact stamped.idle
  · intro deployment record stored _ unclaimed _
    have fewer := more deployment
    rw [same] at stored
    exact .inl ⟨stored, by omega⟩

/-- One written record keeps the stamps when it is busy, stopped, or stamped with the time of the operation. -/
theorem Stamped.write (stamped : Stamped clock now (board, timing)) (monotone : Monotone clock)
    {data : Dict String LifecycleRecord} (decoded : decode .lifecycle (board .lifecycle) = .ok data)
    {deployment : String} {record : LifecycleRecord} (aligned : timing.now = clock timing.began)
    (new : record.status = .running → record.lastActive = now) :
    Stamped clock now (board.put .lifecycle (Store.lifecycle.sorted (data.set deployment record)),
      timing.tick timing.ledger timing.stops) := by
  apply stamped.advance monotone
  · exact fun deployment unclaimed before => absurd unclaimed before
  · exact stamped.idle
  · intro other stored present running unclaimed _
    rw [Board.put_self, File.find?_content, get?_sorted, Dict.get?_set] at present
    split at present
    · obtain rfl := Option.some.inj present
      exact .inr ⟨new running, stamped.current.symm.trans aligned⟩
    · exact .inl ⟨(find?_of_decode decoded other).trans present, unclaimed⟩

end

end Cordboard.IdleWindow
