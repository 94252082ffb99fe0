import Cordboard.Effects.Watch
import Cordboard.Proof.Frame
import Cordboard.Proof.Script
import Cordboard.Proof.Records
import Mathlib.Tactic.Linarith

namespace Cordboard.LiveHold
open Data Effects Router

/-- One `execute` was called at one clock reading and returned at another. The board is the one that it found. -/
structure Flight where
  assistant : String
  subject : String
  departed : Time
  landed : Time
  board : Board

/-- One process acts on the board while the clock runs. -/
structure Timed where
  board : Board
  clock : Time
  flights : List Flight

/-- Each `execute` leaves its flight. -/
def flown (state : Timed) (landed : Time) : Effect → List Flight
  | .call (.execute _ assistant subject _ _ _ _) =>
      state.flights ++ [⟨assistant, subject, state.clock, landed, state.board⟩]
  | _ => state.flights

/-- Each operation may take any time. -/
def timedStep (state : Timed) (op : Effect) (answer : op.Answer) (after : Timed) : Prop :=
  boardStep state.board op answer after.board ∧ state.clock ≤ after.clock ∧ after.flights = flown state after.clock op

abbrev timedMachine : Machine signature Timed := ⟨fun _ _ => True, timedStep⟩

/-- A claim stays live for this long. -/
def window (timeout : Time) : Time := timeout + healthTimeout + staleClaimBuffer

/-- Another arrival at this clock reading takes the claim of the flight. -/
def Reclaims (timeout : Time) (flight : Flight) (clock : Time) : Prop :=
  ∃ holder trace after, Runs boardMachine
    (Concurrency.tryClaim flight.assistant flight.subject clock (window timeout) holder).toProgram
    flight.board trace (.ok true) after

/-- The claim of a flight is never reclaimed in flight exactly when the flight lands inside the window that starts
with the whole call. -/
def Sound (timeout now : Time) (flight : Flight) : Prop :=
  (∀ clock, flight.departed ≤ clock → clock ≤ flight.landed → ¬ Reclaims timeout flight clock) ↔
    flight.landed < now + window timeout

/-- Each flight so far is sound. -/
def AllSound (timeout now : Time) (state : Timed) : Prop := ∀ flight ∈ state.flights, Sound timeout now flight

/-- The board holds the claim of the pair with the time of the call. -/
structure Held (timeout now : Time) (assistant subject : String) (state : Timed) : Prop where
  sound : AllSound timeout now state
  named : checkTexts .concurrency [("assistant", assistant), ("subject", subject)] = .ok ()
  claimed : ∃ data, state.board .concurrency = .content data ∧ data.get? (assistant, subject) = some ⟨now⟩

/-- The time of the recorded claim decides an arrival. -/
theorem tryClaim_decides {board : Board} {assistant subject : String} {now clock timeout : Time} {holder : Holder}
    {data : Dict (String × String) ConcurrencyClaim}
    (named : checkTexts .concurrency [("assistant", assistant), ("subject", subject)] = .ok ())
    (stored : board .concurrency = .content data) (claimed : data.get? (assistant, subject) = some ⟨now⟩) :
    Fallible.wp boardMachine (Concurrency.tryClaim assistant subject clock (window timeout) holder)
      (fun _ outcome _ => outcome = .ok (decide (window timeout ≤ clock - now))) board := by
  have decoded : decode .concurrency (board .concurrency) = .ok data := by rw [stored]; rfl
  have known (other : Dict (String × String) ConcurrencyClaim)
      (same : decode .concurrency (board .concurrency) = .ok other) :
      Concurrency.isLive (other.get? (assistant, subject)) clock (window timeout) =
        decide (clock - now < window timeout) := by
    obtain rfl : data = other := Except.ok.inj (decoded.symm.trans same)
    rw [claimed]
    rfl
  apply Concurrency.tryClaim_ends
  · intro other _ same stale
    have passed : window timeout ≤ clock - now := by simpa [known other same] using stale
    simp [passed]
  · intro other same live
    have young : clock - now < window timeout := by simpa [known other same] using live
    simp [young]
  · rintro exc (unnamed | unread)
    · rw [named] at unnamed
      cases unnamed
    · rw [decoded] at unread
      cases unread

/-- An arrival reclaims a recorded claim exactly when its window has passed. -/
theorem reclaims_iff {timeout now clock : Time} {flight : Flight} {data : Dict (String × String) ConcurrencyClaim}
    (named : checkTexts .concurrency [("assistant", flight.assistant), ("subject", flight.subject)] = .ok ())
    (stored : flight.board .concurrency = .content data)
    (claimed : data.get? (flight.assistant, flight.subject) = some ⟨now⟩) :
    Reclaims timeout flight clock ↔ window timeout ≤ clock - now := by
  constructor
  · rintro ⟨holder, trace, after, run⟩
    have decides := Fallible.wp_runs (tryClaim_decides named stored claimed) run
    exact of_decide_eq_true (Except.ok.inj decides).symm
  · intro passed
    have run := calm.exec_runs (Concurrency.tryClaim flight.assistant flight.subject clock (window timeout)
      .submission) flight.board
    have decides := Fallible.wp_runs (tryClaim_decides named stored claimed) run
    rw [decides, decide_eq_true passed] at run
    exact ⟨_, _, _, run⟩

/-- The machine permits an operation only when each flight so far is sound. -/
abbrev soundMachine (timeout now : Time) : Machine signature Timed := timedMachine.guarded (AllSound timeout now)

section
variable {timeout now : Time} {assistant subject : String} {A : Type}

/-- Only an execution leaves a flight. -/
theorem flown_outside (state : Timed) (landed : Time) {op : Effect} (outside : op.area ≠ .execution) :
    flown state landed op = state.flights := by
  cases op with
  | call target => cases target <;> first | rfl | exact absurd rfl outside
  | _ => rfl

/-- A program that does not execute keeps the flights sound. -/
theorem keeps_sound {areas : List Area} {program : Py A} (within : Within areas program) (grounded : .execution ∉ areas) :
    Fallible.Keeps (soundMachine timeout now) (AllSound timeout now) program := by
  apply Fallible.keeps_of_uses (Fallible.Uses.mono within ?_)
  intro op inside state sound
  refine ⟨⟨trivial, sound⟩, ?_⟩
  rintro answer after ⟨_, _, flights⟩
  rw [flown_outside state after.clock fun same => grounded (same ▸ inside)] at flights
  rw [AllSound, flights]
  exact sound

/-- A program that does not execute runs as it does without the clock. -/
theorem wp_grounded {program : Program signature A} (grounded : program.Uses fun op : Effect => op.area ≠ .execution)
    {post : List signature.Event → A → Board → Prop} {state : Timed} (pre : program.wp boardMachine post state.board)
    (sound : AllSound timeout now state) :
    program.wp (soundMachine timeout now)
      (fun trace value after => post trace value after.board ∧ AllSound timeout now after) state := by
  induction program generalizing post state with
  | pure value => exact ⟨pre, sound⟩
  | perform op next ih =>
      refine ⟨⟨trivial, sound⟩, ?_⟩
      rintro answer after ⟨move, _, flights⟩
      rw [flown_outside state after.clock grounded.1] at flights
      refine ih answer (grounded.2 answer) (pre.2 answer after.board move) ?_
      rw [AllSound, flights]
      exact sound

/-- A program that neither executes nor touches the claims keeps the claim. -/
theorem keeps_held {areas : List Area} {program : Py A} (within : Within areas program) (grounded : .execution ∉ areas)
    (aside : .store .concurrency ∉ areas) :
    Fallible.Keeps (soundMachine timeout now) (Held timeout now assistant subject) program := by
  apply Fallible.keeps_of_uses (Fallible.Uses.mono within ?_)
  intro op inside state held
  refine ⟨⟨trivial, held.sound⟩, ?_⟩
  rintro answer after ⟨move, _, flights⟩
  rw [flown_outside state after.clock fun same => grounded (same ▸ inside)] at flights
  have kept : after.board .concurrency = state.board .concurrency :=
    boardStep_frame move (writes_of_area fun same => aside (same ▸ inside))
  refine ⟨?_, held.named, ?_⟩
  · rw [AllSound, flights]
    exact held.sound
  · rw [kept]
    exact held.claimed

/-- A note keeps the claim. -/
theorem note_held (point : Note) :
    Fallible.Keeps (soundMachine timeout now) (Held timeout now assistant subject) (note point) := by
  intro state held
  rw [wp_note]
  refine ⟨⟨trivial, held.sound⟩, ?_⟩
  rintro after ⟨move, _, flights⟩
  have still : after.board = state.board := move
  refine ⟨?_, held.named, still ▸ held.claimed⟩
  rw [AllSound, flights]
  exact held.sound

/-- The flight of a held claim is sound. -/
theorem execute_held (endpoint : String) (graphInput : List (String × Json)) (wait : Time) (causedByRunId : Option String)
    (cascadeDepth : Nat) :
    Fallible.Keeps (soundMachine timeout now) (Held timeout now assistant subject)
      (call (.execute endpoint assistant subject graphInput wait causedByRunId cascadeDepth)) := by
  intro state held
  rw [wp_call]
  refine ⟨⟨trivial, held.sound⟩, ?_⟩
  rintro answer after ⟨move, passed, flights⟩
  obtain ⟨data, stored, claimed⟩ := held.claimed
  have still : after.board = state.board := move
  refine ⟨?_, held.named, ⟨data, by rw [still]; exact stored, claimed⟩⟩
  intro flight member
  rw [flights] at member
  rcases List.mem_append.mp member with earlier | latest
  · exact held.sound flight earlier
  · obtain rfl := List.mem_singleton.mp latest
    have decides (clock : Time) :
        Reclaims timeout ⟨assistant, subject, state.clock, after.clock, state.board⟩ clock ↔
          window timeout ≤ clock - now := reclaims_iff held.named stored claimed
    simp only [Sound, decides]
    constructor
    · intro safe
      have last := safe after.clock passed le_rfl
      linarith
    · intro inside clock _ before stale
      linarith

/-- A claim that the hop takes carries the time of the call. -/
theorem tryClaim_held (assistant subject : String) (staleAfter : Time) (holder : Holder) {state : Timed}
    (sound : AllSound timeout now state) :
    Fallible.wp (soundMachine timeout now) (Concurrency.tryClaim assistant subject now staleAfter holder)
      (fun _ outcome after => AllSound timeout now after ∧
        (outcome = .ok true → Held timeout now assistant subject after)) state := by
  have claims : Fallible.wp boardMachine (Concurrency.tryClaim assistant subject now staleAfter holder)
      (fun _ outcome after => outcome = .ok true →
        checkTexts .concurrency [("assistant", assistant), ("subject", subject)] = .ok () ∧
        ∃ data, after .concurrency = .content data ∧ data.get? (assistant, subject) = some ⟨now⟩) state.board := by
    apply Concurrency.tryClaim_ends
    · intro data named _ _ _
      refine ⟨named, _, Board.put_self _ _ _, ?_⟩
      simp
    · intro data _ _ same
      cases same
    · intro exc _ same
      cases same
  have grounded : Fallible.Uses (fun op : Effect => op.area ≠ .execution)
      (Concurrency.tryClaim assistant subject now staleAfter holder) := by
    apply Fallible.Uses.mono (Concurrency.tryClaim_inside _ _ _ _ _)
    intro op inside same
    rw [List.mem_singleton.mp inside] at same
    cases same
  apply Fallible.wp_mono (wp_grounded grounded claims sound)
  rintro _ outcome after ⟨held, kept⟩
  exact ⟨kept, fun same => ⟨kept, (held same).1, (held same).2⟩⟩

/-- The submission under a held claim keeps it. -/
theorem submitRun_held (signal : Signal) (rule : Rule) (connection : Connection) (graphInput : List (String × Json))
    (subject : String) :
    Fallible.Keeps (soundMachine timeout now) (Held timeout now rule.assistant subject)
      (submitRun signal rule connection graphInput subject timeout now) := by
  apply submitRun_executing (keeps_sequential _ _)
  · intro A program within
    exact keeps_held within (by decide) (by decide)
  · exact note_held _
  · exact execute_held _ _ _ _ _
  · intro result
    exact keeps_held (recordAccepted_within _ _ _ _ _) (by decide) (by decide)

/-- Each execution of a mapped Signal has a claim with the time of the call. -/
theorem routeMapped_sound (cascade : Signal → Py Response)
    (children : ∀ signal, Fallible.Keeps (soundMachine timeout now) (AllSound timeout now) (cascade signal))
    (signal : Signal) (rule : Rule) (connection : Connection) (graphInput : List (String × Json)) (subject : String) :
    Fallible.Keeps (soundMachine timeout now) (AllSound timeout now)
      (routeMapped cascade signal rule connection graphInput subject timeout now) := by
  have released (deployment concurrency : Bool) : Fallible.Keeps (soundMachine timeout now) (AllSound timeout now)
      (releaseUnlessRetained signal rule connection subject now deployment concurrency) :=
    keeps_sound (releaseUnlessRetained_within _ _ _ _ _ _ _) (by decide)
  have settled (state : Timed) (held : Held timeout now rule.assistant subject state) :
      Fallible.wp (soundMachine timeout now) (settleRun signal rule connection graphInput subject timeout now)
        (fun _ _ after => AllSound timeout now after) state := by
    rw [settleRun, Fallible.wp_bind, Fallible.wp_attempt]
    apply Fallible.wp_mono (submitRun_held signal rule connection graphInput subject state held)
    intro before outcome after kept
    cases outcome with
    | error exc =>
        exact Fallible.Keeps.bind (released false false) (fun _ => Fallible.keeps_raise exc) after kept.sound
    | ok submitted =>
        exact Fallible.Keeps.bind (released submitted.retainDeployment submitted.retainConcurrency)
          (fun _ => Fallible.keeps_ofExcept submitted.response) after kept.sound
  intro state sound
  apply Fallible.wp_seq (tryClaim_held rule.assistant subject _ _ sound)
  · rintro _ taken after ⟨kept, held⟩
    cases taken with
    | false => exact kept
    | true =>
        apply Fallible.wp_seq (settled after (held rfl))
        · exact fun _ response reached later =>
            chain_composed (keeps_sequential _ _).toComposed children signal rule subject response reached later
        · exact fun _ _ _ later => later
  · exact fun _ _ _ kept => kept.1

/-- Every `route_signal` call keeps its flights sound. -/
theorem routeSignal_sound (signal : Signal) :
    Fallible.Keeps (soundMachine timeout now) (AllSound timeout now) (routeSignal signal timeout now) :=
  routeSignal_mapped (keeps_sequential _ _).toComposed (fun within => keeps_sound within (by decide)) routeMapped_sound signal

end

/-- At every hop of a `route_signal` call that starts at its own `now`, and wherever the call stops, the claim of the
hop is out of reach of each other arrival throughout the execution exactly when the execution returns inside the
staleness window of the whole call. -/
theorem hold_live_in_flight (signal : Signal) (timeout now : Time) (board : Board) {trace : List signature.Event}
    {left : Program signature (Except Exc Response)} {final : Timed}
    (run : Performs timedMachine (routeSignal signal timeout now).toProgram ⟨board, now, []⟩ trace left final) :
    ∀ flight ∈ final.flights,
      (∀ clock, flight.departed ≤ clock → clock ≤ flight.landed → ¬ Reclaims timeout flight clock) ↔
        flight.landed < now + (timeout + healthTimeout + staleClaimBuffer) :=
  Program.safe_of_performs (routeSignal_sound signal ⟨board, now, []⟩ (List.forall_mem_nil _)) run

/-- A manual Rule starts a Run, and its completion starts a second one. -/
def chainBoard : Board
  | .connections => .content (Dict.empty.set "local" ⟨"http://localhost", [], none⟩)
  | .rules => .content [⟨"first", .manual, [], [], "local", "first", "subject", []⟩,
      ⟨"second", .runFinished, [("assistant", .str "first")], [], "local", "second", "subject", []⟩]
  | _ => .missing

/-- Each execution succeeds on a Thread of its own. -/
def successScript : Script := fun past target =>
  match target with
  | .execute _ assistant .. => .ok ⟨"run-" ++ assistant, "thread-" ++ assistant, .success⟩
  | other => calm past other

/-- Each execution takes the same time, and nothing else takes time. -/
def elapsed (duration : Time) : Effect → Time
  | .call (.execute ..) => max duration 0
  | _ => 0

theorem elapsed_nonneg (duration : Time) (op : Effect) : 0 ≤ elapsed duration op := by
  unfold elapsed
  split
  · exact le_max_right _ _
  · exact le_rfl

def timedResolver (script : Script) (duration : Time) : Resolver timedMachine where
  respond past state op :=
    let answered := script.resolver.respond past state.board op
    (answered.1, ⟨answered.2, state.clock + elapsed duration op, flown state (state.clock + elapsed duration op) op⟩)
  sound past state op :=
    ⟨script.resolver.sound past state.board op, le_add_of_nonneg_right (elapsed_nonneg duration op), rfl⟩

/-- The chain of two Runs starts at time 0 with a timeout of 120 seconds. -/
def chainRun (duration : Time) : Result signature Timed (Except Exc Response) :=
  (timedResolver successScript duration).exec
    (routeSignal (.external .manual "event" [("subject", .str "42")]) 120 0).toProgram [] ⟨chainBoard, 0, []⟩

theorem chainRun_performs (duration : Time) :
    Performs timedMachine (routeSignal (.external .manual "event" [("subject", .str "42")]) 120 0).toProgram
      ⟨chainBoard, 0, []⟩ (chainRun duration).trace (.pure (chainRun duration).value) (chainRun duration).final :=
  ((timedResolver successScript duration).exec_runs _ _ _).performs

theorem hold_live_in_flight_chain :
    (chainRun 50).final.flights.map (fun flight => (flight.departed, flight.landed)) = [(0, 50), (50, 100)] ∧
      ∀ flight ∈ (chainRun 50).final.flights,
        (∀ clock, flight.departed ≤ clock → clock ≤ flight.landed → ¬ Reclaims 120 flight clock) ↔
          flight.landed < 0 + (120 + healthTimeout + staleClaimBuffer) :=
  ⟨by decide +kernel, hold_live_in_flight _ _ _ _ (chainRun_performs 50)⟩

/-- Each execution returns after 100 of its 120 seconds, but the claim of the second hop is reclaimed in flight. -/
theorem hold_reclaimed_in_flight :
    ∃ trace left final, Performs timedMachine
        (routeSignal (.external .manual "event" [("subject", .str "42")]) 120 0).toProgram ⟨chainBoard, 0, []⟩
        trace left final ∧
      (∀ flight ∈ final.flights, flight.landed - flight.departed ≤ 120) ∧
      ∃ flight ∈ final.flights, flight.departed ≤ 190 ∧ 190 ≤ flight.landed ∧ Reclaims 120 flight 190 := by
  have timely : ((chainRun 100).final.flights.all fun flight => decide (flight.landed - flight.departed ≤ 120)) = true := by
    decide +kernel
  have reclaimed : ((chainRun 100).final.flights.any fun flight =>
      decide (flight.departed ≤ 190 ∧ 190 ≤ flight.landed ∧ (calm.exec (Concurrency.tryClaim flight.assistant
        flight.subject 190 (window 120) .submission) flight.board).value = .ok true)) = true := by
    decide +kernel
  refine ⟨_, _, _, chainRun_performs 100,
    fun flight member => of_decide_eq_true (List.all_eq_true.mp timely flight member), ?_⟩
  obtain ⟨flight, member, facts⟩ := List.any_eq_true.mp reclaimed
  obtain ⟨departed, landed, taken⟩ := of_decide_eq_true facts
  have run := calm.exec_runs (Concurrency.tryClaim flight.assistant flight.subject 190 (window 120) .submission)
    flight.board
  rw [taken] at run
  exact ⟨flight, member, departed, landed, .submission, _, _, run⟩

end Cordboard.LiveHold
