import Cordboard.Effects.Session
import Cordboard.Proof.Signal.SubmitOnce

namespace Cordboard.DedupeLaw
open Data Effects SignalDedupe Router

/-- A claim replaces the dedupe file at the clock reading of its delivery. -/
structure Replacement where
  before : File (Dict String SignalClaim)
  after : Dict String SignalClaim
  now : Time

/-- The ledger lists the calls of `execute` and the replacements of the dedupe file, the newest ones first. -/
structure Ledger where
  now : Time
  seen : File (Dict String SignalClaim)
  executions : List (String × Time)
  replacements : List Replacement

def next (ledger : Ledger) : (op : Effect) → op.Answer → Ledger
  | .read .signalDedupe, file => { ledger with seen := file }
  | .write .signalDedupe data, _ =>
      { ledger with replacements := ⟨ledger.seen, data, ledger.now⟩ :: ledger.replacements }
  | .note (.executing signalId now), _ => { ledger with executions := (signalId, now) :: ledger.executions }
  | _, _ => ledger

/-- This watch follows a sequence of deliveries and permits every step. -/
abbrev watch : Watch boardMachine where
  Phase := Ledger
  next := next
  meets _ _ _ _ := True
  safe _ _ := True

/-- The deliveries come one after another, each with its own clock reading. -/
abbrev deliveries : Service boardMachine Arrival (Except Exc Response) where
  watch := watch
  task arrival := arrival.route.toProgram
  prepare arrival ledger := { ledger with now := arrival.now }

/-- The first execution is at least one window later when it is for the same Signal. -/
def Later (first second : String × Time) : Prop := first.1 = second.1 → window ≤ first.2 - second.2

/-- No claim is dropped inside its window. -/
def Replacement.Keeps (replacement : Replacement) : Prop :=
  ∀ signalId claim, replacement.before.find? signalId = some claim →
    replacement.now - claim.claimedAt < window → replacement.after.get? signalId = some claim

/-- The claim of an execution is in the file, or its window has passed. -/
def Covered (board : Board) (now : Time) (execution : String × Time) : Prop :=
  window ≤ now - execution.2 ∨
    ∃ claim, (board .signalDedupe).find? execution.1 = some claim ∧ execution.2 ≤ claim.claimedAt

/-- The executions of one Signal are apart and covered, and no live claim was dropped. -/
structure Lawful (state : Board × Ledger) : Prop where
  apart : state.2.executions.Pairwise Later
  kept : ∀ replacement ∈ state.2.replacements, replacement.Keeps
  covered : ∀ execution ∈ state.2.executions, Covered state.1 state.2.now execution

/-- No execution of this Signal lies inside the window, and its claim is in the file. -/
structure Granted (signalId : String) (now : Time) (state : Board × Ledger) : Prop where
  lawful : Lawful state
  clock : state.2.now = now
  past : ∀ execution ∈ state.2.executions, execution.1 = signalId → window ≤ now - execution.2
  claimed : (state.1 .signalDedupe).find? signalId = some ⟨now⟩

section
variable {A : Type} {now : Time} {state : Board × Ledger}

/-- The ledger stands at this clock reading. -/
def LawfulAt (now : Time) (state : Board × Ledger) : Prop := Lawful state ∧ state.2.now = now

/-- The areas that the ledger follows. -/
theorem next_neutral {op : Effect} (outside : op.area ∉ claimAreas) (ledger : Ledger) (answer : op.Answer) :
    next ledger op answer = ledger := by
  cases op with
  | read store => cases store <;> first | rfl | exact absurd (List.mem_cons_self ..) outside
  | write store data => cases store <;> first | rfl | exact absurd (List.mem_cons_self ..) outside
  | note point => cases point <;> first | rfl | exact absurd (by simp [claimAreas, Effect.area, Note.area]) outside
  | _ => rfl

/-- A program outside the areas of the ledger keeps the law. -/
theorem lawful_within {areas : List Area} (disjoint : ∀ area ∈ areas, area ∉ claimAreas) {program : Py A}
    (within : Within areas program) : Fallible.Keeps watch.along (LawfulAt now) program := by
  apply Fallible.keeps_of_uses (Fallible.Uses.mono within ?_)
  rintro op inside ⟨board, ledger⟩ ⟨lawful, clock⟩
  have outside := disjoint _ inside
  refine ⟨⟨trivial, trivial⟩, ?_⟩
  rintro answer ⟨after, moved⟩ ⟨move, follows, -⟩
  obtain rfl : moved = ledger := follows.trans (next_neutral outside ledger answer)
  have file : after .signalDedupe = board .signalDedupe := by
    apply boardStep_frame move (writes_of_area _)
    intro same
    exact outside (same ▸ List.mem_cons_self ..)
  refine ⟨⟨lawful.apart, lawful.kept, ?_⟩, clock⟩
  intro execution member
  unfold Covered
  dsimp only
  rw [file]
  exact lawful.covered execution member

/-- A write that keeps the live claims keeps the law. -/
theorem lawful_write {data : Dict String SignalClaim} {board : Board} {ledger : Ledger}
    (lawful : Lawful (board, ledger)) (seen : ledger.seen = board .signalDedupe)
    (keeps : (⟨board .signalDedupe, data, ledger.now⟩ : Replacement).Keeps) :
    Lawful (board.put .signalDedupe data, next ledger (.write .signalDedupe data) ()) := by
  refine ⟨lawful.apart, ?_, ?_⟩
  · apply List.forall_mem_cons.mpr ⟨?_, lawful.kept⟩
    rw [seen]
    exact keeps
  · intro execution member
    rcases lawful.covered execution member with passed | ⟨claim, stored, later⟩
    · exact .inl passed
    by_cases young : ledger.now - claim.claimedAt < window
    · refine .inr ⟨claim, ?_, later⟩
      dsimp only
      rw [Board.put_self]
      exact keeps execution.1 claim stored young
    · left
      change window ≤ ledger.now - execution.2
      linarith

/-- What a claim writes keeps each live claim. -/
theorem keeps_of_written {file : File (Dict String SignalClaim)} {data : Dict String SignalClaim} (now : Time)
    (written : Dict String SignalClaim) (decoded : decode .signalDedupe file = .ok data)
    (follows : ∀ signalId, Written now (data.get? signalId) (written.get? signalId)) :
    (⟨file, written, now⟩ : Replacement).Keeps := by
  intro signalId claim found young
  have counts : live now (some claim) = some claim := by rw [live, Option.filter_some, if_pos (decide_eq_true young)]
  have written := follows signalId
  rw [find?_of_decode decoded] at found
  rw [found, Written, counts] at written
  rcases written with same | ⟨gone, -⟩
  · exact same
  · cases gone

/-- A claim keeps the law, and a granted one finds no execution inside the window. -/
theorem claim_grants (signalId : String) (held : LawfulAt now state) :
    Fallible.wp watch.along (claim signalId now window) (fun _ outcome after =>
      LawfulAt now after ∧ (outcome = .ok true → Granted signalId now after)) state := by
  obtain ⟨board, ledger⟩ := state
  obtain ⟨lawful, rfl⟩ := held
  simp only [claim, Fallible.wp_bind, wp_requireTexts]
  cases checkTexts .signalDedupe _ with
  | error exc => exact ⟨⟨lawful, rfl⟩, fun same => by cases same⟩
  | ok value =>
      simp only [Fallible.after_ok, Fallible.wp_bind, loadSignalDedupe, wp_load]
      refine ⟨⟨trivial, trivial⟩, ?_⟩
      rintro file ⟨after, seen⟩ ⟨⟨read, same⟩, moved, -⟩
      obtain rfl : board = after := same.symm
      obtain rfl : file = board .signalDedupe := read
      obtain rfl : seen = next ledger (.read .signalDedupe) (board .signalDedupe) := moved
      have looked : Lawful (board, next ledger (.read .signalDedupe) (board .signalDedupe)) :=
        ⟨lawful.apart, lawful.kept, lawful.covered⟩
      cases decoded : decode .signalDedupe (board .signalDedupe) with
      | error exc => exact ⟨⟨looked, rfl⟩, fun same => by cases same⟩
      | ok data =>
          have stored := find?_of_decode decoded
          simp only [Fallible.after_ok, Fallible.wp_ite, Fallible.wp_bind, wp_writeAtomic, wp_note, Fallible.wp_pure]
          split
          · have follows (other : String) : Written ledger.now (data.get? other)
                (Dict.get? (Store.signalDedupe.sorted (prune data ledger.now window)) other) :=
              .inl (by rw [get?_sorted, get?_prune])
            refine ⟨⟨trivial, trivial⟩, ?_⟩
            rintro ⟨written, replaced⟩ ⟨put, moved, -⟩
            obtain rfl : written = board.put .signalDedupe _ := put
            obtain rfl := moved
            refine ⟨⟨trivial, trivial⟩, ?_⟩
            rintro ⟨noted, marked⟩ ⟨same, moved, -⟩
            obtain rfl : noted = board.put .signalDedupe _ := same
            obtain rfl := moved
            have lawful := lawful_write looked rfl (keeps_of_written ledger.now _ decoded follows)
            exact ⟨⟨lawful, rfl⟩, fun same => by cases same⟩
          · rename_i present
            rw [get?_prune] at present
            have absent : live ledger.now (data.get? signalId) = none := by simpa using present
            have follows (other : String) : Written ledger.now (data.get? other) (Dict.get? (Store.signalDedupe.sorted
                ((prune data ledger.now window).set signalId ⟨ledger.now⟩)) other) := by
              rw [get?_sorted, Dict.get?_set, get?_prune]
              split
              · rename_i same
                exact .inr ⟨same ▸ absent, rfl⟩
              · exact .inl rfl
            refine ⟨⟨trivial, trivial⟩, ?_⟩
            rintro ⟨written, replaced⟩ ⟨put, moved, -⟩
            obtain rfl : written = board.put .signalDedupe _ := put
            obtain rfl := moved
            refine ⟨⟨trivial, trivial⟩, ?_⟩
            rintro ⟨noted, marked⟩ ⟨same, moved, -⟩
            obtain rfl : noted = board.put .signalDedupe _ := same
            obtain rfl := moved
            have lawful_ := lawful_write looked rfl (keeps_of_written ledger.now _ decoded follows)
            refine ⟨⟨lawful_, rfl⟩, fun _ => ⟨lawful_, rfl, ?_, ?_⟩⟩
            · intro execution member same
              rcases lawful.covered execution member with passed | ⟨claim, found, later⟩
              · exact passed
              have aged : ¬ ledger.now - claim.claimedAt < window := by
                intro young
                have counts : live ledger.now (some claim) = some claim := by
                  rw [live, Option.filter_some, if_pos (decide_eq_true young)]
                rw [same] at found
                rw [← stored signalId, found, counts] at absent
                cases absent
              change window ≤ ledger.now - execution.2
              linarith
            · change ((board.put .signalDedupe _) .signalDedupe).find? signalId = _
              rw [Board.put_self, File.find?_content, get?_sorted, Dict.get?_set_self]

/-- A granted claim is spent by one execution. -/
theorem submitStarted_lawful (signal : Signal) (rule : Rule) (connection : Connection)
    (graphInput : List (String × Json)) (subject : String) (timeout : Time) :
    Fallible.Keeps watch.along (LawfulAt now) (submitStarted signal rule connection graphInput subject timeout now) := by
  intro state held
  apply Fallible.wp_seq (claim_grants signal.id held)
  · rintro _ granted after ⟨lawful, grants⟩
    cases granted with
    | false => exact lawful
    | true =>
        rw [if_neg (by decide), Fallible.wp_bind, wp_note]
        refine ⟨⟨trivial, trivial⟩, ?_⟩
        rintro ⟨board, noted⟩ ⟨same, moved, -⟩
        have claimed := grants rfl
        obtain rfl : board = after.1 := same
        have executed : LawfulAt now (after.1, noted) := by
          rw [show noted = next after.2 (.note (.executing signal.id now)) () from moved]
          refine ⟨⟨?_, claimed.lawful.kept, ?_⟩, claimed.clock⟩
          · apply List.pairwise_cons.mpr ⟨?_, claimed.lawful.apart⟩
            intro execution member same
            exact claimed.past execution member same.symm
          · apply List.forall_mem_cons.mpr ⟨?_, claimed.lawful.covered⟩
            exact .inr ⟨⟨now⟩, claimed.claimed, le_refl _⟩
        refine Fallible.Keeps.bind ?_ ?_ _ executed
        · rintro ⟨board, ledger⟩ held
          refine ⟨⟨trivial, trivial⟩, ?_⟩
          rintro answer ⟨called, answered⟩ ⟨same, moved, -⟩
          obtain rfl : called = board := same
          obtain rfl : answered = ledger := moved
          exact held
        intro answer
        cases answer with
        | error exc =>
            dsimp only
            split
            · exact Fallible.keeps_pure _
            · exact Fallible.keeps_raise _
        | ok result => exact lawful_within (by decide) (recordAccepted_within _ _ _ _ _)
  · rintro _ exc after ⟨lawful, -⟩
    exact lawful

theorem submitRun_lawful (signal : Signal) (rule : Rule) (connection : Connection)
    (graphInput : List (String × Json)) (subject : String) (timeout : Time) :
    Fallible.Keeps watch.along (LawfulAt now) (submitRun signal rule connection graphInput subject timeout now) := by
  apply Fallible.Keeps.bind (lawful_within (by decide) (DeploymentLifecycle.ensureStarted_inside _ _ _ _ _))
  intro started
  cases started with
  | startFailed error => exact Fallible.keeps_pure _
  | external => exact submitStarted_lawful _ _ _ _ _ _
  | running pid => exact submitStarted_lawful _ _ _ _ _ _

/-- Every delivery keeps the law, with its cascades. -/
theorem routeSignal_lawful (signal : Signal) (timeout : Time) :
    Fallible.Keeps watch.along (LawfulAt now) (routeSignal signal timeout now) := by
  apply routeSignal_sequential (keeps_sequential watch.along (LawfulAt now))
  · exact fun within => lawful_within (by decide) within
  · intro signal rule connection graphInput subject
    apply settleRun_sequential (keeps_sequential watch.along (LawfulAt now))
    · exact submitRun_lawful _ _ _ _ _ _
    · exact fun _ _ => lawful_within (by decide) (releaseUnlessRetained_within _ _ _ _ _ _ _)

end

/-- The delivery ended before it claimed its Signal. -/
def turnedAway : Response → Bool
  | .cascadeDepthExceeded .. => true
  | .unmatched _ => true
  | .invalidMapping .. => true
  | .concurrencySkipped .. => true
  | .deploymentUnavailable .. => true
  | _ => false

section
variable {A : Type} {file : File (Dict String SignalClaim)} {timeout now : Time} {signal : Signal}

/-- The program keeps the dedupe file when its response was turned away. -/
def Spares (file : File (Dict String SignalClaim)) (program : Py A) (turned : A → Bool) : Prop :=
  ∀ board : Board, board .signalDedupe = file → Fallible.wp boardMachine program
    (fun _ outcome after => ∀ value, outcome = .ok value → turned value = true → after .signalDedupe = file) board

theorem spares_pure {value : A} {turned : A → Bool} : Spares file (pure value) turned :=
  fun _ same _ _ _ => same

/-- A program outside the store keeps its file. -/
theorem Spares.bind {B : Type} {areas : List Area} {program : Py A} {rest : A → Py B} {turned : B → Bool}
    (within : Within areas program) (outside : .store .signalDedupe ∉ areas)
    (later : ∀ value, Spares file (rest value) turned) : Spares file (program >>= rest) turned := by
  intro board same
  apply Fallible.wp_seq (wp_within within board)
  · rintro _ value after ⟨-, kept⟩
    exact later value after ((kept _ outside).trans same)
  · rintro _ exc after _ value equal
    cases equal

/-- The file is spared when the rest turns away only what the first program turned away. -/
theorem Spares.seq {B : Type} {program : Py A} {rest : A → Py B} {first : A → Bool} {turned : B → Bool}
    (spares : Spares file program first)
    (later : ∀ value board, Fallible.wp boardMachine (rest value) (fun _ outcome after => ∀ result,
      outcome = .ok result → turned result = true →
        first value = true ∧ after .signalDedupe = board .signalDedupe) board) :
    Spares file (program >>= rest) turned := by
  intro board same
  apply Fallible.wp_seq (spares board same)
  · intro _ value middle spared
    apply Fallible.wp_mono (later value middle)
    intro _ outcome after kept result equal away
    obtain ⟨before, unchanged⟩ := kept result equal away
    exact unchanged.trans (spared value rfl before)
  · rintro _ exc after _ value equal
    cases equal

/-- A program that turns nothing away spares the file. -/
theorem spares_of_returns {program : Py A} {turned : A → Bool}
    (returns : Fallible.Returns boardMachine (fun value => turned value = false) program) :
    Spares file program turned := by
  intro board _
  apply Fallible.wp_mono (returns board)
  intro _ outcome after never value equal away
  rw [never value equal] at away
  cases away

/-- A submission is turned away when its response is. -/
def turnedBack (submitted : Submitted) : Bool :=
  match submitted.response with
  | .ok response => turnedAway response
  | .error _ => false

theorem free (board : Board) (op : Effect) : boardMachine.guard board op := trivial

/-- A submission that has reached its claim is not turned away. -/
theorem submitStarted_returns (rule : Rule) (connection : Connection) (graphInput : List (String × Json))
    (subject : String) : Fallible.Returns boardMachine (fun submitted => turnedBack submitted = false)
      (submitStarted signal rule connection graphInput subject timeout now) := by
  apply Fallible.Returns.bind free
  intro granted
  split
  · exact Fallible.returns_pure rfl
  apply Fallible.Returns.bind free
  intro _
  apply Fallible.Returns.bind free
  intro answer
  cases answer with
  | error exc =>
      dsimp only
      split
      · exact Fallible.returns_pure rfl
      · exact Fallible.returns_raise _
  | ok result =>
      dsimp only [recordAccepted]
      split
      · exact Fallible.returns_pure rfl
      apply Fallible.Returns.bind free
      intro _
      apply Fallible.Returns.bind free
      intro _
      split
      · exact Fallible.returns_pure rfl
      · apply Fallible.Returns.bind free
        intro recorded
        apply Fallible.returns_pure
        cases recorded <;> rfl

theorem submitRun_spares (rule : Rule) (connection : Connection) (graphInput : List (String × Json))
    (subject : String) :
    Spares file (submitRun signal rule connection graphInput subject timeout now) turnedBack := by
  apply Spares.bind (DeploymentLifecycle.ensureStarted_inside _ _ _ _ _) (by decide)
  intro started
  cases started with
  | startFailed error => exact spares_pure
  | external => exact spares_of_returns (submitStarted_returns _ _ _ _)
  | running pid => exact spares_of_returns (submitStarted_returns _ _ _ _)

/-- A caught submission is turned away when its value is. -/
def turnedOutcome : Except Exc Submitted → Bool
  | .ok submitted => turnedBack submitted
  | .error _ => false

theorem settleRun_spares (rule : Rule) (connection : Connection) (graphInput : List (String × Json))
    (subject : String) :
    Spares file (settleRun signal rule connection graphInput subject timeout now) turnedAway := by
  have caught : Spares file (submitRun signal rule connection graphInput subject timeout now).attempt
      turnedOutcome := by
    intro board same
    rw [Fallible.wp_attempt]
    apply Fallible.wp_mono (submitRun_spares rule connection graphInput subject board same)
    intro _ outcome after spared value equal away
    obtain rfl := Except.ok.inj equal
    cases outcome with
    | ok submitted => exact spared submitted rfl away
    | error exc => cases away
  apply caught.seq
  intro settled board
  cases settled with
  | error exc =>
      apply Fallible.wp_seq (wp_within (releaseUnlessRetained_within _ _ _ _ _ _ _) board)
      · intro _ _ _ _ result same
        cases same
      · intro _ _ _ _ result same
        cases same
  | ok submitted =>
      apply Fallible.wp_seq (wp_within (releaseUnlessRetained_within _ _ _ _ _ _ _) board)
      · rintro _ _ after ⟨-, kept⟩
        rw [Fallible.wp_ofExcept]
        intro response same away
        refine ⟨?_, kept .signalDedupe (by decide)⟩
        simp only [turnedOutcome, turnedBack, same]
        exact away
      · intro _ _ _ _ result same
        cases same

/-- A cascade follows an accepted Run only. -/
theorem chain_spares (cascade : Signal → Py Response) (rule : Rule) (subject : String) (response : Response)
    (board : Board) : Fallible.wp boardMachine (chain cascade signal rule subject response)
      (fun _ outcome after => ∀ result, outcome = .ok result → turnedAway result = true →
        turnedAway response = true ∧ after .signalDedupe = board .signalDedupe) board := by
  have kept {other : Response} : ∀ result, (Except.ok other : Except Exc Response) = .ok result →
      turnedAway result = true → turnedAway other = true ∧ board .signalDedupe = board .signalDedupe := by
    rintro result same away
    obtain rfl := Except.ok.inj same
    exact ⟨away, rfl⟩
  unfold chain
  split
  · split
    · rename_i signalId name routed _
      have returns : Fallible.Returns boardMachine (fun result => turnedAway result = false)
          (Fallible.ofExcept (runFinishedSignal ⟨routed.runId, subject, rule.connection, rule.assistant, "success",
            signal.childCascadeDepth⟩) >>= fun finished => cascade finished >>= fun child =>
              (pure (.routed signalId name routed (some child)) : Py Response)) := by
        apply Fallible.Returns.bind free
        intro finished
        apply Fallible.Returns.bind free
        exact fun child => Fallible.returns_pure rfl
      apply Fallible.wp_mono (returns board)
      intro _ outcome after never result same away
      rw [never result same] at away
      cases away
    · exact kept
  · exact kept

theorem routeByRule_spares (cascade : Signal → Py Response) :
    Spares file (routeByRule cascade timeout now signal) turnedAway := by
  have unmatched {reason : String} {response : Response} :
      Spares file (recordUnmatched signal reason >>= fun _ => pure response) turnedAway :=
    Spares.bind (recordUnmatched_inside _ _) (by decide) fun _ => spares_pure
  apply Spares.bind (load_inside .rules) (by decide)
  intro rules
  split
  · exact unmatched
  apply Spares.bind (mapRule_within _ _).attempt (by decide)
  intro mapped
  split
  · split
    · exact unmatched
    · exact spares_of_returns (Fallible.returns_raise _)
  apply Spares.bind (Concurrency.tryClaim_inside _ _ _ _ _) (by decide)
  intro taken
  split
  · exact spares_pure
  · exact (settleRun_spares _ _ _ _).seq fun response board => chain_spares _ _ _ response board

/-- A delivery that is turned away leaves the dedupe file as it was. -/
theorem routeSignal_spares : Spares file (routeSignal signal timeout now) turnedAway := by
  have hop (fuel : Nat) : Spares file (routeWithin timeout now fuel signal) turnedAway := by
    cases fuel with
    | zero => exact spares_of_returns (Fallible.returns_raise _)
    | succ fuel =>
        unfold routeWithin routeHop
        split
        · apply Spares.bind (note_inside (.routing _)) (by simp [Note.area])
          intro _
          split
          · exact Spares.bind (recordUnmatched_inside _ _) (by decide) fun _ => spares_pure
          · exact routeByRule_spares _
        · exact routeByRule_spares _
  exact hop _

end

/-- A sequence of deliveries starts with an empty ledger. -/
def opened : Ledger := ⟨0, .missing, [], []⟩

/-- Any two executions of one Signal are a window apart, and no claim is dropped inside its window. -/
def Ledger.Lawful (ledger : Ledger) : Prop :=
  ledger.executions.Pairwise Later ∧ ∀ replacement ∈ ledger.replacements, replacement.Keeps

/-- The law holds, and the clocks of the remaining deliveries are in order. -/
structure Ordered (arrivals : List Arrival) (state : Board × Ledger) : Prop where
  lawful : Lawful state
  ordered : arrivals.Pairwise fun first second => first.now ≤ second.now
  ahead : ∀ execution ∈ state.2.executions, ∀ arrival ∈ arrivals, state.2.now ≤ arrival.now

/-- One delivery keeps the law, and its own clock is the latest one. -/
theorem delivery_lawful (arrival : Arrival) (arrivals : List Arrival) (state : Board × Ledger)
    (held : Ordered (arrival :: arrivals) state) :
    (deliveries.task arrival).wp deliveries.watch.along (fun _ _ after => Ordered arrivals after)
      (state.1, deliveries.prepare arrival state.2) := by
  obtain ⟨first, rest⟩ := List.pairwise_cons.mp held.ordered
  have prepared : LawfulAt arrival.now (state.1, { state.2 with now := arrival.now }) := by
    refine ⟨⟨held.lawful.apart, held.lawful.kept, ?_⟩, rfl⟩
    intro execution member
    have later : state.2.now ≤ arrival.now := held.ahead execution member arrival List.mem_cons_self
    rcases held.lawful.covered execution member with passed | stored
    · left
      change window ≤ arrival.now - execution.2
      linarith
    · exact .inr stored
  apply Program.wp_mono (routeSignal_lawful arrival.signal arrival.timeout _ prepared)
  rintro _ outcome after ⟨lawful, clock⟩
  refine ⟨lawful, rest, ?_⟩
  intro execution _ next member
  rw [clock]
  exact first next member

/-- The deliveries with clocks in order keep the law. -/
theorem session_lawful {arrivals : List Arrival} {board : Board} {final : Board × Ledger}
    (ordered : arrivals.Pairwise fun first second => first.now ≤ second.now)
    (session : deliveries.Session arrivals (board, opened) final) : final.2.Lawful := by
  have start : Ordered arrivals (board, opened) :=
    ⟨⟨List.Pairwise.nil, List.forall_mem_nil _, List.forall_mem_nil _⟩, ordered, List.forall_mem_nil _⟩
  have held : Ordered [] final := session.invariant delivery_lawful start
  exact ⟨held.lawful.apart, held.lawful.kept⟩

instance (board : Board) (ledger : Ledger) (op : Effect) (answer : op.Answer) :
    Decidable (watch.meets board ledger op answer) := .isTrue trivial

/-- A Signal is redelivered inside the window and after it. -/
def redelivered (now : Time) : Arrival := ⟨.external .manual "event" [("subject", .str "42")], 120, now⟩

/-- These deliveries are routed one after another. -/
def repeatedly : Option (Board × Ledger) :=
  deliveries.exec (fun _ => calm.resolver) [redelivered 0, redelivered 1, redelivered window] (dedupeBoard, opened)

/-- No Rule matches this Signal. -/
def unheard : Arrival := ⟨.external .file "event" [], 120, 0⟩

end Cordboard.DedupeLaw
