import Cordboard.Proof.Frame
import Cordboard.Proof.Stores

namespace Cordboard.SignalDedupe
open Data Effects

/-- The retention window of every claim that `route_signal` makes. -/
abbrev window : Time := defaultRetentionSeconds

/-- A claim counts while its window has not passed. -/
def live (now : Time) (claim : Option SignalClaim) : Option SignalClaim :=
  claim.filter fun claim => now - claim.claimedAt < window

theorem get?_prune (data : Dict String SignalClaim) (now : Time) (signalId : String) :
    (prune data now window).get? signalId = live now (data.get? signalId) := Dict.get?_filter _ _ _

/-- A write keeps the live claims that the process saw, and may claim a Signal that had none. -/
def Written (now : Time) (old new : Option SignalClaim) : Prop :=
  new = live now old ∨ live now old = none ∧ new = some ⟨now⟩

/-- A process remembers its clock, the file that it read last, and an unspent claim of one Signal. -/
structure Phase where
  now : Time
  seen : Option (File Store.signalDedupe.Data)
  claimed : Bool

/-- The write claims a Signal that had no live claim in the file that this process read. -/
def fills (signalId : String) (phase : Phase) (data : Dict String SignalClaim) : Bool :=
  match phase.seen with
  | some file => (live phase.now (file.find? signalId)).isNone && (data.get? signalId).isSome
  | none => false

/-- A process writes what follows from its own read, and executes only under its own unspent claim. -/
def claimGuard (signalId : String) (phase : Phase) : Effect → Prop
  | .write .signalDedupe data => ∃ file, phase.seen = some file ∧
      ∀ other, Written phase.now (file.find? other) (Dict.get? data other)
  | .note (.executing other now) => other = signalId → phase.claimed = true ∧ now = phase.now
  | _ => True

def claimNext (signalId : String) (phase : Phase) : (op : Effect) → op.Answer → Phase
  | .read .signalDedupe, file => { phase with seen := some file }
  | .write .signalDedupe data, _ => { phase with claimed := phase.claimed || fills signalId phase data }
  | .note (.executing other _), _ => { phase with claimed := phase.claimed && other != signalId }
  | _, _ => phase

/-- This protocol follows the operations of one process on one Signal. -/
abbrev claimProtocol (signalId : String) : Protocol signature :=
  ⟨Phase, claimGuard signalId, claimNext signalId⟩

/-- The protocol follows these two areas. -/
def claimAreas : List Area := [.store .signalDedupe, .execution]

/-- An operation outside the areas of the protocol is permitted and keeps the phase. -/
theorem claim_neutral (signalId : String) (phase : Phase) {op : Effect} (outside : op.area ∉ claimAreas) :
    claimGuard signalId phase op ∧ ∀ answer, claimNext signalId phase op answer = phase := by
  cases op with
  | read store =>
      cases store <;> first | exact ⟨trivial, fun _ => rfl⟩ | exact absurd (List.mem_cons_self ..) outside
  | write store data =>
      cases store <;> first | exact ⟨trivial, fun _ => rfl⟩ | exact absurd (List.mem_cons_self ..) outside
  | note point =>
      cases point <;> first
        | exact ⟨trivial, fun _ => rfl⟩
        | exact absurd (by simp [claimAreas, Effect.area, Note.area]) outside
  | _ => exact ⟨trivial, fun _ => rfl⟩

/-- Between two calls of `claim`, a process has no unspent claim. -/
def Settled (now : Time) (phase : Phase) : Prop := phase.now = now ∧ phase.claimed = false

/-- The program obeys the protocol and ends without an unspent claim. -/
abbrev Settles {A : Type} (signalId : String) (now : Time) (program : Py A) : Prop :=
  Fallible.Keeps (claimProtocol signalId).machine (Settled now) program

section
variable {A : Type} {signalId : String} {now : Time}

theorem settles_within {areas : List Area} (disjoint : ∀ area ∈ areas, area ∉ claimAreas) {program : Py A}
    (within : Within areas program) : Settles signalId now program := by
  intro phase settled
  refine Fallible.wp_mono (wp_neutral (claimProtocol signalId)
    (fun phase _ inside => claim_neutral signalId phase (disjoint _ inside)) within phase) ?_
  rintro _ _ _ rfl
  exact settled

/-- The claim writes only what follows from its own read. -/
theorem claim_settled (signalId other : String) {phase : Phase} (settled : Settled now phase) :
    Fallible.wp (claimProtocol signalId).machine (claim other now window)
      (fun _ outcome after => after.now = now ∧
        after.claimed = match outcome with
          | .ok true => decide (other = signalId)
          | _ => false) phase := by
  obtain ⟨clock, seen, claimed⟩ := phase
  obtain ⟨rfl, rfl⟩ : clock = now ∧ claimed = false := settled
  simp only [claim, Fallible.wp_bind, wp_requireTexts]
  cases checkTexts .signalDedupe _ with
  | error exc => exact ⟨rfl, rfl⟩
  | ok value =>
      simp only [Fallible.after_ok, Fallible.wp_bind, loadSignalDedupe, wp_load]
      refine ⟨trivial, ?_⟩
      rintro file _ rfl
      cases decoded : decode .signalDedupe file with
      | error exc => exact ⟨rfl, rfl⟩
      | ok data =>
          have stored := find?_of_decode decoded
          simp only [Fallible.after_ok, Fallible.wp_ite, Fallible.wp_bind, wp_writeAtomic, wp_note,
            Fallible.wp_pure, Protocol.machine_guard, Protocol.machine_step]
          split
          · refine ⟨⟨file, rfl, fun signal => .inl ?_⟩, ?_⟩
            · simp [claimNext, stored, get?_prune]
            · rintro _ rfl
              refine ⟨trivial, ?_⟩
              rintro _ rfl
              exact ⟨rfl, by simp [claimNext, fills, stored, get?_prune]⟩
          · rename_i present
            rw [get?_prune] at present
            have absent : live clock (data.get? other) = none := by simpa using present
            refine ⟨⟨file, rfl, fun signal => ?_⟩, ?_⟩
            · simp only [claimNext, stored, get?_sorted, Dict.get?_set, get?_prune]
              split
              · rename_i same
                exact .inr ⟨same ▸ absent, rfl⟩
              · exact .inl rfl
            · rintro _ rfl
              refine ⟨trivial, ?_⟩
              rintro _ rfl
              refine ⟨rfl, ?_⟩
              simp only [claimNext, fills, stored, get?_sorted, Dict.get?_set, get?_prune, Bool.false_or]
              by_cases same : signalId = other
              · subst same
                simp [absent]
              · simp [same, Ne.symm same]

end

end Cordboard.SignalDedupe

namespace Cordboard.Router
open Data Effects SignalDedupe
open DeploymentLifecycle (Started ensureStarted_inside)

section
variable {signalId : String} {now : Time}

/-- A granted claim is spent by its own execution. -/
theorem submitStarted_settles (signal : Signal) (rule : Rule) (connection : Connection)
    (graphInput : List (String × Json)) (subject : String) (timeout : Time) :
    Settles signalId now (submitStarted signal rule connection graphInput subject timeout now) := by
  intro phase settled
  refine Fallible.wp_seq (claim_settled signalId signal.id settled) ?_ ?_
  · rintro _ granted after ⟨clock, claimed⟩
    cases granted with
    | false => exact ⟨clock, claimed⟩
    | true =>
        rw [if_neg (by decide), Fallible.wp_bind, wp_note]
        refine ⟨fun same => ⟨by simpa [same] using claimed, clock.symm⟩, ?_⟩
        rintro _ rfl
        have spent : Settled now (claimNext signalId after (.note (.executing signal.id now)) ()) := by
          refine ⟨clock, ?_⟩
          by_cases same : signal.id = signalId <;> simp [claimNext, claimed, same]
        refine Fallible.Keeps.bind ?_ ?_ _ spent
        · exact fun _ held => ⟨trivial, fun _ _ same => same ▸ held⟩
        intro answer
        cases answer with
        | error exc =>
            dsimp only
            split
            · exact Fallible.keeps_pure _
            · exact Fallible.keeps_raise _
        | ok result => exact settles_within (by decide) (recordAccepted_within _ _ _ _ _)
  · rintro _ exc after ⟨clock, claimed⟩
    exact ⟨clock, claimed⟩

theorem submitRun_settles (signal : Signal) (rule : Rule) (connection : Connection)
    (graphInput : List (String × Json)) (subject : String) (timeout : Time) :
    Settles signalId now (submitRun signal rule connection graphInput subject timeout now) := by
  refine Fallible.Keeps.bind (settles_within (by decide) (ensureStarted_inside _ _ _ _ _)) fun started => ?_
  cases started with
  | startFailed error => exact Fallible.keeps_pure _
  | external => exact submitStarted_settles _ _ _ _ _ _
  | running pid => exact submitStarted_settles _ _ _ _ _ _

/-- Every call of `route_signal` obeys the protocol of every Signal. -/
theorem routeSignal_settles (signal : Signal) (timeout : Time) :
    Settles signalId now (routeSignal signal timeout now) := by
  apply routeSignal_sequential (keeps_sequential (claimProtocol signalId).machine (Settled now))
  · exact fun within => settles_within (by decide) within
  · intro signal rule connection graphInput subject
    apply settleRun_sequential (keeps_sequential (claimProtocol signalId).machine (Settled now))
    · exact submitRun_settles _ _ _ _ _ _
    · exact fun _ _ => settles_within (by decide) (releaseUnlessRetained_within _ _ _ _ _ _ _)

end

end Cordboard.Router
