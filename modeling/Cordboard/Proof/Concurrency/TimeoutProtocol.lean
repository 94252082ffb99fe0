import Cordboard.Construction.Operations
import Cordboard.Effects.Monitor
import Cordboard.Proof.Concurrency.LiveHold

namespace Cordboard.Timeouts
open Data Effects
open LiveHold (window)

/-- A claim belongs to an (Assistant, Subject) pair. -/
abbrev Key := String × String

/-- A process acts at one clock reading with one timeout. -/
structure Timing where
  now : Time
  timeout : Time

/-- A process announces the claim that it takes or renews before it writes the time. -/
structure Stamp where
  key : Key
  taken : Bool
deriving DecidableEq

def stampOf : Effect → Option Stamp
  | .note (.concurrencyTaken assistant subject _) => some ⟨(assistant, subject), true⟩
  | .note (.concurrencyRenewed assistant subject _) => some ⟨(assistant, subject), false⟩
  | _ => none

/-- A write carries out what its process has announced. -/
def nextStamp (stamp : Option Stamp) (op : Effect) : Option Stamp :=
  if op.writes .concurrency then none else (stampOf op).or stamp

/-- The lock of the claims is a monitor of their file. -/
def kindOf : Effect → Kind
  | .read .concurrency => .inspect
  | .write .concurrency _ => .change
  | .lock .concurrency => .enter
  | .unlock .concurrency => .leave
  | _ => .aside

def seenIn : (op : Effect) → op.Answer → Option (File Store.concurrency.Data)
  | .read .concurrency, file => some file
  | _, _ => none

/-- An operation outside the area of the claims stands aside. -/
theorem kindOf_aside {op : Effect} (outside : op.area ≠ .store .concurrency) : kindOf op = .aside := by
  cases op with
  | read store => cases store <;> first | rfl | exact absurd rfl outside
  | write store data => cases store <;> first | rfl | exact absurd rfl outside
  | lock file => cases file <;> first | rfl | exact absurd rfl outside
  | unlock file => cases file <;> first | rfl | exact absurd rfl outside
  | call target => rfl
  | note point => rfl

theorem stampOf_outside {op : Effect} (outside : op.area ≠ .store .concurrency) : stampOf op = none := by
  cases op with
  | note point => cases point <;> first | rfl | exact absurd rfl outside
  | _ => rfl

/-- An operation that stands aside keeps the file and the owner of its lock. -/
theorem aside_frame {pid : Pid} {world after : World} {op : Effect} {answer : op.Answer} (known : kindOf op = .aside)
    (move : worldStep pid world op answer after) :
    after.board .concurrency = world.board .concurrency ∧ after.owner .concurrency = world.owner .concurrency := by
  by_cases outside : op.area = .store .concurrency
  · cases op with
    | read store => cases outside; cases known
    | write store data => cases outside; cases known
    | lock file =>
        cases file with
        | concurrency => cases known
        | responseDedupe => exact absurd outside (by decide)
    | unlock file =>
        cases file with
        | concurrency => cases known
        | responseDedupe => exact absurd outside (by decide)
    | call target =>
        obtain rfl : after = world := move
        exact ⟨rfl, rfl⟩
    | note point =>
        obtain rfl : after = world := move
        exact ⟨rfl, rfl⟩
  · exact ⟨worldStep_frame move (writes_of_area outside), worldStep_owner move .concurrency outside⟩

theorem kindOf_enter {op : Effect} (known : kindOf op = .enter) : op = .lock .concurrency := by
  unfold kindOf at known
  split at known <;> first | rfl | cases known

theorem kindOf_leave {op : Effect} (known : kindOf op = .leave) : op = .unlock .concurrency := by
  unfold kindOf at known
  split at known <;> first | rfl | cases known

theorem kindOf_inspect {op : Effect} (known : kindOf op = .inspect) : op = .read .concurrency := by
  unfold kindOf at known
  split at known <;> first | rfl | cases known

theorem kindOf_change {op : Effect} (known : kindOf op = .change) : ∃ data, op = .write .concurrency data := by
  unfold kindOf at known
  split at known <;> first | exact ⟨_, rfl⟩ | cases known

abbrev monitor : Monitor worldSharing (File Store.concurrency.Data) where
  view world := world.board .concurrency
  owner world := world.owner .concurrency
  kind := kindOf
  seen := seenIn
  aside known move := aside_frame known move
  enter known move := by
    obtain rfl := kindOf_enter known
    obtain ⟨free, rfl⟩ := move
    exact ⟨free, World.take_owner_self _ _ _⟩
  leave {pid world op answer after} known move := by
    obtain rfl := kindOf_leave known
    obtain rfl : after = world.free pid .concurrency := move
    rfl
  inspect known move := by
    obtain rfl := kindOf_inspect known
    obtain ⟨rfl, rfl⟩ := move
    exact ⟨rfl, rfl, rfl⟩
  change {pid world op answer after} known move := by
    obtain ⟨data, rfl⟩ := kindOf_change known
    obtain rfl : after = world.write .concurrency data := move
    rfl
  crash pid world := by
    refine ⟨rfl, fun other different owned => ?_⟩
    have foreign : world.owner .concurrency ≠ some pid := by
      rw [owned]
      exact fun same => different (Option.some.inj same)
    exact (if_neg foreign).trans owned

/-- A process remembers its timing, its visit, and its announcement. -/
structure Phase where
  timing : Timing
  visit : Visit (File Store.concurrency.Data)
  stamp : Option Stamp

/-- The announced claim gets the time of the process, and each other record stays as the process read it. -/
def keepsTimes (phase : Phase) (file : File Store.concurrency.Data) (data : Store.concurrency.Data) : Prop :=
  ∀ key record, Dict.get? data key = some record →
    if phase.stamp.map Stamp.key = some key then record.claimedAt = phase.timing.now else file.find? key = some record

/-- A process takes a claim only when the file that it read has no live one for its own window. -/
def timeoutGuard (phase : Phase) (op : Effect) : Prop :=
  phase.visit.permits (kindOf op) ∧
    (∀ key, stampOf op = some ⟨key, true⟩ → ∃ file, phase.visit = .loaded file ∧
      Concurrency.isLive (file.find? key) phase.timing.now (window phase.timing.timeout) = false) ∧
    match op with
    | .write .concurrency data => ∃ file, phase.visit = .loaded file ∧ keepsTimes phase file data
    | _ => True

def timeoutNext (phase : Phase) (op : Effect) (answer : op.Answer) : Phase :=
  ⟨phase.timing, phase.visit.next (seenIn op answer) (kindOf op), nextStamp phase.stamp op⟩

/-- This protocol follows one process through its claims. -/
abbrev timeouts : Protocol signature := ⟨Phase, timeoutGuard, timeoutNext⟩

/-- An operation outside the area of the claims is permitted and keeps the phase. -/
theorem timeouts_neutral (phase : Phase) {op : Effect} (outside : op.area ≠ .store .concurrency) :
    timeoutGuard phase op ∧ ∀ answer, timeoutNext phase op answer = phase := by
  have silent := stampOf_outside outside
  have aside := kindOf_aside outside
  refine ⟨⟨?_, ?_, ?_⟩, fun answer => ?_⟩
  · rw [aside]
    cases phase.visit <;> trivial
  · intro key taken
    rw [silent] at taken
    cases taken
  · split
    · exact absurd rfl outside
    · trivial
  · have unwritten : op.writes .concurrency = false := writes_of_area outside
    simp [timeoutNext, nextStamp, silent, aside, unwritten, Visit.next]

/-- The process is outside and announces nothing. -/
abbrev idle (timing : Timing) : Phase := ⟨timing, .outside, none⟩

/-- The process is inside and announces nothing. -/
def Inner (timing : Timing) (phase : Phase) : Prop :=
  phase.timing = timing ∧ phase.visit ≠ .outside ∧ phase.stamp = none

section
variable {A : Type} {timing : Timing} {file : File Store.concurrency.Data}

theorem permits_inside {D : Type} {visit : Visit D} {kind : Kind} (inside : visit ≠ .outside) (later : kind ≠ .enter) :
    visit.permits kind := by
  cases visit with
  | outside => exact absurd rfl inside
  | entered => cases kind <;> trivial
  | loaded data => cases kind <;> trivial

/-- An operation that takes no claim asks for nothing that the process has read. -/
theorem takes_none {phase : Phase} {op : Effect} (silent : ∀ key, stampOf op ≠ some ⟨key, true⟩) :
    ∀ key, stampOf op = some ⟨key, true⟩ → ∃ file, phase.visit = .loaded file ∧
      Concurrency.isLive (file.find? key) phase.timing.now (window phase.timing.timeout) = false :=
  fun key taken => absurd taken (silent key)

/-- A section starts and ends outside. -/
theorem section_idle {body : Store.concurrency.Data → Py A}
    (ends : ∀ file data, decode .concurrency file = .ok data → Fallible.wp timeouts.machine (body data)
      (fun _ _ after => Inner timing after) ⟨timing, .loaded file, none⟩) :
    Fallible.wp timeouts.machine (locked .concurrency (load .concurrency >>= body))
      (fun _ _ after => after = idle timing) (idle timing) := by
  have leaves {phase : Phase} (inner : Inner timing phase) :
      timeoutGuard phase (.unlock .concurrency) ∧
        ∀ after, after = timeoutNext phase (.unlock .concurrency) () → after = idle timing := by
    obtain ⟨rfl, inside, silent⟩ := inner
    refine ⟨⟨permits_inside inside (by decide), takes_none (by simp [stampOf]), trivial⟩, ?_⟩
    rintro _ rfl
    have forgotten : nextStamp phase.stamp (.unlock .concurrency) = none := by
      rw [silent]
      rfl
    simp only [timeoutNext, forgotten, idle, Phase.mk.injEq, true_and, and_true]
    rfl
  rw [wp_locked]
  refine ⟨⟨rfl, takes_none (by simp [stampOf]), trivial⟩, ?_⟩
  rintro _ rfl
  rw [Fallible.wp_bind, wp_load]
  refine ⟨⟨permits_inside (by simp [timeoutNext, Visit.next, kindOf]) (by decide), takes_none (by simp [stampOf]), trivial⟩, ?_⟩
  rintro file _ rfl
  cases decoded : decode .concurrency file with
  | error exc => exact leaves ⟨rfl, by simp [timeoutNext, Visit.next, kindOf, seenIn], rfl⟩
  | ok data => exact Fallible.wp_mono (ends file data decoded) fun _ _ _ inner => leaves inner

/-- The body announces, writes, and ends inside. -/
theorem stamped_write {point : Note} {data : Store.concurrency.Data} (value : A)
    (permitted : timeoutGuard ⟨timing, .loaded file, none⟩ (.note point))
    (keeps : keepsTimes ⟨timing, .loaded file, stampOf (.note point)⟩ file (Store.concurrency.sorted data)) :
    Fallible.wp timeouts.machine (note point >>= fun _ => writeAtomic .concurrency data >>= fun _ => pure value)
      (fun _ _ after => Inner timing after) ⟨timing, .loaded file, none⟩ := by
  have announced : timeoutNext ⟨timing, .loaded file, none⟩ (.note point) () =
      ⟨timing, .loaded file, stampOf (.note point)⟩ := by
    simp only [timeoutNext, nextStamp, Effect.writes, Bool.false_eq_true, if_false, Option.or_none]
    rfl
  rw [Fallible.wp_bind, wp_note]
  refine ⟨permitted, ?_⟩
  rintro _ rfl
  change Fallible.wp timeouts.machine (writeAtomic .concurrency data >>= fun _ => pure value) _
    (timeoutNext ⟨timing, .loaded file, none⟩ (.note point) ())
  rw [announced, Fallible.wp_bind, wp_writeAtomic]
  refine ⟨⟨permits_inside (by simp) (by simp [kindOf]), takes_none (by simp [stampOf]), file, rfl, keeps⟩, ?_⟩
  rintro _ rfl
  exact ⟨rfl, by simp [timeoutNext, Visit.next, kindOf], rfl⟩

/-- A blank text ends the operation before its section. -/
theorem named_idle {K : Type} {kind : ExcKind} {fields : List (String × String)} {key : K} {rest : K → Py A}
    (later : Fallible.wp timeouts.machine (rest key) (fun _ _ after => after = idle timing) (idle timing)) :
    Fallible.wp timeouts.machine ((requireTexts kind fields >>= fun _ => pure key) >>= rest)
      (fun _ _ after => after = idle timing) (idle timing) := by
  rw [Fallible.wp_bind, wp_checked]
  cases checkTexts kind fields with
  | error exc => rfl
  | ok _ => exact later

/-- A claim has the same record before and after decoding. -/
theorem find?_of_decode {data : Store.concurrency.Data} (decoded : decode .concurrency file = .ok data) (key : Key) :
    file.find? key = Dict.get? data key := by
  rcases (decode_eq_ok_iff _ _ _).mp decoded with ⟨rfl, rfl⟩ | rfl <;> rfl

/-- A record with the time of the process replaces the announced claim. -/
theorem keeps_set {data : Dict (String × String) ConcurrencyClaim} (decoded : decode .concurrency file = .ok data)
    (key : Key) (taken : Bool) :
    keepsTimes ⟨timing, .loaded file, some ⟨key, taken⟩⟩ file
      (Store.concurrency.sorted (data.set key ⟨timing.now⟩)) := by
  intro other record stored
  rw [Concurrency.get?_sorted, Dict.get?_set] at stored
  by_cases same : other = key
  · subst other
    rw [if_pos rfl] at stored
    obtain rfl := Option.some.inj stored
    simp
  · rw [if_neg same] at stored
    have foreign : (some (Stamp.mk key taken)).map Stamp.key ≠ some other :=
      fun equal => same (Option.some.inj equal).symm
    rw [if_neg foreign, find?_of_decode decoded]
    exact stored

/-- An erased claim leaves the other ones. -/
theorem keeps_erase {data : Dict (String × String) ConcurrencyClaim} (decoded : decode .concurrency file = .ok data)
    (key : Key) :
    keepsTimes ⟨timing, .loaded file, none⟩ file (Store.concurrency.sorted (data.erase key)) := by
  intro other record stored
  rw [Concurrency.get?_sorted] at stored
  by_cases same : other = key
  · subst other
    rw [Dict.get?_erase_self] at stored
    cases stored
  · rw [Dict.get?_erase_of_ne _ same] at stored
    rw [if_neg (by simp), find?_of_decode decoded]
    exact stored

end

section
variable {timing : Timing}

/-- A claim is taken for the window of the process at its clock reading. -/
theorem tryClaim_idle (assistant subject : String) (holder : Holder) :
    Fallible.wp timeouts.machine
      (Concurrency.tryClaim assistant subject timing.now (window timing.timeout) holder)
      (fun _ _ after => after = idle timing) (idle timing) := by
  apply named_idle
  apply section_idle
  intro file data decoded
  rw [Fallible.wp_ite]
  split
  · exact ⟨rfl, by simp, rfl⟩
  · rename_i stale
    apply stamped_write true
    · refine ⟨trivial, ?_, trivial⟩
      rintro key taken
      obtain rfl : (assistant, subject) = key := congrArg Stamp.key (Option.some.inj taken)
      refine ⟨file, rfl, ?_⟩
      rw [find?_of_decode decoded]
      simpa using stale
    · exact keeps_set decoded _ true

theorem release_idle (assistant subject : String) (holder : Holder) :
    Fallible.wp timeouts.machine (Concurrency.release assistant subject holder)
      (fun _ _ after => after = idle timing) (idle timing) := by
  apply named_idle
  apply section_idle
  intro file data decoded
  rw [Fallible.wp_ite]
  split
  · apply stamped_write ()
    · exact ⟨trivial, takes_none (by simp [stampOf]), trivial⟩
    · exact keeps_erase decoded _
  · rw [wp_note]
    refine ⟨⟨trivial, takes_none (by simp [stampOf]), trivial⟩, ?_⟩
    rintro _ rfl
    exact ⟨rfl, by simp [timeoutNext, Visit.next, kindOf], rfl⟩

theorem renew_idle (assistant subject : String) (holder : Holder) :
    Fallible.wp timeouts.machine (Concurrency.renew assistant subject timing.now holder)
      (fun _ _ after => after = idle timing) (idle timing) := by
  apply named_idle
  apply section_idle
  intro file data decoded
  rw [Fallible.wp_ite]
  split
  · apply stamped_write ()
    · exact ⟨trivial, takes_none (by simp [stampOf]), trivial⟩
    · exact keeps_set decoded _ false
  · exact ⟨rfl, by simp, rfl⟩

end

section
open Router
variable {timing : Timing}

/-- A program leaves an idle process idle. -/
abbrev Idles {A : Type} (timing : Timing) (program : Py A) : Prop :=
  Fallible.Keeps timeouts.machine (fun phase => phase = idle timing) program

theorem idles_aside {A : Type} {areas : List Area} (outside : .store .concurrency ∉ areas) {program : Py A}
    (within : Within areas program) : Idles timing program := by
  have neutral (phase : Phase) (op : Effect) (inside : op.area ∈ areas) :
      timeoutGuard phase op ∧ ∀ answer, timeoutNext phase op answer = phase :=
    timeouts_neutral phase fun same => outside (same ▸ inside)
  rintro _ rfl
  exact wp_neutral timeouts neutral within (idle timing)

theorem tryClaim_idles (assistant subject : String) (holder : Holder) :
    Idles timing (Concurrency.tryClaim assistant subject timing.now (window timing.timeout) holder) := by
  rintro _ rfl
  exact tryClaim_idle assistant subject holder

theorem release_idles (assistant subject : String) (holder : Holder) :
    Idles timing (Concurrency.release assistant subject holder) := by
  rintro _ rfl
  exact release_idle assistant subject holder

theorem renew_idles (assistant subject : String) (holder : Holder) :
    Idles timing (Concurrency.renew assistant subject timing.now holder) := by
  rintro _ rfl
  exact renew_idle assistant subject holder

/-- A settled Run releases its claim or leaves it. -/
theorem settleRun_idles (signal : Signal) (rule : Rule) (connection : Connection) (graphInput : List (String × Json))
    (subject : String) :
    Idles timing (settleRun signal rule connection graphInput subject timing.timeout timing.now) := by
  apply settleRun_sequential (keeps_sequential _ _)
  · apply submitRun_sequential (keeps_sequential _ _) (idles_aside (by decide))
    intro signal rule subject result
    exact idles_aside (by decide) (recordAccepted_within _ _ _ _ _)
  · intro deployment concurrency
    have activity : Inside (.store .lifecycle) (DeploymentLifecycle.releaseActive rule.connection connection timing.now
        (.hop signal.childCascadeDepth)) := DeploymentLifecycle.releaseActive_inside _ _ _ rfl
    exact Fallible.Keeps.bind (idles_aside (by decide) (whenever_within activity)) fun _ =>
      (keeps_sequential _ _).toComposed.whenever _ (release_idles _ _ _)

theorem routeSignal_idles (signal : Signal) : Idles timing (routeSignal signal timing.timeout timing.now) := by
  apply routeSignal_mapped (keeps_sequential _ _).toComposed (idles_aside (by decide))
  intro cascade children signal rule connection graphInput subject
  apply Fallible.Keeps.bind (tryClaim_idles _ _ _)
  intro taken
  split
  · exact Fallible.keeps_pure _
  · exact Fallible.Keeps.bind (settleRun_idles _ _ _ _ _) fun response =>
      chain_composed (keeps_sequential _ _).toComposed children _ _ _ _

theorem sweepPending_idles : Idles timing (sweepPending timing.timeout timing.now) := by
  apply sweepPending_composed (keeps_sequential _ _).toComposed (idles_aside (by decide))
  · exact idles_aside (by decide) (load_inside .pending)
  · exact fun _ _ _ _ => renew_idles _ _ _
  · intro connection deployment threadId
    have activity := DeploymentLifecycle.releaseActive_within deployment connection timing.now (.entry deployment threadId)
    have dropped : Within [.store .lifecycle, .handover]
        (DeploymentLifecycle.releaseActive deployment connection timing.now (.entry deployment threadId)) :=
      activity.mono (by simp [Holder.area])
    exact idles_aside (by decide) dropped
  · exact fun _ _ _ _ => release_idles _ _ _
  · exact fun _ _ => idles_aside (by decide) (PendingCompletions.updatePending_inside _ _ _ _ _ _)
  · exact fun _ _ => idles_aside (by decide) (PendingCompletions.resolvePending_inside _ _)
  · exact routeSignal_idles

open ApprovalInbox in
theorem submitResponse_idles (submission : Submission) (boundary : EntityAuthBoundary)
    (now : submission.now = timing.now) (timeout : submission.timeout = timing.timeout) :
    Idles timing (submitResponse submission boundary) := by
  apply submitResponse_sequential (keeps_sequential _ _) (idles_aside (by decide))
  apply afterResume_sequential (keeps_sequential _ _)
  · exact fun _ _ _ _ _ => idles_aside (by decide) (PendingCompletions.recordPending_inside _ _ _ _ _ _ _ _ _)
  · exact idles_aside (by decide) (PendingCompletions.resolvePending_inside _ _)
  · rw [now, timeout]
    exact routeSignal_idles

end

/-- An operation acts at one clock reading with one timeout. -/
def timingOf : Operation → Timing
  | .route _ _ _ timeout now => ⟨now, timeout⟩
  | .sweep timeout now => ⟨now, timeout⟩
  | .submit submission _ => ⟨submission.now, submission.timeout⟩

/-- Each operation obeys the protocol at its own timing. -/
theorem perform_obeys (operation : Operation) : timeouts.Obeys operation.perform (idle (timingOf operation)) := by
  have obeys {A : Type} {program : Py A} (idles : Idles (timingOf operation) program) :
      timeouts.Obeys (discard program) (idle (timingOf operation)) := by
    unfold Protocol.Obeys discard
    rw [Program.wp_bind]
    exact Program.wp_mono (idles _ rfl) fun _ _ _ _ => trivial
  cases operation with
  | route source id payload timeout now => exact obeys (routeSignal_idles _)
  | sweep timeout now => exact obeys sweepPending_idles
  | submit submission boundary => exact obeys (submitResponse_idles submission boundary rfl rfl)

end Cordboard.Timeouts
