import Cordboard.Proof.Frame
import Cordboard.Proof.Stores

namespace Cordboard.Handover
open Data Effects PendingCompletions

/-- An entry can record an activity claim and a concurrency claim. -/
inductive HeldClaim where
  | activity
  | concurrency
deriving DecidableEq

/-- A recorded claim is one of the two claims of a (Deployment, Thread) pair. -/
abbrev Claim := Pair × HeldClaim

def holds (entry : PendingEntry) : HeldClaim → Bool
  | .activity => entry.deploymentHeld
  | .concurrency => entry.concurrencyHeld

/-- The entry of the pair records the claim. -/
def records (find : Pair → Option PendingEntry) (claim : Claim) : Bool :=
  (find claim.1).any fun entry => holds entry claim.2

/-- The operation releases this claim on behalf of an entry. -/
def releasedBy : Effect → Option Claim
  | .note (.activityReleased _ (.entry deployment threadId) true) => some ((deployment, threadId), .activity)
  | .note (.concurrencyReleased _ _ (.entry deployment threadId) true) => some ((deployment, threadId), .concurrency)
  | _ => none

/-- A process remembers its last read and the record that it announced. The claims that it released stay open
until it clears them in the file. -/
structure Phase where
  seen : Option (File Store.pending.Data)
  announced : Option (Pair × PendingEntry)
  opened : List Claim
  done : List Claim

/-- The announced record holds the claim. -/
def Phase.announces (phase : Phase) (claim : Claim) : Bool :=
  phase.announced.any fun record => record.1 = claim.1 && holds record.2 claim.2

/-- A process writes a claim only when it announced it, or saw it and did not release it.
It releases each claim at most once. -/
def handoverGuard (phase : Phase) : Effect → Prop
  | .write .pending data => ∃ file, phase.seen = some file ∧ ∀ claim, records (Dict.get? data) claim = true →
      phase.announces claim = true ∨ records file.find? claim = true ∧ claim ∉ phase.opened
  | op => ∀ claim ∈ releasedBy op, claim ∉ phase.done

/-- A read closes the claims that the file no longer records, and a write closes all of them. -/
def handoverNext (phase : Phase) : (op : Effect) → op.Answer → Phase
  | .read .pending, file =>
      ⟨some file, phase.announced, phase.opened.filter (records file.find?), phase.done⟩
  | .write .pending _, _ => ⟨phase.seen, none, [], phase.done⟩
  | .note (.pendingChanged deployment threadId (.recorded _ new)), _ =>
      ⟨phase.seen, some ((deployment, threadId), new), phase.opened, phase.done⟩
  | op, _ => ⟨phase.seen, phase.announced, (releasedBy op).toList ++ phase.opened,
      (releasedBy op).toList ++ phase.done⟩

/-- This protocol follows one sweep through its releases and its writes of the pending completions. -/
abbrev handover : Protocol signature := ⟨Phase, handoverGuard, handoverNext⟩

/-- The handover protocol follows these two areas. -/
def handoverAreas : List Area := [.store .pending, .handover]

/-- Only a handover releases a claim on behalf of an entry. -/
theorem releasedBy_eq_none {op : Effect} (outside : op.area ≠ .handover) : releasedBy op = none := by
  cases op with
  | note point =>
      cases point with
      | activityReleased deployment holder effective =>
          cases holder with
          | entry deployment threadId => exact absurd rfl outside
          | _ => rfl
      | concurrencyReleased assistant subject holder effective =>
          cases holder with
          | entry deployment threadId => exact absurd rfl outside
          | _ => rfl
      | _ => rfl
  | _ => rfl

/-- An operation that releases nothing is permitted. -/
theorem unreleased {op : Effect} (none : releasedBy op = none) (done : List Claim) :
    ∀ claim ∈ releasedBy op, claim ∉ done := by
  intro claim member
  rw [none] at member
  cases member

/-- An operation outside the areas of the protocol is permitted and keeps the phase. -/
theorem handover_neutral (phase : Phase) {op : Effect} (outside : op.area ∉ handoverAreas) :
    handoverGuard phase op ∧ ∀ answer, handoverNext phase op answer = phase := by
  simp only [handoverAreas, List.mem_cons, List.not_mem_nil, or_false, not_or] at outside
  have none := releasedBy_eq_none outside.2
  have kept : (⟨phase.seen, phase.announced, (releasedBy op).toList ++ phase.opened,
      (releasedBy op).toList ++ phase.done⟩ : Phase) = phase := by
    rw [none]
    rfl
  have free := unreleased none phase.done
  cases op with
  | read store => cases store <;> first | exact ⟨free, fun _ => kept⟩ | exact absurd rfl outside.1
  | write store data => cases store <;> first | exact ⟨free, fun _ => kept⟩ | exact absurd rfl outside.1
  | note point => cases point <;> first | exact ⟨free, fun _ => kept⟩ | exact absurd rfl outside.1
  | _ => exact ⟨free, fun _ => kept⟩

/-- No claim is open, and these claims were released. -/
def Closed (done : List Claim) (phase : Phase) : Prop := phase.opened = [] ∧ phase.done = done

/-- The program obeys the protocol between two phases without open claims. -/
abbrev KeepsClosed {A : Type} (done : List Claim) (program : Py A) : Prop :=
  Fallible.Keeps handover.machine (Closed done) program

theorem closed_within {A : Type} {areas : List Area} (disjoint : ∀ area ∈ areas, area ∉ handoverAreas)
    {program : Py A} (within : Within areas program) (done : List Claim) : KeepsClosed done program := by
  intro phase closed
  apply Fallible.wp_mono (wp_neutral handover (fun phase _ inside => handover_neutral phase (disjoint _ inside))
    within phase)
  rintro _ _ _ rfl
  exact closed

/-- A decoded file records the claims of its data. -/
theorem records_of_decode {file : File (Dict Pair PendingEntry)} {data : Dict Pair PendingEntry}
    (decoded : decode .pending file = .ok data) (claim : Claim) : records file.find? claim = records data.get? claim := by
  rw [records, records, find?_of_decode decoded]

/-- The sorted data records the same claims. -/
theorem records_sorted (data : Dict Pair PendingEntry) (claim : Claim) :
    records (Dict.get? (Store.pending.sorted data)) claim = records data.get? claim := by
  rw [records, records, get?_sorted]

/-- Only the assigned entry can record a new claim. -/
theorem records_set {data : Dict Pair PendingEntry} {pair : Pair} {entry : PendingEntry} {claim : Claim}
    (recorded : records (data.set pair entry).get? claim = true) :
    claim.1 = pair ∧ holds entry claim.2 = true ∨ claim.1 ≠ pair ∧ records data.get? claim = true := by
  rw [records, Dict.get?_set] at recorded
  by_cases same : claim.1 = pair
  · rw [if_pos same] at recorded
    exact .inl ⟨same, recorded⟩
  · rw [if_neg same] at recorded
    exact .inr ⟨same, recorded⟩

/-- A new record is announced before it is written. -/
theorem recordPending_closed (deployment threadId invocationId assistant subject : String) (cascadeDepth : Nat)
    (concurrencyHeld deploymentHeld : Bool) (now : Time) (done : List Claim) :
    KeepsClosed done (recordPending deployment threadId invocationId assistant subject cascadeDepth
      concurrencyHeld deploymentHeld now) := by
  rintro ⟨seen, announced, opened, released⟩ ⟨rfl, rfl⟩
  simp only [recordPending, Fallible.wp_bind, wp_requireTexts]
  cases checkTexts .pendingCompletion [("deployment alias", deployment), ("thread ID", threadId),
    ("invocation ID", invocationId), ("assistant", assistant), ("subject", subject)] with
  | error exc => exact ⟨rfl, rfl⟩
  | ok value =>
      simp only [Fallible.after_ok, Fallible.wp_bind, loadPending, wp_load]
      refine ⟨unreleased rfl _, ?_⟩
      intro file after moved
      obtain rfl : after = ⟨some file, announced, [], released⟩ := moved
      cases decoded : decode .pending file with
      | error exc => exact ⟨rfl, rfl⟩
      | ok data =>
          simp only [Fallible.after_ok, Fallible.wp_bind, wp_key]
          cases checkTexts .pendingCompletion _ with
          | error exc => exact ⟨rfl, rfl⟩
          | ok value =>
              simp only [Except.map, Fallible.after_ok, Fallible.wp_bind, wp_note, wp_writeAtomic]
              refine ⟨unreleased rfl _, ?_⟩
              intro after moved
              subst moved
              refine ⟨⟨file, rfl, ?_⟩, ?_⟩
              · intro claim recorded
                rw [records_sorted] at recorded
                rcases records_set recorded with ⟨same, held⟩ | ⟨-, stored⟩
                · exact .inl (by simp [Phase.announces, handoverNext, same, held])
                · exact .inr ⟨(records_of_decode decoded claim).trans stored, List.not_mem_nil⟩
              · intro after moved
                subst moved
                refine ⟨unreleased rfl _, ?_⟩
                intro after moved
                subst moved
                exact ⟨rfl, rfl⟩

/-- The open claims belong to one pair. -/
def OpenAt (pair : Pair) (done : List Claim) (phase : Phase) : Prop :=
  (∀ claim ∈ phase.opened, claim.1 = pair) ∧ phase.done = done

/-- A read of the file keeps only the open claims that the file still records. -/
theorem filter_of_absent {pair : Pair} {opened : List Claim} (own : ∀ claim ∈ opened, claim.1 = pair)
    {file : File (Dict Pair PendingEntry)} (absent : file.find? pair = none) :
    opened.filter (records file.find?) = [] := by
  rw [List.filter_eq_nil_iff]
  intro claim member
  rw [records, own claim member, absent]
  exact Bool.false_ne_true

/-- A write without the claims of this pair closes all open claims. -/
theorem handoverGuard_write {pair : Pair} {file : File (Dict Pair PendingEntry)} {announced : Option (Pair × PendingEntry)}
    {opened done : List Claim} (own : ∀ claim ∈ opened, claim.1 = pair) {data : Dict Pair PendingEntry}
    (kept : ∀ claim, records (Dict.get? data) claim = true → claim.1 ≠ pair ∧ records file.find? claim = true) :
    handoverGuard ⟨some file, announced, opened, done⟩ (.write .pending data) := by
  refine ⟨file, rfl, ?_⟩
  intro claim recorded
  obtain ⟨different, stored⟩ := kept claim recorded
  exact .inr ⟨stored, fun member => different (own claim member)⟩

/-- A resolved entry records no claim any more. -/
theorem resolvePending_closes (deployment threadId : String) {done : List Claim} {phase : Phase}
    (opening : OpenAt (deployment, threadId) done phase) :
    Fallible.wp handover.machine (resolvePending deployment threadId)
      (fun _ outcome after => ∀ value, outcome = .ok value → Closed done after) phase := by
  obtain ⟨seen, announced, opened, released⟩ := phase
  obtain ⟨own, rfl⟩ := opening
  simp only [resolvePending, Fallible.wp_bind, loadPending, wp_load]
  refine ⟨unreleased rfl _, ?_⟩
  intro file after moved
  obtain rfl : after = ⟨some file, announced, opened.filter (records file.find?), released⟩ := moved
  cases decoded : decode .pending file with
  | error exc => exact fun value equal => by cases equal
  | ok data =>
      simp only [Fallible.after_ok, Fallible.wp_bind, wp_key]
      cases checkTexts .pendingCompletion _ with
      | error exc => exact fun value equal => by cases equal
      | ok value =>
          simp only [Except.map, Fallible.after_ok]
          cases present : data.get? (deployment, threadId) with
          | none =>
              have absent := (find?_of_decode decoded (deployment, threadId)).trans present
              exact fun _ _ => ⟨filter_of_absent own absent, rfl⟩
          | some record =>
              simp only [Fallible.wp_bind, wp_note, Fallible.after_ok, wp_writeAtomic]
              refine ⟨unreleased rfl _, ?_⟩
              intro after moved
              subst moved
              have remaining : ∀ claim ∈ opened.filter (records file.find?), claim.1 = (deployment, threadId) :=
                fun claim member => own claim (List.mem_of_mem_filter member)
              refine ⟨handoverGuard_write remaining ?_, ?_⟩
              · intro claim recorded
                rw [records_sorted] at recorded
                by_cases same : claim.1 = (deployment, threadId)
                · rw [records, same, Dict.get?_erase_self] at recorded
                  cases recorded
                · rw [records, Dict.get?_erase_of_ne data same] at recorded
                  exact ⟨same, (records_of_decode decoded claim).trans recorded⟩
              · intro after moved
                subst moved
                exact fun _ _ => ⟨rfl, rfl⟩

/-- A downgraded entry records no claim any more. -/
theorem updatePending_closes (deployment threadId : String) (now : Time) {done : List Claim} {phase : Phase}
    (opening : OpenAt (deployment, threadId) done phase) :
    Fallible.wp handover.machine (updatePending deployment threadId none (some false) (some false) now)
      (fun _ outcome after => ∀ value, outcome = .ok value → Closed done after) phase := by
  obtain ⟨seen, announced, opened, released⟩ := phase
  obtain ⟨own, rfl⟩ := opening
  simp only [updatePending, Fallible.wp_bind, loadPending, wp_load]
  refine ⟨unreleased rfl _, ?_⟩
  intro file after moved
  obtain rfl : after = ⟨some file, announced, opened.filter (records file.find?), released⟩ := moved
  cases decoded : decode .pending file with
  | error exc => exact fun value equal => by cases equal
  | ok data =>
      simp only [Fallible.after_ok, Fallible.wp_bind, wp_key]
      cases checkTexts .pendingCompletion _ with
      | error exc => exact fun value equal => by cases equal
      | ok value =>
          simp only [Except.map, Fallible.after_ok]
          cases present : data.get? (deployment, threadId) with
          | none =>
              have absent := (find?_of_decode decoded (deployment, threadId)).trans present
              exact fun _ _ => ⟨filter_of_absent own absent, rfl⟩
          | some record =>
              simp only [Fallible.wp_bind, wp_note, Fallible.after_ok, wp_writeAtomic]
              refine ⟨unreleased rfl _, ?_⟩
              intro after moved
              subst moved
              have remaining : ∀ claim ∈ opened.filter (records file.find?), claim.1 = (deployment, threadId) :=
                fun claim member => own claim (List.mem_of_mem_filter member)
              refine ⟨handoverGuard_write remaining ?_, ?_⟩
              · intro claim recorded
                rw [records_sorted] at recorded
                rcases records_set recorded with ⟨-, held⟩ | ⟨different, stored⟩
                · cases kind : claim.2 <;> simp [kind, holds, updateEntry] at held
                · exact ⟨different, (records_of_decode decoded claim).trans stored⟩
              · intro after moved
                subst moved
                exact fun _ _ => ⟨rfl, rfl⟩

/-- Between the two phases this claim was released, or nothing was. -/
def ReleasesOnly (claim : Claim) (before after : Phase) : Prop :=
  after.opened = before.opened ∧ after.done = before.done ∨
    after.opened = claim :: before.opened ∧ after.done = claim :: before.done

/-- A release of an activity claim opens this claim at most. -/
theorem releaseActive_opens (deployment threadId : String) (connection : Connection) (now : Time) {phase : Phase}
    (unspent : ((deployment, threadId), HeldClaim.activity) ∉ phase.done) :
    Fallible.wp handover.machine
      (DeploymentLifecycle.releaseActive deployment connection now (.entry deployment threadId))
      (fun _ _ after => ReleasesOnly ((deployment, threadId), .activity) phase after) phase := by
  have free : ∀ effective, ∀ claim ∈ releasedBy
      (.note (.activityReleased deployment (.entry deployment threadId) effective)), claim ∉ phase.done := by
    intro effective claim member
    cases effective with
    | false => cases member
    | true =>
        obtain rfl := Option.some.inj member
        exact unspent
  unfold DeploymentLifecycle.releaseActive
  split
  · refine ⟨free false, ?_⟩
    intro _ after moved
    subst moved
    exact .inl ⟨rfl, rfl⟩
  simp only [Fallible.wp_bind, DeploymentLifecycle.loadLifecycle, wp_load]
  refine ⟨unreleased rfl _, ?_⟩
  intro file after moved
  rw [show after = phase from moved]
  cases decode .lifecycle file with
  | error exc => exact .inl ⟨rfl, rfl⟩
  | ok data =>
      rw [Fallible.after_ok]
      cases data.get? deployment with
      | none =>
          refine ⟨free false, ?_⟩
          intro _ after moved
          subst moved
          exact .inl ⟨rfl, rfl⟩
      | some record =>
          simp only [Fallible.wp_ite, Fallible.wp_bind, wp_note, wp_writeAtomic, Fallible.after_ok]
          split
          · refine ⟨free _, ?_⟩
            intro after moved
            subst moved
            refine ⟨unreleased rfl _, ?_⟩
            intro after moved
            subst moved
            cases decide (0 < record.activeRuns) with
            | false => exact .inl ⟨rfl, rfl⟩
            | true => exact .inr ⟨rfl, rfl⟩
          · refine ⟨free false, ?_⟩
            intro after moved
            subst moved
            exact .inl ⟨rfl, rfl⟩

/-- A release of a concurrency claim opens this claim at most. -/
theorem release_opens (assistant subject deployment threadId : String) {phase : Phase}
    (unspent : ((deployment, threadId), HeldClaim.concurrency) ∉ phase.done) :
    Fallible.wp handover.machine (Concurrency.release assistant subject (.entry deployment threadId))
      (fun _ _ after => ReleasesOnly ((deployment, threadId), .concurrency) phase after) phase := by
  simp only [Concurrency.release, Fallible.wp_bind, Concurrency.wp_key]
  cases checkTexts .concurrency _ with
  | error exc => exact .inl ⟨rfl, rfl⟩
  | ok value =>
      simp only [Except.map, Fallible.after_ok, wp_locked, Fallible.wp_bind, Concurrency.loadConcurrency, wp_load]
      refine ⟨unreleased rfl _, ?_⟩
      intro after moved
      rw [show after = phase from moved]
      refine ⟨unreleased rfl _, ?_⟩
      intro file after moved
      rw [show after = phase from moved]
      cases decode .concurrency file with
      | error exc =>
          refine ⟨unreleased rfl _, ?_⟩
          intro after moved
          subst moved
          exact .inl ⟨rfl, rfl⟩
      | ok data =>
          simp only [Fallible.after_ok, Fallible.wp_ite, Fallible.wp_bind, wp_note, wp_writeAtomic]
          split
          · refine ⟨?_, ?_⟩
            · intro claim member
              obtain rfl := Option.some.inj member
              exact unspent
            · intro after moved
              subst moved
              refine ⟨unreleased rfl _, ?_⟩
              intro after moved
              subst moved
              refine ⟨unreleased rfl _, ?_⟩
              intro after moved
              subst moved
              exact .inr ⟨rfl, rfl⟩
          · refine ⟨unreleased rfl _, ?_⟩
            intro after moved
            subst moved
            refine ⟨unreleased rfl _, ?_⟩
            intro after moved
            subst moved
            exact .inl ⟨rfl, rfl⟩

end Cordboard.Handover
