import Cordboard.Proof.Frame
import Cordboard.Proof.Stores

namespace Cordboard.Owner
open Data Effects PendingCompletions

/-- A claim belongs to an (Assistant, Subject) pair. -/
abbrev Key := String × String

/-- The pair whose claim the entry may hold. -/
def keyOf (entry : PendingEntry) : Key := (entry.assistant, entry.subject)

/-- A process remembers the claim of its current hop, its last read of the entries, and the record that it announced. -/
structure Phase where
  hop : Option Key
  seen : Option (File Store.pending.Data)
  announced : Option (Pair × PendingEntry)

/-- The announced record takes the claim over from the hop. -/
def Phase.handsOver (phase : Phase) : Bool := phase.announced.any fun record => record.2.concurrencyHeld

/-- The operation releases or renews the claim of this pair for this holder. -/
def touches : Effect → Option (Key × Holder)
  | .note (.concurrencyReleased assistant subject holder true) => some ((assistant, subject), holder)
  | .note (.concurrencyRenewed assistant subject holder) => some ((assistant, subject), holder)
  | _ => none

/-- A hop takes one claim at a time and touches this claim only. It writes held entries that it announced under its own
claim, or that it has read. -/
def ownerGuard (phase : Phase) : Effect → Prop
  | .note (.concurrencyTaken _ _ _) => phase.hop = none
  | .write .pending data => ∃ file, phase.seen = some file ∧ ∀ pair entry, Dict.get? data pair = some entry →
      entry.concurrencyHeld = true →
        phase.announced = some (pair, entry) ∧ phase.hop = some (keyOf entry) ∨
          file.find? pair = some entry ∧ ∀ new, phase.announced ≠ some (pair, new)
  | op => ∀ touched ∈ touches op, (∃ deployment threadId, touched.2 = .entry deployment threadId) ∨
      phase.hop = some touched.1

/-- A hop holds its claim from the taking to the release or to the handover. -/
def ownerNext (phase : Phase) : (op : Effect) → op.Answer → Phase
  | .read .pending, file => { phase with seen := some file }
  | .write .pending _, _ => { phase with hop := if phase.handsOver then none else phase.hop, announced := none }
  | .note (.concurrencyTaken assistant subject _), _ => { phase with hop := some (assistant, subject) }
  | .note (.concurrencyReleased _ _ (.hop _) _), _ => { phase with hop := none }
  | .note (.pendingChanged deployment threadId (.recorded _ new)), _ =>
      { phase with announced := some ((deployment, threadId), new) }
  | _, _ => phase

/-- This protocol follows one process through its claims and its entries. -/
abbrev owner : Protocol signature := ⟨Phase, ownerGuard, ownerNext⟩

/-- The owner protocol follows these areas. -/
def ownerAreas : List Area := [.store .pending, .store .concurrency]

/-- An operation that touches no claim is permitted. -/
theorem untouched {op : Effect} (none : touches op = none) (phase : Phase) : ∀ touched ∈ touches op,
    (∃ deployment threadId, touched.2 = .entry deployment threadId) ∨ phase.hop = some touched.1 := by
  rw [none]
  exact fun _ member => by cases member

/-- A release or a renewal on behalf of an entry is permitted. -/
theorem touched_for_entry {op : Effect} {key : Key} {deployment threadId : String}
    (same : touches op = some (key, .entry deployment threadId)) (phase : Phase) :
    ∀ touched ∈ touches op, (∃ deployment threadId, touched.2 = .entry deployment threadId) ∨
      phase.hop = some touched.1 := by
  rw [same]
  intro touched member
  obtain rfl := Option.some.inj member
  exact .inl ⟨deployment, threadId, rfl⟩

/-- An operation outside the areas of the protocol is permitted and keeps the phase. -/
theorem owner_neutral (phase : Phase) {op : Effect} (outside : op.area ∉ ownerAreas) :
    ownerGuard phase op ∧ ∀ answer, ownerNext phase op answer = phase := by
  simp only [ownerAreas, List.mem_cons, List.not_mem_nil, or_false, not_or] at outside
  have free (none : touches op = none) := untouched none phase
  cases op with
  | read store => cases store <;> first | exact ⟨free rfl, fun _ => rfl⟩ | exact absurd rfl outside.1
  | write store data => cases store <;> first | exact ⟨free rfl, fun _ => rfl⟩ | exact absurd rfl outside.1
  | note point =>
      cases point with
      | concurrencyReleased assistant subject holder effective =>
          cases holder with
          | entry deployment threadId =>
              cases effective with
              | true => exact ⟨touched_for_entry rfl phase, fun _ => rfl⟩
              | false => exact ⟨free rfl, fun _ => rfl⟩
          | _ => exact absurd rfl outside.2
      | _ => first | exact ⟨free rfl, fun _ => rfl⟩ | exact absurd rfl outside.1 | exact absurd rfl outside.2
  | _ => exact ⟨free rfl, fun _ => rfl⟩

/-- The process has no claim of its own and announces nothing. -/
def Free (phase : Phase) : Prop := phase.hop = none ∧ phase.announced = none

/-- The hop of the process holds this claim. -/
def Holding (key : Key) (phase : Phase) : Prop := phase.hop = some key ∧ phase.announced = none

theorem keeps_aside {A : Type} {areas : List Area} (disjoint : ∀ area ∈ areas, area ∉ ownerAreas) {program : Py A}
    (within : Within areas program) (holds : Phase → Prop) : Fallible.Keeps owner.machine holds program := by
  intro phase held
  apply Fallible.wp_mono (wp_neutral owner (fun phase _ inside => owner_neutral phase (disjoint _ inside)) within phase)
  rintro _ _ _ rfl
  exact held

/-- A hop that was free holds the claim that it takes. -/
theorem tryClaim_takes (assistant subject : String) (now staleAfter : Time) (holder : Holder) {phase : Phase}
    (free : Free phase) :
    Fallible.wp owner.machine (Concurrency.tryClaim assistant subject now staleAfter holder)
      (fun _ outcome after => (outcome = .ok true → Holding (assistant, subject) after) ∧
        (outcome = .ok false → Free after)) phase := by
  have raised {exc : Exc} {after : Phase} : ((Except.error exc : Except Exc Bool) = .ok true →
      Holding (assistant, subject) after) ∧ ((Except.error exc : Except Exc Bool) = .ok false → Free after) := by
    constructor
    · intro same
      cases same
    · intro same
      cases same
  simp only [Concurrency.tryClaim, Fallible.wp_bind, Concurrency.wp_key]
  cases checkTexts .concurrency _ with
  | error exc => exact raised
  | ok _ =>
      simp only [Except.map, Fallible.after_ok, Fallible.wp_bind, wp_locked, Concurrency.loadConcurrency, wp_load]
      refine ⟨untouched rfl _, ?_⟩
      rintro entered moved
      obtain rfl : phase = entered := moved.symm
      refine ⟨untouched rfl _, ?_⟩
      rintro file loaded moved
      obtain rfl : phase = loaded := moved.symm
      cases decode .concurrency file with
      | error exc =>
          refine ⟨untouched rfl _, ?_⟩
          rintro _ _
          exact raised
      | ok data =>
          rw [Fallible.after_ok, Fallible.wp_ite]
          split
          · refine ⟨untouched rfl _, ?_⟩
            rintro left moved
            obtain rfl : phase = left := moved.symm
            refine ⟨?_, fun _ => free⟩
            intro same
            cases same
          · simp only [Fallible.wp_bind, wp_note, Fallible.after_ok, wp_writeAtomic]
            refine ⟨free.1, ?_⟩
            rintro _ rfl
            refine ⟨untouched rfl _, ?_⟩
            rintro _ rfl
            refine ⟨untouched rfl _, ?_⟩
            rintro _ rfl
            refine ⟨fun _ => ⟨rfl, free.2⟩, ?_⟩
            intro same
            cases same

/-- A hop that releases its own claim is free. -/
theorem release_frees (assistant subject : String) (cascadeDepth : Nat) {phase : Phase}
    (holding : Holding (assistant, subject) phase) :
    Fallible.wp owner.machine (Concurrency.release assistant subject (.hop cascadeDepth))
      (fun _ outcome after => outcome = .ok () → Free after) phase := by
  have own (op : Effect) (touched : ∀ claim ∈ touches op, claim.1 = (assistant, subject)) : ∀ claim ∈ touches op,
      (∃ deployment threadId, claim.2 = .entry deployment threadId) ∨ phase.hop = some claim.1 :=
    fun claim member => .inr (holding.1.trans (congrArg some (touched claim member).symm))
  simp only [Concurrency.release, Fallible.wp_bind, Concurrency.wp_key]
  cases checkTexts .concurrency _ with
  | error exc =>
      intro same
      cases same
  | ok _ =>
      simp only [Except.map, Fallible.after_ok, wp_locked, Fallible.wp_bind, Concurrency.loadConcurrency, wp_load]
      refine ⟨untouched rfl _, ?_⟩
      rintro entered moved
      obtain rfl : phase = entered := moved.symm
      refine ⟨untouched rfl _, ?_⟩
      rintro file loaded moved
      obtain rfl : phase = loaded := moved.symm
      cases decode .concurrency file with
      | error exc =>
          refine ⟨untouched rfl _, ?_⟩
          rintro _ _ same
          cases same
      | ok data =>
          simp only [Fallible.after_ok, Fallible.wp_ite, Fallible.wp_bind, wp_note, wp_writeAtomic]
          split
          · refine ⟨own _ ?_, ?_⟩
            · intro claim member
              obtain rfl := Option.some.inj member
              rfl
            rintro _ rfl
            refine ⟨untouched rfl _, ?_⟩
            rintro _ rfl
            refine ⟨untouched rfl _, ?_⟩
            rintro _ rfl _
            exact ⟨rfl, holding.2⟩
          · refine ⟨untouched rfl _, ?_⟩
            rintro _ rfl
            refine ⟨untouched rfl _, ?_⟩
            rintro _ rfl _
            exact ⟨rfl, holding.2⟩

section
variable {holds : Phase → Prop}

/-- A release on behalf of an entry keeps the phase. -/
theorem release_keeps (assistant subject deployment threadId : String) :
    Fallible.Keeps owner.machine holds (Concurrency.release assistant subject (.entry deployment threadId)) := by
  intro phase held
  simp only [Concurrency.release, Fallible.wp_bind, Concurrency.wp_key]
  cases checkTexts .concurrency _ with
  | error exc => exact held
  | ok _ =>
      simp only [Except.map, Fallible.after_ok, wp_locked, Fallible.wp_bind, Concurrency.loadConcurrency, wp_load]
      refine ⟨untouched rfl _, ?_⟩
      rintro _ rfl
      refine ⟨untouched rfl _, ?_⟩
      rintro file _ rfl
      cases decode .concurrency file with
      | error exc =>
          refine ⟨untouched rfl _, ?_⟩
          rintro _ rfl
          exact held
      | ok data =>
          simp only [Fallible.after_ok, Fallible.wp_ite, Fallible.wp_bind, wp_note, wp_writeAtomic]
          split
          · refine ⟨touched_for_entry rfl _, ?_⟩
            rintro _ rfl
            refine ⟨untouched rfl _, ?_⟩
            rintro _ rfl
            refine ⟨untouched rfl _, ?_⟩
            rintro _ rfl
            exact held
          · refine ⟨untouched rfl _, ?_⟩
            rintro _ rfl
            refine ⟨untouched rfl _, ?_⟩
            rintro _ rfl
            exact held

/-- A renewal on behalf of an entry keeps the phase. -/
theorem renew_keeps (assistant subject deployment threadId : String) (now : Time) :
    Fallible.Keeps owner.machine holds (Concurrency.renew assistant subject now (.entry deployment threadId)) := by
  intro phase held
  simp only [Concurrency.renew, Fallible.wp_bind, Concurrency.wp_key]
  cases checkTexts .concurrency _ with
  | error exc => exact held
  | ok _ =>
      simp only [Except.map, Fallible.after_ok, wp_locked, Fallible.wp_bind, Concurrency.loadConcurrency, wp_load]
      refine ⟨untouched rfl _, ?_⟩
      rintro _ rfl
      refine ⟨untouched rfl _, ?_⟩
      rintro file _ rfl
      cases decode .concurrency file with
      | error exc =>
          refine ⟨untouched rfl _, ?_⟩
          rintro _ rfl
          exact held
      | ok data =>
          simp only [Fallible.after_ok, Fallible.wp_ite, Fallible.wp_bind, wp_note, wp_writeAtomic, Fallible.wp_pure]
          split
          · refine ⟨touched_for_entry rfl _, ?_⟩
            rintro _ rfl
            refine ⟨untouched rfl _, ?_⟩
            rintro _ rfl
            refine ⟨untouched rfl _, ?_⟩
            rintro _ rfl
            exact held
          · refine ⟨untouched rfl _, ?_⟩
            rintro _ rfl
            exact held

end

/-- A new record takes the claim over from the hop exactly when it is held. -/
theorem recordPending_hands (deployment threadId invocationId assistant subject : String) (cascadeDepth : Nat)
    (concurrencyHeld deploymentHeld : Bool) (now : Time) {phase : Phase} (holding : Holding (assistant, subject) phase) :
    Fallible.wp owner.machine (recordPending deployment threadId invocationId assistant subject cascadeDepth
      concurrencyHeld deploymentHeld now)
      (fun _ outcome after => outcome = .ok () ∧ concurrencyHeld = true ∧ Free after ∨
        (outcome = .ok () → concurrencyHeld = false) ∧ Holding (assistant, subject) after) phase := by
  have raised {exc : Exc} {after : Phase} (holding : Holding (assistant, subject) after) :
      ((Except.error exc : Except Exc Unit) = .ok () ∧ concurrencyHeld = true ∧ Free after) ∨
        ((Except.error exc : Except Exc Unit) = .ok () → concurrencyHeld = false) ∧
          Holding (assistant, subject) after := by
    refine .inr ⟨?_, holding⟩
    intro same
    cases same
  obtain ⟨hop, seen, announced⟩ := phase
  obtain ⟨rfl, rfl⟩ := holding
  simp only [recordPending, Fallible.wp_bind, wp_requireTexts]
  cases checkTexts .pendingCompletion [("deployment alias", deployment), ("thread ID", threadId),
    ("invocation ID", invocationId), ("assistant", assistant), ("subject", subject)] with
  | error exc => exact raised ⟨rfl, rfl⟩
  | ok value =>
      simp only [Fallible.after_ok, Fallible.wp_bind, loadPending, wp_load]
      refine ⟨untouched rfl _, ?_⟩
      rintro file _ rfl
      cases decoded : decode .pending file with
      | error exc => exact raised ⟨rfl, rfl⟩
      | ok data =>
          simp only [Fallible.after_ok, Fallible.wp_bind, wp_key]
          cases checkTexts .pendingCompletion _ with
          | error exc => exact raised ⟨rfl, rfl⟩
          | ok value =>
              simp only [Except.map, Fallible.after_ok, Fallible.wp_bind, wp_note, wp_writeAtomic]
              refine ⟨untouched rfl _, ?_⟩
              rintro _ rfl
              refine ⟨⟨file, rfl, ?_⟩, ?_⟩
              · intro pair entry stored held
                rw [get?_sorted, Dict.get?_set] at stored
                split at stored
                · rename_i same
                  subst same
                  obtain rfl := Option.some.inj stored
                  exact .inl ⟨rfl, rfl⟩
                · rename_i different
                  refine .inr ⟨(find?_of_decode decoded pair).trans stored, ?_⟩
                  intro new same
                  exact different (congrArg Prod.fst (Option.some.inj same)).symm
              rintro _ rfl
              refine ⟨untouched rfl _, ?_⟩
              rintro _ rfl
              cases concurrencyHeld with
              | true => exact .inl ⟨trivial, rfl, rfl, rfl⟩
              | false => exact .inr ⟨fun _ => rfl, rfl, rfl⟩

/-- A downgraded entry holds no claim. -/
theorem updatePending_free (deployment threadId : String) (now : Time) :
    Fallible.Keeps owner.machine Free (updatePending deployment threadId none (some false) (some false) now) := by
  rintro ⟨hop, seen, announced⟩ ⟨rfl, rfl⟩
  simp only [updatePending, Fallible.wp_bind, loadPending, wp_load]
  refine ⟨untouched rfl _, ?_⟩
  rintro file _ rfl
  cases decoded : decode .pending file with
  | error exc => exact ⟨rfl, rfl⟩
  | ok data =>
      simp only [Fallible.after_ok, Fallible.wp_bind, wp_key]
      cases checkTexts .pendingCompletion _ with
      | error exc => exact ⟨rfl, rfl⟩
      | ok value =>
          simp only [Except.map, Fallible.after_ok]
          cases present : data.get? (deployment, threadId) with
          | none => exact ⟨rfl, rfl⟩
          | some record =>
              simp only [Fallible.wp_bind, wp_note, Fallible.after_ok, wp_writeAtomic]
              refine ⟨untouched rfl _, ?_⟩
              rintro _ rfl
              refine ⟨⟨file, rfl, ?_⟩, ?_⟩
              · intro pair entry stored held
                rw [get?_sorted, Dict.get?_set] at stored
                split at stored
                · obtain rfl := Option.some.inj stored
                  cases held
                · refine .inr ⟨(find?_of_decode decoded pair).trans stored, ?_⟩
                  intro new same
                  cases same
              rintro _ rfl
              exact ⟨rfl, rfl⟩

/-- A resolved entry holds no claim. -/
theorem resolvePending_free (deployment threadId : String) :
    Fallible.Keeps owner.machine Free (resolvePending deployment threadId) := by
  rintro ⟨hop, seen, announced⟩ ⟨rfl, rfl⟩
  simp only [resolvePending, Fallible.wp_bind, loadPending, wp_load]
  refine ⟨untouched rfl _, ?_⟩
  rintro file _ rfl
  cases decoded : decode .pending file with
  | error exc => exact ⟨rfl, rfl⟩
  | ok data =>
      simp only [Fallible.after_ok, Fallible.wp_bind, wp_key]
      cases checkTexts .pendingCompletion _ with
      | error exc => exact ⟨rfl, rfl⟩
      | ok value =>
          simp only [Except.map, Fallible.after_ok]
          cases present : data.get? (deployment, threadId) with
          | none => exact ⟨rfl, rfl⟩
          | some record =>
              simp only [Fallible.wp_bind, wp_note, Fallible.after_ok, wp_writeAtomic]
              refine ⟨untouched rfl _, ?_⟩
              rintro _ rfl
              refine ⟨⟨file, rfl, ?_⟩, ?_⟩
              · intro pair entry stored held
                rw [get?_sorted] at stored
                by_cases same : pair = (deployment, threadId)
                · rw [same, Dict.get?_erase_self] at stored
                  cases stored
                · rw [Dict.get?_erase_of_ne data same] at stored
                  refine .inr ⟨(find?_of_decode decoded pair).trans stored, ?_⟩
                  intro new same
                  cases same
              rintro _ rfl
              exact ⟨rfl, rfl⟩

end Cordboard.Owner
