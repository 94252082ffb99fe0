import Cordboard.Proof.Frame
import Cordboard.Proof.Stores

namespace Cordboard.ResponseDedupe
open Data Effects

/-- A process is outside the lock, or inside it with the file that it read last. -/
inductive Section where
  | outside
  | entered
  | loaded (file : File Store.responseDedupe.Data)

theorem Section.entered_ne : Section.entered ≠ .outside := fun same => by cases same

theorem Section.loaded_ne (file : File Store.responseDedupe.Data) : Section.loaded file ≠ .outside :=
  fun same => by cases same

/-- The right to resume is written with the claim, granted by the answer, and spent by the resume. -/
inductive Right where
  | none
  | written
  | granted
  | spent
deriving DecidableEq

/-- The phase of one process says where it is and what it won. -/
structure Phase where
  place : Section
  right : Right

/-- The record of a slot survives, and so does an outcome once it has one. -/
def Follows (old new : Option ResponseClaim) : Prop :=
  ∀ claim, old = some claim → ∃ next, new = some next ∧ (claim.outcome.isSome → next.outcome = claim.outcome)

theorem Follows.refl (claim : Option ResponseClaim) : Follows claim claim :=
  fun old same => ⟨old, same, fun _ => rfl⟩

theorem Follows.none (claim : ResponseClaim) : Follows Option.none (some claim) := fun _ same => by cases same

/-- The write fills a slot that was empty in the file that this process read. -/
def fills (slot : Slot) (place : Section) (data : Dict Slot ResponseClaim) : Bool :=
  match place with
  | .loaded file => (file.find? slot).isNone && (data.get? slot).isSome
  | _ => false

/-- A process writes what follows from its own read, and resumes only with a granted right. -/
def slotGuard (slot : Slot) (phase : Phase) : Effect → Prop
  | .read .responseDedupe => phase.place ≠ .outside
  | .write .responseDedupe data =>
      ∃ file, phase.place = .loaded file ∧ Follows (file.find? slot) (data.get? slot)
  | .lock .responseDedupe => phase.place = .outside
  | .unlock .responseDedupe => phase.place ≠ .outside
  | .note (.responseClaimed deployment threadId interruptId true) =>
      (deployment, threadId, interruptId) = slot → phase.right = .written
  | .note (.resuming deployment threadId interruptId) =>
      (deployment, threadId, interruptId) = slot → phase.right = .granted
  | _ => True

/-- Each operation on the slot moves the process to its next phase. -/
def slotNext (slot : Slot) (phase : Phase) : (op : Effect) → op.Answer → Phase
  | .read .responseDedupe, file => ⟨.loaded file, phase.right⟩
  | .write .responseDedupe data, _ =>
      ⟨.entered, if fills slot phase.place data then .written else phase.right⟩
  | .lock .responseDedupe, _ => ⟨.entered, phase.right⟩
  | .unlock .responseDedupe, _ => ⟨.outside, phase.right⟩
  | .note (.responseClaimed deployment threadId interruptId true), _ =>
      ⟨phase.place, if (deployment, threadId, interruptId) = slot then .granted else phase.right⟩
  | .note (.resuming deployment threadId interruptId), _ =>
      ⟨phase.place, if (deployment, threadId, interruptId) = slot then .spent else phase.right⟩
  | _, _ => phase

/-- This protocol follows the operations of one process on one slot. -/
abbrev slotProtocol (slot : Slot) : Protocol signature := ⟨Phase, slotGuard slot, slotNext slot⟩

/-- The slot protocol follows these two areas. -/
def slotAreas : List Area := [.store .responseDedupe, .resumption]

/-- An operation outside the areas of the protocol is permitted and keeps the phase. -/
theorem slot_neutral (slot : Slot) (phase : Phase) {op : Effect} (outside : op.area ∉ slotAreas) :
    slotGuard slot phase op ∧ ∀ answer, slotNext slot phase op answer = phase := by
  cases op with
  | call target => exact ⟨trivial, fun _ => rfl⟩
  | read store =>
      cases store <;> first | exact ⟨trivial, fun _ => rfl⟩ | exact absurd (List.mem_cons_self ..) outside
  | write store data =>
      cases store <;> first | exact ⟨trivial, fun _ => rfl⟩ | exact absurd (List.mem_cons_self ..) outside
  | lock file =>
      cases file <;> first | exact ⟨trivial, fun _ => rfl⟩ | exact absurd (List.mem_cons_self ..) outside
  | unlock file =>
      cases file <;> first | exact ⟨trivial, fun _ => rfl⟩ | exact absurd (List.mem_cons_self ..) outside
  | note point =>
      cases point <;> first
        | exact ⟨trivial, fun _ => rfl⟩
        | exact absurd (by simp [slotAreas, Effect.area, Note.area]) outside

section
variable {A : Type} (slot : Slot) (phase : Phase)

theorem wp_neutral_slot {areas : List Area} (disjoint : ∀ area ∈ areas, area ∉ slotAreas) {program : Py A}
    (within : Within areas program) :
    Fallible.wp (slotProtocol slot).machine program (fun _ _ after => after = phase) phase :=
  wp_neutral (slotProtocol slot) (fun phase _ inside => slot_neutral slot phase (disjoint _ inside)) within phase

end

section
variable (slot target : Slot) {file : File (Dict Slot ResponseClaim)} {data : Dict Slot ResponseClaim}

/-- A new record at an empty slot keeps each other slot. -/
theorem follows_set (decoded : decode .responseDedupe file = .ok data) (record : ResponseClaim)
    (kept : Follows (data.get? target) (some record)) :
    Follows (file.find? slot) (Dict.get? (Store.responseDedupe.sorted (data.set target record)) slot) := by
  rw [get?_sorted, find?_of_decode decoded, Dict.get?_set]
  split
  · rename_i same
    exact same ▸ kept
  · exact Follows.refl _

/-- Only the new record of an empty slot fills it. -/
theorem fills_set (decoded : decode .responseDedupe file = .ok data) (record : ResponseClaim) :
    fills slot (.loaded file) (Store.responseDedupe.sorted (data.set target record)) =
      (decide (slot = target) && (data.get? target).isNone) := by
  simp only [fills, get?_sorted, find?_of_decode decoded, Dict.get?_set]
  by_cases same : slot = target
  · simp [same]
  · simp [same]

end

/-- The protocol follows a claim to the right that it grants. -/
theorem claim_slot (slot : Slot) (deployment threadId interruptId : String) (now : Time) (right : Right) :
    Fallible.wp (slotProtocol slot).machine (claim deployment threadId interruptId now)
      (fun _ outcome after => after = ⟨.outside, match outcome with
        | .ok true => if slot = (deployment, threadId, interruptId) then .granted else right
        | _ => right⟩) ⟨.outside, right⟩ := by
  simp only [claim, Fallible.wp_bind, wp_key]
  cases checkTexts .responseDedupe _ with
  | error exc => rfl
  | ok value =>
      simp only [Except.map, Fallible.after_ok, Fallible.wp_bind, wp_locked, loadResponseDedupe, wp_load]
      refine ⟨rfl, ?_⟩
      rintro _ rfl
      refine ⟨Section.entered_ne, ?_⟩
      rintro file _ rfl
      cases decoded : decode .responseDedupe file with
      | error exc =>
          rw [Fallible.after_error]
          refine ⟨Section.loaded_ne file, ?_⟩
          rintro _ rfl
          rfl
      | ok data =>
          simp only [Fallible.after_ok, Fallible.wp_ite, Fallible.wp_pure, Fallible.wp_bind, wp_writeAtomic]
          split
          · refine ⟨Section.loaded_ne file, ?_⟩
            rintro _ rfl
            simp only [Fallible.after_ok, wp_note, Fallible.wp_pure]
            refine ⟨trivial, ?_⟩
            rintro _ rfl
            rfl
          · rename_i present
            have absent : data.get? (deployment, threadId, interruptId) = none := by simpa using present
            refine ⟨⟨file, rfl, follows_set slot _ decoded _ (absent ▸ Follows.none _)⟩, ?_⟩
            rintro _ rfl
            refine ⟨Section.entered_ne, ?_⟩
            rintro _ rfl
            -- The write gives the right exactly when it fills this slot.
            simp only [Fallible.after_ok, wp_note, Fallible.wp_pure, Protocol.machine_guard, Protocol.machine_step,
              slotGuard, slotNext, fills_set slot _ decoded, absent, Option.isNone_none, Bool.and_true, decide_eq_true_eq]
            refine ⟨fun same => by simp [same], ?_⟩
            rintro _ rfl
            by_cases same : slot = (deployment, threadId, interruptId)
            · simp [same]
            · simp [same, Ne.symm same]

/-- The outcome of a slot is written under the lock and keeps the right. -/
theorem recordOutcome_slot (slot : Slot) (deployment threadId interruptId : String) (outcome : ResponseOutcome)
    (now : Time) (right : Right) :
    Fallible.wp (slotProtocol slot).machine (recordOutcome deployment threadId interruptId outcome now)
      (fun _ _ after => after = ⟨.outside, right⟩) ⟨.outside, right⟩ := by
  simp only [recordOutcome, Fallible.wp_bind, wp_key]
  cases checkTexts .responseDedupe _ with
  | error exc => rfl
  | ok value =>
      simp only [Except.map, Fallible.after_ok, Fallible.wp_bind, wp_locked, loadResponseDedupe, wp_load]
      refine ⟨rfl, ?_⟩
      rintro _ rfl
      refine ⟨Section.entered_ne, ?_⟩
      rintro file _ rfl
      cases decoded : decode .responseDedupe file with
      | error exc =>
          rw [Fallible.after_error]
          refine ⟨Section.loaded_ne file, ?_⟩
          rintro _ rfl
          rfl
      | ok data =>
          rw [Fallible.after_ok]
          split
          · refine ⟨Section.loaded_ne file, ?_⟩
            rintro _ rfl
            rfl
          · rename_i record present
            simp only [Fallible.wp_ite, Fallible.wp_bind, Fallible.wp_pure, wp_writeAtomic]
            split
            · rename_i open_
              have unresolved : record.outcome = none := by simpa using open_
              refine ⟨⟨file, rfl, follows_set slot _ decoded _ ?_⟩, ?_⟩
              · rintro _ same
                obtain rfl := Option.some.inj (present.symm.trans same)
                exact ⟨_, rfl, by simp [unresolved]⟩
              · rintro _ rfl
                refine ⟨Section.entered_ne, ?_⟩
                rintro _ rfl
                simp [slotNext, fills_set slot _ decoded, present]
            · refine ⟨Section.loaded_ne file, ?_⟩
              rintro _ rfl
              rfl

end Cordboard.ResponseDedupe
