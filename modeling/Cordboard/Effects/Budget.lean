import Cordboard.Effects.Execution

namespace Effects

variable {sig : Signature} {S A B E : Type} {allowed : sig.Op → Prop} {priced : sig.Op → Bool}

namespace Program

/-- A program performs permitted operations only, and it pays for each priced one from its budget. -/
def Affords (allowed : sig.Op → Prop) (priced : sig.Op → Bool) : Nat → Program sig A → Prop
  | _, .pure _ => True
  | budget, .perform op next => allowed op ∧ ∃ rest, (priced op).toNat + rest ≤ budget ∧
      ∀ answer, (next answer).Affords allowed priced rest

/-- A larger budget affords the same program. -/
theorem Affords.mono {program : Program sig A} {budget larger : Nat} (affords : program.Affords allowed priced budget)
    (enough : budget ≤ larger) : program.Affords allowed priced larger := by
  cases program with
  | pure value => trivial
  | perform op next =>
      obtain ⟨permitted, rest, paid, later⟩ := affords
      exact ⟨permitted, rest, Nat.le_trans paid enough, later⟩

/-- A sequence of two programs spends both budgets. -/
theorem Affords.bind {program : Program sig A} {rest : A → Program sig B} {first second : Nat}
    (one : program.Affords allowed priced first) (two : ∀ value, (rest value).Affords allowed priced second) :
    (program.bind rest).Affords allowed priced (first + second) := by
  induction program generalizing first with
  | pure value => exact (two value).mono (Nat.le_add_left _ _)
  | perform op next ih =>
      obtain ⟨permitted, left, paid, later⟩ := one
      exact ⟨permitted, left + second, by omega, fun answer => ih answer (later answer)⟩

/-- A program without priced operations spends nothing. -/
theorem affords_of_uses {program : Program sig A} (uses : program.Uses fun op => allowed op ∧ priced op = false) :
    program.Affords allowed priced 0 := by
  induction program with
  | pure value => trivial
  | perform op next ih =>
      refine ⟨uses.1.1, 0, ?_, fun answer => ih answer (uses.2 answer)⟩
      rw [uses.1.2]
      exact Nat.le_refl 0

/-- The operations of a program are permitted. -/
theorem Affords.uses {program : Program sig A} {budget : Nat} (affords : program.Affords allowed priced budget) :
    program.Uses allowed := by
  induction program generalizing budget with
  | pure value => trivial
  | perform op next ih =>
      obtain ⟨permitted, rest, _, later⟩ := affords
      exact ⟨permitted, fun answer => ih answer (later answer)⟩

/-- A run performs no more priced operations than the budget allows. -/
theorem Affords.count_le {machine : Machine sig S} {program : Program sig A} {budget : Nat}
    (affords : program.Affords allowed priced budget) {s final : S} {trace : List sig.Event} {value : A}
    (run : Runs machine program s trace value final) : trace.countP (fun event => priced event.1) ≤ budget := by
  induction run generalizing budget with
  | pure value s => exact Nat.zero_le _
  | @perform op next s middle final answer trace value move rest ih =>
      obtain ⟨_, left, paid, later⟩ := affords
      have spent := ih (later answer)
      rw [List.countP_cons]
      have price : (if priced op = true then 1 else 0) = (priced op).toNat := by cases priced op <;> rfl
      rw [price]
      omega

/-- A run performs permitted operations only. -/
theorem Uses.events {machine : Machine sig S} {program : Program sig A} (uses : program.Uses allowed) {s final : S}
    {trace : List sig.Event} {value : A} (run : Runs machine program s trace value final) :
    ∀ event ∈ trace, allowed event.1 := by
  induction run with
  | pure value s => simp
  | perform move rest ih =>
      intro event member
      rcases List.mem_cons.mp member with rfl | later
      · exact uses.1
      · exact ih (uses.2 _) event later

end Program

namespace Fallible

/-- A fallible program spends within its budget. -/
def Affords (allowed : sig.Op → Prop) (priced : sig.Op → Bool) (budget : Nat) (program : Fallible sig E A) : Prop :=
  program.toProgram.Affords allowed priced budget

theorem affords_pure (value : A) (budget : Nat) :
    Affords allowed priced budget (pure value : Fallible sig E A) := trivial

theorem affords_raise (exception : E) (budget : Nat) :
    Affords allowed priced budget (raise exception : Fallible sig E A) := trivial

theorem affords_ofExcept (outcome : Except E A) (budget : Nat) :
    Affords allowed priced budget (ofExcept outcome : Fallible sig E A) := by
  cases outcome <;> trivial

theorem Affords.bind {program : Fallible sig E A} {rest : A → Fallible sig E B} {first second : Nat}
    (one : Affords allowed priced first program) (two : ∀ value, Affords allowed priced second (rest value)) :
    Affords allowed priced (first + second) (program >>= rest) := by
  apply Program.Affords.bind one
  intro outcome
  cases outcome with
  | ok value => exact two value
  | error exception => trivial

theorem Affords.attempt {program : Fallible sig E A} {budget : Nat} (affords : Affords allowed priced budget program) :
    Affords allowed priced budget program.attempt := by
  have returns (outcome : Except E A) :
      (Program.pure (.ok outcome) : Program sig (Except E (Except E A))).Affords allowed priced 0 := trivial
  exact Program.Affords.bind affords returns

end Fallible

end Effects
