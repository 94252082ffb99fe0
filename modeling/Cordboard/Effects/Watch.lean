import Cordboard.Effects.Interleaving
import Cordboard.Effects.Schedule

namespace Effects

variable {sig : Signature} {S A : Type}

/-- A partial run performs the first operations of a program and leaves the rest. -/
inductive Performs (machine : Machine sig S) :
    Program sig A → S → List sig.Event → Program sig A → S → Prop
  | stop (program : Program sig A) (s : S) : Performs machine program s [] program s
  | perform {op : sig.Op} {next : sig.Answer op → Program sig A} {s middle final : S}
      {answer : sig.Answer op} {trace : List sig.Event} {left : Program sig A}
      (move : machine.step s op answer middle) (rest : Performs machine (next answer) middle trace left final) :
      Performs machine (.perform op next) s (⟨op, answer⟩ :: trace) left final

/-- A run that ends leaves its value. -/
theorem Runs.performs {machine : Machine sig S} {program : Program sig A} {s final : S} {trace : List sig.Event}
    {value : A} (run : Runs machine program s trace value final) :
    Performs machine program s trace (.pure value) final := by
  induction run with
  | pure value s => exact .stop _ _
  | perform move rest ih => exact .perform move ih

/-- The rest of a partial run keeps the precondition. -/
theorem Program.wp_performs {machine : Machine sig S} {program left : Program sig A}
    {post : List sig.Event → A → S → Prop} {s final : S} {trace : List sig.Event} (pre : program.wp machine post s)
    (run : Performs machine program s trace left final) :
    left.wp machine (fun tail => post (trace ++ tail)) final := by
  induction run generalizing post with
  | stop program s => exact pre
  | perform move rest ih => exact ih (pre.2 _ _ move)

/-- A program that keeps a guard is safe wherever it stops. -/
theorem Program.safe_of_performs {machine : Machine sig S} {safe : S → Prop} {program left : Program sig A}
    {s final : S} {trace : List sig.Event} (pre : program.wp (machine.guarded safe) (fun _ _ after => safe after) s)
    (run : Performs machine program s trace left final) : safe final := by
  induction run with
  | stop program s =>
      cases program with
      | pure value => exact pre
      | perform op next => exact pre.1.2
  | perform move rest ih => exact ih (pre.2 _ _ move)

/-- A watch follows the events of a machine in a phase of its own. It limits the steps of the runs, and it says
what must hold whenever the process may stop. -/
structure Watch (machine : Machine sig S) where
  Phase : Type
  next : Phase → (op : sig.Op) → sig.Answer op → Phase
  meets : S → Phase → (op : sig.Op) → sig.Answer op → Prop
  safe : S → Phase → Prop

namespace Watch

variable {machine : Machine sig S}

/-- The watched machine takes the steps of the machine that meet the condition. -/
def along (watch : Watch machine) : Machine sig (S × watch.Phase) where
  guard state op := machine.guard state.1 op ∧ watch.safe state.1 state.2
  step state op answer after := machine.step state.1 op answer after.1 ∧
    after.2 = watch.next state.2 op answer ∧ watch.meets state.1 state.2 op answer

/-- The events determine the phase of the watch. -/
def after (watch : Watch machine) : watch.Phase → List sig.Event → watch.Phase
  | phase, [] => phase
  | phase, event :: trace => watch.after (watch.next phase event.1 event.2) trace

/-- A watch that limits no step follows each run. -/
theorem runs_along {watch : Watch machine} (limitless : ∀ s phase op answer, watch.meets s phase op answer)
    {program : Program sig A} {s final : S} {trace : List sig.Event} {value : A}
    (run : Runs machine program s trace value final) (phase : watch.Phase) :
    Runs watch.along program (s, phase) trace value (final, watch.after phase trace) := by
  induction run generalizing phase with
  | pure value s => exact .pure value (s, phase)
  | perform move rest ih => exact .perform ⟨move, rfl, limitless _ _ _ _⟩ (ih _)

/-- The watch does not follow a silent program, which runs as it does without the watch. -/
theorem wp_silent {watch : Watch machine} (free : ∀ s phase, watch.safe s phase) {program : Program sig A}
    (silent : program.Uses fun op => ∀ phase answer, watch.next phase op answer = phase)
    {post : List sig.Event → A → S → Prop} {s : S} (pre : program.wp machine post s) (phase : watch.Phase) :
    program.wp watch.along (fun trace value after => post trace value after.1 ∧ after.2 = phase) (s, phase) := by
  induction program generalizing post s with
  | pure value => exact ⟨pre, rfl⟩
  | perform op next ih =>
      refine ⟨⟨pre.1, free s phase⟩, ?_⟩
      rintro answer ⟨middle, moved⟩ ⟨move, follows, _⟩
      obtain rfl : moved = phase := follows.trans (silent.1 phase answer)
      exact ih answer (silent.2 answer) (pre.2 answer middle move)

/-- A watch follows another one on these operations and limits the steps at least as much. It inherits what the other
one proves. -/
theorem wp_project {first second : Watch machine} {project : second.Phase → first.Phase}
    (free : ∀ s phase, second.safe s phase)
    (limits : ∀ s phase op answer, second.meets s phase op answer → first.meets s (project phase) op answer)
    {program : Program sig A}
    (follows : program.Uses fun op => ∀ phase answer, project (second.next phase op answer) = first.next (project phase) op answer)
    {post : List sig.Event → A → S × first.Phase → Prop} {s : S} {phase : second.Phase}
    (pre : program.wp first.along post (s, project phase)) :
    program.wp second.along (fun trace value after => post trace value (after.1, project after.2)) (s, phase) := by
  induction program generalizing post s phase with
  | pure value => exact pre
  | perform op next ih =>
      refine ⟨⟨pre.1.1, free s phase⟩, ?_⟩
      rintro answer ⟨middle, moved⟩ ⟨move, same, meets⟩
      apply ih answer (follows.2 answer)
      apply pre.2 answer (middle, project moved)
      have next : moved = second.next phase op answer := same
      exact ⟨move, next ▸ follows.1 phase answer, limits s phase op answer meets⟩

variable (watch : Watch machine) (resolver : Resolver machine)
  [∀ s phase op answer, Decidable (watch.meets s phase op answer)]

/-- The execution ends early at a step that does not meet the condition. -/
def exec : Program sig A → List sig.Event → S × watch.Phase → Option (Result sig (S × watch.Phase) A)
  | .pure value, _, state => some ⟨[], value, state⟩
  | .perform op next, past, state =>
      let answered := resolver.respond past state.1 op
      if watch.meets state.1 state.2 op answered.1 then
        (exec (next answered.1) (⟨op, answered.1⟩ :: past)
          (answered.2, watch.next state.2 op answered.1)).map fun rest =>
            ⟨⟨op, answered.1⟩ :: rest.trace, rest.value, rest.final⟩
      else none

/-- An execution whose steps all meet the condition is a run of the watched machine. -/
theorem exec_runs {program : Program sig A} {past : List sig.Event} {state : S × watch.Phase}
    {result : Result sig (S × watch.Phase) A} (ended : watch.exec resolver program past state = some result) :
    Runs watch.along program state result.trace result.value result.final := by
  induction program generalizing past state result with
  | pure value =>
      obtain rfl := Option.some.inj ended
      exact .pure value state
  | perform op next ih =>
      unfold exec at ended
      dsimp only at ended
      split at ended
      · rename_i meets
        obtain ⟨rest, finished, rfl⟩ := Option.map_eq_some_iff.mp ended
        exact .perform ⟨resolver.sound past state.1 op, rfl, meets⟩ (ih _ finished)
      · cases ended

end Watch

end Effects
