import Cordboard.Effects.Interleaving

namespace Effects

variable {sig : Signature} {S A Pid : Type}

/-- A resolver picks one answer of the machine for each operation. It may look at the past events. -/
structure Resolver (machine : Machine sig S) where
  respond : List sig.Event → S → (op : sig.Op) → sig.Answer op × S
  sound : ∀ past s op, machine.step s op (respond past s op).1 (respond past s op).2

/-- The result of an execution has the trace, the value, and the final state. -/
structure Result (sig : Signature) (S A : Type) where
  trace : List sig.Event
  value : A
  final : S

namespace Resolver

variable {machine : Machine sig S} (resolver : Resolver machine)

/-- The execution answers one operation after the other. -/
def exec : Program sig A → List sig.Event → S → Result sig S A
  | .pure value, _, s => ⟨[], value, s⟩
  | .perform op next, past, s =>
      let answered := resolver.respond past s op
      let rest := exec (next answered.1) (⟨op, answered.1⟩ :: past) answered.2
      ⟨⟨op, answered.1⟩ :: rest.trace, rest.value, rest.final⟩

/-- An execution is a run of the machine. -/
theorem exec_runs (program : Program sig A) (past : List sig.Event) (s : S) :
    Runs machine program s (resolver.exec program past s).trace (resolver.exec program past s).value
      (resolver.exec program past s).final := by
  induction program generalizing past s with
  | pure value => exact .pure value s
  | perform op next ih => exact .perform (resolver.sound past s op) (ih _ _ _)

end Resolver

/-- A scheduler picks one answer for each operation of a process, or leaves the process waiting. -/
structure Scheduler (sharing : Sharing sig S Pid) where
  respond : History sig Pid → Pid → S → (op : sig.Op) → Option (sig.Answer op × S)
  sound : ∀ history pid s op answer after, respond history pid s op = some (answer, after) →
    sharing.step pid s op answer after

/-- The value of a program that has ended. -/
def Program.value? : Program sig A → Option A
  | .pure value => some value
  | .perform .. => none

theorem Program.eq_pure_of_value? {program : Option (Program sig A)} {value : A}
    (ended : program.bind Program.value? = some value) : program = some (.pure value) := by
  obtain ⟨code, rfl, same⟩ := Option.bind_eq_some_iff.mp ended
  cases code with
  | pure result =>
      obtain rfl := Option.some.inj same
      rfl
  | perform op next => cases same

/-- A turn lets one process act or stop. -/
inductive Turn (Pid : Type) where
  | act (pid : Pid)
  | crash (pid : Pid)

/-- A reached state has the history and the configuration. -/
structure Reached (sig : Signature) (S Pid A : Type) where
  history : History sig Pid
  config : Config sig S Pid A

namespace Scheduler

variable [DecidableEq Pid] {sharing : Sharing sig S Pid} (scheduler : Scheduler sharing)
  (condition : Condition sig S Pid) [∀ history shared label, Decidable (condition history shared label)]

/-- A process whose step the condition permits acts once. -/
def act (pid : Pid) (reached : Reached sig S Pid A) : Option (Reached sig S Pid A) :=
  match reached.config.code pid with
  | some (.perform op next) =>
      match scheduler.respond reached.history pid reached.config.shared op with
      | some (answer, after) =>
          if condition reached.history reached.config.shared (.act pid ⟨op, answer⟩) then
            some ⟨.act pid ⟨op, answer⟩ :: reached.history,
              ⟨after, Function.update reached.config.code pid (some (next answer))⟩⟩
          else none
      | none => none
  | _ => none

/-- Each turn takes one step of the run. -/
def run : List (Turn Pid) → Reached sig S Pid A → Option (Reached sig S Pid A)
  | [], reached => some reached
  | .act pid :: turns, reached => (scheduler.act condition pid reached).bind (run turns)
  | .crash pid :: turns, reached =>
      if condition reached.history reached.config.shared (.crash pid) then
        run turns ⟨.crash pid :: reached.history,
          ⟨sharing.crash pid reached.config.shared, Function.update reached.config.code pid none⟩⟩
      else none

theorem act_reaches {tasks : Pid → Program sig A} {start : S} {pid : Pid} {reached after : Reached sig S Pid A}
    (before : Reaches sharing condition tasks start reached.history reached.config)
    (moved : scheduler.act condition pid reached = some after) :
    Reaches sharing condition tasks start after.history after.config := by
  unfold act at moved
  split at moved
  · rename_i op next ready
    split at moved
    · rename_i answer middle answered
      split at moved
      · rename_i meets
        obtain rfl := Option.some.inj moved
        exact .act before ready (scheduler.sound _ _ _ _ _ _ answered) meets
      · cases moved
    · cases moved
  · cases moved

/-- A schedule that runs to its end reaches its last configuration. -/
theorem run_reaches {tasks : Pid → Program sig A} {start : S} {turns : List (Turn Pid)}
    {reached after : Reached sig S Pid A}
    (before : Reaches sharing condition tasks start reached.history reached.config)
    (moved : scheduler.run condition turns reached = some after) :
    Reaches sharing condition tasks start after.history after.config := by
  induction turns generalizing reached with
  | nil =>
      obtain rfl := Option.some.inj moved
      exact before
  | cons turn turns ih =>
      cases turn with
      | act pid =>
          obtain ⟨middle, first, rest⟩ := Option.bind_eq_some_iff.mp moved
          exact ih (scheduler.act_reaches condition before first) rest
      | crash pid =>
          unfold run at moved
          split at moved
          · rename_i meets
            exact ih (.crash before meets) moved
          · cases moved

end Scheduler

end Effects
