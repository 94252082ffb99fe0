import Cordboard.Effects.Execution
import Mathlib.Logic.Function.Basic

namespace Effects

/-- Processes act on one shared state. A crash may change what the process left behind. -/
structure Sharing (sig : Signature) (S Pid : Type) where
  step : Pid → S → (op : sig.Op) → sig.Answer op → S → Prop
  crash : Pid → S → S

/-- A label names the process that moved and what it did. -/
inductive Label (sig : Signature) (Pid : Type) where
  | act (pid : Pid) (event : sig.Event)
  | crash (pid : Pid)

/-- The process of a label. -/
def Label.pid {sig : Signature} {Pid : Type} : Label sig Pid → Pid
  | .act pid _ => pid
  | .crash pid => pid

/-- The newest label of a history comes first. -/
abbrev History (sig : Signature) (Pid : Type) : Type := List (Label sig Pid)

/-- A configuration holds the shared state and the rest of each live program. -/
structure Config (sig : Signature) (S Pid A : Type) where
  shared : S
  code : Pid → Option (Program sig A)

/-- A condition limits the steps of a run by its history and the state before the step. -/
abbrev Condition (sig : Signature) (S Pid : Type) : Type :=
  History sig Pid → S → Label sig Pid → Prop

variable {sig : Signature} {S Pid A : Type} [DecidableEq Pid]

/-- Processes interleave one operation at a time, and each one can stop at any point.
Each step of the run meets the condition. -/
inductive Reaches (sharing : Sharing sig S Pid) (condition : Condition sig S Pid)
    (tasks : Pid → Program sig A) (start : S) : History sig Pid → Config sig S Pid A → Prop
  | start : Reaches sharing condition tasks start [] ⟨start, fun pid => some (tasks pid)⟩
  | act {history : History sig Pid} {config : Config sig S Pid A} {pid : Pid} {op : sig.Op}
      {next : sig.Answer op → Program sig A} {answer : sig.Answer op} {after : S}
      (before : Reaches sharing condition tasks start history config)
      (ready : config.code pid = some (.perform op next))
      (move : sharing.step pid config.shared op answer after)
      (meets : condition history config.shared (.act pid ⟨op, answer⟩)) :
      Reaches sharing condition tasks start (.act pid ⟨op, answer⟩ :: history)
        ⟨after, Function.update config.code pid (some (next answer))⟩
  | crash {history : History sig Pid} {config : Config sig S Pid A} {pid : Pid}
      (before : Reaches sharing condition tasks start history config)
      (meets : condition history config.shared (.crash pid)) :
      Reaches sharing condition tasks start (.crash pid :: history)
        ⟨sharing.crash pid config.shared, Function.update config.code pid none⟩

/-- A stronger condition leaves fewer runs. -/
theorem Reaches.mono {sharing : Sharing sig S Pid} {first second : Condition sig S Pid}
    {tasks : Pid → Program sig A} {start : S} {history : History sig Pid} {config : Config sig S Pid A}
    (reached : Reaches sharing first tasks start history config)
    (weaker : ∀ history shared label, first history shared label → second history shared label) :
    Reaches sharing second tasks start history config := by
  induction reached with
  | start => exact .start
  | act _ ready move meets ih => exact .act ih ready move (weaker _ _ _ meets)
  | crash _ meets ih => exact .crash ih (weaker _ _ _ meets)

/-- A process that still has code has not stopped. -/
theorem Reaches.running {sharing : Sharing sig S Pid} {condition : Condition sig S Pid}
    {tasks : Pid → Program sig A} {start : S} {history : History sig Pid} {config : Config sig S Pid A}
    (reached : Reaches sharing condition tasks start history config) {pid : Pid} {program : Program sig A}
    (live : config.code pid = some program) : Label.crash pid ∉ history := by
  induction reached generalizing program with
  | start => exact List.not_mem_nil
  | @act history config other op next answer after before ready move meets ih =>
      rw [List.mem_cons, not_or]
      refine ⟨by simp, ?_⟩
      by_cases same : pid = other
      · subst same
        exact ih ready
      · simp only [Function.update_of_ne same] at live
        exact ih live
  | @crash history config other before meets ih =>
      by_cases same : pid = other
      · subst same
        simp at live
      · simp only [Function.update_of_ne same] at live
        rw [List.mem_cons, not_or]
        exact ⟨fun equal => same (Label.crash.inj equal), ih live⟩

/-- A protocol follows one process through its own operations.
The guard names the operations that the process may perform in each phase. -/
structure Protocol (sig : Signature) where
  Phase : Type
  guard : Phase → sig.Op → Prop
  next : Phase → (op : sig.Op) → sig.Answer op → Phase

namespace Protocol

/-- A program obeys the protocol for each answer that its environment can give. -/
def machine (protocol : Protocol sig) : Machine sig protocol.Phase where
  guard := protocol.guard
  step phase op answer after := after = protocol.next phase op answer

@[simp] theorem machine_guard (protocol : Protocol sig) (phase : protocol.Phase) (op : sig.Op) :
    protocol.machine.guard phase op = protocol.guard phase op := rfl

@[simp] theorem machine_step (protocol : Protocol sig) (phase after : protocol.Phase) (op : sig.Op)
    (answer : sig.Answer op) :
    protocol.machine.step phase op answer after = (after = protocol.next phase op answer) := rfl

/-- The program keeps every guard of the protocol from this phase on. -/
def Obeys (protocol : Protocol sig) (program : Program sig A) (phase : protocol.Phase) : Prop :=
  program.wp protocol.machine (fun _ _ _ => True) phase

/-- The events of one process determine its phase. -/
def after (protocol : Protocol sig) : protocol.Phase → List sig.Event → protocol.Phase
  | phase, [] => phase
  | phase, event :: trace => protocol.after (protocol.next phase event.1 event.2) trace

/-- Each event of an obedient program meets the guard in the phase of its past. -/
theorem guard_of_runs (protocol : Protocol sig) {machine : Machine sig S} {program : Program sig A}
    {phase : protocol.Phase} (obeys : protocol.Obeys program phase) {s final : S} {trace : List sig.Event}
    {value : A} (run : Runs machine program s trace value final) {before later : List sig.Event}
    {event : sig.Event} (split : trace = before ++ event :: later) :
    protocol.guard (protocol.after phase before) event.1 := by
  induction run generalizing phase before with
  | pure value s => simp at split
  | @perform op next s middle final answer trace value move rest ih =>
      cases before with
      | nil =>
          obtain ⟨rfl, -⟩ := List.cons.inj split
          exact obeys.1
      | cons first before =>
          obtain ⟨rfl, later⟩ := List.cons.inj split
          exact ih (obeys.2 answer _ rfl) later

/-- The history determines the phase of each process. -/
def phase (protocol : Protocol sig) (start : Pid → protocol.Phase) :
    History sig Pid → Pid → protocol.Phase
  | [] => start
  | .act pid event :: history => Function.update (protocol.phase start history) pid
      (protocol.next (protocol.phase start history pid) event.1 event.2)
  | .crash _ :: history => protocol.phase start history

@[simp] theorem phase_nil (protocol : Protocol sig) (start : Pid → protocol.Phase) :
    protocol.phase start [] = start := rfl

@[simp] theorem phase_act_self (protocol : Protocol sig) (start : Pid → protocol.Phase)
    (pid : Pid) (event : sig.Event) (history : History sig Pid) :
    protocol.phase start (.act pid event :: history) pid =
      protocol.next (protocol.phase start history pid) event.1 event.2 := by
  simp [phase]

theorem phase_act_of_ne (protocol : Protocol sig) (start : Pid → protocol.Phase)
    {pid other : Pid} (different : other ≠ pid) (event : sig.Event) (history : History sig Pid) :
    protocol.phase start (.act pid event :: history) other = protocol.phase start history other := by
  simp [phase, different]

@[simp] theorem phase_crash (protocol : Protocol sig) (start : Pid → protocol.Phase)
    (pid : Pid) (history : History sig Pid) :
    protocol.phase start (.crash pid :: history) = protocol.phase start history := rfl

/-- A process that has not moved is in its first phase. -/
theorem phase_unmoved (protocol : Protocol sig) (start : Pid → protocol.Phase) {history : History sig Pid} {pid : Pid}
    (unmoved : ∀ label ∈ history, label.pid ≠ pid) : protocol.phase start history pid = start pid := by
  induction history with
  | nil => rfl
  | cons label history ih =>
      obtain ⟨first, later⟩ := List.forall_mem_cons.mp unmoved
      cases label with
      | crash other => exact ih later
      | act other event =>
          have different : pid ≠ other := Ne.symm first
          rw [phase_act_of_ne protocol start different, ih later]

/-- A view that no operation changes keeps its first value. -/
theorem phase_constant {V : Type} (protocol : Protocol sig) (view : protocol.Phase → V)
    (same : ∀ phase op answer, view (protocol.next phase op answer) = view phase)
    (start : Pid → protocol.Phase) (history : History sig Pid) (pid : Pid) :
    view (protocol.phase start history pid) = view (start pid) := by
  induction history with
  | nil => rfl
  | cons label history ih =>
      cases label with
      | crash other => exact ih
      | act other event =>
          by_cases moved : pid = other
          · subst other
            rw [phase_act_self, same, ih]
          · rw [phase_act_of_ne protocol start moved, ih]

variable {sharing : Sharing sig S Pid} {condition : Condition sig S Pid} {tasks : Pid → Program sig A}
  {start : S} {history : History sig Pid} {config : Config sig S Pid A}

/-- The rest of each live program obeys the protocol from the phase of its process. -/
theorem obeys_of_reaches (protocol : Protocol sig) (phases : Pid → protocol.Phase)
    (obeys : ∀ pid, protocol.Obeys (tasks pid) (phases pid))
    (reached : Reaches sharing condition tasks start history config) :
    ∀ pid program, config.code pid = some program →
      protocol.Obeys program (protocol.phase phases history pid) := by
  induction reached with
  | start =>
      intro pid program live
      obtain rfl := Option.some.inj live
      exact obeys pid
  | @act history config pid op next answer after before ready move meets ih =>
      intro other program live
      by_cases same : other = pid
      · subst other
        simp only [Function.update_self, Option.some.injEq] at live
        subst program
        rw [phase_act_self]
        exact (ih pid _ ready).2 answer _ rfl
      · simp only [Function.update_of_ne same] at live
        rw [phase_act_of_ne protocol phases same]
        exact ih other program live
  | @crash history config pid before meets ih =>
      intro other program live
      by_cases same : other = pid
      · subst other
        simp at live
      · simp only [Function.update_of_ne same] at live
        exact ih other program live

/-- The environment of a limited protocol gives good answers only. -/
def limited (protocol : Protocol sig) (good : (op : sig.Op) → sig.Answer op → Prop) : Machine sig protocol.Phase where
  guard := protocol.guard
  step phase op answer after := good op answer ∧ after = protocol.next phase op answer

/-- A run of the limited machine hears good answers only. -/
theorem good_of_runs {protocol : Protocol sig} {good : (op : sig.Op) → sig.Answer op → Prop} {program : Program sig A}
    {phase final : protocol.Phase} {trace : List sig.Event} {value : A}
    (run : Runs (protocol.limited good) program phase trace value final) : ∀ event ∈ trace, good event.1 event.2 := by
  induction run with
  | pure value phase => exact List.forall_mem_nil _
  | perform move rest ih => exact List.forall_mem_cons.mpr ⟨move.1, ih⟩

/-- A program with a postcondition for all answers obeys the protocol. -/
theorem obeys_of_limited (protocol : Protocol sig) {post : List sig.Event → A → protocol.Phase → Prop}
    {program : Program sig A} {phase : protocol.Phase}
    (ends : program.wp (protocol.limited fun _ _ => True) post phase) : protocol.Obeys program phase := by
  induction program generalizing post phase with
  | pure value => trivial
  | perform op next ih => exact ⟨ends.1, fun answer _ move => ih answer (ends.2 answer _ ⟨trivial, move⟩)⟩

/-- The rest of a live program that heard good answers only ends as the limited protocol says. -/
theorem wp_of_reaches (protocol : Protocol sig) (good : (op : sig.Op) → sig.Answer op → Prop)
    (phases : Pid → protocol.Phase) {post : A → protocol.Phase → Prop}
    (reached : Reaches sharing condition tasks start history config) (pid : Pid)
    (ends : (tasks pid).wp (protocol.limited good) (fun _ => post) (phases pid))
    (heard : ∀ event, Label.act pid event ∈ history → good event.1 event.2) {program : Program sig A}
    (live : config.code pid = some program) :
    program.wp (protocol.limited good) (fun _ => post) (protocol.phase phases history pid) := by
  induction reached generalizing program with
  | start =>
      obtain rfl := Option.some.inj live
      exact ends
  | @act history config other op next answer after before ready move meets ih =>
      have earlier := @ih fun event member => heard event (List.mem_cons_of_mem _ member)
      by_cases same : pid = other
      · subst other
        simp only [Function.update_self, Option.some.injEq] at live
        subst program
        rw [phase_act_self]
        exact (earlier ready).2 answer _ ⟨heard _ List.mem_cons_self, rfl⟩
      · simp only [Function.update_of_ne same] at live
        rw [phase_act_of_ne protocol phases same]
        exact earlier live
  | @crash history config other before meets ih =>
      have earlier := @ih fun event member => heard event (List.mem_cons_of_mem _ member)
      by_cases same : pid = other
      · subst other
        simp at live
      · simp only [Function.update_of_ne same] at live
        exact earlier live

/-- An invariant of the history and the shared state holds in each reachable configuration.
The step case sees the guard of the protocol instead of the program. -/
theorem invariant (protocol : Protocol sig) (phases : Pid → protocol.Phase)
    (obeys : ∀ pid, protocol.Obeys (tasks pid) (phases pid))
    (holds : History sig Pid → S → Prop) (initial : holds [] start)
    (act : ∀ history shared pid op (answer : sig.Answer op) after, holds history shared →
      Label.crash pid ∉ history →
      protocol.guard (protocol.phase phases history pid) op →
      sharing.step pid shared op answer after →
      condition history shared (.act pid ⟨op, answer⟩) →
      holds (.act pid ⟨op, answer⟩ :: history) after)
    (crash : ∀ history shared pid, holds history shared → condition history shared (.crash pid) →
      holds (.crash pid :: history) (sharing.crash pid shared))
    (reached : Reaches sharing condition tasks start history config) : holds history config.shared := by
  induction reached with
  | start => exact initial
  | @act history config pid op next answer after before ready move meets ih =>
      have permitted := protocol.obeys_of_reaches phases obeys before pid _ ready
      exact act _ _ _ _ _ _ ih (before.running ready) permitted.1 move meets
  | crash before meets ih => exact crash _ _ _ ih meets

end Protocol

end Effects
