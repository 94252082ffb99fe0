import Mathlib.Logic.Basic

namespace Effects

/-- A signature lists the operations of a program and the answer that each one expects. -/
structure Signature where
  Op : Type
  Answer : Op → Type

/-- An event pairs one operation with the answer it received. -/
abbrev Signature.Event (sig : Signature) : Type := (op : sig.Op) × sig.Answer op

/-- A program returns a value, or performs one operation and continues with its answer. -/
inductive Program (sig : Signature) (A : Type) where
  | pure (value : A)
  | perform (op : sig.Op) (next : sig.Answer op → Program sig A)

namespace Program

variable {sig : Signature} {A B C : Type}

/-- The second program starts with the value of the first one. -/
def bind : Program sig A → (A → Program sig B) → Program sig B
  | .pure value, rest => rest value
  | .perform op next, rest => .perform op fun answer => (next answer).bind rest

@[simp] theorem pure_bind (value : A) (rest : A → Program sig B) :
    (Program.pure value : Program sig A).bind rest = rest value := rfl

@[simp] theorem perform_bind (op : sig.Op) (next : sig.Answer op → Program sig A)
    (rest : A → Program sig B) :
    (Program.perform op next).bind rest = .perform op fun answer => (next answer).bind rest := rfl

theorem bind_pure (program : Program sig A) : program.bind .pure = program := by
  induction program with
  | pure value => rfl
  | perform op next ih => simp only [perform_bind, ih]

theorem bind_assoc (program : Program sig A) (first : A → Program sig B) (second : B → Program sig C) :
    (program.bind first).bind second = program.bind fun value => (first value).bind second := by
  induction program with
  | pure value => rfl
  | perform op next ih => simp only [perform_bind, ih]

/-- Each operation that the program can reach satisfies the predicate. -/
def Uses (allowed : sig.Op → Prop) : Program sig A → Prop
  | .pure _ => True
  | .perform op next => allowed op ∧ ∀ answer, (next answer).Uses allowed

/-- A program uses permitted operations only when all operations are permitted. -/
theorem uses_of_all {allowed : sig.Op → Prop} (each : ∀ op, allowed op) (program : Program sig A) :
    program.Uses allowed := by
  induction program with
  | pure value => trivial
  | perform op next ih => exact ⟨each op, ih⟩

theorem Uses.mono {first second : sig.Op → Prop} {program : Program sig A}
    (uses : program.Uses first) (weaker : ∀ op, first op → second op) : program.Uses second := by
  induction program with
  | pure value => trivial
  | perform op next ih => exact ⟨weaker op uses.1, fun answer => ih answer (uses.2 answer)⟩

theorem Uses.bind {allowed : sig.Op → Prop} {program : Program sig A} {rest : A → Program sig B}
    (first : program.Uses allowed) (second : ∀ value, (rest value).Uses allowed) :
    (program.bind rest).Uses allowed := by
  induction program with
  | pure value => exact second value
  | perform op next ih => exact ⟨first.1, fun answer => ih answer (first.2 answer)⟩

end Program

/-- A fallible program ends with a value or with an exception. -/
def Fallible (sig : Signature) (E A : Type) : Type := Program sig (Except E A)

namespace Fallible

variable {sig : Signature} {E A B : Type}

/-- This view forgets that the result of the program may be an exception. -/
def toProgram (program : Fallible sig E A) : Program sig (Except E A) := program

/-- The continuation runs only after a value; an exception skips it. -/
def resume (rest : A → Fallible sig E B) : Except E A → Program sig (Except E B)
  | .ok value => rest value
  | .error exception => .pure (.error exception)

instance : Monad (Fallible sig E) where
  pure value := Program.pure (.ok value)
  bind program rest := Program.bind program (resume rest)

/-- This program ends with the exception. -/
def raise (exception : E) : Fallible sig E A := Program.pure (.error exception)

/-- This program performs one operation and returns its answer. -/
def request (op : sig.Op) : Fallible sig E (sig.Answer op) :=
  Program.perform op fun answer => .pure (.ok answer)

/-- A caught program returns its value or its exception, and never raises. -/
def attempt (program : Fallible sig E A) : Fallible sig E (Except E A) :=
  Program.bind program fun outcome => .pure (.ok outcome)

/-- A stored outcome becomes a value or is raised again. -/
def ofExcept : Except E A → Fallible sig E A
  | .ok value => pure value
  | .error exception => raise exception

/-- Each operation that the fallible program can reach satisfies the predicate. -/
def Uses (allowed : sig.Op → Prop) (program : Fallible sig E A) : Prop :=
  program.toProgram.Uses allowed

section
variable {allowed : sig.Op → Prop}

@[simp] theorem uses_pure (value : A) : (pure value : Fallible sig E A).Uses allowed := trivial

@[simp] theorem uses_raise (exception : E) : (raise exception : Fallible sig E A).Uses allowed := trivial

@[simp] theorem uses_ofExcept (outcome : Except E A) :
    (ofExcept outcome : Fallible sig E A).Uses allowed := by
  cases outcome <;> trivial

@[simp] theorem uses_request (op : sig.Op) :
    (request op : Fallible sig E (sig.Answer op)).Uses allowed ↔ allowed op :=
  ⟨fun uses => uses.1, fun permitted => ⟨permitted, fun _ => trivial⟩⟩

theorem Uses.bind {program : Fallible sig E A} {rest : A → Fallible sig E B}
    (first : program.Uses allowed) (second : ∀ value, (rest value).Uses allowed) :
    (program >>= rest).Uses allowed := by
  apply Program.Uses.bind first
  intro outcome
  cases outcome with
  | ok value => exact second value
  | error exception => trivial

theorem Uses.attempt {program : Fallible sig E A} (uses : program.Uses allowed) :
    program.attempt.Uses allowed :=
  Program.Uses.bind uses fun _ => trivial

theorem Uses.mono {weaker : sig.Op → Prop} {program : Fallible sig E A}
    (uses : program.Uses allowed) (implies : ∀ op, allowed op → weaker op) : program.Uses weaker :=
  Program.Uses.mono uses implies

end

end Fallible

end Effects
