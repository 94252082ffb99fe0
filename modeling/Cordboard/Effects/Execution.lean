import Cordboard.Effects.Program

namespace Effects

/-- A machine answers each operation in its state. Its guard names the permitted operations. -/
structure Machine (sig : Signature) (S : Type) where
  guard : S → sig.Op → Prop
  step : S → (op : sig.Op) → sig.Answer op → S → Prop

/-- A guarded machine asks for a predicate before each operation. -/
def Machine.guarded {sig : Signature} {S : Type} (machine : Machine sig S) (safe : S → Prop) : Machine sig S where
  guard s op := machine.guard s op ∧ safe s
  step := machine.step

variable {sig : Signature} {S A B E : Type} {machine : Machine sig S}

/-- A run records the events, the value, and the final state of one execution. -/
inductive Runs (machine : Machine sig S) :
    Program sig A → S → List sig.Event → A → S → Prop
  | pure (value : A) (s : S) : Runs machine (.pure value) s [] value s
  | perform {op : sig.Op} {next : sig.Answer op → Program sig A} {s middle final : S}
      {answer : sig.Answer op} {trace : List sig.Event} {value : A}
      (move : machine.step s op answer middle) (rest : Runs machine (next answer) middle trace value final) :
      Runs machine (.perform op next) s (⟨op, answer⟩ :: trace) value final

namespace Program

/-- The weakest precondition asks for permitted operations and for the postcondition of every run. -/
def wp (machine : Machine sig S) : Program sig A → (List sig.Event → A → S → Prop) → S → Prop
  | .pure value, post, s => post [] value s
  | .perform op next, post, s => machine.guard s op ∧ ∀ answer middle,
      machine.step s op answer middle →
        (next answer).wp machine (fun trace => post (⟨op, answer⟩ :: trace)) middle

/-- Each run satisfies the postcondition of a program that satisfies its precondition. -/
theorem wp_runs {program : Program sig A} {post : List sig.Event → A → S → Prop} {s final : S}
    {trace : List sig.Event} {value : A} (pre : program.wp machine post s)
    (run : Runs machine program s trace value final) : post trace value final := by
  induction run generalizing post with
  | pure value s => exact pre
  | perform move rest ih => exact ih (pre.2 _ _ move)

/-- A postcondition of every run is met by a machine that permits everything. -/
theorem wp_of_runs (free : ∀ s op, machine.guard s op) {program : Program sig A} {post : List sig.Event → A → S → Prop}
    {s : S} (each : ∀ trace value final, Runs machine program s trace value final → post trace value final) :
    program.wp machine post s := by
  induction program generalizing post s with
  | pure value => exact each _ _ _ (.pure value s)
  | perform op next ih =>
      refine ⟨free s op, fun answer middle move => ih answer ?_⟩
      exact fun trace value final run => each _ _ _ (.perform move run)

theorem wp_mono {program : Program sig A} {first second : List sig.Event → A → S → Prop} {s : S}
    (pre : program.wp machine first s)
    (weaker : ∀ trace value final, first trace value final → second trace value final) :
    program.wp machine second s := by
  induction program generalizing first second s with
  | pure value => exact weaker _ _ _ pre
  | perform op next ih =>
      exact ⟨pre.1, fun answer middle move => ih answer (pre.2 answer middle move) fun _ _ _ => weaker _ _ _⟩

/-- Two postconditions hold together. -/
theorem wp_and {program : Program sig A} {first second : List sig.Event → A → S → Prop} {s : S}
    (one : program.wp machine first s) (two : program.wp machine second s) :
    program.wp machine (fun trace value final => first trace value final ∧ second trace value final) s := by
  induction program generalizing first second s with
  | pure value => exact ⟨one, two⟩
  | perform op next ih =>
      exact ⟨one.1, fun answer middle move => ih answer (one.2 answer middle move) (two.2 answer middle move)⟩

theorem wp_bind (program : Program sig A) (rest : A → Program sig B)
    (post : List sig.Event → B → S → Prop) (s : S) :
    (program.bind rest).wp machine post s ↔
      program.wp machine (fun before value middle =>
        (rest value).wp machine (fun after => post (before ++ after)) middle) s := by
  induction program generalizing post s with
  | pure value => rfl
  | perform op next ih => simp only [perform_bind, wp, ih, List.cons_append]

/-- A predicate that each operation keeps holds at the end. -/
theorem wp_of_uses {holds : S → Prop} {program : Program sig A} (uses : program.Uses fun op => ∀ s, holds s →
      machine.guard s op ∧ ∀ answer final, machine.step s op answer final → holds final) {s : S} (held : holds s) :
    program.wp machine (fun _ _ final => holds final) s := by
  induction program generalizing s with
  | pure value => exact held
  | perform op next ih =>
      refine ⟨(uses.1 s held).1, fun answer middle move => ?_⟩
      exact ih answer (uses.2 answer) ((uses.1 s held).2 answer middle move)

/-- A guarded machine takes the same steps. -/
theorem wp_of_guarded {safe : S → Prop} {program : Program sig A} {post : List sig.Event → A → S → Prop} {s : S}
    (pre : program.wp (machine.guarded safe) post s) : program.wp machine post s := by
  induction program generalizing post s with
  | pure value => exact pre
  | perform op next ih => exact ⟨pre.1.1, fun answer middle move => ih answer (pre.2 answer middle move)⟩

/-- A machine that permits everything asks nothing of a program. -/
theorem wp_of_guard (free : ∀ s op, machine.guard s op) (program : Program sig A) (s : S) :
    program.wp machine (fun _ _ _ => True) s := by
  induction program generalizing s with
  | pure value => trivial
  | perform op next ih => exact ⟨free s op, fun answer middle _ => ih answer middle⟩

end Program

namespace Fallible

/-- The weakest precondition of a fallible program also speaks about its exceptions. -/
def wp (machine : Machine sig S) (program : Fallible sig E A)
    (post : List sig.Event → Except E A → S → Prop) (s : S) : Prop :=
  program.toProgram.wp machine post s

theorem wp_mono {program : Fallible sig E A} {first second : List sig.Event → Except E A → S → Prop} {s : S}
    (pre : program.wp machine first s)
    (weaker : ∀ trace outcome final, first trace outcome final → second trace outcome final) :
    program.wp machine second s :=
  Program.wp_mono pre weaker

theorem wp_runs {program : Fallible sig E A} {post : List sig.Event → Except E A → S → Prop} {s final : S}
    {trace : List sig.Event} {outcome : Except E A} (pre : program.wp machine post s)
    (run : Runs machine program.toProgram s trace outcome final) : post trace outcome final :=
  Program.wp_runs pre run

section
variable (post : List sig.Event → Except E B → S → Prop) (s : S)

/-- This postcondition continues after a value and passes an exception on. -/
def after (machine : Machine sig S) (rest : A → Fallible sig E B)
    (post : List sig.Event → Except E B → S → Prop) (before : List sig.Event) :
    Except E A → S → Prop
  | .ok value, middle => (rest value).wp machine (fun tail => post (before ++ tail)) middle
  | .error exception, middle => post before (.error exception) middle

omit s in
@[simp] theorem after_ok (rest : A → Fallible sig E B) (before : List sig.Event) (value : A) :
    after machine rest post before (.ok value) = (rest value).wp machine fun tail => post (before ++ tail) := rfl

omit s in
@[simp] theorem after_error (rest : A → Fallible sig E B) (before : List sig.Event) (exception : E) :
    after machine rest post before (.error exception) = post before (.error exception) := rfl

@[simp] theorem wp_bind (program : Fallible sig E A) (rest : A → Fallible sig E B) :
    (program >>= rest).wp machine post s ↔ program.wp machine (after machine rest post) s := by
  refine (Program.wp_bind program.toProgram (resume rest) post s).trans
    ⟨fun pre => Program.wp_mono pre ?_, fun pre => Program.wp_mono pre ?_⟩
  all_goals
    intro before outcome middle reached
    cases outcome with
    | ok value => exact reached
    | error exception => simpa [after, resume, Program.wp] using reached

/-- The sequence rule needs one postcondition of the first program. -/
theorem wp_seq {middle : List sig.Event → Except E A → S → Prop} {program : Fallible sig E A}
    {rest : A → Fallible sig E B} {post : List sig.Event → Except E B → S → Prop} {s : S}
    (first : program.wp machine middle s)
    (returned : ∀ before value reached, middle before (.ok value) reached →
      (rest value).wp machine (fun tail => post (before ++ tail)) reached)
    (raised : ∀ before exception reached, middle before (.error exception) reached →
      post before (.error exception) reached) :
    (program >>= rest).wp machine post s := by
  rw [wp_bind]
  refine wp_mono first fun before outcome reached held => ?_
  cases outcome with
  | ok value => exact returned before value reached held
  | error exception => exact raised before exception reached held

@[simp] theorem wp_pure (value : B) :
    (pure value : Fallible sig E B).wp machine post s ↔ post [] (.ok value) s := Iff.rfl

@[simp] theorem wp_raise (exception : E) :
    (raise exception : Fallible sig E B).wp machine post s ↔ post [] (.error exception) s := Iff.rfl

@[simp] theorem wp_ofExcept (outcome : Except E B) :
    (ofExcept outcome : Fallible sig E B).wp machine post s ↔ post [] outcome s := by
  cases outcome <;> rfl

end

@[simp] theorem wp_request (op : sig.Op) (post : List sig.Event → Except E (sig.Answer op) → S → Prop) (s : S) :
    (request op : Fallible sig E (sig.Answer op)).wp machine post s ↔
      machine.guard s op ∧ ∀ answer final, machine.step s op answer final → post [⟨op, answer⟩] (.ok answer) final :=
  Iff.rfl

@[simp] theorem wp_attempt (program : Fallible sig E A)
    (post : List sig.Event → Except E (Except E A) → S → Prop) (s : S) :
    program.attempt.wp machine post s ↔
      program.wp machine (fun trace outcome final => post trace (.ok outcome) final) s := by
  refine (Program.wp_bind program.toProgram (fun outcome => .pure (Except.ok outcome)) post s).trans
    ⟨fun pre => Program.wp_mono pre ?_, fun pre => Program.wp_mono pre ?_⟩
  all_goals
    intro trace outcome middle reached
    simpa [Program.wp] using reached

/-- The rest of a caught program continues after a value and after an exception. -/
theorem wp_caught {middle : List sig.Event → Except E A → S → Prop} {program : Fallible sig E A}
    {rest : Except E A → Fallible sig E B} {post : List sig.Event → Except E B → S → Prop} {s : S}
    (first : program.wp machine middle s)
    (later : ∀ before outcome reached, middle before outcome reached →
      (rest outcome).wp machine (fun tail => post (before ++ tail)) reached) :
    (program.attempt >>= rest).wp machine post s := by
  rw [wp_bind, wp_attempt]
  exact wp_mono first later

/-- A branch of the program is a branch of its precondition. -/
@[simp] theorem wp_ite (condition : Prop) [Decidable condition] (first second : Fallible sig E A)
    (post : List sig.Event → Except E A → S → Prop) (s : S) :
    (if condition then first else second).wp machine post s ↔
      if condition then first.wp machine post s else second.wp machine post s := by
  split <;> rfl

/-- A program keeps a predicate when each run from it ends in it, with a value or an exception. -/
def Keeps (machine : Machine sig S) (holds : S → Prop) (program : Fallible sig E A) : Prop :=
  ∀ s, holds s → program.wp machine (fun _ _ after => holds after) s

section
variable {holds : S → Prop}

theorem keeps_pure (value : A) : Keeps machine holds (pure value : Fallible sig E A) := fun _ held => held

theorem keeps_raise (exception : E) : Keeps machine holds (raise exception : Fallible sig E A) :=
  fun _ held => held

theorem keeps_ofExcept (outcome : Except E A) : Keeps machine holds (ofExcept outcome : Fallible sig E A) :=
  fun _ held => (wp_ofExcept _ _ outcome).mpr held

theorem Keeps.bind {program : Fallible sig E A} {rest : A → Fallible sig E B} (first : Keeps machine holds program)
    (second : ∀ value, Keeps machine holds (rest value)) : Keeps machine holds (program >>= rest) :=
  fun s held => wp_seq (first s held) (fun _ value reached kept => second value reached kept) fun _ _ _ kept => kept

theorem Keeps.attempt {program : Fallible sig E A} (keeps : Keeps machine holds program) :
    Keeps machine holds program.attempt :=
  fun s held => (wp_attempt _ _ _).mpr (keeps s held)

end

/-- A program returns such a value, or it raises. -/
def Returns (machine : Machine sig S) (good : A → Prop) (program : Fallible sig E A) : Prop :=
  ∀ s, program.wp machine (fun _ outcome _ => ∀ value, outcome = .ok value → good value) s

section
variable {good : B → Prop}

theorem returns_pure {value : B} (known : good value) : Returns machine good (pure value : Fallible sig E B) := by
  rintro _ _ same
  obtain rfl := Except.ok.inj same
  exact known

theorem returns_raise (exception : E) : Returns machine good (raise exception : Fallible sig E B) := by
  rintro _ _ same
  cases same

/-- The last program decides the value. -/
theorem Returns.bind (free : ∀ s op, machine.guard s op) (program : Fallible sig E A) {rest : A → Fallible sig E B}
    (later : ∀ value, Returns machine good (rest value)) : Returns machine good (program >>= rest) := by
  intro s
  rw [wp_bind]
  apply wp_mono (Program.wp_of_guard free program s)
  intro before outcome reached _
  cases outcome with
  | ok value => exact wp_mono (later value reached) fun _ _ _ known => known
  | error exception =>
      intro value same
      cases same

/-- The rest of a program knows what the first program returned. -/
theorem Returns.seq {known : A → Prop} {program : Fallible sig E A} {rest : A → Fallible sig E B}
    (first : Returns machine known program) (later : ∀ value, known value → Returns machine good (rest value)) :
    Returns machine good (program >>= rest) := by
  intro s
  rw [wp_bind]
  apply wp_mono (first s)
  intro before outcome reached returned
  cases outcome with
  | ok value => exact wp_mono (later value (returned value rfl) reached) fun _ _ _ found => found
  | error exception =>
      intro value same
      cases same

theorem Returns.attempt {program : Fallible sig E B} (returns : Returns machine good program) :
    Returns machine (fun outcome => ∀ value, outcome = .ok value → good value) program.attempt := by
  intro s
  rw [wp_attempt]
  apply wp_mono (returns s)
  intro _ outcome _ known caught same
  obtain rfl := Except.ok.inj same
  exact known

theorem returns_ofExcept {outcome : Except E B} (known : ∀ value, outcome = .ok value → good value) :
    Returns machine good (ofExcept outcome : Fallible sig E B) :=
  fun _ => (wp_ofExcept _ _ outcome).mpr known

end

/-- A program keeps a predicate when each of its operations does. -/
theorem keeps_of_uses {holds : S → Prop} {program : Fallible sig E A} (uses : program.Uses fun op => ∀ s, holds s →
      machine.guard s op ∧ ∀ answer final, machine.step s op answer final → holds final) :
    Keeps machine holds program :=
  fun _ held => Program.wp_of_uses uses held

/-- A program whose operations are permitted and do not change the state preserves the state. -/
theorem wp_of_uses {program : Fallible sig E A} {s : S}
    (uses : program.Uses fun op => machine.guard s op ∧
      ∀ answer final, machine.step s op answer final → final = s) :
    program.wp machine (fun _ _ final => final = s) s := by
  have keeps : Keeps machine (fun after => after = s) program := by
    apply keeps_of_uses (uses.mono ?_)
    rintro op permitted _ rfl
    exact permitted
  exact keeps s rfl

end Fallible

end Effects
