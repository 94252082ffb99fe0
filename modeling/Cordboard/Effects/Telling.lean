import Cordboard.Effects.Execution

namespace Effects

variable {sig : Signature} {S A B E : Type}

/-- This machine gives every answer to every operation. -/
def anything (sig : Signature) : Machine sig Unit where
  guard _ _ := True
  step _ _ _ _ := True

/-- What holds after every answer holds on each machine that permits everything. -/
theorem Program.wp_anything {machine : Machine sig S} (free : ∀ s op, machine.guard s op) {program : Program sig A}
    {post : List sig.Event → A → Prop} (pre : program.wp (anything sig) (fun events value _ => post events value) ())
    (s : S) : program.wp machine (fun events value _ => post events value) s := by
  induction program generalizing post s with
  | pure value => exact pre
  | perform op next ih =>
      exact ⟨free s op, fun answer after _ => ih answer (pre.2 answer () trivial) after⟩

namespace Fallible

/-- The events of each run tell this about the value that the program returns. -/
def Tells (told : List sig.Event → A → Prop) (program : Fallible sig E A) : Prop :=
  program.wp (anything sig) (fun events outcome _ => ∀ value, outcome = .ok value → told events value) ()

section
variable {told : List sig.Event → B → Prop}

theorem tells_pure {value : B} (known : told [] value) : Tells told (pure value : Fallible sig E B) := by
  intro _ same
  obtain rfl := Except.ok.inj same
  exact known

theorem tells_raise (exception : E) : Tells told (raise exception : Fallible sig E B) := by
  intro _ same
  cases same

theorem tells_ofExcept {outcome : Except E B} (known : ∀ value, outcome = .ok value → told [] value) :
    Tells told (ofExcept outcome : Fallible sig E B) :=
  (wp_ofExcept _ _ outcome).mpr known

/-- The only event of a request has its answer. -/
theorem tells_request (op : sig.Op) :
    Tells (fun events answer => events = [⟨op, answer⟩]) (request op : Fallible sig E (sig.Answer op)) := by
  refine (wp_request op _ ()).mpr ⟨trivial, fun answer _ _ value same => ?_⟩
  rw [Except.ok.inj same]

/-- The rest of a program adds its events to those of the first program. -/
theorem Tells.seq {K : List sig.Event → A → Prop} {program : Fallible sig E A} {rest : A → Fallible sig E B}
    (first : Tells K program)
    (later : ∀ before value, K before value → Tells (fun events => told (before ++ events)) (rest value)) :
    Tells told (program >>= rest) := by
  apply wp_seq first
  · intro before value reached known
    exact later before value (known value rfl)
  · intro before exception reached _ value same
    cases same

/-- The rest of a caught program learns the value or the exception. -/
theorem Tells.caught {K : List sig.Event → A → Prop} {program : Fallible sig E A}
    {rest : Except E A → Fallible sig E B} (first : Tells K program)
    (later : ∀ before outcome, (∀ value, outcome = .ok value → K before value) →
      Tells (fun events => told (before ++ events)) (rest outcome)) :
    Tells told (program.attempt >>= rest) :=
  wp_caught first fun before outcome _ known => later before outcome known

theorem Tells.mono {K : List sig.Event → B → Prop} {program : Fallible sig E B} (tells : Tells K program)
    (weaker : ∀ events value, K events value → told events value) : Tells told program :=
  wp_mono tells fun events _ _ known value same => weaker events value (known value same)

/-- What a program tells holds on each machine that permits everything. -/
theorem Tells.on {program : Fallible sig E B} (tells : Tells told program) {machine : Machine sig S}
    (free : ∀ s op, machine.guard s op) (s : S) :
    program.wp machine (fun events outcome _ => ∀ value, outcome = .ok value → told events value) s :=
  Program.wp_anything free tells s

end

/-- Each run from this state that raises raises an exception of this kind. -/
def Raises (machine : Machine sig S) (kind : E → Prop) (program : Fallible sig E A) (s : S) : Prop :=
  program.wp machine (fun _ outcome _ => ∀ exception, outcome = .error exception → kind exception) s

section
variable {machine : Machine sig S} {kind : E → Prop} {s : S}

theorem raises_pure (value : A) : Raises machine kind (pure value : Fallible sig E A) s := by
  intro exception same
  cases same

theorem raises_raise {exception : E} (known : kind exception) :
    Raises machine kind (raise exception : Fallible sig E A) s := by
  intro other same
  obtain rfl := Except.error.inj same
  exact known

theorem raises_ofExcept {outcome : Except E A} (known : ∀ exception, outcome = .error exception → kind exception) :
    Raises machine kind (ofExcept outcome : Fallible sig E A) s :=
  (wp_ofExcept _ _ outcome).mpr known

/-- The rest of a program starts in a state that is known of the first one. -/
theorem Raises.seq {K : A → S → Prop} {program : Fallible sig E A} {rest : A → Fallible sig E B}
    (first : Raises machine kind program s)
    (known : program.wp machine (fun _ outcome after => ∀ value, outcome = .ok value → K value after) s)
    (later : ∀ value after, K value after → Raises machine kind (rest value) after) :
    Raises machine kind (program >>= rest) s := by
  apply wp_seq (Program.wp_and first known)
  · intro before value after held
    exact later value after (held.2 value rfl)
  · intro before exception after held other same
    obtain rfl := Except.error.inj same
    exact held.1 exception rfl

/-- A stored outcome leaves the state alone. -/
theorem raises_stored {outcome : Except E A} {rest : A → Fallible sig E B}
    (known : ∀ exception, outcome = .error exception → kind exception)
    (later : ∀ value, outcome = .ok value → Raises machine kind (rest value) s) :
    Raises machine kind (ofExcept outcome >>= rest) s := by
  cases outcome with
  | ok value => exact later value rfl
  | error exception => exact raises_raise (known exception rfl)

end

end Fallible

end Effects
