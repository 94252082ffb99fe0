import Cordboard.Effects.Watch

namespace Effects

variable {sig : Signature} {S Op A : Type} {machine : Machine sig S}

/-- A service carries out operations under a watch. The phase is prepared for each operation. -/
structure Service (machine : Machine sig S) (Op A : Type) where
  watch : Watch machine
  task : Op → Program sig A
  prepare : Op → watch.Phase → watch.Phase

namespace Service

variable (service : Service machine Op A)

/-- A session carries out its operations one after another. -/
inductive Session : List Op → S × service.watch.Phase → S × service.watch.Phase → Prop
  | done (state : S × service.watch.Phase) : Session [] state state
  | next {op : Op} {ops : List Op} {state middle final : S × service.watch.Phase} {trace : List sig.Event} {value : A}
      (run : Runs service.watch.along (service.task op) (state.1, service.prepare op state.2) trace value middle)
      (rest : Session ops middle final) : Session (op :: ops) state final

variable {service}

/-- An invariant that looks ahead at the remaining operations holds at the end of the session. -/
theorem Session.invariant {holds : List Op → S × service.watch.Phase → Prop}
    (kept : ∀ op ops state, holds (op :: ops) state → (service.task op).wp service.watch.along
      (fun _ _ after => holds ops after) (state.1, service.prepare op state.2))
    {ops : List Op} {state final : S × service.watch.Phase} (session : service.Session ops state final)
    (held : holds ops state) : holds [] final := by
  induction session with
  | done state => exact held
  | next run rest ih => exact ih (Program.wp_runs (kept _ _ _ held) run)

/-- An invariant of each operation holds at the end of the session. -/
theorem Session.keeps {holds : S × service.watch.Phase → Prop} {ops : List Op}
    (kept : ∀ op ∈ ops, ∀ state, holds state → (service.task op).wp service.watch.along
      (fun _ _ after => holds after) (state.1, service.prepare op state.2))
    {state final : S × service.watch.Phase} (session : service.Session ops state final) (held : holds state) :
    holds final := by
  induction session with
  | done state => exact held
  | next run rest ih =>
      have first := Program.wp_runs (kept _ List.mem_cons_self _ held) run
      exact ih (fun op member => kept op (List.mem_cons_of_mem _ member)) first

variable (service) [∀ s phase op answer, Decidable (service.watch.meets s phase op answer)]

/-- The execution of a session has a resolver for each operation. It ends early at a step that does not meet the
condition of the watch. -/
def exec (resolver : Op → Resolver machine) : List Op → S × service.watch.Phase → Option (S × service.watch.Phase)
  | [], state => some state
  | op :: ops, state =>
      (service.watch.exec (resolver op) (service.task op) [] (state.1, service.prepare op state.2)).bind fun result =>
        exec resolver ops result.final

/-- An execution whose steps all meet the condition is a session. -/
theorem exec_session {resolver : Op → Resolver machine} {ops : List Op} {state final : S × service.watch.Phase}
    (ended : service.exec resolver ops state = some final) : service.Session ops state final := by
  induction ops generalizing state with
  | nil =>
      obtain rfl := Option.some.inj ended
      exact .done state
  | cons op ops ih =>
      obtain ⟨result, first, later⟩ := Option.bind_eq_some_iff.mp ended
      exact .next (service.watch.exec_runs (resolver op) first) (ih later)

end Service

end Effects
