import Cordboard.Construction.Callbacks

namespace Cordboard.Callbacks
open Data Effects Execution
open Archive (StepOutcome)

/-- A Step that no callback has closed ends as a failure. -/
def leakedWork (step : OpenStep) : List Work :=
  [.setOutcome step.span "failed", .setError step.span, .finish step.span]

/-- A section leaves these calls of span objects to its thread. -/
def owed : (op : Op) → op.Answer → List Work
  | .popStep _, some step => [.finish step.span]
  | .failStep .., some step => [.finish step.span]
  | .shut, some (leaked, runSpan) => leaked.flatMap leakedWork ++ runSpan.toList.map .finish
  | _, _ => []

/-- A call has not entered its section yet, or this work is left. -/
abbrev Phase : Type := Option (List Work)

def permits : Phase → Op → Prop
  | none, .work _ => False
  | none, _ => True
  | some work, .work next => work.head? = some next
  | some _, _ => False

def advance : Phase → (op : Op) → op.Answer → Phase
  | some work, .work _, _ => some work.tail
  | _, op, answer => some (owed op answer)

/-- A call enters one section and then does the work that the section leaves to it. -/
abbrev duties : Protocol signature := ⟨Phase, permits, advance⟩

/-- Nothing is left to do. -/
def Done (phase : Phase) : Prop := phase = none ∨ phase = some []

abbrev dutyMachine : Machine signature Phase := duties.limited fun _ _ => True

theorem wp_work (work : Work) (later : List Work) {post : List signature.Event → Except Raised Unit → Phase → Prop}
    (continues : post [⟨.work work, ()⟩] (.ok ()) (some later)) :
    (request (.work work)).wp dutyMachine post (some (work :: later)) := by
  refine ⟨rfl, ?_⟩
  rintro ⟨⟩ after ⟨-, rfl⟩
  exact continues

theorem finishLeaked_does (leaked : List OpenStep) (later : List Work) : (finishLeaked leaked).wp dutyMachine
    (fun _ outcome phase => outcome = .ok () ∧ phase = some later) (some (leaked.flatMap leakedWork ++ later)) := by
  induction leaked with
  | nil => exact ⟨rfl, rfl⟩
  | cons step leaked ih =>
      simp only [finishLeaked, Fallible.wp_bind]
      apply wp_work
      rw [Fallible.after_ok, Fallible.wp_bind]
      apply wp_work
      rw [Fallible.after_ok, Fallible.wp_bind]
      apply wp_work
      exact ih

theorem finishRun_does (runSpan : Option Nat) : (finishRun runSpan).wp dutyMachine (fun _ _ phase => phase = some [])
    (some (runSpan.toList.map .finish)) := by
  cases runSpan with
  | none => rfl
  | some span =>
      apply wp_work
      rfl

theorem finishStep_does (step : Option OpenStep) : (finishStep step).wp dutyMachine (fun _ _ phase => phase = some [])
    (some (step.toList.map fun step => Work.finish step.span)) := by
  cases step with
  | none => rfl
  | some step =>
      apply wp_work
      rfl

theorem finishTaken_does (taken : Option (List OpenStep × Option Nat)) :
    (finishTaken taken).wp dutyMachine (fun _ _ phase => phase = some []) (some (owed .shut taken)) := by
  cases taken with
  | none => rfl
  | some taken =>
      obtain ⟨leaked, runSpan⟩ := taken
      apply Fallible.wp_seq (finishLeaked_does leaked (runSpan.toList.map .finish))
      · rintro _ _ _ ⟨-, rfl⟩
        exact finishRun_does runSpan
      · rintro _ _ _ ⟨never, -⟩
        cases never

/-- A call that returns has done the work that its section left to it. -/
theorem perform_does (platform : Platform) (call : Call) :
    (call.perform platform).wp dutyMachine (fun _ _ phase => Done phase) none := by
  have last {program : Callback Unit} {work : List Work}
      (does : program.wp dutyMachine (fun _ _ phase => phase = some []) (some work)) :
      program.wp dutyMachine (fun _ _ phase => Done phase) (some work) := Fallible.wp_mono does fun _ _ _ => .inr
  cases call with
  | onChainStart runId tags metadata =>
      simp only [Call.perform, onChainStart]
      split
      · exact .inl rfl
      · split
        · exact .inl rfl
        · rw [Fallible.wp_bind, Fallible.wp_request]
          refine ⟨trivial, ?_⟩
          rintro answer after ⟨-, rfl⟩
          rw [Fallible.after_ok, Fallible.wp_ofExcept]
          exact .inr rfl
  | onChainEnd runId =>
      simp only [Call.perform, onChainEnd, Fallible.wp_bind]
      refine ⟨trivial, ?_⟩
      rintro answer after ⟨-, rfl⟩
      have does := last (finishStep_does answer)
      cases answer <;> exact does
  | onChainError runId error =>
      simp only [Call.perform, onChainError, Fallible.wp_bind]
      refine ⟨trivial, ?_⟩
      rintro answer after ⟨-, rfl⟩
      have does := last (finishStep_does answer)
      cases answer <;> exact does
  | close =>
      simp only [Call.perform, close, Fallible.wp_bind]
      refine ⟨trivial, ?_⟩
      rintro answer after ⟨-, rfl⟩
      exact last (finishTaken_does answer)

theorem perform_obeys (platform : Platform) (call : Call) :
    duties.Obeys (call.perform platform).toProgram none :=
  duties.obeys_of_limited (perform_does platform call)

end Cordboard.Callbacks
