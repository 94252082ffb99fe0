import Cordboard.Construction.Discovery
import Cordboard.Proof.Archive.Checked

namespace Cordboard
open Data

namespace Json

def isNull : Json → Bool
  | .null => true
  | _ => false

def isDict : Json → Bool
  | .obj _ => true
  | _ => false

/-- A dictionary has a member of this name. -/
def has (value : Json) (name : String) : Bool :=
  match value with
  | .obj members => (members.lookup name).isSome
  | _ => false

/-- The member of this name, or the default. -/
def member (value : Json) (name : String) (default_ : Json) : Json :=
  match value with
  | .obj members => (members.lookup name).getD default_
  | _ => default_

/-- Each item of an array passes the test. -/
def each (test : Json → Bool) : Json → Bool
  | .arr items => items.all test
  | _ => false

/-- Some item of an array passes the test. -/
def any (test : Json → Bool) : Json → Bool
  | .arr items => items.any test
  | _ => false

/-- A loop over `value or []` meets only items that pass the test. -/
def visits (test : Json → Bool) (value : Json) : Bool := !value.truthy || value.each test

section
variable {value found : Json} {name : String}

theorem getOr_ok {default_ : Json} :
    value.getOr name default_ = .ok found ↔ value.isDict = true ∧ found = value.member name default_ := by
  cases value <;> simp [getOr, isDict, member, eq_comm]

theorem getField_ok : value.getField name = .ok found ↔ value.isDict = true ∧ found = value.member name .null := by
  cases value <;> simp [getField, isDict, member, eq_comm]

theorem index_ok : value.index name = .ok found ↔ value.has name = true ∧ found = value.member name .null := by
  cases value with
  | obj members => cases stored : members.lookup name <;> simp [index, has, member, stored, eq_comm]
  | _ => simp [index, has]

theorem isDict_of_has (present : value.has name = true) : value.isDict = true := by
  cases value with
  | obj members => rfl
  | _ => cases present

theorem isNull_iff : value.isNull = true ↔ value = .null := by
  cases value <;> simp [isNull]

end

section
variable {test : Json → Bool} {value : Json} {items : List Json}

/-- A loop finds no item exactly in a false value. -/
theorem iterate_empty (visited : (value.orElse (.arr [])).iterate = .ok items) : items.isEmpty = !value.truthy := by
  unfold orElse at visited
  cases truthy : value.truthy with
  | false =>
      rw [truthy] at visited
      obtain rfl := Except.ok.inj visited
      rfl
  | true =>
      rw [truthy, if_pos rfl] at visited
      cases value with
      | arr values =>
          obtain rfl := Except.ok.inj visited
          simpa [Json.truthy] using truthy
      | obj members =>
          obtain rfl := Except.ok.inj visited
          simpa [Json.truthy] using truthy
      | str text =>
          obtain rfl := Except.ok.inj visited
          simpa [Json.truthy] using truthy
      | _ => cases visited

/-- A loop over a text or over a dictionary visits texts. -/
theorem visits_iff (texts : ∀ text, test (.str text) = false) :
    value.visits test = true ↔ ∃ items, (value.orElse (.arr [])).iterate = .ok items ∧ items.all test = true := by
  unfold visits orElse
  cases truthy : value.truthy with
  | false => simp [iterate]
  | true =>
      cases value with
      | arr values => simp [iterate, each]
      | obj members =>
          cases members with
          | nil => cases truthy
          | cons first rest => simp [iterate, each, texts]
      | str text =>
          have some_ : ∃ c, c ∈ text.toList := by
            apply List.exists_mem_of_ne_nil
            simpa [Json.truthy] using truthy
          obtain ⟨c, member⟩ := some_
          simp only [each, iterate, Bool.not_true, Bool.or_false, Bool.false_eq_true, if_true, false_iff]
          rintro ⟨items, visited, all⟩
          obtain rfl := Except.ok.inj visited
          have passed := List.all_eq_true.mp all (.str (String.singleton c)) (List.mem_map_of_mem member)
          rw [texts] at passed
          cases passed
      | _ => simp [iterate, each]

end

end Json

namespace AegraClient

/-- The answer has the fields of a Run, and its configuration can be read. -/
def shapedRun (run : Json) : Bool :=
  let config := run.member "config" .null
  run.isDict && (!config.truthy || config.isDict && (config.member "configurable" (.obj [])).isDict) &&
    run.has "assistant_id" && run.has "status"

theorem subject_returns {config : Json} :
    (∃ configurable subject, (config.orElse (.obj [])).getOr "configurable" (.obj []) = .ok configurable ∧
      configurable.getField "cord_subject" = .ok subject) ↔
    (!config.truthy || config.isDict && (config.member "configurable" (.obj [])).isDict) = true := by
  unfold Json.orElse
  cases config.truthy with
  | false =>
      simp only [Bool.not_false, Bool.true_or, iff_true]
      exact ⟨.obj [], .null, rfl, rfl⟩
  | true =>
      simp only [if_true, Json.getOr_ok, Json.getField_ok, Bool.not_true, Bool.false_or, Bool.and_eq_true]
      constructor
      · rintro ⟨_, _, ⟨config, rfl⟩, inner, _⟩
        exact ⟨config, inner⟩
      · rintro ⟨config, inner⟩
        exact ⟨_, _, ⟨config, rfl⟩, inner, rfl⟩

theorem describe_returns {run : Json} : (∃ info, describe run = .ok info) ↔ shapedRun run = true := by
  have shape : shapedRun run = true ↔ run.isDict = true ∧
      (!(run.member "config" .null).truthy || (run.member "config" .null).isDict &&
        ((run.member "config" .null).member "configurable" (.obj [])).isDict) = true ∧
      run.has "assistant_id" = true ∧ run.has "status" = true := by
    simp only [shapedRun, Bool.and_eq_true, and_assoc]
  rw [shape, ← subject_returns]
  have config {value found : Json} : value.getField "config" = .ok found ↔
      value.isDict = true ∧ found = value.member "config" .null := Json.getField_ok
  simp only [describe, bind_ok, Json.index_ok, config]
  constructor
  · rintro ⟨_, _, ⟨dict, rfl⟩, configurable, found, subject, read, _, ⟨assistant, _⟩, _, ⟨status, _⟩, _⟩
    exact ⟨dict, ⟨configurable, subject, found, read⟩, assistant, status⟩
  · rintro ⟨dict, ⟨configurable, subject, found, read⟩, assistant, status⟩
    exact ⟨_, _, ⟨dict, rfl⟩, configurable, found, subject, read, _, ⟨assistant, rfl⟩, _, ⟨status, rfl⟩, rfl⟩

theorem describe_status {run : Json} {info : Description} (described : describe run = .ok info) :
    info.status = run.member "status" .null := by
  simp only [describe, bind_ok, Json.index_ok] at described
  obtain ⟨_, _, _, _, _, _, _, _, status, ⟨_, rfl⟩, same⟩ := described
  obtain rfl := Except.ok.inj same
  rfl

end AegraClient

namespace ApprovalInbox

/-- The task has no result and holds interrupts. -/
def taskWaits (task : Json) : Bool := (task.member "result" .null).isNull && (task.member "interrupts" .null).truthy

/-- Each interrupt of an unfinished task has an identifier. -/
def shapedTask (task : Json) : Bool :=
  task.isDict && (!(task.member "result" .null).isNull ||
    (task.member "interrupts" .null).visits fun interrupt => interrupt.has "id")

/-- Some task of the state waits. -/
def stateWaits (state : Json) : Bool := (state.member "tasks" .null).any taskWaits

/-- The state is a dictionary with well-shaped tasks. -/
def shapedState (state : Json) : Bool := state.isDict && (state.member "tasks" .null).visits shapedTask

/-- The checkpoint of the state is absent or a dictionary. -/
def shapedCheckpoint (state : Json) : Bool :=
  !(state.member "checkpoint" .null).truthy || (state.member "checkpoint" .null).isDict

section
variable {state task : Json} {found : List Json}

theorem taskInterrupts_ok : taskInterrupts task = .ok found ↔ task.isDict = true ∧
    if (task.member "result" .null).isNull then
      ((task.member "interrupts" .null).orElse (.arr [])).iterate = .ok found
    else found = [] := by
  unfold taskInterrupts
  rw [bind_ok]
  simp only [Json.getField_ok]
  constructor
  · rintro ⟨result, ⟨dict, same⟩, rest⟩
    refine ⟨dict, ?_⟩
    rw [← same]
    cases result with
    | null =>
        obtain ⟨_, stored, visited⟩ := bind_ok.mp rest
        obtain ⟨_, rfl⟩ := Json.getField_ok.mp stored
        exact visited
    | _ =>
        obtain rfl := Except.ok.inj rest
        rfl
  · rintro ⟨dict, rest⟩
    refine ⟨_, ⟨dict, rfl⟩, ?_⟩
    cases result : task.member "result" .null with
    | null =>
        rw [result] at rest
        exact bind_ok.mpr ⟨_, Json.getField_ok.mpr ⟨dict, rfl⟩, rest⟩
    | _ =>
        rw [result] at rest
        obtain rfl := rest
        rfl

theorem taskInterrupts_shaped :
    (∃ found, taskInterrupts task = .ok found ∧ (found.all fun interrupt => interrupt.has "id") = true) ↔
      shapedTask task = true := by
  unfold shapedTask
  simp only [taskInterrupts_ok, Bool.and_eq_true, Bool.or_eq_true, Bool.not_eq_true']
  cases (task.member "result" .null).isNull with
  | true =>
      rw [Json.visits_iff fun _ => rfl]
      simp only [if_true, Bool.true_eq_false, false_or]
      constructor
      · rintro ⟨found, ⟨dict, visited⟩, all⟩
        exact ⟨dict, found, visited, all⟩
      · rintro ⟨dict, found, visited, all⟩
        exact ⟨found, ⟨dict, visited⟩, all⟩
  | false =>
      simp only [Bool.false_eq_true, if_false, true_or, and_true]
      constructor
      · rintro ⟨_, ⟨dict, _⟩, _⟩
        exact dict
      · exact fun dict => ⟨[], ⟨dict, rfl⟩, rfl⟩

theorem taskInterrupts_waits (read : taskInterrupts task = .ok found) : found.isEmpty = !taskWaits task := by
  obtain ⟨_, rest⟩ := taskInterrupts_ok.mp read
  unfold taskWaits
  cases waits : (task.member "result" .null).isNull with
  | true =>
      rw [waits, if_pos rfl] at rest
      rw [Bool.true_and]
      exact Json.iterate_empty rest
  | false =>
      rw [waits, if_neg Bool.false_ne_true] at rest
      rw [rest]
      rfl

/-- The tasks of a loop are read one after the other. -/
theorem tasks_shaped {tasks : List Json} :
    (∃ found, tasks.mapM taskInterrupts = .ok found ∧
      (found.flatten.all fun interrupt => interrupt.has "id") = true) ↔ tasks.all shapedTask = true := by
  induction tasks with
  | nil => simp [pure, Except.pure]
  | cons task rest ih =>
      rw [List.all_cons, Bool.and_eq_true, ← ih, ← taskInterrupts_shaped]
      simp only [List.mapM_cons, bind_ok]
      constructor
      · rintro ⟨_, ⟨first, read, others, later, same⟩, all⟩
        obtain rfl := Except.ok.inj same
        rw [List.flatten_cons, List.all_append, Bool.and_eq_true] at all
        exact ⟨⟨first, read, all.1⟩, others, later, all.2⟩
      · rintro ⟨⟨first, read, one⟩, others, later, two⟩
        refine ⟨_, ⟨first, read, others, later, rfl⟩, ?_⟩
        rw [List.flatten_cons, List.all_append, one, two]
        rfl

theorem tasks_wait {tasks : List Json} {found : List (List Json)} (read : tasks.mapM taskInterrupts = .ok found) :
    found.flatten.isEmpty = !tasks.any taskWaits := by
  induction tasks generalizing found with
  | nil =>
      obtain rfl := Except.ok.inj read
      rfl
  | cons task rest ih =>
      rw [List.mapM_cons] at read
      obtain ⟨first, one, later⟩ := bind_ok.mp read
      obtain ⟨others, two, same⟩ := bind_ok.mp later
      obtain rfl := Except.ok.inj same
      have split_ : (first ++ others.flatten).isEmpty = (first.isEmpty && others.flatten.isEmpty) := by
        cases first <;> rfl
      rw [List.flatten_cons, split_, taskInterrupts_waits one, ih two, List.any_cons, Bool.not_or]

theorem interruptsOf_shaped :
    (∃ found, interruptsOf state = .ok found ∧ (found.all fun interrupt => interrupt.has "id") = true) ↔
      shapedState state = true := by
  unfold shapedState
  rw [Bool.and_eq_true, Json.visits_iff fun _ => rfl]
  simp only [interruptsOf, bind_ok, Json.getField_ok, ← tasks_shaped]
  constructor
  · rintro ⟨_, ⟨_, ⟨dict, rfl⟩, tasks, visited, found, read, same⟩, all⟩
    obtain rfl := Except.ok.inj same
    exact ⟨dict, tasks, visited, found, read, all⟩
  · rintro ⟨dict, tasks, visited, found, read, all⟩
    exact ⟨_, ⟨_, ⟨dict, rfl⟩, tasks, visited, found, read, rfl⟩, all⟩

theorem interruptsOf_waits (shaped : shapedState state = true) (read : interruptsOf state = .ok found) :
    found.isEmpty = !stateWaits state := by
  simp only [interruptsOf, bind_ok, Json.getField_ok] at read
  obtain ⟨_, ⟨_, rfl⟩, tasks, visited, found, later, same⟩ := read
  obtain rfl := Except.ok.inj same
  rw [tasks_wait later]
  have visits := (Bool.and_eq_true _ _).mp shaped
  unfold stateWaits
  unfold Json.visits at visits
  unfold Json.orElse at visited
  cases truthy : (state.member "tasks" .null).truthy with
  | false =>
      rw [truthy] at visited
      obtain rfl := Except.ok.inj visited
      cases stored : state.member "tasks" .null with
      | arr items =>
          rw [stored] at truthy
          have none : items = [] := by simpa [Json.truthy] using truthy
          rw [none]
          rfl
      | _ => rfl
  | true =>
      rw [truthy, if_pos rfl] at visited
      rw [truthy] at visits
      cases stored : state.member "tasks" .null with
      | arr items =>
          rw [stored] at visited
          obtain rfl := Except.ok.inj visited
          rfl
      | _ =>
          rw [stored] at visits
          cases visits.2

theorem revisionOf_returns (dict : state.isDict = true) :
    (∃ revision, revisionOf state = .ok revision) ↔ shapedCheckpoint state = true := by
  unfold shapedCheckpoint
  have shape : (∃ revision, revisionOf state = .ok revision) ↔
      ((state.member "checkpoint" .null).orElse (.obj [])).isDict = true := by
    simp only [revisionOf, bind_ok, Json.getField_ok]
    constructor
    · rintro ⟨_, _, ⟨_, rfl⟩, _, ⟨inner, _⟩, _⟩
      exact inner
    · intro inner
      cases truthy : (((state.member "checkpoint" .null).orElse (.obj [])).member "checkpoint_id" .null).truthy with
      | true => exact ⟨_, _, ⟨dict, rfl⟩, _, ⟨inner, rfl⟩, by rw [if_pos truthy]; rfl⟩
      | false =>
          refine ⟨state.member "checkpoint_id" .null, _, ⟨dict, rfl⟩, _, ⟨inner, rfl⟩, ?_⟩
          rw [if_neg (ne_true_of_eq_false truthy)]
          exact Json.getField_ok.mpr ⟨dict, rfl⟩
  rw [shape]
  unfold Json.orElse
  cases (state.member "checkpoint" .null).truthy <;> simp [Json.isDict]

end

end ApprovalInbox

end Cordboard
