import Cordboard.Proof.Rules.Matching
import Cordboard.Proof.Archive.Checked

namespace Cordboard.Router
open Rules
open Data (bind_ok)

/-- The condition names an Assistant, or a connection that is not the one of the Rule. -/
def Pinned (rule : Rule) : Prop :=
  (rule.whenPaths.lookup "assistant").isSome = true ∨
  ∃ literal, rule.whenPaths.lookup "connection" = some literal ∧ literal.pyEq (.str rule.connection) = false

theorem pyEq_text {text : String} {value : Json} : (Json.str text).pyEq value = true ↔ value = .str text := by
  cases value with
  | str other =>
      simp only [Json.pyEq, beq_iff_eq, Json.str.injEq]
      exact eq_comm
  | _ => simp [Json.pyEq, Json.number?]

section
variable {declared : Declared} {rule : Rule} {run : FinishedRun} {members : List (String × Json)} {name : String}
  {literal : Json}

/-- A cascade Rule with the self-loop guard behind it. -/
theorem validateCascade_guard {connection assistant : String}
    (accepted : validateCascade declared name connection assistant = .ok rule) :
    selfLoop rule.whenPaths rule.connection rule.assistant = false := by
  unfold validateCascade at accepted
  split at accepted
  · cases accepted
  · split at accepted
    · split at accepted
      · cases accepted
      · rename_i open_
        obtain ⟨subject, _, later⟩ := bind_ok.mp accepted
        obtain ⟨input, _, built⟩ := bind_ok.mp later
        obtain rfl := Except.ok.inj built
        exact Bool.eq_false_iff.mpr open_
    · cases accepted

theorem validateExternal_type {type : SignalType} {connection assistant : String}
    (accepted : validateExternal declared type name connection assistant = .ok rule) : rule.signalType = type := by
  unfold validateExternal at accepted
  split at accepted
  · cases accepted
  · obtain ⟨subject, _, later⟩ := bind_ok.mp accepted
    split at later
    · obtain ⟨input, _, built⟩ := bind_ok.mp later
      obtain rfl := Except.ok.inj built
      rfl
    · cases later

/-- The guard stands before every accepted `run.finished` Rule. -/
theorem validateRule_guard (accepted : validateRule declared = .ok rule) (cascades : rule.signalType = .runFinished) :
    selfLoop rule.whenPaths rule.connection rule.assistant = false := by
  obtain ⟨_, _, typed⟩ := bind_ok.mp accepted
  obtain ⟨type, _, targeted⟩ := bind_ok.mp typed
  obtain ⟨_, _, named⟩ := bind_ok.mp targeted
  obtain ⟨_, _, validated⟩ := bind_ok.mp named
  split at validated
  · exact validateCascade_guard validated
  · rename_i other
    exact absurd ((validateExternal_type validated).symm.trans cascades) other

/-- A Rule that applies finds each of its literals. -/
theorem literal_of_matches (applies : matchesSignal rule (.finished run) = true) (cascades : rule.signalType = .runFinished)
    (found : rule.whenPaths.lookup name = some literal) :
    ∃ value, resolve (Signal.finished run).payload name = some value ∧ value.pyEq literal = true := by
  have declared : (name, literal) ∈ conditions rule := by
    rw [conditions, if_pos cascades]
    exact Data.mem_of_lookup found
  obtain ⟨value, known, equal⟩ := (matchesSignal_iff.mp applies).2 _ declared
  exact ⟨value, known, (Json.pyEq_numeric value literal).trans equal⟩

/-- No accepted `run.finished` Rule with a pinned condition applies to a Run of its own target. -/
theorem no_self_loop (accepted : validateRule declared = .ok rule) (cascades : rule.signalType = .runFinished)
    (pinned : Pinned rule) (connection : run.connection = rule.connection) (assistant : run.assistant = rule.assistant) :
    matchesSignal rule (.finished run) = false := by
  rw [Bool.eq_false_iff]
  intro applies
  have elsewhere : ∀ other, rule.whenPaths.lookup "connection" = some other →
      other.pyEq (.str rule.connection) = true := by
    intro other found
    obtain ⟨value, known, equal⟩ := literal_of_matches applies cascades found
    obtain rfl : .str run.connection = value := Option.some.inj known
    rw [pyEq_text.mp equal, connection, pyEq_text]
  rcases pinned with named | ⟨other, found, different⟩
  · obtain ⟨own, found⟩ := Option.isSome_iff_exists.mp named
    obtain ⟨value, known, equal⟩ := literal_of_matches applies cascades found
    obtain rfl : .str run.assistant = value := Option.some.inj known
    have target : own.pyEq (.str rule.assistant) = true := by
      rw [pyEq_text.mp equal, assistant, pyEq_text]
    have open_ := validateRule_guard accepted cascades
    rw [selfLoop, found, Option.getD_some, target, Bool.and_true] at open_
    cases away : rule.whenPaths.lookup "connection" with
    | none =>
        rw [away, Option.getD_none, Bool.eq_false_iff, ne_eq, pyEq_text] at open_
        exact open_ rfl
    | some other =>
        rw [away, Option.getD_some, elsewhere other away] at open_
        cases open_
  · rw [elsewhere other found] at different
    cases different

end

/-- A Rule chains another Graph behind the one that it names. -/
def chainedRule : Declared := [("name", .str "chain"), ("signal_type", .str "run.finished"),
  ("connection", .str "local"), ("assistant", .str "graph-b"),
  ("when", .obj [("assistant", .str "graph-a"), ("status", .str "success")])]

theorem no_self_loop_chained : ∃ rule, validateRule chainedRule = .ok rule ∧ rule.assistant = "graph-b" ∧
    matchesSignal rule (.finished ⟨"run", "42", "local", "graph-b", "success", 1⟩) = false := by
  refine ⟨_, rfl, rfl, ?_⟩
  exact @no_self_loop chainedRule _ _ rfl rfl (.inl rfl) rfl rfl

/-- A Rule waits for any success and leaves the Assistant open. -/
def openRule : Declared := [("name", .str "again"), ("signal_type", .str "run.finished"),
  ("connection", .str "local"), ("assistant", .str "graph"), ("when", .obj [("status", .str "success")])]

/-- This Rule is accepted, and a Run of its own target starts it again. -/
theorem open_rule_loops : ∃ rule signal, validateRule openRule = .ok rule ∧
    runFinishedSignal ⟨"run", "42", rule.connection, rule.assistant, "success", 0⟩ = .ok signal ∧
    matchesSignal rule signal = true := by
  refine ⟨_, _, rfl, rfl, by decide +kernel⟩

end Cordboard.Router
