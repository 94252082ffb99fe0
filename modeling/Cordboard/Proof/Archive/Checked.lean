import Cordboard.Construction.Archive.Query
import Cordboard.Data.Ancestry
import Cordboard.Data.Outcome

namespace Cordboard.Archive
open Data

section
variable {A B : Type}

@[simp] theorem require_ok {condition : Bool} {reason : String} {value : Unit} :
    require condition reason = .ok value ↔ condition = true := by
  unfold require
  cases condition <;> simp

/-- A check before the rest holds when the whole returns. -/
theorem require_bind_ok {condition : Bool} {reason : String} {rest : Unit → Checked B} {value : B} :
    (require condition reason >>= rest) = .ok value ↔ condition = true ∧ rest () = .ok value := by
  rw [bind_ok]
  constructor
  · rintro ⟨_, checked, later⟩
    exact ⟨require_ok.mp checked, later⟩
  · rintro ⟨holds, later⟩
    exact ⟨(), require_ok.mpr holds, later⟩

theorem bind_returns {first : Checked A} {rest : A → Checked B} {middle : A} (done : first = .ok middle)
    (later : ∃ value, rest middle = .ok value) : ∃ value, (first >>= rest) = .ok value := by
  obtain ⟨value, later⟩ := later
  exact ⟨value, bind_ok.mpr ⟨middle, done, later⟩⟩

theorem require_bind_returns {condition : Bool} {reason : String} {rest : Unit → Checked B} (holds : condition = true)
    (later : ∃ value, rest () = .ok value) : ∃ value, (require condition reason >>= rest) = .ok value :=
  bind_returns (require_ok.mpr holds) later

/-- A reader raises nothing but `ArchiveError`. -/
def Tame (outcome : Checked A) : Prop := ∀ failure, outcome = .error failure → ∃ reason, failure = .archive reason

theorem tame_ok (value : A) : Tame (.ok value : Checked A) := by
  intro failure same
  cases same

theorem tame_archive (reason : String) : Tame (.error (.archive reason) : Checked A) := by
  intro failure same
  obtain rfl := Except.error.inj same
  exact ⟨reason, rfl⟩

theorem tame_require (condition : Bool) (reason : String) : Tame (require condition reason) := by
  unfold require
  split
  · exact tame_ok ()
  · exact tame_archive reason

theorem Tame.bind {first : Checked A} {rest : A → Checked B} (tame : Tame first)
    (later : ∀ value, first = .ok value → Tame (rest value)) : Tame (first >>= rest) := by
  cases first with
  | error failure =>
      intro other same
      obtain rfl : failure = other := Except.error.inj same
      exact tame failure rfl
  | ok value => exact later value rfl

theorem Tame.at {outcome : Checked A} (tame : Tame outcome) (location : String) : Tame (at_ location outcome) := by
  cases outcome with
  | ok value => exact tame_ok value
  | error failure =>
      obtain ⟨reason, rfl⟩ := tame failure rfl
      exact tame_archive _

theorem at_ok {location : String} {outcome : Checked A} {value : A} :
    at_ location outcome = .ok value ↔ outcome = .ok value := by
  cases outcome with
  | ok other => exact Iff.rfl
  | error failure =>
      constructor
      · intro same
        cases failure <;> cases same
      · intro same
        cases same

/-- A tame reader returns or raises an `ArchiveError`. -/
theorem Tame.returns_or_raises {outcome : Checked A} (tame : Tame outcome) :
    (∃ value, outcome = .ok value) ∨ ∃ reason, outcome = .error (.archive reason) := by
  cases outcome with
  | ok value => exact .inl ⟨value, rfl⟩
  | error failure =>
      obtain ⟨reason, rfl⟩ := tame failure rfl
      exact .inr ⟨reason, rfl⟩

end

section
variable {spans : SpanMap} {reference : Int}

theorem mem_values {entry : Entry} : entry ∈ spans.values ↔ ∃ key, spans.entries.get? key = some entry := by
  simp only [SpanMap.values, List.mem_map, Dict.get?_eq_some_iff]
  constructor
  · rintro ⟨⟨key, value⟩, member, rfl⟩
    exact ⟨key, member⟩
  · rintro ⟨key, member⟩
    exact ⟨_, member, rfl⟩

/-- A new span stands in the map beside the spans with other identifiers. -/
theorem holds_insert {entry : Entry} {named : entry.span.spanId ≠ ""} {span : Span} :
    (spans.insert entry named).holds span ↔
      span = entry.span ∨ (span.spanId ≠ entry.span.spanId ∧ spans.holds span) := by
  constructor
  · rintro ⟨other, member, rfl⟩
    obtain ⟨key, found⟩ := mem_values.mp member
    have placed := (spans.insert entry named).keyed key other found
    simp only [SpanMap.insert, Dict.get?_set] at found
    split at found
    · rw [← Option.some.inj found]
      exact .inl rfl
    · rename_i different
      exact .inr ⟨by rwa [placed], other, mem_values.mpr ⟨key, found⟩, rfl⟩
  · rintro (rfl | ⟨different, other, member, rfl⟩)
    · exact ⟨entry, mem_values.mpr ⟨entry.span.spanId, Dict.get?_set_self _ _ _⟩, rfl⟩
    · obtain ⟨key, found⟩ := mem_values.mp member
      have placed := spans.keyed key other found
      refine ⟨other, mem_values.mpr ⟨key, ?_⟩, rfl⟩
      simp only [SpanMap.insert]
      rw [Dict.get?_set_of_ne _ (by rwa [← placed]), found]

/-- A lookup finds a span of the map. -/
theorem get_mem {key : Json} {entry : Entry} (found : spans.get key = .ok (some entry)) : entry ∈ spans.values := by
  cases key with
  | str text => exact mem_values.mpr ⟨text, Except.ok.inj found⟩
  | null => cases found
  | bool value => cases found
  | int value => cases found
  | float value => cases found
  | arr items => cases found
  | obj members => cases found

/-- A reference that is false in a condition finds nothing. -/
theorem get_falsy {key : Json} (falsy : key.truthy = false) (entry : Entry) : spans.get key ≠ .ok (some entry) := by
  cases key with
  | str text =>
      have empty : text = "" := by simpa [Json.truthy] using falsy
      subst text
      intro found
      have present : "" ∈ spans.entries.keys := Dict.mem_keys_of_get? (Except.ok.inj found)
      exact spans.named _ present rfl
  | arr items => intro found; cases found
  | obj members => intro found; cases found
  | null => intro found; cases found
  | bool value => intro found; cases found
  | int value => intro found; cases found
  | float value => intro found; cases found

/-- Each span of the map passes the check of the loop. -/
def Accepted (spans : SpanMap) (reference : Int) : Prop :=
  ∀ entry ∈ spans.values, ∃ value, querySpan spans reference entry.span = .ok value

theorem tally_ok {entries : List Entry} {counts : Dict (String × String) Nat} :
    (∃ result, tally spans reference entries counts = .ok result) ↔
      ∀ entry ∈ entries, ∃ value, querySpan spans reference entry.span = .ok value := by
  induction entries generalizing counts with
  | nil => simp [tally]
  | cons entry rest ih =>
      rw [List.forall_mem_cons]
      constructor
      · rintro ⟨result, done⟩
        obtain ⟨value, checked, later⟩ := bind_ok.mp done
        refine ⟨⟨value, at_ok.mp checked⟩, ?_⟩
        cases value with
        | none => exact ih.mp ⟨result, later⟩
        | some key => exact ih.mp ⟨result, later⟩
      · rintro ⟨⟨value, checked⟩, others⟩
        cases value with
        | none =>
            obtain ⟨result, later⟩ := (@ih counts).mpr others
            exact ⟨result, bind_ok.mpr ⟨none, at_ok.mpr checked, later⟩⟩
        | some key =>
            obtain ⟨result, later⟩ := (@ih (count counts key)).mpr others
            exact ⟨result, bind_ok.mpr ⟨some key, at_ok.mpr checked, later⟩⟩

/-- The query returns exactly when its limit is positive and each span passes. -/
theorem querySpans_ok {top : Int} :
    (∃ rows, querySpans spans reference top = .ok rows) ↔ 0 < top ∧ Accepted spans reference := by
  constructor
  · rintro ⟨rows, done⟩
    obtain ⟨positive, later⟩ := require_bind_ok.mp done
    obtain ⟨counts, tallied, _⟩ := bind_ok.mp later
    exact ⟨of_decide_eq_true positive, tally_ok.mp ⟨counts, tallied⟩⟩
  · rintro ⟨positive, accepted⟩
    obtain ⟨counts, tallied⟩ := (@tally_ok spans reference _ Dict.empty).mpr accepted
    exact ⟨_, require_bind_ok.mpr ⟨decide_eq_true positive, bind_ok.mpr ⟨counts, tallied, rfl⟩⟩⟩

end

end Cordboard.Archive
