import Cordboard.Proof.Archive.Reading

namespace Cordboard.Archive
open Data

/-- The map has an equal span for each of these values, and no span besides. -/
structure Holding (values : List Json) (spans : SpanMap) : Prop where
  all : ∀ value ∈ values, ∃ new, normalize value = .ok new ∧
    ∃ entry, spans.entries.get? new.span.spanId = some entry ∧ entry.span.pyEq new.span = true
  only : ∀ entry ∈ spans.values, ∃ value ∈ values, ∃ new, normalize value = .ok new ∧ new.span = entry.span

/-- A value is not a span, or two spans with one identifier are different. -/
def Flawed (values : List Json) : Prop :=
  (∃ value ∈ values, ∀ new, normalize value ≠ .ok new) ∨
  ∃ value ∈ values, ∃ other ∈ values, ∃ new old, normalize value = .ok new ∧ normalize other = .ok old ∧
    old.span.spanId = new.span.spanId ∧ old.span.pyEq new.span = false

/-- The reader takes these values into its map, or it has met a flaw. -/
def Reads (run : SpanMap → Checked SpanMap) (values : List Json) : Prop :=
  ∀ seen spans, Holding seen spans →
    (∀ next, run spans = .ok next → Holding (seen ++ values) next) ∧
    (∀ failure, run spans = .error failure → Flawed (seen ++ values))

section
variable {values others : List Json} {spans next : SpanMap}

theorem holding_empty : Holding [] SpanMap.empty where
  all _ member := by cases member
  only _ member := by cases member

theorem Holding.congr (holding : Holding values spans) (same : ∀ value, value ∈ values ↔ value ∈ others) :
    Holding others spans where
  all value member := holding.all value ((same value).mpr member)
  only entry member := by
    obtain ⟨value, inside, rest⟩ := holding.only entry member
    exact ⟨value, (same value).mp inside, rest⟩

theorem Flawed.mono (flawed : Flawed values) (inside : values ⊆ others) : Flawed others := by
  rcases flawed with ⟨value, member, broken⟩ | ⟨value, member, other, partner, rest⟩
  · exact .inl ⟨value, inside member, broken⟩
  · exact .inr ⟨value, inside member, other, inside partner, rest⟩

theorem reads_done : Reads (fun spans => .ok spans) [] := by
  intro seen spans holding
  constructor
  · intro next done
    obtain rfl := Except.ok.inj done
    rwa [List.append_nil]
  · intro failure done
    cases done

/-- Two readers in a row take the values of both. -/
theorem Reads.seq {first second : SpanMap → Checked SpanMap} (one : Reads first values) (two : Reads second others) :
    Reads (fun spans => first spans >>= second) (values ++ others) := by
  intro seen spans holding
  beta_reduce
  obtain ⟨kept, flawed⟩ := one seen spans holding
  cases read : first spans with
  | error failure =>
      constructor
      · intro next done
        cases done
      · intro other _
        apply (flawed failure read).mono
        rw [← List.append_assoc]
        exact List.subset_append_left _ _
  | ok middle =>
      have later := two (seen ++ values) middle (kept middle read)
      rw [List.append_assoc] at later
      exact later

/-- A loop takes the values of all its items. -/
theorem reads_fold {A : Type} {step : SpanMap → A → Checked SpanMap} {content : A → List Json} {items : List A}
    (each : ∀ item ∈ items, Reads (fun spans => step spans item) (content item)) :
    Reads (fun spans => items.foldlM step spans) (items.flatMap content) := by
  induction items with
  | nil => exact reads_done
  | cons item rest ih =>
      obtain ⟨own, later⟩ := List.forall_mem_cons.mp each
      simp only [List.foldlM_cons, List.flatMap_cons]
      exact own.seq (ih later)

/-- The location of an error does not matter. -/
theorem Reads.located {run : SpanMap → Checked SpanMap} (reads : Reads run values) (file line : Nat) :
    Reads (fun spans => located file line (run spans)) values := by
  intro seen spans holding
  beta_reduce
  obtain ⟨kept, flawed⟩ := reads seen spans holding
  cases read : run spans with
  | ok next =>
      constructor
      · intro other done
        obtain rfl := Except.ok.inj done
        exact kept next read
      · intro failure done
        cases done
  | error failure =>
      constructor
      · intro next done
        cases failure <;> cases done
      · intro _ _
        exact flawed failure read

/-- A span that the map has not yet comes in. -/
theorem Holding.insert {value : Json} {new : NamedSpan} {location : String} (holding : Holding values spans)
    (proper : value.proper = true) (read : normalize value = .ok new)
    (absent : spans.entries.get? new.span.spanId = none) :
    Holding (values ++ [value]) (spans.insert ⟨new.span, location⟩ new.named) where
  all other member := by
    rcases List.mem_append.mp member with old | last
    · obtain ⟨older, normal, entry, found, equal⟩ := holding.all other old
      have apart : older.span.spanId ≠ new.span.spanId := by
        intro same
        rw [same, absent] at found
        cases found
      exact ⟨older, normal, entry, (Dict.get?_set_of_ne _ apart _).trans found, equal⟩
    · obtain rfl := List.mem_singleton.mp last
      exact ⟨new, read, _, Dict.get?_set_self _ _ _, Span.pyEq_refl (normalize_proper proper read)⟩
  only entry member := by
    obtain ⟨key, found⟩ := mem_values.mp member
    simp only [SpanMap.insert, Dict.get?_set] at found
    split at found
    · obtain rfl := Option.some.inj found
      exact ⟨value, List.mem_append_right _ List.mem_cons_self, new, read, rfl⟩
    · obtain ⟨other, inside, rest⟩ := holding.only entry (mem_values.mpr ⟨key, found⟩)
      exact ⟨other, List.mem_append_left _ inside, rest⟩

theorem readSpan_reads {value : Json} (proper : value.proper = true) (location : String) :
    Reads (fun spans => readSpan location spans value) [value] := by
  intro seen spans holding
  have last : value ∈ seen ++ [value] := List.mem_append_right _ List.mem_cons_self
  cases read : normalize value with
  | error failure =>
      constructor
      · intro next done
        simp only [readSpan, read] at done
        cases done
      · intro _ _
        exact .inl ⟨value, last, fun new same => by rw [read] at same; cases same⟩
  | ok new =>
      have whole : readSpan location spans value = index location spans new := by simp only [readSpan, read]; rfl
      simp only [whole, index]
      cases found : spans.entries.get? new.span.spanId with
      | none =>
          constructor
          · intro next done
            obtain rfl := Except.ok.inj done
            exact holding.insert proper read found
          · intro failure done
            cases done
      | some entry =>
          obtain ⟨other, inside, old, normal, same⟩ := holding.only entry (mem_values.mpr ⟨_, found⟩)
          constructor
          · intro next done
            obtain ⟨equal, later⟩ := require_bind_ok.mp done
            obtain rfl := Except.ok.inj later
            refine ⟨fun value member => ?_, fun entry member => ?_⟩
            · rcases List.mem_append.mp member with old | last
              · exact holding.all value old
              · obtain rfl := List.mem_singleton.mp last
                exact ⟨new, read, entry, found, equal⟩
            · obtain ⟨value, member, rest⟩ := holding.only entry member
              exact ⟨value, List.mem_append_left _ member, rest⟩
          · intro failure done
            refine .inr ⟨value, last, other, List.mem_append_left _ inside, new, old, read, normal, ?_, ?_⟩
            · rw [same]
              exact spans.keyed _ entry found
            · rw [same]
              cases equal : entry.span.pyEq new.span with
              | false => rfl
              | true =>
                  simp only [equal] at done
                  cases done

end

/-- The items of a list in a record. -/
def listed (value : Json) (key : String) : List Json :=
  match member value key with
  | .ok (.arr items) => items
  | _ => []

def scopeSpans (scope : Json) : List Json := listed scope "spans"

def resourceSpans (resource : Json) : List Json := (listed resource "scopeSpans").flatMap scopeSpans

def recordSpans (record : Json) : List Json := (listed record "resourceSpans").flatMap resourceSpans

/-- The value has a list under the key. -/
def Lists (value : Json) (key : String) : Prop := ∃ items, member value key = .ok (.arr items)

/-- A record is an envelope of resources, of scopes and of spans. -/
structure Envelope (record : Json) : Prop where
  resources : Lists record "resourceSpans"
  scopes : ∀ resource ∈ listed record "resourceSpans", Lists resource "scopeSpans"
  spans : ∀ resource ∈ listed record "resourceSpans", ∀ scope ∈ listed resource "scopeSpans", Lists scope "spans"

section
variable {record : Json}

theorem Lists.found {value : Json} {key : String} (lists : Lists value key) :
    member value key = .ok (.arr (listed value key)) := by
  obtain ⟨items, found⟩ := lists
  simp only [listed, found]

theorem readScope_reads {scope : Json} (lists : Lists scope "spans") (proper : ∀ value ∈ scopeSpans scope, value.proper = true)
    (location : String) : Reads (fun spans => readScope location spans scope) (scopeSpans scope) := by
  have whole : ∀ spans, readScope location spans scope = (scopeSpans scope).foldlM (readSpan location) spans := by
    intro spans
    simp only [readScope, lists.found]
    rfl
  have loop : Reads (fun spans => (scopeSpans scope).foldlM (readSpan location) spans)
      ((scopeSpans scope).flatMap fun value => [value]) :=
    reads_fold fun value member => readSpan_reads (proper value member) location
  simpa only [whole, List.flatMap_singleton'] using loop

theorem readResource_reads {resource : Json} (lists : Lists resource "scopeSpans")
    (inner : ∀ scope ∈ listed resource "scopeSpans", Lists scope "spans")
    (proper : ∀ value ∈ resourceSpans resource, value.proper = true) (location : String) :
    Reads (fun spans => readResource location spans resource) (resourceSpans resource) := by
  have whole : ∀ spans, readResource location spans resource =
      (listed resource "scopeSpans").foldlM (readScope location) spans := by
    intro spans
    simp only [readResource, lists.found]
    rfl
  simp only [whole]
  apply reads_fold
  intro scope member
  exact readScope_reads (inner scope member)
    (fun value inside => proper value (List.mem_flatMap.mpr ⟨scope, member, inside⟩)) location

theorem readRecord_reads (envelope : Envelope record) (proper : ∀ value ∈ recordSpans record, value.proper = true)
    (location : String) : Reads (fun spans => readRecord location spans record) (recordSpans record) := by
  have whole : ∀ spans, readRecord location spans record =
      (listed record "resourceSpans").foldlM (readResource location) spans := by
    intro spans
    simp only [readRecord, envelope.resources.found]
    rfl
  simp only [whole]
  apply reads_fold
  intro resource member
  exact readResource_reads (envelope.scopes resource member) (envelope.spans resource member)
    (fun value inside => proper value (List.mem_flatMap.mpr ⟨resource, member, inside⟩)) location

/-- The spans of a file. -/
def fileSpans (records : List Json) : List Json := records.flatMap recordSpans

theorem readLines_reads {file line : Nat} {records : List Json} (started : line ≠ 0 ∨ records ≠ [])
    (envelopes : ∀ record ∈ records, Envelope record) (proper : ∀ value ∈ fileSpans records, value.proper = true) :
    Reads (readLines file line (records.map .ok)) (fileSpans records) := by
  induction records generalizing line with
  | nil =>
      have some : line ≠ 0 := started.resolve_right (fun absent => absent rfl)
      have whole : readLines file line [] = fun spans => .ok spans := by
        funext spans
        simp [readLines, require, some, located]
        rfl
      rw [List.map_nil, whole]
      exact reads_done
  | cons record rest ih =>
      obtain ⟨own, others⟩ := List.forall_mem_cons.mp envelopes
      have first : ∀ value ∈ recordSpans record, value.proper = true :=
        fun value member => proper value (List.mem_append_left _ member)
      have later : ∀ value ∈ fileSpans rest, value.proper = true :=
        fun value member => proper value (List.mem_append_right _ member)
      exact ((readRecord_reads own first (place file (line + 1))).located file (line + 1)).seq
        (ih (.inl (Nat.succ_ne_zero line)) others later)

theorem readFiles_reads {file : Nat} {files : List (List Json)} (nonempty : ∀ records ∈ files, records ≠ [])
    (envelopes : ∀ records ∈ files, ∀ record ∈ records, Envelope record)
    (proper : ∀ value ∈ files.flatMap fileSpans, value.proper = true) :
    Reads (readFiles file (files.map fun records => records.map .ok)) (files.flatMap fileSpans) := by
  induction files generalizing file with
  | nil => exact reads_done
  | cons records rest ih =>
      obtain ⟨some, others⟩ := List.forall_mem_cons.mp nonempty
      obtain ⟨own, more⟩ := List.forall_mem_cons.mp envelopes
      have first : ∀ value ∈ fileSpans records, value.proper = true :=
        fun value member => proper value (List.mem_append_left _ member)
      have later : ∀ value ∈ rest.flatMap fileSpans, value.proper = true :=
        fun value member => proper value (List.mem_append_right _ member)
      exact (readLines_reads (.inr some) own first).seq (ih others more later)

end

end Cordboard.Archive
