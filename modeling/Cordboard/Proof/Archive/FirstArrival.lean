import Cordboard.Proof.Archive.Layout

namespace Cordboard.Archive
open Data

section
variable {values : List Json} {input : List (List Json)} {spans next : SpanMap} {reference : Int} {span : Span}

theorem readSpan_keeps {location key : String} {entry : Entry} {value : Json}
    (found : spans.entries.get? key = some entry) (done : readSpan location spans value = .ok next) :
    next.entries.get? key = some entry := by
  obtain ⟨new, _, later⟩ := bind_ok.mp done
  unfold index at later
  split at later
  · obtain ⟨_, later⟩ := require_bind_ok.mp later
    obtain rfl := Except.ok.inj later
    exact found
  · rename_i absent
    obtain rfl := Except.ok.inj later
    have apart : key ≠ new.span.spanId := by
      rintro rfl
      rw [absent] at found
      cases found
    exact (Dict.get?_set_of_ne _ apart _).trans found

/-- The first span of an identifier stays in the map. -/
theorem fold_keeps {location key : String} {entry : Entry} (found : spans.entries.get? key = some entry)
    (done : values.foldlM (readSpan location) spans = .ok next) : next.entries.get? key = some entry := by
  induction values generalizing spans with
  | nil =>
      obtain rfl := Except.ok.inj done
      exact found
  | cons value rest ih =>
      rw [List.foldlM_cons] at done
      obtain ⟨middle, read, later⟩ := bind_ok.mp done
      exact ih (readSpan_keeps found read) later

/-- One record with one resource and one scope. -/
def envelope (values : List Json) : Json :=
  .obj [("resourceSpans", .arr [.obj [("scopeSpans", .arr [.obj [("spans", .arr values)]])]])]

theorem envelope_spans (values : List Json) : recordSpans (envelope values) = values := by
  simp [recordSpans, resourceSpans, scopeSpans, listed, member, envelope]

theorem envelope_valid (values : List Json) : Envelope (envelope values) where
  resources := ⟨_, rfl⟩
  scopes resource inside := by
    obtain rfl := List.mem_singleton.mp inside
    exact ⟨_, rfl⟩
  spans resource inside scope within := by
    obtain rfl := List.mem_singleton.mp inside
    obtain rfl := List.mem_singleton.mp within
    exact ⟨_, rfl⟩

theorem readRecord_envelope (location : String) :
    readRecord location spans (envelope values) = values.foldlM (readSpan location) spans := by
  have scope : readScope location spans (.obj [("spans", .arr values)]) = values.foldlM (readSpan location) spans := rfl
  have single : ∀ {step : SpanMap → Json → Checked SpanMap} {item : Json}, [item].foldlM step spans = step spans item := by
    intro step item
    rw [List.foldlM_cons]
    exact bind_pure _
  have resource : readResource location spans (.obj [("scopeSpans", .arr [.obj [("spans", .arr values)]])]) =
      values.foldlM (readSpan location) spans :=
    (@single (readScope location) (.obj [("spans", .arr values)])).trans scope
  exact (@single (readResource location) _).trans resource

theorem located_ok {A : Type} {file line : Nat} {outcome : Checked A} {value : A} :
    located file line outcome = .ok value ↔ outcome = .ok value := by
  cases outcome with
  | ok other => exact Iff.rfl
  | error failure =>
      constructor
      · intro same
        cases failure <;> cases same
      · intro same
        cases same

/-- One record can hold the spans in any order. -/
theorem layout_envelope {others : List Json} (same : ∀ value, value ∈ others ↔ value ∈ values) :
    Layout values [[envelope others]] where
  files records member := by
    obtain rfl := List.mem_singleton.mp member
    exact List.cons_ne_nil _ _
  records records member record within := by
    obtain rfl := List.mem_singleton.mp member
    obtain rfl := List.mem_singleton.mp within
    exact envelope_valid _
  same other := by
    simp only [List.flatMap_cons, List.flatMap_nil, fileSpans, envelope_spans, List.append_nil]
    exact same other

/-- A layout can begin with any of its spans. -/
theorem layout_from {value : Json} (inside : value ∈ values) : Layout values [[envelope (value :: values)]] := by
  apply layout_envelope
  intro other
  constructor
  · intro member
    rcases List.mem_cons.mp member with rfl | later
    · exact inside
    · exact later
  · exact List.mem_cons_of_mem value

/-- The map of this layout has its first span. -/
theorem first_arrival {value : Json} {new : NamedSpan} (normal : normalize value = .ok new)
    (done : readLayout [[envelope (value :: values)]] = .ok spans) : spans.holds new.span := by
  have loop : (value :: values).foldlM (readSpan (place 1 1)) SpanMap.empty = .ok spans := by
    obtain ⟨middle, read, later⟩ := bind_ok.mp done
    obtain ⟨_, later⟩ := require_bind_ok.mp later
    obtain rfl := Except.ok.inj later
    obtain ⟨table, lines, files⟩ := bind_ok.mp read
    obtain rfl := Except.ok.inj files
    obtain ⟨first, placed, rest⟩ := bind_ok.mp lines
    obtain ⟨_, _, rest⟩ := bind_ok.mp rest
    obtain rfl := Except.ok.inj rest
    rw [← readRecord_envelope]
    exact located_ok.mp placed
  rw [List.foldlM_cons] at loop
  obtain ⟨middle, read, later⟩ := bind_ok.mp loop
  have whole : readSpan (place 1 1) SpanMap.empty value = .ok (SpanMap.empty.insert ⟨new.span, place 1 1⟩ new.named) := by
    simp only [readSpan, normal]
    rfl
  obtain rfl := Except.ok.inj (whole.symm.trans read)
  have stored : (SpanMap.empty.insert ⟨new.span, place 1 1⟩ new.named).entries.get? new.span.spanId =
      some ⟨new.span, place 1 1⟩ := Dict.get?_set_self _ _ _
  have kept := fold_keeps stored later
  exact ⟨_, mem_values.mpr ⟨_, kept⟩, rfl⟩

/-- An accepted span with an attempt number has a positive integer there. -/
theorem accepted_number {value : Option (String × String)} (checked : querySpan spans reference span = .ok value)
    (numbered : span.has "cord.step.attempt" = true) : isPositive (span.attributes.get? "cord.step.attempt") = true := by
  obtain ⟨kind, known, later⟩ := bind_ok.mp checked
  have attempt : kind = some .attempt := by
    unfold role at known
    split at known
    · rw [if_pos (.inr numbered)] at known
      exact (Except.ok.inj known).symm
    · cases known
  subst attempt
  obtain ⟨_, later⟩ := require_bind_ok.mp later
  obtain ⟨_, later⟩ := require_bind_ok.mp later
  exact (require_bind_ok.mp later).1

/-- An accepted Step or Attempt names its parent by a value that a lookup accepts. -/
theorem accepted_hashable (accepted : Accepted spans reference) (held : spans.holds span) {kind : Role}
    (known : role span = .ok (some kind)) (below : kind ≠ .run) : hashable span.parentRef = true := by
  obtain ⟨above, kin, _⟩ := accepted.climb held known below
  obtain ⟨entry, got, _⟩ := parentOf_some.mp kin.up
  cases reference : span.parentRef with
  | arr items =>
      rw [reference] at got
      cases got
  | obj members =>
      rw [reference] at got
      cases got
  | _ => rfl

/-- The query of this input returns rows. -/
def Accepts (input : List (List Json)) : Prop :=
  ∃ spans reference top rows, readLayout input = .ok spans ∧ querySpans spans reference top = .ok rows

/-- When one layout is accepted and the layout does not matter, every span with a number has a positive one. -/
theorem positive_number (layout : Layout values input) (accepts : Accepts input) (insensitive : Insensitive values)
    {value : Json} (inside : value ∈ values) {new : NamedSpan} (normal : normalize value = .ok new)
    (numbered : new.span.has "cord.step.attempt" = true) :
    isPositive (new.span.attributes.get? "cord.step.attempt") = true := by
  obtain ⟨spans, reference, top, rows, read, done⟩ := accepts
  have positive := (querySpans_ok.mp ⟨rows, done⟩).1
  rcases insensitive input _ layout (layout_from inside) with ⟨rejected, _⟩ | ⟨_, others, _, again, _, same⟩
  · obtain ⟨reason, raised⟩ := rejected reference top
    rw [read] at raised
    rw [show querySpans spans reference top = .error (.archive reason) from raised] at done
    cases done
  · obtain ⟨more, _, returned⟩ := same reference top positive
    obtain ⟨_, checked⟩ := (querySpans_ok.mp ⟨more, returned⟩).2.checked (first_arrival normal again)
    exact accepted_number checked numbered

/-- An accepted layout that does not matter shows that the spans are uniform. -/
theorem uniform_of_insensitive (proper : ∀ value ∈ values, value.proper = true) (layout : Layout values input)
    (accepts : Accepts input) (insensitive : Insensitive values) : Uniform values := by
  have numbers : ∀ value ∈ values, ∀ other ∈ values, ∀ new old, normalize value = .ok new → normalize other = .ok old →
      new.span.pyEq old.span = true → isPositive (new.span.attributes.get? "cord.step.attempt") =
        isPositive (old.span.attributes.get? "cord.step.attempt") := by
    intro value member other partner new old normal read equal
    have present : new.span.has "cord.step.attempt" = old.span.has "cord.step.attempt" :=
      isSome_congr ((spanEqual_iff.mp equal).attribute _)
    cases numbered : new.span.has "cord.step.attempt" with
    | true =>
        rw [positive_number layout accepts insensitive member normal numbered,
          positive_number layout accepts insensitive partner read (present ▸ numbered)]
    | false =>
        have absent : ∀ {span : Span}, span.has "cord.step.attempt" = false →
            span.attributes.get? "cord.step.attempt" = none := by
          intro span missing
          simpa [Span.has] using missing
        rw [absent numbered, absent (present ▸ numbered)]
  refine ⟨numbers, ?_⟩
  obtain ⟨spans, reference, top, rows, read, done⟩ := accepts
  have accepted := (querySpans_ok.mp ⟨rows, done⟩).2
  obtain ⟨holding, _⟩ := read_ok layout proper read
  intro value member new kind normal known below
  obtain ⟨again, same, entry, found, equal⟩ := holding.all value member
  obtain rfl := Except.ok.inj (same.symm.trans normal)
  have held : spans.holds entry.span := ⟨entry, mem_values.mpr ⟨_, found⟩, rfl⟩
  obtain ⟨source, inside, origin, decoded, whole⟩ := holding.source held
  have alike : Alike entry.span again.span := {
    equal := spanEqual_iff.mp equal
    proper := whole ▸ normalize_proper (proper source inside) decoded
    valid := normalize_proper (proper value member) same
    number := by
      rw [← whole]
      apply numbers source inside value member origin again decoded same
      rwa [whole] }
  rw [← hashable_congr alike.parentRef]
  exact accepted_hashable accepted held (alike.role.trans known) below

end

/-- Uniform spans are insensitive to their layout, and only these when some layout of them is accepted. -/
theorem layout_insensitive (values : List Json) (wellFormed : ∀ value ∈ values, WellFormed value) :
    (Uniform values → Insensitive values) ∧
    ((∃ input, Layout values input ∧ Accepts input) → (Insensitive values ↔ Uniform values)) := by
  have proper : ∀ value ∈ values, value.proper = true := fun value member => (wellFormed value member).proper
  constructor
  · exact insensitive_of_uniform proper
  · rintro ⟨input, layout, accepts⟩
    constructor
    · exact uniform_of_insensitive proper layout accepts
    · exact insensitive_of_uniform proper

section Example

/-- The attempt number of the span is missing or a positive integer, and its parent is no container. -/
def isPlain (value : Json) : Bool :=
  match normalize value with
  | .ok new => isPositive (new.span.attributes.get? "cord.step.attempt") == new.span.has "cord.step.attempt" &&
      hashable new.span.parentRef
  | .error _ => true

theorem uniform_of_plain {values : List Json} (plain : ∀ value ∈ values, isPlain value = true) : Uniform values := by
  have parts : ∀ value ∈ values, ∀ new, normalize value = .ok new →
      isPositive (new.span.attributes.get? "cord.step.attempt") = new.span.has "cord.step.attempt" ∧
        hashable new.span.parentRef = true := by
    intro value member new normal
    have checked := plain value member
    simpa only [isPlain, normal, Bool.and_eq_true, beq_iff_eq] using checked
  constructor
  · intro value member other partner new old normal read equal
    rw [(parts value member new normal).1, (parts other partner old read).1]
    exact isSome_congr ((spanEqual_iff.mp equal).attribute _)
  · intro value member new kind normal _ _
    exact (parts value member new normal).2

def attrJson (key kind : String) (value : Json) : Json := .obj [("key", .str key), ("value", .obj [(kind, value)])]

/-- A span of one Run with these attributes. -/
def spanJson (spanId : String) (parent : List (String × Json)) (name : String) (attrs : List Json) : Json :=
  .obj ([("spanId", .str spanId), ("traceId", .str "000000000000000000000000000000aA"), ("name", .str name),
    ("startTimeUnixNano", .str "1"), ("endTimeUnixNano", .int 9),
    ("attributes", .arr (attrs ++ identity.map fun key => attrJson key "stringValue" (.str "x")))] ++ parent)

def runJson : Json := spanJson "0000000000000001" [] "run" [attrJson "cord.semconv.version" "stringValue" (.str "0.4.0")]

def workAttrs : List Json :=
  [attrJson "cord.node.name" "stringValue" (.str "a"), attrJson "cord.outcome" "stringValue" (.str "passed")]

def stepJson : Json := spanJson "0000000000000002" [("parentSpanId", .str "0000000000000001")] "step:a" workAttrs

def attemptJson (kind : String) (number : Json) : Json :=
  spanJson "0000000000000003" [("parentSpanId", .str "0000000000000002")] "attempt"
    (workAttrs ++ [attrJson "cord.step.attempt" kind number])

theorem wellFormed_of_checks {values : List Json} (checked : ∀ value ∈ values,
    (isObject value && value.proper && (listed value "attributes").all hasTextKey) = true) :
    ∀ value ∈ values, WellFormed value := by
  intro value member
  have parts := checked value member
  simp only [Bool.and_eq_true] at parts
  exact ⟨parts.1.1, parts.1.2, parts.2⟩

def countedSpans : List Json := [runJson, stepJson, attemptJson "intValue" (.str "1")]

theorem layout_insensitive_counted : Insensitive countedSpans :=
  (layout_insensitive countedSpans (wellFormed_of_checks (by decide +kernel))).1 (uniform_of_plain (by decide +kernel))

/-- The Attempt comes with the integer one and with the boolean that is equal to it. -/
def mixedSpans : List Json :=
  [runJson, stepJson, attemptJson "intValue" (.int 1), attemptJson "boolValue" (.bool true)]

/-- The same spans with the boolean first. -/
def mixedBoolFirst : List Json :=
  [runJson, stepJson, attemptJson "boolValue" (.bool true), attemptJson "intValue" (.int 1)]

theorem mixed_spans_disagree :
    (∀ value ∈ mixedSpans, WellFormed value) ∧ Layout mixedSpans [[envelope mixedSpans]] ∧
    Layout mixedSpans [[envelope mixedBoolFirst]] ∧
    ¬ Agreeing [[envelope mixedSpans]] [[envelope mixedBoolFirst]] := by
  have accepts : (do querySpans (← readLayout [[envelope mixedSpans]]) 0 10) = .ok [] := by decide +kernel
  have raises : (do querySpans (← readLayout [[envelope mixedBoolFirst]]) 0 10) =
      .error (.archive "file 1, line 1: Attempt requires a positive attempt number") := by decide +kernel
  have members : ∀ value, value ∈ mixedBoolFirst ↔ value ∈ mixedSpans := by
    intro value
    simp only [mixedSpans, mixedBoolFirst, List.mem_cons]
    tauto
  refine ⟨wellFormed_of_checks (by decide +kernel), layout_envelope fun _ => Iff.rfl, layout_envelope members, ?_⟩
  rintro (⟨rejected, _⟩ | ⟨_, others, _, read, _, same⟩)
  · obtain ⟨reason, raised⟩ := rejected 0 10
    rw [accepts] at raised
    cases raised
  · obtain ⟨rows, _, returned⟩ := same 0 10 (by decide)
    rw [read] at raises
    rw [show querySpans others 0 10 = _ from raises] at returned
    cases returned

end Example

end Cordboard.Archive
