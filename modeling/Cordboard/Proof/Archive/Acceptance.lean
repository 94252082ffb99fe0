import Cordboard.Proof.Archive.Termination

namespace Cordboard.Archive
open Data

/-- The chain of a span does not climb through Steps to a Run. -/
inductive Defect (spans : SpanMap) (span : Span) : Prop
  | cycle {above : Span} (reach : Relation.ReflTransGen (Up (parentOf spans)) span above)
      (again : Relation.TransGen (Up (parentOf spans)) above above)
  | missing {above : Span} (reach : Relation.ReflTransGen (Up (parentOf spans)) span above)
      (absent : parentOf spans above = none) (needed : role above ≠ .ok (some .run) ∨ above.parentRef.truthy = true)
  | stray {above : Span} (reach : Relation.TransGen (Up (parentOf spans)) span above)
      (other : role above ≠ .ok (some .run) ∧ role above ≠ .ok (some .step))

section
variable {spans : SpanMap} {reference : Int} {span above root : Span} {path : List Span}

/-- A chain to a Run has none of these defects. -/
theorem Rooted.sound (rooted : Rooted spans span path root) (rootless : parentOf spans root = none) :
    ¬ Defect spans span := by
  intro defect
  cases defect with
  | cycle reach again => exact rooted.acyclic _ (rooted.climbs.mem_of_reach rootless reach) again
  | @missing above reach absent needed =>
      have member := rooted.climbs.mem_of_reach rootless reach
      obtain ⟨rest, suffix, _⟩ := rooted.climbs.suffix member
      obtain rfl : root = above := (Path.unique (.stop above) absent suffix rootless).2
      rcases needed with other | reference
      · exact other rooted.top
      · rw [rooted.alone] at reference
        cases reference
  | @stray above reach other =>
      obtain ⟨next, up, later⟩ := Relation.TransGen.head'_iff.mp reach
      have member : above ∈ path.tail := by
        have climbs := rooted.climbs
        cases climbs with
        | stop =>
            rw [Up, rootless] at up
            cases up
        | step first rest =>
            obtain rfl := Option.some.inj (up.symm.trans first)
            exact rest.mem_of_reach rootless later
      rcases rooted.through above member with rfl | step
      · exact other.1 rooted.top
      · exact other.2 step

/-- A Run that passes has none of these defects. -/
theorem Accepted.run_sound (accepted : Accepted spans reference) (held : spans.holds span)
    (kind : role span = .ok (some .run)) : ¬ Defect spans span := by
  have alone := accepted.run_alone held kind
  have rooted := accepted.rooted (.stop span) held kind (by simp) kind
  exact rooted.sound alone

theorem Accepted.sound (accepted : Accepted spans reference) (held : spans.holds span) {kind : Role}
    (known : role span = .ok (some kind)) : ¬ Defect spans span := by
  by_cases run : kind = .run
  · subst run
    exact accepted.run_sound held known
  · obtain ⟨path, root, rooted⟩ := accepted.chain held known run
    exact rooted.sound (accepted.run_alone (rooted.agree root rooted.climbs.last_mem).1 rooted.top)

/-- The version of the Run above a Step that stands under a Step. -/
theorem Accepted.nested (accepted : Accepted spans reference) (held : spans.holds span)
    (known : role span = .ok (some .step)) (up : parentOf spans span = some above) (step : role above = .ok (some .step))
    (rooted : Rooted spans span path root) : isOneOf (version root) [semconvVersion] = true := by
  obtain ⟨value, checked⟩ := accepted.checked held
  obtain ⟨other, kin, run | ⟨_, top, walked, current⟩⟩ := accepted_step checked known
  · obtain rfl := Option.some.inj (up.symm.trans kin.up)
    rw [step] at run
    cases run
  · obtain rfl := Option.some.inj (up.symm.trans kin.up)
    obtain ⟨run, rest, climbs, _⟩ := runRoot_ok walked
    have reach : Relation.ReflTransGen (Up (parentOf spans)) span top := .head up climbs.reach
    rw [← rooted.only top reach run]
    exact current

/-- The chains of an accepted map form a forest. -/
structure Forest (spans : SpanMap) : Prop where
  chain : ∀ span kind, spans.holds span → role span = .ok (some kind) → kind ≠ .run →
    ∃ path root, Rooted spans span path root
  attempts : ∀ span, spans.holds span → role span = .ok (some .attempt) →
    ∃ step, parentOf spans span = some step ∧ role step = .ok (some .step) ∧
      isText (span.attributes.get? "cord.node.name") = true ∧
      span.attributes.get? "cord.node.name" = step.attributes.get? "cord.node.name"
  nested : ∀ span above path root, spans.holds span → role span = .ok (some .step) →
    parentOf spans span = some above → role above = .ok (some .step) → Rooted spans span path root →
    isOneOf (version root) [semconvVersion] = true

theorem Accepted.forest (accepted : Accepted spans reference) : Forest spans where
  chain _ _ held known below := accepted.chain held known below
  attempts span held known := by
    obtain ⟨value, checked⟩ := accepted.checked held
    obtain ⟨step, kin, under, _, node, same⟩ := accepted_attempt checked known
    exact ⟨step, kin.up, under, node, same⟩
  nested _ _ _ _ held known up step rooted := accepted.nested held known up step rooted

end

/-- The maps that the query accepts are forests, and it rejects a defect above a Run, a Step or an Attempt. -/
theorem accepts_forests (spans : SpanMap) (reference top : Int) :
    (∀ rows, querySpans spans reference top = .ok rows → Forest spans) ∧
    (spans.Referable → (∃ span kind, spans.holds span ∧ role span = .ok (some kind) ∧ Defect spans span) →
      ∃ reason, querySpans spans reference top = .error (.archive reason)) := by
  constructor
  · intro rows done
    have accepted := (querySpans_ok.mp ⟨rows, done⟩).2
    exact accepted.forest
  · rintro referable ⟨span, kind, held, known, defect⟩
    rcases (tame_querySpans referable reference top).returns_or_raises with done | raised
    · have accepted := (querySpans_ok.mp done).2
      exact absurd defect (accepted.sound held known)
    · exact raised

section Example

/-- The texts of a span with the identity of one Run. -/
def identified (texts : List (String × Json)) : Dict String Json :=
  (texts ++ identity.map fun key => (key, Json.str "x")).foldl (fun attributes item => attributes.set item.1 item.2)
    Dict.empty

def runSpan : Span := ⟨"01", "t", none, some (.str "run"),
  identified [("cord.semconv.version", .str semconvVersion)], 1, 9, []⟩

def stepSpan : Span := ⟨"02", "t", some (.str "01"), some (.str "step:a"),
  identified [("cord.node.name", .str "a"), ("cord.outcome", .str "passed")], 1, 8, []⟩

def attemptSpan : Span := ⟨"03", "t", some (.str "02"), some (.str "attempt"),
  identified [("cord.node.name", .str "a"), ("cord.outcome", .str "passed"), ("cord.step.attempt", .int 1)], 2, 7, []⟩

/-- An ordinary span below the Attempt. -/
def modelSpan : Span := ⟨"04", "t", some (.str "03"), some (.str "chat"), Dict.empty, 3, 6, []⟩

/-- An ordinary span that is its own parent. -/
def loopSpan : Span := ⟨"05", "t", some (.str "05"), some (.str "chat"), Dict.empty, 3, 6, []⟩

/-- An ordinary span whose parent is not in the archive. -/
def orphanSpan : Span := ⟨"06", "t", some (.str "99"), some (.str "chat"), Dict.empty, 3, 6, []⟩

/-- A Step whose parent reference is an empty array. -/
def arraySpan : Span := ⟨"07", "t", some (.arr []), some (.str "step:a"),
  identified [("cord.node.name", .str "a"), ("cord.outcome", .str "passed")], 1, 8, []⟩

def insertSpan (spans : SpanMap) (span : Span) : SpanMap :=
  if named : span.spanId ≠ "" then spans.insert ⟨span, "file 1, line 1"⟩ named else spans

/-- One Run with ordinary spans beside it. -/
def ordinaryArchive : SpanMap :=
  [runSpan, stepSpan, attemptSpan, modelSpan, loopSpan, orphanSpan].foldl insertSpan SpanMap.empty

/-- A Step that is its own parent. -/
def cyclicStep : Span := { stepSpan with parentSpanId := some (.str "02") }

def cyclicArchive : SpanMap := [runSpan, cyclicStep].foldl insertSpan SpanMap.empty

theorem accepts_forests_examples :
    Forest ordinaryArchive ∧ ∃ reason, querySpans cyclicArchive 0 10 = .error (.archive reason) := by
  constructor
  · exact (accepts_forests ordinaryArchive 0 10).1 [] (by decide +kernel)
  · have held : cyclicArchive.holds cyclicStep := ⟨⟨cyclicStep, "file 1, line 1"⟩, mem_values.mpr ⟨"02", rfl⟩, rfl⟩
    have referable : cyclicArchive.Referable := by
      rintro span kind ⟨entry, member, rfl⟩ _ _
      have simple : ∀ entry ∈ cyclicArchive.values, hashable entry.span.parentRef = true := by decide +kernel
      exact simple entry member
    apply (accepts_forests cyclicArchive 0 10).2 referable
    exact ⟨cyclicStep, .step, held, by decide +kernel, .cycle .refl (.single rfl)⟩

theorem ordinary_spans_pass :
    querySpans ordinaryArchive 0 10 = .ok [] ∧
    (ordinaryArchive.holds loopSpan ∧ Relation.TransGen (Up (parentOf ordinaryArchive)) loopSpan loopSpan) ∧
    (ordinaryArchive.holds orphanSpan ∧ orphanSpan.parentRef = .str "99" ∧ parentOf ordinaryArchive orphanSpan = none) ∧
    (ordinaryArchive.holds modelSpan ∧ parentOf ordinaryArchive modelSpan = some attemptSpan ∧
      role attemptSpan = .ok (some .attempt)) ∧
    querySpans ([runSpan, arraySpan].foldl insertSpan SpanMap.empty) 0 10 = .error .type := by
  refine ⟨by decide +kernel, ⟨?_, ?_⟩, ⟨?_, rfl, rfl⟩, ⟨?_, rfl, by decide +kernel⟩, by decide +kernel⟩
  · exact ⟨⟨loopSpan, "file 1, line 1"⟩, mem_values.mpr ⟨"05", rfl⟩, rfl⟩
  · exact .single rfl
  · exact ⟨⟨orphanSpan, "file 1, line 1"⟩, mem_values.mpr ⟨"06", rfl⟩, rfl⟩
  · exact ⟨⟨modelSpan, "file 1, line 1"⟩, mem_values.mpr ⟨"04", rfl⟩, rfl⟩

end Example

end Cordboard.Archive
