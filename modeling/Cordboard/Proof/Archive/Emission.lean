import Cordboard.Proof.Archive.Agreement
import Cordboard.Proof.Archive.Accepting

namespace Cordboard.Execution
open Data Archive

theorem digitChar_inj {first second : Nat} (small : first < 16) (other : second < 16)
    (same : Nat.digitChar first = Nat.digitChar second) : first = second := by
  have all : ∀ first < 16, ∀ second < 16, Nat.digitChar first = Nat.digitChar second → first = second := by decide
  exact all first small second other same

theorem hexDigits_inj {width first second : Nat} (small : first < 16 ^ width) (other : second < 16 ^ width)
    (same : hexDigits width first = hexDigits width second) : first = second := by
  induction width generalizing first second with
  | zero => omega
  | succ width ih =>
      obtain ⟨front, last⟩ := List.append_inj' same rfl
      have digit := digitChar_inj (Nat.mod_lt _ (by omega)) (Nat.mod_lt _ (by omega)) (List.cons.inj last).1
      have rest := ih (by omega) (by omega) front
      omega

/-- Two span ids with one text are equal. -/
theorem spanText_inj {first second : Int} (one : 0 < first ∧ first < 2 ^ 64) (two : 0 < second ∧ second < 2 ^ 64)
    (same : hexText 16 first = hexText 16 second) : first = second := by
  have digits := String.ofList_injective same
  have equal := hexDigits_inj (by omega) (by omega) digits
  omega

section
variable {E : Type} {platform : Platform} {state : State E} {spans : SpanMap} {reference : Int}
variable {span above : Opened E} {closing : Closing} {exported upper : Span} {entry : Entry}

/-- Two trace ids with one text are equal. -/
theorem traceText_inj {one two : SpanContext} (first : one.valid = true) (second : two.valid = true)
    (same : hexText 32 one.traceId = hexText 32 two.traceId) : one.traceId = two.traceId := by
  simp only [SpanContext.valid, decide_eq_true_eq] at first second
  have digits := String.ofList_injective same
  have equal := hexDigits_inj (by omega) (by omega) digits
  omega

theorem SpanContext.bounds {context : SpanContext} (valid : context.valid = true) :
    0 < context.spanId ∧ context.spanId < 2 ^ 64 := by
  simp only [SpanContext.valid, decide_eq_true_eq] at valid
  exact valid.2.2

theorem Preserves.attribute (preserves : Preserves span closing exported) {key : String} (other : key ≠ "cord.outcome") :
    exported.attributes.get? key = span.attributes.get? key := by
  rw [preserves.attributes]
  cases closing.outcome with
  | none => rfl
  | some outcome => exact Dict.get?_set_of_ne _ other _

theorem Preserves.texts (preserves : Preserves span closing exported) :
    identity.all (fun key => isText (exported.attributes.get? key)) = true ↔ Texts span.attributes := by
  rw [List.all_eq_true]
  apply forall_congr'
  intro key
  apply forall_congr'
  intro member
  rw [preserves.attribute (identity_ne member).2.2.1]

theorem step_name (node : String) :
    "step:" ++ node ≠ "attempt" ∧ "step:".toList.isPrefixOf ("step:" ++ node).toList = true := by
  constructor
  · intro same
    have letters := congrArg String.toList same
    rw [String.toList_append] at letters
    exact absurd (List.cons.inj letters).1 (by decide)
  · rw [String.toList_append, List.isPrefixOf_iff_prefix]
    exact List.prefix_append _ _

/-- The reader finds the role of an exported span. -/
theorem Preserves.role (preserves : Preserves span closing exported) (shaped : Shaped span) :
    role exported = .ok (some span.scope.role) := by
  have attempt : exported.attributes.get? "cord.step.attempt" = _ := preserves.attribute (by decide)
  have node : exported.attributes.get? "cord.node.name" = _ := preserves.attribute (by decide)
  have name : exported.name.getD (.str "") = .str span.name := by rw [preserves.name, Option.getD_some]
  unfold Shaped at shaped
  cases scope : span.scope with
  | run =>
      rw [scope] at shaped
      obtain ⟨named, _, unattempted, unnamed, _⟩ := shaped
      have run : ¬ ("run" = "attempt" ∨ exported.has "cord.step.attempt" = true) := by
        simp [Span.has, attempt, unattempted]
      have step : ¬ ("step:".toList.isPrefixOf "run".toList = true ∨ exported.has "cord.node.name" = true) := by
        rw [Span.has, node, unnamed]
        decide
      simp only [Archive.role, name, named]
      rw [if_neg run, if_neg step, if_pos (.inl trivial)]
      rfl
  | step pause =>
      rw [scope] at shaped
      obtain ⟨⟨text, named⟩, unattempted, _⟩ := shaped
      have step : ¬ ("step:" ++ text = "attempt" ∨ exported.has "cord.step.attempt" = true) := by
        simp [Span.has, attempt, unattempted, (step_name text).1]
      simp only [Archive.role, name, named]
      rw [if_neg step, if_pos (.inl (step_name text).2)]
      rfl
  | attempt pause =>
      rw [scope] at shaped
      simp only [Archive.role, name, shaped.1]
      rw [if_pos (.inl trivial)]
      rfl

/-- The outcome of an exported span is one that the reader knows. -/
theorem outcome_known (shaped : Shaped span) {ending : Ending E} (ended : closing.outcome = span.scope.outcome ending)
    (preserves : Preserves span closing exported) :
    (span.scope.role = .step →
      isOneOf (exported.attributes.get? "cord.outcome") (stepOutcomes.map StepOutcome.value) = true) ∧
    (span.scope.role = .attempt →
      isOneOf (exported.attributes.get? "cord.outcome") (attemptOutcomes.map AttemptOutcome.value) = true) := by
  have values := preserves.attributes
  rw [ended] at values
  unfold Shaped at shaped
  cases scope : span.scope with
  | run =>
      constructor
      · intro kind
        cases kind
      · intro kind
        cases kind
  | step pause =>
      rw [scope] at shaped values
      constructor
      · intro _
        rw [values]
        cases ending with
        | returned => exact shaped.2.2
        | raised exception =>
            simp only [Scope.outcome, Dict.get?_set_self]
            cases pause exception <;> decide
      · intro kind
        cases kind
  | attempt pause =>
      rw [scope] at shaped values
      constructor
      · intro kind
        cases kind
      · intro _
        rw [values]
        cases ending with
        | returned => exact shaped.2.2.1
        | raised exception =>
            simp only [Scope.outcome]
            cases pause exception
            · simp only [Bool.false_eq_true, if_false, Dict.get?_set_self]
              decide
            · exact shaped.2.2.1

/-- The archive holds this span of the producer as that record. -/
structure Image (state : State E) (spans : SpanMap) (span : Opened E) (exported : Span) : Prop where
  member : span ∈ state.opened
  held : spans.holds exported
  preserves : ∃ closing, state.closed.get? span.context.spanId = some closing ∧ Preserves span closing exported

theorem Exports.image (exports : Exports state spans) (member : span ∈ state.opened) :
    ∃ exported, Image state spans span exported := by
  obtain ⟨closing, exported, closed, held, preserves⟩ := exports.all span member
  exact ⟨exported, member, held, closing, closed, preserves⟩

theorem Exports.source (exports : Exports state spans) (held : spans.holds exported) :
    ∃ span, Image state spans span exported := by
  obtain ⟨span, member, closing, closed, preserves⟩ := exports.only exported held
  exact ⟨span, member, held, closing, closed, preserves⟩

/-- The parent of a span is found in the archive. -/
theorem Image.parent (image : Image state spans span exported) (exports : Exports state spans)
    (member : above ∈ state.opened) (parent : span.parent = some above.context.spanId) :
    ∃ entry, spans.get exported.parentRef = .ok (some entry) ∧ Image state spans above entry.span := by
  obtain ⟨closing, _, preserves⟩ := image.preserves
  obtain ⟨upper, found⟩ := exports.image member
  obtain ⟨other, _, kept⟩ := found.preserves
  obtain ⟨entry, got, rfl⟩ := get_of_holds found.held
  have reference := preserves.parent
  rw [parent] at reference
  refine ⟨entry, ?_, found⟩
  rw [show exported.parentRef = _ from reference, ← kept.spanId, got]

/-- A parent in the archive is the parent of the span. -/
theorem Image.source (image : Image state spans span exported) (inv : Inv platform state) (exports : Exports state spans)
    (got : spans.get exported.parentRef = .ok (some entry)) :
    ∃ above, span.parent = some above.context.spanId ∧ Image state spans above entry.span := by
  obtain ⟨closing, _, preserves⟩ := image.preserves
  have reference := preserves.parent
  cases parent : span.parent with
  | none =>
      rw [parent] at reference
      exact absurd got (get_falsy reference entry)
  | some spanId =>
      rw [parent] at reference
      have held : spans.holds entry.span := holds_got got
      obtain ⟨above, found⟩ := exports.source held
      obtain ⟨_, _, kept⟩ := found.preserves
      have named : entry.span.spanId = hexText 16 spanId := by
        rw [show exported.parentRef = _ from reference] at got
        exact spans.keyed _ entry (Except.ok.inj got)
      have same : spanId = above.context.spanId := by
        apply spanText_inj (inv.bounded span image.member spanId parent)
          (SpanContext.bounds (inv.valid above found.member))
        rw [← named, kept.spanId]
      exact ⟨above, by rw [same], found⟩

theorem Image.role (image : Image state spans span exported) (inv : Inv platform state) :
    Archive.role exported = .ok (some span.scope.role) := by
  obtain ⟨closing, _, preserves⟩ := image.preserves
  exact preserves.role (inv.shaped span image.member)

theorem Image.attribute (image : Image state spans span exported) {key : String} (other : key ≠ "cord.outcome") :
    exported.attributes.get? key = span.attributes.get? key := by
  obtain ⟨closing, _, preserves⟩ := image.preserves
  exact preserves.attribute other

theorem Image.texts (image : Image state spans span exported) :
    identity.all (fun key => isText (exported.attributes.get? key)) = true ↔ Texts span.attributes := by
  obtain ⟨closing, _, preserves⟩ := image.preserves
  exact preserves.texts

theorem Image.outcome (image : Image state spans span exported) (inv : Inv platform state) :
    (span.scope.role = .step →
      isOneOf (exported.attributes.get? "cord.outcome") (stepOutcomes.map StepOutcome.value) = true) ∧
    (span.scope.role = .attempt →
      isOneOf (exported.attributes.get? "cord.outcome") (attemptOutcomes.map AttemptOutcome.value) = true) := by
  obtain ⟨closing, closed, preserves⟩ := image.preserves
  obtain ⟨other, member, named, ending, ended⟩ := inv.ended _ _ closed
  have ids : (state.opened.map fun span => span.context.spanId).Nodup := List.pairwise_map.mpr inv.distinct
  obtain rfl := List.inj_on_of_nodup_map ids member image.member named
  exact outcome_known (inv.shaped other member) ended preserves

/-- An exported span has a path through Steps to a Run of the current version. -/
structure Risen (spans : SpanMap) (exported : Span) (path : List Span) (root : Span) : Prop where
  climbs : Path (parentOf spans) exported path root
  rootless : parentOf spans root = none
  top : Archive.role root = .ok (some .run)
  through : ∀ other ∈ path, other = root ∨ Archive.role other = .ok (some .step)
  current : version root = some (.str semconvVersion)

/-- The Run of the producer has no parent in the archive. -/
theorem Image.run_risen (image : Image state spans span exported) (inv : Inv platform state)
    (kind : span.scope.role = .run) : Risen spans exported [exported] exported := by
  obtain ⟨closing, _, preserves⟩ := image.preserves
  have shaped := inv.shaped span image.member
  unfold Shaped at shaped
  have found := image.role inv
  cases scope : span.scope with
  | run =>
      rw [scope] at shaped found
      have reference := preserves.parent
      rw [shaped.2.1] at reference
      refine ⟨.stop exported, ?_, found, by simp, ?_⟩
      · apply Option.eq_none_iff_forall_ne_some.mpr
        intro above up
        obtain ⟨entry, got, _⟩ := parentOf_some.mp up
        exact get_falsy reference entry got
      · rw [version, preserves.attribute (by decide)]
        exact shaped.2.2.2.2
  | step pause =>
      rw [scope] at kind
      cases kind
  | attempt pause =>
      rw [scope] at kind
      cases kind

/-- In a sturdy producer every Run and every Step rises to a Run. -/
theorem risen (inv : Inv platform state) (exports : Exports state spans) {older : List (Opened E)} (sturdy : Sturdy older)
    (inside : older ⊆ state.opened) : ∀ span ∈ older, span.scope.role ≠ .attempt → ∀ exported,
      Image state spans span exported → ∃ path root, Risen spans exported path root := by
  induction older with
  | nil => simp
  | cons span older ih =>
      obtain ⟨_, rest⟩ := List.cons_subset.mp inside
      refine List.forall_mem_cons.mpr ⟨fun kind exported image => ?_, ih sturdy.2 rest⟩
      have fine := sturdy.1.2
      cases scope : span.scope with
      | run => exact ⟨_, _, image.run_risen inv (by rw [scope]; rfl)⟩
      | attempt pause =>
          rw [scope] at kind
          exact absurd rfl kind
      | step pause =>
          rw [scope] at fine
          obtain ⟨_, above, member, upper, under⟩ := fine
          obtain ⟨entry, got, found⟩ := image.parent exports (rest member) under.parent
          obtain ⟨path, root, risen⟩ := ih sturdy.2 rest above member upper entry.span found
          have step := image.role inv
          rw [scope] at step
          refine ⟨exported :: path, root, .step (parentOf_some.mpr ⟨entry, got, rfl⟩) risen.climbs, risen.rootless,
            risen.top, ?_, risen.current⟩
          exact List.forall_mem_cons.mpr ⟨.inr step, risen.through⟩

theorem Under.image (under : Under above span) (image : Image state spans span exported)
    (found : Image state spans above upper) (texts : Texts span.attributes) :
    upper.traceId = exported.traceId ∧ sameIdentity exported upper = true := by
  obtain ⟨_, _, own⟩ := image.preserves
  obtain ⟨_, _, other⟩ := found.preserves
  constructor
  · rw [own.traceId, other.traceId, under.trace]
  · apply sameIdentity_of_texts (image.texts.mpr texts)
    intro key member
    have declared := (identity_ne member).2.2.1
    rw [image.attribute declared, found.attribute declared, under.same key member]

theorem Sturdy.split {newer older : List (Opened E)} (sturdy : Sturdy (newer ++ older)) : Sturdy older := by
  induction newer with
  | nil => exact sturdy
  | cons span newer ih => exact ih sturdy.2

/-- The reader accepts the spans of a sturdy producer. -/
theorem accepted_of_sturdy (inv : Inv platform state) (exports : Exports state spans) (sturdy : Sturdy state.opened) :
    Accepted spans reference := by
  intro entry member
  obtain ⟨span, image⟩ := exports.source ⟨entry, member, rfl⟩
  obtain ⟨newer, older, split⟩ := List.append_of_mem image.member
  rw [split] at sturdy
  have checked := sturdy.split
  have inside : older ⊆ state.opened := by
    rw [split]
    exact fun other member => List.mem_append_right _ (List.mem_cons_of_mem _ member)
  have texts := image.texts.mpr checked.1.1
  have kind := image.role inv
  have outcome := image.outcome inv
  have fine := checked.1.2
  have shaped := inv.shaped span image.member
  have node : entry.span.attributes.get? "cord.node.name" = _ := image.attribute (by decide)
  have attempt : entry.span.attributes.get? "cord.step.attempt" = _ := image.attribute (by decide)
  have tier : entry.span.attributes.get? "cord.tier" = _ := image.attribute (by decide)
  unfold Shaped at shaped
  cases scope : span.scope with
  | run =>
      have risen := image.run_risen inv (by rw [scope]; rfl)
      obtain ⟨_, _, preserves⟩ := image.preserves
      have alone := preserves.parent
      rw [scope] at kind shaped
      rw [shaped.2.1] at alone
      apply accept_run texts kind alone
      rw [risen.current]
      decide
  | step pause =>
      rw [scope] at fine kind outcome
      obtain ⟨named, above, member, upper, under⟩ := fine
      obtain ⟨parent, got, found⟩ := image.parent exports (inside member) under.parent
      obtain ⟨trace, same⟩ := under.image image found checked.1.1
      have higher := found.role inv
      apply accept_step texts (by rwa [node]) kind (outcome.1 rfl) got trace same
      cases role : above.scope.role with
      | run =>
          rw [role] at higher
          exact .inl higher
      | attempt => exact absurd role upper
      | step =>
          rw [role] at higher
          obtain ⟨path, root, risen⟩ := risen inv exports checked.2 inside above member upper parent.span found
          refine .inr ⟨higher, root, runRoot_of_path risen.climbs found.held risen.rootless risen.top risen.through, ?_⟩
          rw [risen.current]
          decide
  | attempt pause =>
      rw [scope] at fine kind outcome shaped
      obtain ⟨named, above, member, role, under, same⟩ := fine
      obtain ⟨parent, got, found⟩ := image.parent exports (inside member) under.parent
      obtain ⟨trace, agree⟩ := under.image image found checked.1.1
      have step := found.role inv
      rw [role] at step
      have upper : above.scope.role ≠ .attempt := by
        rw [role]
        decide
      obtain ⟨path, root, risen⟩ := risen inv exports checked.2 inside above member upper parent.span found
      have walked := runRoot_of_path risen.climbs found.held risen.rootless risen.top risen.through
      apply accept_attempt texts (by rwa [node]) kind (by rw [attempt]; exact shaped.2.1) (outcome.2 rfl) got trace agree
        step walked (by rw [risen.current]; decide) (by rw [tier]; exact shaped.2.2.2)
      rw [node, same, found.attribute (by decide)]

/-- The parent of a span was open before the span. -/
theorem older_parent (inv : Inv platform state) {newer older : List (Opened E)}
    (split : state.opened = newer ++ span :: older) (member : above ∈ state.opened)
    (parent : span.parent = some above.context.spanId) : above ∈ older := by
  have ordered := inv.ordered
  rw [split, List.pairwise_append] at ordered
  rw [split] at member
  rcases List.mem_append.mp member with new | old
  · exact absurd parent (ordered.2.2 above new span List.mem_cons_self)
  · rcases List.mem_cons.mp old with rfl | inside
    · exact absurd parent (inv.loopless above (by rw [split]; exact List.mem_append_right _ List.mem_cons_self))
    · exact inside

/-- A parent with the trace and the identity in the archive had them in the producer. -/
theorem Kin.under (kin : Kin spans exported upper) (inv : Inv platform state) (exports : Exports state spans)
    (image : Image state spans span exported) :
    ∃ above, Image state spans above upper ∧ Under above span := by
  obtain ⟨entry, got, rfl⟩ := parentOf_some.mp kin.up
  obtain ⟨above, parent, found⟩ := image.source inv exports got
  obtain ⟨_, _, own⟩ := image.preserves
  obtain ⟨_, _, other⟩ := found.preserves
  refine ⟨above, found, parent, ?_, ?_⟩
  · apply traceText_inj (inv.valid above found.member) (inv.valid span image.member)
    rw [← other.traceId, ← own.traceId, kin.trace]
  · intro key member
    have declared := (identity_ne member).2.2.1
    rw [← image.attribute declared, ← found.attribute declared, kin.same key member]

/-- The producer of an accepted archive is sturdy. -/
theorem sturdy_of_accepted (inv : Inv platform state) (exports : Exports state spans)
    (accepted : Accepted spans reference) {newer older : List (Opened E)} (split : state.opened = newer ++ older) :
    Sturdy older := by
  induction older generalizing newer with
  | nil => trivial
  | cons span older ih =>
      refine ⟨?_, ih (split.trans (List.append_cons newer span older))⟩
      have member : span ∈ state.opened := by
        rw [split]
        exact List.mem_append_right _ List.mem_cons_self
      obtain ⟨exported, image⟩ := exports.image member
      obtain ⟨value, checked⟩ := accepted.checked image.held
      have kind := image.role inv
      obtain ⟨texts, named⟩ := accepted_texts checked kind
      have node : exported.attributes.get? "cord.node.name" = _ := image.attribute (by decide)
      refine ⟨image.texts.mp texts, ?_⟩
      cases scope : span.scope with
      | run => trivial
      | step pause =>
          rw [scope] at kind named
          obtain ⟨upper, kin, higher⟩ := accepted_step checked kind
          obtain ⟨above, found, under⟩ := Kin.under kin inv exports image
          refine ⟨by rw [← node]; exact named (by simp [Scope.role]), above, older_parent inv split found.member under.parent, ?_,
            under⟩
          intro attempt
          have role := found.role inv
          rw [attempt] at role
          rcases higher with run | ⟨step, _⟩
          · rw [role] at run
            cases run
          · rw [role] at step
            cases step
      | attempt pause =>
          rw [scope] at kind named
          obtain ⟨upper, kin, step, _, _, same⟩ := accepted_attempt checked kind
          obtain ⟨above, found, under⟩ := Kin.under kin inv exports image
          refine ⟨by rw [← node]; exact named (by simp [Scope.role]), above, older_parent inv split found.member under.parent, ?_,
            under, ?_⟩
          · have role := found.role inv
            rw [step] at role
            exact (Option.some.inj (Except.ok.inj role)).symm
          · rw [← node, same, found.attribute (by decide)]

end

end Cordboard.Execution
