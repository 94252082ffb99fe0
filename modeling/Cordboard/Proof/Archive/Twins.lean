import Cordboard.Proof.Archive.Alike

namespace Cordboard.Archive
open Data

section
variable {A B C D : Type}

/-- Both readers raise the same exception, or both return and the values are related. -/
inductive Agree (related : A → B → Prop) : Checked A → Checked B → Prop
  | ok {first : A} {second : B} (values : related first second) : Agree related (.ok first) (.ok second)
  | error (failure : Failure) : Agree related (.error failure) (.error failure)

theorem Agree.bind {related : A → B → Prop} {further : C → D → Prop} {first : Checked A} {second : Checked B}
    {rest : A → Checked C} {others : B → Checked D} (agree : Agree related first second)
    (later : ∀ one two, related one two → Agree further (rest one) (others two)) :
    Agree further (first >>= rest) (second >>= others) := by
  cases agree with
  | ok values => exact later _ _ values
  | error failure => exact .error failure

theorem Agree.eq {first second : Checked A} (agree : Agree Eq first second) : first = second := by
  cases agree with
  | ok values => rw [values]
  | error failure => rfl

theorem agree_same (outcome : Checked A) : Agree Eq outcome outcome := by
  cases outcome with
  | ok value => exact .ok rfl
  | error failure => exact .error failure

theorem agree_of_eq {first second : Checked A} (same : first = second) : Agree Eq first second :=
  same ▸ agree_same first

end

/-- Two decoded spans are equal for Python and give the same answer to the check of the attempt number. -/
structure Alike (first second : Span) : Prop where
  equal : SpanEqual first second
  proper : first.Proper
  valid : second.Proper
  number : isPositive (first.attributes.get? "cord.step.attempt") =
    isPositive (second.attributes.get? "cord.step.attempt")

/-- The same identifiers name alike spans. -/
def Twin (spans others : SpanMap) : Prop :=
  ∀ key, Option.Rel (fun first second => Alike first.span second.span) (spans.entries.get? key) (others.entries.get? key)

section
variable {spans others : SpanMap} {first second above upper : Span} {reference : Int}

theorem Alike.has (alike : Alike first second) (key : String) : first.has key = second.has key :=
  isSome_congr (alike.equal.attribute key)

theorem Alike.role (alike : Alike first second) : role first = role second := by
  have text : (first.name.getD (.str "")).text? = (second.name.getD (.str "")).text? :=
    text_congr (getD_congr (by decide) alike.equal.name)
  unfold Archive.role
  simp only [alike.has]
  cases one : first.name.getD (.str "") <;> cases two : second.name.getD (.str "") <;> rw [one, two] at text <;>
    first | cases text; rfl | rfl | cases text

theorem Alike.parentRef (alike : Alike first second) : first.parentRef.pyEq second.parentRef = true :=
  getD_congr (by decide) alike.equal.parentSpanId

/-- The related results of a lookup. -/
abbrev Found : Option Entry → Option Entry → Prop := Option.Rel fun first second => Alike first.span second.span

theorem get_of_number {key : Json} {value : ℚ} (number : key.number? = some value) : spans.get key = .ok none := by
  cases key <;> first | rfl | cases number

theorem get_agree (twin : Twin spans others) {one two : Json} (equal : one.pyEq two = true) :
    Agree Found (spans.get one) (others.get two) := by
  cases Json.pyEq_iff.mp equal with
  | null => exact .ok .none
  | str text => exact .ok (twin text)
  | number value own other =>
      rw [get_of_number own, get_of_number other]
      exact .ok .none
  | arr items => exact .error .type
  | obj size members => exact .error .type

theorem require_agree {condition other : Bool} (same : condition = other) (reason : String) :
    Agree Eq (require condition reason) (require other reason) :=
  agree_of_eq (by rw [same])

theorem proper_attribute (proper : first.Proper) (key : String) : ((first.attributes.get? key).getD .null).proper = true := by
  cases found : first.attributes.get? key with
  | none => rfl
  | some value =>
      exact (Json.proper_obj.mp proper.attributes).2 key value ((Dict.get?_eq_some_iff _ _ _).mp found)

/-- Alike spans compare alike with alike spans under each key. -/
theorem compare_congr (alike : Alike first second) (parents : Alike above upper) (key : String) :
    ((first.attributes.get? key).getD .null).pyEq ((above.attributes.get? key).getD .null) =
      ((second.attributes.get? key).getD .null).pyEq ((upper.attributes.get? key).getD .null) := by
  have values := fun {one two : Option Json} => @getD_congr one two .null (by decide)
  exact pyEq_congr (proper_attribute alike.proper key) (proper_attribute alike.valid key)
    (proper_attribute parents.proper key) (proper_attribute parents.valid key) (values (alike.equal.attribute key))
    (values (parents.equal.attribute key))

theorem sameIdentity_congr (alike : Alike first second) (parents : Alike above upper) :
    sameIdentity first above = sameIdentity second upper := by
  unfold sameIdentity
  congr 1
  funext key
  exact compare_congr alike parents key

theorem role_agree (alike : Alike first second) : Agree Eq (role first) (role second) := agree_of_eq alike.role

theorem parent_agree (twin : Twin spans others) (alike : Alike first second) (expected : Role) :
    Agree Alike (parent spans first expected) (parent others second expected) := by
  apply (get_agree twin alike.parentRef).bind
  intro one two found
  cases found with
  | none => exact .error _
  | some parents =>
      apply (role_agree parents).bind
      rintro kind _ rfl
      apply (require_agree (by rw [alike.equal.traceId, parents.equal.traceId]) _).bind
      intro _ _ _
      apply (require_agree (sameIdentity_congr alike parents) _).bind
      intro _ _ _
      exact .ok parents

theorem walk_agree (twin : Twin spans others) {fuel : Nat} {seen : List String} (alike : Alike first second) :
    Agree Alike (runRootWithin spans fuel seen first) (runRootWithin others fuel seen second) := by
  induction fuel generalizing seen first second with
  | zero => exact .error _
  | succ fuel ih =>
      apply (role_agree alike).bind
      rintro kind _ rfl
      split
      · exact .ok alike
      · apply (require_agree (by rw [alike.equal.spanId]) _).bind
        intro _ _ _
        apply (get_agree twin alike.parentRef).bind
        intro one two found
        cases found with
        | none => exact .error _
        | some parents =>
            apply (role_agree parents).bind
            rintro kind _ rfl
            apply (require_agree rfl _).bind
            intro _ _ _
            rw [alike.equal.spanId]
            exact ih parents

theorem rel_none {A B : Type} {related : A → B → Prop} {one : Option A} {two : Option B}
    (rel : Option.Rel related one two) : one = none ↔ two = none := by
  cases rel <;> simp

/-- Twins have the same identifiers. -/
theorem Twin.keys (twin : Twin spans others) : spans.entries.keys.Perm others.entries.keys := by
  apply (List.perm_ext_iff_of_nodup spans.entries.distinct others.entries.distinct).mpr
  intro key
  have absent : key ∉ spans.entries.keys ↔ key ∉ others.entries.keys := by
    rw [← Dict.get?_eq_none_iff, ← Dict.get?_eq_none_iff]
    exact rel_none (twin key)
  exact not_iff_not.mp absent

theorem runRoot_agree (twin : Twin spans others) (alike : Alike first second) :
    Agree Alike (runRoot spans first) (runRoot others second) := by
  unfold runRoot
  rw [twin.keys.length_eq]
  exact walk_agree twin alike

theorem Alike.isText (alike : Alike first second) (key : String) :
    Archive.isText (first.attributes.get? key) = Archive.isText (second.attributes.get? key) :=
  isText_congr (alike.equal.attribute key)

theorem Alike.isOneOf (alike : Alike first second) (key : String) (texts : List String) :
    Archive.isOneOf (first.attributes.get? key) texts = Archive.isOneOf (second.attributes.get? key) texts :=
  isOneOf_congr (alike.equal.attribute key) texts

theorem queryStep_agree (twin : Twin spans others) (alike : Alike first second) :
    Agree Eq (queryStep spans first) (queryStep others second) := by
  apply (require_agree (alike.isOneOf _ _) _).bind
  intro _ _ _
  apply (get_agree twin alike.parentRef).bind
  intro one two found
  cases found with
  | none => exact .error _
  | some parents =>
      apply (role_agree parents).bind
      rintro kind _ rfl
      split
      · apply (parent_agree twin alike _).bind
        intro _ _ _
        exact .ok rfl
      · apply (parent_agree twin alike _).bind
        intro step other steps
        apply (runRoot_agree twin steps).bind
        intro root mate roots
        exact require_agree (roots.isOneOf _ _) _
      · exact .error _

theorem escalationKey_congr (alike : Alike first second) : escalationKey first = escalationKey second := by
  have texts : ∀ span : Span, escalationKey span =
      ((span.attributes.get? "cord.graph.id").bind Json.text?).bind fun graph =>
        ((span.attributes.get? "cord.node.name").bind Json.text?).map fun node => (graph, node) := by
    intro span
    unfold escalationKey
    rcases span.attributes.get? "cord.graph.id" with _ | (_ | _ | _ | _ | _ | _ | _) <;>
      rcases span.attributes.get? "cord.node.name" with _ | (_ | _ | _ | _ | _ | _ | _) <;> rfl
  rw [texts, texts, texts_congr (alike.equal.attribute _), texts_congr (alike.equal.attribute _)]

theorem queryAttempt_agree (twin : Twin spans others) (alike : Alike first second) :
    Agree Eq (queryAttempt spans reference first) (queryAttempt others reference second) := by
  apply (require_agree alike.number _).bind
  intro _ _ _
  apply (require_agree (alike.isOneOf _ _) _).bind
  intro _ _ _
  apply (parent_agree twin alike _).bind
  intro step other steps
  apply (runRoot_agree twin steps).bind
  intro root mate roots
  have current : Archive.isOneOf (version root) ["0.2.0"] = Archive.isOneOf (version mate) ["0.2.0"] := roots.isOneOf _ _
  have result : (Except.ok (if Archive.isOneOf (first.attributes.get? "cord.outcome") [AttemptOutcome.escalated.value] ∧
      reference - windowNs < first.endTimeUnixNano ∧ (first.endTimeUnixNano : Int) ≤ reference then
        escalationKey first else none) : Checked (Option (String × String))) =
      .ok (if Archive.isOneOf (second.attributes.get? "cord.outcome") [AttemptOutcome.escalated.value] ∧
        reference - windowNs < second.endTimeUnixNano ∧ (second.endTimeUnixNano : Int) ≤ reference then
        escalationKey second else none) := by
    rw [alike.isOneOf, alike.equal.finish, escalationKey_congr alike]
  have node := compare_congr alike steps "cord.node.name"
  rw [current, alike.has]
  split
  · apply (require_agree (alike.isText _) _).bind
    intro _ _ _
    apply (require_agree node _).bind
    intro _ _ _
    exact agree_of_eq result
  · apply (require_agree node _).bind
    intro _ _ _
    exact agree_of_eq result

/-- Alike spans of twins pass the check of the loop alike. -/
theorem querySpan_congr (twin : Twin spans others) (alike : Alike first second) :
    querySpan spans reference first = querySpan others reference second := by
  apply Agree.eq
  apply (role_agree alike).bind
  rintro kind _ rfl
  have texts : (identity.all fun key => Archive.isText (first.attributes.get? key)) =
      identity.all fun key => Archive.isText (second.attributes.get? key) := by
    congr 1
    funext key
    exact alike.isText key
  cases kind with
  | none => exact .ok rfl
  | some kind =>
      apply (require_agree texts _).bind
      intro _ _ _
      cases kind with
      | run =>
          apply (require_agree (by rw [truthy_congr alike.parentRef]) _).bind
          intro _ _ _
          apply (require_agree (alike.isOneOf _ _) _).bind
          intro _ _ _
          exact .ok rfl
      | step =>
          apply (require_agree (alike.isText _) _).bind
          intro _ _ _
          apply (queryStep_agree twin alike).bind
          intro _ _ _
          exact .ok rfl
      | attempt =>
          apply (require_agree (alike.isText _) _).bind
          intro _ _ _
          exact queryAttempt_agree twin alike

/-- The reference time decides what counts, but not what passes. -/
theorem reference_agree (reference later : Int) (span : Span) :
    Agree (fun _ _ => True) (querySpan spans reference span) (querySpan spans later span) := by
  apply (agree_same _).bind
  rintro kind _ rfl
  cases kind with
  | none => exact .ok trivial
  | some kind =>
      apply (agree_same _).bind
      intro _ _ _
      cases kind with
      | run =>
          apply (agree_same _).bind
          intro _ _ _
          apply (agree_same _).bind
          intro _ _ _
          exact .ok trivial
      | step =>
          apply (agree_same _).bind
          intro _ _ _
          apply (agree_same _).bind
          intro _ _ _
          exact .ok trivial
      | attempt =>
          apply (agree_same _).bind
          intro _ _ _
          apply (agree_same _).bind
          intro _ _ _
          apply (agree_same _).bind
          intro _ _ _
          apply (agree_same _).bind
          rintro step _ rfl
          apply (agree_same _).bind
          rintro root _ rfl
          split
          · apply (agree_same _).bind
            intro _ _ _
            apply (agree_same _).bind
            intro _ _ _
            exact .ok trivial
          · apply (agree_same _).bind
            intro _ _ _
            exact .ok trivial

theorem Accepted.at {later : Int} (accepted : Accepted spans reference) : Accepted spans later := by
  intro entry member
  obtain ⟨value, checked⟩ := accepted entry member
  have agree := @reference_agree spans reference later entry.span
  rw [checked] at agree
  generalize held : querySpan spans later entry.span = outcome at agree ⊢
  cases agree with
  | ok _ => exact ⟨_, rfl⟩

end

end Cordboard.Archive
