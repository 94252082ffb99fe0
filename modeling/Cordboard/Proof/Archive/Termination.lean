import Cordboard.Proof.Archive.Forest

namespace Cordboard.Archive
open Data

/-- A container is not hashable. -/
def hashable : Json → Bool
  | .arr _ => false
  | .obj _ => false
  | _ => true

/-- Each Step and each Attempt of the map names its parent by a value that a lookup accepts. -/
def SpanMap.Referable (spans : SpanMap) : Prop :=
  ∀ span kind, spans.holds span → role span = .ok (some kind) → kind ≠ .run → hashable span.parentRef = true

section
variable {spans : SpanMap} {reference : Int} {span : Span} {kind : Role}

theorem get_returns {key : Json} (simple : hashable key = true) : ∃ got, spans.get key = .ok got := by
  cases key with
  | arr items => cases simple
  | obj members => cases simple
  | str text => exact ⟨_, rfl⟩
  | null => exact ⟨_, rfl⟩
  | bool value => exact ⟨_, rfl⟩
  | int value => exact ⟨_, rfl⟩
  | float value => exact ⟨_, rfl⟩

theorem tame_get (referable : spans.Referable) (held : spans.holds span) (known : role span = .ok (some kind))
    (below : kind ≠ .run) : Tame (spans.get span.parentRef) := by
  obtain ⟨got, returned⟩ := @get_returns spans _ (referable span kind held known below)
  rw [returned]
  exact tame_ok got

theorem tame_role (span : Span) : Tame (role span) := by
  unfold role
  split
  · split
    · exact tame_ok _
    · split
      · exact tame_ok _
      · split
        · exact tame_ok _
        · exact (tame_require _ _).bind fun _ _ => tame_ok _
  · exact tame_archive _

theorem holds_got {key : Json} {entry : Entry} (got : spans.get key = .ok (some entry)) : spans.holds entry.span :=
  ⟨entry, get_mem got, rfl⟩

theorem tame_parent (referable : spans.Referable) (held : spans.holds span) (known : role span = .ok (some kind))
    (below : kind ≠ .run) (expected : Role) : Tame (parent spans span expected) := by
  refine (tame_get referable held known below).bind fun got _ => ?_
  cases got with
  | none => exact tame_archive _
  | some entry =>
      apply (tame_role entry.span).bind
      intro kind _
      apply (tame_require _ _).bind
      intro _ _
      apply (tame_require _ _).bind
      intro _ _
      exact tame_ok _

/-- The identifiers of a walk are keys of the map. -/
theorem key_of_holds (held : spans.holds span) : span.spanId ∈ spans.entries.keys := by
  obtain ⟨entry, member, rfl⟩ := held
  obtain ⟨key, found⟩ := mem_values.mp member
  rw [spans.keyed key entry found]
  exact Dict.mem_keys_of_get? found

/-- The walk sees a key once, so it ends before its bound. -/
theorem tame_walk (referable : spans.Referable) {fuel : Nat} {seen : List String} (held : spans.holds span)
    (once : seen.Nodup) (inside : seen ⊆ spans.entries.keys)
    (enough : spans.entries.keys.length + 1 ≤ fuel + seen.length)
    (known : role span = .ok (some .run) ∨ role span = .ok (some .step)) : Tame (runRootWithin spans fuel seen span) := by
  induction fuel generalizing seen span with
  | zero =>
      have few : seen.length ≤ spans.entries.keys.length := (List.subperm_of_subset once inside).length_le
      omega
  | succ fuel ih =>
      refine (tame_role span).bind fun found named => ?_
      split
      · exact tame_ok _
      · rename_i notRun
        have step : role span = .ok (some .step) := by
          rcases known with run | step
          · exact absurd (Except.ok.inj (named.symm.trans run)) notRun
          · exact step
        apply (tame_require _ _).bind
        intro _ fresh
        have new : span.spanId ∉ seen := by simpa using require_ok.mp fresh
        refine (tame_get referable held step (by decide)).bind fun got looked => ?_
        cases got with
        | none => exact tame_archive _
        | some entry =>
            refine (tame_role entry.span).bind fun above classified => ?_
            refine (tame_require _ _).bind fun _ climbed => ?_
            have higher : role entry.span = .ok (some .run) ∨ role entry.span = .ok (some .step) := by
              have either := require_ok.mp climbed
              simp only [Bool.or_eq_true, decide_eq_true_eq] at either
              rcases either with rfl | rfl
              · exact .inl classified
              · exact .inr classified
            apply ih (holds_got looked) (List.nodup_cons.mpr ⟨new, once⟩) _ _ higher
            · exact List.cons_subset.mpr ⟨key_of_holds held, inside⟩
            · rw [List.length_cons]
              omega

theorem tame_runRoot (referable : spans.Referable) (held : spans.holds span) (step : role span = .ok (some .step)) :
    Tame (runRoot spans span) := by
  apply tame_walk referable held List.nodup_nil (List.nil_subset _) _ (.inr step)
  simp

theorem holds_of_parent {above : Span} {expected : Role} (found : parent spans span expected = .ok above) :
    spans.holds above :=
  holds_parent (parent_ok found).1

theorem tame_queryStep (referable : spans.Referable) (held : spans.holds span) (known : role span = .ok (some .step)) :
    Tame (queryStep spans span) := by
  have below : Role.step ≠ .run := by decide
  apply (tame_require _ _).bind
  intro _ _
  refine (tame_get referable held known below).bind fun got looked => ?_
  cases got with
  | none => exact tame_archive _
  | some entry =>
      apply (tame_role entry.span).bind
      intro kind _
      split
      · apply (tame_parent referable held known below _).bind
        intro _ _
        exact tame_ok _
      · refine (tame_parent referable held known below _).bind fun above found => ?_
        apply (tame_runRoot referable (holds_of_parent found) (parent_ok found).2.1).bind
        intro _ _
        exact tame_require _ _
      · exact tame_archive _

theorem tame_queryAttempt (referable : spans.Referable) (held : spans.holds span)
    (known : role span = .ok (some .attempt)) : Tame (queryAttempt spans reference span) := by
  apply (tame_require _ _).bind
  intro _ _
  apply (tame_require _ _).bind
  intro _ _
  refine (tame_parent referable held known (by decide) _).bind fun step found => ?_
  apply (tame_runRoot referable (holds_of_parent found) (parent_ok found).2.1).bind
  intro root _
  split
  · apply (tame_require _ _).bind
    intro _ _
    apply (tame_require _ _).bind
    intro _ _
    exact tame_ok _
  · apply (tame_require _ _).bind
    intro _ _
    exact tame_ok _

theorem tame_querySpan (referable : spans.Referable) (held : spans.holds span) :
    Tame (querySpan spans reference span) := by
  refine (tame_role span).bind fun kind known => ?_
  cases kind with
  | none => exact tame_ok _
  | some kind =>
      apply (tame_require _ _).bind
      intro _ _
      cases kind with
      | run =>
          apply (tame_require _ _).bind
          intro _ _
          apply (tame_require _ _).bind
          intro _ _
          exact tame_ok _
      | step =>
          apply (tame_require _ _).bind
          intro _ _
          apply (tame_queryStep referable held known).bind
          intro _ _
          exact tame_ok _
      | attempt =>
          apply (tame_require _ _).bind
          intro _ _
          exact tame_queryAttempt referable held known

theorem tame_tally {entries : List Entry} (each : ∀ entry ∈ entries, Tame (querySpan spans reference entry.span))
    (counts : Dict (String × String) Nat) : Tame (tally spans reference entries counts) := by
  induction entries generalizing counts with
  | nil => exact tame_ok _
  | cons entry rest ih =>
      obtain ⟨first, others⟩ := List.forall_mem_cons.mp each
      refine (first.at entry.location).bind fun value _ => ?_
      cases value with
      | none => exact ih others _
      | some key => exact ih others _

/-- The query of a referable map returns or raises an `ArchiveError`. -/
theorem tame_querySpans (referable : spans.Referable) (reference top : Int) : Tame (querySpans spans reference top) := by
  apply (tame_require _ _).bind
  intro _ _
  have each : ∀ entry ∈ spans.values, Tame (querySpan spans reference entry.span) := by
    intro entry member
    exact tame_querySpan referable ⟨entry, member, rfl⟩
  apply (tame_tally each _).bind
  intro _ _
  exact tame_ok _

end

end Cordboard.Archive
