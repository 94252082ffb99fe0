import Cordboard.Proof.Archive.Checked

namespace Cordboard.Archive
open Data

/-- The parent of a span in the map. -/
def parentOf (spans : SpanMap) (span : Span) : Option Span :=
  match spans.get span.parentRef with
  | .ok (some entry) => some entry.span
  | _ => none

section
variable {spans : SpanMap} {reference : Int} {span above root : Span}

theorem parentOf_some : parentOf spans span = some above ↔
    ∃ entry, spans.get span.parentRef = .ok (some entry) ∧ entry.span = above := by
  unfold parentOf
  constructor
  · intro found
    split at found
    · rename_i entry got
      exact ⟨entry, got, Option.some.inj found⟩
    · cases found
  · rintro ⟨entry, got, rfl⟩
    rw [got]

theorem holds_parent (found : parentOf spans span = some above) : spans.holds above := by
  obtain ⟨entry, got, rfl⟩ := parentOf_some.mp found
  exact ⟨entry, get_mem got, rfl⟩

/-- The texts of two spans agree on every identity key. -/
def SameIdentity (first second : Span) : Prop :=
  ∀ key ∈ identity, first.attributes.get? key = second.attributes.get? key

/-- A text that is equal for Python to a value of a span is that value. -/
theorem text_agrees {first second : Option Json} (text : isText first = true)
    (equal : (first.getD .null).pyEq (second.getD .null) = true) : first = second := by
  rcases first with _ | (_ | value | value | value | own | items | members)
  case some.str =>
      rcases second with _ | (_ | value | value | value | other | items | members)
      case some.str =>
          have agree : (own == other) = true := equal
          rw [eq_of_beq agree]
      all_goals cases equal
  all_goals cases text

/-- A span with texts has the identity of its parent when the values are equal for Python. -/
theorem identity_of_texts (texts : identity.all (fun key => isText (span.attributes.get? key)) = true)
    (same : sameIdentity span above = true) : SameIdentity span above := by
  intro key member
  exact text_agrees (List.all_eq_true.mp texts key member) (List.all_eq_true.mp same key member)

/-- The parent that a check returns is in the map and agrees with the span. -/
theorem parent_ok {expected : Role} (found : parent spans span expected = .ok above) :
    parentOf spans span = some above ∧ role above = .ok (some expected) ∧ above.traceId = span.traceId ∧
      sameIdentity span above = true := by
  obtain ⟨got, looked, later⟩ := bind_ok.mp found
  cases got with
  | none => cases later
  | some entry =>
      obtain ⟨kind, known, later⟩ := bind_ok.mp later
      obtain ⟨matched, later⟩ := require_bind_ok.mp later
      obtain ⟨same, ended⟩ := require_bind_ok.mp later
      obtain rfl := Except.ok.inj ended
      simp only [Bool.and_eq_true, decide_eq_true_eq] at matched
      obtain ⟨rfl, trace⟩ := matched
      exact ⟨parentOf_some.mpr ⟨entry, looked, rfl⟩, known, trace, same⟩

/-- A walk that ends has found a path through Steps to a Run. -/
theorem path_of_walk {fuel : Nat} {seen : List String} (walked : runRootWithin spans fuel seen span = .ok root) :
    role root = .ok (some .run) ∧ ∃ path, Path (parentOf spans) span path root ∧
      ∀ other ∈ path.tail, role other = .ok (some .run) ∨ role other = .ok (some .step) := by
  induction fuel generalizing seen span with
  | zero => cases walked
  | succ fuel ih =>
      obtain ⟨kind, known, later⟩ := bind_ok.mp walked
      split at later
      · rename_i run
        obtain rfl := Except.ok.inj later
        rw [run] at known
        exact ⟨known, [span], .stop span, by simp⟩
      · obtain ⟨_, later⟩ := require_bind_ok.mp later
        obtain ⟨got, looked, later⟩ := bind_ok.mp later
        cases got with
        | none => cases later
        | some entry =>
            obtain ⟨above, classified, later⟩ := bind_ok.mp later
            obtain ⟨inside, later⟩ := require_bind_ok.mp later
            obtain ⟨top, path, climbs, through⟩ := ih later
            simp only [Bool.or_eq_true, decide_eq_true_eq] at inside
            have member : role entry.span = .ok (some .run) ∨ role entry.span = .ok (some .step) := by
              rcases inside with rfl | rfl
              · exact .inl classified
              · exact .inr classified
            refine ⟨top, span :: path, .step (parentOf_some.mpr ⟨entry, looked, rfl⟩) climbs, ?_⟩
            obtain ⟨rest, rfl⟩ := climbs.head
            intro other inside
            rcases List.mem_cons.mp inside with rfl | later
            · exact member
            · exact through other later

theorem runRoot_ok (walked : runRoot spans span = .ok root) : role root = .ok (some .run) ∧
    ∃ path, Path (parentOf spans) span path root ∧
      ∀ other ∈ path.tail, role other = .ok (some .run) ∨ role other = .ok (some .step) :=
  path_of_walk walked

/-- A Run that passes is a root of a supported version. -/
theorem accepted_run {value : Option (String × String)} (checked : querySpan spans reference span = .ok value)
    (kind : role span = .ok (some .run)) :
    span.parentRef.truthy = false ∧ isOneOf (version span) supportedRunVersions = true := by
  obtain ⟨found, known, later⟩ := bind_ok.mp checked
  obtain rfl : found = some .run := Except.ok.inj (known.symm.trans kind)
  obtain ⟨_, later⟩ := require_bind_ok.mp later
  obtain ⟨alone, later⟩ := require_bind_ok.mp later
  obtain ⟨supported, _⟩ := require_bind_ok.mp later
  exact ⟨by simpa using alone, supported⟩

/-- A span that passes has its identity, and a Node below its Run. -/
theorem accepted_texts {value : Option (String × String)} (checked : querySpan spans reference span = .ok value)
    {kind : Role} (known : role span = .ok (some kind)) :
    identity.all (fun key => isText (span.attributes.get? key)) = true ∧
      (kind ≠ .run → isText (span.attributes.get? "cord.node.name") = true) := by
  obtain ⟨found, same, later⟩ := bind_ok.mp checked
  obtain rfl : found = some kind := Except.ok.inj (same.symm.trans known)
  obtain ⟨texts, later⟩ := require_bind_ok.mp later
  refine ⟨texts, fun below => ?_⟩
  cases kind with
  | run => exact absurd rfl below
  | step => exact (require_bind_ok.mp later).1
  | attempt => exact (require_bind_ok.mp later).1

/-- A parent with the trace and the identity of its child. -/
structure Kin (spans : SpanMap) (span above : Span) : Prop where
  up : parentOf spans span = some above
  trace : above.traceId = span.traceId
  same : SameIdentity span above

theorem kin_of_parent {expected : Role} (texts : identity.all (fun key => isText (span.attributes.get? key)) = true)
    (found : parent spans span expected = .ok above) : Kin spans span above ∧ role above = .ok (some expected) := by
  obtain ⟨up, kind, trace, same⟩ := parent_ok found
  exact ⟨⟨up, trace, identity_of_texts texts same⟩, kind⟩

/-- A Step that passes has a Run above it, or a Step with a walk to a Run of the current version. -/
theorem accepted_step {value : Option (String × String)} (checked : querySpan spans reference span = .ok value)
    (kind : role span = .ok (some .step)) :
    ∃ above, Kin spans span above ∧ (role above = .ok (some .run) ∨
      (role above = .ok (some .step) ∧
        ∃ root, runRoot spans above = .ok root ∧ isOneOf (version root) [semconvVersion] = true)) := by
  obtain ⟨found, known, later⟩ := bind_ok.mp checked
  obtain rfl : found = some .step := Except.ok.inj (known.symm.trans kind)
  obtain ⟨texts, later⟩ := require_bind_ok.mp later
  obtain ⟨_, later⟩ := require_bind_ok.mp later
  obtain ⟨_, stepped, _⟩ := bind_ok.mp later
  obtain ⟨_, later⟩ := require_bind_ok.mp stepped
  obtain ⟨got, _, later⟩ := bind_ok.mp later
  cases got with
  | none => cases later
  | some entry =>
      obtain ⟨upper, _, later⟩ := bind_ok.mp later
      split at later
      · obtain ⟨above, found, _⟩ := bind_ok.mp later
        obtain ⟨kin, run⟩ := kin_of_parent texts found
        exact ⟨above, kin, .inl run⟩
      · obtain ⟨above, found, later⟩ := bind_ok.mp later
        obtain ⟨kin, step⟩ := kin_of_parent texts found
        obtain ⟨root, walked, later⟩ := bind_ok.mp later
        exact ⟨above, kin, .inr ⟨step, root, walked, require_ok.mp later⟩⟩
      · cases later

/-- An Attempt that passes has a Step of the same Node above it with a walk to a Run. -/
theorem accepted_attempt {value : Option (String × String)} (checked : querySpan spans reference span = .ok value)
    (kind : role span = .ok (some .attempt)) :
    ∃ step, Kin spans span step ∧ role step = .ok (some .step) ∧ (∃ root, runRoot spans step = .ok root) ∧
      isText (span.attributes.get? "cord.node.name") = true ∧
      span.attributes.get? "cord.node.name" = step.attributes.get? "cord.node.name" := by
  obtain ⟨found, known, later⟩ := bind_ok.mp checked
  obtain rfl : found = some .attempt := Except.ok.inj (known.symm.trans kind)
  obtain ⟨texts, later⟩ := require_bind_ok.mp later
  obtain ⟨node, later⟩ := require_bind_ok.mp later
  obtain ⟨_, later⟩ := require_bind_ok.mp later
  obtain ⟨_, later⟩ := require_bind_ok.mp later
  obtain ⟨step, found, later⟩ := bind_ok.mp later
  obtain ⟨root, walked, later⟩ := bind_ok.mp later
  obtain ⟨kin, under⟩ := kin_of_parent texts found
  have matched : ((span.attributes.get? "cord.node.name").getD .null).pyEq
      ((step.attributes.get? "cord.node.name").getD .null) = true := by
    split at later
    · obtain ⟨_, later⟩ := require_bind_ok.mp later
      exact (require_bind_ok.mp later).1
    · exact (require_bind_ok.mp later).1
  exact ⟨step, kin, under, ⟨root, walked⟩, node, text_agrees node matched⟩

/-- The chain of a span climbs through Steps to the one Run above it. -/
structure Rooted (spans : SpanMap) (span : Span) (path : List Span) (root : Span) : Prop where
  climbs : Path (parentOf spans) span path root
  distinct : path.Nodup
  acyclic : ∀ other ∈ path, ¬ Relation.TransGen (Up (parentOf spans)) other other
  through : ∀ other ∈ path.tail, other = root ∨ role other = .ok (some .step)
  top : role root = .ok (some .run)
  alone : root.parentRef.truthy = false
  supported : isOneOf (version root) supportedRunVersions = true
  agree : ∀ other ∈ path, spans.holds other ∧ other.traceId = root.traceId ∧ SameIdentity other root
  only : ∀ other, Relation.ReflTransGen (Up (parentOf spans)) span other → role other = .ok (some .run) → other = root

variable {path : List Span}

theorem Accepted.checked (accepted : Accepted spans reference) (held : spans.holds span) :
    ∃ value, querySpan spans reference span = .ok value := by
  obtain ⟨entry, member, rfl⟩ := held
  exact accepted entry member

/-- A Run that passes has no parent in the map. -/
theorem Accepted.run_alone (accepted : Accepted spans reference) (held : spans.holds span)
    (kind : role span = .ok (some .run)) : parentOf spans span = none := by
  obtain ⟨value, checked⟩ := accepted.checked held
  have alone := (accepted_run checked kind).1
  apply Option.eq_none_iff_forall_ne_some.mpr
  intro above found
  obtain ⟨entry, got, _⟩ := parentOf_some.mp found
  exact get_falsy alone entry got

/-- A Step or an Attempt that passes has a Run or a Step of its own trace and identity above it. -/
theorem Accepted.climb (accepted : Accepted spans reference) (held : spans.holds span) {kind : Role}
    (known : role span = .ok (some kind)) (below : kind ≠ .run) :
    ∃ above, Kin spans span above ∧ (role above = .ok (some .run) ∨ role above = .ok (some .step)) := by
  obtain ⟨value, checked⟩ := accepted.checked held
  cases kind with
  | run => exact absurd rfl below
  | step =>
      obtain ⟨above, kin, run | ⟨step, _⟩⟩ := accepted_step checked known
      · exact ⟨above, kin, .inl run⟩
      · exact ⟨above, kin, .inr step⟩
  | attempt =>
      obtain ⟨above, kin, step, _⟩ := accepted_attempt checked known
      exact ⟨above, kin, .inr step⟩

/-- A chain that ends at a Run keeps the trace and the identity of the Run. -/
theorem Accepted.agree (accepted : Accepted spans reference) (climbs : Path (parentOf spans) span path root)
    (held : spans.holds span) (known : ∃ kind, role span = .ok (some kind)) (top : role root = .ok (some .run)) :
    ∀ other ∈ path, spans.holds other ∧ other.traceId = root.traceId ∧ SameIdentity other root := by
  induction climbs with
  | stop span =>
      intro other member
      obtain rfl := List.mem_singleton.mp member
      exact ⟨held, rfl, fun _ _ => rfl⟩
  | @step span next root path up rest ih =>
      obtain ⟨kind, known⟩ := known
      have below : kind ≠ .run := by
        rintro rfl
        rw [accepted.run_alone held known] at up
        cases up
      obtain ⟨above, kin, classified⟩ := accepted.climb held known below
      obtain rfl := Option.some.inj (up.symm.trans kin.up)
      have upper : ∃ kind, role next = .ok (some kind) := by
        rcases classified with run | step
        · exact ⟨_, run⟩
        · exact ⟨_, step⟩
      have later := ih (holds_parent up) upper top
      obtain ⟨others, rfl⟩ := rest.head
      obtain ⟨_, trace, same⟩ := later next List.mem_cons_self
      intro other member
      rcases List.mem_cons.mp member with rfl | inside
      · exact ⟨held, kin.trace.symm.trans trace, fun key member => (kin.same key member).trans (same key member)⟩
      · exact later other inside

/-- A chain through Runs and Steps that ends at a Run meets no other Run. -/
theorem Accepted.rooted (accepted : Accepted spans reference) (climbs : Path (parentOf spans) span path root)
    (held : spans.holds span) {kind : Role} (known : role span = .ok (some kind))
    (through : ∀ other ∈ path.tail, role other = .ok (some .run) ∨ role other = .ok (some .step))
    (top : role root = .ok (some .run)) : Rooted spans span path root := by
  have agree := accepted.agree climbs held ⟨kind, known⟩ top
  have rootless := accepted.run_alone (agree root climbs.last_mem).1 top
  have single : ∀ other ∈ path, role other = .ok (some .run) → other = root := by
    intro other member run
    obtain ⟨rest, suffix, _⟩ := climbs.suffix member
    exact (Path.unique (.stop other) (accepted.run_alone (agree other member).1 run) suffix rootless).2.symm
  obtain ⟨value, checked⟩ := accepted.checked (agree root climbs.last_mem).1
  obtain ⟨alone, supported⟩ := accepted_run checked top
  exact {
    climbs := climbs
    distinct := climbs.nodup rootless
    acyclic := by
      intro other member
      obtain ⟨rest, suffix, _⟩ := climbs.suffix member
      exact suffix.acyclic rootless
    through := by
      intro other member
      rcases through other member with run | step
      · exact .inl (single other (List.mem_of_mem_tail member) run)
      · exact .inr step
    top := top
    alone := alone
    supported := supported
    agree := agree
    only := by
      intro other reach run
      exact single other (climbs.mem_of_reach rootless reach) run }

/-- Each Step and each Attempt of an accepted map has a chain to its Run. -/
theorem Accepted.chain (accepted : Accepted spans reference) (held : spans.holds span) {kind : Role}
    (known : role span = .ok (some kind)) (below : kind ≠ .run) : ∃ path root, Rooted spans span path root := by
  have grow : ∀ {above root : Span} {rest : List Span}, parentOf spans span = some above →
      (role above = .ok (some .run) ∨ role above = .ok (some .step)) → role root = .ok (some .run) →
      Path (parentOf spans) above rest root →
      (∀ other ∈ rest.tail, role other = .ok (some .run) ∨ role other = .ok (some .step)) →
      ∃ path root, Rooted spans span path root := by
    intro above root rest up classified top climbs through
    refine ⟨span :: rest, root, accepted.rooted (.step up climbs) held known ?_ top⟩
    obtain ⟨others, rfl⟩ := climbs.head
    intro other member
    rcases List.mem_cons.mp member with rfl | later
    · exact classified
    · exact through other later
  obtain ⟨value, checked⟩ := accepted.checked held
  cases kind with
  | run => exact absurd rfl below
  | step =>
      obtain ⟨above, kin, run | ⟨step, root, walked, _⟩⟩ := accepted_step checked known
      · exact grow kin.up (.inl run) run (.stop above) (by simp)
      · obtain ⟨top, rest, climbs, through⟩ := runRoot_ok walked
        exact grow kin.up (.inr step) top climbs through
  | attempt =>
      obtain ⟨above, kin, step, ⟨root, walked⟩, _⟩ := accepted_attempt checked known
      obtain ⟨top, rest, climbs, through⟩ := runRoot_ok walked
      exact grow kin.up (.inr step) top climbs through

end

end Cordboard.Archive
