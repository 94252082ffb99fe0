import Cordboard.Proof.Archive.Termination

namespace Cordboard.Archive
open Data

section
variable {spans : SpanMap} {reference : Int} {span above root : Span} {path : List Span}

/-- Two spans of the map with one identifier are one span. -/
theorem holds_inj (first : spans.holds span) (second : spans.holds above) (same : span.spanId = above.spanId) :
    span = above := by
  obtain ⟨one, member, rfl⟩ := first
  obtain ⟨two, other, rfl⟩ := second
  obtain ⟨key, found⟩ := mem_values.mp member
  obtain ⟨name, got⟩ := mem_values.mp other
  obtain rfl : key = name := by rw [← spans.keyed key one found, ← spans.keyed name two got, same]
  rw [Option.some.inj (found.symm.trans got)]

/-- A span of the map is found under its own identifier. -/
theorem get_of_holds (held : spans.holds span) :
    ∃ entry, spans.get (.str span.spanId) = .ok (some entry) ∧ entry.span = span := by
  obtain ⟨entry, member, rfl⟩ := held
  obtain ⟨key, found⟩ := mem_values.mp member
  have named := spans.keyed key entry found
  refine ⟨entry, ?_, rfl⟩
  rw [SpanMap.get, named, found]

/-- A walk over Steps finds the Run at the end of its path. -/
theorem walk_of_path {fuel : Nat} {seen : List String} (climbs : Path (parentOf spans) span path root)
    (rootless : parentOf spans root = none) (top : role root = .ok (some .run))
    (through : ∀ other ∈ path, other = root ∨ role other = .ok (some .step))
    (once : (path.map Span.spanId).Nodup) (fresh : ∀ other ∈ path, other.spanId ∉ seen) (enough : path.length ≤ fuel) :
    runRootWithin spans fuel seen span = .ok root := by
  induction climbs generalizing fuel seen with
  | stop span =>
      obtain ⟨fuel, rfl⟩ : ∃ rest, fuel = rest + 1 := by
        rw [List.length_singleton] at enough
        exact Nat.exists_eq_add_one.mpr (by omega)
      exact bind_ok.mpr ⟨_, top, if_pos rfl⟩
  | @step span next root path up rest ih =>
      obtain ⟨fuel, rfl⟩ : ∃ rest, fuel = rest + 1 := by
        rw [List.length_cons] at enough
        exact Nat.exists_eq_add_one.mpr (by omega)
      have step : role span = .ok (some .step) := by
        rcases through span List.mem_cons_self with rfl | step
        · rw [rootless] at up
          cases up
        · exact step
      obtain ⟨entry, got, rfl⟩ := parentOf_some.mp up
      obtain ⟨others, rfl⟩ := rest.head
      rw [List.map_cons, List.nodup_cons] at once
      have higher : role entry.span = .ok (some .run) ∨ role entry.span = .ok (some .step) := by
        rcases through entry.span (List.mem_cons_of_mem _ List.mem_cons_self) with same | step
        · exact .inl (same ▸ top)
        · exact .inr step
      have later : runRootWithin spans fuel (span.spanId :: seen) entry.span = .ok root := by
        apply ih rootless top
        · exact fun other member => through other (List.mem_cons_of_mem _ member)
        · exact once.2
        · intro other member again
          rcases List.mem_cons.mp again with same | old
          · exact once.1 (same ▸ List.mem_map_of_mem member)
          · exact fresh other (List.mem_cons_of_mem _ member) old
        · simpa using enough
      have new : (!seen.contains span.spanId) = true := by
        simpa using fresh span List.mem_cons_self
      refine bind_ok.mpr ⟨_, step, ?_⟩
      rw [if_neg (by decide)]
      refine require_bind_ok.mpr ⟨new, bind_ok.mpr ⟨some entry, got, ?_⟩⟩
      rcases higher with run | step
      · exact bind_ok.mpr ⟨_, run, require_bind_ok.mpr ⟨by decide, later⟩⟩
      · exact bind_ok.mpr ⟨_, step, require_bind_ok.mpr ⟨by decide, later⟩⟩

theorem holds_of_path (climbs : Path (parentOf spans) span path root) (held : spans.holds span) :
    ∀ other ∈ path, spans.holds other := by
  induction climbs with
  | stop span => exact List.forall_mem_singleton.mpr held
  | step up rest ih => exact List.forall_mem_cons.mpr ⟨held, ih (holds_parent up)⟩

/-- A path to a root visits each identifier once. -/
theorem once_of_path (climbs : Path (parentOf spans) span path root) (held : spans.holds span)
    (rootless : parentOf spans root = none) : (path.map Span.spanId).Nodup := by
  have inside := holds_of_path climbs held
  apply (climbs.nodup rootless).map_on
  exact fun first member second other same => holds_inj (inside first member) (inside second other) same

/-- A path to a root is not longer than the map. -/
theorem length_of_path (climbs : Path (parentOf spans) span path root) (held : spans.holds span)
    (rootless : parentOf spans root = none) : path.length ≤ spans.entries.keys.length := by
  rw [← List.length_map Span.spanId]
  apply (List.subperm_of_subset (once_of_path climbs held rootless) _).length_le
  intro key member
  obtain ⟨other, visited, rfl⟩ := List.mem_map.mp member
  exact key_of_holds (holds_of_path climbs held other visited)

/-- The walk of `run_root` has enough steps for each path of the map. -/
theorem runRoot_of_path (climbs : Path (parentOf spans) span path root) (held : spans.holds span)
    (rootless : parentOf spans root = none) (top : role root = .ok (some .run))
    (through : ∀ other ∈ path, other = root ∨ role other = .ok (some .step)) : runRoot spans span = .ok root := by
  have once := once_of_path climbs held rootless
  have few := length_of_path climbs held rootless
  exact walk_of_path climbs rootless top through once (by simp) (Nat.le_add_right_of_le few)

theorem parent_of_get {expected : Role} {entry : Entry} (got : spans.get span.parentRef = .ok (some entry))
    (kind : role entry.span = .ok (some expected)) (trace : entry.span.traceId = span.traceId)
    (same : sameIdentity span entry.span = true) : parent spans span expected = .ok entry.span := by
  refine bind_ok.mpr ⟨some entry, got, bind_ok.mpr ⟨_, kind, ?_⟩⟩
  exact require_bind_ok.mpr ⟨by simp [trace], require_bind_ok.mpr ⟨same, rfl⟩⟩

/-- A text is equal to itself for Python. -/
theorem pyEq_of_text {value : Option Json} (text : isText value = true) :
    (value.getD .null).pyEq (value.getD .null) = true := by
  rcases value with _ | (_ | _ | _ | _ | text | _ | _)
  case some.str => exact beq_self_eq_true _
  all_goals cases text

theorem sameIdentity_of_texts (texts : identity.all (fun key => isText (span.attributes.get? key)) = true)
    (same : SameIdentity span above) : sameIdentity span above = true := by
  apply List.all_eq_true.mpr
  intro key member
  rw [← same key member]
  exact pyEq_of_text (List.all_eq_true.mp texts key member)

section Accept
variable (texts : identity.all (fun key => isText (span.attributes.get? key)) = true)
include texts

theorem accept_run (kind : role span = .ok (some .run)) (alone : span.parentRef.truthy = false)
    (supported : isOneOf (version span) supportedRunVersions = true) :
    ∃ value, querySpan spans reference span = .ok value := by
  have root : (!span.parentRef.truthy) = true := by rw [alone, Bool.not_false]
  apply bind_returns kind
  apply require_bind_returns texts
  apply require_bind_returns root
  exact require_bind_returns supported ⟨none, rfl⟩

variable (node : isText (span.attributes.get? "cord.node.name") = true)
include node

theorem accept_step (kind : role span = .ok (some .step))
    (outcome : isOneOf (span.attributes.get? "cord.outcome") (stepOutcomes.map StepOutcome.value) = true) {entry : Entry}
    (got : spans.get span.parentRef = .ok (some entry)) (trace : entry.span.traceId = span.traceId)
    (same : sameIdentity span entry.span = true)
    (higher : role entry.span = .ok (some .run) ∨ (role entry.span = .ok (some .step) ∧
      ∃ root, runRoot spans entry.span = .ok root ∧ isOneOf (version root) [semconvVersion] = true)) :
    ∃ value, querySpan spans reference span = .ok value := by
  have stepped : queryStep spans span = .ok () := by
    refine require_bind_ok.mpr ⟨outcome, bind_ok.mpr ⟨some entry, got, ?_⟩⟩
    rcases higher with run | ⟨step, root, walked, current⟩
    · exact bind_ok.mpr ⟨_, run, bind_ok.mpr ⟨_, parent_of_get got run trace same, rfl⟩⟩
    · refine bind_ok.mpr ⟨_, step, bind_ok.mpr ⟨_, parent_of_get got step trace same, ?_⟩⟩
      exact bind_ok.mpr ⟨root, walked, require_ok.mpr current⟩
  apply bind_returns kind
  apply require_bind_returns texts
  apply require_bind_returns node
  exact bind_returns stepped ⟨none, rfl⟩

theorem accept_attempt (kind : role span = .ok (some .attempt))
    (number : isPositive (span.attributes.get? "cord.step.attempt") = true)
    (outcome : isOneOf (span.attributes.get? "cord.outcome") (attemptOutcomes.map AttemptOutcome.value) = true)
    {entry : Entry} (got : spans.get span.parentRef = .ok (some entry)) (trace : entry.span.traceId = span.traceId)
    (same : sameIdentity span entry.span = true) (step : role entry.span = .ok (some .step))
    (walked : runRoot spans entry.span = .ok root) (current : isOneOf (version root) ["0.2.0"] = false)
    (tier : span.attributes.get? "cord.tier" = none ∨ isText (span.attributes.get? "cord.tier") = true)
    (named : span.attributes.get? "cord.node.name" = entry.span.attributes.get? "cord.node.name") :
    ∃ value, querySpan spans reference span = .ok value := by
  have matched : ((span.attributes.get? "cord.node.name").getD .null).pyEq
      ((entry.span.attributes.get? "cord.node.name").getD .null) = true := by
    rw [← named]
    exact pyEq_of_text node
  apply bind_returns kind
  apply require_bind_returns texts
  apply require_bind_returns node
  apply require_bind_returns number
  apply require_bind_returns outcome
  apply bind_returns (parent_of_get got step trace same)
  apply bind_returns walked
  split
  · rename_i needed
    have tiered : isText (span.attributes.get? "cord.tier") = true := by
      rcases tier with absent | text
      · rw [current, Span.has, absent] at needed
        cases needed
      · exact text
    exact require_bind_returns tiered (require_bind_returns matched ⟨_, rfl⟩)
  · exact require_bind_returns matched ⟨_, rfl⟩

end Accept

end

end Cordboard.Archive
