import Cordboard.Proof.Archive.FirstArrival

namespace Cordboard.Archive
open Data

/-- The second map has an equal span for each span of the first one. -/
structure Below (spans others : SpanMap) : Prop where
  equal : ∀ key entry, spans.entries.get? key = some entry →
    ∃ mate, others.entries.get? key = some mate ∧ entry.span.pyEq mate.span = true
  proper : ∀ key entry, spans.entries.get? key = some entry → entry.span.Proper
  valid : ∀ key entry, others.entries.get? key = some entry → entry.span.Proper

theorem below_empty : Below SpanMap.empty SpanMap.empty where
  equal _ _ found := by cases found
  proper _ _ found := by cases found
  valid _ _ found := by cases found

/-- A lookup in a map with one more span. -/
theorem get?_insert (spans : SpanMap) (entry : Entry) (named : entry.span.spanId ≠ "") (key : String) :
    (spans.insert entry named).entries.get? key =
      if key = entry.span.spanId then some entry else spans.entries.get? key :=
  Dict.get?_set _ _ _ _

section
variable {A : Type} {spans others upper : SpanMap} {location place : String}

/-- The smaller map takes a span that the larger map takes. -/
theorem Below.index {new : NamedSpan} (below : Below spans others) (proper : new.span.Proper)
    (done : index place others new = .ok upper) :
    ∃ next, Archive.index location spans new = .ok next ∧ Below next upper := by
  unfold Archive.index at done ⊢
  cases held : others.entries.get? new.span.spanId with
  | some mate =>
      rw [held] at done
      obtain ⟨same, later⟩ := require_bind_ok.mp done
      obtain rfl := Except.ok.inj later
      cases own : spans.entries.get? new.span.spanId with
      | some entry =>
          obtain ⟨partner, found, equal⟩ := below.equal _ entry own
          obtain rfl := Option.some.inj (held.symm.trans found)
          exact ⟨spans, require_bind_ok.mpr ⟨Span.pyEq_trans equal same, rfl⟩, below⟩
      | none =>
          refine ⟨_, rfl, ?_, ?_, below.valid⟩
          · intro key entry found
            rw [get?_insert] at found
            split at found
            · rename_i here
              obtain rfl := Option.some.inj found
              exact ⟨mate, here ▸ held, Span.pyEq_symm (below.valid _ _ held) proper same⟩
            · exact below.equal key entry found
          · intro key entry found
            rw [get?_insert] at found
            split at found
            · obtain rfl := Option.some.inj found
              exact proper
            · exact below.proper key entry found
  | none =>
      rw [held] at done
      obtain rfl := Except.ok.inj done
      have absent : spans.entries.get? new.span.spanId = none := by
        apply Option.eq_none_iff_forall_ne_some.mpr
        intro entry found
        obtain ⟨mate, present, _⟩ := below.equal _ entry found
        rw [held] at present
        cases present
      rw [absent]
      refine ⟨_, rfl, ?_, ?_, ?_⟩
      · intro key entry found
        rw [get?_insert] at found
        split at found
        · rename_i here
          obtain rfl := Option.some.inj found
          exact ⟨⟨new.span, place⟩, (get?_insert _ _ _ _).trans (if_pos here), Span.pyEq_refl proper⟩
        · rename_i apart
          obtain ⟨mate, present, equal⟩ := below.equal key entry found
          exact ⟨mate, by rw [get?_insert, if_neg apart, present], equal⟩
      · intro key entry found
        rw [get?_insert] at found
        split at found
        · obtain rfl := Option.some.inj found
          exact proper
        · exact below.proper key entry found
      · intro key entry found
        rw [get?_insert] at found
        split at found
        · obtain rfl := Option.some.inj found
          exact proper
        · exact below.valid key entry found

/-- A loop that keeps the smaller map below the larger one. -/
theorem below_fold {step other : SpanMap → A → Checked SpanMap} {items : List A}
    (each : ∀ item ∈ items, ∀ spans others upper, Below spans others → other others item = .ok upper →
      ∃ next, step spans item = .ok next ∧ Below next upper)
    (below : Below spans others) (done : items.foldlM other others = .ok upper) :
    ∃ next, items.foldlM step spans = .ok next ∧ Below next upper := by
  induction items generalizing spans others with
  | nil =>
      obtain rfl := Except.ok.inj done
      exact ⟨spans, rfl, below⟩
  | cons item rest ih =>
      obtain ⟨own, later⟩ := List.forall_mem_cons.mp each
      rw [List.foldlM_cons] at done
      obtain ⟨middle, first, second⟩ := bind_ok.mp done
      obtain ⟨next, taken, kept⟩ := own spans others middle below first
      obtain ⟨final, ended, last⟩ := ih later kept second
      exact ⟨final, by rw [List.foldlM_cons]; exact bind_ok.mpr ⟨next, taken, ended⟩, last⟩

theorem Below.readSpan {value : Json} (below : Below spans others) (proper : value.proper = true)
    (done : readSpan place others value = .ok upper) :
    ∃ next, Archive.readSpan location spans value = .ok next ∧ Below next upper := by
  obtain ⟨new, normal, later⟩ := bind_ok.mp done
  obtain ⟨next, taken, kept⟩ := below.index (normalize_proper proper normal) later
  exact ⟨next, bind_ok.mpr ⟨new, normal, taken⟩, kept⟩

theorem Below.readScope {scope : Json} (below : Below spans others) (proper : scope.proper = true)
    (done : readScope place others scope = .ok upper) :
    ∃ next, Archive.readScope location spans scope = .ok next ∧ Below next upper := by
  obtain ⟨value, found, later⟩ := bind_ok.mp done
  obtain ⟨values, visited, later⟩ := bind_ok.mp later
  have valid := iterate_proper (member_proper proper found) visited
  obtain ⟨next, taken, kept⟩ := below_fold
    (fun item member _ _ _ below done => below.readSpan (valid item member) done) below later
  exact ⟨next, bind_ok.mpr ⟨value, found, bind_ok.mpr ⟨values, visited, taken⟩⟩, kept⟩

theorem Below.readResource {resource : Json} (below : Below spans others) (proper : resource.proper = true)
    (done : readResource place others resource = .ok upper) :
    ∃ next, Archive.readResource location spans resource = .ok next ∧ Below next upper := by
  obtain ⟨value, found, later⟩ := bind_ok.mp done
  obtain ⟨scopes, visited, later⟩ := bind_ok.mp later
  have valid := iterate_proper (member_proper proper found) visited
  obtain ⟨next, taken, kept⟩ := below_fold
    (fun item member _ _ _ below done => below.readScope (valid item member) done) below later
  exact ⟨next, bind_ok.mpr ⟨value, found, bind_ok.mpr ⟨scopes, visited, taken⟩⟩, kept⟩

theorem Below.readRecord {record : Json} (below : Below spans others) (proper : record.proper = true)
    (done : readRecord place others record = .ok upper) :
    ∃ next, Archive.readRecord location spans record = .ok next ∧ Below next upper := by
  obtain ⟨value, found, later⟩ := bind_ok.mp done
  have own := member_proper proper found
  cases value with
  | arr resources =>
      have valid := iterate_proper own (rfl : iterate (.arr resources) = .ok resources)
      obtain ⟨next, taken, kept⟩ := below_fold
        (fun item member _ _ _ below done => below.readResource (valid item member) done) below later
      exact ⟨next, bind_ok.mpr ⟨.arr resources, found, taken⟩, kept⟩
  | null => cases later
  | bool _ => cases later
  | int _ => cases later
  | float _ => cases later
  | str _ => cases later
  | obj _ => cases later

/-- The second map still has each entry of the first one. -/
def Extends (spans next : SpanMap) : Prop :=
  ∀ key entry, spans.entries.get? key = some entry → next.entries.get? key = some entry

theorem extends_fold {step : SpanMap → A → Checked SpanMap} {items : List A}
    (each : ∀ item spans next, step spans item = .ok next → Extends spans next)
    (done : items.foldlM step spans = .ok upper) : Extends spans upper := by
  induction items generalizing spans with
  | nil =>
      obtain rfl := Except.ok.inj done
      exact fun _ _ found => found
  | cons item rest ih =>
      rw [List.foldlM_cons] at done
      obtain ⟨middle, first, second⟩ := bind_ok.mp done
      exact fun key entry found => ih second key entry (each item spans middle first key entry found)

theorem extends_scope (scope : Json) (spans next : SpanMap) (done : readScope place spans scope = .ok next) :
    Extends spans next := by
  obtain ⟨value, _, later⟩ := bind_ok.mp done
  obtain ⟨values, _, later⟩ := bind_ok.mp later
  exact extends_fold (fun _ _ _ read _ _ found => readSpan_keeps found read) later

theorem extends_resource (resource : Json) (spans next : SpanMap) (done : readResource place spans resource = .ok next) :
    Extends spans next := by
  obtain ⟨value, _, later⟩ := bind_ok.mp done
  obtain ⟨scopes, _, later⟩ := bind_ok.mp later
  exact extends_fold extends_scope later

/-- A record keeps the entries that came before it. -/
theorem extends_record {record : Json} (done : readRecord place spans record = .ok upper) : Extends spans upper := by
  obtain ⟨value, _, later⟩ := bind_ok.mp done
  cases value with
  | arr resources => exact extends_fold extends_resource later
  | null => cases later
  | bool _ => cases later
  | int _ => cases later
  | float _ => cases later
  | str _ => cases later
  | obj _ => cases later

/-- The smaller map stays below when only the larger one takes a record. -/
theorem Below.skip {record : Json} (below : Below spans others) (proper : record.proper = true)
    (done : Archive.readRecord place others record = .ok upper) : Below spans upper := by
  obtain ⟨next, taken, kept⟩ := @Below.readRecord spans others upper place place record below proper done
  exact ⟨fun key entry found => kept.equal key entry (extends_record taken key entry found), below.proper, kept.valid⟩

end

end Cordboard.Archive
