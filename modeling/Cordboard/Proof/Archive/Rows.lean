import Cordboard.Proof.Archive.Twins
import Mathlib.Data.String.Basic

namespace Cordboard.Archive
open Data

theorem Row.before_iff {first second : Row} : Row.before first second = true ↔
    second.count < first.count ∨ (first.count = second.count ∧
      (first.graph < second.graph ∨ (first.graph = second.graph ∧ first.node ≤ second.node))) := by
  simp only [Row.before, decide_eq_true_eq, gt_iff_lt]

theorem Row.before_total (first second : Row) : (Row.before first second || Row.before second first) = true := by
  rw [Bool.or_eq_true, Row.before_iff, Row.before_iff]
  rcases lt_trichotomy first.count second.count with less | equal | more
  · exact .inr (.inl less)
  · rcases lt_trichotomy first.graph second.graph with before | same | after
    · exact .inl (.inr ⟨equal, .inl before⟩)
    · rcases le_total first.node second.node with low | high
      · exact .inl (.inr ⟨equal, .inr ⟨same, low⟩⟩)
      · exact .inr (.inr ⟨equal.symm, .inr ⟨same.symm, high⟩⟩)
    · exact .inr (.inr ⟨equal.symm, .inl after⟩)
  · exact .inl (.inl more)

theorem Row.before_trans (first second third : Row) (one : Row.before first second = true)
    (two : Row.before second third = true) : Row.before first third = true := by
  rw [Row.before_iff] at one two ⊢
  rcases one with more | ⟨equal, order⟩
  · rcases two with further | ⟨same, _⟩
    · exact .inl (further.trans more)
    · exact .inl (same ▸ more)
  · rcases two with further | ⟨same, next⟩
    · exact .inl (equal ▸ further)
    · refine .inr ⟨equal.trans same, ?_⟩
      rcases order with before | ⟨graph, node⟩
      · rcases next with later | ⟨graph, _⟩
        · exact .inl (before.trans later)
        · exact .inl (graph ▸ before)
      · rcases next with later | ⟨again, more⟩
        · exact .inl (graph ▸ later)
        · exact .inr ⟨graph.trans again, node.trans more⟩

theorem Row.before_antisymm {first second : Row} (one : Row.before first second = true)
    (two : Row.before second first = true) : first = second := by
  rw [Row.before_iff] at one two
  have equal : first.count = second.count := by
    rcases one with more | ⟨equal, _⟩
    · rcases two with less | ⟨equal, _⟩
      · exact absurd more (Nat.lt_asymm less)
      · exact equal.symm
    · exact equal
  have orders : ∀ {low high : Row}, (high.count < low.count ∨ (low.count = high.count ∧
      (low.graph < high.graph ∨ (low.graph = high.graph ∧ low.node ≤ high.node)))) → low.count = high.count →
      low.graph < high.graph ∨ (low.graph = high.graph ∧ low.node ≤ high.node) := by
    rintro low high (more | ⟨_, order⟩) same
    · omega
    · exact order
  rcases orders one equal with before | ⟨graph, node⟩
  · rcases orders two equal.symm with after | ⟨same, _⟩
    · exact absurd before (lt_asymm after)
    · exact absurd same.symm before.ne
  · rcases orders two equal.symm with after | ⟨_, other⟩
    · exact absurd graph.symm after.ne
    · have same := le_antisymm node other
      cases first
      cases second
      rw [Row.mk.injEq]
      exact ⟨graph, same, equal⟩

/-- The rows do not depend on the order in which they come. -/
theorem sorted_rows {first second : List Row} (perm : first.Perm second) :
    first.mergeSort Row.before = second.mergeSort Row.before := by
  have same : (first.mergeSort Row.before).Perm (second.mergeSort Row.before) :=
    ((List.mergeSort_perm first _).trans perm).trans (List.mergeSort_perm second _).symm
  refine same.eq_of_pairwise (fun one two _ _ => Row.before_antisymm) ?_ ?_
  · exact List.pairwise_mergeSort Row.before_trans Row.before_total first
  · exact List.pairwise_mergeSort Row.before_trans Row.before_total second

/-- The key that a span adds to the counts. -/
def escalation (spans : SpanMap) (reference : Int) (span : Span) : Option (String × String) :=
  (querySpan spans reference span).toOption.join

section
variable {spans others : SpanMap} {reference : Int}

theorem tally_counts {entries : List Entry} {counts result : Dict (String × String) Nat}
    (done : tally spans reference entries counts = .ok result) :
    result = (entries.filterMap fun entry => escalation spans reference entry.span).foldl count counts := by
  induction entries generalizing counts with
  | nil => exact (Except.ok.inj done).symm
  | cons entry rest ih =>
      obtain ⟨value, checked, later⟩ := bind_ok.mp done
      have own : escalation spans reference entry.span = value := by
        rw [escalation, at_ok.mp checked]
        rfl
      cases value with
      | none => simpa only [List.filterMap_cons, own] using ih later
      | some key => simpa only [List.filterMap_cons, own, List.foldl_cons] using ih later

/-- A fold of the counter adds up the occurrences of each key. -/
theorem fold_count (keys : List (String × String)) (counts : Dict (String × String) Nat) (key : String × String) :
    (keys.foldl count counts).get? key =
      if key ∈ keys then some ((counts.get? key).getD 0 + keys.count key) else counts.get? key := by
  induction keys generalizing counts with
  | nil => rfl
  | cons first rest ih =>
      rw [List.foldl_cons, ih, count, Dict.get?_set]
      by_cases same : key = first
      · subst first
        by_cases inside : key ∈ rest
        · simp [inside, Nat.add_assoc, Nat.add_comm 1]
        · simp [inside, List.count_eq_zero_of_not_mem inside]
      · by_cases inside : key ∈ rest <;> simp [inside, same, Ne.symm same]

/-- Keys in another order give the same counts. -/
theorem fold_perm {first second : List (String × String)} (perm : first.Perm second) (key : String × String) :
    (first.foldl count Dict.empty).get? key = (second.foldl count Dict.empty).get? key := by
  simp only [fold_count, perm.count_eq, perm.mem_iff]

/-- The escalations of a map follow from its identifiers. -/
theorem escalations_keys : (spans.values.filterMap fun entry => escalation spans reference entry.span) =
    spans.entries.keys.filterMap fun key =>
      (spans.entries.get? key).bind fun entry => escalation spans reference entry.span := by
  rw [SpanMap.values, Dict.keys, List.filterMap_map, List.filterMap_map]
  apply List.filterMap_congr
  intro item member
  have found := (Dict.get?_eq_some_iff spans.entries item.1 item.2).mpr member
  simp [found]

theorem escalations_perm (twin : Twin spans others) :
    (spans.values.filterMap fun entry => escalation spans reference entry.span).Perm
      (others.values.filterMap fun entry => escalation others reference entry.span) := by
  rw [escalations_keys, escalations_keys]
  have same : (fun key => (spans.entries.get? key).bind fun entry => escalation spans reference entry.span) =
      fun key => (others.entries.get? key).bind fun entry => escalation others reference entry.span := by
    funext key
    have rel := twin key
    generalize spans.entries.get? key = one at rel ⊢
    generalize others.entries.get? key = two at rel ⊢
    cases rel with
    | none => rfl
    | some alike => simp only [Option.bind_some, escalation, querySpan_congr twin alike]
  rw [same]
  exact twin.keys.filterMap _

/-- Twins are accepted together. -/
theorem accepted_twin (twin : Twin spans others) (accepted : Accepted spans reference) : Accepted others reference := by
  intro entry member
  obtain ⟨key, found⟩ := mem_values.mp member
  have rel := twin key
  rw [found] at rel
  generalize held : spans.entries.get? key = other at rel
  cases rel with
  | some alike =>
      obtain ⟨value, checked⟩ := accepted _ (mem_values.mpr ⟨key, held⟩)
      exact ⟨value, (querySpan_congr twin alike).symm.trans checked⟩

/-- Two accepted maps with the same escalations have the same rows. -/
theorem rows_perm (perm : (spans.values.filterMap fun entry => escalation spans reference entry.span).Perm
      (others.values.filterMap fun entry => escalation others reference entry.span)) {top : Int} {rows found : List Row}
    (done : querySpans spans reference top = .ok rows) (read : querySpans others reference top = .ok found) :
    rows = found := by
  obtain ⟨_, later⟩ := require_bind_ok.mp done
  obtain ⟨counts, tallied, sorted⟩ := bind_ok.mp later
  obtain ⟨_, next⟩ := require_bind_ok.mp read
  obtain ⟨table, totals, arranged⟩ := bind_ok.mp next
  rw [← Except.ok.inj sorted, ← Except.ok.inj arranged]
  have same : ∀ key, counts.get? key = table.get? key := by
    rw [tally_counts tallied, tally_counts totals]
    exact fold_perm perm
  have items : counts.items.Perm table.items := Dict.items_perm same
  rw [sorted_rows (items.map _)]

/-- Twins that are accepted have the same rows. -/
theorem rows_twin (twin : Twin spans others) {top : Int} {rows : List Row}
    (done : querySpans spans reference top = .ok rows) : querySpans others reference top = .ok rows := by
  obtain ⟨positive, accepted⟩ := querySpans_ok.mp ⟨rows, done⟩
  obtain ⟨more, read⟩ := querySpans_ok.mpr ⟨positive, accepted_twin twin accepted⟩
  rw [read, rows_perm (escalations_perm twin) done read]

end

end Cordboard.Archive
