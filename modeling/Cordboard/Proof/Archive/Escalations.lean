import Cordboard.Proof.Archive.Rows
import Cordboard.Proof.Archive.Acceptance
import Mathlib.Data.Finset.Card
import Mathlib.Data.Finset.Dedup
import Mathlib.Algebra.Ring.Nat

namespace Cordboard.Archive
open Data

/-- The span is an Attempt of the Graph and the Node that was escalated after `low` and not after `high`. -/
def Span.escalated (span : Span) (low high : Int) (graph node : String) : Bool :=
  role span = .ok (some .attempt) ∧ isOneOf (span.attributes.get? "cord.outcome") [AttemptOutcome.escalated.value] ∧
    isOneOf (span.attributes.get? "cord.graph.id") [graph] ∧ isOneOf (span.attributes.get? "cord.node.name") [node] ∧
    low < span.endTimeUnixNano ∧ (span.endTimeUnixNano : Int) ≤ high

/-- The identifiers of these Attempts in the map. -/
def escalated (spans : SpanMap) (low high : Int) (graph node : String) : Finset String :=
  spans.entries.keys.toFinset.filter fun key =>
    (spans.entries.get? key).any fun entry => entry.span.escalated low high graph node

/-- One row stands above another one by its count, then by its Graph, then by its Node. -/
def Row.above (first second : Row) : Prop :=
  second.count < first.count ∨ (first.count = second.count ∧
    (first.graph < second.graph ∨ (first.graph = second.graph ∧ first.node < second.node)))

/-- A ranking has one row for each group with an Attempt inside the window. -/
structure Ranking (spans : SpanMap) (low high : Int) (rows : List Row) : Prop where
  counts : ∀ row, row ∈ rows ↔
    0 < row.count ∧ row.count = (escalated spans low high row.graph row.node).card
  sorted : rows.Pairwise Row.above

/-- The count of one group in the rows. -/
def total (rows : List Row) (graph node : String) : Nat :=
  ((rows.filter fun row => row.graph = graph ∧ row.node = node).map Row.count).sum

section
variable {spans : SpanMap} {reference low middle high : Int} {span : Span} {graph node : String}

theorem isOneOf_single {value : Option Json} {text : String} :
    isOneOf value [text] = true ↔ value = some (.str text) := by
  rcases value with _ | (_ | _ | _ | _ | own | _ | _)
  case some.str => simp [isOneOf]
  all_goals simp [isOneOf]

theorem escalationKey_some : escalationKey span = some (graph, node) ↔
    isOneOf (span.attributes.get? "cord.graph.id") [graph] = true ∧
      isOneOf (span.attributes.get? "cord.node.name") [node] = true := by
  rw [isOneOf_single, isOneOf_single, escalationKey]
  split
  · rename_i own other one two
    simp [one, two]
  · rename_i neither
    constructor
    · intro same
      cases same
    · rintro ⟨one, two⟩
      exact absurd two (neither graph node one)

theorem escalated_iff : span.escalated low high graph node = true ↔
    role span = .ok (some .attempt) ∧ isOneOf (span.attributes.get? "cord.outcome") [AttemptOutcome.escalated.value] ∧
      escalationKey span = some (graph, node) ∧ low < span.endTimeUnixNano ∧ (span.endTimeUnixNano : Int) ≤ high := by
  rw [escalationKey_some, Span.escalated, decide_eq_true_eq, and_assoc]

/-- A check of an Attempt returns its group when it was escalated inside the window. -/
theorem queryAttempt_value {value : Option (String × String)} (checked : queryAttempt spans reference span = .ok value) :
    value = if isOneOf (span.attributes.get? "cord.outcome") [AttemptOutcome.escalated.value] ∧
      reference - windowNs < span.endTimeUnixNano ∧ (span.endTimeUnixNano : Int) ≤ reference then
        escalationKey span else none := by
  obtain ⟨_, later⟩ := require_bind_ok.mp checked
  obtain ⟨_, later⟩ := require_bind_ok.mp later
  obtain ⟨step, _, later⟩ := bind_ok.mp later
  obtain ⟨root, _, later⟩ := bind_ok.mp later
  split at later
  · obtain ⟨_, later⟩ := require_bind_ok.mp later
    obtain ⟨_, ended⟩ := require_bind_ok.mp later
    exact (Except.ok.inj ended).symm
  · obtain ⟨_, ended⟩ := require_bind_ok.mp later
    exact (Except.ok.inj ended).symm

/-- A span that passes counts for one group exactly when it is an escalated Attempt of the group. -/
theorem querySpan_value {value : Option (String × String)} (checked : querySpan spans reference span = .ok value) :
    value = some (graph, node) ↔ span.escalated (reference - windowNs) reference graph node = true := by
  rw [escalated_iff]
  obtain ⟨kind, known, later⟩ := bind_ok.mp checked
  rw [known]
  cases kind with
  | none =>
      obtain rfl := Except.ok.inj later
      simp
  | some kind =>
      obtain ⟨_, later⟩ := require_bind_ok.mp later
      cases kind with
      | run =>
          obtain ⟨_, later⟩ := require_bind_ok.mp later
          obtain ⟨_, later⟩ := require_bind_ok.mp later
          obtain rfl := Except.ok.inj later
          simp
      | step =>
          obtain ⟨_, later⟩ := require_bind_ok.mp later
          obtain ⟨_, _, later⟩ := bind_ok.mp later
          obtain rfl := Except.ok.inj later
          simp
      | attempt =>
          obtain ⟨_, later⟩ := require_bind_ok.mp later
          rw [queryAttempt_value later]
          split
          · rename_i inside
            simp [inside]
          · rename_i outside
            simp only [reduceCtorEq, false_iff]
            rintro ⟨_, outcome, _, after, before⟩
            exact outside ⟨outcome, after, before⟩

/-- The occurrences of a group in the loop are the Attempts of the group inside the window. -/
theorem count_escalations (accepted : Accepted spans reference) :
    (spans.values.filterMap fun entry => escalation spans reference entry.span).count (graph, node) =
      (escalated spans (reference - windowNs) reference graph node).card := by
  have distinct : spans.entries.keys.Nodup := spans.entries.distinct
  rw [escalations_keys, List.count_filterMap, List.countP_eq_length_filter, escalated, ← List.toFinset_filter,
    List.toFinset_card_of_nodup (distinct.filter _)]
  congr 1
  apply List.filter_congr
  intro key member
  cases found : spans.entries.get? key with
  | none => rfl
  | some entry =>
      obtain ⟨value, checked⟩ := accepted entry (mem_values.mpr ⟨key, found⟩)
      have own : escalation spans reference entry.span = value := by
        rw [escalation, checked]
        rfl
      rw [Option.bind_some, own, Option.any_some, Bool.eq_iff_iff, beq_iff_eq]
      exact querySpan_value checked

theorem above_of_before {first second : Row} (before : Row.before first second = true)
    (different : (first.graph, first.node) ≠ (second.graph, second.node)) : Row.above first second := by
  rcases Row.before_iff.mp before with more | ⟨equal, order⟩
  · exact .inl more
  · rcases order with less | ⟨same, low⟩
    · exact .inr ⟨equal, .inl less⟩
    · have apart : first.node ≠ second.node := fun node => different (by rw [same, node])
      exact .inr ⟨equal, .inr ⟨same, lt_of_le_of_ne low apart⟩⟩

/-- An accepted map has one ranking, and each limit takes its first rows. -/
theorem ranking_of_accepted (accepted : Accepted spans reference) :
    ∃ rows, Ranking spans (reference - windowNs) reference rows ∧
      ∀ top : Int, 0 < top → querySpans spans reference top = .ok (rows.take top.toNat) := by
  obtain ⟨counts, tallied⟩ := (@tally_ok spans reference _ Dict.empty).mpr accepted
  have found : ∀ graph node number, counts.get? (graph, node) = some number ↔
      0 < number ∧ number = (escalated spans (reference - windowNs) reference graph node).card := by
    intro graph node number
    have counted := @count_escalations spans reference graph node accepted
    rw [tally_counts tallied, fold_count, Dict.get?_empty]
    split
    · rename_i inside
      have positive := List.count_pos_iff.mpr inside
      simp only [Option.getD_none, Nat.zero_add, Option.some.injEq]
      omega
    · rename_i outside
      have absent := List.count_eq_zero_of_not_mem outside
      simp only [reduceCtorEq, false_iff]
      omega
  let rows := counts.items.map fun item => (⟨item.1.1, item.1.2, item.2⟩ : Row)
  have perm : (rows.mergeSort Row.before).Perm rows := List.mergeSort_perm rows _
  have distinct : rows.Pairwise fun first second => (first.graph, first.node) ≠ (second.graph, second.node) := by
    rw [List.pairwise_map]
    exact List.pairwise_map.mp counts.distinct
  refine ⟨rows.mergeSort Row.before, ⟨?_, ?_⟩, ?_⟩
  · intro row
    rw [perm.mem_iff, ← found, Dict.get?_eq_some_iff]
    constructor
    · intro member
      obtain ⟨item, inside, rfl⟩ := List.mem_map.mp member
      exact inside
    · exact fun inside => List.mem_map.mpr ⟨_, inside, rfl⟩
  · have apart : (rows.mergeSort Row.before).Pairwise fun first second =>
        (first.graph, first.node) ≠ (second.graph, second.node) :=
      (perm.pairwise_iff fun different => different.symm).mpr distinct
    have sorted := List.pairwise_mergeSort Row.before_trans Row.before_total rows
    exact sorted.imp₂ (fun first second before different => above_of_before before different) apart
  · intro top positive
    exact require_bind_ok.mpr ⟨decide_eq_true positive, bind_ok.mpr ⟨counts, tallied, rfl⟩⟩

theorem above_apart {first second : Row} (above : Row.above first second) : first ≠ second := by
  rintro rfl
  rcases above with more | ⟨_, less | ⟨_, less⟩⟩
  · exact absurd more (lt_irrefl _)
  · exact absurd less (lt_irrefl _)
  · exact absurd less (lt_irrefl _)

/-- The rows of a ranking count each group. -/
theorem Ranking.total {rows : List Row} (ranking : Ranking spans low high rows) :
    Archive.total rows graph node = (escalated spans low high graph node).card := by
  have once : rows.Nodup := ranking.sorted.imp above_apart
  have members : ∀ row, row ∈ rows.filter (fun row => row.graph = graph ∧ row.node = node) ↔
      row ∈ rows ∧ row.graph = graph ∧ row.node = node := by simp
  by_cases absent : (escalated spans low high graph node).card = 0
  · have empty : rows.filter (fun row => row.graph = graph ∧ row.node = node) = [] := by
      apply List.eq_nil_iff_forall_not_mem.mpr
      intro row member
      obtain ⟨inside, rfl, rfl⟩ := (members row).mp member
      have positive := (ranking.counts row).mp inside
      omega
    rw [Archive.total, empty, absent]
    rfl
  · have single : rows.filter (fun row => row.graph = graph ∧ row.node = node) =
        [⟨graph, node, (escalated spans low high graph node).card⟩] := by
      apply List.perm_singleton.mp
      apply (List.perm_ext_iff_of_nodup (once.filter _) (List.nodup_singleton _)).mpr
      intro row
      rw [members, ranking.counts, List.mem_singleton]
      constructor
      · rintro ⟨⟨_, number⟩, rfl, rfl⟩
        rw [← number]
      · rintro rfl
        exact ⟨⟨Nat.pos_of_ne_zero absent, rfl⟩, rfl, rfl⟩
    rw [Archive.total, single]
    rfl

theorem mem_escalated {key : String} : key ∈ escalated spans low high graph node ↔
    ∃ entry, spans.entries.get? key = some entry ∧ entry.span.escalated low high graph node = true := by
  rw [escalated, Finset.mem_filter, List.mem_toFinset, Option.any_eq_true]
  constructor
  · rintro ⟨_, entry, found, inside⟩
    exact ⟨entry, found, inside⟩
  · rintro ⟨entry, found, inside⟩
    exact ⟨Dict.mem_keys_of_get? found, entry, found, inside⟩

/-- Two windows that meet share no Attempt. -/
theorem escalated_disjoint :
    Disjoint (escalated spans low middle graph node) (escalated spans middle high graph node) := by
  apply Finset.disjoint_left.mpr
  intro key first second
  obtain ⟨entry, found, early⟩ := mem_escalated.mp first
  obtain ⟨other, got, late⟩ := mem_escalated.mp second
  obtain rfl := Option.some.inj (found.symm.trans got)
  have before := (escalated_iff.mp early).2.2.2.2
  have after := (escalated_iff.mp late).2.2.2.1
  omega

/-- Two windows that meet miss no Attempt. -/
theorem escalated_union (first : low ≤ middle) (second : middle ≤ high) :
    escalated spans low middle graph node ∪ escalated spans middle high graph node =
      escalated spans low high graph node := by
  ext key
  rw [Finset.mem_union, mem_escalated, mem_escalated, mem_escalated]
  constructor
  · rintro (⟨entry, found, inside⟩ | ⟨entry, found, inside⟩)
    · obtain ⟨kind, outcome, group, after, before⟩ := escalated_iff.mp inside
      exact ⟨entry, found, escalated_iff.mpr ⟨kind, outcome, group, after, before.trans second⟩⟩
    · obtain ⟨kind, outcome, group, after, before⟩ := escalated_iff.mp inside
      exact ⟨entry, found, escalated_iff.mpr ⟨kind, outcome, group, lt_of_le_of_lt first after, before⟩⟩
  · rintro ⟨entry, found, inside⟩
    obtain ⟨kind, outcome, group, after, before⟩ := escalated_iff.mp inside
    rcases le_or_gt (entry.span.endTimeUnixNano : Int) middle with early | late
    · exact .inl ⟨entry, found, escalated_iff.mpr ⟨kind, outcome, group, after, early⟩⟩
    · exact .inr ⟨entry, found, escalated_iff.mpr ⟨kind, outcome, group, late, before⟩⟩

end

/-- The query returns the first rows of the ranking, and the counts of two adjacent windows add up. -/
theorem escalation_report (spans : SpanMap) (reference top : Int) (rows : List Row)
    (done : querySpans spans reference top = .ok rows) :
    ∃ all later : List Row, rows = all.take top.toNat ∧
      Ranking spans (reference - windowNs) reference all ∧
      Ranking spans reference (reference + windowNs) later ∧
      (∀ limit : Int, 0 < limit → querySpans spans reference limit = .ok (all.take limit.toNat) ∧
        querySpans spans (reference + windowNs) limit = .ok (later.take limit.toNat)) ∧
      ∀ graph node,
        Disjoint (escalated spans (reference - windowNs) reference graph node)
          (escalated spans reference (reference + windowNs) graph node) ∧
        escalated spans (reference - windowNs) reference graph node ∪
          escalated spans reference (reference + windowNs) graph node =
            escalated spans (reference - windowNs) (reference + windowNs) graph node ∧
        total all graph node + total later graph node =
          (escalated spans (reference - windowNs) (reference + windowNs) graph node).card := by
  obtain ⟨positive, accepted⟩ := querySpans_ok.mp ⟨rows, done⟩
  obtain ⟨all, first, early⟩ := ranking_of_accepted accepted
  obtain ⟨later, second, late⟩ := ranking_of_accepted (@Accepted.at _ _ (reference + windowNs) accepted)
  rw [Int.add_sub_cancel] at second
  have span : (0 : Int) ≤ windowNs := by decide
  refine ⟨all, later, ?_, first, second, fun limit above => ⟨early limit above, late limit above⟩, ?_⟩
  · exact Except.ok.inj (done.symm.trans (early top positive))
  · intro graph node
    have apart := @escalated_disjoint spans (reference - windowNs) reference (reference + windowNs) graph node
    have whole := @escalated_union spans (reference - windowNs) reference (reference + windowNs) graph node
      (by omega) (by omega)
    refine ⟨apart, whole, ?_⟩
    rw [first.total, second.total, ← Finset.card_union_of_disjoint apart, whole]

/-- An Attempt that ends at the end of the window was escalated inside it. -/
def escalatedSpan (id : String) (end_ : Nat) : Span := ⟨id, "t", some (.str "02"), some (.str "attempt"),
  identified [("cord.node.name", .str "a"), ("cord.outcome", .str "escalated"), ("cord.step.attempt", .int 1)], 2, end_, []⟩

/-- Three Attempts end at both ends of one window and after it. -/
def escalatedArchive : SpanMap :=
  [runSpan, stepSpan, escalatedSpan "03" 7, escalatedSpan "04" (7 + 56 * 86400 * 1000000000),
    escalatedSpan "05" (8 + 56 * 86400 * 1000000000)].foldl insertSpan SpanMap.empty

theorem escalation_report_boundary :
    querySpans escalatedArchive 7 10 = .ok [⟨"x", "a", 1⟩] ∧
    querySpans escalatedArchive (7 + windowNs) 10 = .ok [⟨"x", "a", 1⟩] ∧
    ∃ all later : List Row, [⟨"x", "a", 1⟩] = all.take 10 ∧
      total all "x" "a" + total later "x" "a" = (escalated escalatedArchive (7 - windowNs) (7 + windowNs) "x" "a").card := by
  have done : querySpans escalatedArchive 7 10 = .ok [⟨"x", "a", 1⟩] := by decide +kernel
  obtain ⟨all, later, rows, _, _, _, add⟩ := escalation_report escalatedArchive 7 10 _ done
  exact ⟨done, by decide +kernel, all, later, rows, (add "x" "a").2.2⟩

end Cordboard.Archive
