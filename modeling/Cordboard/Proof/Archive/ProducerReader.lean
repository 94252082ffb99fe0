import Cordboard.Proof.Archive.Emission

namespace Cordboard.Execution
open Data Archive

section
variable {E : Type} {platform : Platform} {state : State E} {spans : SpanMap}

/-- The record that an exporter writes for an ended span. -/
def exportSpan (span : Opened E) (closing : Closing) : Span where
  spanId := hexText 16 span.context.spanId
  traceId := hexText 32 span.context.traceId
  parentSpanId := span.parent.map fun above => .str (hexText 16 above)
  name := some (.str span.name)
  attributes := match closing.outcome with
    | some outcome => span.attributes.set "cord.outcome" (.str outcome)
    | none => span.attributes
  startTimeUnixNano := span.start
  endTimeUnixNano := closing.time
  others := []

theorem exportSpan_preserves (span : Opened E) (closing : Closing) :
    Preserves span closing (exportSpan span closing) where
  spanId := rfl
  traceId := rfl
  parent := by
    rcases parent : span.parent with _ | above
    · simp [exportSpan, Span.parentRef, parent, Json.truthy]
    · simp [exportSpan, Span.parentRef, parent]
  name := rfl
  attributes := rfl
  start := rfl
  finish := rfl

theorem hexText_named (number : Int) : hexText 16 number ≠ "" := by
  intro same
  have letters : hexDigits 16 number.toNat = [] := String.ofList_injective same
  have size := congrArg List.length letters
  simp [hexDigits] at size

/-- The archive of these spans, as far as they have ended. -/
def archiveOf (closed : Dict Int Closing) : List (Opened E) → SpanMap
  | [] => SpanMap.empty
  | span :: older =>
      match closed.get? span.context.spanId with
      | some closing =>
          (archiveOf closed older).insert ⟨exportSpan span closing, "file 1, line 1"⟩ (hexText_named span.context.spanId)
      | none => archiveOf closed older

theorem archiveOf_holds {table : Dict Int Closing} {opened : List (Opened E)}
    (valid : ∀ span ∈ opened, span.context.valid = true)
    (distinct : opened.Pairwise fun newer older => newer.context.spanId ≠ older.context.spanId) (exported : Span) :
    (archiveOf table opened).holds exported ↔
      ∃ span ∈ opened, ∃ closing, table.get? span.context.spanId = some closing ∧ exported = exportSpan span closing := by
  induction opened with
  | nil =>
      constructor
      · rintro ⟨entry, member, _⟩
        cases member
      · rintro ⟨span, member, _⟩
        cases member
  | cons span older ih =>
      obtain ⟨own, others⟩ := List.forall_mem_cons.mp valid
      obtain ⟨apart, rest⟩ := List.pairwise_cons.mp distinct
      have before := ih others rest
      have ids : ∀ other ∈ older, hexText 16 other.context.spanId ≠ hexText 16 span.context.spanId := by
        intro other member same
        have equal := spanText_inj (SpanContext.bounds (others other member)) (SpanContext.bounds own) same
        exact apart other member equal.symm
      rw [archiveOf]
      cases closed : table.get? span.context.spanId with
      | none => simp [before, closed]
      | some closing =>
          refine (@holds_insert (archiveOf table older) ⟨exportSpan span closing, "file 1, line 1"⟩
            (hexText_named span.context.spanId) exported).trans ?_
          simp only [before, List.exists_mem_cons_iff, closed, Option.some.injEq, exists_eq_left']
          constructor
          · rintro (same | ⟨_, found⟩)
            · exact .inl same
            · exact .inr found
          · rintro (same | ⟨other, member, found⟩)
            · exact .inl same
            · refine .inr ⟨?_, other, member, found⟩
              obtain ⟨_, _, rfl⟩ := found
              exact ids other member

/-- The producer can export its spans to one archive once all have ended. -/
theorem archiveOf_exports (inv : Inv platform state)
    (ended : ∀ span ∈ state.opened, (state.closed.get? span.context.spanId).isSome = true) :
    Exports state (archiveOf state.closed state.opened) where
  all span member := by
    obtain ⟨closing, closed⟩ := Option.isSome_iff_exists.mp (ended span member)
    refine ⟨closing, exportSpan span closing, closed, ?_, exportSpan_preserves span closing⟩
    exact (archiveOf_holds inv.valid inv.distinct _).mpr ⟨span, member, closing, closed, rfl⟩
  only exported held := by
    obtain ⟨span, member, closing, closed, rfl⟩ := (archiveOf_holds inv.valid inv.distinct _).mp held
    exact ⟨span, member, closing, closed, exportSpan_preserves span closing⟩

instance (state : State E) (spanId : Int) : Decidable (state.Mentions spanId) := inferInstanceAs (Decidable (_ ∨ _))

/-- This plays the calls, the last one first in the list. -/
def play (platform : Platform) : List (Supply × Call E) → Option (List (State E × Call E) × State E)
  | [] => some ([], .empty)
  | (supply, call) :: earlier =>
      (play platform earlier).bind fun result =>
        if supply.context.valid = true ∧ blank supply.uuid = false ∧ ¬ result.2.Mentions supply.context.spanId then
          (perform platform supply result.2 call).toOption.map fun next => ((result.2, call) :: result.1, next)
        else none

theorem play_produced {calls : List (Supply × Call E)} {past : List (State E × Call E)}
    (played : play platform calls = some (past, state)) : Produced platform past state := by
  induction calls generalizing past state with
  | nil =>
      obtain ⟨rfl, rfl⟩ := Prod.mk.inj (Option.some.inj played)
      exact .start
  | cons first earlier ih =>
      obtain ⟨⟨before, middle⟩, started, later⟩ := Option.bind_eq_some_iff.mp played
      split at later
      · rename_i fresh
        obtain ⟨next, done, same⟩ := Option.map_eq_some_iff.mp later
        obtain ⟨rfl, rfl⟩ := Prod.mk.inj same
        obtain ⟨valid, uuid, new⟩ := fresh
        apply Produced.call (ih started) ⟨valid, uuid, new⟩
        cases outcome : perform platform first.1 middle first.2 with
        | ok value =>
            rw [outcome] at done
            rw [Option.some.inj done]
        | error raised =>
            rw [outcome] at done
            cases done
      · cases later

/-- The reader accepts what the calls have produced exactly when each call was sound. -/
theorem producer_accepted {past : List (State E × Call E)} (produced : Produced platform past state)
    (exports : Exports state spans) (reference top : Int) (positive : 0 < top) :
    (∃ rows, querySpans spans reference top = .ok rows) ↔ ∀ moment ∈ past, Sound moment.1 moment.2 := by
  obtain ⟨inv, sturdy⟩ := produced_sturdy produced
  rw [← sturdy, querySpans_ok]
  constructor
  · rintro ⟨_, accepted⟩
    have whole : state.opened = [] ++ state.opened := rfl
    exact sturdy_of_accepted inv exports accepted whole
  · intro strong
    exact ⟨positive, accepted_of_sturdy inv exports strong⟩

end

section Example

/-- The value of a hexadecimal text without a sign. -/
def plainHex (text : List Char) : Option Nat :=
  text.foldlM (fun total letter => if letter.isDigit then some (16 * total + (letter.toNat - 48))
    else if 'a' ≤ letter ∧ letter ≤ 'f' then some (16 * total + (letter.toNat - 87)) else none) 0

/-- This platform reads plain hexadecimal texts and keeps the simple values. -/
def plainPlatform : Platform where
  int16
    | .str text => match plainHex text.toList with
        | some number => .ok number
        | none => .error .value
    | _ => .error .type
  exported
    | .null => none
    | .arr _ => none
    | .obj _ => none
    | value => some value
  exported_text _ := rfl
  exported_int _ := rfl
  text_of_exported value text same := by
    cases value <;> simp_all

/-- The generator counts its ids. -/
def supplied (number : Nat) : Supply := ⟨⟨1, number⟩, "u", number⟩

/-- The calls come one after the other. -/
def callsInOrder (calls : List (Call Unit)) : List (Supply × Call Unit) :=
  (calls.zipIdx.map fun item => (supplied (item.2 + 1), item.1)).reverse

/-- A Run with a Step and an Attempt pauses, and its Step resumes in the same trace. -/
def pausedCalls : List (Supply × Call Unit) := callsInOrder [
  .run (.str "s") (.str "t") (.str "g") (.str "r") .null (.int 0),
  .step 0 (.str "a") (some .passed) .null fun _ => true,
  .attempt 1 (.int 1) .null (some .passed),
  .close 3 (.raised ()),
  .close 2 (.raised ()),
  .close 1 .returned,
  .resumeRun ⟨.str "00000000000000000000000000000001", .str "0000000000000001", .str "r", .str "s", .str "t", .str "g"⟩,
  .step 2 (.str "a") (some .passed) (.str "0000000000000002") fun _ => true,
  .child 3 (.str "b") (some .repaired) .null none,
  .close 9 .returned,
  .close 8 .returned]

def archivePlayed (calls : List (Supply × Call Unit)) : Option (Checked (List Row)) :=
  (play plainPlatform calls).map fun result => querySpans (archiveOf result.2.closed result.2.opened) 0 10

def allEnded (calls : List (Supply × Call Unit)) : Option Bool :=
  (play plainPlatform calls).map fun result =>
    result.2.opened.all fun span => (result.2.closed.get? span.context.spanId).isSome

theorem played_exports {calls : List (Supply × Call Unit)} (ended : allEnded calls = some true) :
    ∃ past state, play plainPlatform calls = some (past, state) ∧ Produced plainPlatform past state ∧
      Exports state (archiveOf state.closed state.opened) := by
  obtain ⟨⟨past, state⟩, played, all⟩ := Option.map_eq_some_iff.mp ended
  have produced := play_produced played
  refine ⟨past, state, played, produced, archiveOf_exports (produced_sturdy produced).1 ?_⟩
  exact List.all_eq_true.mp all

theorem producer_accepted_paused : ∃ (past : List (State Unit × Call Unit)) (state : State Unit),
    Produced plainPlatform past state ∧ past.length = 11 ∧ ∀ moment ∈ past, Sound moment.1 moment.2 := by
  obtain ⟨past, state, played, produced, exports⟩ :=
    @played_exports pausedCalls (by decide +kernel)
  have read : archivePlayed pausedCalls = some (.ok []) := by decide +kernel
  have length : (play plainPlatform pausedCalls).map (fun result => result.1.length) = some 11 := by decide +kernel
  rw [archivePlayed, played] at read
  rw [played] at length
  refine ⟨past, state, produced, Option.some.inj length, ?_⟩
  exact (producer_accepted produced exports 0 10 (by decide)).mp ⟨[], Option.some.inj read⟩

/-- The Node of this Step is a blank. -/
def blankCalls : List (Supply × Call Unit) := callsInOrder [
  .run (.str "s") (.str "t") (.str "g") (.str "r") .null (.int 0),
  .step 0 (.str " ") (some .passed) .null fun _ => false,
  .close 2 .returned,
  .close 1 .returned]

theorem blank_node_rejects : ∃ (past : List (State Unit × Call Unit)) (state : State Unit),
    Produced plainPlatform past state ∧ Exports state (archiveOf state.closed state.opened) ∧
      querySpans (archiveOf state.closed state.opened) 0 10 =
        .error (.archive "file 1, line 1: missing Node identity") := by
  obtain ⟨past, state, played, produced, exports⟩ := @played_exports blankCalls (by decide +kernel)
  have read : archivePlayed blankCalls = some (.error (.archive "file 1, line 1: missing Node identity")) := by
    decide +kernel
  rw [archivePlayed, played] at read
  exact ⟨past, state, produced, exports, Option.some.inj read⟩

end Example

end Cordboard.Execution
