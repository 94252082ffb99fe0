import Cordboard.Proof.Archive.PublicReads

namespace Cordboard.Archive.Public
open Data Effects Fallible

section
variable {expected : SpanMap} {allExpected : List Row} {reference top : Int} {reads : List TraceRead}

/-- The observations that arrived with the traces. -/
def observations (expected : SpanMap) (reads : List TraceRead) : SpanMap := (gather expected reads).actual

/-- The archive contract accepts the observations. -/
def Admitted (expected : SpanMap) (reference : Int) (reads : List TraceRead) : Prop :=
  ∃ rows, querySpans (observations expected reads) reference (observations expected reads).entries.keys.length = .ok rows

/-- Agreeing traces match in the sense of the whole archive. -/
theorem sameFields_of_agrees (ids : reads.map TraceRead.traceId = traceIds expected)
    (agree : agrees expected (gather expected reads) = true) :
    sameFields expected (observations expected reads) (gather expected reads).subjects = true := by
  have agreement := (agrees_iff ids).mp agree
  have each := (Bool.and_eq_true_iff.mp agree).2
  have here : ∀ {spans : SpanMap} {key : String}, key ∈ spans.entries.keys → (spans.entries.get? key).isSome = true := by
    intro spans key member
    rw [Option.isSome_iff_ne_none, ne_eq, Dict.get?_eq_none_iff, not_not]
    exact member
  rw [sameFields, Bool.and_eq_true]
  refine ⟨?_, each⟩
  rw [sameIds, Bool.and_eq_true, List.all_eq_true, List.all_eq_true]
  constructor
  · intro key member
    obtain ⟨item, inside, rfl⟩ := List.mem_map.mp member
    obtain ⟨other, held, _⟩ := (Option.any_eq_true ..).mp (List.all_eq_true.mp each item inside)
    exact here (Dict.mem_keys_of_get? held)
  · intro key member
    obtain ⟨entry, found⟩ := Option.isSome_iff_exists.mp (here member)
    rcases take_actual found with none | ⟨read, inside, own⟩
    · cases none
    · obtain ⟨known, listed, _⟩ := agreement.known read inside key (Dict.mem_keys_of_get? own)
      exact here (Dict.mem_keys_of_get? listed)

/-- The counts of agreeing traces are those of the archive. -/
theorem rows_of_agrees (ids : reads.map TraceRead.traceId = traceIds expected)
    (agree : agrees expected (gather expected reads) = true) {rows : List Row}
    (counted : querySpans expected reference expected.entries.keys.length = .ok allExpected)
    (read : querySpans (observations expected reads) reference (observations expected reads).entries.keys.length = .ok rows) :
    rows = allExpected := by
  have mirrored := mirrored_of_fields (sameFields_of_agrees ids agree) (querySpans_ok.mp ⟨allExpected, counted⟩).2
    (querySpans_ok.mp ⟨rows, read⟩).2
  rw [mirrored.keys.length_eq] at counted
  exact (rows_mirror mirrored counted read).symm

/-- A complete reading matches when the traces agree and the archive contract accepts the observations. -/
theorem settle_ok (counted : querySpans expected reference expected.entries.keys.length = .ok allExpected)
    (ids : reads.map TraceRead.traceId = traceIds expected) {status : CompareStatus} {rows : Option (List Row)}
    (done : settle expected allExpected reference top (gather expected reads) = .ok (status, rows)) :
    (status = .matched ↔ Agreement expected reads ∧ Admitted expected reference reads) ∧
      (status = .matched → rows = some (allExpected.take top.toNat)) ∧ (status = .matched ∨ status = .mismatch) := by
  rw [settle] at done
  cases read : querySpans (observations expected reads) reference (observations expected reads).entries.keys.length with
  | error failure =>
      have refused : ¬ Admitted expected reference reads := by
        rintro ⟨found, accepted⟩
        rw [read] at accepted
        cases accepted
      rw [observations] at read
      rw [read] at done
      cases failure with
      | archive reason =>
          obtain ⟨rfl, rfl⟩ := Prod.mk.injEq .. |>.mp (Except.ok.inj done)
          exact ⟨⟨(by intro same; cases same), fun held => absurd held.2 refused⟩, (by intro same; cases same), .inr rfl⟩
      | _ => cases done
  | ok found =>
      have admitted : Admitted expected reference reads := ⟨found, read⟩
      have same := fun agree => rows_of_agrees ids agree counted read
      rw [observations] at read
      rw [read] at done
      obtain ⟨rfl, rfl⟩ := Prod.mk.injEq .. |>.mp (Except.ok.inj done)
      rw [← agrees_iff ids]
      by_cases agree : agrees expected (gather expected reads) = true
      · rw [same agree, agree]
        simp [admitted]
      · simp [agree]

end

section
variable (referenceNs : String → Instant)

/-- The traces arrive one after the other. -/
theorem readTraces_tells (expected : SpanMap) (fuel : Nat) (deadline : Time) (ids : List String) (start : Turn) :
    Tells (fun events turn => ∃ reads : List TraceRead, reads.map TraceRead.traceId = ids ∧
      (∀ read ∈ reads, Collected referenceNs events read.traceId read.spans ∧ Session events read.traceId read.subject) ∧
      turn = reads.foldl (Turn.take (byTrace expected)) start)
      (readTraces referenceNs (byTrace expected) fuel deadline ids start) := by
  induction ids generalizing start with
  | nil => exact tells_pure ⟨[], rfl, fun _ none => absurd none List.not_mem_nil, rfl⟩
  | cons traceId rest ih =>
      rw [readTraces]
      apply Tells.seq (trace_tells fuel deadline)
      rintro before ⟨spans, subject⟩ ⟨collected, session⟩
      apply Tells.mono (ih _)
      rintro events turn ⟨reads, named, told, same⟩
      refine ⟨⟨traceId, spans, subject⟩ :: reads, congrArg (traceId :: ·) named, List.forall_mem_cons.mpr ⟨?_, ?_⟩, same⟩
      · exact ⟨collected.mono (List.subset_append_left before events), session.mono (List.subset_append_left before events)⟩
      · intro read inside
        have later := told read inside
        exact ⟨later.1.mono (List.subset_append_right before events),
          later.2.mono (List.subset_append_right before events)⟩

/-- The service told each trace of the archive, and each span of the archive is among them. -/
structure Cohort (events : List signature.Event) (expected : SpanMap) (reads : List TraceRead) : Prop where
  traces : reads.map TraceRead.traceId = traceIds expected
  collected : ∀ read ∈ reads, Collected referenceNs events read.traceId read.spans
  session : ∀ read ∈ reads, Session events read.traceId read.subject
  arrived : ∀ key entry, expected.entries.get? key = some entry →
    ∃ read ∈ reads, read.traceId = entry.span.traceId ∧ key ∈ read.spans.entries.keys

/-- What a report says about the archive and about the answers of the service. -/
structure Verdict (frozen : Frozen) (reference top : Int) (events : List signature.Event) (report : Report) : Prop where
  archive : report.archive = frozen.allExpected.take top.toNat
  expectedSpans : report.expectedSpans = frozen.expected.entries.keys.length
  settled : report.status = .matched ∨ report.status = .mismatch → ∃ reads,
    Cohort referenceNs events frozen.expected reads ∧
    (report.status = .matched ↔ Agreement frozen.expected reads ∧ Admitted frozen.expected reference reads)
  rows : report.status = .matched → report.langfuse = some report.archive
  silent : report.status ≠ .matched → report.status ≠ .mismatch → report.langfuse = none

variable {referenceNs} {frozen : Frozen} {reference top : Int} {events more : List signature.Event}

theorem Cohort.mono {expected : SpanMap} {reads : List TraceRead} (cohort : Cohort referenceNs events expected reads)
    (within : events ⊆ more) : Cohort referenceNs more expected reads where
  traces := cohort.traces
  collected read inside := (cohort.collected read inside).mono within
  session read inside := (cohort.session read inside).mono within
  arrived := cohort.arrived

theorem Verdict.mono {report : Report} (verdict : Verdict referenceNs frozen reference top events report)
    (within : events ⊆ more) : Verdict referenceNs frozen reference top more report where
  archive := verdict.archive
  expectedSpans := verdict.expectedSpans
  settled closed := by
    obtain ⟨reads, cohort, exact⟩ := verdict.settled closed
    exact ⟨reads, cohort.mono within, exact⟩
  rows := verdict.rows
  silent := verdict.silent

/-- A report without a reading shows no counts of the service. -/
theorem verdict_silent {status : CompareStatus} (unmatched : status ≠ .matched) (other : status ≠ .mismatch)
    (observed : Nat) :
    Verdict referenceNs frozen reference top events (report frozen top status none observed) where
  archive := rfl
  expectedSpans := rfl
  settled closed := closed.elim (absurd · unmatched) (absurd · other)
  rows same := absurd same unmatched
  silent _ _ := rfl

/-- A turn ends with a verdict, or it leaves a status that is none. -/
def TurnVerdict (referenceNs : String → Instant) (frozen : Frozen) (reference top : Int)
    (events : List signature.Event) : Turned → Prop
  | .done report => Verdict referenceNs frozen reference top events report
  | .again status _ => status ≠ .matched ∧ status ≠ .mismatch

/-- The traces of a complete reading are a cohort. -/
theorem cohort_of_complete {reads : List TraceRead} (traces : reads.map TraceRead.traceId = traceIds frozen.expected)
    (known : ∀ read ∈ reads, Collected referenceNs events read.traceId read.spans ∧
      Session events read.traceId read.subject)
    (complete : (gather frozen.expected reads).complete = true) :
    Cohort referenceNs events frozen.expected reads where
  traces := traces
  collected read inside := (known read inside).1
  session read inside := (known read inside).2
  arrived key entry found := by
    have listed : entry.span.traceId ∈ reads.map TraceRead.traceId := by
      rw [traces]
      exact mem_traceIds.mpr ⟨key, entry, found, rfl⟩
    obtain ⟨read, inside, named⟩ := List.mem_map.mp listed
    rw [gather, take_complete, Bool.and_eq_true, List.all_eq_true] at complete
    have expects := mem_byTrace.mpr ⟨entry, found, named.symm⟩
    obtain ⟨other, held⟩ := Option.isSome_iff_exists.mp (List.all_eq_true.mp (complete.2 read inside) key expects)
    exact ⟨read, inside, named, Dict.mem_keys_of_get? held⟩

/-- A report of a turn is a verdict. -/
theorem turn_tells (counted : querySpans frozen.expected reference frozen.expected.entries.keys.length =
      .ok frozen.allExpected) (schedule : Schedule) (observed : Nat) :
    Tells (TurnVerdict referenceNs frozen reference top)
      (turn referenceNs frozen reference top schedule observed) := by
  rw [turn]
  apply Tells.caught (readTraces_tells referenceNs frozen.expected schedule.pages schedule.deadline _ Turn.start)
  intro before outcome told
  cases outcome with
  | error reason =>
      cases reason with
      | pending => exact tells_pure ⟨by decide, by decide⟩
      | escape exception => exact tells_raise _
      | read status =>
          cases status with
          | unavailable => exact tells_pure ⟨by decide, by decide⟩
          | apiError => exact tells_pure (verdict_silent (by decide) (by decide) observed)
          | invalidResponse => exact tells_pure (verdict_silent (by decide) (by decide) observed)
  | ok reading =>
      obtain ⟨reads, traces, known, rfl⟩ := told reading rfl
      simp only
      split
      · rename_i complete
        split
        · rename_i status rows settled
          obtain ⟨exact, matched, closed⟩ := settle_ok counted traces settled
          have cohort := cohort_of_complete traces known complete
          apply tells_pure
          rw [List.append_nil]
          exact ⟨rfl, rfl, fun _ => ⟨reads, cohort, exact⟩, matched, fun one two => absurd closed (not_or.mpr ⟨one, two⟩)⟩
        · exact tells_raise _
      · exact tells_pure ⟨by decide, by decide⟩

/-- Each report of the loop is a verdict. -/
theorem pollLoop_tells (counted : querySpans frozen.expected reference frozen.expected.entries.keys.length =
      .ok frozen.allExpected) (schedule : Schedule) (fuel : Nat) {lastStatus : CompareStatus}
    (unmatched : lastStatus ≠ .matched) (other : lastStatus ≠ .mismatch) (observed : Nat) :
    Tells (Verdict referenceNs frozen reference top)
      (pollLoop referenceNs frozen reference top schedule fuel lastStatus observed) := by
  induction fuel generalizing lastStatus observed with
  | zero => exact tells_raise _
  | succ fuel ih =>
      rw [pollLoop]
      apply Tells.seq monotonic_tells
      intro clock now _
      split
      · apply Tells.seq (turn_tells counted schedule observed)
        intro before turned told
        cases turned with
        | done report => exact tells_pure (Verdict.mono told fun event inside => by simp [inside])
        | again status later =>
            have rest := ih told.1 told.2 later
            apply Tells.seq monotonic_tells
            intro again clock _
            simp only
            split
            · apply Tells.seq (sleep_tells _)
              intro slept _ _
              exact Tells.mono rest fun events report verdict => verdict.mono fun event inside => by simp [inside]
            · exact Tells.mono rest fun events report verdict => verdict.mono fun event inside => by simp [inside]
      · exact tells_pure (verdict_silent unmatched other observed)

end

theorem freeze_counted {archive : Checked SpanMap} {reference top : Int} {wait poll : Time} {frozen : Frozen}
    (done : freeze archive reference top wait poll = .ok frozen) :
    querySpans frozen.expected reference frozen.expected.entries.keys.length = .ok frozen.allExpected := by
  unfold freeze at done
  split at done
  · cases done
  · obtain ⟨expected, _, done⟩ := bind_ok.mp done
    obtain ⟨allExpected, counted, done⟩ := bind_ok.mp done
    obtain ⟨_, _, done⟩ := bind_ok.mp done
    obtain rfl := Except.ok.inj done
    exact counted

end Cordboard.Archive.Public
