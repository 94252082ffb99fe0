import Cordboard.Proof.Stores

namespace Cordboard
open Data Effects

section
variable {A : Type} {board : Board} {post : List signature.Event → Except Exc A → Board → Prop}

/-- A read decodes the file of the board. -/
theorem wp_loaded (store : Store) {rest : store.Data → Py A}
    (read : ∀ trace data, decode store (board store) = .ok data →
      Fallible.wp boardMachine (rest data) (fun tail => post (trace ++ tail)) board)
    (refused : ∀ trace exc, decode store (board store) = .error exc → post trace (.error exc) board) :
    Fallible.wp boardMachine (load store >>= rest) post board := by
  simp only [Fallible.wp_bind, wp_load]
  refine ⟨trivial, ?_⟩
  rintro file after ⟨rfl, rfl⟩
  cases decoded : decode store (after store) with
  | error exc => exact refused _ exc decoded
  | ok data => exact read _ data decoded

/-- A check of texts comes before the rest. -/
theorem wp_checkedTexts {kind : ExcKind} {fields : List (String × String)} {rest : Unit → Py A}
    (checked : checkTexts kind fields = .ok () → Fallible.wp boardMachine (rest ()) post board)
    (refused : ∀ exc, checkTexts kind fields = .error exc → post [] (.error exc) board) :
    Fallible.wp boardMachine (requireTexts kind fields >>= rest) post board := by
  rw [Fallible.wp_bind, wp_requireTexts]
  cases outcome : checkTexts kind fields with
  | error exc => exact refused exc outcome
  | ok _ => exact checked outcome

/-- A write and its note come before the rest. -/
theorem wp_replaced {point : Note} {store : Store} {data : store.Data} {rest : Unit → Py A}
    (later : ∀ trace, Fallible.wp boardMachine (rest ()) (fun tail => post (trace ++ tail))
      (board.put store (store.sorted data))) :
    Fallible.wp boardMachine (note point >>= fun _ => writeAtomic store data >>= rest) post board := by
  simp only [Fallible.wp_bind, wp_note, wp_writeAtomic, Fallible.after_ok]
  refine ⟨trivial, ?_⟩
  rintro _ rfl
  refine ⟨trivial, ?_⟩
  rintro _ rfl
  have reached := later ([⟨Effect.note point, ()⟩] ++ [⟨Effect.write store (store.sorted data), ()⟩])
  simpa only [List.append_assoc] using reached

end

namespace Concurrency

/-- A claim is taken unless the pair has a live one, a text is blank, or the file is unreadable. -/
theorem tryClaim_ends (board : Board) (assistant subject : String) (now staleAfter : Time) (holder : Holder)
    {post : Except Exc Bool → Board → Prop}
    (taken : ∀ data, checkTexts .concurrency [("assistant", assistant), ("subject", subject)] = .ok () →
      decode .concurrency (board .concurrency) = .ok data →
      isLive (data.get? (assistant, subject)) now staleAfter = false →
        post (.ok true) (board.put .concurrency (Store.concurrency.sorted (data.set (assistant, subject) ⟨now⟩))))
    (blocked : ∀ data, decode .concurrency (board .concurrency) = .ok data →
      isLive (data.get? (assistant, subject)) now staleAfter = true → post (.ok false) board)
    (refused : ∀ exc, (checkTexts .concurrency [("assistant", assistant), ("subject", subject)] = .error exc ∨
      decode .concurrency (board .concurrency) = .error exc) → post (.error exc) board) :
    Fallible.wp boardMachine (tryClaim assistant subject now staleAfter holder) (fun _ => post) board := by
  simp only [tryClaim, Fallible.wp_bind, wp_key]
  cases named : checkTexts .concurrency [("assistant", assistant), ("subject", subject)] with
  | error exc => exact refused exc (.inl named)
  | ok _ =>
      simp only [Except.map, Fallible.after_ok, Fallible.wp_bind, wp_locked, loadConcurrency, wp_load]
      refine ⟨trivial, ?_⟩
      rintro _ rfl
      refine ⟨trivial, ?_⟩
      rintro file after ⟨rfl, rfl⟩
      cases decoded : decode .concurrency (after .concurrency) with
      | error exc =>
          refine ⟨trivial, ?_⟩
          rintro _ rfl
          exact refused exc (.inr decoded)
      | ok data =>
          rw [Fallible.after_ok, Fallible.wp_ite]
          split
          · rename_i live
            refine ⟨trivial, ?_⟩
            rintro _ rfl
            exact blocked data decoded live
          · rename_i stale
            simp only [Fallible.wp_bind, wp_note, Fallible.after_ok, wp_writeAtomic]
            refine ⟨trivial, ?_⟩
            rintro _ rfl
            refine ⟨trivial, ?_⟩
            rintro _ rfl
            refine ⟨trivial, ?_⟩
            rintro _ rfl
            exact taken data named decoded (Bool.eq_false_of_not_eq_true stale)

end Concurrency

namespace PendingCompletions

/-- The texts of a record. -/
abbrev recordTexts (deployment threadId invocationId assistant subject : String) : Except Exc Unit :=
  checkTexts .pendingCompletion [("deployment alias", deployment), ("thread ID", threadId),
    ("invocation ID", invocationId), ("assistant", assistant), ("subject", subject)]

/-- The texts of a pair. -/
abbrev pairTexts (deployment threadId : String) : Except Exc Unit :=
  checkTexts .pendingCompletion [("deployment alias", deployment), ("thread ID", threadId)]

/-- The texts of a pair are texts of its record. -/
theorem pairTexts_of_recordTexts {deployment threadId invocationId assistant subject : String}
    (checked : recordTexts deployment threadId invocationId assistant subject = .ok ()) :
    pairTexts deployment threadId = .ok () := by
  have named := checkTexts_ok checked
  have alias_ := named ("deployment alias", deployment) (by simp)
  have thread := named ("thread ID", threadId) (by simp)
  simp [pairTexts, checkTexts, alias_, thread]

section
variable {board : Board} {deployment threadId : String}

/-- A pair is named before its entry is looked up. -/
theorem wp_keyed {A : Type} {rest : Pair → Py A} {post : List signature.Event → Except Exc A → Board → Prop}
    (named : pairTexts deployment threadId = .ok () →
      Fallible.wp boardMachine (rest (deployment, threadId)) post board)
    (refused : ∀ exc, pairTexts deployment threadId = .error exc → post [] (.error exc) board) :
    Fallible.wp boardMachine (key deployment threadId >>= rest) post board := by
  rw [Fallible.wp_bind, wp_key]
  cases outcome : pairTexts deployment threadId with
  | error exc =>
      rw [pairTexts] at outcome
      rw [outcome]
      exact refused exc outcome
  | ok _ =>
      rw [pairTexts] at outcome
      rw [outcome]
      exact named outcome

/-- A record replaces the entry of its pair, unless a text is blank or the file is unreadable. -/
theorem recordPending_ends (board : Board) (entry : PendingEntry) {post : Except Exc Unit → Board → Prop}
    (written : ∀ data, recordTexts entry.deployment entry.threadId entry.invocationId entry.assistant entry.subject =
        .ok () → decode .pending (board .pending) = .ok data →
      post (.ok ()) (board.put .pending (Store.pending.sorted (data.set (entry.deployment, entry.threadId) entry))))
    (refused : ∀ exc, (recordTexts entry.deployment entry.threadId entry.invocationId entry.assistant entry.subject =
        .error exc ∨ decode .pending (board .pending) = .error exc) → post (.error exc) board) :
    Fallible.wp boardMachine (recordPending entry.deployment entry.threadId entry.invocationId entry.assistant
      entry.subject entry.cascadeDepth entry.concurrencyHeld entry.deploymentHeld entry.recordedAt)
      (fun _ => post) board := by
  apply wp_checkedTexts
  · intro checked
    apply wp_loaded .pending
    · intro _ data decoded
      apply wp_keyed
      · intro _
        apply wp_replaced
        intro _
        rw [wp_note]
        refine ⟨trivial, ?_⟩
        rintro _ rfl
        exact written data checked decoded
      · intro exc unnamed
        rw [pairTexts_of_recordTexts checked] at unnamed
        cases unnamed
    · exact fun _ exc failed => refused exc (.inr failed)
  · exact fun exc unnamed => refused exc (.inl unnamed)

/-- A resolution removes the entry of its pair, unless the file is unreadable or the pair is not named. -/
theorem resolvePending_ends (board : Board) {post : Except Exc (Option PendingEntry) → Board → Prop}
    (absent : ∀ data, pairTexts deployment threadId = .ok () → decode .pending (board .pending) = .ok data →
      data.get? (deployment, threadId) = none → post (.ok none) board)
    (removed : ∀ data entry, pairTexts deployment threadId = .ok () → decode .pending (board .pending) = .ok data →
      data.get? (deployment, threadId) = some entry →
        post (.ok (some entry)) (board.put .pending (Store.pending.sorted (data.erase (deployment, threadId)))))
    (refused : ∀ exc, (pairTexts deployment threadId = .error exc ∨ decode .pending (board .pending) = .error exc) →
      post (.error exc) board) :
    Fallible.wp boardMachine (resolvePending deployment threadId) (fun _ => post) board := by
  apply wp_loaded .pending
  · intro _ data decoded
    apply wp_keyed
    · intro named
      cases present : data.get? (deployment, threadId) with
      | none => exact absent data named decoded present
      | some entry =>
          apply wp_replaced
          exact fun _ => removed data entry named decoded present
    · exact fun exc unnamed => refused exc (.inl unnamed)
  · exact fun _ exc failed => refused exc (.inr failed)

/-- An update changes the entry of its pair, unless the file is unreadable or the pair is not named. -/
theorem updatePending_ends (board : Board) (invocationId : Option String) (concurrencyHeld deploymentHeld : Option Bool)
    (now : Time) {post : Except Exc (Option PendingEntry) → Board → Prop}
    (absent : ∀ data, decode .pending (board .pending) = .ok data → data.get? (deployment, threadId) = none →
      post (.ok none) board)
    (updated : ∀ data entry, decode .pending (board .pending) = .ok data →
      data.get? (deployment, threadId) = some entry →
        post (.ok (some (updateEntry entry invocationId concurrencyHeld deploymentHeld now)))
          (board.put .pending (Store.pending.sorted (data.set (deployment, threadId)
            (updateEntry entry invocationId concurrencyHeld deploymentHeld now)))))
    (refused : ∀ exc, post (.error exc) board) :
    Fallible.wp boardMachine (updatePending deployment threadId invocationId concurrencyHeld deploymentHeld now)
      (fun _ => post) board := by
  apply wp_loaded .pending
  · intro _ data decoded
    apply wp_keyed
    · intro _
      cases present : data.get? (deployment, threadId) with
      | none => exact absent data decoded present
      | some entry =>
          apply wp_replaced
          exact fun _ => updated data entry decoded present
    · exact fun exc _ => refused exc
  · exact fun _ exc _ => refused exc

/-- A lookup changes nothing. -/
theorem getPending_ends (board : Board) {post : Except Exc (Option PendingEntry) → Board → Prop}
    (found : ∀ data, decode .pending (board .pending) = .ok data →
      post (.ok (data.get? (deployment, threadId))) board)
    (refused : ∀ exc, (pairTexts deployment threadId = .error exc ∨ decode .pending (board .pending) = .error exc) →
      post (.error exc) board) :
    Fallible.wp boardMachine (getPending deployment threadId) (fun _ => post) board := by
  apply wp_loaded .pending
  · intro _ data decoded
    apply wp_keyed
    · exact fun _ => found data decoded
    · exact fun exc unnamed => refused exc (.inl unnamed)
  · exact fun _ exc failed => refused exc (.inr failed)

/-- The entries after a record. -/
theorem find?_recorded {data : Dict Pair PendingEntry} (decoded : decode .pending (board .pending) = .ok data)
    (changed : Pair) (entry : PendingEntry) (pair : Pair) :
    (board.put .pending (Store.pending.sorted (data.set changed entry)) .pending).find? pair =
      if pair = changed then some entry else (board .pending).find? pair := by
  rw [Board.put_self, File.find?_content, get?_sorted, Dict.get?_set, find?_of_decode decoded]

/-- The entries after a resolution. -/
theorem find?_resolved {data : Dict Pair PendingEntry} (decoded : decode .pending (board .pending) = .ok data)
    (changed : Pair) (pair : Pair) :
    (board.put .pending (Store.pending.sorted (data.erase changed)) .pending).find? pair =
      if pair = changed then none else (board .pending).find? pair := by
  rw [Board.put_self, File.find?_content, get?_sorted, find?_of_decode decoded]
  split
  · rename_i same
    rw [same, Dict.get?_erase_self]
  · rename_i different
    rw [Dict.get?_erase_of_ne data different]

end

end PendingCompletions

namespace RunContinuity

/-- The logical Run of a Thread after a submission. -/
def joined (old : Option LogicalRun) (apiRunId : String) : LogicalRun :=
  match old with
  | none => ⟨apiRunId, [apiRunId]⟩
  | some record =>
      if apiRunId ∈ record.apiRunIds then record
      else { record with apiRunIds := record.apiRunIds ++ [apiRunId] }

/-- A later submission keeps the logical Run ID. -/
theorem joined_runId (record : LogicalRun) (apiRunId : String) : (joined (some record) apiRunId).runId = record.runId := by
  unfold joined
  dsimp only
  split <;> rfl

section
variable {board : Board} {deployment threadId apiRunId : String}

/-- A submission joins the logical Run of its Thread, unless a text is blank or the file is unreadable. -/
theorem recordSubmission_ends (board : Board) {post : Except Exc String → Board → Prop}
    (written : ∀ data after, decode .continuity (board .continuity) = .ok data →
      checkTexts .runContinuity [("deployment alias", deployment), ("thread ID", threadId),
        ("API Run ID", apiRunId)] = .ok () → (∀ other, other ≠ .continuity → after other = board other) →
      (∀ pair, recordOf (after .continuity) pair =
        if pair = (deployment, threadId) then some (joined (recordOf (board .continuity) pair) apiRunId)
        else recordOf (board .continuity) pair) →
      (∀ record, recordOf (board .continuity) (deployment, threadId) = some record → apiRunId ∈ record.apiRunIds →
        after = board) →
      post (.ok (joined (recordOf (board .continuity) (deployment, threadId)) apiRunId).runId) after)
    (refused : ∀ exc, (checkTexts .runContinuity [("deployment alias", deployment), ("thread ID", threadId),
        ("API Run ID", apiRunId)] = .error exc ∨ decode .continuity (board .continuity) = .error exc) →
      post (.error exc) board) :
    Fallible.wp boardMachine (recordSubmission deployment threadId apiRunId) (fun _ => post) board := by
  apply wp_checkedTexts
  · intro checked
    apply wp_loaded .continuity
    · intro _ data decoded
      have known := recordOf_of_decode decoded
      have here : ((data.get? deployment).getD Dict.empty).get? threadId =
          recordOf (board .continuity) (deployment, threadId) := by
        rw [known]
        cases data.get? deployment <;> rfl
      have put (record : LogicalRun) (pair : String × String) :
          recordOf (board.put .continuity (Store.continuity.sorted (data.set deployment
            (((data.get? deployment).getD Dict.empty).set threadId record))) .continuity) pair =
          if pair = (deployment, threadId) then some record else recordOf (board .continuity) pair := by
        rw [Board.put_self, recordOf_set, known]
      have others (stored : Store.continuity.Data) (other : Store) (different : other ≠ .continuity) :
          board.put .continuity stored other = board other := board.put_of_ne different stored
      cases stored : ((data.get? deployment).getD Dict.empty).get? threadId with
      | none =>
          have fresh : recordOf (board .continuity) (deployment, threadId) = none := here.symm.trans stored
          simp only [stored]
          rw [Fallible.wp_bind, wp_writeAtomic]
          refine ⟨trivial, ?_⟩
          rintro _ rfl
          have reached := written data _ decoded checked (others _) fun pair => by
            rw [put ⟨apiRunId, [apiRunId]⟩ pair]
            split
            · rename_i same
              rw [same, fresh]
              rfl
            · rfl
          rw [fresh] at reached
          exact reached fun record present => by cases present
      | some record =>
          have known_ : recordOf (board .continuity) (deployment, threadId) = some record := here.symm.trans stored
          rw [known_] at written
          by_cases member : apiRunId ∈ record.apiRunIds
          · have unchanged : joined (some record) apiRunId = record := if_pos member
            rw [unchanged] at written
            simp only [stored, if_pos member]
            refine written data board decoded checked (fun _ _ => rfl) ?_ fun _ _ _ => rfl
            intro pair
            split
            · rename_i same
              rw [same, known_, unchanged]
            · rfl
          · have extended : joined (some record) apiRunId =
                { record with apiRunIds := record.apiRunIds ++ [apiRunId] } := if_neg member
            rw [extended] at written
            simp only [stored, if_neg member]
            rw [Fallible.wp_bind, wp_writeAtomic]
            refine ⟨trivial, ?_⟩
            rintro _ rfl
            refine written data _ decoded checked (others _) ?_ ?_
            · intro pair
              rw [put _ pair]
              split
              · rename_i same
                rw [same, known_, extended]
              · rfl
            · intro other present inside
              obtain rfl := Option.some.inj present
              exact absurd inside member
    · exact fun _ exc failed => refused exc (.inr failed)
  · exact fun exc unnamed => refused exc (.inl unnamed)

/-- A lookup of a logical Run changes nothing. -/
theorem logicalRun_ends (board : Board) {post : Except Exc LogicalRun → Board → Prop}
    (found : ∀ data record, decode .continuity (board .continuity) = .ok data →
      recordOf (board .continuity) (deployment, threadId) = some record → post (.ok record) board)
    (unknown : ∀ data exc, decode .continuity (board .continuity) = .ok data → exc.kind = .unknownThread →
      recordOf (board .continuity) (deployment, threadId) = none → post (.error exc) board)
    (refused : ∀ exc, decode .continuity (board .continuity) = .error exc → post (.error exc) board) :
    Fallible.wp boardMachine (logicalRun deployment threadId) (fun _ => post) board := by
  apply wp_loaded .continuity
  · intro _ data decoded
    have known := recordOf_of_decode decoded (deployment, threadId)
    cases stored : (data.get? deployment).bind fun threads => threads.get? threadId with
    | none => exact unknown data _ decoded rfl (known.trans stored)
    | some record => exact found data record decoded (known.trans stored)
  · exact fun _ exc failed => refused exc failed

end

end RunContinuity

namespace ApprovalExpiry

section
variable {board : Board} {deployment threadId : String}

/-- A disposition closes the clock of its Thread once, unless the file is unreadable. -/
theorem dispose_ends (board : Board) (disposition : Disposition) (now : Time) {post : Except Exc ExpiryRecord → Board → Prop}
    (unknown : ∀ exc data, exc.kind = .unknownWaitingApproval → decode .expiry (board .expiry) = .ok data →
      clockOf (board .expiry) (deployment, threadId) = none → post (.error exc) board)
    (kept : ∀ record data, decode .expiry (board .expiry) = .ok data →
      clockOf (board .expiry) (deployment, threadId) = some record → record.disposition ≠ none → post (.ok record) board)
    (closed : ∀ record data after, decode .expiry (board .expiry) = .ok data →
      clockOf (board .expiry) (deployment, threadId) = some record → record.disposition = none →
      (∀ other, other ≠ .expiry → after other = board other) →
      (∀ pair, clockOf (after .expiry) pair = if pair = (deployment, threadId) then
          some { record with disposition := some disposition, resolvedAt := some now }
        else clockOf (board .expiry) pair) →
      post (.ok { record with disposition := some disposition, resolvedAt := some now }) after)
    (refused : ∀ exc, decode .expiry (board .expiry) = .error exc → post (.error exc) board) :
    Fallible.wp boardMachine (dispose deployment threadId disposition now) (fun _ => post) board := by
  apply wp_loaded .expiry
  · intro _ data decoded
    have known := clockOf_of_decode decoded
    have here : ((data.get? deployment).getD Dict.empty).get? threadId =
        clockOf (board .expiry) (deployment, threadId) := by
      rw [known]
      cases data.get? deployment <;> rfl
    dsimp only
    cases stored : ((data.get? deployment).getD Dict.empty).get? threadId with
    | none => exact unknown _ data rfl decoded (here.symm.trans stored)
    | some record =>
        by_cases open_ : record.disposition = none
        · simp only [open_, Option.isNone_none, if_true]
          rw [Fallible.wp_bind, wp_writeAtomic]
          refine ⟨trivial, ?_⟩
          rintro _ rfl
          apply closed record data _ decoded (here.symm.trans stored) open_
          · exact fun other different => board.put_of_ne different _
          · intro pair
            rw [Board.put_self, clockOf_set, known]
        · have shut : record.disposition.isNone = false := by simpa using Option.isSome_iff_ne_none.mpr open_
          simp only [shut, Bool.false_eq_true, if_false]
          exact kept record data decoded (here.symm.trans stored) open_
  · exact fun _ exc failed => refused exc failed

end

end ApprovalExpiry

end Cordboard
