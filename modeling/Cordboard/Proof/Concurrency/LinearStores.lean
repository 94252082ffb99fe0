import Cordboard.Effects.Linear
import Cordboard.Proof.Frame
import Cordboard.Proof.Records

namespace Cordboard.LinearStores
open Data Effects

/-- The lock of a file opens a section in which the process reads and replaces its store. -/
def kindOf (file : LockFile) : Effect → Option Kind
  | .read store => if store = file.store then some .inspect else none
  | .write store _ => if store = file.store then some .change else none
  | .lock other => if other = file then some .enter else none
  | .unlock other => if other = file then some .leave else none
  | .call _ => none
  | .note _ => some .aside

/-- The locks guard the board. -/
abbrev guarded (file : LockFile) : Guarded worldSharing boardMachine where
  view := World.board
  owner world := world.owner file
  kind := kindOf file
  aside {pid world op answer after} known move := by
    cases op with
    | note point =>
        obtain rfl : after = world := move
        exact ⟨rfl, rfl, fun _ => rfl⟩
    | call target => cases known
    | _ =>
        simp only [kindOf] at known
        split at known <;> cases known
  enter {pid world op answer after} known move := by
    cases op with
    | lock other =>
        obtain rfl : other = file := by
          by_contra different
          simp [kindOf, different] at known
        obtain ⟨free, taken⟩ := move
        subst after
        exact ⟨free, Function.update_self _ _ _, World.take_board _ _ _, fun _ => rfl⟩
    | call target => cases known
    | note point => cases known
    | _ =>
        simp only [kindOf] at known
        split at known <;> cases known
  leave {pid world op answer after} known owns move := by
    cases op with
    | unlock other =>
        obtain rfl : other = file := by
          by_contra different
          simp [kindOf, different] at known
        obtain rfl : after = world.free pid other := move
        refine ⟨?_, World.free_board _ _ _, fun _ => rfl⟩
        simp [World.free, owns]
    | call target => cases known
    | note point => cases known
    | _ =>
        simp only [kindOf] at known
        split at known <;> cases known
  inspect {pid world op answer after} known move := by
    cases op with
    | read store =>
        obtain ⟨same, still⟩ := move
        subst after
        exact ⟨rfl, rfl, same, rfl⟩
    | call target => cases known
    | note point => cases known
    | _ =>
        simp only [kindOf] at known
        split at known <;> cases known
  change {pid world op answer after} known move := by
    cases op with
    | write store data =>
        obtain rfl : after = world.write store data := move
        exact ⟨congrFun (World.write_owner _ _ _) _, World.write_board _ _ _⟩
    | call target => cases known
    | note point => cases known
    | _ =>
        simp only [kindOf] at known
        split at known <;> cases known
  crash pid world := ⟨rfl, rfl⟩

@[reducible] def Key : LockFile → Type
  | .concurrency => String × String
  | .responseDedupe => String × String × String

@[reducible] def Record : LockFile → Type
  | .concurrency => ConcurrencyClaim
  | .responseDedupe => ResponseClaim

/-- The record of a key in the guarded store. -/
def recordAt : (file : LockFile) → Board → Key file → Option (Record file)
  | .concurrency, board, key => (board .concurrency).find? key
  | .responseDedupe, board, key => (board .responseDedupe).find? key

/-- A process calls one function of a guarded store. -/
inductive StoreCall : LockFile → Type where
  | tryClaim (assistant subject : String) (now staleAfter : Time) (holder : Holder) : StoreCall .concurrency
  | release (assistant subject : String) (holder : Holder) : StoreCall .concurrency
  | renew (assistant subject : String) (now : Time) (holder : Holder) : StoreCall .concurrency
  | claim (deployment threadId interruptId : String) (now : Time) : StoreCall .responseDedupe
  | recordOutcome (deployment threadId interruptId : String) (outcome : ResponseOutcome) (now : Time) :
      StoreCall .responseDedupe
  | getClaim (deployment threadId interruptId : String) : StoreCall .responseDedupe

/-- The functions return a decision, nothing, a record, or a record that may be missing. -/
inductive StoreAnswer where
  | granted (decision : Bool)
  | done
  | recorded (record : ResponseClaim)
  | found (record : Option ResponseClaim)
deriving DecidableEq

namespace StoreCall

variable {file : LockFile}

def perform : StoreCall file → Py StoreAnswer
  | .tryClaim assistant subject now staleAfter holder => do
      let granted ← Concurrency.tryClaim assistant subject now staleAfter holder
      pure (.granted granted)
  | .release assistant subject holder => do
      Concurrency.release assistant subject holder
      pure .done
  | .renew assistant subject now holder => do
      Concurrency.renew assistant subject now holder
      pure .done
  | .claim deployment threadId interruptId now => do
      let granted ← ResponseDedupe.claim deployment threadId interruptId now
      pure (.granted granted)
  | .recordOutcome deployment threadId interruptId outcome now => do
      let record ← ResponseDedupe.recordOutcome deployment threadId interruptId outcome now
      pure (.recorded record)
  | .getClaim deployment threadId interruptId => do
      let record ← ResponseDedupe.getClaim deployment threadId interruptId
      pure (.found record)

/-- The key of the record that a call is about. -/
def key : StoreCall file → Key file
  | .tryClaim assistant subject .. => (assistant, subject)
  | .release assistant subject _ => (assistant, subject)
  | .renew assistant subject .. => (assistant, subject)
  | .claim deployment threadId interruptId _ => (deployment, threadId, interruptId)
  | .recordOutcome deployment threadId interruptId .. => (deployment, threadId, interruptId)
  | .getClaim deployment threadId interruptId => (deployment, threadId, interruptId)

/-- A call checks the texts of its key first. -/
def named : (file : LockFile) → Key file → Except Exc Unit
  | .concurrency, key => checkTexts .concurrency [("assistant", key.1), ("subject", key.2)]
  | .responseDedupe, key => checkTexts .responseDedupe
      [("deployment alias", key.1), ("thread ID", key.2.1), ("interrupt ID", key.2.2)]

/-- In a sequential order, the record of its key determines what a call answers and which record it leaves. -/
def outcome : StoreCall file → Option (Record file) → Except Exc StoreAnswer × Option (Record file)
  | .tryClaim _ _ now staleAfter _, existing =>
      if Concurrency.isLive existing now staleAfter then (.ok (.granted false), existing)
      else (.ok (.granted true), some ⟨now⟩)
  | .release .., _ => (.ok .done, none)
  | .renew _ _ now _, existing => (.ok .done, existing.map fun _ => ⟨now⟩)
  | .claim _ _ _ now, existing =>
      if existing.isSome then (.ok (.granted false), existing) else (.ok (.granted true), some ⟨now, none, none⟩)
  | .recordOutcome deployment threadId interruptId _ _, none =>
      (.error ⟨.responseDedupe, "no claimed response for " ++ deployment ++ "/" ++ threadId ++ "/" ++ interruptId⟩, none)
  | .recordOutcome _ _ _ outcome now, some record =>
      if record.outcome.isNone then
        let resolved : ResponseClaim := { record with outcome := some outcome, resolvedAt := some now }
        (.ok (.recorded resolved), some resolved)
      else (.ok (.recorded record), some record)
  | .getClaim .., existing => (.ok (.found existing), existing)

end StoreCall

/-- A call keeps the records of other keys. -/
def Frames {file : LockFile} (call : StoreCall file) (first last : Board) : Prop :=
  ∀ key ≠ call.key, recordAt file last key = recordAt file first key

/-- A call that ends has its sequential outcome. -/
structure Acts {file : LockFile} (call : StoreCall file) (first : Board) (value : Except Exc StoreAnswer) (last : Board) :
    Prop where
  frames : Frames call first last
  meets : StoreCall.named file call.key = .ok () → Readable file.store first →
    (value, recordAt file last call.key) = call.outcome (recordAt file first call.key)

section
variable {A : Type} {file : LockFile} {first : Board} {safe : Board → Prop} {post : Except Exc A → Board → Prop}

/-- A section reads the file, acts on its data, and ends with the outcome of its body. -/
theorem wp_section {store : Store} {body : store.Data → Py A} (calm : safe first)
    (read : ∀ data, decode store (first store) = .ok data →
      Fallible.wp (boardMachine.guarded safe) (body data) (fun _ outcome last => safe last ∧ post outcome last) first)
    (refused : ∀ exc, decode store (first store) = .error exc → post (.error exc) first) :
    Fallible.wp (boardMachine.guarded safe) (locked file (load store >>= body)) (fun _ => post) first := by
  rw [wp_locked]
  refine ⟨⟨trivial, calm⟩, ?_⟩
  rintro _ rfl
  rw [Fallible.wp_bind, wp_load]
  refine ⟨⟨trivial, calm⟩, ?_⟩
  rintro found entered ⟨rfl, rfl⟩
  cases decoded : decode store (entered store) with
  | error exc =>
      refine ⟨⟨trivial, calm⟩, ?_⟩
      rintro _ rfl
      exact refused exc decoded
  | ok data =>
      apply Fallible.wp_mono (read data decoded)
      rintro _ outcome last ⟨held, reached⟩
      refine ⟨⟨trivial, held⟩, ?_⟩
      rintro _ rfl
      exact reached

/-- A write replaces the file, and its body ends with a value. -/
theorem wp_rewrite {store : Store} {data : store.Data} {value : A} (calm : safe first)
    (written : safe (first.put store (store.sorted data)) ∧ post (.ok value) (first.put store (store.sorted data))) :
    Fallible.wp (boardMachine.guarded safe) (writeAtomic store data >>= fun _ => pure value)
      (fun _ outcome last => safe last ∧ post outcome last) first := by
  rw [Fallible.wp_bind, wp_writeAtomic]
  refine ⟨⟨trivial, calm⟩, ?_⟩
  rintro _ rfl
  exact written

/-- A note before a body changes nothing. -/
theorem wp_noted {point : Note} {body : Py A} {post : List signature.Event → Except Exc A → Board → Prop}
    (calm : safe first) (later : ∀ trace, Fallible.wp (boardMachine.guarded safe) body
      (fun tail => post (trace ++ tail)) first) :
    Fallible.wp (boardMachine.guarded safe) (note point >>= fun _ => body) post first := by
  rw [Fallible.wp_bind, wp_note]
  refine ⟨⟨trivial, calm⟩, ?_⟩
  rintro _ rfl
  exact later _

/-- The texts of a key are checked before the section. -/
theorem wp_named {K : Type} {kind : ExcKind} {fields : List (String × String)} {key : K} {rest : K → Py A}
    (checked : checkTexts kind fields = .ok () → Fallible.wp (boardMachine.guarded safe) (rest key) (fun _ => post) first)
    (refused : ∀ exc, checkTexts kind fields = .error exc → post (.error exc) first) :
    Fallible.wp (boardMachine.guarded safe) ((requireTexts kind fields >>= fun _ => pure key) >>= rest)
      (fun _ => post) first := by
  rw [Fallible.wp_bind, wp_checked]
  cases outcome : checkTexts kind fields with
  | error exc => exact refused exc outcome
  | ok _ => exact checked outcome

end

section
variable {first : Board}

/-- The answer of a call wraps the value of its function. -/
theorem wp_answered {A : Type} {safe : Board → Prop} {program : Py A} {answer : A → StoreAnswer}
    {post : Except Exc StoreAnswer → Board → Prop}
    (pre : Fallible.wp (boardMachine.guarded safe) program (fun _ outcome last => post (outcome.map answer) last) first) :
    Fallible.wp (boardMachine.guarded safe) (program >>= fun value => pure (answer value)) (fun _ => post) first := by
  rw [Fallible.wp_bind]
  apply Fallible.wp_mono pre
  intro _ outcome last reached
  cases outcome with
  | error exc => exact reached
  | ok value => exact reached

/-- A note about the value after the section changes nothing. -/
theorem wp_tailed {A : Type} {call : StoreCall .responseDedupe} {program : Py A} {point : A → Note}
    {answer : A → StoreAnswer}
    (pre : Fallible.wp (boardMachine.guarded (Frames call first)) program
      (fun _ outcome last => Acts call first (outcome.map answer) last) first) :
    Fallible.wp (boardMachine.guarded (Frames call first)) (program >>= fun value => note (point value) >>= fun _ => pure value)
      (fun _ outcome last => Acts call first (outcome.map answer) last) first := by
  rw [Fallible.wp_bind]
  apply Fallible.wp_mono pre
  intro _ outcome last reached
  cases outcome with
  | error exc => exact reached
  | ok value =>
      apply wp_noted reached.frames
      exact fun _ => reached

variable {file : LockFile} (call : StoreCall file)

theorem frames_refl : Frames call first first := fun _ _ => rfl

/-- A refused call changes nothing. -/
theorem acts_refused {exc : Exc} (reason : StoreCall.named file call.key = .error exc ∨
      decode file.store (first file.store) = .error exc) : Acts call first (.error exc) first where
  frames := frames_refl call
  meets named := by
    rintro ⟨data, decoded⟩
    rcases reason with unnamed | unread
    · rw [named] at unnamed
      cases unnamed
    · rw [decoded] at unread
      cases unread

/-- A call that writes nothing answers from the record of its key. -/
theorem acts_still {value : Except Exc StoreAnswer}
    (same : (value, recordAt file first call.key) = call.outcome (recordAt file first call.key)) :
    Acts call first value first where
  frames := frames_refl call
  meets _ _ := same

/-- A call that replaces the file changes the record of its key alone. -/
theorem acts_written {value : Except Exc StoreAnswer} {last : Board} (others : Frames call first last)
    (same : (value, recordAt file last call.key) = call.outcome (recordAt file first call.key)) :
    Frames call first last ∧ Acts call first value last :=
  ⟨others, others, fun _ _ => same⟩

/-- The decoded data hold the records of the store. -/
theorem recordAt_concurrency {data : Dict (String × String) ConcurrencyClaim}
    (decoded : decode .concurrency (first .concurrency) = .ok data) (key : String × String) :
    recordAt .concurrency first key = data.get? key := by
  rcases (decode_eq_ok_iff _ _ _).mp decoded with ⟨missing, rfl⟩ | content
  · simp [recordAt, missing, Store.initial]
  · simp [recordAt, content]

theorem recordAt_responseDedupe {data : Dict (String × String × String) ResponseClaim}
    (decoded : decode .responseDedupe (first .responseDedupe) = .ok data) (key : String × String × String) :
    recordAt .responseDedupe first key = data.get? key := by
  rcases (decode_eq_ok_iff _ _ _).mp decoded with ⟨missing, rfl⟩ | content
  · simp [recordAt, missing, Store.initial]
  · simp [recordAt, content]

@[simp] theorem recordAt_put_concurrency (data : Dict (String × String) ConcurrencyClaim) (key : String × String) :
    recordAt .concurrency (first.put .concurrency (Store.concurrency.sorted data)) key = data.get? key := by
  simp [recordAt]

@[simp] theorem recordAt_put_responseDedupe (data : Dict (String × String × String) ResponseClaim)
    (key : String × String × String) :
    recordAt .responseDedupe (first.put .responseDedupe (Store.responseDedupe.sorted data)) key = data.get? key := by
  simp [recordAt]

end

/-- A complete section has the sequential outcome of its call, and it keeps the records of other keys at each point. -/
theorem perform_acts {file : LockFile} (call : StoreCall file) (first : Board) :
    Fallible.wp (boardMachine.guarded (Frames call first)) call.perform (fun _ value last => Acts call first value last)
      first := by
  have calm : Frames call first first := frames_refl call
  cases call with
  | tryClaim assistant subject now staleAfter holder =>
      apply wp_answered
      refine wp_named (fun named => ?_) fun exc unnamed => acts_refused _ (.inl unnamed)
      refine wp_section calm (fun data decoded => ?_) fun exc unread => acts_refused _ (.inr unread)
      have known := recordAt_concurrency decoded
      rw [Fallible.wp_ite]
      split
      · rename_i live
        refine ⟨calm, acts_still _ ?_⟩
        simp [StoreCall.outcome, StoreCall.key, known, live, Except.map]
      · rename_i stale
        apply wp_noted calm
        intro _
        apply wp_rewrite calm
        apply acts_written
        · intro key different
          rw [known, recordAt_put_concurrency]
          exact Dict.get?_set_of_ne _ different _
        · simp [StoreCall.outcome, StoreCall.key, known, stale, Except.map]
  | release assistant subject holder =>
      apply wp_answered
      refine wp_named (fun named => ?_) fun exc unnamed => acts_refused _ (.inl unnamed)
      refine wp_section calm (fun data decoded => ?_) fun exc unread => acts_refused _ (.inr unread)
      have known := recordAt_concurrency decoded
      rw [Fallible.wp_ite]
      split
      · apply wp_noted calm
        intro _
        apply wp_rewrite calm
        apply acts_written
        · intro key different
          rw [known, recordAt_put_concurrency]
          exact Dict.get?_erase_of_ne _ different
        · simp [StoreCall.outcome, StoreCall.key]
      · rename_i absent
        rw [wp_note]
        refine ⟨⟨trivial, calm⟩, ?_⟩
        rintro _ rfl
        refine ⟨calm, acts_still _ ?_⟩
        simp only [Bool.not_eq_true, Option.isSome_eq_false_iff, Option.isNone_iff_eq_none] at absent
        simp [StoreCall.outcome, StoreCall.key, known, absent, Except.map]
  | renew assistant subject now holder =>
      apply wp_answered
      refine wp_named (fun named => ?_) fun exc unnamed => acts_refused _ (.inl unnamed)
      refine wp_section calm (fun data decoded => ?_) fun exc unread => acts_refused _ (.inr unread)
      have known := recordAt_concurrency decoded
      rw [Fallible.wp_ite]
      split
      · rename_i present
        apply wp_noted calm
        intro _
        apply wp_rewrite calm
        apply acts_written
        · intro key different
          rw [known, recordAt_put_concurrency]
          exact Dict.get?_set_of_ne _ different _
        · obtain ⟨claim, held⟩ := Option.isSome_iff_exists.mp present
          simp [StoreCall.outcome, StoreCall.key, known, held]
      · rename_i absent
        refine ⟨calm, acts_still _ ?_⟩
        simp only [Bool.not_eq_true, Option.isSome_eq_false_iff, Option.isNone_iff_eq_none] at absent
        simp [StoreCall.outcome, StoreCall.key, known, absent, Except.map]
  | claim deployment threadId interruptId now =>
      apply wp_answered
      refine wp_named (fun named => ?_) fun exc unnamed => acts_refused _ (.inl unnamed)
      apply wp_tailed
      refine wp_section calm (fun data decoded => ?_) fun exc unread => acts_refused _ (.inr unread)
      have known := recordAt_responseDedupe decoded
      rw [Fallible.wp_ite]
      split
      · rename_i present
        refine ⟨calm, acts_still _ ?_⟩
        simp [StoreCall.outcome, StoreCall.key, known, present, Except.map]
      · rename_i absent
        apply wp_rewrite calm
        apply acts_written
        · intro key different
          rw [known, recordAt_put_responseDedupe]
          exact Dict.get?_set_of_ne _ different _
        · simp [StoreCall.outcome, StoreCall.key, known, absent, Except.map]
  | recordOutcome deployment threadId interruptId outcome now =>
      apply wp_answered
      refine wp_named (fun named => ?_) fun exc unnamed => acts_refused _ (.inl unnamed)
      refine wp_section calm (fun data decoded => ?_) fun exc unread => acts_refused _ (.inr unread)
      have known := recordAt_responseDedupe decoded
      cases recorded : data.get? (deployment, threadId, interruptId) with
      | none =>
          refine ⟨calm, acts_still _ ?_⟩
          simp [StoreCall.outcome, StoreCall.key, known, recorded, Except.map]
      | some record =>
          dsimp only
          rw [Fallible.wp_ite]
          split
          · rename_i open_
            apply wp_rewrite calm
            apply acts_written
            · intro key different
              rw [known, recordAt_put_responseDedupe]
              exact Dict.get?_set_of_ne _ different _
            · simp [StoreCall.outcome, StoreCall.key, known, recorded, open_, Except.map]
          · rename_i closed
            refine ⟨calm, acts_still _ ?_⟩
            simp [StoreCall.outcome, StoreCall.key, known, recorded, closed, Except.map]
  | getClaim deployment threadId interruptId =>
      apply wp_answered
      refine wp_named (fun named => ?_) fun exc unnamed => acts_refused _ (.inl unnamed)
      refine wp_section calm (fun data decoded => ?_) fun exc unread => acts_refused _ (.inr unread)
      refine ⟨calm, acts_still _ ?_⟩
      simp [StoreCall.outcome, StoreCall.key, recordAt_responseDedupe decoded, Except.map]

/-- Any answer moves a call through its section. -/
abbrev sections (file : LockFile) : Machine signature Place := (guarded file).protocol.limited fun _ _ => True

section
variable {A : Type} {file : LockFile}

/-- The body may change its file once. -/
theorem section_leaves {store : Store} (guards : file.store = store) {body : store.Data → Py A}
    (ends : ∀ data, Fallible.wp (sections file) (body data) (fun _ _ place => place = .inside ∨ place = .changed) .inside) :
    Fallible.wp (sections file) (locked file (load store >>= body)) (fun _ _ place => place = .left)
      .before := by
  have entering : kindOf file (.lock file) = some .enter := if_pos rfl
  have leaving : kindOf file (.unlock file) = some .leave := if_pos rfl
  have reading : kindOf file (.read store) = some .inspect := if_pos guards.symm
  have leaves (place : Place) (inner : place = .inside ∨ place = .changed) :
      (sections file).guard place (Effect.unlock file) ∧
        ∀ after, (sections file).step place (Effect.unlock file) () after → after = .left := by
    refine ⟨⟨_, leaving, ?_⟩, ?_⟩
    · rcases inner with rfl | rfl <;> rfl
    · rintro _ ⟨-, rfl⟩
      simp only [leaving, Place.next]
  rw [wp_locked]
  refine ⟨⟨_, entering, rfl⟩, ?_⟩
  rintro entered ⟨-, rfl⟩
  simp only [entering, Place.next]
  rw [Fallible.wp_bind, wp_load]
  refine ⟨⟨_, reading, rfl⟩, ?_⟩
  rintro found reached ⟨-, rfl⟩
  simp only [reading, Place.next]
  cases decode store found with
  | error exc => exact leaves .inside (.inl rfl)
  | ok data => exact Fallible.wp_mono (ends data) fun _ _ place inner => leaves place inner

/-- A note stays in the section. -/
theorem note_stays {point : Note} {body : Py A} {place : Place} {post : Place → Prop} (inner : place ≠ .before)
    (later : Fallible.wp (sections file) body (fun _ _ => post) place) :
    Fallible.wp (sections file) (note point >>= fun _ => body) (fun _ _ => post) place := by
  have aside : kindOf file (.note point) = some .aside := rfl
  rw [Fallible.wp_bind, wp_note]
  refine ⟨⟨_, aside, ?_⟩, ?_⟩
  · cases place with
    | before => exact absurd rfl inner
    | inside => rfl
    | changed => rfl
    | left => rfl
  · rintro _ ⟨-, rfl⟩
    exact later

/-- A write ends the body. -/
theorem write_changes {store : Store} (guards : file.store = store) {data : store.Data} (value : A) :
    Fallible.wp (sections file) (writeAtomic store data >>= fun _ => pure value)
      (fun _ _ place => place = .inside ∨ place = .changed) .inside := by
  have changing : kindOf file (.write store (store.sorted data)) = some .change := if_pos guards.symm
  rw [Fallible.wp_bind, wp_writeAtomic]
  refine ⟨⟨_, changing, rfl⟩, ?_⟩
  rintro _ ⟨-, rfl⟩
  exact .inr (by simp only [changing]; rfl)

/-- A blank text ends the call before its section. -/
theorem named_sectioned {K : Type} {kind : ExcKind} {fields : List (String × String)} {key : K} {rest : K → Py A}
    (later : Fallible.wp (sections file) (rest key) (fun _ _ place => place = .left) .before) :
    Fallible.wp (sections file) ((requireTexts kind fields >>= fun _ => pure key) >>= rest)
      (fun _ _ place => place = .before ∨ place = .left) .before := by
  rw [Fallible.wp_bind, wp_checked]
  cases checkTexts kind fields with
  | error exc => exact .inl rfl
  | ok _ => exact Fallible.wp_mono later fun _ _ _ left => .inr left

/-- A note about the value does not enter again. -/
theorem tailed_sectioned {program : Py A} {point : A → Note}
    (ends : Fallible.wp (sections file) program (fun _ _ place => place = .left) .before) :
    Fallible.wp (sections file) (program >>= fun value => note (point value) >>= fun _ => pure value)
      (fun _ _ place => place = .left) .before := by
  rw [Fallible.wp_bind]
  apply Fallible.wp_mono ends
  rintro _ outcome _ rfl
  cases outcome with
  | error exc => rfl
  | ok value =>
      apply note_stays (by decide)
      rfl

/-- The answer of a call does not move it. -/
theorem answered_sectioned {B : Type} {program : Py B} {answer : B → A} {place : Place} {post : Place → Prop}
    (ends : Fallible.wp (sections file) program (fun _ _ => post) place) :
    Fallible.wp (sections file) (program >>= fun value => pure (answer value)) (fun _ _ => post) place := by
  rw [Fallible.wp_bind]
  apply Fallible.wp_mono ends
  intro _ outcome last reached
  cases outcome with
  | error exc => exact reached
  | ok value => exact reached

end

/-- Each call has one section with at most one change. -/
theorem perform_sectioned {file : LockFile} (call : StoreCall file) :
    (guarded file).Sectioned call.perform.toProgram := by
  cases call with
  | tryClaim assistant subject now staleAfter holder =>
      apply answered_sectioned
      apply named_sectioned
      apply section_leaves rfl
      intro data
      rw [Fallible.wp_ite]
      split
      · exact .inl rfl
      · apply note_stays (by decide)
        exact write_changes rfl _
  | release assistant subject holder =>
      apply answered_sectioned
      apply named_sectioned
      apply section_leaves rfl
      intro data
      rw [Fallible.wp_ite]
      split
      · apply note_stays (by decide)
        exact write_changes rfl ()
      · rw [wp_note]
        refine ⟨⟨_, rfl, rfl⟩, ?_⟩
        rintro _ ⟨-, rfl⟩
        exact .inl rfl
  | renew assistant subject now holder =>
      apply answered_sectioned
      apply named_sectioned
      apply section_leaves rfl
      intro data
      rw [Fallible.wp_ite]
      split
      · apply note_stays (by decide)
        exact write_changes rfl ()
      · exact .inl rfl
  | claim deployment threadId interruptId now =>
      apply answered_sectioned
      apply named_sectioned
      apply tailed_sectioned
      apply section_leaves rfl
      intro data
      rw [Fallible.wp_ite]
      split
      · exact .inl rfl
      · exact write_changes rfl _
  | recordOutcome deployment threadId interruptId outcome now =>
      apply answered_sectioned
      apply named_sectioned
      apply section_leaves rfl
      intro data
      cases data.get? (deployment, threadId, interruptId) with
      | none => exact .inl rfl
      | some record =>
          dsimp only
          rw [Fallible.wp_ite]
          split
          · exact write_changes rfl _
          · exact .inl rfl
  | getClaim deployment threadId interruptId =>
      apply answered_sectioned
      apply named_sectioned
      apply section_leaves rfl
      intro data
      exact .inl rfl

end Cordboard.LinearStores
