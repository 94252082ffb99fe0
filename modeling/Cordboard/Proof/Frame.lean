import Cordboard.Proof.Footprint
import Cordboard.Proof.Primitives

namespace Cordboard
open Data Effects

/-- The store that a lock file guards. -/
def LockFile.store : LockFile → Store
  | .concurrency => .concurrency
  | .responseDedupe => .responseDedupe

/-- Only an operation in the area of a store writes it. -/
theorem writes_of_area {op : Effect} {store : Store} (outside : op.area ≠ .store store) : op.writes store = false := by
  cases op with
  | write other data => exact decide_eq_false fun same => outside (congrArg Area.store same)
  | _ => rfl

/-- An operation that does not write a store keeps its file. -/
theorem boardStep_frame {board after : Board} {op : Effect} {answer : op.Answer}
    (move : boardStep board op answer after) {store : Store} (quiet : op.writes store = false) :
    after store = board store := by
  cases op with
  | write other data =>
      obtain rfl := move
      have different : store ≠ other := fun same => of_decide_eq_false quiet same.symm
      exact board.put_of_ne different data
  | read other => rw [move.2]
  | lock file => rw [show after = board from move]
  | unlock file => rw [show after = board from move]
  | call target => rw [show after = board from move]
  | note point => rw [show after = board from move]

/-- The file of the store decodes. -/
def Readable (store : Store) (board : Board) : Prop := ∃ data, decode store (board store) = .ok data

/-- A file that stays as it was stays readable. -/
theorem Readable.stays {store : Store} {board after : Board} (readable : Readable store board)
    (same : after store = board store) : Readable store after := by
  unfold Readable
  rw [same]
  exact readable

/-- A write leaves readable data. -/
theorem readable_step {board after : Board} {op : Effect} {answer : op.Answer} (move : boardStep board op answer after)
    {store : Store} (readable : Readable store board) : Readable store after := by
  cases writes : op.writes store with
  | false =>
      obtain ⟨data, decoded⟩ := readable
      exact ⟨data, by rw [boardStep_frame move writes, decoded]⟩
  | true =>
      cases op with
      | write other data =>
          obtain rfl : other = store := of_decide_eq_true writes
          obtain rfl := move
          exact ⟨data, by rw [Board.put_self]; rfl⟩
      | _ => cases writes

/-- An operation that does not write a store keeps its file for every process. -/
theorem worldStep_frame {pid : Pid} {world after : World} {op : Effect} {answer : op.Answer}
    (move : worldStep pid world op answer after) {store : Store} (quiet : op.writes store = false) :
    after.board store = world.board store := by
  cases op with
  | write other data =>
      obtain rfl := move
      have different : store ≠ other := fun same => of_decide_eq_false quiet same.symm
      exact world.board.put_of_ne different data
  | read other => rw [move.2]
  | lock file => rw [move.2, World.take_board]
  | unlock file => rw [show after = world.free pid file from move, World.free_board]
  | call target => rw [show after = world from move]
  | note point => rw [show after = world from move]

/-- An operation outside the area of a store keeps the owner of its lock. -/
theorem worldStep_owner {pid : Pid} {world after : World} {op : Effect} {answer : op.Answer}
    (move : worldStep pid world op answer after) (file : LockFile) (outside : op.area ≠ .store file.store) :
    after.owner file = world.owner file := by
  cases op with
  | write other data => rw [show after = world.write other data from move, World.write_owner]
  | read other => rw [move.2]
  | lock other =>
      have different : file ≠ other := by
        rintro rfl
        cases file <;> exact outside rfl
      rw [move.2]
      exact Function.update_of_ne different _ _
  | unlock other =>
      have different : file ≠ other := by
        rintro rfl
        cases file <;> exact outside rfl
      rw [show after = world.free pid other from move]
      simp [World.free, different]
  | call target => rw [show after = world from move]
  | note point => rw [show after = world from move]

/-- An operation outside the area of a store adds nothing to the contents of its file. -/
theorem contents_frame {pid : Pid} {op : Effect} {answer : op.Answer} {store : Store} (start : File store.Data)
    (history : Chronicle) (outside : op.area ≠ .store store) :
    contents store start (.act pid ⟨op, answer⟩ :: history) = contents store start history := by
  cases op with
  | write other data =>
      have different : other ≠ store := fun same => outside (congrArg Area.store same)
      simp only [contents, different, dif_neg, not_false_eq_true]
  | _ => rfl

@[simp] theorem contents_write {pid : Pid} {answer : Unit} {store : Store} (start : File store.Data)
    (data : store.Data) (history : Chronicle) :
    contents store start (.act pid ⟨Effect.write store data, answer⟩ :: history) =
      .content data :: contents store start history := by
  simp [contents]

private theorem program_within {A : Type} {areas : List Area} {program : Program signature A}
    (within : program.Uses fun effect : Effect => effect.area ∈ areas) (board : Board) :
    program.wp boardMachine (fun trace _ after => (∀ event ∈ trace, event.1.area ∈ areas) ∧
      ∀ store, .store store ∉ areas → after store = board store) board := by
  induction program generalizing board with
  | pure value => exact ⟨List.forall_mem_nil _, fun _ _ => rfl⟩
  | perform op next ih =>
      refine ⟨trivial, fun answer middle move => Program.wp_mono (ih answer (within.2 answer) middle) ?_⟩
      rintro trace outcome after ⟨inside, kept⟩
      refine ⟨?_, fun store outside => ?_⟩
      · intro event member
        rcases List.mem_cons.mp member with rfl | later
        · exact within.1
        · exact inside event later
      · have inside : Effect.area op ∈ areas := within.1
        rw [kept store outside]
        refine boardStep_frame move (writes_of_area fun same => outside ?_)
        rw [← same]
        exact inside

/-- The file on the board is the one that the history left behind. -/
theorem fileAfter_act {pid : Pid} {world after : World} {op : Effect} {answer : op.Answer} {store : Store}
    (start : File store.Data) {history : Chronicle} (move : worldStep pid world op answer after)
    (before : world.board store = fileAfter store start history) :
    after.board store = fileAfter store start (.act pid ⟨op, answer⟩ :: history) := by
  by_cases writing : op.writes store = true
  · cases op with
    | write other data =>
        obtain rfl : other = store := by simpa [Effect.writes] using writing
        obtain rfl := move
        simp [fileAfter]
    | _ => cases writing
  · rw [worldStep_frame move (by simpa using writing), before]
    cases op with
    | write other data =>
        have different : other ≠ store := by simpa [Effect.writes] using writing
        simp only [fileAfter, different, dif_neg, not_false_eq_true]
    | _ => rfl

/-- A program keeps the files outside its areas, and each of its events lies inside them. -/
theorem wp_within {A : Type} {areas : List Area} {program : Py A} (within : Within areas program) (board : Board) :
    Fallible.wp boardMachine program (fun trace _ after => (∀ event ∈ trace, event.1.area ∈ areas) ∧
      ∀ store, .store store ∉ areas → after store = board store) board :=
  program_within within board

/-- A program outside the areas that a protocol follows keeps every phase. -/
theorem wp_neutral {A : Type} {areas : List Area} (protocol : Protocol signature)
    (neutral : ∀ phase (op : Effect), op.area ∈ areas →
      protocol.guard phase op ∧ ∀ answer, protocol.next phase op answer = phase)
    {program : Py A} (within : Within areas program) (phase : protocol.Phase) :
    Fallible.wp protocol.machine program (fun _ _ after => after = phase) phase :=
  Fallible.wp_of_uses (Fallible.Uses.mono within fun op inside =>
    ⟨(neutral phase op inside).1, fun answer _ moved => moved.trans ((neutral phase op inside).2 answer)⟩)

/-- A view of the phases that follows the reads is what each process read last. -/
theorem view_eq_lastRead (protocol : Protocol signature) (store : Store)
    (view : protocol.Phase → Option (File store.Data))
    (follows : ∀ phase (op : Effect) (answer : op.Answer),
      view (protocol.next phase op answer) = readBy store op answer (view phase))
    {start : Pid → protocol.Phase} (unread : ∀ pid, view (start pid) = none) (history : Chronicle) (pid : Pid) :
    view (protocol.phase start history pid) = lastRead store pid history := by
  induction history with
  | nil => exact unread pid
  | cons label history ih =>
      cases label with
      | crash other => exact ih
      | act other event =>
          by_cases same : other = pid
          · subst other
            rw [Protocol.phase_act_self, follows, ih, lastRead, if_pos rfl]
          · rw [Protocol.phase_act_of_ne protocol start (Ne.symm same), ih, lastRead, if_neg same]

end Cordboard
