import Cordboard.Effects.Session
import Cordboard.Proof.Frame
import Cordboard.Proof.Stores

namespace Cordboard
open Data Effects

/-- A lens names the areas that a watch follows, with the files that its invariants read. -/
structure Lens (watch : Watch boardMachine) where
  areas : List Area
  stores : List Store
  covered : ∀ store ∈ stores, .store store ∈ areas
  neutral : ∀ (phase : watch.Phase) (op : Effect) (answer : op.Answer), op.area ∉ areas →
    watch.next phase op answer = phase
  free : ∀ board phase, watch.safe board phase

namespace Lens

variable {watch : Watch boardMachine} (lens : Lens watch) {A : Type}

/-- The followed files and the phase are those of the earlier state. -/
def Still (before after : Board × watch.Phase) : Prop :=
  (∀ store ∈ lens.stores, after.1 store = before.1 store) ∧ after.2 = before.2

variable {lens}

theorem still_refl (state : Board × watch.Phase) : lens.Still state state := ⟨fun _ _ => rfl, rfl⟩

/-- A program outside the areas of the watch keeps what the watch follows. -/
theorem keeps_still {areas : List Area} {program : Py A} (within : Within areas program)
    (disjoint : ∀ area ∈ areas, area ∉ lens.areas) (before : Board × watch.Phase) :
    Fallible.Keeps watch.along (lens.Still before) program := by
  apply Fallible.keeps_of_uses (Fallible.Uses.mono within ?_)
  intro op inside state still
  have outside : op.area ∉ lens.areas := disjoint _ inside
  refine ⟨⟨trivial, lens.free _ _⟩, ?_⟩
  rintro answer after ⟨move, moved, _⟩
  refine ⟨?_, moved.trans ((lens.neutral state.2 op answer outside).trans still.2)⟩
  intro store member
  have unwritten : op.area ≠ .store store := fun same => outside (same ▸ lens.covered store member)
  exact (boardStep_frame move (writes_of_area unwritten)).trans (still.1 store member)

/-- A program outside the areas of the watch keeps each predicate on what the watch follows. -/
theorem keeps_within {holds : Board × watch.Phase → Prop}
    (follows : ∀ before after, lens.Still before after → holds before → holds after) {areas : List Area}
    {program : Py A} (within : Within areas program) (disjoint : ∀ area ∈ areas, area ∉ lens.areas) :
    Fallible.Keeps watch.along holds program := by
  intro state held
  apply Fallible.wp_mono (keeps_still within disjoint state state (still_refl state))
  exact fun _ _ after still => follows state after still held

/-- A program outside the areas of the watch runs as it does without the watch. -/
theorem wp_beside {areas : List Area} {program : Py A} (within : Within areas program)
    (disjoint : ∀ area ∈ areas, area ∉ lens.areas) {post : List signature.Event → Except Exc A → Board → Prop}
    {board : Board} (pre : Fallible.wp boardMachine program post board) (phase : watch.Phase) :
    Fallible.wp watch.along program (fun trace outcome after => post trace outcome after.1 ∧ after.2 = phase ∧
      ∀ store ∈ lens.stores, after.1 store = board store) (board, phase) := by
  have silent : program.toProgram.Uses fun op => ∀ phase answer, watch.next phase op answer = phase := by
    apply Fallible.Uses.mono within
    exact fun op inside phase answer => lens.neutral phase op answer (disjoint _ inside)
  have still := keeps_still within disjoint (board, phase) (board, phase) (still_refl _)
  have both := Program.wp_and (Watch.wp_silent lens.free silent pre phase) still
  exact Program.wp_mono both fun _ _ _ reached => ⟨reached.1.1, reached.1.2, reached.2.1⟩

end Lens

/-- A readable file stays readable. -/
theorem wp_readable {watch : Watch boardMachine} (free : ∀ board phase, watch.safe board phase) (store : Store)
    {A : Type} (program : Py A) (start : Board × watch.Phase) :
    Fallible.wp watch.along program (fun _ _ after => Readable store start.1 → Readable store after.1) start := by
  have keeps : Fallible.Keeps watch.along (fun state => Readable store start.1 → Readable store state.1) program := by
    apply Fallible.keeps_of_uses
    apply Program.uses_of_all
    intro op state kept
    exact ⟨⟨trivial, free _ _⟩, fun answer after move readable => readable_step move.1 (kept readable)⟩
  exact keeps start id

section
variable {watch : Watch boardMachine} (free : ∀ board phase, watch.safe board phase) {board : Board}
  {phase : watch.Phase}
include free

/-- A read decodes the file of the board. -/
theorem watched_load {store : Store} {post : List signature.Event → Except Exc store.Data → Board × watch.Phase → Prop}
    (loaded : watch.meets board phase (.read store) (board store) →
      post [⟨Effect.read store, board store⟩] (decode store (board store))
        (board, watch.next phase (.read store) (board store))) :
    Fallible.wp watch.along (load store) post (board, phase) := by
  rw [wp_load]
  refine ⟨⟨trivial, free _ _⟩, ?_⟩
  rintro file ⟨after, moved⟩ ⟨⟨rfl, same⟩, follows, meets⟩
  have still : after = board := same
  have next : moved = watch.next phase (.read store) (board store) := follows
  rw [still, next]
  exact loaded meets

/-- A write replaces the file of the board. -/
theorem watched_write {store : Store} {data : store.Data}
    {post : List signature.Event → Except Exc Unit → Board × watch.Phase → Prop}
    (written : watch.meets board phase (.write store (store.sorted data)) () →
      post [⟨Effect.write store (store.sorted data), ()⟩] (.ok ())
        (board.put store (store.sorted data), watch.next phase (.write store (store.sorted data)) ())) :
    Fallible.wp watch.along (writeAtomic store data) post (board, phase) := by
  rw [wp_writeAtomic]
  refine ⟨⟨trivial, free _ _⟩, ?_⟩
  rintro ⟨after, moved⟩ ⟨same, follows, meets⟩
  have put : after = board.put store (store.sorted data) := same
  have next : moved = watch.next phase (.write store (store.sorted data)) () := follows
  rw [put, next]
  exact written meets

/-- A note keeps the board. -/
theorem watched_note {point : Note} {post : List signature.Event → Except Exc Unit → Board × watch.Phase → Prop}
    (noted : watch.meets board phase (.note point) () →
      post [⟨Effect.note point, ()⟩] (.ok ()) (board, watch.next phase (.note point) ())) :
    Fallible.wp watch.along (note point) post (board, phase) := by
  rw [wp_note]
  refine ⟨⟨trivial, free _ _⟩, ?_⟩
  rintro ⟨after, moved⟩ ⟨same, follows, meets⟩
  have still : after = board := same
  have next : moved = watch.next phase (.note point) () := follows
  rw [still, next]
  exact noted meets

/-- A call can give any answer that the watch permits. -/
theorem watched_call {target : Call} {post : List signature.Event → Except Exc target.Answer → Board × watch.Phase → Prop}
    (answered : ∀ answer, watch.meets board phase (.call target) answer →
      post [⟨Effect.call target, answer⟩] (.ok answer) (board, watch.next phase (.call target) answer)) :
    Fallible.wp watch.along (call target) post (board, phase) := by
  rw [wp_call]
  refine ⟨⟨trivial, free _ _⟩, ?_⟩
  rintro answer ⟨after, moved⟩ ⟨same, follows, meets⟩
  have still : after = board := same
  have next : moved = watch.next phase (.call target) answer := follows
  rw [still, next]
  exact answered answer meets

/-- A watch that does not follow the lock sees the body only. -/
theorem watched_locked {file : LockFile} {A : Type} {body : Py A} {post : Except Exc A → Board × watch.Phase → Prop}
    (entering : ∀ phase, watch.next phase (.lock file) () = phase)
    (leaving : ∀ phase, watch.next phase (.unlock file) () = phase)
    (inside : Fallible.wp watch.along body (fun _ => post) (board, phase)) :
    Fallible.wp watch.along (locked file body) (fun _ => post) (board, phase) := by
  rw [wp_locked]
  refine ⟨⟨trivial, free _ _⟩, ?_⟩
  rintro ⟨entered, moved⟩ ⟨same, follows, _⟩
  have still : entered = board := same
  have next : moved = phase := follows.trans (entering phase)
  rw [still, next]
  apply Fallible.wp_mono inside
  rintro _ outcome ⟨left, reached⟩ held
  refine ⟨⟨trivial, free _ _⟩, ?_⟩
  rintro ⟨after, last⟩ ⟨same, follows, _⟩
  have still : after = left := same
  have next : last = reached := follows.trans (leaving reached)
  rw [still, next]
  exact held

end

end Cordboard
