import Cordboard.Construction.Semantics

namespace Cordboard
open Data Effects

section
variable {S A : Type} {machine : Machine signature S} {s : S}

@[simp] theorem wp_raise (kind : ExcKind) (message : String) (post : List signature.Event → Except Exc A → S → Prop) :
    Fallible.wp machine (raise kind message) post s ↔ post [] (.error ⟨kind, message⟩) s := Iff.rfl

/-- The answer type is not indexed, because it reduces once the store is known. -/
@[simp] theorem wp_readFile (store : Store)
    (post : List signature.Event → Except Exc (File store.Data) → S → Prop) :
    @Fallible.wp _ _ (no_index (File store.Data)) _ machine (readFile store) post s ↔ machine.guard s (Effect.read store) ∧
      ∀ file after, machine.step s (Effect.read store) file after →
        post [⟨Effect.read store, file⟩] (.ok file) after := Iff.rfl

@[simp] theorem wp_lock (file : LockFile) (post : List signature.Event → Except Exc Unit → S → Prop) :
    Fallible.wp machine (lock file) post s ↔ machine.guard s (Effect.lock file) ∧
      ∀ after, machine.step s (Effect.lock file) () after → post [⟨Effect.lock file, ()⟩] (.ok ()) after :=
  ⟨fun pre => ⟨pre.1, pre.2 ()⟩, fun pre => ⟨pre.1, fun _ => pre.2⟩⟩

@[simp] theorem wp_unlock (file : LockFile) (post : List signature.Event → Except Exc Unit → S → Prop) :
    Fallible.wp machine (unlock file) post s ↔ machine.guard s (Effect.unlock file) ∧
      ∀ after, machine.step s (Effect.unlock file) () after → post [⟨Effect.unlock file, ()⟩] (.ok ()) after :=
  ⟨fun pre => ⟨pre.1, pre.2 ()⟩, fun pre => ⟨pre.1, fun _ => pre.2⟩⟩

@[simp] theorem wp_note (point : Note) (post : List signature.Event → Except Exc Unit → S → Prop) :
    Fallible.wp machine (note point) post s ↔ machine.guard s (Effect.note point) ∧
      ∀ after, machine.step s (Effect.note point) () after → post [⟨Effect.note point, ()⟩] (.ok ()) after :=
  ⟨fun pre => ⟨pre.1, pre.2 ()⟩, fun pre => ⟨pre.1, fun _ => pre.2⟩⟩

@[simp] theorem wp_call (target : Call) (post : List signature.Event → Except Exc target.Answer → S → Prop) :
    @Fallible.wp _ _ (no_index target.Answer) _ machine (call target) post s ↔ machine.guard s (Effect.call target) ∧
      ∀ answer after, machine.step s (Effect.call target) answer after →
        post [⟨Effect.call target, answer⟩] (.ok answer) after := Iff.rfl

@[simp] theorem wp_writeAtomic (store : Store) (data : store.Data)
    (post : List signature.Event → Except Exc Unit → S → Prop) :
    Fallible.wp machine (writeAtomic store data) post s ↔
      machine.guard s (Effect.write store (store.sorted data)) ∧
      ∀ after, machine.step s (Effect.write store (store.sorted data)) () after →
        post [⟨Effect.write store (store.sorted data), ()⟩] (.ok ()) after :=
  ⟨fun pre => ⟨pre.1, pre.2 ()⟩, fun pre => ⟨pre.1, fun _ => pre.2⟩⟩

/-- A load is one read. Its outcome depends on the file alone. -/
@[simp] theorem wp_load (store : Store) (post : List signature.Event → Except Exc store.Data → S → Prop) :
    @Fallible.wp _ _ (no_index store.Data) _ machine (load store) post s ↔ machine.guard s (Effect.read store) ∧
      ∀ file after, machine.step s (Effect.read store) file after →
        post [⟨Effect.read store, file⟩] (decode store file) after := by
  simp only [load, Fallible.wp_bind, wp_readFile, Fallible.after_ok, Fallible.wp_ofExcept, List.append_nil]

@[simp] theorem wp_whenever (condition : Bool) (body : Py Unit)
    (post : List signature.Event → Except Exc Unit → S → Prop) :
    Fallible.wp machine (whenever condition body) post s ↔
      if condition then Fallible.wp machine body post s else post [] (.ok ()) s := by
  cases condition <;> rfl

/-- The first blank text decides the error. -/
def checkTexts (kind : ExcKind) (fields : List (String × String)) : Except Exc Unit :=
  match fields.find? fun field => blank field.2 with
  | some field => .error ⟨kind, field.1 ++ " must be a non-empty string"⟩
  | none => .ok ()

theorem requireTexts_eq (kind : ExcKind) (fields : List (String × String)) :
    requireTexts kind fields = Fallible.ofExcept (checkTexts kind fields) := by
  induction fields with
  | nil => rfl
  | cons field rest ih =>
      unfold requireTexts checkTexts
      by_cases empty : blank field.2 = true
      · simp only [empty, if_true, List.find?_cons_of_pos]
        rfl
      · simp only [empty, List.find?_cons_of_neg, not_false_eq_true, Bool.false_eq_true, if_false]
        exact ih

@[simp] theorem wp_requireTexts (kind : ExcKind) (fields : List (String × String))
    (post : List signature.Event → Except Exc Unit → S → Prop) :
    Fallible.wp machine (requireTexts kind fields) post s ↔ post [] (checkTexts kind fields) s := by
  rw [requireTexts_eq, Fallible.wp_ofExcept]

theorem checkTexts_ok {kind : ExcKind} {fields : List (String × String)} (checked : checkTexts kind fields = .ok ()) :
    ∀ field ∈ fields, blank field.2 = false := by
  intro field member
  unfold checkTexts at checked
  split at checked
  · cases checked
  · rename_i none
    simpa using List.find?_eq_none.mp none field member

/-- A blank text raises the error class of its check. -/
theorem kind_of_checkTexts {kind : ExcKind} {fields : List (String × String)} {exc : Exc}
    (failed : checkTexts kind fields = .error exc) : exc.kind = kind := by
  unfold checkTexts at failed
  split at failed
  · cases failed
    rfl
  · cases failed

/-- The body runs between the lock and the unlock, whatever its outcome. -/
@[simp] theorem wp_locked (file : LockFile) (body : Py A)
    (post : List signature.Event → Except Exc A → S → Prop) :
    Fallible.wp machine (locked file body) post s ↔ machine.guard s (Effect.lock file) ∧
      ∀ entered, machine.step s (Effect.lock file) () entered →
        Fallible.wp machine body (fun trace outcome left => machine.guard left (Effect.unlock file) ∧
          ∀ after, machine.step left (Effect.unlock file) () after →
            post (⟨Effect.lock file, ()⟩ :: (trace ++ [⟨Effect.unlock file, ()⟩])) outcome after) entered := by
  simp only [locked, Fallible.wp_bind, wp_lock, Fallible.after_ok, Fallible.wp_attempt, wp_unlock,
    Fallible.wp_ofExcept, List.singleton_append]

end

section
variable {board after : Board}

@[simp] theorem boardMachine_guard (op : Effect) : boardMachine.guard board op ↔ True := Iff.rfl

@[simp] theorem boardMachine_read (store : Store) (file : File store.Data) :
    boardMachine.step board (Effect.read store) file after ↔ file = board store ∧ after = board := Iff.rfl

@[simp] theorem boardMachine_write (store : Store) (data : store.Data) (answer : Unit) :
    boardMachine.step board (Effect.write store data) answer after ↔ after = board.put store data := Iff.rfl

@[simp] theorem boardMachine_lock (file : LockFile) (answer : Unit) :
    boardMachine.step board (Effect.lock file) answer after ↔ after = board := Iff.rfl

@[simp] theorem boardMachine_unlock (file : LockFile) (answer : Unit) :
    boardMachine.step board (Effect.unlock file) answer after ↔ after = board := Iff.rfl

@[simp] theorem boardMachine_call (target : Call) (answer : target.Answer) :
    boardMachine.step board (Effect.call target) answer after ↔ after = board := Iff.rfl

@[simp] theorem boardMachine_note (point : Note) (answer : Unit) :
    boardMachine.step board (Effect.note point) answer after ↔ after = board := Iff.rfl

end

end Cordboard
