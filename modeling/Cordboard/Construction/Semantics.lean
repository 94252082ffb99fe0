import Cordboard.Construction.Storage
import Cordboard.Effects.Execution

namespace Cordboard
open Data Effects

/-- The record of a key in a file. A file that does not decode has no record. -/
def File.find? {K V : Type} [DecidableEq K] (file : File (Dict K V)) (key : K) : Option V :=
  match file with
  | .content data => data.get? key
  | _ => none

@[simp] theorem File.find?_content {K V : Type} [DecidableEq K] (data : Dict K V) (key : K) :
    (File.content data).find? key = data.get? key := rfl

@[simp] theorem File.find?_missing {K V : Type} [DecidableEq K] (key : K) :
    (File.missing : File (Dict K V)).find? key = none := rfl

@[simp] theorem File.find?_unreadable {K V : Type} [DecidableEq K] (corruption : Corruption) (key : K) :
    (File.unreadable corruption : File (Dict K V)).find? key = none := rfl

/-- A file decodes to its content, and a missing file decodes to no records. -/
theorem decode_eq_ok_iff (store : Store) (file : File store.Data) (data : store.Data) :
    decode store file = .ok data ↔ file = .missing ∧ data = store.initial ∨ file = .content data := by
  cases file <;> simp [decode, eq_comm]

/-- A write replaces one file and keeps the other ones. -/
def Board.put (board : Board) (store : Store) (data : store.Data) : Board :=
  Function.update board store (.content data)

@[simp] theorem Board.put_self (board : Board) (store : Store) (data : store.Data) :
    board.put store data store = .content data := Function.update_self ..

@[simp] theorem Board.put_of_ne (board : Board) {store other : Store} (different : other ≠ store)
    (data : store.Data) : board.put store data other = board other := Function.update_of_ne different ..

/-- One process alone on the board reads and replaces files. Each call can give any answer. -/
def boardStep (board : Board) : (op : Effect) → op.Answer → Board → Prop
  | .read store, answer, after => answer = board store ∧ after = board
  | .write store data, _, after => after = board.put store data
  | .lock _, _, after => after = board
  | .unlock _, _, after => after = board
  | .call _, _, after => after = board
  | .note _, _, after => after = board

/-- This machine runs one operation of the program after the other. -/
def boardMachine : Machine signature Board where
  guard _ _ := True
  step := boardStep

/-- Other processes may act between any two operations, so each operation can get any answer. -/
def openMachine : Machine signature Unit where
  guard _ _ := True
  step _ _ _ _ := True

/-- A run on a machine is a run among other processes. -/
theorem runs_open {S A : Type} {machine : Machine signature S} {program : Program signature A} {s final : S}
    {trace : List signature.Event} {value : A} (run : Runs machine program s trace value final) :
    Runs openMachine program () trace value () := by
  induction run with
  | pure value s => exact .pure value ()
  | perform move rest ih => exact .perform trivial ih

/-- A process is one call in a process of the operating system. -/
abbrev Pid := Nat

/-- The processes share the board and the owners of its locks. -/
structure World where
  board : Board
  owner : LockFile → Option Pid

/-- No process holds a lock on a fresh board. -/
def World.fresh (board : Board) : World := ⟨board, fun _ => none⟩

/-- A write replaces one file for every process. -/
def World.write (world : World) (store : Store) (data : store.Data) : World :=
  { world with board := world.board.put store data }

@[simp] theorem World.write_board (world : World) (store : Store) (data : store.Data) :
    (world.write store data).board = world.board.put store data := rfl

@[simp] theorem World.write_owner (world : World) (store : Store) (data : store.Data) :
    (world.write store data).owner = world.owner := rfl

/-- A process becomes the owner of a lock. -/
def World.take (pid : Pid) (world : World) (file : LockFile) : World :=
  { world with owner := Function.update world.owner file (some pid) }

@[simp] theorem World.take_board (pid : Pid) (world : World) (file : LockFile) :
    (world.take pid file).board = world.board := rfl

@[simp] theorem World.take_owner_self (pid : Pid) (world : World) (file : LockFile) :
    (world.take pid file).owner file = some pid := Function.update_self ..

/-- Only the owner of a lock frees it. -/
def World.free (pid : Pid) (world : World) (file : LockFile) : World :=
  { world with owner := fun other =>
      if other = file ∧ world.owner file = some pid then none else world.owner other }

@[simp] theorem World.free_board (pid : Pid) (world : World) (file : LockFile) :
    (world.free pid file).board = world.board := rfl

/-- A read, a write, and each operation on a lock is a step of its own. A lock waits for its owner. -/
def worldStep (pid : Pid) (world : World) : (op : Effect) → op.Answer → World → Prop
  | .read store, answer, after => answer = world.board store ∧ after = world
  | .write store data, _, after => after = world.write store data
  | .lock file, _, after => world.owner file = none ∧ after = world.take pid file
  | .unlock file, _, after => after = world.free pid file
  | .call _, _, after => after = world
  | .note _, _, after => after = world

/-- The operating system frees the locks of a process that stops. -/
def World.stop (pid : Pid) (world : World) : World :=
  { world with owner := fun file => if world.owner file = some pid then none else world.owner file }

/-- The processes act on the world one operation at a time. -/
def worldSharing : Sharing signature World Pid where
  step := worldStep
  crash := World.stop

/-- A history of the processes on one board. -/
abbrev Chronicle := History signature Pid

/-- A condition on the steps of the processes on one board. -/
abbrev StepCondition := Condition signature World Pid

/-- Every step is permitted. -/
def anyStep : StepCondition := fun _ _ _ => True

instance (history : Chronicle) (world : World) (label : Label signature Pid) :
    Decidable (anyStep history world label) := .isTrue trivial

/-- The contents that one file has had so far, the newest one first. -/
def contents (store : Store) (start : File store.Data) : Chronicle → List (File store.Data)
  | [] => [start]
  | .act _ ⟨.write other data, _⟩ :: history =>
      if same : other = store then .content (same ▸ data) :: contents store start history
      else contents store start history
  | _ :: history => contents store start history

/-- The file that the history leaves behind. -/
def fileAfter (store : Store) (start : File store.Data) : Chronicle → File store.Data
  | [] => start
  | .act _ ⟨.write other data, _⟩ :: history =>
      if same : other = store then .content (same ▸ data) else fileAfter store start history
  | _ :: history => fileAfter store start history

/-- An operation that reads the store replaces what the process has seen of it. -/
def readBy (store : Store) : (op : Effect) → op.Answer → Option (File store.Data) → Option (File store.Data)
  | .read other, file, seen => if same : other = store then some (same ▸ file) else seen
  | _, _, seen => seen

/-- The file that a process read last. -/
def lastRead (store : Store) (pid : Pid) : Chronicle → Option (File store.Data)
  | [] => none
  | .act other event :: history =>
      if other = pid then readBy store event.1 event.2 (lastRead store pid history) else lastRead store pid history
  | .crash _ :: history => lastRead store pid history

/-- The operation replaces the file of the store. -/
def Effect.writes (store : Store) : Effect → Bool
  | .write other _ => other = store
  | _ => false

/-- The keys of a file. A file that does not decode has no keys. -/
def File.keys {K V : Type} (file : File (Dict K V)) : List K :=
  match file with
  | .content data => data.keys
  | _ => []

theorem File.mem_keys_iff {K V : Type} [DecidableEq K] (file : File (Dict K V)) (key : K) :
    key ∈ file.keys ↔ (file.find? key).isSome := by
  cases file with
  | content data =>
      rw [File.find?_content, ← not_iff_not]
      simpa [keys] using (data.get?_eq_none_iff key).symm
  | _ => simp [keys]

end Cordboard
