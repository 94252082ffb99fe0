import Cordboard.Construction.LiveRun
import Cordboard.Proof.Archive.Checked
import Mathlib.Data.Fintype.Card

namespace Cordboard.Cli
open Data AegraClient LiveReconciliation

variable {I : Type} [DecidableEq I]

/-- The messages that one worker put into the queue. -/
def ofWorker (worker : I) (queue : List (Entry I)) : List Message :=
  (queue.filter fun entry => entry.worker = worker).map Entry.message

/-- The queue merges the messages of the workers in some order. -/
def Interleaves (workers : I → List Message) (queue : List (Entry I)) : Prop :=
  ∀ worker, ofWorker worker queue = workers worker

section
variable {worker : I} {entry : Entry I} {first second queue : List (Entry I)}

@[simp] theorem ofWorker_nil (worker : I) : ofWorker worker ([] : List (Entry I)) = [] := rfl

@[simp] theorem ofWorker_append : ofWorker worker (first ++ second) = ofWorker worker first ++ ofWorker worker second := by
  rw [ofWorker, List.filter_append, List.map_append]
  rfl

theorem ofWorker_cons_self : ofWorker entry.worker (entry :: queue) = entry.message :: ofWorker entry.worker queue := by
  simp [ofWorker]

theorem ofWorker_cons_ne (other : entry.worker ≠ worker) : ofWorker worker (entry :: queue) = ofWorker worker queue := by
  simp [ofWorker, other]

theorem mem_ofWorker {message : Message} : message ∈ ofWorker worker queue ↔
    ∃ entry ∈ queue, entry.worker = worker ∧ entry.message = message := by
  simp [ofWorker, and_assoc]

/-- The messages of a worker stand around each of its entries. -/
theorem ofWorker_split : ofWorker entry.worker (first ++ entry :: second) =
    ofWorker entry.worker first ++ entry.message :: ofWorker entry.worker second := by
  rw [ofWorker_append, ofWorker_cons_self]

end

def Message.isDone : Message → Bool
  | .done .. => true
  | _ => false

/-- The last message of a worker is its only `done`. -/
structure Ends (messages : List Message) : Prop where
  last : ∃ body message, messages = body ++ [message] ∧ message.isDone = true ∧ ∀ other ∈ body, other.isDone = false

theorem Ends.cons {message : Message} {rest : List Message} (ends : Ends (message :: rest)) :
    if message.isDone then rest = [] else Ends rest := by
  obtain ⟨body, last, same, done, others⟩ := ends.last
  cases body with
  | nil =>
      obtain ⟨rfl, rfl⟩ := List.cons.inj same
      rw [if_pos done]
  | cons first body =>
      obtain ⟨rfl, rfl⟩ := List.cons.inj same
      have open_ : message.isDone = false := others message (by simp)
      rw [open_, if_neg Bool.false_ne_true]
      exact ⟨body, last, rfl, done, fun other member => others other (List.mem_cons_of_mem _ member)⟩

section
variable {builtins : Builtins} {target : WatchTarget} {answers : WatchAnswers}

theorem failure_open (text : String) : (failure target text).isDone = false := rfl

theorem watchStream_open {identity : Description} {graphId : Json} :
    ∀ message ∈ watchStream target answers identity graphId, message.isDone = false := by
  unfold watchStream
  intro message member
  split at member
  · cases member
  · rcases List.mem_append.mp member with member | member
    · rcases List.mem_cons.mp member with rfl | member
      · rfl
      · obtain ⟨_, _, rfl⟩ := List.mem_map.mp member
        rfl
    · split at member
      · split at member
        · rw [List.mem_singleton.mp member]
          exact failure_open _
        · cases member
      · cases member

theorem watchWorkerBody_open : ∀ message ∈ watchWorkerBody builtins target answers, message.isDone = false := by
  unfold watchWorkerBody
  intro message member
  split at member
  · split at member
    · rw [List.mem_singleton.mp member]
      exact failure_open _
    · cases member
  · dsimp only at member
    split at member
    · split at member
      · rw [List.mem_singleton.mp member]
        exact failure_open _
      · cases member
    · rw [List.mem_singleton.mp member]
      exact failure_open _
    · exact watchStream_open message member

theorem watchWorker_ends : Ends (watchWorker builtins target answers) :=
  ⟨_, _, rfl, rfl, watchWorkerBody_open⟩

end

/-- The table after all messages of the queue. -/
def consumed (builtins : Builtins) (queue : List (Entry I)) : Except Exc LiveRuns :=
  queue.foldlM (fun liveById entry => consumeMessage builtins liveById entry.message entry.now) Dict.empty

omit [DecidableEq I] in
theorem consumed_snoc (builtins : Builtins) (queue : List (Entry I)) (entry : Entry I) :
    consumed builtins (queue ++ [entry]) =
      consumed builtins queue >>= fun liveById => consumeMessage builtins liveById entry.message entry.now := by
  unfold consumed
  rw [List.foldlM_append]
  congr 1
  funext liveById
  rw [List.foldlM_cons]
  cases consumeMessage builtins liveById entry.message entry.now <;> rfl

section
variable [Fintype I]

/-- The workers that still owe their `done`. -/
def unfinished (parts : I → List Message) : Finset I := Finset.univ.filter fun worker => (parts worker).isEmpty = false

theorem unfinished_done {parts : I → List Message} {worker : I} {message : Message}
    (first : parts worker = [message]) :
    (unfinished (Function.update parts worker [])).card + 1 = (unfinished parts).card := by
  have member : worker ∈ unfinished parts := by simp [unfinished, first]
  have same : unfinished (Function.update parts worker []) = (unfinished parts).erase worker := by
    ext other
    by_cases equal : other = worker
    · simp [unfinished, equal]
    · simp [unfinished, equal]
  rw [same]
  exact Finset.card_erase_add_one member

theorem unfinished_open {parts : I → List Message} {worker : I} {message : Message} {rest : List Message}
    (first : parts worker = message :: rest) (more : rest ≠ []) :
    unfinished (Function.update parts worker rest) = unfinished parts := by
  ext other
  by_cases equal : other = worker
  · subst other
    simp [unfinished, first, more]
  · simp [unfinished, equal]

/-- The loop takes every message of the queue and then returns. -/
theorem consume_all {builtins : Builtins} {queue : List (Entry I)} {parts : I → List Message}
    (merged : Interleaves parts queue) (ends : ∀ worker, parts worker = [] ∨ Ends (parts worker)) (liveById : LiveRuns) :
    consume builtins (unfinished parts).card queue liveById =
      (queue.foldlM (fun liveById entry => consumeMessage builtins liveById entry.message entry.now) liveById).map some := by
  induction queue generalizing parts liveById with
  | nil =>
      have none : unfinished parts = ∅ := by
        apply Finset.filter_eq_empty_iff.mpr
        intro worker _
        rw [← merged worker]
        simp
      rw [none]
      rfl
  | cons entry rest ih =>
      have first : parts entry.worker = entry.message :: ofWorker entry.worker rest := by
        rw [← merged entry.worker, ofWorker_cons_self]
      have closes := (ends entry.worker).resolve_left (by rw [first]; exact List.cons_ne_nil _ _)
      rw [first] at closes
      have next := closes.cons
      have later : Interleaves (Function.update parts entry.worker (ofWorker entry.worker rest)) rest := by
        intro worker
        by_cases same : worker = entry.worker
        · subst worker
          rw [Function.update_self]
        · rw [Function.update_of_ne same, ← merged worker, ofWorker_cons_ne (Ne.symm same)]
      have kept : ∀ worker, Function.update parts entry.worker (ofWorker entry.worker rest) worker = [] ∨
          Ends (Function.update parts entry.worker (ofWorker entry.worker rest) worker) := by
        intro worker
        by_cases same : worker = entry.worker
        · subst worker
          rw [Function.update_self]
          cases done : entry.message.isDone with
          | true => exact .inl (by rwa [done, if_pos rfl] at next)
          | false => exact .inr (by rwa [done, if_neg Bool.false_ne_true] at next)
        · rw [Function.update_of_ne same]
          exact ends worker
      have step := fun table => ih later kept table
      cases message : entry.message with
      | done threadId runId =>
          rw [message, Message.isDone, if_pos rfl] at next
          rw [next] at step first
          rw [message] at first
          rw [← unfinished_done first, List.foldlM_cons]
          unfold consume
          rw [message]
          exact step liveById
      | _ =>
          rw [message] at next first
          simp only [Message.isDone, Bool.false_eq_true, if_false] at next
          have more : ofWorker entry.worker rest ≠ [] := by
            obtain ⟨body, last, same, _⟩ := next.last
            rw [same]
            simp
          rw [unfinished_open first more] at step
          have positive : 0 < (unfinished parts).card := by
            apply Finset.card_pos.mpr
            exact ⟨entry.worker, by simp [unfinished, first]⟩
          obtain ⟨count, size⟩ := Nat.exists_eq_succ_of_ne_zero (Nat.ne_of_gt positive)
          rw [size] at step ⊢
          rw [List.foldlM_cons]
          unfold consume
          rw [message]
          dsimp only
          cases consumeMessage builtins liveById _ entry.now with
          | error exc => rfl
          | ok table => exact step table

theorem consume_workers {builtins : Builtins} {queue : List (Entry I)} {parts : I → List Message}
    (merged : Interleaves parts queue) (ends : ∀ worker, Ends (parts worker)) :
    consume builtins (Fintype.card I) queue Dict.empty = (consumed builtins queue).map some := by
  have all : unfinished parts = Finset.univ := by
    apply Finset.filter_true_of_mem
    intro worker _
    obtain ⟨body, last, same, _⟩ := (ends worker).last
    rw [same]
    simp
  rw [← Finset.card_univ, ← all]
  exact consume_all merged (fun worker => .inr (ends worker)) _

end

end Cordboard.Cli
