import Cordboard.Proof.Primitives
import Cordboard.Construction.Claims
import Cordboard.Construction.Tracking

namespace Cordboard
open Data Effects

/-- A key check returns its key or the error of the first blank text. -/
theorem wp_checked {S A : Type} {machine : Machine signature S} (kind : ExcKind) (fields : List (String × String))
    (value : A) (post : List signature.Event → Except Exc A → S → Prop) (s : S) :
    Fallible.wp machine (requireTexts kind fields >>= fun _ => pure value) post s ↔
      post [] ((checkTexts kind fields).map fun _ => value) s := by
  rw [Fallible.wp_bind, wp_requireTexts]
  cases checkTexts kind fields <;> rfl

/-- An unreadable file raises the error class of its store. -/
theorem kind_of_decode {store : Store} {file : File store.Data} {exc : Exc} (failed : decode store file = .error exc) :
    exc.kind = store.errorKind := by
  cases file with
  | missing => cases failed
  | content data => cases failed
  | unreadable corruption =>
      cases failed
      cases corruption <;> rfl

namespace Concurrency

@[simp] theorem wp_key {S : Type} {machine : Machine signature S} (assistant subject : String)
    (post : List signature.Event → Except Exc (String × String) → S → Prop) (s : S) :
    Fallible.wp machine (key assistant subject) post s ↔
      post [] ((checkTexts .concurrency [("assistant", assistant), ("subject", subject)]).map
        fun _ => (assistant, subject)) s :=
  wp_checked _ _ _ post s

@[simp] theorem get?_sorted (data : Dict (String × String) ConcurrencyClaim) (pair : String × String) :
    Dict.get? (Store.concurrency.sorted data) pair = data.get? pair := by
  simp only [Store.sorted, Dict.get?_sortBy]

end Concurrency

namespace SignalDedupe

@[simp] theorem get?_sorted (data : Dict String SignalClaim) (signalId : String) :
    Dict.get? (Store.signalDedupe.sorted data) signalId = data.get? signalId := by
  simp only [Store.sorted, Dict.get?_sortBy]

/-- A Signal has the same claim before and after decoding. -/
theorem find?_of_decode {file : File (Dict String SignalClaim)} {data : Dict String SignalClaim}
    (decoded : decode .signalDedupe file = .ok data) (signalId : String) :
    file.find? signalId = data.get? signalId := by
  rcases (decode_eq_ok_iff _ _ _).mp decoded with ⟨rfl, rfl⟩ | rfl <;> rfl

end SignalDedupe

namespace ResponseDedupe

/-- A slot is one (Deployment, Thread, interrupt) triple. -/
abbrev Slot := String × String × String

@[simp] theorem wp_key {S : Type} {machine : Machine signature S} (deployment threadId interruptId : String)
    (post : List signature.Event → Except Exc Slot → S → Prop) (s : S) :
    Fallible.wp machine (key deployment threadId interruptId) post s ↔
      post [] ((checkTexts .responseDedupe [("deployment alias", deployment), ("thread ID", threadId),
        ("interrupt ID", interruptId)]).map fun _ => (deployment, threadId, interruptId)) s :=
  wp_checked _ _ _ post s

@[simp] theorem get?_sorted (data : Dict Slot ResponseClaim) (slot : Slot) :
    Dict.get? (Store.responseDedupe.sorted data) slot = data.get? slot := by
  simp only [Store.sorted, Dict.get?_sortBy]

/-- A slot has the same record before and after decoding. -/
theorem find?_of_decode {file : File (Dict Slot ResponseClaim)} {data : Dict Slot ResponseClaim}
    (decoded : decode .responseDedupe file = .ok data) (slot : Slot) : file.find? slot = data.get? slot := by
  rcases (decode_eq_ok_iff _ _ _).mp decoded with ⟨rfl, rfl⟩ | rfl <;> rfl

end ResponseDedupe

namespace DeploymentLifecycle

@[simp] theorem get?_sorted (data : Dict String LifecycleRecord) (deployment : String) :
    Dict.get? (Store.lifecycle.sorted data) deployment = data.get? deployment := by
  simp only [Store.sorted, Dict.get?_sortBy]

/-- A Deployment has the same record before and after decoding. -/
theorem find?_of_decode {file : File (Dict String LifecycleRecord)} {data : Dict String LifecycleRecord}
    (decoded : decode .lifecycle file = .ok data) (deployment : String) :
    file.find? deployment = data.get? deployment := by
  rcases (decode_eq_ok_iff _ _ _).mp decoded with ⟨rfl, rfl⟩ | rfl <;> rfl

end DeploymentLifecycle

namespace PendingCompletions

/-- A pair is one (Deployment, Thread). -/
abbrev Pair := String × String

@[simp] theorem wp_key {S : Type} {machine : Machine signature S} (deployment threadId : String)
    (post : List signature.Event → Except Exc Pair → S → Prop) (s : S) :
    Fallible.wp machine (key deployment threadId) post s ↔
      post [] ((checkTexts .pendingCompletion [("deployment alias", deployment), ("thread ID", threadId)]).map
        fun _ => (deployment, threadId)) s :=
  wp_checked _ _ _ post s

@[simp] theorem get?_sorted (data : Dict Pair PendingEntry) (pair : Pair) :
    Dict.get? (Store.pending.sorted data) pair = data.get? pair := by
  simp only [Store.sorted, Dict.get?_sortBy]

/-- A pair has the same entry before and after decoding. -/
theorem find?_of_decode {file : File (Dict Pair PendingEntry)} {data : Dict Pair PendingEntry}
    (decoded : decode .pending file = .ok data) (pair : Pair) : file.find? pair = data.get? pair := by
  rcases (decode_eq_ok_iff _ _ _).mp decoded with ⟨rfl, rfl⟩ | rfl <;> rfl

end PendingCompletions

/-- A value stored under two texts is found under them, and the other pairs keep theirs. -/
theorem nested_set {V : Type} (data : Dict String (Dict String V)) (deployment threadId : String) (value : V)
    (pair : String × String) :
    ((((data.set deployment (((data.get? deployment).getD Dict.empty).set threadId value)).mapValues
        fun threads => threads.sortBy id).sortBy id).get? pair.1).bind (fun threads => threads.get? pair.2) =
      if pair = (deployment, threadId) then some value
      else (data.get? pair.1).bind fun threads => threads.get? pair.2 := by
  obtain ⟨alias_, thread⟩ := pair
  simp only [Dict.get?_sortBy, Dict.get?_mapValues, Dict.get?_set]
  by_cases same : alias_ = deployment
  · subst same
    simp only [if_true, Option.map_some, Option.bind_some, Dict.get?_sortBy, Dict.get?_set, Prod.mk.injEq, true_and]
    split
    · rfl
    · cases data.get? alias_ <;> rfl
  · simp only [same, if_false, Prod.mk.injEq, false_and]
    cases data.get? alias_ with
    | none => rfl
    | some threads => simp

namespace RunContinuity

/-- The logical Run of a pair in the file. -/
def recordOf (file : File (Dict String (Dict String LogicalRun))) (pair : String × String) : Option LogicalRun :=
  (file.find? pair.1).bind fun threads => threads.get? pair.2

/-- A pair has the same logical Run before and after decoding. -/
theorem recordOf_of_decode {file : File (Dict String (Dict String LogicalRun))}
    {data : Dict String (Dict String LogicalRun)} (decoded : decode .continuity file = .ok data)
    (pair : String × String) :
    recordOf file pair = (data.get? pair.1).bind fun threads => threads.get? pair.2 := by
  rcases (decode_eq_ok_iff _ _ _).mp decoded with ⟨rfl, rfl⟩ | rfl <;> rfl

/-- A written record is found under its own pair, and the other pairs keep theirs. -/
theorem recordOf_set (data : Dict String (Dict String LogicalRun)) (deployment threadId : String) (record : LogicalRun)
    (pair : String × String) :
    recordOf (.content (Store.continuity.sorted (data.set deployment
        (((data.get? deployment).getD Dict.empty).set threadId record)))) pair =
      if pair = (deployment, threadId) then some record
      else (data.get? pair.1).bind fun threads => threads.get? pair.2 :=
  nested_set data deployment threadId record pair

end RunContinuity

namespace ApprovalExpiry

/-- The approval clock of a pair in the file. -/
def clockOf (file : File (Dict String (Dict String ExpiryRecord))) (pair : String × String) : Option ExpiryRecord :=
  (file.find? pair.1).bind fun threads => threads.get? pair.2

/-- A pair has the same clock before and after decoding. -/
theorem clockOf_of_decode {file : File (Dict String (Dict String ExpiryRecord))}
    {data : Dict String (Dict String ExpiryRecord)} (decoded : decode .expiry file = .ok data)
    (pair : String × String) :
    clockOf file pair = (data.get? pair.1).bind fun threads => threads.get? pair.2 := by
  rcases (decode_eq_ok_iff _ _ _).mp decoded with ⟨rfl, rfl⟩ | rfl <;> rfl

/-- A written clock is found under its own pair, and the other pairs keep theirs. -/
theorem clockOf_set (data : Dict String (Dict String ExpiryRecord)) (deployment threadId : String) (record : ExpiryRecord)
    (pair : String × String) :
    clockOf (.content (Store.expiry.sorted (data.set deployment
        (((data.get? deployment).getD Dict.empty).set threadId record)))) pair =
      if pair = (deployment, threadId) then some record
      else (data.get? pair.1).bind fun threads => threads.get? pair.2 :=
  nested_set data deployment threadId record pair

end ApprovalExpiry

end Cordboard
