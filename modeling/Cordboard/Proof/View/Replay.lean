import Cordboard.Proof.View.LiveWatch
import Cordboard.Data.Delivery

namespace Cordboard.LiveReconciliation
open Data AegraClient

/-- The identifier of the event ends in this number, and `int` reads the number back. -/
def Carries (builtins : Builtins) (event : LifecycleEvent) (number : Nat) : Prop :=
  ∃ run : String, event.eventId = some (run ++ "_event_" ++ toString number) ∧
    builtins.int (toString number) = some (number : Int)

/-- The Run folds each delivered event at the time of its delivery. -/
def deliver (builtins : Builtins) (live : LiveRun) (received : List (LifecycleEvent × Time)) : LiveRun :=
  received.foldl (fun live item => live.apply builtins item.1 item.2) live

section Identifiers

/-- A text without the first character of the separator holds no separator. -/
theorem afterLast_none {first : Char} {separator text : List Char} (absent : first ∉ text) :
    afterLast (first :: separator) text = none := by
  induction text with
  | nil => rfl
  | cons c rest ih =>
      have different : first ≠ c := fun same => absent (same ▸ List.mem_cons_self)
      have later := ih fun member => absent (List.mem_cons_of_mem _ member)
      simp [afterLast, later, List.isPrefixOf, different]

theorem afterLast_append {separator text tail : List Char} (found : afterLast separator text = some tail)
    (before : List Char) : afterLast separator (before ++ text) = some tail := by
  induction before with
  | nil => exact found
  | cons c rest ih => simp [afterLast, ih]

theorem digits_no_mark (number : Nat) : '_' ∉ (toString number).toList := by
  intro member
  have digits : (toString number).toList = Nat.toDigits 10 number := by simp [Nat.toString_eq_repr, Nat.repr]
  rw [digits] at member
  exact absurd (Nat.isDigit_of_mem_toDigits (by decide) (by decide) member) (by decide)

theorem afterLast_separator {digits : List Char} (absent : '_' ∉ digits) :
    afterLast "_event_".toList ("_event_".toList ++ digits) = some digits := by
  have later : afterLast "_event_".toList digits = none := afterLast_none absent
  have split : "_event_".toList = ['_', 'e', 'v', 'e', 'n', 't', '_'] := by decide
  have apart : ¬ ['e', 'v', 'e', 'n', 't', '_'] <+: digits := fun inside => absent (inside.subset (by decide))
  rw [split] at later ⊢
  simp [afterLast, later, List.isPrefixOf, apart]

/-- The number stands behind the last separator. -/
theorem lastPart_number (run : String) (number : Nat) :
    lastPart "_event_" (run ++ "_event_" ++ toString number) = toString number := by
  have last := afterLast_append (afterLast_separator (digits_no_mark number)) run.toList
  unfold lastPart
  rw [String.append_assoc, String.toList_append, String.toList_append, last]
  exact String.ofList_toList

theorem Carries.sequence {builtins : Builtins} {event : LifecycleEvent} {number : Nat}
    (carries : Carries builtins event number) : ∃ eventId, event.eventId = some eventId ∧
      sequence builtins eventId = number := by
  obtain ⟨run, stored, read⟩ := carries
  refine ⟨_, stored, ?_⟩
  unfold LiveReconciliation.sequence
  rw [if_neg (by simp), lastPart_number, read]
  rfl

end Identifiers

section Folding
variable {builtins : Builtins} {live other : LiveRun} {event : LifecycleEvent}

/-- An event is stale once its number is not above the last one. -/
def Stale (builtins : Builtins) (live : LiveRun) (event : LifecycleEvent) : Prop :=
  ∃ eventId, event.eventId = some eventId ∧ sequence builtins eventId ≤ live.lastEventSeq

theorem Stale.replay (stale : Stale builtins live event) : ¬ live.takes builtins event := by
  obtain ⟨eventId, stored, old⟩ := stale
  intro takes
  have above := takes eventId stored
  omega

/-- Two live Runs have come equally far. -/
structure Level (live other : LiveRun) : Prop where
  status : live.status = other.status
  lastEventSeq : live.lastEventSeq = other.lastEventSeq

theorem Level.fold (level : Level live other) (now later : Time) :
    Level (live.fold event now) (other.fold event later) := by
  constructor
  · unfold LiveRun.fold
    rw [level.status]
    split
    · rfl
    · split
      · rfl
      · split
        · rfl
        · exact level.status
  · rw [fold_lastEventSeq, fold_lastEventSeq]
    exact level.lastEventSeq

/-- The clock does not decide how far a Run comes. -/
theorem Level.apply (level : Level live other) (now later : Time) :
    Level (live.apply builtins event now) (other.apply builtins event later) := by
  unfold LiveRun.apply
  cases event.eventId with
  | none => exact level.fold now later
  | some eventId =>
      dsimp only
      rw [level.lastEventSeq]
      split
      · exact level
      · have next : Level { live with lastEventSeq := sequence builtins eventId }
            { other with lastEventSeq := sequence builtins eventId } := ⟨level.status, rfl⟩
        exact next.fold now later

theorem deliver_level {items others : List (LifecycleEvent × Time)} (same : others.map Prod.fst = items.map Prod.fst)
    (level : Level live other) : Level (deliver builtins live items) (deliver builtins other others) := by
  induction items generalizing live other others with
  | nil =>
      obtain rfl := List.map_eq_nil_iff.mp same
      exact level
  | cons item rest ih =>
      obtain ⟨mate, mates, rfl, first, later⟩ := List.map_eq_cons_iff.mp same
      apply ih later
      change Level (live.apply builtins item.1 item.2) (other.apply builtins mate.1 mate.2)
      rw [first]
      exact level.apply item.2 mate.2

end Folding

section Numbers
variable {builtins : Builtins} {live : LiveRun} {once received single : List (LifecycleEvent × Time)} {numbers : List Nat}

/-- The events carry these numbers, and the numbers rise. -/
structure Rising (builtins : Builtins) (once : List (LifecycleEvent × Time)) (numbers : List Nat) : Prop where
  carried : List.Forall₂ (fun item number => Carries builtins item.1 number) once numbers
  rising : numbers.Pairwise (· < ·)

/-- A Run that has seen a numbered event takes it for a replay from then on. -/
theorem absorbs (builtins : Builtins) : Absorbs (fun (live : LiveRun) item => live.apply builtins item.1 item.2)
    (fun event => ∃ number, Carries builtins event number) (Stale builtins) where
  ignores live item stale := apply_replay stale.replay
  marks live item mark := by
    obtain ⟨number, carries⟩ := mark
    obtain ⟨eventId, stored, _⟩ := carries.sequence
    exact ⟨eventId, stored, (apply_lastEventSeq _).mpr (.inr ⟨eventId, stored, le_refl _⟩)⟩
  keeps live item other stale := by
    obtain ⟨eventId, stored, old⟩ := stale
    exact ⟨eventId, stored, (apply_lastEventSeq _).mpr (.inl old)⟩

theorem Rising.marked (rising : Rising builtins once numbers) :
    ∀ item ∈ once, ∃ number, Carries builtins item.1 number := by
  intro item member
  obtain ⟨index, inside, rfl⟩ := List.getElem_of_mem member
  have bound : index < numbers.length := rising.carried.length_eq ▸ inside
  exact ⟨numbers[index], rising.carried.get inside bound⟩

theorem fold_completedAt {event : LifecycleEvent} {now : Time} : (live.fold event now).completedAt =
    if terminal event then live.completedAt.or (some now) else live.completedAt := by
  unfold LiveRun.fold terminal
  by_cases ended : event.event = "end"
  · simp [ended]
  · by_cases failed : event.event = "error"
    · simp [failed]
    · simp only [ended, failed, if_false]
      split <;> simp

/-- An event with a higher number is applied. -/
theorem apply_numbered {event : LifecycleEvent} {now : Time} {number : Nat} (carries : Carries builtins event number)
    (above : live.lastEventSeq < number) : (live.apply builtins event now).lastEventSeq = number ∧
      (live.apply builtins event now).completedAt =
        if terminal event then live.completedAt.or (some now) else live.completedAt := by
  obtain ⟨eventId, stored, read⟩ := carries.sequence
  unfold LiveRun.apply
  rw [stored]
  dsimp only
  rw [read, if_neg (by omega)]
  exact ⟨fold_lastEventSeq, fold_completedAt⟩

/-- The first terminal event completes the Run. -/
theorem deliver_completedAt (rising : Rising builtins once numbers)
    (above : ∀ number ∈ numbers, live.lastEventSeq < (number : Int)) : (deliver builtins live once).completedAt =
      live.completedAt.or ((once.find? fun item => terminal item.1).map Prod.snd) := by
  obtain ⟨carried, rising⟩ := rising
  induction carried generalizing live with
  | nil => exact (Option.or_none).symm
  | @cons item number rest others carries carried ih =>
      obtain ⟨lower, later⟩ := List.pairwise_cons.mp rising
      obtain ⟨level, completed⟩ := @apply_numbered _ live _ item.2 _ carries (above number List.mem_cons_self)
      have next : ∀ other ∈ others, (live.apply builtins item.1 item.2).lastEventSeq < (other : Int) := by
        intro other member
        have bigger := lower other member
        omega
      have rest_completed := ih next later
      rw [deliver, List.foldl_cons]
      refine rest_completed.trans ?_
      rw [completed, List.find?_cons]
      cases finishes : terminal item.1 <;> simp

/-- However often events come again, a Run ends as if each event had come once. Its completion is the first arrival of
the first terminal event. -/
theorem replay_insensitive (rising : Rising builtins once numbers) (delivery : Delivery once received)
    (same : single.map Prod.fst = once.map Prod.fst) (unapplied : live.lastEventSeq = -1)
    (running : live.completedAt = none) :
    (deliver builtins live received).status = (deliver builtins live single).status ∧
    (deliver builtins live received).lastEventSeq = (deliver builtins live single).lastEventSeq ∧
    (deliver builtins live received).completedAt = (once.find? fun item => terminal item.1).map Prod.snd := by
  have plain : deliver builtins live received = deliver builtins live once :=
    (absorbs builtins).foldl_delivery delivery rising.marked live
  have level : Level (deliver builtins live once) (deliver builtins live single) := deliver_level same ⟨rfl, rfl⟩
  have completed := @deliver_completedAt _ live _ _ rising (by intro number _; omega)
  rw [plain]
  rw [running, Option.none_or] at completed
  exact ⟨level.status, level.lastEventSeq, completed⟩

end Numbers

/-- A decimal text is the number of its digits. -/
def sampleBuiltins : Builtins where
  int text := some (text.toList.foldl (fun total digit => 10 * total + ((digit.toNat : Int) - 48)) 0)
  str _ := ""

def sampleRun : LiveRun := ⟨"run", "thread", .str "graph", .null, .null, .str "pending", -1, none⟩

def sampleStart : LifecycleEvent := ⟨"metadata", [], some "run_event_0"⟩

def sampleEnd : LifecycleEvent := ⟨"end", [("status", .str "interrupted")], some "run_event_1"⟩

theorem replay_insensitive_sample :
    (deliver sampleBuiltins sampleRun [(sampleStart, 1), (sampleEnd, 2), (sampleStart, 3), (sampleEnd, 4)]).status =
      (deliver sampleBuiltins sampleRun [(sampleStart, 5), (sampleEnd, 6)]).status ∧
    (deliver sampleBuiltins sampleRun [(sampleStart, 1), (sampleEnd, 2), (sampleStart, 3), (sampleEnd, 4)]).lastEventSeq =
      (deliver sampleBuiltins sampleRun [(sampleStart, 5), (sampleEnd, 6)]).lastEventSeq ∧
    (deliver sampleBuiltins sampleRun [(sampleStart, 1), (sampleEnd, 2), (sampleStart, 3), (sampleEnd, 4)]).completedAt =
      some 2 := by
  have carried : List.Forall₂ (fun item number => Carries sampleBuiltins item.1 number)
      [(sampleStart, (1 : Time)), (sampleEnd, 2)] [0, 1] :=
    .cons ⟨"run", by decide, by decide⟩ (.cons ⟨"run", by decide, by decide⟩ .nil)
  have first : Delivery [(sampleStart, (1 : Time)), (sampleEnd, 2)] [(sampleStart, 1), (sampleEnd, 2)] :=
    (Delivery.start.fresh (sampleStart, 1)).fresh (sampleEnd, 2)
  have again := (first.again (sampleStart, 3) (by simp)).again (sampleEnd, 4) (by simp)
  exact replay_insensitive ⟨carried, by decide⟩ again rfl rfl rfl

end Cordboard.LiveReconciliation
