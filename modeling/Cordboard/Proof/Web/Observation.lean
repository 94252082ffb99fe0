import Cordboard.Construction.Web.Observation
import Cordboard.Proof.View.Convergence
import Mathlib.Data.List.DropRight

namespace Cordboard.Web.Observation
open Data AegraClient LiveReconciliation

def Event.sightOf (logical : String) : Event → Option Sight
  | .sight entry => if entry.logical = logical then some entry else none
  | _ => none

/-- The sights of a logical Run in order. -/
def sightsOf (logical : String) (events : List Event) : List Sight := events.filterMap (Event.sightOf logical)

/-- Whether a request of the target settled or failed. -/
def Event.outcomeOf (target : Target) : Event → Option Bool
  | .settled other => if other = target then some true else none
  | .failed other => if other = target then some false else none
  | _ => none

/-- The last request of the target failed. -/
def Troubled (target : Target) (events : List Event) : Prop :=
  (events.filterMap (Event.outcomeOf target)).getLast? = some false

instance (target : Target) (events : List Event) : Decidable (Troubled target events) :=
  inferInstanceAs (Decidable (_ = _))

/-- The status of the sight is terminal. -/
def Sight.terminal (sight : Sight) : Bool :=
  sight.identity.status.hashable && terminalStatuses.any fun status => sight.identity.status.pyEq (.str status)

/-- The last sights that are of one invocation. -/
def streak (sights : List Sight) (invocation : String) : List Sight :=
  sights.rtakeWhile fun sight => sight.target.invocation = invocation

/-- The last sight gives the invocation and the status. The first sight of its streak gives the identity, and the first
terminal one gives the time of the completion. -/
def display (logical : String) (sights : List Sight) : Option Shown := do
  let last ← sights.getLast?
  let same := streak sights last.target.invocation
  let first ← same.head?
  some ⟨⟨logical, first.target.threadId, first.graph, first.identity.assistantId, first.identity.subject,
    last.identity.status, -1, (same.find? Sight.terminal).map Sight.now⟩, last.target.invocation⟩

/-- A new live Run waits for its first status. -/
def Sight.fresh (sight : Sight) : Shown :=
  ⟨⟨sight.logical, sight.target.threadId, sight.graph, sight.identity.assistantId, sight.identity.subject,
    .str "pending", -1, none⟩, sight.target.invocation⟩

theorem create_fresh {sight : Sight} {shown : Shown} (created : sight.create = .ok shown) : shown = sight.fresh := by
  unfold Sight.create LiveRun.create at created
  split at created
  · cases created
  split at created
  · cases created
  exact (Except.ok.inj created).symm

theorem write_eq (sight : Sight) (shown : Shown) : sight.write shown =
    ⟨{ shown.live with
        status := sight.identity.status
        completedAt := if sight.terminal then shown.live.completedAt.or (some sight.now) else shown.live.completedAt },
      shown.invocation⟩ := by
  unfold Sight.write Sight.terminal LiveRun.isTerminal
  by_cases hashed : sight.identity.status.hashable = true
  · cases set : (terminalStatuses.any fun status => sight.identity.status.pyEq (.str status)) <;> simp [hashed, set]
  · simp [hashed]

section
variable {logical : String} {sights : List Sight} {new : Sight}

theorem streak_snoc (sights : List Sight) (new : Sight) :
    streak (sights ++ [new]) new.target.invocation = streak sights new.target.invocation ++ [new] := by
  rw [streak, List.rtakeWhile_concat, if_pos (by simp)]
  rfl

/-- A sight of another invocation starts a new streak. -/
theorem streak_other {last : Sight} (end_ : sights.getLast? = some last) {invocation : String}
    (other : last.target.invocation ≠ invocation) : streak sights invocation = [] := by
  obtain ⟨before, rfl⟩ := List.getLast?_eq_some_iff.mp end_
  rw [streak, List.rtakeWhile_concat, if_neg (by simpa using other)]

/-- The display of a streak. -/
def Sight.ofStreak (last first : Sight) (same : List Sight) : Shown :=
  ⟨⟨last.logical, first.target.threadId, first.graph, first.identity.assistantId, first.identity.subject,
    last.identity.status, -1, (same.find? Sight.terminal).map Sight.now⟩, last.target.invocation⟩

theorem display_last {last first : Sight} (end_ : sights.getLast? = some last) (own : last.logical = logical)
    (start : (streak sights last.target.invocation).head? = some first) :
    display logical sights = some (last.ofStreak first (streak sights last.target.invocation)) := by
  subst own
  unfold display
  rw [end_, Option.bind_eq_bind, Option.bind_some]
  show (streak sights last.target.invocation).head?.bind (fun first =>
    some (last.ofStreak first (streak sights last.target.invocation))) = _
  rw [start, Option.bind_some]

theorem streak_filled {last : Sight} (end_ : sights.getLast? = some last) :
    ∃ first, (streak sights last.target.invocation).head? = some first := by
  obtain ⟨before, rfl⟩ := List.getLast?_eq_some_iff.mp end_
  rw [streak_snoc]
  cases streak before last.target.invocation with
  | nil => exact ⟨last, rfl⟩
  | cons first rest => exact ⟨first, rfl⟩

/-- A sight is written to the display of its invocation, or to a new one. -/
def Sight.refresh (new : Sight) : Option Shown → Shown
  | some shown => if shown.invocation = new.target.invocation then new.write shown else new.write new.fresh
  | none => new.write new.fresh

theorem write_fresh (new : Sight) : new.write new.fresh = new.ofStreak new [new] := by
  rw [write_eq]
  by_cases done : new.terminal <;> simp [Sight.ofStreak, Sight.fresh, done]

theorem write_streak {last first : Sight} (own : last.logical = new.logical)
    (same : last.target.invocation = new.target.invocation) (seen : List Sight) :
    new.write (last.ofStreak first seen) = new.ofStreak first (seen ++ [new]) := by
  rw [write_eq, Sight.ofStreak, Sight.ofStreak, List.find?_append, own, same]
  by_cases done : new.terminal
  · cases seen.find? Sight.terminal <;> simp [done]
  · simp [done]

/-- One more sight refreshes the display, or it replaces another invocation. -/
theorem display_snoc (each : ∀ sight ∈ sights, sight.logical = logical) (own : new.logical = logical) :
    display logical (sights ++ [new]) = some (new.refresh (display logical sights)) := by
  have end_ : (sights ++ [new]).getLast? = some new := List.getLast?_concat
  have streaked := streak_snoc sights new
  cases found : sights.getLast? with
  | none =>
      obtain rfl := List.getLast?_eq_none_iff.mp found
      have none_ : display logical [] = none := rfl
      rw [@display_last logical _ new new end_ own (by rw [streaked]; rfl), none_, Sight.refresh, write_fresh, streaked]
      rfl
  | some last =>
      obtain ⟨first, start⟩ := streak_filled found
      have known := each last (List.mem_of_getLast? found)
      rw [display_last found known start]
      by_cases same : last.target.invocation = new.target.invocation
      · have begun : (streak (sights ++ [new]) new.target.invocation).head? = some first := by
          rw [streaked, List.head?_append, ← same, start]
          rfl
        have kept : new.refresh (some (last.ofStreak first (streak sights last.target.invocation))) =
            new.write (last.ofStreak first (streak sights last.target.invocation)) := if_pos same
        rw [display_last end_ own begun, streaked, kept, write_streak (known.trans own.symm) same, same]
      · rw [streak_other found same, List.nil_append] at streaked
        have replaced : new.refresh (some (last.ofStreak first (streak sights last.target.invocation))) =
            new.write new.fresh := if_neg same
        rw [@display_last logical _ new new end_ own (by rw [streaked]; rfl), streaked, replaced, write_fresh]

end

/-- The live Run that the dictionary refers to. -/
def State.shown (state : State) (logical : String) : Option Shown :=
  (state.live.get? logical).bind fun object => state.objects[object]?

/-- Each reference is to an object of its own. -/
structure State.Stored (state : State) : Prop where
  held : ∀ logical object, state.live.get? logical = some object → object < state.objects.length
  apart : ∀ first second object, state.live.get? first = some object → state.live.get? second = some object →
    first = second

section
variable {state written : State} {sight : Sight} {object : Nat} {shown : Shown}

/-- A sight is written to the object of its invocation, or to a new object. -/
theorem record_cases (recorded : state.record sight = .ok (written, object, shown)) :
    (∃ old, state.live.get? sight.logical = some object ∧ state.objects[object]? = some old ∧
      old.invocation = sight.target.invocation ∧
      written = { state with objects := state.objects.set object (sight.write old) }) ∨
    ((∀ old, state.shown sight.logical = some old → old.invocation ≠ sight.target.invocation) ∧
      written = { state with objects := state.objects ++ [sight.write sight.fresh],
                             live := state.live.set sight.logical state.objects.length }) := by
  unfold State.record at recorded
  cases current : state.current sight.target sight.logical with
  | some found =>
      obtain ⟨place, old⟩ := found
      rw [current] at recorded
      cases recorded
      simp only [State.current, Option.bind_eq_bind, Option.bind_eq_some_iff] at current
      obtain ⟨object, refers, stored, holds, same⟩ := current
      split at same
      · cases same
        exact .inl ⟨old, refers, holds, by assumption, rfl⟩
      · cases same
  | none =>
      rw [current] at recorded
      simp only [bind, Except.bind] at recorded
      split at recorded
      · cases recorded
      · rename_i created
        cases recorded
        rw [create_fresh created]
        refine .inr ⟨?_, rfl⟩
        intro old holds same
        obtain ⟨object, refers, holds⟩ := Option.bind_eq_some_iff.mp holds
        simp [State.current, refers, holds, same] at current

theorem record_rest (recorded : state.record sight = .ok (written, object, shown)) :
    written.errors = state.errors ∧ written.workers = state.workers ∧ written.stop = state.stop := by
  obtain ⟨_, _, _, _, rfl⟩ | ⟨_, rfl⟩ := record_cases recorded <;> exact ⟨rfl, rfl, rfl⟩

theorem record_stored (stored : state.Stored) (recorded : state.record sight = .ok (written, object, shown)) :
    written.Stored := by
  obtain ⟨old, refers, holds, same, rfl⟩ | ⟨other, rfl⟩ := record_cases recorded
  · constructor
    · intro logical place refers
      simpa using stored.held logical place refers
    · exact stored.apart
  · have below : ∀ logical place, (state.live.set sight.logical state.objects.length).get? logical = some place →
        (logical = sight.logical ∧ place = state.objects.length) ∨
          (state.live.get? logical = some place ∧ place < state.objects.length) := by
      intro logical place refers
      rw [Dict.get?_set] at refers
      split at refers
      · exact .inl ⟨by assumption, (Option.some.inj refers).symm⟩
      · exact .inr ⟨refers, stored.held logical place refers⟩
    constructor
    · intro logical place refers
      rw [List.length_append, List.length_singleton]
      obtain ⟨_, rfl⟩ | ⟨_, small⟩ := below logical place refers <;> omega
    · intro first second place one two
      obtain ⟨rfl, rfl⟩ | ⟨one, small⟩ := below first place one
      · obtain ⟨rfl, _⟩ | ⟨_, small⟩ := below second _ two
        · rfl
        · omega
      · obtain ⟨_, rfl⟩ | ⟨two, _⟩ := below second place two
        · omega
        · exact stored.apart first second place one two

/-- A sight refreshes what is shown of its own logical Run. -/
theorem record_shown (stored : state.Stored) (recorded : state.record sight = .ok (written, object, shown))
    (logical : String) : written.shown logical =
      if logical = sight.logical then some (sight.refresh (state.shown sight.logical)) else state.shown logical := by
  obtain ⟨old, refers, holds, same, rfl⟩ | ⟨other, rfl⟩ := record_cases recorded
  · have inside := stored.held _ _ refers
    have before : state.shown sight.logical = some old := by rw [State.shown, refers, Option.bind_some, holds]
    have kept : sight.refresh (some old) = sight.write old := if_pos same
    rw [before, kept]
    by_cases own : logical = sight.logical
    · rw [if_pos own, own]
      show (state.live.get? sight.logical).bind (fun place => (state.objects.set object (sight.write old))[place]?) = _
      rw [refers, Option.bind_some, List.getElem?_set_self inside]
    · rw [if_neg own]
      show (state.live.get? logical).bind (fun place => (state.objects.set object (sight.write old))[place]?) = _
      rw [State.shown]
      cases found : state.live.get? logical with
      | none => rfl
      | some place =>
          have distinct : object ≠ place := by
            rintro rfl
            exact own (stored.apart logical sight.logical object found refers)
          rw [Option.bind_some, Option.bind_some, List.getElem?_set_ne distinct]
  · show ((state.live.set sight.logical state.objects.length).get? logical).bind
      (fun place => (state.objects ++ [sight.write sight.fresh])[place]?) = _
    rw [Dict.get?_set]
    by_cases own : logical = sight.logical
    · rw [if_pos own, if_pos own, Option.bind_some, List.getElem?_concat_length]
      cases before : state.shown sight.logical with
      | none => rfl
      | some old =>
          have replaced : sight.refresh (some old) = sight.write sight.fresh := if_neg (other old before)
          rw [replaced]
    · rw [if_neg own, if_neg own, State.shown]
      cases found : state.live.get? logical with
      | none => rfl
      | some place =>
          rw [Option.bind_some, Option.bind_some, List.getElem?_append_left (stored.held logical place found)]

end

section
variable {targets : List Target} {aliases : List String} {workers : Dict Target Phase} {target : Target}

/-- A worker starts when its Deployment is connected and it has not started before. -/
theorem get?_enlist (targets : List Target) (aliases : List String) (workers : Dict Target Phase) (target : Target) :
    (targets.foldl (enlist aliases) workers).get? target =
      (workers.get? target).or (if target ∈ targets ∧ target.alias_ ∈ aliases then some .starting else none) := by
  induction targets generalizing workers with
  | nil => simp
  | cons first rest ih =>
      rw [List.foldl_cons, ih, enlist]
      by_cases skipped : first.alias_ ∉ aliases ∨ first ∈ workers.keys
      · rw [if_pos skipped]
        cases found : workers.get? target with
        | some phase => rfl
        | none =>
            rw [Option.none_or, Option.none_or]
            by_cases own : target = first
            · have absent := (Dict.get?_eq_none_iff _ _).mp found
              have apart : target.alias_ ∉ aliases := by
                subst own
                exact skipped.resolve_right absent
              rw [if_neg (by simp [apart]), if_neg (by simp [apart])]
            · simp [own]
      · rw [if_neg skipped, Dict.get?_set]
        obtain ⟨connected, absent⟩ := not_or.mp skipped
        by_cases own : target = first
        · subst own
          rw [if_pos rfl, (Dict.get?_eq_none_iff _ _).mpr absent]
          simpa using connected
        · simp [own]

theorem mem_enlist : target ∈ (targets.foldl (enlist aliases) workers).keys ↔
    target ∈ workers.keys ∨ (target ∈ targets ∧ target.alias_ ∈ aliases) := by
  rw [← not_iff_not, not_or, ← Dict.get?_eq_none_iff, ← Dict.get?_eq_none_iff, get?_enlist, Option.or_eq_none_iff]
  simp

end

/-- The target that an event is about. -/
def Event.target : Event → Target
  | .started target => target
  | .sight entry => entry.target
  | .settled target => target
  | .failed target => target

def Event.start : Event → Option Target
  | .started target => some target
  | _ => none

/-- What one turn can do. A worker leaves its loop when the server has closed. -/
inductive Turn (state : State) : State → List Event → Prop
  | idle : Turn state state []
  | discover (targets : List Target) (aliases : List String) :
      Turn state { state with workers := targets.foldl (enlist aliases) state.workers }
        (((targets.foldl (enlist aliases) state.workers).keys.filter
          fun target => target ∉ state.workers.keys).map .started)
  | close : Turn state { state with stop := true } []
  | quiet {target : Target} {old phase : Phase} (busy : state.workers.get? target = some old) (active : old ≠ .ended)
      (opened : ∀ logical, phase = .observing logical → state.stop = false) : Turn state (state.move target phase) []
  | failed {target : Target} {logical : String} {phase : Phase}
      (busy : state.workers.get? target = some (.failing logical))
      (opened : ∀ logical, phase = .observing logical → state.stop = false) :
      Turn state ({ state with errors := state.errors.set target disconnected }.move target phase) [.failed target]
  | sighted {written : State} {sight : Sight} {object : Nat} {shown : Shown} {phase : Phase}
      (busy : state.workers.get? sight.target = some (.observing sight.logical))
      (recorded : state.record sight = .ok (written, object, shown))
      (left : ∀ logical, phase ≠ .observing logical) : Turn state (written.move sight.target phase) [.sight sight]
  | settled {written : State} {sight : Sight} {object : Nat} {shown : Shown} {phase : Phase}
      (busy : state.workers.get? sight.target = some (.observing sight.logical))
      (recorded : state.record sight = .ok (written, object, shown))
      (left : ∀ logical, phase ≠ .observing logical) :
      Turn state ({ written with errors := written.errors.erase sight.target }.move sight.target phase)
        [.sight sight, .settled sight.target]

theorem again_opened (stop : Bool) (target : String) :
    ∀ logical, (if stop then Phase.ended else .observing target) = .observing logical → stop = false := by
  cases stop <;> simp

theorem raised_left (exc : Exc) (own : String) :
    ∀ logical, (if caught exc then Phase.failing own else .ended) ≠ .observing logical := by
  cases caught exc <;> simp

theorem observe_turn {state : State} {target : Target} {logical : String}
    (busy : state.workers.get? target = some (.observing logical)) (run assistant : Option Json) (now : Time) :
    Turn state (state.observe target logical run assistant now).1
      (state.observe target logical run assistant now).2 := by
  have stopped (exc : Exc) : Turn state (state.raised target logical exc) [] :=
    .quiet busy (by simp) fun other same => absurd same (raised_left exc logical other)
  unfold State.observe
  cases learn target run assistant with
  | error exc => exact stopped exc
  | ok known =>
      obtain ⟨identity, graph⟩ := known
      dsimp only
      cases recorded : state.record ⟨target, logical, identity, graph, now⟩ with
      | error exc => exact stopped exc
      | ok result =>
          obtain ⟨written, object, shown⟩ := result
          dsimp only
          cases shown.live.isTerminal with
          | error exc => exact .sighted busy recorded (raised_left exc logical)
          | ok done => exact .settled busy recorded (by simp)

theorem step_turn (state : State) (action : Action) : Turn state (state.step action).1 (state.step action).2 := by
  cases action with
  | discover watch continuity aliases => exact .discover _ _
  | close => exact .close
  | resolve target continuity =>
      unfold State.step
      dsimp only
      split
      · split
        · exact .quiet (by assumption) (by simp) (again_opened state.stop _)
        · exact .quiet (by assumption) (by simp) (by simp)
      · exact .idle
  | observe target run assistant now =>
      unfold State.step
      dsimp only
      split
      · exact observe_turn (by assumption) run assistant now
      · exact .idle
  | fail target =>
      unfold State.step
      dsimp only
      split
      · exact .failed (by assumption) (again_opened state.stop _)
      · exact .idle
  | check target =>
      unfold State.step
      dsimp only
      split
      · split
        · exact .idle
        · split
          · exact .quiet (by assumption) (by simp) (by simp)
          · exact .quiet (by assumption) (by simp) (again_opened state.stop _)
          · exact .quiet (by assumption) (by simp) fun other same => absurd same (raised_left _ _ other)
      · exact .idle
  | leave target =>
      unfold State.step
      dsimp only
      split
      · split
        · exact .quiet (by assumption) (by simp) (by simp)
        · exact .idle
      · exact .idle

section
variable {state next written : State} {events : List Event} {target : Target} {phase : Phase}

theorem get?_move (state : State) (target other : Target) (phase : Phase) :
    (state.move target phase).workers.get? other = if other = target then some phase else state.workers.get? other :=
  state.workers.get?_set target other phase

/-- A worker that has ended takes no turn. -/
theorem turn_ended (turn : Turn state next events) (ended : state.workers.get? target = some .ended) :
    next.workers.get? target = some .ended ∧ ∀ event ∈ events, event.target ≠ target := by
  have other {busy : Target} {old : Phase} (found : state.workers.get? busy = some old) (active : old ≠ .ended) :
      target ≠ busy := by
    rintro rfl
    exact active (Option.some.inj (found.symm.trans ended))
  cases turn with
  | idle => exact ⟨ended, by simp⟩
  | close => exact ⟨ended, by simp⟩
  | discover targets aliases =>
      constructor
      · rw [get?_enlist, ended]
        rfl
      · simp only [List.mem_map, List.mem_filter, decide_eq_true_eq]
        rintro _ ⟨started, ⟨_, absent⟩, rfl⟩ rfl
        exact absent (Dict.mem_keys_of_get? ended)
  | quiet busy active opened =>
      rw [get?_move, if_neg (other busy active)]
      exact ⟨ended, by simp⟩
  | failed busy opened =>
      have apart := other busy (by simp)
      rw [get?_move, if_neg apart]
      exact ⟨ended, by simpa [Event.target] using apart.symm⟩
  | sighted busy recorded left =>
      have apart := other busy (by simp)
      rw [get?_move, if_neg apart, (record_rest recorded).2.1]
      exact ⟨ended, by simpa [Event.target] using apart.symm⟩
  | settled busy recorded left =>
      have apart := other busy (by simp)
      rw [get?_move, if_neg apart, (record_rest recorded).2.1]
      exact ⟨ended, by simpa [Event.target] using apart.symm⟩

def Event.sightBy (target : Target) : Event → Option Sight
  | .sight entry => if entry.target = target then some entry else none
  | _ => none

/-- The sights that a target made in order. -/
def sightsBy (target : Target) (events : List Event) : List Sight := events.filterMap (Event.sightBy target)

/-- The requests that a worker can still write after the server has closed. -/
def pending : Option Phase → Nat
  | some (.observing _) => 1
  | _ => 0

theorem pending_left (left : ∀ logical, phase ≠ .observing logical) : pending (some phase) = 0 := by
  cases phase with
  | observing logical => exact absurd rfl (left logical)
  | _ => rfl

theorem spent_sight {workers : Dict Target Phase} {sight : Sight} {rest : List Event}
    (busy : workers.get? sight.target = some (.observing sight.logical)) (left : ∀ logical, phase ≠ .observing logical)
    (last : sightsBy target rest = []) : (sightsBy target (.sight sight :: rest)).length +
      pending (if target = sight.target then some phase else workers.get? target) ≤ pending (workers.get? target) := by
  by_cases own : target = sight.target
  · subst own
    have one : sightsBy sight.target (.sight sight :: rest) = sight :: sightsBy sight.target rest := by
      simp [sightsBy, Event.sightBy]
    rw [if_pos rfl, one, last, pending_left left, busy]
    exact Nat.le_refl 1
  · have none_ : sightsBy target (.sight sight :: rest) = sightsBy target rest := by
      simp [sightsBy, Event.sightBy, Ne.symm own]
    rw [if_neg own, none_, last, List.length_nil, Nat.zero_add]

/-- After the server has closed, a worker spends its last request. -/
theorem turn_closed (turn : Turn state next events) (closed : state.stop = true) (target : Target) :
    next.stop = true ∧
      (sightsBy target events).length + pending (next.workers.get? target) ≤ pending (state.workers.get? target) := by
  have idle {phase : Phase} (opened : ∀ logical, phase = .observing logical → state.stop = false) :
      pending (some phase) = 0 := by
    apply pending_left
    intro logical same
    exact Bool.false_ne_true ((opened logical same).symm.trans closed)
  cases turn with
  | idle => exact ⟨closed, by simp [sightsBy]⟩
  | close => exact ⟨rfl, by simp [sightsBy]⟩
  | discover targets aliases =>
      refine ⟨closed, ?_⟩
      have unseen : sightsBy target (((targets.foldl (enlist aliases) state.workers).keys.filter
          fun target => target ∉ state.workers.keys).map .started) = [] := by
        simp [sightsBy, List.filterMap_map, Function.comp_def, Event.sightBy]
      rw [unseen, get?_enlist]
      cases state.workers.get? target with
      | some phase => simp
      | none => split <;> simp [pending]
  | quiet busy active opened =>
      refine ⟨closed, ?_⟩
      rw [get?_move]
      split
      · simp [sightsBy, idle opened]
      · simp [sightsBy]
  | failed busy opened =>
      refine ⟨closed, ?_⟩
      show 0 + pending ((State.move _ _ _).workers.get? target) ≤ _
      rw [get?_move, Nat.zero_add]
      split
      · rw [idle opened]
        exact Nat.zero_le _
      · exact Nat.le_refl _
  | sighted busy recorded left =>
      obtain ⟨_, workers, stop⟩ := record_rest recorded
      refine ⟨stop.trans closed, ?_⟩
      rw [get?_move, workers]
      exact spent_sight busy left rfl
  | settled busy recorded left =>
      obtain ⟨_, workers, stop⟩ := record_rest recorded
      refine ⟨stop.trans closed, ?_⟩
      rw [get?_move, ← workers]
      exact spent_sight (workers ▸ busy) left rfl

end

theorem sightsOf_own {logical : String} {events : List Event} {sight : Sight}
    (member : sight ∈ sightsOf logical events) : sight.logical = logical := by
  obtain ⟨event, _, found⟩ := List.mem_filterMap.mp member
  cases event with
  | sight entry =>
      rw [Event.sightOf] at found
      split at found
      · cases found
        assumption
      · cases found
  | _ => cases found

theorem sightsOf_sight (logical : String) (events : List Event) (sight : Sight) :
    sightsOf logical (events ++ [.sight sight]) =
      if logical = sight.logical then sightsOf logical events ++ [sight] else sightsOf logical events := by
  rw [sightsOf, List.filterMap_append]
  by_cases own : logical = sight.logical
  · simp [sightsOf, Event.sightOf, own]
  · simp [sightsOf, Event.sightOf, own, Ne.symm own]

/-- The last outcome decides whether a target is in trouble. -/
theorem trouble_snoc (target : Target) (events : List Event) (event : Event) :
    (if Troubled target (events ++ [event]) then some disconnected else none) =
      (event.outcomeOf target).elim (if Troubled target events then some disconnected else none)
        (fun settled => if settled then none else some disconnected) := by
  cases outcome : event.outcomeOf target with
  | none =>
      have same : Troubled target (events ++ [event]) ↔ Troubled target events := by
        simp [Troubled, List.filterMap_append, outcome]
      simp [same]
  | some settled =>
      have same : Troubled target (events ++ [event]) ↔ settled = false := by
        simp [Troubled, List.filterMap_append, outcome]
      cases settled <;> simp [same]

/-- The shared fields tell the history. -/
structure Faithful (state : State) (events : List Event) : Prop where
  stored : state.Stored
  shows : ∀ logical, state.shown logical = display logical (sightsOf logical events)
  errors : ∀ target, state.errors.get? target = if Troubled target events then some disconnected else none
  known : ∀ target, target ∈ state.workers.keys ↔ target ∈ events.filterMap Event.start
  once : (events.filterMap Event.start).Nodup

namespace Faithful
variable {state next written : State} {events : List Event} {target : Target} {phase : Phase} {sight : Sight}
  {object : Nat} {shown : Shown}

theorem start : Faithful State.start [] :=
  ⟨⟨by simp [State.start], by simp [State.start]⟩, by simp [State.start, State.shown, sightsOf, display],
    by simp [State.start, Troubled], by simp [State.start, Dict.keys], by simp⟩

theorem move (faithful : Faithful state events) {old : Phase} (busy : state.workers.get? target = some old)
    (phase : Phase) : Faithful (state.move target phase) events := by
  refine ⟨⟨faithful.stored.held, faithful.stored.apart⟩, faithful.shows, faithful.errors, ?_, faithful.once⟩
  intro other
  rw [← faithful.known, State.move, Dict.mem_keys_set, or_iff_right_iff_imp]
  rintro rfl
  exact Dict.mem_keys_of_get? busy

/-- A sight is written to the live Run that it is about. -/
theorem sighted (faithful : Faithful state events) (recorded : state.record sight = .ok (written, object, shown)) :
    Faithful written (events ++ [.sight sight]) := by
  obtain ⟨errors, workers, _⟩ := record_rest recorded
  have starts : (events ++ [Event.sight sight]).filterMap Event.start = events.filterMap Event.start := by
    simp [List.filterMap_append, Event.start]
  refine ⟨record_stored faithful.stored recorded, ?_, ?_, ?_, ?_⟩
  · intro logical
    rw [record_shown faithful.stored recorded, sightsOf_sight]
    by_cases own : logical = sight.logical
    · rw [if_pos own, if_pos own, own, faithful.shows, display_snoc (fun _ => sightsOf_own) rfl]
    · rw [if_neg own, if_neg own, faithful.shows]
  · intro target
    rw [errors, faithful.errors, trouble_snoc]
    rfl
  · rw [workers, starts]
    exact faithful.known
  · rw [starts]
    exact faithful.once

/-- An outcome is written to the errors of its target. -/
theorem outcome (faithful : Faithful state events) {event : Event} {errors : Dict Target String}
    (quiet : event.start = none) (unseen : ∀ logical, event.sightOf logical = none)
    (written : ∀ other, errors.get? other = (event.outcomeOf other).elim (state.errors.get? other)
      (fun settled => if settled then none else some disconnected)) :
    Faithful { state with errors } (events ++ [event]) := by
  have starts : (events ++ [event]).filterMap Event.start = events.filterMap Event.start := by
    simp [List.filterMap_append, quiet]
  have sights (logical : String) : sightsOf logical (events ++ [event]) = sightsOf logical events := by
    simp [sightsOf, List.filterMap_append, unseen]
  refine ⟨⟨faithful.stored.held, faithful.stored.apart⟩, ?_, ?_, ?_, ?_⟩
  · intro logical
    rw [sights]
    exact faithful.shows logical
  · intro other
    show errors.get? other = _
    rw [trouble_snoc, written, faithful.errors]
  · rw [starts]
    exact faithful.known
  · rw [starts]
    exact faithful.once

theorem failed (faithful : Faithful state events) (target : Target) :
    Faithful { state with errors := state.errors.set target disconnected } (events ++ [.failed target]) := by
  apply faithful.outcome rfl (fun _ => rfl)
  intro other
  rw [Dict.get?_set, Event.outcomeOf]
  by_cases own : other = target
  · simp [own]
  · simp [own, Ne.symm own]

theorem settled (faithful : Faithful state events) (target : Target) :
    Faithful { state with errors := state.errors.erase target } (events ++ [.settled target]) := by
  apply faithful.outcome rfl (fun _ => rfl)
  intro other
  rw [Event.outcomeOf]
  by_cases own : other = target
  · subst own
    simp
  · simp [Ne.symm own, Dict.get?_erase_of_ne _ own]

/-- A worker starts once. -/
theorem discovered (faithful : Faithful state events) (targets : List Target) (aliases : List String) :
    Faithful { state with workers := targets.foldl (enlist aliases) state.workers }
      (events ++ ((targets.foldl (enlist aliases) state.workers).keys.filter
        fun target => target ∉ state.workers.keys).map .started) := by
  have sights (logical : String) (started : List Target) :
      sightsOf logical (events ++ started.map .started) = sightsOf logical events := by
    simp [sightsOf, List.filterMap_append, List.filterMap_map, Function.comp_def, Event.sightOf]
  have troubles (target : Target) (started : List Target) :
      Troubled target (events ++ started.map .started) ↔ Troubled target events := by
    simp [Troubled, List.filterMap_append, List.filterMap_map, Function.comp_def, Event.outcomeOf]
  have starts (started : List Target) :
      (events ++ started.map Event.started).filterMap Event.start = events.filterMap Event.start ++ started := by
    simp [List.filterMap_append, List.filterMap_map, Function.comp_def, Event.start]
  refine ⟨⟨faithful.stored.held, faithful.stored.apart⟩, ?_, ?_, ?_, ?_⟩
  · intro logical
    rw [sights]
    exact faithful.shows logical
  · intro target
    simp only [troubles]
    exact faithful.errors target
  · intro target
    rw [starts, List.mem_append, ← faithful.known, List.mem_filter, decide_eq_true_eq, mem_enlist]
    by_cases before : target ∈ state.workers.keys <;> simp [before]
  · rw [starts]
    apply faithful.once.append
    · exact (Dict.distinct _).filter _
    · intro target before after
      rw [List.mem_filter, decide_eq_true_eq] at after
      exact after.2 ((faithful.known target).mpr before)

theorem turn (faithful : Faithful state events) {later : List Event} (turn : Turn state next later) :
    Faithful next (events ++ later) := by
  cases turn with
  | idle => rwa [List.append_nil]
  | close =>
      rw [List.append_nil]
      exact ⟨⟨faithful.stored.held, faithful.stored.apart⟩, faithful.shows, faithful.errors, faithful.known,
        faithful.once⟩
  | discover targets aliases => exact faithful.discovered targets aliases
  | quiet busy active opened =>
      rw [List.append_nil]
      exact faithful.move busy _
  | failed busy opened => exact (faithful.failed _).move busy _
  | sighted busy recorded left =>
      exact (faithful.sighted recorded).move ((record_rest recorded).2.1 ▸ busy) _
  | settled busy recorded left =>
      rw [← List.singleton_append, ← List.append_assoc]
      exact ((faithful.sighted recorded).settled _).move ((record_rest recorded).2.1 ▸ busy) _

theorem run (faithful : Faithful state events) (actions : List Action) :
    Faithful (state.run actions).1 (events ++ (state.run actions).2) := by
  induction actions generalizing state events with
  | nil => simpa [State.run] using faithful
  | cons action rest ih =>
      have next := ih (faithful.turn (step_turn state action))
      rw [List.append_assoc] at next
      exact next

end Faithful

/-- What a run of the threads tells of its history. -/
structure Chronicle (state : State) (events : List Event) : Prop where
  views : ∀ logical recorded now thresholds, (reconcile state.liveRuns recorded now thresholds).views.get? logical =
    if logical ∈ recorded then none
    else (display logical (sightsOf logical events)).map fun shown => shown.live.view logical now thresholds
  errors : ∀ target, state.errors.get? target = if Troubled target events then some disconnected else none
  starts : ∀ watch continuity aliases target,
    .started target ∈ (state.step (.discover watch continuity aliases)).2 ↔
      target ∈ targetsOf watch continuity ∧ target.alias_ ∈ aliases ∧ .started target ∉ events
  once : (events.filterMap Event.start).Nodup
  ended : ∀ target later, state.workers.get? target = some .ended →
    ∀ event ∈ (state.run later).2, event.target ≠ target
  closed : ∀ target later, state.stop = true → (sightsBy target (state.run later).2).length ≤ 1

theorem run_ended {state : State} {target : Target} (ended : state.workers.get? target = some .ended)
    (actions : List Action) : ∀ event ∈ (state.run actions).2, event.target ≠ target := by
  induction actions generalizing state with
  | nil => simp [State.run]
  | cons action rest ih =>
      have turn := turn_ended (step_turn state action) ended
      intro event member
      rcases List.mem_append.mp member with now | later
      · exact turn.2 event now
      · exact ih turn.1 event later

theorem run_closed {state : State} (closed : state.stop = true) (target : Target) (actions : List Action) :
    (sightsBy target (state.run actions).2).length ≤ pending (state.workers.get? target) := by
  induction actions generalizing state with
  | nil => simp [State.run, sightsBy]
  | cons action rest ih =>
      have turn := turn_closed (step_turn state action) closed target
      have later := ih turn.1
      have split : sightsBy target (state.run (action :: rest)).2 =
          sightsBy target (state.step action).2 ++ sightsBy target ((state.step action).1.run rest).2 :=
        List.filterMap_append
      rw [split, List.length_append]
      omega

theorem mem_start {target : Target} {events : List Event} :
    target ∈ events.filterMap Event.start ↔ .started target ∈ events := by
  rw [List.mem_filterMap]
  constructor
  · rintro ⟨event, member, found⟩
    cases event <;> simp_all [Event.start]
  · intro member
    exact ⟨_, member, rfl⟩

end Cordboard.Web.Observation
