import Mathlib.Algebra.Order.Floor.Ring
import Mathlib.Data.Rat.Floor
import Mathlib.Tactic.Linarith
import Cordboard.Construction.Convergence

namespace Cordboard.LiveReconciliation
open Data Viewer

/-- The Run is recorded, or the views report that its record failed to come. -/
def Resolved (recorded : List String) (views : LiveViews) (runId : String) : Prop :=
  runId ∈ recorded ∨ ∃ view, views.views.get? runId = some view ∧ view.source = .ingestionFailed

/-- The polls of a loop that has stopped, from the first one on. -/
structure Convergence (liveRuns : Dict String LiveRun) (recorded : Nat → List String) (now : Nat → Time)
    (thresholds : Thresholds) (first : Nat) (yields : List LiveViews) : Prop where
  polled : yields ≠ []
  shown : ∀ poll views, yields[poll]? = some views →
    views = reconcile liveRuns (recorded (first + poll)) (now (first + poll)) thresholds
  waits : ∀ poll views, poll + 1 < yields.length → yields[poll]? = some views →
    ∃ runId live, liveRuns.get? runId = some live ∧ live.completedAt.isSome = true ∧
      ¬ Resolved (recorded (first + poll)) views runId
  complete : ∀ views, yields.getLast? = some views → ∀ runId live, liveRuns.get? runId = some live →
    live.completedAt.isSome = true → Resolved (recorded (first + (yields.length - 1))) views runId
  settled : ∀ views, yields.getLast? = some views → ∀ runId live view, liveRuns.get? runId = some live →
    live.completedAt.isSome = true → views.views.get? runId = some view →
      view.source ≠ .live ∧ view.source ≠ .ingestionPending

section
variable {liveRuns : Dict String LiveRun} {recorded : Nat → List String} {now : Nat → Time} {thresholds : Thresholds}
  {interval : Time} {runId : String} {live : LiveRun} {known : List String} {time : Time}

/-- A Run has a view when it is not recorded. -/
theorem get?_reconcile : (reconcile liveRuns known time thresholds).views.get? runId =
    if runId ∈ known then none else (liveRuns.get? runId).map fun live => live.view runId time thresholds := by
  rw [reconcile, Dict.get?_mapItems, Dict.get?_filter]
  by_cases member : runId ∈ known
  · cases liveRuns.get? runId <;> simp [member]
  · cases liveRuns.get? runId <;> simp [member]

theorem mem_unresolved {views : LiveViews} : runId ∈ unresolved liveRuns views ↔
    ∃ live view, liveRuns.get? runId = some live ∧ live.completedAt.isSome = true ∧
      views.views.get? runId = some view ∧ view.source ≠ .ingestionFailed := by
  simp only [unresolved, List.mem_map, List.mem_filter, Bool.and_eq_true]
  constructor
  · rintro ⟨⟨key, live⟩, ⟨member, completed, waits⟩, rfl⟩
    cases found : views.views.get? key with
    | none =>
        rw [found] at waits
        cases waits
    | some view =>
        rw [found] at waits
        exact ⟨live, view, (Dict.get?_eq_some_iff _ _ _).mpr member, completed, rfl, by simpa using waits⟩
  · rintro ⟨live, view, stored, completed, found, waits⟩
    refine ⟨(runId, live), ⟨(Dict.get?_eq_some_iff _ _ _).mp stored, completed, ?_⟩, rfl⟩
    rw [found]
    simpa using waits

/-- A Run is unresolved when it is neither recorded nor failed. -/
theorem unresolved_iff (stored : liveRuns.get? runId = some live) (completed : live.completedAt.isSome = true) :
    runId ∈ unresolved liveRuns (reconcile liveRuns known time thresholds) ↔
      ¬ Resolved known (reconcile liveRuns known time thresholds) runId := by
  unfold Resolved
  rw [mem_unresolved, get?_reconcile]
  by_cases member : runId ∈ known
  · simp [member]
  · simp [member, stored, completed]

/-- The record of a Run fails to come when the threshold has passed. -/
theorem failed_of_late {completedAt : Time} (done : live.completedAt = some completedAt)
    (late : completedAt + thresholds.failedAfter ≤ time) :
    (live.view runId time thresholds).source = .ingestionFailed := by
  have passed : thresholds.failedAfter ≤ secondsSince completedAt time := by
    unfold secondsSince
    exact le_trans (by linarith) (le_max_right _ _)
  simp only [LiveRun.view, done, sourceOf]
  rw [if_pos passed]

/-- The clock advances by the interval at each sleep. -/
theorem clock_advances (advance : ∀ poll, now poll + interval ≤ now (poll + 1)) (poll : Nat) :
    now 0 + poll * interval ≤ now poll := by
  induction poll with
  | zero => simp
  | succ poll ih =>
      have next := advance poll
      push_cast
      linarith

/-- From this poll on, no completed Run is unresolved. -/
def lastPoll (thresholds : Thresholds) (interval : Time) : Nat := ⌈thresholds.failedAfter / interval⌉₊

theorem resolved_of_last (known : List String) (positive : 0 < interval)
    (advance : ∀ poll, now poll + interval ≤ now (poll + 1))
    (started : ∀ runId live completedAt, liveRuns.get? runId = some live → live.completedAt = some completedAt →
      completedAt ≤ now 0) {poll : Nat} (late : lastPoll thresholds interval ≤ poll) :
    unresolved liveRuns (reconcile liveRuns known (now poll) thresholds) = [] := by
  apply List.eq_nil_iff_forall_not_mem.mpr
  intro runId member
  obtain ⟨live, view, stored, completed, found, waits⟩ := mem_unresolved.mp member
  obtain ⟨completedAt, done⟩ := Option.isSome_iff_exists.mp completed
  rw [get?_reconcile] at found
  split at found
  · cases found
  · rw [stored, Option.map_some] at found
    obtain rfl := Option.some.inj found
    apply waits
    apply failed_of_late done
    have before := started runId live completedAt stored done
    have passed := clock_advances advance poll
    have enough : thresholds.failedAfter / interval ≤ poll := Nat.ceil_le.mp late
    have total : thresholds.failedAfter ≤ poll * interval := (div_le_iff₀ positive).mp enough
    linarith

/-- A poll without an unresolved Run is the last one. -/
theorem convergence_stop {poll : Nat} (empty : unresolved liveRuns (reconcile liveRuns (recorded poll) (now poll)
    thresholds) = []) : Convergence liveRuns recorded now thresholds poll
      [reconcile liveRuns (recorded poll) (now poll) thresholds] where
  polled := List.cons_ne_nil _ _
  shown other views found := by
    cases other with
    | zero => exact (Option.some.inj found).symm
    | succ other => cases found
  waits other views more found := by
    rw [List.length_singleton] at more
    omega
  complete views last runId live stored completed := by
    obtain rfl := Option.some.inj last
    change Resolved (recorded poll) (reconcile liveRuns (recorded poll) (now poll) thresholds) runId
    by_contra open_
    have member := (unresolved_iff stored completed).mpr open_
    rw [empty] at member
    cases member
  settled views last runId live view stored completed found := by
    obtain rfl := Option.some.inj last
    have failed : view.source = .ingestionFailed := by
      by_contra waits
      have member : runId ∈ unresolved liveRuns (reconcile liveRuns (recorded poll) (now poll) thresholds) :=
        mem_unresolved.mpr ⟨live, view, stored, completed, found, waits⟩
      rw [empty] at member
      cases member
    rw [failed]
    exact ⟨by decide, by decide⟩

/-- A poll with an unresolved Run comes before the later ones. -/
theorem Convergence.cons {poll : Nat} {yields : List LiveViews}
    (later : Convergence liveRuns recorded now thresholds (poll + 1) yields) (open_ : unresolved liveRuns
      (reconcile liveRuns (recorded poll) (now poll) thresholds) ≠ []) : Convergence liveRuns recorded now thresholds poll
        (reconcile liveRuns (recorded poll) (now poll) thresholds :: yields) where
  polled := List.cons_ne_nil _ _
  shown other views found := by
    cases other with
    | zero => exact (Option.some.inj found).symm
    | succ other =>
        rw [show poll + (other + 1) = poll + 1 + other by omega]
        exact later.shown other views found
  waits other views more found := by
    cases other with
    | zero =>
        obtain rfl := Option.some.inj found
        obtain ⟨runId, member⟩ := List.exists_mem_of_ne_nil _ open_
        obtain ⟨live, view, stored, completed, _⟩ := mem_unresolved.mp member
        exact ⟨runId, live, stored, completed, (unresolved_iff stored completed).mp member⟩
    | succ other =>
        rw [show poll + (other + 1) = poll + 1 + other by omega]
        exact later.waits other views (by simpa using more) found
  complete views last runId live stored completed := by
    have index : poll + (yields.length + 1 - 1) = poll + 1 + (yields.length - 1) := by
      have some := List.length_pos_of_ne_nil later.polled
      omega
    rw [List.length_cons, index]
    rw [List.getLast?_cons_of_ne_nil later.polled] at last
    exact later.complete views last runId live stored completed
  settled views last := by
    rw [List.getLast?_cons_of_ne_nil later.polled] at last
    exact later.settled views last

theorem await_stop {poll fuel : Nat} (empty : unresolved liveRuns (reconcile liveRuns (recorded poll) (now poll)
    thresholds) = []) : awaitConvergence liveRuns recorded now thresholds (fuel + 1) poll =
      some [reconcile liveRuns (recorded poll) (now poll) thresholds] := by
  rw [awaitConvergence, empty]
  exact if_pos rfl

theorem await_cons {poll fuel : Nat} {yields : List LiveViews} (open_ : unresolved liveRuns (reconcile liveRuns
    (recorded poll) (now poll) thresholds) ≠ [])
    (later : awaitConvergence liveRuns recorded now thresholds fuel (poll + 1) = some yields) :
    awaitConvergence liveRuns recorded now thresholds (fuel + 1) poll =
      some (reconcile liveRuns (recorded poll) (now poll) thresholds :: yields) := by
  rw [awaitConvergence, later]
  exact if_neg (by simpa using open_)

/-- The loop stops after the last poll at the latest. -/
theorem stops_from (positive : 0 < interval) (advance : ∀ poll, now poll + interval ≤ now (poll + 1))
    (started : ∀ runId live completedAt, liveRuns.get? runId = some live → live.completedAt = some completedAt →
      completedAt ≤ now 0) (left poll : Nat) (enough : lastPoll thresholds interval ≤ poll + left) :
    ∃ yields, (∀ fuel, left < fuel → awaitConvergence liveRuns recorded now thresholds fuel poll = some yields) ∧
      yields.length ≤ left + 1 ∧ Convergence liveRuns recorded now thresholds poll yields := by
  induction left generalizing poll with
  | zero =>
      have empty := resolved_of_last (recorded poll) positive advance started enough
      refine ⟨_, fun fuel fueled => ?_, Nat.le_refl _, convergence_stop empty⟩
      obtain ⟨fuel, rfl⟩ := Nat.exists_eq_add_one.mpr fueled
      exact await_stop empty
  | succ left ih =>
      by_cases empty : unresolved liveRuns (reconcile liveRuns (recorded poll) (now poll) thresholds) = []
      · refine ⟨_, fun fuel fueled => ?_, by simp, convergence_stop empty⟩
        obtain ⟨fuel, rfl⟩ := Nat.exists_eq_add_one.mpr (Nat.lt_of_le_of_lt (Nat.zero_le _) fueled)
        exact await_stop empty
      · obtain ⟨yields, returned, short, convergence⟩ := ih (poll + 1) (by omega)
        refine ⟨_, fun fuel fueled => ?_, by simpa using short, convergence.cons empty⟩
        obtain ⟨fuel, rfl⟩ := Nat.exists_eq_add_one.mpr (Nat.lt_of_le_of_lt (Nat.zero_le _) fueled)
        exact await_cons empty (returned fuel (by omega))

end

/-- Polling ends after boundedly many polls, and it ends when each completed Run is recorded or reported as failed. -/
theorem polling_converges (liveRuns : Dict String LiveRun) (recorded : Nat → List String) (now : Nat → Time)
    (thresholds : Thresholds) (interval : Time) (positive : 0 < interval)
    (advance : ∀ poll, now poll + interval ≤ now (poll + 1))
    (started : ∀ runId live completedAt, liveRuns.get? runId = some live → live.completedAt = some completedAt →
      completedAt ≤ now 0) :
    ∃ yields, (∀ fuel, ⌈thresholds.failedAfter / interval⌉₊ < fuel →
        awaitConvergence liveRuns recorded now thresholds fuel 0 = some yields) ∧
      yields.length ≤ ⌈thresholds.failedAfter / interval⌉₊ + 1 ∧
      Convergence liveRuns recorded now thresholds 0 yields :=
  stops_from positive advance started _ 0 (by rw [lastPoll, Nat.zero_add])

section Example

def waitingRun : LiveRun := ⟨"run-1", "thread-1", .str "g", .str "a", .null, .str "success", 3, some 0⟩

/-- The record of the Run does not come, and the clock moves by one second at each sleep. -/
theorem polling_converges_unrecorded : ∃ yields,
    awaitConvergence (Dict.empty.set "run-1" waitingRun) (fun _ => []) (fun poll => poll) ⟨1, 2⟩ 4 0 = some yields ∧
    yields.length ≤ 3 := by
  have bound : ⌈(2 : Time) / 1⌉₊ = 2 := by norm_num
  obtain ⟨yields, returned, short, _⟩ := polling_converges (Dict.empty.set "run-1" waitingRun) (fun _ => [])
    (fun poll => poll) ⟨1, 2⟩ 1 (by norm_num) (fun poll => by push_cast; exact le_refl _) (by
      intro runId live completedAt stored done
      rw [Dict.get?_set] at stored
      split at stored
      · obtain rfl := Option.some.inj stored
        obtain rfl := Option.some.inj done
        simp
      · cases stored)
  rw [bound] at returned short
  exact ⟨yields, returned 4 (by omega), short⟩

end Example

end Cordboard.LiveReconciliation
