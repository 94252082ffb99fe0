import Mathlib.Logic.Function.Basic
import Mathlib.Data.List.Basic

namespace Data

/-- A breadth-first search has given depths to some vertices, and the ones in the queue still wait. -/
structure Layers {V : Type} (adjacent : V → List V) (depths : V → Option Nat) (queue : List V) : Prop where
  queued : ∀ v ∈ queue, (depths v).isSome = true
  sorted : queue.Pairwise fun v w => ∀ d ∈ depths v, ∀ e ∈ depths w, d ≤ e
  shallow : ∀ v ∈ queue.head?, ∀ d ∈ depths v, ∀ w, ∀ e ∈ depths w, e ≤ d + 1
  closed : ∀ v, v ∉ queue → ∀ d ∈ depths v, ∀ w ∈ adjacent v, ∃ e ∈ depths w, e ≤ d + 1
  contiguous : ∀ v, ∀ d ∈ depths v, ∀ e ≤ d, ∃ w, e ∈ depths w

namespace Layers

variable {V : Type} [DecidableEq V] {adjacent : V → List V} {depths : V → Option Nat} {queue : List V} {v w : V}
  {depth : Nat}

omit [DecidableEq V] in
/-- No vertex has a depth at the start. -/
theorem start : Layers adjacent (fun _ => none) [] where
  queued := by simp
  sorted := .nil
  shallow := by simp
  closed := by simp
  contiguous := by simp

/-- A new vertex changes no depth that was given before. -/
theorem mem_update {e new : Nat} (fresh : depths v = none) (stored : e ∈ depths w) :
    e ∈ Function.update depths v (some new) w := by
  have other : w ≠ v := by
    rintro rfl
    rw [fresh] at stored
    cases stored
  rwa [Function.update_of_ne other]

/-- A search may begin again at a new vertex that lies below all others. -/
theorem root (layers : Layers adjacent depths []) (fresh : depths v = none) (below : ∀ w, ∀ e ∈ depths w, e < depth)
    (full : ∀ e < depth, ∃ w, e ∈ depths w) : Layers adjacent (Function.update depths v (some depth)) [v] := by
  have kept : ∀ w, ∀ e ∈ depths w, e ∈ Function.update depths v (some depth) w := fun _ _ => mem_update fresh
  have bound : ∀ w, ∀ e ∈ Function.update depths v (some depth) w, e ≤ depth := by
    intro w e stored
    by_cases same : w = v
    · subst same
      rw [Function.update_self] at stored
      exact Nat.le_of_eq (Option.mem_some_iff.mp stored).symm
    · rw [Function.update_of_ne same] at stored
      exact Nat.le_of_lt (below w e stored)
  constructor
  · intro w member
    obtain rfl := List.mem_singleton.mp member
    rw [Function.update_self]
    rfl
  · exact List.pairwise_singleton _ _
  · intro w member d stored other e found
    obtain rfl := Option.some.inj member
    rw [Function.update_self] at stored
    obtain rfl := Option.some.inj stored
    exact Nat.le_succ_of_le (bound other e found)
  · intro w outside d stored target edge
    have other : w ≠ v := fun same => outside (List.mem_singleton.mpr same)
    rw [Function.update_of_ne other] at stored
    obtain ⟨e, found, near⟩ := layers.closed w List.not_mem_nil d stored target edge
    exact ⟨e, kept target e found, near⟩
  · intro w d stored e within
    rcases Nat.lt_or_ge e depth with less | more
    · obtain ⟨other, found⟩ := full e less
      exact ⟨other, kept other e found⟩
    · have same : e = depth := Nat.le_antisymm (Nat.le_trans within (bound w d stored)) more
      exact ⟨v, by rw [Function.update_self, same]; rfl⟩

/-- The vertex at the head of the queue gives the next depth to a new vertex. -/
theorem reach (layers : Layers adjacent depths (v :: queue)) (placed : depth ∈ depths v) (fresh : depths w = none) :
    Layers adjacent (Function.update depths w (some (depth + 1))) (v :: queue ++ [w]) := by
  have kept : ∀ u, ∀ e ∈ depths u, e ∈ Function.update depths w (some (depth + 1)) u := fun _ _ => mem_update fresh
  have split : ∀ u, ∀ e ∈ Function.update depths w (some (depth + 1)) u, u = w ∧ e = depth + 1 ∨ e ∈ depths u := by
    intro u e stored
    by_cases same : u = w
    · subst same
      rw [Function.update_self] at stored
      exact .inl ⟨rfl, (Option.mem_some_iff.mp stored).symm⟩
    · rw [Function.update_of_ne same] at stored
      exact .inr stored
  have outside : w ∉ v :: queue := by
    intro member
    have := layers.queued w member
    rw [fresh] at this
    cases this
  have shallow : ∀ u, ∀ e ∈ depths u, e ≤ depth + 1 := layers.shallow v rfl depth placed
  constructor
  · intro u member
    rcases List.mem_append.mp member with old | new
    · obtain ⟨e, stored⟩ := Option.isSome_iff_exists.mp (layers.queued u old)
      exact Option.isSome_iff_exists.mpr ⟨e, kept u e stored⟩
    · obtain rfl := List.mem_singleton.mp new
      rw [Function.update_self]
      rfl
  · rw [List.pairwise_append]
    refine ⟨?_, List.pairwise_singleton _ _, ?_⟩
    · apply List.Pairwise.imp_of_mem _ layers.sorted
      intro first second one two ordered d stored e found
      have apart : ∀ u ∈ v :: queue, u ≠ w := fun u member same => outside (same ▸ member)
      rw [Function.update_of_ne (apart first one)] at stored
      rw [Function.update_of_ne (apart second two)] at found
      exact ordered d stored e found
    · intro u _ last member d stored e found
      obtain rfl := List.mem_singleton.mp member
      rw [Function.update_self] at found
      obtain rfl := Option.some.inj found
      rcases split u d stored with ⟨_, rfl⟩ | old
      · exact Nat.le_refl _
      · exact shallow u d old
  · intro u member d stored other e found
    obtain rfl := Option.some.inj member
    have same : d = depth := by
      rcases split v d stored with ⟨same, _⟩ | old
      · exact absurd (same ▸ List.mem_cons_self) outside
      · exact Option.mem_unique old placed
    subst same
    rcases split other e found with ⟨_, rfl⟩ | old
    · exact Nat.le_refl _
    · exact shallow other e old
  · intro u away d stored target edge
    rw [List.mem_append, List.mem_singleton, not_or] at away
    rcases split u d stored with ⟨same, _⟩ | old
    · exact absurd same away.2
    · obtain ⟨e, found, near⟩ := layers.closed u away.1 d old target edge
      exact ⟨e, kept target e found, near⟩
  · intro u d stored e within
    have deep : ∀ e ≤ depth, ∃ u, e ∈ depths u := layers.contiguous v depth placed
    rcases split u d stored with ⟨_, rfl⟩ | old
    · rcases Nat.lt_or_ge depth e with more | less
      · have same : e = depth + 1 := Nat.le_antisymm within more
        exact ⟨w, by rw [Function.update_self, same]; rfl⟩
      · obtain ⟨other, found⟩ := deep e less
        exact ⟨other, kept other e found⟩
    · obtain ⟨other, found⟩ := layers.contiguous u d old e within
      exact ⟨other, kept other e found⟩

omit [DecidableEq V] in
/-- The head leaves the queue when each vertex next to it has a depth. -/
theorem pop (layers : Layers adjacent depths (v :: queue)) (done : ∀ w ∈ adjacent v, (depths w).isSome = true) :
    Layers adjacent depths queue := by
  obtain ⟨depth, placed⟩ := Option.isSome_iff_exists.mp (layers.queued v List.mem_cons_self)
  constructor
  · exact fun w member => layers.queued w (List.mem_cons_of_mem _ member)
  · exact layers.sorted.of_cons
  · intro w head d stored other e found
    have later : depth ≤ d :=
      (List.pairwise_cons.mp layers.sorted).1 w (List.mem_of_mem_head? head) depth placed d stored
    have near := layers.shallow v rfl depth placed other e found
    omega
  · intro w outside d stored target edge
    by_cases same : w = v
    · subst same
      obtain ⟨e, found⟩ := Option.isSome_iff_exists.mp (done target edge)
      exact ⟨e, found, layers.shallow w rfl d stored target e found⟩
    · exact layers.closed w (fun member => (List.mem_cons.mp member).elim same outside) d stored target edge
  · exact layers.contiguous

end Layers

end Data
