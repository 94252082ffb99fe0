import Mathlib.Algebra.Ring.Nat
import Mathlib.Order.Interval.Finset.Nat

namespace Data

/-- A period holds its first point and not its last one. -/
structure Period where
  start : Nat
  stop : Nat
deriving DecidableEq

namespace Period

def points (period : Period) : Finset Nat := Finset.Ico period.start period.stop

def length (period : Period) : Nat := period.stop - period.start

/-- Two periods that are apart share no point. -/
def Apart (first second : Period) : Prop := Disjoint first.points second.points

instance (first second : Period) : Decidable (first.Apart second) :=
  inferInstanceAs (Decidable (Disjoint first.points second.points))

/-- The union of the periods. -/
def covered (periods : List Period) : Finset Nat :=
  periods.foldr (fun period points => period.points ∪ points) ∅

/-- The sum of the lengths counts a shared point more than once. -/
def total (periods : List Period) : Nat := (periods.map length).sum

section
variable {period : Period} {periods : List Period} {low high : Nat}

@[simp] theorem card_points : period.points.card = period.length := Nat.card_Ico _ _

@[simp] theorem covered_cons : covered (period :: periods) = period.points ∪ covered periods := rfl

@[simp] theorem total_cons : total (period :: periods) = period.length + total periods := by
  rw [total, List.map_cons, List.sum_cons, total]

theorem mem_covered {point : Nat} : point ∈ covered periods ↔ ∃ period ∈ periods, point ∈ period.points := by
  induction periods with
  | nil => simp [covered]
  | cons period rest ih => simp [ih]

/-- The union is not longer than the sum. -/
theorem card_covered_le : (covered periods).card ≤ total periods := by
  induction periods with
  | nil => exact Nat.le_refl 0
  | cons period rest ih =>
      have union := Finset.card_union_le period.points (covered rest)
      rw [card_points] at union
      rw [covered_cons, total_cons]
      omega

theorem disjoint_covered : Disjoint period.points (covered periods) ↔ ∀ other ∈ periods, period.Apart other := by
  rw [Finset.disjoint_left]
  constructor
  · intro apart other member
    apply Finset.disjoint_left.mpr
    intro point inside again
    exact apart inside (mem_covered.mpr ⟨other, member, again⟩)
  · intro apart point inside again
    obtain ⟨other, member, shared⟩ := mem_covered.mp again
    exact Finset.disjoint_left.mp (apart other member) inside shared

/-- The sum is the length of the union exactly when no two periods overlap. -/
theorem total_eq_card_iff : total periods = (covered periods).card ↔ periods.Pairwise Apart := by
  induction periods with
  | nil => exact iff_of_true rfl .nil
  | cons period rest ih =>
      have bound := @card_covered_le rest
      have both := Finset.card_union_add_card_inter period.points (covered rest)
      rw [card_points] at both
      rw [List.pairwise_cons, ← disjoint_covered, ← ih, Finset.disjoint_iff_inter_eq_empty, ← Finset.card_eq_zero,
        covered_cons, total_cons]
      omega

/-- Periods inside a window cover no more than the window. -/
theorem card_covered_within (inside : ∀ period ∈ periods, low ≤ period.start ∧ period.stop ≤ high) :
    (covered periods).card ≤ high - low := by
  have subset : covered periods ⊆ Finset.Ico low high := by
    intro point member
    obtain ⟨period, listed, within⟩ := mem_covered.mp member
    obtain ⟨below, above⟩ := inside period listed
    have ends := Finset.mem_Ico.mp within
    exact Finset.mem_Ico.mpr ⟨below.trans ends.1, ends.2.trans_le above⟩
  calc (covered periods).card ≤ (Finset.Ico low high).card := Finset.card_le_card subset
    _ = high - low := Nat.card_Ico low high

end

end Period

end Data
