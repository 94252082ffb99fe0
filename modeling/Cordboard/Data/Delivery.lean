import Mathlib.Data.List.Basic

namespace Data

variable {A T S : Type}

/-- Each item comes for the first time in order, and an item that came before may come again at any later point. The
first list holds the first arrivals. -/
inductive Delivery : List (A × T) → List (A × T) → Prop
  | start : Delivery [] []
  | fresh {once received : List (A × T)} (item : A × T) (before : Delivery once received) :
      Delivery (once ++ [item]) (received ++ [item])
  | again {once received : List (A × T)} (item : A × T) (before : Delivery once received)
      (known : item.1 ∈ once.map Prod.fst) : Delivery once (received ++ [item])

/-- A step makes each marked item stale, a stale item stays stale, and it changes nothing. -/
structure Absorbs (step : S → A × T → S) (marked : A → Prop) (stale : S → A → Prop) : Prop where
  ignores : ∀ s item, stale s item.1 → step s item = s
  marks : ∀ s item, marked item.1 → stale (step s item) item.1
  keeps : ∀ s item other, stale s other → stale (step s item) other

namespace Absorbs

variable {step : S → A × T → S} {marked : A → Prop} {stale : S → A → Prop} (absorbs : Absorbs step marked stale)
include absorbs

theorem keeps_foldl (items : List (A × T)) {s : S} {other : A} (old : stale s other) :
    stale (items.foldl step s) other := by
  induction items generalizing s with
  | nil => exact old
  | cons item rest ih => exact ih (absorbs.keeps s item other old)

/-- Every marked item of a fold is stale at its end. -/
theorem stale_foldl {items : List (A × T)} (s : S) {other : A} (known : other ∈ items.map Prod.fst)
    (mark : marked other) : stale (items.foldl step s) other := by
  obtain ⟨item, member, rfl⟩ := List.mem_map.mp known
  obtain ⟨before, later, rfl⟩ := List.append_of_mem member
  rw [List.foldl_append, List.foldl_cons]
  exact absorbs.keeps_foldl later (absorbs.marks _ item mark)

/-- The repeated items change nothing. -/
theorem foldl_delivery {once received : List (A × T)} (delivery : Delivery once received)
    (mark : ∀ item ∈ once, marked item.1) (s : S) : received.foldl step s = once.foldl step s := by
  induction delivery with
  | start => rfl
  | fresh item before ih =>
      rw [List.foldl_append, List.foldl_append, ih fun other member => mark other (List.mem_append_left _ member)]
  | again item before known ih =>
      obtain ⟨first, member, same⟩ := List.mem_map.mp known
      rw [List.foldl_append, ih mark]
      exact absorbs.ignores _ item (absorbs.stale_foldl s known (same ▸ mark first member))

end Absorbs

end Data
