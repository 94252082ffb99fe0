import Mathlib.Data.List.Nodup
import Mathlib.Data.List.Sort

namespace Data

/-- A dictionary keeps its items in insertion order, with one item for each key. -/
structure Dict (K V : Type) where
  items : List (K × V)
  distinct : (items.map Prod.fst).Nodup
deriving DecidableEq

namespace Dict

variable {K V : Type}

/-- The empty dictionary has no items. -/
def empty : Dict K V := ⟨[], List.nodup_nil⟩

instance : Inhabited (Dict K V) := ⟨empty⟩

/-- The keys stand in the order of the items. -/
def keys (dict : Dict K V) : List K := dict.items.map Prod.fst

@[simp] theorem items_empty : (empty : Dict K V).items = [] := rfl

/-- A filter keeps the order of the remaining items. -/
def filter (dict : Dict K V) (keep : K → V → Bool) : Dict K V where
  items := dict.items.filter fun item => keep item.1 item.2
  distinct := dict.distinct.sublist (List.filter_sublist.map Prod.fst)

/-- Each value changes under its own key. -/
def mapValues {W : Type} (dict : Dict K V) (change : V → W) : Dict K W where
  items := dict.items.map fun item => (item.1, change item.2)
  distinct := by simpa only [List.map_map, Function.comp_def] using dict.distinct

/-- Each item gives a new value to its own key. -/
def mapItems {W : Type} (dict : Dict K V) (change : K → V → W) : Dict K W where
  items := dict.items.map fun item => (item.1, change item.1 item.2)
  distinct := by simpa only [List.map_map, Function.comp_def] using dict.distinct

/-- Each value changes under its own key or goes away. -/
def filterMap {W : Type} (dict : Dict K V) (change : V → Option W) : Dict K W where
  items := dict.items.filterMap fun item => (change item.2).map fun value => (item.1, value)
  distinct := by
    apply List.Pairwise.map (R := fun first second => first.1 ≠ second.1) Prod.fst (fun _ _ h => h)
    apply List.Pairwise.filterMap _ _ (List.pairwise_map.mp dict.distinct)
    intro first second different one held two kept
    obtain ⟨_, _, rfl⟩ := Option.map_eq_some_iff.mp held
    obtain ⟨_, _, rfl⟩ := Option.map_eq_some_iff.mp kept
    exact different

/-- Sorting moves the items but keeps each of them. -/
def sortBy (dict : Dict K V) (text : K → String) : Dict K V where
  items := dict.items.insertionSort fun first second => text first.1 ≤ text second.1
  distinct := ((List.perm_insertionSort _ dict.items).map Prod.fst).nodup_iff.mpr dict.distinct

section Lookup
variable [DecidableEq K]

/-- A lookup finds the only item with this key. -/
def get? (dict : Dict K V) (key : K) : Option V := dict.items.lookup key

/-- An assignment replaces the value in place, or appends a new item. -/
def set (dict : Dict K V) (key : K) (value : V) : Dict K V :=
  if present : key ∈ dict.keys then
    ⟨dict.items.map fun item => if item.1 = key then (key, value) else item, by
      have same : (dict.items.map fun item => if item.1 = key then (key, value) else item).map Prod.fst =
          dict.items.map Prod.fst := by
        rw [List.map_map]
        apply List.map_congr_left
        intro item _
        by_cases equal : item.1 = key <;> simp [equal]
      rw [same]
      exact dict.distinct⟩
  else
    ⟨dict.items ++ [(key, value)], by
      rw [List.map_append, List.nodup_append]
      refine ⟨dict.distinct, List.nodup_singleton _, ?_⟩
      rintro old member new fresh rfl
      obtain rfl := List.mem_singleton.mp fresh
      exact present member⟩

/-- A removal drops the item with this key. -/
def erase (dict : Dict K V) (key : K) : Dict K V := dict.filter fun other _ => other ≠ key

omit [DecidableEq K] in
private theorem value_unique {items : List (K × V)} (distinct : (items.map Prod.fst).Nodup) {key : K}
    {first second : V} (one : (key, first) ∈ items) (two : (key, second) ∈ items) : first = second :=
  congrArg Prod.snd (List.inj_on_of_nodup_map distinct one two rfl)

private theorem lookup_iff {items : List (K × V)} (distinct : (items.map Prod.fst).Nodup) (key : K) (value : V) :
    items.lookup key = some value ↔ (key, value) ∈ items := by
  induction items with
  | nil => simp
  | cons item rest ih =>
      obtain ⟨first, stored⟩ := item
      rw [List.map_cons, List.nodup_cons] at distinct
      by_cases same : key = first
      · subst first
        have absent (other : V) : (key, other) ∉ rest := fun member =>
          distinct.1 (List.mem_map.mpr ⟨(key, other), member, rfl⟩)
        simp [absent, eq_comm]
      · have different : (key == first) = false := by simpa using same
        simp only [List.lookup_cons, different, List.mem_cons, Prod.mk.injEq, same, false_and, false_or]
        exact ih distinct.2

/-- The lookup returns exactly the stored items. -/
theorem get?_eq_some_iff (dict : Dict K V) (key : K) (value : V) :
    dict.get? key = some value ↔ (key, value) ∈ dict.items :=
  lookup_iff dict.distinct key value

/-- Two lookups agree when they return the same items. -/
private theorem get?_ext {first second : Dict K V} {one two : K}
    (same : ∀ value, (one, value) ∈ first.items ↔ (two, value) ∈ second.items) :
    first.get? one = second.get? two := by
  apply Option.ext
  intro value
  rw [get?_eq_some_iff, get?_eq_some_iff]
  exact same value

/-- Only the item of a stored key has this key. -/
theorem items_filter {dict : Dict K V} {key : K} {value : V} (found : dict.get? key = some value) :
    (dict.items.filter fun item => item.1 = key) = [(key, value)] := by
  have nodup := List.Nodup.of_map Prod.fst dict.distinct
  apply List.perm_singleton.mp
  apply (List.perm_ext_iff_of_nodup (nodup.filter _) (List.nodup_singleton _)).mpr
  intro item
  rw [List.mem_filter, List.mem_singleton, decide_eq_true_eq]
  constructor
  · intro ⟨member, same⟩
    have held := (get?_eq_some_iff dict item.1 item.2).mpr member
    rw [same, found] at held
    exact Prod.ext same (Option.some.inj held).symm
  · intro same
    rw [same]
    exact ⟨(get?_eq_some_iff dict key value).mp found, rfl⟩

/-- Two dictionaries with the same lookups have the same items. -/
theorem items_perm {first second : Dict K V} (same : ∀ key, first.get? key = second.get? key) :
    first.items.Perm second.items := by
  apply (List.perm_ext_iff_of_nodup (List.Nodup.of_map Prod.fst first.distinct)
    (List.Nodup.of_map Prod.fst second.distinct)).mpr
  rintro ⟨key, value⟩
  rw [← get?_eq_some_iff, ← get?_eq_some_iff, same]

theorem get?_eq_none_iff (dict : Dict K V) (key : K) : dict.get? key = none ↔ key ∉ dict.keys := by
  constructor
  · intro absent member
    obtain ⟨⟨stored, value⟩, inside, rfl⟩ := List.mem_map.mp member
    simp [(dict.get?_eq_some_iff _ _).mpr inside] at absent
  · intro absent
    apply Option.eq_none_iff_forall_ne_some.mpr
    intro value present
    exact absent (List.mem_map.mpr ⟨(key, value), (dict.get?_eq_some_iff key value).mp present, rfl⟩)

theorem mem_keys_of_get? {dict : Dict K V} {key : K} {value : V} (present : dict.get? key = some value) :
    key ∈ dict.keys := by
  by_contra absent
  simp [(dict.get?_eq_none_iff key).mpr absent] at present

@[simp] theorem get?_empty (key : K) : (empty : Dict K V).get? key = none := rfl

@[simp] theorem get?_set_self (dict : Dict K V) (key : K) (value : V) :
    (dict.set key value).get? key = some value := by
  rw [get?_eq_some_iff]
  unfold set
  split
  · rename_i present
    obtain ⟨item, inside, same⟩ := List.mem_map.mp present
    exact List.mem_map.mpr ⟨item, inside, by simp [same]⟩
  · simp

theorem get?_set_of_ne (dict : Dict K V) {key other : K} (different : other ≠ key) (value : V) :
    (dict.set key value).get? other = dict.get? other := by
  apply get?_ext
  intro stored
  unfold set
  split
  · simp only [List.mem_map]
    constructor
    · rintro ⟨item, inside, equal⟩
      split at equal
      · exact absurd (congrArg Prod.fst equal).symm different
      · exact equal ▸ inside
    · intro inside
      exact ⟨(other, stored), inside, by simp [different]⟩
  · simp [different]

theorem get?_set (dict : Dict K V) (key other : K) (value : V) :
    (dict.set key value).get? other = if other = key then some value else dict.get? other := by
  split
  · rename_i same
    rw [same, get?_set_self]
  · rename_i different
    exact dict.get?_set_of_ne different value

/-- An assignment adds its own key. -/
theorem mem_keys_set {dict : Dict K V} {key other : K} {value : V} :
    other ∈ (dict.set key value).keys ↔ other = key ∨ other ∈ dict.keys := by
  rw [← not_iff_not, not_or, ← get?_eq_none_iff, ← get?_eq_none_iff, get?_set]
  by_cases same : other = key <;> simp [same]

@[simp] theorem get?_filter (dict : Dict K V) (keep : K → V → Bool) (key : K) :
    (dict.filter keep).get? key = (dict.get? key).filter (keep key) := by
  apply Option.ext
  intro value
  rw [get?_eq_some_iff, Option.filter_eq_some_iff, get?_eq_some_iff]
  simp [filter]

@[simp] theorem get?_erase_self (dict : Dict K V) (key : K) : (dict.erase key).get? key = none := by
  rw [erase, get?_filter]
  cases dict.get? key <;> simp

theorem get?_erase_of_ne (dict : Dict K V) {key other : K} (different : other ≠ key) :
    (dict.erase key).get? other = dict.get? other := by
  rw [erase, get?_filter]
  cases dict.get? other <;> simp [different]

@[simp] theorem get?_sortBy (dict : Dict K V) (text : K → String) (key : K) :
    (dict.sortBy text).get? key = dict.get? key := by
  apply get?_ext
  intro value
  simp only [sortBy]
  exact (List.perm_insertionSort _ dict.items).mem_iff

@[simp] theorem get?_mapValues {W : Type} (dict : Dict K V) (change : V → W) (key : K) :
    (dict.mapValues change).get? key = (dict.get? key).map change := by
  apply Option.ext
  intro value
  rw [get?_eq_some_iff, Option.map_eq_some_iff]
  simp [mapValues, get?_eq_some_iff]

@[simp] theorem get?_mapItems {W : Type} (dict : Dict K V) (change : K → V → W) (key : K) :
    (dict.mapItems change).get? key = (dict.get? key).map (change key) := by
  apply Option.ext
  intro value
  rw [get?_eq_some_iff, Option.map_eq_some_iff]
  simp only [mapItems, List.mem_map, get?_eq_some_iff]
  constructor
  · rintro ⟨item, member, same⟩
    obtain ⟨rfl, rfl⟩ := Prod.mk.inj same
    exact ⟨item.2, member, rfl⟩
  · rintro ⟨old, member, rfl⟩
    exact ⟨(key, old), member, rfl⟩

@[simp] theorem get?_filterMap {W : Type} (dict : Dict K V) (change : V → Option W) (key : K) :
    (dict.filterMap change).get? key = (dict.get? key).bind change := by
  apply Option.ext
  intro value
  rw [get?_eq_some_iff, Option.bind_eq_some_iff]
  simp only [filterMap, List.mem_filterMap, Option.map_eq_some_iff, get?_eq_some_iff]
  constructor
  · rintro ⟨item, member, other, changed, same⟩
    obtain ⟨rfl, rfl⟩ := Prod.mk.inj same
    exact ⟨_, member, changed⟩
  · rintro ⟨old, member, changed⟩
    exact ⟨_, member, _, changed, rfl⟩

end Lookup

end Dict

/-- A lookup finds an item with its key. -/
theorem mem_of_lookup {K V : Type} [BEq K] [LawfulBEq K] {items : List (K × V)} {key : K} {value : V}
    (found : items.lookup key = some value) : (key, value) ∈ items := by
  induction items with
  | nil => cases found
  | cons item rest ih =>
      obtain ⟨first, stored⟩ := item
      rw [List.lookup_cons] at found
      split at found
      · rename_i same
        obtain rfl := eq_of_beq same
        obtain rfl := Option.some.inj found
        exact List.mem_cons_self
      · exact List.mem_cons_of_mem _ (ih found)

end Data
