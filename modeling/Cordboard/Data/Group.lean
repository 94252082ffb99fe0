import Cordboard.Data.Dict
import Mathlib.Data.List.Induction

namespace Data.Dict

variable {K V : Type} [DecidableEq K]

/-- Distinct keys that cover the items divide them into groups. -/
theorem perm_flatMap_filter {A : Type} {key : A → K} {keys : List K} {items : List A} (distinct : keys.Nodup)
    (cover : ∀ item ∈ items, key item ∈ keys) :
    (keys.flatMap fun name => items.filter fun item => key item = name).Perm items := by
  induction keys generalizing items with
  | nil =>
      have empty : items = [] := List.eq_nil_iff_forall_not_mem.mpr fun item member => List.not_mem_nil (cover item member)
      rw [empty]
      exact .nil
  | cons name rest ih =>
      obtain ⟨fresh, others⟩ := List.nodup_cons.mp distinct
      have below := @ih (items.filter fun item => !decide (key item = name)) others fun item member => by
        obtain ⟨inside, apart⟩ := List.mem_filter.mp member
        rcases List.mem_cons.mp (cover item inside) with same | later
        · simp [same] at apart
        · exact later
      have same : (rest.flatMap fun other => items.filter fun item => key item = other) =
          rest.flatMap fun other => (items.filter fun item => !decide (key item = name)).filter fun item =>
            key item = other := by
        apply List.flatMap_congr
        intro other member
        rw [List.filter_filter]
        apply List.filter_congr
        intro item _
        by_cases equal : key item = other
        · have apart : other ≠ name := fun equal => fresh (equal ▸ member)
          simp [equal, apart]
        · simp [equal]
      rw [List.flatMap_cons, same]
      exact (List.Perm.append_left _ below).trans (List.filter_append_perm _ items)

/-- A filter that asks for the source of an item keeps whole groups. -/
theorem filter_flatMap_source {A B : Type} {read : A → List B} {keep : B → Bool} {source : A → Bool}
    (own : ∀ item, ∀ value ∈ read item, keep value = source item) (items : List A) :
    (items.flatMap read).filter keep = (items.filter source).flatMap read := by
  induction items with
  | nil => rfl
  | cons item rest ih =>
      rw [List.flatMap_cons, List.filter_append, ih, List.filter_cons]
      cases kept : source item with
      | true =>
          rw [if_pos rfl, List.flatMap_cons, List.filter_eq_self.mpr fun value member => (own item value member).trans kept]
      | false =>
          have nothing : (read item).filter keep = [] := by
            apply List.filter_eq_nil_iff.mpr
            intro value member
            simp [own item value member, kept]
          rw [nothing, List.nil_append, if_neg Bool.false_ne_true]

/-- This is `dict.setdefault(key, []).append(value)`. -/
def append (dict : Dict K (List V)) (key : K) (value : V) : Dict K (List V) :=
  dict.set key ((dict.get? key).getD [] ++ [value])

/-- A loop appends each pair under its key. -/
def group (pairs : List (K × V)) : Dict K (List V) :=
  pairs.foldl (fun dict pair => dict.append pair.1 pair.2) empty

/-- The group of a key is empty when the key is absent. -/
def members (dict : Dict K (List V)) (key : K) : List V := (dict.get? key).getD []

theorem members_append (dict : Dict K (List V)) (key other : K) (value : V) :
    (dict.append key value).members other = dict.members other ++ if other = key then [value] else [] := by
  unfold members append
  rw [get?_set]
  split
  · rename_i same
    rw [same]
    rfl
  · rw [List.append_nil]

private theorem members_foldl (pairs : List (K × V)) (dict : Dict K (List V)) (key : K) :
    (pairs.foldl (fun dict pair => dict.append pair.1 pair.2) dict).members key =
      dict.members key ++ (pairs.filter fun pair => key = pair.1).map Prod.snd := by
  induction pairs generalizing dict with
  | nil => simp
  | cons pair rest ih =>
      rw [List.foldl_cons, ih, members_append, List.append_assoc]
      by_cases same : key = pair.1
      · rw [if_pos same, List.filter_cons_of_pos (by simpa using same)]
        rfl
      · rw [if_neg same, List.filter_cons_of_neg (by simpa using same)]
        rfl

/-- The group of a key holds its values in order. -/
theorem members_group (pairs : List (K × V)) (key : K) :
    (group pairs).members key = (pairs.filter fun pair => key = pair.1).map Prod.snd := by
  rw [group, members_foldl]
  rfl

/-- The groups of distinct keys that cover the pairs hold each pair once. -/
theorem members_perm {W : Type} (pairs : List (K × V)) {keys : List K} (distinct : keys.Nodup)
    (cover : ∀ pair ∈ pairs, pair.1 ∈ keys) (read : K → V → W) :
    (keys.flatMap fun key => ((group pairs).members key).map (read key)).Perm
      (pairs.map fun pair => read pair.1 pair.2) := by
  have same : (keys.flatMap fun key => ((group pairs).members key).map (read key)) =
      (keys.flatMap fun key => pairs.filter fun pair => pair.1 = key).map fun pair => read pair.1 pair.2 := by
    rw [List.map_flatMap]
    apply List.flatMap_congr
    intro key _
    simp only [members_group, List.map_map, eq_comm (a := key)]
    apply List.map_congr_left
    intro pair member
    rw [Function.comp_apply, of_decide_eq_true (List.mem_filter.mp member).2]
  rw [same]
  exact (perm_flatMap_filter distinct cover).map _

theorem mem_members_group {pairs : List (K × V)} {key : K} {value : V} :
    value ∈ (group pairs).members key ↔ (key, value) ∈ pairs := by
  rw [members_group, List.mem_map]
  constructor
  · rintro ⟨⟨other, _⟩, member, rfl⟩
    obtain ⟨inside, same⟩ := List.mem_filter.mp member
    obtain rfl : key = other := by simpa using same
    exact inside
  · intro member
    exact ⟨(key, value), List.mem_filter.mpr ⟨member, by simp⟩, rfl⟩

/-- A key with members is one of the keys. -/
theorem members_ne_nil {pairs : List (K × V)} {key : K} : (group pairs).members key ≠ [] ↔ key ∈ pairs.map Prod.fst := by
  rw [List.mem_map]
  constructor
  · intro filled
    obtain ⟨value, member⟩ := List.exists_mem_of_ne_nil _ filled
    exact ⟨_, mem_members_group.mp member, rfl⟩
  · rintro ⟨⟨key, value⟩, member, rfl⟩
    exact List.ne_nil_of_mem (mem_members_group.mpr member)

private theorem keys_foldl (pairs : List (K × V)) (dict : Dict K (List V)) (key : K) :
    key ∈ (pairs.foldl (fun dict pair => dict.append pair.1 pair.2) dict).keys ↔
      key ∈ dict.keys ∨ key ∈ pairs.map Prod.fst := by
  induction pairs generalizing dict with
  | nil => simp
  | cons pair rest ih =>
      rw [List.foldl_cons, ih, append, mem_keys_set, List.map_cons, List.mem_cons]
      tauto

/-- The keys of the groups are the keys of the pairs. -/
theorem mem_keys_group {pairs : List (K × V)} {key : K} : key ∈ (group pairs).keys ↔ key ∈ pairs.map Prod.fst := by
  rw [group, keys_foldl]
  simp [keys]

private theorem keys_set_of_mem {W : Type} {dict : Dict K W} {key : K} {value : W} (known : key ∈ dict.keys) :
    (dict.set key value).keys = dict.keys := by
  unfold set
  rw [dif_pos known]
  show (dict.items.map fun item => if item.1 = key then (key, value) else item).map Prod.fst = dict.items.map Prod.fst
  rw [List.map_map]
  apply List.map_congr_left
  intro item _
  by_cases same : item.1 = key <;> simp [same]

private theorem keys_set_of_not_mem {W : Type} {dict : Dict K W} {key : K} {value : W} (fresh : key ∉ dict.keys) :
    (dict.set key value).keys = dict.keys ++ [key] := by
  unfold set
  rw [dif_neg fresh]
  show (dict.items ++ [(key, value)]).map Prod.fst = dict.items.map Prod.fst ++ [key]
  rw [List.map_append]
  rfl

private theorem keys_foldl_eq (pairs : List (K × V)) (dict : Dict K (List V)) :
    (pairs.foldl (fun dict pair => dict.append pair.1 pair.2) dict).keys =
      dict.keys ++ ((pairs.map Prod.fst).filter fun key => key ∉ dict.keys).eraseDups := by
  induction pairs generalizing dict with
  | nil => simp
  | cons pair rest ih =>
      rw [List.foldl_cons, ih, List.map_cons]
      by_cases known : pair.1 ∈ dict.keys
      · have same : (dict.append pair.1 pair.2).keys = dict.keys := by
          unfold append
          rw [keys_set_of_mem known]
        rw [same, List.filter_cons_of_neg (by simpa using known)]
      · have more : (dict.append pair.1 pair.2).keys = dict.keys ++ [pair.1] := by
          unfold append
          rw [keys_set_of_not_mem known]
        rw [more, List.filter_cons_of_pos (by simpa using known), List.eraseDups_cons, List.append_assoc,
          List.singleton_append, List.filter_filter]
        simp [Bool.and_comm, not_or, beq_eq_decide]

/-- The keys stand in the order of their first pairs. -/
theorem keys_group (pairs : List (K × V)) : (group pairs).keys = (pairs.map Prod.fst).eraseDups := by
  rw [group, keys_foldl_eq]
  simp [keys]

/-- A loop assigns each value to its key. -/
def ofPairs (pairs : List (K × V)) : Dict K V := pairs.foldl (fun dict pair => dict.set pair.1 pair.2) empty

private theorem get?_foldl_set {pairs : List (K × V)} (distinct : (pairs.map Prod.fst).Nodup) (dict : Dict K V) (key : K) :
    (pairs.foldl (fun dict pair => dict.set pair.1 pair.2) dict).get? key =
      (pairs.lookup key).or (dict.get? key) := by
  induction pairs generalizing dict with
  | nil => rfl
  | cons pair rest ih =>
      obtain ⟨first, value⟩ := pair
      rw [List.map_cons, List.nodup_cons] at distinct
      rw [List.foldl_cons, ih distinct.2, get?_set, List.lookup_cons]
      by_cases same : key = first
      · subst same
        have absent : rest.lookup key = none := by
          rw [Option.eq_none_iff_forall_ne_some]
          intro other found
          exact distinct.1 (List.mem_map.mpr ⟨_, mem_of_lookup found, rfl⟩)
        rw [absent, if_pos rfl, beq_self_eq_true]
        rfl
      · rw [if_neg same, beq_false_of_ne same]

/-- With distinct keys no assignment replaces another one. -/
theorem get?_ofPairs {pairs : List (K × V)} (distinct : (pairs.map Prod.fst).Nodup) {key : K} {value : V} :
    (ofPairs pairs).get? key = some value ↔ (key, value) ∈ pairs := by
  rw [ofPairs, get?_foldl_set distinct, get?_empty, Option.or_none]
  exact (get?_eq_some_iff ⟨pairs, distinct⟩ key value)

/-- This is `dict.update`. The items of the second dictionary replace those of the first one. -/
def update (dict other : Dict K V) : Dict K V := other.items.foldl (fun dict item => dict.set item.1 item.2) dict

theorem get?_update (dict other : Dict K V) (key : K) :
    (dict.update other).get? key = (other.get? key).or (dict.get? key) :=
  get?_foldl_set other.distinct dict key

theorem mem_keys_update {dict other : Dict K V} {key : K} :
    key ∈ (dict.update other).keys ↔ key ∈ other.keys ∨ key ∈ dict.keys := by
  rw [← not_iff_not, not_or, ← get?_eq_none_iff, ← get?_eq_none_iff, ← get?_eq_none_iff, get?_update,
    Option.or_eq_none_iff]

/-- The last assignment of a key stands. -/
theorem get?_ofPairs_last (pairs : List (K × V)) (key : K) : (ofPairs pairs).get? key = pairs.reverse.lookup key := by
  induction pairs using List.reverseRecOn with
  | nil => rfl
  | append_singleton pairs pair ih =>
      rw [ofPairs, List.foldl_append, List.foldl_cons, List.foldl_nil, ← ofPairs, get?_set, ih, List.reverse_append,
        List.reverse_singleton, List.singleton_append, List.lookup_cons]
      by_cases same : key = pair.1
      · rw [if_pos same, same, beq_self_eq_true]
      · rw [if_neg same, beq_false_of_ne same]

end Data.Dict
