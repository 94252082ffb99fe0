import Cordboard.Data.Dict
import Mathlib.Data.List.Induction

namespace Data

/-- The last item that gives a value comes first. -/
theorem findSome?_snoc {A B : Type} (pick : A → Option B) (items : List A) (item : A) :
    (items ++ [item]).reverse.findSome? pick = (pick item).or (items.reverse.findSome? pick) := by
  rw [List.reverse_append, List.reverse_singleton, List.singleton_append, List.findSome?_cons]
  cases pick item <;> rfl

/-- Each operation reads the record of its own key, answers, and may write that record. Saving may move items. -/
structure Keyed (K V Op A : Type) [DecidableEq K] where
  key : Op → K
  answer : Op → Option V → A
  write : Op → Option V → Option V
  save : Dict K V → Dict K V
  get?_save : ∀ dict key, (save dict).get? key = dict.get? key

namespace Keyed

variable {K V Op A : Type} [DecidableEq K] (store : Keyed K V Op A)

/-- The operation leaves this record under its key. -/
def record (old : Option V) (op : Op) : Option V := (store.write op old).or old

/-- Only an operation that writes changes the dictionary. -/
def step (dict : Dict K V) (op : Op) : Dict K V :=
  match store.write op (dict.get? (store.key op)) with
  | some value => store.save (dict.set (store.key op) value)
  | none => dict

def run (dict : Dict K V) (ops : List Op) : Dict K V := ops.foldl store.step dict

/-- The operations on this key, in order. -/
def atKey (key : K) (ops : List Op) : List Op := ops.filter fun op => store.key op = key

theorem get?_step (dict : Dict K V) (op : Op) (key : K) :
    (store.step dict op).get? key =
      if key = store.key op then store.record (dict.get? key) op else dict.get? key := by
  unfold step record
  by_cases same : key = store.key op
  · subst key
    cases written : store.write op (dict.get? (store.key op)) with
    | none => simp
    | some value => simp [store.get?_save]
  · cases written : store.write op (dict.get? (store.key op)) with
    | none => simp [same]
    | some value => simp [same, store.get?_save, Dict.get?_set]

/-- A record depends on the operations of its own key only. -/
theorem get?_run (dict : Dict K V) (ops : List Op) (key : K) :
    (store.run dict ops).get? key = (store.atKey key ops).foldl store.record (dict.get? key) := by
  induction ops generalizing dict with
  | nil => rfl
  | cons op rest ih =>
      rw [run, List.foldl_cons]
      have tail := ih (store.step dict op)
      rw [run] at tail
      rw [tail, get?_step]
      by_cases same : key = store.key op
      · simp [atKey, same]
      · have other : store.key op ≠ key := fun equal => same equal.symm
        simp [atKey, same, other]

/-- A property that each write gives to its record holds of every stored record. -/
theorem run_keeps {holds : K → V → Prop}
    (kept : ∀ op old value, (∀ stored, old = some stored → holds (store.key op) stored) →
      store.write op old = some value → holds (store.key op) value)
    {dict : Dict K V} (start : ∀ key value, dict.get? key = some value → holds key value) (ops : List Op) :
    ∀ key value, (store.run dict ops).get? key = some value → holds key value := by
  induction ops generalizing dict with
  | nil => exact start
  | cons op rest ih =>
      show ∀ key value, (store.run (store.step dict op) rest).get? key = some value → holds key value
      apply ih
      intro key value found
      rw [get?_step] at found
      split at found
      · rename_i same
        subst key
        unfold record at found
        cases written : store.write op (dict.get? (store.key op)) with
        | none =>
            rw [written] at found
            exact start _ _ found
        | some new =>
            rw [written] at found
            obtain rfl : new = value := Option.some.inj found
            exact kept op _ new (fun stored held => start _ stored held) written
      · exact start key value found

/-- The operations that wrote, in order. -/
def log (dict : Dict K V) : List Op → List Op
  | [] => []
  | op :: rest =>
      if (store.write op (dict.get? (store.key op))).isSome then op :: log (store.step dict op) rest
      else log (store.step dict op) rest

/-- An operation that did not write leaves no trace. -/
theorem step_silent {dict : Dict K V} {op : Op} (silent : store.write op (dict.get? (store.key op)) = none) :
    store.step dict op = dict := by
  rw [step, silent]

theorem log_append (dict : Dict K V) (first second : List Op) :
    store.log dict (first ++ second) = store.log dict first ++ store.log (store.run dict first) second := by
  induction first generalizing dict with
  | nil => rfl
  | cons op rest ih =>
      simp only [List.cons_append, log, ih, run, List.foldl_cons]
      split <;> rfl

/-- The logged operations alone give the same dictionary. -/
theorem run_log (dict : Dict K V) (ops : List Op) : store.run dict (store.log dict ops) = store.run dict ops := by
  induction ops generalizing dict with
  | nil => rfl
  | cons op rest ih =>
      rw [log]
      split
      · simp only [run, List.foldl_cons]
        exact ih (store.step dict op)
      · rename_i silent
        have same := store.step_silent (Option.not_isSome_iff_eq_none.mp silent)
        rw [same, ih dict]
        simp only [run, List.foldl_cons, same]

/-- A relation between the log of a key and its record that each write extends holds after every run. -/
theorem log_tells {tells : K → List Op → Option V → Prop} {dict : Dict K V}
    (start : ∀ key, tells key [] (dict.get? key))
    (written : ∀ op past old value, tells (store.key op) past old → store.write op old = some value →
      tells (store.key op) (past ++ [op]) (some value)) (ops : List Op) (key : K) :
    tells key (store.atKey key (store.log dict ops)) ((store.run dict ops).get? key) := by
  induction ops using List.reverseRecOn with
  | nil => exact start key
  | append_singleton ops op ih =>
      have stepped : store.run dict (ops ++ [op]) = store.step (store.run dict ops) op := by
        rw [run, List.foldl_append]
        rfl
      rw [log_append, stepped, get?_step, atKey, List.filter_append]
      cases wrote : store.write op ((store.run dict ops).get? (store.key op)) with
      | none =>
          have silent : store.log (store.run dict ops) [op] = [] := by simp [log, wrote]
          rw [silent, List.filter_nil, List.append_nil]
          split
          · rename_i same
            rw [record, same, wrote, ← same, Option.none_or]
            exact ih
          · exact ih
      | some value =>
          have logged : store.log (store.run dict ops) [op] = [op] := by simp [log, wrote]
          rw [logged]
          split
          · rename_i same
            subst key
            rw [record, wrote, List.filter_cons_of_pos (by simp)]
            exact written op _ _ value ih wrote
          · rename_i other
            rw [List.filter_cons_of_neg (by simpa [eq_comm] using other), List.filter_nil, List.append_nil]
            exact ih

/-- Where a write does not depend on the old record, the last write of a key stands. -/
theorem get?_run_last {written : Op → Option V} (blind : ∀ op old, store.write op old = written op) (dict : Dict K V)
    (ops : List Op) (key : K) :
    (store.run dict ops).get? key = ((store.atKey key ops).reverse.findSome? written).or (dict.get? key) := by
  rw [get?_run]
  generalize dict.get? key = old
  induction store.atKey key ops using List.reverseRecOn with
  | nil => rfl
  | append_singleton past op ih =>
      rw [List.foldl_append, List.foldl_cons, List.foldl_nil, record, blind, ih, findSome?_snoc, Option.or_assoc]

end Keyed

section
variable {A K : Type} [DecidableEq K] (name : A → K)

/-- An item replaces the item of its name in place, or comes last. -/
def upsert (items : List A) (item : A) : List A :=
  match items.findIdx? fun stored => name stored = name item with
  | some index => items.set index item
  | none => items ++ [item]

/-- The last item of this name. -/
def latest (log : List A) (key : K) : Option A :=
  log.reverse.findSome? fun item => if name item = key then some item else none

/-- The last item of each name, in the order of the first items. -/
def ranked (log : List A) : List A := (log.map name).eraseDups.filterMap (latest name log)

end

section
variable {A K : Type} [DecidableEq K] {name : A → K} {items log : List A} {item other : A} {key : K}

theorem eraseDups_snoc (keys : List K) (key : K) :
    (keys ++ [key]).eraseDups = if key ∈ keys then keys.eraseDups else keys.eraseDups ++ [key] := by
  rw [List.eraseDups_append]
  by_cases known : key ∈ keys
  · have removed : [key].removeAll keys = [] := by simp [List.removeAll, known]
    rw [removed, if_pos known, List.eraseDups_nil, List.append_nil]
  · have kept : [key].removeAll keys = [key] := by simp [List.removeAll, known]
    rw [kept, if_neg known]
    rfl

theorem nodup_eraseDups (keys : List K) : keys.eraseDups.Nodup := by
  induction keys using List.reverseRecOn with
  | nil => exact List.nodup_nil
  | append_singleton keys key ih =>
      rw [eraseDups_snoc]
      split
      · exact ih
      · rename_i fresh
        rw [List.nodup_append]
        refine ⟨ih, List.nodup_singleton key, fun old member new last same => ?_⟩
        rw [List.mem_singleton.mp last] at same
        exact fresh (same ▸ List.mem_eraseDups.mp member)

theorem latest_snoc : latest name (log ++ [item]) key = (if name item = key then some item else none).or (latest name log key) :=
  findSome?_snoc _ _ _

/-- Replacement keeps the names, and a new name comes last. -/
theorem map_upsert : (upsert name items item).map name =
    if name item ∈ items.map name then items.map name else items.map name ++ [name item] := by
  unfold upsert
  split
  · rename_i index found
    obtain ⟨inside, same, _⟩ := List.findIdx?_eq_some_iff_getElem.mp found
    have member : name item ∈ items.map name :=
      List.mem_map.mpr ⟨items[index], List.getElem_mem inside, of_decide_eq_true same⟩
    rw [if_pos member, List.map_set]
    apply List.ext_getElem (by simp)
    intro place _ within
    rw [List.getElem_set]
    split
    · rename_i here
      subst here
      rw [List.getElem_map]
      exact (of_decide_eq_true same).symm
    · rfl
  · rename_i absent
    rw [List.findIdx?_eq_none_iff] at absent
    have fresh : name item ∉ items.map name := by
      intro member
      obtain ⟨stored, inside, same⟩ := List.mem_map.mp member
      have different := absent stored inside
      rw [decide_eq_false_iff_not] at different
      exact different same
    rw [if_neg fresh, List.map_append, List.map_singleton]

theorem mem_upsert (member : other ∈ upsert name items item) : other ∈ items ∨ other = item := by
  unfold upsert at member
  split at member
  · exact List.mem_or_eq_of_mem_set member
  · rw [List.mem_append, List.mem_singleton] at member
    exact member

theorem item_mem_upsert : item ∈ upsert name items item := by
  unfold upsert
  split
  · rename_i index found
    obtain ⟨inside, _⟩ := List.findIdx?_eq_some_iff_getElem.mp found
    exact List.mem_set inside item
  · exact List.mem_append.mpr (.inr List.mem_cons_self)

/-- The items after a log have the names of the log in order, and each of them is the last one of its name. -/
structure Holds (name : A → K) (log items : List A) : Prop where
  names : items.map name = (log.map name).eraseDups
  last : ∀ item ∈ items, latest name log (name item) = some item

theorem Holds.nodup (holds : Holds name log items) : (items.map name).Nodup := by
  rw [holds.names]
  exact nodup_eraseDups _

theorem Holds.snoc (holds : Holds name log items) (item : A) :
    Holds name (log ++ [item]) (upsert name items item) := by
  have known : name item ∈ items.map name ↔ name item ∈ log.map name := by
    rw [holds.names, List.mem_eraseDups]
  have names : (upsert name items item).map name = ((log ++ [item]).map name).eraseDups := by
    rw [map_upsert, List.map_append, List.map_singleton, eraseDups_snoc, holds.names]
    by_cases old : name item ∈ log.map name
    · rw [if_pos old, if_pos (List.mem_eraseDups.mpr old)]
    · rw [if_neg old, if_neg fun member => old (List.mem_eraseDups.mp member)]
  refine ⟨names, fun other member => ?_⟩
  rw [latest_snoc]
  by_cases same : name item = name other
  · have distinct : ((upsert name items item).map name).Nodup := by
      rw [names]
      exact nodup_eraseDups _
    rw [if_pos same, Option.some_or, List.inj_on_of_nodup_map distinct item_mem_upsert member same]
  · rw [if_neg same, Option.none_or]
    rcases mem_upsert member with old | rfl
    · exact holds.last other old
    · exact absurd rfl same

/-- Normal forms that keep the names may be taken before an upsert or after it. -/
theorem map_upsert_normal {normal : A → A} (keeps : ∀ item, name (normal item) = name item)
    (idem : ∀ item, normal (normal item) = normal item) (items : List A) (item : A) :
    (upsert name (items.map normal) item).map normal = (upsert name items item).map normal := by
  have twice : (items.map normal).map normal = items.map normal := by
    rw [List.map_map]
    exact List.map_congr_left fun item _ => idem item
  have same : (items.map normal).findIdx? (fun stored => name stored = name item) =
      items.findIdx? fun stored => name stored = name item := by
    rw [List.findIdx?_map]
    congr 1
    funext stored
    simp [keeps]
  unfold upsert
  rw [same]
  cases items.findIdx? fun stored => name stored = name item with
  | none => rw [List.map_append, twice, List.map_append]
  | some index => rw [List.map_set, twice, List.map_set]

theorem holds_foldl (log : List A) : Holds name log (log.foldl (upsert name) []) := by
  induction log using List.reverseRecOn with
  | nil => exact ⟨rfl, by simp⟩
  | append_singleton log item ih =>
      rw [List.foldl_append]
      exact ih.snoc item

/-- A loop of upserts ranks its log. -/
theorem foldl_upsert (log : List A) : log.foldl (upsert name) [] = ranked name log := by
  have holds : Holds name log _ := holds_foldl log
  have each : (log.foldl (upsert name) []).filterMap (latest name log ∘ name) =
      (log.foldl (upsert name) []).filterMap some := List.filterMap_congr fun item member => holds.last item member
  rw [ranked, ← holds.names, List.filterMap_map, each, List.filterMap_some]

theorem holds_ranked (log : List A) : Holds name log (ranked name log) := by
  rw [← foldl_upsert]
  exact holds_foldl log

end

end Data
