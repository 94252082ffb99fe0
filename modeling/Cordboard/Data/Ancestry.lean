import Mathlib.Logic.Relation
import Mathlib.Data.List.Nodup
import Mathlib.Algebra.BigOperators.Group.List.Basic
import Mathlib.Algebra.GroupWithZero.Nat

namespace Data

variable {K : Type}

/-- The path lists the nodes from a node up to its last ancestor. -/
inductive Path (parent : K → Option K) : K → List K → K → Prop
  | stop (node : K) : Path parent node [node] node
  | step {node next last : K} {nodes : List K} (up : parent node = some next) (rest : Path parent next nodes last) :
      Path parent node (node :: nodes) last

/-- One node is the parent of the other. -/
abbrev Up (parent : K → Option K) (node next : K) : Prop := parent node = some next

namespace Path

variable {parent : K → Option K} {node next last : K} {nodes : List K}

theorem head (path : Path parent node nodes last) : ∃ rest, nodes = node :: rest := by
  cases path with
  | stop => exact ⟨[], rfl⟩
  | step up rest => exact ⟨_, rfl⟩

theorem last_mem (path : Path parent node nodes last) : last ∈ nodes := by
  induction path with
  | stop node => exact List.mem_singleton_self node
  | step up rest ih => exact List.mem_cons_of_mem _ ih

/-- The end of a path is an ancestor of its first node. -/
theorem reach (path : Path parent node nodes last) : Relation.ReflTransGen (Up parent) node last := by
  induction path with
  | stop node => exact .refl
  | step up rest ih => exact .head up ih

/-- Each node of a path has a path of its own to the same end, which is not longer. -/
theorem suffix (path : Path parent node nodes last) {middle : K} (member : middle ∈ nodes) :
    ∃ rest, Path parent middle rest last ∧ rest.length ≤ nodes.length ∧ rest ⊆ nodes := by
  induction path with
  | stop node =>
      obtain rfl := List.mem_singleton.mp member
      exact ⟨_, .stop _, Nat.le_refl _, fun _ inside => inside⟩
  | @step node next last nodes up path ih =>
      rcases List.mem_cons.mp member with rfl | later
      · exact ⟨_, .step up path, Nat.le_refl _, fun _ inside => inside⟩
      · obtain ⟨rest, found, shorter, inside⟩ := ih later
        refine ⟨rest, found, Nat.le_succ_of_le shorter, fun _ member => List.mem_cons_of_mem _ (inside member)⟩

/-- A node has one path to a root. -/
theorem unique (path : Path parent node nodes last) (root : parent last = none) {others : List K} {end_ : K}
    (other : Path parent node others end_) (top : parent end_ = none) : others = nodes ∧ end_ = last := by
  induction path generalizing others with
  | stop node =>
      cases other with
      | stop => exact ⟨rfl, rfl⟩
      | step up rest =>
          rw [root] at up
          cases up
  | step up rest ih =>
      cases other with
      | stop =>
          rw [top] at up
          cases up
      | step above path =>
          obtain rfl := Option.some.inj (up.symm.trans above)
          obtain ⟨rfl, rfl⟩ := ih root path
          exact ⟨rfl, rfl⟩

/-- A path to a root visits no node twice. -/
theorem nodup (path : Path parent node nodes last) (root : parent last = none) : nodes.Nodup := by
  induction path with
  | stop node => exact List.nodup_singleton node
  | @step node next last nodes up path ih =>
      refine List.nodup_cons.mpr ⟨fun again => ?_, ih root⟩
      obtain ⟨rest, found, shorter, _⟩ := path.suffix again
      obtain ⟨rfl, _⟩ := found.unique root (.step up path) root
      exact absurd shorter (Nat.not_succ_le_self _)

/-- The path to a root visits every ancestor. -/
theorem mem_of_reach (path : Path parent node nodes last) (root : parent last = none) {above : K}
    (reach : Relation.ReflTransGen (Up parent) node above) : above ∈ nodes := by
  induction reach using Relation.ReflTransGen.head_induction_on generalizing nodes with
  | refl =>
      obtain ⟨rest, rfl⟩ := path.head
      exact List.mem_cons_self
  | @head node next up _ ih =>
      cases path with
      | stop =>
          rw [Up, root] at up
          cases up
      | step above path =>
          obtain rfl := Option.some.inj (up.symm.trans above)
          exact List.mem_cons_of_mem _ (ih path)

/-- A node with a path to a root is not its own ancestor. -/
theorem acyclic (path : Path parent node nodes last) (root : parent last = none) :
    ¬ Relation.TransGen (Up parent) node node := by
  intro cycle
  obtain ⟨next, up, back⟩ := Relation.TransGen.head'_iff.mp cycle
  cases path with
  | stop =>
      rw [Up, root] at up
      cases up
  | @step _ _ _ nodes above path =>
      obtain rfl := Option.some.inj (up.symm.trans above)
      have again := path.mem_of_reach root back
      exact (List.nodup_cons.mp (Path.nodup (.step above path) root)).1 again

end Path

section Listing
variable [DecidableEq K] {parent : K → Option K} {all tops roots nodes : List K} {children : K → List K} {node last : K}

private theorem sum_indicator (all : List K) (up : K) :
    (all.map fun above => if above = up then 1 else 0).sum = all.count up := by
  induction all with
  | nil => rfl
  | cons first rest ih =>
      rw [List.map_cons, List.sum_cons, ih, List.count_cons, Nat.add_comm]
      simp only [beq_iff_eq]

/-- A listing that follows the children of its own nodes lists each node below a root once, and no other node. -/
theorem Path.count_listing (listing : all.Perm (tops ++ all.flatMap children))
    (apart : ∀ root, parent root = none → root ∉ all) (rootless : ∀ root ∈ roots, parent root = none)
    (path : Path parent node nodes last) (ended : parent last = none) (below : node ≠ last)
    (start : ∀ node ∈ nodes, ∀ up, parent node = some up → tops.count node = if up ∈ roots then 1 else 0)
    (each : ∀ node ∈ nodes, ∀ up, parent node = some up →
      ∀ above ∈ all, (children above).count node = if above = up then 1 else 0) :
    all.count node = if last ∈ roots then 1 else 0 := by
  induction path with
  | stop node => exact absurd rfl below
  | @step node next last nodes up rest ih =>
      have lower : (all.flatMap children).count node = all.count next := by
        rw [List.count_flatMap, ← sum_indicator]
        congr 1
        apply List.map_congr_left
        exact each node List.mem_cons_self next up
      rw [listing.count_eq, List.count_append, start node List.mem_cons_self next up, lower]
      by_cases top : next = last
      · rw [top, List.count_eq_zero.mpr (apart last ended), Nat.add_zero]
      · rw [ih ended top (fun node member => start node (List.mem_cons_of_mem _ member))
          fun node member => each node (List.mem_cons_of_mem _ member)]
        have inner : next ∉ roots := by
          intro member
          cases rest with
          | stop => exact top rfl
          | step higher _ =>
              rw [rootless next member] at higher
              cases higher
        rw [if_neg inner, Nat.zero_add]

end Listing

end Data
