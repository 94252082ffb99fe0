import Mathlib.Algebra.Order.Field.Basic
import Mathlib.Tactic.Linarith
import Cordboard.Proof.Web.Layering

namespace Cordboard.Presentation
open Data Archive

/-- The boxes around two Nodes have no point in common. -/
def Apart (first second : PlacedNode) : Prop :=
  first.x + 100 < second.x - 100 ∨ second.x + 100 < first.x - 100 ∨
    first.y + 18 < second.y - 18 ∨ second.y + 18 < first.y - 18

/-- The box around the Node lies in the view box. -/
structure Inside (diagram : Diagram) (node : PlacedNode) : Prop where
  left : 0 ≤ node.x - 100
  right : node.x + 100 ≤ diagram.width
  top : 0 ≤ node.y - 18
  bottom : node.y + 18 ≤ diagram.height

/-- Each Node has one box of its own, and the rows follow the edges. -/
structure LaidOut (nodes : List String) (edges : List Edge) (diagram : Diagram) : Prop where
  once : diagram.nodes.map PlacedNode.id = nodes
  drawn : diagram.edges.map PlacedEdge.edge = edges
  joined : ∀ placed ∈ diagram.edges, ∃ source ∈ diagram.nodes, ∃ target ∈ diagram.nodes,
    source.id = placed.edge.source ∧ target.id = placed.edge.target ∧
      placed.start = (source.x, source.y) ∧ placed.stop = (target.x, target.y)
  layered : ∃ row : String → Nat, Rowed nodes edges row ∧ ∀ node ∈ diagram.nodes, node.y = row node.id * 100 + 40
  apart : diagram.nodes.Pairwise Apart
  inside : ∀ node ∈ diagram.nodes, Inside diagram node

section
variable {width length col other : Nat}

/-- A slot leaves room for half of a box and a margin on both sides. -/
theorem slot_inside (depth : Nat) (less : col < length) (wide : length * 240 ≤ width) :
    120 ≤ (position width depth length col).1 ∧ (position width depth length col).1 + 120 ≤ width := by
  have positive : (0 : ℚ) < length := by exact_mod_cast Nat.lt_of_le_of_lt (Nat.zero_le col) less
  have room : (length : ℚ) * 240 ≤ width := by exact_mod_cast wide
  have slots : (col : ℚ) + 1 ≤ length := by exact_mod_cast less
  have start : (0 : ℚ) ≤ col := Nat.cast_nonneg col
  unfold position
  constructor
  · rw [le_div_iff₀ positive]
    nlinarith
  · rw [← le_sub_iff_add_le, div_le_iff₀ positive]
    nlinarith

/-- Two slots of one row lie at least one slot apart. -/
theorem slots_apart (depth : Nat) (less : col < other) (within : other < length) (wide : length * 240 ≤ width) :
    (position width depth length col).1 + 240 ≤ (position width depth length other).1 := by
  have positive : (0 : ℚ) < length := by exact_mod_cast Nat.lt_of_le_of_lt (Nat.zero_le other) within
  have room : (length : ℚ) * 240 ≤ width := by exact_mod_cast wide
  have next : (col : ℚ) + 1 ≤ other := by exact_mod_cast less
  have moved : (width : ℚ) * (col + 1) ≤ width * other := mul_le_mul_of_nonneg_left next (Nat.cast_nonneg width)
  unfold position
  dsimp only
  rw [div_add' _ _ _ (ne_of_gt positive), div_le_div_iff_of_pos_right positive]
  linarith

end

section
variable {nodes : List String} {row : String → Nat} {node : String} {depth : Nat} {members : List String}

/-- The Nodes of one row in the order of the document. -/
def rowOf (nodes : List String) (row : String → Nat) (depth : Nat) : List String :=
  nodes.filter fun node => depth = row node

/-- The rows that `layout` builds. -/
abbrev groupedRows (nodes : List String) (row : String → Nat) : Dict Nat (List String) :=
  Dict.group (nodes.map fun node => (row node, node))

theorem get?_groupedRows (stored : (groupedRows nodes row).get? depth = some members) :
    members = rowOf nodes row depth := by
  have held := Dict.members_group (nodes.map fun node => (row node, node)) depth
  rw [Dict.members, stored, Option.getD_some] at held
  rw [held, rowOf, List.filter_map, List.map_map]
  simp [Function.comp_def]

theorem groupedRows_of_mem (row : String → Nat) (member : node ∈ nodes) :
    (groupedRows nodes row).get? (row node) = some (rowOf nodes row (row node)) := by
  have known : row node ∈ (groupedRows nodes row).keys := by
    rw [Dict.mem_keys_group, List.map_map]
    exact List.mem_map.mpr ⟨node, member, rfl⟩
  cases stored : (groupedRows nodes row).get? (row node) with
  | none => exact absurd known ((Dict.get?_eq_none_iff _ _).mp stored)
  | some members => rw [get?_groupedRows stored]

theorem length_le_width (member : node ∈ nodes) :
    (rowOf nodes row (row node)).length * 240 ≤ widthOf (groupedRows nodes row) := by
  have item := (Dict.get?_eq_some_iff _ _ _).mp (groupedRows_of_mem row member)
  have among : (rowOf nodes row (row node)).length ∈ (groupedRows nodes row).items.map fun row => row.2.length :=
    List.mem_map.mpr ⟨_, item, rfl⟩
  unfold widthOf
  cases top : ((groupedRows nodes row).items.map fun row => row.2.length).max? with
  | none => rw [List.max?_eq_none_iff.mp top] at among; cases among
  | some most =>
      have := (List.max?_eq_some_iff.mp top).2 _ among
      rw [Option.getD_some]
      omega

theorem depth_le_height (member : node ∈ nodes) : (row node + 1) * 100 ≤ heightOf (groupedRows nodes row) := by
  have item := (Dict.get?_eq_some_iff _ _ _).mp (groupedRows_of_mem row member)
  have among : row node ∈ (groupedRows nodes row).items.map Prod.fst := List.mem_map.mpr ⟨_, item, rfl⟩
  unfold heightOf
  cases top : ((groupedRows nodes row).items.map Prod.fst).max? with
  | none => rw [List.max?_eq_none_iff.mp top] at among; cases among
  | some most =>
      have := (List.max?_eq_some_iff.mp top).2 _ among
      rw [Option.getD_some]
      omega

/-- The rows share no Node. -/
theorem rows_nodup (distinct : nodes.Nodup) : ((groupedRows nodes row).items.flatMap Prod.snd).Nodup := by
  have held : ∀ item ∈ (groupedRows nodes row).items, item.2 = rowOf nodes row item.1 := fun item member =>
    get?_groupedRows ((Dict.get?_eq_some_iff _ _ _).mpr member)
  rw [List.nodup_flatMap]
  constructor
  · intro item member
    rw [held item member]
    exact distinct.filter _
  · apply List.Pairwise.imp_of_mem _ (List.pairwise_map.mp (groupedRows nodes row).distinct)
    intro first second one two different node left right
    rw [held first one, rowOf, List.mem_filter, decide_eq_true_iff] at left
    rw [held second two, rowOf, List.mem_filter, decide_eq_true_iff] at right
    exact different (left.2.trans right.2.symm)

/-- No two entries have one index. -/
theorem zipIdx_apart {A : Type} (items : List A) : items.zipIdx.Pairwise fun first second => first.2 ≠ second.2 := by
  rw [← List.pairwise_map, List.zipIdx_map_snd]
  exact List.nodup_range'

/-- Each Node gets the slot of its place in its row. -/
theorem position_ok (row : String → Nat) (distinct : nodes.Nodup) (member : node ∈ nodes) :
    ∃ col, (rowOf nodes row (row node))[col]? = some node ∧ (positionsOf (groupedRows nodes row)).get? node =
      some (position (widthOf (groupedRows nodes row)) (row node) (rowOf nodes row (row node)).length col) := by
  have inside : node ∈ rowOf nodes row (row node) := List.mem_filter.mpr ⟨member, decide_eq_true rfl⟩
  obtain ⟨col, found⟩ := List.mem_iff_getElem?.mp inside
  refine ⟨col, found, ?_⟩
  unfold positionsOf
  rw [Dict.get?_ofPairs]
  · rw [List.mem_flatMap]
    refine ⟨_, (Dict.get?_eq_some_iff _ _ _).mp (groupedRows_of_mem row member), ?_⟩
    exact List.mem_map.mpr ⟨(node, col), List.mem_zipIdx_iff_getElem?.mpr found, rfl⟩
  · have keys : ∀ item : Nat × List String, (item.2.zipIdx.map fun entry =>
        (entry.1, position (widthOf (groupedRows nodes row)) item.1 item.2.length entry.2)).map Prod.fst = item.2 :=
      fun item => (List.map_map ..).trans (List.zipIdx_map_fst 0 item.2)
    rw [List.map_flatMap]
    simp only [keys]
    exact rows_nodup distinct

end

section
variable {nodes : List String} {row : String → Nat} {first second : String} {one two : Nat}

/-- The place of a Node on the page. -/
def spotOf (width : Nat) (nodes : List String) (row : String → Nat) (node : String) (col : Nat) : PlacedNode :=
  let at_ := position width (row node) (rowOf nodes row (row node)).length col
  ⟨node, at_.1, at_.2⟩

theorem spot_inside {placed : List PlacedNode} {drawn : List PlacedEdge} {width height : Nat}
    (less : one < (rowOf nodes row (row first)).length) (wide : (rowOf nodes row (row first)).length * 240 ≤ width)
    (high : (row first + 1) * 100 ≤ height) :
    Inside ⟨width, height, placed, drawn⟩ (spotOf width nodes row first one) := by
  obtain ⟨left, right⟩ := slot_inside (row first) less wide
  have start : (0 : ℚ) ≤ row first := Nat.cast_nonneg _
  have below : ((row first : ℚ) + 1) * 100 ≤ height := by exact_mod_cast high
  constructor
  · show (0 : ℚ) ≤ (position width (row first) (rowOf nodes row (row first)).length one).1 - 100
    linarith
  · show (position width (row first) (rowOf nodes row (row first)).length one).1 + 100 ≤ (width : ℚ)
    linarith
  · show (0 : ℚ) ≤ (row first : ℚ) * 100 + 40 - 18
    linarith
  · show (row first : ℚ) * 100 + 40 + 18 ≤ (height : ℚ)
    linarith

/-- Two Nodes stand in different rows or in different slots of one row. -/
theorem spots_disjoint {width : Nat} (held : (rowOf nodes row (row first))[one]? = some first)
    (found : (rowOf nodes row (row second))[two]? = some second)
    (wide : (rowOf nodes row (row first)).length * 240 ≤ width) (different : first ≠ second) :
    Apart (spotOf width nodes row first one) (spotOf width nodes row second two) := by
  rcases Nat.lt_trichotomy (row first) (row second) with above | same | below
  · have next : (row first : ℚ) + 1 ≤ row second := by exact_mod_cast above
    right; right; left
    show (row first : ℚ) * 100 + 40 + 18 < (row second : ℚ) * 100 + 40 - 18
    linarith
  · rw [← same] at found
    have inOne := (List.getElem?_eq_some_iff.mp held).1
    have inTwo := (List.getElem?_eq_some_iff.mp found).1
    rcases Nat.lt_trichotomy one two with before | equal | behind
    · have gap := slots_apart (row first) before inTwo wide
      left
      show (position width (row first) (rowOf nodes row (row first)).length one).1 + 100 <
        (position width (row second) (rowOf nodes row (row second)).length two).1 - 100
      rw [← same]
      linarith
    · rw [equal, found] at held
      exact absurd (Option.some.inj held).symm different
    · have gap := slots_apart (row first) behind inOne wide
      right; left
      show (position width (row second) (rowOf nodes row (row second)).length two).1 + 100 <
        (position width (row first) (rowOf nodes row (row first)).length one).1 - 100
      rw [← same]
      linarith
  · have next : (row second : ℚ) + 1 ≤ row first := by exact_mod_cast below
    right; right; right
    show (row second : ℚ) * 100 + 40 + 18 < (row first : ℚ) * 100 + 40 - 18
    linarith

end

/-- The layout of a valid structure ends, and its boxes stand apart in rows that follow the edges. -/
theorem layout_ok (derivedJoinEdges : JoinEdges) (structure_ : Structure) (valid : Valid derivedJoinEdges structure_) :
    ∃ diagram, layout derivedJoinEdges structure_ = .ok diagram ∧
      LaidOut structure_.nodeIds (allEdges derivedJoinEdges structure_) diagram := by
  obtain ⟨adjacency, depths, row, built, assigned, stored, rowed⟩ := depths_ok valid
  generalize drawn : allEdges derivedJoinEdges structure_ = edges at *
  generalize named : structure_.nodeIds = nodes at *
  have distinct : nodes.Nodup := named ▸ valid.distinct
  have ends : ∀ edge ∈ edges, edge.source ∈ nodes ∧ edge.target ∈ nodes := by
    intro edge member
    rw [← named]
    exact valid.edges edge (drawn ▸ member)
  have rows : rowsOf depths nodes = .ok (groupedRows nodes row) := by
    unfold rowsOf
    rw [mapM_ok fun node member => by rw [index_ok.mpr (stored node member)]; rfl]
    rfl
  choose! col held placed using fun node (member : node ∈ nodes) => position_ok row distinct member
  let spot : String → PlacedNode := fun node => spotOf (widthOf (groupedRows nodes row)) nodes row node (col node)
  let line : Edge → PlacedEdge := fun edge =>
    ⟨edge, ((spot edge.source).x, (spot edge.source).y), ((spot edge.target).x, (spot edge.target).y)⟩
  have less : ∀ node ∈ nodes, col node < (rowOf nodes row (row node)).length := fun node member =>
    (List.getElem?_eq_some_iff.mp (held node member)).1
  have spots : nodes.mapM (fun node => do
      let at_ ← index (positionsOf (groupedRows nodes row)) node
      .ok (⟨node, at_.1, at_.2⟩ : PlacedNode)) = .ok (nodes.map spot) :=
    mapM_ok fun node member => by rw [index_ok.mpr (placed node member)]; rfl
  have lines : edges.mapM (fun edge => do
      let start ← index (positionsOf (groupedRows nodes row)) edge.source
      let stop ← index (positionsOf (groupedRows nodes row)) edge.target
      .ok (⟨edge, start, stop⟩ : PlacedEdge)) = .ok (edges.map line) :=
    mapM_ok fun edge member => by
      rw [index_ok.mpr (placed edge.source (ends edge member).1), index_ok.mpr (placed edge.target (ends edge member).2)]
      rfl
  refine ⟨⟨widthOf (groupedRows nodes row), heightOf (groupedRows nodes row), nodes.map spot, edges.map line⟩, ?_, ?_⟩
  · unfold layout
    rw [named, drawn]
    exact bind_ok.mpr ⟨_, built, bind_ok.mpr ⟨_, assigned, bind_ok.mpr ⟨_, rows, bind_ok.mpr ⟨_, spots,
      bind_ok.mpr ⟨_, lines, rfl⟩⟩⟩⟩⟩
  · constructor
    · simp [Function.comp_def, spot, spotOf]
    · simp [Function.comp_def, line]
    · intro joined member
      obtain ⟨edge, inside, rfl⟩ := List.mem_map.mp member
      exact ⟨spot edge.source, List.mem_map_of_mem (ends edge inside).1, spot edge.target,
        List.mem_map_of_mem (ends edge inside).2, rfl, rfl, rfl, rfl⟩
    · refine ⟨row, rowed, ?_⟩
      intro joined member
      obtain ⟨node, _, rfl⟩ := List.mem_map.mp member
      rfl
    · rw [List.pairwise_map]
      apply List.Pairwise.imp_of_mem _ distinct
      intro first second one two different
      exact spots_disjoint (held first one) (held second two) (length_le_width one) different
    · intro joined member
      obtain ⟨node, inside, rfl⟩ := List.mem_map.mp member
      exact spot_inside (less node inside) (length_le_width inside) (depth_le_height inside)

/-- Two Nodes that call each other, and a third one on its own. -/
def twoLoop : Structure :=
  ⟨[⟨"a", none⟩, ⟨"b", none⟩, ⟨"c", none⟩], [⟨"a", "b", "direct"⟩, ⟨"b", "a", "direct"⟩], ["a"], []⟩

theorem layout_ok_twoLoop : ∃ diagram, layout (fun _ => []) twoLoop = .ok diagram ∧
    LaidOut twoLoop.nodeIds (allEdges (fun _ => []) twoLoop) diagram :=
  layout_ok (fun _ => []) twoLoop ⟨by decide, by decide, by decide⟩

end Cordboard.Presentation
