import Cordboard.Data.Joined
import Cordboard.Proof.Web.RunOverlay

namespace Cordboard.Presentation
open Data Archive

/-- The child that the page opens for a call of this Node. -/
def childOf (subgraphs : Dict String Structure) (structure_ : Structure) (node : String) : Option Structure :=
  ((subgraphByNode structure_).get? node).join.bind subgraphs.get?

/-- A call site of the page is a path of Nodes and occurrences through opened children. -/
inductive Called (subgraphs : Dict String Structure) : Structure → List StepView → List (String × Nat) → Prop
  | here {structure_ : Structure} {steps : List StepView} {node : String} {occurrence : Nat} {step : StepView}
      (recorded : RecordedFor structure_.nodeIds steps node occurrence step) :
      Called subgraphs structure_ steps [(node, occurrence)]
  | under {structure_ child : Structure} {steps : List StepView} {node : String} {occurrence : Nat} {step : StepView}
      {rest : List (String × Nat)} (recorded : RecordedFor structure_.nodeIds steps node occurrence step)
      (opens : childOf subgraphs structure_ node = some child) (below : Called subgraphs child step.childSteps rest) :
      Called subgraphs structure_ steps ((node, occurrence) :: rest)

mutual

/-- The call sites of an entry and of all entries in it, each with its key. -/
def ChildCall.siteKeys (path : List (String × Nat)) : ChildCall → List (List (String × Nat) × String)
  | ⟨node, occurrence, key, _, _, _, childCalls⟩ =>
      (path ++ [(node, occurrence)], key) :: siteKeysOf (path ++ [(node, occurrence)]) childCalls

/-- The call sites of all entries of a level. -/
def siteKeysOf (path : List (String × Nat)) : List ChildCall → List (List (String × Nat) × String)
  | [] => []
  | call :: rest => call.siteKeys path ++ siteKeysOf path rest

end

/-- The parts of the texts of a call path between the dashes. -/
def pathParts (path : List (String × Nat)) : List (List Char) := (callTexts path).flatMap (parts '-')

/-- Behind a common way two call sites go on at different Nodes. One Node is named like the other with the number of its
occurrence behind it, perhaps with more parts. These parts and the rest of the one path read like the rest of the other. -/
inductive Confusable (subgraphs : Dict String Structure) (structure_ : Structure) (steps : List StepView) : Prop
  | intro {way rest tail : List (String × Nat)} {node longer : String} {occurrence other : Nat}
      {more : List (List Char)} (one : Called subgraphs structure_ steps (way ++ (node, occurrence) :: rest))
      (two : Called subgraphs structure_ steps (way ++ (longer, other) :: tail))
      (extends_ : parts '-' longer = parts '-' node ++ (toString occurrence).toList :: more)
      (spells : pathParts rest = more ++ (toString other).toList :: pathParts tail) :
      Confusable subgraphs structure_ steps

section
variable {derivedJoinEdges : JoinEdges} {subgraphs : Dict String Structure} {structure_ : Structure}
  {steps : List StepView} {path first second rest : List (String × Nat)} {node : String} {occurrence fuel : Nat}
  {diagram : RunDiagram ChildCall} {calls : List ChildCall}

theorem pathParts_cons : pathParts ((node, occurrence) :: rest) =
    parts '-' node ++ (toString occurrence).toList :: pathParts rest := by
  have digits : '-' ∉ (toString occurrence).toList := fun mark =>
    absurd (isDigit_of_mem_toString mark) (by decide)
  show parts '-' node ++ (parts '-' (toString occurrence) ++ pathParts rest) = _
  rw [parts_of_not_mem digits]
  rfl

theorem pathParts_append : pathParts (first ++ second) = pathParts first ++ pathParts second := by
  simp [pathParts, callTexts]

/-- Two keys are equal when the paths have the same parts. -/
theorem callKey_eq_iff (one : first ≠ []) (two : second ≠ []) :
    callKey first = callKey second ↔ pathParts first = pathParts second := by
  have filled : ∀ path : List (String × Nat), path ≠ [] → callTexts path ≠ [] := by
    intro path some_
    cases path with
    | nil => exact absurd rfl some_
    | cons call rest => exact List.cons_ne_nil _ _
  have joined : callKey first = callKey second ↔ "-".intercalate (callTexts first) = "-".intercalate (callTexts second) := by
    unfold callKey
    rw [← String.toList_inj, String.toList_append, String.toList_append, List.append_cancel_left_eq, String.toList_inj]
  exact joined.trans (intercalate_eq_iff '-' (filled first one) (filled second two))

/-- Different paths with the same parts go apart where one Node is named like the other with its occurrence behind it. -/
theorem fork (apart : first ≠ second) (same : pathParts first = pathParts second) :
    ∃ way node occurrence rest longer other tail more,
      (first = way ++ (node, occurrence) :: rest ∧ second = way ++ (longer, other) :: tail ∨
        second = way ++ (node, occurrence) :: rest ∧ first = way ++ (longer, other) :: tail) ∧
      parts '-' longer = parts '-' node ++ (toString occurrence).toList :: more ∧
      pathParts rest = more ++ (toString other).toList :: pathParts tail := by
  induction first generalizing second with
  | nil =>
      cases second with
      | nil => exact absurd rfl apart
      | cons call rest =>
          obtain ⟨node, occurrence⟩ := call
          rw [pathParts_cons] at same
          have lengths := congrArg List.length same
          simp [pathParts, callTexts] at lengths
  | cons call first ih =>
      obtain ⟨node, occurrence⟩ := call
      cases second with
      | nil =>
          rw [pathParts_cons] at same
          have lengths := congrArg List.length same
          simp [pathParts, callTexts] at lengths
      | cons call second =>
          obtain ⟨longer, other⟩ := call
          rw [pathParts_cons, pathParts_cons] at same
          by_cases equal : node = longer
          · subst equal
            obtain ⟨number, rests⟩ := List.cons.inj (List.append_cancel_left same)
            obtain rfl := toString_injective (String.toList_injective number)
            obtain ⟨way, one, k, rest, two, j, tail, more, sides, extends_, spells⟩ :=
              ih (fun equal => apart (by rw [equal])) rests
            refine ⟨(node, occurrence) :: way, one, k, rest, two, j, tail, more, ?_, extends_, spells⟩
            rcases sides with ⟨rfl, rfl⟩ | ⟨rfl, rfl⟩
            · exact .inl ⟨rfl, rfl⟩
            · exact .inr ⟨rfl, rfl⟩
          · rcases List.append_eq_append_iff.mp same with ⟨more, extends_, rests⟩ | ⟨more, extends_, rests⟩
            · cases more with
              | nil => exact absurd (parts_injective '-' (by rw [extends_, List.append_nil])) equal
              | cons part more =>
                  obtain ⟨rfl, spells⟩ := List.cons.inj rests
                  exact ⟨[], node, occurrence, first, longer, other, second, more, .inl ⟨rfl, rfl⟩, extends_, spells⟩
            · cases more with
              | nil => exact absurd (parts_injective '-' (by rw [extends_, List.append_nil])) equal
              | cons part more =>
                  obtain ⟨rfl, spells⟩ := List.cons.inj rests
                  exact ⟨[], longer, other, second, node, occurrence, first, more, .inr ⟨rfl, rfl⟩, extends_, spells⟩

/-- Paths that go apart in this way are different and have the same parts. -/
theorem fork_same {way tail : List (String × Nat)} {longer : String} {other : Nat} {more : List (List Char)}
    (extends_ : parts '-' longer = parts '-' node ++ (toString occurrence).toList :: more)
    (spells : pathParts rest = more ++ (toString other).toList :: pathParts tail) :
    way ++ (node, occurrence) :: rest ≠ way ++ (longer, other) :: tail ∧
      pathParts (way ++ (node, occurrence) :: rest) = pathParts (way ++ (longer, other) :: tail) := by
  constructor
  · intro same
    have heads := (Prod.mk.inj (List.cons.inj (List.append_cancel_left same)).1).1
    rw [heads] at extends_
    have lengths := congrArg List.length extends_
    rw [List.length_append, List.length_cons] at lengths
    omega
  · rw [pathParts_append, pathParts_append, pathParts_cons, pathParts_cons, extends_, spells]
    simp

theorem mem_siteKeysOf {entry : List (String × Nat) × String} :
    entry ∈ siteKeysOf path calls ↔ ∃ call ∈ calls, entry ∈ call.siteKeys path := by
  induction calls with
  | nil => simp [siteKeysOf]
  | cons call rest ih => simp [siteKeysOf, ih]

theorem siteKeys_mk {call : ChildCall} : call.siteKeys path =
    (path ++ [(call.node, call.occurrence)], call.key) ::
      siteKeysOf (path ++ [(call.node, call.occurrence)]) call.childCalls := by
  cases call
  rw [ChildCall.siteKeys]

theorem called_ne_nil (called : Called subgraphs structure_ steps path) : path ≠ [] := by
  cases called with
  | here => exact List.cons_ne_nil _ _
  | under => exact List.cons_ne_nil _ _

/-- The layout keeps the ids of the structure. -/
theorem layout_ids {placed : Diagram} (drawn : layout derivedJoinEdges structure_ = .ok placed) :
    placed.nodes.map PlacedNode.id = structure_.nodeIds := by
  obtain ⟨_, _, drawn⟩ := bind_ok.mp drawn
  obtain ⟨_, _, drawn⟩ := bind_ok.mp drawn
  obtain ⟨_, _, drawn⟩ := bind_ok.mp drawn
  obtain ⟨nodes, mapped, drawn⟩ := bind_ok.mp drawn
  obtain ⟨_, _, drawn⟩ := bind_ok.mp drawn
  obtain rfl := Except.ok.inj drawn
  apply map_eq_of_mapM mapped
  intro node value made
  obtain ⟨_, _, made⟩ := bind_ok.mp made
  obtain rfl := Except.ok.inj made
  rfl

/-- An entry has its own call site, and those of the child that it opens. -/
theorem siteKeys_callEntry {nest : Structure → List StepView → List (String × Nat) → Checked (RunDiagram ChildCall)}
    {recorded : String × Nat × StepView} {call : ChildCall}
    (made : callEntry nest subgraphs structure_ path recorded = .ok call) {entry : List (String × Nat) × String} :
    entry ∈ call.siteKeys path ↔
      entry = (path ++ [(recorded.1, recorded.2.1)], callKey (path ++ [(recorded.1, recorded.2.1)])) ∨
      ∃ child nested, childOf subgraphs structure_ recorded.1 = some child ∧
        nest child recorded.2.2.childSteps (path ++ [(recorded.1, recorded.2.1)]) = .ok nested ∧
        entry ∈ siteKeysOf (path ++ [(recorded.1, recorded.2.1)]) nested.childCalls := by
  obtain ⟨node, occurrence, step⟩ := recorded
  unfold callEntry at made
  unfold childOf
  dsimp only at made ⊢
  cases named : ((subgraphByNode structure_).get? node).join with
  | none =>
      rw [named] at made
      obtain rfl := Except.ok.inj made
      simp [siteKeys_mk, siteKeysOf]
  | some address =>
      rw [named] at made
      dsimp only at made
      cases stored : subgraphs.get? address with
      | none =>
          rw [stored] at made
          obtain rfl := Except.ok.inj made
          simp [siteKeys_mk, siteKeysOf, stored]
      | some child =>
          rw [stored] at made
          obtain ⟨nested, nests, made⟩ := bind_ok.mp made
          obtain rfl := Except.ok.inj made
          simp [siteKeys_mk, stored, nests]

/-- An entry whose child is known has overlaid it. -/
theorem nests_of_made {nest : Structure → List StepView → List (String × Nat) → Checked (RunDiagram ChildCall)}
    {recorded : String × Nat × StepView} {call : ChildCall} {child : Structure}
    (made : callEntry nest subgraphs structure_ path recorded = .ok call)
    (opens : childOf subgraphs structure_ recorded.1 = some child) :
    ∃ nested, nest child recorded.2.2.childSteps (path ++ [(recorded.1, recorded.2.1)]) = .ok nested := by
  obtain ⟨address, named, stored⟩ := Option.bind_eq_some_iff.mp opens
  unfold callEntry at made
  dsimp only at made
  rw [named] at made
  dsimp only at made
  rw [stored] at made
  obtain ⟨nested, nests, _⟩ := bind_ok.mp made
  exact ⟨nested, nests⟩

/-- The entries of a diagram are the call sites of the page, and each key is built from the path. -/
theorem siteKeys_overlay (ended : overlay derivedJoinEdges subgraphs fuel structure_ steps path = .ok diagram)
    {entry : List (String × Nat) × String} : entry ∈ siteKeysOf path diagram.childCalls ↔
      ∃ below, Called subgraphs structure_ steps below ∧ entry = (path ++ below, callKey (path ++ below)) := by
  induction fuel generalizing structure_ steps path diagram with
  | zero => cases ended
  | succ fuel ih =>
      rw [overlay] at ended
      obtain ⟨placed, drawn, ended⟩ := bind_ok.mp ended
      obtain ⟨calls, mapped, ended⟩ := bind_ok.mp ended
      obtain rfl := Except.ok.inj ended
      rw [layout_ids drawn] at mapped
      have related := forall₂_of_mapM mapped
      show entry ∈ siteKeysOf path calls ↔ _
      rw [mem_siteKeysOf]
      constructor
      · rintro ⟨call, member, inside⟩
        obtain ⟨⟨node, occurrence, step⟩, listed, made⟩ := exists_item related member
        have recorded := mem_recordedCalls.mp listed
        rcases (siteKeys_callEntry made).mp inside with own | ⟨child, nested, opens, nests, deeper⟩
        · exact ⟨_, .here recorded, own⟩
        · obtain ⟨below, called, same⟩ := (ih nests).mp deeper
          refine ⟨_, .under recorded opens called, ?_⟩
          rw [same, List.append_assoc]
          rfl
      · rintro ⟨below, called, same⟩
        cases called with
        | @here _ _ node occurrence step recorded =>
            obtain ⟨call, member, made⟩ := exists_value related (mem_recordedCalls.mpr recorded)
            exact ⟨call, member, (siteKeys_callEntry made).mpr (.inl same)⟩
        | @under _ child _ node occurrence step rest recorded opens called =>
            obtain ⟨call, member, made⟩ := exists_value related (mem_recordedCalls.mpr recorded)
            obtain ⟨nested, nests⟩ := nests_of_made made opens
            refine ⟨call, member, (siteKeys_callEntry made).mpr (.inr ⟨child, nested, opens, nests, ?_⟩)⟩
            exact (ih nests).mpr ⟨rest, called, by rw [same, List.append_assoc]; rfl⟩

end

/-- Different call sites of the page have different keys exactly when no two of them go on at confusable Nodes. -/
theorem child_keys_identify (derivedJoinEdges : JoinEdges) (structure_ : Structure) (steps : List StepView)
    (subgraphs : Dict String Structure) (diagram : RunDiagram ChildCall)
    (shown : runTopology derivedJoinEdges (some structure_) steps subgraphs = .ok (some diagram)) :
    (∀ one ∈ siteKeysOf [] diagram.childCalls, ∀ two ∈ siteKeysOf [] diagram.childCalls,
      one.1 ≠ two.1 → one.2 ≠ two.2) ↔ ¬ Confusable subgraphs structure_ steps := by
  obtain ⟨own, ended, same⟩ := bind_ok.mp shown
  obtain rfl := Option.some.inj (Except.ok.inj same)
  constructor
  · rintro distinct ⟨one, two, extends_, spells⟩
    obtain ⟨apart, equal⟩ := fork_same extends_ spells
    have first := (siteKeys_overlay ended).mpr ⟨_, one, rfl⟩
    have second := (siteKeys_overlay ended).mpr ⟨_, two, rfl⟩
    exact distinct _ first _ second apart ((callKey_eq_iff (called_ne_nil one) (called_ne_nil two)).mpr equal)
  · intro clear one first two second apart same
    obtain ⟨path, called, rfl⟩ := (siteKeys_overlay ended).mp first
    obtain ⟨other, calls, rfl⟩ := (siteKeys_overlay ended).mp second
    obtain ⟨way, node, occurrence, rest, longer, k, tail, more, sides, extends_, spells⟩ :=
      fork apart ((callKey_eq_iff (called_ne_nil called) (called_ne_nil calls)).mp same)
    rcases sides with ⟨rfl, rfl⟩ | ⟨rfl, rfl⟩
    · exact clear ⟨called, calls, extends_, spells⟩
    · exact clear ⟨calls, called, extends_, spells⟩

/-- One Node calls a child with a Node `b`, and the other one is named like the call site of `b`. -/
def dashedNodes : Structure := ⟨[⟨"a", some "g"⟩, ⟨"a-0-b", none⟩], [], ["a"], []⟩

def dashedChild : Structure := ⟨[⟨"b", none⟩], [], ["b"], []⟩

def dashedGraphs : Dict String Structure := Dict.ofPairs [("g", dashedChild)]

def dashedSteps : List StepView :=
  [⟨"a", "passed", false, [⟨"b", "passed", false, [⟨"x", "passed", false, []⟩]⟩]⟩,
    ⟨"a-0-b", "passed", false, [⟨"x", "passed", false, []⟩]⟩]

theorem dashed_shown : ∃ diagram, runTopology (fun _ => []) (some dashedNodes) dashedSteps dashedGraphs =
    .ok (some diagram) := by
  have valid : Valid (fun _ => []) dashedNodes := ⟨by decide, by decide, by decide⟩
  have valids : ∀ address child, dashedGraphs.get? address = some child → Valid (fun _ => []) child := by
    intro address child stored
    have member := (Dict.get?_ofPairs (by decide)).mp stored
    obtain ⟨_, rfl⟩ := Prod.mk.inj (List.mem_singleton.mp member)
    exact ⟨by decide, by decide, by decide⟩
  obtain ⟨diagram, ended, _⟩ := overlay_ok [] valid valids (Nat.lt_succ_self (depthOf dashedSteps))
  exact ⟨diagram, bind_ok.mpr ⟨diagram, ended, rfl⟩⟩

theorem dashed_inner : Called dashedGraphs dashedNodes dashedSteps [("a", 0), ("b", 0)] :=
  .under ⟨by decide, rfl, List.cons_ne_nil _ _⟩ (show childOf dashedGraphs dashedNodes "a" = some dashedChild from rfl)
    (.here ⟨by decide, rfl, List.cons_ne_nil _ _⟩)

theorem dashed_outer : Called dashedGraphs dashedNodes dashedSteps [("a-0-b", 0)] :=
  .here ⟨by decide, rfl, List.cons_ne_nil _ _⟩

theorem child_keys_identify_dashed : ∃ diagram,
    runTopology (fun _ => []) (some dashedNodes) dashedSteps dashedGraphs = .ok (some diagram) ∧
      ((∀ one ∈ siteKeysOf [] diagram.childCalls, ∀ two ∈ siteKeysOf [] diagram.childCalls,
        one.1 ≠ two.1 → one.2 ≠ two.2) ↔ ¬ Confusable dashedGraphs dashedNodes dashedSteps) := by
  obtain ⟨diagram, shown⟩ := dashed_shown
  exact ⟨diagram, shown, child_keys_identify _ _ _ _ diagram shown⟩

/-- Two call sites of the page have one key. -/
theorem dashed_key_shared : ∃ diagram,
    runTopology (fun _ => []) (some dashedNodes) dashedSteps dashedGraphs = .ok (some diagram) ∧
      ∃ one ∈ siteKeysOf [] diagram.childCalls, ∃ two ∈ siteKeysOf [] diagram.childCalls,
        one.1 ≠ two.1 ∧ one.2 = two.2 := by
  obtain ⟨diagram, shown⟩ := dashed_shown
  obtain ⟨own, ended, same⟩ := bind_ok.mp shown
  obtain rfl := Option.some.inj (Except.ok.inj same)
  exact ⟨own, shown, _, (siteKeys_overlay ended).mpr ⟨_, dashed_inner, rfl⟩, _,
    (siteKeys_overlay ended).mpr ⟨_, dashed_outer, rfl⟩, by decide, by decide⟩

end Cordboard.Presentation
