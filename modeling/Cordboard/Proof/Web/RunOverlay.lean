import Cordboard.Construction.Web.RunTopology
import Cordboard.Proof.Web.Boxes

namespace Cordboard.Presentation
open Data Archive

/-- The Steps of this Node in their original order. -/
def stepsOf (steps : List StepView) (node : String) : List StepView := steps.filter fun step => step.node = node

/-- The names without a Node stand in the order of their first Steps. -/
def strayNames (nodeIds : List String) (steps : List StepView) : List String :=
  (steps.map StepView.node).eraseDups.filter fun name => name ∉ nodeIds

/-- The call was recorded for this Step. -/
structure RecordedFor (nodeIds : List String) (steps : List StepView) (node : String) (occurrence : Nat)
    (step : StepView) : Prop where
  known : node ∈ nodeIds
  found : (stepsOf steps node)[occurrence]? = some step
  calls : step.childSteps ≠ []

/-- The Node refers to this child in the map. -/
def RefersTo (subgraphs : Dict String Structure) (structure_ : Structure) (node : String) (child : Structure) : Prop :=
  ∃ own ∈ structure_.nodes, own.id = node ∧ ∃ address ∈ own.subgraphId, subgraphs.get? address = some child

/-- One level shows each Step once: under its Node in order, or with the Steps of its name. It has one entry for each
Step of a Node that recorded a call. -/
structure Level (subgraphs : Dict String Structure) (structure_ : Structure) (steps : List StepView)
    (diagram : RunDiagram ChildCall) : Prop where
  nodes : diagram.nodes.map (fun node => node.placed.id) = structure_.nodeIds
  matched : ∀ node ∈ diagram.nodes, node.steps = stepsOf steps node.placed.id
  unmatched : diagram.unmatchedSteps = (strayNames structure_.nodeIds steps).flatMap (stepsOf steps)
  once : (diagram.nodes.flatMap RunNode.steps ++ diagram.unmatchedSteps).Perm steps
  apart : (diagram.childCalls.map fun call => (call.node, call.occurrence)).Nodup
  calls : ∀ node occurrence, (node, occurrence) ∈ diagram.childCalls.map (fun call => (call.node, call.occurrence)) ↔
    ∃ step, RecordedFor structure_.nodeIds steps node occurrence step
  opened : ∀ call ∈ diagram.childCalls, call.diagram.isSome = true ↔
    ∃ child, RefersTo subgraphs structure_ call.node child

/-- The law of one level holds again of each nested diagram, with the child and the Steps of its call. -/
inductive Overlaid (subgraphs : Dict String Structure) : Structure → List StepView → RunDiagram ChildCall → Prop
  | level {structure_ : Structure} {steps : List StepView} {diagram : RunDiagram ChildCall}
      (here : Level subgraphs structure_ steps diagram)
      (nested : ∀ call ∈ diagram.childCalls, ∀ below, call.diagram = some below → ∀ step child,
        RecordedFor structure_.nodeIds steps call.node call.occurrence step →
        RefersTo subgraphs structure_ call.node child → Overlaid subgraphs child step.childSteps below) :
      Overlaid subgraphs structure_ steps diagram

section
variable {derivedJoinEdges : JoinEdges} {subgraphs : Dict String Structure} {structure_ child : Structure}
  {steps : List StepView} {nodeIds : List String} {node name : String} {occurrence fuel : Nat} {step : StepView}

theorem members_stepsByNode : (stepsByNode steps).members node = stepsOf steps node := by
  rw [stepsByNode, Dict.members_group, List.filter_map, List.map_map]
  simp [Function.comp_def, stepsOf, eq_comm]

theorem keys_stepsByNode : (stepsByNode steps).keys = (steps.map StepView.node).eraseDups := by
  rw [stepsByNode, Dict.keys_group, List.map_map]
  rfl

/-- The loop lists the stray Steps name by name. -/
theorem unmatchedSteps_eq : unmatchedSteps nodeIds (stepsByNode steps) =
    (strayNames nodeIds steps).flatMap (stepsOf steps) := by
  have items : (stepsByNode steps).items = (stepsByNode steps).keys.map fun name => (name, stepsOf steps name) := by
    rw [Dict.keys, List.map_map]
    apply (List.map_id _).symm.trans
    apply List.map_congr_left
    rintro ⟨name, group⟩ member
    have held : (stepsByNode steps).members name = stepsOf steps name := members_stepsByNode
    rw [Dict.members, (Dict.get?_eq_some_iff _ _ _).mpr member, Option.getD_some] at held
    rw [held]
    rfl
  rw [unmatchedSteps, items, keys_stepsByNode, strayNames, List.flatMap_map]
  induction (steps.map StepView.node).eraseDups with
  | nil => rfl
  | cons name rest ih =>
      rw [List.flatMap_cons, ih]
      by_cases known : name ∈ nodeIds
      · rw [if_pos known, List.filter_cons_of_neg (by simpa using known), List.nil_append]
      · rw [if_neg known, List.filter_cons_of_pos (by simpa using known), List.flatMap_cons]

/-- The groups of the Nodes and of the stray names hold each Step once. -/
theorem steps_once (steps : List StepView) (distinct : nodeIds.Nodup) :
    ((nodeIds ++ strayNames nodeIds steps).flatMap (stepsOf steps)).Perm steps := by
  apply Dict.perm_flatMap_filter
  · rw [List.nodup_append]
    refine ⟨distinct, List.Nodup.filter _ (keys_stepsByNode ▸ (stepsByNode steps).distinct), ?_⟩
    rintro known inside stray outside rfl
    rw [strayNames, List.mem_filter, decide_eq_true_iff] at outside
    exact outside.2 inside
  · intro item member
    rw [List.mem_append, strayNames, List.mem_filter, decide_eq_true_iff, List.mem_eraseDups]
    by_cases known : item.node ∈ nodeIds
    · exact .inl known
    · exact .inr ⟨List.mem_map.mpr ⟨item, member, rfl⟩, known⟩

theorem mem_recordedCalls : (node, occurrence, step) ∈ recordedCalls nodeIds (stepsByNode steps) ↔
    RecordedFor nodeIds steps node occurrence step := by
  unfold recordedCalls
  simp only [List.mem_flatMap, List.mem_filterMap, Prod.exists, List.mem_zipIdx_iff_getElem?, members_stepsByNode]
  constructor
  · rintro ⟨other, known, recorded, position, found, kept⟩
    split at kept
    · cases kept
    · rename_i calls
      simp only [Option.some.injEq, Prod.mk.injEq] at kept
      obtain ⟨rfl, rfl, rfl⟩ := kept
      exact ⟨known, found, by simpa using calls⟩
  · rintro ⟨known, found, calls⟩
    exact ⟨node, known, step, occurrence, found, by rw [if_neg (by simpa using calls)]⟩

/-- No call is listed twice. -/
theorem recordedCalls_nodup (distinct : nodeIds.Nodup) :
    ((recordedCalls nodeIds (stepsByNode steps)).map fun call => (call.1, call.2.1)).Nodup := by
  have named : ∀ node, ∀ call ∈ ((stepsByNode steps).members node).zipIdx.filterMap (fun entry =>
      if entry.1.childSteps.isEmpty then none else some (node, entry.2, entry.1)), call.1 = node := by
    intro node call member
    obtain ⟨entry, _, kept⟩ := List.mem_filterMap.mp member
    split at kept
    · cases kept
    · obtain rfl := Option.some.inj kept
      rfl
  unfold recordedCalls
  rw [List.map_flatMap, List.nodup_flatMap]
  constructor
  · intro node _
    apply List.pairwise_map.mpr
    apply List.Pairwise.filterMap _ _ (zipIdx_apart ((stepsByNode steps).members node))
    intro first second apart one held two kept same
    split at held
    · cases held
    · split at kept
      · cases kept
      · obtain rfl := Option.some.inj held
        obtain rfl := Option.some.inj kept
        exact apart (Prod.mk.inj same).2
  · apply distinct.imp
    intro first second apart pair one two
    obtain ⟨call, member, rfl⟩ := List.mem_map.mp one
    obtain ⟨other, inside, same⟩ := List.mem_map.mp two
    rw [Prod.mk.injEq, named first call member, named second other inside] at same
    exact apart same.1.symm

/-- The Steps of a call lie one level deeper. -/
theorem depthOf_childSteps (member : step ∈ steps) : depthOf step.childSteps < depthOf steps := by
  induction steps with
  | nil => cases member
  | cons first rest ih =>
      rw [depthOf]
      rcases List.mem_cons.mp member with rfl | later
      · obtain ⟨_, _, _, childSteps⟩ := step
        rw [StepView.depth]
        show depthOf childSteps < max (depthOf childSteps + 1) (depthOf rest)
        omega
      · have := ih later
        omega

/-- The entry belongs to its recorded call, and a nested diagram obeys the law. -/
structure CallLaw (subgraphs : Dict String Structure) (structure_ : Structure) (call : ChildCall)
    (recorded : String × Nat × StepView) : Prop where
  node : call.node = recorded.1
  occurrence : call.occurrence = recorded.2.1
  opened : call.diagram.isSome = true ↔ ∃ child, RefersTo subgraphs structure_ call.node child
  nested : ∀ below, call.diagram = some below → ∀ child, RefersTo subgraphs structure_ call.node child →
    Overlaid subgraphs child recorded.2.2.childSteps below

/-- The table finds the reference of a Node. -/
theorem subgraphByNode_iff (distinct : structure_.nodeIds.Nodup) {address : String} :
    ((subgraphByNode structure_).get? node).join = some address ↔
      ∃ own ∈ structure_.nodes, own.id = node ∧ own.subgraphId = some address := by
  have keys : ((structure_.nodes.map fun node => (node.id, node.subgraphId)).map Prod.fst).Nodup := by
    rw [List.map_map]
    exact distinct
  rw [Option.join_eq_some_iff, subgraphByNode, Dict.get?_ofPairs keys, List.mem_map]
  constructor
  · rintro ⟨own, member, same⟩
    exact ⟨own, member, (Prod.mk.inj same).1, (Prod.mk.inj same).2⟩
  · rintro ⟨own, member, rfl, names⟩
    exact ⟨own, member, by rw [names]⟩

/-- With distinct ids a Node refers to at most one child. -/
theorem refersTo_iff (distinct : structure_.nodeIds.Nodup) : RefersTo subgraphs structure_ node child ↔
    ∃ address, ((subgraphByNode structure_).get? node).join = some address ∧ subgraphs.get? address = some child := by
  constructor
  · rintro ⟨own, member, same, address, names, stored⟩
    exact ⟨address, (subgraphByNode_iff distinct).mpr ⟨own, member, same, names⟩, stored⟩
  · rintro ⟨address, named, stored⟩
    obtain ⟨own, member, same, names⟩ := (subgraphByNode_iff distinct).mp named
    exact ⟨own, member, same, address, names, stored⟩

/-- A step that succeeds is followed by the rest. -/
theorem bind_then {A B : Type} {first : Checked A} {rest : A → Checked B} {middle : A} {holds : B → Prop}
    (done : first = .ok middle) (next : ∃ value, rest middle = .ok value ∧ holds value) :
    ∃ value, (first >>= rest) = .ok value ∧ holds value := by
  obtain ⟨value, ended, held⟩ := next
  exact ⟨value, bind_ok.mpr ⟨middle, done, ended⟩, held⟩

/-- A loop whose steps all succeed is followed by the rest. -/
theorem mapM_then {A B C : Type} {step : A → Checked B} {items : List A} {rest : List B → Checked C} {holds : C → Prop}
    (relates : B → A → Prop) (each : ∀ item ∈ items, ∃ value, step item = .ok value ∧ relates value item)
    (next : ∀ values, List.Forall₂ relates values items → ∃ value, rest values = .ok value ∧ holds value) :
    ∃ value, (items.mapM step >>= rest) = .ok value ∧ holds value := by
  obtain ⟨values, mapped, related⟩ := mapM_forall₂ each
  exact bind_then mapped (next values related)

/-- The entries of one level stand for its recorded calls. -/
theorem sites_of_laws {calls : List ChildCall} {recorded : List (String × Nat × StepView)}
    (laws : List.Forall₂ (CallLaw subgraphs structure_) calls recorded) :
    calls.map (fun call => (call.node, call.occurrence)) = recorded.map fun call => (call.1, call.2.1) := by
  induction laws with
  | nil => rfl
  | cons first _ ih => rw [List.map_cons, List.map_cons, first.node, first.occurrence, ih]

/-- The overlay ends on valid structures, and each level obeys the law. -/
theorem overlay_ok (path : List (String × Nat)) (valid : Valid derivedJoinEdges structure_)
    (valids : ∀ address child, subgraphs.get? address = some child → Valid derivedJoinEdges child)
    (room : depthOf steps < fuel) :
    ∃ diagram, overlay derivedJoinEdges subgraphs fuel structure_ steps path = .ok diagram ∧
      Overlaid subgraphs structure_ steps diagram := by
  induction fuel generalizing structure_ steps path with
  | zero => exact absurd room (Nat.not_lt_zero _)
  | succ fuel ih =>
      obtain ⟨placed, drawn, laidOut⟩ := layout_ok derivedJoinEdges structure_ valid
      have distinct := valid.distinct
      rw [overlay]
      apply bind_then drawn
      dsimp only
      rw [laidOut.once]
      apply mapM_then (CallLaw subgraphs structure_)
      · rintro ⟨node, occurrence, step⟩ member
        have recorded := mem_recordedCalls.mp member
        unfold callEntry
        dsimp only
        cases named : ((subgraphByNode structure_).get? node).join with
        | none =>
            have none_ : ¬ ∃ child, RefersTo subgraphs structure_ node child := by
              rintro ⟨child, refers⟩
              obtain ⟨address, found, _⟩ := (refersTo_iff distinct).mp refers
              rw [named] at found
              cases found
            exact ⟨_, rfl, rfl, rfl, iff_of_false Bool.false_ne_true none_, fun below same => by cases same⟩
        | some address =>
            dsimp only
            cases stored : subgraphs.get? address with
            | none =>
                have none_ : ¬ ∃ child, RefersTo subgraphs structure_ node child := by
                  rintro ⟨child, refers⟩
                  obtain ⟨other, found, held⟩ := (refersTo_iff distinct).mp refers
                  obtain rfl := Option.some.inj (named.symm.trans found)
                  rw [stored] at held
                  cases held
                exact ⟨_, rfl, rfl, rfl, iff_of_false Bool.false_ne_true none_, fun below same => by cases same⟩
            | some child =>
                have deeper := depthOf_childSteps (List.mem_of_mem_filter (List.mem_of_getElem? recorded.found))
                obtain ⟨nested, ended, law⟩ := ih (path ++ [(node, occurrence)]) (valids address child stored)
                  (Nat.lt_of_lt_of_le deeper (Nat.le_of_lt_succ room))
                have refers := (refersTo_iff distinct).mpr ⟨address, named, stored⟩
                refine ⟨⟨node, occurrence, callKey (path ++ [(node, occurrence)]), some address, .resolved, some nested,
                  nested.childCalls⟩, bind_ok.mpr ⟨nested, ended, rfl⟩, rfl, rfl, iff_of_true rfl ⟨child, refers⟩, ?_⟩
                intro below same other otherwise
                obtain rfl := Option.some.inj same
                obtain ⟨_, found, held⟩ := (refersTo_iff distinct).mp otherwise
                obtain rfl := Option.some.inj (named.symm.trans found)
                obtain rfl := Option.some.inj (stored.symm.trans held)
                exact law
      · intro calls laws
        refine ⟨_, rfl, .level ?_ ?_⟩
        · constructor
          · show (placed.nodes.map _).map (fun node : RunNode => node.placed.id) = structure_.nodeIds
            rw [List.map_map]
            exact laidOut.once
          · intro node member
            obtain ⟨own, _, rfl⟩ := List.mem_map.mp member
            exact members_stepsByNode
          · exact unmatchedSteps_eq
          · have shown : (placed.nodes.map fun node => (⟨node, (stepsByNode steps).members node.id,
                nodeStatus ((stepsByNode steps).members node.id)⟩ : RunNode)).flatMap RunNode.steps =
                structure_.nodeIds.flatMap (stepsOf steps) := by
              rw [← laidOut.once, List.flatMap_map, List.flatMap_map]
              simp only [members_stepsByNode]
            have every := steps_once steps distinct
            rw [List.flatMap_append] at every
            show ((placed.nodes.map _).flatMap RunNode.steps ++ unmatchedSteps structure_.nodeIds (stepsByNode steps)).Perm
              steps
            rw [shown, unmatchedSteps_eq]
            exact every
          · show (calls.map fun call => (call.node, call.occurrence)).Nodup
            rw [sites_of_laws laws]
            exact recordedCalls_nodup distinct
          · intro node occurrence
            show (node, occurrence) ∈ calls.map (fun call => (call.node, call.occurrence)) ↔ _
            rw [sites_of_laws laws, List.mem_map]
            constructor
            · rintro ⟨⟨own, position, step⟩, member, same⟩
              obtain ⟨rfl, rfl⟩ := Prod.mk.inj same
              exact ⟨step, mem_recordedCalls.mp member⟩
            · rintro ⟨step, recorded⟩
              exact ⟨_, mem_recordedCalls.mpr recorded, rfl⟩
          · intro call member
            obtain ⟨own, _, law⟩ := exists_item laws member
            exact law.opened
        · intro call member below same step child recorded refers
          obtain ⟨⟨node, occurrence, own⟩, inside, law⟩ := exists_item laws member
          have held := (mem_recordedCalls.mp inside).found
          have found := recorded.found
          rw [law.node, law.occurrence, held] at found
          obtain rfl := Option.some.inj found
          exact law.nested below same child refers

end

/-- The overlay of a Run ends. Each Step of each level stands in one place, and each recorded call has one entry. -/
theorem runTopology_ok (derivedJoinEdges : JoinEdges) (structure_ : Structure) (steps : List StepView)
    (subgraphs : Dict String Structure) (valid : Valid derivedJoinEdges structure_)
    (valids : ∀ address child, subgraphs.get? address = some child → Valid derivedJoinEdges child) :
    ∃ diagram, runTopology derivedJoinEdges (some structure_) steps subgraphs = .ok (some diagram) ∧
      Overlaid subgraphs structure_ steps diagram := by
  obtain ⟨diagram, ended, law⟩ := overlay_ok [] valid valids (Nat.lt_succ_self (depthOf steps))
  exact ⟨diagram, bind_ok.mpr ⟨diagram, ended, rfl⟩, law⟩

/-- One Node, and three Steps with two names that are no Nodes. -/
def oneNode : Structure := ⟨[⟨"n", none⟩], [], ["n"], []⟩

def straySteps : List StepView := [⟨"x", "passed", false, []⟩, ⟨"y", "passed", false, []⟩, ⟨"x", "failed", false, []⟩]

theorem runTopology_ok_stray : ∃ diagram,
    runTopology (fun _ => []) (some oneNode) straySteps Dict.empty = .ok (some diagram) ∧
      Overlaid Dict.empty oneNode straySteps diagram :=
  runTopology_ok (fun _ => []) oneNode straySteps Dict.empty ⟨by decide, by decide, by decide⟩ (by
    intro address child stored
    cases stored)

/-- The stray Steps are listed by name, so the last Step comes before the second one. -/
theorem stray_order : ∃ diagram,
    runTopology (fun _ => []) (some oneNode) straySteps Dict.empty = .ok (some diagram) ∧
      diagram.unmatchedSteps ≠ straySteps.filter fun step => step.node ∉ oneNode.nodeIds := by
  have valid : Valid (fun _ => []) oneNode := ⟨by decide, by decide, by decide⟩
  have valids : ∀ address child, (Dict.empty : Dict String Structure).get? address = some child →
      Valid (fun _ => []) child := by
    intro address child stored
    cases stored
  obtain ⟨diagram, ended, law⟩ := overlay_ok [] valid valids (Nat.lt_succ_self (depthOf straySteps))
  refine ⟨diagram, bind_ok.mpr ⟨diagram, ended, rfl⟩, ?_⟩
  cases law with
  | level here _ =>
      rw [here.unmatched]
      intro same
      have outcomes := congrArg (List.map StepView.outcome) same
      revert outcomes
      decide

end Cordboard.Presentation
