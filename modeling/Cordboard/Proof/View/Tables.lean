import Cordboard.Proof.View.Building

namespace Cordboard.Viewer
open Data Archive

/-- The identifier of the parent of a span in the map. -/
def parentKey (spans : SpanMap) (key : String) : Option String :=
  (spans.entries.get? key).bind fun entry => (parentOf spans entry.span).map Span.spanId

/-- The span has this role. -/
def hasRole (kind : Role) (span : Span) : Bool :=
  match role span with
  | .ok (some own) => own = kind
  | _ => false

/-- The spans of one role, in the order of the map. -/
def spansOf (spans : SpanMap) (kind : Role) : List Span := (spans.values.map Entry.span).filter (hasRole kind)

/-- The spans that stand directly below another span. -/
def under (spans : SpanMap) (above : String) (others : List Span) : List Span :=
  others.filter fun span => parentKey spans span.spanId = some above

/-- The record of an Attempt shows its span. -/
def attemptOf (span : Span) : AttemptRecord where
  number := (span.attributes.get? "cord.step.attempt").getD .null
  tier := (span.attributes.get? "cord.tier").getD .null
  outcome := (span.attributes.get? "cord.outcome").getD .null
  startNs := span.startTimeUnixNano
  endNs := span.endTimeUnixNano

/-- The draft of a Step shows its span. -/
structure StepDraftOf (span : Span) (draft : StepDraft) : Prop where
  node : span.attributes.get? "cord.node.name" = some draft.node
  outcome : span.attributes.get? "cord.outcome" = some draft.outcome
  start : draft.startNs = span.startTimeUnixNano
  finish : draft.endNs = span.endTimeUnixNano
  resumed : draft.resumedFrom = (span.attributes.get? "cord.resumed_from").getD .null

/-- The draft of a Run shows its span. -/
structure RunDraftOf (span : Span) (draft : RunDraft) : Prop where
  graph : span.attributes.get? "cord.graph.id" = some (.str draft.graphId)
  run : span.attributes.get? "cord.run.id" = some (.str draft.runId)
  type : span.attributes.get? "cord.subject.type" = some draft.subjectType
  subject : span.attributes.get? "cord.subject.id" = some draft.subjectId
  start : draft.startNs = span.startTimeUnixNano
  finish : draft.endNs = span.endTimeUnixNano

/-- The Steps that the tables attach to a Step or to a Run. -/
def Drafts.children (drafts : Drafts) (key : String) : List String :=
  match drafts.steps.get? key with
  | some draft => draft.childSteps
  | none =>
      match drafts.runs.get? key with
      | some draft => draft.steps
      | none => []

/-- The Attempts that the tables attach to a Step. -/
def Drafts.attempts (drafts : Drafts) (key : String) : List AttemptRecord :=
  match drafts.steps.get? key with
  | some draft => draft.attempts
  | none => []

/-- The tables show spans of the map. Each recorded Step that is not pending stands once below its parent. -/
structure Tables (spans : SpanMap) (pending : List String) (visited : List Span) (drafts : Drafts) : Prop where
  steps : ∀ key draft, drafts.steps.get? key = some draft →
    ∃ span, spans.holds span ∧ role span = .ok (some .step) ∧ span.spanId = key ∧ StepDraftOf span draft
  runs : ∀ key draft, drafts.runs.get? key = some draft →
    ∃ span, spans.holds span ∧ role span = .ok (some .run) ∧ span.spanId = key ∧ RunDraftOf span draft
  once : ∀ key, (drafts.children key).Nodup
  children : ∀ key child, child ∈ drafts.children key ↔
    child ∈ drafts.steps.keys ∧ child ∉ pending ∧ parentKey spans child = some key
  attempts : ∀ key, drafts.attempts key = (under spans key visited).map attemptOf
  waiting : ∀ key ∈ pending, key ∈ drafts.steps.keys

/-- The tables lose no Step and no Run. -/
structure Extends (drafts next : Drafts) : Prop where
  steps : ∀ key ∈ drafts.steps.keys, key ∈ next.steps.keys
  runs : ∀ key ∈ drafts.runs.keys, key ∈ next.runs.keys

section
variable {spans : SpanMap} {pending : List String} {visited : List Span} {drafts next last : Drafts}
  {span above : Span} {key : String}

theorem Extends.refl (drafts : Drafts) : Extends drafts drafts := ⟨fun _ member => member, fun _ member => member⟩

theorem Extends.trans (first : Extends drafts next) (second : Extends next last) : Extends drafts last :=
  ⟨fun key member => second.steps key (first.steps key member),
    fun key member => second.runs key (first.runs key member)⟩

theorem hasRole_iff {kind : Role} : hasRole kind span = true ↔ role span = .ok (some kind) := by
  unfold hasRole
  constructor
  · intro holds
    split at holds
    · rename_i own known
      rw [known, of_decide_eq_true holds]
    · cases holds
  · intro known
    rw [known]
    exact decide_eq_true rfl

theorem mem_spansOf {kind : Role} : span ∈ spansOf spans kind ↔ spans.holds span ∧ role span = .ok (some kind) := by
  rw [spansOf, List.mem_filter, hasRole_iff, List.mem_map]
  exact Iff.rfl

theorem parentKey_of_holds (held : spans.holds span) :
    parentKey spans span.spanId = (parentOf spans span).map Span.spanId := by
  obtain ⟨entry, got, rfl⟩ := get_of_holds held
  obtain found : spans.entries.get? entry.span.spanId = some entry := Except.ok.inj got
  rw [parentKey, found]
  rfl

theorem member_ok {name : String} {value : Json} :
    member span name = .ok value ↔ span.attributes.get? name = some value := by
  unfold member
  cases span.attributes.get? name with
  | none => simp
  | some other => simp

theorem textAttribute_ok {name text : String} :
    textAttribute span name = .ok text ↔ span.attributes.get? name = some (.str text) := by
  unfold textAttribute
  rw [bind_ok]
  constructor
  · rintro ⟨value, found, same⟩
    rw [member_ok] at found
    cases value with
    | str other =>
        obtain rfl := Except.ok.inj same
        exact found
    | null => cases same
    | bool value => cases same
    | int value => cases same
    | float value => cases same
    | arr values => cases same
    | obj members => cases same
  · exact fun found => ⟨_, member_ok.mpr found, rfl⟩

/-- The key of a Step is not the key of a Run. -/
theorem Tables.step_not_run (tables : Tables spans pending visited drafts) (held : spans.holds span)
    (step : role span = .ok (some .step)) : drafts.runs.get? span.spanId = none := by
  apply Option.eq_none_iff_forall_ne_some.mpr
  intro draft found
  obtain ⟨other, also, run, same, _⟩ := tables.runs _ draft found
  obtain rfl := holds_inj also held same
  rw [run] at step
  cases step

theorem Tables.run_not_step (tables : Tables spans pending visited drafts) (held : spans.holds span)
    (run : role span = .ok (some .run)) : drafts.steps.get? span.spanId = none := by
  apply Option.eq_none_iff_forall_ne_some.mpr
  intro draft found
  obtain ⟨other, also, step, same, _⟩ := tables.steps _ draft found
  obtain rfl := holds_inj also held same
  rw [run] at step
  cases step

/-- The new Step waits for its parent. -/
theorem Tables.record (tables : Tables spans pending visited drafts) (held : spans.holds span)
    (step : role span = .ok (some .step)) (fresh : drafts.steps.get? span.spanId = none) (draft : StepDraft)
    (shows : StepDraftOf span draft) (childless : draft.childSteps = []) (untried : draft.attempts = []) :
    Tables spans (span.spanId :: pending) visited { drafts with steps := drafts.steps.set span.spanId draft } := by
  have alone := tables.step_not_run held step
  have children : ∀ key, Drafts.children { drafts with steps := drafts.steps.set span.spanId draft } key =
      drafts.children key := by
    intro key
    unfold Drafts.children
    by_cases same : key = span.spanId
    · rw [same, Dict.get?_set_self, fresh, alone]
      exact childless
    · rw [Dict.get?_set_of_ne _ same]
  have attempts : ∀ key, Drafts.attempts { drafts with steps := drafts.steps.set span.spanId draft } key =
      drafts.attempts key := by
    intro key
    unfold Drafts.attempts
    by_cases same : key = span.spanId
    · rw [same, Dict.get?_set_self, fresh]
      exact untried
    · rw [Dict.get?_set_of_ne _ same]
  have unknown : span.spanId ∉ drafts.steps.keys := (Dict.get?_eq_none_iff _ _).mp fresh
  refine ⟨?_, tables.runs, ?_, ?_, ?_, ?_⟩
  · intro key other found
    rw [Dict.get?_set] at found
    split at found
    · rename_i same
      obtain rfl := Option.some.inj found
      exact ⟨span, held, step, same.symm, shows⟩
    · exact tables.steps key other found
  · intro key
    rw [children]
    exact tables.once key
  · intro key child
    rw [children, tables.children, Dict.mem_keys_set, List.mem_cons, not_or]
    constructor
    · rintro ⟨known, settled, up⟩
      refine ⟨.inr known, ⟨?_, settled⟩, up⟩
      rintro rfl
      exact unknown known
    · rintro ⟨known, ⟨other, settled⟩, up⟩
      exact ⟨known.resolve_left other, settled, up⟩
  · intro key
    rw [attempts]
    exact tables.attempts key
  · intro key member
    apply Dict.mem_keys_set.mpr
    rcases List.mem_cons.mp member with rfl | old
    · exact .inl rfl
    · exact .inr (tables.waiting key old)

theorem Extends.record (drafts : Drafts) (key : String) (draft : StepDraft) :
    Extends drafts { drafts with steps := drafts.steps.set key draft } :=
  ⟨fun _ member => Dict.mem_keys_set.mpr (.inr member), fun _ member => member⟩

/-- A Run is recorded without Steps. -/
theorem Tables.ensureRun (tables : Tables spans pending visited drafts) (held : spans.holds span)
    (run : role span = .ok (some .run)) (done : ensureRun drafts span = .ok next) :
    Tables spans pending visited next ∧ Extends drafts next ∧ span.spanId ∈ next.runs.keys := by
  unfold Viewer.ensureRun at done
  split at done
  · rename_i known
    obtain rfl := Except.ok.inj done
    obtain ⟨draft, found⟩ := Option.isSome_iff_exists.mp known
    exact ⟨tables, .refl _, Dict.mem_keys_of_get? found⟩
  · rename_i fresh
    have unknown : drafts.runs.get? span.spanId = none := by simpa using fresh
    obtain ⟨graphId, graph, done⟩ := bind_ok.mp done
    obtain ⟨runId, named, done⟩ := bind_ok.mp done
    obtain ⟨subjectType, type, done⟩ := bind_ok.mp done
    obtain ⟨subjectId, subject, done⟩ := bind_ok.mp done
    obtain rfl := Except.ok.inj done
    have children : ∀ key draft, draft.steps = [] → Drafts.children { drafts with
        runs := drafts.runs.set span.spanId draft } key = drafts.children key := by
      intro key draft empty
      unfold Drafts.children
      by_cases same : key = span.spanId
      · rw [same, Dict.get?_set_self, unknown, tables.run_not_step held run]
        exact empty
      · rw [Dict.get?_set_of_ne _ same]
    refine ⟨⟨tables.steps, ?_, ?_, ?_, tables.attempts, tables.waiting⟩, ⟨fun _ member => member, ?_⟩, ?_⟩
    · intro key other found
      rw [Dict.get?_set] at found
      split at found
      · rename_i same
        obtain rfl := Option.some.inj found
        exact ⟨span, held, run, same.symm, textAttribute_ok.mp graph, textAttribute_ok.mp named, member_ok.mp type,
          member_ok.mp subject, rfl, rfl⟩
      · exact tables.runs key other found
    · intro key
      rw [children key _ rfl]
      exact tables.once key
    · intro key child
      rw [children key _ rfl]
      exact tables.children key child
    · exact fun _ member => Dict.mem_keys_set.mpr (.inr member)
    · exact Dict.mem_keys_set.mpr (.inl rfl)

/-- A draft without the lists that grow. -/
def StepDraft.bare (draft : StepDraft) : StepDraft := { draft with attempts := [], childSteps := [] }

def RunDraft.bare (draft : RunDraft) : RunDraft := { draft with steps := [] }

/-- The tables keep their drafts, and only the lists of the drafts grow. -/
structure Keeps (drafts next : Drafts) : Prop where
  steps : ∀ key, (next.steps.get? key).map StepDraft.bare = (drafts.steps.get? key).map StepDraft.bare
  runs : ∀ key, (next.runs.get? key).map RunDraft.bare = (drafts.runs.get? key).map RunDraft.bare

theorem StepDraftOf.congr {draft other : StepDraft} (shows : StepDraftOf span draft) (same : draft.bare = other.bare) :
    StepDraftOf span other := by
  obtain ⟨node, outcome, start, finish, resumed, _, _⟩ := StepDraft.mk.inj same
  exact ⟨node ▸ shows.node, outcome ▸ shows.outcome, start ▸ shows.start, finish ▸ shows.finish, resumed ▸ shows.resumed⟩

theorem RunDraftOf.congr {draft other : RunDraft} (shows : RunDraftOf span draft) (same : draft.bare = other.bare) :
    RunDraftOf span other := by
  obtain ⟨graph, run, type, subject, start, finish, _⟩ := RunDraft.mk.inj same
  exact ⟨graph ▸ shows.graph, run ▸ shows.run, type ▸ shows.type, subject ▸ shows.subject, start ▸ shows.start,
    finish ▸ shows.finish⟩

theorem mem_keys_iff {V : Type} {dict : Dict String V} : key ∈ dict.keys ↔ (dict.get? key).isSome = true := by
  rw [← not_iff_not, ← Dict.get?_eq_none_iff]
  simp

/-- Equal contents have equal keys. -/
theorem mem_keys_of_map {V W : Type} {one two : Dict String V} {f : V → W}
    (same : (one.get? key).map f = (two.get? key).map f) : key ∈ one.keys ↔ key ∈ two.keys := by
  rw [mem_keys_iff, mem_keys_iff, ← Option.isSome_map (f := f), same, Option.isSome_map]

theorem Keeps.extends (keeps : Keeps drafts next) : Extends drafts next :=
  ⟨fun key member => (mem_keys_of_map (keeps.steps key)).mpr member,
    fun key member => (mem_keys_of_map (keeps.runs key)).mpr member⟩

/-- The tables that keep their drafts still show the spans. -/
theorem Keeps.shows (keeps : Keeps drafts next) (tables : Tables spans pending visited drafts) :
    (∀ key draft, next.steps.get? key = some draft →
      ∃ span, spans.holds span ∧ role span = .ok (some .step) ∧ span.spanId = key ∧ StepDraftOf span draft) ∧
    ∀ key draft, next.runs.get? key = some draft →
      ∃ span, spans.holds span ∧ role span = .ok (some .run) ∧ span.spanId = key ∧ RunDraftOf span draft := by
  constructor
  · intro key draft found
    have same := keeps.steps key
    rw [found] at same
    obtain ⟨old, stored, bare⟩ := Option.map_eq_some_iff.mp same.symm
    obtain ⟨span, held, step, named, shows⟩ := tables.steps key old stored
    exact ⟨span, held, step, named, shows.congr bare⟩
  · intro key draft found
    have same := keeps.runs key
    rw [found] at same
    obtain ⟨old, stored, bare⟩ := Option.map_eq_some_iff.mp same.symm
    obtain ⟨span, held, run, named, shows⟩ := tables.runs key old stored
    exact ⟨span, held, run, named, shows.congr bare⟩

theorem keeps_step {old : StepDraft} (draft : StepDraft) (stored : drafts.steps.get? key = some old)
    (same : draft.bare = old.bare) :
    Keeps drafts { drafts with steps := drafts.steps.set key draft } := by
  refine ⟨fun other => ?_, fun _ => rfl⟩
  rw [Dict.get?_set]
  split
  · rename_i equal
    rw [equal, stored, Option.map_some, Option.map_some, same]
  · rfl

theorem keeps_run {old : RunDraft} (draft : RunDraft) (stored : drafts.runs.get? key = some old)
    (same : draft.bare = old.bare) :
    Keeps drafts { drafts with runs := drafts.runs.set key draft } := by
  refine ⟨fun _ => rfl, fun other => ?_⟩
  rw [Dict.get?_set]
  split
  · rename_i equal
    rw [equal, stored, Option.map_some, Option.map_some, same]
  · rfl

/-- The pending Step is appended to the children of its parent. -/
theorem Tables.attach {child up : String} (tables : Tables spans (child :: pending) visited drafts)
    (keeps : Keeps drafts next) (parent : parentKey spans child = some up) (settled : child ∉ pending)
    (children : ∀ key, next.children key = drafts.children key ++ if key = up then [child] else [])
    (attempts : ∀ key, next.attempts key = drafts.attempts key) : Tables spans pending visited next := by
  have known : ∀ key, key ∈ next.steps.keys ↔ key ∈ drafts.steps.keys := fun key => mem_keys_of_map (keeps.steps key)
  have waits := tables.waiting child List.mem_cons_self
  obtain ⟨steps, runs⟩ := keeps.shows tables
  have absent : ∀ key, child ∉ drafts.children key := by
    intro key member
    exact ((tables.children key child).mp member).2.1 List.mem_cons_self
  refine ⟨steps, runs, ?_, ?_, ?_, ?_⟩
  · intro key
    rw [children, List.nodup_append]
    refine ⟨tables.once key, by split <;> simp, ?_⟩
    intro one member two other same
    split at other
    · rw [same, List.mem_singleton.mp other] at member
      exact absent key member
    · cases other
  · intro key other
    rw [children, List.mem_append, tables.children, known, List.mem_cons, not_or]
    by_cases same : other = child
    · rw [same, parent]
      by_cases equal : key = up
      · simp [equal, waits, settled]
      · simp [equal, Ne.symm equal]
    · have unlisted : other ∉ (if key = up then [child] else []) := by
        split <;> simp [same]
      simp [same, unlisted]
  · intro key
    rw [attempts]
    exact tables.attempts key
  · intro key member
    exact (known key).mpr (tables.waiting key (List.mem_cons_of_mem _ member))

theorem Tables.attachToStep {child up : String} (tables : Tables spans (child :: pending) visited drafts)
    (parent : parentKey spans child = some up) (settled : child ∉ pending) (known : up ∈ drafts.steps.keys) :
    Tables spans pending visited (drafts.attachToStep up child) ∧ Extends drafts (drafts.attachToStep up child) := by
  obtain ⟨old, stored⟩ := Option.isSome_iff_exists.mp (mem_keys_iff.mp known)
  have shape : drafts.attachToStep up child =
      { drafts with steps := drafts.steps.set up { old with childSteps := old.childSteps ++ [child] } } := by
    rw [Drafts.attachToStep, stored]
  rw [shape]
  have keeps := keeps_step { old with childSteps := old.childSteps ++ [child] } stored rfl
  refine ⟨tables.attach keeps parent settled ?_ ?_, keeps.extends⟩
  · intro key
    unfold Drafts.children
    by_cases same : key = up
    · rw [same, Dict.get?_set_self, stored, if_pos rfl]
    · rw [Dict.get?_set_of_ne _ same, if_neg same, List.append_nil]
  · intro key
    unfold Drafts.attempts
    by_cases same : key = up
    · rw [same, Dict.get?_set_self, stored]
    · rw [Dict.get?_set_of_ne _ same]

theorem Tables.attachToRun {child : String} (tables : Tables spans (child :: pending) visited drafts)
    (held : spans.holds span) (run : role span = .ok (some .run)) (parent : parentKey spans child = some span.spanId)
    (settled : child ∉ pending) (known : span.spanId ∈ drafts.runs.keys) :
    Tables spans pending visited (drafts.attachToRun span.spanId child) ∧
      Extends drafts (drafts.attachToRun span.spanId child) := by
  obtain ⟨old, stored⟩ := Option.isSome_iff_exists.mp (mem_keys_iff.mp known)
  have shape : drafts.attachToRun span.spanId child =
      { drafts with runs := drafts.runs.set span.spanId { old with steps := old.steps ++ [child] } } := by
    rw [Drafts.attachToRun, stored]
  rw [shape]
  have keeps := keeps_run { old with steps := old.steps ++ [child] } stored rfl
  refine ⟨tables.attach keeps parent settled ?_ fun _ => rfl, keeps.extends⟩
  intro key
  unfold Drafts.children
  by_cases same : key = span.spanId
  · rw [same, Dict.get?_set_self, stored, if_pos rfl, tables.run_not_step held run]
  · rw [Dict.get?_set_of_ne _ same, if_neg same, List.append_nil]

/-- The Attempt of a visited span is appended to its Step. -/
theorem Tables.attachAttempt {up : String} (tables : Tables spans pending visited drafts)
    (parent : parentKey spans span.spanId = some up) (known : up ∈ drafts.steps.keys) :
    Tables spans pending (visited ++ [span]) (drafts.attachAttempt up (attemptOf span)) ∧
      Extends drafts (drafts.attachAttempt up (attemptOf span)) := by
  obtain ⟨old, stored⟩ := Option.isSome_iff_exists.mp (mem_keys_iff.mp known)
  have shape : drafts.attachAttempt up (attemptOf span) =
      { drafts with steps := drafts.steps.set up { old with attempts := old.attempts ++ [attemptOf span] } } := by
    rw [Drafts.attachAttempt, stored]
  rw [shape]
  have keeps := keeps_step { old with attempts := old.attempts ++ [attemptOf span] } stored rfl
  have children : ∀ key, Drafts.children ⟨drafts.runs, drafts.steps.set up
      { old with attempts := old.attempts ++ [attemptOf span] }⟩ key = drafts.children key := by
    intro key
    unfold Drafts.children
    by_cases same : key = up
    · rw [same, Dict.get?_set_self, stored]
    · rw [Dict.get?_set_of_ne _ same]
  have known : ∀ key, key ∈ (drafts.steps.set up { old with attempts := old.attempts ++ [attemptOf span] }).keys ↔
      key ∈ drafts.steps.keys := fun key => mem_keys_of_map (keeps.steps key)
  obtain ⟨steps, runs⟩ := keeps.shows tables
  refine ⟨⟨steps, runs, ?_, ?_, ?_, fun key member => (known key).mpr (tables.waiting key member)⟩, keeps.extends⟩
  · intro key
    rw [children]
    exact tables.once key
  · intro key child
    rw [children, known]
    exact tables.children key child
  · intro key
    have before := tables.attempts key
    unfold under at before ⊢
    rw [List.filter_append, List.map_append, ← before]
    unfold Drafts.attempts
    by_cases same : key = up
    · rw [same, Dict.get?_set_self, stored, List.filter_cons_of_pos (by simpa using parent)]
      rfl
    · rw [Dict.get?_set_of_ne _ same, List.filter_cons_of_neg (by simp [parent, Ne.symm same])]
      exact (List.append_nil _).symm

/-- A Step is recorded below its parent, and so are the Steps above it. -/
theorem Tables.ensureStep {reference : Int} {fuel : Nat} (accepted : Accepted spans reference)
    (tables : Tables spans pending visited drafts) (held : spans.holds span)
    (step : role span = .ok (some .step)) (done : ensureStep spans fuel drafts span = .ok next) :
    Tables spans pending visited next ∧ Extends drafts next ∧ span.spanId ∈ next.steps.keys := by
  induction fuel generalizing drafts next span pending with
  | zero => cases done
  | succ fuel ih =>
      unfold Viewer.ensureStep at done
      split at done
      · rename_i known
        obtain rfl := Except.ok.inj done
        exact ⟨tables, .refl _, mem_keys_iff.mpr known⟩
      · rename_i fresh
        have unknown : drafts.steps.get? span.spanId = none := by simpa using fresh
        obtain ⟨node, named, done⟩ := bind_ok.mp done
        obtain ⟨outcome, ended, done⟩ := bind_ok.mp done
        obtain ⟨above, higher, done⟩ := bind_ok.mp done
        obtain ⟨kind, classified, done⟩ := bind_ok.mp done
        have up : parentOf spans span = some above := by
          obtain ⟨got, looked, later⟩ := bind_ok.mp higher
          cases got with
          | none => cases later
          | some entry => exact parentOf_some.mpr ⟨entry, looked, Except.ok.inj later⟩
        have parent : parentKey spans span.spanId = some above.spanId := by
          rw [parentKey_of_holds held, up, Option.map_some]
        have settled : span.spanId ∉ pending := fun waits =>
          (Dict.get?_eq_none_iff _ _).mp unknown (tables.waiting _ waits)
        have recorded := tables.record held step unknown ⟨node, outcome, span.startTimeUnixNano,
          span.endTimeUnixNano, (span.attributes.get? "cord.resumed_from").getD .null, [], []⟩
          ⟨member_ok.mp named, member_ok.mp ended, rfl, rfl, rfl⟩ rfl rfl
        have grown := Extends.record drafts span.spanId ⟨node, outcome, span.startTimeUnixNano,
          span.endTimeUnixNano, (span.attributes.get? "cord.resumed_from").getD .null, [], []⟩
        split at done
        · obtain ⟨ensured, first, done⟩ := bind_ok.mp done
          obtain rfl := Except.ok.inj done
          obtain ⟨run, wider, known⟩ := recorded.ensureRun (holds_parent up) classified first
          obtain ⟨attached, widest⟩ := run.attachToRun (holds_parent up) classified parent settled known
          have all := (grown.trans wider).trans widest
          exact ⟨attached, all, widest.steps _ (run.waiting _ List.mem_cons_self)⟩
        · rename_i other
          have upper : role above = .ok (some .step) := by
            obtain ⟨next, kin, run | higher⟩ := accepted.climb held step (by decide)
            · obtain rfl := Option.some.inj (up.symm.trans kin.up)
              exact absurd (Except.ok.inj (classified.symm.trans run)) other
            · obtain rfl := Option.some.inj (up.symm.trans kin.up)
              exact higher
          obtain ⟨ensured, first, done⟩ := bind_ok.mp done
          obtain rfl := Except.ok.inj done
          obtain ⟨deep, wider, known⟩ := ih recorded (holds_parent up) upper first
          obtain ⟨attached, widest⟩ := deep.attachToStep parent settled known
          have all := (grown.trans wider).trans widest
          exact ⟨attached, all, widest.steps _ (deep.waiting _ List.mem_cons_self)⟩

/-- The visited Attempts stand in the tables, and so do the visited Steps and Runs. -/
theorem Tables.visitSpan {reference : Int} (accepted : Accepted spans reference)
    (tables : Tables spans [] visited drafts) (held : spans.holds span) (done : visitSpan spans drafts span = .ok next) :
    Tables spans [] (visited ++ [span].filter (hasRole .attempt)) next ∧ Extends drafts next ∧
      (role span = .ok (some .step) → span.spanId ∈ next.steps.keys) ∧
      (role span = .ok (some .run) → span.spanId ∈ next.runs.keys) := by
  obtain ⟨kind, known, later⟩ := bind_ok.mp done
  have attempt : hasRole .attempt span = true ↔ kind = some .attempt := by
    rw [hasRole_iff, known, Except.ok.injEq]
  rcases kind with _ | (_ | _ | _)
  case some.attempt =>
    obtain ⟨value, checked⟩ := accepted.checked held
    obtain ⟨⟨number, counted⟩, ⟨outcome, ended⟩, _⟩ := attempt_members checked known
    obtain ⟨step, higher, later⟩ := bind_ok.mp later
    obtain ⟨ensured, first, later⟩ := bind_ok.mp later
    rw [counted, ended] at later
    obtain rfl := Except.ok.inj later
    obtain ⟨up, classified, _⟩ := parent_ok higher
    have parent : parentKey spans span.spanId = some step.spanId := by
      rw [parentKey_of_holds held, up, Option.map_some]
    obtain ⟨grown, wider, recorded⟩ := tables.ensureStep accepted (holds_parent up) classified first
    obtain ⟨attached, widest⟩ := grown.attachAttempt parent recorded
    have shape : attemptOf span = ⟨number, (span.attributes.get? "cord.tier").getD .null, outcome,
        span.startTimeUnixNano, span.endTimeUnixNano⟩ := by
      rw [attemptOf, member_ok.mp counted, member_ok.mp ended]
      rfl
    rw [List.filter_cons_of_pos (attempt.mpr rfl), List.filter_nil, ← shape, known]
    exact ⟨attached, wider.trans widest, (fun same => by cases same), (fun same => by cases same)⟩
  all_goals rw [List.filter_cons_of_neg (by rw [attempt]; decide), List.filter_nil, List.append_nil, known]
  case none =>
    obtain rfl := Except.ok.inj later
    exact ⟨tables, .refl _, (fun same => by cases same), (fun same => by cases same)⟩
  case some.run =>
    obtain ⟨grown, wider, recorded⟩ := tables.ensureRun held known later
    exact ⟨grown, wider, (fun same => by cases same), fun _ => recorded⟩
  case some.step =>
    obtain ⟨grown, wider, recorded⟩ := tables.ensureStep accepted held known later
    exact ⟨grown, wider, fun _ => recorded, fun same => by cases same⟩

theorem Tables.visitSpans {reference : Int} (accepted : Accepted spans reference)
    (tables : Tables spans [] visited drafts) {entries : List Entry} (inside : ∀ entry ∈ entries, entry ∈ spans.values)
    (done : visitSpans spans entries drafts = .ok next) :
    Tables spans [] (visited ++ (entries.map Entry.span).filter (hasRole .attempt)) next ∧ Extends drafts next ∧
      ∀ entry ∈ entries, (role entry.span = .ok (some .step) → entry.span.spanId ∈ next.steps.keys) ∧
        (role entry.span = .ok (some .run) → entry.span.spanId ∈ next.runs.keys) := by
  induction entries generalizing visited drafts with
  | nil =>
      obtain rfl := Except.ok.inj done
      rw [List.map_nil, List.filter_nil, List.append_nil]
      exact ⟨tables, .refl _, fun entry member => by cases member⟩
  | cons entry rest ih =>
      obtain ⟨own, others⟩ := List.forall_mem_cons.mp inside
      obtain ⟨middle, first, later⟩ := bind_ok.mp done
      obtain ⟨grown, wider, step, run⟩ := tables.visitSpan accepted ⟨entry, own, rfl⟩ (at_ok.mp first)
      obtain ⟨ended, widest, recorded⟩ := ih grown others later
      rw [List.append_assoc, ← List.filter_append, List.singleton_append] at ended
      refine ⟨ended, wider.trans widest, List.forall_mem_cons.mpr ⟨⟨?_, ?_⟩, recorded⟩⟩
      · exact fun known => widest.steps _ (step known)
      · exact fun known => widest.runs _ (run known)

theorem tables_empty : Tables spans [] [] Drafts.empty where
  steps key draft found := by cases found
  runs key draft found := by cases found
  once key := List.nodup_nil
  children key child := by
    constructor
    · intro member
      cases member
    · rintro ⟨known, _⟩
      cases known
  attempts key := rfl
  waiting key member := by cases member

/-- The tables show each Run, each Step, and each Attempt of the map below its parent. -/
structure Filled (spans : SpanMap) (drafts : Drafts) : Prop where
  steps : ∀ key draft, drafts.steps.get? key = some draft →
    ∃ span, spans.holds span ∧ role span = .ok (some .step) ∧ span.spanId = key ∧ StepDraftOf span draft ∧
      draft.attempts = (under spans key (spansOf spans .attempt)).map attemptOf ∧
      draft.childSteps.Perm ((under spans key (spansOf spans .step)).map Span.spanId)
  runs : ∀ key draft, drafts.runs.get? key = some draft →
    ∃ span, spans.holds span ∧ role span = .ok (some .run) ∧ span.spanId = key ∧ RunDraftOf span draft ∧
      draft.steps.Perm ((under spans key (spansOf spans .step)).map Span.spanId)
  stepKeys : drafts.steps.keys.Perm ((spansOf spans .step).map Span.spanId)
  runKeys : drafts.runs.keys.Perm ((spansOf spans .run).map Span.spanId)

theorem spanIds (spans : SpanMap) : (spans.values.map Entry.span).map Span.spanId = spans.entries.keys := by
  rw [SpanMap.values, List.map_map, List.map_map, Dict.keys]
  apply List.map_congr_left
  intro item member
  exact spans.keyed item.1 item.2 ((Dict.get?_eq_some_iff _ _ _).mpr member)

theorem spanIds_nodup (spans : SpanMap) (kind : Role) : ((spansOf spans kind).map Span.spanId).Nodup := by
  have distinct : ((spans.values.map Entry.span).map Span.spanId).Nodup := by
    rw [spanIds]
    exact spans.entries.distinct
  exact distinct.sublist (List.filter_sublist.map Span.spanId)

/-- Two lists without repetition that hold the same identifiers. -/
theorem perm_spanIds {keys : List String} (distinct : keys.Nodup) {others : List Span}
    (once : (others.map Span.spanId).Nodup) (same : ∀ key, key ∈ keys ↔ ∃ span ∈ others, span.spanId = key) :
    keys.Perm (others.map Span.spanId) := by
  apply (List.perm_ext_iff_of_nodup distinct once).mpr
  intro key
  rw [same, List.mem_map]

/-- The visit of every span fills the tables. -/
theorem filled_of_visited {reference : Int} (accepted : Accepted spans reference)
    (done : visitSpans spans spans.values Drafts.empty = .ok drafts) : Filled spans drafts := by
  obtain ⟨tables, _, recorded⟩ := tables_empty.visitSpans accepted (fun _ member => member) done
  rw [List.nil_append] at tables
  have stepKeys : ∀ key, key ∈ drafts.steps.keys ↔ ∃ span ∈ spansOf spans .step, span.spanId = key := by
    intro key
    constructor
    · intro member
      obtain ⟨draft, found⟩ := Option.isSome_iff_exists.mp (mem_keys_iff.mp member)
      obtain ⟨span, held, step, named, _⟩ := tables.steps key draft found
      exact ⟨span, mem_spansOf.mpr ⟨held, step⟩, named⟩
    · rintro ⟨span, member, rfl⟩
      obtain ⟨⟨entry, inside, rfl⟩, step⟩ := mem_spansOf.mp member
      exact (recorded entry inside).1 step
  have runKeys : ∀ key, key ∈ drafts.runs.keys ↔ ∃ span ∈ spansOf spans .run, span.spanId = key := by
    intro key
    constructor
    · intro member
      obtain ⟨draft, found⟩ := Option.isSome_iff_exists.mp (mem_keys_iff.mp member)
      obtain ⟨span, held, run, named, _⟩ := tables.runs key draft found
      exact ⟨span, mem_spansOf.mpr ⟨held, run⟩, named⟩
    · rintro ⟨span, member, rfl⟩
      obtain ⟨⟨entry, inside, rfl⟩, run⟩ := mem_spansOf.mp member
      exact (recorded entry inside).2 run
  have children : ∀ key, (drafts.children key).Perm ((under spans key (spansOf spans .step)).map Span.spanId) := by
    intro key
    apply perm_spanIds (tables.once key)
    · exact (spanIds_nodup spans .step).sublist (List.filter_sublist.map Span.spanId)
    · intro child
      rw [tables.children, stepKeys]
      simp only [under, List.mem_filter, decide_eq_true_eq]
      constructor
      · rintro ⟨⟨span, member, rfl⟩, _, up⟩
        exact ⟨span, ⟨member, up⟩, rfl⟩
      · rintro ⟨span, ⟨member, up⟩, rfl⟩
        exact ⟨⟨span, member, rfl⟩, List.not_mem_nil, up⟩
  refine ⟨?_, ?_, ?_, ?_⟩
  · intro key draft found
    obtain ⟨span, held, step, named, shows⟩ := tables.steps key draft found
    have attempts := tables.attempts key
    have below := children key
    rw [Drafts.attempts, found] at attempts
    rw [Drafts.children, found] at below
    exact ⟨span, held, step, named, shows, attempts, below⟩
  · intro key draft found
    obtain ⟨span, held, run, named, shows⟩ := tables.runs key draft found
    have below := children key
    rw [Drafts.children, found, ← named, tables.run_not_step held run, named] at below
    exact ⟨span, held, run, named, shows, below⟩
  · exact perm_spanIds drafts.steps.distinct (spanIds_nodup spans .step) stepKeys
  · exact perm_spanIds drafts.runs.distinct (spanIds_nodup spans .run) runKeys

end

end Cordboard.Viewer
