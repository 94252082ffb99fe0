import Cordboard.Construction.Rules

namespace Cordboard

namespace Json

/-- A number is no boolean. -/
def plainNumber? : Json → Option ℚ
  | .int value => some value
  | .float value => some value
  | _ => none

mutual

/-- Two values are the same JSON at every depth. Booleans, numbers, texts, null, arrays, and objects differ in kind. -/
def same : Json → Json → Bool
  | .null, .null => true
  | .bool first, .bool second => first == second
  | .str first, .str second => first == second
  | .arr first, .arr second => sameItems first second
  | .obj first, .obj second => first.length == second.length && sameMembers first second
  | first, second => first.plainNumber?.isSome && first.plainNumber? == second.plainNumber?

def sameItems : List Json → List Json → Bool
  | [], [] => true
  | first :: rest, second :: others => same first second && sameItems rest others
  | _, _ => false

def sameMembers : List (String × Json) → List (String × Json) → Bool
  | [], _ => true
  | (name, value) :: rest, others =>
      (match others.lookup name with
        | some other => same value other
        | none => false) && sameMembers rest others

end

mutual

/-- Each boolean is read as the number zero or one. -/
def numeric : Json → Json
  | .bool value => .int (if value then 1 else 0)
  | .arr items => .arr (numericItems items)
  | .obj members => .obj (numericMembers members)
  | other => other

def numericItems : List Json → List Json
  | [] => []
  | item :: rest => numeric item :: numericItems rest

def numericMembers : List (String × Json) → List (String × Json)
  | [] => []
  | (name, value) :: rest => (name, numeric value) :: numericMembers rest

end

mutual

/-- A boolean stands where the other value has a number. -/
def mixes : Json → Json → Bool
  | .bool _, .bool _ => false
  | .bool _, second => second.plainNumber?.isSome
  | first, .bool _ => first.plainNumber?.isSome
  | .arr first, .arr second => mixesItems first second
  | .obj first, .obj second => mixesMembers first second
  | _, _ => false

def mixesItems : List Json → List Json → Bool
  | first :: rest, second :: others => mixes first second || mixesItems rest others
  | _, _ => false

def mixesMembers : List (String × Json) → List (String × Json) → Bool
  | [], _ => false
  | (name, value) :: rest, others =>
      (match others.lookup name with
        | some other => mixes value other
        | none => false) || mixesMembers rest others

end

@[simp] theorem numericMembers_length (members : List (String × Json)) :
    (numericMembers members).length = members.length := by
  induction members with
  | nil => rfl
  | cons member rest ih => simp [numericMembers, ih]

theorem lookup_numericMembers (members : List (String × Json)) (name : String) :
    (numericMembers members).lookup name = (members.lookup name).map numeric := by
  induction members with
  | nil => rfl
  | cons member rest ih =>
      obtain ⟨own, value⟩ := member
      simp only [numericMembers, List.lookup_cons]
      cases name == own with
      | true => rfl
      | false => exact ih

mutual

/-- The operator reads each boolean as a number. -/
theorem pyEq_numeric : ∀ first second : Json, first.pyEq second = first.numeric.same second.numeric
  | .null, second => by cases second <;> rfl
  | .bool value, second => by
      cases second with
      | bool other => cases value <;> cases other <;> simp [pyEq, same, numeric, number?, plainNumber?]
      | _ => cases value <;> simp [pyEq, same, numeric, number?, plainNumber?]
  | .int value, second => by
      cases second with
      | bool other => cases other <;> simp [pyEq, same, numeric, number?, plainNumber?]
      | _ => simp [pyEq, same, numeric, number?, plainNumber?]
  | .float value, second => by
      cases second with
      | bool other => cases other <;> simp [pyEq, same, numeric, number?, plainNumber?]
      | _ => simp [pyEq, same, numeric, number?, plainNumber?]
  | .str text, second => by cases second <;> rfl
  | .arr items, second => by
      cases second with
      | arr others => simpa only [pyEq, same, numeric] using pyEqItems_numeric items others
      | _ => rfl
  | .obj members, second => by
      cases second with
      | obj others =>
          simp only [pyEq, same, numeric, numericMembers_length]
          rw [pyEqMembers_numeric members others]
      | _ => rfl

theorem pyEqItems_numeric : ∀ first second : List Json,
    pyEqItems first second = sameItems (numericItems first) (numericItems second)
  | [], [] => rfl
  | [], _ :: _ => rfl
  | _ :: _, [] => rfl
  | item :: rest, other :: others => by
      simp only [pyEqItems, sameItems, numericItems]
      rw [pyEq_numeric item other, pyEqItems_numeric rest others]

theorem pyEqMembers_numeric : ∀ first second : List (String × Json),
    pyEqMembers first second = sameMembers (numericMembers first) (numericMembers second)
  | [], _ => rfl
  | (name, value) :: rest, others => by
      simp only [pyEqMembers, sameMembers, numericMembers, lookup_numericMembers]
      rw [pyEqMembers_numeric rest others]
      cases others.lookup name with
      | none => rfl
      | some other =>
          dsimp only [Option.map_some]
          rw [pyEq_numeric value other]

end

mutual

/-- Identical values are equal without a boolean that meets a number. -/
theorem same_numeric : ∀ first second : Json,
    first.same second = (first.numeric.same second.numeric && !first.mixes second)
  | .null, second => by cases second <;> rfl
  | .bool value, second => by
      cases second with
      | bool other => cases value <;> cases other <;> simp [same, numeric, plainNumber?, mixes]
      | _ => cases value <;> simp [same, numeric, plainNumber?, mixes]
  | .int value, second => by cases second <;> simp [same, numeric, plainNumber?, mixes]
  | .float value, second => by cases second <;> simp [same, numeric, plainNumber?, mixes]
  | .str text, second => by cases second <;> simp [same, numeric, plainNumber?, mixes]
  | .arr items, second => by
      cases second with
      | arr others => simpa only [same, numeric, mixes] using sameItems_numeric items others
      | _ => simp [same, numeric, plainNumber?, mixes]
  | .obj members, second => by
      cases second with
      | obj others =>
          simp only [same, numeric, mixes, numericMembers_length]
          rw [sameMembers_numeric members others, Bool.and_assoc]
      | _ => simp [same, numeric, plainNumber?, mixes]

theorem sameItems_numeric : ∀ first second : List Json,
    sameItems first second = (sameItems (numericItems first) (numericItems second) && !mixesItems first second)
  | [], [] => rfl
  | [], _ :: _ => rfl
  | _ :: _, [] => rfl
  | item :: rest, other :: others => by
      simp only [sameItems, numericItems, mixesItems, Bool.not_or]
      rw [same_numeric item other, sameItems_numeric rest others]
      ac_rfl

theorem sameMembers_numeric : ∀ first second : List (String × Json), sameMembers first second =
    (sameMembers (numericMembers first) (numericMembers second) && !mixesMembers first second)
  | [], _ => rfl
  | (name, value) :: rest, others => by
      simp only [sameMembers, numericMembers, mixesMembers, lookup_numericMembers, Bool.not_or]
      rw [sameMembers_numeric rest others]
      cases others.lookup name with
      | none => rfl
      | some other =>
          dsimp only [Option.map_some]
          rw [same_numeric value other]
          ac_rfl

end

theorem same_iff {first second : Json} :
    first.same second = true ↔ first.numeric.same second.numeric = true ∧ first.mixes second = false := by
  rw [same_numeric first second, Bool.and_eq_true, Bool.not_eq_true']

end Json

namespace Router

/-- The declared paths of a Rule with their literals. -/
def conditions (rule : Rule) : List (String × Json) :=
  if rule.signalType = .runFinished then rule.whenPaths else rule.matchPaths

/-- The value that a path names. -/
def resolve (payload : Json) (path : String) : Option Json :=
  descend ((path.toList.splitOn '.').map String.ofList) payload

/-- The types agree, and each declared path holds its literal. -/
def Agrees (rule : Rule) (signal : Signal) : Prop :=
  rule.signalType = signal.type ∧ ∀ condition ∈ conditions rule,
    ∃ value, resolve signal.payload condition.1 = some value ∧ value.same condition.2 = true

/-- Once booleans are read as numbers the types agree and each declared path holds its literal, but somewhere a boolean
stands for a number. -/
def Confused (rule : Rule) (signal : Signal) : Prop :=
  rule.signalType = signal.type ∧
  (∀ condition ∈ conditions rule, ∃ value, resolve signal.payload condition.1 = some value ∧
    value.numeric.same condition.2.numeric = true) ∧
  ∃ condition ∈ conditions rule, ∃ value, resolve signal.payload condition.1 = some value ∧
    value.mixes condition.2 = true

section
variable {rule : Rule} {signal : Signal}

/-- A Rule applies when its literals are there once booleans are read as numbers. -/
theorem matchesSignal_iff : matchesSignal rule signal = true ↔ rule.signalType = signal.type ∧
    ∀ condition ∈ conditions rule, ∃ value, resolve signal.payload condition.1 = some value ∧
      value.numeric.same condition.2.numeric = true := by
  unfold matchesSignal conditions
  rw [Bool.and_eq_true, beq_iff_eq, List.all_eq_true]
  apply and_congr_right
  intro _
  apply forall_congr'
  intro condition
  apply imp_congr_right
  intro _
  unfold lookup resolve
  cases descend ((condition.1.toList.splitOn '.').map String.ofList) signal.payload with
  | none => simp
  | some value => simp [Json.pyEq_numeric]

/-- Matching is JSON equality on the declared paths exactly where no boolean stands for a number. -/
theorem matching_exact : (matchesSignal rule signal = true ↔ Agrees rule signal) ↔ ¬ Confused rule signal := by
  rw [matchesSignal_iff]
  constructor
  · rintro exact_ ⟨type, loose, condition, member, value, found, mixed⟩
    obtain ⟨_, agrees⟩ := exact_.mp ⟨type, loose⟩
    obtain ⟨other, same, identical⟩ := agrees condition member
    obtain rfl := Option.some.inj (found.symm.trans same)
    rw [(Json.same_iff.mp identical).2] at mixed
    cases mixed
  · intro clear
    constructor
    · rintro ⟨type, loose⟩
      refine ⟨type, ?_⟩
      intro condition member
      obtain ⟨value, found, equal⟩ := loose condition member
      refine ⟨value, found, Json.same_iff.mpr ⟨equal, ?_⟩⟩
      rw [Bool.eq_false_iff]
      intro mixed
      exact clear ⟨type, loose, condition, member, value, found, mixed⟩
    · rintro ⟨type, agrees⟩
      refine ⟨type, ?_⟩
      intro condition member
      obtain ⟨value, found, identical⟩ := agrees condition member
      exact ⟨value, found, (Json.same_iff.mp identical).1⟩

end

/-- A Rule waits for the number one. -/
def countingRule : Rules.Declared := [("name", .str "count"), ("signal_type", .str "manual"),
  ("connection", .str "local"), ("assistant", .str "graph"), ("subject", .str "subject"),
  ("match", .obj [("count", .int 1)])]

/-- A boolean takes the place of the number. -/
def flaggedSignal : Signal := .external .manual "manual:1" [("subject", .str "42"), ("count", .bool true)]

/-- The accepted Rule fires for the boolean. -/
theorem matching_confused : ∃ rule, Rules.validateRule countingRule = .ok rule ∧
    matchesSignal rule flaggedSignal = true ∧ ¬ Agrees rule flaggedSignal := by
  refine ⟨_, rfl, by decide +kernel, ?_⟩
  rintro ⟨_, agrees⟩
  obtain ⟨value, found, same⟩ := agrees ("count", .int 1) (by simp [conditions])
  obtain rfl : .bool true = value := Option.some.inj found
  cases same

end Router

end Cordboard
