import Cordboard.Construction.Archive.Langfuse
import Cordboard.Proof.Archive.Escalations

namespace Cordboard

namespace Json

mutual

/-- Two values are one JSON document up to the order of members. An integer differs from a fraction. -/
def identical : Json → Json → Bool
  | .null, .null => true
  | .bool first, .bool second => first == second
  | .int first, .int second => first == second
  | .float first, .float second => first == second
  | .str first, .str second => first == second
  | .arr first, .arr second => identicalItems first second
  | .obj first, .obj second => first.length == second.length && identicalMembers first second
  | _, _ => false

def identicalItems : List Json → List Json → Bool
  | [], [] => true
  | first :: rest, second :: others => identical first second && identicalItems rest others
  | _, _ => false

def identicalMembers : List (String × Json) → List (String × Json) → Bool
  | [], _ => true
  | (name, value) :: rest, others =>
      (match others.lookup name with
        | some other => identical value other
        | none => false) && identicalMembers rest others

end

mutual

/-- Identical values are equal for Python. -/
theorem pyEq_of_identical : ∀ first second : Json, first.identical second = true → first.pyEq second = true
  | .null, second, same => by cases second <;> simp_all [identical, pyEq]
  | .bool value, second, same => by cases second <;> simp_all [identical, pyEq, number?]
  | .int value, second, same => by cases second <;> simp_all [identical, pyEq, number?]
  | .float value, second, same => by cases second <;> simp_all [identical, pyEq, number?]
  | .str text, second, same => by cases second <;> simp_all [identical, pyEq]
  | .arr items, second, same => by
      cases second with
      | arr others => simpa only [pyEq] using pyEqItems_of_identical items others (by simpa only [identical] using same)
      | _ => simp [identical] at same
  | .obj members, second, same => by
      cases second with
      | obj others =>
          rw [identical, Bool.and_eq_true] at same
          rw [pyEq, Bool.and_eq_true]
          exact ⟨same.1, pyEqMembers_of_identical members others same.2⟩
      | _ => simp [identical] at same

theorem pyEqItems_of_identical : ∀ first second : List Json,
    identicalItems first second = true → pyEqItems first second = true
  | [], second, same => by cases second <;> simp_all [identicalItems, pyEqItems]
  | item :: rest, [], same => by simp [identicalItems] at same
  | item :: rest, other :: others, same => by
      rw [identicalItems, Bool.and_eq_true] at same
      rw [pyEqItems, Bool.and_eq_true]
      exact ⟨pyEq_of_identical item other same.1, pyEqItems_of_identical rest others same.2⟩

theorem pyEqMembers_of_identical : ∀ first second : List (String × Json),
    identicalMembers first second = true → pyEqMembers first second = true
  | [], _, _ => by simp [pyEqMembers]
  | (name, value) :: rest, others, same => by
      rw [identicalMembers, Bool.and_eq_true] at same
      rw [pyEqMembers, Bool.and_eq_true]
      refine ⟨?_, pyEqMembers_of_identical rest others same.2⟩
      have own := same.1
      cases found : others.lookup name with
      | none => simp [found] at own
      | some other =>
          rw [found] at own
          exact pyEq_of_identical value other own

end

end Json

namespace Archive
open Data

section
variable {spans others : SpanMap} {first second above upper : Span} {reference : Int}

theorem truthy_orElse (value : Json) : (value.orElse .null).truthy = value.truthy := by
  unfold Json.orElse
  split
  · rfl
  · rename_i falsy
    exact (Bool.eq_false_of_not_eq_true falsy).symm

/-- An empty text counts as no text. -/
theorem text_orElse (value : Json) : (value.orElse .null).text?.getD "" = value.text?.getD "" := by
  unfold Json.orElse
  split
  · rfl
  · rename_i falsy
    cases value with
    | str text =>
        have empty : text = "" := by simpa [Json.truthy] using falsy
        rw [empty]
        rfl
    | _ => rfl

theorem number_congr {one two : Json} (equal : one.pyEq two = true) : one.number? = two.number? := by
  cases Json.pyEq_iff.mp equal with
  | number value own other => rw [own, other]
  | _ => rfl

theorem number_orElse (number : Nat) : ((Json.int number).orElse .null).number?.getD 0 = number := by
  unfold Json.orElse
  split
  · rfl
  · rename_i falsy
    have zero : number = 0 := by simpa [Json.truthy] using falsy
    rw [zero]
    rfl

/-- The query reads two spans alike, but for the number of an attempt. -/
structure Mirror (first second : Span) : Prop where
  spanId : first.spanId = second.spanId
  traceId : first.traceId = second.traceId
  finish : first.endTimeUnixNano = second.endTimeUnixNano
  root : first.parentRef.truthy = second.parentRef.truthy
  reference : first.parentRef.text?.getD "" = second.parentRef.text?.getD ""
  named : ∃ name, first.name.getD (.str "") = .str name ∧ second.name.getD (.str "") = .str name
  has : ∀ key, isCord key = true → first.has key = second.has key
  texts : ∀ key, isCord key = true →
    (first.attributes.get? key).bind Json.text? = (second.attributes.get? key).bind Json.text?

theorem Mirror.symm (mirror : Mirror first second) : Mirror second first where
  spanId := mirror.spanId.symm
  traceId := mirror.traceId.symm
  finish := mirror.finish.symm
  root := mirror.root.symm
  reference := mirror.reference.symm
  named := by
    obtain ⟨name, own, other⟩ := mirror.named
    exact ⟨name, other, own⟩
  has key cord := (mirror.has key cord).symm
  texts key cord := (mirror.texts key cord).symm

theorem Mirror.isText (mirror : Mirror first second) {key : String} (cord : isCord key = true) :
    Archive.isText (first.attributes.get? key) = Archive.isText (second.attributes.get? key) := by
  rw [isText_eq, isText_eq, mirror.texts key cord]

theorem Mirror.isOneOf (mirror : Mirror first second) {key : String} (cord : isCord key = true) (texts : List String) :
    Archive.isOneOf (first.attributes.get? key) texts = Archive.isOneOf (second.attributes.get? key) texts := by
  rw [isOneOf_eq, isOneOf_eq, mirror.texts key cord]

theorem Mirror.role (mirror : Mirror first second) : role first = role second := by
  obtain ⟨name, own, other⟩ := mirror.named
  unfold Archive.role
  rw [own, other]
  simp only [mirror.has "cord.step.attempt" (by decide), mirror.has "cord.node.name" (by decide),
    mirror.has "cord.semconv.version" (by decide), mirror.has "cord.outcome" (by decide)]

/-- The members of a filtered dictionary are the members under the keys that pass. -/
theorem lookup_filter (attributes : Dict String Json) {key : String} (cord : isCord key = true) :
    (attributes.items.filter fun item => isCord item.1).lookup key = attributes.get? key := by
  have distinct : ((attributes.items.filter fun item => isCord item.1).map Prod.fst).Nodup :=
    (List.filter_sublist.map Prod.fst).nodup attributes.distinct
  have same : ∀ value, (attributes.items.filter fun item => isCord item.1).lookup key = some value ↔
      attributes.get? key = some value := by
    intro value
    rw [Dict.get?_eq_some_iff]
    constructor
    · intro found
      exact (List.mem_filter.mp (mem_of_lookup found)).1
    · intro member
      exact Json.lookup_of_mem distinct (List.mem_filter.mpr ⟨member, cord⟩)
  exact Option.ext same

/-- The members of two projections that are equal for Python. -/
theorem projected (equal : (projection first).pyEq (projection second) = true) :
    ((Json.str first.spanId).orElse .null).pyEq ((Json.str second.spanId).orElse .null) = true ∧
    ((Json.str first.traceId).orElse .null).pyEq ((Json.str second.traceId).orElse .null) = true ∧
    (first.parentRef.orElse .null).pyEq (second.parentRef.orElse .null) = true ∧
    ((first.name.getD .null).orElse .null).pyEq ((second.name.getD .null).orElse .null) = true ∧
    ((Json.int first.endTimeUnixNano).orElse .null).pyEq ((Json.int second.endTimeUnixNano).orElse .null) = true ∧
    (Json.obj (first.attributes.items.filter fun item => isCord item.1)).pyEq
      (.obj (second.attributes.items.filter fun item => isCord item.1)) = true := by
  rw [projection, projection, Json.pyEq, Bool.and_eq_true] at equal
  simp only [Json.pyEqMembers, List.lookup_cons, List.lookup_nil, String.reduceBEq, Bool.and_eq_true] at equal
  obtain ⟨_, spanId, traceId, parent, name, _, finish, attributes, _⟩ := equal
  exact ⟨spanId, traceId, parent, name, finish, attributes⟩

/-- The name of a span is absent or a text. -/
def Span.named (span : Span) : Prop := ∃ name, span.name.getD (.str "") = .str name

theorem name_text (named : first.named) :
    first.name.getD (.str "") = .str (((first.name.getD .null).orElse .null).text?.getD "") := by
  obtain ⟨name, own⟩ := named
  rw [text_orElse]
  cases given : first.name with
  | none => rfl
  | some value =>
      rw [given, Option.getD_some] at own
      rw [Option.getD_some, Option.getD_some, own]
      rfl

/-- Spans with equal projections are read alike. -/
theorem mirror_of_projection (named : first.named) (other : second.named)
    (equal : (projection first).pyEq (projection second) = true) : Mirror first second := by
  obtain ⟨spanId, traceId, parent, name, finish, attributes⟩ := projected equal
  have texts := fun {one two : Json} (same : (one.orElse .null).pyEq (two.orElse .null) = true) =>
    (text_orElse one).symm.trans ((congrArg (Option.getD · "") (text_congr same)).trans (text_orElse two))
  have values : ∀ key, isCord key = true →
      optionEq (first.attributes.get? key) (second.attributes.get? key) = true := by
    intro key cord
    rw [← lookup_filter _ cord, ← lookup_filter _ cord]
    exact lookup_congr ((List.filter_sublist.map Prod.fst).nodup first.attributes.distinct) attributes key
  refine ⟨texts spanId, texts traceId, ?_, ?_, texts parent, ?_, ?_, ?_⟩
  · have numbers := congrArg (Option.getD · 0) (number_congr finish)
    rw [number_orElse, number_orElse] at numbers
    exact Rat.natCast_inj.mp numbers
  · rw [← truthy_orElse, truthy_congr parent, truthy_orElse]
  · refine ⟨_, name_text named, ?_⟩
    rw [text_congr name]
    exact name_text other
  · intro key cord
    exact isSome_congr (values key cord)
  · intro key cord
    exact texts_congr (values key cord)

theorem identical_lookup {members partners : List (String × Json)}
    (same : Json.identicalMembers members partners = true) {key : String} {value : Json}
    (found : members.lookup key = some value) : ∃ other, partners.lookup key = some other ∧ value.identical other = true := by
  induction members with
  | nil => cases found
  | cons member rest ih =>
      obtain ⟨name, own⟩ := member
      rw [Json.identicalMembers, Bool.and_eq_true] at same
      rw [List.lookup_cons] at found
      split at found
      · rename_i here
        obtain rfl := eq_of_beq here
        obtain rfl := Option.some.inj found
        have first := same.1
        cases looked : partners.lookup key with
        | none => simp [looked] at first
        | some other =>
            rw [looked] at first
            exact ⟨other, rfl, first⟩
      · exact ih same.2 found

theorem isPositive_congr {one two : Json} (same : one.identical two = true) :
    isPositive (some one) = isPositive (some two) := by
  cases one <;> cases two <;> simp_all [Json.identical, isPositive]

/-- Identical projections agree on the number of an attempt. -/
theorem number_of_projection (mirror : Mirror first second)
    (same : (projection first).identical (projection second) = true) :
    isPositive (first.attributes.get? "cord.step.attempt") = isPositive (second.attributes.get? "cord.step.attempt") := by
  have cord : isCord "cord.step.attempt" = true := by decide
  have attributes : Json.identicalMembers (first.attributes.items.filter fun item => isCord item.1)
      (second.attributes.items.filter fun item => isCord item.1) = true := by
    rw [projection, projection, Json.identical, Bool.and_eq_true] at same
    simp only [Json.identicalMembers, Json.identical, List.lookup_cons, List.lookup_nil, String.reduceBEq, Bool.and_eq_true] at same
    exact same.2.2.2.2.2.2.2.1.2
  have present := mirror.has _ cord
  rw [Span.has, Span.has] at present
  cases found : first.attributes.get? "cord.step.attempt" with
  | none =>
      rw [found] at present
      rw [Option.isSome_eq_false_iff.mp present.symm |> Option.isNone_iff_eq_none.mp]
  | some value =>
      rw [← lookup_filter _ cord] at found
      obtain ⟨other, looked, agree⟩ := identical_lookup attributes found
      rw [← lookup_filter second.attributes cord, looked]
      exact isPositive_congr agree

/-- The same identifiers name spans that are read alike. -/
def Mirrored (spans others : SpanMap) : Prop :=
  ∀ key, Option.Rel (fun first second => Mirror first.span second.span) (spans.entries.get? key) (others.entries.get? key)

theorem rel_symm {A B : Type} {related : A → B → Prop} {backward : B → A → Prop} {one : Option A} {two : Option B}
    (turn : ∀ first second, related first second → backward second first) (rel : Option.Rel related one two) :
    Option.Rel backward two one := by
  cases rel with
  | none => exact .none
  | some held => exact .some (turn _ _ held)

theorem Mirrored.symm (mirrored : Mirrored spans others) : Mirrored others spans :=
  fun key => rel_symm (fun _ _ mirror => mirror.symm) (mirrored key)

theorem Mirrored.keys (mirrored : Mirrored spans others) : spans.entries.keys.Perm others.entries.keys := by
  apply (List.perm_ext_iff_of_nodup spans.entries.distinct others.entries.distinct).mpr
  intro key
  have absent : key ∉ spans.entries.keys ↔ key ∉ others.entries.keys := by
    rw [← Dict.get?_eq_none_iff, ← Dict.get?_eq_none_iff]
    exact rel_none (mirrored key)
  exact not_iff_not.mp absent

/-- A reference that finds a span finds its mirror in the other map. -/
theorem get_mirror (mirrored : Mirrored spans others) (mirror : Mirror first second) {entry : Entry}
    (found : spans.get first.parentRef = .ok (some entry)) :
    ∃ other, others.get second.parentRef = .ok (some other) ∧ Mirror entry.span other.span := by
  have reference := mirror.reference
  cases own : first.parentRef with
  | str key =>
      rw [own] at found reference
      have held : spans.entries.get? key = some entry := Except.ok.inj found
      have named : key ≠ "" := spans.named key (Dict.mem_keys_of_get? held)
      have same : second.parentRef = .str key := by
        cases given : second.parentRef with
        | str text =>
            rw [given] at reference
            exact congrArg Json.str reference.symm
        | _ =>
            rw [given] at reference
            exact absurd reference named
      have rel := mirrored key
      rw [held] at rel
      generalize looked : others.entries.get? key = got at rel
      cases rel with
      | @some _ other partner =>
          refine ⟨other, ?_, partner⟩
          rw [same]
          exact congrArg Except.ok looked
  | null => rw [own] at found; cases found
  | bool value => rw [own] at found; cases found
  | int value => rw [own] at found; cases found
  | float value => rw [own] at found; cases found
  | arr items => rw [own] at found; cases found
  | obj members => rw [own] at found; cases found

theorem text_pyEq {value : Option Json} {text : String} :
    (Json.str text).pyEq (value.getD .null) = true ↔ value.bind Json.text? = some text := by
  rcases value with _ | (_ | _ | _ | _ | own | _ | _)
  case some.str => simp [Json.pyEq, Json.text?, @eq_comm _ own]
  all_goals simp [Json.pyEq, Json.text?, Json.number?]

theorem isText_some {value : Option Json} (text : isText value = true) : ∃ own, value = some (.str own) := by
  rcases value with _ | (_ | _ | _ | _ | own | _ | _)
  case some.str => exact ⟨own, rfl⟩
  all_goals cases text

/-- A text under a key is compared alike with the values of two mirrors. -/
theorem compare_mirror (mirror : Mirror first second) (parents : Mirror above upper) {key : String}
    (cord : isCord key = true) (text : isText (first.attributes.get? key) = true) :
    ((first.attributes.get? key).getD .null).pyEq ((above.attributes.get? key).getD .null) =
      ((second.attributes.get? key).getD .null).pyEq ((upper.attributes.get? key).getD .null) := by
  obtain ⟨own, held⟩ := isText_some text
  obtain ⟨other, given⟩ := isText_some ((mirror.isText cord).symm.trans text)
  have texts := mirror.texts key cord
  rw [held, given] at texts
  obtain rfl : own = other := Option.some.inj texts
  rw [held, given, Option.getD_some, Bool.eq_iff_iff, text_pyEq, text_pyEq, parents.texts key cord]

theorem cord_identity {key : String} (member : key ∈ identity) : isCord key = true := by
  have all : ∀ key ∈ identity, isCord key = true := by decide
  exact all key member

theorem sameIdentity_mirror (mirror : Mirror first second) (parents : Mirror above upper)
    (texts : (identity.all fun key => isText (first.attributes.get? key)) = true) :
    sameIdentity first above = sameIdentity second upper := by
  apply Bool.eq_iff_iff.mpr
  have each := List.all_eq_true.mp texts
  unfold sameIdentity
  rw [List.all_eq_true, List.all_eq_true]
  constructor
  · intro same key member
    rw [← compare_mirror mirror parents (cord_identity member) (each key member)]
    exact same key member
  · intro same key member
    rw [compare_mirror mirror parents (cord_identity member) (each key member)]
    exact same key member

theorem parent_mirror (mirrored : Mirrored spans others) (mirror : Mirror first second)
    (texts : (identity.all fun key => isText (first.attributes.get? key)) = true) {expected : Role}
    (done : parent spans first expected = .ok above) :
    ∃ upper, parent others second expected = .ok upper ∧ Mirror above upper := by
  obtain ⟨got, found, later⟩ := bind_ok.mp done
  cases got with
  | none => cases later
  | some entry =>
      obtain ⟨other, looked, parents⟩ := get_mirror mirrored mirror found
      obtain ⟨kind, known, later⟩ := bind_ok.mp later
      obtain ⟨kept, later⟩ := require_bind_ok.mp later
      obtain ⟨same, later⟩ := require_bind_ok.mp later
      obtain rfl := Except.ok.inj later
      refine ⟨other.span, bind_ok.mpr ⟨some other, looked, bind_ok.mpr ⟨kind, ?_, ?_⟩⟩, parents⟩
      · rw [← parents.role]
        exact known
      · apply require_bind_ok.mpr
        rw [← mirror.traceId, ← parents.traceId, ← sameIdentity_mirror mirror parents texts]
        exact ⟨kept, require_bind_ok.mpr ⟨same, rfl⟩⟩

/-- The walk to the Run passes through mirrors. -/
theorem walk_mirror (mirrored : Mirrored spans others) {fuel : Nat} {seen : List String} (mirror : Mirror first second)
    (done : runRootWithin spans fuel seen first = .ok above) :
    ∃ upper, runRootWithin others fuel seen second = .ok upper ∧ Mirror above upper := by
  induction fuel generalizing seen first second with
  | zero => cases done
  | succ fuel ih =>
      obtain ⟨kind, known, later⟩ := bind_ok.mp done
      have other : role second = .ok kind := mirror.role.symm.trans known
      unfold runRootWithin
      by_cases run : kind = some .run
      · rw [if_pos run] at later
        obtain rfl := Except.ok.inj later
        exact ⟨second, bind_ok.mpr ⟨kind, other, if_pos run⟩, mirror⟩
      · rw [if_neg run] at later
        obtain ⟨fresh, later⟩ := require_bind_ok.mp later
        obtain ⟨got, found, later⟩ := bind_ok.mp later
        cases got with
        | none => cases later
        | some entry =>
            obtain ⟨partner, looked, parents⟩ := get_mirror mirrored mirror found
            obtain ⟨above, reached, later⟩ := bind_ok.mp later
            obtain ⟨inside, later⟩ := require_bind_ok.mp later
            obtain ⟨upper, walked, ends⟩ := ih parents later
            refine ⟨upper, bind_ok.mpr ⟨kind, other, ?_⟩, ends⟩
            rw [if_neg run, ← mirror.spanId]
            exact require_bind_ok.mpr ⟨fresh, bind_ok.mpr ⟨some partner, looked,
              bind_ok.mpr ⟨above, parents.role.symm.trans reached, require_bind_ok.mpr ⟨inside, walked⟩⟩⟩⟩

theorem runRoot_mirror (mirrored : Mirrored spans others) (mirror : Mirror first second)
    (done : runRoot spans first = .ok above) : ∃ upper, runRoot others second = .ok upper ∧ Mirror above upper := by
  unfold runRoot at done ⊢
  rw [← mirrored.keys.length_eq]
  exact walk_mirror mirrored mirror done

theorem version_mirror (mirror : Mirror first second) (texts : List String) :
    isOneOf (version first) texts = isOneOf (version second) texts :=
  mirror.isOneOf (by decide) texts

theorem queryStep_mirror (mirrored : Mirrored spans others) (mirror : Mirror first second)
    (texts : (identity.all fun key => isText (first.attributes.get? key)) = true)
    (done : queryStep spans first = .ok ()) : queryStep others second = .ok () := by
  obtain ⟨outcome, later⟩ := require_bind_ok.mp done
  obtain ⟨got, found, later⟩ := bind_ok.mp later
  rw [mirror.isOneOf (by decide)] at outcome
  apply require_bind_ok.mpr ⟨outcome, _⟩
  cases got with
  | none => cases later
  | some entry =>
      obtain ⟨other, looked, parents⟩ := get_mirror mirrored mirror found
      obtain ⟨kind, known, later⟩ := bind_ok.mp later
      refine bind_ok.mpr ⟨some other, looked, bind_ok.mpr ⟨kind, parents.role.symm.trans known, ?_⟩⟩
      rcases kind with _ | (_ | _ | _)
      · cases later
      · obtain ⟨above, checked, later⟩ := bind_ok.mp later
        obtain ⟨upper, passed, _⟩ := parent_mirror mirrored mirror texts checked
        exact bind_ok.mpr ⟨upper, passed, rfl⟩
      · obtain ⟨above, checked, later⟩ := bind_ok.mp later
        obtain ⟨root, walked, current⟩ := bind_ok.mp later
        obtain ⟨upper, passed, steps⟩ := parent_mirror mirrored mirror texts checked
        obtain ⟨top, reached, roots⟩ := runRoot_mirror mirrored steps walked
        refine bind_ok.mpr ⟨upper, passed, bind_ok.mpr ⟨top, reached, ?_⟩⟩
        rw [← version_mirror roots]
        exact current
      · cases later

theorem queryAttempt_mirror (mirrored : Mirrored spans others) (mirror : Mirror first second)
    (texts : (identity.all fun key => isText (first.attributes.get? key)) = true)
    (node : isText (first.attributes.get? "cord.node.name") = true)
    (number : isPositive (first.attributes.get? "cord.step.attempt") =
      isPositive (second.attributes.get? "cord.step.attempt")) {value : Option (String × String)}
    (done : queryAttempt spans reference first = .ok value) :
    ∃ other, queryAttempt others reference second = .ok other := by
  obtain ⟨positive, later⟩ := require_bind_ok.mp done
  obtain ⟨outcome, later⟩ := require_bind_ok.mp later
  obtain ⟨step, checked, later⟩ := bind_ok.mp later
  obtain ⟨root, walked, later⟩ := bind_ok.mp later
  obtain ⟨upper, passed, steps⟩ := parent_mirror mirrored mirror texts checked
  obtain ⟨top, reached, roots⟩ := runRoot_mirror mirrored steps walked
  rw [number] at positive
  rw [mirror.isOneOf (by decide)] at outcome
  apply require_bind_returns positive
  apply require_bind_returns outcome
  apply bind_returns passed
  apply bind_returns reached
  rw [version_mirror roots, mirror.has _ (by decide)] at later
  rw [← compare_mirror mirror steps (by decide) node]
  split at later
  · rename_i required
    obtain ⟨tier, later⟩ := require_bind_ok.mp later
    obtain ⟨same, _⟩ := require_bind_ok.mp later
    rw [mirror.isText (by decide)] at tier
    rw [if_pos required]
    exact require_bind_returns tier (require_bind_returns same ⟨_, rfl⟩)
  · rename_i free
    obtain ⟨same, _⟩ := require_bind_ok.mp later
    rw [if_neg free]
    exact require_bind_returns same ⟨_, rfl⟩

/-- A span passes when its mirror passes. -/
theorem querySpan_mirror (mirrored : Mirrored spans others) (mirror : Mirror first second)
    (number : isPositive (first.attributes.get? "cord.step.attempt") =
      isPositive (second.attributes.get? "cord.step.attempt")) {value : Option (String × String)}
    (done : querySpan spans reference first = .ok value) : ∃ other, querySpan others reference second = .ok other := by
  obtain ⟨kind, known, later⟩ := bind_ok.mp done
  apply bind_returns (mirror.role.symm.trans known)
  cases kind with
  | none => exact ⟨_, rfl⟩
  | some kind =>
      obtain ⟨texts, later⟩ := require_bind_ok.mp later
      have same : (identity.all fun key => isText (first.attributes.get? key)) =
          identity.all fun key => isText (second.attributes.get? key) := by
        rw [Bool.eq_iff_iff, List.all_eq_true, List.all_eq_true]
        apply forall₂_congr
        intro key member
        rw [mirror.isText (cord_identity member)]
      apply require_bind_returns (same.symm.trans texts)
      cases kind with
      | run =>
          obtain ⟨alone, later⟩ := require_bind_ok.mp later
          obtain ⟨supported, _⟩ := require_bind_ok.mp later
          rw [mirror.root] at alone
          rw [version_mirror mirror] at supported
          exact require_bind_returns alone (require_bind_returns supported ⟨_, rfl⟩)
      | step =>
          obtain ⟨node, later⟩ := require_bind_ok.mp later
          obtain ⟨_, checked, _⟩ := bind_ok.mp later
          have passed := queryStep_mirror mirrored mirror texts checked
          rw [mirror.isText (by decide)] at node
          exact require_bind_returns node (bind_returns passed ⟨_, rfl⟩)
      | attempt =>
          obtain ⟨node, later⟩ := require_bind_ok.mp later
          have passed := queryAttempt_mirror mirrored mirror texts node number later
          rw [mirror.isText (by decide)] at node
          exact require_bind_returns node passed

theorem Mirror.escalated (mirror : Mirror first second) (low high : Int) (graph node : String) :
    first.escalated low high graph node = second.escalated low high graph node := by
  unfold Span.escalated
  rw [mirror.role, mirror.finish, mirror.isOneOf (by decide), mirror.isOneOf (by decide), mirror.isOneOf (by decide)]

theorem escalated_mirror (mirrored : Mirrored spans others) (low high : Int) (graph node : String) :
    escalated spans low high graph node = escalated others low high graph node := by
  ext key
  rw [mem_escalated, mem_escalated]
  have rel := mirrored key
  generalize spans.entries.get? key = one at rel ⊢
  generalize others.entries.get? key = two at rel ⊢
  cases rel with
  | none => simp
  | some mirror => simp [mirror.escalated]

/-- Mirrored maps that are accepted have the same rows. -/
theorem rows_mirror (mirrored : Mirrored spans others) {top : Int} {rows found : List Row}
    (done : querySpans spans reference top = .ok rows) (read : querySpans others reference top = .ok found) :
    rows = found := by
  have accepted := (querySpans_ok.mp ⟨rows, done⟩).2
  have admitted := (querySpans_ok.mp ⟨found, read⟩).2
  apply rows_perm _ done read
  apply List.perm_iff_count.mpr
  rintro ⟨graph, node⟩
  rw [count_escalations accepted, count_escalations admitted, escalated_mirror mirrored]

/-- The map is accepted with its mirror when the attempts have the same numbers. -/
theorem accepted_mirror (mirrored : Mirrored spans others)
    (numbers : ∀ key first second, spans.entries.get? key = some first → others.entries.get? key = some second →
      isPositive (first.span.attributes.get? "cord.step.attempt") =
        isPositive (second.span.attributes.get? "cord.step.attempt"))
    (accepted : Accepted spans reference) : Accepted others reference := by
  intro entry member
  obtain ⟨key, found⟩ := mem_values.mp member
  have rel := mirrored key
  rw [found] at rel
  generalize held : spans.entries.get? key = other at rel
  cases rel with
  | some mirror =>
      obtain ⟨value, checked⟩ := accepted _ (mem_values.mpr ⟨key, held⟩)
      exact querySpan_mirror mirrored mirror (numbers key _ _ held found) checked

theorem named_of_role {kind : Option Role} (known : Archive.role first = .ok kind) : first.named := by
  unfold Archive.role at known
  unfold Span.named
  cases given : first.name.getD (.str "") with
  | str name => exact ⟨name, rfl⟩
  | _ =>
      rw [given] at known
      cases known

theorem Accepted.named (accepted : Accepted spans reference) {key : String} {entry : Entry}
    (found : spans.entries.get? key = some entry) : entry.span.named := by
  obtain ⟨value, checked⟩ := accepted entry (mem_values.mpr ⟨key, found⟩)
  obtain ⟨kind, known, _⟩ := bind_ok.mp checked
  exact named_of_role known

/-- A check of each pair of entries relates two maps with the same identifiers. -/
theorem rel_of_all {related : Span → Span → Bool} (ids : sameIds spans others = true)
    (each : (spans.entries.items.all fun item =>
      (others.entries.get? item.1).any fun other => related item.2.span other.span) = true) (key : String) :
    Option.Rel (fun first second => related first.span second.span = true) (spans.entries.get? key)
      (others.entries.get? key) := by
  obtain ⟨_, back⟩ := Bool.and_eq_true_iff.mp ids
  cases found : spans.entries.get? key with
  | some entry =>
      have member := (Dict.get?_eq_some_iff _ _ _).mp found
      obtain ⟨other, looked, same⟩ := (Option.any_eq_true _ _).mp (List.all_eq_true.mp each _ member)
      rw [looked]
      exact .some same
  | none =>
      cases looked : others.entries.get? key with
      | none => exact .none
      | some other =>
          have known := List.all_eq_true.mp back key (Dict.mem_keys_of_get? looked)
          rw [found] at known
          cases known

end

/-- The name of a span is absent or a text that is not empty. -/
def Span.titled (span : Span) : Bool :=
  match span.name with
  | none => true
  | some (.str text) => text ≠ ""
  | some _ => false

theorem named_of_titled {span : Span} (titled : span.titled = true) : span.named := by
  unfold Span.titled at titled
  unfold Span.named
  generalize span.name = name at titled ⊢
  rcases name with _ | (_ | _ | _ | _ | text | _ | _)
  case none => exact ⟨"", rfl⟩
  case some.str => exact ⟨text, rfl⟩
  all_goals cases titled

/-- The archive contract reads nothing but the projection. -/
def Span.sameProjection (first second : Span) : Bool :=
  first.titled && second.titled && (projection first).identical (projection second)

/-- The same identifiers name spans with identical projections. -/
def SameProjection (spans others : SpanMap) : Prop :=
  ∀ key, Option.Rel (fun first second => first.span.sameProjection second.span = true) (spans.entries.get? key)
    (others.entries.get? key)

section
variable {spans others : SpanMap} {first second : Span}

theorem Span.sameProjection.mirror (same : first.sameProjection second = true) : Mirror first second := by
  simp only [Span.sameProjection, Bool.and_eq_true] at same
  obtain ⟨⟨titled, other⟩, identical⟩ := same
  exact mirror_of_projection (named_of_titled titled) (named_of_titled other) (Json.pyEq_of_identical _ _ identical)

theorem SameProjection.mirrored (same : SameProjection spans others) : Mirrored spans others := by
  intro key
  have rel := same key
  generalize spans.entries.get? key = one at rel ⊢
  generalize others.entries.get? key = two at rel ⊢
  cases rel with
  | none => exact .none
  | some held => exact .some (Span.sameProjection.mirror held)

theorem SameProjection.number (same : SameProjection spans others) (key : String) (one two : Entry)
    (found : spans.entries.get? key = some one) (looked : others.entries.get? key = some two) :
    isPositive (one.span.attributes.get? "cord.step.attempt") =
      isPositive (two.span.attributes.get? "cord.step.attempt") := by
  have rel := same key
  rw [found, looked] at rel
  cases rel with
  | some held =>
      have identical := (Bool.and_eq_true_iff.mp held).2
      exact number_of_projection (Span.sameProjection.mirror held) identical

/-- The fields of two accepted maps match only when the maps are mirrors. -/
theorem mirrored_of_fields {subjects : Dict String String} {reference : Int}
    (matched : sameFields spans others subjects = true) (accepted : Accepted spans reference)
    (admitted : Accepted others reference) : Mirrored spans others := by
  obtain ⟨ids, each⟩ := Bool.and_eq_true_iff.mp matched
  intro key
  have rel := @rel_of_all spans others
    (fun first second => (projection first).pyEq (projection second) && sameSubject first subjects) ids each key
  cases found : spans.entries.get? key <;> cases looked : others.entries.get? key <;> rw [found, looked] at rel <;>
    cases rel
  · exact .none
  · rename_i one two held
    have equal := (Bool.and_eq_true_iff.mp held).1
    exact .some (mirror_of_projection (accepted.named found) (admitted.named looked) equal)

end

/-- The query sees nothing of a span but its projection, and a match of the fields is a match of the counts. -/
theorem counts_of_projection (spans others : SpanMap) :
    (SameProjection spans others → ∀ reference top rows,
      querySpans spans reference top = .ok rows ↔ querySpans others reference top = .ok rows) ∧
    ∀ subjects reference top allExpected rows,
      querySpans spans reference spans.entries.keys.length = .ok allExpected →
      sameFields spans others subjects = true →
      querySpans others reference others.entries.keys.length = .ok rows →
      rows = allExpected ∧ compareSettled spans others subjects allExpected reference top =
        .ok ⟨.matched, allExpected.take top.toNat, some (allExpected.take top.toNat)⟩ := by
  constructor
  · intro same reference top rows
    have mirrored := same.mirrored
    have numbers := same.number
    constructor
    · intro done
      obtain ⟨positive, accepted⟩ := querySpans_ok.mp ⟨rows, done⟩
      obtain ⟨found, read⟩ := querySpans_ok.mpr ⟨positive, accepted_mirror mirrored numbers accepted⟩
      rw [read, rows_mirror mirrored done read]
    · intro done
      obtain ⟨positive, accepted⟩ := querySpans_ok.mp ⟨rows, done⟩
      have admitted := accepted_mirror mirrored.symm (fun key one two own other => (numbers key two one other own).symm)
        accepted
      obtain ⟨found, read⟩ := querySpans_ok.mpr ⟨positive, admitted⟩
      rw [read, rows_mirror mirrored read done]
  · intro subjects reference top allExpected rows done matched read
    have accepted := (querySpans_ok.mp ⟨allExpected, done⟩).2
    have admitted := (querySpans_ok.mp ⟨rows, read⟩).2
    have mirrored := mirrored_of_fields matched accepted admitted
    rw [mirrored.keys.length_eq] at done
    have same : rows = allExpected := (rows_mirror mirrored done read).symm
    refine ⟨same, ?_⟩
    rw [compareSettled, read, matched, same]
    simp

/-- The public copy of a span has no members of a vendor and no attributes outside the contract. -/
def enriched (span : Span) : Span :=
  { span with
    attributes := span.attributes.set "langfuse.observation.type" (.str "span")
    others := [("kind", .int 1)] }

/-- The escalated Attempts with the members that a vendor adds. -/
def enrichedArchive : SpanMap :=
  [enriched runSpan, enriched stepSpan, enriched (escalatedSpan "03" 7)].foldl insertSpan SpanMap.empty

def plainArchive : SpanMap := [runSpan, stepSpan, escalatedSpan "03" 7].foldl insertSpan SpanMap.empty

theorem counts_of_projection_enriched :
    querySpans enrichedArchive 7 10 = .ok [⟨"x", "a", 1⟩] ∧
    compareSettled plainArchive enrichedArchive (Dict.empty.set "t" "x") [⟨"x", "a", 1⟩] 7 10 =
      .ok ⟨.matched, [⟨"x", "a", 1⟩], some [⟨"x", "a", 1⟩]⟩ := by
  have done : querySpans plainArchive 7 10 = .ok [⟨"x", "a", 1⟩] := by decide +kernel
  have same : SameProjection plainArchive enrichedArchive := rel_of_all (by decide +kernel) (by decide +kernel)
  have counts := counts_of_projection plainArchive enrichedArchive
  constructor
  · exact (counts.1 same 7 10 _).mp done
  · exact (counts.2 (Dict.empty.set "t" "x") 7 10 [⟨"x", "a", 1⟩] [⟨"x", "a", 1⟩] (by decide +kernel) (by decide +kernel)
      (by decide +kernel)).2

end Archive

end Cordboard
