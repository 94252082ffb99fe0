import Cordboard.Construction.Archive.Check
import Mathlib.Data.List.Infix

namespace Cordboard.ArchiveCheck
open Archive (ReadFailure Stream decodeUtf8)

/-- The first text stands somewhere in the second one. -/
def Within (text whole : String) : Prop := text.toList <:+: whole.toList

section
variable {text first second whole : String} {texts : List String}

theorem within_append_left (within : Within text first) : Within text (first ++ second) := by
  unfold Within at within ⊢
  rw [String.toList_append]
  exact within.trans (List.prefix_append _ _).isInfix

theorem within_append_right (within : Within text second) : Within text (first ++ second) := by
  unfold Within at within ⊢
  rw [String.toList_append]
  exact within.trans (List.suffix_append _ _).isInfix

/-- Each piece stands in the joined text. -/
theorem within_intercalate (member : text ∈ texts) : Within text (whole.intercalate texts) := by
  induction texts with
  | nil => cases member
  | cons piece rest ih =>
      have own : Within piece (whole.intercalate (piece :: rest)) := by
        by_cases last : rest = []
        · rw [last, String.intercalate_singleton]
          exact List.infix_rfl
        · rw [String.intercalate_cons_of_ne_nil last]
          exact within_append_left (within_append_left List.infix_rfl)
      rcases List.mem_cons.mp member with rfl | later
      · exact own
      · rw [String.intercalate_cons_of_ne_nil (List.ne_nil_of_mem later)]
        exact within_append_right (ih later)

end

section
variable (decoder : Decoder)

/-- A record carries its string leaves, its keys, and its decoded bytes at any depth. -/
inductive Carries : Json → String → Prop
  | leaf {text : String} : Carries (.str text) text
  | item {items : List Json} {item : Json} {text : String} (member : item ∈ items) (inside : Carries item text) :
      Carries (.arr items) text
  | key {members : List (String × Json)} {key : String} {value : Json} (member : (key, value) ∈ members) :
      Carries (.obj members) key
  | bytes {members : List (String × Json)} {value : Json} {text : String} (member : ("bytesValue", value) ∈ members)
      (decoded : bytesText decoder value = some text) : Carries (.obj members) text
  | value {members : List (String × Json)} {key : String} {value : Json} {text : String}
      (member : (key, value) ∈ members) (other : key ≠ "bytesValue") (inside : Carries value text) :
      Carries (.obj members) text

/-- A value under `bytesValue` does not decode, at any depth. -/
inductive Undecodable : Json → Prop
  | item {items : List Json} {item : Json} (member : item ∈ items) (inside : Undecodable item) :
      Undecodable (.arr items)
  | bytes {members : List (String × Json)} {value : Json} (member : ("bytesValue", value) ∈ members)
      (fails : bytesText decoder value = none) : Undecodable (.obj members)
  | value {members : List (String × Json)} {key : String} {value : Json} (member : (key, value) ∈ members)
      (other : key ≠ "bytesValue") (inside : Undecodable value) : Undecodable (.obj members)

/-- These are the texts of one member without its key. -/
def memberTexts (member : String × Json) : Option (List String) :=
  if member.1 = "bytesValue" then (bytesText decoder member.2).map fun text => [text] else strings decoder member.2

end

section
variable {decoder : Decoder} {value item : Json} {items : List Json} {member : String × Json}
  {members : List (String × Json)} {key text : String} {texts : List String}

theorem stringsItems_cons : stringsItems decoder (item :: items) =
    (strings decoder item).bind fun texts => (stringsItems decoder items).map fun others => texts ++ others := by
  rw [stringsItems]
  cases strings decoder item <;> cases stringsItems decoder items <;> rfl

theorem stringsMembers_cons : stringsMembers decoder (member :: members) =
    (memberTexts decoder member).bind fun texts =>
      (stringsMembers decoder members).map fun others => member.1 :: (texts ++ others) := by
  rw [stringsMembers, memberTexts]
  split <;> cases stringsMembers decoder members <;> rfl

/-- The texts of each item are among the texts of the list. -/
theorem item_texts (done : stringsItems decoder items = some texts) (inside : item ∈ items) :
    ∃ own, strings decoder item = some own ∧ own ⊆ texts := by
  induction items generalizing texts with
  | nil => cases inside
  | cons first rest ih =>
      rw [stringsItems_cons] at done
      obtain ⟨own, read, done⟩ := Option.bind_eq_some_iff.mp done
      obtain ⟨others, later, rfl⟩ := Option.map_eq_some_iff.mp done
      rcases List.mem_cons.mp inside with rfl | further
      · exact ⟨own, read, List.subset_append_left _ _⟩
      · obtain ⟨found, own_, among⟩ := ih later further
        exact ⟨found, own_, List.subset_append_of_subset_right _ among⟩

/-- The key of each member and its texts are among the texts of the object. -/
theorem member_texts (done : stringsMembers decoder members = some texts) (inside : member ∈ members) :
    ∃ own, memberTexts decoder member = some own ∧ member.1 :: own ⊆ texts := by
  induction members generalizing texts with
  | nil => cases inside
  | cons first rest ih =>
      rw [stringsMembers_cons] at done
      obtain ⟨own, read, done⟩ := Option.bind_eq_some_iff.mp done
      obtain ⟨others, later, rfl⟩ := Option.map_eq_some_iff.mp done
      rcases List.mem_cons.mp inside with rfl | further
      · exact ⟨own, read, List.cons_subset_cons _ (List.subset_append_left _ _)⟩
      · obtain ⟨found, own_, among⟩ := ih later further
        refine ⟨found, own_, ?_⟩
        exact List.subset_cons_of_subset _ (List.subset_append_of_subset_right _ among)

/-- The generator yields each text that the value carries. -/
theorem strings_complete (carries : Carries decoder value text) (done : strings decoder value = some texts) :
    text ∈ texts := by
  induction carries generalizing texts with
  | leaf =>
      obtain rfl := Option.some.inj done
      exact List.mem_singleton_self _
  | item inside _ ih =>
      obtain ⟨own, read, among⟩ := item_texts done inside
      exact among (ih read)
  | key inside =>
      obtain ⟨own, _, among⟩ := member_texts done inside
      exact among List.mem_cons_self
  | bytes inside decoded =>
      obtain ⟨own, read, among⟩ := member_texts done inside
      rw [memberTexts, if_pos rfl, decoded] at read
      obtain rfl := Option.some.inj read
      exact among (List.mem_cons_of_mem _ (List.mem_singleton_self _))
  | value inside other _ ih =>
      obtain ⟨own, read, among⟩ := member_texts done inside
      rw [memberTexts, if_neg other] at read
      exact among (List.mem_cons_of_mem _ (ih read))

/-- Bytes that do not decode end the generator. -/
theorem strings_none (bad : Undecodable decoder value) : strings decoder value = none := by
  apply Option.eq_none_iff_forall_ne_some.mpr
  intro texts done
  induction bad generalizing texts with
  | item inside _ ih =>
      obtain ⟨own, read, _⟩ := item_texts done inside
      exact ih own read
  | bytes inside fails =>
      obtain ⟨own, read, _⟩ := member_texts done inside
      rw [memberTexts, if_pos rfl, fails] at read
      cases read
  | value inside other _ ih =>
      obtain ⟨own, read, _⟩ := member_texts done inside
      rw [memberTexts, if_neg other] at read
      exact ih own read

mutual

/-- Nothing else ends the generator. -/
theorem undecodable_of_none : ∀ value : Json, strings decoder value = none → Undecodable decoder value
  | .arr items, fails => by
      obtain ⟨item, member, bad⟩ := undecodable_item items fails
      exact .item member bad
  | .obj members, fails => undecodable_member members fails
  | .str _, fails => by cases fails
  | .null, fails => by cases fails
  | .bool _, fails => by cases fails
  | .int _, fails => by cases fails
  | .float _, fails => by cases fails

theorem undecodable_item : ∀ items : List Json, stringsItems decoder items = none →
    ∃ item ∈ items, Undecodable decoder item
  | [], fails => by cases fails
  | item :: rest, fails => by
      cases own : strings decoder item with
      | none => exact ⟨item, List.mem_cons_self, undecodable_of_none item own⟩
      | some texts =>
          have later : stringsItems decoder rest = none := by simpa [stringsItems_cons, own] using fails
          obtain ⟨other, member, bad⟩ := undecodable_item rest later
          exact ⟨other, List.mem_cons_of_mem _ member, bad⟩

theorem undecodable_member : ∀ members : List (String × Json), stringsMembers decoder members = none →
    Undecodable decoder (.obj members)
  | [], fails => by cases fails
  | (key, value) :: rest, fails => by
      cases own : memberTexts decoder (key, value) with
      | none =>
          unfold memberTexts at own
          by_cases bytes : key = "bytesValue"
          · rw [if_pos bytes] at own
            exact .bytes (bytes ▸ List.mem_cons_self) (Option.map_eq_none_iff.mp own)
          · rw [if_neg bytes] at own
            exact .value List.mem_cons_self bytes (undecodable_of_none value own)
      | some texts =>
          have later : stringsMembers decoder rest = none := by simpa [stringsMembers_cons, own] using fails
          -- The members after the first one are members of the object as well.
          cases undecodable_member rest later with
          | bytes member fails => exact .bytes (List.mem_cons_of_mem _ member) fails
          | value member other inside => exact .value (List.mem_cons_of_mem _ member) other inside

end

/-- The generator ends early on just the values with undecodable bytes. -/
theorem strings_none_iff : strings decoder value = none ↔ Undecodable decoder value :=
  ⟨undecodable_of_none value, strings_none⟩

end

end Cordboard.ArchiveCheck
