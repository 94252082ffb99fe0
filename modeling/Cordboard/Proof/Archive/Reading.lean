import Cordboard.Proof.Archive.Alike

namespace Cordboard.Archive
open Data

section Normalize
variable {value item : Json} {key : String}

theorem member_proper (proper : value.proper = true) (found : member value key = .ok item) : item.proper = true := by
  cases value with
  | obj members =>
      simp only [member] at found
      split at found
      · rename_i looked
        obtain rfl := Except.ok.inj found
        exact (Json.proper_obj.mp proper).2 _ _ (mem_of_lookup looked)
      · cases found
  | _ => cases found

theorem iterate_proper (proper : value.proper = true) {items : List Json} (found : iterate value = .ok items) :
    ∀ item ∈ items, item.proper = true := by
  cases value with
  | arr inside =>
      obtain rfl := Except.ok.inj found
      exact Json.proper_arr.mp proper
  | obj members =>
      obtain rfl := Except.ok.inj found
      intro item inside
      obtain ⟨_, _, rfl⟩ := List.mem_map.mp inside
      rfl
  | str text =>
      obtain rfl := Except.ok.inj found
      intro item inside
      obtain ⟨_, _, rfl⟩ := List.mem_map.mp inside
      rfl
  | _ => cases found

theorem onlyMember_proper (proper : value.proper = true) {kind : String} (found : onlyMember value = .ok (kind, item)) :
    item.proper = true := by
  unfold onlyMember at found
  split at found
  · obtain rfl := Except.ok.inj found
    exact (Json.proper_obj.mp proper).2 _ _ List.mem_cons_self
  · cases found
  · cases found
  · cases found
  · split at found <;> cases found
  · cases found

theorem integerAttribute_proper (found : integerAttribute value = .ok item) : item.proper = true := by
  unfold integerAttribute at found
  split at found
  · obtain rfl := Except.ok.inj found
    rfl
  · obtain ⟨number, _, later⟩ := bind_ok.mp found
    cases number with
    | none => cases later
    | some number =>
        obtain rfl := Except.ok.inj later
        rfl
  · cases found

theorem attributeValue_proper (proper : value.proper = true) {kind : String}
    (found : attributeValue kind value = .ok item) : item.proper = true := by
  unfold attributeValue at found
  split at found
  · exact integerAttribute_proper found
  · split at found
    · split at found
      · obtain rfl := Except.ok.inj found
        rfl
      · cases found
    · split at found
      · split at found
        · obtain rfl := Except.ok.inj found
          rfl
        · cases found
      · obtain rfl := Except.ok.inj found
        exact proper

/-- Every value of the dictionary is proper. -/
def ProperDict (dict : Dict String Json) : Prop := ∀ key value, dict.get? key = some value → value.proper = true

theorem properDict_iff {dict : Dict String Json} : (Json.obj dict.items).proper = true ↔ ProperDict dict := by
  rw [Json.proper_obj]
  constructor
  · rintro ⟨_, inside⟩ key value found
    exact inside key value ((Dict.get?_eq_some_iff _ _ _).mp found)
  · intro inside
    exact ⟨dict.distinct, fun key value stored => inside key value ((Dict.get?_eq_some_iff _ _ _).mpr stored)⟩

theorem readAttribute_proper {result next : Dict String Json} (proper : value.proper = true)
    (before : ProperDict result) (done : readAttribute result value = .ok next) : ProperDict next := by
  obtain ⟨key, _, later⟩ := bind_ok.mp done
  obtain ⟨content, found, later⟩ := bind_ok.mp later
  cases key with
  | str key =>
      obtain ⟨_, later⟩ := require_bind_ok.mp later
      obtain ⟨⟨kind, item⟩, only, later⟩ := bind_ok.mp later
      obtain ⟨stored, read, later⟩ := bind_ok.mp later
      obtain rfl := Except.ok.inj later
      intro other value looked
      rw [Dict.get?_set] at looked
      split at looked
      · obtain rfl := Option.some.inj looked
        exact attributeValue_proper (onlyMember_proper (member_proper proper found) only) read
      · exact before other value looked
  | _ => cases later

theorem foldlM_proper {attrs : List Json} {result next : Dict String Json}
    (proper : ∀ attr ∈ attrs, attr.proper = true) (before : ProperDict result)
    (done : attrs.foldlM readAttribute result = .ok next) : ProperDict next := by
  induction attrs generalizing result with
  | nil =>
      obtain rfl := Except.ok.inj done
      exact before
  | cons attr rest ih =>
      obtain ⟨own, others⟩ := List.forall_mem_cons.mp proper
      rw [List.foldlM_cons] at done
      obtain ⟨middle, read, later⟩ := bind_ok.mp done
      exact ih others (readAttribute_proper own before read) later

/-- A decoded span is normalized to a span with proper values. -/
theorem normalize_proper (proper : value.proper = true) {new : NamedSpan} (done : normalize value = .ok new) :
    new.span.Proper := by
  cases value with
  | obj members =>
      obtain ⟨once, inside⟩ := Json.proper_obj.mp proper
      have lookups : ∀ {name found}, members.lookup name = some found → found.proper = true :=
        fun looked => inside _ _ (mem_of_lookup looked)
      obtain ⟨_, _, later⟩ := bind_ok.mp done
      obtain ⟨_, _, later⟩ := bind_ok.mp later
      obtain ⟨_, _, later⟩ := bind_ok.mp later
      obtain ⟨_, _, later⟩ := bind_ok.mp later
      obtain ⟨above, parent, later⟩ := bind_ok.mp later
      obtain ⟨attrs, read, later⟩ := bind_ok.mp later
      obtain ⟨_, _, later⟩ := bind_ok.mp later
      obtain ⟨_, _, later⟩ := bind_ok.mp later
      obtain ⟨_, _, later⟩ := bind_ok.mp later
      obtain ⟨_, _, later⟩ := bind_ok.mp later
      obtain ⟨_, later⟩ := require_bind_ok.mp later
      obtain rfl := Except.ok.inj later
      refine ⟨?_, fun found looked => lookups looked, ?_, ?_⟩
      · intro found same
        obtain rfl : above = some found := same
        unfold parentReference at parent
        split at parent
        · cases parent
        · rename_i looked
          split at parent
          · obtain ⟨_, _, later⟩ := bind_ok.mp parent
            obtain rfl := Option.some.inj (Except.ok.inj later)
            rfl
          · obtain rfl := Option.some.inj (Except.ok.inj parent)
            exact lookups looked
      · obtain ⟨items, iterated, later⟩ := bind_ok.mp read
        have source : ((members.lookup "attributes").getD (.arr [])).proper = true := by
          cases looked : members.lookup "attributes" with
          | none => rfl
          | some found => exact lookups looked
        exact properDict_iff.mpr (foldlM_proper (iterate_proper source iterated) (fun _ _ found => by cases found) later)
      · apply Json.proper_obj.mpr
        refine ⟨once.sublist (List.filter_sublist.map Prod.fst), fun name found stored => ?_⟩
        exact inside name found (List.mem_of_mem_filter stored)
  | _ => cases done

end Normalize

end Cordboard.Archive
