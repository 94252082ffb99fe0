import Mathlib.Data.List.Forall2

namespace Data

variable {A B F : Type}

/-- A value of two checks is a value of each of them. -/
theorem bind_ok {first : Except F A} {rest : A → Except F B} {value : B} :
    (first >>= rest) = .ok value ↔ ∃ middle, first = .ok middle ∧ rest middle = .ok value := by
  cases first with
  | error failure =>
      constructor
      · intro same
        cases same
      · rintro ⟨middle, same, _⟩
        cases same
  | ok middle =>
      constructor
      · exact fun same => ⟨middle, rfl, same⟩
      · rintro ⟨other, same, rest⟩
        obtain rfl := Except.ok.inj same
        exact rest

/-- A value is a value of a check that raised nothing. -/
theorem toOption_ok {outcome : Except F A} {value : A} : outcome.toOption = some value ↔ outcome = .ok value := by
  cases outcome <;> simp [Except.toOption]

/-- A property that each step keeps holds at the end of a loop of checks. -/
theorem foldlM_keeps {step : B → A → Except F B} {holds : B → Prop}
    (kept : ∀ state item next, holds state → step state item = .ok next → holds next) {items : List A} {start final : B}
    (held : holds start) (done : items.foldlM step start = .ok final) : holds final := by
  induction items generalizing start with
  | nil =>
      obtain rfl := Except.ok.inj done
      exact held
  | cons item rest ih =>
      rw [List.foldlM_cons] at done
      obtain ⟨middle, first, done⟩ := bind_ok.mp done
      exact ih (kept start item middle held first) done

/-- A check that accepts each item gives the value of each item. -/
theorem mapM_ok {check : A → Except F B} {value : A → B} {items : List A}
    (each : ∀ item ∈ items, check item = .ok (value item)) : items.mapM check = .ok (items.map value) := by
  induction items with
  | nil => rfl
  | cons item rest ih =>
      obtain ⟨own, others⟩ := List.forall_mem_cons.mp each
      rw [List.mapM_cons, own, ih others]
      rfl

/-- A check that accepts each item gives values that are related to the items. -/
theorem mapM_forall₂ {check : A → Except F B} {items : List A} {relates : B → A → Prop}
    (each : ∀ item ∈ items, ∃ value, check item = .ok value ∧ relates value item) :
    ∃ values, items.mapM check = .ok values ∧ List.Forall₂ relates values items := by
  induction items with
  | nil => exact ⟨[], rfl, .nil⟩
  | cons item rest ih =>
      obtain ⟨own, others⟩ := List.forall_mem_cons.mp each
      obtain ⟨value, first, related⟩ := own
      obtain ⟨values, later, all⟩ := ih others
      refine ⟨value :: values, ?_, .cons related all⟩
      rw [List.mapM_cons, first, later]
      rfl

/-- The mapped values come from the items one by one. -/
theorem forall₂_of_mapM {check : A → Except F B} {items : List A} {values : List B}
    (mapped : items.mapM check = .ok values) : List.Forall₂ (fun value item => check item = .ok value) values items := by
  induction items generalizing values with
  | nil =>
      obtain rfl := Except.ok.inj mapped
      exact .nil
  | cons item items ih =>
      rw [List.mapM_cons] at mapped
      obtain ⟨head, first, mapped⟩ := bind_ok.mp mapped
      obtain ⟨tail, rest, mapped⟩ := bind_ok.mp mapped
      obtain rfl := Except.ok.inj mapped
      exact .cons first (ih rest)

/-- The values name the items that they come from. -/
theorem map_eq_of_mapM {check : A → Except F B} {items : List A} {values : List B} {name : B → A}
    (mapped : items.mapM check = .ok values) (keeps : ∀ item value, check item = .ok value → name value = item) :
    values.map name = items := by
  have related := forall₂_of_mapM mapped
  clear mapped
  induction related with
  | nil => rfl
  | cons first _ ih => rw [List.map_cons, keeps _ _ first, ih]

/-- A member of the first list is related to a member of the second one. -/
theorem exists_item {relates : B → A → Prop} {values : List B} {items : List A}
    (related : List.Forall₂ relates values items) {value : B} (member : value ∈ values) :
    ∃ item ∈ items, relates value item := by
  induction related with
  | nil => cases member
  | cons first _ ih =>
      rcases List.mem_cons.mp member with rfl | later
      · exact ⟨_, List.mem_cons_self, first⟩
      · obtain ⟨item, inside, own⟩ := ih later
        exact ⟨item, List.mem_cons_of_mem _ inside, own⟩

/-- A member of the second list is related to a member of the first one. -/
theorem exists_value {relates : B → A → Prop} {values : List B} {items : List A}
    (related : List.Forall₂ relates values items) {item : A} (member : item ∈ items) :
    ∃ value ∈ values, relates value item :=
  exists_item (List.Forall₂.flip related) member

/-- Each mapped value comes from an item of the list. -/
theorem exists_of_mem_mapM {check : A → Except F B} {items : List A} {values : List B}
    (mapped : items.mapM check = .ok values) {value : B} (member : value ∈ values) :
    ∃ item ∈ items, check item = .ok value := exists_item (forall₂_of_mapM mapped) member

end Data
