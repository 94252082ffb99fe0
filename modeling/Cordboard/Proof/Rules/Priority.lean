import Cordboard.Data.Keyed
import Cordboard.Proof.Primitives
import Cordboard.Proof.Script
import Cordboard.Proof.Rules.SelfLoop

namespace Cordboard.Rules
open Data Effects

/-- A request declares a Rule and may ask to replace the Rule of its name. -/
structure Addition where
  declared : Declared
  replace : Bool

/-- The accepted Rules, in order. A Rule of a known name is accepted on request only. -/
def accept (past : List Rule) (addition : Addition) : List Rule :=
  match validateRule addition.declared with
  | .error _ => past
  | .ok rule => if addition.replace || !(past.map Rule.name).contains rule.name then past ++ [rule] else past

def accepted (additions : List Addition) : List Rule := additions.foldl accept []

/-- The additions run one after the other. Anything else may happen between them, except to the file of the Rules. -/
inductive Added : Board → List Addition → Board → Prop
  | done (board : Board) : Added board [] board
  | other {before middle final : Board} {additions : List Addition} (kept : middle .rules = before .rules)
      (rest : Added middle additions final) : Added before additions final
  | add {before middle final : Board} {addition : Addition} {additions : List Addition} {trace : List signature.Event}
      {outcome : Except Exc Unit}
      (run : Runs boardMachine (addRule addition.declared addition.replace).toProgram before trace outcome middle)
      (rest : Added middle additions final) : Added before (addition :: additions) final

/-- The Rules of an accepted log, with sorted members. -/
def stored (log : List Rule) : List Rule := (ranked Rule.name log).map sorted

theorem sorted_idem (rule : Rule) : sorted (sorted rule) = sorted rule := by
  have again {V : Type} (members : List (String × V)) : sortMembers (sortMembers members) = sortMembers members :=
    (List.pairwise_insertionSort _ members).insertionSort_eq
  simp only [sorted, again]

theorem stored_snoc (log : List Rule) (rule : Rule) :
    stored (log ++ [rule]) = (upsert Rule.name (stored log) rule).map sorted := by
  have normal := @map_upsert_normal _ _ _ Rule.name sorted (fun rule => rfl) sorted_idem (ranked Rule.name log) rule
  rw [stored, stored, normal, ← foldl_upsert, ← foldl_upsert, List.foldl_append]
  rfl

theorem name_mem_stored {log : List Rule} {name : String} :
    name ∈ (stored log).map Rule.name ↔ name ∈ log.map Rule.name := by
  have same : (stored log).map Rule.name = (ranked Rule.name log).map Rule.name := by
    rw [stored, List.map_map]
    rfl
  have holds : Holds Rule.name log _ := holds_ranked log
  rw [same, holds.names, List.mem_eraseDups]

/-- One addition on a readable file appends its Rule to the log, or leaves the file as it was. -/
theorem addRule_stored {board after : Board} {addition : Addition} {trace : List signature.Event}
    {outcome : Except Exc Unit} {log : List Rule} (readable : decode .rules (board .rules) = .ok (stored log))
    (run : Runs boardMachine (addRule addition.declared addition.replace).toProgram board trace outcome after) :
    decode .rules (after .rules) = .ok (stored (accept log addition)) := by
  have pre : Fallible.wp boardMachine (addRule addition.declared addition.replace)
      (fun _ _ final => decode .rules (final .rules) = .ok (stored (accept log addition))) board := by
    cases validated : validateRule addition.declared with
    | error exc =>
        have kept : accept log addition = log := by rw [accept, validated]
        rw [kept]
        simpa [addRule, validated] using readable
    | ok rule =>
        simp only [addRule, validated, Fallible.wp_bind, Fallible.wp_ofExcept, Fallible.after_ok, loadRules, wp_load,
          boardMachine_guard, boardMachine_read, true_and]
        rintro file middle ⟨rfl, rfl⟩
        rw [readable, Fallible.after_ok]
        split
        · rename_i index found
          have known : (log.map Rule.name).contains rule.name = true := by
            obtain ⟨inside, same, _⟩ := List.findIdx?_eq_some_iff_getElem.mp found
            rw [List.contains_iff_mem, ← name_mem_stored]
            exact List.mem_map.mpr ⟨_, List.getElem_mem inside, of_decide_eq_true same⟩
          have put : upsert Rule.name (stored log) rule = (stored log).set index rule := by rw [upsert, found]
          rw [Fallible.wp_ite]
          cases asked : addition.replace with
          | true =>
              have taken : accept log addition = log ++ [rule] := by simp [accept, validated, asked]
              rw [if_pos rfl, taken, stored_snoc, put]
              simp [Store.sorted, decode]
          | false =>
              have kept : accept log addition = log := by
                simp only [accept, validated, asked, known, Bool.not_true, Bool.or_self, Bool.false_eq_true, if_false]
              rw [if_neg Bool.false_ne_true, kept]
              exact readable
        · rename_i absent
          have fresh : (log.map Rule.name).contains rule.name = false := by
            rw [List.findIdx?_eq_none_iff] at absent
            rw [← Bool.not_eq_true, List.contains_iff_mem, ← name_mem_stored]
            intro member
            obtain ⟨held, inside, same⟩ := List.mem_map.mp member
            exact of_decide_eq_false (absent held inside) same
          have put : upsert Rule.name (stored log) rule = stored log ++ [rule] := by rw [upsert, absent]
          have taken : accept log addition = log ++ [rule] := by
            simp only [accept, validated, fresh, Bool.not_false, Bool.or_true, if_true]
          rw [taken, stored_snoc, put]
          simp [Store.sorted, decode]
  exact Fallible.wp_runs pre run

/-- The order of the members does not decide whether a Rule applies. -/
theorem matchesSignal_sorted (rule : Rule) (signal : Signal) :
    Router.matchesSignal (sorted rule) signal = Router.matchesSignal rule signal := by
  have all_sorted {V : Type} (members : List (String × V)) (keep : String × V → Bool) :
      (sortMembers members).all keep = members.all keep := (List.perm_insertionSort _ members).all_eq
  unfold Router.matchesSignal sorted
  by_cases cascades : rule.signalType = .runFinished
  · simp only [cascades, if_true, all_sorted]
  · simp only [cascades, if_false, all_sorted]

/-- The first Rule that applies is found name by name. -/
theorem head_stored (log : List Rule) (signal : Signal) :
    ((stored log).filter fun rule => Router.matchesSignal rule signal).head? =
      (log.map Rule.name).eraseDups.findSome? fun name =>
        ((latest Rule.name log name).filter fun rule => Router.matchesSignal rule signal).map sorted := by
  rw [List.head?_filter, stored, ranked]
  induction (log.map Rule.name).eraseDups with
  | nil => rfl
  | cons name names ih =>
      rw [List.findSome?_cons, ← ih, List.filterMap_cons]
      cases found : latest Rule.name log name with
      | none => simp
      | some rule =>
          rw [List.map_cons, List.find?_cons, matchesSignal_sorted]
          cases applies : Router.matchesSignal rule signal <;> simp [Option.filter, applies]

theorem mem_accept {past : List Rule} {addition : Addition} {rule : Rule} (member : rule ∈ accept past addition) :
    rule ∈ past ∨ validateRule addition.declared = .ok rule := by
  unfold accept at member
  split at member
  · exact .inl member
  · rename_i accepted
    split at member
    · rcases List.mem_append.mp member with old | new
      · exact .inl old
      · rw [List.mem_singleton.mp new]
        exact .inr accepted
    · exact .inl member

/-- Each accepted Rule comes from one of the additions. -/
theorem exists_addition {additions : List Addition} {past : List Rule} {rule : Rule}
    (member : rule ∈ additions.foldl accept past) :
    rule ∈ past ∨ ∃ addition ∈ additions, validateRule addition.declared = .ok rule := by
  induction additions generalizing past with
  | nil => exact .inl member
  | cons addition rest ih =>
      rcases ih member with here | ⟨other, inside, accepted⟩
      · rcases mem_accept here with old | accepted
        · exact .inl old
        · exact .inr ⟨addition, List.mem_cons_self, accepted⟩
      · exact .inr ⟨other, List.mem_cons_of_mem _ inside, accepted⟩

/-- The additions of a run are logged in order. -/
theorem added_stored {before after : Board} {additions : List Addition} {log : List Rule}
    (readable : decode .rules (before .rules) = .ok (stored log)) (added : Added before additions after) :
    decode .rules (after .rules) = .ok (stored (additions.foldl accept log)) := by
  induction added generalizing log with
  | done board => exact readable
  | other kept rest ih => exact ih (kept ▸ readable)
  | add run rest ih => exact ih (addRule_stored readable run)

/-- A stored Rule is the last one of its name. -/
theorem mem_stored {log : List Rule} {rule : Rule} (member : rule ∈ stored log) :
    ∃ given ∈ log, latest Rule.name log rule.name = some given ∧ rule = sorted given := by
  have holds : Holds Rule.name log _ := holds_ranked log
  obtain ⟨given, held, rfl⟩ := List.mem_map.mp member
  have last := holds.last given held
  obtain ⟨other, inside, same⟩ := List.exists_of_findSome?_eq_some last
  split at same
  · obtain rfl := Option.some.inj same
    exact ⟨other, List.mem_reverse.mp inside, last, rfl⟩
  · cases same

/-- After any additions, accepted or refused, each name has one Rule, which is the last accepted one of that name and
passed its validation. A Signal goes to the first accepted name whose last accepted Rule applies, so a replacement keeps
the priority of its name. -/
theorem routing_priority {before after : Board} {additions : List Addition} (missing : before .rules = .missing)
    (added : Added before additions after) :
    ∃ rules, decode .rules (after .rules) = .ok rules ∧
      rules.map Rule.name = ((accepted additions).map Rule.name).eraseDups ∧
      (∀ rule ∈ rules, ∃ given, latest Rule.name (accepted additions) rule.name = some given ∧ rule = sorted given ∧
        ∃ addition ∈ additions, validateRule addition.declared = .ok given) ∧
      ∀ signal, (rules.filter fun rule => Router.matchesSignal rule signal).head? =
        ((accepted additions).map Rule.name).eraseDups.findSome? fun name =>
          ((latest Rule.name (accepted additions) name).filter fun rule => Router.matchesSignal rule signal).map
            sorted := by
  have empty : decode .rules (before .rules) = .ok (stored []) := by
    rw [missing]
    rfl
  have holds : Holds Rule.name (accepted additions) _ := holds_ranked (accepted additions)
  refine ⟨stored (accepted additions), added_stored empty added, ?_, ?_, head_stored (accepted additions)⟩
  · rw [← holds.names, stored, List.map_map]
    rfl
  · intro rule member
    obtain ⟨given, inside, last, same⟩ := mem_stored member
    refine ⟨given, last, same, ?_⟩
    rcases exists_addition inside with absurd | found
    · cases absurd
    · exact found

/-- Each request declares a Rule of this name for manual Signals of this kind. -/
def manualRule (name kind : String) (replace : Bool) : Addition :=
  ⟨[("name", .str name), ("signal_type", .str "manual"), ("connection", .str "local"), ("assistant", .str "graph"),
    ("subject", .str "ticket"), ("match", .obj [("kind", .str kind)])], replace⟩

/-- The second Rule of a name is refused, the third one replaces the first one, and its name keeps its place. -/
theorem routing_priority_replaced :
    ∃ after, Added (fun _ => .missing) [manualRule "alert" "low" false, manualRule "digest" "low" false,
        manualRule "alert" "low" false, manualRule "alert" "high" true] after ∧
      ∃ rules, decode .rules (after .rules) = .ok rules ∧ rules.map Rule.name = ["alert", "digest"] := by
  have run (board : Board) (addition : Addition) := calm.exec_runs (addRule addition.declared addition.replace) board
  have added := Added.add (run (fun _ => .missing) (manualRule "alert" "low" false))
    (.add (run _ (manualRule "digest" "low" false)) (.add (run _ (manualRule "alert" "low" false))
      (.add (run _ (manualRule "alert" "high" true)) (.done _))))
  obtain ⟨rules, read, names, _⟩ := routing_priority rfl added
  exact ⟨_, added, rules, read, names.trans (by decide)⟩

end Cordboard.Rules
