import Cordboard.Proof.Archive.Holding
import Cordboard.Proof.Archive.Rows

namespace Cordboard.Archive
open Data

/-- The read of files whose lines are all JSON texts. -/
def readLayout (input : List (List Json)) : Checked SpanMap := readSpans (input.map fun records => records.map .ok)

def isObject : Json → Bool
  | .obj _ => true
  | _ => false

/-- The key of an attribute is a text when there is one. -/
def hasTextKey (attr : Json) : Bool :=
  match member attr "key" with
  | .ok key => key.text?.isSome
  | .error _ => true

/-- A span of an OTLP file is an object with distinct members, and its attributes have text keys. -/
structure WellFormed (value : Json) : Prop where
  object : isObject value = true
  proper : value.proper = true
  keys : (listed value "attributes").all hasTextKey = true

/-- The input spreads these spans over its files, and each of them may come again. -/
structure Layout (values : List Json) (input : List (List Json)) : Prop where
  files : ∀ records ∈ input, records ≠ []
  records : ∀ records ∈ input, ∀ record ∈ records, Envelope record
  same : ∀ value, value ∈ input.flatMap fileSpans ↔ value ∈ values

/-- The query of the input raises `ArchiveError`. -/
def Rejected (input : List (List Json)) : Prop :=
  ∀ reference top, ∃ reason, (do querySpans (← readLayout input) reference top) = .error (.archive reason)

/-- The same identifiers name equal spans. -/
def SameMap (spans others : SpanMap) : Prop :=
  ∀ key, Option.Rel (fun first second => first.span.pyEq second.span = true) (spans.entries.get? key)
    (others.entries.get? key)

/-- Both inputs are rejected, or both give the same map and the same rows. -/
def Agreeing (first second : List (List Json)) : Prop :=
  (Rejected first ∧ Rejected second) ∨
  ∃ spans others, readLayout first = .ok spans ∧ readLayout second = .ok others ∧ SameMap spans others ∧
    ∀ reference top, 0 < top →
      ∃ rows, querySpans spans reference top = .ok rows ∧ querySpans others reference top = .ok rows

/-- The layout of these spans does not matter. -/
def Insensitive (values : List Json) : Prop :=
  ∀ first second, Layout values first → Layout values second → Agreeing first second

/-- Spans with one identifier that are equal for Python have equally typed attempt numbers. -/
structure Uniform (values : List Json) : Prop where
  numbers : ∀ value ∈ values, ∀ other ∈ values, ∀ new old, normalize value = .ok new → normalize other = .ok old →
    new.span.pyEq old.span = true → isPositive (new.span.attributes.get? "cord.step.attempt") =
      isPositive (old.span.attributes.get? "cord.step.attempt")
  references : ∀ value ∈ values, ∀ new kind, normalize value = .ok new → role new.span = .ok (some kind) →
    kind ≠ .run → hashable new.span.parentRef = true

section Errors

theorem tame_located {A : Type} (file line : Nat) (outcome : Checked A) : Tame (located file line outcome) := by
  cases outcome with
  | ok value => exact tame_ok value
  | error failure => cases failure <;> exact tame_archive _

theorem tame_readLines (file : Nat) (lines : List (Checked Json)) :
    ∀ line spans, Tame (readLines file line lines spans) := by
  induction lines with
  | nil =>
      intro line spans
      apply (tame_located _ _ _).bind
      intro _ _
      exact tame_ok spans
  | cons loaded rest ih =>
      intro line spans
      apply (tame_located _ _ _).bind
      intro next _
      exact ih _ next

theorem tame_readFiles (files : List (List (Checked Json))) : ∀ file spans, Tame (readFiles file files spans) := by
  induction files with
  | nil => exact fun _ spans => tame_ok spans
  | cons lines rest ih =>
      intro file spans
      apply (tame_readLines file lines 0 spans).bind
      intro next _
      exact ih _ next

/-- Reading raises nothing but `ArchiveError`. -/
theorem tame_readSpans (files : List (List (Checked Json))) : Tame (readSpans files) := by
  apply (tame_readFiles files 1 SpanMap.empty).bind
  intro spans _
  apply (tame_require _ _).bind
  intro _ _
  exact tame_ok spans

end Errors

section
variable {values : List Json} {input : List (List Json)} {spans others : SpanMap} {reference : Int}

theorem read_files (layout : Layout values input) (proper : ∀ value ∈ values, value.proper = true) :
    Reads (readFiles 1 (input.map fun records => records.map .ok)) (input.flatMap fileSpans) :=
  readFiles_reads layout.files layout.records fun value member => proper value ((layout.same value).mp member)

/-- A layout that is read gives a map of its spans. -/
theorem read_ok (layout : Layout values input) (proper : ∀ value ∈ values, value.proper = true)
    (done : readLayout input = .ok spans) : Holding values spans ∧ spans.entries.items ≠ [] := by
  obtain ⟨next, read, later⟩ := bind_ok.mp done
  obtain ⟨some, later⟩ := require_bind_ok.mp later
  obtain rfl := Except.ok.inj later
  have holding := (read_files layout proper [] SpanMap.empty holding_empty).1 next read
  exact ⟨holding.congr layout.same, by simpa using some⟩

/-- A layout that is not read has a flaw or no spans. -/
theorem read_error (layout : Layout values input) (proper : ∀ value ∈ values, value.proper = true) {failure : Failure}
    (done : readLayout input = .error failure) : Flawed values ∨ values = [] := by
  have reads := read_files layout proper [] SpanMap.empty holding_empty
  rw [List.nil_append] at reads
  cases read : readFiles 1 (input.map fun records => records.map .ok) SpanMap.empty with
  | error other => exact .inl ((reads.2 other read).mono fun value member => (layout.same value).mp member)
  | ok next =>
      have holding := (reads.1 next read).congr layout.same
      cases values with
      | nil => exact .inr rfl
      | cons value rest =>
          obtain ⟨new, _, entry, found, _⟩ := holding.all value List.mem_cons_self
          have stored := (Dict.get?_eq_some_iff _ _ _).mp found
          have some : (!next.entries.items.isEmpty) = true := by
            cases items : next.entries.items with
            | nil =>
                rw [items] at stored
                cases stored
            | cons item more => rfl
          have returns : readLayout input = .ok next := bind_ok.mpr ⟨next, read, require_bind_ok.mpr ⟨some, rfl⟩⟩
          rw [returns] at done
          cases done

/-- A map of the spans shows that they have no flaw. -/
theorem Holding.unflawed (holding : Holding values spans) (proper : ∀ value ∈ values, value.proper = true) :
    ¬ Flawed values := by
  rintro (⟨value, member, broken⟩ | ⟨value, member, other, partner, new, old, normal, read, same, different⟩)
  · obtain ⟨new, normal, _⟩ := holding.all value member
    exact broken new normal
  · obtain ⟨one, first, entry, found, equal⟩ := holding.all value member
    obtain ⟨two, second, mate, got, agree⟩ := holding.all other partner
    obtain rfl := Except.ok.inj (first.symm.trans normal)
    obtain rfl := Except.ok.inj (second.symm.trans read)
    rw [same, found] at got
    obtain rfl := Option.some.inj got
    obtain ⟨source, inside, origin, decoded, whole⟩ := holding.only entry (mem_values.mpr ⟨_, found⟩)
    have sound : entry.span.Proper := whole ▸ normalize_proper (proper source inside) decoded
    have back := Span.pyEq_symm sound (normalize_proper (proper other partner) read) agree
    rw [Span.pyEq_trans back equal] at different
    cases different

/-- The layouts of the spans are read together. -/
theorem read_together {second : List (List Json)} (layout : Layout values input) (other : Layout values second)
    (proper : ∀ value ∈ values, value.proper = true) (done : readLayout input = .ok spans) :
    ∃ next, readLayout second = .ok next := by
  obtain ⟨holding, some⟩ := read_ok layout proper done
  cases read : readLayout second with
  | ok next => exact ⟨next, rfl⟩
  | error failure =>
      rcases read_error other proper read with flawed | rfl
      · exact absurd flawed (holding.unflawed proper)
      · exfalso
        cases items : spans.entries.items with
        | nil => exact some items
        | cons item rest =>
            have member : item.2 ∈ spans.values := by
              rw [SpanMap.values, items]
              exact List.mem_cons_self
            obtain ⟨value, inside, _⟩ := holding.only item.2 member
            cases inside

/-- Two maps of the same spans hold an equal span under each identifier. -/
theorem Holding.partner (holding : Holding values spans) (other : Holding values others)
    (proper : ∀ value ∈ values, value.proper = true) {key : String} {entry : Entry}
    (found : spans.entries.get? key = some entry) :
    ∃ mate, others.entries.get? key = some mate ∧ entry.span.pyEq mate.span = true ∧ entry.span.Proper ∧
      mate.span.Proper := by
  obtain ⟨value, member, new, normal, same⟩ := holding.only entry (mem_values.mpr ⟨key, found⟩)
  obtain ⟨again, read, mate, got, equal⟩ := other.all value member
  obtain rfl := Except.ok.inj (read.symm.trans normal)
  obtain ⟨source, inside, origin, decoded, whole⟩ := other.only mate (mem_values.mpr ⟨_, got⟩)
  have sound : mate.span.Proper := whole ▸ normalize_proper (proper source inside) decoded
  have valid : entry.span.Proper := same ▸ normalize_proper (proper value member) normal
  rw [same] at equal got
  rw [spans.keyed key entry found] at got
  exact ⟨mate, got, Span.pyEq_symm sound valid equal, valid, sound⟩

theorem Holding.rel {related : Span → Span → Prop} (holding : Holding values spans) (other : Holding values others)
    (proper : ∀ value ∈ values, value.proper = true)
    (each : ∀ first second, spans.holds first → others.holds second → first.pyEq second = true → first.Proper →
      second.Proper → related first second) (key : String) :
    Option.Rel (fun first second => related first.span second.span) (spans.entries.get? key)
      (others.entries.get? key) := by
  cases found : spans.entries.get? key with
  | some entry =>
      obtain ⟨mate, got, equal, valid, sound⟩ := holding.partner other proper found
      rw [got]
      exact .some (each _ _ ⟨entry, mem_values.mpr ⟨key, found⟩, rfl⟩ ⟨mate, mem_values.mpr ⟨key, got⟩, rfl⟩ equal valid
        sound)
  | none =>
      cases got : others.entries.get? key with
      | none => exact .none
      | some mate =>
          obtain ⟨entry, again, _⟩ := other.partner holding proper got
          rw [found] at again
          cases again

theorem Holding.same (holding : Holding values spans) (other : Holding values others)
    (proper : ∀ value ∈ values, value.proper = true) : SameMap spans others :=
  holding.rel other proper fun _ _ _ _ equal _ _ => equal

/-- The source of a span in the map. -/
theorem Holding.source (holding : Holding values spans) {span : Span} (held : spans.holds span) :
    ∃ value ∈ values, ∃ new, normalize value = .ok new ∧ new.span = span := by
  obtain ⟨entry, member, rfl⟩ := held
  exact holding.only entry member

/-- Spans with equally typed numbers make twins. -/
theorem Holding.twin (holding : Holding values spans) (other : Holding values others)
    (proper : ∀ value ∈ values, value.proper = true) (uniform : Uniform values) : Twin spans others := by
  apply holding.rel other proper
  intro first second held stands equal valid sound
  obtain ⟨value, member, new, normal, rfl⟩ := holding.source held
  obtain ⟨mate, inside, old, read, rfl⟩ := other.source stands
  exact ⟨spanEqual_iff.mp equal, valid, sound, uniform.numbers value member mate inside new old normal read equal⟩

theorem Holding.referable (holding : Holding values spans) (uniform : Uniform values) : spans.Referable := by
  intro span kind held known below
  obtain ⟨value, member, new, normal, rfl⟩ := holding.source held
  exact uniform.references value member new kind normal known below

/-- A map that does not pass is rejected with an `ArchiveError`. -/
theorem rejected (read : readLayout input = .ok spans) (referable : spans.Referable)
    (refused : ¬ Accepted spans reference) : Rejected input := by
  intro later top
  rw [read]
  rcases (tame_querySpans referable later top).returns_or_raises with done | raised
  · exact absurd (querySpans_ok.mp done).2.at refused
  · exact raised

/-- Layouts of uniform spans agree. -/
theorem insensitive_of_uniform (proper : ∀ value ∈ values, value.proper = true) (uniform : Uniform values) :
    Insensitive values := by
  intro first second layout other
  have reject : ∀ {input : List (List Json)} {failure : Failure}, readLayout input = .error failure → Rejected input := by
    intro input failure read reference top
    obtain ⟨reason, rfl⟩ := tame_readSpans _ failure read
    exact ⟨reason, by rw [read]; rfl⟩
  cases read : readLayout first with
  | error failure =>
      cases again : readLayout second with
      | error other => exact .inl ⟨reject read, reject again⟩
      | ok spans =>
          obtain ⟨next, back⟩ := read_together other layout proper again
          rw [read] at back
          cases back
  | ok spans =>
      obtain ⟨others, again⟩ := read_together layout other proper read
      obtain ⟨holding, _⟩ := read_ok layout proper read
      obtain ⟨stands, _⟩ := read_ok other proper again
      have twin := holding.twin stands proper uniform
      have back := stands.twin holding proper uniform
      by_cases accepted : Accepted spans 0
      · refine .inr ⟨spans, others, read, again, holding.same stands proper, fun reference top positive => ?_⟩
        obtain ⟨rows, done⟩ := querySpans_ok.mpr ⟨positive, accepted.at⟩
        exact ⟨rows, done, rows_twin twin done⟩
      · refine .inl ⟨rejected read (holding.referable uniform) accepted,
          rejected again (stands.referable uniform) fun taken => accepted (accepted_twin back taken)⟩

end

end Cordboard.Archive
