import Cordboard.Construction.Web.Stream
import Cordboard.Data.EventStream
import Cordboard.Proof.Backend.EventStream
import Cordboard.Proof.JsonText
import Mathlib.Data.List.Destutter

namespace Cordboard.Web
open Data Data.EventStream Archive Viewer LiveReconciliation AegraClient Json

/-- The text of an object is one trimmed line. -/
theorem object_line (floats : FloatText) (members : List (String × Json)) :
    '\n' ∉ (dumps floats (.obj members)).toList ∧ Trimmed isSpace (dumps floats (.obj members)) ∧
      dumps floats (.obj members) ≠ "" := by
  have plain := plain_dumps floats (.obj members)
  have shape : ∃ inner : String, dumps floats (.obj members) = "\x7b" ++ inner ++ "\x7d" := by
    unfold dumps
    exact ⟨_, rfl⟩
  obtain ⟨inner, shape⟩ := shape
  refine ⟨fun member => absurd (plain _ member) (by decide), ⟨?_, ?_⟩, ?_⟩
  · intro letter member
    rw [shape, String.toList_append, String.toList_append] at member
    obtain rfl : '\x7b' = letter := Option.some.inj member
    decide
  · intro letter member
    rw [shape, String.toList_append, show "\x7d".toList = ['\x7d'] from rfl, List.getLast?_concat] at member
    obtain rfl : '\x7d' = letter := Option.some.inj member
    decide
  · rw [shape]
    intro empty
    have := congrArg String.toList empty
    simp at this

theorem digit_letter {number : Nat} {letter : Char} (member : letter ∈ (toString number).toList) :
    isSpace letter = false ∧ letter ≠ '\n' := by
  have digit := isDigit_of_mem_toString member
  rw [Char.isDigit, Bool.and_eq_true, decide_eq_true_eq, decide_eq_true_eq] at digit
  have low : 48 ≤ letter.toNat := digit.1
  have high : letter.toNat ≤ 57 := digit.2
  constructor
  · simp [isSpace]
    omega
  · intro same
    rw [same] at low
    revert low
    decide

theorem number_trimmed (number : Nat) : Trimmed isSpace (toString number) :=
  ⟨fun _ member => (digit_letter (List.mem_of_mem_head? member)).1,
    fun _ member => (digit_letter (List.mem_of_mem_getLast? member)).1⟩

section
variable {floats : FloatText}

theorem text_line (update : Update) : '\n' ∉ (update.text floats).toList ∧ Trimmed isSpace (update.text floats) ∧
    update.text floats ≠ "" := object_line floats _

/-- The texts that differ from the one before. -/
def changes : Option String → List String → List String
  | _, [] => []
  | previous, text :: rest => if previous = some text then changes previous rest else text :: changes (some text) rest

theorem changes_destutter' (first : String) (texts : List String) :
    texts.destutter' (· ≠ ·) first = first :: changes (some first) texts := by
  induction texts generalizing first with
  | nil => rfl
  | cons text rest ih =>
      rw [List.destutter'_cons, changes]
      by_cases same : first = text
      · rw [if_neg (not_not.mpr same), if_pos (congrArg some same), ih]
      · rw [if_pos same, if_neg fun equal => same (Option.some.inj equal), ih]

theorem changes_destutter (texts : List String) : changes none texts = texts.destutter (· ≠ ·) := by
  cases texts with
  | nil => rfl
  | cons text rest => rw [List.destutter_cons', changes_destutter', changes, if_neg (by simp)]

/-- One frame carries the text of a change under the next number. -/
def frameOf (sequence : Nat) (text : String) : Frame := ⟨"snapshot", [text], some (toString (sequence + 1))⟩

def framesOf : Nat → List String → List Frame
  | _, [] => []
  | number, text :: rest => frameOf number text :: framesOf (number + 1) rest

/-- The lines of a frame. -/
def frameBlock (sequence : Nat) (text : String) : List Line :=
  [.field .id " " (toString (sequence + 1)) "", .field .event " " "snapshot" "", .field .data " " text ""]

/-- The comment of a turn without a change. -/
def heartbeat : List Line := [.comment " heartbeat"]

def letters (block : List Line) : List (List Char) := block.map fun line => line.text.toList

theorem heartbeat_single : ∀ line ∈ letters heartbeat, '\n' ∉ line ∧ line ≠ [] := by decide

theorem frameBlock_carries {sequence : Nat} {text : String} (trimmed : Trimmed isSpace text) :
    Carries isSpace (frameOf sequence text) (frameBlock sequence text) where
  sound := by
    intro line member
    have word : Trimmed isSpace "snapshot" := by simp [Trimmed, isSpace]
    simp only [frameBlock, List.mem_cons, List.not_mem_nil, or_false] at member
    rcases member with rfl | rfl | rfl
    · exact ⟨by decide, number_trimmed _, by decide⟩
    · exact ⟨by decide, word, by decide⟩
    · exact ⟨by decide, trimmed, by decide⟩
  event := rfl
  data := rfl
  id := rfl

/-- The characters of a block as the server writes them. -/
theorem frame_text (sequence : Nat) (text : String) :
    ("id: " ++ toString (sequence + 1) ++ "\nevent: snapshot\ndata: " ++ text ++ "\n\n").toList =
      blockText (letters (frameBlock sequence text)) := by
  simp [letters, blockText, frameBlock, Line.text, Field.label]

theorem frameBlock_single {sequence : Nat} {text : String} (single : '\n' ∉ text.toList) :
    ∀ line ∈ letters (frameBlock sequence text), '\n' ∉ line ∧ line ≠ [] := by
  intro line member
  have number : '\n' ∉ (toString (sequence + 1)).toList := fun inside => (digit_letter inside).2 rfl
  simp only [letters, frameBlock, List.map_cons, List.map_nil, List.mem_cons, List.not_mem_nil, or_false] at member
  rcases member with rfl | rfl | rfl
  · simpa [Line.text, Field.label] using number
  · simp [Line.text, Field.label]
  · simpa [Line.text, Field.label] using single

/-- What the client reads of the characters that have arrived. -/
def received (text : List Char) : List String := (linesOf text).map String.ofList

theorem received_cut {lines : List (List Char)} (single : ∀ line ∈ lines, '\n' ∉ line ∧ line ≠ []) {count : Nat}
    (short : count < (blockText lines).length) (rest : List Char) :
    Serialized isSpace [] (received ((blockText lines ++ rest).take count)) := by
  rw [List.take_append_of_le_length (Nat.le_of_lt short)]
  apply Serialized.cut
  intro member
  obtain ⟨line, inside, empty⟩ := List.mem_map.mp member
  obtain rfl : line = [] := by simpa using congrArg String.toList empty
  exact linesOf_cut (fun line inside => (single line inside).1)
    (fun inside => (single [] inside).2 rfl) short inside

theorem received_block {block : List Line}
    (single : ∀ line ∈ letters block, '\n' ∉ line ∧ line ≠ []) {count : Nat}
    (long : (blockText (letters block)).length ≤ count) (rest : List Char) :
    received ((blockText (letters block) ++ rest).take count) =
      block.map Line.text ++ "" :: received (rest.take
        (count - (blockText (letters block)).length)) := by
  rw [received, List.take_append, List.take_of_length_le long, linesOf_block fun line inside => (single line inside).1,
    List.map_append, List.map_cons, letters, List.map_map]
  congr 1
  apply List.map_congr_left
  intro line _
  exact String.ofList_toList

/-- The characters of the body. -/
def wire (floats : FloatText) (sequence : Nat) (previous : Option String) (updates : List Update) : List Char :=
  (String.join (writeUpdates floats sequence previous updates)).toList

theorem wire_same {sequence : Nat} {previous : Option String} {update : Update} {rest : List Update}
    (same : previous = some (update.text floats)) : wire floats sequence previous (update :: rest) =
      blockText (letters heartbeat) ++ wire floats sequence previous rest := by
  simp only [wire, writeUpdates, if_pos same, String.join_cons, String.toList_append]
  rfl

theorem wire_change {sequence : Nat} {previous : Option String} {update : Update} {rest : List Update}
    (change : previous ≠ some (update.text floats)) : wire floats sequence previous (update :: rest) =
      blockText (letters (frameBlock sequence (update.text floats))) ++
        wire floats (sequence + 1) (some (update.text floats)) rest := by
  rw [← frame_text]
  simp only [wire, writeUpdates, if_neg change, String.join_cons, String.toList_append]

/-- Whatever part of the body arrives, the client gets the frames up to some point. -/
theorem wire_serialized (sequence : Nat) (previous : Option String) (updates : List Update) (count : Nat) :
    ∃ kept, Serialized isSpace ((framesOf sequence (changes previous (updates.map (Update.text floats)))).take kept)
        (received ((wire floats sequence previous updates).take count)) ∧
      ((wire floats sequence previous updates).length ≤ count →
        (framesOf sequence (changes previous (updates.map (Update.text floats)))).length ≤ kept) := by
  induction updates generalizing sequence previous count with
  | nil =>
      refine ⟨0, ?_, fun _ => Nat.le_refl 0⟩
      rw [show wire floats sequence previous [] = [] from rfl, List.take_nil]
      exact .cut List.not_mem_nil
  | cons update rest ih =>
      rw [List.map_cons, changes]
      by_cases same : previous = some (update.text floats)
      · -- A heartbeat is a comment and leaves the frames as they are.
        rw [if_pos same, wire_same same]
        by_cases short : count < (blockText (letters heartbeat)).length
        · refine ⟨0, received_cut heartbeat_single short _, fun whole => ?_⟩
          rw [List.length_append] at whole
          omega
        · obtain ⟨kept, serialized, whole⟩ := ih sequence previous
            (count - (blockText (letters heartbeat)).length)
          refine ⟨kept, ?_, fun all => whole ?_⟩
          · rw [received_block heartbeat_single (Nat.le_of_not_lt short)]
            exact .idle _ ⟨by simp [heartbeat, Line.Sound], fun kind => by cases kind <;> rfl⟩ serialized
          · rw [List.length_append] at all
            omega
      · have single := @frameBlock_single sequence _ (@text_line floats update).1
        rw [if_neg same, wire_change same, framesOf]
        by_cases short : count <
            (blockText (letters (frameBlock sequence (update.text floats)))).length
        · refine ⟨0, received_cut single short _, fun whole => ?_⟩
          rw [List.length_append] at whole
          omega
        · obtain ⟨kept, serialized, whole⟩ := ih (sequence + 1) (some (update.text floats)) (count -
            (blockText (letters (frameBlock sequence (update.text floats)))).length)
          refine ⟨kept + 1, ?_, fun all => ?_⟩
          · rw [received_block single (Nat.le_of_not_lt short), List.take_succ_cons]
            exact .frame _ (frameBlock_carries (text_line update).2.1) serialized
          · rw [List.length_append] at all
            rw [List.length_cons]
            exact Nat.succ_le_succ (whole (by omega))

/-- The client hears each change once, under consecutive numbers. -/
theorem heard_frames (sequence : Nat) (texts : List String) : (framesOf sequence texts).map heard =
    (texts.zipIdx (sequence + 1)).map fun entry => ⟨"snapshot", entry.1, some (toString entry.2)⟩ := by
  induction texts generalizing sequence with
  | nil => rfl
  | cons text rest ih =>
      rw [framesOf, List.map_cons, ih, List.zipIdx_cons, List.map_cons]
      rfl

end

/-- What a client hears when this many characters of the body arrive. -/
def hear (floats : FloatText) (builtins : Builtins) (codec : Codec) (lastEventId : Option String) (runId : String)
    (ticks : List Tick) (arrived : Nat) : List SseEvent :=
  iterSseEvents Pending.empty
    (received ((streamBody floats builtins codec lastEventId runId ticks).toList.take arrived))

/-- The changed texts of a page, under the numbers that follow the last one the client has seen. -/
def numbered (floats : FloatText) (builtins : Builtins) (lastEventId : Option String) (updates : List Update) :
    List SseEvent :=
  (((updates.map (Update.text floats)).destutter (· ≠ ·)).zipIdx (startSequence builtins lastEventId + 1)).map
    fun entry => ⟨"snapshot", entry.1, some (toString entry.2)⟩

theorem hear_kept (floats : FloatText) (builtins : Builtins) (codec : Codec) (lastEventId : Option String)
    (runId : String) (ticks : List Tick) (arrived : Nat) :
    ∃ kept, hear floats builtins codec lastEventId runId ticks arrived =
        (numbered floats builtins lastEventId (runUpdates codec runId none Dict.empty ticks).updates).take kept ∧
      ((streamBody floats builtins codec lastEventId runId ticks).toList.length ≤ arrived →
        (numbered floats builtins lastEventId (runUpdates codec runId none Dict.empty ticks).updates).length ≤
          kept) := by
  obtain ⟨kept, serialized, whole⟩ := @wire_serialized floats (startSequence builtins lastEventId) none
    (runUpdates codec runId none Dict.empty ticks).updates arrived
  have heard_ := iterSseEvents_serialized serialized
  rw [changes_destutter] at heard_ whole
  rw [List.map_take, heard_frames] at heard_
  refine ⟨kept, heard_, fun all => ?_⟩
  have lengths := congrArg List.length (heard_frames (startSequence builtins lastEventId)
    (((runUpdates codec runId none Dict.empty ticks).updates.map (Update.text floats)).destutter (· ≠ ·)))
  rw [List.length_map] at lengths
  exact lengths ▸ whole all

theorem heard_part (floats : FloatText) (builtins : Builtins) (codec : Codec) (lastEventId : Option String)
    (runId : String) (ticks : List Tick) (arrived : Nat) :
    hear floats builtins codec lastEventId runId ticks arrived <+:
      numbered floats builtins lastEventId (runUpdates codec runId none Dict.empty ticks).updates := by
  obtain ⟨kept, shown, _⟩ := hear_kept floats builtins codec lastEventId runId ticks arrived
  rw [shown]
  exact List.take_prefix _ _

/-- A client of the page hears the changes in order up to some point, and all of them when the body arrives whole. -/
theorem stream_round_trip (floats : FloatText) (builtins : Builtins) (codec : Codec) (lastEventId : Option String)
    (runId : String) (ticks : List Tick) (arrived : Nat) :
    hear floats builtins codec lastEventId runId ticks arrived <+:
        numbered floats builtins lastEventId (runUpdates codec runId none Dict.empty ticks).updates ∧
      ((streamBody floats builtins codec lastEventId runId ticks).toList.length ≤ arrived →
        hear floats builtins codec lastEventId runId ticks arrived =
          numbered floats builtins lastEventId (runUpdates codec runId none Dict.empty ticks).updates) := by
  refine ⟨heard_part floats builtins codec lastEventId runId ticks arrived, fun all => ?_⟩
  obtain ⟨kept, shown, whole⟩ := hear_kept floats builtins codec lastEventId runId ticks arrived
  rw [shown]
  exact List.take_of_length_le (whole all)

section
variable {floats : FloatText} {builtins : Builtins} {codec : Codec} {lastEventId : Option String} {runId : String}
  {ticks : List Tick} {arrived : Nat}

theorem numbered_ids (updates : List Update) : (numbered floats builtins lastEventId updates).map SseEvent.eventId =
    (List.range' (startSequence builtins lastEventId + 1)
      ((updates.map (Update.text floats)).destutter (· ≠ ·)).length).map fun number => some (toString number) := by
  rw [numbered, List.map_map, ← List.zipIdx_map_snd, List.map_map]
  rfl

theorem hear_ids : (hear floats builtins codec lastEventId runId ticks arrived).map SseEvent.eventId =
    (List.range' (startSequence builtins lastEventId + 1)
      (hear floats builtins codec lastEventId runId ticks arrived).length).map
        fun number => some (toString number) := by
  have part := heard_part floats builtins codec lastEventId runId ticks arrived
  have short := part.length_le
  rw [List.prefix_iff_eq_take.mp part, List.map_take, numbered_ids, List.length_take, ← List.map_take]
  rw [numbered, List.length_map, List.length_zipIdx] at short
  rw [numbered, List.length_map, List.length_zipIdx, Nat.min_eq_left short, List.take_range'_of_length_ge short]

/-- One connection of a client, and how much of its body arrives. -/
structure Visit where
  ticks : List Tick
  arrived : Nat

end

/-- The client connects again with the last identifier that it has seen. -/
def session (floats : FloatText) (builtins : Builtins) (codec : Codec) (runId : String) :
    Option String → List Visit → List SseEvent
  | _, [] => []
  | lastEventId, visit :: rest =>
      let events := hear floats builtins codec lastEventId runId visit.ticks visit.arrived
      events ++ session floats builtins codec runId ((events.getLast?.bind SseEvent.eventId).or lastEventId) rest

/-- Over any number of connections the numbers go up by one. -/
theorem session_from (floats : FloatText) (builtins : Builtins) (codec : Codec) (runId : String)
    (reads : ∀ number : Nat, builtins.int (toString number) = some number) (lastEventId : Option String)
    (visits : List Visit) : (session floats builtins codec runId lastEventId visits).map SseEvent.eventId =
      (List.range' (startSequence builtins lastEventId + 1)
        (session floats builtins codec runId lastEventId visits).length).map fun number => some (toString number) := by
  induction visits generalizing lastEventId with
  | nil => rfl
  | cons visit rest ih =>
      rw [session]
      generalize heard_ : hear floats builtins codec lastEventId runId visit.ticks visit.arrived = events
      have own := @hear_ids floats builtins codec lastEventId runId visit.ticks visit.arrived
      rw [heard_] at own
      have next : startSequence builtins ((events.getLast?.bind SseEvent.eventId).or lastEventId) =
          startSequence builtins lastEventId + events.length := by
        have last := congrArg List.getLast? own
        rw [List.getLast?_map, List.getLast?_map, List.getLast?_range'] at last
        cases shown : events.getLast? with
        | none =>
            obtain rfl := List.getLast?_eq_none_iff.mp shown
            rfl
        | some event =>
            have filled : events.length ≠ 0 := by
              rintro empty
              rw [List.length_eq_zero_iff.mp empty] at shown
              cases shown
            rw [shown, if_neg filled] at last
            have named : event.eventId = some (toString (startSequence builtins lastEventId + 1 + events.length - 1)) :=
              Option.some.inj last
            rw [Option.bind_some, named, Option.some_or, startSequence, Option.getD_some, reads]
            show startSequence builtins lastEventId + 1 + events.length - 1 = _
            omega
      rw [List.map_append, own, ih, next, List.length_append, ← List.map_append, Nat.add_right_comm,
        List.range'_append_1]

/-- A client that connects again and again hears the numbers from one on, without a gap and without a repetition. -/
theorem session_numbers (floats : FloatText) (builtins : Builtins) (codec : Codec) (runId : String)
    (reads : ∀ number : Nat, builtins.int (toString number) = some number) (visits : List Visit) :
    (session floats builtins codec runId none visits).map SseEvent.eventId =
      (List.range' 1 (session floats builtins codec runId none visits).length).map
        fun number => some (toString number) := by
  have start : startSequence builtins none = 0 := by
    rw [startSequence, Option.getD_none, show "0" = toString 0 from rfl, reads]
    rfl
  have ids := session_from floats builtins codec runId reads none visits
  rwa [start] at ids

/-- The updates of a loop that reads the archive again in every turn. -/
def freshUpdates (codec : Codec) (runId : String) : List Tick → Updates
  | [] => ⟨[], none⟩
  | tick :: rest =>
      match tick.signature with
      | none => ⟨[], some .os⟩
      | some _ =>
          match readRecorded codec tick.inputs with
          | .error failure => ⟨[], some failure⟩
          | .ok recorded => (freshUpdates codec runId rest).after (updateOf runId recorded tick)

/-- An archive whose signature stands still reads the same. -/
def Steady (codec : Codec) (earlier later : Tick) : Prop :=
  earlier.signature = later.signature → readRecorded codec earlier.inputs = readRecorded codec later.inputs

/-- The kept records are those of the last turn. -/
theorem updates_kept {codec : Codec} {runId : String} {seen : Tick} {ticks : List Tick} {current : Signature}
    {recorded : Dict String RunRecord} (steady : (seen :: ticks).IsChain (Steady codec))
    (signed : seen.signature = some current) (read : readRecorded codec seen.inputs = .ok recorded) :
    runUpdates codec runId (some current) recorded ticks = freshUpdates codec runId ticks := by
  induction ticks generalizing seen current recorded with
  | nil => rfl
  | cons tick rest ih =>
      obtain ⟨still, others⟩ := List.isChain_cons_cons.mp steady
      rw [runUpdates, freshUpdates]
      cases observed : tick.signature with
      | none => rfl
      | some next =>
          by_cases same : some current = some next
          · have again : readRecorded codec tick.inputs = .ok recorded :=
              (still (signed.trans (same.trans observed.symm))).symm.trans read
            simp only [if_pos same, again]
            rw [same, ih others observed again]
          · simp only [if_neg same]
            cases fresh : readRecorded codec tick.inputs with
            | error failure => rfl
            | ok reread =>
                show Updates.after _ _ = Updates.after _ _
                rw [ih others observed fresh]

section Example

/-- A text of digits is read as its number, and no other text. -/
def decimalBuiltins : Builtins where
  int text := if text.toList.isEmpty || !text.toList.all Char.isDigit then none
    else some (Int.ofNat (Nat.ofDigitChars 10 text.toList 0))
  str _ := ""

theorem decimal_reads (number : Nat) : decimalBuiltins.int (toString number) = some number := by
  have digits : (toString number).toList = Nat.toDigits 10 number := Nat.toList_repr
  have filled : (toString number).toList.isEmpty = false := by
    rw [digits]
    simp
  have all : (toString number).toList.all Char.isDigit = true := List.all_eq_true.mpr fun _ => isDigit_of_mem_toString
  show (if (toString number).toList.isEmpty || !(toString number).toList.all Char.isDigit then none
    else some (Int.ofNat (Nat.ofDigitChars 10 (toString number).toList 0))) = _
  rw [filled, all, if_neg (by decide), digits, Nat.ofDigitChars_ten_toDigits]
  rfl

def zeroFloats : FloatText := ⟨fun _ => "0.0", fun _ => Json.plain_of_all (by decide)⟩

/-- No archive is given, so nothing is read. -/
def silentCodec : Codec := ⟨fun _ => none, fun _ => ⟨[], none⟩⟩

def idleTick : Tick := ⟨some [], [], Dict.empty, 0, []⟩

/-- The second turn of a page shows a diagnostic. -/
def troubledTick : Tick := { idleTick with diagnostics := ["Deployment disconnected: local"] }

/-- The first connection breaks within the second frame, and the second one ends when the signature cannot be told. -/
def twoVisits : List Visit :=
  [⟨[idleTick, idleTick, troubledTick], 150⟩, ⟨[troubledTick, { idleTick with signature := none }], 1000⟩]

theorem session_numbers_cut :
    (session zeroFloats decimalBuiltins silentCodec "run" none twoVisits).map SseEvent.eventId =
      (List.range' 1 (session zeroFloats decimalBuiltins silentCodec "run" none twoVisits).length).map
        fun number => some (toString number) :=
  session_numbers zeroFloats decimalBuiltins silentCodec "run" decimal_reads twoVisits

end Example

end Cordboard.Web
