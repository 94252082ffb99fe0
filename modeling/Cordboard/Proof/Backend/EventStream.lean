import Cordboard.Construction.EventStream
import Cordboard.Data.EventStream
import Mathlib.Data.List.TakeWhile

namespace Cordboard.AegraClient
open Data Data.EventStream

section
variable {before value after text label rawLine : String} {pending : Pending} {block : List Line} {frame : Frame}
  {frames : List Frame} {lines rest : List String}

theorem dropWhile_head {text : List Char} (first : ∀ c ∈ text.head?, isSpace c = false) :
    text.dropWhile isSpace = text := by
  cases text with
  | nil => rfl
  | cons c rest => exact List.dropWhile_cons_of_neg (Bool.not_eq_true _ ▸ first c rfl)

/-- The reader takes the pads away and nothing else. -/
theorem strip_padded (left : before.toList.all isSpace = true) (core : Trimmed isSpace value)
    (right : after.toList.all isSpace = true) : strip (before ++ value ++ after) = value := by
  rw [List.all_eq_true] at left right
  have opened : (before ++ value ++ after).toList.dropWhile isSpace = (value.toList ++ after.toList).dropWhile isSpace := by
    rw [String.toList_append, String.toList_append, List.append_assoc, List.dropWhile_append_of_pos left]
  have closed : ((value.toList ++ after.toList).dropWhile isSpace).reverse.dropWhile isSpace = value.toList.reverse := by
    cases empty : value.toList with
    | nil =>
        rw [List.nil_append, List.dropWhile_eq_nil_iff.mpr right]
        rfl
    | cons c tail =>
        have head : isSpace c = false := core.1 c (by rw [empty]; rfl)
        rw [List.cons_append, List.dropWhile_cons_of_neg (by rw [head]; exact Bool.false_ne_true), ← List.cons_append,
          List.reverse_append, List.dropWhile_append_of_pos fun d member => right d (List.mem_reverse.mp member), ← empty]
        exact dropWhile_head (by rw [List.head?_reverse]; exact core.2)
  unfold strip
  rw [opened, closed, List.reverse_reverse, String.ofList_toList]

theorem afterLabel_append : afterLabel label (label ++ text) = some text := by
  unfold afterLabel
  rw [String.toList_append, if_pos (List.isPrefixOf_iff_prefix.mpr (List.prefix_append _ _)), ← String.length_toList,
    List.drop_left, String.ofList_toList]

theorem afterLabel_none : afterLabel label rawLine = none ↔ ¬ label.toList <+: rawLine.toList := by
  unfold afterLabel
  rw [← List.isPrefixOf_iff_prefix]
  split <;> simp [*]

/-- Two different labels never start the same line. -/
theorem afterLabel_other {kind other : Field} (apart : kind ≠ other) : afterLabel kind.label (other.label ++ text) = none := by
  rw [afterLabel_none, ← List.isPrefixOf_iff_prefix, String.toList_append]
  cases kind <;> cases other <;> first | exact absurd rfl apart | simp [Field.label, List.isPrefixOf]

theorem comment_label (kind : Field) : afterLabel ":" (kind.label ++ text) = none := by
  rw [afterLabel_none, ← List.isPrefixOf_iff_prefix, String.toList_append]
  cases kind <;> simp [Field.label, List.isPrefixOf]

/-- The values that the line sets. -/
def Pending.take (pending : Pending) (line : Line) : Pending where
  event := (line.value? .event).or pending.event
  dataLines := pending.dataLines ++ (line.value? .data).toList
  eventId := (line.value? .id).or pending.eventId

/-- The reader takes from each written line its own field. -/
theorem read_line {line : Line} (sound : line.Sound isSpace) : pending.read line.text = pending.take line := by
  cases line with
  | field kind before value after =>
      have stripped := strip_padded sound.1 sound.2.1 sound.2.2
      have none_ : afterLabel ":" (Line.field kind before value after).text = none := comment_label kind
      have own : afterLabel kind.label (Line.field kind before value after).text = some (before ++ value ++ after) :=
        afterLabel_append
      have others : ∀ other, other ≠ kind → afterLabel other.label (Line.field kind before value after).text = none :=
        fun other apart => afterLabel_other apart
      unfold Pending.read
      rw [none_]
      cases kind with
      | event =>
          rw [show afterLabel "event:" _ = _ from own]
          dsimp only
          rw [stripped]
          simp [Pending.take, Line.value?]
      | data =>
          rw [show afterLabel "event:" _ = _ from others .event (by decide), show afterLabel "data:" _ = _ from own]
          dsimp only
          rw [stripped]
          simp [Pending.take, Line.value?]
      | id =>
          rw [show afterLabel "event:" _ = _ from others .event (by decide),
            show afterLabel "data:" _ = _ from others .data (by decide), show afterLabel "id:" _ = _ from own]
          dsimp only
          rw [stripped]
          simp [Pending.take, Line.value?]
  | comment text =>
      unfold Pending.read
      rw [show (Line.comment text).text = ":" ++ text from rfl, afterLabel_append]
      simp [Pending.take, Line.value?]
  | unknown text =>
      have none_ : afterLabel ":" text = none := afterLabel_none.mpr sound.2.1
      have others : ∀ kind : Field, afterLabel kind.label text = none :=
        fun kind => afterLabel_none.mpr (sound.2.2 kind)
      unfold Pending.read
      rw [show (Line.unknown text).text = text from rfl, none_, show afterLabel "event:" _ = _ from others .event,
        show afterLabel "data:" _ = _ from others .data, show afterLabel "id:" _ = _ from others .id]
      simp [Pending.take, Line.value?]

theorem text_ne_empty {line : Line} (sound : line.Sound isSpace) : line.text ≠ "" := by
  cases line with
  | field kind before value after =>
      intro empty
      have := congrArg String.toList empty
      cases kind <;> simp [Line.text, Field.label] at this
  | comment text =>
      intro empty
      have := congrArg String.toList empty
      simp [Line.text] at this
  | unknown text => exact sound.1

/-- The lines of a block fill the pending values. -/
theorem read_block (sound : ∀ line ∈ block, line.Sound isSpace) :
    (block.map Line.text).foldl Pending.read pending =
      ⟨(values .event block).getLast?.or pending.event, pending.dataLines ++ values .data block,
        (values .id block).getLast?.or pending.eventId⟩ := by
  induction block generalizing pending with
  | nil => simp [values]
  | cons line rest ih =>
      obtain ⟨own, others⟩ := List.forall_mem_cons.mp sound
      rw [List.map_cons, List.foldl_cons, read_line own, ih others]
      cases line with
      | field kind _ value _ =>
          cases kind <;> simp [Pending.take, values, Line.value?, List.getLast?_cons]
      | comment => simp [Pending.take, values, Line.value?, List.filterMap_cons]
      | unknown => simp [Pending.take, values, Line.value?, List.filterMap_cons]

/-- The loop reads up to the next blank line, and it starts again behind it. -/
theorem iterSseEvents_block (open_ : "" ∉ lines) : iterSseEvents pending (lines ++ "" :: rest) =
    (lines.foldl Pending.read pending).flush.toList ++ iterSseEvents Pending.empty rest := by
  induction lines generalizing pending with
  | nil => rw [List.nil_append, iterSseEvents, if_pos rfl, List.foldl_nil]
  | cons line others ih =>
      rw [List.mem_cons, not_or] at open_
      rw [List.cons_append, iterSseEvents, if_neg (Ne.symm open_.1), ih open_.2, List.foldl_cons]

/-- Nothing comes out without a blank line. -/
theorem iterSseEvents_cut (open_ : "" ∉ lines) : iterSseEvents pending lines = [] := by
  induction lines generalizing pending with
  | nil => rfl
  | cons line others ih =>
      rw [List.mem_cons, not_or] at open_
      rw [iterSseEvents, if_neg (Ne.symm open_.1), ih open_.2]

theorem blank_not_mem (sound : ∀ line ∈ block, line.Sound isSpace) : "" ∉ block.map Line.text := by
  intro member
  obtain ⟨line, within, empty⟩ := List.mem_map.mp member
  exact text_ne_empty (sound line within) empty

/-- What the reader makes of a frame. -/
def heard (frame : Frame) : SseEvent := ⟨if frame.event = "" then "message" else frame.event, frame.text, frame.id⟩

/-- The reader recovers the frames of a stream that was written in the format. -/
theorem iterSseEvents_serialized (written : Serialized isSpace frames lines) :
    iterSseEvents Pending.empty lines = frames.map heard := by
  induction written with
  | cut open_ => exact iterSseEvents_cut open_
  | idle block idle rest ih =>
      rw [iterSseEvents_block (blank_not_mem idle.sound), read_block idle.sound, idle.silent, idle.silent, idle.silent, ih]
      rfl
  | @frame frame frames lines block carries rest ih =>
      rw [iterSseEvents_block (blank_not_mem carries.sound), read_block carries.sound, carries.event, carries.data,
        carries.id, ih, List.map_cons]
      cases named : frame.id <;> simp [Pending.flush, Pending.empty, heard, Frame.text, named]

/-- The client keeps the events of this frame. -/
def isLifecycle (frame : Frame) : Bool := frame.event ∈ lifecycleEvents

/-- The client yields the frame with its own data and its own identifier. -/
structure Delivers (loads : String → Option Json) (delivered : Delivered) (frame : Frame) : Prop where
  event : delivered.event = frame.event
  data : loads frame.text = some delivered.data
  eventId : delivered.eventId = frame.id

/-- A lifecycle frame has a JSON text. -/
def Decodes (loads : String → Option Json) (frames : List Frame) : Prop :=
  ∀ frame ∈ frames, isLifecycle frame = true → ∃ data, loads frame.text = some data

variable {loads : String → Option Json}

theorem deliver_other (other : isLifecycle frame = false) : (heard frame).deliver loads = none := by
  have outside : frame.event ∉ lifecycleEvents := of_decide_eq_false other
  unfold SseEvent.deliver heard
  by_cases empty : frame.event = ""
  · rw [if_pos empty]
    exact if_neg (show "message" ∉ lifecycleEvents by decide)
  · rw [if_neg empty]
    exact if_neg outside

theorem deliver_lifecycle (noText : loads "" = none) {data : Json} (kept : isLifecycle frame = true)
    (decoded : loads frame.text = some data) : (heard frame).deliver loads = some ⟨frame.event, data, frame.id⟩ := by
  have inside : frame.event ∈ lifecycleEvents := of_decide_eq_true kept
  have named : frame.event ≠ "" := by
    intro empty
    rw [empty] at inside
    exact absurd inside (by decide)
  have written : frame.text ≠ "" := by
    intro empty
    rw [empty, noText] at decoded
    cases decoded
  simp only [SseEvent.deliver, heard, if_neg named, if_pos inside, if_neg written, decoded, Option.map_some]

/-- Exactly the lifecycle frames come out, each with its own values. -/
theorem delivers_frames (noText : loads "" = none) (decodes : Decodes loads frames) :
    List.Forall₂ (Delivers loads) ((frames.map heard).filterMap (SseEvent.deliver loads)) (frames.filter isLifecycle) := by
  induction frames with
  | nil => exact .nil
  | cons frame rest ih =>
      obtain ⟨own, others⟩ := List.forall_mem_cons.mp decodes
      cases kept : isLifecycle frame with
      | false =>
          rw [List.map_cons, List.filterMap_cons_none (deliver_other kept), List.filter_cons_of_neg (by rw [kept]; decide)]
          exact ih others
      | true =>
          obtain ⟨data, decoded⟩ := own kept
          rw [List.map_cons, List.filterMap_cons_some (deliver_lifecycle noText kept decoded),
            List.filter_cons_of_pos kept]
          exact .cons ⟨rfl, decoded, rfl⟩ (ih others)

variable {server : Option String → Reply} {threadId runId : String} {lastEventId : Option String} {dropped : Bool}

/-- A connection yields what the loop makes of its lines. -/
theorem streamLifecycle_stream (thread : blank threadId = false) (run : blank runId = false)
    (reply : server (lastEventId.filter (· ≠ "")) = .stream lines dropped) :
    streamLifecycle loads server threadId runId lastEventId =
      ⟨(iterSseEvents Pending.empty lines).filterMap (SseEvent.deliver loads), if dropped then some streamFailed else none⟩ := by
  unfold streamLifecycle
  rw [if_neg (ne_true_of_eq_false thread), if_neg (ne_true_of_eq_false run), reply]

end

/-- The client yields exactly the lifecycle frames of the stream in order, and nothing of a frame that was cut off. -/
theorem stream_recovers_frames (loads : String → Option Json) (server : Option String → Reply) (threadId runId : String)
    (lastEventId : Option String) (frames : List Frame) (lines : List String) (dropped : Bool)
    (thread : blank threadId = false) (run : blank runId = false) (noText : loads "" = none)
    (reply : server (lastEventId.filter (· ≠ "")) = .stream lines dropped)
    (written : Serialized isSpace frames lines) (decodes : Decodes loads frames) :
    List.Forall₂ (Delivers loads) (streamLifecycle loads server threadId runId lastEventId).events
      (frames.filter isLifecycle) := by
  rw [streamLifecycle_stream thread run reply, iterSseEvents_serialized written]
  exact delivers_frames noText decodes

/-- The decoder knows one text, the array of two numbers on two lines. -/
def pairLoads (text : String) : Option Json := if text = "[1,\n2]" then some (.arr [.int 1, .int 2]) else none

/-- A stream of one frame with two data lines, behind a comment and before a frame that is cut off. -/
theorem stream_recovers_frames_cut : List.Forall₂ (Delivers pairLoads)
    (streamLifecycle pairLoads
      (fun _ => .stream [": heartbeat", "id: 7", "event:end", "data: [1,", "data:2]", "", "event: error", "data: 3"] true)
      "t" "r" none).events [⟨"end", ["[1,", "2]"], some "7"⟩] :=
  stream_recovers_frames _ _ "t" "r" none [⟨"end", ["[1,", "2]"], some "7"⟩] _ true (by decide) (by decide) (by decide)
    rfl
    (.frame [.comment " heartbeat", .field .id " " "7" "", .field .event "" "end" "", .field .data " " "[1," "",
        .field .data "" "2]" ""]
      ⟨by simp [Line.Sound, Trimmed, isSpace], rfl, rfl, rfl⟩ (.cut (by decide)))
    (by
      intro frame member _
      rw [List.mem_singleton] at member
      subst member
      exact ⟨.arr [.int 1, .int 2], rfl⟩)

end Cordboard.AegraClient
