import Cordboard.Proof.Backend.EventStream

namespace Cordboard.AegraClient
open Data Data.EventStream

/-- The server replays exactly the frames after the given identifier, and all frames without one. -/
structure Resumes (log : List Frame) (replay : Option String → List Frame) : Prop where
  whole : replay none = log
  after : ∀ before frame rest eventId, log = before ++ frame :: rest → frame.id = some eventId →
    replay (some eventId) = rest

/-- Each lifecycle frame has an identifier. -/
def Named (frames : List Frame) : Prop :=
  ∀ frame ∈ frames, isLifecycle frame = true → ∃ eventId, frame.id = some eventId ∧ eventId ≠ ""

/-- A connection serves the frames up to any point, or it does not come about. -/
inductive Serves (frames : List Frame) : Reply → Prop
  | unreachable : Serves frames .unreachable
  | refused : Serves frames .refused
  | stream {taken : List Frame} {lines : List String} (begins : taken <+: frames)
      (written : Serialized isSpace taken lines) (dropped : Bool) : Serves frames (.stream lines dropped)

def Delivered.isTerminal (delivered : Delivered) : Bool := delivered.event == "end" || delivered.event == "error"

/-- The resume position stands behind some frames, and the server would replay the rest. -/
structure Position (log : List Frame) (replay : Option String → List Frame) (lastEventId : Option String)
    (rest : List Frame) : Prop where
  behind : ∃ done, log = done ++ rest
  replays : replay (lastEventId.filter (· ≠ "")) = rest

section
variable {loads : String → Option Json} {log rest frames : List Frame} {replay : Option String → List Frame}
  {frame : Frame} {events : List Delivered} {state : WatchState} {round : Round}

theorem sawTerminal_foldl : (events.foldl WatchState.step state).sawTerminal =
    (state.sawTerminal || events.any Delivered.isTerminal) := by
  induction events generalizing state with
  | nil => simp
  | cons delivered others ih =>
      rw [List.foldl_cons, ih, List.any_cons]
      simp [WatchState.step, Delivered.isTerminal, Bool.or_assoc]

/-- The last frame that was yielded gives the resume position. -/
theorem lastEventId_foldl {eventId : String} (named : frame.id = some eventId) (some_ : eventId ≠ "")
    (delivers : List.Forall₂ (Delivers loads) events (frames ++ [frame])) :
    (events.foldl WatchState.step state).lastEventId = some eventId := by
  induction frames generalizing events state with
  | nil =>
      cases delivers with
      | cons first others =>
          cases others
          rw [List.foldl_cons, List.foldl_nil, WatchState.step, first.eventId, named]
          exact if_neg some_
  | cons other rest ih =>
      cases delivers with
      | cons first others =>
          rw [List.foldl_cons]
          exact ih others

/-- The frames have no lifecycle frame, or a last one. -/
theorem last_lifecycle (frames : List Frame) : frames.filter isLifecycle = [] ∨
    ∃ before frame after, frames = before ++ frame :: after ∧ isLifecycle frame = true ∧
      after.filter isLifecycle = [] := by
  induction frames with
  | nil => exact .inl rfl
  | cons frame rest ih =>
      rcases ih with none_ | ⟨before, last, after, rfl, kept, none_⟩
      · cases kept : isLifecycle frame with
        | true => exact .inr ⟨[], frame, rest, rfl, kept, none_⟩
        | false => exact .inl (by rw [List.filter_cons_of_neg (by rw [kept]; decide), none_])
      · exact .inr ⟨frame :: before, last, after, rfl, kept, none_⟩

/-- One connection yields a part of the rest without a gap and leaves the position behind it. -/
theorem connection_advances (threadId runId : String) (noText : loads "" = none) (resumes : Resumes log replay)
    (named : Named log) (decodes : Decodes loads log) (serves : ∀ last, Serves (replay last) (round.server last))
    (position : Position log replay state.lastEventId rest) :
    ∃ taken left, rest.filter isLifecycle = taken ++ left.filter isLifecycle ∧
      List.Forall₂ (Delivers loads) (streamLifecycle loads round.server threadId runId state.lastEventId).events taken ∧
      Position log replay ((streamLifecycle loads round.server threadId runId state.lastEventId).events.foldl
        WatchState.step state).lastEventId left := by
  obtain ⟨⟨done, split⟩, replays⟩ := position
  have silent : ∀ raised, ∃ taken left, rest.filter isLifecycle = taken ++ left.filter isLifecycle ∧
      List.Forall₂ (Delivers loads) (⟨[], raised⟩ : Yielded).events taken ∧
      Position log replay ((⟨[], raised⟩ : Yielded).events.foldl WatchState.step state).lastEventId left :=
    fun raised => ⟨[], rest, rfl, .nil, ⟨done, split⟩, replays⟩
  by_cases thread : blank threadId = true
  · rw [streamLifecycle, if_pos thread]
    exact silent _
  by_cases run : blank runId = true
  · rw [streamLifecycle, if_neg thread, if_pos run]
    exact silent _
  have served := serves (state.lastEventId.filter (· ≠ ""))
  rw [replays] at served
  cases reply : round.server (state.lastEventId.filter (· ≠ "")) with
  | unreachable =>
      rw [streamLifecycle, if_neg thread, if_neg run, reply]
      exact silent _
  | refused =>
      rw [streamLifecycle, if_neg thread, if_neg run, reply]
      exact silent _
  | stream lines dropped =>
      rw [reply] at served
      cases served with
      | @stream served _ begins written =>
          obtain ⟨unserved, rfl⟩ := begins
          rw [streamLifecycle_stream (Bool.not_eq_true _ ▸ thread) (Bool.not_eq_true _ ▸ run) reply,
            iterSseEvents_serialized written]
          have within : ∀ frame ∈ served, frame ∈ log := by
            intro frame member
            rw [split]
            exact List.mem_append_right _ (List.mem_append_left _ member)
          have delivers := delivers_frames noText fun frame member => decodes frame (within frame member)
          dsimp only
          rcases last_lifecycle served with none_ | ⟨before, frame, after, rfl, kept, none_⟩
          · -- Without a lifecycle frame the position stays, and the server sends these frames again.
            rw [none_] at delivers
            rw [List.forall₂_nil_right_iff.mp delivers]
            exact ⟨[], served ++ unserved, rfl, .nil, ⟨done, split⟩, replays⟩
          · have whole : (before ++ frame :: after).filter isLifecycle = before.filter isLifecycle ++ [frame] := by
              rw [List.filter_append, List.filter_cons_of_pos kept, none_]
            obtain ⟨eventId, own, some_⟩ := named frame (within frame (List.mem_append_right _ List.mem_cons_self)) kept
            have moved : log = (done ++ before) ++ frame :: (after ++ unserved) := by
              rw [split]
              simp
            rw [whole] at delivers
            refine ⟨_, after ++ unserved, ?_, delivers, ⟨done ++ before ++ [frame], ?_⟩, ?_⟩
            · rw [List.filter_append, whole, List.filter_append, none_, List.nil_append]
            · rw [moved]
              simp
            · rw [lastEventId_foldl own some_ delivers]
              rw [show (some eventId).filter (· ≠ "") = some eventId by simp [Option.filter, some_]]
              exact resumes.after _ _ _ _ moved own

/-- The whole watch yields a part of the rest without a gap, and it stops early only behind a terminal event. -/
theorem watchFrom_faithful (threadId runId : String) (deadline : Time) (noText : loads "" = none)
    (resumes : Resumes log replay) (named : Named log) (decodes : Decodes loads log) {rounds : List Round}
    (serves : ∀ round ∈ rounds, ∀ last, Serves (replay last) (round.server last))
    (position : Position log replay state.lastEventId rest) :
    (∃ taken left, rest.filter isLifecycle = taken ++ left ∧
      List.Forall₂ (Delivers loads) (watchFrom loads threadId runId deadline state rounds).events taken) ∧
    ∀ now, (watchFrom loads threadId runId deadline state rounds).ending = .stopped now → now < deadline →
      (state.sawTerminal ||
        (watchFrom loads threadId runId deadline state rounds).events.any Delivered.isTerminal) = true := by
  induction rounds generalizing state rest with
  | nil =>
      constructor
      · exact ⟨[], _, rfl, .nil⟩
      · intro now ended
        cases ended
  | cons round others ih =>
      obtain ⟨own, later⟩ := List.forall_mem_cons.mp serves
      rw [watchFrom]
      by_cases watches : state.sawTerminal = false ∧ round.now < deadline
      · rw [if_pos watches]
        obtain ⟨taken, left, whole, delivers, next⟩ :=
          connection_advances threadId runId noText resumes named decodes own position
        obtain ⟨⟨more, remaining, further, delivered⟩, ended⟩ := ih later next
        rw [sawTerminal_foldl] at ended
        dsimp only
        generalize streamLifecycle loads round.server threadId runId state.lastEventId = yielded at *
        generalize watchFrom loads threadId runId deadline (yielded.events.foldl WatchState.step state) others =
          following at *
        have continued : ∃ taken left, rest.filter isLifecycle = taken ++ left ∧
            List.Forall₂ (Delivers loads) (yielded.events ++ following.events) taken :=
          ⟨taken ++ more, remaining, by rw [whole, further, List.append_assoc], List.rel_append delivers delivered⟩
        have terminal : ∀ now, following.ending = .stopped now → now < deadline →
            (state.sawTerminal || (yielded.events ++ following.events).any Delivered.isTerminal) = true := by
          intro now stops early
          rw [List.any_append, ← Bool.or_assoc]
          exact ended now stops early
        cases yielded.raised with
        | none => exact ⟨continued, terminal⟩
        | some exc =>
            dsimp only
            by_cases caught : exc.isRuntimeError = true ∧ round.caught < deadline
            · rw [if_pos caught]
              exact ⟨continued, terminal⟩
            · rw [if_neg caught]
              constructor
              · exact ⟨taken, _, whole, delivers⟩
              · intro now stops
                cases stops
      · rw [if_neg watches]
        constructor
        · exact ⟨[], _, rfl, .nil⟩
        · intro now ended early
          obtain rfl := WatchEnd.stopped.inj ended
          rw [not_and] at watches
          rw [Bool.or_eq_true, ← Bool.not_eq_false]
          exact .inl fun unseen => watches unseen early

/-- Two lifecycle frames of the log never have the same identifier. -/
theorem ids_apart (resumes : Resumes log replay) (named : Named log) (done : List Frame) (split : log = done ++ rest) :
    ((rest.filter isLifecycle).map Frame.id).Nodup := by
  induction rest generalizing done with
  | nil => exact List.nodup_nil
  | cons frame others ih =>
      have further : log = (done ++ [frame]) ++ others := by
        rw [split]
        simp
      cases kept : isLifecycle frame with
      | false =>
          rw [List.filter_cons_of_neg (by rw [kept]; decide)]
          exact ih _ further
      | true =>
          rw [List.filter_cons_of_pos kept, List.map_cons, List.nodup_cons]
          constructor
          · intro member
            obtain ⟨twin, found, same⟩ := List.mem_map.mp member
            obtain ⟨eventId, own, _⟩ := named frame (split ▸ List.mem_append_right _ List.mem_cons_self) kept
            obtain ⟨between, after, parts⟩ := List.append_of_mem (List.mem_of_mem_filter found)
            have first := resumes.after done frame others eventId split own
            have second := resumes.after (done ++ frame :: between) twin after eventId
              (by rw [split, parts]; simp) (same.trans own)
            have lengths := congrArg List.length (first.symm.trans second)
            rw [parts, List.length_append, List.length_cons] at lengths
            omega
          · exact ih _ further

theorem eventIds_eq (delivers : List.Forall₂ (Delivers loads) events frames) :
    events.map Delivered.eventId = frames.map Frame.id := by
  induction delivers with
  | nil => rfl
  | cons first _ ih => rw [List.map_cons, List.map_cons, first.eventId, ih]

end

/-- The events are the lifecycle events of the log up to some point, each one once, and a stop before the deadline has
seen a terminal event. -/
structure Faithful (loads : String → Option Json) (log : List Frame) (deadline : Time) (watched : Watched) : Prop where
  exact : ∃ taken left, log.filter isLifecycle = taken ++ left ∧ List.Forall₂ (Delivers loads) watched.events taken
  once : (watched.events.map Delivered.eventId).Nodup
  ended : ∀ now, watched.ending = .stopped now → now < deadline →
    ∃ delivered ∈ watched.events, delivered.event = "end" ∨ delivered.event = "error"

/-- The client neither loses nor repeats an event over its reconnections. -/
theorem watch_exactly_once (loads : String → Option Json) (log : List Frame) (replay : Option String → List Frame)
    (threadId runId : String) (timeout start : Time) (rounds : List Round) (noText : loads "" = none)
    (resumes : Resumes log replay) (named : Named log) (decodes : Decodes loads log)
    (serves : ∀ round ∈ rounds, ∀ last, Serves (replay last) (round.server last)) :
    Faithful loads log (start + timeout) (watchLifecycle loads threadId runId timeout start rounds) := by
  have position : Position log replay (⟨none, false⟩ : WatchState).lastEventId log := ⟨⟨[], rfl⟩, resumes.whole⟩
  obtain ⟨⟨taken, left, whole, delivers⟩, ended⟩ :=
    watchFrom_faithful threadId runId (start + timeout) noText resumes named decodes serves position
  constructor
  · exact ⟨taken, left, whole, delivers⟩
  · have apart := ids_apart resumes named [] rfl
    rw [whole, List.map_append] at apart
    rw [watchLifecycle, eventIds_eq delivers]
    exact (List.nodup_append.mp apart).1
  · intro now stops early
    have seen := ended now stops early
    rw [Bool.false_or, List.any_eq_true] at seen
    obtain ⟨delivered, member, terminal⟩ := seen
    rw [Delivered.isTerminal, Bool.or_eq_true, beq_iff_eq, beq_iff_eq] at terminal
    exact ⟨delivered, member, terminal⟩

/-- The log of a Run that ended. -/
def endedLog : List Frame := [⟨"metadata", ["1"], some "m"⟩, ⟨"end", ["2"], some "e"⟩]

def endedReplay (last : Option String) : List Frame :=
  if last = none then endedLog else if last = some "m" then [⟨"end", ["2"], some "e"⟩] else []

/-- The decoder knows the two numbers. -/
def digitLoads (text : String) : Option Json :=
  if text = "1" then some (.int 1) else if text = "2" then some (.int 2) else none

/-- The first connection drops behind the first event, and the second one is asked for the rest. -/
def endedRounds : List Round :=
  [⟨0, fun last => if last = none then .stream ["event: metadata", "data: 1", "id: m", "", "event: end"] true
      else .unreachable, 1⟩,
    ⟨2, fun last => if last = some "m" then .stream ["event: end", "data: 2", "id: e", ""] false else .unreachable, 2⟩,
    ⟨3, fun _ => .unreachable, 3⟩]

/-- Both events of the Run arrive over two connections. -/
theorem watch_exactly_once_ended : Faithful digitLoads endedLog (0 + 10)
    (watchLifecycle digitLoads "t" "r" 10 0 endedRounds) := by
  have trimmed : ∀ text ∈ ["metadata", "end", "1", "2", "m", "e"], Trimmed isSpace text := by
    simp [Trimmed, isSpace]
  have block : ∀ (event : String) (data : String) (id : String), event ∈ ["metadata", "end"] → data ∈ ["1", "2"] →
      id ∈ ["m", "e"] → Carries isSpace ⟨event, [data], some id⟩
        [.field .event " " event "", .field .data " " data "", .field .id " " id ""] := by
    intro event data id events datas ids
    constructor
    · simp only [List.forall_mem_cons, Line.Sound]
      have pad : " ".toList.all isSpace = true := by decide
      have none_ : "".toList.all isSpace = true := by decide
      refine ⟨⟨pad, trimmed _ ?_, none_⟩, ⟨pad, trimmed _ ?_, none_⟩, ⟨pad, trimmed _ ?_, none_⟩, List.forall_mem_nil _⟩
      · exact List.mem_append_left ["1", "2", "m", "e"] events
      · exact List.mem_append_right ["metadata", "end"] (List.mem_append_left ["m", "e"] datas)
      · exact List.mem_append_right ["metadata", "end", "1", "2"] ids
    · rfl
    · rfl
    · rfl
  exact watch_exactly_once digitLoads endedLog endedReplay "t" "r" 10 0 endedRounds (by decide)
    ⟨rfl, by
      intro before frame rest eventId split own
      rcases before with _ | ⟨first, _ | ⟨second, more⟩⟩
      · simp only [endedLog, List.nil_append, List.cons.injEq] at split
        obtain ⟨rfl, rfl⟩ := split
        obtain rfl := Option.some.inj own
        rfl
      · simp only [endedLog, List.cons_append, List.nil_append, List.cons.injEq] at split
        obtain ⟨_, rfl, rfl⟩ := split
        obtain rfl := Option.some.inj own
        rfl
      · have lengths := congrArg List.length split
        simp only [endedLog, List.length_append, List.length_cons, List.length_nil] at lengths
        omega⟩
    (by
      intro frame member _
      simp only [endedLog, List.mem_cons, List.not_mem_nil, or_false] at member
      rcases member with rfl | rfl
      · exact ⟨"m", rfl, by decide⟩
      · exact ⟨"e", rfl, by decide⟩)
    (by
      intro frame member _
      simp only [endedLog, List.mem_cons, List.not_mem_nil, or_false] at member
      rcases member with rfl | rfl
      · exact ⟨.int 1, rfl⟩
      · exact ⟨.int 2, rfl⟩)
    (by
      intro round member last
      simp only [endedRounds, List.mem_cons, List.not_mem_nil, or_false] at member
      rcases member with rfl | rfl | rfl
      · by_cases first : last = none
        · subst first
          exact .stream ⟨[⟨"end", ["2"], some "e"⟩], rfl⟩
            (.frame _ (block "metadata" "1" "m" (by decide) (by decide) (by decide)) (.cut (by decide))) true
        · dsimp only
          rw [if_neg first]
          exact .unreachable
      · by_cases second : last = some "m"
        · subst second
          exact .stream (List.prefix_refl _)
            (.frame _ (block "end" "2" "e" (by decide) (by decide) (by decide)) (.cut (by decide))) false
        · dsimp only
          rw [if_neg second]
          exact .unreachable
      · exact .unreachable)

end Cordboard.AegraClient
