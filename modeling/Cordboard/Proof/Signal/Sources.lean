import Cordboard.Construction.Signals
import Cordboard.Effects.Session
import Cordboard.Proof.Signal.SubmitOnce

namespace Cordboard.Signals
open Data Effects SignalDedupe Router

section
variable {width value other : Nat} {rest rest' : List Char}

@[simp] theorem length_digits (width value : Nat) : (digits width value).length = width := by
  induction width generalizing value with
  | zero => rfl
  | succ width ih => rw [digits, List.length_append, ih, List.length_singleton]

/-- A padded number is read back. -/
theorem digits_inj (fits : value < 10 ^ width) (fits' : other < 10 ^ width)
    (same : digits width value = digits width other) : value = other := by
  induction width generalizing value other with
  | zero => omega
  | succ width ih =>
      obtain ⟨front, last⟩ := List.append_inj same (by simp)
      have tens := ih (by omega) (by omega) front
      have ones := congrArg Char.toNat (List.cons.inj last).1
      rw [Nat.toNat_digitChar_of_lt_ten (Nat.mod_lt _ (by omega)),
        Nat.toNat_digitChar_of_lt_ten (Nat.mod_lt _ (by omega))] at ones
      omega

/-- A padded number ends where its width ends. -/
theorem digits_append (fits : value < 10 ^ width) (fits' : other < 10 ^ width)
    (same : digits width value ++ rest = digits width other ++ rest') : value = other ∧ rest = rest' := by
  obtain ⟨front, back⟩ := List.append_inj same (by simp)
  exact ⟨digits_inj fits fits' front, back⟩

theorem isDigit_digits (width value : Nat) : ∀ c ∈ digits width value, c.isDigit = true := by
  induction width generalizing value with
  | zero => simp [digits]
  | succ width ih =>
      intro c member
      rcases List.mem_append.mp member with front | last
      · exact ih _ c front
      · rw [List.mem_singleton.mp last, Nat.isDigit_digitChar, decide_eq_true (Nat.mod_lt _ (by omega))]

/-- A fraction ends before a character that is no point. -/
theorem fraction_append (fits : value < 1000000) (fits' : other < 1000000) (plain : rest.head? ≠ some '.')
    (plain' : rest'.head? ≠ some '.') (same : fraction value ++ rest = fraction other ++ rest') :
    value = other ∧ rest = rest' := by
  unfold fraction at same
  split at same <;> split at same
  · exact ⟨by omega, same⟩
  · rw [List.nil_append] at same
    exact absurd (congrArg List.head? same) plain
  · rw [List.nil_append] at same
    exact absurd (congrArg List.head? same).symm plain'
  · exact digits_append (by omega) (by omega) (List.cons.inj same).2

end

theorem Offset.isoformat_inj {first second : Offset} (same : first.isoformat = second.isoformat) : first = second := by
  have bounded := first.bounded
  have bounded' := second.bounded
  unfold Offset.isoformat at same
  dsimp only at same
  obtain ⟨sign, clock⟩ := List.cons.inj same
  obtain ⟨hours, clock⟩ := digits_append (by omega) (by omega) clock
  obtain ⟨minutes, clock⟩ := digits_append (by omega) (by omega) (List.cons.inj clock).2
  have below : first.micros < 0 ↔ second.micros < 0 := by
    by_cases one : first.micros < 0 <;> by_cases two : second.micros < 0 <;> simp [one, two] at sign ⊢
  have micros : first.micros.natAbs = second.micros.natAbs := by
    split at clock <;> split at clock
    · omega
    · cases clock
    · cases clock
    · obtain ⟨seconds, tail⟩ := digits_append (by omega) (by omega) (List.cons.inj clock).2
      rw [← List.append_nil (fraction _), ← List.append_nil (fraction (second.micros.natAbs % 1000000))] at tail
      have parts := (fraction_append (by omega) (by omega) (by simp) (by simp) tail).1
      omega
  obtain ⟨one, _⟩ := first
  obtain ⟨two, _⟩ := second
  congr 1
  dsimp only at below micros
  omega

/-- An offset starts with its sign. -/
theorem Offset.head_isoformat (offset : Option Offset) :
    ((offset.map Offset.isoformat).getD []).head? ≠ some '.' := by
  cases offset with
  | none => simp
  | some offset =>
      show some (if offset.micros < 0 then '-' else '+') ≠ some '.'
      split <;> decide

/-- A time is read back from its ISO text. -/
theorem isoformat_inj {first second : DateTime} (same : first.isoformat = second.isoformat) : first = second := by
  obtain ⟨year, month, day, hour, minute, second_, micros, offset⟩ := first
  obtain ⟨year', month', day', hour', minute', second', micros', offset'⟩ := second
  unfold DateTime.isoformat at same
  dsimp only at same
  obtain ⟨years, same⟩ := digits_append (by omega) (by omega) same
  obtain ⟨months, same⟩ := digits_append (by omega) (by omega) (List.cons.inj same).2
  obtain ⟨days, same⟩ := digits_append (by omega) (by omega) (List.cons.inj same).2
  obtain ⟨hours, same⟩ := digits_append (by omega) (by omega) (List.cons.inj same).2
  obtain ⟨minutes, same⟩ := digits_append (by omega) (by omega) (List.cons.inj same).2
  obtain ⟨seconds, same⟩ := digits_append (by omega) (by omega) (List.cons.inj same).2
  obtain ⟨fractions, same⟩ := fraction_append micros.isLt micros'.isLt (Offset.head_isoformat _)
    (Offset.head_isoformat _) same
  have offsets : offset = offset' := by
    cases offset with
    | none =>
        cases offset' with
        | none => rfl
        | some offset' => cases same
    | some offset =>
        cases offset' with
        | none => cases same
        | some offset' => rw [Offset.isoformat_inj same]
  rw [Fin.ext years, Fin.ext months, Fin.ext days, Fin.ext hours, Fin.ext minutes, Fin.ext seconds, Fin.ext fractions,
    offsets]

/-- The character two places after a colon is no digit. -/
def colonsApart : List Char → Bool
  | [] => true
  | c :: rest => (c != ':' || !(rest[2]?.any Char.isDigit)) && colonsApart rest

theorem colonsApart_append {front rest : List Char} (plain : ∀ c ∈ front, c ≠ ':') :
    colonsApart (front ++ rest) = colonsApart rest := by
  induction front with
  | nil => rfl
  | cons c front ih =>
      have tail := ih fun c member => plain c (List.mem_cons_of_mem _ member)
      rw [List.cons_append, colonsApart, tail, bne_iff_ne.mpr (plain c List.mem_cons_self), Bool.true_or, Bool.true_and]

theorem colonsApart_of_append {front rest : List Char} (apart : colonsApart (front ++ rest) = true) :
    colonsApart rest = true := by
  induction front with
  | nil => exact apart
  | cons c front ih =>
      rw [List.cons_append, colonsApart, Bool.and_eq_true] at apart
      exact ih apart.2

theorem digits_plain (width value : Nat) : ∀ c ∈ digits width value, c ≠ ':' := by
  rintro c member rfl
  exact absurd (isDigit_digits width value _ member) (by decide)

theorem fraction_plain (micros : Nat) : ∀ c ∈ fraction micros, c ≠ ':' := by
  unfold fraction
  split
  · simp
  · exact List.forall_mem_cons.mpr ⟨by decide, digits_plain 6 micros⟩

/-- Two digits after a colon end before a character that is no digit. -/
theorem colonsApart_pair {value : Nat} {rest : List Char} (ends : rest.head?.any Char.isDigit = false) :
    colonsApart (':' :: (digits 2 value ++ rest)) = colonsApart rest := by
  have third : (digits 2 value ++ rest)[2]? = rest.head? := by
    rw [List.getElem?_append_right (by simp), length_digits, Nat.sub_self, List.head?_eq_getElem?]
  rw [colonsApart, third, ends, colonsApart_append (digits_plain 2 value)]
  rfl

theorem colonsApart_offset (offset : Option Offset) : colonsApart ((offset.map Offset.isoformat).getD []) = true := by
  cases offset with
  | none => rfl
  | some offset =>
      show colonsApart offset.isoformat = true
      unfold Offset.isoformat
      dsimp only
      have signed {rest : List Char} : colonsApart ((if offset.micros < 0 then '-' else '+') :: rest) =
          colonsApart rest := by split <;> rfl
      rw [signed, colonsApart_append (digits_plain 2 _)]
      split
      · rw [colonsApart_pair rfl]
        rfl
      · rw [colonsApart_pair (by rfl), colonsApart_pair, ← List.append_nil (fraction _),
          colonsApart_append (fraction_plain _)]
        · rfl
        · unfold fraction
          split <;> rfl

theorem head_clock (micros : Nat) (offset : Option Offset) :
    (fraction micros ++ (offset.map Offset.isoformat).getD []).head?.any Char.isDigit = false := by
  unfold fraction
  split
  · cases offset with
    | none => rfl
    | some offset =>
        show (some (if offset.micros < 0 then '-' else '+')).any Char.isDigit = false
        split <;> rfl
  · rfl

theorem colonsApart_isoformat (time : DateTime) : colonsApart time.isoformat = true := by
  unfold DateTime.isoformat
  have dashed {c : Char} {rest : List Char} (plain : c ≠ ':') : colonsApart (c :: rest) = colonsApart rest :=
    @colonsApart_append [c] rest (by simpa using plain)
  rw [colonsApart_append (digits_plain 4 _), dashed (by decide), colonsApart_append (digits_plain 2 _),
    dashed (by decide), colonsApart_append (digits_plain 2 _), dashed (by decide),
    colonsApart_append (digits_plain 2 _), colonsApart_pair rfl, colonsApart_pair (head_clock _ _),
    colonsApart_append (fraction_plain _), colonsApart_offset]

theorem third_isoformat (time : DateTime) : time.isoformat[2]?.any Char.isDigit = true := by
  have inside : 2 < (digits 4 time.year).length := by simp
  rw [DateTime.isoformat, List.getElem?_append_left inside, List.getElem?_eq_getElem inside]
  exact isDigit_digits 4 time.year _ (List.getElem_mem inside)

/-- A name is told apart from the time after it, whatever colons it has. -/
theorem named_inj {name name' : List Char} {tick tick' : DateTime}
    (same : name ++ ':' :: tick.isoformat = name' ++ ':' :: tick'.isoformat) : name = name' ∧ tick = tick' := by
  have shorter {name name' middle : List Char} {tick tick' : DateTime} (longer : name' = name ++ middle)
      (rest : ':' :: tick.isoformat = middle ++ ':' :: tick'.isoformat) : name = name' ∧ tick = tick' := by
    cases middle with
    | nil => exact ⟨by simp [longer], isoformat_inj (List.cons.inj rest).2⟩
    | cons c middle =>
        have inner : tick.isoformat = middle ++ ':' :: tick'.isoformat := (List.cons.inj rest).2
        have apart := colonsApart_isoformat tick
        rw [inner] at apart
        have colon := colonsApart_of_append apart
        rw [colonsApart, third_isoformat] at colon
        cases colon
  rcases List.append_eq_append_iff.mp same with ⟨middle, longer, rest⟩ | ⟨middle, longer, rest⟩
  · exact shorter longer rest
  · obtain ⟨names, ticks⟩ := shorter longer rest
    exact ⟨names.symm, ticks.symm⟩

/-- A Signal reports one of these. -/
inductive Event where
  | call (now : DateTime)
  | content (path text : String)
  | tick (name : String) (time : DateTime)
  | completion (runId : String)

def Event.id (host : Host) : Event → String
  | .call now => "manual:" ++ now.text
  | .content path text => "file:" ++ path ++ ":" ++ host.contentHash text
  | .tick name time => "schedule:" ++ name ++ ":" ++ time.text
  | .completion runId => "run.finished:" ++ runId

/-- The contents of a path are the same when their digests agree. -/
def Event.Same (host : Host) : Event → Event → Prop
  | .call now, .call other => now = other
  | .content path text, .content other more => path = other ∧ host.contentHash text = host.contentHash more
  | .tick name time, .tick other later => name = other ∧ time = later
  | .completion runId, .completion other => runId = other
  | _, _ => False

/-- A caller that gives an ID reports no event of this kind. -/
def Origin.event : Origin → Option Event
  | .manual _ none now => some (.call now)
  | .manual _ (some _) _ => none
  | .file path (.text text) => some (.content path text)
  | .file _ _ => none
  | .schedule name tick _ => some (.tick name tick)
  | .finished run => some (.completion run.runId)

section
variable {host : Host} {first second : Event} {origin : Origin} {signal : Signal} {event : Event}

theorem manual_id {payload : Json} {now : DateTime} (made : manualSignal payload none now = .ok signal) :
    signal.id = "manual:" ++ now.text := by
  unfold manualSignal at made
  split at made
  · cases made
    rfl
  · cases made

theorem file_id {path text : String} (made : fileSignal host path (.text text) = .ok signal) :
    signal.id = "file:" ++ path ++ ":" ++ host.contentHash text := by
  unfold fileSignal at made
  dsimp only at made
  split at made
  · cases made
  · cases made
    rfl
  · cases made

theorem schedule_id {name : String} {tick : DateTime} {payload : Option Json}
    (made : scheduleSignal name tick payload = .ok signal) : signal.id = "schedule:" ++ name ++ ":" ++ tick.text := by
  unfold scheduleSignal at made
  dsimp only at made
  split at made
  · cases made
  · split at made
    · cases made
      rfl
    · cases made
      rfl
    · cases made

theorem finished_id {run : FinishedRun} (made : runFinishedSignal run = .ok signal) :
    signal.id = "run.finished:" ++ run.runId := by
  unfold runFinishedSignal at made
  split at made
  · cases made
  · cases made
    rfl

/-- The Signal has the ID of its event. -/
theorem signal_id (made : origin.signal host = .ok signal) (known : origin.event = some event) :
    signal.id = event.id host := by
  cases origin with
  | manual payload signalId now =>
      cases signalId with
      | some signalId => cases known
      | none =>
          obtain rfl := Option.some.inj known
          exact manual_id made
  | file path read =>
      cases read with
      | failed strerror => cases known
      | undecodable message => cases known
      | text text =>
          obtain rfl := Option.some.inj known
          exact file_id made
  | schedule name tick payload =>
      obtain rfl := Option.some.inj known
      exact schedule_id made
  | finished run =>
      obtain rfl := Option.some.inj known
      exact finished_id made

theorem length_contentHash (host : Host) (text : String) : (host.contentHash text).toList.length = 16 := by
  rw [Host.contentHash, String.toList_ofList, List.length_take, (host.sha256 text).sized]
  rfl

/-- The kind of an event shows in the first letter of its ID. -/
def Event.letter : Event → Char
  | .call _ => 'm'
  | .content .. => 'f'
  | .tick .. => 's'
  | .completion _ => 'r'

theorem head_id (host : Host) (event : Event) : (event.id host).toList.head? = some event.letter := by
  cases event <;> simp [Event.id, Event.letter]

/-- A path is told apart from the digest after it. -/
theorem content_inj {path path' text text' : String}
    (same : (Event.content path text).id host = (Event.content path' text').id host) :
    path = path' ∧ host.contentHash text = host.contentHash text' := by
  have chars := congrArg String.toList same
  simp only [Event.id, String.toList_append, List.append_assoc, List.append_cancel_left_eq] at chars
  obtain ⟨paths, rest⟩ := List.append_inj' chars (by simp [length_contentHash])
  exact ⟨String.toList_injective paths, String.toList_injective (List.append_cancel_left rest)⟩

theorem tick_inj {name name' : String} {time time' : DateTime}
    (same : (Event.tick name time).id host = (Event.tick name' time').id host) : name = name' ∧ time = time' := by
  have chars := congrArg String.toList same
  simp only [Event.id, DateTime.text, String.toList_append, String.toList_ofList, List.append_assoc,
    List.append_cancel_left_eq] at chars
  obtain ⟨names, times⟩ := named_inj chars
  exact ⟨String.toList_injective names, times⟩

/-- Two IDs are one when they report the same event, and at no other time. -/
theorem id_eq_iff : first.id host = second.id host ↔ first.Same host second := by
  constructor
  · intro same
    have letters : first.letter = second.letter := by
      have heads := head_id host first
      rw [same, head_id] at heads
      exact (Option.some.inj heads).symm
    cases first with
    | call now =>
        cases second with
        | call other => exact isoformat_inj (String.ofList_injective ((String.append_right_inj _).mp same))
        | _ => simp [Event.letter] at letters
    | content path text =>
        cases second with
        | content other more => exact content_inj same
        | _ => simp [Event.letter] at letters
    | tick name time =>
        cases second with
        | tick other later => exact tick_inj same
        | _ => simp [Event.letter] at letters
    | completion runId =>
        cases second with
        | completion other => exact (String.append_right_inj _).mp same
        | _ => simp [Event.letter] at letters
  · intro same
    cases first with
    | call now =>
        cases second with
        | call other =>
            obtain rfl : now = other := same
            rfl
        | _ => exact same.elim
    | content path text =>
        cases second with
        | content other more => simp [Event.id, same.1, same.2]
        | _ => exact same.elim
    | tick name time =>
        cases second with
        | tick other later => simp [Event.id, same.1, same.2]
        | _ => exact same.elim
    | completion runId =>
        cases second with
        | completion other =>
            obtain rfl : runId = other := same
            rfl
        | _ => exact same.elim

end

/-- The file has a claim of this Signal whose window has not passed. -/
def Live (file : File (Dict String SignalClaim)) (signalId : String) (now : Time) : Prop :=
  ∃ claim, file.find? signalId = some claim ∧ now - claim.claimedAt < window

/-- A claim adds its own record at most, and it is refused when the file has a live one. -/
theorem wp_claim (signalId : String) (now : Time) (board : Board) :
    Fallible.wp boardMachine (claim signalId now window) (fun _ outcome after =>
      (∀ other claim, (after .signalDedupe).find? other = some claim →
        (other = signalId ∧ claim.claimedAt = now) ∨ (board .signalDedupe).find? other = some claim) ∧
      (outcome = .ok false → Live (board .signalDedupe) signalId now)) board := by
  simp only [claim, Fallible.wp_bind, wp_requireTexts]
  cases checkTexts .signalDedupe _ with
  | error exc => exact ⟨fun other claim found => .inr found, fun same => by cases same⟩
  | ok value =>
      simp only [Fallible.after_ok, Fallible.wp_bind, loadSignalDedupe, wp_load]
      refine ⟨trivial, ?_⟩
      rintro file after ⟨read, same⟩
      obtain rfl : board = after := same.symm
      obtain rfl : file = board .signalDedupe := read
      cases decoded : decode .signalDedupe (board .signalDedupe) with
      | error exc => exact ⟨fun other claim found => .inr found, fun same => by cases same⟩
      | ok data =>
          have stored := find?_of_decode decoded
          have pruned {other : String} {claim : SignalClaim}
              (found : (prune data now window).get? other = some claim) :
              (board .signalDedupe).find? other = some claim ∧ now - claim.claimedAt < window := by
            rw [get?_prune, live, Option.filter_eq_some_iff, decide_eq_true_eq] at found
            rw [stored]
            exact found
          simp only [Fallible.after_ok, Fallible.wp_ite, Fallible.wp_bind, wp_writeAtomic, wp_note, Fallible.wp_pure]
          split
          · rename_i present
            refine ⟨trivial, ?_⟩
            rintro written rfl
            refine ⟨trivial, ?_⟩
            rintro noted rfl
            constructor
            · intro other claim found
              rw [Board.put_self, File.find?_content, get?_sorted] at found
              exact .inr (pruned found).1
            · obtain ⟨claim, found⟩ := Option.isSome_iff_exists.mp present
              exact fun _ => ⟨claim, pruned found⟩
          · refine ⟨trivial, ?_⟩
            rintro written rfl
            refine ⟨trivial, ?_⟩
            rintro noted rfl
            constructor
            · intro other claim found
              rw [Board.put_self, File.find?_content, get?_sorted, Dict.get?_set] at found
              split at found
              · rename_i own
                exact .inl ⟨own, (Option.some.inj found) ▸ rfl⟩
              · exact .inr (pruned found).1
            · exact fun same => by cases same

/-- Each claim of the file was heard of at its time. -/
def Explained (heard : String → Time → Prop) (board : Board) : Prop :=
  ∀ signalId claim, (board .signalDedupe).find? signalId = some claim → heard signalId claim.claimedAt

section
variable {A : Type} {heard : String → Time → Prop} {timeout now : Time} {signal : Signal}

theorem explained_within {areas : List Area} (outside : .store .signalDedupe ∉ areas) {program : Py A}
    (within : Within areas program) : Fallible.Keeps boardMachine (Explained heard) program := by
  intro board held
  apply Fallible.wp_mono (wp_within within board)
  rintro _ _ after ⟨-, kept⟩ signalId claim found
  rw [kept _ outside] at found
  exact held signalId claim found

theorem claim_explained {signalId : String} (own : heard signalId now) :
    Fallible.Keeps boardMachine (Explained heard) (claim signalId now defaultRetentionSeconds) := by
  intro board held
  apply Fallible.wp_mono (wp_claim signalId now board)
  rintro _ _ after ⟨added, -⟩ other claim found
  obtain ⟨rfl, same⟩ | before := added other claim found
  · rw [same]
    exact own
  · exact held other claim before

/-- A Signal that was heard of claims under its own ID only. -/
theorem settleRun_explained (own : heard signal.id now) (rule : Rule) (connection : Connection)
    (graphInput : List (String × Json)) (subject : String) : Fallible.Keeps boardMachine (Explained heard)
      (settleRun signal rule connection graphInput subject timeout now) := by
  have executing : Inside .execution (note (.executing signal.id now)) := note_inside _
  have execute : Inside .execution (call (.execute connection.endpoint rule.assistant subject graphInput timeout
      signal.causedByRunId signal.childCascadeDepth)) := call_inside _
  apply settleRun_sequential (keeps_sequential boardMachine (Explained heard))
  · exact submitRun_composed (keeps_sequential boardMachine (Explained heard)).toComposed signal rule connection
      graphInput subject (explained_within (by decide) (DeploymentLifecycle.ensureStarted_inside _ _ _ _ _))
      (claim_explained own) (explained_within (by decide) executing) (explained_within (by decide) execute)
      fun _ => explained_within (by decide) (recordAccepted_within _ _ _ _ _)
  · exact fun _ _ => explained_within (by decide) (releaseUnlessRetained_within _ _ _ _ _ _ _)

/-- A cascade routes completed Runs only. -/
theorem chain_explained {cascade : Signal → Py Response}
    (children : ∀ run, Fallible.Keeps boardMachine (Explained heard) (cascade (.finished run))) (rule : Rule)
    (subject : String) (response : Response) :
    Fallible.Keeps boardMachine (Explained heard) (chain cascade signal rule subject response) := by
  unfold chain
  split
  · split
    · rename_i signalId name result _
      cases made : runFinishedSignal
          ⟨result.runId, subject, rule.connection, rule.assistant, "success", signal.childCascadeDepth⟩ with
      | error exc => exact Fallible.keeps_raise exc
      | ok finished =>
          obtain rfl : finished = .finished _ := by
            unfold runFinishedSignal at made
            split at made
            · cases made
            · exact (Except.ok.inj made).symm
          change Fallible.Keeps boardMachine (Explained heard) (cascade (.finished _) >>= fun child =>
            (pure (.routed signalId name result (some child)) : Py Response))
          exact Fallible.Keeps.bind (children _) fun _ => Fallible.keeps_pure _
    · exact Fallible.keeps_pure _
  · exact Fallible.keeps_pure _

/-- A delivery claims under the ID of its Signal and under those of completed Runs. -/
theorem routeSignal_explained (own : heard signal.id now) (completed : ∀ run : FinishedRun,
    heard (Signal.finished run).id now) :
    Fallible.Keeps boardMachine (Explained heard) (routeSignal signal timeout now) := by
  have hop (fuel : Nat) : ∀ other : Signal, heard other.id now →
      Fallible.Keeps boardMachine (Explained heard) (routeWithin timeout now fuel other) := by
    induction fuel with
    | zero => exact fun _ _ => Fallible.keeps_raise _
    | succ fuel ih =>
        intro other known
        apply routeHop_mapped (keeps_sequential boardMachine (Explained heard)).toComposed
          (fun within => explained_within (by decide) within) other
        intro rule connection graphInput subject
        apply Fallible.Keeps.bind (explained_within (by decide) (Concurrency.tryClaim_inside _ _ _ _ _))
        intro taken
        split
        · exact Fallible.keeps_pure _
        · exact Fallible.Keeps.bind (settleRun_explained known _ _ _ _) fun response =>
            chain_explained (fun run => ih _ (completed run)) _ _ _
  exact hop _ signal own

end

/-- The delivery was answered without a submission, because its Signal was claimed before. -/
def repeats : Response → Bool
  | .duplicate .. => true
  | _ => false

/-- A submission repeats when its response does. -/
def Submitted.repeats (submitted : Submitted) : Bool :=
  match submitted.response with
  | .ok response => Signals.repeats response
  | .error _ => false

section
variable {A : Type} {file : File (Dict String SignalClaim)} {reason : Prop} {timeout now : Time} {signal : Signal}

/-- From this file the program gives a repeated value for this reason only. -/
def Refuses (file : File (Dict String SignalClaim)) (reason : Prop) (program : Py A) (repeated : A → Bool) : Prop :=
  ∀ board : Board, board .signalDedupe = file → Fallible.wp boardMachine program
    (fun _ outcome _ => ∀ value, outcome = .ok value → repeated value = true → reason) board

theorem free (board : Board) (op : Effect) : boardMachine.guard board op := trivial

theorem refuses_of_returns {program : Py A} {repeated : A → Bool}
    (returns : Fallible.Returns boardMachine (fun value => repeated value = false) program) :
    Refuses file reason program repeated := by
  intro board _
  apply Fallible.wp_mono (returns board)
  intro _ outcome _ never value equal again
  rw [never value equal] at again
  cases again

/-- A program outside the store leaves the file to the rest. -/
theorem Refuses.bind {B : Type} {areas : List Area} {program : Py A} {rest : A → Py B} {repeated : B → Bool}
    (within : Within areas program) (outside : .store .signalDedupe ∉ areas)
    (later : ∀ value, Refuses file reason (rest value) repeated) : Refuses file reason (program >>= rest) repeated := by
  intro board same
  apply Fallible.wp_seq (wp_within within board)
  · rintro _ value after ⟨-, kept⟩
    exact later value after ((kept _ outside).trans same)
  · rintro _ exc after _ value equal
    cases equal

/-- The rest repeats only what the first program repeated. -/
theorem Refuses.seq {B : Type} {program : Py A} {rest : A → Py B} {first : A → Bool} {repeated : B → Bool}
    (refuses : Refuses file reason program first)
    (later : ∀ value, Fallible.Returns boardMachine (fun result => repeated result = true → first value = true)
      (rest value)) : Refuses file reason (program >>= rest) repeated := by
  intro board same
  apply Fallible.wp_seq (refuses board same)
  · intro _ value middle known
    apply Fallible.wp_mono (later value middle)
    intro _ outcome _ kept result equal again
    exact known value rfl (kept result equal again)
  · rintro _ exc after _ value equal
    cases equal

theorem Refuses.attempt {program : Py A} {repeated : A → Bool} (refuses : Refuses file reason program repeated) :
    Refuses file reason program.attempt fun outcome => outcome.toOption.any repeated := by
  intro board same
  rw [Fallible.wp_attempt]
  apply Fallible.wp_mono (refuses board same)
  intro _ outcome _ known value equal again
  obtain rfl := Except.ok.inj equal
  cases outcome with
  | ok value => exact known value rfl again
  | error exc => cases again

/-- A submission repeats when the claim was refused. -/
theorem submitStarted_refuses (rule : Rule) (connection : Connection) (graphInput : List (String × Json))
    (subject : String) : Refuses file (Live file signal.id now)
      (submitStarted signal rule connection graphInput subject timeout now) Submitted.repeats := by
  intro board same
  apply Fallible.wp_seq (wp_claim signal.id now board)
  · rintro _ granted after ⟨-, refused⟩
    cases granted with
    | false =>
        rintro value - -
        rw [← same]
        exact refused rfl
    | true =>
        rw [if_neg (by decide)]
        refine refuses_of_returns ?_ after rfl
        apply Fallible.Returns.bind free
        intro _
        apply Fallible.Returns.bind free
        intro answer
        cases answer with
        | error exc =>
            dsimp only
            split
            · exact Fallible.returns_pure rfl
            · exact Fallible.returns_raise _
        | ok result =>
            dsimp only [recordAccepted]
            split
            · exact Fallible.returns_pure rfl
            apply Fallible.Returns.bind free
            intro _
            apply Fallible.Returns.bind free
            intro _
            split
            · exact Fallible.returns_pure rfl
            · apply Fallible.Returns.bind free
              intro recorded
              apply Fallible.returns_pure
              cases recorded <;> rfl
  · rintro _ exc after - value equal
    cases equal

theorem submitRun_refuses (rule : Rule) (connection : Connection) (graphInput : List (String × Json))
    (subject : String) : Refuses file (Live file signal.id now)
      (submitRun signal rule connection graphInput subject timeout now) Submitted.repeats := by
  apply Refuses.bind (DeploymentLifecycle.ensureStarted_inside _ _ _ _ _) (by decide)
  intro started
  cases started with
  | startFailed error => exact refuses_of_returns (Fallible.returns_pure rfl)
  | external => exact submitStarted_refuses _ _ _ _
  | running pid => exact submitStarted_refuses _ _ _ _

theorem settleRun_refuses (rule : Rule) (connection : Connection) (graphInput : List (String × Json))
    (subject : String) : Refuses file (Live file signal.id now)
      (settleRun signal rule connection graphInput subject timeout now) repeats := by
  apply (submitRun_refuses rule connection graphInput subject).attempt.seq
  intro settled
  cases settled with
  | error exc =>
      apply Fallible.Returns.bind free
      intro _
      exact Fallible.returns_raise _
  | ok submitted =>
      apply Fallible.Returns.bind free
      intro _
      obtain ⟨response, _, _⟩ := submitted
      cases response with
      | ok response => exact Fallible.returns_pure id
      | error exc => exact Fallible.returns_raise _

/-- A cascade answers for a routed Signal. -/
theorem chain_repeats (cascade : Signal → Py Response) (rule : Rule) (subject : String) (response : Response) :
    Fallible.Returns boardMachine (fun result => repeats result = true → repeats response = true)
      (chain cascade signal rule subject response) := by
  unfold chain
  split
  · split
    · apply Fallible.Returns.bind free
      intro finished
      apply Fallible.Returns.bind free
      intro child
      exact Fallible.returns_pure id
    · exact Fallible.returns_pure id
  · exact Fallible.returns_pure id

theorem routeByRule_refuses (cascade : Signal → Py Response) : Refuses file (Live file signal.id now)
    (routeByRule cascade timeout now signal) repeats := by
  apply Refuses.bind (load_inside .rules) (by decide)
  intro rules
  split
  · exact Refuses.bind (recordUnmatched_inside _ _) (by decide) fun _ => refuses_of_returns (Fallible.returns_pure rfl)
  apply Refuses.bind (mapRule_within _ _).attempt (by decide)
  intro mapped
  split
  · split
    · exact Refuses.bind (recordUnmatched_inside _ _) (by decide) fun _ =>
        refuses_of_returns (Fallible.returns_pure rfl)
    · exact refuses_of_returns (Fallible.returns_raise _)
  apply Refuses.bind (Concurrency.tryClaim_inside _ _ _ _ _) (by decide)
  intro taken
  split
  · exact refuses_of_returns (Fallible.returns_pure rfl)
  · exact (settleRun_refuses _ _ _ _).seq fun response => chain_repeats _ _ _ response

/-- A delivery is answered as a duplicate when its file has a live claim of its Signal. -/
theorem routeSignal_refuses : Refuses file (Live file signal.id now) (routeSignal signal timeout now) repeats := by
  have hop (fuel : Nat) : Refuses file (Live file signal.id now) (routeWithin timeout now fuel signal) repeats := by
    cases fuel with
    | zero => exact refuses_of_returns (Fallible.returns_raise _)
    | succ fuel =>
        unfold routeWithin routeHop
        split
        · apply Refuses.bind (note_inside (.routing _)) (by simp [Note.area])
          intro _
          split
          · exact Refuses.bind (recordUnmatched_inside _ _) (by decide) fun _ =>
              refuses_of_returns (Fallible.returns_pure rfl)
          · exact routeByRule_refuses _
        · exact routeByRule_refuses _
  exact hop _

end

/-- This watch remembers nothing and permits every step. -/
abbrev unwatched : Watch boardMachine := ⟨Unit, fun _ _ _ => (), fun _ _ _ _ => True, fun _ _ => True⟩

/-- The deliveries come one after another. -/
abbrev intake : Service boardMachine Arrival (Except Exc Response) where
  watch := unwatched
  task arrival := arrival.route.toProgram
  prepare _ _ := ()

/-- A Signal that reports an event is delivered. -/
structure Delivery (host : Host) where
  origin : Origin
  event : Event
  signal : Signal
  known : origin.event = some event
  made : origin.signal host = .ok signal
  timeout : Time
  now : Time

def Delivery.arrival {host : Host} (delivery : Delivery host) : Arrival :=
  ⟨delivery.signal, delivery.timeout, delivery.now⟩

/-- A delivery, a completed Run, or the file at the start gave this claim. -/
def Heard (arrivals : List Arrival) (start : File (Dict String SignalClaim)) (signalId : String) (time : Time) : Prop :=
  (∃ arrival ∈ arrivals, arrival.signal.id = signalId ∧ arrival.now = time) ∨
    (∃ run : FinishedRun, (Signal.finished run).id = signalId) ∨
    ∃ claim, start.find? signalId = some claim ∧ claim.claimedAt = time

theorem session_explained {arrivals : List Arrival} {board : Board} {final : Board × Unit}
    (session : intake.Session arrivals (board, ()) final) :
    Explained (Heard arrivals (board .signalDedupe)) final.1 := by
  apply @Service.Session.keeps _ _ _ _ _ intake
    (fun state => Explained (Heard arrivals (board .signalDedupe)) state.1) arrivals ?_ _ _ session
  · exact fun signalId claim found => .inr (.inr ⟨claim, found, rfl⟩)
  · intro arrival member state held
    have routed : Fallible.wp boardMachine arrival.route _ state.1 :=
      routeSignal_explained (.inl ⟨arrival, member, rfl, rfl⟩) (fun run => .inr (.inl ⟨run, rfl⟩)) state.1 held
    have silent := @Watch.wp_silent _ _ _ _ unwatched (fun _ _ => trivial) _
      (Program.uses_of_all (fun _ _ _ => rfl) _) _ _ routed ()
    apply Program.wp_mono silent
    exact fun _ _ _ kept => kept.1

/-- In every sequence of deliveries, a duplicate of a call, of a content, or of a tick follows a delivery of the same
event inside the window, or a claim that the file held at the start. -/
theorem suppressed_by_itself {host : Host} {deliveries : List (Delivery host)} {last : Delivery host}
    {board final : Board} {middle : Board × Unit} {trace : List signature.Event} {response : Response}
    (session : intake.Session (deliveries.map Delivery.arrival) (board, ()) middle)
    (run : Runs boardMachine last.arrival.route.toProgram middle.1 trace (.ok response) final)
    (again : repeats response = true) :
    (∃ earlier ∈ deliveries, earlier.event.Same host last.event ∧ last.now - earlier.now < window) ∨
      (∃ runId, last.event = .completion runId) ∨ Live (board .signalDedupe) last.signal.id last.now := by
  have refused : Live (middle.1 .signalDedupe) last.signal.id last.now :=
    Fallible.wp_runs (routeSignal_refuses middle.1 rfl) run response rfl again
  have named := signal_id last.made last.known
  obtain ⟨claim, stored, young⟩ := refused
  rcases session_explained session _ _ stored with
    ⟨arrival, member, same, time⟩ | ⟨completed, same⟩ | ⟨old, found, time⟩
  · left
    obtain ⟨earlier, delivered, rfl⟩ := List.mem_map.mp member
    refine ⟨earlier, delivered, id_eq_iff.mp ?_, ?_⟩
    · rw [← signal_id earlier.made earlier.known, ← named]
      exact same
    · rw [← time] at young
      exact young
  · right
    left
    have letter := head_id host last.event
    rw [← named, ← same] at letter
    cases event : last.event with
    | completion runId => exact ⟨runId, rfl⟩
    | _ => simp [event, Event.letter, Signal.id] at letter
  · right
    right
    exact ⟨old, found, by rw [time]; exact young⟩

instance (state : Board) (phase : Unit) (op : Effect) (answer : op.Answer) :
    Decidable (intake.watch.meets state phase op answer) := .isTrue trivial

/-- No text is JSON for this host. -/
def plainHost : Host := ⟨fun _ => none, fun _ => ⟨List.replicate 64 '0', by decide⟩⟩

def morning : DateTime := ⟨2026, 7, 4, 9, 30, 0, 0, some ⟨0, by decide⟩⟩

/-- A call of this morning is delivered at this time. -/
def morningCall (now : Time) : Delivery plainHost where
  origin := .manual (.obj [("subject", .str "42")]) none morning
  event := .call morning
  signal := .external .manual ("manual:" ++ morning.text) [("subject", .str "42")]
  known := rfl
  made := rfl
  timeout := 120
  now := now

/-- The board after the first call. -/
def calledBoard : Option (Board × Unit) :=
  intake.exec (fun _ => calm.resolver) [(morningCall 0).arrival] (dedupeBoard, ())

theorem suppressed_by_itself_redelivered :
    (∃ earlier ∈ [morningCall 0], earlier.event.Same plainHost (morningCall 1).event ∧
        (morningCall 1).now - earlier.now < window) ∨
      (∃ runId, (morningCall 1).event = .completion runId) ∨
        Live (dedupeBoard .signalDedupe) (morningCall 1).signal.id (morningCall 1).now := by
  obtain ⟨middle, ended⟩ := Option.isSome_iff_exists.mp (show calledBoard.isSome = true by decide +kernel)
  have repeated : (calledBoard.map fun middle =>
      (calm.exec (morningCall 1).arrival.route middle.1).value.toOption.any repeats) = some true := by decide +kernel
  rw [ended] at repeated
  have answered : (calm.exec (morningCall 1).arrival.route middle.1).value.toOption.any repeats = true :=
    Option.some.inj repeated
  have run := calm.exec_runs (morningCall 1).arrival.route middle.1
  cases value : (calm.exec (morningCall 1).arrival.route middle.1).value with
  | error exc =>
      rw [value] at answered
      cases answered
  | ok response =>
      rw [value] at answered run
      exact @suppressed_by_itself plainHost [morningCall 0] (morningCall 1) dedupeBoard _ middle _ response
        (intake.exec_session ended) run answered

end Cordboard.Signals
