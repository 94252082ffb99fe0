import Cordboard.Proof.Concurrency.OwnerRoute
import Cordboard.Proof.Script

namespace Cordboard.Owner
open Data Effects
open PendingCompletions (Pair)

/-- A process starts without a claim and without a read. -/
def startPhase (_ : Pid) : Phase := ⟨none, none, none⟩

/-- The history decides which claim each process holds. -/
def phaseOf (history : Chronicle) (pid : Pid) : Phase := owner.phase startPhase history pid

theorem phaseOf_act_self (pid : Pid) (event : signature.Event) (history : Chronicle) :
    phaseOf (.act pid event :: history) pid = ownerNext (phaseOf history pid) event.1 event.2 :=
  owner.phase_act_self startPhase pid event history

theorem phaseOf_act_of_ne {pid other : Pid} (different : other ≠ pid) (event : signature.Event) (history : Chronicle) :
    phaseOf (.act pid event :: history) other = phaseOf history other :=
  owner.phase_act_of_ne startPhase different event history

/-- The announced record of this pair takes the claim over. -/
def Phase.hands (phase : Phase) (key : Key) (pair : Pair) : Bool :=
  phase.announced.any fun record => record.1 == pair && record.2.concurrencyHeld && keyOf record.2 == key

/-- The process has stopped. -/
def crashed (pid : Pid) : Chronicle → Bool
  | [] => false
  | .crash other :: history => other == pid || crashed pid history
  | .act .. :: history => crashed pid history

theorem crashed_iff (pid : Pid) (history : Chronicle) : crashed pid history = true ↔ .crash pid ∈ history := by
  induction history with
  | nil => simp [crashed]
  | cons label history ih =>
      cases label with
      | act other event => simp [crashed, ih]
      | crash other => simp [crashed, ih, @eq_comm _ pid]

section
variable (key : Key)

/-- The claim was taken this many times. -/
def takings : Chronicle → Nat
  | [] => 0
  | .act _ ⟨.note (.concurrencyTaken assistant subject _), _⟩ :: history =>
      if (assistant, subject) = key then takings history + 1 else takings history
  | _ :: history => takings history

/-- The number of the last taking by this process. -/
def takenBy (pid : Pid) : Chronicle → Option Nat
  | [] => none
  | .act other ⟨.note (.concurrencyTaken assistant subject _), _⟩ :: history =>
      if other = pid ∧ (assistant, subject) = key then some (takings key history + 1) else takenBy pid history
  | _ :: history => takenBy pid history

/-- The taking that the entry of the pair records. An entry of the start records the claim of the start. -/
def recordedFor (pair : Pair) : Chronicle → Option Nat
  | [] => some 0
  | .act pid ⟨.write .pending _, _⟩ :: history =>
      if (phaseOf history pid).hands key pair then takenBy key pid history else recordedFor pair history
  | _ :: history => recordedFor pair history

/-- The taking that the entry of the pair recorded when the process first read the file. -/
def seenBy (pid : Pid) (pair : Pair) : Chronicle → Option Nat
  | [] => none
  | .act other ⟨.read .pending, _⟩ :: history =>
      if other = pid ∧ lastRead .pending pid history = none then recordedFor key pair history
      else seenBy pid pair history
  | _ :: history => seenBy pid pair history

/-- The claim was released on behalf of the entry since it was recorded. -/
def givenBack (pair : Pair) : Chronicle → Bool
  | [] => false
  | .act pid ⟨.write .pending _, _⟩ :: history => !(phaseOf history pid).hands key pair && givenBack pair history
  | .act _ ⟨.note (.concurrencyReleased assistant subject (.entry deployment threadId) true), _⟩ :: history =>
      ((assistant, subject) == key && (deployment, threadId) == pair) || givenBack pair history
  | _ :: history => givenBack pair history

/-- The entry of the pair holds the claim and has not given it back. -/
def outstanding (history : Chronicle) (world : World) (pair : Pair) : Bool :=
  ((world.board .pending).find? pair).any (fun entry => entry.concurrencyHeld && keyOf entry == key) &&
    !givenBack key pair history

/-- The claim has no holder: no live process has it in its hop, and no entry has it outstanding. -/
def Unheld (history : Chronicle) (world : World) : Prop :=
  (∀ label ∈ history, crashed label.pid history = true ∨ (phaseOf history label.pid).hop ≠ some key) ∧
    ∀ pair ∈ (world.board .pending).keys, outstanding key history world pair = false

instance (history : Chronicle) (world : World) : Decidable (Unheld key history world) :=
  inferInstanceAs (Decidable ((∀ label ∈ history, _ ∨ _) ∧ ∀ pair ∈ (world.board .pending).keys, _))

/-- The taking for which the holder has the claim. -/
def takenFor (pid : Pid) (history : Chronicle) : Holder → Option Nat
  | .entry deployment threadId => seenBy key pid (deployment, threadId) history
  | _ => takenBy key pid history

/-- An entry that a sweep acts for still has the claim outstanding, and has not been recorded again. -/
def Entitled (history : Chronicle) (world : World) (pid : Pid) : Holder → Prop
  | .entry deployment threadId => outstanding key history world (deployment, threadId) = true ∧
      seenBy key pid (deployment, threadId) history = recordedFor key (deployment, threadId) history
  | _ => True

instance (history : Chronicle) (world : World) (pid : Pid) :
    (holder : Holder) → Decidable (Entitled key history world pid holder)
  | .entry deployment threadId => inferInstanceAs (Decidable
      (outstanding key history world (deployment, threadId) = true ∧
        seenBy key pid (deployment, threadId) history = recordedFor key (deployment, threadId) history))
  | .hop _ | .submission => .isTrue trivial

end

/-- The operation takes the claim of this pair. -/
def takes : Effect → Option Key
  | .note (.concurrencyTaken assistant subject _) => some (assistant, subject)
  | _ => none

/-- Each release and each renewal is made for the holder that took the stored claim. -/
def HolderOnly : Chronicle → Prop
  | [] => True
  | .act pid event :: history => (∀ touched ∈ touches event.1,
      takenFor touched.1 pid history touched.2 = some (takings touched.1 history)) ∧ HolderOnly history
  | .crash _ :: history => HolderOnly history

instance decidableHolderOnly : (history : Chronicle) → Decidable (HolderOnly history)
  | [] => .isTrue trivial
  | .act pid event :: history =>
      have : Decidable (HolderOnly history) := decidableHolderOnly history
      inferInstanceAs (Decidable ((∀ touched ∈ touches event.1,
        takenFor touched.1 pid history touched.2 = some (takings touched.1 history)) ∧ HolderOnly history))
  | .crash _ :: history => decidableHolderOnly history

/-- The Run of a live hop is alone under its claim, among the hops and among the tracked Runs. -/
def RunsAlone (history : Chronicle) (world : World) : Prop :=
  ∀ key pid, crashed pid history = false → (phaseOf history pid).hop = some key →
    (∀ other, crashed other history = false → (phaseOf history other).hop = some key → other = pid) ∧
      ∀ pair, outstanding key history world pair = false

/-- A claim is taken only when it has no holder. A sweep acts for an entry only while the entry has the claim
outstanding, and no write of the entries loses another one. -/
def takenWithoutHolder : StepCondition
  | history, world, .act pid event =>
      (event.1.writes .pending = true → lastRead .pending pid history = some (world.board .pending)) ∧
        (∀ key ∈ takes event.1, Unheld key history world) ∧
        ∀ touched ∈ touches event.1, Entitled touched.1 history world pid touched.2
  | _, _, .crash _ => True

instance : (history : Chronicle) → (world : World) → (label : Label signature Pid) →
    Decidable (takenWithoutHolder history world label)
  | history, world, .act pid event => inferInstanceAs (Decidable
      ((event.1.writes .pending = true → lastRead .pending pid history = some (world.board .pending)) ∧
        (∀ key ∈ takes event.1, Unheld key history world) ∧
        ∀ touched ∈ touches event.1, Entitled touched.1 history world pid touched.2))
  | _, _, .crash _ => .isTrue trivial

section
variable {key : Key} {history : Chronicle} {world after : World} {pid : Pid}

theorem phase_seen (history : Chronicle) (pid : Pid) : (phaseOf history pid).seen = lastRead .pending pid history := by
  apply view_eq_lastRead owner .pending Phase.seen ?_ (fun _ => rfl) history pid
  intro phase op answer
  cases op with
  | read store => cases store <;> rfl
  | write store data => cases store <;> rfl
  | note point =>
      cases point with
      | pendingChanged deployment threadId change => cases change <;> rfl
      | concurrencyReleased assistant subject holder effective => cases holder <;> rfl
      | _ => rfl
  | _ => rfl

/-- The hop of a live process has the claim. -/
def HasHop (key : Key) (history : Chronicle) (pid : Pid) : Prop :=
  crashed pid history = false ∧ (phaseOf history pid).hop = some key

/-- Each holder has the claim for the last taking, and a hop has it alone. -/
structure Holds (key : Key) (history : Chronicle) (world : World) : Prop where
  hops : ∀ pid, HasHop key history pid → takenBy key pid history = some (takings key history)
  entries : ∀ pair, outstanding key history world pair = true →
    recordedFor key pair history = some (takings key history)
  alone : ∀ pid, HasHop key history pid → (∀ other, HasHop key history other → other = pid) ∧
    ∀ pair, outstanding key history world pair = false

theorem holds_start (key : Key) (world : World) : Holds key [] world where
  hops pid held := by cases held.2
  entries _ _ := rfl
  alone pid held := by cases held.2

/-- A step that takes nothing and records nothing leaves fewer holders. -/
theorem holds_fewer {later : Chronicle} (holds : Holds key history world)
    (count : takings key later = takings key history) (taken : ∀ pid, takenBy key pid later = takenBy key pid history)
    (recorded : ∀ pair, recordedFor key pair later = recordedFor key pair history)
    (hops : ∀ pid, HasHop key later pid → HasHop key history pid)
    (entries : ∀ pair, outstanding key later after pair = true → outstanding key history world pair = true) :
    Holds key later after where
  hops pid held := by
    rw [taken, count]
    exact holds.hops pid (hops pid held)
  entries pair held := by
    rw [recorded, count]
    exact holds.entries pair (entries pair held)
  alone pid held := by
    obtain ⟨only, untracked⟩ := holds.alone pid (hops pid held)
    refine ⟨fun other also => only other (hops other also), fun pair => ?_⟩
    apply Bool.eq_false_of_not_eq_true
    intro tracked
    have before := entries pair tracked
    rw [untracked pair] at before
    cases before

theorem holds_crash (holds : Holds key history world) : Holds key (.crash pid :: history) (World.stop pid world) := by
  have counted : takings key (.crash pid :: history) = takings key history := rfl
  apply holds_fewer holds counted (fun _ => rfl) (fun _ => rfl)
  · intro other held
    have running := held.1
    simp only [crashed, Bool.or_eq_false_iff] at running
    exact ⟨running.2, held.2⟩
  · exact fun _ held => held

theorem takings_act {event : signature.Event} (untaken : takes event.1 ≠ some key) :
    takings key (.act pid event :: history) = takings key history := by
  obtain ⟨op, answer⟩ := event
  cases op with
  | note point =>
      cases point with
      | concurrencyTaken assistant subject holder => exact if_neg fun same => untaken (congrArg some same)
      | _ => rfl
  | _ => rfl

theorem takenBy_act {event : signature.Event} (untaken : takes event.1 ≠ some key) (other : Pid) :
    takenBy key other (.act pid event :: history) = takenBy key other history := by
  obtain ⟨op, answer⟩ := event
  cases op with
  | note point =>
      cases point with
      | concurrencyTaken assistant subject holder => exact if_neg fun same => untaken (congrArg some same.2)
      | _ => rfl
  | _ => rfl

theorem recordedFor_act {event : signature.Event} (unwritten : event.1.writes .pending = false) (pair : Pair) :
    recordedFor key pair (.act pid event :: history) = recordedFor key pair history := by
  obtain ⟨op, answer⟩ := event
  cases op with
  | write store data => cases store <;> first | rfl | cases unwritten
  | _ => rfl

/-- A claim that was given back stays so until the entry is recorded again. -/
theorem givenBack_act {event : signature.Event} (unwritten : event.1.writes .pending = false) {pair : Pair}
    (given : givenBack key pair history = true) : givenBack key pair (.act pid event :: history) = true := by
  obtain ⟨op, answer⟩ := event
  cases op with
  | write store data => cases store <;> first | exact given | cases unwritten
  | note point =>
      cases point with
      | concurrencyReleased assistant subject holder effective =>
          cases holder with
          | entry deployment threadId =>
              cases effective with
              | true =>
                  unfold givenBack
                  rw [given, Bool.or_true]
              | false => exact given
          | _ => exact given
      | _ => exact given
  | _ => exact given

/-- A hop has its claim before a step that takes nothing. -/
theorem hop_next {phase : Phase} {op : Effect} {answer : op.Answer} (untaken : takes op ≠ some key)
    (held : (ownerNext phase op answer).hop = some key) : phase.hop = some key := by
  cases op with
  | read store => cases store <;> exact held
  | write store data =>
      cases store with
      | pending =>
          simp only [ownerNext] at held
          split at held
          · cases held
          · exact held
      | _ => exact held
  | note point =>
      cases point with
      | concurrencyTaken assistant subject holder => exact absurd held untaken
      | concurrencyReleased assistant subject holder effective =>
          cases holder with
          | hop depth => cases held
          | _ => exact held
      | pendingChanged deployment threadId change => cases change <;> exact held
      | _ => exact held
  | _ => exact held

theorem hasHop_act {event : signature.Event} (untaken : takes event.1 ≠ some key) {other : Pid}
    (held : HasHop key (.act pid event :: history) other) : HasHop key history other := by
  refine ⟨held.1, ?_⟩
  have later := held.2
  by_cases same : other = pid
  · subst other
    rw [phaseOf_act_self] at later
    exact hop_next untaken later
  · rwa [phaseOf_act_of_ne same] at later

/-- A step that takes no claim of the pair and writes no entries keeps the invariant. -/
theorem holds_quiet {op : Effect} {answer : op.Answer} (holds : Holds key history world)
    (move : worldStep pid world op answer after) (unwritten : op.writes .pending = false) (untaken : takes op ≠ some key) :
    Holds key (.act pid ⟨op, answer⟩ :: history) after := by
  apply holds_fewer holds (takings_act untaken) (takenBy_act untaken) (recordedFor_act unwritten)
  · exact fun other held => hasHop_act untaken held
  · intro pair held
    unfold outstanding at held ⊢
    rw [worldStep_frame move unwritten] at held
    cases given : givenBack key pair history with
    | true =>
        rw [givenBack_act unwritten given, Bool.not_true, Bool.and_false] at held
        cases held
    | false =>
        rw [Bool.not_false, Bool.and_true]
        exact (Bool.and_eq_true _ _ ▸ held).1

/-- A claim without a holder has no hop. -/
theorem no_hop (unheld : Unheld key history world) (other : Pid) : ¬ HasHop key history other := by
  rintro ⟨running, hop⟩
  by_cases moved : ∃ label ∈ history, label.pid = other
  · obtain ⟨label, member, rfl⟩ := moved
    rcases unheld.1 label member with stopped | free
    · rw [running] at stopped
      cases stopped
    · exact free hop
  · have unmoved : ∀ label ∈ history, label.pid ≠ other := fun label member same => moved ⟨label, member, same⟩
    rw [phaseOf, owner.phase_unmoved startPhase unmoved] at hop
    cases hop

/-- A claim without a holder has no entry. -/
theorem no_entry (unheld : Unheld key history world) (pair : Pair) : outstanding key history world pair = false := by
  by_cases present : pair ∈ (world.board .pending).keys
  · exact unheld.2 pair present
  · rw [File.mem_keys_iff, Option.not_isSome_iff_eq_none] at present
    simp [outstanding, present]

/-- A claim without a holder is taken by one hop. -/
theorem holds_take {assistant subject : String} {holder : Holder}
    (unheld : Unheld (assistant, subject) history world) :
    Holds (assistant, subject) (.act pid ⟨Effect.note (.concurrencyTaken assistant subject holder), ()⟩ :: history)
      world := by
  have own {other : Pid} (held : HasHop (assistant, subject)
      (.act pid ⟨Effect.note (.concurrencyTaken assistant subject holder), ()⟩ :: history) other) : other = pid := by
    by_contra different
    apply no_hop unheld other
    have hop := held.2
    rw [phaseOf_act_of_ne different] at hop
    exact ⟨held.1, hop⟩
  have untracked (pair : Pair) : outstanding (assistant, subject)
      (.act pid ⟨Effect.note (.concurrencyTaken assistant subject holder), ()⟩ :: history) world pair = false :=
    no_entry unheld pair
  refine ⟨?_, ?_, ?_⟩
  · intro other held
    obtain rfl := own held
    simp [takenBy, takings]
  · intro pair held
    rw [untracked pair] at held
    cases held
  · intro other held
    exact ⟨fun another also => (own also).trans (own held).symm, untracked⟩

/-- A held entry of a written file comes from the hop of the writer, or it was outstanding before. -/
theorem outstanding_written {data : Dict Pair PendingEntry} (running : crashed pid history = false)
    (permitted : ownerGuard (phaseOf history pid) (.write .pending data))
    (current : lastRead .pending pid history = some (world.board .pending)) {pair : Pair}
    (held : outstanding key (.act pid ⟨Effect.write .pending data, ()⟩ :: history) (world.write .pending data) pair =
      true) :
    (phaseOf history pid).hands key pair = true ∧ HasHop key history pid ∨
      (phaseOf history pid).hands key pair = false ∧ outstanding key history world pair = true := by
  obtain ⟨file, seen, kept⟩ := permitted
  rw [phase_seen, current, Option.some.injEq] at seen
  subst seen
  simp only [outstanding, World.write_board, Board.put_self, File.find?_content, givenBack, Bool.and_eq_true,
    Option.any_eq_true, beq_iff_eq, Bool.not_eq_true', Bool.and_eq_false_iff] at held
  obtain ⟨⟨entry, stored, waits, own⟩, given⟩ := held
  subst own
  rcases kept pair entry stored waits with ⟨announced, hop⟩ | ⟨stored, silent⟩
  · exact .inl ⟨by simp [Phase.hands, announced, waits], running, hop⟩
  · have unannounced : (phaseOf history pid).hands (keyOf entry) pair = false := by
      apply Bool.eq_false_of_not_eq_true
      intro hands
      simp only [Phase.hands, Option.any_eq_true, Bool.and_eq_true, beq_iff_eq] at hands
      obtain ⟨⟨_, new⟩, announced, ⟨rfl, _⟩, _⟩ := hands
      exact silent new announced
    rw [unannounced] at given
    have ungiven : givenBack (keyOf entry) pair history = false := by simpa using given
    exact .inr ⟨unannounced, by simp [outstanding, stored, waits, ungiven]⟩

/-- A write of the current file keeps the invariant. -/
theorem holds_write {data : Dict Pair PendingEntry} (holds : Holds key history world)
    (running : crashed pid history = false) (permitted : ownerGuard (phaseOf history pid) (.write .pending data))
    (current : lastRead .pending pid history = some (world.board .pending)) :
    Holds key (.act pid ⟨Effect.write .pending data, ()⟩ :: history) (world.write .pending data) := by
  have written {pair : Pair} := @outstanding_written key history world pid data running permitted current pair
  have earlier {other : Pid} (held : HasHop key (.act pid ⟨Effect.write .pending data, ()⟩ :: history) other) :
      HasHop key history other := hasHop_act (by simp [takes]) held
  refine ⟨fun other held => holds.hops other (earlier held), ?_, ?_⟩
  · intro pair held
    rcases written held with ⟨hands, own⟩ | ⟨unannounced, before⟩
    · exact (if_pos hands).trans (holds.hops pid own)
    · exact (if_neg (by simp [unannounced])).trans (holds.entries pair before)
  · intro other held
    obtain ⟨only, untracked⟩ := holds.alone other (earlier held)
    refine ⟨fun another also => only another (earlier also), fun pair => ?_⟩
    apply Bool.eq_false_of_not_eq_true
    intro tracked
    rcases written tracked with ⟨hands, own⟩ | ⟨_, before⟩
    · obtain rfl := only pid own
      have hop := held.2
      have handed : (phaseOf history pid).handsOver = true := by
        simp only [Phase.hands, Option.any_eq_true, Bool.and_eq_true] at hands
        obtain ⟨record, announced, ⟨_, waits⟩, _⟩ := hands
        simp [Phase.handsOver, announced, waits]
      rw [phaseOf_act_self] at hop
      simp [ownerNext, handed] at hop
    · rw [untracked pair] at before
      cases before

/-- One step keeps the invariant. -/
theorem holds_act {op : Effect} {answer : op.Answer} (holds : Holds key history world)
    (running : crashed pid history = false) (permitted : ownerGuard (phaseOf history pid) op)
    (move : worldStep pid world op answer after) (meets : takenWithoutHolder history world (.act pid ⟨op, answer⟩)) :
    Holds key (.act pid ⟨op, answer⟩ :: history) after := by
  by_cases taken : takes op = some key
  · cases op with
    | note point =>
        cases point with
        | concurrencyTaken assistant subject holder =>
            obtain rfl := Option.some.inj taken
            obtain rfl : after = world := move
            exact holds_take (meets.2.1 _ rfl)
        | _ => cases taken
    | _ => cases taken
  · cases unwritten : op.writes .pending with
    | false => exact holds_quiet holds move unwritten taken
    | true =>
        cases op with
        | write store data =>
            obtain rfl : store = .pending := by simpa [Effect.writes] using unwritten
            obtain rfl := move
            exact holds_write holds running permitted (meets.1 unwritten)
        | _ => cases unwritten

/-- A release or a renewal is made for the taking of its holder. -/
theorem takenFor_touched {op : Effect} {touched : Key × Holder} (member : touched ∈ touches op)
    (holds : Holds touched.1 history world) (running : crashed pid history = false)
    (permitted : ownerGuard (phaseOf history pid) op) (entitled : Entitled touched.1 history world pid touched.2) :
    takenFor touched.1 pid history touched.2 = some (takings touched.1 history) := by
  have free : ∀ touched ∈ touches op, (∃ deployment threadId, touched.2 = .entry deployment threadId) ∨
      (phaseOf history pid).hop = some touched.1 := by
    cases op with
    | note point => cases point <;> first | exact permitted | exact fun _ none => by cases none
    | _ => cases member
  obtain ⟨touchedKey, holder⟩ := touched
  have own (hop : (phaseOf history pid).hop = some touchedKey) : takenBy touchedKey pid history =
      some (takings touchedKey history) := holds.hops pid ⟨running, hop⟩
  cases holder with
  | entry deployment threadId => exact entitled.2.trans (holds.entries _ entitled.1)
  | hop depth =>
      rcases free _ member with ⟨_, _, same⟩ | hop
      · cases same
      · exact own hop
  | submission =>
      rcases free _ member with ⟨_, _, same⟩ | hop
      · cases same
      · exact own hop

end

/-- In a run that takes claims without a holder only, each release and each renewal is made for the holder that took
the stored claim, and no two Runs of one pair execute at once. -/
theorem released_for_holder (operations : Pid → Operation) (unanswered : ∀ pid, (operations pid).isSubmit = false)
    (board : Board) {history : Chronicle} {config : Config signature World Pid Unit}
    (reached : Reaches worldSharing takenWithoutHolder (fun pid => (operations pid).perform) (World.fresh board)
      history config) : HolderOnly history ∧ RunsAlone history config.shared := by
  have invariant : HolderOnly history ∧ ∀ key, Holds key history config.shared := by
    apply owner.invariant startPhase (fun pid => perform_obeys (operations pid) (unanswered pid) ⟨rfl, rfl⟩)
      (fun history world => HolderOnly history ∧ ∀ key, Holds key history world)
      ⟨trivial, fun key => holds_start key _⟩ ?_ ?_ reached
    · rintro history world pid op answer after ⟨only, holds⟩ live permitted move meets
      have running : crashed pid history = false := by
        apply Bool.eq_false_of_not_eq_true
        rwa [crashed_iff]
      refine ⟨⟨?_, only⟩, fun key => holds_act (holds key) running permitted move meets⟩
      intro touched member
      exact takenFor_touched member (holds _) running permitted (meets.2.2 touched member)
    · exact fun history world pid holds _ => ⟨holds.1, fun key => holds_crash (holds.2 key)⟩
  refine ⟨invariant.1, fun key pid running hop => ?_⟩
  obtain ⟨only, untracked⟩ := (invariant.2 key).alone pid ⟨running, hop⟩
  exact ⟨fun other live also => only other ⟨live, also⟩, untracked⟩

/-- An interrupted Run still has its claim on the board, and the claim is stale. -/
def staleBoard : Board
  | .connections => .content (Dict.empty.set "local" ⟨"http://localhost", [], none⟩)
  | .rules => .content [⟨"review", .manual, [], [], "local", "graph", "subject", []⟩]
  | .concurrency => .content (Dict.empty.set ("graph", "42") ⟨0⟩)
  | .pending => .content (Dict.empty.set ("local", "thread-1")
      ⟨"local", "thread-1", "run-0", "graph", "42", 0, true, false, 0⟩)
  | _ => .missing

/-- Process 1 sweeps. Each other process routes a Signal of its own. -/
def arrivals (pid : Pid) : Operation :=
  if pid = 1 then .sweep 120 1000
  else .route .manual (String.ofList (List.replicate (pid + 1) 'e')) [("subject", .str "42")] 120 1000

/-- The processes of the scenario take these turns. -/
def scenario (script : Script) (condition : StepCondition)
    [∀ history world label, Decidable (condition history world label)] (turns : List (Turn Pid)) :
    Option (Reached signature World Pid Unit) :=
  script.shared.scheduler.run condition turns ⟨[], ⟨World.fresh staleBoard, fun pid => some (arrivals pid).perform⟩⟩

theorem scenario_reaches {script : Script} {condition : StepCondition}
    [∀ history world label, Decidable (condition history world label)] {turns : List (Turn Pid)}
    {reached : Reached signature World Pid Unit} (played : scenario script condition turns = some reached) :
    Reaches worldSharing condition (fun pid => (arrivals pid).perform) (World.fresh staleBoard) reached.history
      reached.config :=
  script.shared.scheduler.run_reaches condition .start played

/-- The sweep ends before the Signal arrives. -/
def sweepFirst : Option (Reached signature World Pid Unit) :=
  scenario calm takenWithoutHolder (turnsOf 1 12 ++ turnsOf 0 24)

theorem released_for_holder_sweepFirst :
    ∃ reached, sweepFirst = some reached ∧
      (∀ pid, (arrivals pid).isSubmit = false) ∧ takings ("graph", "42") reached.history = 1 ∧
      HolderOnly reached.history ∧ RunsAlone reached.history reached.config.shared := by
  have unanswered (pid : Pid) : (arrivals pid).isSubmit = false := by
    unfold arrivals
    split <;> rfl
  obtain ⟨reached, played⟩ := Option.isSome_iff_exists.mp (show sweepFirst.isSome = true by decide +kernel)
  have taken : (sweepFirst.map fun reached => takings ("graph", "42") reached.history) = some 1 := by decide +kernel
  rw [played] at taken
  exact ⟨reached, played, unanswered, Option.some.inj taken,
    released_for_holder arrivals unanswered staleBoard (scenario_reaches played)⟩

/-- Process 0 reclaims the stale claim, the sweep releases it for the interrupted Run, and process 2 takes it again. -/
def reclaimFirst : Option (Reached signature World Pid Unit) :=
  scenario calm anyStep (turnsOf 0 11 ++ turnsOf 1 12 ++ turnsOf 2 11)

/-- The sweep releases a claim that its holder has lost, and two Runs of one pair execute at once. -/
theorem released_for_another :
    ∃ history config, Reaches worldSharing anyStep (fun pid => (arrivals pid).perform) (World.fresh staleBoard)
      history config ∧ ¬ HolderOnly history ∧ ¬ RunsAlone history config.shared := by
  obtain ⟨reached, played⟩ := Option.isSome_iff_exists.mp (show reclaimFirst.isSome = true by decide +kernel)
  have wrong : (reclaimFirst.map fun reached => decide (HolderOnly reached.history)) = some false := by decide +kernel
  have hops : (reclaimFirst.map fun reached =>
      (crashed 0 reached.history, crashed 2 reached.history, (phaseOf reached.history 0).hop,
        (phaseOf reached.history 2).hop)) = some (false, false, some ("graph", "42"), some ("graph", "42")) := by
    decide +kernel
  rw [played] at wrong hops
  simp only [Option.map_some, Option.some.injEq, decide_eq_false_iff_not, Prod.mk.injEq] at wrong hops
  obtain ⟨first, second, hop, another⟩ := hops
  refine ⟨reached.history, reached.config, scenario_reaches played, wrong, ?_⟩
  intro alone
  have same := (alone ("graph", "42") 0 first hop).1 2 second another
  cases same

end Cordboard.Owner
