import Cordboard.Proof.Response.SlotProtocol

namespace Cordboard.ResponseDedupe
open Data Effects

/-- This label is a call of `backend.resume` for the slot. -/
def isResume (slot : Slot) : Label signature Pid → Bool
  | .act _ ⟨.note (.resuming deployment threadId interruptId), _⟩ => (deployment, threadId, interruptId) == slot
  | _ => false

/-- In this label the process receives the answer `True` to its claim of the slot. -/
def granted (slot : Slot) (pid : Pid) : Label signature Pid :=
  .act pid ⟨Effect.note (.responseClaimed slot.1 slot.2.1 slot.2.2 true), ()⟩

/-- The file holds this outcome for the slot. -/
def HasOutcome (slot : Slot) (outcome : ResponseOutcome) (file : File Store.responseDedupe.Data) : Prop :=
  ∃ claim, file.find? slot = some claim ∧ claim.outcome = some outcome

/-- The lock owner holds the current file, and at most one process has a right to the slot. -/
structure Holds (slot : Slot) (start : File Store.responseDedupe.Data) (history : Chronicle)
    (phases : Pid → Phase) (world : World) : Prop where
  owns : ∀ pid, Label.crash pid ∉ history → (phases pid).place ≠ .outside →
    world.owner .responseDedupe = some pid
  fresh : ∀ pid file, Label.crash pid ∉ history → (phases pid).place = .loaded file →
    world.board .responseDedupe = file
  filled : ∀ pid, (phases pid).right ≠ .none → ((world.board .responseDedupe).find? slot).isSome
  unique : ∀ first second, (phases first).right ≠ .none → (phases second).right ≠ .none → first = second
  earned : ∀ pid, (phases pid).right = .granted ∨ (phases pid).right = .spent → granted slot pid ∈ history
  spent : ∀ pid event, .act pid event ∈ history → isResume slot (.act pid event) → (phases pid).right = .spent
  once : history.countP (isResume slot) ≤ 1
  ordered : ∀ newer older pid event, history = newer ++ .act pid event :: older →
    isResume slot (.act pid event) → granted slot pid ∈ older
  stable : ∀ file ∈ contents .responseDedupe start history, ∀ outcome,
    HasOutcome slot outcome file → HasOutcome slot outcome (world.board .responseDedupe)

section
variable {slot : Slot} {start : File Store.responseDedupe.Data} {history : Chronicle} {phases : Pid → Phase}
  {world after : World} {pid : Pid}

theorem holds_start (board : Board) :
    Holds slot (board .responseDedupe) [] (fun _ => ⟨.outside, .none⟩) (World.fresh board) where
  owns _ _ inside := absurd rfl inside
  fresh _ _ _ inside := by cases inside
  filled _ right := absurd rfl right
  unique _ _ right := absurd rfl right
  earned _ right := by rcases right with right | right <;> cases right
  spent _ _ member := absurd member List.not_mem_nil
  once := Nat.zero_le 1
  ordered newer older pid event split := by simp at split
  stable file member outcome recorded := by
    obtain rfl := List.mem_singleton.mp member
    exact recorded

/-- The newest label of an ordered history either is no resume or follows its grant. -/
theorem ordered_cons (holds : Holds slot start history phases world) {label : Label signature Pid}
    (head : ∀ pid event, label = .act pid event → isResume slot label → granted slot pid ∈ history) :
    ∀ newer older pid event, label :: history = newer ++ .act pid event :: older →
      isResume slot (.act pid event) → granted slot pid ∈ older := by
  intro newer older pid event split resumes
  cases newer with
  | nil =>
      obtain ⟨rfl, rfl⟩ := List.cons.inj split
      exact head pid event rfl resumes
  | cons first newer =>
      obtain ⟨-, rest⟩ := List.cons.inj split
      exact holds.ordered newer older pid event rest resumes

/-- A step that keeps the file and the rights keeps the invariant when the lock still agrees. -/
theorem holds_quiet (holds : Holds slot start history phases world) {label : Label signature Pid}
    {later : Pid → Phase} (quiet : isResume slot label = false)
    (rights : ∀ pid, (later pid).right = (phases pid).right)
    (file : after.board .responseDedupe = world.board .responseDedupe)
    (same : contents .responseDedupe start (label :: history) = contents .responseDedupe start history)
    (owns : ∀ pid, Label.crash pid ∉ label :: history → (later pid).place ≠ .outside →
      after.owner .responseDedupe = some pid)
    (fresh : ∀ pid file, Label.crash pid ∉ label :: history → (later pid).place = .loaded file →
      after.board .responseDedupe = file) :
    Holds slot start (label :: history) later after where
  owns := owns
  fresh := fresh
  filled pid right := by
    rw [file]
    exact holds.filled pid (rights pid ▸ right)
  unique first second one two := holds.unique first second (rights first ▸ one) (rights second ▸ two)
  earned pid right := by
    rw [rights] at right
    exact List.mem_cons_of_mem _ (holds.earned pid right)
  spent pid event member resumes := by
    rw [rights]
    rcases List.mem_cons.mp member with rfl | older
    · simp [quiet] at resumes
    · exact holds.spent pid event older resumes
  once := by simpa [List.countP_cons, quiet] using holds.once
  ordered := ordered_cons holds fun _ _ _ resumes => by simp [quiet] at resumes
  stable old member outcome recorded := by
    rw [file]
    exact holds.stable old (same ▸ member) outcome recorded

/-- A stopped process leaves its lock and keeps its rights. -/
theorem holds_crash (holds : Holds slot start history phases world) (pid : Pid) :
    Holds slot start (.crash pid :: history) phases (world.stop pid) := by
  refine holds_quiet holds rfl (fun _ => rfl) rfl rfl ?_ ?_
  · intro other running inside
    rw [List.mem_cons, not_or] at running
    have owner := holds.owns other running.2 inside
    have different : other ≠ pid := fun same => running.1 (congrArg Label.crash same)
    simp [World.stop, owner, different]
  · intro other file running place
    rw [List.mem_cons, not_or] at running
    exact holds.fresh other file running.2 place

/-- The other processes keep their phases. -/
theorem place_of_update {phase : Phase} {other : Pid} (different : other ≠ pid) :
    Function.update phases pid phase other = phases other := Function.update_of_ne different ..

/-- A process that neither moves nor gains a right keeps the invariant. -/
theorem holds_same (holds : Holds slot start history phases world) {event : signature.Event}
    (quiet : isResume slot (.act pid event) = false)
    (file : after.board .responseDedupe = world.board .responseDedupe)
    (same : contents .responseDedupe start (.act pid event :: history) = contents .responseDedupe start history)
    (owner : after.owner .responseDedupe = world.owner .responseDedupe) :
    Holds slot start (.act pid event :: history) (Function.update phases pid (phases pid)) after := by
  rw [Function.update_eq_self]
  refine holds_quiet holds quiet (fun _ => rfl) file same ?_ ?_
  · intro other running inside
    rw [owner]
    exact holds.owns other (fun stopped => running (List.mem_cons_of_mem _ stopped)) inside
  · intro other stored running place
    rw [file]
    exact holds.fresh other stored (fun stopped => running (List.mem_cons_of_mem _ stopped)) place

/-- A phase of the moving process does not change the rights of any process. -/
theorem rights_of_update {phase : Phase} (same : phase.right = (phases pid).right) (other : Pid) :
    (Function.update phases pid phase other).right = (phases other).right := by
  by_cases moved : other = pid
  · rw [moved, Function.update_self, same]
  · rw [place_of_update moved]

/-- A lock is free when a process takes it, so every other process is outside. -/
theorem holds_lock (holds : Holds slot start history phases world) (free : world.owner .responseDedupe = none) :
    Holds slot start (.act pid ⟨Effect.lock .responseDedupe, ()⟩ :: history)
      (Function.update phases pid ⟨.entered, (phases pid).right⟩)
      (world.take pid .responseDedupe) := by
  have outside (other : Pid) (running : Label.crash other ∉ history) : (phases other).place = .outside := by
    by_contra inside
    exact absurd (holds.owns other running inside) (by simp [free])
  refine holds_quiet holds rfl (rights_of_update rfl) rfl rfl ?_ ?_
  · intro other running inside
    by_cases moved : other = pid
    · rw [moved, World.take_owner_self]
    · rw [place_of_update moved] at inside
      exact absurd (outside other fun stopped => running (List.mem_cons_of_mem _ stopped)) inside
  · intro other file running place
    by_cases moved : other = pid
    · rw [moved, Function.update_self] at place
      cases place
    · rw [place_of_update moved, outside other fun stopped => running (List.mem_cons_of_mem _ stopped)] at place
      cases place

/-- Two running processes are not inside at the same time. -/
theorem alone (holds : Holds slot start history phases world) {other : Pid}
    (inside : (phases pid).place ≠ .outside) (running : Label.crash pid ∉ history)
    (inside' : (phases other).place ≠ .outside) (running' : Label.crash other ∉ history) : other = pid :=
  Option.some.inj ((holds.owns other running' inside').symm.trans (holds.owns pid running inside))

/-- The owner leaves the lock to nobody. -/
theorem holds_unlock (holds : Holds slot start history phases world) (running : Label.crash pid ∉ history)
    (inside : (phases pid).place ≠ .outside) :
    Holds slot start (.act pid ⟨Effect.unlock .responseDedupe, ()⟩ :: history)
      (Function.update phases pid ⟨.outside, (phases pid).right⟩) (world.free pid .responseDedupe) := by
  refine holds_quiet holds rfl (rights_of_update rfl) rfl rfl ?_ ?_
  · intro other later place
    by_cases moved : other = pid
    · rw [moved, Function.update_self] at place
      exact absurd rfl place
    · rw [place_of_update moved] at place
      exact absurd (alone holds inside running place fun stopped => later (List.mem_cons_of_mem _ stopped)) moved
  · intro other file later place
    by_cases moved : other = pid
    · rw [moved, Function.update_self] at place
      cases place
    · rw [place_of_update moved] at place
      exact holds.fresh other file (fun stopped => later (List.mem_cons_of_mem _ stopped)) place

/-- The owner reads the current file. -/
theorem holds_read (holds : Holds slot start history phases world) (running : Label.crash pid ∉ history)
    (inside : (phases pid).place ≠ .outside) :
    Holds slot start (.act pid ⟨Effect.read .responseDedupe, world.board .responseDedupe⟩ :: history)
      (Function.update phases pid ⟨.loaded (world.board .responseDedupe), (phases pid).right⟩) world := by
  refine holds_quiet holds rfl (rights_of_update rfl) rfl rfl ?_ ?_
  · intro other later place
    by_cases moved : other = pid
    · rw [moved]
      exact holds.owns pid running inside
    · rw [place_of_update moved] at place
      exact holds.owns other (fun stopped => later (List.mem_cons_of_mem _ stopped)) place
  · intro other file later place
    by_cases moved : other = pid
    · rw [moved, Function.update_self] at place
      exact Section.loaded.inj place
    · rw [place_of_update moved] at place
      exact holds.fresh other file (fun stopped => later (List.mem_cons_of_mem _ stopped)) place

/-- A filled slot was empty before, so no process had a right to it. -/
theorem right_of_fills (holds : Holds slot start history phases world) {file : File Store.responseDedupe.Data}
    (current : world.board .responseDedupe = file) {data : Store.responseDedupe.Data}
    (fill : fills slot (.loaded file) data = true) (other : Pid) : (phases other).right = .none := by
  by_contra right
  have filled := holds.filled other right
  rw [current] at filled
  simp only [fills, Bool.and_eq_true] at fill
  simp [Option.isNone_iff_eq_none.mp fill.1] at filled

/-- The owner replaces the current file by one that follows from it. -/
theorem holds_write (holds : Holds slot start history phases world) (running : Label.crash pid ∉ history)
    {data : Store.responseDedupe.Data} {file : File Store.responseDedupe.Data}
    (place : (phases pid).place = .loaded file) (follows : Follows (file.find? slot) (Dict.get? data slot)) :
    Holds slot start (.act pid ⟨Effect.write .responseDedupe data, ()⟩ :: history)
      (Function.update phases pid ⟨.entered, if fills slot (.loaded file) data then .written else (phases pid).right⟩)
      (world.write .responseDedupe data) := by
  have inside : (phases pid).place ≠ .outside := by simp [place]
  have current := holds.fresh pid file running place
  have owner := holds.owns pid running inside
  have stored : (world.write .responseDedupe data).board .responseDedupe = .content data :=
    world.board.put_self .responseDedupe data
  have others {other : Pid} (later : Label.crash other ∉ .act pid ⟨Effect.write .responseDedupe data, ()⟩ :: history)
      (within : (phases other).place ≠ .outside) : other = pid :=
    alone holds inside running within fun stopped => later (List.mem_cons_of_mem _ stopped)
  -- A right after the write is an old right, or the write filled the slot.
  have rights (other : Pid) : (Function.update phases pid
      ⟨.entered, if fills slot (.loaded file) data then .written else (phases pid).right⟩ other).right =
        if other = pid ∧ fills slot (.loaded file) data then .written else (phases other).right := by
    by_cases moved : other = pid
    · subst other
      simp
    · simp [moved]
  refine ⟨?_, ?_, ?_, ?_, ?_, ?_, ?_, ?_, ?_⟩
  · intro other later within
    by_cases moved : other = pid
    · rw [moved]
      exact owner
    · rw [place_of_update moved] at within
      exact absurd (others later within) moved
  · intro other stale later loaded
    by_cases moved : other = pid
    · rw [moved, Function.update_self] at loaded
      cases loaded
    · rw [place_of_update moved] at loaded
      exact absurd (others later (by simp [loaded])) moved
  · intro other right
    rw [rights] at right
    rw [stored, File.find?_content]
    by_cases fill : fills slot (.loaded file) data = true
    · simp only [fills, Bool.and_eq_true] at fill
      exact fill.2
    · simp only [fill, and_false, if_false, Bool.false_eq_true] at right
      have filled := holds.filled other right
      rw [current] at filled
      obtain ⟨claim, found⟩ := Option.isSome_iff_exists.mp filled
      obtain ⟨next, new, -⟩ := follows claim found
      simp [new]
  · intro first second one two
    rw [rights] at one two
    by_cases fill : fills slot (.loaded file) data = true
    · simp only [right_of_fills holds current fill, fill, and_true] at one two
      have first_ : first = pid := by by_contra other; simp [other] at one
      have second_ : second = pid := by by_contra other; simp [other] at two
      rw [first_, second_]
    · simp only [fill, and_false, if_false, Bool.false_eq_true] at one two
      exact holds.unique first second one two
  · intro other right
    rw [rights] at right
    apply List.mem_cons_of_mem
    split at right
    · rcases right with right | right <;> cases right
    · exact holds.earned other right
  · intro other event member resumes
    rcases List.mem_cons.mp member with same | older
    · cases same
      simp [isResume] at resumes
    · have right := holds.spent other event older resumes
      rw [rights]
      split
      · rename_i fill
        rw [right_of_fills holds current fill.2] at right
        cases right
      · exact right
  · simpa [List.countP_cons, isResume] using holds.once
  · exact ordered_cons holds fun _ _ _ resumes => by simp [isResume] at resumes
  · intro old member outcome recorded
    rw [contents_write] at member
    rw [stored]
    rcases List.mem_cons.mp member with rfl | earlier
    · exact recorded
    · have held := holds.stable old earlier outcome recorded
      rw [current] at held
      obtain ⟨claim, found, same⟩ := held
      obtain ⟨next, new, kept⟩ := follows claim found
      exact ⟨next, new, (kept (by simp [same])).trans same⟩

/-- The process that wrote the claim receives the right. -/
theorem holds_granted (holds : Holds slot start history phases world)
    (written : (phases pid).right = .written) :
    Holds slot start (granted slot pid :: history) (Function.update phases pid ⟨(phases pid).place, .granted⟩)
      world := by
  have taken (other : Pid) :
      (Function.update phases pid ⟨(phases pid).place, .granted⟩ other).right ≠ .none ↔
        (phases other).right ≠ .none := by
    by_cases moved : other = pid
    · subst other
      simp [written]
    · rw [place_of_update moved]
  have places (other : Pid) :
      (Function.update phases pid ⟨(phases pid).place, .granted⟩ other).place = (phases other).place := by
    by_cases moved : other = pid
    · rw [moved, Function.update_self]
    · rw [place_of_update moved]
  refine ⟨?_, ?_, ?_, ?_, ?_, ?_, ?_, ?_, ?_⟩
  · intro other later inside
    rw [places] at inside
    exact holds.owns other (fun stopped => later (List.mem_cons_of_mem _ stopped)) inside
  · intro other file later place
    rw [places] at place
    exact holds.fresh other file (fun stopped => later (List.mem_cons_of_mem _ stopped)) place
  · exact fun other right => holds.filled other ((taken other).mp right)
  · exact fun first second one two => holds.unique first second ((taken first).mp one) ((taken second).mp two)
  · intro other right
    by_cases moved : other = pid
    · rw [moved]
      exact List.mem_cons_self ..
    · rw [place_of_update moved] at right
      exact List.mem_cons_of_mem _ (holds.earned other right)
  · intro other event member resumes
    have older : .act other event ∈ history := by
      rcases List.mem_cons.mp member with same | older
      · cases same
        simp [isResume] at resumes
      · exact older
    have right := holds.spent other event older resumes
    have moved : other ≠ pid := by
      rintro rfl
      rw [written] at right
      cases right
    rwa [place_of_update moved]
  · simpa [granted, List.countP_cons, isResume] using holds.once
  · exact ordered_cons holds fun _ _ _ resumes => by simp [granted, isResume] at resumes
  · exact holds.stable

/-- A granted right is spent by the first resume. -/
theorem holds_resume (holds : Holds slot start history phases world) {point : Note}
    (resumes : isResume slot (.act pid ⟨Effect.note point, ()⟩) = true) (right : (phases pid).right = .granted) :
    Holds slot start (.act pid ⟨Effect.note point, ()⟩ :: history)
      (Function.update phases pid ⟨(phases pid).place, .spent⟩) world := by
  have taken (other : Pid) :
      (Function.update phases pid ⟨(phases pid).place, .spent⟩ other).right ≠ .none ↔
        (phases other).right ≠ .none := by
    by_cases moved : other = pid
    · subst other
      simp [right]
    · rw [place_of_update moved]
  have places (other : Pid) :
      (Function.update phases pid ⟨(phases pid).place, .spent⟩ other).place = (phases other).place := by
    by_cases moved : other = pid
    · rw [moved, Function.update_self]
    · rw [place_of_update moved]
  -- An earlier resume would have spent the only right.
  have first : ∀ label ∈ history, isResume slot label = false := by
    intro label member
    by_contra resumed
    rw [Bool.not_eq_false] at resumed
    cases label with
    | crash other => cases resumed
    | act other event =>
        have spent := holds.spent other event member resumed
        obtain rfl := holds.unique other pid (by simp [spent]) (by simp [right])
        rw [right] at spent
        cases spent
  refine ⟨?_, ?_, ?_, ?_, ?_, ?_, ?_, ?_, ?_⟩
  · intro other later inside
    rw [places] at inside
    exact holds.owns other (fun stopped => later (List.mem_cons_of_mem _ stopped)) inside
  · intro other file later place
    rw [places] at place
    exact holds.fresh other file (fun stopped => later (List.mem_cons_of_mem _ stopped)) place
  · exact fun other one => holds.filled other ((taken other).mp one)
  · exact fun one two left second => holds.unique one two ((taken one).mp left) ((taken two).mp second)
  · intro other later
    apply List.mem_cons_of_mem
    by_cases moved : other = pid
    · rw [moved]
      exact holds.earned pid (.inl right)
    · rw [place_of_update moved] at later
      exact holds.earned other later
  · intro other event member resumed
    rcases List.mem_cons.mp member with same | older
    · cases same
      rw [Function.update_self]
    · rw [first _ older] at resumed
      cases resumed
  · have none : history.countP (isResume slot) = 0 := List.countP_eq_zero.mpr fun label member => by
      simp [first label member]
    rw [List.countP_cons, none, resumes]
    exact Nat.le_refl 1
  · refine ordered_cons holds fun other event same _ => ?_
    cases same
    exact holds.earned pid (.inl right)
  · exact holds.stable

/-- A note that keeps the phase keeps the invariant. -/
theorem holds_note (holds : Holds slot start history phases world) (point : Note)
    (quiet : isResume slot (.act pid ⟨Effect.note point, ()⟩) = false) :
    Holds slot start (.act pid ⟨Effect.note point, ()⟩ :: history) (Function.update phases pid (phases pid)) world :=
  holds_same holds quiet rfl rfl rfl

/-- An operation outside the slot areas keeps the invariant. -/
theorem holds_neutral (holds : Holds slot start history phases world) {op : Effect} {answer : op.Answer}
    (outside : op.area ∉ slotAreas) (move : worldStep pid world op answer after) :
    Holds slot start (.act pid ⟨op, answer⟩ :: history)
      (Function.update phases pid (slotNext slot (phases pid) op answer)) after := by
  rw [(slot_neutral slot (phases pid) outside).2]
  simp only [slotAreas, List.mem_cons, List.not_mem_nil, or_false, not_or] at outside
  have quiet : isResume slot (.act pid ⟨op, answer⟩) = false := by
    cases op with
    | note point => cases point <;> first | rfl | exact absurd rfl outside.2
    | _ => rfl
  exact holds_same holds quiet (worldStep_frame move (writes_of_area outside.1)) (contents_frame _ _ outside.1)
    (worldStep_owner move .responseDedupe outside.1)

/-- Each permitted operation of a running process keeps the invariant. -/
theorem holds_act (holds : Holds slot start history phases world) (running : Label.crash pid ∉ history)
    {op : Effect} {answer : op.Answer} (permitted : slotGuard slot (phases pid) op)
    (move : worldStep pid world op answer after) :
    Holds slot start (.act pid ⟨op, answer⟩ :: history)
      (Function.update phases pid (slotNext slot (phases pid) op answer)) after := by
  by_cases touching : op.area ∈ slotAreas
  swap
  · exact holds_neutral holds touching move
  cases op with
  | read store =>
      cases store with
      | responseDedupe =>
          obtain ⟨rfl, rfl⟩ := move
          exact holds_read holds running permitted
      | _ => simp [slotAreas, Effect.area] at touching
  | write store data =>
      cases store with
      | responseDedupe =>
          obtain rfl := move
          obtain ⟨file, place, follows⟩ := permitted
          have written := holds_write holds running place follows
          rw [← place] at written
          exact written
      | _ => simp [slotAreas, Effect.area] at touching
  | lock file =>
      cases file with
      | responseDedupe =>
          obtain ⟨free, rfl⟩ := move
          exact holds_lock holds free
      | concurrency => simp [slotAreas, Effect.area] at touching
  | unlock file =>
      cases file with
      | responseDedupe =>
          obtain rfl := move
          exact holds_unlock holds running permitted
      | concurrency => simp [slotAreas, Effect.area] at touching
  | call target => cases target <;> simp [slotAreas, Effect.area, Call.area] at touching
  | note point =>
      obtain rfl := move
      cases point with
      | responseClaimed deployment threadId interruptId answered =>
          cases answered with
          | false => exact holds_note holds _ rfl
          | true =>
              by_cases same : (deployment, threadId, interruptId) = slot
              · subst same
                simp only [slotNext, if_true]
                exact holds_granted holds (permitted rfl)
              · simp only [slotNext, same, if_false]
                exact holds_note holds _ rfl
      | resuming deployment threadId interruptId =>
          by_cases same : (deployment, threadId, interruptId) = slot
          · simp only [slotNext, same, if_true]
            exact holds_resume holds (by simp [isResume, same]) (permitted same)
          · simp only [slotNext, same, if_false]
            exact holds_note holds _ (by simp [isResume, same])
      | activityReleased deployment holder effective =>
          cases holder <;> simp [slotAreas, Effect.area, Note.area, Holder.area] at touching
      | concurrencyReleased assistant subject holder effective =>
          cases holder <;> simp [slotAreas, Effect.area, Note.area, Holder.area] at touching
      | _ => simp [slotAreas, Effect.area, Note.area] at touching

end

end Cordboard.ResponseDedupe
