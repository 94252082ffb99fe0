import Cordboard.Effects.Linear

namespace Effects

/-- A process is outside the section, inside it, or inside it with the data that it saw last. -/
inductive Visit (D : Type) where
  | outside
  | entered
  | loaded (data : D)

namespace Visit

variable {D : Type}

/-- A process enters from outside, and does the rest inside. -/
def permits : Visit D → Kind → Prop
  | _, .aside => True
  | .outside, kind => kind = .enter
  | _, kind => kind ≠ .enter

/-- What a process saw is forgotten when the data change. -/
def next (seen : Option D) : Visit D → Kind → Visit D
  | visit, .aside => visit
  | _, .enter => .entered
  | _, .leave => .outside
  | _, .change => .entered
  | _, .inspect => seen.elim .entered .loaded

theorem inside_of_permits {visit : Visit D} {kind : Kind} (permitted : visit.permits kind) (acts : kind ≠ .aside)
    (later : kind ≠ .enter) : visit ≠ .outside := by
  rintro rfl
  cases kind with
  | aside => exact acts rfl
  | enter => exact later rfl
  | leave => cases permitted
  | inspect => cases permitted
  | change => cases permitted

end Visit

variable {sig : Signature} {S Pid D : Type} [DecidableEq Pid]

/-- A monitor gives one owner at a time the view of the shared data. -/
structure Monitor (sharing : Sharing sig S Pid) (D : Type) where
  view : S → D
  owner : S → Option Pid
  kind : sig.Op → Kind
  seen : (op : sig.Op) → sig.Answer op → Option D
  aside : ∀ {pid s op answer after}, kind op = .aside → sharing.step pid s op answer after →
    view after = view s ∧ owner after = owner s
  enter : ∀ {pid s op answer after}, kind op = .enter → sharing.step pid s op answer after →
    owner s = none ∧ owner after = some pid
  leave : ∀ {pid s op answer after}, kind op = .leave → sharing.step pid s op answer after → view after = view s
  inspect : ∀ {pid s op answer after}, kind op = .inspect → sharing.step pid s op answer after →
    view after = view s ∧ owner after = owner s ∧ seen op answer = some (view s)
  change : ∀ {pid s op answer after}, kind op = .change → sharing.step pid s op answer after → owner after = owner s
  crash : ∀ pid s, view (sharing.crash pid s) = view s ∧
    ∀ other ≠ pid, owner s = some other → owner (sharing.crash pid s) = some other

namespace Monitor

variable {sharing : Sharing sig S Pid} (monitor : Monitor sharing D)

/-- The visit of a process after one operation. -/
def visit (visits : Pid → Visit D) (pid : Pid) (op : sig.Op) (answer : sig.Answer op) : Visit D :=
  (visits pid).next (monitor.seen op answer) (monitor.kind op)

/-- A live process inside the section owns it, and what it saw is current. -/
structure Fresh (history : History sig Pid) (visits : Pid → Visit D) (s : S) : Prop where
  owns : ∀ pid, Label.crash pid ∉ history → visits pid ≠ .outside → monitor.owner s = some pid
  current : ∀ pid data, Label.crash pid ∉ history → visits pid = .loaded data → monitor.view s = data

variable {monitor} {history : History sig Pid} {visits : Pid → Visit D} {s after : S} {pid : Pid} {op : sig.Op}
  {answer : sig.Answer op}

omit [DecidableEq Pid] in
theorem fresh_start (monitor : Monitor sharing D) (s : S) : monitor.Fresh [] (fun _ => .outside) s where
  owns _ _ inside := absurd rfl inside
  current _ _ _ loaded := by cases loaded

omit [DecidableEq Pid] in
/-- Only one live process is inside the section. -/
theorem Fresh.alone (fresh : monitor.Fresh history visits s) {first second : Pid} (one : Label.crash first ∉ history)
    (two : Label.crash second ∉ history) (inside : visits first ≠ .outside) (within : visits second ≠ .outside) :
    second = first :=
  Option.some.inj ((fresh.owns second two within).symm.trans (fresh.owns first one inside))

/-- A step of one process keeps the other visits when it keeps the data, or when the process is alone inside. -/
theorem Fresh.step (fresh : monitor.Fresh history visits s) {moved : Visit D}
    (owns : Label.crash pid ∉ history → moved ≠ .outside → monitor.owner after = some pid)
    (current : ∀ data, moved = .loaded data → monitor.view after = data)
    (others : ∀ other, other ≠ pid → Label.crash other ∉ history → visits other ≠ .outside →
      monitor.owner after = some other ∧ monitor.view after = monitor.view s) :
    monitor.Fresh (.act pid ⟨op, answer⟩ :: history) (Function.update visits pid moved) after where
  owns other running inside := by
    have live : Label.crash other ∉ history := fun stopped => running (List.mem_cons_of_mem _ stopped)
    by_cases same : other = pid
    · subst other
      rw [Function.update_self] at inside
      exact owns live inside
    · rw [Function.update_of_ne same] at inside
      exact (others other same live inside).1
  current other data running loaded := by
    have live : Label.crash other ∉ history := fun stopped => running (List.mem_cons_of_mem _ stopped)
    by_cases same : other = pid
    · subst other
      rw [Function.update_self] at loaded
      exact current data loaded
    · rw [Function.update_of_ne same] at loaded
      have inside : visits other ≠ .outside := by simp [loaded]
      rw [(others other same live inside).2]
      exact fresh.current other data live loaded

/-- Each permitted step keeps the visits fresh. -/
theorem Fresh.act (fresh : monitor.Fresh history visits s) (running : Label.crash pid ∉ history)
    (permitted : (visits pid).permits (monitor.kind op)) (move : sharing.step pid s op answer after) :
    monitor.Fresh (.act pid ⟨op, answer⟩ :: history)
      (Function.update visits pid (monitor.visit visits pid op answer)) after := by
  have alone (inside : visits pid ≠ .outside) (other : Pid) (different : other ≠ pid)
      (live : Label.crash other ∉ history) (within : visits other ≠ .outside) : False :=
    different (fresh.alone running live inside within)
  cases known : monitor.kind op with
  | aside =>
      obtain ⟨view, owner⟩ := monitor.aside known move
      apply fresh.step
      · intro live inside
        rw [owner]
        apply fresh.owns pid live
        simpa [visit, known, Visit.next] using inside
      · intro data loaded
        rw [view]
        apply fresh.current pid data running
        simpa [visit, known, Visit.next] using loaded
      · intro other different live inside
        rw [owner]
        exact ⟨fresh.owns other live inside, view⟩
  | enter =>
      obtain ⟨free, owner⟩ := monitor.enter known move
      apply fresh.step
      · exact fun _ _ => owner
      · intro data loaded
        simp [visit, known, Visit.next] at loaded
      · intro other different live inside
        have owned := fresh.owns other live inside
        rw [free] at owned
        cases owned
  | leave =>
      have inside := Visit.inside_of_permits permitted (by simp [known]) (by simp [known])
      apply fresh.step
      · intro live within
        simp [visit, known, Visit.next] at within
      · intro data loaded
        simp [visit, known, Visit.next] at loaded
      · intro other different live within
        exact (alone inside other different live within).elim
  | inspect =>
      have inside := Visit.inside_of_permits permitted (by simp [known]) (by simp [known])
      obtain ⟨view, owner, seen⟩ := monitor.inspect known move
      apply fresh.step
      · intro live _
        rw [owner]
        exact fresh.owns pid live inside
      · intro data loaded
        simp only [visit, known, Visit.next, seen, Option.elim_some, Visit.loaded.injEq] at loaded
        exact view.trans loaded
      · intro other different live within
        exact (alone inside other different live within).elim
  | change =>
      have inside := Visit.inside_of_permits permitted (by simp [known]) (by simp [known])
      apply fresh.step
      · intro live _
        rw [monitor.change known move]
        exact fresh.owns pid live inside
      · intro data loaded
        simp [visit, known, Visit.next] at loaded
      · intro other different live within
        exact (alone inside other different live within).elim

omit [DecidableEq Pid] in
/-- A crash keeps the visits of the other processes fresh. -/
theorem Fresh.crash (fresh : monitor.Fresh history visits s) (pid : Pid) :
    monitor.Fresh (.crash pid :: history) visits (sharing.crash pid s) where
  owns other running inside := by
    rw [List.mem_cons, not_or] at running
    have different : other ≠ pid := fun same => running.1 (congrArg Label.crash same)
    exact (monitor.crash pid s).2 other different (fresh.owns other running.2 inside)
  current other data running loaded := by
    rw [List.mem_cons, not_or] at running
    rw [(monitor.crash pid s).1]
    exact fresh.current other data running.2 loaded

end Monitor

end Effects
