import Cordboard.Effects.Watch

namespace Effects

/-- An operation stands aside, enters or leaves the section, or inspects or changes the data. -/
inductive Kind where
  | aside
  | enter
  | leave
  | inspect
  | change
deriving DecidableEq

/-- A process is before its section, inside it, inside it after its change, or past it. -/
inductive Place where
  | before
  | inside
  | changed
  | left
deriving DecidableEq

/-- A process has one section with at most one change. -/
def Place.permits : Place → Kind → Bool
  | .before, .enter => true
  | .inside, .aside => true
  | .inside, .inspect => true
  | .inside, .change => true
  | .inside, .leave => true
  | .changed, .aside => true
  | .changed, .leave => true
  | .left, .aside => true
  | _, _ => false

def Place.next : Place → Kind → Place
  | _, .enter => .inside
  | _, .change => .changed
  | _, .leave => .left
  | place, _ => place

variable {sig : Signature} {S D Pid A : Type} [DecidableEq Pid]

/-- The processes change shared data only inside a section with one owner. A machine acts on the data alone. -/
structure Guarded (sharing : Sharing sig S Pid) (machine : Machine sig D) where
  view : S → D
  owner : S → Option Pid
  kind : sig.Op → Option Kind
  aside : ∀ {pid s op answer after}, kind op = some .aside → sharing.step pid s op answer after →
    view after = view s ∧ owner after = owner s ∧ ∀ d, machine.step d op answer d
  enter : ∀ {pid s op answer after}, kind op = some .enter → sharing.step pid s op answer after →
    owner s = none ∧ owner after = some pid ∧ view after = view s ∧ ∀ d, machine.step d op answer d
  leave : ∀ {pid s op answer after}, kind op = some .leave → owner s = some pid → sharing.step pid s op answer after →
    owner after = none ∧ view after = view s ∧ ∀ d, machine.step d op answer d
  inspect : ∀ {pid s op answer after}, kind op = some .inspect → sharing.step pid s op answer after →
    view after = view s ∧ owner after = owner s ∧ machine.step (view s) op answer (view s)
  change : ∀ {pid s op answer after}, kind op = some .change → sharing.step pid s op answer after →
    owner after = owner s ∧ machine.step (view s) op answer (view after)
  crash : ∀ pid s, view (sharing.crash pid s) = view s ∧
    owner (sharing.crash pid s) = if owner s = some pid then none else owner s

/-- The calls act on the data one after another. A call that has not returned leaves the rest of its program. -/
inductive Serial (machine : Machine sig D) (tasks lefts : Pid → Program sig A) : List Pid → D → D → Prop
  | nil (d : D) : Serial machine tasks lefts [] d d
  | snoc {order : List Pid} {first middle last : D} {pid : Pid} {trace : List sig.Event}
      (earlier : Serial machine tasks lefts order first middle)
      (run : Performs machine (tasks pid) middle trace (lefts pid) last) :
      Serial machine tasks lefts (order ++ [pid]) first last

/-- A partial run performs one more operation. -/
theorem Performs.snoc {machine : Machine sig D} {program : Program sig A} {first middle last : D}
    {trace : List sig.Event} {op : sig.Op} {next : sig.Answer op → Program sig A} {answer : sig.Answer op}
    (run : Performs machine program first trace (.perform op next) middle) (move : machine.step middle op answer last) :
    Performs machine program first (trace ++ [⟨op, answer⟩]) (next answer) last := by
  generalize same : Program.perform op next = rest at run
  induction run with
  | stop program s =>
      subst same
      exact .perform move (.stop _ _)
  | perform step later ih => exact .perform step (ih move same)

/-- A partial run that leaves a value is a run. -/
theorem Performs.runs {machine : Machine sig D} {program : Program sig A} {first last : D} {trace : List sig.Event}
    {value : A} (run : Performs machine program first trace (.pure value) last) :
    Runs machine program first trace value last := by
  generalize same : Program.pure value = rest at run
  induction run with
  | stop program s =>
      subst same
      exact .pure value s
  | perform move later ih => exact .perform move (ih same)

namespace Serial

variable {machine : Machine sig D} {tasks lefts : Pid → Program sig A} {order : List Pid} {first last : D}

omit [DecidableEq Pid] in
/-- Only the rests of the listed calls matter. -/
theorem congr {other : Pid → Program sig A} (serial : Serial machine tasks lefts order first last)
    (same : ∀ pid ∈ order, other pid = lefts pid) : Serial machine tasks other order first last := by
  induction serial with
  | nil d => exact .nil d
  | @snoc order first middle last pid trace earlier run ih =>
      apply Serial.snoc (ih fun listed member => same listed (List.mem_append_left _ member))
      rw [same pid (List.mem_append_right _ (List.mem_singleton_self _))]
      exact run

/-- A listed call may perform one more operation that keeps the data. -/
theorem extend (serial : Serial machine tasks lefts order first last) {pid : Pid} {op : sig.Op}
    {next : sig.Answer op → Program sig A} {answer : sig.Answer op} (ready : lefts pid = .perform op next)
    (still : ∀ d, machine.step d op answer d) :
    Serial machine tasks (Function.update lefts pid (next answer)) order first last := by
  induction serial with
  | nil d => exact .nil d
  | @snoc order first middle last listed trace earlier run ih =>
      by_cases same : listed = pid
      · subst listed
        rw [ready] at run
        apply Serial.snoc ih
        · rw [Function.update_self]
          exact run.snoc (still last)
      · apply Serial.snoc ih
        rw [Function.update_of_ne same]
        exact run

end Serial

namespace Guarded

variable {sharing : Sharing sig S Pid} {machine : Machine sig D} (guarded : Guarded sharing machine)

/-- This protocol follows one process through its section. -/
abbrev protocol : Protocol sig where
  Phase := Place
  guard place op := ∃ kind, guarded.kind op = some kind ∧ place.permits kind = true
  next place op _ := match guarded.kind op with
    | some kind => place.next kind
    | none => place

/-- The place of each process after a history. -/
abbrev place (history : History sig Pid) (pid : Pid) : Place := guarded.protocol.phase (fun _ => .before) history pid

/-- A call takes effect with its change, or when it leaves without one. -/
def effective (history : History sig Pid) (pid : Pid) (op : sig.Op) : Bool :=
  guarded.place history pid = .inside ∧ (guarded.kind op = some .change ∨ guarded.kind op = some .leave)

/-- The calls in the order in which they take effect. -/
def order : History sig Pid → List Pid
  | [] => []
  | .act pid event :: history =>
      if guarded.effective history pid event.1 then order history ++ [pid] else order history
  | .crash _ :: history => order history

variable (tasks lefts : Pid → Program sig A)

/-- The rest of a running call agrees with its place. -/
inductive Standing (order : List Pid) (shared : S) (pid : Pid) (program : Program sig A) : Place → Prop
  | before (absent : pid ∉ order) (whole : tasks pid = program) : Standing order shared pid program .before
  | inside (absent : pid ∉ order) (owns : guarded.owner shared = some pid)
      (runs : ∃ trace, Performs machine (tasks pid) (guarded.view shared) trace program (guarded.view shared)) :
      Standing order shared pid program .inside
  | changed (present : pid ∈ order) (owns : guarded.owner shared = some pid) (same : lefts pid = program) :
      Standing order shared pid program .changed
  | left (present : pid ∈ order) (same : lefts pid = program) : Standing order shared pid program .left

/-- The calls so far are serial, and each running call agrees with its place. -/
structure Linear (start : S) (history : History sig Pid) (config : Config sig S Pid A) : Prop where
  serial : Serial machine tasks lefts (guarded.order history) (guarded.view start) (guarded.view config.shared)
  once : (guarded.order history).Nodup
  standing : ∀ pid program, config.code pid = some program →
    Standing guarded tasks lefts (guarded.order history) config.shared pid program (guarded.place history pid)

variable {tasks lefts} {guarded} {history : History sig Pid} {start shared after : S}

/-- A step of another process keeps the standing of a call. -/
theorem Standing.transfer {order longer : List Pid} {pid : Pid} {program : Program sig A} {place : Place}
    {others : Pid → Program sig A} (standing : Standing guarded tasks lefts order shared pid program place)
    (kept : guarded.owner shared = some pid → guarded.owner after = some pid ∧ guarded.view after = guarded.view shared)
    (members : pid ∈ longer ↔ pid ∈ order) (same : others pid = lefts pid) :
    Standing guarded tasks others longer after pid program place := by
  cases standing with
  | before absent whole => exact .before (fun member => absent (members.mp member)) whole
  | inside absent owns runs =>
      obtain ⟨still, view⟩ := kept owns
      refine .inside (fun member => absent (members.mp member)) still ?_
      rw [view]
      exact runs
  | changed present owns equal => exact .changed (members.mpr present) (kept owns).1 (same.trans equal)
  | left present equal => exact .left (members.mpr present) (same.trans equal)

/-- The calls are linear before their first step. -/
theorem Linear.initially (guarded : Guarded sharing machine) (tasks : Pid → Program sig A) (first : S) :
    Linear guarded tasks tasks first [] ⟨first, fun pid => some (tasks pid)⟩ where
  serial := .nil _
  once := List.nodup_nil
  standing pid program live := by
    obtain rfl := Option.some.inj live
    exact .before List.not_mem_nil rfl

section
variable {config : Config sig S Pid A} {pid : Pid} {op : sig.Op} {next : sig.Answer op → Program sig A}
  {answer : sig.Answer op} {kind : Kind}

/-- A step moves the acting call, and each other call keeps its standing. -/
theorem Linear.step (linear : Linear guarded tasks lefts start history config) {longer : List Pid}
    (order : guarded.order (.act pid ⟨op, answer⟩ :: history) = longer)
    (serial : Serial machine tasks (Function.update lefts pid (next answer)) longer (guarded.view start)
      (guarded.view after))
    (once : longer.Nodup)
    (own : Standing guarded tasks (Function.update lefts pid (next answer)) longer after pid (next answer)
      (guarded.place (.act pid ⟨op, answer⟩ :: history) pid))
    (kept : ∀ other, other ≠ pid → guarded.owner config.shared = some other →
      guarded.owner after = some other ∧ guarded.view after = guarded.view config.shared)
    (members : ∀ other, other ≠ pid → (other ∈ longer ↔ other ∈ guarded.order history)) :
    Linear guarded tasks (Function.update lefts pid (next answer)) start (.act pid ⟨op, answer⟩ :: history)
      ⟨after, Function.update config.code pid (some (next answer))⟩ := by
  subst order
  refine ⟨serial, once, ?_⟩
  intro other program live
  by_cases same : other = pid
  · subst other
    simp only [Function.update_self, Option.some.injEq] at live
    subst program
    exact own
  · simp only [Function.update_of_ne same] at live
    have place : guarded.place (.act pid ⟨op, answer⟩ :: history) other = guarded.place history other :=
      guarded.protocol.phase_act_of_ne _ same _ _
    rw [place]
    exact (linear.standing other program live).transfer (kept other same) (members other same)
      (Function.update_of_ne same _ _)

/-- The place of the acting process follows the kind of its operation. -/
theorem place_act (known : guarded.kind op = some kind) :
    guarded.place (.act pid ⟨op, answer⟩ :: history) pid = (guarded.place history pid).next kind := by
  rw [place, Protocol.phase_act_self]
  simp only [known]

/-- An operation without effect keeps the order. -/
theorem order_quiet (known : guarded.kind op = some kind) (quiet : guarded.place history pid ≠ .inside ∨
      (kind ≠ .change ∧ kind ≠ .leave)) :
    guarded.order (.act pid ⟨op, answer⟩ :: history) = guarded.order history := by
  have silent : guarded.effective history pid op = false := by
    apply decide_eq_false
    rintro ⟨inside, change | leave⟩
    · rcases quiet with outside | ⟨unchanged, _⟩
      · exact outside inside
      · exact unchanged (Option.some.inj (known.symm.trans change))
    · rcases quiet with outside | ⟨_, staying⟩
      · exact outside inside
      · exact staying (Option.some.inj (known.symm.trans leave))
  simp [order, silent]

/-- An operation with effect puts its call at the end of the order. -/
theorem order_effective (known : guarded.kind op = some kind) (inside : guarded.place history pid = .inside)
    (effect : kind = .change ∨ kind = .leave) :
    guarded.order (.act pid ⟨op, answer⟩ :: history) = guarded.order history ++ [pid] := by
  have loud : guarded.effective history pid op = true := by
    apply decide_eq_true
    refine ⟨inside, ?_⟩
    rcases effect with rfl | rfl
    · exact .inl known
    · exact .inr known
  simp [order, loud]

/-- Another process is not the owner. -/
theorem kept_of_owner (owns : guarded.owner shared = some pid) (other : Pid) (different : other ≠ pid)
    (owned : guarded.owner shared = some other) :
    guarded.owner after = some other ∧ guarded.view after = guarded.view shared :=
  absurd (Option.some.inj (owned.symm.trans owns)) different

/-- The rest of a call that has not taken effect does not matter. -/
theorem Linear.unlisted (linear : Linear guarded tasks lefts start history config) (absent : pid ∉ guarded.order history)
    (program : Program sig A) : Serial machine tasks (Function.update lefts pid program) (guarded.order history)
      (guarded.view start) (guarded.view config.shared) := by
  apply linear.serial.congr
  intro listed member
  apply Function.update_of_ne
  rintro rfl
  exact absent member

/-- A call takes effect at the end of the order. -/
theorem Linear.effect (linear : Linear guarded tasks lefts start history config)
    (absent : pid ∉ guarded.order history) (owns : guarded.owner config.shared = some pid)
    (known : guarded.kind op = some kind) (inside : guarded.place history pid = .inside)
    (effect : kind = .change ∨ kind = .leave)
    {trace : List sig.Event} (run : Performs machine (tasks pid) (guarded.view config.shared) trace (next answer)
      (guarded.view after))
    (own : ∀ longer, pid ∈ longer → Standing guarded tasks (Function.update lefts pid (next answer)) longer after pid
      (next answer) ((guarded.place history pid).next kind)) :
    Linear guarded tasks (Function.update lefts pid (next answer)) start (.act pid ⟨op, answer⟩ :: history)
      ⟨after, Function.update config.code pid (some (next answer))⟩ := by
  have present : pid ∈ guarded.order history ++ [pid] := List.mem_append_right _ (List.mem_singleton_self _)
  apply linear.step (order_effective known inside effect)
  · apply (linear.unlisted absent _).snoc
    rw [Function.update_self]
    exact run
  · rw [List.nodup_append]
    refine ⟨linear.once, by simp, ?_⟩
    rintro listed member _ one rfl
    rw [List.mem_singleton.mp one] at member
    exact absent member
  · rw [place_act known]
    exact own _ present
  · exact fun other different => kept_of_owner owns other different
  · intro other different
    simp [different]

/-- A step without effect keeps the data and the order. -/
theorem Linear.quiet (linear : Linear guarded tasks lefts start history config) (known : guarded.kind op = some kind)
    (quiet : guarded.place history pid ≠ .inside ∨ (kind ≠ .change ∧ kind ≠ .leave))
    (still : guarded.view after = guarded.view config.shared)
    (serial : Serial machine tasks (Function.update lefts pid (next answer)) (guarded.order history)
      (guarded.view start) (guarded.view config.shared))
    (own : Standing guarded tasks (Function.update lefts pid (next answer)) (guarded.order history) after pid
      (next answer) ((guarded.place history pid).next kind))
    (kept : ∀ other, other ≠ pid → guarded.owner config.shared = some other → guarded.owner after = some other) :
    Linear guarded tasks (Function.update lefts pid (next answer)) start (.act pid ⟨op, answer⟩ :: history)
      ⟨after, Function.update config.code pid (some (next answer))⟩ := by
  apply linear.step (order_quiet known quiet)
  · rw [still]
    exact serial
  · exact linear.once
  · rw [place_act known]
    exact own
  · exact fun other different owned => ⟨kept other different owned, still⟩
  · exact fun other different => Iff.rfl

/-- Each permitted step keeps the calls linear. -/
theorem Linear.act (linear : Linear guarded tasks lefts start history config)
    (ready : config.code pid = some (.perform op next))
    (permitted : guarded.protocol.guard (guarded.place history pid) op)
    (move : sharing.step pid config.shared op answer after) :
    Linear guarded tasks (Function.update lefts pid (next answer)) start (.act pid ⟨op, answer⟩ :: history)
      ⟨after, Function.update config.code pid (some (next answer))⟩ := by
  have standing := linear.standing pid _ ready
  have self : Function.update lefts pid (next answer) pid = next answer := Function.update_self _ _ _
  obtain ⟨kind, known, permits⟩ := permitted
  cases kind with
  | aside =>
      obtain ⟨view, owner, still⟩ := guarded.aside known move
      have kept : ∀ other, other ≠ pid → guarded.owner config.shared = some other → guarded.owner after = some other :=
        fun _ _ owned => owner.trans owned
      have silent : Kind.aside ≠ .change ∧ Kind.aside ≠ .leave := by decide
      generalize place : guarded.place history pid = here at standing permits
      cases standing with
      | before absent whole => cases permits
      | inside absent owns runs =>
          apply linear.quiet known (.inr silent) view (linear.unlisted absent _) _ kept
          rw [place]
          obtain ⟨trace, run⟩ := runs
          refine .inside absent (owner.trans owns) ?_
          rw [view]
          exact ⟨_, run.snoc (still _)⟩
      | changed present owns same =>
          apply linear.quiet known (.inr silent) view (linear.serial.extend same still) _ kept
          rw [place]
          exact .changed present (owner.trans owns) self
      | left present same =>
          apply linear.quiet known (.inr silent) view (linear.serial.extend same still) _ kept
          rw [place]
          exact .left present self
  | enter =>
      obtain ⟨free, owner, view, still⟩ := guarded.enter known move
      generalize place : guarded.place history pid = here at standing permits
      cases standing with
      | before absent whole =>
          have quiet : Kind.enter ≠ .change ∧ Kind.enter ≠ .leave := by decide
          apply linear.quiet known (.inr quiet) view (linear.unlisted absent _)
          · rw [place]
            refine .inside absent owner ?_
            rw [view, whole]
            exact ⟨_, .perform (still _) (.stop _ _)⟩
          · intro other different owned
            rw [free] at owned
            cases owned
      | inside absent owns runs => cases permits
      | changed present owns same => cases permits
      | left present same => cases permits
  | inspect =>
      obtain ⟨view, owner, seen⟩ := guarded.inspect known move
      generalize place : guarded.place history pid = here at standing permits
      cases standing with
      | inside absent owns runs =>
          have quiet : Kind.inspect ≠ .change ∧ Kind.inspect ≠ .leave := by decide
          apply linear.quiet known (.inr quiet) view (linear.unlisted absent _)
          · rw [place]
            obtain ⟨trace, run⟩ := runs
            refine .inside absent (owner.trans owns) ?_
            rw [view]
            exact ⟨_, run.snoc seen⟩
          · exact fun other different owned => owner.trans owned
      | before absent whole => cases permits
      | changed present owns same => cases permits
      | left present same => cases permits
  | change =>
      obtain ⟨owner, changed⟩ := guarded.change known move
      generalize place : guarded.place history pid = here at standing permits
      cases standing with
      | inside absent owns runs =>
          obtain ⟨trace, run⟩ := runs
          apply linear.effect absent owns known place (.inl rfl) (run.snoc changed)
          intro longer present
          rw [place]
          exact .changed present (owner.trans owns) self
      | before absent whole => cases permits
      | changed present owns same => cases permits
      | left present same => cases permits
  | leave =>
      generalize place : guarded.place history pid = here at standing permits
      cases standing with
      | inside absent owns runs =>
          obtain ⟨owner, view, still⟩ := guarded.leave known owns move
          obtain ⟨trace, run⟩ := runs
          rw [← view] at run
          apply linear.effect absent owns known place (.inr rfl)
          · rw [← view]
            exact run.snoc (still _)
          · intro longer present
            rw [place]
            exact .left present self
      | changed present owns same =>
          obtain ⟨owner, view, still⟩ := guarded.leave known owns move
          have outside : guarded.place history pid ≠ .inside := by simp [place]
          apply linear.quiet known (.inl outside) view (linear.serial.extend same still)
          · rw [place]
            exact .left present self
          · exact fun other different owned => absurd (Option.some.inj (owned.symm.trans owns)) different
      | before absent whole => cases permits
      | left present same => cases permits

/-- A crash frees the section of its process and keeps the data. -/
theorem Linear.crash (linear : Linear guarded tasks lefts start history config) (pid : Pid) :
    Linear guarded tasks lefts start (.crash pid :: history)
      ⟨sharing.crash pid config.shared, Function.update config.code pid none⟩ := by
  obtain ⟨view, owner⟩ := guarded.crash pid config.shared
  refine ⟨?_, linear.once, ?_⟩
  · change Serial machine tasks lefts (guarded.order history) (guarded.view start) (guarded.view (sharing.crash _ _))
    rw [view]
    exact linear.serial
  · intro other program live
    by_cases same : other = pid
    · subst other
      simp at live
    · simp only [Function.update_of_ne same] at live
      apply (linear.standing other program live).transfer _ Iff.rfl rfl
      intro owned
      refine ⟨?_, view⟩
      have foreign : guarded.owner config.shared ≠ some pid := by
        rw [owned]
        exact fun equal => same (Option.some.inj equal)
      rw [owner, if_neg foreign]
      exact owned

/-- A step keeps the data, or it is the change of a call that has acted on these data alone. -/
theorem Linear.moves (linear : Linear guarded tasks lefts start history config)
    (ready : config.code pid = some (.perform op next))
    (permitted : guarded.protocol.guard (guarded.place history pid) op)
    (move : sharing.step pid config.shared op answer after) :
    guarded.view after = guarded.view config.shared ∨
      ∃ trace, Performs machine (tasks pid) (guarded.view config.shared) trace (next answer) (guarded.view after) := by
  have standing := linear.standing pid _ ready
  obtain ⟨kind, known, permits⟩ := permitted
  cases kind with
  | aside => exact .inl (guarded.aside known move).1
  | enter => exact .inl (guarded.enter known move).2.2.1
  | inspect => exact .inl (guarded.inspect known move).1
  | leave =>
      generalize guarded.place history pid = here at standing permits
      cases standing with
      | inside absent owns runs => exact .inl (guarded.leave known owns move).2.1
      | changed present owns same => exact .inl (guarded.leave known owns move).2.1
      | before absent whole => cases permits
      | left present same => cases permits
  | change =>
      generalize guarded.place history pid = here at standing permits
      cases standing with
      | inside absent owns runs =>
          obtain ⟨trace, run⟩ := runs
          exact .inr ⟨_, run.snoc (guarded.change known move).2⟩
      | before absent whole => cases permits
      | changed present owns same => cases permits
      | left present same => cases permits

end

section
variable {condition : Condition sig S Pid} {config : Config sig S Pid A}

/-- The call leaves the section that it enters. -/
def Sectioned (guarded : Guarded sharing machine) (program : Program sig A) : Prop :=
  program.wp (guarded.protocol.limited fun _ _ => True) (fun _ _ place => place = .before ∨ place = .left) .before

/-- The rest of a live call leaves its section. -/
theorem leaves_of_reaches (sectioned : ∀ pid, guarded.Sectioned (tasks pid))
    (reached : Reaches sharing condition tasks start history config) (pid : Pid) {program : Program sig A}
    (live : config.code pid = some program) :
    program.wp (guarded.protocol.limited fun _ _ => True) (fun _ _ place => place = .before ∨ place = .left)
      (guarded.place history pid) :=
  guarded.protocol.wp_of_reaches (fun _ _ => True) (fun _ => .before) reached pid (sectioned pid)
    (fun _ _ => trivial) live

/-- The calls of each run are linear. -/
theorem linear_of_reaches (sectioned : ∀ pid, guarded.Sectioned (tasks pid))
    (reached : Reaches sharing condition tasks start history config) :
    ∃ lefts, Linear guarded tasks lefts start history config := by
  induction reached with
  | start => exact ⟨tasks, .initially guarded tasks start⟩
  | @act history config pid op next answer after before ready move meets ih =>
      obtain ⟨lefts, linear⟩ := ih
      exact ⟨_, linear.act ready (leaves_of_reaches sectioned before pid ready).1 move⟩
  | @crash history config pid before meets ih =>
      obtain ⟨lefts, linear⟩ := ih
      exact ⟨_, linear.crash pid⟩

/-- A call that has returned is in the order, or it has performed no operation. -/
theorem Linear.returned (linear : Linear guarded tasks lefts start history config)
    (sectioned : ∀ pid, guarded.Sectioned (tasks pid))
    (reached : Reaches sharing condition tasks start history config) {pid : Pid} {value : A}
    (live : config.code pid = some (.pure value)) :
    (pid ∈ guarded.order history ∧ lefts pid = .pure value) ∨ tasks pid = .pure value := by
  have place := leaves_of_reaches sectioned reached pid live
  have standing := linear.standing pid _ live
  generalize guarded.place history pid = here at standing place
  cases standing with
  | before absent whole => exact .inr whole
  | left present same => exact .inl ⟨present, same⟩
  | inside absent owns runs =>
      obtain never | never := place
      all_goals cases never
  | changed present owns same =>
      obtain never | never := place
      all_goals cases never

end

section
variable (guarded)

/-- Newer steps put their own calls at the end of the order. -/
theorem order_append (newer older : History sig Pid) : ∃ later,
    guarded.order (newer ++ older) = guarded.order older ++ later ∧
      ∀ pid ∈ later, ∃ event, Label.act pid event ∈ newer := by
  induction newer with
  | nil => exact ⟨[], by simp, by simp⟩
  | cons label newer ih =>
      obtain ⟨later, same, moved⟩ := ih
      have members : ∀ pid ∈ later, ∃ event, Label.act pid event ∈ label :: newer := by
        intro pid member
        obtain ⟨event, acted⟩ := moved pid member
        exact ⟨event, List.mem_cons_of_mem _ acted⟩
      cases label with
      | crash pid => exact ⟨later, same, members⟩
      | act pid event =>
          by_cases effect : guarded.effective (newer ++ older) pid event.1
          · refine ⟨later ++ [pid], ?_, ?_⟩
            · simp only [List.cons_append, order, effect, if_true, same, List.append_assoc]
            · intro other member
              rcases List.mem_append.mp member with earlier | last
              · exact members other earlier
              · obtain rfl := List.mem_singleton.mp last
                exact ⟨event, List.mem_cons_self⟩
          · refine ⟨later, ?_, members⟩
            simp only [List.cons_append, order, effect, same]
            rfl

/-- A call that performs nothing after another one has begun takes effect before it. -/
theorem order_real_time {newer older : History sig Pid} {first second : Pid}
    (returned : ∀ event, Label.act first event ∉ newer) (waiting : ∀ event, Label.act second event ∉ older)
    (one : first ∈ guarded.order (newer ++ older)) (two : second ∈ guarded.order (newer ++ older)) :
    ∃ earlier later, guarded.order (newer ++ older) = earlier ++ later ∧ first ∈ earlier ∧ second ∈ later := by
  obtain ⟨later, same, moved⟩ := guarded.order_append newer older
  obtain ⟨all, whole, acted⟩ := guarded.order_append older []
  have unlisted : second ∉ guarded.order older := by
    intro member
    rw [List.append_nil] at whole
    rw [whole] at member
    obtain ⟨event, act⟩ := acted second (by simpa [order] using member)
    exact waiting event act
  rw [same] at one two
  refine ⟨_, _, same, ?_, ?_⟩
  · rcases List.mem_append.mp one with early | late
    · exact early
    · obtain ⟨event, act⟩ := moved first late
      exact absurd act (returned event)
  · exact (List.mem_append.mp two).resolve_left unlisted

end

end Guarded

end Effects
