import Cordboard.Proof.Registry.Authority
import Cordboard.Data.Outcome

namespace Cordboard.Connections
open Data Url

/-- The new record of an alias depends on the command and the old record only. -/
def change (refusal : Refusal) (command : Command) (old : Option Record) : Except Exc Record :=
  match command with
  | .add alias_ endpoint launch idleAfter authEndpoint replace => do
      let alias_ ← validateAlias alias_
      let endpoint ← validateEndpoint refusal endpoint
      let launch ← validateLaunch launch
      let authEndpoint ← authEndpoint.mapM (validateEndpoint refusal)
      if old.isSome && !replace then
        invalid ("alias '" ++ alias_ ++ "' already exists; pass --replace to overwrite it")
      else
        let idleAfter ← launch.mapM fun _ => validateIdleAfter idleAfter
        .ok ⟨endpoint, launch, idleAfter, authEndpoint, none⟩
  | .authEndpoint alias_ authEndpoint => do
      let authEndpoint ← validateEndpoint refusal authEndpoint
      match old with
      | none => invalid ("unknown alias '" ++ alias_ ++ "'")
      | some record => .ok { record with authEndpoint := some authEndpoint }
  | .graphMap alias_ documentGraphId graphId => do
      let documentGraphId ← validateGraphId documentGraphId "document graph id"
      let graphId ← validateGraphId graphId "graph id"
      match old with
      | none => invalid ("unknown alias '" ++ alias_ ++ "'")
      | some record =>
          .ok { record with graphMap := some (((record.graphMap.getD Dict.empty).set documentGraphId graphId).sortBy id) }

/-- The registry is a store with one record for each alias. -/
def registry (refusal : Refusal) : Keyed String Record Command (Except Exc Unit) where
  key := Command.alias_
  answer command old := (change refusal command old).map fun _ => ()
  write command old := (change refusal command old).toOption
  save := sorted
  get?_save dict key := dict.get?_sortBy id key

/-- A readable file holds these records. -/
def records : File Records → Records
  | .content data => data
  | _ => Dict.empty

theorem validateAlias_ok {alias_ checked : String} (accepted : validateAlias alias_ = .ok checked) :
    checked = alias_ ∧ blank alias_ = false := by
  unfold validateAlias at accepted
  split at accepted
  · cases accepted
  · rename_i named
    exact ⟨(Except.ok.inj accepted).symm, Bool.not_eq_true _ ▸ named⟩

theorem validateGraphId_ok {value label checked : String} (accepted : validateGraphId value label = .ok checked) :
    checked = value ∧ blank value = false := by
  unfold validateGraphId at accepted
  split at accepted
  · cases accepted
  · rename_i named
    exact ⟨(Except.ok.inj accepted).symm, Bool.not_eq_true _ ▸ named⟩

/-- A command reads and writes the record of its own alias. -/
theorem execute_readable (refusal : Refusal) (file : File Records) (data : Records)
    (readable : loadConnections file = .ok data) (command : Command) :
    execute refusal file command =
      (change refusal command (data.get? command.alias_)).map fun record =>
        sorted (data.set command.alias_ record) := by
  cases command with
  | add alias_ endpoint launch idleAfter authEndpoint replace =>
      show addConnection .. = (change refusal _ (data.get? alias_)).map fun record => sorted (data.set alias_ record)
      simp only [addConnection, change, readable]
      cases named : validateAlias alias_ with
      | error exc => rfl
      | ok checked =>
          obtain ⟨rfl, _⟩ := validateAlias_ok named
          cases validateEndpoint refusal endpoint with
          | error exc => rfl
          | ok stored =>
              cases validateLaunch launch with
              | error exc => rfl
              | ok launch =>
                  cases authEndpoint.mapM (validateEndpoint refusal) with
                  | error exc => rfl
                  | ok authEndpoint =>
                      dsimp only [bind, Except.bind]
                      by_cases taken : ((data.get? checked).isSome && !replace) = true
                      · rw [if_pos taken, if_pos taken]
                        rfl
                      · rw [if_neg taken, if_neg taken]
                        cases launch.mapM fun _ => validateIdleAfter idleAfter <;> rfl
  | authEndpoint alias_ authEndpoint =>
      simp only [execute, setAuthEndpoint, change, readable, Command.alias_]
      cases validateEndpoint refusal authEndpoint with
      | error exc => rfl
      | ok stored =>
          dsimp only [bind, Except.bind]
          cases data.get? alias_ <;> rfl
  | graphMap alias_ documentGraphId graphId =>
      simp only [execute, setGraphMap, change, readable, Command.alias_]
      cases validateGraphId documentGraphId "document graph id" with
      | error exc => rfl
      | ok documentGraphId =>
          cases validateGraphId graphId "graph id" with
          | error exc => rfl
          | ok graphId =>
              dsimp only [bind, Except.bind]
              cases data.get? alias_ <;> rfl

/-- The commands that took effect, in order. -/
def accepted (refusal : Refusal) : File Records → List Command → List Command
  | _, [] => []
  | file, command :: rest =>
      match execute refusal file command with
      | .ok data => command :: accepted refusal (.content data) rest
      | .error _ => accepted refusal file rest

/-- The commands that took effect on this alias. -/
def acceptedOn (refusal : Refusal) (commands : List Command) (alias_ : String) : List Command :=
  (accepted refusal .missing commands).filter fun command => command.alias_ = alias_

theorem registry_step_ok {refusal : Refusal} {data : Records} {command : Command} {record : Record}
    (changed : change refusal command (data.get? command.alias_) = .ok record) :
    (registry refusal).step data command = sorted (data.set command.alias_ record) := by
  simp only [Keyed.step, registry, changed, Except.toOption]

theorem registry_step_error {refusal : Refusal} {data : Records} {command : Command} {exc : Exc}
    (refused : change refusal command (data.get? command.alias_) = .error exc) :
    (registry refusal).step data command = data := by
  simp only [Keyed.step, registry, refused, Except.toOption]

/-- One command on a readable file is one step of the registry. -/
theorem afterCommand_readable {refusal : Refusal} {file : File Records} {data : Records}
    (readable : loadConnections file = .ok data) (command : Command) :
    loadConnections (afterCommand refusal file command) = .ok ((registry refusal).step data command) := by
  rw [afterCommand, execute_readable refusal file data readable]
  cases changed : change refusal command (data.get? command.alias_) with
  | ok record =>
      rw [registry_step_ok changed]
      rfl
  | error exc =>
      rw [registry_step_error changed]
      exact readable

theorem accepted_readable {refusal : Refusal} {file : File Records} {data : Records}
    (readable : loadConnections file = .ok data) (commands : List Command) :
    accepted refusal file commands = (registry refusal).log data commands := by
  induction commands generalizing file data with
  | nil => rfl
  | cons command rest ih =>
      have stepped := @afterCommand_readable refusal _ _ readable command
      rw [Keyed.log, ← ih stepped, accepted, afterCommand, execute_readable refusal file data readable]
      cases changed : change refusal command (data.get? command.alias_) with
      | ok record => simp [registry, changed, Except.toOption, Except.map]
      | error exc => simp [registry, changed, Except.toOption, Except.map]

/-- The commands on a readable file are a run of the registry. -/
theorem afterCommands_readable {refusal : Refusal} {file : File Records} {data : Records}
    (readable : loadConnections file = .ok data) (commands : List Command) :
    loadConnections (afterCommands refusal file commands) = .ok ((registry refusal).run data commands) := by
  induction commands generalizing file data with
  | nil => exact readable
  | cons command rest ih => exact ih (afterCommand_readable readable command)

/-- Every stored endpoint is addressed, and every stored text says something. -/
structure Record.Sound (refusal : Refusal) (record : Record) : Prop where
  endpoint : validateEndpoint refusal record.endpoint = .ok record.endpoint
  authEndpoint : ∀ authEndpoint ∈ record.authEndpoint, validateEndpoint refusal authEndpoint = .ok authEndpoint
  launch : ∀ parts ∈ record.launch, parts ≠ [] ∧ ∀ part ∈ parts, blank part = false
  managed : record.idleAfter.isSome = record.launch.isSome
  idleAfter : ∀ seconds ∈ record.idleAfter, 0 < seconds
  graphMap : ∀ item ∈ (record.graphMap.getD Dict.empty).items, blank item.1 = false ∧ blank item.2 = false

/-- A registration gives a whole record. -/
structure Registration where
  endpoint : String
  launch : Option (List String)
  idleAfter : Option Time
  authEndpoint : Option String
  replace : Bool

def Registration.command (registration : Registration) (alias_ : String) : Command :=
  .add alias_ registration.endpoint registration.launch registration.idleAfter registration.authEndpoint
    registration.replace

def Command.isAdd : Command → Bool
  | .add .. => true
  | _ => false

def Command.authSet : Command → Option String
  | .authEndpoint _ given => some (EntityAuth.stripSlashes given)
  | _ => none

def Command.mapped (documentGraphId : String) : Command → Option String
  | .graphMap _ other graphId => if other = documentGraphId then some graphId else none
  | _ => none

/-- The record is the last registration with the last amendment of each field after it. -/
structure Amended (past : List Command) (alias_ : String) (record : Record) (registration : Registration)
    (earlier later : List Command) : Prop where
  past : past = earlier ++ registration.command alias_ :: later
  first : registration.replace = false → earlier = []
  last : ∀ command ∈ later, command.isAdd = false
  endpoint : record.endpoint = EntityAuth.stripSlashes registration.endpoint
  launch : record.launch = registration.launch
  idleAfter : record.idleAfter = registration.launch.map fun _ => registration.idleAfter.getD defaultIdleAfter
  authEndpoint : record.authEndpoint =
    (later.reverse.findSome? Command.authSet).or (registration.authEndpoint.map EntityAuth.stripSlashes)
  graphMap : ∀ documentGraphId, (record.graphMap.getD Dict.empty).get? documentGraphId =
    later.reverse.findSome? (Command.mapped documentGraphId)

/-- A stored record is an amended registration, and an alias without a record has no past. -/
def Told (alias_ : String) (past : List Command) : Option Record → Prop
  | none => past = []
  | some record => ∃ registration earlier later, Amended past alias_ record registration earlier later

theorem validateLaunch_ok {launch checked : Option (List String)} (accepted : validateLaunch launch = .ok checked) :
    checked = launch ∧ ∀ parts ∈ launch, parts ≠ [] ∧ ∀ part ∈ parts, blank part = false := by
  cases launch with
  | none =>
      obtain rfl := Except.ok.inj accepted
      exact ⟨rfl, fun parts none => absurd none (by simp)⟩
  | some parts =>
      unfold validateLaunch at accepted
      dsimp only at accepted
      split at accepted
      · cases accepted
      · rename_i named
        obtain rfl := Except.ok.inj accepted
        simp only [Bool.or_eq_true, List.isEmpty_iff, List.any_eq_true, not_or, not_exists, not_and,
          Bool.not_eq_true] at named
        refine ⟨rfl, fun other held => ?_⟩
        obtain rfl := Option.some.inj held
        exact named

theorem validateIdleAfter_ok {idleAfter : Option Time} {seconds : Time}
    (accepted : validateIdleAfter idleAfter = .ok seconds) :
    seconds = idleAfter.getD defaultIdleAfter ∧ 0 < seconds := by
  cases idleAfter with
  | none =>
      obtain rfl := Except.ok.inj accepted
      exact ⟨rfl, by decide⟩
  | some given =>
      unfold validateIdleAfter at accepted
      dsimp only at accepted
      split at accepted
      · cases accepted
      · rename_i positive
        obtain rfl := Except.ok.inj accepted
        exact ⟨rfl, not_le.mp positive⟩

theorem mapM_some {A B : Type} {check : A → Except Exc B} {given : Option A} {checked : Option B}
    (accepted : given.mapM check = .ok checked) :
    (given = none ∧ checked = none) ∨ ∃ one two, given = some one ∧ checked = some two ∧ check one = .ok two := by
  cases given with
  | none =>
      obtain rfl := Except.ok.inj accepted
      exact Or.inl ⟨rfl, rfl⟩
  | some one =>
      right
      rw [Option.mapM_some] at accepted
      cases outcome : check one with
      | error exc =>
          rw [outcome] at accepted
          cases accepted
      | ok two =>
          rw [outcome] at accepted
          obtain rfl := Except.ok.inj accepted
          exact ⟨one, two, rfl, rfl, outcome⟩

/-- A registration that takes effect is sound, and it replaces a record only on request. -/
theorem change_add {refusal : Refusal} {alias_ : String} {registration : Registration} {old : Option Record}
    {record : Record} (changed : change refusal (registration.command alias_) old = .ok record) :
    record.Sound refusal ∧ blank alias_ = false ∧ (registration.replace = false → old = none) ∧
      record = ⟨EntityAuth.stripSlashes registration.endpoint, registration.launch,
        registration.launch.map fun _ => registration.idleAfter.getD defaultIdleAfter,
        registration.authEndpoint.map EntityAuth.stripSlashes, none⟩ := by
  obtain ⟨checked, named, changed⟩ := bind_ok.mp changed
  obtain ⟨endpoint, addressed, changed⟩ := bind_ok.mp changed
  obtain ⟨launch, launched, changed⟩ := bind_ok.mp changed
  obtain ⟨authEndpoint, authorized, changed⟩ := bind_ok.mp changed
  split at changed
  · cases changed
  rename_i free
  obtain ⟨idleAfter, idle, changed⟩ := bind_ok.mp changed
  obtain rfl := Except.ok.inj changed
  obtain ⟨rfl, named⟩ := validateAlias_ok named
  obtain ⟨rfl, launchNamed⟩ := validateLaunch_ok launched
  have stored := (validateEndpoint_ok_iff.mp addressed).2
  have unreplaced : registration.replace = false → old = none := by
    intro kept
    simpa [kept] using free
  have authStored : authEndpoint = registration.authEndpoint.map EntityAuth.stripSlashes ∧
      ∀ given ∈ authEndpoint, validateEndpoint refusal given = .ok given := by
    rcases mapM_some authorized with ⟨none, rfl⟩ | ⟨given, kept, some, rfl, accepted⟩
    · rw [none]
      exact ⟨rfl, fun given absurd => by cases absurd⟩
    · rw [some, Option.map_some, (validateEndpoint_ok_iff.mp accepted).2]
      refine ⟨rfl, fun other held => ?_⟩
      obtain rfl := Option.some.inj held
      rw [← (validateEndpoint_ok_iff.mp accepted).2]
      exact validateEndpoint_stored accepted
  have idleStored : idleAfter = registration.launch.map (fun _ => registration.idleAfter.getD defaultIdleAfter) ∧
      ∀ seconds ∈ idleAfter, 0 < seconds := by
    rcases mapM_some idle with ⟨none, rfl⟩ | ⟨given, kept, some, rfl, accepted⟩
    · rw [none]
      exact ⟨rfl, fun given absurd => by cases absurd⟩
    · obtain ⟨same, positive⟩ := validateIdleAfter_ok accepted
      rw [some, Option.map_some, same]
      refine ⟨rfl, fun other held => ?_⟩
      obtain rfl := Option.some.inj held
      rw [← same]
      exact positive
  refine ⟨⟨validateEndpoint_stored addressed, authStored.2, launchNamed, ?_, idleStored.2, ?_⟩, named, unreplaced, ?_⟩
  · show idleAfter.isSome = registration.launch.isSome
    rw [idleStored.1, Option.isSome_map]
  · intro item held
    cases held
  · rw [stored, idleStored.1, authStored.1]

theorem change_authEndpoint {refusal : Refusal} {alias_ given : String} {old : Option Record} {record : Record}
    (changed : change refusal (.authEndpoint alias_ given) old = .ok record) :
    ∃ before, old = some before ∧ validateEndpoint refusal (EntityAuth.stripSlashes given) =
      .ok (EntityAuth.stripSlashes given) ∧
      record = { before with authEndpoint := some (EntityAuth.stripSlashes given) } := by
  obtain ⟨stored, accepted, changed⟩ := bind_ok.mp changed
  have same := (validateEndpoint_ok_iff.mp accepted).2
  have again := validateEndpoint_stored accepted
  subst same
  cases old with
  | none => cases changed
  | some before => exact ⟨before, rfl, again, (Except.ok.inj changed).symm⟩

/-- The record with one more association. -/
def Record.associated (record : Record) (documentGraphId graphId : String) : Record :=
  { record with graphMap := some (((record.graphMap.getD Dict.empty).set documentGraphId graphId).sortBy id) }

theorem change_graphMap {refusal : Refusal} {alias_ documentGraphId graphId : String} {old : Option Record}
    {record : Record} (changed : change refusal (.graphMap alias_ documentGraphId graphId) old = .ok record) :
    ∃ before, old = some before ∧ blank documentGraphId = false ∧ blank graphId = false ∧
      record = before.associated documentGraphId graphId := by
  obtain ⟨one, first, rest⟩ := bind_ok.mp changed
  obtain ⟨two, second, last⟩ := bind_ok.mp rest
  obtain ⟨rfl, named⟩ := validateGraphId_ok first
  obtain ⟨rfl, valued⟩ := validateGraphId_ok second
  cases old with
  | none => cases last
  | some before => exact ⟨before, rfl, named, valued, (Except.ok.inj last).symm⟩

/-- A command that takes effect keeps the record sound. -/
theorem sound_change {refusal : Refusal} {command : Command} {old : Option Record} {record : Record}
    (sound : ∀ before, old = some before → before.Sound refusal)
    (changed : change refusal command old = .ok record) : record.Sound refusal := by
  cases command with
  | add alias_ endpoint launch idleAfter authEndpoint replace =>
      exact (@change_add refusal alias_ ⟨endpoint, launch, idleAfter, authEndpoint, replace⟩ old record changed).1
  | authEndpoint alias_ given =>
      obtain ⟨before, held, accepted, rfl⟩ := change_authEndpoint changed
      have kept := sound before held
      refine ⟨kept.endpoint, fun other same => ?_, kept.launch, kept.managed, kept.idleAfter, kept.graphMap⟩
      obtain rfl := Option.some.inj same
      exact accepted
  | graphMap alias_ documentGraphId graphId =>
      obtain ⟨before, held, named, valued, rfl⟩ := change_graphMap changed
      have kept := sound before held
      refine ⟨kept.endpoint, kept.authEndpoint, kept.launch, kept.managed, kept.idleAfter, fun item member => ?_⟩
      have found := (Dict.get?_eq_some_iff _ item.1 item.2).mpr member
      rw [Record.associated, Option.getD_some, Dict.get?_sortBy, Dict.get?_set] at found
      split at found
      · rename_i same
        rw [same, ← Option.some.inj found]
        exact ⟨named, valued⟩
      · exact kept.graphMap item ((Dict.get?_eq_some_iff _ item.1 item.2).mp found)

theorem Amended.snoc {past : List Command} {alias_ : String} {record : Record} {registration : Registration}
    {earlier later : List Command} (amended : Amended past alias_ record registration earlier later)
    {command : Command} (amends : command.isAdd = false) :
    past ++ [command] = earlier ++ registration.command alias_ :: (later ++ [command]) ∧
      ∀ other ∈ later ++ [command], other.isAdd = false := by
  constructor
  · rw [amended.past, List.append_assoc, List.cons_append]
  · intro other member
    rcases List.mem_append.mp member with inside | last
    · exact amended.last other inside
    · rw [List.mem_singleton.mp last]
      exact amends

/-- A command that takes effect adds itself to the past of its record. -/
theorem told_change {refusal : Refusal} {command : Command} {past : List Command} {old : Option Record}
    {record : Record} (told : Told command.alias_ past old) (changed : change refusal command old = .ok record) :
    Told command.alias_ (past ++ [command]) (some record) := by
  cases command with
  | add alias_ endpoint launch idleAfter authEndpoint replace =>
      have registered := @change_add refusal alias_ ⟨endpoint, launch, idleAfter, authEndpoint, replace⟩ old record changed
      obtain ⟨_, _, unreplaced, rfl⟩ := registered
      refine ⟨⟨endpoint, launch, idleAfter, authEndpoint, replace⟩, past, [], rfl, fun kept => ?_, by simp, rfl, rfl,
        rfl, rfl, fun documentGraphId => rfl⟩
      rw [unreplaced kept] at told
      exact told
  | authEndpoint alias_ given =>
      obtain ⟨before, rfl, _, rfl⟩ := change_authEndpoint changed
      obtain ⟨registration, earlier, later, amended⟩ := told
      obtain ⟨past, last⟩ := amended.snoc (show (Command.authEndpoint alias_ given).isAdd = false from rfl)
      refine ⟨registration, earlier, later ++ [.authEndpoint alias_ given], past, amended.first, last,
        amended.endpoint, amended.launch, amended.idleAfter, ?_, fun documentGraphId => ?_⟩
      · rw [findSome?_snoc]
        rfl
      · rw [findSome?_snoc, ← amended.graphMap]
        rfl
  | graphMap alias_ documentGraphId graphId =>
      obtain ⟨before, rfl, _, _, rfl⟩ := change_graphMap changed
      obtain ⟨registration, earlier, later, amended⟩ := told
      obtain ⟨past, last⟩ := amended.snoc (show (Command.graphMap alias_ documentGraphId graphId).isAdd = false from rfl)
      refine ⟨registration, earlier, later ++ [.graphMap alias_ documentGraphId graphId], past, amended.first, last,
        amended.endpoint, amended.launch, amended.idleAfter, ?_, fun other => ?_⟩
      · rw [findSome?_snoc]
        exact amended.authEndpoint
      · rw [findSome?_snoc, ← amended.graphMap, Record.associated, Option.getD_some, Dict.get?_sortBy, Dict.get?_set,
          Command.mapped]
        by_cases same : documentGraphId = other
        · rw [if_pos same.symm, if_pos same, Option.some_or]
        · rw [if_neg (Ne.symm same), if_neg same, Option.none_or]

/-- What is stored under an alias is sound. -/
theorem run_sound (refusal : Refusal) (commands : List Command) (alias_ : String) (record : Record)
    (held : ((registry refusal).run Dict.empty commands).get? alias_ = some record) : record.Sound refusal := by
  have start : ∀ key value, (Dict.empty : Records).get? key = some value → value.Sound refusal := by
    intro key value absent
    cases absent
  exact (registry refusal).run_keeps (fun command old value sound written =>
    sound_change sound (toOption_ok.mp written)) start commands alias_ record held

/-- A record tells which accepted commands made it. -/
theorem run_told (refusal : Refusal) (commands : List Command) (alias_ : String) :
    Told alias_ ((registry refusal).atKey alias_ ((registry refusal).log Dict.empty commands))
      (((registry refusal).run Dict.empty commands).get? alias_) := by
  have start : ∀ key, Told key [] ((Dict.empty : Records).get? key) := fun key => rfl
  exact (registry refusal).log_tells start (fun command past old value told written =>
    told_change told (toOption_ok.mp written)) commands alias_

theorem records_readable {file : File Records} {data : Records} (readable : loadConnections file = .ok data) :
    records file = data := by
  cases file with
  | missing => exact Except.ok.inj readable
  | unreadable corruption => cases readable
  | content content => exact Except.ok.inj readable

/-- A record of the board tells its past and is sound. -/
theorem told_records {refusal : Refusal} {commands : List Command} {alias_ : String} {record : Record}
    (held : (records (afterCommands refusal .missing commands)).get? alias_ = some record) :
    Told alias_ (acceptedOn refusal commands alias_) (some record) ∧ record.Sound refusal := by
  have readable : loadConnections (.missing : File Records) = .ok Dict.empty := rfl
  rw [records_readable (afterCommands_readable readable commands)] at held
  refine ⟨?_, run_sound refusal commands alias_ record held⟩
  rw [← held, acceptedOn, accepted_readable readable]
  exact run_told refusal commands alias_

/-- Every request to a path of a stored endpoint goes over HTTP to the host of that endpoint, without credentials. -/
theorem request_addressed (refusal : Refusal) (commands : List Command) :
    ∃ data, loadConnections (afterCommands refusal .missing commands) = .ok data ∧
      ∀ alias_ record path, data.get? alias_ = some record → IsPath path.toList →
        ∀ endpoint ∈ record.endpoint :: record.authEndpoint.toList,
          Addressed refusal (endpoint ++ path) ∧ parts (endpoint ++ path).toList = parts endpoint.toList := by
  have readable : loadConnections (.missing : File Records) = .ok Dict.empty := rfl
  refine ⟨_, afterCommands_readable readable commands, fun alias_ record path held lead endpoint member => ?_⟩
  have sound := run_sound refusal commands alias_ record held
  have accepted : validateEndpoint refusal endpoint = .ok endpoint := by
    rcases List.mem_cons.mp member with rfl | authorizing
    · exact sound.endpoint
    · exact sound.authEndpoint endpoint (Option.mem_toList.mp authorizing)
  obtain ⟨addressed, stored⟩ := validateEndpoint_ok_iff.mp accepted
  rw [stored]
  refine ⟨addressed.request path lead, ?_⟩
  rw [parts_stored addressed path lead, ← stored]

end Cordboard.Connections
