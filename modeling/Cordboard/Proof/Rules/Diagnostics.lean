import Cordboard.Proof.Records
import Cordboard.Proof.Rules.Matching
import Cordboard.Proof.Script

namespace Cordboard.Router
open Data Effects

/-- A matched Rule fails at a declared path, at its Subject, or at its connection. -/
inductive Fault where
  | missing (path : String)
  | subject
  | connections (corruption : Corruption)
  | unknownAlias
deriving DecidableEq

/-- A diagnostic has one of these causes. -/
inductive Cause where
  | depth
  | noRule
  | rejected (rule : Rule) (fault : Fault)

def Fault.reason (rule : Rule) : Fault → String
  | .missing path => "path '" ++ path ++ "' not found in signal payload"
  | .subject => "Subject path '" ++ rule.subject ++ "' did not resolve to a non-empty string"
  | .connections corruption => (loadError .connections corruption).message
  | .unknownAlias => "unknown alias '" ++ rule.connection ++ "'"

/-- The text of a diagnostic follows from its cause and the cascade depth. -/
def Cause.reason (depth : Nat) : Cause → String
  | .depth => "cascade depth " ++ toString depth ++ " is at the maximum of " ++ toString maxCascadeDepth
  | .noRule => "no rule declared for this signal"
  | .rejected rule fault => fault.reason rule

/-- The diagnostic of a Signal follows from its type, its identifier, its cause, and its cascade depth. -/
def Cause.record (type : SignalType) (id : String) (depth : Nat) (cause : Cause) : UnmatchedRecord :=
  ⟨type, id, cause.reason depth⟩

def Cause.response (signal : Signal) (depth : Nat) : Cause → Response
  | .depth => .cascadeDepthExceeded signal.id depth
  | .noRule => .unmatched signal.id
  | .rejected rule _ => .invalidMapping signal.id rule.name

/-- The cascade depth that the payload of the Signal carries. -/
def depthOf : Signal → Nat
  | .external .. => 0
  | .finished run => run.cascadeDepth

/-- The first declared path that the payload does not have. -/
def missingPath (payload : Json) (fields : List (String × String)) : Option String :=
  (fields.map Prod.snd).find? fun path => (resolve payload path).isNone

/-- The declared paths of the Rule decide about its mapping. -/
def mappingFault (rule : Rule) (signal : Signal) : Option Fault :=
  match missingPath signal.payload rule.input with
  | some path => some (.missing path)
  | none =>
      match resolve signal.payload rule.subject with
      | none => some (.missing rule.subject)
      | some (.str text) => if blank text then some .subject else none
      | some _ => some .subject

/-- The aliases of the connections decide about the alias of the Rule. -/
def connectionFault (connections : File (Dict String Connection)) (rule : Rule) : Option Fault :=
  match connections with
  | .unreadable corruption => some (.connections corruption)
  | .missing => some .unknownAlias
  | .content data => if rule.connection ∈ data.keys then none else some .unknownAlias

/-- The cause of the diagnostic that the Signal leaves on the board. -/
def causeOf (board : Board) (signal : Signal) : Option Cause :=
  if signal.type = .runFinished ∧ maxCascadeDepth ≤ depthOf signal then
    some .depth
  else
    match decode .rules (board .rules) with
    | .error _ => none
    | .ok rules =>
        match rules.find? fun rule => matchesSignal rule signal with
        | none => some .noRule
        | some rule =>
            ((mappingFault rule signal).orElse fun _ => connectionFault (board .connections) rule).map (.rejected rule)

/-- The diagnostics of an unreadable file are lost. -/
def diagnostics : File (List UnmatchedRecord) → List UnmatchedRecord
  | .content records => records
  | _ => []

/-- These texts and the depth text are all that a diagnostic can say. -/
def reasons (rules : List Rule) : List String :=
  ["no rule declared for this signal"] ++ rules.flatMap fun rule =>
    ((rule.input.map fun field => Fault.missing field.2) ++ [.missing rule.subject, .subject, .unknownAlias,
      .connections .notJson, .connections .wrongShape]).map (Fault.reason rule)

def diagnostic : Response → Bool
  | .cascadeDepthExceeded .. => true
  | .unmatched _ => true
  | .invalidMapping .. => true
  | _ => false

section
variable {rule : Rule} {signal : Signal}

theorem lookup_none {payload : Json} {path : String} (absent : resolve payload path = none) :
    lookup payload path = .error ⟨.mapping, Fault.reason rule (.missing path)⟩ := by
  unfold lookup
  rw [resolve] at absent
  rw [absent]
  rfl

theorem lookup_some {payload value : Json} {path : String} (found : resolve payload path = some value) :
    lookup payload path = .ok value := by
  unfold lookup
  rw [resolve] at found
  rw [found]

/-- The input is mapped up to the first path that is missing. -/
theorem inputs_end (payload : Json) (fields : List (String × String)) :
    (∃ path, missingPath payload fields = some path ∧
      (fields.mapM fun field => do
        let value ← lookup payload field.2
        pure (field.1, value)) = .error ⟨.mapping, Fault.reason rule (.missing path)⟩) ∨
    (missingPath payload fields = none ∧ ∃ values, (fields.mapM fun field => do
        let value ← lookup payload field.2
        pure (field.1, value)) = .ok values) := by
  induction fields with
  | nil => exact .inr ⟨rfl, [], rfl⟩
  | cons field rest ih =>
      unfold missingPath at ih ⊢
      rw [List.map_cons, List.find?_cons, List.mapM_cons]
      cases found : resolve payload field.2 with
      | none =>
          refine .inl ⟨field.2, rfl, ?_⟩
          rw [lookup_none found]
          rfl
      | some value =>
          rw [lookup_some found]
          rcases ih with ⟨path, missing, failed⟩ | ⟨complete, values, mapped⟩
          · refine .inl ⟨path, missing, ?_⟩
            rw [failed]
            rfl
          · refine .inr ⟨complete, (field.1, value) :: values, ?_⟩
            rw [mapped]
            rfl

/-- The mapping fails exactly with its fault. -/
theorem apply_end (rule : Rule) (signal : Signal) :
    (∃ fault, mappingFault rule signal = some fault ∧ apply rule signal = .error ⟨.mapping, fault.reason rule⟩) ∨
    (mappingFault rule signal = none ∧ ∃ mapped, apply rule signal = .ok mapped) := by
  unfold mappingFault apply
  rcases @inputs_end rule signal.payload rule.input with ⟨path, missing, failed⟩ | ⟨complete, values, mapped⟩
  · rw [missing, failed]
    exact .inl ⟨_, rfl, rfl⟩
  · rw [complete, mapped]
    cases found : resolve signal.payload rule.subject with
    | none =>
        refine .inl ⟨_, rfl, ?_⟩
        dsimp only [bind, Except.bind]
        rw [lookup_none found]
    | some value =>
        dsimp only [bind, Except.bind]
        rw [lookup_some found]
        cases value with
        | str text =>
            by_cases empty : blank text = true
            · refine .inl ⟨.subject, if_pos empty, ?_⟩
              dsimp only
              rw [if_pos empty]
              rfl
            · refine .inr ⟨if_neg empty, (values, text), ?_⟩
              dsimp only
              rw [if_neg empty]
              rfl
        | _ => exact .inl ⟨.subject, rfl, rfl⟩

/-- The mapping and the connection of a Rule change nothing, and fail exactly with a fault. -/
theorem mapRule_ends (board : Board) (rule : Rule) (signal : Signal) :
    Fallible.wp boardMachine (mapRule rule signal) (fun _ outcome after => after = board ∧
      ((∃ fault kind, ((mappingFault rule signal).orElse fun _ => connectionFault (board .connections) rule) = some fault ∧
        (kind = .mapping ∨ kind = .invalidConnection) ∧ outcome = .error ⟨kind, fault.reason rule⟩) ∨
      ∃ mapped, outcome = .ok mapped)) board := by
  unfold mapRule
  rw [Fallible.wp_bind, Fallible.wp_ofExcept]
  rcases apply_end rule signal with ⟨fault, known, failed⟩ | ⟨complete, mapped, done⟩
  · rw [failed, known]
    exact ⟨rfl, .inl ⟨fault, .mapping, rfl, .inl rfl, rfl⟩⟩
  · rw [done, complete, Fallible.after_ok]
    dsimp only [Option.orElse]
    unfold getConnection loadConnections
    simp only [Fallible.wp_bind, wp_load]
    refine ⟨trivial, ?_⟩
    rintro file after ⟨rfl, rfl⟩
    cases stored : after .connections with
    | unreadable corruption =>
        refine ⟨rfl, .inl ⟨.connections corruption, .invalidConnection, rfl, .inr rfl, ?_⟩⟩
        cases corruption <;> rfl
    | missing => exact ⟨rfl, .inl ⟨.unknownAlias, .invalidConnection, rfl, .inr rfl, rfl⟩⟩
    | content data =>
        dsimp only [decode, Fallible.after, connectionFault]
        cases found : data.get? rule.connection with
        | none =>
            have absent : rule.connection ∉ data.keys := (Dict.get?_eq_none_iff _ _).mp found
            rw [if_neg absent]
            exact ⟨rfl, .inl ⟨.unknownAlias, .invalidConnection, rfl, .inr rfl, rfl⟩⟩
        | some connection => exact ⟨rfl, .inr ⟨(mapped, connection), rfl⟩⟩

/-- A diagnostic joins the earlier ones at the end, unless the file has the wrong shape. -/
theorem recordUnmatched_ends (board : Board) (signal : Signal) (reason : String) {response : Response}
    {post : Except Exc Response → Board → Prop}
    (recorded : post (.ok response)
      (board.put .unmatched (diagnostics (board .unmatched) ++ [⟨signal.type, signal.id, reason⟩])))
    (refused : ∀ exc, post (.error exc) board) :
    Fallible.wp boardMachine (recordUnmatched signal reason >>= fun _ => pure response) (fun _ => post) board := by
  unfold recordUnmatched
  simp only [Fallible.wp_bind, wp_readFile]
  refine ⟨trivial, ?_⟩
  rintro file after ⟨rfl, rfl⟩
  cases stored : after .unmatched with
  | missing =>
      rw [stored] at recorded
      refine ⟨trivial, ?_⟩
      rintro _ _ rfl
      exact recorded
  | unreadable corruption =>
      cases corruption with
      | notJson =>
          rw [stored] at recorded
          refine ⟨trivial, ?_⟩
          rintro _ _ rfl
          exact recorded
      | wrongShape => exact refused _
  | content existing =>
      rw [stored] at recorded
      refine ⟨trivial, ?_⟩
      rintro _ _ rfl
      exact recorded

/-- A submission answers no diagnostic. -/
abbrev Routes (submitted : Submitted) : Prop := ∀ response, submitted.response = .ok response → diagnostic response = false

theorem routes_ok {response : Response} {deployment concurrency : Bool} (plain : diagnostic response = false) :
    Routes ⟨.ok response, deployment, concurrency⟩ := by
  rintro _ same
  obtain rfl := Except.ok.inj same
  exact plain

theorem guarded (board : Board) (op : Effect) : boardMachine.guard board op := trivial

theorem recordAccepted_routes (rule : Rule) (subject : String) (result : ExecuteResult) (now : Time) :
    Fallible.Returns boardMachine Routes (recordAccepted signal rule subject result now) := by
  unfold recordAccepted
  dsimp only
  split
  · exact Fallible.returns_pure (routes_ok rfl)
  · apply Fallible.Returns.bind guarded
    intro _
    apply Fallible.Returns.bind guarded
    intro _
    split
    · exact Fallible.returns_pure (routes_ok rfl)
    · apply Fallible.Returns.bind guarded
      intro recorded
      apply Fallible.returns_pure
      intro response same
      cases recorded with
      | ok _ =>
          obtain rfl := Except.ok.inj same
          rfl
      | error exc => cases same

theorem submitRun_routes (rule : Rule) (connection : Connection) (graphInput : List (String × Json))
    (subject : String) (timeout now : Time) :
    Fallible.Returns boardMachine Routes (submitRun signal rule connection graphInput subject timeout now) := by
  have started : Fallible.Returns boardMachine Routes
      (submitStarted signal rule connection graphInput subject timeout now) := by
    apply Fallible.Returns.bind guarded
    intro granted
    split
    · exact Fallible.returns_pure (routes_ok rfl)
    apply Fallible.Returns.bind guarded
    intro _
    apply Fallible.Returns.bind guarded
    intro answer
    cases answer with
    | ok result => exact recordAccepted_routes _ _ _ _
    | error exc =>
        dsimp only
        split
        · exact Fallible.returns_pure (routes_ok rfl)
        · exact Fallible.returns_raise _
  apply Fallible.Returns.bind guarded
  intro state
  cases state with
  | startFailed error => exact Fallible.returns_pure (routes_ok rfl)
  | external => exact started
  | running pid => exact started

theorem settleRun_routes (rule : Rule) (connection : Connection) (graphInput : List (String × Json))
    (subject : String) (timeout now : Time) :
    Fallible.Returns boardMachine (fun response => diagnostic response = false)
      (settleRun signal rule connection graphInput subject timeout now) := by
  apply (submitRun_routes rule connection graphInput subject timeout now).attempt.seq
  intro settled routes
  cases settled with
  | error exc =>
      apply Fallible.Returns.bind guarded
      intro _
      exact Fallible.returns_raise _
  | ok submitted =>
      apply Fallible.Returns.bind guarded
      intro _
      exact Fallible.returns_ofExcept (routes submitted rfl)

theorem chain_routes (cascade : Signal → Py Response) (rule : Rule) (subject : String) {response : Response}
    (plain : diagnostic response = false) :
    Fallible.Returns boardMachine (fun result => diagnostic result = false)
      (chain cascade signal rule subject response) := by
  unfold chain
  split
  · split
    · apply Fallible.Returns.bind guarded
      intro finished
      apply Fallible.Returns.bind guarded
      intro child
      exact Fallible.returns_pure rfl
    · exact Fallible.returns_pure rfl
  · exact Fallible.returns_pure plain

/-- A mapped Signal ends without a diagnostic of its own. -/
theorem routeMapped_routes (cascade : Signal → Py Response) (rule : Rule) (connection : Connection)
    (graphInput : List (String × Json)) (subject : String) (timeout now : Time) :
    Fallible.Returns boardMachine (fun response => diagnostic response = false)
      (routeMapped cascade signal rule connection graphInput subject timeout now) := by
  apply Fallible.Returns.bind guarded
  intro taken
  split
  · exact Fallible.returns_pure rfl
  · apply (settleRun_routes rule connection graphInput subject timeout now).seq
    intro response plain
    exact chain_routes cascade rule subject plain

/-- The response is a diagnostic, and its record is the one of the cause. -/
def Diagnosed (board : Board) (signal : Signal) (response : Response) (after : Board) : Prop :=
  ∃ cause, causeOf board signal = some cause ∧ response = cause.response signal (depthOf signal) ∧
    after = board.put .unmatched
      (diagnostics (board .unmatched) ++ [cause.record signal.type signal.id (depthOf signal)])

/-- A diagnostic response comes with the record of its cause. -/
abbrev Explained (board : Board) (signal : Signal) (outcome : Except Exc Response) (after : Board) : Prop :=
  ∀ response, outcome = .ok response → diagnostic response = true → Diagnosed board signal response after

theorem explained_error {board after : Board} (exc : Exc) : Explained board signal (.error exc) after := by
  intro response same
  cases same

theorem explained_of_routes {board start : Board} {program : Py Response}
    (routes : Fallible.Returns boardMachine (fun response => diagnostic response = false) program) :
    Fallible.wp boardMachine program (fun _ => Explained board signal) start := by
  apply Fallible.wp_mono (routes start)
  intro _ outcome after plain response same known
  rw [plain response same] at known
  cases known

theorem explained_record {board : Board} {cause : Cause} (known : causeOf board signal = some cause) :
    Fallible.wp boardMachine (recordUnmatched signal (cause.reason (depthOf signal)) >>= fun _ =>
      pure (cause.response signal (depthOf signal))) (fun _ => Explained board signal) board := by
  apply recordUnmatched_ends
  · rintro _ same _
    obtain rfl := Except.ok.inj same
    exact ⟨cause, known, rfl, rfl⟩
  · exact explained_error

theorem routeByRule_ends (cascade : Signal → Py Response) (timeout now : Time) {board : Board}
    (shallow : ¬(signal.type = .runFinished ∧ maxCascadeDepth ≤ depthOf signal)) :
    Fallible.wp boardMachine (routeByRule cascade timeout now signal) (fun _ => Explained board signal) board := by
  apply wp_loaded .rules
  · intro _ rules decoded
    have first := @List.head?_filter _ (fun rule => matchesSignal rule signal) rules
    cases matching : rules.filter fun rule => matchesSignal rule signal with
    | nil =>
        rw [matching] at first
        have cause : causeOf board signal = some .noRule := by
          rw [causeOf, if_neg shallow, decoded]
          dsimp only
          rw [← first]
          rfl
        exact explained_record cause
    | cons rule others =>
        rw [matching] at first
        have cause : causeOf board signal = ((mappingFault rule signal).orElse fun _ =>
            connectionFault (board .connections) rule).map (.rejected rule) := by
          rw [causeOf, if_neg shallow, decoded]
          dsimp only
          rw [← first]
          rfl
        apply Fallible.wp_caught (mapRule_ends board rule signal)
        rintro _ outcome _ ⟨rfl, ⟨fault, kind, known, kinds, rfl⟩ | ⟨mapped, rfl⟩⟩
        · rw [known] at cause
          dsimp only
          rw [if_pos kinds]
          exact explained_record cause
        · obtain ⟨⟨graphInput, subject⟩, connection⟩ := mapped
          exact explained_of_routes (routeMapped_routes _ _ _ _ _ _ _)
  · exact fun _ exc _ => explained_error exc

/-- Each level of the routing explains its own diagnostics. -/
theorem routeHop_ends (cascade : Signal → Py Response) (timeout now : Time) (signal : Signal) (board : Board) :
    Fallible.wp boardMachine (routeHop cascade timeout now signal) (fun _ => Explained board signal) board := by
  cases signal with
  | external source id payload =>
      apply routeByRule_ends
      rintro ⟨finished, _⟩
      cases source <;> cases finished
  | finished run =>
      simp only [routeHop, Fallible.wp_bind, wp_note]
      refine ⟨trivial, ?_⟩
      rintro _ rfl
      rw [Fallible.after_ok, Fallible.wp_ite]
      split
      · rename_i deep
        exact @explained_record (.finished run) _ .depth (if_pos ⟨rfl, deep⟩)
      · rename_i shallow
        exact routeByRule_ends _ _ _ fun deep => shallow deep.2

/-- A Rule fails at a path that it declares. -/
theorem declared_of_mappingFault {fault : Fault} (known : mappingFault rule signal = some fault) :
    fault ∈ (rule.input.map fun field => Fault.missing field.2) ++ [.missing rule.subject, .subject] := by
  unfold mappingFault at known
  cases missing : missingPath signal.payload rule.input with
  | some path =>
      rw [missing] at known
      obtain rfl := Option.some.inj known
      obtain ⟨field, member, rfl⟩ := List.mem_map.mp (List.mem_of_find?_eq_some missing)
      exact List.mem_append_left _ (List.mem_map.mpr ⟨field, member, rfl⟩)
  | none =>
      rw [missing] at known
      apply List.mem_append_right
      cases found : resolve signal.payload rule.subject with
      | none =>
          rw [found] at known
          obtain rfl := Option.some.inj known
          simp
      | some value =>
          rw [found] at known
          have subject : fault = .subject := by
            cases value with
            | str text =>
                dsimp only at known
                split at known <;> cases known
                rfl
            | _ =>
                cases known
                rfl
          simp [subject]

/-- The Rules of the board fix the text of a diagnostic, but for the depth. -/
theorem reason_of_cause {board : Board} {cause : Cause} (known : causeOf board signal = some cause) (depth : Nat) :
    cause = .depth ∨ ∃ rules, decode .rules (board .rules) = .ok rules ∧ cause.reason depth ∈ reasons rules := by
  unfold causeOf at known
  split at known
  · exact .inl (Option.some.inj known).symm
  · cases decoded : decode .rules (board .rules) with
    | error exc =>
        rw [decoded] at known
        cases known
    | ok rules =>
        rw [decoded] at known
        refine .inr ⟨rules, rfl, ?_⟩
        cases found : rules.find? fun rule => matchesSignal rule signal with
        | none =>
            simp only [found] at known
            obtain rfl := Option.some.inj known
            exact List.mem_append_left _ List.mem_cons_self
        | some rule =>
            simp only [found] at known
            obtain ⟨fault, failed, rfl⟩ := Option.map_eq_some_iff.mp known
            apply List.mem_append_right
            refine List.mem_flatMap.mpr ⟨rule, List.mem_of_find?_eq_some found, ?_⟩
            apply List.mem_map_of_mem
            cases mapping : mappingFault rule signal with
            | some other =>
                rw [mapping] at failed
                obtain rfl := Option.some.inj failed
                have declared := declared_of_mappingFault mapping
                simp only [List.mem_append, List.mem_cons] at declared ⊢
                tauto
            | none =>
                rw [mapping] at failed
                have refused : connectionFault (board .connections) rule = some fault := failed
                unfold connectionFault at refused
                apply List.mem_append_right
                split at refused
                · rename_i corruption _
                  obtain rfl := Option.some.inj refused
                  cases corruption <;> simp
                · obtain rfl := Option.some.inj refused
                  simp
                · split at refused
                  · cases refused
                  · obtain rfl := Option.some.inj refused
                    simp

theorem routeWithin_ends {fuel : Nat} {timeout now : Time} {board final : Board} {trace : List signature.Event}
    {response : Response}
    (run : Runs boardMachine (routeWithin timeout now fuel signal).toProgram board trace (.ok response) final)
    (failed : diagnostic response = true) : Diagnosed board signal response final := by
  cases fuel with
  | zero => cases run
  | succ fuel => exact Fallible.wp_runs (routeHop_ends _ timeout now signal board) run response rfl failed

end

/-- Two Signals with one type, one identifier, and one cause leave the same diagnostic, whatever their payloads hold. -/
theorem diagnostics_without_payload {first second : Signal} {board other final last : Board}
    {timeout now limit later : Time} {fuel levels : Nat} {trace events : List signature.Event} {response reply : Response}
    (type : first.type = second.type) (id : first.id = second.id)
    (one : Runs boardMachine (routeWithin timeout now fuel first).toProgram board trace (.ok response) final)
    (two : Runs boardMachine (routeWithin limit later levels second).toProgram other events (.ok reply) last)
    (failed : diagnostic response = true) (missed : diagnostic reply = true)
    (same : causeOf board first = causeOf other second) :
    ∃ cause, causeOf board first = some cause ∧
      response = cause.response first (depthOf first) ∧ reply = cause.response first (depthOf second) ∧
      final = board.put .unmatched
        (diagnostics (board .unmatched) ++ [cause.record first.type first.id (depthOf first)]) ∧
      last = other.put .unmatched
        (diagnostics (other .unmatched) ++ [cause.record first.type first.id (depthOf second)]) ∧
      (cause = .depth ∨
        cause.record first.type first.id (depthOf first) = cause.record first.type first.id (depthOf second) ∧
        ∃ rules, decode .rules (board .rules) = .ok rules ∧ ∀ depth, cause.reason depth ∈ reasons rules) := by
  obtain ⟨cause, known, answer, written⟩ := routeWithin_ends one failed
  obtain ⟨again, found, other, replaced⟩ := routeWithin_ends two missed
  obtain rfl : cause = again := Option.some.inj (known.symm.trans (same.trans found))
  refine ⟨cause, known, answer, ?_, written, ?_, ?_⟩
  · rw [other]
    cases cause <;> simp only [Cause.response, id]
  · rw [replaced, type, id]
  · cases cause with
    | depth => exact .inl rfl
    | noRule =>
        rcases reason_of_cause known 0 with impossible | ⟨rules, decoded, member⟩
        · cases impossible
        · exact .inr ⟨rfl, rules, decoded, fun _ => member⟩
    | rejected rule fault =>
        rcases reason_of_cause known 0 with impossible | ⟨rules, decoded, member⟩
        · cases impossible
        · exact .inr ⟨rfl, rules, decoded, fun _ => member⟩

section Example

/-- The Rule takes the Subject from a path of the payload. -/
def titleRule : Rule := ⟨"triage", .manual, [], [], "local", "graph", "issue.title", []⟩

def titleBoard : Board
  | .rules => .content [titleRule]
  | _ => .missing

/-- The Subject of the Signal is no text. -/
def untitled (title : Json) : Signal := .external .manual "event" [("issue", .obj [("title", title)])]

theorem diagnostics_without_payload_untitled :
    ((calm.exec (routeSignal (untitled (.int 7)) 120 0) titleBoard).final .unmatched =
      .content [⟨.manual, "event", Fault.reason titleRule .subject⟩] ∧
    (calm.exec (routeSignal (untitled (.arr [.str "secret"])) 120 5) titleBoard).final .unmatched =
      .content [⟨.manual, "event", Fault.reason titleRule .subject⟩]) ∧
    ∃ cause, causeOf titleBoard (untitled (.int 7)) = some cause ∧
      ∃ rules, decode .rules (titleBoard .rules) = .ok rules ∧ ∀ depth, cause.reason depth ∈ reasons rules := by
  have one := calm.exec_runs (routeSignal (untitled (.int 7)) 120 0) titleBoard
  have two := calm.exec_runs (routeSignal (untitled (.arr [.str "secret"])) 120 5) titleBoard
  have answer : (calm.exec (routeSignal (untitled (.int 7)) 120 0) titleBoard).value =
      .ok (.invalidMapping "event" "triage") := rfl
  have reply : (calm.exec (routeSignal (untitled (.arr [.str "secret"])) 120 5) titleBoard).value =
      .ok (.invalidMapping "event" "triage") := rfl
  rw [answer] at one
  rw [reply] at two
  obtain ⟨cause, known, _, _, _, _, deep | ⟨_, rules, decoded, listed⟩⟩ :=
    @diagnostics_without_payload (untitled (.int 7)) (untitled (.arr [.str "secret"])) _ _ _ _ 120 0 120 5 _ _ _ _ _ _
      rfl rfl one two rfl rfl rfl
  · subst deep
    cases known
  · exact ⟨⟨rfl, rfl⟩, cause, known, rules, decoded, listed⟩

end Example

end Cordboard.Router
