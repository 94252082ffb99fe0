import Cordboard.Construction.Web.Controls

namespace Cordboard.Web
open Data Data.Percent Effects

/-- These operations act on a deployment. -/
def controls : Query → Bool
  | .executeRun _ => true
  | .submitResponse _ => true
  | _ => false

/-- A request may be entitled to act. It may spend the nonce of its form, and has spent it or not. -/
structure Phase where
  entitled : Bool
  nonce : Option String
  spent : Bool

/-- An entitled request acts, and it executes after it has spent its nonce. -/
def spendingGuard (phase : Phase) : Op → Prop
  | .consumeNonce nonce => phase.nonce = some nonce ∧ phase.spent = false
  | .ask (.executeRun _) => phase.entitled = true ∧ phase.spent = true
  | .ask (.submitResponse _) => phase.entitled = true
  | _ => True

/-- An execution uses the spent nonce up. -/
def spendingNext (phase : Phase) : (op : Op) → op.Answer → Phase
  | .consumeNonce _, answer => { phase with spent := answer }
  | .ask (.executeRun _), _ => { phase with spent := false }
  | _, _ => phase

abbrev spending : Protocol signature := ⟨Phase, spendingGuard, spendingNext⟩

/-- This operation spends nothing and does not act. -/
def harmless : Op → Prop
  | .consumeNonce _ => False
  | .ask query => controls query = false
  | _ => True

theorem harmless_neutral (phase : Phase) {op : Op} (harm : harmless op) :
    spendingGuard phase op ∧ ∀ answer, spendingNext phase op answer = phase := by
  cases op with
  | tokenUrlsafe => exact ⟨trivial, fun _ => rfl⟩
  | addNonce nonce => exact ⟨trivial, fun _ => rfl⟩
  | consumeNonce nonce => cases harm
  | ask query =>
      cases query with
      | executeRun call => cases harm
      | submitResponse call => cases harm
      | _ => exact ⟨trivial, fun _ => rfl⟩

section
variable {A B : Type} {phase : Phase}

/-- A harmless program keeps the phase. -/
theorem wp_harmless {program : Control A} (uses : program.Uses harmless) (phase : Phase) :
    program.wp spending.machine (fun _ _ after => after = phase) phase := by
  apply Fallible.wp_of_uses
  apply uses.mono
  intro op harm
  obtain ⟨permitted, same⟩ := harmless_neutral phase harm
  refine ⟨permitted, ?_⟩
  rintro answer after rfl
  exact same answer

abbrev Obeys (program : Control A) (phase : Phase) : Prop := spending.Obeys program.toProgram phase

theorem obeys_harmless {program : Control A} (uses : program.Uses harmless) (phase : Phase) : Obeys program phase :=
  Fallible.wp_mono (wp_harmless uses phase) fun _ _ _ _ => trivial

/-- A harmless beginning keeps the phase for the rest. -/
theorem obeys_after {program : Control A} {rest : A → Control B} (uses : program.Uses harmless)
    (later : ∀ value, Obeys (rest value) phase) : Obeys (program >>= rest) phase := by
  apply Fallible.wp_seq (wp_harmless uses phase)
  · rintro _ value _ rfl
    exact later value
  · intro _ _ _ _
    trivial

/-- A harmless end asks nothing of the phase. -/
theorem obeys_before {program : Control A} {rest : A → Control B} (first : Obeys program phase)
    (later : ∀ value, (rest value).Uses harmless) : Obeys (program >>= rest) phase := by
  apply Fallible.wp_seq first
  · intro _ value reached _
    exact obeys_harmless (later value) reached
  · intro _ _ _ _
    trivial

theorem obeys_attempt {program : Control A} (obeys : Obeys program phase) : Obeys program.attempt phase :=
  (Fallible.wp_attempt _ _ _).mpr obeys

theorem uses_ask {query : Query} (harm : controls query = false) : (ask query).Uses harmless :=
  Fallible.Uses.bind ((Fallible.uses_request _).mpr harm) fun _ => Fallible.uses_ofExcept _

end

section
variable {settings : Settings} {library : Library} {alias_ graphId threadId interruptId path : String} {asJson : Bool}
  {status : Nat} {message nonce : Option String}

theorem reply_uses : (reply status message nonce).Uses harmless := uses_ask rfl

theorem failure_uses (status : Nat) (message : String) : (failure status message).Uses harmless := reply_uses

theorem endpointOf_uses (connection : Connection) : (endpointOf connection).Uses harmless := Fallible.uses_ofExcept _

theorem newNonce_uses : newNonce.Uses harmless := by
  unfold newNonce
  apply Fallible.Uses.bind ((Fallible.uses_request _).mpr trivial)
  intro token
  apply Fallible.Uses.bind ((Fallible.uses_request _).mpr trivial)
  exact fun _ => Fallible.uses_pure _

theorem formAssistants_uses (connection : Connection) : (formAssistants alias_ connection).Uses harmless := by
  unfold formAssistants
  apply Fallible.Uses.bind (uses_ask rfl)
  intro ready
  split
  · apply Fallible.Uses.bind (endpointOf_uses connection)
    intro endpoint
    apply Fallible.Uses.bind (uses_ask rfl).attempt
    intro outcome
    cases outcome with
    | ok assistants => exact Fallible.uses_pure _
    | error raised =>
        dsimp only
        split
        · exact Fallible.uses_pure _
        · exact Fallible.uses_raise _
  · exact Fallible.uses_pure _

/-- The execute form is harmless. -/
theorem renderExecute_uses : (renderExecute alias_ graphId asJson status message).Uses harmless := by
  unfold renderExecute
  apply Fallible.Uses.bind (uses_ask rfl)
  intro connections
  cases connections.get? alias_ with
  | none => exact failure_uses _ _
  | some connection =>
      apply Fallible.Uses.bind (uses_ask rfl)
      intro graphs
      split
      · split
        · exact reply_uses
        · apply Fallible.Uses.bind (formAssistants_uses connection)
          intro _
          apply Fallible.Uses.bind newNonce_uses
          intro nonce
          apply Fallible.Uses.bind (uses_ask rfl)
          exact fun _ => reply_uses
      · exact failure_uses _ _

theorem renderApprovalsList_uses : (renderApprovalsList asJson).Uses harmless := by
  unfold renderApprovalsList
  apply Fallible.Uses.bind (uses_ask rfl)
  intro waiting
  split
  · exact reply_uses
  · apply Fallible.Uses.bind (uses_ask rfl)
    intro catalog
    apply Fallible.Uses.bind (uses_ask rfl)
    exact fun _ => reply_uses

theorem renderApprovalDetail_uses :
    (renderApprovalDetail alias_ threadId interruptId asJson status message).Uses harmless := by
  unfold renderApprovalDetail
  apply Fallible.Uses.bind (uses_ask rfl)
  intro waiting
  dsimp only
  split
  · split <;> exact reply_uses
  · apply Fallible.Uses.bind (uses_ask rfl)
    intro connections
    apply Fallible.Uses.bind (uses_ask rfl)
    intro catalog
    apply Fallible.Uses.bind (uses_ask rfl)
    exact fun _ => reply_uses

theorem renderView_uses : (renderView library path asJson).Uses harmless := by
  unfold renderView
  apply Fallible.Uses.bind (uses_ask rfl)
  intro catalog
  dsimp only
  cases select library.replaced catalog path with
  | none => exact Fallible.uses_raise _
  | some selected =>
      have page : (do ask .diagnostics; reply 200 none none : Control Unit).Uses harmless :=
        (uses_ask rfl).bind fun _ => reply_uses
      dsimp only
      cases selected.events with
      | true =>
          cases selected.run with
          | none => exact Fallible.uses_raise _
          | some run => exact uses_ask rfl
      | false =>
          dsimp only
          split
          · exact reply_uses
          · cases selected.run with
            | none => exact page
            | some run => exact (uses_ask rfl).bind fun _ => page

theorem route_uses : (route library path asJson).Uses harmless := by
  unfold route
  split
  · exact reply_uses
  · cases matchExecute library path with
    | some target => exact renderExecute_uses
    | none =>
        dsimp only
        cases matchApprovals library path with
        | none => exact renderView_uses
        | some target =>
            cases target with
            | list => exact renderApprovalsList_uses
            | detail alias_ threadId interruptId => exact renderApprovalDetail_uses

theorem orNotFound_uses {action : Control Unit} (uses : action.Uses harmless) : (orNotFound action).Uses harmless := by
  unfold orNotFound
  apply Fallible.Uses.bind uses.attempt
  intro outcome
  cases outcome with
  | ok value => exact Fallible.uses_pure _
  | error raised =>
      dsimp only
      split
      · exact failure_uses _ _
      · exact Fallible.uses_raise _

/-- The error page after an action is harmless. -/
theorem orUnavailable_obeys {action : Control Unit} {phase : Phase} (obeys : Obeys action phase) (text : String) :
    Obeys (orUnavailable text action) phase := by
  apply obeys_before (obeys_attempt obeys)
  intro outcome
  cases outcome with
  | ok value => exact Fallible.uses_pure _
  | error raised =>
      dsimp only
      split
      · exact failure_uses _ _
      · exact Fallible.uses_raise _

/-- A GET request does not act. -/
theorem doGet_obeys (incoming : Request) (phase : Phase) : Obeys (doGet library incoming) phase := by
  unfold doGet
  apply obeys_after (Fallible.uses_ofExcept _)
  intro url
  exact orUnavailable_obeys (obeys_harmless (orNotFound_uses route_uses) phase) _

theorem afterExecute_uses (outcome : Except Raised Executed) :
    (afterExecute alias_ graphId asJson outcome).Uses harmless := by
  unfold afterExecute
  cases outcome with
  | error raised =>
      dsimp only
      split
      · exact renderExecute_uses
      · split
        · exact renderExecute_uses
        · exact Fallible.uses_raise _
  | ok result =>
      have last : (if asJson then reply 200 none none else ask (.redirect ("/connections/" ++ quote alias_ ++ "/graphs/" ++
          quote graphId ++ "/runs/" ++ quote result.runId)) : Control Unit).Uses harmless := by
        split
        · exact reply_uses
        · exact uses_ask rfl
      dsimp only
      split
      · exact (uses_ask rfl).bind fun _ => last
      · exact last

/-- A request that has spent its nonce executes once. -/
theorem submitExecution_obeys (connection : Connection) (form : Form) (known : Option String) :
    Obeys (submitExecution library alias_ graphId connection form asJson) ⟨true, known, true⟩ := by
  unfold submitExecution
  apply obeys_after (endpointOf_uses connection)
  intro endpoint
  apply obeys_after (uses_ask rfl)
  intro assistants
  split
  · cases executionInput library form with
    | none => exact obeys_harmless renderExecute_uses _
    | some input =>
        obtain ⟨graphInput, requestContext⟩ := input
        apply obeys_before _ fun outcome => afterExecute_uses outcome
        apply obeys_attempt
        refine ⟨⟨rfl, rfl⟩, ?_⟩
        rintro answer after rfl
        cases answer <;> trivial
  · exact obeys_harmless renderExecute_uses _

/-- The nonce of the form is spent when the server finds it. -/
theorem spendNonce_spends (form : Form) (entitled : Bool) :
    (spendNonce form).wp spending.machine (fun _ outcome after => ∀ spent, outcome = .ok spent →
      after = ⟨entitled, form.get? "nonce", spent⟩) ⟨entitled, form.get? "nonce", false⟩ := by
  unfold spendNonce
  cases known : form.get? "nonce" with
  | none =>
      rintro spent same
      obtain rfl := Except.ok.inj same
      rfl
  | some nonce =>
      dsimp only [Option.getD_some]
      split
      · rintro spent same
        obtain rfl := Except.ok.inj same
        rfl
      · refine ⟨⟨rfl, rfl⟩, ?_⟩
        rintro answer after rfl spent same
        obtain rfl := Except.ok.inj same
        rfl

theorem handleExecutePost_obeys (form : Form) :
    Obeys (handleExecutePost library alias_ graphId form asJson) ⟨true, form.get? "nonce", false⟩ := by
  unfold handleExecutePost
  apply obeys_after (uses_ask rfl)
  intro connections
  cases connections.get? alias_ with
  | none => exact obeys_harmless (failure_uses _ _) _
  | some connection =>
      apply Fallible.wp_seq (spendNonce_spends form true)
      · intro _ spent reached known
        obtain rfl := known spent rfl
        cases spent with
        | true => exact submitExecution_obeys connection form _
        | false => exact obeys_harmless renderExecute_uses _
      · intro _ _ _ _
        trivial

theorem afterRespond_uses (outcome : Except Raised SubmissionResult) :
    (afterRespond alias_ threadId interruptId asJson outcome).Uses harmless := by
  unfold afterRespond
  cases outcome with
  | error raised => cases raised <;> first | exact renderApprovalDetail_uses | exact Fallible.uses_raise _
  | ok result =>
      dsimp only
      split
      · exact reply_uses
      · exact renderApprovalDetail_uses

theorem handleRespondPost_obeys (form : Form) (known : Option String) :
    Obeys (handleRespondPost library alias_ threadId interruptId form asJson) ⟨true, known, false⟩ := by
  unfold handleRespondPost
  apply obeys_after (uses_ask rfl)
  intro connections
  dsimp only
  cases connections.get? alias_ with
  | none => exact obeys_harmless (failure_uses _ _) _
  | some connection =>
      dsimp only
      cases library.loads (form.orElse "response_value" "null") with
      | none => exact obeys_harmless renderApprovalDetail_uses _
      | some responseValue =>
          dsimp only
          split
          · exact obeys_harmless renderApprovalDetail_uses _
          · apply obeys_before _ fun outcome => afterRespond_uses outcome
            apply obeys_attempt
            refine ⟨rfl, ?_⟩
            rintro answer after rfl
            cases answer <;> trivial

/-- The form and the headers of a POST request entitle it to act. -/
def entry (settings : Settings) (library : Library) (incoming : Request) : Phase :=
  match readForm library incoming with
  | .ok form =>
      ⟨incoming.method = "POST" && originAndCsrfOk settings library incoming form, form.get? "nonce", false⟩
  | .error _ => ⟨false, none, false⟩

/-- The guard stands before each handler that acts. -/
theorem guarded_obeys {incoming : Request} (post : incoming.method = "POST") {action : Form → Control Unit}
    (acts : ∀ form, Obeys (action form) ⟨true, form.get? "nonce", false⟩) :
    Obeys (guarded settings library incoming action) (entry settings library incoming) := by
  unfold guarded entry
  cases readForm library incoming with
  | error raised =>
      dsimp only
      split
      · exact obeys_harmless (failure_uses _ _) _
      · exact obeys_harmless (Fallible.uses_raise _) _
  | ok form =>
      dsimp only
      cases authentic : originAndCsrfOk settings library incoming form with
      | false => exact obeys_harmless (failure_uses _ _) _
      | true =>
          rw [decide_eq_true post]
          exact orUnavailable_obeys (acts form) _

theorem doPost_obeys {incoming : Request} (post : incoming.method = "POST") :
    Obeys (doPost settings library incoming) (entry settings library incoming) := by
  unfold doPost
  apply obeys_after (Fallible.uses_ofExcept _)
  intro url
  dsimp only
  cases matchExecute library url.1 with
  | some target => exact guarded_obeys post fun form => handleExecutePost_obeys form
  | none =>
      cases matchApprovals library url.1 with
      | none => exact obeys_harmless (failure_uses _ _) _
      | some target =>
          cases target with
          | list => exact obeys_harmless (failure_uses _ _) _
          | detail alias_ threadId interruptId => exact guarded_obeys post fun form => handleRespondPost_obeys form _

/-- A request acts only when it is entitled to. -/
theorem handle_obeys (settings : Settings) (library : Library) (incoming : Request) :
    Obeys (handle settings library incoming) (entry settings library incoming) := by
  unfold handle
  split
  · exact doGet_obeys incoming _
  · split
    · rename_i post
      exact doPost_obeys post
    · exact obeys_harmless (failure_uses _ _) _

end

end Cordboard.Web
