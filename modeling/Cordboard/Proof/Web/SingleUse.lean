import Cordboard.Proof.Web.Spending
import Cordboard.Effects.Schedule

namespace Cordboard.Web
open Data Data.Percent Effects

variable {Pid : Type} [DecidableEq Pid] {settings : Settings} {library : Library} {requests : Pid → Request}
  {history : History signature Pid} {nonces after : List String} {pid : Pid} {op : Op} {answer : op.Answer}

/-- The label is an execution. -/
def executes : Label signature Pid → Bool
  | .act _ ⟨.ask (.executeRun _), _⟩ => true
  | _ => false

/-- The label adds the nonce of a new form. -/
def issues (nonce : String) : Label signature Pid → Bool
  | .act _ ⟨.addNonce other, _⟩ => other = nonce
  | _ => false

/-- An execute form issued the nonce so often. -/
def issued (nonce : String) (history : History signature Pid) : Nat := history.countP (issues nonce)

/-- The nonce that the form of the request carries. -/
def nonceOf (settings : Settings) (library : Library) (requests : Pid → Request) (pid : Pid) : Option String :=
  (entry settings library (requests pid)).nonce

/-- These executions belong to requests with the nonce. -/
def executions (settings : Settings) (library : Library) (requests : Pid → Request) (nonce : String)
    (history : History signature Pid) : Nat :=
  history.countP fun label => executes label && decide (nonceOf settings library requests label.pid = some nonce)

/-- These requests have spent their nonce and have not executed yet. -/
def unspent : History signature Pid → List Pid
  | [] => []
  | .act pid ⟨.consumeNonce _, answer⟩ :: history => if answer then pid :: unspent history else unspent history
  | .act pid ⟨.ask (.executeRun _), _⟩ :: history => (unspent history).erase pid
  | _ :: history => unspent history

/-- The phase of each request. -/
def phaseOf (settings : Settings) (library : Library) (requests : Pid → Request) (history : History signature Pid) :
    Pid → Phase :=
  spending.phase (fun pid => entry settings library (requests pid)) history

theorem phaseOf_nonce (pid : Pid) : (phaseOf settings library requests history pid).nonce =
    nonceOf settings library requests pid := by
  apply spending.phase_constant Phase.nonce
  intro phase op answer
  cases op with
  | ask query => cases query <;> rfl
  | _ => rfl

theorem phaseOf_entitled (pid : Pid) : (phaseOf settings library requests history pid).entitled =
    (entry settings library (requests pid)).entitled := by
  apply spending.phase_constant Phase.entitled
  intro phase op answer
  cases op with
  | ask query => cases query <;> rfl
  | _ => rfl

/-- Each execution has its own spent nonce, and each spent nonce has its own issue. -/
structure Counted (settings : Settings) (library : Library) (requests : Pid → Request)
    (history : History signature Pid) (nonces : List String) : Prop where
  balance : ∀ nonce, executions settings library requests nonce history +
      (unspent history).countP (fun pid => nonceOf settings library requests pid = some nonce) +
      (if nonce ∈ nonces then 1 else 0) ≤ issued nonce history
  waits : ∀ pid, (phaseOf settings library requests history pid).spent = true → pid ∈ unspent history
  named : ∀ pid ∈ unspent history, ∃ nonce, nonceOf settings library requests pid = some nonce
  backed : ∀ later pid call answer before, history = later ++ .act pid ⟨.ask (.executeRun call), answer⟩ :: before →
    ∃ nonce, nonceOf settings library requests pid = some nonce ∧ 0 < issued nonce before
  acts : ∀ pid query, ∀ answer : Op.Answer (.ask query), Label.act pid ⟨Op.ask query, answer⟩ ∈ history →
    controls query = true →
    (entry settings library (requests pid)).entitled = true

theorem counted_start : Counted settings library requests ([] : History signature Pid) [] where
  balance _ := Nat.le_refl _
  waits pid spent := by
    have fresh : (entry settings library (requests pid)).spent = false := by
      unfold entry
      split <;> rfl
    have same : (entry settings library (requests pid)).spent = true := spent
    rw [fresh] at same
    cases same
  named _ never := absurd never List.not_mem_nil
  backed later _ _ _ _ split :=
    (List.append_ne_nil_of_right_ne_nil later (List.cons_ne_nil _ _) split.symm).elim
  acts _ _ _ never := (List.not_mem_nil never).elim

omit [DecidableEq Pid] in
/-- What holds of all executions holds of those before a label that is none. -/
theorem backed_cons {label : Label signature Pid} (other : executes label = false)
    (backed : ∀ later pid call answer before, history = later ++ .act pid ⟨.ask (.executeRun call), answer⟩ :: before →
      ∃ nonce, nonceOf settings library requests pid = some nonce ∧ 0 < issued nonce before)
    (later : List (Label signature Pid)) (pid : Pid) (call : Execution)
    (answer : Op.Answer (.ask (.executeRun call))) (before : History signature Pid)
    (split : label :: history = later ++ .act pid ⟨.ask (.executeRun call), answer⟩ :: before) :
    ∃ nonce, nonceOf settings library requests pid = some nonce ∧ 0 < issued nonce before := by
  cases later with
  | nil =>
      obtain ⟨rfl, -⟩ := List.cons.inj split
      cases other
  | cons first later => exact backed later pid call answer before (List.cons.inj split).2

/-- A nonce is one of the set at most once. -/
theorem member_filter (nonce other : String) (nonces : List String) :
    (if nonce ∈ nonces.filter (fun stored => stored ≠ other) then 1 else 0) =
      if nonce = other then 0 else if nonce ∈ nonces then 1 else 0 := by
  by_cases same : nonce = other <;> simp [same]

theorem phaseOf_act (history : History signature Pid) (pid : Pid) (op : Op) (answer : op.Answer) (other : Pid) :
    phaseOf settings library requests (.act pid ⟨op, answer⟩ :: history) other =
      if other = pid then spendingNext (phaseOf settings library requests history pid) op answer
      else phaseOf settings library requests history other := by
  by_cases same : other = pid
  · rw [if_pos same, same]
    exact Protocol.phase_act_self spending _ pid _ history
  · rw [if_neg same]
    exact Protocol.phase_act_of_ne spending _ same _ history

/-- An act of an entitled request joins the acts of the past. -/
theorem acts_cons (counted : Counted settings library requests history nonces)
    (entitled : ∀ query, op = .ask query → controls query = true →
      (phaseOf settings library requests history pid).entitled = true) (other : Pid) (query : Query)
    (found : Op.Answer (.ask query)) (member : Label.act other ⟨Op.ask query, found⟩ ∈
      (.act pid ⟨op, answer⟩ :: history : History signature Pid)) (acting : controls query = true) :
    (entry settings library (requests other)).entitled = true := by
  rcases List.mem_cons.mp member with same | earlier
  · obtain ⟨rfl, event⟩ := Label.act.inj same
    rw [← @phaseOf_entitled Pid _ settings library requests history other]
    exact entitled query (congrArg (fun event => event.1) event).symm acting
  · exact counted.acts other query found earlier acting

/-- An operation that leaves the nonces alone keeps the count. -/
theorem Counted.quiet (counted : Counted settings library requests history nonces)
    (plain : executes (.act pid ⟨op, answer⟩ : Label signature Pid) = false)
    (silent : ∀ nonce, issues nonce (.act pid ⟨op, answer⟩ : Label signature Pid) = false)
    (same : unspent (.act pid ⟨op, answer⟩ :: history) = unspent history)
    (kept : ∀ phase, spendingNext phase op answer = phase)
    (entitled : ∀ query, op = .ask query → controls query = true →
      (phaseOf settings library requests history pid).entitled = true) :
    Counted settings library requests (.act pid ⟨op, answer⟩ :: history) nonces where
  balance nonce := by
    have before := counted.balance nonce
    rw [executions, issued, List.countP_cons, List.countP_cons, same, plain, silent]
    exact before
  waits other spent := by
    rw [phaseOf_act, kept] at spent
    rw [same]
    apply counted.waits
    split at spent
    · rename_i equal
      rw [equal]
      exact spent
    · exact spent
  named other held := counted.named other (by rwa [same] at held)
  backed := backed_cons plain counted.backed
  acts := acts_cons counted entitled

/-- A new form adds its nonce. -/
theorem Counted.adds (counted : Counted settings library requests history nonces) (nonce : String) (answer : Unit) :
    Counted settings library requests (.act pid ⟨.addNonce nonce, answer⟩ :: history)
      (nonce :: nonces.filter fun other => other ≠ nonce) where
  balance other := by
    have before := counted.balance other
    have plain : executes (.act pid ⟨.addNonce nonce, answer⟩ : Label signature Pid) = false := rfl
    rw [executions, issued, List.countP_cons, List.countP_cons, plain]
    show executions settings library requests other history + (unspent history).countP _ + _ ≤ issued other history + _
    by_cases same : nonce = other
    · subst other
      simp only [issues, decide_true, if_true, List.mem_cons, true_or]
      split at before <;> omega
    · simp only [issues, same, decide_false, List.mem_cons, Ne.symm same, false_or, List.mem_filter, ne_eq,
        not_false_eq_true, decide_true, and_true]
      exact before
  waits other spent := by
    rw [phaseOf_act] at spent
    apply counted.waits
    split at spent
    · rename_i equal
      rw [equal]
      exact spent
    · exact spent
  named := counted.named
  backed := backed_cons rfl counted.backed
  acts := acts_cons counted fun _ never => by cases never

/-- A nonce of the set is spent for one request. -/
theorem Counted.consumes (counted : Counted settings library requests history nonces) (nonce : String)
    (own : (phaseOf settings library requests history pid).nonce = some nonce) :
    Counted settings library requests (.act pid ⟨.consumeNonce nonce, decide (nonce ∈ nonces)⟩ :: history)
      (nonces.filter fun other => other ≠ nonce) := by
  have mine : nonceOf settings library requests pid = some nonce := phaseOf_nonce pid ▸ own
  have entitled (query : Query) (never : Op.consumeNonce nonce = .ask query) (_ : controls query = true) :
      (phaseOf settings library requests history pid).entitled = true := by cases never
  by_cases held : nonce ∈ nonces
  · have spends : unspent (.act pid ⟨.consumeNonce nonce, decide (nonce ∈ nonces)⟩ :: history) =
        pid :: unspent history := by simp [unspent, held]
    constructor
    · intro other
      have before := counted.balance other
      have plain : executes (.act pid ⟨.consumeNonce nonce, decide (nonce ∈ nonces)⟩ : Label signature Pid) = false := rfl
      have silent : issues other (.act pid ⟨.consumeNonce nonce, decide (nonce ∈ nonces)⟩ : Label signature Pid) = false :=
        rfl
      rw [executions, issued, List.countP_cons, List.countP_cons, plain, silent, spends, List.countP_cons, mine,
        member_filter]
      show executions settings library requests other history + _ + _ ≤ issued other history
      by_cases same : other = nonce
      · subst other
        rw [if_pos held] at before
        simp only [decide_true, if_true]
        omega
      · simp only [Option.some.injEq, Ne.symm same, decide_false, same, if_false]
        exact before
    · intro other spent
      rw [spends]
      by_cases same : other = pid
      · rw [same]
        exact List.mem_cons_self
      · rw [phaseOf_act, if_neg same] at spent
        exact List.mem_cons_of_mem _ (counted.waits other spent)
    · intro other member
      rw [spends] at member
      rcases List.mem_cons.mp member with rfl | earlier
      · exact ⟨nonce, mine⟩
      · exact counted.named other earlier
    · exact backed_cons rfl counted.backed
    · exact acts_cons counted entitled
  · have unchanged : nonces.filter (fun other => other ≠ nonce) = nonces := by
      apply List.filter_eq_self.mpr
      intro other member
      apply decide_eq_true
      rintro rfl
      exact held member
    have keeps : unspent (.act pid ⟨.consumeNonce nonce, decide (nonce ∈ nonces)⟩ :: history) = unspent history := by
      simp [unspent, held]
    rw [unchanged]
    constructor
    · intro other
      have before := counted.balance other
      rw [executions, issued, List.countP_cons, List.countP_cons, keeps]
      exact before
    · intro other spent
      rw [keeps]
      rw [phaseOf_act] at spent
      split at spent
      · simp [spendingNext, held] at spent
      · exact counted.waits other spent
    · intro other member
      rw [keeps] at member
      exact counted.named other member
    · exact backed_cons rfl counted.backed
    · exact acts_cons counted entitled

/-- An execution uses up the spent nonce of its request. -/
theorem Counted.executed (counted : Counted settings library requests history nonces) (call : Execution)
    (answer : Op.Answer (.ask (.executeRun call)))
    (permitted : spendingGuard (phaseOf settings library requests history pid) (.ask (.executeRun call))) :
    Counted settings library requests (.act pid ⟨.ask (.executeRun call), answer⟩ :: history) nonces := by
  have member := counted.waits pid permitted.2
  obtain ⟨nonce, mine⟩ := counted.named pid member
  have silent (other : String) :
      issues other (.act pid ⟨.ask (.executeRun call), answer⟩ : Label signature Pid) = false := rfl
  constructor
  · intro other
    have before := counted.balance other
    rw [executions, issued, List.countP_cons, List.countP_cons, silent]
    show executions settings library requests other history + _ + ((unspent history).erase pid).countP _ + _ ≤
      issued other history
    have split := (List.perm_cons_erase member).countP_eq
      fun pid => decide (nonceOf settings library requests pid = some other)
    rw [List.countP_cons] at split
    by_cases own : nonceOf settings library requests pid = some other
    · simp only [executes, Label.pid, own, decide_true, Bool.true_and, if_true] at split ⊢
      omega
    · simp only [executes, Label.pid, own, decide_false, Bool.and_false, Bool.false_eq_true, if_false] at split ⊢
      omega
  · intro other spent
    rw [phaseOf_act] at spent
    split at spent
    · cases spent
    · rename_i different
      exact (List.mem_erase_of_ne different).mpr (counted.waits other spent)
  · intro other held
    exact counted.named other (List.mem_of_mem_erase held)
  · intro later other found reply before split
    cases later with
    | nil =>
        obtain ⟨same, rfl⟩ := List.cons.inj split
        obtain ⟨rfl, -⟩ := Label.act.inj same
        refine ⟨nonce, mine, ?_⟩
        have balance := counted.balance nonce
        have positive : 0 < (unspent history).countP
            (fun pid => nonceOf settings library requests pid = some nonce) :=
          List.countP_pos_iff.mpr ⟨pid, member, decide_eq_true mine⟩
        omega
    | cons first later => exact counted.backed later other found reply before (List.cons.inj split).2
  · exact acts_cons counted fun _ _ _ => permitted.1

/-- Each operation of a request keeps the count. -/
theorem Counted.act (counted : Counted settings library requests history nonces)
    (permitted : spendingGuard (phaseOf settings library requests history pid) op)
    (move : serve nonces op answer after) :
    Counted settings library requests (.act pid ⟨op, answer⟩ :: history) after := by
  cases op with
  | tokenUrlsafe =>
      obtain rfl := move
      exact counted.quiet rfl (fun _ => rfl) rfl (fun _ => rfl) fun _ never => by cases never
  | addNonce nonce =>
      obtain rfl := move
      exact counted.adds nonce answer
  | consumeNonce nonce =>
      obtain ⟨rfl, rfl⟩ := move
      exact counted.consumes nonce permitted.1
  | ask query =>
      obtain rfl := move
      cases query with
      | executeRun call => exact counted.executed call answer permitted
      | submitResponse call => exact counted.quiet rfl (fun _ => rfl) rfl (fun _ => rfl) fun _ _ _ => permitted
      | _ =>
          apply counted.quiet rfl (fun _ => rfl) rfl (fun _ => rfl)
          rintro query ⟨⟩ never
          cases never

theorem utf8_inj {first second : String} (same : utf8 first = utf8 second) : first = second := by
  rw [← @decode_utf8 (fun _ => "") first, same, decode_utf8]

/-- The Origin is the server's own. The cookie and the form carry the token of the server. -/
structure Authentic (settings : Settings) (library : Library) (incoming : Request) (form : Form) : Prop where
  post : incoming.method = "POST"
  origin : incoming.header "Origin" = some (origin settings)
  cookie : ∃ cookies, library.cookies ((incoming.header "Cookie").getD "") = some cookies ∧
    cookies.get? "cord_csrf" = some settings.csrfToken
  token : form.get? "csrf_token" = some settings.csrfToken

/-- A token that equals the token of the server and is not empty is there. -/
theorem token_present {found : Option String} {token : String} (some_ : found.getD "" ≠ "")
    (same : compareDigest (found.getD "") token = true) : found = some token := by
  cases found with
  | none => exact absurd rfl some_
  | some value => exact congrArg some (utf8_inj (of_decide_eq_true same))

/-- The phase of a request is entitled when the request is authentic. -/
theorem authentic_of_entitled {incoming : Request} (entitled : (entry settings library incoming).entitled = true) :
    ∃ form, readForm library incoming = .ok form ∧ Authentic settings library incoming form := by
  unfold entry at entitled
  cases known : readForm library incoming with
  | error raised =>
      rw [known] at entitled
      cases entitled
  | ok form =>
      rw [known] at entitled
      obtain ⟨post, guarded⟩ := (Bool.and_eq_true _ _).mp entitled
      refine ⟨form, rfl, ?_⟩
      unfold originAndCsrfOk at guarded
      split at guarded
      · cases guarded
      · rename_i same_origin
        cases loaded : library.cookies ((incoming.header "Cookie").getD "") with
        | none =>
            rw [loaded] at guarded
            cases guarded
        | some cookies =>
            simp only [loaded, Bool.and_eq_true, decide_eq_true_eq] at guarded
            obtain ⟨⟨⟨cookie, token⟩, cookie_same⟩, token_same⟩ := guarded
            exact {
              post := of_decide_eq_true post
              origin := not_not.mp same_origin
              cookie := ⟨cookies, loaded, token_present cookie cookie_same⟩
              token := token_present token token_same }

/-- Each issued nonce leads to one execution at most, and only authentic posts act. -/
structure ControlPosts (settings : Settings) (library : Library) (requests : Pid → Request)
    (history : History signature Pid) : Prop where
  single : ∀ nonce, executions settings library requests nonce history ≤ issued nonce history
  once : ∀ nonce, issued nonce history ≤ 1 → executions settings library requests nonce history ≤ 1
  backed : ∀ later pid call answer before, history = later ++ .act pid ⟨.ask (.executeRun call), answer⟩ :: before →
    ∃ nonce, nonceOf settings library requests pid = some nonce ∧ 0 < issued nonce before
  authentic : ∀ pid query, ∀ answer : Op.Answer (.ask query), Label.act pid ⟨Op.ask query, answer⟩ ∈ history →
    controls query = true →
      ∃ form, readForm library (requests pid) = .ok form ∧ Authentic settings library (requests pid) form

/-- Over every interleaving of requests, control posts are single-use and authentic. -/
theorem control_posts {config : Config signature (List String) Pid (Except Raised Unit)}
    (reached : Reaches (sharing Pid) (fun _ _ _ => True) (fun pid => (handle settings library (requests pid)).toProgram)
      [] history config) : ControlPosts settings library requests history := by
  have counted : Counted settings library requests history config.shared := by
    apply spending.invariant (fun pid => entry settings library (requests pid))
      (fun pid => handle_obeys settings library (requests pid)) (Counted settings library requests) counted_start _ _
      reached
    · intro history nonces pid op answer after counted _ permitted move _
      exact counted.act permitted move
    · intro history nonces pid counted _
      exact ⟨counted.balance, counted.waits, counted.named, backed_cons rfl counted.backed,
        fun other query answer member => by
          rcases List.mem_cons.mp member with never | earlier
          · cases never
          · exact counted.acts other query answer earlier⟩
  have single (nonce : String) : executions settings library requests nonce history ≤ issued nonce history := by
    have balance := counted.balance nonce
    omega
  constructor
  · exact single
  · exact fun nonce once => Nat.le_trans (single nonce) once
  · exact counted.backed
  · intro pid query answer member acting
    exact authentic_of_entitled (counted.acts pid query answer member acting)

def sampleSettings : Settings := ⟨"token", "127.0.0.1", 8080⟩

/-- The library reads the headers and the input of the sample requests. -/
def sampleLibrary : Library where
  urlsplit path := .ok (path, "")
  cookies header := if header = "cord_csrf=token" then some (Dict.empty.set "cord_csrf" "token") else some .empty
  int text := if text = "77" then .ok 77 else .error (.value "invalid literal")
  loads text := if text = "{}" then some (.obj []) else none
  replaced _ := ""

/-- A client asks for an execute form and posts it twice. -/
def sampleRequests (pid : Nat) : Request :=
  if pid = 0 then ⟨"GET", "/connections/demo/graphs/g/execute", [], []⟩
  else ⟨"POST", "/connections/demo/graphs/g/execute",
    [("origin", "http://127.0.0.1:8080"), ("cookie", "cord_csrf=token"), ("content-length", "77"),
      ("content-type", "application/x-www-form-urlencoded")],
    utf8 "csrf_token=token&nonce=n1&assistant=demo-assistant&subject=sub-1&input=%7B%7D"⟩

/-- One connection advertises one Graph, and its executions succeed. -/
def sampleAnswer : (query : Query) → query.Answer
  | .connections => Dict.empty.set "demo" ⟨some "http://127.0.0.1:9", none⟩
  | .snapshot => [⟨"g", some "demo", some true, .absent, [], [], [], [], []⟩]
  | .diagnostics => ()
  | .executionReady _ => true
  | .listAssistants _ => [⟨.str "demo-assistant", .str "g"⟩]
  | .discoverWaiting => []
  | .discoverWaitingForThread .. => []
  | .actionSlot _ => ()
  | .executeRun _ => ⟨"t-1", "r-1"⟩
  | .recordSubmission .. => ()
  | .submitResponse _ => ⟨"resumed", ""⟩
  | .reply _ => ()
  | .redirect _ => ()
  | .stream _ => ()

/-- The first form gets another nonce than the later ones. -/
def sampleService (pid : Nat) (nonces : List String) : (op : Op) → op.Answer × List String
  | .tokenUrlsafe => (if pid = 0 then "n1" else "n2", nonces)
  | .addNonce nonce => ((), nonce :: nonces.filter fun other => other ≠ nonce)
  | .consumeNonce nonce => (decide (nonce ∈ nonces), nonces.filter fun other => other ≠ nonce)
  | .ask query => (.ok (sampleAnswer query), nonces)

def sampleScheduler : Scheduler (sharing Nat) where
  respond _ pid nonces op := some (sampleService pid nonces op)
  sound _ pid nonces op answer after served := by
    have same : sampleService pid nonces op = (answer, after) := Option.some.inj served
    cases op with
    | tokenUrlsafe => exact (Prod.mk.inj same).2.symm
    | addNonce nonce => exact (Prod.mk.inj same).2.symm
    | consumeNonce nonce => exact ⟨(Prod.mk.inj same).1.symm, (Prod.mk.inj same).2.symm⟩
    | ask query => exact (Prod.mk.inj same).2.symm

/-- The two posts reach the nonce one after the other, and the first of them executes. -/
def samplePosts : Option (Reached signature (List String) Nat (Except Raised Unit)) :=
  sampleScheduler.run (fun _ _ _ => True)
    ((List.replicate 8 0 ++ [1, 2, 1, 2] ++ List.replicate 4 1 ++ List.replicate 8 2).map .act)
    ⟨[], ⟨[], fun pid => some (handle sampleSettings sampleLibrary (sampleRequests pid)).toProgram⟩⟩

/-- Both posts carry the nonce of the form, and one of them executes. -/
theorem control_posts_twice : ∃ history : History signature Nat,
    ControlPosts sampleSettings sampleLibrary sampleRequests history ∧
      issued "n1" history = 1 ∧ executions sampleSettings sampleLibrary sampleRequests "n1" history = 1 := by
  obtain ⟨reached, played⟩ := Option.isSome_iff_exists.mp (show samplePosts.isSome = true by decide +kernel)
  have counts : samplePosts.map (fun reached => (issued "n1" reached.history,
      executions sampleSettings sampleLibrary sampleRequests "n1" reached.history)) = some (1, 1) := by
    decide +kernel
  rw [played] at counts
  obtain ⟨one, once⟩ := Prod.mk.inj (Option.some.inj counts)
  have run := sampleScheduler.run_reaches (fun _ _ _ => True) .start played
  exact ⟨reached.history, control_posts run, one, once⟩

end Cordboard.Web
