import Cordboard.Construction.ApprovalInbox

namespace Cordboard
open Data Effects

/-- A source, a sweep, or an operator acts on the board. -/
inductive Operation where
  | route (source : Source) (id : String) (payload : List (String × Json)) (timeout now : Time)
  | sweep (timeout now : Time)
  | submit (submission : ApprovalInbox.Submission) (boundary : EntityAuthBoundary)

/-- A caller of an operation does not look at its result. -/
def discard {A : Type} (program : Py A) : Program signature Unit := program.toProgram.bind fun _ => .pure ()

def Operation.perform : Operation → Program signature Unit
  | .route source id payload timeout now => discard (Router.routeSignal (.external source id payload) timeout now)
  | .sweep timeout now => discard (Router.sweepPending timeout now)
  | .submit submission boundary => discard (ApprovalInbox.submitResponse submission boundary)

/-- The operation submits an operator's answer. -/
def Operation.isSubmit : Operation → Bool
  | .submit .. => true
  | _ => false

end Cordboard
