import Cordboard.Construction.Storage

namespace Cordboard
open Data Effects

namespace Concurrency

def loadConcurrency : Py (Dict (String × String) ConcurrencyClaim) := load .concurrency

def key (assistant subject : String) : Py (String × String) := do
  requireTexts .concurrency [("assistant", assistant), ("subject", subject)]
  pure (assistant, subject)

/-- A recorded claim blocks an arrival until it is stale. -/
def isLive (existing : Option ConcurrencyClaim) (now staleAfter : Time) : Bool :=
  match existing with
  | some claim => now - claim.claimedAt < staleAfter
  | none => false

def tryClaim (assistant subject : String) (now staleAfter : Time) (holder : Holder) : Py Bool := do
  let key ← key assistant subject
  locked .concurrency do
    let data ← loadConcurrency
    if isLive (data.get? key) now staleAfter then
      pure false
    else
      note (.concurrencyTaken assistant subject holder)
      writeAtomic .concurrency (data.set key ⟨now⟩)
      pure true

def release (assistant subject : String) (holder : Holder) : Py Unit := do
  let key ← key assistant subject
  locked .concurrency do
    let data ← loadConcurrency
    if (data.get? key).isSome then
      note (.concurrencyReleased assistant subject holder true)
      writeAtomic .concurrency (data.erase key)
    else
      note (.concurrencyReleased assistant subject holder false)

/-- A renewal moves the time of a held claim and never creates one. -/
def renew (assistant subject : String) (now : Time) (holder : Holder) : Py Unit := do
  let key ← key assistant subject
  locked .concurrency do
    let data ← loadConcurrency
    if (data.get? key).isSome then
      note (.concurrencyRenewed assistant subject holder)
      writeAtomic .concurrency (data.set key ⟨now⟩)
    else
      pure ()

end Concurrency

namespace SignalDedupe

/-- The default retention is 24 hours. -/
def defaultRetentionSeconds : Time := 24 * 60 * 60

def loadSignalDedupe : Py (Dict String SignalClaim) := load .signalDedupe

/-- A claim leaves the store when its window has passed. -/
def prune (data : Dict String SignalClaim) (now retention : Time) : Dict String SignalClaim :=
  data.filter fun _ claim => now - claim.claimedAt < retention

def claim (signalId : String) (now : Time) (retention : Time) : Py Bool := do
  requireTexts .signalDedupe [("signal id", signalId)]
  let stored ← loadSignalDedupe
  let data := prune stored now retention
  if (data.get? signalId).isSome then
    writeAtomic .signalDedupe data
    note (.signalClaimed signalId now false)
    pure false
  else
    writeAtomic .signalDedupe (data.set signalId ⟨now⟩)
    note (.signalClaimed signalId now true)
    pure true

end SignalDedupe

namespace ResponseDedupe

def loadResponseDedupe : Py (Dict (String × String × String) ResponseClaim) := load .responseDedupe

def key (deployment threadId interruptId : String) : Py (String × String × String) := do
  requireTexts .responseDedupe
    [("deployment alias", deployment), ("thread ID", threadId), ("interrupt ID", interruptId)]
  pure (deployment, threadId, interruptId)

def claim (deployment threadId interruptId : String) (now : Time) : Py Bool := do
  let key ← key deployment threadId interruptId
  let granted ← locked .responseDedupe do
    let data ← loadResponseDedupe
    if (data.get? key).isSome then
      pure false
    else
      writeAtomic .responseDedupe (data.set key ⟨now, none, none⟩)
      pure true
  note (.responseClaimed deployment threadId interruptId granted)
  pure granted

/-- The first recorded outcome stays. -/
def recordOutcome (deployment threadId interruptId : String) (outcome : ResponseOutcome) (now : Time) :
    Py ResponseClaim := do
  let key ← key deployment threadId interruptId
  locked .responseDedupe do
    let data ← loadResponseDedupe
    match data.get? key with
    | none =>
        raise .responseDedupe ("no claimed response for " ++ deployment ++ "/" ++ threadId ++ "/" ++ interruptId)
    | some record =>
        if record.outcome.isNone then
          let resolved : ResponseClaim := { record with outcome := some outcome, resolvedAt := some now }
          writeAtomic .responseDedupe (data.set key resolved)
          pure resolved
        else
          pure record

/-- The record of one interrupt is read under the lock. -/
def getClaim (deployment threadId interruptId : String) : Py (Option ResponseClaim) := do
  let key ← key deployment threadId interruptId
  locked .responseDedupe do
    let data ← loadResponseDedupe
    pure (data.get? key)

end ResponseDedupe

end Cordboard
