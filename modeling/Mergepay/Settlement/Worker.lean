import Mergepay.Settlement.Routes

namespace Mergepay

open Concurrency Money

-- A job is a copy of the settlement as it was read at the beginning of a cycle.
abbrev Job := Settlement

section Bookkeeping

variable (D : Deps)

def claimSettlement (workerId : String) (job : Job) : M Bool := do
  let now ← act .clock
  let count ← act <| .update <|
    .claimSettlement job.id job.retryCount workerId now (now + D.workerLeaseTimeoutMs)
  return count = 1

def releaseSettlement (workerId id : String) : M Unit :=
  Prog.swallow <| act <| .update <| .release id workerId

def recordAttemptStarted (job : Job) (attempt : Nat) : M Unit := do
  let now ← act .clock
  let _ ← act <| .update <| .recordAttemptStarted job.id attempt (now + D.workerLeaseTimeoutMs)

def scheduleRetry (job : Job) (attempt : Nat) (category : JobFailureCategory) (reason : String)
    (delayMs : Time) : M Unit := do
  let now ← act .clock
  let nextAttemptAt := now + delayMs
  let _ ← act <| .update <| .scheduleRetry job.id attempt category reason nextAttemptAt
    (nextAttemptAt + D.workerLeaseTimeoutMs)

def failSettlement (job : Job) (attempt : Nat) (category : JobFailureCategory) (reason : String)
    (failureCategory : SettlementFailureCategory) (why : JobReason) : M Unit := do
  let now ← act .clock
  let _ ← applySettlementTransition {
    settlementId := job.id
    nextStatus   := .failed
    caller       := .job job.transactionXdr why
    extraData    := some {
      failureReason   := some reason
      failureCategory := some failureCategory
      errorCategory   := some category
      retryCount      := some attempt
      nextAttemptAt   := some none
      deadLetteredAt  := some now
    }
  }

def transitionSettlement (job : Job) (nextStatus : SettlementStatus) (extraData : Option Patch)
    (settleExpenseShare : Bool) (why : JobReason) : M Unit := do
  let _ ← applySettlementTransition {
    settlementId := job.id
    caller       := .job job.transactionXdr why
    nextStatus, extraData, settleExpenseShare
  }

end Bookkeeping

section Ledger

variable (D : Deps)

-- The outcome of the envelope, if Horizon answers and knows it.
def alreadyApplied (job : Job) : M (Option (String × Bool)) := do
  match job.transactionXdr with
  | none     => return none
  | some xdr =>
    let hash := D.hashOf xdr
    match ← (act (.getTransaction hash)).attempt with
    | .ok (some successful) => return some (hash, successful)
    | _                     => return none

inductive Confirmation
  | confirmed
  | failed
  | notFound
  | timeout

def pollForConfirmation (hash : String) : Nat → M Confirmation
  | 0           => return .timeout
  | attempts + 1 => do
    match ← (act (.getTransaction hash)).attempt with
    | .ok (some true)  => return .confirmed
    | .ok (some false) => return .failed
    | .ok none => if attempts = 0 then return .notFound else pollForConfirmation hash attempts
    | .error _ => if attempts = 0 then return .timeout else pollForConfirmation hash attempts

-- The columns that are recorded along with a successful outcome.
def confirmedData (hash : String) : Patch := {
  stellarTxHash := some hash
  retryCount    := some 0
  errorCategory := some none
  failureReason := some none
  nextAttemptAt := some none
}

-- The columns that are recorded when the outcome of a submission could not be observed.
def unobservedData (hash : String) : Patch := {
  stellarTxHash := some hash
  errorCategory := some JobFailureCategory.indeterminate
  failureReason := some <| some <| "Awaiting on-chain confirmation for " ++ hash
  nextAttemptAt := some none
}

def ledgerFailureReason (hash : String) : String :=
  "Transaction " ++ hash ++ " failed on Stellar"

def confirmSubmission (job : Job) (hash : String) (attempt : Nat) : M Unit := do
  transitionSettlement job .verifying (some {
    stellarTxHash := some hash
    errorCategory := some none
    failureReason := some none
    nextAttemptAt := some none
  }) false .submitted
  match ← pollForConfirmation hash D.confirmPollMaxAttempts with
  | .confirmed => transitionSettlement job .confirmed (some (confirmedData hash)) true .polledSuccess
  | .failed    =>
    failSettlement job attempt .permanent (ledgerFailureReason hash) .ledgerRejected .polledFailure
  | _          =>
    transitionSettlement job .needsReview (some (unobservedData hash)) false .unobserved

def submitPayment (job : Job) (xdr : String) : M String := do
  validateSettlementXdr D xdr job
  act (.submit job.id xdr)

-- The decision after a failed attempt. Returns whether the job should be tried again.
def handleFailure (job : Job) (attempt : Nat) (e : Failure) : M Bool := do
  let reason := D.safeFailureMessage e
  let failureCategory := D.classifySettlementFailure e.message
  let category := classifyJobFailure e
  if category = .indeterminate then
    match ← alreadyApplied D job with
    | some (hash, true) =>
      transitionSettlement job .confirmed (some (confirmedData hash)) true .alreadyApplied
      return false
    | some (hash, false) =>
      failSettlement job attempt .permanent (ledgerFailureReason hash)
        (D.classifySettlementFailure (ledgerFailureReason hash)) .appliedFailure
      return false
    | none => giveUpOrRetry reason failureCategory .transient
  else
    giveUpOrRetry reason failureCategory category
where
  giveUpOrRetry (reason : String) (failureCategory : SettlementFailureCategory)
      (category : JobFailureCategory) : M Bool := do
    if category = .permanent then
      failSettlement job attempt category reason failureCategory (.permanentFailure e)
      return false
    else if attempt ≥ D.settlementMaxAttempts then
      failSettlement job attempt .permanent
        (reason ++ " (retries exhausted after " ++ toString attempt ++ " attempts)")
        failureCategory .retriesExhausted
      return false
    else
      let delayMs ← act (.retryDelay attempt)
      scheduleRetry D job attempt category reason delayMs
      return true

-- The remaining attempts of a job, of which `attempt` have been made before.
def attempts (job : Job) (xdr : String) (attempt : Nat) : Nat → M Unit
  | 0             => return
  | remaining + 1 => do
    let attempt := attempt + 1
    recordAttemptStarted D job attempt
    let outcome ← Prog.attempt do
      let hash ← submitPayment D job xdr
      confirmSubmission D job hash attempt
    match outcome with
    | .ok _    => return
    | .error e => if ← handleFailure D job attempt e then attempts job xdr attempt remaining

end Ledger

section Jobs

variable (D : Deps)

def checkSettlementPreflight (job : Job) : M (Except Preflight.Rejection Unit) := do
  let publicKey ← act (.publicKey job.fromUserId)
  match ← (act (.loadAccount publicKey)).attempt with
  | .ok account =>
    let amount := columnText job.amount
    return Preflight.evaluatePreflight account job.assetCode job.assetIssuer amount
  | .error _ =>
    let message := "Could not reach the Stellar network to check your balance. Try again shortly."
    return .error ⟨.upstreamUnavailable, message⟩

def processSettlementJob (job : Job) : M Unit := do
  if job.retryCount ≥ D.settlementMaxAttempts then
    let reason := "Retry budget exhausted after " ++ toString job.retryCount ++ " of " ++
      toString D.settlementMaxAttempts ++ " attempts." ++
      (job.failureReason.bind present).elim "" (" Last error: " ++ ·)
    failSettlement job job.retryCount .permanent reason (D.classifySettlementFailure reason)
      .budgetExhausted
    return
  let some xdr := job.transactionXdr
    | failSettlement job job.retryCount .permanent "Settlement has no signed transaction to submit"
        .validation .noEnvelope
  let now ← act .clock
  if isIntentExpired job.expiresAt now then
    failSettlement job job.retryCount .permanent
      "Signing window expired before the transaction was submitted" .expired .windowExpired
    return
  if let .error r ← checkSettlementPreflight job then
    if r.reason ≠ .upstreamUnavailable then
      failSettlement job job.retryCount .permanent r.message
        (if r.reason = .accountNotFound then .validation else .insufficientFunds)
        (.preflight r.reason)
      return
  if job.status = .submitted then
    transitionSettlement job .verifying none false .pickedUp
  attempts D job xdr job.retryCount (D.settlementMaxAttempts - job.retryCount)

def processSubmittedSettlements (workerId : String) : M Unit := do
  let now ← act .clock
  let rows ← act (.findSettlements (.submittable now))
  Prog.forEach (fun job => do
    if ← claimSettlement D workerId job then
      Prog.swallow (processSettlementJob D job)
      releaseSettlement workerId job.id) rows

def recoverStaleSettlements : M Unit := do
  let now ← act .clock
  let _ ← act (.update (.recoverStale now))

end Jobs

end Mergepay
