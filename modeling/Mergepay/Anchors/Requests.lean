import Mergepay.Anchors.Session
import Mergepay.Concurrency.Call
import Mergepay.Concurrency.Report

namespace Mergepay.Anchors

open Concurrency Money Withdrawals

-- What the handlers of callbacks do is the same, except for the name under which it is audited.
inductive CallbackService
  | token
  | signature
  deriving DecidableEq

def CallbackService.event : CallbackService → String
  | token     => "sep24.callback"
  | signature => "sep24.webhook"

structure Sep24Callback where
  externalTransactionId : String
  rawStatus             : String
  message               : Option String := none
  deriving DecidableEq

inductive SessionRequest
  | start (userId stellarPublicKey kind assetCode : String)
  | complete (userId stellarPublicKey id signedXdr : String)
  | callback (service : CallbackService) (callback : Sep24Callback)
  | poll (worker : String)
  | recover
  deriving DecidableEq

abbrev AnchorProg (α : Type) :=
  Database.Session SessionRequest AnchorAction AnchorAction.Answer Failure α

-- Failure messages are scrubbed and cut off before they are stored.
structure AnchorDeps where
  maxAttempts        : Nat
  batchSize          : Nat
  leaseTimeoutMs     : Nat
  safeFailureMessage : (maxLength : Nat) → String → String

variable (D : AnchorDeps) (i : SessionRequest)

-- Reads, and calls of other services.
def call (a : AnchorAction) : AnchorProg a.Answer :=
  Prog.perform (Database.Step.act i [] a)

-- A single statement that writes.
def statement (a : AnchorAction) : AnchorProg a.Answer :=
  (Prog.perform a).transaction i []

-- Outside of transactions, an audit that fails is ignored.
def audit (row : AnchorAudit) : AnchorProg Unit :=
  (statement i (.createAudit row)).swallow

def transition (params : TransitionParams) : AnchorProg AnchorSessionUpdateResult :=
  (applyAnchorSessionTransition params).transaction i []

def AnchorDeps.sanitizeStatusReason (message : Option String) : Option String :=
  (message.bind present).bind fun text => present (D.safeFailureMessage 500 text)

-- The routes of users

def createSession (userId kind assetCode : String) : AnchorTx AnchorSession := do
  let id ← Prog.perform AnchorAction.freshId
  let created : AnchorSession := { id, userId, kind, assetCode }
  Prog.perform <| AnchorAction.createSession created
  Prog.perform <| AnchorAction.createAudit {
    userId   := some userId
    action   := "anchor_session.start"
    entityId := id
    metadata := .started kind assetCode
  }
  return created

def start (userId stellarPublicKey kind assetCode : String) : AnchorProg (AnchorSession × String) := do
  let toml ← call i .getToml
  let challenge ← call i (.getChallenge toml.webAuthEndpoint stellarPublicKey)
  let session ← (createSession userId kind assetCode).transaction i []
  return (session, challenge)

structure Completion where
  interactive : Interactive
  session     : AnchorSession
  deriving DecidableEq

def completionTransition (userId id token : String) (interactive : Interactive) : TransitionParams where
  sessionId   := id
  nextStatus  := "pending_user_transfer_start"
  source      := .user
  ownerUserId := some userId
  extraData   := some {
    interactiveUrl        := some interactive.url
    externalTransactionId := some interactive.id
    anchorToken           := some token
  }

def complete (userId stellarPublicKey id signedXdr : String) : AnchorProg Completion := do
  let some session ← call i (.findSession id)
    | throw <| .notFound "Anchor session not found"
  if session.userId ≠ userId then
    throw <| .notFound "Anchor session not found"
  let toml ← call i .getToml
  let token ← call i (.getToken toml.webAuthEndpoint signedXdr)
  let interactive ← call i <| .startInteractive toml.transferServerSep24 token session.kind
    session.assetCode stellarPublicKey
  let result ← transition i (completionTransition userId id token interactive)
  return ⟨interactive, result.session⟩

-- Callbacks of the anchor

def AnchorDeps.buildExtraData (callback : Sep24Callback) : Option SessionData :=
  (D.sanitizeStatusReason callback.message).map fun reason => { failureReason := some (some reason) }

-- The sessions are kept instead of their number.
structure Sep24ApplyResult where
  matched : List AnchorSession
  updated : Nat
  status  : String
  deriving DecidableEq

def AnchorDeps.callbackTransition (callback : Sep24Callback) (id : String) : TransitionParams where
  sessionId  := id
  nextStatus := toSessionStatus callback.rawStatus
  source     := .webhook
  extraData  := D.buildExtraData callback
  reason     := D.sanitizeStatusReason callback.message

-- The number of updated sessions is accumulated.
def applyToSessions (callback : Sep24Callback) (updated : Nat) : List AnchorSession → AnchorProg Nat
  | []       => return updated
  | hd :: tl => do
    let result ← transition i (D.callbackTransition callback hd.id)
    applyToSessions callback (if result.changed then updated + 1 else updated) tl

def applySep24Callback (service : CallbackService) (callback : Sep24Callback) :
    AnchorProg Sep24ApplyResult := do
  let status := toSessionStatus callback.rawStatus
  let sessions ← call i (.findByExternalId callback.externalTransactionId)
  if sessions = [] then
    audit i {
      action   := service.event ++ ".unmatched"
      entityId := callback.externalTransactionId
      outcome  := some .failure
      metadata := .unmatched callback.rawStatus status
    }
    return ⟨[], 0, status⟩
  let updated ← applyToSessions D i callback 0 sessions
  audit i {
    action   := service.event ++ ".applied"
    entityId := callback.externalTransactionId
    metadata := .applied callback.rawStatus status sessions.length updated
  }
  return ⟨sessions, updated, status⟩

-- The worker

-- What a poll has reported. The status is meaningless unless it has been recognized.
structure PollReport where
  rawStatus     : String
  status        : String
  message       : String
  statusMessage : Option String
  recognized    : Bool
  deriving DecidableEq

inductive PollResult
  | report (report : PollReport)
  | failure (message : String) (category : JobFailureCategory)
  deriving DecidableEq

def AnchorDeps.pollResult : Sep24Fetch → PollResult
  | .failure message category => .failure message category
  | .transaction tx           =>
    let resolved := resolveSep24Status tx.status
    let mappedStatus := resolved.getD "pending_anchor"
    let anchorMessage := (tx.message.bind present).map (D.safeFailureMessage 300)
    .report {
      rawStatus     := tx.status
      status        := mappedStatus
      message       := ((if mappedStatus = "error" then anchorMessage else none).bind present).getD
        ("SEP-24 status: " ++ tx.status ++ " → " ++ mappedStatus)
      statusMessage := D.sanitizeStatusReason tx.message
      recognized    := resolved.isSome
    }

def pollTransaction (transferServer token id : String) : AnchorProg PollResult := do
  let fetched ← call i (.fetchSep24Transaction transferServer token id)
  return D.pollResult fetched

-- What is written by a poll that the anchor has answered.
def polled (now : Time) (failureReason : Option String) : SessionData where
  lastPolledAt  := some now
  failureReason := some failureReason
  errorCategory := some none
  nextAttemptAt := some none
  retryCount    := some 0

def sessionFailure (job : AnchorSession) (now : Time) (reason text : String) : TransitionParams where
  sessionId             := job.id
  nextStatus            := "error"
  source                := .poll
  expectedCurrentStatus := some job.status.name
  reason                := some reason
  extraData             := some {
    lastPolledAt  := some now
    failureReason := some (some text)
    errorCategory := some (some .permanent)
    nextAttemptAt := some none
    retryCount    := some 0
  }

-- A poll has failed with a transient error.
def scheduleRetry (job : AnchorSession) (now : Time) (reason : String) : AnchorProg Unit := do
  let attempt := job.retryCount + 1
  let exhausted := attempt ≥ D.maxAttempts
  let delayMs ← call i (.retryDelay attempt)
  let later ← call i .now
  let _ ← statement i <| .update job.id {
    lastPolledAt  := some now
    retryCount    := some attempt
    failureReason := some (some reason)
    errorCategory := some (some (if exhausted then .permanent else .transient))
    nextAttemptAt := some (if exhausted then none else some (later + delayMs))
  }
  if exhausted then
    let text := reason ++ " (retries exhausted after " ++ toString attempt ++ " attempts)"
    let _ ← transition i (sessionFailure job now text text)

def auditableStatuses : List String :=
  ["completed", "error", "refunded", "expired", "no_market", "too_small", "too_large"]

def AnchorSession.advance (job : AnchorSession) (now : Time) (report : PollReport) : TransitionParams where
  sessionId             := job.id
  nextStatus            := report.status
  source                := .poll
  expectedCurrentStatus := some job.status.name
  rawStatus             := some report.rawStatus
  reason                := if report.status = "error" then some report.message else report.statusMessage
  extraData             := some (polled now (if report.status = "error" then some report.message else none))

def reconcileReport (job : AnchorSession) (now : Time) (report : PollReport) : AnchorProg Unit := do
  if ¬report.recognized then
    let _ ← statement i (.update job.id (polled now none))
  else if report.status = job.status.name then
    let _ ← statement i (.update job.id (polled now none))
  else if job.status.isTerminal ∧ ¬(job.status = .error ∧ report.status = "refunded") then
    return ()
  else
    let updated ← transition i (job.advance now report)
    if updated.changed ∧ report.status ∈ auditableStatuses then
      audit i {
        actorType := some .worker
        action    := "anchor.session." ++ report.status
        entityId  := job.id
        outcome   := some (if report.status = "error" then .failure else .success)
        metadata  := .polled job.status report.status report.rawStatus
      }

-- The row may have changed since it has been read.
def reconcileSingleAnchor (transferServer : String) (job : AnchorSession) : AnchorProg Unit := do
  match job.anchorToken.bind present, job.externalTransactionId.bind present with
  | some token, some id =>
    let result ← pollTransaction D i transferServer token id
    let now ← call i .now
    match result with
    | .failure message .permanent =>
      let reason := D.safeFailureMessage 300 message
      let _ ← transition i (sessionFailure job now reason reason)
    | .failure message _          => scheduleRetry D i job now (D.safeFailureMessage 300 message)
    | .report report              => reconcileReport i job now report
  | _, _ => return ()

def claimAnchorSession (worker : String) (job : AnchorSession) : AnchorProg Bool := do
  let now ← call i .now
  let later ← call i .now
  match ← (statement i <|
    .claim job.id job.retryCount worker now (later + D.leaseTimeoutMs)).attempt with
  | .ok _    => return true
  | .error e => if e = noneMatched then return false else throw e

def reconcileClaimed (worker transferServer : String) (job : AnchorSession) : AnchorProg Unit := do
  if ← claimAnchorSession D i worker job then
    (reconcileSingleAnchor D i transferServer job).swallow
    (statement i (.release job.id worker)).swallow

def reconcileAnchors (worker : String) : AnchorProg Unit := do
  let now ← call i .now
  let sessions ← call i (.findReconcilable now D.batchSize)
  if sessions ≠ [] then
    match ← (call i .getToml).attempt with
    | .error _ => return ()
    | .ok toml => Prog.forEach (reconcileClaimed D i worker toml.transferServerSep24) sessions

def recoverStaleAnchorSessions : AnchorProg Unit := do
  let now ← call i .now
  statement i (.recoverLeases now)

inductive SessionResponse
  | started (session : AnchorSession) (challenge : String)
  | completed (completion : Completion)
  | applied (result : Sep24ApplyResult)
  | finished
  deriving DecidableEq

def sessionRequest : SessionRequest → AnchorProg SessionResponse
  | i@(.start userId publicKey kind assetCode) => do
    let (session, challenge) ← start i userId publicKey kind assetCode
    return .started session challenge
  | i@(.complete userId publicKey id xdr)      => return .completed (← complete i userId publicKey id xdr)
  | i@(.callback service callback)             => return .applied (← applySep24Callback D i service callback)
  | i@(.poll worker)                           => do
    reconcileAnchors D i worker
    return .finished
  | i@.recover                                 => do
    recoverStaleAnchorSessions i
    return .finished

abbrev SessionAct :=
  Database.Step SessionRequest AnchorAction AnchorAction.Answer Failure

abbrev ServerConfig :=
  Config (Observed AnchorStore SessionRequest SessionResponse)
    (Reported SessionAct SessionRequest SessionResponse) (Reported.Answer Database.Step.Answer) Failure

-- The requests that concern anchor sessions, whose responses are handed over.
abbrev sessionServer :=
  (anchorDatabase.server anchorEnv fun _ : SessionRequest => .done ()).reporting (sessionRequest D)

-- The configuration unless it is set otherwise.
def anchorConfig : AnchorDeps where
  maxAttempts        := 5
  batchSize          := 50
  leaseTimeoutMs     := 60000
  safeFailureMessage := fun maxLength text => .ofList (text.toList.take maxLength)

def observing (n m : Nat) : List (Label AnchorChoice Time SessionRequest) :=
  Label.acts n (List.replicate m .plain)

end Mergepay.Anchors
