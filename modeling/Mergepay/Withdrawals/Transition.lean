import Mathlib.Data.List.Sort
import Mergepay.Concurrency.Report
import Mergepay.Data.Table
import Mergepay.Errors
import Mergepay.Money.Asset
import Mergepay.Schema

namespace Mergepay.Withdrawals

open Concurrency Money

inductive WithdrawalStatus
  | pending
  | processing
  | completed
  | failed
  | expired
  | refunded
  deriving DecidableEq

inductive WithdrawalTransitionSource
  | user
  | webhook
  | poll
  deriving DecidableEq

namespace WithdrawalStatus

def name : WithdrawalStatus → String
  | pending    => "pending"
  | processing => "processing"
  | completed  => "completed"
  | failed     => "failed"
  | expired    => "expired"
  | refunded   => "refunded"

def all : List WithdrawalStatus :=
  [pending, processing, completed, failed, expired, refunded]

-- The status with a certain name, if there is one.
def known (text : String) : Option WithdrawalStatus :=
  all.find? (·.name = text)

def allowedTransitions : WithdrawalStatus → List WithdrawalStatus
  | pending                                 => [processing, failed, expired]
  | processing                              => [completed, failed, expired, refunded]
  | completed | failed | expired | refunded => []

def canTransition (current target : WithdrawalStatus) : Bool :=
  target ∈ current.allowedTransitions

def isTerminal : WithdrawalStatus → Bool
  | completed | failed | expired | refunded => true
  | pending | processing                    => false

end WithdrawalStatus

def sep24TransactionStatuses : List String := [
  "incomplete", "pending_user_transfer_start", "pending_user", "pending_transaction_info_update",
  "pending_receiver", "pending_sender", "pending_stellar", "pending_trust", "pending_anchor",
  "completed", "error", "refunded", "expired", "no_market", "too_small", "too_large"
]

-- Apart from ASCII letters, only the Kelvin sign has an ASCII letter as lower case.
def toLowerCase (s : String) : String :=
  .ofList <| s.toList.map fun
    | '\u212A' => 'k'
    | c        => c.toLower

def mapAnchorStatus (raw : String) : String :=
  let normalized := toLowerCase (trimmed raw)
  if normalized ∈ sep24TransactionStatuses then normalized else "pending_anchor"

def mapAnchorStatusToWithdrawalStatus (anchorStatus : String) : WithdrawalStatus :=
  if anchorStatus = "completed" then .completed
  else if anchorStatus = "refunded" then .refunded
  else if anchorStatus = "expired" then .expired
  else if anchorStatus ∈ ["error", "no_market", "too_small", "too_large"] then .failed
  else .processing

-- The tables

structure Withdrawal where
  id            : String
  userId        : String
  assetCode     : String
  anchorTxId    : Option String := none
  anchorToken   : Option String := none
  status        : WithdrawalStatus := .pending
  failureReason : Option String := none
  retryCount    : Nat := 0
  errorCategory : Option JobFailureCategory := none
  nextAttemptAt : Option Time := none
  updatedAt     : Time := 0
  deriving DecidableEq

-- The columns that are set by an update.
structure WithdrawalData where
  anchorTxId    : Option String := none
  anchorToken   : Option String := none
  status        : Option WithdrawalStatus := none
  failureReason : Option String := none
  retryCount    : Option Nat := none
  errorCategory : Option JobFailureCategory := none
  nextAttemptAt : Option (Option Time) := none
  deriving DecidableEq

def Withdrawal.set (w : Withdrawal) (data : WithdrawalData) (now : Time) : Withdrawal := { w with
  anchorTxId    := data.anchorTxId <|> w.anchorTxId
  anchorToken   := data.anchorToken <|> w.anchorToken
  status        := data.status.getD w.status
  failureReason := data.failureReason <|> w.failureReason
  retryCount    := data.retryCount.getD w.retryCount
  errorCategory := data.errorCategory <|> w.errorCategory
  nextAttemptAt := data.nextAttemptAt.getD w.nextAttemptAt
  updatedAt     := now
}

inductive AuditActor
  | user
  | worker
  | system
  deriving DecidableEq

structure TransitionMetadata where
  from_  : WithdrawalStatus
  to_    : WithdrawalStatus
  source : WithdrawalTransitionSource
  deriving DecidableEq

structure WithdrawalAudit where
  userId     : String
  actorType  : AuditActor
  action     : String
  entityType : String
  entityId   : String
  metadata   : TransitionMetadata
  deriving DecidableEq

structure WithdrawalStore where
  now         : Time := 0
  withdrawals : List Withdrawal := []
  audits      : List WithdrawalAudit := []
  deriving DecidableEq

-- The statements, and the calls of the anchor and of the mechanism for anchor sessions

structure AnchorToml where
  transferServerSep24 : String
  webAuthEndpoint     : String
  deriving DecidableEq

structure Interactive where
  id  : String
  url : String
  deriving DecidableEq

-- The status has already been normalized. Errors carry a category, which decides about retries.
inductive PollResult
  | status (status : String)
  | failure (message : String) (category : JobFailureCategory)
  deriving DecidableEq

-- Delays have a random part, so that they are treated as answers.
inductive WithdrawalAction
  | now
  | findWithdrawal (id : String)
  | findByAnchorTxId (anchorTxId : String)
  | findPollable (maxAttempts : Nat) (now : Time) (limit : Nat)
  | update (id : String) (data : WithdrawalData)
  | updateFrom (id : String) (status : WithdrawalStatus) (data : WithdrawalData)
  | createAudit (row : WithdrawalAudit)
  | getToml
  | getToken (webAuthEndpoint signedXdr : String)
  | startInteractive (transferServer token assetCode account : String)
  | pollTransaction (transferServer token id : String)
  | applySep24Callback (externalTransactionId rawStatus : String)
  | retryDelay (attempt : Nat)
  deriving DecidableEq

abbrev WithdrawalAction.Answer : WithdrawalAction → Type
  | now                          => Time
  | findWithdrawal _             => Option Withdrawal
  | findByAnchorTxId _           => Option Withdrawal
  | findPollable _ _ _           => List Withdrawal
  | update _ _                   => Withdrawal
  | getToml                      => AnchorToml
  | getToken _ _                 => String
  | startInteractive _ _ _ _     => Interactive
  | pollTransaction _ _ _        => PollResult
  | retryDelay _                 => Time
  | updateFrom _ _ _ | createAudit _ | applySep24Callback _ _ => Unit

inductive WithdrawalChoice
  | plain
  | lost
  | raised (e : Failure)
  | toml (toml : AnchorToml)
  | token (token : String)
  | started (interactive : Interactive)
  | polled (result : PollResult)
  | delay (ms : Nat)
  deriving DecidableEq

namespace WithdrawalStore

variable (s : WithdrawalStore)

def withdrawal (id : String) : Option Withdrawal :=
  Table.row? (·.id) s.withdrawals id

-- The id of a transaction of the anchor is unique.
def unclaimed (id : String) (data : WithdrawalData) : Bool :=
  s.withdrawals.all fun w => w.id = id ∨ w.anchorTxId = none ∨ w.anchorTxId ≠ data.anchorTxId

def pollable (maxAttempts : Nat) (now : Time) (w : Withdrawal) : Bool :=
  w.status = .processing ∧ w.anchorTxId ≠ none ∧ w.anchorToken ≠ none ∧ w.retryCount < maxAttempts ∧
    w.errorCategory ≠ some .permanent ∧ w.nextAttemptAt.all (· ≤ now)

end WithdrawalStore

def withdrawalAdmits : WithdrawalAction → WithdrawalStore → Bool
  | .update id data, s            => (s.withdrawal id).isSome ∧ s.unclaimed id data
  | .updateFrom id status data, s => (s.withdrawal id).any (·.status = status) ∧ s.unclaimed id data
  | _, _                          => true

def withdrawalEffect : WithdrawalAction → WithdrawalStore → WithdrawalStore
  | .update id data, s            => { s with
    withdrawals := Table.update (·.id = id) (·.set data s.now) s.withdrawals }
  | .updateFrom id status data, s => { s with
    withdrawals := Table.update (fun w => w.id = id ∧ w.status = status) (·.set data s.now)
      s.withdrawals }
  | .createAudit row, s           => { s with audits := s.audits ++ [row] }
  | _, s                          => s

def withdrawalAnswer : (a : WithdrawalAction) → WithdrawalChoice → WithdrawalStore →
    Option (Except Failure a.Answer)
  | _, .lost, _                                     => some (.error World.connectionClosed)
  | .now, .plain, s                                 => some (.ok s.now)
  | .findWithdrawal id, .plain, s                   => some (.ok (s.withdrawal id))
  | .findByAnchorTxId id, .plain, s                 =>
    some (.ok (s.withdrawals.find? (·.anchorTxId = some id)))
  | .findPollable maxAttempts now limit, .plain, s  =>
    some (.ok (((s.withdrawals.filter (WithdrawalStore.pollable maxAttempts now)).insertionSort
      (·.updatedAt ≤ ·.updatedAt)).take limit))
  | .update id data, .plain, s                      => some <| match s.withdrawal id with
    | none   => .error World.recordNotFound
    | some w => if s.unclaimed id data then .ok (w.set data s.now) else .error World.uniqueViolation
  | .updateFrom id status data, .plain, s           => some <|
    if ¬(s.withdrawal id).any (·.status = status) then .error noneMatched
    else if s.unclaimed id data then .ok () else .error World.uniqueViolation
  | .createAudit _, .plain, _                       => some (.ok ())
  | .getToml, .toml toml, _                         => some (.ok toml)
  | .getToml, .raised e, _                          => some (.error e)
  | .getToken _ _, .token token, _                  => some (.ok token)
  | .getToken _ _, .raised e, _                     => some (.error e)
  | .startInteractive _ _ _ _, .started result, _   => some (.ok result)
  | .startInteractive _ _ _ _, .raised e, _         => some (.error e)
  | .pollTransaction _ _ _, .polled result, _       => some (.ok result)
  | .pollTransaction _ _ _, .raised e, _            => some (.error e)
  | .applySep24Callback _ _, .plain, _              => some (.ok ())
  | .applySep24Callback _ _, .raised e, _           => some (.error e)
  | .retryDelay _, .delay ms, _                     => some (.ok ms)
  | _, _, _                                         => none

def withdrawalDatabase :
    Database WithdrawalStore WithdrawalAction WithdrawalAction.Answer Failure WithdrawalChoice where
  answer := withdrawalAnswer
  effect := withdrawalEffect
  admits := withdrawalAdmits
  commit := fun
    | .plain => some (.ok ())
    | .lost  => some (.error World.connectionClosed)
    | _      => none

def withdrawalEnv (t : Time) (s : WithdrawalStore) : Option WithdrawalStore :=
  if s.now ≤ t then some { s with now := t } else none

abbrev WithdrawalTx (α : Type) :=
  Prog WithdrawalAction WithdrawalAction.Answer Failure α

-- The state transitions

structure TransitionParams where
  withdrawalId : String
  nextStatus   : String
  source       : WithdrawalTransitionSource
  extraData    : Option WithdrawalData := none
  ownerUserId  : Option String := none

structure WithdrawalTransitionResult where
  withdrawal : Withdrawal
  changed    : Bool

def WithdrawalTransitionSource.actor : WithdrawalTransitionSource → AuditActor
  | user    => .user
  | poll    => .worker
  | webhook => .system

def statusChanged (params : TransitionParams) (withdrawal : Withdrawal) (target : WithdrawalStatus) :
    WithdrawalAudit where
  userId     := withdrawal.userId
  actorType  := params.source.actor
  action     := "withdrawal.status_changed"
  entityType := "withdrawal"
  entityId   := params.withdrawalId
  metadata   := ⟨withdrawal.status, target, params.source⟩

def findWithdrawal (params : TransitionParams) : WithdrawalTx Withdrawal := do
  let some withdrawal ← Prog.perform (WithdrawalAction.findWithdrawal params.withdrawalId)
    | throw <| .notFound "Withdrawal not found"
  if params.ownerUserId.any (· ≠ withdrawal.userId) then
    throw <| .forbidden "You do not have access to this withdrawal"
  return withdrawal

-- The same status is delivered once more.
def keepStatus (params : TransitionParams) (withdrawal : Withdrawal) :
    WithdrawalTx WithdrawalTransitionResult :=
  match params.extraData with
  | none      => return ⟨withdrawal, false⟩
  | some data => do
    let updated ← Prog.perform (WithdrawalAction.update params.withdrawalId data)
    return ⟨updated, false⟩

-- The update is guarded by the status that has been read. If it has changed since, nothing happens.
def changeStatus (params : TransitionParams) (withdrawal : Withdrawal) (target : WithdrawalStatus) :
    WithdrawalTx WithdrawalTransitionResult := do
  let id := params.withdrawalId
  match ← (Prog.perform <| WithdrawalAction.updateFrom id withdrawal.status
    { params.extraData.getD {} with status := some target }).attempt with
  | .error e =>
    if e ≠ noneMatched then
      throw e
    let latest ← Prog.perform (WithdrawalAction.findWithdrawal id)
    return ⟨latest.getD withdrawal, false⟩
  | .ok _ =>
    let updated ← Prog.perform (WithdrawalAction.findWithdrawal id)
    Prog.perform <| WithdrawalAction.createAudit (statusChanged params withdrawal target)
    return ⟨updated.getD withdrawal, true⟩

def applyWithdrawalTransition (params : TransitionParams) :
    WithdrawalTx WithdrawalTransitionResult := do
  let withdrawal ← findWithdrawal params
  let target := (WithdrawalStatus.known params.nextStatus).getD .processing
  if target = withdrawal.status then
    keepStatus params withdrawal
  else if ¬withdrawal.status.canTransition target ∨ target = .completed ∧ params.source = .user then
    return ⟨withdrawal, false⟩
  else
    changeStatus params withdrawal target

-- The observers of a withdrawal

inductive WithdrawalRequest
  | poll
  | webhook (externalTransactionId rawStatus : String)
  | confirm (userId stellarPublicKey id signedXdr : String)
  deriving DecidableEq

abbrev WithdrawalSession (α : Type) :=
  Database.Session WithdrawalRequest WithdrawalAction WithdrawalAction.Answer Failure α

structure WithdrawalDeps where
  maxAttempts        : Nat
  batchSize          : Nat
  safeFailureMessage : String → String

variable (D : WithdrawalDeps) (i : WithdrawalRequest)

-- Reads, and calls of other services.
def call (a : WithdrawalAction) : WithdrawalSession a.Answer :=
  Prog.perform (Database.Step.act i [] a)

-- A single statement that writes.
def statement (a : WithdrawalAction) : WithdrawalSession a.Answer :=
  (Prog.perform a).transaction i []

def transition (params : TransitionParams) : WithdrawalSession WithdrawalTransitionResult :=
  (applyWithdrawalTransition params).transaction i []

-- What happens if a poll has failed with a transient error. In the end the withdrawal is marked as failed
-- directly, which is neither guarded nor audited.
def scheduleRetry (id : String) (attempt : Nat) (reason : String) : WithdrawalSession Unit := do
  let exhausted := attempt ≥ D.maxAttempts
  let delayMs ← call i (.retryDelay attempt)
  let now ← call i .now
  let _ ← statement i <| .update id {
    retryCount    := some attempt
    failureReason := some reason
    errorCategory := some (if exhausted then .permanent else .transient)
    nextAttemptAt := some (if exhausted then none else some (now + delayMs))
  }
  if exhausted then
    let _ ← statement i <| .update id {
      status        := some .failed
      failureReason := some <|
        reason ++ " (retries exhausted after " ++ toString attempt ++ " attempts)"
      errorCategory := some .permanent
      nextAttemptAt := some none
      retryCount    := some 0
    }

def reconcilePolled (job : Withdrawal) : PollResult → WithdrawalSession Unit
  | .failure message .permanent => do
    let _ ← transition i {
      withdrawalId := job.id
      nextStatus   := WithdrawalStatus.failed.name
      source       := .poll
      extraData    := some {
        failureReason := some (D.safeFailureMessage message)
        errorCategory := some .permanent
        nextAttemptAt := some none
        retryCount    := some 0
      }
    }
  | .failure message _ => scheduleRetry D i job.id (job.retryCount + 1) (D.safeFailureMessage message)
  | .status status     => do
    let nextStatus := mapAnchorStatusToWithdrawalStatus status
    if nextStatus ≠ job.status then
      let _ ← transition i { withdrawalId := job.id, nextStatus := nextStatus.name, source := .poll }

-- The row may have changed since it has been read.
def reconcileSingleWithdrawal (transferServer : String) (job : Withdrawal) : WithdrawalSession Unit := do
  match job.anchorToken.bind present, job.anchorTxId.bind present with
  | some token, some id =>
    let result ← call i (.pollTransaction transferServer token id)
    reconcilePolled D i job result
  | _, _ => return ()

def reconcileWithdrawals : WithdrawalSession Unit := do
  let now ← call i .now
  let withdrawals ← call i (.findPollable D.maxAttempts now D.batchSize)
  if withdrawals ≠ [] then
    match ← (call i .getToml).attempt with
    | .error _ => return ()
    | .ok toml => Prog.forEach (fun w =>
        (reconcileSingleWithdrawal D i toml.transferServerSep24 w).swallow) withdrawals

def receiveWebhook (externalTransactionId rawStatus : String) : WithdrawalSession Unit := do
  let _ ← call i (.applySep24Callback externalTransactionId rawStatus)
  match ← call i (.findByAnchorTxId externalTransactionId) with
  | none            => return ()
  | some withdrawal =>
    let _ ← transition i {
      withdrawalId := withdrawal.id
      nextStatus   := (mapAnchorStatusToWithdrawalStatus (mapAnchorStatus rawStatus)).name
      source       := .webhook
    }

structure Confirmation where
  withdrawal  : Withdrawal
  interactive : Option Interactive
  deriving DecidableEq

def startWithdrawal (userId stellarPublicKey signedXdr : String) (withdrawal : Withdrawal) :
    WithdrawalSession Confirmation := do
  let anchor ← call i .getToml
  let token ← call i (.getToken anchor.webAuthEndpoint signedXdr)
  let result ← call i <|
    .startInteractive anchor.transferServerSep24 token withdrawal.assetCode stellarPublicKey
  let updated ← transition i {
    withdrawalId := withdrawal.id
    nextStatus   := WithdrawalStatus.processing.name
    source       := .user
    ownerUserId  := some userId
    extraData    := some { anchorTxId := some result.id, anchorToken := some token }
  }
  return ⟨updated.withdrawal, some result⟩

def confirmationFailure : Failure → Failure
  | .app status code message => .app status code message
  | _                        => .upstream "Withdrawal confirmation failed"

def confirmWithdrawal (userId stellarPublicKey id signedXdr : String) :
    WithdrawalSession Confirmation := do
  let some withdrawal ← call i (.findWithdrawal id)
    | throw <| .notFound "Withdrawal not found"
  if withdrawal.userId ≠ userId then
    throw <| .notFound "Withdrawal not found"
  if withdrawal.status ≠ .pending then
    return ⟨withdrawal, none⟩
  match ← (startWithdrawal i userId stellarPublicKey signedXdr withdrawal).attempt with
  | .ok confirmation => return confirmation
  | .error e         =>
    let _ ← transition i {
      withdrawalId := id
      nextStatus   := WithdrawalStatus.failed.name
      source       := .user
      ownerUserId  := some userId
    }
    throw (confirmationFailure e)

def withdrawalRequest : WithdrawalRequest → WithdrawalSession Unit
  | .poll                               => reconcileWithdrawals D .poll
  | .webhook externalTransactionId raw  =>
    receiveWebhook (.webhook externalTransactionId raw) externalTransactionId raw
  | .confirm userId publicKey id xdr    => do
    let _ ← confirmWithdrawal (.confirm userId publicKey id xdr) userId publicKey id xdr

-- The response to a confirmation, which is the only one that is of interest.
def withdrawalResponse : WithdrawalRequest → WithdrawalSession (Option Confirmation)
  | .confirm userId publicKey id xdr => do
    let confirmation ← confirmWithdrawal (.confirm userId publicKey id xdr) userId publicKey id xdr
    return some confirmation
  | i => do
    withdrawalRequest D i
    return none

abbrev WithdrawalStep :=
  Database.Step WithdrawalRequest WithdrawalAction WithdrawalAction.Answer Failure

abbrev WithdrawalConfig :=
  Config WithdrawalStore WithdrawalStep Database.Step.Answer Failure

abbrev withdrawalServer :=
  withdrawalDatabase.server withdrawalEnv (withdrawalRequest D)

-- The requests that concern withdrawals, whose responses are handed over.
abbrev withdrawalResponses :=
  (withdrawalServer D).reporting (withdrawalResponse D)

abbrev ResponseConfig :=
  Config (Observed WithdrawalStore WithdrawalRequest (Option Confirmation))
    (Reported WithdrawalStep WithdrawalRequest (Option Confirmation)) (Reported.Answer Database.Step.Answer)
    Failure

-- The configuration unless it is set otherwise.
def withdrawalConfig : WithdrawalDeps where
  maxAttempts        := 5
  batchSize          := 50
  safeFailureMessage := fun message => message

end Mergepay.Withdrawals
