import Mergepay.Outcomes.Transition

namespace Mergepay.Outcomes

open Concurrency Money

structure ReconcilableSettlement where
  row          : Settlement
  groupId      : Option String
  pendingSince : Option Time := none

-- A task that has been detached from a request runs on its own.
inductive OutcomeRequest
  | transition (params : TransitionParams)
  | reconcile (settlement : ReconcilableSettlement) (maxRetries : Nat)
  | task (task : Task)

abbrev PublicationSession (α : Type) :=
  OutcomeSession OutcomeRequest α

section

variable (i : OutcomeRequest)

-- Reads.
def call (a : OutcomeAction) : PublicationSession a.Answer :=
  Prog.perform (Database.Step.act i [] a)

-- A single statement that writes.
def statement (a : OutcomeAction) : PublicationSession a.Answer :=
  (Prog.perform a).transaction i []

-- What only reads from the tables of expenses and users, and from Horizon.
def observe : M α → PublicationSession α
  | .done v   => .done v
  | .fail e   => .fail e
  | .call a k => .call (.act i [] (.observe a)) fun r => observe (k r)

-- An audit that is not part of a transaction may get lost.
def audit (row : OutcomeAudit) : PublicationSession Unit :=
  (statement i (.createAudit row)).swallow

def queueWebhookEvent (event : MergepayEvent) : PublicationSession Unit := do
  match event.groupId.bind present with
  | none         => return ()
  | some groupId =>
    let webhooks ← call i (.findWebhooks event.eventType groupId)
    if webhooks ≠ [] then
      let now ← call i .now
      statement i <| .createDeliveries <| webhooks.map fun webhook => {
        webhookId     := webhook.id
        eventType     := event.eventType
        payload       := event.payload
        nextAttemptAt := now
      }

-- Nobody waits for the deliveries to be queued.
def dispatchEvent (event : MergepayEvent) : PublicationSession Unit :=
  statement i (.detach (.dispatch event))

def notifiedStatuses : SettlementStatus → Option WebhookEventType
  | .confirmed => some .settlementCompleted
  | .failed    => some .settlementFailed
  | _          => none

def notifySettlementTransition (settlementId : String) (nextStatus : SettlementStatus) :
    PublicationSession Unit :=
  match notifiedStatuses nextStatus with
  | none           => return ()
  | some eventType => statement i (.detach (.notify settlementId eventType))

def transition (params : TransitionParams) : PublicationSession TransitionResult := do
  let result ← (applySettlementTransition params).transaction i []
  if result.changed then
    notifySettlementTransition i params.settlementId params.nextStatus
  return result

-- The bus hands the event to the dispatcher of webhooks, which queues the deliveries.
def announce (settlementId : String) (eventType : WebhookEventType) : PublicationSession Unit := do
  match ← call i (.findSettlement settlementId) with
  | none     => return ()
  | some row =>
    let event := ⟨eventType, .announced row, some row.groupId⟩
    statement i (.emit event)
    queueWebhookEvent i event

def runTask (task : Task) : PublicationSession Unit := do
  statement i (.take task)
  match task with
  | .notify settlementId eventType => (announce i settlementId eventType).swallow
  | .dispatch event                => (queueWebhookEvent i event).swallow

-- Reconciliation

section

variable (settlement : ReconcilableSettlement)

def reconciliationAudit (action : String) (metadata : AuditMetadata) : OutcomeAudit where
  userId     := none
  groupId    := settlement.groupId
  actorType  := .worker
  action     := action
  entityType := "settlement"
  entityId   := settlement.row.id
  metadata   := metadata

def handleTransactionNotFound (D : Deps) (hash : String) (maxRetries : Nat) : PublicationSession Unit := do
  let row := settlement.row
  let nextRetryCount := row.retryCount + 1
  let now ← call i .now
  if settlement.pendingSince.any fun t => now - t ≥ D.pendingSettlementMaxAgeMs then
    let _ ← transition i {
      settlementId := row.id
      nextStatus   := .expired
      source       := .worker
      extraData    := some ⟨{
        failureReason := some <| some <| "Transaction " ++ hash ++
          " was not found on Stellar before the pending limit expired"
        retryCount    := some nextRetryCount
      }, rfl⟩
    }
  else if nextRetryCount > maxRetries then
    let _ ← transition i {
      settlementId := row.id
      nextStatus   := .failed
      source       := .worker
      extraData    := some ⟨{
        failureReason := some <| some <| "Transaction " ++ hash ++ " not confirmed after " ++
          toString maxRetries ++ " reconciliation attempts"
        retryCount    := some nextRetryCount
      }, rfl⟩
    }
    audit i <| reconciliationAudit settlement "settlement.reconciliation.exhausted" <|
      .exhausted hash nextRetryCount maxRetries
  else
    let _ ← statement i <| .updateSettlement row.id {
      retryCount := some nextRetryCount
      status     := if row.status = .needsReview then some .pendingConfirmation else none
    }

-- The outcomes that are published here, whether or not the transition has happened.

def rejectTransaction (hash reason : String) : PublicationSession Unit := do
  let row := settlement.row
  let _ ← transition i {
    settlementId := row.id
    nextStatus   := .failed
    source       := .worker
    extraData    := some ⟨{
      failureReason := some (some reason)
      retryCount    := some row.retryCount
    }, rfl⟩
  }
  audit i <| reconciliationAudit settlement "settlement.verification_failed" (.ledger hash (some reason))
  dispatchEvent i ⟨.settlementFailed, .rejected row.id reason, settlement.groupId⟩

def confirmTransaction (hash : String) : PublicationSession Unit := do
  let row := settlement.row
  let _ ← transition i {
    settlementId       := row.id
    nextStatus         := .confirmed
    source             := .worker
    extraData          := some ⟨{ retryCount := some 0, failureReason := some none }, rfl⟩
    settleExpenseShare := true
  }
  audit i <| reconciliationAudit settlement "settlement.completed" (.ledger hash none)
  dispatchEvent i ⟨.settlementConfirmed, .verified row.id hash, settlement.groupId⟩

def failTransaction (hash : String) : PublicationSession Unit := do
  let row := settlement.row
  let _ ← transition i {
    settlementId := row.id
    nextStatus   := .failed
    source       := .worker
    extraData    := some ⟨{
      failureReason := some (some (ledgerFailureReason hash))
      retryCount    := some row.retryCount
    }, rfl⟩
  }
  audit i <| reconciliationAudit settlement "settlement.failed" (.ledger hash (some "transaction_failed"))
  dispatchEvent i ⟨.settlementFailed, .rejected row.id "transaction_failed", settlement.groupId⟩

def reconcileSingleSettlement (D : Deps) (maxRetries : Nat) : PublicationSession Unit := do
  match settlement.row.stellarTxHash.bind present with
  | none      => return ()
  | some hash => match ← observe i (act (.getTransaction hash)) with
    | none       => handleTransactionNotFound i settlement D hash maxRetries
    | some true  => match ← (observe i (verifyPayment settlement.row hash)).attempt with
      | .error e =>
        if isVerificationFailure e then rejectTransaction i settlement hash e.message else throw e
      | .ok _    => confirmTransaction i settlement hash
    | some false => failTransaction i settlement hash

end

end

def outcomeRequest (D : Deps) : OutcomeRequest → PublicationSession Unit
  | .transition params               => do
    let _ ← transition (.transition params) params
  | .reconcile settlement maxRetries =>
    reconcileSingleSettlement (.reconcile settlement maxRetries) settlement D maxRetries
  | .task task                       => runTask (.task task) task

abbrev outcomeServer (D : Deps) :=
  (outcomeDatabase D).server (outcomeEnv D) (outcomeRequest D)

abbrev OutcomeConfig :=
  Config OutcomeStore (OutcomeStep OutcomeRequest) Database.Step.Answer Failure

end Mergepay.Outcomes
