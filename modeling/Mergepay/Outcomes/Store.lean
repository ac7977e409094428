import Mergepay.Concurrency.Session
import Mergepay.Settlement.Reconciliation

namespace Mergepay.Outcomes

open Concurrency

inductive TransitionSource
  | user
  | worker
  | system
  deriving DecidableEq

-- The tables

inductive AuditMetadata
  | change (from_ to_ : SettlementStatus) (source : TransitionSource) (retryCount : Nat)
  | ledger (stellarTxHash : String) (reason : Option String)
  | exhausted (stellarTxHash : String) (attempts maxRetries : Nat)
  deriving DecidableEq

structure OutcomeAudit where
  userId     : Option String
  groupId    : Option String
  actorType  : TransitionSource
  action     : String
  entityType : String
  entityId   : String
  metadata   : AuditMetadata
  deriving DecidableEq

structure StatusHistory where
  entityType : String
  entityId   : String
  status     : SettlementStatus
  source     : TransitionSource
  deriving DecidableEq

inductive WebhookEventType
  | expenseCreated
  | expenseSettled
  | settlementCompleted
  | settlementConfirmed
  | settlementFailed
  | proposalCreated
  | proposalSigned
  | proposalSubmitted
  deriving DecidableEq

-- What is said about a settlement. The machine announces the columns of its row.
inductive EventPayload
  | announced (row : Settlement)
  | verified (settlementId stellarTxHash : String)
  | rejected (settlementId reason : String)
  deriving DecidableEq

def EventPayload.settlementId : EventPayload → String
  | announced row                    => row.id
  | verified id _ | rejected id _ => id

structure Webhook where
  id      : String
  groupId : Option String
  userId  : Option String := none
  events  : List WebhookEventType
  enabled : Bool := true
  deriving DecidableEq

structure Delivery where
  webhookId     : String
  eventType     : WebhookEventType
  payload       : EventPayload
  nextAttemptAt : Time
  deriving DecidableEq

structure MergepayEvent where
  eventType : WebhookEventType
  payload   : EventPayload
  groupId   : Option String
  deriving DecidableEq

-- What is started without being awaited.
inductive Task
  | notify (settlementId : String) (eventType : WebhookEventType)
  | dispatch (event : MergepayEvent)
  deriving DecidableEq

-- Apart from the tables, there are the events that have been emitted on the bus, and the tasks that have
-- been started but not been taken up yet.
structure OutcomeStore where
  world      : World
  audits     : List OutcomeAudit := []
  histories  : List StatusHistory := []
  webhooks   : List Webhook := []
  deliveries : List Delivery := []
  events     : List MergepayEvent := []
  tasks      : List Task := []
  deriving DecidableEq

namespace OutcomeStore

variable (s : OutcomeStore)

def settlement (id : String) : Option Settlement :=
  s.world.settlement id

def status (id : String) : Option SettlementStatus :=
  (s.settlement id).map (·.status)

-- The rows are found in the order in which they have been created.
def latestHistory (entityType entityId : String) : Option StatusHistory :=
  (s.histories.filter fun row => row.entityType = entityType ∧ row.entityId = entityId).getLast?

-- The endpoints of a group that want to know about an event.
def subscribed (eventType : WebhookEventType) (groupId : String) : List Webhook :=
  s.webhooks.filter fun w => w.enabled ∧ eventType ∈ w.events ∧ w.groupId = some groupId

end OutcomeStore

-- The statements, and what is read from the ledger in order to verify a transaction

inductive OutcomeAction
  | now
  | findSettlement (id : String)
  | updateSettlement (id : String) (data : Patch)
  | updateMany (id : String) (allowed : List SettlementStatus) (data : Patch)
  | latestHistory (entityType entityId : String)
  | createHistory (row : StatusHistory)
  | createAudit (row : OutcomeAudit)
  | settleShare (id : String)
  | observe (a : Act)
  | findWebhooks (eventType : WebhookEventType) (groupId : String)
  | createDeliveries (rows : List Delivery)
  | emit (event : MergepayEvent)
  | detach (task : Task)
  | take (task : Task)

abbrev OutcomeAction.Answer : OutcomeAction → Type
  | now                  => Time
  | findSettlement _     => Option Settlement
  | updateSettlement _ _ => Settlement
  | latestHistory _ _    => Option StatusHistory
  | observe a            => a.Res
  | findWebhooks _ _     => List Webhook
  | updateMany _ _ _ | createHistory _ | createAudit _ | settleShare _ | createDeliveries _ | emit _
  | detach _ | take _    => Unit

inductive OutcomeChoice
  | plain
  | lost
  | observed (x : Choice)

def outcomeAdmits : OutcomeAction → OutcomeStore → Bool
  | .updateSettlement id _, s    => (s.settlement id).isSome
  | .updateMany id allowed _, s  => (s.settlement id).any (·.status ∈ allowed)
  | .settleShare id, s           => (s.world.share id).isSome
  | .take task, s                => task ∈ s.tasks
  | _, _                         => true

def outcomeEffect : OutcomeAction → OutcomeStore → OutcomeStore
  | .updateSettlement id data, s   => { s with world := s.world.patchSettlements (·.id = id) data }
  | .updateMany id allowed data, s => { s with
    world := s.world.patchSettlements (fun r => r.id = id ∧ r.status ∈ allowed) data }
  | .createHistory row, s          => { s with histories := s.histories ++ [row] }
  | .createAudit row, s            => { s with audits := s.audits ++ [row] }
  | .settleShare id, s             => { s with world := s.world.setShareStatus id .settled }
  | .createDeliveries rows, s      => { s with deliveries := s.deliveries ++ rows }
  | .emit event, s                 => { s with events := s.events ++ [event] }
  | .detach task, s                => { s with tasks := s.tasks ++ [task] }
  | .take task, s                  => { s with tasks := s.tasks.erase task }
  | _, s                           => s

def outcomeAnswer (D : Deps) :
    (a : OutcomeAction) → OutcomeChoice → OutcomeStore → Option (Except Failure a.Answer)
  | _, .lost, _                                => some (.error World.connectionClosed)
  | .now, .plain, s                            => some (.ok s.world.now)
  | .findSettlement id, .plain, s              => some (.ok (s.settlement id))
  | .updateSettlement id data, .plain, s       => some <| match s.settlement id with
    | none     => .error World.recordNotFound
    | some row => .ok (row.patch data s.world.now)
  | .updateMany id allowed _, .plain, s        => some <|
    if (s.settlement id).any (·.status ∈ allowed) then .ok () else .error noneMatched
  | .latestHistory entityType entityId, .plain, s => some (.ok (s.latestHistory entityType entityId))
  | .createHistory _, .plain, _                => some (.ok ())
  | .createAudit _, .plain, _                  => some (.ok ())
  | .settleShare id, .plain, s                 => some <|
    if (s.world.share id).isSome then .ok () else .error World.recordNotFound
  | .observe a, .observed x, s                 => (D.exec a x s.world).map Prod.fst
  | .findWebhooks eventType groupId, .plain, s => some (.ok (s.subscribed eventType groupId))
  | .createDeliveries _, .plain, _             => some (.ok ())
  | .emit _, .plain, _                         => some (.ok ())
  | .detach _, .plain, _                       => some (.ok ())
  | .take task, .plain, s                      => if task ∈ s.tasks then some (.ok ()) else none
  | _, _, _                                    => none

def outcomeDatabase (D : Deps) :
    Database OutcomeStore OutcomeAction OutcomeAction.Answer Failure OutcomeChoice where
  answer := outcomeAnswer D
  effect := outcomeEffect
  admits := outcomeAdmits
  commit := fun
    | .plain      => some (.ok ())
    | .lost       => some (.error World.connectionClosed)
    | .observed _ => none

-- Time passes, and envelopes are applied by the ledger.
def outcomeEnv (D : Deps) (e : Event) (s : OutcomeStore) : Option OutcomeStore :=
  (D.env e s.world).map fun world => { s with world }

abbrev OutcomeTx (α : Type) :=
  Prog OutcomeAction OutcomeAction.Answer Failure α

abbrev OutcomeStep (ι : Type) :=
  Database.Step ι OutcomeAction OutcomeAction.Answer Failure

abbrev OutcomeSession (ι α : Type) :=
  Database.Session ι OutcomeAction OutcomeAction.Answer Failure α

end Mergepay.Outcomes
