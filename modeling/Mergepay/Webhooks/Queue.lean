import Mathlib.Data.List.Sort
import Mergepay.Concurrency.System
import Mergepay.Data.Table
import Mergepay.Schema
import Mergepay.Text.Unicode

namespace Mergepay.Webhooks

open Concurrency Text

structure WebhookConfig where
  maxAttempts       : Nat
  retryBaseDelayMs  : Time
  leaseTimeoutMs    : Time
  batchSize         : Nat
  -- The keyed digest of a body, in hexadecimal digits.
  createSignature   : (body secret : String) → String
  maxAttempts_pos   : 0 < maxAttempts

inductive WebhookDeliveryStatus
  | pending
  | delivered
  | failed
  deriving DecidableEq

-- The tables

structure WebhookRecord where
  id      : String
  url     : String
  secret  : String
  enabled : Bool := true
  deriving DecidableEq

structure WebhookDelivery where
  id                 : String
  webhookId          : String
  eventType          : String
  payload            : String
  status             : WebhookDeliveryStatus := .pending
  attempts           : Nat := 0
  responseStatusCode : Option Nat := none
  responseBody       : Option String := none
  nextAttemptAt      : Option Time
  lastAttemptAt      : Option Time := none
  claimedBy          : Option String := none
  leaseExpiresAt     : Option Time := none
  deriving DecidableEq

-- What is recorded of an attempt.
structure Outcome where
  status             : WebhookDeliveryStatus
  attempts           : Nat
  responseStatusCode : Option Nat
  responseBody       : Option String
  lastAttemptAt      : Time
  nextAttemptAt      : Option Time

namespace WebhookDelivery

variable (row : WebhookDelivery)

-- Pending, and not under a lease.
def free (now : Time) : Bool :=
  row.status = .pending ∧ row.leaseExpiresAt.all (· ≤ now)

def due (now : Time) : Bool :=
  row.free now ∧ row.nextAttemptAt.any (· ≤ now)

def claimable (id : String) (attempts : Nat) (now : Time) : Bool :=
  row.id = id ∧ row.attempts = attempts ∧ row.free now

def claim (workerId : String) (leaseExpiresAt : Time) : WebhookDelivery := { row with
  claimedBy      := some workerId
  leaseExpiresAt := some leaseExpiresAt
}

def disable : WebhookDelivery := { row with
  status        := .failed
  responseBody  := some "Endpoint disabled before delivery"
  nextAttemptAt := none
}

def conclude (data : Outcome) : WebhookDelivery := { row with
  status             := data.status
  attempts           := data.attempts
  responseStatusCode := data.responseStatusCode
  responseBody       := data.responseBody
  lastAttemptAt      := some data.lastAttemptAt
  nextAttemptAt      := data.nextAttemptAt
  claimedBy          := none
  leaseExpiresAt     := none
}

end WebhookDelivery

-- Apart from the tables, there are the ids of all deliveries that have been created so far.
structure Queue where
  deliveries : List WebhookDelivery := []
  webhooks   : List WebhookRecord := []
  ids        : List String := []
  now        : Time

namespace Queue

variable (s : Queue)

def delivery (id : String) : Option WebhookDelivery :=
  Table.row? (·.id) s.deliveries id

def webhook (id : String) : Option WebhookRecord :=
  Table.row? (·.id) s.webhooks id

def rewrite (p : WebhookDelivery → Bool) (f : WebhookDelivery → WebhookDelivery) : Queue :=
  { s with deliveries := Table.update p f s.deliveries }

-- The deliveries that are due, each along with its endpoint. Those that have been due for longest come first.
def findDue (now : Time) (batchSize : Nat) : List (WebhookDelivery × WebhookRecord) :=
  let rows := s.deliveries.filter (·.due now)
  let rows := (rows.insertionSort fun a b => a.nextAttemptAt.getD 0 ≤ b.nextAttemptAt.getD 0).take batchSize
  rows.filterMap fun row => (s.webhook row.webhookId).map (row, ·)

end Queue

-- The statements, and the calls of endpoints

structure HttpRequest where
  url       : String
  signature : String
  body      : String

-- An error is the message of what has been thrown, if it has one.
abbrev Thrown := Option String

-- The body of a response may fail to be read.
structure HttpResponse where
  status : Nat
  text   : Except Thrown String

def HttpResponse.ok (r : HttpResponse) : Bool :=
  200 ≤ r.status ∧ r.status ≤ 299

-- A call is labelled with the delivery that is sent by it.
inductive QueueAction
  | clock
  | findDue (now : Time) (batchSize : Nat)
  | claim (id : String) (attempts : Nat) (workerId : String) (now leaseExpiresAt : Time)
  | disable (id : String)
  | fetch (id : String) (request : HttpRequest)
  | conclude (id : String) (data : Outcome)

abbrev QueueAction.Answer : QueueAction → Type
  | clock                => Time
  | findDue _ _          => List (WebhookDelivery × WebhookRecord)
  | claim _ _ _ _ _      => Nat
  | fetch _ _            => HttpResponse
  | disable _ | conclude _ _ => Unit

-- A statement may fail, and may have taken effect nonetheless.
inductive QueueChoice
  | done
  | failed (e : Thrown)
  | unacknowledged (e : Thrown)
  | received (r : Except Thrown HttpResponse)

-- Time passes, endpoints are registered, enabled, disabled and deleted, and events are queued for them.
inductive QueueEvent
  | tick (ms : Nat)
  | register (webhook : WebhookRecord)
  | setEnabled (id : String) (enabled : Bool)
  | remove (id : String)
  | enqueue (id webhookId eventType body : String) (now : Time)

section Statements

variable (s : Queue)

def updateRow (id : String) (f : WebhookDelivery → WebhookDelivery) : Except Thrown Unit × Queue :=
  if s.deliveries.any (·.id = id) then (.ok (), s.rewrite (·.id = id) f)
  else (.error (some "Record to update not found."), s)

-- A call is not answered by the database.
def run : (a : QueueAction) → Queue → Except Thrown a.Answer × Queue
  | .clock, s                 => (.ok s.now, s)
  | .findDue now batchSize, s => (.ok (s.findDue now batchSize), s)
  | .claim id attempts workerId now leaseExpiresAt, s =>
    let p := (WebhookDelivery.claimable · id attempts now)
    (.ok (s.deliveries.countP p), s.rewrite p (·.claim workerId leaseExpiresAt))
  | .disable id, s            => updateRow s id (·.disable)
  | .conclude id data, s      => updateRow s id (·.conclude data)
  | .fetch _ _, s             => (.error none, s)

def exec : (a : QueueAction) → QueueChoice → Queue → Option (Except Thrown a.Answer × Queue)
  | .fetch _ _, .received r, s => some (r, s)
  | .fetch _ _, _, _           => none
  | _, .received _, _          => none
  | a, .done, s                => some (run a s)
  | .clock, _, _               => none
  | _, .failed e, s            => some (.error e, s)
  | a, .unacknowledged e, s    => some (.error e, (run a s).2)

def env : QueueEvent → Queue → Option Queue
  | .tick ms, s           => some { s with now := s.now + ms }
  | .register webhook, s  => some { s with webhooks := s.webhooks ++ [webhook] }
  | .setEnabled id enabled, s =>
    some { s with webhooks := Table.update (·.id = id) ({ · with enabled }) s.webhooks }
  | .remove id, s         => some { s with
      webhooks   := s.webhooks.filter (·.id ≠ id)
      deliveries := s.deliveries.filter (·.webhookId ≠ id)
    }
  | .enqueue id webhookId eventType payload now, s =>
    if id ∈ s.ids ∨ s.now < now ∨ s.webhooks.all (·.id ≠ webhookId) then none
    else some { s with
      deliveries := s.deliveries ++ [{ id, webhookId, eventType, payload, nextAttemptAt := some now }]
      ids        := id :: s.ids
    }

end Statements

-- The worker

abbrev M := Prog QueueAction QueueAction.Answer Thrown

def act (a : QueueAction) : M a.Answer :=
  Prog.perform a

structure Counts where
  delivered : Nat := 0
  failed    : Nat := 0
  attempted : Nat := 0

section Worker

variable (C : WebhookConfig)

-- The delay before an attempt. The first one is made at once.
def deliveryBackoffMs (attempt : Nat) : Time :=
  if attempt ≤ 1 then 0 else C.retryBaseDelayMs * 2 ^ (attempt - 2)

def claimDelivery (workerId id : String) (attempts : Nat) : M Bool := do
  let now ← act .clock
  let count ← act (.claim id attempts workerId now (now + C.leaseTimeoutMs))
  return count = 1

-- At most 16384 code units of what has been received are kept.
def bounded (text : String) : String :=
  .ofList <| Utf16.decode <| (Utf16.encode text.toList).take 16384

def message (e : Thrown) : String :=
  e.getD "Webhook delivery failed"

-- The outcome of an attempt, without the times.
def outcomeOf (attempt : Nat) (response : Except Thrown HttpResponse) :
    WebhookDeliveryStatus × Option Nat × String :=
  let undelivered := if attempt ≥ C.maxAttempts then .failed else .pending
  match response with
  | .error e => (undelivered, none, message e)
  | .ok r    => match r.text with
    | .error e => (undelivered, some r.status, message e)
    | .ok text => (if r.ok then .delivered else undelivered, some r.status, bounded text)

def retryTime (status : WebhookDeliveryStatus) (attempts : Nat) : M (Option Time) := do
  if status ≠ .pending then return none
  let now ← act .clock
  return some (now + deliveryBackoffMs C (attempts + 1))

def recordOutcome (row : WebhookDelivery) (response : Except Thrown HttpResponse) : M WebhookDeliveryStatus := do
  let attempts := row.attempts + 1
  let (status, responseStatusCode, responseBody) := outcomeOf C attempts response
  let lastAttemptAt ← act .clock
  let nextAttemptAt ← retryTime C status attempts
  act <| .conclude row.id
    { status, attempts, responseStatusCode, responseBody := some responseBody, lastAttemptAt, nextAttemptAt }
  return status

def attemptDelivery (row : WebhookDelivery) (webhook : WebhookRecord) : M WebhookDeliveryStatus := do
  let signature := C.createSignature row.payload webhook.secret
  let response ← Prog.attempt <| act <| .fetch row.id ⟨webhook.url, signature, row.payload⟩
  recordOutcome C row response

def deliverAll (workerId : String) : List (WebhookDelivery × WebhookRecord) → Counts → M Counts
  | [], counts                     => return counts
  | (row, webhook) :: rows, counts => do
    if ¬webhook.enabled then
      act (.disable row.id)
      deliverAll workerId rows { counts with failed := counts.failed + 1 }
    else if ← claimDelivery C workerId row.id row.attempts then
      let status ← attemptDelivery C row webhook
      deliverAll workerId rows {
        delivered := counts.delivered + if status = .delivered then 1 else 0
        failed    := counts.failed + if status = .failed then 1 else 0
        attempted := counts.attempted + 1
      }
    else deliverAll workerId rows counts

def processPendingWebhookDeliveries (workerId : String) (batchSize : Nat) : M Counts := do
  let now ← act .clock
  let rows ← act (.findDue now batchSize)
  deliverAll C workerId rows {}

-- Each process is a cycle of a worker.
def server : System Queue QueueAction QueueAction.Answer Thrown QueueChoice QueueEvent String where
  exec  := exec
  env   := env
  entry := fun workerId => do
    let _ ← processPendingWebhookDeliveries C workerId C.batchSize
    return ()

end Worker

end Mergepay.Webhooks
