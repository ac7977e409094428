import Mergepay.Concurrency.Session
import Mergepay.Concurrency.Ticket
import Mergepay.Errors
import Mergepay.Schema

namespace Mergepay.Idempotency

open Concurrency

inductive ReservationStatus
  | inProgress
  | completed
  | failed
  deriving DecidableEq

-- The row of the table that belongs to a certain user, scope and key. Its owner is the reservation that
-- it stems from. This is not a column, because the code does not keep track of it.
structure KeyRow where
  requestHash  : String
  status       : ReservationStatus := .inProgress
  statusCode   : Option Nat := none
  responseJson : Option String := none
  expiresAt    : Time
  updatedAt    : Time
  owner        : Nat
  deriving DecidableEq

-- Bodies are identified with the JSON text that they are stored as.
structure Response where
  statusCode : Nat
  body       : String
  deriving DecidableEq

-- Besides the row there is a record of what has happened: how many reservations have been made, which
-- of them have had their outcome recorded, and which have committed their operation with what result.
structure KeyStore where
  now      : Time := 0
  row      : Option KeyRow := none
  attempts : Nat := 0
  recorded : List Nat := []
  commits  : List (Nat × String) := []
  deriving DecidableEq

-- The columns that are written along with the outcome of a reservation.
structure Recording where
  status       : ReservationStatus
  statusCode   : Option Nat
  responseJson : Option String
  expiresAt    : Option Time := none
  deriving DecidableEq

-- Reservations are numbered in the order in which they are made.
inductive KeyAction
  | now
  | find
  | create (requestHash : String) (expiresAt : Time)
  | reclaim (requestHash : String) (staleBefore expiresAt : Time) (clearsStatusCode : Bool)
  | handle (attempt : Nat)
  | operate (attempt : Nat)
  | commit (attempt : Nat) (result : String)
  | update (attempt : Nat) (data : Recording)
  | deleteExpired (t : Time)
  | respond (requestHash : String) (outcome : Except Failure Response)
  deriving DecidableEq

abbrev KeyAction.Answer : KeyAction → Type
  | now             => Time
  | find            => Option KeyRow
  | create _ _      => Nat
  | reclaim _ _ _ _ => Option Nat
  | handle _        => Response
  | operate _       => String
  | commit _ _ | update _ _ | deleteExpired _ | respond _ _ => Unit

abbrev KeyTx (α : Type) :=
  Prog KeyAction KeyAction.Answer Failure α

-- The settings of the two mechanisms, and the name of the header that they read.
structure KeyConfig where
  header            : String
  inProgressTimeout : Time
  ttl               : Time
  clearsStatusCode  : Bool

variable (D : KeyConfig)

def idempotencyConflict : Failure :=
  .conflict "idempotency_conflict" (D.header ++ " already used with a different request")

def idempotencyInProgress : Failure :=
  .conflict "idempotency_in_progress" <|
    "A request with this " ++ D.header ++ " is still being processed. Retry shortly."

def KeyRow.isAbandoned (row : KeyRow) (now : Time) : Bool :=
  now - row.updatedAt > D.inProgressTimeout

def KeyRow.response (row : KeyRow) : Response :=
  ⟨row.statusCode.getD 200, row.responseJson.getD "null"⟩

inductive Reserved
  | own (attempt : Nat)
  | replay (response : Response)

-- What becomes of a request that has lost the race for a key to another one.
def resolve (requestHash : String) (winner : KeyRow) : Except Failure Reserved :=
  if winner.requestHash ≠ requestHash then .error (idempotencyConflict D)
  else if winner.status = .completed then .ok (.replay winner.response)
  else .error (idempotencyInProgress D)

def resolveWinner (requestHash : String) (missing : Failure) : KeyTx Reserved := do
  let some winner ← Prog.perform KeyAction.find | throw missing
  Prog.ofExcept (resolve D requestHash winner)

-- Claims a row that has failed or has been abandoned, unless another request does so first.
def reclaim (requestHash : String) : KeyTx Reserved := do
  let staleFrom ← Prog.perform .now
  let now ← Prog.perform .now
  let claimed ← Prog.perform <| KeyAction.reclaim requestHash (staleFrom - D.inProgressTimeout) (now + D.ttl)
    D.clearsStatusCode
  match claimed with
  | some attempt => return .own attempt
  | none         => resolveWinner D requestHash (idempotencyInProgress D)

def reserveNew (requestHash : String) : KeyTx Reserved := do
  let now ← Prog.perform .now
  match ← (Prog.perform (.create requestHash (now + D.ttl))).attempt with
  | .ok attempt => return .own attempt
  | .error e    =>
    if e ≠ World.uniqueViolation then
      throw e
    resolveWinner D requestHash e

def checkProgress (requestHash : String) (existing : KeyRow) (now : Time) : Except Failure Unit :=
  if existing.requestHash ≠ requestHash then .error (idempotencyConflict D)
  else if existing.status = .inProgress ∧ ¬existing.isAbandoned D now then
    .error (idempotencyInProgress D)
  else .ok ()

-- Reserves a key, or resolves it against an existing reservation. The two mechanisms share this logic.
-- Reading the clock ahead of a check that does not need it makes no difference.
def reserve (requestHash : String) : KeyTx Reserved := do
  match ← Prog.perform KeyAction.find with
  | none          => reserveNew D requestHash
  | some existing =>
    if existing.requestHash = requestHash ∧ existing.status = .completed then
      return .replay existing.response
    let now ← Prog.perform .now
    Prog.ofExcept (checkProgress D requestHash existing now)
    reclaim D requestHash

-- The plugin for the header `X-Idempotency-Key`

def isSuccess (statusCode : Nat) : Bool :=
  200 ≤ statusCode ∧ statusCode < 300

-- Only successful responses are kept.
def recordingOf (response : Response) (expiresAt : Time) : Recording :=
  if isSuccess response.statusCode then
    ⟨.completed, response.statusCode, response.body, expiresAt⟩
  else
    ⟨.failed, none, none, none⟩

def record (attempt : Nat) (response : Response) : KeyTx Unit := do
  let now ← Prog.perform .now
  Prog.perform <| KeyAction.update attempt (recordingOf response (now + D.ttl))

-- A request whose header carries the key. The response of the handler is recorded before it is sent,
-- and errors of the handler are responses, too. A recording that fails is ignored.
def idempotentRequest (requestHash : String) : KeyTx Unit :=
  (reserve D requestHash).attempt.bind fun
  | .error e             => Prog.perform <| KeyAction.respond requestHash (.error e)
  | .ok (.replay stored) => Prog.perform <| KeyAction.respond requestHash (.ok stored)
  | .ok (.own attempt)   => (Prog.perform (.handle attempt)).bind fun response =>
    (record D attempt response).swallow.bind fun _ =>
      Prog.perform <| KeyAction.respond requestHash (.ok response)

def cleanupExpiredIdempotencyKeys : KeyTx Unit := do
  let now ← Prog.perform .now
  Prog.perform (KeyAction.deleteExpired now)

-- The service for the header `Idempotency-Key`

-- The transaction of the operation, and the mark for the key, which is made afterwards.
def operate (attempt : Nat) : KeyTx Response := do
  let result ← Prog.perform (.operate attempt)
  Prog.perform (KeyAction.commit attempt result)
  Prog.perform (KeyAction.update attempt ⟨.completed, some 200, some result, none⟩)
  return ⟨200, result⟩

-- All errors mark the key as failed, no matter which statement has raised them.
def finalize (attempt : Nat) : KeyTx Response :=
  (operate attempt).attempt.bind fun
  | .ok response => .done response
  | .error e     =>
    (Prog.perform (KeyAction.update attempt ⟨.failed, none, none, none⟩)).swallow.bind fun _ => .fail e

def runIdempotent (requestHash : String) : KeyTx Response :=
  (reserve D requestHash).bind fun
  | .own attempt     => finalize attempt
  | .replay response => .done response

-- What a call returns is made visible.
def serviceRequest (requestHash : String) : KeyTx Unit :=
  (runIdempotent D requestHash).bind fun response =>
    Prog.perform <| KeyAction.respond requestHash (.ok response)

-- The semantics of the actions

-- A statement may fail, in which case it has taken effect or not. The same holds for the commit of an
-- operation. What the operations and the handlers answer is arbitrary.
inductive KeyChoice
  | plain
  | failed
  | lost
  | raised (e : Failure)
  | returned (result : String)
  | sent (response : Response)
  deriving DecidableEq

namespace KeyStore

variable (s : KeyStore)

def reserved (row : KeyRow) : KeyStore :=
  { s with row := some { row with owner := s.attempts, updatedAt := s.now }, attempts := s.attempts + 1 }

def created (requestHash : String) (expiresAt : Time) : KeyStore :=
  s.reserved { requestHash, expiresAt, updatedAt := s.now, owner := s.attempts }

def reclaimable (requestHash : String) (staleBefore : Time) (row : KeyRow) : Bool :=
  row.requestHash = requestHash ∧
    (row.status = .failed ∨ row.status = .inProgress ∧ row.updatedAt < staleBefore)

def reclaimed (row : KeyRow) (expiresAt : Time) (clearsStatusCode : Bool) : KeyStore :=
  s.reserved { row with
    status       := .inProgress
    statusCode   := if clearsStatusCode then none else row.statusCode
    responseJson := none
    expiresAt
  }

def updated (attempt : Nat) (row : KeyRow) (data : Recording) : KeyStore :=
  { s with
    row := some { row with
      status       := data.status
      statusCode   := data.statusCode
      responseJson := data.responseJson
      expiresAt    := data.expiresAt.getD row.expiresAt
      updatedAt    := s.now
    }
    recorded := s.recorded ++ [attempt]
  }

end KeyStore

-- The statements: their answers, and what they leave behind unless they fail.
def keyStatement (s : KeyStore) : (a : KeyAction) → Option (Except Failure a.Answer × KeyStore)
  | .find => some (.ok s.row, s)
  | .create requestHash expiresAt => some <| match s.row with
    | some _ => (.error World.uniqueViolation, s)
    | none   => (.ok s.attempts, s.created requestHash expiresAt)
  | .reclaim requestHash staleBefore expiresAt clears => some <|
    match s.row.filter (KeyStore.reclaimable requestHash staleBefore) with
    | none     => (.ok none, s)
    | some row => (.ok (some s.attempts), s.reclaimed row expiresAt clears)
  | .update attempt data => some <| match s.row with
    | none     => (.error World.recordNotFound, s)
    | some row => (.ok (), s.updated attempt row data)
  | .deleteExpired t => some (.ok (), { s with row := s.row.filter fun row => ¬row.expiresAt < t })
  | .commit attempt result => some (.ok (), { s with commits := s.commits ++ [(attempt, result)] })
  | .now | .handle _ | .operate _ | .respond _ _ => none

def keyExec (a : KeyAction) (x : KeyChoice) (s : KeyStore) :
    Option (Except Failure a.Answer × KeyStore) :=
  match a, x with
  | .now, .plain               => some (.ok s.now, s)
  | .respond _ _, .plain       => some (.ok (), s)
  | .handle _, .sent response  => some (.ok response, s)
  | .operate _, .returned text => some (.ok text, s)
  | .operate _, .raised e      => some (.error e, s)
  | a, .plain                  => keyStatement s a
  | a, .failed                 => (keyStatement s a).map fun _ => (.error World.connectionClosed, s)
  | a, .lost                   => (keyStatement s a).map fun (_, s') =>
    (.error World.connectionClosed, s')
  | _, _                       => none

def keyEnv (t : Time) (s : KeyStore) : Option KeyStore :=
  if s.now ≤ t then some { s with now := t } else none

abbrev KeyConfiguration :=
  Config KeyStore KeyAction KeyAction.Answer Failure

def keySystem {ι : Type} (entry : ι → KeyTx Unit) :
    System KeyStore KeyAction KeyAction.Answer Failure KeyChoice Time ι where
  exec  := keyExec
  env   := keyEnv
  entry := entry

inductive HttpRequest
  | request (requestHash : String)
  | cleanup
  deriving DecidableEq

def httpRequest : HttpRequest → KeyTx Unit
  | .request requestHash => idempotentRequest D requestHash
  | .cleanup             => cleanupExpiredIdempotencyKeys

end Mergepay.Idempotency
