import Mergepay.Withdrawals.Transition

namespace Mergepay.Anchors

open Concurrency Money Withdrawals

inductive Sep24TransactionStatus
  | incomplete
  | pendingUserTransferStart
  | pendingUser
  | pendingTransactionInfoUpdate
  | pendingReceiver
  | pendingSender
  | pendingStellar
  | pendingTrust
  | pendingAnchor
  | completed
  | error
  | refunded
  | expired
  | noMarket
  | tooSmall
  | tooLarge
  deriving DecidableEq

namespace Sep24TransactionStatus

def name : Sep24TransactionStatus → String
  | incomplete                   => "incomplete"
  | pendingUserTransferStart     => "pending_user_transfer_start"
  | pendingUser                  => "pending_user"
  | pendingTransactionInfoUpdate => "pending_transaction_info_update"
  | pendingReceiver              => "pending_receiver"
  | pendingSender                => "pending_sender"
  | pendingStellar               => "pending_stellar"
  | pendingTrust                 => "pending_trust"
  | pendingAnchor                => "pending_anchor"
  | completed                    => "completed"
  | error                        => "error"
  | refunded                     => "refunded"
  | expired                      => "expired"
  | noMarket                     => "no_market"
  | tooSmall                     => "too_small"
  | tooLarge                     => "too_large"

def all : List Sep24TransactionStatus := [
  incomplete, pendingUserTransferStart, pendingUser, pendingTransactionInfoUpdate, pendingReceiver,
  pendingSender, pendingStellar, pendingTrust, pendingAnchor, completed, error, refunded, expired,
  noMarket, tooSmall, tooLarge
]

-- The status with a certain name, if there is one.
def known (text : String) : Option Sep24TransactionStatus :=
  all.find? (·.name = text)

def terminalStatuses : List Sep24TransactionStatus :=
  [completed, error, refunded, expired, noMarket, tooSmall, tooLarge]

def isTerminal (status : Sep24TransactionStatus) : Bool :=
  status ∈ terminalStatuses

def allowedTransitions : Sep24TransactionStatus → List Sep24TransactionStatus
  | incomplete => [
      pendingUserTransferStart, pendingUser, pendingTransactionInfoUpdate, pendingReceiver, pendingSender,
      pendingStellar, pendingTrust, pendingAnchor, error, expired, noMarket, tooSmall, tooLarge
    ]
  | pendingUserTransferStart => [
      pendingUser, pendingTransactionInfoUpdate, pendingReceiver, pendingSender, pendingStellar,
      pendingTrust, pendingAnchor, error, refunded, completed, expired, noMarket, tooSmall, tooLarge
    ]
  | pendingUser => [
      pendingTransactionInfoUpdate, pendingReceiver, pendingSender, pendingStellar, pendingTrust,
      pendingAnchor, error, refunded, completed, expired, noMarket, tooSmall, tooLarge
    ]
  | pendingTransactionInfoUpdate => [
      pendingUser, pendingReceiver, pendingSender, pendingStellar, pendingTrust, pendingAnchor, error,
      refunded, completed, expired, noMarket, tooSmall, tooLarge
    ]
  | pendingReceiver => [
      pendingUser, pendingTransactionInfoUpdate, pendingSender, pendingStellar, pendingTrust, pendingAnchor,
      error, refunded, completed, expired, noMarket, tooSmall, tooLarge
    ]
  | pendingSender => [
      pendingUser, pendingTransactionInfoUpdate, pendingReceiver, pendingStellar, pendingTrust,
      pendingAnchor, error, refunded, completed, expired, noMarket, tooSmall, tooLarge
    ]
  | pendingStellar => [
      pendingUser, pendingTransactionInfoUpdate, pendingReceiver, pendingSender, pendingTrust,
      pendingAnchor, error, refunded, completed, expired, noMarket, tooSmall, tooLarge
    ]
  | pendingTrust => [
      pendingUser, pendingTransactionInfoUpdate, pendingReceiver, pendingSender, pendingStellar,
      pendingAnchor, error, refunded, completed, expired, noMarket, tooSmall, tooLarge
    ]
  | pendingAnchor => [
      pendingUser, pendingTransactionInfoUpdate, pendingReceiver, pendingSender, pendingStellar,
      pendingTrust, error, refunded, completed, expired, noMarket, tooSmall, tooLarge
    ]
  | error                                                              => [refunded]
  | completed | refunded | expired | noMarket | tooSmall | tooLarge => []

def canTransition (current target : Sep24TransactionStatus) : Bool :=
  target ∈ current.allowedTransitions

@[simp]
theorem known_name (status : Sep24TransactionStatus) : known status.name = some status := by
  cases status <;> decide

theorem name_of_known {text : String} {status : Sep24TransactionStatus} (h : known text = some status) :
    status.name = text := by
  simpa using List.find?_some h

-- The first state is never entered again.
theorem not_canTransition_incomplete (status : Sep24TransactionStatus) :
    ¬status.canTransition incomplete = true := by
  cases status <;> decide

theorem ne_of_canTransition {current target : Sep24TransactionStatus}
    (h : current.canTransition target = true) : target ≠ current := by
  rintro rfl
  revert h
  cases target <;> decide

-- From a terminal state, at most a refund is possible.
theorem canTransition_of_terminal {current target : Sep24TransactionStatus}
    (hc : current.isTerminal = true) (h : current.canTransition target = true) :
    current = error ∧ target = refunded := by
  revert hc h
  cases current <;> cases target <;> decide

-- Once a transfer is in progress, every outcome that is reported may be recorded.
theorem canTransition_terminal {current target : Sep24TransactionStatus} (hi : current ≠ incomplete)
    (hc : current.isTerminal = false) (ht : target.isTerminal = true) :
    current.canTransition target = true := by
  revert hi hc ht
  cases current <;> cases target <;> decide

end Sep24TransactionStatus

section

open Sep24TransactionStatus

-- The names by which older anchors report that a transfer is being processed. They are looked up in an
-- object, so that two more names are found, although they do not stand for a status.
def legacyStatus (normalized : String) : Option String :=
  if normalized ∈ ["pending_user_transfer_complete", "pending_external"] then some "pending_anchor"
  else if normalized = "constructor" then some "function Object() \x7b [native code] \x7d"
  else if normalized = "__proto__" then some "[object Object]"
  else none

-- The status that a poll has reported, unless it is unrecognized.
def resolveSep24Status (raw : String) : Option String :=
  let normalized := toLowerCase (trimmed raw)
  if normalized ∈ sep24TransactionStatuses then some normalized else legacyStatus normalized

-- The status that a callback has reported. There is only one way to fail.
def toSessionStatus (rawStatus : String) : String :=
  let mapped := mapAnchorStatus rawStatus
  if mapped ∈ ["error", "expired", "no_market", "too_small", "too_large"] then "error" else mapped

theorem mem_sep24TransactionStatuses {text : String} :
    text ∈ sep24TransactionStatuses ↔ ∃ status, known text = some status := by
  constructor
  case mp =>
    intro h
    simp only [sep24TransactionStatuses, List.mem_cons, List.not_mem_nil, or_false] at h
    rcases h with rfl | rfl | rfl | rfl | rfl | rfl | rfl | rfl | rfl | rfl | rfl | rfl | rfl | rfl | rfl | rfl
    all_goals exact Option.isSome_iff_exists.mp (by decide)
  case mpr =>
    rintro ⟨status, h⟩
    rw [← name_of_known h]
    cases status <;> decide

end

inductive AnchorTransitionSource
  | user
  | webhook
  | poll
  deriving DecidableEq

def AnchorTransitionSource.actor : AnchorTransitionSource → AuditActor
  | user    => .user
  | poll    => .worker
  | webhook => .system

inductive AuditOutcome
  | success
  | failure
  deriving DecidableEq

-- The tables

structure AnchorSession where
  id                    : String
  userId                : String
  kind                  : String
  assetCode             : String
  interactiveUrl        : Option String := none
  externalTransactionId : Option String := none
  anchorToken           : Option String := none
  status                : Sep24TransactionStatus := .incomplete
  failureReason         : Option String := none
  errorCategory         : Option JobFailureCategory := none
  retryCount            : Nat := 0
  lastPolledAt          : Option Time := none
  claimedBy             : Option String := none
  claimedAt             : Option Time := none
  leaseExpiresAt        : Option Time := none
  nextAttemptAt         : Option Time := none
  deriving DecidableEq

-- The columns that are set by an update, apart from the status.
structure SessionData where
  interactiveUrl        : Option String := none
  externalTransactionId : Option String := none
  anchorToken           : Option String := none
  failureReason         : Option (Option String) := none
  errorCategory         : Option (Option JobFailureCategory) := none
  retryCount            : Option Nat := none
  lastPolledAt          : Option Time := none
  nextAttemptAt         : Option (Option Time) := none
  deriving DecidableEq

namespace AnchorSession

variable (session : AnchorSession)

def set (data : SessionData) : AnchorSession := { session with
  interactiveUrl        := data.interactiveUrl <|> session.interactiveUrl
  externalTransactionId := data.externalTransactionId <|> session.externalTransactionId
  anchorToken           := data.anchorToken <|> session.anchorToken
  failureReason         := data.failureReason.getD session.failureReason
  errorCategory         := data.errorCategory.getD session.errorCategory
  retryCount            := data.retryCount.getD session.retryCount
  lastPolledAt          := data.lastPolledAt <|> session.lastPolledAt
  nextAttemptAt         := data.nextAttemptAt.getD session.nextAttemptAt
}

def move (target : Sep24TransactionStatus) (data : SessionData) : AnchorSession :=
  { session.set data with status := target }

def claim (worker : String) (now deadline : Time) : AnchorSession := { session with
  claimedBy      := some worker
  claimedAt      := some now
  leaseExpiresAt := some deadline
}

def release : AnchorSession := { session with
  claimedBy      := none
  claimedAt      := none
  leaseExpiresAt := none
}

-- Neither waiting for its next attempt nor claimed by a worker.
def eligible (now : Time) : Bool :=
  session.nextAttemptAt.all (· ≤ now) ∧ session.leaseExpiresAt.all (· ≤ now)

def reconcilable (now : Time) : Bool :=
  ¬session.status.isTerminal ∧ session.externalTransactionId ≠ none ∧
    session.errorCategory ≠ some .permanent ∧ session.eligible now

end AnchorSession

structure StatusHistory where
  entityType : String
  entityId   : String
  status     : Sep24TransactionStatus
  reason     : Option String
  source     : AnchorTransitionSource
  deriving DecidableEq

inductive AnchorMetadata
  | started (kind assetCode : String)
  | transition (from_ to_ : Sep24TransactionStatus) (source : AnchorTransitionSource)
    (rawStatus : Option String)
  | unmatched (rawStatus status : String)
  | applied (rawStatus status : String) (matched updated : Nat)
  | polled (previousStatus : Sep24TransactionStatus) (status rawStatus : String)
  deriving DecidableEq

structure AnchorAudit where
  userId     : Option String := none
  actorType  : Option AuditActor := none
  action     : String
  entityType : String := "anchor_session"
  entityId   : String
  outcome    : Option AuditOutcome := none
  metadata   : AnchorMetadata
  deriving DecidableEq

structure AnchorStore where
  now      : Time := 0
  sessions : List AnchorSession := []
  history  : List StatusHistory := []
  audits   : List AnchorAudit := []
  deriving DecidableEq

-- The statements, and the calls of the anchor

-- The part of an answer of the anchor that is used.
structure Sep24AnchorTransaction where
  status  : String
  message : Option String := none
  deriving DecidableEq

-- Errors have been normalized, and carry a category that decides about retries.
inductive Sep24Fetch
  | transaction (tx : Sep24AnchorTransaction)
  | failure (message : String) (category : JobFailureCategory)
  deriving DecidableEq

inductive AnchorAction
  | now
  | freshId
  | findSession (id : String)
  | findByExternalId (externalTransactionId : String)
  | findReconcilable (now : Time) (limit : Nat)
  | createSession (row : AnchorSession)
  | update (id : String) (data : SessionData)
  | updateFrom (id : String) (current target : Sep24TransactionStatus) (data : SessionData)
  | claim (id : String) (retryCount : Nat) (worker : String) (now deadline : Time)
  | release (id worker : String)
  | recoverLeases (now : Time)
  | createHistory (row : StatusHistory)
  | createAudit (row : AnchorAudit)
  | getToml
  | getChallenge (webAuthEndpoint account : String)
  | getToken (webAuthEndpoint signedXdr : String)
  | startInteractive (transferServer token kind assetCode account : String)
  | fetchSep24Transaction (transferServer token id : String)
  | retryDelay (attempt : Nat)
  deriving DecidableEq

abbrev AnchorAction.Answer : AnchorAction → Type
  | now | retryDelay _                                => Time
  | freshId | getChallenge _ _ | getToken _ _         => String
  | findSession _                                     => Option AnchorSession
  | findByExternalId _ | findReconcilable _ _         => List AnchorSession
  | update _ _                                        => AnchorSession
  | getToml                                           => AnchorToml
  | startInteractive _ _ _ _ _                        => Interactive
  | fetchSep24Transaction _ _ _                       => Sep24Fetch
  | createSession _ | updateFrom _ _ _ _ | claim _ _ _ _ _ | release _ _ | recoverLeases _
  | createHistory _ | createAudit _                   => Unit

inductive AnchorChoice
  | plain
  | lost
  | raised (e : Failure)
  | fresh (id : String)
  | toml (toml : AnchorToml)
  | text (text : String)
  | started (interactive : Interactive)
  | fetched (result : Sep24Fetch)
  | delay (ms : Nat)
  deriving DecidableEq

namespace AnchorStore

variable (s : AnchorStore)

def session (id : String) : Option AnchorSession :=
  Table.row? (·.id) s.sessions id

-- The row that a claim is about, if it may be claimed.
def claimable (id : String) (retryCount : Nat) (now : Time) : Bool :=
  (s.session id).any fun session => session.retryCount = retryCount ∧ session.eligible now

end AnchorStore

def anchorAdmits : AnchorAction → AnchorStore → Bool
  | .createSession row, s        => (s.session row.id).isNone
  | .update id _, s              => (s.session id).isSome
  | .updateFrom id current _ _, s => (s.session id).any (·.status = current)
  | .claim id retryCount _ now _, s => s.claimable id retryCount now
  | _, _                         => true

def anchorEffect : AnchorAction → AnchorStore → AnchorStore
  | .createSession row, s                 => { s with sessions := s.sessions ++ [row] }
  | .update id data, s                    => { s with
    sessions := Table.update (·.id = id) (·.set data) s.sessions }
  | .updateFrom id current target data, s => { s with
    sessions := Table.update (fun r => r.id = id ∧ r.status = current) (·.move target data) s.sessions }
  | .claim id retryCount worker now deadline, s => { s with
    sessions := Table.update (fun r => r.id = id ∧ r.retryCount = retryCount ∧ r.eligible now)
      (·.claim worker now deadline) s.sessions }
  | .release id worker, s                 => { s with
    sessions := Table.update (fun r => r.id = id ∧ r.claimedBy = some worker) (·.release) s.sessions }
  | .recoverLeases now, s                 => { s with
    sessions := Table.update (·.leaseExpiresAt.any (· < now)) (·.release) s.sessions }
  | .createHistory row, s                 => { s with history := s.history ++ [row] }
  | .createAudit row, s                   => { s with audits := s.audits ++ [row] }
  | _, s                                  => s

-- The anchor answers with a token and with the id of a transaction, neither of which is empty.
def anchorAnswer : (a : AnchorAction) → AnchorChoice → AnchorStore → Option (Except Failure a.Answer)
  | _, .lost, _                                 => some (.error World.connectionClosed)
  | .now, .plain, s                             => some (.ok s.now)
  | .freshId, .fresh id, s                      => if (s.session id).isNone then some (.ok id) else none
  | .findSession id, .plain, s                  => some (.ok (s.session id))
  | .findByExternalId externalId, .plain, s     =>
    some (.ok (s.sessions.filter (·.externalTransactionId = some externalId)))
  | .findReconcilable now limit, .plain, s      =>
    some (.ok (((s.sessions.filter (·.reconcilable now)).insertionSort fun a b =>
      -- Sessions that have never been polled come last.
      b.lastPolledAt.all fun t => a.lastPolledAt.any (· ≤ t)).take limit))
  | .createSession row, .plain, s               => some <|
    if (s.session row.id).isNone then .ok () else .error World.uniqueViolation
  | .update id data, .plain, s                  => some <| match s.session id with
    | none         => .error World.recordNotFound
    | some session => .ok (session.set data)
  | .updateFrom id current _ _, .plain, s       => some <|
    if (s.session id).any (·.status = current) then .ok () else .error noneMatched
  | .claim id retryCount _ now _, .plain, s     => some <|
    if s.claimable id retryCount now then .ok () else .error noneMatched
  | .release _ _, .plain, _                     => some (.ok ())
  | .recoverLeases _, .plain, _                 => some (.ok ())
  | .createHistory _, .plain, _                 => some (.ok ())
  | .createAudit _, .plain, _                   => some (.ok ())
  | .getToml, .toml toml, _                     => some (.ok toml)
  | .getToml, .raised e, _                      => some (.error e)
  | .getChallenge _ _, .text challenge, _       => some (.ok challenge)
  | .getChallenge _ _, .raised e, _             => some (.error e)
  | .getToken _ _, .text token, _               => if token ≠ "" then some (.ok token) else none
  | .getToken _ _, .raised e, _                 => some (.error e)
  | .startInteractive _ _ _ _ _, .started r, _  => if r.id ≠ "" then some (.ok r) else none
  | .startInteractive _ _ _ _ _, .raised e, _   => some (.error e)
  | .fetchSep24Transaction _ _ _, .fetched r, _ => some (.ok r)
  | .fetchSep24Transaction _ _ _, .raised e, _  => some (.error e)
  | .retryDelay _, .delay ms, _                 => some (.ok ms)
  | _, _, _                                     => none

def anchorDatabase : Database AnchorStore AnchorAction AnchorAction.Answer Failure AnchorChoice where
  answer := anchorAnswer
  effect := anchorEffect
  admits := anchorAdmits
  commit := fun
    | .plain => some (.ok ())
    | .lost  => some (.error World.connectionClosed)
    | _      => none

def anchorEnv (t : Time) (s : AnchorStore) : Option AnchorStore :=
  if s.now ≤ t then some { s with now := t } else none

abbrev AnchorTx (α : Type) :=
  Prog AnchorAction AnchorAction.Answer Failure α

-- The state transitions

structure TransitionParams where
  sessionId             : String
  nextStatus            : String
  source                : AnchorTransitionSource
  extraData             : Option SessionData := none
  ownerUserId           : Option String := none
  expectedCurrentStatus : Option String := none
  rawStatus             : Option String := none
  reason                : Option String := none
  deriving DecidableEq

structure AnchorSessionUpdateResult where
  session : AnchorSession
  changed : Bool
  deriving DecidableEq

def historyRow (params : TransitionParams) (target : Sep24TransactionStatus) : StatusHistory where
  entityType := "anchor_session"
  entityId   := params.sessionId
  status     := target
  reason     := params.reason
  source     := params.source

def statusChanged (params : TransitionParams) (session : AnchorSession)
    (target : Sep24TransactionStatus) : AnchorAudit where
  userId    := some session.userId
  actorType := some params.source.actor
  action    := "anchor_session.status_changed"
  entityId  := params.sessionId
  metadata  := .transition session.status target params.source params.rawStatus

def findSession (params : TransitionParams) : AnchorTx AnchorSession := do
  let some session ← Prog.perform (AnchorAction.findSession params.sessionId)
    | throw <| .notFound "Anchor session not found"
  if params.ownerUserId.any (· ≠ session.userId) then
    throw <| .forbidden "You do not have access to this anchor session"
  return session

-- The same status is delivered once more.
def keepStatus (params : TransitionParams) (session : AnchorSession) :
    AnchorTx AnchorSessionUpdateResult :=
  match params.extraData with
  | none      => return ⟨session, false⟩
  | some data => do
    let updated ← Prog.perform (AnchorAction.update params.sessionId data)
    return ⟨updated, false⟩

-- The update is guarded by the status that has been read. If it has changed since, nothing happens.
def changeStatus (params : TransitionParams) (session : AnchorSession)
    (target : Sep24TransactionStatus) : AnchorTx AnchorSessionUpdateResult := do
  let id := params.sessionId
  match ← (Prog.perform <| AnchorAction.updateFrom id session.status target
    (params.extraData.getD {})).attempt with
  | .error e =>
    if e ≠ noneMatched then
      throw e
    return ⟨session, false⟩
  | .ok _ =>
    Prog.perform <| AnchorAction.createHistory (historyRow params target)
    Prog.perform <| AnchorAction.createAudit (statusChanged params session target)
    let updated ← Prog.perform (AnchorAction.findSession id)
    return ⟨updated.getD { session with status := target }, true⟩

def applyAnchorSessionTransition (params : TransitionParams) : AnchorTx AnchorSessionUpdateResult := do
  let session ← findSession params
  match Sep24TransactionStatus.known params.nextStatus with
  | none        => return ⟨session, false⟩
  | some target =>
    if target = session.status then
      keepStatus params session
    else if ¬session.status.canTransition target then
      return ⟨session, false⟩
    else if params.expectedCurrentStatus.any (· ≠ session.status.name) then
      return ⟨session, false⟩
    else
      changeStatus params session target

-- A transfer that is in progress.
def sampleSessions : AnchorStore := {
  sessions := [{
    id                    := "session"
    userId                := "alice"
    kind                  := "deposit"
    assetCode             := "USDC"
    externalTransactionId := some "tx"
    anchorToken           := some "jwt"
    status                := .pendingAnchor
  }]
}

end Mergepay.Anchors
