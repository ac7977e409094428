import Mathlib.Data.List.Sort
import Mergepay.Concurrency.System
import Mergepay.Money.Asset
import Mergepay.Schema
import Mergepay.Settlement.Machine

namespace Mergepay

-- The configuration and the functions of the Stellar SDK on which the settlement code depends.
structure Deps extends Money.Registry where
  hashOf                        : String → String
  recordOf                      : String → TransactionRecord
  -- Checks a signed envelope against the columns of a settlement and the two account keys.
  validateSignedXdr             : String → Settlement → String → String → Time → Except Failure Unit
  safeFailureMessage            : Failure → String
  classifySettlementFailure     : String → SettlementFailureCategory
  settlementMaxAttempts         : Nat
  confirmPollMaxAttempts        : Nat
  workerBatchSize               : Nat
  workerLeaseTimeoutMs          : Time
  pendingSettlementMaxAgeMs     : Time
  reconciliationIntervalMs      : Time
  reconciliationTimeoutMs       : Time
  confirmationThreshold         : Nat

-- Why an account cannot pay for a settlement.
inductive Preflight.Reason
  | accountNotFound
  | missingTrustline
  | insufficientAssetBalance
  | insufficientFeeBalance
  | upstreamUnavailable
  deriving DecidableEq

-- Why a settlement is moved by the state machine. The reasons are not stored. They tell apart the
-- call sites, and carry what the caller knew when it made its decision.
inductive JobReason
  | pickedUp
  | budgetExhausted
  | noEnvelope
  | windowExpired
  | preflight (reason : Preflight.Reason)
  | submitted
  | polledSuccess
  | polledFailure
  | unobserved
  | alreadyApplied
  | appliedFailure
  | permanentFailure (e : Failure)
  | retriesExhausted
  deriving DecidableEq

inductive ReconciliationReason
  | verified
  | verificationFailed (e : Failure)
  | ledgerFailure
  | pendingLimit (since : Option Time)
  | exhausted
  deriving DecidableEq

-- The worker's job works on a copy of the envelope that was read when it was selected, and
-- reconciliation on a copy of the recorded hash.
inductive Caller
  | job (transactionXdr : Option String) (reason : JobReason)
  | reconciliation (hash : String) (reason : ReconciliationReason)
  | confirmRoute (hash : String) (successful : Bool)
  deriving DecidableEq

structure Transition where
  settlementId : String
  nextStatus   : SettlementStatus
  extraData    : Patch := {}
  caller       : Caller
  -- The share which is marked as settled in the same transaction.
  settledShare : Option String := none
  now          : Time
  deriving DecidableEq

namespace Transition

variable (t : Transition)

def applies (s : Settlement) : Bool :=
  s.id = t.settlementId ∧ s.status ∈ t.nextStatus.allowedFromStatuses

theorem applies_iff {s : Settlement} :
    t.applies s = true ↔ s.id = t.settlementId ∧ s.status ∈ t.nextStatus.allowedFromStatuses := by
  simp [applies]

def data : Patch := { t.extraData with
  submittedAt := if t.nextStatus = .submitted then some (some t.now) else t.extraData.submittedAt
  confirmedAt := if t.nextStatus = .confirmed then some (some t.now) else t.extraData.confirmedAt
  status      := some t.nextStatus
}

end Transition

-- All other updates of the settlement table.
inductive Write
  | claimSettlement (id : String) (retryCount : Nat) (workerId : String) (now deadline : Time)
  | claimPendingConfirmation (id : String) (retryCount : Nat) (workerId : String) (now deadline : Time)
  | claimSettlementForSync (id : String) (hash : Option String) (workerId : String)
      (now deadline : Time)
  | release (id workerId : String)
  | recoverStale (now : Time)
  | recordAttemptStarted (id : String) (attempt : Nat) (deadline : Time)
  | scheduleRetry (id : String) (attempt : Nat) (category : JobFailureCategory) (reason : String)
      (nextAttemptAt leaseExpiresAt : Time)
  -- The machine's shortcut for a settlement which already has the requested status.
  | refresh (id : String) (extraData : Patch) (caller : Caller)
  -- The conditional update of the two routes that accept a signed envelope. Only the confirm route
  -- resets the failure category.
  | sign (id signedXdr : String) (now : Time) (resetCategory : Bool)
  -- Unconditional, and also sets the status if the caller's copy was in review.
  | keepPending (id : String) (retryCount : Nat) (inReview : Bool)
  -- Unconditional. The caller has decided on the basis of its copy of the recorded hash.
  | writeStatus (id : String) (hash : Option String) (status : SettlementStatus) (details : Patch)
  | expireIntent (id : String)
  deriving DecidableEq

namespace Write

def eligible (t : Option Time) (now : Time) : Bool :=
  match t with
  | none   => true
  | some t => t ≤ now

def submittableStatuses  : List SettlementStatus := [.submitted, .verifying]
def reconcilableStatuses : List SettlementStatus := [.pendingConfirmation, .needsReview]
def syncableStatuses     : List SettlementStatus := [.verifying]

def applies : Write → Settlement → Bool
  | claimSettlement id retryCount _ now _, s =>
    s.id = id ∧ s.status ∈ submittableStatuses ∧ s.retryCount = retryCount ∧
    eligible s.nextAttemptAt now ∧ eligible s.leaseExpiresAt now
  | claimPendingConfirmation id retryCount _ now _, s =>
    s.id = id ∧ s.status ∈ reconcilableStatuses ∧ s.retryCount = retryCount ∧
    eligible s.leaseExpiresAt now
  | claimSettlementForSync id hash _ now _, s =>
    s.id = id ∧ s.status ∈ syncableStatuses ∧ s.stellarTxHash = hash ∧ eligible s.leaseExpiresAt now
  | release id workerId, s =>
    s.id = id ∧ s.claimedBy = some workerId
  | recoverStale now, s =>
    s.status ∈ submittableStatuses ++ reconcilableStatuses ∧ s.leaseExpiresAt.any (· < now)
  | sign id _ _ _, s =>
    s.id = id ∧ s.status ∈ [.pending, .failed]
  | expireIntent id, s =>
    s.id = id ∧ s.status = .intentPending
  | recordAttemptStarted id _ _, s | scheduleRetry id _ _ _ _ _, s | refresh id _ _, s
  | keepPending id _ _, s | writeStatus id _ _ _, s =>
    s.id = id

theorem sign_applies_iff {s : Settlement} :
    (sign i xdr now b).applies s = true ↔ s.id = i ∧ (s.status = .pending ∨ s.status = .failed) := by
  simp [applies]

theorem keepPending_applies_iff {s : Settlement} : (keepPending i n b).applies s = true ↔ s.id = i := by
  simp [applies]

theorem writeStatus_applies_iff {s : Settlement} :
    (writeStatus i k status d).applies s = true ↔ s.id = i := by
  simp [applies]

theorem refresh_applies_iff {s : Settlement} : (refresh i d caller).applies s = true ↔ s.id = i := by
  simp [applies]

theorem expireIntent_applies_iff {s : Settlement} :
    (expireIntent i).applies s = true ↔ s.id = i ∧ s.status = .intentPending := by
  simp [applies]

def data : Write → Patch
  | claimSettlement _ _ workerId now deadline | claimPendingConfirmation _ _ workerId now deadline
  | claimSettlementForSync _ _ workerId now deadline => {
      claimedBy      := some workerId
      claimedAt      := some now
      leaseExpiresAt := some deadline
    }
  | release _ _ | recoverStale _ => {
      claimedBy      := some none
      claimedAt      := some none
      leaseExpiresAt := some none
    }
  | recordAttemptStarted _ attempt deadline => {
      retryCount     := attempt
      nextAttemptAt  := some none
      leaseExpiresAt := some deadline
    }
  | scheduleRetry _ attempt category reason nextAttemptAt leaseExpiresAt => {
      retryCount     := attempt
      nextAttemptAt  := some nextAttemptAt
      errorCategory  := some category
      failureReason  := some reason
      leaseExpiresAt := some leaseExpiresAt
    }
  | refresh _ extraData _ => extraData
  | sign _ signedXdr now resetCategory => {
      transactionXdr  := some signedXdr
      status          := some .submitted
      submittedAt     := some now
      retryCount      := some 0
      failureReason   := some none
      failureCategory := if resetCategory then some none else none
    }
  | keepPending _ retryCount inReview => {
      retryCount := retryCount
      status     := if inReview then some .pendingConfirmation else none
    }
  | writeStatus _ _ status details => { details with status := some status }
  | expireIntent _ => { status := some .intentExpired }

-- Updates of a single row that raise if the row does not exist.
def requiresRow : Write → Bool
  | recordAttemptStarted .. | scheduleRetry .. | refresh .. | keepPending .. | writeStatus .. => true
  | _ => false

end Write

-- The selections of the background jobs.
inductive Query
  | submittable (now : Time)
  | reconcilable (now : Time)
  | staleVerifying (now cutoff : Time)
  | pendingRecords (cutoff : Time)
  | staleIntents (cutoff : Time)
  deriving DecidableEq

namespace Query

open Write

def selects : Query → Settlement → Bool
  | submittable now, s =>
    s.status ∈ submittableStatuses ∧ s.transactionXdr.isSome ∧
    eligible s.nextAttemptAt now ∧ eligible s.leaseExpiresAt now
  | reconcilable now, s =>
    s.status ∈ reconcilableStatuses ∧ s.stellarTxHash.isSome ∧ eligible s.leaseExpiresAt now
  | staleVerifying now cutoff, s =>
    s.status ∈ syncableStatuses ∧ s.stellarTxHash.isSome ∧ s.updatedAt < cutoff ∧
    eligible s.leaseExpiresAt now
  | pendingRecords cutoff, s =>
    s.status ∈ [SettlementStatus.pending, .submitted] ∧ s.updatedAt < cutoff ∧ s.stellarTxHash.isSome
  | staleIntents cutoff, s =>
    s.status = .intentPending ∧ s.createdAt < cutoff

-- Rows without a next attempt come last.
def before : Query → Settlement → Settlement → Bool
  | submittable _, s₁, s₂ => match s₁.nextAttemptAt, s₂.nextAttemptAt with
    | some t₁, some t₂ => t₁ < t₂ ∨ t₁ = t₂ ∧ s₁.createdAt ≤ s₂.createdAt
    | some _, none     => true
    | none, some _     => false
    | none, none       => s₁.createdAt ≤ s₂.createdAt
  | staleIntents _, s₁, s₂ => s₁.createdAt ≤ s₂.createdAt
  | _, s₁, s₂ => s₁.updatedAt ≤ s₂.updatedAt

def limit (batchSize : Nat) : Query → Option Nat
  | pendingRecords _ => none
  | _                => some batchSize

def run (q : Query) (batchSize : Nat) (settlements : List Settlement) : List Settlement :=
  let rows := (settlements.filter q.selects).insertionSort (q.before · ·)
  match q.limit batchSize with
  | none   => rows
  | some n => rows.take n

end Query

structure AccountSnapshot where
  exist    : Bool
  balances : List (String × Option String × String)
  signers  : Nat
  deriving DecidableEq

-- What a transaction has read before it inserts a freeform settlement.
structure LimitReads where
  expenses    : List ExpenseWithShares
  settlements : List Settlement
  deriving DecidableEq

-- The atomic interactions with the world. The statements of a database transaction are separate
-- actions as long as they only read, and its writes take effect together in a single action.
inductive Act
  | clock
  | shortCode
  -- Reserves an idempotency key, or not if the request has to be answered from the reservation.
  | reserve (scope key : String)
  | retryDelay (attempt : Nat)
  | findExpense (id : String)
  | findShare (id : String)
  | findMembership (groupId userId : String)
  | findGroup (groupId : String)
  | publicKey (userId : String)
  | findSettlement (id : String)
  | findDuplicate (expenseShareId idempotencyKey : String)
  | findSettlements (q : Query)
  | limitExpenses (groupId fromUserId toUserId : String)
  | limitSettlements (groupId fromUserId toUserId : String)
  | countOutstanding (expenseId : String)
  | createExpense (expense : Expense) (shares : List (String × Int))
  | deleteExpense (id : String)
  | createLinked (settlement : Settlement) (overridden : Bool)
  | createFreeform (settlement : Settlement) (reads : LimitReads)
  | transition (t : Transition)
  | update (write : Write)
  | settleShare (id : String)
  | loadAccount (publicKey : String)
  -- The settlement on whose behalf an envelope is submitted is not part of the call.
  | submit (id xdr : String)
  | getTransaction (hash : String)
  | getTransactionFromHorizon (hash : String)
  | getTransactionPayments (hash : String)

abbrev Act.Res : Act → Type
  | clock                       => Time
  | shortCode                   => String
  | reserve _ _                 => Bool
  | retryDelay _                => Time
  | findExpense _               => Option ExpenseWithShares
  | findShare _                 => Option ExpenseShare
  | findMembership _ _          => Option GroupMember
  | findGroup _                 => Option Group
  | publicKey _                 => String
  | findSettlement _            => Option Settlement
  | findDuplicate _ _           => Option Settlement
  | findSettlements _           => List Settlement
  | limitExpenses _ _ _         => List ExpenseWithShares
  | limitSettlements _ _ _      => List Settlement
  | countOutstanding _          => Nat
  | createExpense _ _           => Unit
  | deleteExpense _             => Unit
  | createLinked _ _            => Unit
  | createFreeform _ _          => Unit
  | transition _                => Nat
  | update _                    => Nat
  | settleShare _               => Unit
  | loadAccount _               => AccountSnapshot
  | submit _ _                  => String
  | getTransaction _            => Option Bool
  | getTransactionFromHorizon _ => Option LedgerTransaction
  | getTransactionPayments _    => List PaymentOperation

-- How the surroundings answer an action. A call may fail without any effect, and the answer of a
-- call that did take effect may be lost.
inductive Choice
  | ok
  | fails (e : Failure)
  | lost (e : Failure)
  -- Fresh identifiers for inserted rows, or a random text.
  | texts (l : List String)
  | time (t : Time)
  | reserved (b : Bool)
  | account (a : AccountSnapshot)
  -- The envelope is applied by the ledger, successfully or not, and the answer may be an error.
  | applied (successful : Bool) (answer : Option Failure)
  -- Horizon does not yet know the transaction.
  | unseen

inductive Event
  | tick (t : Time)
  | join (m : GroupMember)
  | leave (groupId userId : String)
  -- An envelope is applied independently of any call.
  | apply (xdr : String) (successful : Bool)

end Mergepay
