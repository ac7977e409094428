import Mergepay.Settlement.Worker

namespace Mergepay

open Concurrency Money

-- Verification of a transaction that has succeeded

def verifyTransactionMemo (hash expectedMemo : String) : M String := do
  match Memo.parseMemo expectedMemo with
  | .error m => throw <| .badRequest "transaction_verification_failed" <|
      "Expected memo is not a valid Mergepay reference: " ++ m
  | .ok code => match ← act (.getTransactionFromHorizon hash) with
    | none => throw <| .notFound "Transaction not found on Horizon"
    | some tx =>
      if ¬tx.successful then
        throw <| .badRequest "transaction_verification_failed"
          "Transaction was not successful on Stellar"
      match Memo.validatePaymentMemo tx.record.memoType tx.record.memo code with
      | .error m => throw <| .badRequest "transaction_verification_failed" m
      | .ok memo => return memo

-- The expense of a linked settlement must still have a share that is not settled.
def validateMemoAgainstActiveExpense (memo expectedCode expenseId : String) :
    M (Except String Unit) := do
  match Memo.parseMemo memo with
  | .error m => return .error m
  | .ok code =>
    if code ≠ expectedCode then
      return .error <| "Memo code \"" ++ code ++ "\" does not match the expected code \"" ++
        expectedCode ++ "\"."
    match ← act (.findExpense expenseId) with
    | none => return .error <|
        "Expense " ++ expenseId ++ " linked to memo " ++ memo ++ " was not found."
    | some expense =>
      if (← act (.countOutstanding expense.id)) = 0 then
        return .error <| "Expense " ++ expense.id ++ " has no outstanding shares, so memo " ++ memo ++
          " no longer maps to an active expense."
      return .ok ()

def verifyPayment (s : Settlement) (hash : String) : M Unit := do
  match Memo.buildMemo s.shortCode with
  | .error m => throw <| .badRequest "transaction_verification_failed" <|
      "Memo verification failed: " ++ m
  | .ok expectedMemo =>
    let memo ← verifyTransactionMemo hash expectedMemo
    if let some expenseId := s.expenseId then
      if let .error m ← validateMemoAgainstActiveExpense memo s.shortCode expenseId then
        throw <| .badRequest "transaction_verification_failed" <| "Memo verification failed: " ++ m
    let payments ← act (.getTransactionPayments hash)
    let some op := payments.find? (·.type = "payment")
      | throw <| .badRequest "settlement_verification_failed"
          "No payment operation found in transaction"
    let destination ← act (.publicKey s.toUserId)
    lift <| verifyPaymentOperation op destination (columnText s.amount) s.assetCode s.assetIssuer

-- Settlements whose submission has not been observed

section Pending

variable (D : Deps)

def reconciliationMaxRetries : Nat := 10

def handleTransactionNotFound (s : Settlement) (pendingSince : Option Time) (hash : String) :
    M Unit := do
  let nextRetryCount := s.retryCount + 1
  let now ← act .clock
  if pendingSince.any fun t => now - t ≥ D.pendingSettlementMaxAgeMs then
    let _ ← applySettlementTransition {
      settlementId := s.id
      nextStatus   := .expired
      caller       := .reconciliation hash (.pendingLimit pendingSince)
      extraData    := some {
        failureReason := some <| some <| "Transaction " ++ hash ++
          " was not found on Stellar before the pending limit expired"
        retryCount    := some nextRetryCount
      }
    }
  else if nextRetryCount > reconciliationMaxRetries then
    let _ ← applySettlementTransition {
      settlementId := s.id
      nextStatus   := .failed
      caller       := .reconciliation hash .exhausted
      extraData    := some {
        failureReason := some <| some <| "Transaction " ++ hash ++ " not confirmed after " ++
          toString reconciliationMaxRetries ++ " reconciliation attempts"
        retryCount    := some nextRetryCount
      }
    }
  else
    let _ ← act (.update (.keepPending s.id nextRetryCount (s.status = .needsReview)))

def reconcileSingleSettlement (s : Settlement) (pendingSince : Option Time) : M Unit := do
  let some hash := s.stellarTxHash
    | return
  match ← act (.getTransaction hash) with
  | none => handleTransactionNotFound D s pendingSince hash
  | some true => match ← (verifyPayment s hash).attempt with
    | .error e =>
      if isVerificationFailure e then
        let _ ← applySettlementTransition {
          settlementId := s.id
          nextStatus   := .failed
          caller       := .reconciliation hash (.verificationFailed e)
          extraData    := some {
            failureReason := some e.message
            retryCount    := some s.retryCount
          }
        }
      else
        throw e
    | .ok _ =>
      let _ ← applySettlementTransition {
        settlementId       := s.id
        nextStatus         := .confirmed
        caller             := .reconciliation hash .verified
        extraData          := some { retryCount := some 0, failureReason := some none }
        settleExpenseShare := true
      }
  | some false =>
    let _ ← applySettlementTransition {
      settlementId := s.id
      nextStatus   := .failed
      caller       := .reconciliation hash .ledgerFailure
      extraData    := some {
        failureReason := some (ledgerFailureReason hash)
        retryCount    := some s.retryCount
      }
    }

def claimPendingConfirmation (workerId : String) (s : Settlement) : M Bool := do
  let now ← act .clock
  let count ← act <| .update <|
    .claimPendingConfirmation s.id s.retryCount workerId now (now + D.workerLeaseTimeoutMs)
  return count = 1

def reconcilePendingSettlements (workerId : String) : M Unit := do
  let now ← act .clock
  let rows ← act (.findSettlements (.reconcilable now))
  Prog.forEach (fun s => do
    if s.stellarTxHash.isSome then
      if ← claimPendingConfirmation D workerId s then
        Prog.swallow (reconcileSingleSettlement D s (some (s.submittedAt.getD s.createdAt)))
        releaseSettlement workerId s.id) rows

def statusSyncMinAgeMs : Time := 60000

def claimSettlementForSync (workerId : String) (s : Settlement) (now : Time) : M Bool := do
  let count ← act <| .update <|
    .claimSettlementForSync s.id s.stellarTxHash workerId now (now + D.workerLeaseTimeoutMs)
  return count = 1

-- Without a starting time, the settlements checked here never run into the pending limit.
def syncStaleVerifyingSettlements (workerId : String) : M Unit := do
  let now ← act .clock
  match ← (act (.findSettlements (.staleVerifying now (now - statusSyncMinAgeMs)))).attempt with
  | .error _ => return
  | .ok rows => Prog.forEach (fun s => do
      if s.stellarTxHash.isSome then
        if ← claimSettlementForSync D workerId s now then
          Prog.swallow (reconcileSingleSettlement D s none)
          releaseSettlement workerId s.id) rows

end Pending

-- The reconciliation of all transactions, which writes the status column directly

section Records

variable (D : Deps)

def writeStatus (record : Settlement) (status : SettlementStatus) (reason : Option String)
    (retryCount : Option Nat) : M Unit := do
  let retryChanged := retryCount.any (· ≠ record.retryCount)
  let reasonChanged := reason.any (some · ≠ record.failureReason)
  if record.status = status ∧ ¬retryChanged ∧ ¬reasonChanged then
    return
  let _ ← act <| .update <| .writeStatus record.id record.stellarTxHash status
    { retryCount, failureReason := reason.map some }
  if status = .confirmed then
    if let some shareId := record.expenseShareId then
      act (.settleShare shareId)

-- The Stellar service offers no way to retry a transaction, so it is always failed.
def failOrRetry (record : Settlement) (reason : String) : M Unit :=
  writeStatus record .failed (some reason) (some record.retryCount)

def isNotFoundError : Failure → Bool
  | .app status _ _ => status = 404
  | .error name _   => name = "NotFoundError"
  | _               => false

def reconcileRecord (record : Settlement) : M Unit := do
  let some hash := record.stellarTxHash
    | return
  match ← (act (.getTransaction hash)).attempt with
  | .ok (some true)  =>
    if D.confirmationThreshold ≤ 1 then
      writeStatus record .confirmed none none
  | .ok (some false) => failOrRetry record "Stellar rejected the transaction"
  | .ok none         => checkTimeout
  | .error e         => if isNotFoundError e then checkTimeout
where
  checkTimeout : M Unit := do
    let now ← act .clock
    if now - record.createdAt ≥ D.reconciliationTimeoutMs then
      failOrRetry record <| "Transaction was not found on Stellar after " ++
        toString D.reconciliationTimeoutMs ++ "ms"

def runReconciliation : M Unit := do
  let now ← act .clock
  match ← (act (.findSettlements (.pendingRecords (now - D.reconciliationIntervalMs)))).attempt with
  | .error _ => return
  | .ok rows => Prog.forEach (fun record => Prog.swallow (reconcileRecord D record)) rows

def settlementIntentTtlMs : Time := 24 * 60 * 60 * 1000

def expireStaleSettlementIntents : M Unit := do
  let now ← act .clock
  let rows ← act (.findSettlements (.staleIntents (now - settlementIntentTtlMs)))
  Prog.forEach (fun s => do let _ ← act (.update (.expireIntent s.id))) rows

end Records

-- The requests and the background jobs that make up the system.
inductive Entry
  | createExpense (userId groupId : String) (payer : Option String) (assetCode : String)
      (assetIssuer : Option String) (shares : List (String × Int))
  | deleteExpense (userId expenseId : String)
  | settleExpense (userId expenseId : String) (body : SettleExpenseBody) (key : Option String)
  | settleGroup (userId groupId : String) (body : FreeformBody) (key : Option String)
  | confirm (userId id signedXdr key : String)
  | execute (userId id signedXdr key : String)
  | processSubmittedSettlements (workerId : String)
  | recoverStaleSettlements
  | reconcilePendingSettlements (workerId : String)
  | syncStaleVerifyingSettlements (workerId : String)
  | runReconciliation
  | expireStaleSettlementIntents

def Deps.entry (D : Deps) : Entry → M Unit
  | .createExpense u g p c i shares     => createExpense D u g p c i shares
  | .deleteExpense u e                  => deleteExpense u e
  | .settleExpense u e body key         => settleExpense D u e body key
  | .settleGroup u g body key           => settleGroup D u g body key
  | .confirm u i xdr key                => confirm D u i xdr key
  | .execute u i xdr key                => execute D u i xdr key
  | .processSubmittedSettlements n      => processSubmittedSettlements D n
  | .recoverStaleSettlements            => recoverStaleSettlements
  | .reconcilePendingSettlements n      => reconcilePendingSettlements D n
  | .syncStaleVerifyingSettlements n    => syncStaleVerifyingSettlements D n
  | .runReconciliation                  => runReconciliation D
  | .expireStaleSettlementIntents       => expireStaleSettlementIntents

def Deps.system (D : Deps) : System World Act Act.Res Failure Choice Event Entry where
  exec  := D.exec
  env   := D.env
  entry := D.entry

end Mergepay
