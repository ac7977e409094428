import Mergepay.Settlement.Execution
import Mergepay.Settlement.Verification

namespace Mergepay

open Concurrency Money

abbrev M := Prog Act Act.Res Failure

def act (a : Act) : M a.Res :=
  .perform a

def lift : Except Failure α → M α
  | .ok a    => pure a
  | .error e => throw e

def validationError (message : String) : Failure :=
  .app 400 "VALIDATION_ERROR" message

structure TransitionParams where
  settlementId       : String
  nextStatus         : SettlementStatus
  caller             : Caller
  extraData          : Option Patch := none
  ownerUserId        : Option String := none
  settleExpenseShare : Bool := false

-- Returns whether the status was changed.
def applySettlementTransition (p : TransitionParams) : M Bool := do
  let some settlement ← act (.findSettlement p.settlementId)
    | throw <| .notFound "Settlement not found"
  if p.ownerUserId.any (· ≠ settlement.fromUserId) then
    throw <| .forbidden "Only the payer can change this settlement"
  if p.nextStatus = settlement.status then
    if let some extraData := p.extraData then
      let _ ← act (.update (.refresh p.settlementId extraData p.caller))
    return false
  if ¬settlement.status.canTransitionSettlementStatus p.nextStatus then
    throw <| .conflict "invalid_transition" <|
      "Cannot transition settlement from " ++ settlement.status.text ++ " to " ++ p.nextStatus.text
  let now ← act .clock
  let count ← act <| .transition {
    settlementId := p.settlementId
    nextStatus   := p.nextStatus
    extraData    := p.extraData.getD {}
    caller       := p.caller
    settledShare := if p.settleExpenseShare ∧ p.nextStatus = .confirmed
      then settlement.expenseShareId
      else none
    now
  }
  return count ≠ 0

def requireMembership (groupId userId : String) : M GroupMember := do
  let some member ← act (.findMembership groupId userId)
    | match ← act (.findGroup groupId) with
      | none       => throw <| .notFound "Group not found"
      | some group =>
        if group.archived
        then throw <| .forbidden "Group is archived"
        else throw <| .forbidden "You are not a member of this group"
  return member

def requireActiveMembership (groupId userId : String) : M GroupMember := do
  let member ← requireMembership groupId userId
  let group ← act (.findGroup groupId)
  if group.any (·.archived) then
    throw <| .forbidden "Group is archived"
  return member

-- Requests with a key are executed only if they reserve it.
def runIdempotent (scope : String) (key : Option String) (operation : M Unit) : M Unit := do
  match key with
  | none     => operation
  | some key => if ← act (.reserve scope key) then operation

-- The checks of a request body on a pair of asset code and issuer.
def refineStellarAsset (D : Deps) (assetCode : String) (assetIssuer : Option String) : M Unit := do
  match ← lift (D.validateAsset assetCode assetIssuer) with
  | .ok _    => return
  | .error e => throw <| validationError e.message

-- Checks that an account can pay. The envelope that is built afterwards is left to the client.
def buildSettlementXdr (D : Deps) (publicKey assetCode : String) (assetIssuer : Option String)
    (amount : String) : M Unit := do
  refineStellarAsset D assetCode assetIssuer
  match ← (act (.loadAccount publicKey)).attempt with
  | .error _ => throw <| .upstream <|
      "Could not reach the Stellar network to check your balance. Try again shortly."
  | .ok account => match Preflight.evaluatePreflight account assetCode assetIssuer amount with
    | .ok _    => return
    | .error r => throw <| Preflight.toFailure r

-- Expenses

-- How the amount is split does not matter here: the shares may be any list of users and amounts.
def createExpense (D : Deps) (userId groupId : String) (payer : Option String)
    (assetCode : String) (assetIssuer : Option String) (shares : List (String × Int)) : M Unit := do
  let _ ← requireActiveMembership groupId userId
  let _ ← lift (D.validateAssetSpec assetCode assetIssuer)
  let payerUserId := payer.getD userId
  if payerUserId ≠ userId then
    if (← act (.findMembership groupId payerUserId)).isNone then
      throw <| .badRequest "invalid_payer" "Payer must be an active group member"
  Prog.forEach (fun share => do
    if (← act (.findMembership groupId share.1)).isNone then
      throw <| .badRequest "invalid_split"
        "Every split participant must be an active group member") shares
  let _ ← requireActiveMembership groupId userId
  act <| .createExpense { id := "", groupId, payerUserId, assetCode, assetIssuer, createdAt := 0 } shares

def deleteExpense (userId expenseId : String) : M Unit := do
  let some expense ← act (.findExpense expenseId)
    | throw <| .notFound "Expense not found"
  let member ← requireActiveMembership expense.groupId userId
  if expense.payerUserId ≠ userId ∧ member.role ≠ "admin" then
    throw <| .forbidden "Only the payer or an admin can delete this expense"
  if expense.shares.any fun s => s.status = .settled ∧ s.userId ≠ expense.payerUserId then
    throw <| .conflict "expense_settled"
      "Cannot delete an expense that already has settled shares"
  act (.deleteExpense expenseId)

-- Creation of settlements

structure SettleExpenseBody where
  assetCode       : Option String := none
  assetIssuer     : Option String := none
  validitySeconds : Option Nat := none

def SettleExpenseBody.validate (D : Deps) (body : SettleExpenseBody) : M Unit := do
  match body.assetCode with
  | none =>
    if (body.assetIssuer.bind present).isSome then
      throw <| validationError "assetIssuer is only valid together with assetCode"
  | some assetCode => refineStellarAsset D assetCode body.assetIssuer

-- The asset that is paid, which is the asset of the expense unless the request overrides it.
def SettleExpenseBody.asset (body : SettleExpenseBody) (e : Expense) : String × Option String :=
  match body.assetCode with
  | none           => (e.assetCode, e.assetIssuer)
  | some assetCode => (assetCode, body.assetIssuer)

def settleExpense (D : Deps) (userId expenseId : String) (body : SettleExpenseBody)
    (idempotencyKey : Option String) : M Unit := do
  body.validate D
  let some expense ← act (.findExpense expenseId)
    | throw <| .notFound "Expense not found"
  let _ ← requireActiveMembership expense.groupId userId
  if (← act (.findMembership expense.groupId expense.payerUserId)).isNone then
    throw <| .badRequest "invalid_payer" "Expense payer is no longer an active group member"
  let some myShare := expense.shares.find? (·.userId = userId)
    | throw <| .badRequest "no_share" "You have no share in this expense"
  if myShare.status = .settled then
    throw <| .conflict "already_settled" "Your share is already settled"
  if expense.payerUserId = userId then
    throw <| .badRequest "payer_share" "You are the payer of this expense"
  let amount := columnText myShare.shareAmount
  if let .error e := validateAmount amount then
    throw <| validationError e.message
  let (assetCode, assetIssuer) := body.asset expense.toExpense
  runIdempotent "settlement.create" idempotencyKey do
    let freshShare ← act (.findShare myShare.id)
    if freshShare.all (·.status = .settled) then
      throw <| .conflict "already_settled" "Your share is already settled"
    let existing ← match idempotencyKey with
      | none     => pure none
      | some key => act (.findDuplicate myShare.id key)
    if existing.isNone then
      let shortCode ← act .shortCode
      let now ← act .clock
      let publicKey ← act (.publicKey userId)
      buildSettlementXdr D publicKey assetCode assetIssuer amount
      act <| .createLinked {
        id             := ""
        shortCode
        groupId        := expense.groupId
        fromUserId     := userId
        toUserId       := expense.payerUserId
        amount         := myShare.shareAmount
        assetCode, assetIssuer, idempotencyKey
        expenseId      := expense.id
        expenseShareId := some myShare.id
        expiresAt      := some (intentExpiry body.validitySeconds now)
        createdAt      := now
        updatedAt      := now
      } body.assetCode.isSome

structure FreeformBody where
  toUserId        : String
  amount          : String
  assetCode       : String
  assetIssuer     : Option String := none
  validitySeconds : Option Nat := none

def addShareDebt (fromUserId toUserId payerUserId : String) (debt : Int) (s : ExpenseShare) :
    Except Failure Int := do
  if s.status = .settled then
    return debt
  else if payerUserId = toUserId ∧ s.userId = fromUserId then
    return debt + (← columnStroops s.shareAmount)
  else if payerUserId = fromUserId ∧ s.userId = toUserId then
    return debt - (← columnStroops s.shareAmount)
  else
    return debt

def addSettlementDebt (fromUserId toUserId : String) (debt : Int) (s : Settlement) :
    Except Failure Int := do
  if s.fromUserId = fromUserId ∧ s.toUserId = toUserId then
    return debt - (← columnStroops s.amount)
  else if s.fromUserId = toUserId ∧ s.toUserId = fromUserId then
    return debt + (← columnStroops s.amount)
  else
    return debt

-- The debt of one user to another that is left once all settlements but the failed ones are deducted.
-- Neither the shares nor the settlements are told apart by their asset.
def limitDebt (fromUserId toUserId : String) (reads : LimitReads) : Except Failure Int := do
  let debt ← reads.expenses.foldlM (fun debt e =>
    e.shares.foldlM (addShareDebt fromUserId toUserId e.payerUserId) debt) 0
  reads.settlements.foldlM (addSettlementDebt fromUserId toUserId) debt

def verifySettlementLimit (fromUserId toUserId amount : String) (reads : LimitReads) :
    Except Failure Unit := do
  let debtStroops ← limitDebt fromUserId toUserId reads
  if (← toStroops amount) > debtStroops then
    throw <| .badRequest "OVER_SETTLEMENT" "Settlement amount exceeds outstanding debt balance"

def settleGroup (D : Deps) (userId groupId : String) (body : FreeformBody)
    (idempotencyKey : Option String) : M Unit := do
  let amount ← match validateAmount body.amount with
    | .ok amount => pure (amount.stroops : Int)
    | .error _   => throw <| validationError "Invalid Stellar amount"
  refineStellarAsset D body.assetCode body.assetIssuer
  let _ ← requireActiveMembership groupId userId
  if body.toUserId = userId then
    throw <| .badRequest "self_settle" "You cannot settle with yourself"
  if (← act (.findMembership groupId body.toUserId)).isNone then
    throw <| .badRequest "invalid_recipient" "Recipient is not a member"
  runIdempotent "settlement.create" idempotencyKey do
    let expenses ← act (.limitExpenses groupId userId body.toUserId)
    let settlements ← act (.limitSettlements groupId userId body.toUserId)
    lift <| verifySettlementLimit userId body.toUserId body.amount { expenses, settlements }
    let shortCode ← act .shortCode
    let now ← act .clock
    let publicKey ← act (.publicKey userId)
    buildSettlementXdr D publicKey body.assetCode body.assetIssuer body.amount
    act <| .createFreeform {
      id          := ""
      shortCode, groupId, amount, idempotencyKey
      fromUserId  := userId
      toUserId    := body.toUserId
      assetCode   := body.assetCode
      assetIssuer := body.assetIssuer
      expiresAt   := some (intentExpiry body.validitySeconds now)
      createdAt   := now
      updatedAt   := now
    } { expenses, settlements }

-- Acceptance of signed envelopes

def validateSettlementXdr (D : Deps) (signedXdr : String) (s : Settlement) : M Unit := do
  let source ← act (.publicKey s.fromUserId)
  let destination ← act (.publicKey s.toUserId)
  let now ← act .clock
  lift <| D.validateSignedXdr signedXdr s source destination now

-- Looks up the recorded hash of a settlement that is already in flight.
def checkInFlight (s : Settlement) : M Unit :=
  match s.stellarTxHash with
  | none      => pure ()
  | some hash => Prog.swallow do
    match ← act (.getTransaction hash) with
    | none => return
    | some true =>
      let _ ← applySettlementTransition {
        settlementId       := s.id
        nextStatus         := .confirmed
        caller             := .confirmRoute hash true
        extraData          := some {
          retryCount    := some 0
          errorCategory := some none
          failureReason := some none
        }
        settleExpenseShare := true
      }
    | some false =>
      let _ ← applySettlementTransition {
        settlementId := s.id
        nextStatus   := .failed
        caller       := .confirmRoute hash false
        extraData    := some {
          failureReason := some <| some <| "Transaction " ++ hash ++ " failed on Stellar"
        }
      }

def confirm (D : Deps) (userId id signedXdr idempotencyKey : String) : M Unit := do
  let some row ← act (.findSettlement id)
    | throw <| .notFound "Settlement not found"
  let _ ← requireActiveMembership row.groupId userId
  if row.fromUserId ≠ userId then
    throw <| .forbidden "Only the payer can confirm this settlement"
  validateSettlementXdr D signedXdr row
  runIdempotent "settlement.confirm" idempotencyKey do
    let some settlement ← act (.findSettlement id)
      | throw <| .notFound "Settlement not found"
    if settlement.fromUserId ≠ userId then
      throw <| .forbidden "Only the payer can confirm this settlement"
    if settlement.status ∈ [.completed, .confirmed, .submitted, .verifying, .needsReview] then
      checkInFlight settlement
    else
      let now ← act .clock
      let _ ← act (.update (.sign id signedXdr now true))

def execute (D : Deps) (userId id signedXdr idempotencyKey : String) : M Unit :=
  runIdempotent "settlement.execute" idempotencyKey do
    let some row ← act (.findSettlement id)
      | throw <| .notFound "Settlement not found"
    let _ ← requireActiveMembership row.groupId userId
    if row.fromUserId ≠ userId then
      throw <| .forbidden "Only the payer can execute this settlement"
    validateSettlementXdr D signedXdr row
    let some settlement ← act (.findSettlement id)
      | throw <| .notFound "Settlement not found"
    if settlement.status ∉ [.completed, .confirmed, .submitted] then
      let now ← act .clock
      let _ ← act (.update (.sign settlement.id signedXdr now false))

end Mergepay
