import Mergepay.Outcomes.Store

namespace Mergepay.Outcomes

open Concurrency

-- Callers never set the status by these data.
abbrev ExtraData :=
  { data : Patch // data.status = none }

structure TransitionParams where
  settlementId       : String
  nextStatus         : SettlementStatus
  source             : TransitionSource
  extraData          : Option ExtraData := none
  ownerUserId        : Option String := none
  settleExpenseShare : Bool := false
  deriving DecidableEq

structure TransitionResult where
  settlement : Settlement
  changed    : Bool

namespace TransitionParams

variable (params : TransitionParams)

def data (now : Time) : Patch :=
  let extraData := (params.extraData.map (·.val)).getD {}
  { extraData with
    submittedAt := if params.nextStatus = .submitted then some (some now) else extraData.submittedAt
    confirmedAt := if params.nextStatus = .confirmed then some (some now) else extraData.confirmedAt
    status      := some params.nextStatus
  }

def statusChanged (settlement : Settlement) : OutcomeAudit where
  userId     := some settlement.fromUserId
  groupId    := some settlement.groupId
  actorType  := params.source
  action     := "settlement.status_changed"
  entityType := "settlement"
  entityId   := params.settlementId
  metadata   := .change settlement.status params.nextStatus params.source settlement.retryCount

-- The share that is settled along with the settlement.
def settledShare (settlement : Settlement) : Option String :=
  if params.settleExpenseShare ∧ params.nextStatus = .confirmed then settlement.expenseShareId else none

end TransitionParams

def recordStatusTransitionInTransaction (row : StatusHistory) : OutcomeTx Unit := do
  let latestHistory ← Prog.perform (OutcomeAction.latestHistory row.entityType row.entityId)
  if ¬latestHistory.any (·.status = row.status) then
    Prog.perform (OutcomeAction.createHistory row)

def findSettlement (params : TransitionParams) : OutcomeTx Settlement := do
  let some settlement ← Prog.perform (OutcomeAction.findSettlement params.settlementId)
    | throw <| .notFound "Settlement not found"
  if params.ownerUserId.any (· ≠ settlement.fromUserId) then
    throw <| .forbidden "Only the payer can change this settlement"
  return settlement

def findUniqueOrThrow (id : String) : OutcomeTx Settlement := do
  let some settlement ← Prog.perform (OutcomeAction.findSettlement id)
    | throw World.recordNotFound
  return settlement

-- The settlement has the requested status already.
def keepStatus (params : TransitionParams) (settlement : Settlement) : OutcomeTx TransitionResult :=
  match params.extraData with
  | none           => return ⟨settlement, false⟩
  | some extraData => do
    let updated ← Prog.perform (OutcomeAction.updateSettlement params.settlementId extraData.val)
    return ⟨updated, false⟩

-- The update is guarded by all statuses with an edge to the next one, and not by the one that has been read.
def changeStatus (params : TransitionParams) (settlement : Settlement) : OutcomeTx TransitionResult := do
  let id := params.settlementId
  let now ← Prog.perform OutcomeAction.now
  match ← (Prog.perform <| OutcomeAction.updateMany id params.nextStatus.allowedFromStatuses
    (params.data now)).attempt with
  | .error e =>
    if e ≠ noneMatched then
      throw e
    let currentSettlement ← findUniqueOrThrow id
    return ⟨currentSettlement, false⟩
  | .ok _ =>
    let updated ← findUniqueOrThrow id
    Prog.perform <| OutcomeAction.createAudit (params.statusChanged settlement)
    recordStatusTransitionInTransaction ⟨"settlement", id, params.nextStatus, params.source⟩
    if let some shareId := params.settledShare settlement then
      Prog.perform (OutcomeAction.settleShare shareId)
    return ⟨updated, true⟩

-- The transaction of a transition. No caller hands in a transaction of its own.
def applySettlementTransition (params : TransitionParams) : OutcomeTx TransitionResult := do
  let settlement ← findSettlement params
  if params.nextStatus = settlement.status then
    keepStatus params settlement
  else if ¬settlement.status.canTransitionSettlementStatus params.nextStatus then
    throw <| .conflict "invalid_transition" <|
      "Cannot transition settlement from " ++ settlement.status.text ++ " to " ++ params.nextStatus.text
  else
    changeStatus params settlement

-- Any number of calls on any settlements. Each of them is a transaction.
abbrev transitionServer (D : Deps) :=
  (outcomeDatabase D).server (outcomeEnv D) fun params : TransitionParams => do
    let _ ← (applySettlementTransition params).transaction params []

end Mergepay.Outcomes
