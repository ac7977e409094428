import Mathlib.Data.List.Dedup
import Mergepay.Expense.Calculation
import Mergepay.Expense.Split
import Mergepay.Settlement.Execution

namespace Mergepay

open Money

def SettlementEngineErrorCode.text : SettlementEngineErrorCode → String
  | .invalidSplitAmount      => "INVALID_SPLIT_AMOUNT"
  | .invalidSplitParticipant => "INVALID_SPLIT_PARTICIPANT"
  | .invalidSplitSum         => "INVALID_SPLIT_SUM"
  | .invalidSplitPercent     => "INVALID_SPLIT_PERCENT"
  | .unsupportedAsset        => "UNSUPPORTED_ASSET"

-- The error of a request that does not fit its schema, which tells the first issue.
def Failure.ofIssues : List Issue → Failure
  | []         => .app 400 "VALIDATION_ERROR" "Validation failed"
  | issue :: _ =>
    let field := ".".intercalate issue.path
    .app 400 "VALIDATION_ERROR" <| if field = "" then issue.message else field ++ ": " ++ issue.message

-- The validation of the asset service.
def requireAmount (value : String) : Except Failure String :=
  match validateAmount value with
  | .ok v    => .ok v.decimal
  | .error e => .error <| .badRequest "invalid_amount" e.message

def World.requireActiveMembership (w : World) (groupId userId : String) : Except Failure GroupMember :=
  match w.membership groupId userId, Table.row? (·.id) w.groups groupId with
  | none, none        => .error <| .notFound "Group not found"
  | none, some group  => .error <| .forbidden <|
      if group.archived then "Group is archived" else "You are not a member of this group"
  | some member, group =>
    if group.any (·.archived) then .error <| .forbidden "Group is archived" else .ok member

-- Trustlines

structure TrustlineStatus where
  publicKey     : String
  accountExists : Bool
  hasTrustline  : Bool
  deriving DecidableEq

-- Horizon is asked for the trustlines of accounts in an asset.
abbrev FetchTrustlines :=
  List String → String → Option String → Except Failure (List TrustlineStatus)

-- Participants are pairs of a user and a public key. The last status of a key counts.
def assertParticipantsCanHoldAsset (fetchTrustlines : FetchTrustlines)
    (participants : List (String × String)) (assetCode : String) (assetIssuer : Option String) :
    Except Failure Unit := do
  if participants = [] then
    return
  let statuses ← fetchTrustlines (participants.map (·.2)) assetCode assetIssuer
  let missing := participants.filter fun p =>
    (statuses.reverse.find? (·.publicKey = p.2)).any (¬·.hasTrustline)
  if missing ≠ [] then
    throw <| .badRequest "missing_trustlines" <|
      toString missing.length ++ " participant(s) cannot receive " ++ assetCode ++
      ". Each must add a trustline for this asset before the expense can be created."

-- The create route

-- The rows that are handed to the database, which adds their identifiers and the time.
structure NewExpense extends Expense where
  amount : Int
  shares : List (String × Int)
  deriving DecidableEq

-- The value of a decimal column that is written as text.
def decimalColumn (text : String) : Int :=
  match text.toList with
  | '-' :: cs => -(Text.Decimal.value 7 cs)
  | cs        => Text.Decimal.value 7 cs

-- The errors of the split engine are forwarded to the client.
def forwardSplitError : Failure → Failure
  | .engine code message => .badRequest code.text message
  | e                    => e

section

variable (R : Registry) (numberText : ℚ → String) (fetchTrustlines : FetchTrustlines) (w : World)

-- The membership of the caller has been checked by the guard of the route.
def requirePayer (groupId userId payerUserId : String) : Except Failure Unit :=
  if payerUserId ≠ userId ∧ (w.membership groupId payerUserId).isNone then
    .error <| .badRequest "invalid_payer" "Payer must be an active group member"
  else
    .ok ()

-- A group and a user have at most one membership.
def requireParticipants (groupId : String) (participantIds : List String) :
    Except Failure (List GroupMember) :=
  let members := participantIds.filterMap (w.membership groupId)
  if members.length ≠ participantIds.length then
    .error <| .badRequest "invalid_split" "Every split participant must be an active group member"
  else
    .ok members

-- The native asset needs no trustline.
def requireTrustlines (asset : ValidatedAsset) (members : List GroupMember) (assetCode : String)
    (assetIssuer : Option String) : Except Failure Unit :=
  if asset.type ≠ .native then
    assertParticipantsCanHoldAsset fetchTrustlines (members.map fun m => (m.userId, w.publicKey m.userId))
      assetCode assetIssuer
  else
    .ok ()

def createExpenseRows (userId groupId : String) (body : CreateExpenseInput) : Except Failure NewExpense := do
  let _ ← requireAmount body.amount
  let asset ← R.validateAssetSpec body.assetCode body.assetIssuer
  let payerUserId := body.payerUserId.getD userId
  requirePayer w groupId userId payerUserId
  let computed ← (computeShares numberText body.amount body.splitType body.shares).mapError forwardSplitError
  let members ← requireParticipants w groupId (computed.map (·.userId)).dedup
  requireTrustlines fetchTrustlines w asset members body.assetCode body.assetIssuer
  let _ ← w.requireActiveMembership groupId userId
  return {
    id          := ""
    createdAt   := 0
    groupId, payerUserId
    assetCode   := body.assetCode
    assetIssuer := body.assetIssuer
    amount      := decimalColumn body.amount
    shares      := computed.map fun c => (c.userId, decimalColumn c.shareAmount)
  }

-- The guard of the route comes before the request is parsed.
def createExpenseRoute (userId groupId : String) (raw : CreateExpenseInput) : Except Failure NewExpense := do
  let _ ← w.requireActiveMembership groupId userId
  match ← createExpenseSchema R numberText raw with
  | .error issues => throw (Failure.ofIssues issues)
  | .ok body      => createExpenseRows R numberText fetchTrustlines w userId groupId body

end

-- What the readers get of the rows.

def NewExpense.created (x : NewExpense) (id : String) (ids : List String) (t : Time) : ExpenseWithShares := {
  x.toExpense with
  id
  createdAt := t
  shares    := List.zipWith (World.newShare id x.payerUserId) ids x.shares
}

def ExpenseWithShares.record (e : ExpenseWithShares) (amount : Int) : ExpenseRecord := {
  id          := some e.id
  payerUserId := e.payerUserId
  amount      := some (columnText amount)
  assetCode   := e.assetCode
  assetIssuer := e.assetIssuer
  shares      := e.shares.map fun s => { userId := s.userId, shareAmount := columnText s.shareAmount }
}

end Mergepay
