import Mathlib.Data.List.Basic
import Mergepay.Data.Table

namespace Mergepay

-- Points in time are counted in milliseconds.
abbrev Time := Int

-- All texts that are ever written to, or compared with, the status column of a settlement. The first
-- eight are the states of the settlement machine. The last two belong to the expiry sweep, which
-- spells its states in upper case.
inductive SettlementStatus
  | pending
  | submitted
  | verifying
  | pendingConfirmation
  | confirmed
  | failed
  | expired
  | needsReview
  | completed
  | intentPending
  | intentExpired
  deriving DecidableEq

inductive ShareStatus
  | pending
  | settling
  | settled
  deriving DecidableEq

inductive JobFailureCategory
  | transient
  | indeterminate
  | permanent
  deriving DecidableEq

inductive SettlementFailureCategory
  | validation
  | insufficientFunds
  | expired
  | upstream
  | ledgerRejected
  | internal
  deriving DecidableEq

structure User where
  id               : String
  stellarPublicKey : String
  deriving DecidableEq

structure Group where
  id       : String
  archived : Bool
  deriving DecidableEq

structure GroupMember where
  groupId : String
  userId  : String
  role    : String
  deriving DecidableEq

-- Amounts are in stroops.
structure Expense where
  id          : String
  groupId     : String
  payerUserId : String
  assetCode   : String
  assetIssuer : Option String
  createdAt   : Time
  deriving DecidableEq

structure ExpenseShare where
  id          : String
  expenseId   : String
  userId      : String
  shareAmount : Int
  status      : ShareStatus
  deriving DecidableEq

structure Settlement where
  id              : String
  shortCode       : String
  groupId         : String
  fromUserId      : String
  toUserId        : String
  amount          : Int
  assetCode       : String
  assetIssuer     : Option String
  stellarTxHash   : Option String := none
  transactionXdr  : Option String := none
  status          : SettlementStatus := .pending
  retryCount      : Nat := 0
  nextAttemptAt   : Option Time := none
  errorCategory   : Option JobFailureCategory := none
  claimedBy       : Option String := none
  claimedAt       : Option Time := none
  leaseExpiresAt  : Option Time := none
  failureReason   : Option String := none
  failureCategory : Option SettlementFailureCategory := none
  expiresAt       : Option Time := none
  submittedAt     : Option Time := none
  confirmedAt     : Option Time := none
  deadLetteredAt  : Option Time := none
  idempotencyKey  : Option String := none
  expenseId       : Option String := none
  expenseShareId  : Option String := none
  createdAt       : Time
  updatedAt       : Time
  deriving DecidableEq

-- An expense together with (some of) its shares, as it is returned by a query with an `include`.
structure ExpenseWithShares extends Expense where
  shares : List ExpenseShare
  deriving DecidableEq

-- A payment operation as it is reported by Horizon.
structure PaymentOperation where
  type        : String := "payment"
  destination : String
  amount      : String
  assetType   : String
  assetCode   : Option String
  assetIssuer : Option String
  deriving DecidableEq

-- The part of an envelope's contents that is verified after it has been applied.
structure TransactionRecord where
  memoType   : Option String
  memo       : Option String
  operations : List PaymentOperation
  deriving DecidableEq

structure LedgerTransaction where
  hash       : String
  successful : Bool
  record     : TransactionRecord
  deriving DecidableEq

-- The database, the Stellar ledger and the clock. `allocated` are the identifiers that have been
-- handed out so far; they are never handed out again.
structure World where
  now         : Time := 0
  users       : List User := []
  groups      : List Group := []
  members     : List GroupMember := []
  expenses    : List Expense := []
  shares      : List ExpenseShare := []
  settlements : List Settlement := []
  ledger      : List LedgerTransaction := []
  allocated   : List String := []
  deriving DecidableEq

namespace World

variable (w : World)

def settlement (id : String) : Option Settlement :=
  Table.row? (·.id) w.settlements id

def expense (id : String) : Option Expense :=
  Table.row? (·.id) w.expenses id

def share (id : String) : Option ExpenseShare :=
  Table.row? (·.id) w.shares id

def transaction (hash : String) : Option LedgerTransaction :=
  Table.row? (·.hash) w.ledger hash

def membership (groupId userId : String) : Option GroupMember :=
  w.members.find? fun m => m.groupId = groupId ∧ m.userId = userId

def publicKey (userId : String) : String :=
  ((Table.row? (·.id) w.users userId).map (·.stellarPublicKey)).getD ""

def sharesOf (expenseId : String) : List ExpenseShare :=
  w.shares.filter (·.expenseId = expenseId)

def expenseWithShares (id : String) : Option ExpenseWithShares :=
  (w.expense id).map fun e => { e with shares := w.sharesOf e.id }

-- The reads of the balance computation.

def groupExpenses (groupId : String) : List ExpenseWithShares :=
  (w.expenses.filter (·.groupId = groupId)).map fun e => { e with shares := w.sharesOf e.id }

def groupSettlements (groupId : String) : List Settlement :=
  w.settlements.filter (·.groupId = groupId)

-- The reads of the settlement limit. Only shares of the two parties are included, and settlements
-- that have failed do not count against the limit.

def limitExpenses (groupId fromUserId toUserId : String) : List ExpenseWithShares :=
  (w.groupExpenses groupId).map fun e => { e with
    shares := e.shares.filter fun s => s.userId = fromUserId ∨ s.userId = toUserId
  }

def limitSettlements (groupId fromUserId toUserId : String) : List Settlement :=
  (w.groupSettlements groupId).filter fun s => s.status ≠ .failed ∧
    (s.fromUserId = fromUserId ∧ s.toUserId = toUserId ∨
     s.fromUserId = toUserId ∧ s.toUserId = fromUserId)

end World

end Mergepay
