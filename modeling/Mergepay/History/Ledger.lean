import Mergepay.History.Lists

namespace Mergepay.History

-- The ledger of a group, which interleaves three tables

inductive LedgerEntryType
  | expense
  | settlement
  | treasury
  deriving DecidableEq

inductive LedgerEntry
  | expense (row : ExpenseRow)
  | settlement (row : SettlementRow)
  | treasury (row : TreasuryRow)
  deriving DecidableEq

def LedgerEntry.position : LedgerEntry → Position
  | expense row    => row.position
  | settlement row => row.position
  | treasury row   => row.position

instance : Listed LedgerEntry := ⟨LedgerEntry.position⟩

structure LedgerQuery where
  cursor    : Option String := none
  limit     : Nat := 50
  order     : SortOrder := .desc
  type      : Option (List LedgerEntryType) := none
  startDate : Option Time := none
  endDate   : Option Time := none
  deriving DecidableEq

def includesType (query : LedgerQuery) (type : LedgerEntryType) : Bool :=
  query.type.all (type ∈ ·)

def ledgerDateFilter [Listed α] (query : LedgerQuery) : Where α :=
  dateFilter query.startDate query.endDate

structure Tables where
  expenses    : List ExpenseRow := []
  settlements : List SettlementRow := []
  treasury    : List TreasuryRow := []
  deriving DecidableEq

open Text in
-- How two entries are compared, as a negative or positive number or zero.
def compareEntries [Listed α] (order : SortOrder) (a b : α) : Int :=
  let direction := if order = .desc then -1 else 1
  if (key a).createdAt ≠ (key b).createdAt then
    if (key a).createdAt < (key b).createdAt then -direction else direction
  else if (key a).id = (key b).id then 0
  else if Utf16.Before (key a).id (key b).id then -direction else direction

def groupLedger (lt : String → String → Prop) [DecidableRel lt] (db : Tables) (groupId : String)
    (query : LedgerQuery) : Except Failure (Page LedgerEntry) := do
  assertValidRange query.startDate query.endDate
  let position ← requireCursor query.cursor
  let take := takeForPage query.limit
  let expenses := if includesType query .expense then
      findMany lt db.expenses (.all [.holds (·.groupId = groupId), ledgerDateFilter query,
        cursorFilter lt position query.order]) query.order 0 take
    else []
  let settlements := if includesType query .settlement then
      findMany lt db.settlements (.all [.holds (·.groupId = groupId), ledgerDateFilter query,
        cursorFilter lt position query.order]) query.order 0 take
    else []
  let treasuryTxs := if includesType query .treasury then
      findMany lt db.treasury (.all [.holds (·.groupId = groupId), ledgerDateFilter query,
        cursorFilter lt position query.order]) query.order 0 take
    else []
  let entries := expenses.map LedgerEntry.expense ++ settlements.map .settlement ++ treasuryTxs.map .treasury
  let entries := entries.insertionSort fun a b => compareEntries query.order a b ≤ 0
  return buildPage entries query.limit query.order

-- The history of a user, which interleaves two tables

inductive HistoryEntry
  | expense (row : ExpenseRow)
  | settlement (row : SettlementRow)
  deriving DecidableEq

def HistoryEntry.position : HistoryEntry → Position
  | expense row    => row.position
  | settlement row => row.position

instance : Listed HistoryEntry := ⟨HistoryEntry.position⟩

structure HistoryQuery where
  cursor       : Option String := none
  limit        : Nat := 50
  order        : SortOrder := .desc
  assetCode    : Option String := none
  asset        : Option String := none
  status       : Option String := none
  fromDate     : Option Time := none
  toDate       : Option Time := none
  startDate    : Option Time := none
  endDate      : Option Time := none
  groupId      : Option String := none
  includeTotal : Bool := false
  offset       : Option Nat := none
  deriving DecidableEq

structure HistoryPage extends Page HistoryEntry where
  total : Option Nat
  deriving DecidableEq

-- Empty texts are as good as none.
def given (text : Option String) : Option String :=
  text.filter (· ≠ "")

def expenseUserFilter (userId : String) (query : HistoryQuery) : Where ExpenseRow :=
  match given query.groupId with
  | some groupId => .holds (·.groupId = groupId)
  | none         => .any [.holds (·.payerUserId = userId), .holds fun e => e.shares.any (·.userId = userId)]

def settlementUserFilter (userId : String) (query : HistoryQuery) : Where SettlementRow :=
  match given query.groupId with
  | some groupId => .holds (·.groupId = groupId)
  | none         => .any [.holds (·.fromUserId = userId), .holds (·.toUserId = userId)]

-- What both tables are filtered by.
def historyFilters [Listed α] (assetCode : α → String) (query : HistoryQuery) : List (Where α) :=
  (given (query.assetCode <|> query.asset)).toList.map (fun code => .holds fun a => assetCode a = code) ++
    [dateFilter (query.fromDate <|> query.startDate) (query.toDate <|> query.endDate)]

def expenseHistoryFilters (query : HistoryQuery) : List (Where ExpenseRow) :=
  historyFilters (·.assetCode) query ++ (given query.status).toList.map expenseStatusFilter

def settlementHistoryFilters (query : HistoryQuery) : List (Where SettlementRow) :=
  historyFilters (·.assetCode) query ++
    (given query.status).toList.map fun status => .holds (·.status.status = status)

open Text in
def compareHistory [Listed α] (order : SortOrder) (a b : α) : Int :=
  let dir := if order = .desc then -1 else 1
  if (key a).createdAt ≠ (key b).createdAt then
    if (key a).createdAt > (key b).createdAt then dir else -dir
  else if Utf16.Before (key b).id (key a).id then dir else -dir

def history (lt : String → String → Prop) [DecidableRel lt] (db : Tables) (userId : String)
    (query : HistoryQuery) : Except Failure HistoryPage := do
  let position ← requireCursor query.cursor
  let takeCount := takeForPage query.limit
  let skipCount := query.offset.getD 0
  let expenses := findMany lt db.expenses (.all (expenseUserFilter userId query ::
    cursorFilter lt position query.order :: expenseHistoryFilters query)) query.order skipCount takeCount
  let settlements := findMany lt db.settlements (.all (settlementUserFilter userId query ::
    cursorFilter lt position query.order :: settlementHistoryFilters query)) query.order skipCount takeCount
  let total := if query.includeTotal then some <|
      db.expenses.countP (Where.all (expenseUserFilter userId query :: expenseHistoryFilters query)).selects +
      db.settlements.countP (Where.all (settlementUserFilter userId query :: settlementHistoryFilters query)).selects
    else none
  let merged := expenses.map HistoryEntry.expense ++ settlements.map .settlement
  let merged := merged.insertionSort fun a b => compareHistory query.order a b ≤ 0
  let hasMore : Bool := merged.length > query.limit
  let results := bif hasMore then merged.take query.limit else merged
  return {
    items := results
    pageMeta := {
      nextCursor := bif hasMore then results.getLast?.map fun a => encodeCursor (key a) else none
      hasMore, limit := query.limit, order := query.order
    }
    total
  }

end Mergepay.History
