import Mergepay.History.Pagination
import Mergepay.History.Status
import Mergepay.Text.Unicode

namespace Mergepay.History

-- The rows of the tables that are listed, with the columns on which the lists depend

structure ListedShare where
  userId : String
  status : ShareStatus
  deriving DecidableEq

structure ExpenseRow where
  position    : Position
  groupId     : String
  payerUserId : String
  assetCode   : String
  description : Option String := none
  memo        : Option String := none
  shares      : List ListedShare := []
  deriving DecidableEq

structure SettlementRow where
  position   : Position
  groupId    : String
  fromUserId : String
  toUserId   : String
  assetCode  : String
  status     : SettlementStatusInput
  deriving DecidableEq

structure TreasuryRow where
  position : Position
  groupId  : String
  deriving DecidableEq

instance : Listed ExpenseRow    := ⟨ExpenseRow.position⟩
instance : Listed SettlementRow := ⟨SettlementRow.position⟩
instance : Listed TreasuryRow   := ⟨TreasuryRow.position⟩

-- Filters

inductive ExpenseStatus
  | pending
  | settled
  deriving DecidableEq

def ExpenseStatus.text : ExpenseStatus → String
  | pending => "PENDING"
  | settled => "SETTLED"

-- The letters whose upper case belongs to ASCII.
def upperCase (c : Char) : Char :=
  if c = 'ſ' then 'S'
  else if c = 'ı' then 'I'
  else c.toUpper

def expenseStatusFilter (status : String) : Where ExpenseRow :=
  if status.toList.map upperCase = "SETTLED".toList then .all [
    .holds (·.shares ≠ []),
    .holds fun e => e.shares.all (·.status = .settled)
  ]
  else .holds fun e => e.shares.any (·.status ≠ .settled)

def assertValidRange (startDate endDate : Option Time) : Except Failure Unit :=
  match startDate, endDate with
  | some s, some e =>
    if s > e then .error <| .badRequest "invalid_range" "startDate must not be after endDate" else .ok ()
  | _, _ => .ok ()

abbrev ValidRange (startDate endDate : Option Time) : Prop :=
  assertValidRange startDate endDate = .ok ()

-- Both bounds are inclusive.
def dateFilter [Listed α] (startDate endDate : Option Time) : Where α :=
  .all <|
    startDate.toList.map (fun t => .holds fun a => t ≤ (key a).createdAt) ++
    endDate.toList.map (fun t => .holds fun a => (key a).createdAt ≤ t)

structure ExpenseListQuery where
  cursor       : Option String := none
  limit        : Nat := 50
  order        : SortOrder := .desc
  asset        : Option String := none
  status       : Option ExpenseStatus := none
  startDate    : Option Time := none
  endDate      : Option Time := none
  page         : Option Nat := none
  categoryId   : Option String := none
  includeTotal : Bool := false
  deriving DecidableEq

structure SettlementListQuery where
  cursor       : Option String := none
  limit        : Nat := 50
  order        : SortOrder := .desc
  status       : Option PublicStatus := none
  asset        : Option String := none
  startDate    : Option Time := none
  endDate      : Option Time := none
  includeTotal : Bool := false
  deriving DecidableEq

structure ListPage (α : Type) extends Page α where
  total      : Option Nat := none
  page       : Option Nat := none
  totalPages : Option Nat := none
  deriving DecidableEq

section Lists

-- How the database compares identifiers, and how it looks for a text regardless of the case.
variable (lt : String → String → Prop) [DecidableRel lt] (contains : String → String → Bool)

def expenseFilters (groupId : String) (query : ExpenseListQuery) : List (Where ExpenseRow) :=
  [.holds (·.groupId = groupId)] ++
  query.asset.toList.map (fun asset => .holds (·.assetCode = asset)) ++
  query.status.toList.map (fun status => expenseStatusFilter status.text) ++
  (if query.startDate.isSome ∨ query.endDate.isSome then [dateFilter query.startDate query.endDate] else []) ++
  query.categoryId.toList.map fun category => .any [
    .compare (·.description) (contains · category),
    .compare (·.memo) (· = category)
  ]

def listGroupExpenses (rows : List ExpenseRow) (groupId : String) (query : ExpenseListQuery) :
    Except Failure (ListPage ExpenseRow) := do
  assertValidRange query.startDate query.endDate
  let filters := expenseFilters contains groupId query
  let total := rows.countP (Where.all filters).selects
  match query.page with
  | some page =>
    let totalPages := (total + query.limit - 1) / query.limit
    return {
      items    := findMany lt rows (.all filters) query.order ((page - 1) * query.limit) query.limit
      pageMeta := ⟨none, page < totalPages, query.limit, query.order⟩
      total, page, totalPages
    }
  | none =>
    let position ← requireCursor query.cursor
    let where' := .all (filters ++ [cursorFilter lt position query.order])
    let found := findMany lt rows where' query.order 0 (takeForPage query.limit)
    return { buildPage found query.limit query.order with
      total := if query.includeTotal then some total else none
    }

def settlementFilters (groupId : String) (query : SettlementListQuery) (now : Time) :
    List (Where SettlementRow) :=
  [Where.holds (·.groupId = groupId)] ++
  query.asset.toList.map (fun asset => Where.holds (·.assetCode = asset)) ++
  query.status.toList.map (fun status s => publicStatusFilter status now s.status) ++
  if query.startDate.isSome ∨ query.endDate.isSome then [dateFilter query.startDate query.endDate] else []

def listGroupSettlements (rows : List SettlementRow) (groupId : String) (query : SettlementListQuery)
    (now : Time) : Except Failure (ListPage SettlementRow) := do
  assertValidRange query.startDate query.endDate
  let position ← requireCursor query.cursor
  let filters := settlementFilters groupId query now
  let where' := .all (filters ++ [cursorFilter lt position query.order])
  let found := findMany lt rows where' query.order 0 (takeForPage query.limit)
  return { buildPage found query.limit query.order with
    total := if query.includeTotal then some (rows.countP (Where.all filters).selects) else none
  }

end Lists

end Mergepay.History
