import Mathlib.Data.String.Basic
import Mergepay.History.Ledger
import Mergepay.History.Scans

namespace Mergepay.History

section Requests

variable (lt : String → String → Prop) [DecidableRel lt] (contains : String → String → Bool) (groupId : String)

-- The requests of a client that scans the expenses of a group, while the table changes.
def expensePage (query : ExpenseListQuery) (table : Nat → List ExpenseRow) (i : Nat) (cursor : Option String) :
    Except Failure (Page ExpenseRow) :=
  ListPage.toPage <$> listGroupExpenses lt contains (table i) groupId { query with cursor, page := none }

def settlementPage (query : SettlementListQuery) (table : Nat → List SettlementRow) (now : Nat → Time) (i : Nat)
    (cursor : Option String) : Except Failure (Page SettlementRow) :=
  ListPage.toPage <$> listGroupSettlements lt (table i) groupId { query with cursor } (now i)

end Requests

abbrev matchingExpenses (contains : String → String → Bool) (groupId : String) (query : ExpenseListQuery)
    (rows : List ExpenseRow) : List ExpenseRow :=
  rows.filter (Where.all (expenseFilters contains groupId query)).selects

abbrev matchingSettlements (groupId : String) (query : SettlementListQuery) (now : Time)
    (rows : List SettlementRow) : List SettlementRow :=
  rows.filter (Where.all (settlementFilters groupId query now)).selects

section Pages

variable {lt : String → String → Prop} [DecidableRel lt] {contains : String → String → Bool} {groupId : String}

theorem expensePage_eq {query : ExpenseListQuery} (hv : ValidRange query.startDate query.endDate) (i : Nat)
    (c : Option String) : expensePage lt contains groupId query table i c =
      (fun position => buildPage (findMany lt (table i) (.all (expenseFilters contains groupId query ++
        [cursorFilter lt position query.order])) query.order 0 (takeForPage query.limit)) query.limit query.order) <$>
        requireCursor c := by
  simp only [expensePage, listGroupExpenses, hv]
  cases requireCursor c <;> rfl

theorem settlementPage_eq {query : SettlementListQuery} (hv : ValidRange query.startDate query.endDate) (i : Nat)
    (c : Option String) : settlementPage lt groupId query table now i c =
      (fun position => buildPage (findMany lt (table i) (.all (settlementFilters groupId query (now i) ++
        [cursorFilter lt position query.order])) query.order 0 (takeForPage query.limit)) query.limit query.order) <$>
        requireCursor c := by
  simp only [settlementPage, listGroupSettlements, hv]
  cases requireCursor c <;> rfl

variable (lt contains groupId now) [IsStrictTotalOrder String lt]

theorem expensePage_scans {query : ExpenseListQuery} (hlimit : 0 < query.limit)
    (hv : ValidRange query.startDate query.endDate) (hd : ∀ i, ((table i).map idOf).Nodup) :
    Honest (expensePage lt contains groupId query table) ∧
    Scan.Serves (cursorOrderBy lt query.order) key cursorOf query.limit
      (answers (expensePage lt contains groupId query table))
      fun i => matchingExpenses contains groupId query (table i) :=
  ⟨honest_of_pages (expensePage_eq hv) fun _ _ => buildPage_hasMore hlimit,
    serves_of_pages (expensePage_eq hv) fun i => answer_findMany (nodup_keys (hd i))⟩

theorem settlementPage_scans {query : SettlementListQuery} (hlimit : 0 < query.limit)
    (hv : ValidRange query.startDate query.endDate) (hd : ∀ i, ((table i).map idOf).Nodup) :
    Honest (settlementPage lt groupId query table now) ∧
    Scan.Serves (cursorOrderBy lt query.order) key cursorOf query.limit
      (answers (settlementPage lt groupId query table now))
      fun i => matchingSettlements groupId query (now i) (table i) :=
  ⟨honest_of_pages (settlementPage_eq hv) fun _ _ => buildPage_hasMore hlimit,
    serves_of_pages (settlementPage_eq hv) fun i => answer_findMany (nodup_keys (hd i))⟩

end Pages

-- Scans of expenses and settlements neither skip nor repeat rows.
theorem cursor_scans (lt : String → String → Prop) [DecidableRel lt] [IsStrictTotalOrder String lt]
    (contains : String → String → Bool) (groupId : String) :
    (∀ query : ExpenseListQuery, 0 < query.limit → ValidRange query.startDate query.endDate →
      (∀ rows, (rows.map idOf).Nodup →
        ExactScan lt query.order query.limit (expensePage lt contains groupId query fun _ => rows)
          (matchingExpenses contains groupId query rows)) ∧
      ∀ table, (∀ i, ((table i).map idOf).Nodup) → Fixed table →
        StableScan lt query.order (expensePage lt contains groupId query table)
          fun i => matchingExpenses contains groupId query (table i)) ∧
    ∀ query : SettlementListQuery, 0 < query.limit → ValidRange query.startDate query.endDate →
      (∀ rows now matching, (rows.map idOf).Nodup →
        (∀ i, matchingSettlements groupId query (now i) rows = matching) →
        ExactScan lt query.order query.limit (settlementPage lt groupId query (fun _ => rows) now) matching) ∧
      ∀ table now, (∀ i, ((table i).map idOf).Nodup) → Fixed table →
        StableScan lt query.order (settlementPage lt groupId query table now)
          fun i => matchingSettlements groupId query (now i) (table i) := by
  refine ⟨fun query hlimit hv => ⟨fun rows hd => ?_, fun table hd hf => ?_⟩,
    fun query hlimit hv => ⟨fun rows now matching hd hm => ?_, fun table now hd hf => ?_⟩⟩
  case refine_1 =>
    have ⟨hh, hs⟩ := expensePage_scans lt contains groupId hlimit hv fun _ => hd
    exact exactScan_of_serves hlimit (nodup_matching hd _) hh hs
  case refine_2 =>
    have ⟨hh, hs⟩ := expensePage_scans lt contains groupId hlimit hv hd
    exact stableScan_of_serves hlimit (fun i => nodup_matching (hd i) _) (hf.filter _) hh hs
  case refine_3 =>
    have ⟨hh, hs⟩ := settlementPage_scans lt groupId now hlimit hv fun _ => hd
    simp only [hm] at hs
    exact exactScan_of_serves hlimit (hm 0 ▸ nodup_matching hd _) hh hs
  case refine_4 =>
    have ⟨hh, hs⟩ := settlementPage_scans lt groupId now hlimit hv hd
    exact stableScan_of_serves hlimit (fun i => nodup_matching (hd i) _) (hf.filter _) hh hs

-- Rows of the same time, which are deleted while they are scanned.
def scannedExpenses : List ExpenseRow := [
    ⟨⟨⟨5, "a"⟩, by decide, by decide⟩, "group", "payer", "XLM", none, none, []⟩,
    ⟨⟨⟨5, "b"⟩, by decide, by decide⟩, "group", "payer", "XLM", none, none, []⟩
  ]

def scannedSettlements : List SettlementRow := [
    ⟨⟨⟨5, "a"⟩, by decide, by decide⟩, "group", "from", "to", "XLM", ⟨"pending", none, none, none, none⟩⟩,
    ⟨⟨⟨5, "b"⟩, by decide, by decide⟩, "group", "from", "to", "XLM", ⟨"submitted", none, none, none, none⟩⟩
  ]

theorem fixed_drop [Listed α] {rows : List α} (h : ∀ a ∈ rows, ∀ b ∈ rows, idOf a = idOf b → key a = key b) :
    Fixed fun i => rows.drop i :=
  fun _ _ a ha b hb => h a (List.mem_of_mem_drop ha) b (List.mem_of_mem_drop hb)

theorem nodup_drop [Listed α] {rows : List α} (h : (rows.map idOf).Nodup) (i : Nat) :
    ((rows.drop i).map idOf).Nodup :=
  h.sublist <| (List.drop_sublist i rows).map idOf

theorem cursor_scans_sample :
    (ExactScan (· < ·) .asc 1
        (expensePage (· < ·) (· = ·) "group" { limit := 1, order := .asc } fun _ => scannedExpenses)
        (matchingExpenses (· = ·) "group" { limit := 1, order := .asc } scannedExpenses) ∧
      StableScan (· < ·) .asc
        (expensePage (· < ·) (· = ·) "group" { limit := 1, order := .asc } fun i => scannedExpenses.drop i)
        fun i => matchingExpenses (· = ·) "group" { limit := 1, order := .asc } (scannedExpenses.drop i)) ∧
    ExactScan (· < ·) .asc 1
        (settlementPage (· < ·) "group" { limit := 1, order := .asc } (fun _ => scannedSettlements) fun i => i)
        scannedSettlements ∧
      StableScan (· < ·) .asc
        (settlementPage (· < ·) "group" { limit := 1, order := .asc } (fun i => scannedSettlements.drop i) fun i => i)
        fun i => matchingSettlements "group" { limit := 1, order := .asc } i (scannedSettlements.drop i) := by
  have ⟨he, hs⟩ := cursor_scans (· < ·) (· = ·) "group"
  have ⟨he₁, he₂⟩ := he { limit := 1, order := .asc } (by decide) rfl
  have ⟨hs₁, hs₂⟩ := hs { limit := 1, order := .asc } (by decide) rfl
  exact ⟨⟨he₁ _ (by decide), he₂ _ (nodup_drop (by decide)) (fixed_drop (by decide))⟩,
    hs₁ _ _ _ (by decide) fun _ => rfl, hs₂ _ _ (nodup_drop (by decide)) (fixed_drop (by decide))⟩

end Mergepay.History
