import Mathlib.Data.String.Basic
import Mergepay.History.Ledger
import Mergepay.History.Scans

namespace Mergepay.History

-- The rows that a query selects, table by table

def ledgerExpenses (db : Tables) (groupId : String) (query : LedgerQuery) : List ExpenseRow :=
  if includesType query .expense then
    db.expenses.filter (Where.all [.holds (·.groupId = groupId), ledgerDateFilter query]).selects
  else []

def ledgerSettlements (db : Tables) (groupId : String) (query : LedgerQuery) : List SettlementRow :=
  if includesType query .settlement then
    db.settlements.filter (Where.all [.holds (·.groupId = groupId), ledgerDateFilter query]).selects
  else []

def ledgerTreasury (db : Tables) (groupId : String) (query : LedgerQuery) : List TreasuryRow :=
  if includesType query .treasury then
    db.treasury.filter (Where.all [.holds (·.groupId = groupId), ledgerDateFilter query]).selects
  else []

abbrev ledgerTables (db : Tables) (groupId : String) (query : LedgerQuery) : List (List LedgerEntry) := [
    (ledgerExpenses db groupId query).map .expense,
    (ledgerSettlements db groupId query).map .settlement,
    (ledgerTreasury db groupId query).map .treasury
  ]

abbrev Tables.entries (db : Tables) : List LedgerEntry :=
  db.expenses.map .expense ++ db.settlements.map .settlement ++ db.treasury.map .treasury

-- The database compares identifiers like the service does.
abbrev SameOrder [Listed α] (lt : String → String → Prop) (rows : List α) : Prop :=
  ∀ a ∈ rows, ∀ b ∈ rows, lt (idOf a) (idOf b) ↔ Text.Utf16.Before (idOf a) (idOf b)

section Merge

variable {lt : String → String → Prop} [DecidableRel lt] [IsStrictTotalOrder String lt]

theorem compareEntries_le_iff [Listed α] {order : SortOrder} {a b : α}
    (h : lt (idOf a) (idOf b) ↔ Text.Utf16.Before (idOf a) (idOf b)) :
    compareEntries order a b ≤ 0 ↔ ¬cursorOrderBy lt order (key b) (key a) := by
  have hi : ¬lt (idOf b) (idOf b) := irrefl_of lt _
  have ha := asymm_of lt (a := idOf a) (b := idOf b)
  have ht := trichotomous_of lt (idOf a) (idOf b)
  have hne : ∀ x y : String, lt x y → x ≠ y := fun x y hl he => irrefl_of lt y (he ▸ hl)
  simp only [compareEntries, cursorOrderBy, SortOrder.direct, ← h]
  cases order <;> grind

variable (lt) in
-- What is read of a table is a window of the rows that are selected from it, if any.
theorem ledgerWindow [Listed α] {rows : List α} {f : α → LedgerEntry} {w : Where α}
    (hd : (rows.map idOf).Nodup) (hf : ∀ a, key (f a) = key a) (included : Bool) (query : LedgerQuery)
    (position : Option CursorPosition) :
    (if included = true then
        findMany lt rows (.all [w, ledgerDateFilter query, cursorFilter lt position query.order]) query.order 0
          (takeForPage query.limit)
      else []).map f =
      (Scan.after (cursorOrderBy lt query.order) key position (Scan.ordered (cursorOrderBy lt query.order) key
        ((if included = true then rows.filter (Where.all [w, ledgerDateFilter query]).selects else []).map f))).take
          (takeForPage query.limit) := by
  cases included with
  | false => rfl
  | true  =>
    have hw : findMany lt rows (.all ([w, ledgerDateFilter query] ++ [cursorFilter lt position query.order]))
        query.order 0 (takeForPage query.limit) = _ := findMany_cursorFilter (nodup_keys hd) position 0 _
    rw [if_pos rfl, if_pos rfl, ← map_after hf, ← List.map_take]
    exact congrArg (List.map f) hw

omit [DecidableRel lt] [IsStrictTotalOrder String lt] in
theorem ledgerTables_sublist (db : Tables) (groupId : String) (query : LedgerQuery) :
    (ledgerTables db groupId query).flatten.Sublist db.entries := by
  have selected {α : Type} (rows : List α) (p : α → Bool) (f : α → LedgerEntry) (included : Bool) :
      ((if included = true then rows.filter p else []).map f).Sublist (rows.map f) := by
    cases included
    · exact List.nil_sublist _
    · exact List.filter_sublist.map f
  simp only [List.flatten_cons, List.flatten_nil, List.append_nil, Tables.entries, List.append_assoc]
  exact (selected _ _ _ _).append <| (selected _ _ _ _).append (selected _ _ _ _)

theorem groupLedger_eq {db : Tables} {query : LedgerQuery} (hv : ValidRange query.startDate query.endDate)
    (hd : (db.entries.map idOf).Nodup) (hs : SameOrder lt db.entries) :
    groupLedger lt db groupId query =
      mergedPage lt query.order query.limit (ledgerTables db groupId query) <$> requireCursor query.cursor := by
  simp only [groupLedger, hv]
  cases requireCursor query.cursor with
  | error => rfl
  | ok position =>
    have hsub := ledgerTables_sublist db groupId query
    have hmem : ∀ a ∈ (ledgerTables db groupId query).flatMap (fun t =>
        (Scan.after (cursorOrderBy lt query.order) key position
          (Scan.ordered (cursorOrderBy lt query.order) key t)).take (takeForPage query.limit)), a ∈ db.entries := by
      intro a ha
      obtain ⟨t, ht, ha⟩ := List.mem_flatMap.mp ha
      have ha := Scan.mem_ordered.mp (Scan.mem_after.mp (List.mem_of_mem_take ha)).1
      exact hsub.subset <| List.mem_flatten.mpr ⟨t, ht, ha⟩
    have hids := hd
    simp only [Tables.entries, List.map_append, List.nodup_append, List.map_map] at hids
    have he := ledgerWindow lt (w := .holds (·.groupId = groupId)) (f := .expense) hids.1.1
      (fun _ => rfl) (includesType query .expense) query position
    have hse := ledgerWindow lt (w := .holds (·.groupId = groupId)) (f := .settlement) hids.1.2.1
      (fun _ => rfl) (includesType query .settlement) query position
    have ht := ledgerWindow lt (w := .holds (·.groupId = groupId)) (f := .treasury) hids.2.1
      (fun _ => rfl) (includesType query .treasury) query position
    refine congrArg (fun l => Except.ok (buildPage l query.limit query.order)) ?_
    refine (congrArg _ ((congrArg₂ _ (congrArg₂ _ he hse) ht).trans ?_)).trans
      (Scan.insertionSort_eq_ordered ?_ fun a ha b hb _ => ?_)
    case refine_1 =>
      simp only [List.flatMap_cons, List.flatMap_nil, List.append_nil, ← List.append_assoc]
      rfl
    case refine_2 =>
      have hn := nodup_keys (hd.sublist (hsub.map idOf))
      exact (Scan.nodup_windows hn fun t => (List.take_sublist ..).trans List.filter_sublist).of_map
    case refine_3 => exact compareEntries_le_iff (hs a (hmem a ha) b (hmem b hb))

end Merge

-- The requests of a client that scans a ledger.
def ledgerPage (lt : String → String → Prop) [DecidableRel lt] (db : Tables) (groupId : String)
    (query : LedgerQuery) (_ : Nat) (cursor : Option String) : Except Failure (Page LedgerEntry) :=
  groupLedger lt db groupId { query with cursor }

-- The merged ledger is one exact scan of its tables.
theorem ledger_scan (lt : String → String → Prop) [DecidableRel lt] [IsStrictTotalOrder String lt]
    (db : Tables) (groupId : String) (query : LedgerQuery) (hlimit : 0 < query.limit)
    (hv : ValidRange query.startDate query.endDate) (hd : (db.entries.map idOf).Nodup)
    (hs : SameOrder lt db.entries) :
    ExactScan lt query.order query.limit (ledgerPage lt db groupId query)
      (ledgerTables db groupId query).flatten := by
  have hpage (i : Nat) (c : Option String) : ledgerPage lt db groupId query i c =
      mergedPage lt query.order query.limit (ledgerTables db groupId query) <$> requireCursor c :=
    groupLedger_eq hv hd hs
  have hn := nodup_keys (hd.sublist ((ledgerTables_sublist db groupId query).map idOf))
  refine exactScan_of_serves hlimit hn ?_ ?_
  · exact honest_of_pages hpage fun _ _ => buildPage_hasMore hlimit
  · exact serves_of_pages hpage fun _ position => mergedPage_answer hn position

-- A tie between the tables.
def tied : Tables where
  expenses    := [⟨⟨⟨9, "f"⟩, by decide, by decide⟩, "group", "payer", "XLM", none, none, []⟩]
  settlements := [⟨⟨⟨9, "g"⟩, by decide, by decide⟩, "group", "from", "to", "XLM", ⟨"pending", none, none, none, none⟩⟩]
  treasury    := [⟨⟨⟨9, "e"⟩, by decide, by decide⟩, "group"⟩, ⟨⟨⟨7, "h"⟩, by decide, by decide⟩, "group"⟩]

theorem ledger_scan_sample :
    ExactScan (· < ·) .desc 2 (ledgerPage (· < ·) tied "group" { limit := 2 })
      (ledgerTables tied "group" { limit := 2 }).flatten :=
  ledger_scan (· < ·) tied "group" { limit := 2 } (by decide) rfl (by decide) (by decide +kernel)

end Mergepay.History
