import Mathlib.Data.String.Basic
import Mergepay.Data.Offset
import Mergepay.Theorems.LedgerScan

namespace Mergepay.History

-- The rows that a query selects for a user, table by table

abbrev historyExpenses (db : Tables) (userId : String) (query : HistoryQuery) : List HistoryEntry :=
  (db.expenses.filter (Where.all (expenseUserFilter userId query :: expenseHistoryFilters query)).selects).map
    .expense

abbrev historySettlements (db : Tables) (userId : String) (query : HistoryQuery) : List HistoryEntry :=
  (db.settlements.filter
    (Where.all (settlementUserFilter userId query :: settlementHistoryFilters query)).selects).map .settlement

abbrev historyRows (db : Tables) (userId : String) (query : HistoryQuery) : List HistoryEntry :=
  historyExpenses db userId query ++ historySettlements db userId query

abbrev Tables.historyEntries (db : Tables) : List HistoryEntry :=
  db.expenses.map .expense ++ db.settlements.map .settlement

section Pages

variable (lt : String → String → Prop) [DecidableRel lt] (db : Tables) (userId : String) (query : HistoryQuery)

-- The page with the given number, as a part of all selected rows.
def historySlice (k : Nat) : HistoryPage :=
  let rows := Scan.ordered (cursorOrderBy lt query.order) key (historyRows db userId query)
  let items := (rows.drop (k * query.limit)).take query.limit
  let hasMore : Bool := (k + 1) * query.limit < rows.length
  {
    items
    pageMeta := {
      nextCursor := if hasMore then items.getLast?.map cursorOf else none
      hasMore, limit := query.limit, order := query.order
    }
    total := if query.includeTotal then some rows.length else none
  }

def historyByOffset (k : Nat) : Except Failure HistoryPage :=
  history lt db userId { query with cursor := none, offset := some (k * query.limit) }

def historyByCursor (_ : Nat) (cursor : Option String) : Except Failure (Page HistoryEntry) :=
  HistoryPage.toPage <$> history lt db userId { query with cursor, offset := none }

-- Both ways lead to the same part of the rows, as long as there are rows left in the case of cursors.
structure SamePages (k : Nat) : Prop where
  offset : historyByOffset lt db userId query k = .ok (historySlice lt db userId query k)
  cursor : ∀ page, Reached (historyByCursor lt db userId query) k page ↔
    (k = 0 ∨ k * query.limit < (historyRows db userId query).length) ∧
    page = (historySlice lt db userId query k).toPage
  total  : ∀ cursor page, history lt db userId { query with cursor, offset := none } = .ok page →
    page.total = (historySlice lt db userId query k).total

end Pages

section Merge

variable {lt : String → String → Prop} [DecidableRel lt] [IsStrictTotalOrder String lt]

theorem compareHistory_le_iff [Listed α] {order : SortOrder} {a b : α} (hne : idOf a ≠ idOf b)
    (h : lt (idOf b) (idOf a) ↔ Text.Utf16.Before (idOf b) (idOf a)) :
    compareHistory order a b ≤ 0 ↔ ¬cursorOrderBy lt order (key b) (key a) := by
  have ha := asymm_of lt (a := idOf a) (b := idOf b)
  have ht := trichotomous_of lt (idOf a) (idOf b)
  simp only [compareHistory, cursorOrderBy, SortOrder.direct, ← h]
  cases order <;> grind

variable (lt) in
-- What is read of a table is a window of the rows that are selected from it.
theorem historyWindow [Listed α] {rows : List α} {f : α → HistoryEntry} (w : Where α) (filters : List (Where α))
    (hd : (rows.map idOf).Nodup) (hf : ∀ a, key (f a) = key a) (order : SortOrder)
    (position : Option CursorPosition) (skip n : Nat) :
    (findMany lt rows (.all (w :: cursorFilter lt position order :: filters)) order skip n).map f =
      ((Scan.after (cursorOrderBy lt order) key position (Scan.ordered (cursorOrderBy lt order) key
        ((rows.filter (Where.all (w :: filters)).selects).map f))).drop skip).take n := by
  have hw : findMany lt rows (.all (w :: cursorFilter lt position order :: filters)) order skip n =
      findMany lt rows (.all ((w :: filters) ++ [cursorFilter lt position order])) order skip n := by
    have hs : (Where.all (w :: cursorFilter lt position order :: filters)).selects =
        (Where.all ((w :: filters) ++ [cursorFilter lt position order])).selects := by
      funext a
      simp [Bool.and_comm]
    rw [findMany, findMany, hs]
  rw [hw, findMany_cursorFilter (nodup_keys hd), List.map_take, List.map_drop, map_after hf]

-- What is merged for a page.
def windowsOf (lt : String → String → Prop) [DecidableRel lt] (db : Tables) (userId : String)
    (query : HistoryQuery) (position : Option CursorPosition) : List HistoryEntry :=
  let window (rows : List HistoryEntry) :=
    ((Scan.after (cursorOrderBy lt query.order) key position
      (Scan.ordered (cursorOrderBy lt query.order) key rows)).drop (query.offset.getD 0)).take
      (takeForPage query.limit)
  window (historyExpenses db userId query) ++ window (historySettlements db userId query)

theorem historyRows_sublist (db : Tables) (userId : String) (query : HistoryQuery) :
    (historyRows db userId query).Sublist db.historyEntries :=
  (List.filter_sublist.map _).append (List.filter_sublist.map _)

omit [IsStrictTotalOrder String lt] in
theorem mem_entries_of_mem_windowsOf {db : Tables} {query : HistoryQuery}
    (ha : a ∈ windowsOf lt db userId query position) : a ∈ db.historyEntries := by
  refine (historyRows_sublist db userId query).subset <| List.mem_append.mpr ?_
  refine (List.mem_append.mp ha).imp (fun ha => ?_) fun ha => ?_
  all_goals exact Scan.mem_ordered.mp (Scan.mem_after.mp (List.mem_of_mem_drop (List.mem_of_mem_take ha))).1

omit [IsStrictTotalOrder String lt] in
theorem nodup_windowsOf {db : Tables} {query : HistoryQuery} (hd : (db.historyEntries.map idOf).Nodup) :
    (windowsOf lt db userId query position).Nodup := by
  have hn := nodup_keys (hd.sublist ((historyRows_sublist db userId query).map idOf))
  have hn : ([historyExpenses db userId query, historySettlements db userId query].flatten.map key).Nodup := by
    simpa using hn
  have h := Scan.nodup_windows (r := cursorOrderBy lt query.order) hn
    (w := fun t => ((Scan.after (cursorOrderBy lt query.order) key position
      (Scan.ordered (cursorOrderBy lt query.order) key t)).drop (query.offset.getD 0)).take
      (takeForPage query.limit))
    fun t => (List.take_sublist ..).trans <| (List.drop_sublist ..).trans List.filter_sublist
  simpa [windowsOf] using h.of_map

theorem history_eq {db : Tables} (query : HistoryQuery) (hd : (db.historyEntries.map idOf).Nodup)
    (hs : SameOrder lt db.historyEntries) : history lt db userId query =
      (fun position => {
        toPage := buildPage (Scan.ordered (cursorOrderBy lt query.order) key
          (windowsOf lt db userId query position)) query.limit query.order
        total  := if query.includeTotal then some (historyRows db userId query).length else none
      }) <$> requireCursor query.cursor := by
  simp only [history, Bool.cond_eq_ite]
  cases requireCursor query.cursor with
  | error => rfl
  | ok position =>
    have hids := hd
    simp only [Tables.historyEntries, List.map_append, List.nodup_append, List.map_map] at hids
    have he := historyWindow lt (expenseUserFilter userId query) (expenseHistoryFilters query)
      (f := .expense) hids.1 (fun _ => rfl) query.order position
      (query.offset.getD 0) (takeForPage query.limit)
    have hse := historyWindow lt (settlementUserFilter userId query) (settlementHistoryFilters query)
      (f := .settlement) hids.2.1 (fun _ => rfl) query.order position
      (query.offset.getD 0) (takeForPage query.limit)
    have hsort : (windowsOf lt db userId query position).insertionSort (compareHistory query.order · · ≤ 0) =
        Scan.ordered (cursorOrderBy lt query.order) key (windowsOf lt db userId query position) := by
      refine Scan.insertionSort_eq_ordered (nodup_windowsOf hd) fun a ha b hb hne => ?_
      have ha := mem_entries_of_mem_windowsOf ha
      have hb := mem_entries_of_mem_windowsOf hb
      exact compareHistory_le_iff (fun he => hne (List.inj_on_of_nodup_map hd ha hb he)) (hs b hb a ha)
    have hl : (historyRows db userId query).length =
        db.expenses.countP (Where.all (expenseUserFilter userId query :: expenseHistoryFilters query)).selects +
        db.settlements.countP
          (Where.all (settlementUserFilter userId query :: settlementHistoryFilters query)).selects := by
      rw [historyRows, List.length_append, List.length_map, List.length_map, List.countP_eq_length_filter,
        List.countP_eq_length_filter]
    change _ = Except.ok (HistoryPage.mk (buildPage (Scan.ordered (cursorOrderBy lt query.order) key
      (windowsOf lt db userId query position)) query.limit query.order) _)
    rw [hl, ← hsort, ← show _ = windowsOf lt db userId query position from congrArg₂ (· ++ ·) he hse]
    rfl

omit [IsStrictTotalOrder String lt] in
-- Which page it is depends on the rows that are merged for it.
theorem page_eq_iff {l : List HistoryEntry} {query : HistoryQuery} (k : Nat) :
    (⟨buildPage l query.limit query.order,
      if query.includeTotal then some (historyRows db userId query).length else none⟩ : HistoryPage) =
      historySlice lt db userId query k ↔
    l.take query.limit =
      ((Scan.ordered (cursorOrderBy lt query.order) key (historyRows db userId query)).drop
        (k * query.limit)).take query.limit ∧
    (query.limit < l.length ↔ k * query.limit + query.limit < (historyRows db userId query).length) := by
  have hlen : (Scan.ordered (cursorOrderBy lt query.order) key (historyRows db userId query)).length =
      (historyRows db userId query).length := Scan.length_ordered
  have hitems : (if query.limit < l.length then l.take query.limit else l) = l.take query.limit := by
    split
    case isTrue  => rfl
    case isFalse => rw [List.take_of_length_le (by omega)]
  simp only [buildPage, historySlice, hlen, Nat.add_mul, Nat.one_mul, decide_eq_true_eq, hitems,
    HistoryPage.mk.injEq, Page.mk.injEq, PageMeta.mk.injEq, decide_eq_decide, and_true]
  constructor
  case mp =>
    rintro ⟨hi, _, hm⟩
    exact ⟨hi, hm⟩
  case mpr =>
    rintro ⟨hi, hm⟩
    refine ⟨hi, ?_, hm⟩
    rw [hi]
    simp only [hm]

theorem historyByCursor_eq {db : Tables} {query : HistoryQuery} (hd : (db.historyEntries.map idOf).Nodup)
    (hs : SameOrder lt db.historyEntries) (i : Nat) (c : Option String) :
    historyByCursor lt db userId query i c =
      mergedPage lt query.order query.limit [historyExpenses db userId query, historySettlements db userId query] <$>
        requireCursor c := by
  rw [historyByCursor, history_eq { query with cursor := c, offset := none } hd hs]
  cases requireCursor c with
  | error       => rfl
  | ok position =>
    refine congrArg (fun l => Except.ok (buildPage (Scan.ordered (cursorOrderBy lt query.order) key l) query.limit
      query.order)) ?_
    rw [List.flatMap_cons, List.flatMap_singleton]
    rfl

theorem historyByOffset_eq {db : Tables} {query : HistoryQuery} (hd : (db.historyEntries.map idOf).Nodup)
    (hs : SameOrder lt db.historyEntries) (k : Nat) : historyByOffset lt db userId query k = .ok {
      toPage := buildPage (Scan.mergedWindows (cursorOrderBy lt query.order) key (k * query.limit)
        (takeForPage query.limit) (historyExpenses db userId query) (historySettlements db userId query))
        query.limit query.order
      total  := if query.includeTotal then some (historyRows db userId query).length else none
    } := by
  rw [historyByOffset,
    history_eq { query with cursor := none, offset := some (k * query.limit) } hd hs]
  refine congrArg (fun l => Except.ok (HistoryPage.mk (buildPage (Scan.ordered (cursorOrderBy lt query.order) key l)
    query.limit query.order) _)) ?_
  simp only [windowsOf, Scan.after_none]
  rfl

omit [IsStrictTotalOrder String lt] in
theorem historySlice_answer {db : Tables} {query : HistoryQuery} (k : Nat) :
    (historySlice lt db userId query k).toPage.answer = Scan.nth cursorOf query.limit
      (Scan.ordered (cursorOrderBy lt query.order) key (historyRows db userId query)) k := by
  have hm : (k + 1) * query.limit < (historyRows db userId query).length ↔
      query.limit < (historyRows db userId query).length - k * query.limit := by
    rw [Nat.add_mul, Nat.one_mul]
    omega
  simp only [historySlice, Page.answer, Scan.nth, Scan.page, decide_eq_true_eq, List.length_drop,
    Scan.length_ordered, hm]

omit [IsStrictTotalOrder String lt] in
theorem historySlice_hasMore {db : Tables} {query : HistoryQuery} (hlimit : 0 < query.limit) (k : Nat) :
    (historySlice lt db userId query k).pageMeta.hasMore =
      (historySlice lt db userId query k).pageMeta.nextCursor.isSome := by
  simp only [historySlice]
  generalize Scan.ordered (cursorOrderBy lt query.order) key (historyRows db userId query) = rows
  by_cases hm : (k + 1) * query.limit < rows.length
  case neg => simp [hm]
  case pos =>
    have hne : (rows.drop (k * query.limit)).take query.limit ≠ [] := by
      rw [Nat.add_mul] at hm
      rw [Ne, List.take_eq_nil_iff, List.drop_eq_nil_iff]
      omega
    simp [hm, List.getLast?_eq_some_getLast hne]

theorem reached_iff {db : Tables} {query : HistoryQuery} (hlimit : 0 < query.limit)
    (hd : (db.historyEntries.map idOf).Nodup) (hs : SameOrder lt db.historyEntries)
    (page : Page HistoryEntry) : Reached (historyByCursor lt db userId query) k page ↔
      (k = 0 ∨ k * query.limit < (historyRows db userId query).length) ∧
      page = (historySlice lt db userId query k).toPage := by
  have hkeys := nodup_keys (hd.sublist ((historyRows_sublist db userId query).map idOf))
  have hpages : ∀ i c, historyByCursor lt db userId query i c = _ := historyByCursor_eq hd hs
  have hh := honest_of_pages hpages fun _ _ => buildPage_hasMore hlimit
  have hr : Scan.Serves (cursorOrderBy lt query.order) key cursorOf query.limit
      (answers (historyByCursor lt db userId query)) fun _ => historyRows db userId query := by
    refine serves_of_pages hpages fun _ position => ?_
    rw [mergedPage_answer (by simpa using hkeys), List.flatten_cons, List.flatten_cons, List.flatten_nil,
      List.append_nil]
  have hreached (page : Page HistoryEntry) (h : Reached (historyByCursor lt db userId query) k page) :
      (k = 0 ∨ k * query.limit < (historyRows db userId query).length) ∧
      page = (historySlice lt db userId query k).toPage := by
    have ⟨hk, ha⟩ := h.answer hlimit hkeys hr
    have ⟨pages, hscanned, _, hpage⟩ := h
    have hpage := List.mem_of_getElem? hpage
    have ⟨i, c, hc⟩ := hscanned.mem_request hpage
    rw [hpages] at hc
    obtain ⟨position, _, rfl⟩ := Except.map_eq_ok.mp hc
    refine ⟨(Scan.lt_count_iff hlimit).mp hk, ?_⟩
    exact Page.eq_of_answer (ha.trans (historySlice_answer k).symm) (hscanned.honest hh hpage)
      (historySlice_hasMore hlimit k) rfl rfl
  refine ⟨hreached page, fun ⟨hk, hp⟩ => ?_⟩
  have ⟨page', h⟩ := exists_reached hlimit hkeys hh hr ((Scan.lt_count_iff hlimit).mpr hk)
  rw [hp, ← (hreached page' h).2]
  exact h

end Merge

-- Pages by offset are the same as pages by cursor if and only if nothing is skipped, or one of the tables has
-- no rows, or there are no rows left, or all rows up to the end of the page come from one table and there is a
-- further row that is not skipped.
theorem history_pages (lt : String → String → Prop) [DecidableRel lt] [IsStrictTotalOrder String lt] (db : Tables)
    (userId : String) (query : HistoryQuery) (k : Nat) (hlimit : 0 < query.limit)
    (hd : (db.historyEntries.map idOf).Nodup) (hs : SameOrder lt db.historyEntries) :
    SamePages lt db userId query k ↔
      k = 0 ∨ historyExpenses db userId query = [] ∨ historySettlements db userId query = [] ∨
      (historyRows db userId query).length ≤ k * query.limit ∨
      Scan.Aligned (cursorOrderBy lt query.order) key query.limit (k * query.limit)
        (historyExpenses db userId query) (historySettlements db userId query) ∨
      Scan.Aligned (cursorOrderBy lt query.order) key query.limit (k * query.limit)
        (historySettlements db userId query) (historyExpenses db userId query) := by
  have hkeys := nodup_keys (hd.sublist ((historyRows_sublist db userId query).map idOf))
  have hagrees := Scan.agrees_iff (r := cursorOrderBy lt query.order) (o := k * query.limit) hkeys hlimit
  rw [Nat.mul_eq_zero, or_iff_left (Nat.ne_of_gt hlimit)] at hagrees
  rw [← hagrees]
  have hoffset : historyByOffset lt db userId query k = _ := historyByOffset_eq hd hs k
  constructor
  case mp  => exact fun h => (page_eq_iff k).mp <| Except.ok.inj <| hoffset.symm.trans h.offset
  case mpr =>
    intro h
    refine ⟨hoffset.trans <| congrArg Except.ok <| (page_eq_iff k).mpr h, reached_iff hlimit hd hs, ?_⟩
    intro c page hp
    rw [history_eq { query with cursor := c, offset := none } hd hs] at hp
    obtain ⟨position, _, rfl⟩ := Except.map_eq_ok.mp hp
    have ht : (historySlice lt db userId query k).total =
        if query.includeTotal then some (historyRows db userId query).length else none := by
      simp only [historySlice, Scan.length_ordered]
    exact ht.symm

-- Expenses and settlements of the user at the given times
def paidAt (t : Nat) (id : String) (hi : id ≠ "") (ht : (t : Int).natAbs ≤ maxTime) : ExpenseRow :=
  ⟨⟨⟨t, id⟩, hi, ht⟩, "group", "alice", "XLM", none, none, []⟩

def settledAt (t : Nat) (id : String) (hi : id ≠ "") (ht : (t : Int).natAbs ≤ maxTime) : SettlementRow :=
  ⟨⟨⟨t, id⟩, hi, ht⟩, "group", "alice", "bob", "XLM", ⟨"pending", none, none, none, none⟩⟩

-- The second page consists of the second and third expense.
def early : Tables where
  expenses    := [
      paidAt 9 "a" (by decide) (by decide), paidAt 8 "b" (by decide) (by decide), paidAt 7 "c" (by decide) (by decide)
    ]
  settlements := [settledAt 6 "d" (by decide) (by decide)]

-- The second page consists of the settlement, which is skipped.
def interleaved : Tables where
  expenses    := [paidAt 9 "a" (by decide) (by decide)]
  settlements := [settledAt 8 "b" (by decide) (by decide)]

theorem history_pages_sample :
    SamePages (· < ·) early "alice" { limit := 1 } 1 ∧ ¬SamePages (· < ·) interleaved "alice" { limit := 1 } 1 := by
  have h₁ := history_pages (· < ·) early "alice" { limit := 1 } 1 (by decide) (by decide) (by decide +kernel)
  have h₂ := history_pages (· < ·) interleaved "alice" { limit := 1 } 1 (by decide) (by decide) (by decide +kernel)
  rw [h₁, h₂]
  refine ⟨.inr <| .inr <| .inr <| .inr <| .inl ⟨by decide +kernel, by decide +kernel, by decide +kernel⟩, ?_⟩
  rintro (h | h | h | h | ⟨h, _⟩ | ⟨h, _⟩)
  all_goals exact absurd h (by decide +kernel)

theorem history_page_skipped : ¬∀ (db : Tables) (userId : String) (query : HistoryQuery) (k : Nat),
    0 < query.limit → (db.historyEntries.map idOf).Nodup → SameOrder (· < ·) db.historyEntries →
    SamePages (· < ·) db userId query k := by
  intro h
  have h := h interleaved "alice" { limit := 1 } 1 (by decide) (by decide) (by decide +kernel)
  exact absurd h.offset (by decide +kernel)

end Mergepay.History
