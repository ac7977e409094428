import Mathlib.Data.String.Basic
import Mergepay.History.Ledger
import Mergepay.History.Scans

namespace Mergepay.History

-- Who is concerned by a row, given the groups of which the user is a member

def ExpenseRow.Concerns (userId : String) (groups : Set String) (e : ExpenseRow) : Prop :=
  e.payerUserId = userId ∨ (∃ s ∈ e.shares, s.userId = userId) ∨ e.groupId ∈ groups

def SettlementRow.Concerns (userId : String) (groups : Set String) (s : SettlementRow) : Prop :=
  s.fromUserId = userId ∨ s.toUserId = userId ∨ s.groupId ∈ groups

structure Tables.Valid (db : Tables) : Prop where
  expenses    : (db.expenses.map idOf).Nodup
  settlements : (db.settlements.map idOf).Nodup

-- The states look the same to a user.
structure Tables.Alike (userId : String) (groups : Set String) (db₁ db₂ : Tables) : Prop where
  expenses    : ∀ e : ExpenseRow, e.Concerns userId groups → (e ∈ db₁.expenses ↔ e ∈ db₂.expenses)
  settlements : ∀ s : SettlementRow, s.Concerns userId groups → (s ∈ db₁.settlements ↔ s ∈ db₂.settlements)

def HistoryPrivate (lt : String → String → Prop) [DecidableRel lt] (userId : String) (groups : Set String)
    (query : HistoryQuery) : Prop :=
  ∀ db₁ db₂ : Tables, db₁.Valid → db₂.Valid → db₁.Alike userId groups db₂ →
    history lt db₁ userId query = history lt db₂ userId query

-- The creation times that a query asks for.
def HistoryQuery.InRange (query : HistoryQuery) (t : Time) : Prop :=
  (∀ d ∈ query.fromDate <|> query.startDate, d ≤ t) ∧ ∀ d ∈ query.toDate <|> query.endDate, t ≤ d

-- No row can be seen by means of the query: none has a creation time in the range, if they are counted, and no
-- more rows can come after the cursor than are skipped.
structure Blind (lt : String → String → Prop) (query : HistoryQuery) (position : Option CursorPosition) : Prop where
  total : query.includeTotal = true → ∀ p : Position, ¬query.InRange p.createdAt
  items : ∀ ps : List Position, (ps.map (·.id)).Nodup →
    (∀ p ∈ ps, query.InRange p.createdAt ∧ ∀ c ∈ position, cursorOrderBy lt query.order c p.toCursorPosition) →
    ps.length ≤ query.offset.getD 0

section Filters

variable {lt : String → String → Prop} [DecidableRel lt]

theorem selects_dateFilter [Listed α] {startDate endDate : Option Time} {a : α} :
    (dateFilter startDate endDate).selects a = true ↔
      (∀ t ∈ startDate, t ≤ (key a).createdAt) ∧ ∀ t ∈ endDate, (key a).createdAt ≤ t := by
  cases startDate <;> cases endDate <;> simp [dateFilter]

variable (lt) in
-- What is read depends on the selected rows only.
theorem findMany_congr [Listed α] [IsStrictTotalOrder String lt] {w : Where α} {rows₁ rows₂ : List α}
    (order : SortOrder) (skip n : Nat) (h₁ : (rows₁.map idOf).Nodup) (h₂ : (rows₂.map idOf).Nodup)
    (h : ∀ a, w.selects a = true → (a ∈ rows₁ ↔ a ∈ rows₂)) :
    findMany lt rows₁ w order skip n = findMany lt rows₂ w order skip n ∧
    rows₁.countP w.selects = rows₂.countP w.selects := by
  have hp : (rows₁.filter w.selects).Perm (rows₂.filter w.selects) := by
    refine (List.perm_ext_iff_of_nodup (h₁.of_map.filter _) (h₂.of_map.filter _)).mpr fun a => ?_
    simp only [List.mem_filter]
    exact ⟨fun ⟨ha, hw⟩ => ⟨(h a hw).mp ha, hw⟩, fun ⟨ha, hw⟩ => ⟨(h a hw).mpr ha, hw⟩⟩
  constructor
  · rw [findMany, findMany, Scan.ordered_perm (nodup_matching h₁ _) hp]
  · rw [List.countP_eq_length_filter, List.countP_eq_length_filter, hp.length_eq]

variable {query : HistoryQuery} {userId : String}

theorem inRange_of_selects [Listed α] {assetCode : α → String} {filters : List (Where α)} {a : α}
    (h : (Where.all (historyFilters assetCode query ++ filters)).selects a = true) :
    query.InRange (key a).createdAt := by
  simp only [Where.selects_all, historyFilters, List.all_append, List.all_cons, Bool.and_eq_true] at h
  exact selects_dateFilter.mp h.1.2.1

-- Nothing is read without a position that can be seen.
theorem findMany_of_blind [Listed α] {position : Option CursorPosition} {w : Where α} {filters : List (Where α)}
    {rows : List α} (hb : Blind lt query position) (hd : (rows.map idOf).Nodup)
    (hr : ∀ a, (Where.all filters).selects a = true → query.InRange (key a).createdAt) :
    findMany lt rows (.all (w :: cursorFilter lt position query.order :: filters)) query.order
      (query.offset.getD 0) n = [] ∧
    (query.includeTotal = true → rows.countP (Where.all (w :: filters)).selects = 0) := by
  constructor
  · have hl : (rows.filter (Where.all (w :: cursorFilter lt position query.order :: filters)).selects).length ≤
        query.offset.getD 0 := by
      have h := hb.items ((rows.filter
        (Where.all (w :: cursorFilter lt position query.order :: filters)).selects).map Listed.position) ?_ ?_
      · rwa [List.length_map] at h
      · rw [List.map_map]
        exact hd.sublist (List.filter_sublist.map idOf)
      · intro p hp
        obtain ⟨a, ha, rfl⟩ := List.mem_map.mp hp
        have hw := (List.mem_filter.mp ha).2
        simp only [Where.selects_all, List.all_cons, selects_cursorFilter, Bool.and_eq_true, Option.all_eq_true,
          decide_eq_true_eq] at hw
        exact ⟨hr a (by simpa using hw.2.2), fun c hc => hw.2.1 c hc⟩
    rw [findMany, List.drop_eq_nil_of_le (by rwa [Scan.length_ordered]), List.take_nil]
  · intro ht
    refine List.countP_eq_zero.mpr fun a _ hw => hb.total ht (Listed.position a) ?_
    simp only [Where.selects_all, List.all_cons, Bool.and_eq_true] at hw
    exact hr a (by simpa using hw.2)

-- The response depends on the rows in the scope of the query only.
theorem history_congr [IsStrictTotalOrder String lt] {db₁ db₂ : Tables} (h₁ : db₁.Valid) (h₂ : db₂.Valid)
    (he : ∀ e, (expenseUserFilter userId query).selects e = true → (e ∈ db₁.expenses ↔ e ∈ db₂.expenses))
    (hs : ∀ s, (settlementUserFilter userId query).selects s = true →
      (s ∈ db₁.settlements ↔ s ∈ db₂.settlements)) :
    history lt db₁ userId query = history lt db₂ userId query := by
  have scope {α : Type} {w : Where α} {filters : List (Where α)} {a : α}
      (h : (Where.all (w :: filters)).selects a = true) : w.selects a = true := by
    simp only [Where.selects_all, List.all_cons, Bool.and_eq_true] at h
    exact h.1
  unfold history
  cases requireCursor query.cursor with
  | error       => rfl
  | ok position =>
    have hel := fun filters => findMany_congr lt query.order (query.offset.getD 0) (takeForPage query.limit)
      (w := .all (expenseUserFilter userId query :: filters)) h₁.expenses h₂.expenses
      fun e hw => he e (scope hw)
    have hsl := fun filters => findMany_congr lt query.order (query.offset.getD 0) (takeForPage query.limit)
      (w := .all (settlementUserFilter userId query :: filters)) h₁.settlements
      h₂.settlements fun s hw => hs s (scope hw)
    simp only [(hel _).1, (hel _).2, (hsl _).1, (hsl _).2]

theorem history_of_blind {position : Option CursorPosition} {db : Tables} (hv : db.Valid)
    (hc : requireCursor query.cursor = .ok position) (hb : Blind lt query position) :
    history lt db userId query = .ok {
      toPage := buildPage [] query.limit query.order
      total  := if query.includeTotal then some 0 else none
    } := by
  have he := findMany_of_blind (w := expenseUserFilter userId query) (n := takeForPage query.limit) hb hv.expenses
    fun e (h : (Where.all (expenseHistoryFilters query)).selects e = true) => inRange_of_selects h
  have hs := findMany_of_blind (w := settlementUserFilter userId query) (n := takeForPage query.limit) hb
    hv.settlements fun s (h : (Where.all (settlementHistoryFilters query)).selects s = true) => inRange_of_selects h
  have ht : (if query.includeTotal then some <|
      db.expenses.countP (Where.all (expenseUserFilter userId query :: expenseHistoryFilters query)).selects +
      db.settlements.countP (Where.all (settlementUserFilter userId query :: settlementHistoryFilters query)).selects
      else none) = if query.includeTotal then some 0 else none := by
    split
    case isTrue h  => rw [he.2 h, hs.2 h]
    case isFalse h => rfl
  have hbind (f : Option CursorPosition → Except Failure HistoryPage) : (Except.ok position >>= f) = f position := rfl
  simp only [history, hc, hbind, he.1, hs.1, ht]
  rfl

-- A settlement between others that a query for their group selects.
def foreignSettlement (query : HistoryQuery) (userId groupId : String) (p : Position) : SettlementRow where
  position   := p
  groupId    := groupId
  fromUserId := userId ++ "'"
  toUserId   := userId ++ "'"
  assetCode  := (given (query.assetCode <|> query.asset)).getD "XLM"
  status     := ⟨(given query.status).getD "pending", none, none, none, none⟩

theorem not_concerns_foreignSettlement {groups : Set String} (hg : groupId ∉ groups) (p : Position) :
    ¬(foreignSettlement query userId groupId p).Concerns userId groups := by
  have hne : userId ++ "'" ≠ userId := by
    intro h
    have := congrArg String.length h
    rw [String.length_append] at this
    have : "'".length = 1 := rfl
    omega
  simp [SettlementRow.Concerns, foreignSettlement, hne, hg]

theorem selects_foreignSettlement {p : Position} (userId : String) (hg : given query.groupId = some groupId)
    (hp : query.InRange p.createdAt) :
    (Where.all (settlementUserFilter userId query :: settlementHistoryFilters query)).selects
      (foreignSettlement query userId groupId p) = true := by
  have hu : (settlementUserFilter userId query).selects (foreignSettlement query userId groupId p) = true := by
    simp [settlementUserFilter, hg, foreignSettlement]
  have hd : (dateFilter (query.fromDate <|> query.startDate) (query.toDate <|> query.endDate)).selects
      (foreignSettlement query userId groupId p) = true := selects_dateFilter.mpr hp
  simp only [Where.selects_all, List.all_cons, hu, settlementHistoryFilters, historyFilters, List.all_append,
    hd, List.all_nil, Bool.true_and, Bool.and_true, Bool.and_eq_true]
  simp only [foreignSettlement]
  constructor
  · cases given (query.assetCode <|> query.asset) <;> simp
  · cases given query.status <;> simp

-- The settlements of others at the given positions.
def foreignTables (query : HistoryQuery) (userId groupId : String) (ps : List Position) : Tables where
  settlements := ps.map (foreignSettlement query userId groupId)

theorem foreignTables_valid {ps : List Position} (h : (ps.map (·.id)).Nodup) :
    (foreignTables query userId groupId ps).Valid := by
  refine ⟨List.nodup_nil, ?_⟩
  rw [foreignTables, List.map_map]
  exact h

theorem foreignTables_alike {groups : Set String} (hg : groupId ∉ groups) (ps : List Position) :
    (foreignTables query userId groupId ps).Alike userId groups {} := by
  refine ⟨fun _ _ => Iff.rfl, fun s hs => iff_of_false (fun hm => ?_) List.not_mem_nil⟩
  obtain ⟨p, _, rfl⟩ := List.mem_map.mp hm
  exact not_concerns_foreignSettlement hg p hs

theorem history_foreignTables {position : Option CursorPosition} {ps : List Position}
    (hc : requireCursor query.cursor = .ok position) :
    history lt (foreignTables query userId groupId ps) userId query = .ok {
      toPage := buildPage (((findMany lt (ps.map (foreignSettlement query userId groupId))
        (.all (settlementUserFilter userId query :: cursorFilter lt position query.order ::
          settlementHistoryFilters query)) query.order (query.offset.getD 0) (takeForPage query.limit)).map
        HistoryEntry.settlement).insertionSort fun a b => compareHistory query.order a b ≤ 0) query.limit query.order
      total  := if query.includeTotal then some <| (ps.map (foreignSettlement query userId groupId)).countP
        (Where.all (settlementUserFilter userId query :: settlementHistoryFilters query)).selects else none
    } := by
  have hbind (f : Option CursorPosition → Except Failure HistoryPage) : (Except.ok position >>= f) = f position := rfl
  have hnil (w : Where ExpenseRow) (skip n : Nat) : findMany lt [] w query.order skip n = [] := by
    simp [findMany, Scan.ordered]
  simp only [history, hc, hbind, foreignTables, hnil, List.map_nil, List.nil_append, List.countP_nil, Nat.zero_add,
    Bool.cond_eq_ite]
  rfl

-- What a query that is not blind reveals.
theorem history_foreign_ne {position : Option CursorPosition} (userId : String) (hlimit : 0 < query.limit)
    (hg : given query.groupId = some groupId) (hc : requireCursor query.cursor = .ok position)
    (hb : ¬Blind lt query position) : ∃ ps : List Position, (ps.map (·.id)).Nodup ∧
      history lt (foreignTables query userId groupId ps) userId query ≠
        history lt (foreignTables query userId groupId []) userId query := by
  by_cases ht : query.includeTotal = true → ∀ p : Position, ¬query.InRange p.createdAt
  case neg =>
    simp only [not_forall, not_not] at ht
    obtain ⟨ht, p, hp⟩ := ht
    refine ⟨[p], List.nodup_singleton _, fun he => ?_⟩
    rw [history_foreignTables hc, history_foreignTables hc, Except.ok.injEq, HistoryPage.mk.injEq] at he
    simp [ht, selects_foreignSettlement userId hg hp] at he
  case pos =>
    have hitems : ¬∀ ps : List Position, (ps.map (·.id)).Nodup →
        (∀ p ∈ ps, query.InRange p.createdAt ∧ ∀ c ∈ position, cursorOrderBy lt query.order c p.toCursorPosition) →
        ps.length ≤ query.offset.getD 0 := fun h => hb ⟨ht, h⟩
    simp only [not_forall, Nat.not_le] at hitems
    obtain ⟨ps, hps, hin, hlt⟩ := hitems
    refine ⟨ps, hps, fun he => ?_⟩
    rw [history_foreignTables hc, history_foreignTables hc, Except.ok.injEq, HistoryPage.mk.injEq] at he
    have he := congrArg (fun page => page.answer.items.length) he.1
    have hselected : ∀ p ∈ ps, (Where.all (settlementUserFilter userId query ::
        cursorFilter lt position query.order :: settlementHistoryFilters query)).selects
        (foreignSettlement query userId groupId p) = true := by
      intro p hp
      have hf := selects_foreignSettlement userId hg (hin p hp).1
      simp only [Where.selects_all, List.all_cons, Bool.and_eq_true] at hf
      simp only [Where.selects_all, List.all_cons, Bool.and_eq_true, selects_cursorFilter, Option.all_eq_true,
        decide_eq_true_eq]
      exact ⟨hf.1, (hin p hp).2, hf.2⟩
    have hfilter := List.filter_eq_self.mpr fun s hs => by
      obtain ⟨p, hp, rfl⟩ := List.mem_map.mp hs
      exact hselected p hp
    simp only [buildPage_answer, Scan.page, List.length_take, List.length_insertionSort, List.length_map, findMany,
      hfilter, List.length_drop, Scan.length_ordered, takeForPage, List.map_nil, List.filter_nil, List.length_nil,
      Nat.zero_sub, Nat.min_zero] at he
    omega

end Filters

-- A user sees nothing of the rows of others if and only if the query does not name a group, or names a group of
-- the user, or is blind.
theorem history_private (lt : String → String → Prop) [DecidableRel lt] [IsStrictTotalOrder String lt]
    (userId : String) (groups : Set String) (query : HistoryQuery) (hlimit : 0 < query.limit) :
    HistoryPrivate lt userId groups query ↔
      (∀ groupId, given query.groupId = some groupId → groupId ∈ groups) ∨
      ∀ position, requireCursor query.cursor = .ok position → Blind lt query position := by
  constructor
  case mp =>
    intro h
    by_contra hno
    simp only [not_or, not_forall] at hno
    have ⟨⟨groupId, hg, hng⟩, position, hc, hb⟩ := hno
    have ⟨ps, hps, hne⟩ := history_foreign_ne userId hlimit hg hc hb
    exact hne <| h _ _ (foreignTables_valid hps) (foreignTables_valid List.nodup_nil) (foreignTables_alike hng ps)
  case mpr =>
    rintro (hg | hb) db₁ db₂ h₁ h₂ ha
    case inl =>
      refine history_congr h₁ h₂ (fun e he => ha.expenses e ?_) fun s hs => ha.settlements s ?_
      · unfold expenseUserFilter at he
        cases h : given query.groupId with
        | none         =>
          have he : e.payerUserId = userId ∨ ∃ s ∈ e.shares, s.userId = userId := by simpa [h] using he
          exact he.imp_right .inl
        | some groupId =>
          have he : e.groupId = groupId := by simpa [h] using he
          exact .inr <| .inr <| he ▸ hg groupId h
      · unfold settlementUserFilter at hs
        cases h : given query.groupId with
        | none         =>
          have hs : s.fromUserId = userId ∨ s.toUserId = userId := by simpa [h] using hs
          exact hs.imp_right .inl
        | some groupId =>
          have hs : s.groupId = groupId := by simpa [h] using hs
          exact .inr <| .inr <| hs ▸ hg groupId h
    case inr =>
      cases hc : requireCursor query.cursor with
      | error e     => simp only [history, hc]; rfl
      | ok position => rw [history_of_blind h₁ hc (hb position hc), history_of_blind h₂ hc (hb position hc)]

def foreignPosition : Position :=
  ⟨⟨0, "a"⟩, by decide, by decide⟩

theorem history_private_sample :
    HistoryPrivate (· < ·) "mallory" ∅ {} ∧ ¬HistoryPrivate (· < ·) "mallory" ∅ { groupId := some "group" } := by
  rw [history_private (· < ·) "mallory" ∅ {} (by decide),
    history_private (· < ·) "mallory" ∅ { groupId := some "group" } (by decide)]
  refine ⟨.inl fun groupId h => absurd h (by simp [given]), ?_⟩
  rintro (h | h)
  · exact h "group" rfl
  · exact absurd ((h none rfl).items [foreignPosition] (by decide) (by simp [HistoryQuery.InRange])) (by decide)

-- A user without groups asks for the history of a group. One settlement between others makes a difference.
theorem history_revealed : ¬∀ (userId : String) (groups : Set String) (query : HistoryQuery),
    0 < query.limit → HistoryPrivate (· < ·) userId groups query := by
  intro h
  have h := h "mallory" ∅ { groupId := some "group" } (by decide)
    { settlements := [⟨foreignPosition, "group", "alice", "bob", "XLM", ⟨"pending", none, none, none, none⟩⟩] } {}
    ⟨by decide, by decide⟩ ⟨by decide, by decide⟩ ⟨fun _ _ => Iff.rfl, fun s hs => ?_⟩
  · exact absurd h (by decide +kernel)
  · refine iff_of_false (fun hm => ?_) List.not_mem_nil
    rw [List.mem_singleton.mp hm] at hs
    simp [SettlementRow.Concerns] at hs

end Mergepay.History
