import Mergepay.Balance.Engine
import Mergepay.Data.Table
import Mergepay.Settlement.Routes
import Mergepay.Settlement.Rows

namespace Mergepay

open Money Table

-- The shares of a list of expenses, each together with its expense.
def bills (expenses : List ExpenseWithShares) : List (Expense × ExpenseShare) :=
  expenses.flatMap fun e => e.shares.map (e.toExpense, ·)

abbrev World.bills (w : World) (groupId : String) : List (Expense × ExpenseShare) :=
  Mergepay.bills (w.groupExpenses groupId)

def Expense.key (e : Expense) : String :=
  balanceAssetKey e.assetCode e.assetIssuer

def Settlement.key (s : Settlement) : String :=
  balanceAssetKey s.assetCode s.assetIssuer

-- The total of the shares which satisfy a condition.
abbrev charged (p : Expense → ExpenseShare → Bool) (l : List (Expense × ExpenseShare)) : Int :=
  total (·.2.shareAmount) (fun b => p b.1 b.2) l

-- The total of the settlements which satisfy a condition.
abbrev transferred (p : Settlement → Bool) (l : List Settlement) : Int :=
  total (·.amount) p l

-- The balances of a group

def shareRow (b : Expense × ExpenseShare) : Balance.AssetShareRow := {
  payerUserId := b.1.payerUserId
  userId      := b.2.userId
  shareAmount := columnText b.2.shareAmount
  settled     := b.2.status = .settled
  assetCode   := b.1.assetCode
  assetIssuer := b.1.assetIssuer
}

def settlementRow (s : Settlement) : Balance.AssetSettlementRow := {
  fromUserId  := s.fromUserId
  toUserId    := s.toUserId
  amount      := columnText s.amount
  confirmed   := s.status = .confirmed
  assetCode   := s.assetCode
  assetIssuer := s.assetIssuer
}

def loadAssetBalanceRows (w : World) (groupId : String) :
    List Balance.AssetShareRow × List Balance.AssetSettlementRow :=
  ((w.bills groupId).map shareRow, (w.groupSettlements groupId).map settlementRow)

def loadGroupBalancesByAsset (R : Registry) (w : World) (groupId : String) :
    Except Failure (List Balance.AssetNetBalances) :=
  let (shares, settlements) := loadAssetBalanceRows w groupId
  Balance.computeNetBalancesByAsset R shares settlements

-- What is owed to a user, and by a user, according to the shares of an asset.

def owedTo (key user : String) (e : Expense) (s : ExpenseShare) : Bool :=
  e.key = key ∧ e.payerUserId = user ∧ s.userId ≠ user

def owedBy (key user : String) (e : Expense) (s : ExpenseShare) : Bool :=
  e.key = key ∧ e.payerUserId ≠ user ∧ s.userId = user

def unsettled (p : Expense → ExpenseShare → Bool) (e : Expense) (s : ExpenseShare) : Bool :=
  p e s && s.status ≠ .settled

def settled (p : Expense → ExpenseShare → Bool) (e : Expense) (s : ExpenseShare) : Bool :=
  p e s && s.status = .settled

-- What a user has sent and received according to the confirmed settlements.

def sent (key user : String) (s : Settlement) : Bool :=
  s.status = .confirmed ∧ s.key = key ∧ s.fromUserId = user

def received (key user : String) (s : Settlement) : Bool :=
  s.status = .confirmed ∧ s.key = key ∧ s.toUserId = user

theorem charged_split {p : Expense → ExpenseShare → Bool} :
    charged p l = charged (unsettled p) l + charged (settled p) l := by
  refine (total_split fun b => b.2.status ≠ .settled).trans ?_
  congr 1
  exact total_congr fun b _ => by simp [settled]

theorem stroops_columnText (h : toStroops (columnText n) = .ok m) :
    Balance.stroops (columnText n) = n := by
  rw [Balance.stroops_eq h]
  exact (columnStroops_eq_ok_iff.mp h).2

theorem delta_shareRow (b : Expense × ExpenseShare)
    (h : (shareRow b).toShareRow.Counts → ∃ n, toStroops (columnText b.2.shareAmount) = .ok n) :
    (shareRow b).toShareRow.delta u =
      (if b.2.status ≠ .settled ∧ b.1.payerUserId = u ∧ b.2.userId ≠ u then b.2.shareAmount else 0) -
      (if b.2.status ≠ .settled ∧ b.1.payerUserId ≠ u ∧ b.2.userId = u then b.2.shareAmount else 0) := by
  by_cases hs : b.2.status = .settled
  case pos => simp [Balance.ShareRow.delta, shareRow, hs]
  case neg =>
    by_cases hp : b.2.userId = b.1.payerUserId
    case pos =>
      simp only [Balance.ShareRow.delta, shareRow, hs, hp, decide_false, Bool.false_eq_true, or_true,
        if_true, ne_eq, not_false_eq_true, true_and]
      split <;> split <;> simp_all
    case neg =>
      obtain ⟨_, hn⟩ := h ⟨by simp [shareRow, hs], hp⟩
      simp only [Balance.ShareRow.delta, shareRow, hs, hp, decide_false, Bool.false_eq_true,
        or_self, if_false, stroops_columnText hn, ne_eq, not_false_eq_true, true_and]
      have hu : u = b.1.payerUserId ↔ b.1.payerUserId = u ∧ b.2.userId ≠ u :=
        ⟨by rintro rfl; exact ⟨rfl, hp⟩, fun h => h.1.symm⟩
      have hu' : u = b.2.userId ↔ b.1.payerUserId ≠ u ∧ b.2.userId = u :=
        ⟨by rintro rfl; exact ⟨Ne.symm hp, rfl⟩, fun h => h.2.symm⟩
      simp only [hu, hu', ne_eq]

theorem delta_settlementRow (s : Settlement)
    (h : (settlementRow s).toSettlementRow.Counts → ∃ n, toStroops (columnText s.amount) = .ok n) :
    (settlementRow s).toSettlementRow.delta u =
      (if s.status = .confirmed ∧ s.fromUserId = u then s.amount else 0) -
      (if s.status = .confirmed ∧ s.toUserId = u then s.amount else 0) := by
  by_cases hs : s.status = .confirmed
  case neg => simp [Balance.SettlementRow.delta, settlementRow, hs]
  case pos =>
    obtain ⟨_, hn⟩ := h (by simp [Balance.SettlementRow.Counts, settlementRow, hs])
    simp [Balance.SettlementRow.delta, settlementRow, hs, stroops_columnText hn, eq_comm (a := u)]

-- The net of a user consists of the unsettled shares and the confirmed settlements of the asset.
theorem computeNetBalancesByAsset_totals {R : Registry} {l : List (Expense × ExpenseShare)}
    {l' : List Settlement}
    (h : Balance.computeNetBalancesByAsset R (l.map shareRow) (l'.map settlementRow) = .ok sheets)
    (k u : String) : Balance.assetNetOf sheets k u =
      charged (unsettled (owedTo k u)) l - charged (unsettled (owedBy k u)) l +
      (transferred (sent k u) l' - transferred (received k u) l') := by
  have ⟨hr, hr'⟩ := Balance.computeNetBalancesByAsset_read h
  rw [Balance.computeNetBalancesByAsset_net h, List.filter_map, List.filter_map, List.map_map,
    List.map_map]
  have hs : (l.map fun b => if b.1.key = k then (shareRow b).toShareRow.delta u else 0).sum =
      charged (unsettled (owedTo k u)) l - charged (unsettled (owedBy k u)) l := by
    refine sum_eq_total_sub fun b hb => ?_
    rw [delta_shareRow b <| hr (shareRow b) (List.mem_map_of_mem hb)]
    by_cases hk : b.1.key = k <;> by_cases hs : b.2.status = .settled <;>
      simp [unsettled, owedTo, owedBy, hk, hs]
  have hst : (l'.map fun s => if s.key = k then (settlementRow s).toSettlementRow.delta u else 0).sum =
      transferred (sent k u) l' - transferred (received k u) l' := by
    refine sum_eq_total_sub fun s hs => ?_
    rw [delta_settlementRow s <| hr' (settlementRow s) (List.mem_map_of_mem hs)]
    by_cases hk : s.key = k <;> by_cases hs : s.status = .confirmed <;> simp [sent, received, hk, hs]
  rw [← hs, ← hst, sum_map_ite, sum_map_ite]
  rfl

namespace World

variable {w : World}

theorem bills_eq (w : World) (g : String) : w.bills g =
    (w.expenses.filter (·.groupId = g)).flatMap fun e => (w.sharesOf e.id).map (e, ·) := by
  simp [World.bills, Mergepay.bills, groupExpenses, List.flatMap_map]

theorem mem_bills : (e, s) ∈ w.bills g ↔
    (e ∈ w.expenses ∧ e.groupId = g) ∧ s ∈ w.shares ∧ s.expenseId = e.id := by
  simp only [bills_eq, List.mem_flatMap, List.mem_map, List.mem_filter, sharesOf, Prod.mk.injEq,
    decide_eq_true_eq]
  constructor
  · rintro ⟨_, he, _, hs, rfl, rfl⟩
    exact ⟨he, hs⟩
  · exact fun ⟨he, hs⟩ => ⟨e, he, s, hs, rfl, rfl⟩

-- What is known about the rows behind a bill.
theorem WellFormed.of_mem_bills (h : w.WellFormed) (hb : (e, s) ∈ w.bills g) :
    w.expense s.expenseId = some e ∧ w.share s.id = some s ∧ e.groupId = g := by
  have ⟨⟨he, hg⟩, hs, hi⟩ := mem_bills.mp hb
  exact ⟨hi ▸ h.expense_of_mem he, h.share_of_mem hs, hg⟩

-- How the bills of a group change

theorem bills_setShareStatus (w : World) (i : String) (status : ShareStatus) (g : String) :
    (w.setShareStatus i status).bills g = (w.bills g).map fun b =>
      (b.1, if b.2.id = i then b.2.setStatus status else b.2) := by
  have hs : ∀ e, (w.setShareStatus i status).sharesOf e =
      Table.update (·.id = i) (·.setStatus status) (w.sharesOf e) :=
    fun e => filter_update fun _ => rfl
  simp only [bills_eq, hs, List.map_flatMap, List.map_map, Table.update, decide_eq_true_eq]
  rfl

-- A change of a share in another group is not noticed.
theorem bills_setShareStatus_of_ne (h : ∀ b ∈ w.bills g, b.2.id ≠ i) :
    (w.setShareStatus i status).bills g = w.bills g := by
  rw [bills_setShareStatus]
  refine (List.map_congr_left fun b hb => ?_).trans (List.map_id _)
  rw [if_neg (h b hb)]
  rfl

-- New shares belong to the new expense.
theorem sharesOf_insertExpense (l : List (String × Int)) (i : String) :
    (w.insertExpense e l n ids).sharesOf i =
      w.sharesOf i ++ if i = n then List.zipWith (newShare n e.payerUserId) ids l else [] := by
  have hs : (List.zipWith (newShare n e.payerUserId) ids l).filter (·.expenseId = i) =
      if i = n then List.zipWith (newShare n e.payerUserId) ids l else [] := by
    split
    case isTrue h =>
      refine List.filter_eq_self.mpr fun s hs => ?_
      simp [(WellFormed.of_mem_newShares hs).1, h]
    case isFalse h =>
      refine List.filter_eq_nil_iff.mpr fun s hs => ?_
      simpa [(WellFormed.of_mem_newShares hs).1] using Ne.symm h
  rw [sharesOf, insertExpense, List.filter_append, hs]
  rfl

theorem WellFormed.ne_fresh (hw : w.WellFormed) (hf : w.Fresh (n :: ids)) (he : e ∈ w.expenses) :
    e.id ≠ n :=
  fun h => hw.not_mem_expenses hf List.mem_cons_self (h ▸ List.mem_map_of_mem he)

theorem bills_insertExpense (hw : w.WellFormed) (hf : w.Fresh (n :: ids)) (he : e.groupId ≠ g)
    (l : List (String × Int)) : (w.insertExpense e l n ids).bills g = w.bills g := by
  have hx : (w.insertExpense e l n ids).expenses.filter (·.groupId = g) =
      w.expenses.filter (·.groupId = g) := by
    simp [insertExpense, List.filter_append, he]
  rw [bills_eq, bills_eq, hx]
  refine List.flatMap_congr fun e' he' => ?_
  rw [sharesOf_insertExpense, if_neg (hw.ne_fresh hf <| List.mem_of_mem_filter he'), List.append_nil]

-- The bills of a new expense come last in its own group.
theorem bills_insertExpense_self (hw : w.WellFormed) (hf : w.Fresh (n :: ids))
    (l : List (String × Int)) : (w.insertExpense e l n ids).bills e.groupId =
      w.bills e.groupId ++ (List.zipWith (newShare n e.payerUserId) ids l).map
        ({ e with id := n, createdAt := w.now }, ·) := by
  have hx : (w.insertExpense e l n ids).expenses.filter (·.groupId = e.groupId) =
      w.expenses.filter (·.groupId = e.groupId) ++ [{ e with id := n, createdAt := w.now }] := by
    simp [insertExpense, List.filter_append]
  have fresh : w.sharesOf n = [] := by
    refine List.filter_eq_nil_iff.mpr fun s hs he => ?_
    have ho := hw.owners s hs
    rw [of_decide_eq_true he, hw.expense_fresh hf List.mem_cons_self] at ho
    contradiction
  have old : ∀ e' ∈ w.expenses.filter (·.groupId = e.groupId),
      ((w.insertExpense e l n ids).sharesOf e'.id).map (e', ·) = (w.sharesOf e'.id).map (e', ·) := by
    intro e' he'
    rw [sharesOf_insertExpense, if_neg (hw.ne_fresh hf <| List.mem_of_mem_filter he'), List.append_nil]
  rw [bills_eq, bills_eq, hx, List.flatMap_append, List.flatMap_congr old, List.flatMap_singleton]
  simp only [sharesOf_insertExpense, fresh, if_true, List.nil_append]

theorem bills_removeExpense (hw : w.WellFormed) (h : ∀ e ∈ w.expense i, e.groupId ≠ g) :
    (w.removeExpense i).bills g = w.bills g := by
  have hne : ∀ e ∈ w.expenses, e.groupId = g → e.id ≠ i := by
    rintro e he hg rfl
    exact h e (hw.expense_of_mem he) hg
  have hx : (w.removeExpense i).expenses.filter (·.groupId = g) =
      w.expenses.filter (·.groupId = g) := by
    simp only [removeExpense, List.filter_filter]
    refine List.filter_congr fun e he => ?_
    by_cases hg : e.groupId = g
    case pos => simp [hg, hne e he hg]
    case neg => simp [hg]
  rw [bills_eq, bills_eq, hx]
  refine List.flatMap_congr fun e he => ?_
  have ⟨he, hg⟩ := List.mem_filter.mp he
  have hne := hne e he (by simpa using hg)
  congr 1
  simp only [sharesOf, removeExpense, List.filter_filter]
  refine List.filter_congr fun s _ => ?_
  by_cases hs : s.expenseId = e.id <;> simp [hs, hne]

end World

-- An unsettled share by which one user owes another.
def owes (fromUserId toUserId : String) (e : Expense) (s : ExpenseShare) : Bool :=
  s.status ≠ .settled ∧ e.payerUserId = toUserId ∧ s.userId = fromUserId

def pays (fromUserId toUserId : String) (s : Settlement) : Bool :=
  s.fromUserId = fromUserId ∧ s.toUserId = toUserId

-- What one user owes another according to the shares, and has sent them according to the settlements.

def debtOf (i j : String) (l : List (Expense × ExpenseShare)) : Int :=
  charged (owes i j) l - charged (owes j i) l

def sentOf (i j : String) (l : List Settlement) : Int :=
  transferred (pays i j) l - transferred (pays j i) l

theorem debtOf_swap : debtOf i j l = -debtOf j i l := by
  simp only [debtOf]
  omega

-- The amounts on which the limit depends can be read.
structure LimitReads.Legible (i j : String) (r : LimitReads) : Prop where
  shares      : ∀ b ∈ bills r.expenses, owes i j b.1 b.2 ∨ owes j i b.1 b.2 → Readable b.2.shareAmount
  settlements : ∀ s ∈ r.settlements, pays i j s ∨ pays j i s → Readable s.amount

instance {r : LimitReads} : Decidable (r.Legible i j) :=
  decidable_of_iff (_ ∧ _) ⟨fun ⟨hb, hs⟩ => ⟨hb, hs⟩, fun h => ⟨h.shares, h.settlements⟩⟩

theorem sum_bills (l : List ExpenseWithShares) (d : Expense × ExpenseShare → Int) :
    ((bills l).map d).sum = (l.map fun e => (e.shares.map fun s => d (e.toExpense, s)).sum).sum := by
  induction l
  case nil => rfl
  case cons hd tl hi =>
    have hb : bills (hd :: tl) = hd.shares.map (hd.toExpense, ·) ++ bills tl := rfl
    rw [hb, List.map_append, List.sum_append, List.map_map, List.map_cons, List.sum_cons, hi]
    rfl

-- The outcome of the only fallible operation, by which an amount `k` is read.
theorem map_columnStroops_eq_ok {f : Int → Int} :
    f <$> columnStroops k = .ok m ↔ Readable k ∧ m = f k := by
  simp only [Except.map_eq_ok, columnStroops_eq_ok_iff]
  constructor
  · rintro ⟨_, ⟨hr, rfl⟩, rfl⟩
    exact ⟨hr, rfl⟩
  · rintro ⟨hr, rfl⟩
    exact ⟨k, ⟨hr, rfl⟩, rfl⟩

theorem addShareDebt_eq_ok (h : i ≠ j) (e : Expense) (n m : Int) (s : ExpenseShare) :
    addShareDebt i j e.payerUserId n s = .ok m ↔
      (owes i j e s ∨ owes j i e s → Readable s.shareAmount) ∧
      m = n + ((if owes i j e s then s.shareAmount else 0) -
        (if owes j i e s then s.shareAmount else 0)) := by
  unfold addShareDebt
  split
  case isTrue hs => simp [owes, hs, Except.pure_eq_ok, eq_comm (a := m)]
  case isFalse hs =>
    split
    case isTrue hp =>
      have h₁ : owes i j e s = true := by simp [owes, hs, hp]
      have h₂ : owes j i e s = false := by simp [owes, hp, Ne.symm h]
      simp [h₁, h₂, map_columnStroops_eq_ok]
    case isFalse hn =>
      have h₁ : owes i j e s = false := by simpa [owes, hs] using hn
      split
      case isTrue hp =>
        have h₂ : owes j i e s = true := by simp [owes, hs, hp]
        simp [h₁, h₂, map_columnStroops_eq_ok, ← sub_eq_add_neg]
      case isFalse hn' =>
        have h₂ : owes j i e s = false := by simpa [owes, hs] using hn'
        simp [h₁, h₂, Except.pure_eq_ok, eq_comm (a := m)]

theorem addSettlementDebt_eq_ok (h : i ≠ j) (n m : Int) (s : Settlement) :
    addSettlementDebt i j n s = .ok m ↔ (pays i j s ∨ pays j i s → Readable s.amount) ∧
      m = n + ((if pays j i s then s.amount else 0) - (if pays i j s then s.amount else 0)) := by
  unfold addSettlementDebt
  split
  case isTrue hp =>
    have h₁ : pays i j s = true := by simp [pays, hp]
    have h₂ : pays j i s = false := by simp [pays, hp, h]
    simp [h₁, h₂, map_columnStroops_eq_ok, ← sub_eq_add_neg]
  case isFalse hn =>
    have h₁ : pays i j s = false := by simpa [pays] using hn
    split
    case isTrue hp =>
      have h₂ : pays j i s = true := by simp [pays, hp]
      simp [h₁, h₂, map_columnStroops_eq_ok]
    case isFalse hn' =>
      have h₂ : pays j i s = false := by simpa [pays] using hn'
      simp [h₁, h₂, Except.pure_eq_ok, eq_comm (a := m)]

-- The limit is the debt that remains after all settlements that were read.
theorem limitDebt_eq_ok_iff {r : LimitReads} (h : i ≠ j) : limitDebt i j r = .ok d ↔
    r.Legible i j ∧ d = debtOf i j (bills r.expenses) - sentOf i j r.settlements := by
  have he := fun n m (e : ExpenseWithShares) => Except.foldlM_add_eq_ok (l := e.shares) (n := n)
    (m := m) _ _ fun n m s _ => addShareDebt_eq_ok h e.toExpense n m s
  have hx : ∀ m, r.expenses.foldlM (fun debt e =>
      e.shares.foldlM (addShareDebt i j e.payerUserId) debt) 0 = .ok m ↔
      (∀ b ∈ bills r.expenses, owes i j b.1 b.2 ∨ owes j i b.1 b.2 → Readable b.2.shareAmount) ∧
      m = debtOf i j (bills r.expenses) := by
    intro m
    rw [Except.foldlM_add_eq_ok _ _ fun n m e _ => he n m e,
      ← sum_bills r.expenses fun b => (if owes i j b.1 b.2 then b.2.shareAmount else 0) -
        (if owes j i b.1 b.2 then b.2.shareAmount else 0),
      sum_eq_total_sub fun _ _ => rfl, zero_add]
    refine and_congr_left fun _ => ?_
    simp only [bills, List.mem_flatMap, List.mem_map]
    constructor
    · rintro h _ ⟨e, he, s, hs, rfl⟩
      exact h e he s hs
    · exact fun h e he s hs => h _ ⟨e, he, s, hs, rfl⟩
  have hs : ∀ n, r.settlements.foldlM (addSettlementDebt i j) n = .ok d ↔
      (∀ s ∈ r.settlements, pays i j s ∨ pays j i s → Readable s.amount) ∧
      d = n - sentOf i j r.settlements := by
    intro n
    rw [Except.foldlM_add_eq_ok _ _ fun n m s _ => addSettlementDebt_eq_ok h n m s,
      sum_eq_total_sub (v := (·.amount)) (p := pays j i) (q := pays i j) fun _ _ => rfl]
    refine and_congr_right fun _ => ?_
    simp only [sentOf, transferred]
    omega
  simp only [limitDebt, Except.bind_eq_ok, hx, hs]
  constructor
  · rintro ⟨_, ⟨hb, rfl⟩, hs, hd⟩
    exact ⟨⟨hb, hs⟩, hd⟩
  · rintro ⟨hr, hd⟩
    exact ⟨_, ⟨hr.shares, rfl⟩, hr.settlements, hd⟩

namespace World

-- The debt between two users in a group, without regard to settlements.
def debt (w : World) (g i j : String) : Int :=
  debtOf i j (w.bills g)

-- The settlements that count against the limit are those that have not failed.
def live (i j : String) (s : Settlement) : Bool :=
  s.status ≠ .failed && pays i j s

def pledged (w : World) (g i j : String) : Int :=
  transferred (live i j) (w.groupSettlements g)

theorem bills_limitExpenses (w : World) (g i j : String) : Mergepay.bills (w.limitExpenses g i j) =
    (w.bills g).filter fun b => b.2.userId = i ∨ b.2.userId = j := by
  simp [World.bills, Mergepay.bills, limitExpenses, List.flatMap_map, List.filter_flatMap,
    List.filter_map, Function.comp_def]

-- The transaction reads whatever matters.

theorem debtOf_limitExpenses (w : World) (g i j : String) :
    debtOf i j (Mergepay.bills (w.limitExpenses g i j)) = w.debt g i j := by
  simp only [debt, debtOf, bills_limitExpenses, charged, total_filter]
  congr 1 <;> refine total_congr fun b _ => ?_
  · by_cases h : b.2.userId = i <;> simp [owes, h]
  · by_cases h : b.2.userId = j <;> simp [owes, h]

theorem sentOf_limitSettlements (w : World) (g i j : String) :
    sentOf i j (w.limitSettlements g i j) = w.pledged g i j - w.pledged g j i := by
  simp only [sentOf, pledged, limitSettlements, transferred, total_filter]
  congr 1 <;> refine total_congr fun s _ => ?_
  all_goals
    simp only [pays, live]
    by_cases hs : s.status = .failed <;> grind

end World

end Mergepay
