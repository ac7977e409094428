import Mergepay.Expense.Accumulation
import Mergepay.Settlement.Runs

namespace Mergepay

open Money

-- An expense, and for each user whether their share is marked as settled.
structure Invoice extends ExpenseRecord where
  settled : String → Bool

-- The share rows of an expense, as the balance engine gets them.
def Invoice.rows (i : Invoice) : List Balance.AssetShareRow :=
  i.shares.map fun s => {
    payerUserId := i.payerUserId
    userId      := s.userId
    shareAmount := s.shareAmount
    settled     := i.settled s.userId
    assetCode   := i.assetCode
    assetIssuer := i.assetIssuer
  }

-- The asset is spelled as in the registry, and at most the payer's own share is settled.
structure Invoice.Open (R : Registry) (i : Invoice) : Prop where
  canonical : ∃ v, R.validateAsset i.assetCode i.assetIssuer = .ok (.ok v) ∧
    v.code = i.assetCode ∧ v.issuer = i.assetIssuer
  unsettled : ∀ u, i.settled u = true → u = i.payerUserId

-- What is suggested for the balances of `sheets` settles those of `sheets'`.
def SettlesUp (sort : Balance.Sorting) (sheets sheets' : List Balance.AssetNetBalances) (key : String) :
    Prop :=
  ∃ l, Balance.suggestSettlements sort (Balance.sheetOf sheets key) = .ok l ∧
    ∀ u, Balance.assetNetOf sheets' key u + Balance.outgoing u l - Balance.incoming u l = 0

variable {R : Registry} {i : Invoice} {invoices : List Invoice}

theorem Invoice.Open.counted_iff (h : i.Open R) :
    i.Counted R k ↔ balanceAssetKey i.assetCode i.assetIssuer = k := by
  have ⟨v, hv, hc, hi⟩ := h.canonical
  have hn : Breakdown.normalizeAsset R i.assetCode i.assetIssuer =
      .ok { assetCode := i.assetCode, assetIssuer := i.assetIssuer } :=
    Breakdown.normalizeAsset_eq_ok.mpr ⟨v, hv, by rw [hc, hi]⟩
  simp [ExpenseRecord.Counted, hn]

-- The payer's own share cancels in the breakdown, and is skipped by the balance engine.
theorem Invoice.Open.delta_eq (h : i.Open R) (u : String) :
    i.delta u = (i.rows.map (·.toShareRow.delta u)).sum := by
  rw [ExpenseRecord.delta, ExpenseRecord.amounts, rows, List.map_map, List.map_map]
  congr 1
  refine List.map_congr_left fun s _ => ?_
  simp only [Function.comp_apply, Balance.ShareRow.delta]
  by_cases hs : i.settled s.userId = true ∨ s.userId = i.payerUserId
  case neg => rw [if_neg hs]
  case pos =>
    have hp : s.userId = i.payerUserId := hs.elim (h.unsettled _) id
    rw [if_pos hs, hp, sub_self]

theorem key_of_mem_rows (h : r ∈ i.rows) :
    balanceAssetKey r.assetCode r.assetIssuer = balanceAssetKey i.assetCode i.assetIssuer := by
  have ⟨_, _, h⟩ := List.mem_map.mp h
  rw [← h]

-- The rows of an asset are those of the expenses in this asset.
theorem sum_rows (k : String) (d : Balance.AssetShareRow → Int) (invoices : List Invoice) :
    (((invoices.flatMap (·.rows)).filter fun r => balanceAssetKey r.assetCode r.assetIssuer = k).map d).sum =
    ((invoices.filter fun i => balanceAssetKey i.assetCode i.assetIssuer = k).map fun i =>
      (i.rows.map d).sum).sum := by
  induction invoices with
  | nil => rfl
  | cons i tl hi =>
    rw [List.flatMap_cons, List.filter_append, List.map_append, List.sum_append, hi]
    by_cases hk : balanceAssetKey i.assetCode i.assetIssuer = k
    case pos =>
      have hf : (i.rows.filter fun r => balanceAssetKey r.assetCode r.assetIssuer = k) = i.rows :=
        List.filter_eq_self.mpr fun r hr => by simp [key_of_mem_rows hr, hk]
      simp [hf, hk]
    case neg =>
      have hf : (i.rows.filter fun r => balanceAssetKey r.assetCode r.assetIssuer = k) = [] :=
        List.filter_eq_nil_iff.mpr fun r hr => by simp [key_of_mem_rows hr, hk]
      simp [hf, hk]

variable {assets : List AssetExpenseBreakdown} {sheets : List Balance.AssetNetBalances}

theorem nets_eq (ho : ∀ i ∈ invoices, i.Open R)
    (h₁ : calculateGroupExpenseBreakdown R (invoices.map (·.toExpenseRecord)) = .ok assets)
    (h₂ : Balance.computeNetBalancesByAsset R (invoices.flatMap (·.rows)) [] = .ok sheets) (k u : String) :
    Balance.assetNetOf (assets.map (·.sheet)) k u = Balance.assetNetOf sheets k u := by
  classical
  have ⟨accumulators, hf, hm⟩ := Except.bind_eq_ok.mp h₁
  have hc : invoices.filter ((fun e : ExpenseRecord => decide (e.Counted R k)) ∘ (·.toExpenseRecord)) =
      invoices.filter fun i => balanceAssetKey i.assetCode i.assetIssuer = k :=
    List.filter_congr fun i hi => by simp [(ho i hi).counted_iff]
  rw [Breakdown.assetNetOf_breakdown (Breakdown.Accumulators.of_foldlM hf) hm,
    Breakdown.Accumulators.net_of_foldlM hf, Balance.computeNetBalancesByAsset_net h₂, sum_rows,
    List.filter_map, List.map_map, hc, List.filter_nil, List.map_nil, List.sum_nil, add_zero]
  congr 1
  exact List.map_congr_left fun i hi => (ho i (List.mem_of_mem_filter hi)).delta_eq u

theorem settlesUp (sort : Balance.Sorting) {sheets sheets' : List Balance.AssetNetBalances}
    (hb : ∀ g ∈ sheets, ∃ net, Balance.Balanced g.balances net)
    (h : ∀ k u, Balance.assetNetOf sheets k u = Balance.assetNetOf sheets' k u) (k : String) :
    SettlesUp sort sheets sheets' k := by
  have ⟨_, hb⟩ := Balance.sheetOf_balanced hb k
  have ⟨l, hl, hu⟩ := hb.settles sort
  exact ⟨l, hl, fun u => h k u ▸ Balance.netOf_sheetOf sheets k u ▸ hu u⟩

theorem sheets_balanced (h : calculateGroupExpenseBreakdown R expenses = .ok assets) :
    ∀ g ∈ assets.map (·.sheet), ∃ net, Balance.Balanced g.balances net := by
  have ⟨accumulators, hf, hm⟩ := Except.bind_eq_ok.mp h
  have hs := Breakdown.Accumulators.of_foldlM hf
  refine List.forall_mem_map.mpr fun b hb => ?_
  have ⟨e, he, hb⟩ := Except.mem_of_mapM hm hb
  exact ⟨_, Breakdown.breakdown_balanced (hs.each e he) hb⟩

-- The two engines agree on the nets of all users, and either of them can be used to settle up.
theorem engines_agree (sort : Balance.Sorting) (ho : ∀ i ∈ invoices, i.Open R)
    (h₁ : calculateGroupExpenseBreakdown R (invoices.map (·.toExpenseRecord)) = .ok assets)
    (h₂ : Balance.computeNetBalancesByAsset R (invoices.flatMap (·.rows)) [] = .ok sheets) :
    (∀ key u, Balance.assetNetOf (assets.map (·.sheet)) key u = Balance.assetNetOf sheets key u) ∧
    ∀ key, SettlesUp sort (assets.map (·.sheet)) sheets key ∧
      SettlesUp sort sheets (assets.map (·.sheet)) key := by
  have hn := nets_eq ho h₁ h₂
  refine ⟨hn, fun k => ⟨?_, ?_⟩⟩
  case refine_1 => exact settlesUp sort (sheets_balanced h₁) hn k
  case refine_2 =>
    exact settlesUp sort (Balance.computeNetBalancesByAsset_balanced h₂) (fun k u => (hn k u).symm) k

-- Ann and Bob have each paid once, and Cid has paid for both of them.
section Sample

def descending : Balance.Sorting where
  run l  := l.mergeSort fun a b => b.2 ≤ a.2
  perm l := List.mergeSort_perm l _

def sampleInvoices : List Invoice := [
  { payerUserId := "ann", assetCode := "XLM", amount := some "30"
    shares := [⟨"ann", "10"⟩, ⟨"bob", "20"⟩], settled := (· = "ann") },
  { payerUserId := "bob", assetCode := "USDC", assetIssuer := some "GUSD", amount := some "5.5"
    shares := [⟨"ann", "5.5"⟩], settled := fun _ => false },
  { payerUserId := "cid", assetCode := "XLM", amount := some "8"
    shares := [⟨"ann", "3"⟩, ⟨"bob", "5"⟩], settled := fun _ => false }
]

theorem sampleInvoices_open : ∀ i ∈ sampleInvoices, i.Open sampleDeps.toRegistry := by
  simp only [sampleInvoices, List.forall_mem_cons, List.not_mem_nil, false_implies, implies_true, and_true]
  refine ⟨⟨⟨⟨"XLM", .native, none, "Stellar Lumens"⟩, by decide +kernel, rfl, rfl⟩, by simp⟩,
    ⟨⟨⟨"USDC", .issued, some "GUSD", "USD Coin"⟩, by decide +kernel, rfl, rfl⟩, by simp⟩,
    ⟨⟨⟨"XLM", .native, none, "Stellar Lumens"⟩, by decide +kernel, rfl, rfl⟩, by simp⟩⟩

theorem engines_agree_sample : ∃ assets sheets,
    calculateGroupExpenseBreakdown sampleDeps.toRegistry (sampleInvoices.map (·.toExpenseRecord)) =
      .ok assets ∧
    Balance.computeNetBalancesByAsset sampleDeps.toRegistry (sampleInvoices.flatMap (·.rows)) [] =
      .ok sheets ∧
    (∀ key u, Balance.assetNetOf (assets.map (·.sheet)) key u = Balance.assetNetOf sheets key u) ∧
    ∀ key, SettlesUp descending (assets.map (·.sheet)) sheets key ∧
      SettlesUp descending sheets (assets.map (·.sheet)) key := by
  have ⟨assets, h₁⟩ := Except.toBool_eq_true.mp (by decide +kernel : (calculateGroupExpenseBreakdown
    sampleDeps.toRegistry (sampleInvoices.map (·.toExpenseRecord))).toBool = true)
  have ⟨sheets, h₂⟩ := Except.toBool_eq_true.mp (by decide +kernel : (Balance.computeNetBalancesByAsset
    sampleDeps.toRegistry (sampleInvoices.flatMap (·.rows)) []).toBool = true)
  exact ⟨assets, sheets, h₁, h₂, engines_agree descending sampleInvoices_open h₁ h₂⟩

end Sample

end Mergepay
