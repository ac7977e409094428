import Mergepay.Balance.Engine

namespace Mergepay.Balance

open Money

-- When the engine returns

theorem fromStroops_isOk_iff : (∃ t, fromStroops n = .ok t) ↔ n.natAbs ≤ maxStroops := by
  rw [fromStroops]
  split
  case isTrue h  => simpa using h
  case isFalse h => simpa using Nat.not_lt.mp h

theorem Net.nodup_add {net : Net} (h : (OrderedMap.keys net).Nodup) :
    (OrderedMap.keys (net.add k d)).Nodup :=
  OrderedMap.nodup_keys_set h

theorem addShare_isOk_iff (net : Net) (s : ShareRow) : (∃ net', addShare net s = .ok net') ↔
    (s.Counts → ∃ n, toStroops s.shareAmount = .ok n) := by
  simp only [addShare, ShareRow.Counts]
  cases s.settled <;> by_cases hu : s.userId = s.payerUserId
  all_goals simp [hu, Except.pure_eq_ok, Except.map_eq_ok]

theorem addSettlement_isOk_iff (net : Net) (st : SettlementRow) : (∃ net', addSettlement net st = .ok net') ↔
    (st.Counts → ∃ n, toStroops st.amount = .ok n) := by
  simp only [addSettlement, SettlementRow.Counts]
  cases st.confirmed
  all_goals simp [Except.pure_eq_ok, Except.map_eq_ok]

theorem nodup_addShare (h : addShare net s = .ok net') (hn : (OrderedMap.keys net).Nodup) :
    (OrderedMap.keys net').Nodup := by
  simp only [addShare] at h
  split at h
  case isTrue => exact Except.pure_eq_ok.mp h ▸ hn
  case isFalse =>
    split at h
    case isTrue => exact Except.pure_eq_ok.mp h ▸ hn
    case isFalse =>
      obtain ⟨_, _, h⟩ := Except.bind_eq_ok.mp h
      exact Except.pure_eq_ok.mp h ▸ Net.nodup_add (Net.nodup_add hn)

theorem nodup_addSettlement (h : addSettlement net st = .ok net') (hn : (OrderedMap.keys net).Nodup) :
    (OrderedMap.keys net').Nodup := by
  simp only [addSettlement] at h
  split at h
  case isTrue => exact Except.pure_eq_ok.mp h ▸ hn
  case isFalse =>
    obtain ⟨_, _, h⟩ := Except.bind_eq_ok.mp h
    exact Except.pure_eq_ok.mp h ▸ Net.nodup_add (Net.nodup_add hn)

-- All nets of a map can be rendered if and only if they are in range. Users without an entry have
-- the net zero.
theorem mapM_toNetBalance_isOk_iff {net : Net} (hn : (OrderedMap.keys net).Nodup) :
    (∃ balances, net.mapM toNetBalance = .ok balances) ↔ ∀ u, (net.value u).natAbs ≤ maxStroops := by
  have he (e : String × Int) : (∃ b, toNetBalance e = .ok b) ↔ e.2.natAbs ≤ maxStroops := by
    rw [← fromStroops_isOk_iff]
    simp [toNetBalance, Except.map_eq_ok]
  simp only [Except.mapM_isOk_iff, he]
  constructor
  case mp =>
    intro h u
    cases hu : net.get? u with
    | none   => simp [Net.value, hu]
    | some n => simpa [Net.value, hu] using h _ (OrderedMap.mem_of_get? hu)
  case mpr =>
    rintro h ⟨u, n⟩ hm
    have := h u
    rwa [Net.value, OrderedMap.get?_of_mem hn hm] at this

-- The map that is left after all rows have been added.
theorem accumulated {shares : List ShareRow} {settlements : List SettlementRow}
    (h₁ : shares.foldlM addShare [] = .ok net₁)
    (h₂ : settlements.foldlM addSettlement net₁ = .ok net₂) :
    (OrderedMap.keys net₂).Nodup ∧ ∀ u,
      net₂.value u = (shares.map (·.delta u)).sum + (settlements.map (·.delta u)).sum := by
  have hn₁ := Except.foldlM_induction (fun _ net => (OrderedMap.keys net).Nodup) h₁ List.nodup_nil
    fun _ _ _ _ hn h => nodup_addShare h hn
  have hn₂ := Except.foldlM_induction (fun _ net => (OrderedMap.keys net).Nodup) h₂ hn₁
    fun _ _ _ _ hn h => nodup_addSettlement h hn
  refine ⟨hn₂, fun u => ?_⟩
  have h₁ := Except.foldlM_sum (Net.value · u) (·.delta u) h₁ fun _ _ _ hs => addShare_value hs u
  have h₂ := Except.foldlM_sum (Net.value · u) (·.delta u) h₂ fun _ _ _ hs => addSettlement_value hs u
  rw [h₂, h₁]
  simp [Net.value]

-- The rows of a balance sheet that are read can be read, and all nets are in range.
structure Sound (shares : List ShareRow) (settlements : List SettlementRow) : Prop where
  readShares      : ∀ s ∈ shares, s.Counts → ∃ n, toStroops s.shareAmount = .ok n
  readSettlements : ∀ st ∈ settlements, st.Counts → ∃ n, toStroops st.amount = .ok n
  range           : ∀ u,
    ((shares.map (·.delta u)).sum + (settlements.map (·.delta u)).sum).natAbs ≤ maxStroops

theorem computeNetBalances_isOk_iff :
    (∃ balances, computeNetBalances shares settlements = .ok balances) ↔ Sound shares settlements := by
  constructor
  case mp =>
    intro ⟨balances, h⟩
    have ⟨hs, hst⟩ := computeNetBalances_read h
    have ⟨net₁, h₁, h⟩ := Except.bind_eq_ok.mp h
    have ⟨net₂, h₂, h⟩ := Except.bind_eq_ok.mp h
    have ⟨hn, hv⟩ := accumulated h₁ h₂
    exact ⟨hs, hst, fun u => hv u ▸ (mapM_toNetBalance_isOk_iff hn).mp ⟨_, h⟩ u⟩
  case mpr =>
    intro h
    have ⟨net₁, h₁⟩ := (Except.foldlM_isOk_iff (fun net s _ => addShare_isOk_iff net s) []).mpr h.readShares
    have ⟨net₂, h₂⟩ :=
      (Except.foldlM_isOk_iff (fun net st _ => addSettlement_isOk_iff net st) net₁).mpr h.readSettlements
    have ⟨hn, hv⟩ := accumulated h₁ h₂
    have ⟨balances, hb⟩ := (mapM_toNetBalance_isOk_iff hn).mpr fun u => hv u ▸ h.range u
    refine ⟨balances, ?_⟩
    simp only [computeNetBalances, h₁, h₂, hb, bind, Except.bind]

-- The rows of an asset

variable {R : Registry}

def sharesIn (shares : List AssetShareRow) (k : String) : List ShareRow :=
  (shares.filter fun s => balanceAssetKey s.assetCode s.assetIssuer = k).map (·.toShareRow)

def settlementsIn (settlements : List AssetSettlementRow) (k : String) : List SettlementRow :=
  (settlements.filter fun st => balanceAssetKey st.assetCode st.assetIssuer = k).map (·.toSettlementRow)

theorem pushShare_isOk_iff (groups : Groups) (s : AssetShareRow) :
    (∃ groups', pushShare R groups s = .ok groups') ↔
    R.assertSupportedSettlementAsset s.assetCode s.assetIssuer = .ok () := by
  simp [pushShare, groupFor, Except.map_eq_ok, Unique.exists_iff]

theorem pushSettlement_isOk_iff (groups : Groups) (st : AssetSettlementRow) :
    (∃ groups', pushSettlement R groups st = .ok groups') ↔
    R.assertSupportedSettlementAsset st.assetCode st.assetIssuer = .ok () := by
  simp [pushSettlement, groupFor, Except.map_eq_ok, Unique.exists_iff]

-- The groups are the rows of each key.
theorem Groups.Collects.mapM_isOk_iff (h : Groups.Collects groups shares settlements) :
    (∃ all, groups.mapM (·.2.balances) = .ok all) ↔
    ∀ k, Sound (sharesIn shares k) (settlementsIn settlements k) := by
  have he (e : String × AssetRows) :
      (∃ b, e.2.balances = .ok b) ↔ Sound e.2.shares e.2.settlements := by
    rw [← computeNetBalances_isOk_iff]
    simp [AssetRows.balances, Except.map_eq_ok]
  simp only [Except.mapM_isOk_iff, he]
  constructor
  case mp =>
    intro hs k
    have ⟨h₁, h₂⟩ := h.rows k
    rw [sharesIn, settlementsIn, ← h₁, ← h₂]
    cases hk : groups.get? k with
    | none   => exact ⟨by simp, by simp, by simp⟩
    | some g => exact hs _ (OrderedMap.mem_of_get? hk)
  case mpr =>
    intro hs (k, g) hm
    have ⟨h₁, h₂⟩ := h.rows k
    rw [OrderedMap.get?_of_mem h.nodup hm] at h₁ h₂
    have hs := hs k
    rwa [sharesIn, settlementsIn, ← h₁, ← h₂] at hs

theorem computeNetBalancesByAsset_isOk_iff :
    (∃ sheets, computeNetBalancesByAsset R shares settlements = .ok sheets) ↔
    (∀ s ∈ shares, R.assertSupportedSettlementAsset s.assetCode s.assetIssuer = .ok ()) ∧
    (∀ st ∈ settlements, R.assertSupportedSettlementAsset st.assetCode st.assetIssuer = .ok ()) ∧
    ∀ k, Sound (sharesIn shares k) (settlementsIn settlements k) := by
  have h₁ := Except.foldlM_isOk_iff (l := shares) (fun groups s _ => pushShare_isOk_iff (R := R) groups s) []
  have h₂ groups := Except.foldlM_isOk_iff (l := settlements)
    (fun groups st _ => pushSettlement_isOk_iff (R := R) groups st) groups
  rw [← h₁]
  constructor
  case mp =>
    intro ⟨sheets, h⟩
    have ⟨groups₁, hs, h⟩ := Except.bind_eq_ok.mp h
    have ⟨groups₂, hst, h⟩ := Except.bind_eq_ok.mp h
    have ⟨all, hm, h⟩ := Except.bind_eq_ok.mp h
    exact ⟨⟨_, hs⟩, (h₂ groups₁).mp ⟨_, hst⟩, (Groups.Collects.of_foldlM hs hst).mapM_isOk_iff.mp ⟨_, hm⟩⟩
  case mpr =>
    intro ⟨⟨groups₁, hs⟩, hst, h⟩
    have ⟨groups₂, hst⟩ := (h₂ groups₁).mpr hst
    have ⟨all, hm⟩ := (Groups.Collects.of_foldlM hs hst).mapM_isOk_iff.mpr h
    refine ⟨all.filter (·.balances.length > 0), ?_⟩
    simp only [computeNetBalancesByAsset, hs, hst, hm, bind, Except.bind]
    rfl

end Mergepay.Balance

namespace Mergepay

open Money

-- The asset a group settles in, which is that of its latest expense.
def groupPrimaryAsset (R : Registry) (latest : Option (String × Option String)) :
    Except Failure ValidatedAsset :=
  R.getAssetConfig (latest.elim "XLM" (·.1)) (latest.bind (·.2))

def primarySheet (byAsset : List Balance.AssetNetBalances) (primary : ValidatedAsset) :
    Option Balance.AssetNetBalances :=
  byAsset.find? fun g =>
    balanceAssetKey g.assetCode g.assetIssuer = balanceAssetKey primary.code primary.issuer

-- The balances of the primary asset. The rows and the latest expense are read from the database.
def loadGroupBalances (R : Registry) (shares : List Balance.AssetShareRow)
    (settlements : List Balance.AssetSettlementRow) (latest : Option (String × Option String)) :
    Except Failure (List Balance.NetBalance) := do
  let byAsset ← Balance.computeNetBalancesByAsset R shares settlements
  let primary ← groupPrimaryAsset R latest
  return (primarySheet byAsset primary).elim [] (·.balances)

namespace Balance

-- Which balance sheets there are

theorem Net.add_ne_nil (net : Net) (k : String) (d : Int) : net.add k d ≠ [] := by
  intro h
  have := congrArg OrderedMap.keys h
  rw [Net.add, OrderedMap.keys_set] at this
  split at this
  case isTrue hk => simp [this] at hk
  case isFalse   => simp at this

theorem addShare_eq_nil_iff (h : addShare net s = .ok net') : net' = [] ↔ net = [] ∧ ¬s.Counts := by
  simp only [addShare] at h
  split at h
  case isTrue hs => simp [← Except.pure_eq_ok.mp h, ShareRow.Counts, hs]
  case isFalse hs =>
    split at h
    case isTrue hu  => simp [← Except.pure_eq_ok.mp h, ShareRow.Counts, hu]
    case isFalse hu =>
      obtain ⟨_, _, h⟩ := Except.bind_eq_ok.mp h
      simp [← Except.pure_eq_ok.mp h, ShareRow.Counts, hs, hu, Net.add_ne_nil]

theorem addSettlement_eq_nil_iff (h : addSettlement net st = .ok net') :
    net' = [] ↔ net = [] ∧ ¬st.Counts := by
  simp only [addSettlement] at h
  split at h
  case isTrue hs  => simp [← Except.pure_eq_ok.mp h, SettlementRow.Counts, hs]
  case isFalse hs =>
    obtain ⟨_, _, h⟩ := Except.bind_eq_ok.mp h
    simp [← Except.pure_eq_ok.mp h, SettlementRow.Counts, not_not.mp hs, Net.add_ne_nil]

-- A sheet is empty if none of its rows counts.
theorem computeNetBalances_eq_nil_iff (h : computeNetBalances shares settlements = .ok balances) :
    balances = [] ↔ (∀ s ∈ shares, ¬s.Counts) ∧ ∀ st ∈ settlements, ¬st.Counts := by
  have ⟨net₁, h₁, h⟩ := Except.bind_eq_ok.mp h
  have ⟨net₂, h₂, h⟩ := Except.bind_eq_ok.mp h
  have hl := (Except.mapM_forall₂ h).length_eq
  have h₁ := Except.foldlM_induction (fun pre net => net = [] ↔ ∀ s ∈ pre, ¬s.Counts) h₁ (by simp)
    fun pre s _ _ hi h => by simp [addShare_eq_nil_iff h, hi, or_imp, forall_and]
  have h₂ := Except.foldlM_induction
    (fun pre net => net = [] ↔ (∀ s ∈ shares, ¬s.Counts) ∧ ∀ st ∈ pre, ¬st.Counts) h₂ (by simpa using h₁)
    fun pre st _ _ hi h => by simp [addSettlement_eq_nil_iff h, hi, or_imp, forall_and, and_assoc]
  rw [← h₂, ← List.length_eq_zero_iff, ← hl, List.length_eq_zero_iff]

theorem AssetRows.balances_ne_nil_iff (h : AssetRows.balances group = .ok g) :
    g.balances.length > 0 ↔ (∃ s ∈ group.shares, s.Counts) ∨ ∃ st ∈ group.settlements, st.Counts := by
  have ⟨_, hb, h⟩ := Except.bind_eq_ok.mp h
  have hn := computeNetBalances_eq_nil_iff hb
  rw [← Except.pure_eq_ok.mp h, gt_iff_lt, List.length_pos_iff, ne_eq, hn, not_and_or]
  simp only [not_forall, not_not, exists_prop]

theorem AssetRows.balances_key (h : AssetRows.balances group = .ok g) :
    balanceAssetKey g.assetCode g.assetIssuer = balanceAssetKey group.assetCode group.assetIssuer := by
  have ⟨_, _, h⟩ := Except.bind_eq_ok.mp h
  rw [← Except.pure_eq_ok.mp h]

-- There is a sheet for a key if some row counts under this key.
theorem isSome_find_iff {R : Registry} (h : computeNetBalancesByAsset R shares settlements = .ok sheets)
    (k : String) : (sheets.find? fun g => balanceAssetKey g.assetCode g.assetIssuer = k).isSome = true ↔
    (∃ s ∈ sharesIn shares k, s.Counts) ∨ ∃ st ∈ settlementsIn settlements k, st.Counts := by
  obtain ⟨groups₁, h₁, h⟩ := Except.bind_eq_ok.mp h
  obtain ⟨groups₂, h₂, h⟩ := Except.bind_eq_ok.mp h
  obtain ⟨all, hm, h⟩ := Except.bind_eq_ok.mp h
  have hc := Groups.Collects.of_foldlM h₁ h₂
  obtain ⟨hs, hst⟩ := hc.rows k
  rw [← Except.pure_eq_ok.mp h, List.find?_isSome, sharesIn, settlementsIn, ← hs, ← hst]
  simp only [List.mem_filter, decide_eq_true_eq]
  constructor
  case mp =>
    rintro ⟨g, ⟨hg, hl⟩, hk⟩
    obtain ⟨e, he, hb⟩ := Except.mem_of_mapM hm hg
    have he' : e.1 = k := (hc.key e he).symm.trans <| (AssetRows.balances_key hb).symm.trans hk
    rw [OrderedMap.get?_of_mem hc.nodup (he' ▸ he : (k, e.2) ∈ groups₂)]
    exact (AssetRows.balances_ne_nil_iff hb).mp hl
  case mpr =>
    intro hn
    cases hg : groups₂.get? k with
    | none => simp [hg] at hn
    | some group =>
      rw [hg] at hn
      have he := OrderedMap.mem_of_get? hg
      obtain ⟨g, hm, hb⟩ := Except.mapM_result hm he
      have hk := hc.key _ he
      exact ⟨g, ⟨hm, (AssetRows.balances_ne_nil_iff hb).mpr hn⟩, (AssetRows.balances_key hb).trans hk⟩

end Balance

end Mergepay
