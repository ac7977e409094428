import Mergepay.Data.Except
import Mergepay.Data.OrderedMap
import Mergepay.Money.Asset

namespace Mergepay.Balance

open Money

structure ShareRow where
  payerUserId : String
  userId      : String
  shareAmount : String
  settled     : Bool

structure SettlementRow where
  fromUserId : String
  toUserId   : String
  amount     : String
  confirmed  : Bool

structure AssetShareRow extends ShareRow where
  assetCode   : String
  assetIssuer : Option String

structure AssetSettlementRow extends SettlementRow where
  assetCode   : String
  assetIssuer : Option String

structure NetBalance where
  userId : String
  net    : String
  deriving DecidableEq

structure AssetNetBalances where
  assetCode   : String
  assetIssuer : Option String
  balances    : List NetBalance
  deriving DecidableEq

abbrev Net := OrderedMap String Int

def Net.add (net : Net) (userId : String) (delta : Int) : Net :=
  net.set userId ((net.get? userId).getD 0 + delta)

def addShare (net : Net) (s : ShareRow) : Except Failure Net :=
  if s.settled then
    return net
  else if s.userId = s.payerUserId then
    return net
  else do
    let amt ← toStroops s.shareAmount
    return (net.add s.payerUserId amt).add s.userId (-amt)

def addSettlement (net : Net) (st : SettlementRow) : Except Failure Net :=
  if ¬st.confirmed then
    return net
  else do
    let amt ← toStroops st.amount
    return (net.add st.fromUserId amt).add st.toUserId (-amt)

def toNetBalance (entry : String × Int) : Except Failure NetBalance :=
  return { userId := entry.1, net := ← fromStroops entry.2 }

def computeNetBalances (shares : List ShareRow) (settlements : List SettlementRow) :
    Except Failure (List NetBalance) := do
  let net ← shares.foldlM addShare []
  let net ← settlements.foldlM addSettlement net
  net.mapM toNetBalance

-- The rows of a single asset. The asset is spelled as in the first of these rows.
structure AssetRows where
  assetCode   : String
  assetIssuer : Option String
  shares      : List ShareRow := []
  settlements : List SettlementRow := []

abbrev Groups := OrderedMap String AssetRows

section

variable (R : Registry)

def groupFor (groups : Groups) (assetCode : String) (assetIssuer : Option String) :
    Except Failure AssetRows := do
  R.assertSupportedSettlementAsset assetCode assetIssuer
  return (groups.get? (balanceAssetKey assetCode assetIssuer)).getD { assetCode, assetIssuer }

def pushShare (groups : Groups) (s : AssetShareRow) : Except Failure Groups := do
  let group ← groupFor R groups s.assetCode s.assetIssuer
  return groups.set (balanceAssetKey s.assetCode s.assetIssuer)
    { group with shares := group.shares ++ [s.toShareRow] }

def pushSettlement (groups : Groups) (st : AssetSettlementRow) : Except Failure Groups := do
  let group ← groupFor R groups st.assetCode st.assetIssuer
  return groups.set (balanceAssetKey st.assetCode st.assetIssuer)
    { group with settlements := group.settlements ++ [st.toSettlementRow] }

def AssetRows.balances (group : AssetRows) : Except Failure AssetNetBalances := do
  let balances ← computeNetBalances group.shares group.settlements
  return { assetCode := group.assetCode, assetIssuer := group.assetIssuer, balances }

def computeNetBalancesByAsset (shares : List AssetShareRow)
    (settlements : List AssetSettlementRow) : Except Failure (List AssetNetBalances) := do
  let groups ← shares.foldlM (pushShare R) []
  let groups ← settlements.foldlM (pushSettlement R) groups
  let all ← groups.mapM (·.2.balances)
  return all.filter (·.balances.length > 0)

end

-- The value of an amount that has been read successfully.
def stroops (text : String) : Int :=
  match toStroops text with
  | .ok n    => n
  | .error _ => 0

def netOf (balances : List NetBalance) (userId : String) : Int :=
  match balances.find? (·.userId = userId) with
  | some b => stroops b.net
  | none   => 0

-- The net of a user in the balance sheet of an asset, which is zero for those who are not listed.
def assetNetOf (sheets : List AssetNetBalances) (key userId : String) : Int :=
  match sheets.find? (fun g => balanceAssetKey g.assetCode g.assetIssuer = key) with
  | some g => netOf g.balances userId
  | none   => 0

-- What a row contributes to the net of a user.
def ShareRow.delta (s : ShareRow) (u : String) : Int :=
  if s.settled ∨ s.userId = s.payerUserId then 0 else
    (if u = s.payerUserId then stroops s.shareAmount else 0) -
    (if u = s.userId then stroops s.shareAmount else 0)

def SettlementRow.delta (st : SettlementRow) (u : String) : Int :=
  if ¬st.confirmed then 0 else
    (if u = st.fromUserId then stroops st.amount else 0) -
    (if u = st.toUserId then stroops st.amount else 0)

namespace Net

def value (net : Net) (u : String) : Int :=
  (net.get? u).getD 0

theorem value_add (net : Net) (k : String) (d : Int) (u : String) :
    (net.add k d).value u = net.value u + if u = k then d else 0 := by
  simp only [value, add, OrderedMap.get?_set]
  by_cases h : k = u
  case pos => subst h; simp
  case neg => simp [h, Ne.symm h]

end Net

theorem stroops_eq (h : toStroops t = .ok n) : stroops t = n := by
  simp [stroops, h]

theorem addShare_value (h : addShare net s = .ok net') (u : String) :
    net'.value u = net.value u + s.delta u := by
  by_cases hs : s.settled = true
  case pos => simp_all [addShare, ShareRow.delta, Except.pure_eq_ok]
  case neg =>
    by_cases hu : s.userId = s.payerUserId
    case pos => simp_all [addShare, ShareRow.delta, Except.pure_eq_ok]
    case neg =>
      simp only [addShare, hs, hu, if_false, Except.bind_eq_ok, Except.pure_eq_ok,
        Bool.false_eq_true] at h
      have ⟨amt, ha, h⟩ := h
      subst h
      simp only [Net.value_add, ShareRow.delta, hs, hu, Bool.false_eq_true, or_self, if_false,
        stroops_eq ha]
      split <;> split <;> omega

theorem addSettlement_value (h : addSettlement net st = .ok net') (u : String) :
    net'.value u = net.value u + st.delta u := by
  by_cases hs : st.confirmed = true
  case neg => simp_all [addSettlement, SettlementRow.delta, Except.pure_eq_ok]
  case pos =>
    simp only [addSettlement, hs, not_true_eq_false, if_false, Except.bind_eq_ok,
      Except.pure_eq_ok] at h
    have ⟨amt, ha, h⟩ := h
    subst h
    simp only [Net.value_add, SettlementRow.delta, hs, not_true_eq_false, if_false, stroops_eq ha]
    split <;> split <;> omega

-- The balances that are returned are the values of the accumulated map.
theorem netOf_mapM {net : Net} {balances : List NetBalance}
    (h : net.mapM toNetBalance = .ok balances) (u : String) : netOf balances u = net.value u := by
  replace h := Except.mapM_forall₂ h
  induction h
  case nil => rfl
  case cons e b _ _ hd _ hi =>
    have ⟨t, ht, hb⟩ := Except.bind_eq_ok.mp hd
    rw [Except.pure_eq_ok] at hb
    subst hb
    by_cases hu : e.1 = u
    case pos =>
      simp [netOf, Net.value, OrderedMap.get?, hu, stroops_eq (toStroops_fromStroops ht)]
    case neg => simpa [netOf, Net.value, OrderedMap.get?, hu] using hi

theorem computeNetBalances_net (h : computeNetBalances shares settlements = .ok balances)
    (u : String) :
    netOf balances u = (shares.map (·.delta u)).sum + (settlements.map (·.delta u)).sum := by
  have ⟨net₁, h₁, h⟩ := Except.bind_eq_ok.mp h
  have ⟨net₂, h₂, h⟩ := Except.bind_eq_ok.mp h
  have h₁ := Except.foldlM_sum (Net.value · u) (·.delta u) h₁ fun _ _ _ hs => addShare_value hs u
  have h₂ := Except.foldlM_sum (Net.value · u) (·.delta u) h₂
    fun _ _ _ hs => addSettlement_value hs u
  rw [netOf_mapM h, h₂, h₁]
  simp [Net.value]

-- The rows which have been collected under a key so far.
structure Groups.Collects (groups : Groups) (shares : List AssetShareRow)
    (settlements : List AssetSettlementRow) : Prop where
  nodup : (OrderedMap.keys groups).Nodup
  key   : ∀ e ∈ groups, balanceAssetKey e.2.assetCode e.2.assetIssuer = e.1
  rows  : ∀ k, ((groups.get? k).elim [] (·.shares) =
      (shares.filter fun s => balanceAssetKey s.assetCode s.assetIssuer = k).map (·.toShareRow)) ∧
    ((groups.get? k).elim [] (·.settlements) =
      (settlements.filter fun s => balanceAssetKey s.assetCode s.assetIssuer = k).map
        (·.toSettlementRow))

namespace Groups.Collects

theorem nil : Groups.Collects [] [] [] where
  nodup := by simp
  key   := by simp
  rows  := by simp

theorem groupFor_eq {R : Registry} (h : groupFor R groups code issuer = .ok g) :
    g = (groups.get? (balanceAssetKey code issuer)).getD ⟨code, issuer, [], []⟩ := by
  have ⟨_, _, h⟩ := Except.bind_eq_ok.mp h
  exact (Except.pure_eq_ok.mp h).symm

theorem groupFor_key {R : Registry} (h : Groups.Collects groups shares settlements)
    (hg : groupFor R groups code issuer = .ok g) :
    balanceAssetKey g.assetCode g.assetIssuer = balanceAssetKey code issuer := by
  rw [groupFor_eq hg]
  cases hk : groups.get? (balanceAssetKey code issuer)
  case none => rfl
  case some =>
    have h := h.key _ (OrderedMap.mem_of_get? hk)
    exact h

theorem pushShare {R : Registry} {s : AssetShareRow}
    (h : Groups.Collects groups shares settlements) (hp : pushShare R groups s = .ok groups') :
    Groups.Collects groups' (shares ++ [s]) settlements := by
  have ⟨g, hg, hp⟩ := Except.bind_eq_ok.mp hp
  rw [Except.pure_eq_ok] at hp
  subst hp
  refine ⟨OrderedMap.nodup_keys_set h.nodup, fun e he => ?_, fun k => ?_⟩
  case refine_1 =>
    rcases OrderedMap.mem_set he with rfl | he
    case inl =>
      have h := h.groupFor_key hg
      exact h
    case inr => exact h.key e he
  case refine_2 =>
    have hg := groupFor_eq hg
    have hr := h.rows k
    rw [OrderedMap.get?_set]
    by_cases hk : balanceAssetKey s.assetCode s.assetIssuer = k
    case neg => simpa [List.filter_append, hk] using hr
    case pos =>
      subst hk
      cases hk : groups.get? (balanceAssetKey s.assetCode s.assetIssuer) <;> simp_all

theorem pushSettlement {R : Registry} {st : AssetSettlementRow}
    (h : Groups.Collects groups shares settlements) (hp : pushSettlement R groups st = .ok groups') :
    Groups.Collects groups' shares (settlements ++ [st]) := by
  have ⟨g, hg, hp⟩ := Except.bind_eq_ok.mp hp
  rw [Except.pure_eq_ok] at hp
  subst hp
  refine ⟨OrderedMap.nodup_keys_set h.nodup, fun e he => ?_, fun k => ?_⟩
  case refine_1 =>
    rcases OrderedMap.mem_set he with rfl | he
    case inl =>
      have h := h.groupFor_key hg
      exact h
    case inr => exact h.key e he
  case refine_2 =>
    have hg := groupFor_eq hg
    have hr := h.rows k
    rw [OrderedMap.get?_set]
    by_cases hk : balanceAssetKey st.assetCode st.assetIssuer = k
    case neg => simpa [List.filter_append, hk] using hr
    case pos =>
      subst hk
      cases hk : groups.get? (balanceAssetKey st.assetCode st.assetIssuer) <;> simp_all

-- The balance sheet of a key, if there is any, is computed from the rows of that key alone. A sheet
-- without entries is dropped, which leaves all nets at zero.
theorem assetNetOf {sheets all : List AssetNetBalances}
    (h : Groups.Collects groups shares settlements) (hm : groups.mapM (·.2.balances) = .ok all)
    (hs : sheets = all.filter (·.balances.length > 0)) (k u : String) :
    assetNetOf sheets k u = ((groups.get? k).elim [] (·.shares) |>.map (·.delta u)).sum +
      ((groups.get? k).elim [] (·.settlements) |>.map (·.delta u)).sum := by
  have hn := h.nodup
  have hk := h.key
  clear h
  replace hm := Except.mapM_forall₂ hm
  subst hs
  induction hm
  case nil => simp [Balance.assetNetOf]
  case cons e b groups all hd _ hi =>
    have hi := hi (List.nodup_cons.mp hn).2 fun e he => hk e (List.mem_cons_of_mem _ he)
    have hk := hk e List.mem_cons_self
    obtain ⟨balances, hb, hd⟩ := Except.bind_eq_ok.mp hd
    rw [Except.pure_eq_ok] at hd
    subst hd
    have hb := computeNetBalances_net hb u
    by_cases he : e.1 = k
    case neg =>
      have he' : balanceAssetKey e.2.assetCode e.2.assetIssuer ≠ k := hk ▸ he
      rw [OrderedMap.get?, if_neg he, ← hi]
      by_cases hl : balances.length > 0 <;>
        simp only [Balance.assetNetOf, List.filter_cons, hl, decide_true, decide_false, if_true,
          if_false, Bool.false_eq_true, List.find?_cons, he']
    case pos =>
      have hn : OrderedMap.get? groups k = none :=
        OrderedMap.get?_eq_none_iff.mpr <| he ▸ (List.nodup_cons.mp hn).1
      rw [hn] at hi
      simp only [OrderedMap.get?, he, if_true, Option.elim, ← hb]
      by_cases hl : balances.length > 0
      case pos =>
        simp [Balance.assetNetOf, hl, hk, he]
      case neg =>
        simp_all [Balance.assetNetOf, netOf]

theorem of_foldlM {R : Registry} (hs : shares.foldlM (Balance.pushShare R) [] = .ok groups₁)
    (hst : settlements.foldlM (Balance.pushSettlement R) groups₁ = .ok groups₂) :
    Groups.Collects groups₂ shares settlements := by
  have h : Groups.Collects groups₁ shares [] :=
    Except.foldlM_induction (fun pre groups => Groups.Collects groups pre []) hs .nil
      fun _ _ _ _ h hp => h.pushShare hp
  exact Except.foldlM_induction (fun pre groups => Groups.Collects groups shares pre) hst h
    fun _ _ _ _ h hp => h.pushSettlement hp

end Groups.Collects

-- The engine nets each asset on its own: only rows with the given key count.
theorem computeNetBalancesByAsset_net {R : Registry}
    (h : computeNetBalancesByAsset R shares settlements = .ok sheets) (k u : String) :
    assetNetOf sheets k u =
      ((shares.filter fun s => balanceAssetKey s.assetCode s.assetIssuer = k).map
        (·.toShareRow.delta u)).sum +
      ((settlements.filter fun s => balanceAssetKey s.assetCode s.assetIssuer = k).map
        (·.toSettlementRow.delta u)).sum := by
  have ⟨groups₁, h₁, h⟩ := Except.bind_eq_ok.mp h
  have ⟨groups₂, h₂, h⟩ := Except.bind_eq_ok.mp h
  have ⟨all, hm, h⟩ := Except.bind_eq_ok.mp h
  have hc := Groups.Collects.of_foldlM h₁ h₂
  have ⟨hs, hst⟩ := hc.rows k
  rw [hc.assetNetOf hm (Except.pure_eq_ok.mp h).symm, hs, hst, List.map_map, List.map_map]
  rfl

-- The rows whose amounts are read by the engine.
def ShareRow.Counts (s : ShareRow) : Prop :=
  s.settled = false ∧ s.userId ≠ s.payerUserId

def SettlementRow.Counts (st : SettlementRow) : Prop :=
  st.confirmed = true

theorem ShareRow.Counts.read {s : ShareRow} (hc : s.Counts) (h : addShare net s = .ok net') :
    ∃ n, toStroops s.shareAmount = .ok n := by
  simp only [addShare, hc.1, hc.2, if_false, Bool.false_eq_true, Except.bind_eq_ok] at h
  have ⟨n, h, _⟩ := h
  exact ⟨n, h⟩

theorem SettlementRow.Counts.read {st : SettlementRow} (hc : st.Counts)
    (h : addSettlement net st = .ok net') : ∃ n, toStroops st.amount = .ok n := by
  have hc : st.confirmed = true := hc
  simp only [addSettlement, hc, not_true_eq_false, if_false, Except.bind_eq_ok] at h
  have ⟨n, h, _⟩ := h
  exact ⟨n, h⟩

theorem computeNetBalances_read (h : computeNetBalances shares settlements = .ok balances) :
    (∀ s ∈ shares, s.Counts → ∃ n, toStroops s.shareAmount = .ok n) ∧
    (∀ st ∈ settlements, st.Counts → ∃ n, toStroops st.amount = .ok n) := by
  have ⟨_, h₁, h⟩ := Except.bind_eq_ok.mp h
  have ⟨_, h₂, _⟩ := Except.bind_eq_ok.mp h
  refine ⟨fun s hs hc => ?_, fun st hst hc => ?_⟩
  case refine_1 => have ⟨_, _, h⟩ := Except.foldlM_mem h₁ hs; exact hc.read h
  case refine_2 => have ⟨_, _, h⟩ := Except.foldlM_mem h₂ hst; exact hc.read h

theorem computeNetBalancesByAsset_read {R : Registry}
    (h : computeNetBalancesByAsset R shares settlements = .ok sheets) :
    (∀ s ∈ shares, s.toShareRow.Counts → ∃ n, toStroops s.shareAmount = .ok n) ∧
    (∀ st ∈ settlements, st.toSettlementRow.Counts → ∃ n, toStroops st.amount = .ok n) := by
  obtain ⟨groups₁, h₁, h⟩ := Except.bind_eq_ok.mp h
  obtain ⟨groups₂, h₂, h⟩ := Except.bind_eq_ok.mp h
  obtain ⟨all, hm, _⟩ := Except.bind_eq_ok.mp h
  have hc := Groups.Collects.of_foldlM h₁ h₂
  -- Every row belongs to some group, and the balances of that group have been computed.
  have hg : ∀ k g, groups₂.get? k = some g →
      ∃ b, computeNetBalances g.shares g.settlements = .ok b := by
    intro k g hg
    obtain ⟨_, hb⟩ := Except.mapM_mem hm (OrderedMap.mem_of_get? hg)
    obtain ⟨b, hb, _⟩ := Except.bind_eq_ok.mp hb
    exact ⟨b, hb⟩
  refine ⟨fun s hs => ?_, fun st hst => ?_⟩
  case refine_1 =>
    have hr := (hc.rows (balanceAssetKey s.assetCode s.assetIssuer)).1
    have hs := hr ▸ List.mem_map_of_mem (List.mem_filter.mpr ⟨hs, by simp⟩)
    cases hk : groups₂.get? (balanceAssetKey s.assetCode s.assetIssuer)
    case none => simp [hk] at hs
    case some g =>
      obtain ⟨_, hb⟩ := hg _ g hk
      exact (computeNetBalances_read hb).1 _ (by simpa [hk] using hs)
  case refine_2 =>
    have hr := (hc.rows (balanceAssetKey st.assetCode st.assetIssuer)).2
    have hst := hr ▸ List.mem_map_of_mem (List.mem_filter.mpr ⟨hst, by simp⟩)
    cases hk : groups₂.get? (balanceAssetKey st.assetCode st.assetIssuer)
    case none => simp [hk] at hst
    case some g =>
      obtain ⟨_, hb⟩ := hg _ g hk
      exact (computeNetBalances_read hb).2 _ (by simpa [hk] using hst)

end Mergepay.Balance
