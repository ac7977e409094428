import Mergepay.Data.OrderedMap
import Mergepay.Money.Asset
import Mergepay.Schema

namespace Mergepay.Cache

open Money

-- What Horizon reports about an asset of an account.
inductive BalanceLine
  | native (balance : String)
  | issued (assetCode assetIssuer balance : String)
  | poolShares (balance : String)
  deriving DecidableEq

namespace BalanceLine

def balance : BalanceLine → String
  | native balance | issued _ _ balance | poolShares balance => balance

def isNative : BalanceLine → Bool
  | native _ => true
  | _        => false

def asset : BalanceLine → Option (String × String)
  | issued assetCode assetIssuer _ => some (assetCode, assetIssuer)
  | _                              => none

end BalanceLine

-- An account has lumens, and at most one trustline for an asset.
structure HorizonAccount where
  lines         : List BalanceLine
  nativeBalance : String
  native        : lines.filter BalanceLine.isNative = [.native nativeBalance]
  trustlines    : (lines.filterMap BalanceLine.asset).Nodup
  balances      : ∀ line ∈ lines, line.balance ≠ ""

structure SnapshotBalance where
  assetCode   : String
  assetIssuer : Option String
  balance     : String
  deriving DecidableEq

structure AccountSnapshot where
  exists_  : Bool
  balances : List SnapshotBalance
  deriving DecidableEq

-- Shares of a pool carry no code.
def BalanceLine.toSnapshot : BalanceLine → SnapshotBalance
  | native balance                       => ⟨"XLM", none, balance⟩
  | issued assetCode assetIssuer balance => ⟨assetCode, some assetIssuer, balance⟩
  | poolShares balance                   => ⟨"liquidity_pool_shares", none, balance⟩

def loadAccount (horizon : String → Option HorizonAccount) (publicKey : String) : AccountSnapshot :=
  match horizon publicKey with
  | none      => ⟨false, []⟩
  | some acct => ⟨true, acct.lines.map BalanceLine.toSnapshot⟩

-- The tables

structure TreasuryGroup where
  id                       : String
  treasuryEnabled          : Bool := false
  treasuryAccountPublicKey : Option String := none
  deriving DecidableEq

structure AccountBalance where
  balance   : String
  updatedAt : Time
  deriving DecidableEq

structure VarianceAudit where
  groupId        : String
  entityId       : String
  assetCode      : String
  assetIssuer    : Option String
  cachedBalance  : Option String
  onChainBalance : String
  deriving DecidableEq

-- Balances are kept for an account and the code of an asset.
structure BalanceStore where
  groups   : List TreasuryGroup := []
  balances : OrderedMap (String × String) AccountBalance := []
  audits   : List VarianceAudit := []
  deriving DecidableEq

-- Balances are decimal numbers. The fraction is padded or cut off.
def normalizeBalance (value : String) : String :=
  let parts := value.toList.splitOn '.'
  let integer := parts.headD []
  let fraction := parts.tail.headD []
  .ofList (integer ++ '.' :: (fraction ++ "0000000".toList).take 7)

structure CacheDeps where
  stableAssetCode   : String
  stableAssetIssuer : String
  horizon           : String → Option HorizonAccount

section

variable (D : CacheDeps) (now : Time)

-- The worker

def upsertBalance (accountId assetCode balance : String) (s : BalanceStore) : BalanceStore :=
  { s with balances := s.balances.set (accountId, assetCode) ⟨balance, now⟩ }

def syncAccountBalances (accountId : String) (s : BalanceStore) : BalanceStore :=
  let snapshot := loadAccount D.horizon accountId
  if ¬snapshot.exists_ then s
  else snapshot.balances.foldl (fun s bal => upsertBalance now accountId bal.assetCode bal.balance s) s

-- The treasury service

-- Tells whether there has been a variance.
def compareAndUpdate (treasuryId publicKey assetCode : String) (assetIssuer : Option String)
    (onChainBalance : String) (cachedBalance : Option String) (s : BalanceStore) :
    Except Failure (Bool × BalanceStore) :=
  let normalizedOnChain := normalizeBalance onChainBalance
  let normalizedCached := (cachedBalance.bind present).map normalizeBalance
  if normalizedCached = some normalizedOnChain then
    match s.balances.get? (publicKey, assetCode) with
    | none     => .error World.recordNotFound
    | some row => .ok (false, { s with balances := s.balances.set (publicKey, assetCode) { row with updatedAt := now } })
  else
    let s := upsertBalance now publicKey assetCode onChainBalance s
    .ok (true, { s with
      audits := s.audits ++ [{
        groupId  := treasuryId
        entityId := publicKey ++ ":" ++ assetCode
        assetCode, assetIssuer, cachedBalance, onChainBalance
      }]
    })

structure Reconciliation where
  compared  : Nat
  variances : Nat
  deriving DecidableEq

def reconcileTreasuryBalance (treasuryId : String) (s : BalanceStore) :
    Except Failure (Reconciliation × BalanceStore) := do
  let some group := s.groups.find? (·.id = treasuryId) | return (⟨0, 0⟩, s)
  let some publicKey := group.treasuryAccountPublicKey.bind present | return (⟨0, 0⟩, s)
  if ¬group.treasuryEnabled then
    return (⟨0, 0⟩, s)
  let snapshot := loadAccount D.horizon publicKey
  if ¬snapshot.exists_ then
    return (⟨0, 0⟩, s)
  -- A missing trustline is treated as zero.
  let xlmOnChain := ((snapshot.balances.find? (·.assetCode = "XLM")).map (·.balance)).getD "0"
  let usdcOnChain := ((snapshot.balances.find? fun b =>
    b.assetCode = D.stableAssetCode ∧ b.assetIssuer = some D.stableAssetIssuer).map (·.balance)).getD "0"
  let cachedXlm := s.balances.get? (publicKey, "XLM")
  let cachedUsdc := s.balances.get? (publicKey, D.stableAssetCode)
  let (xlmVariance, s) ← compareAndUpdate now treasuryId publicKey "XLM" none xlmOnChain
    (cachedXlm.map (·.balance)) s
  let (usdcVariance, s) ← compareAndUpdate now treasuryId publicKey D.stableAssetCode
    (some D.stableAssetIssuer) usdcOnChain (cachedUsdc.map (·.balance)) s
  return (⟨2, xlmVariance.toNat + usdcVariance.toNat⟩, s)

end

-- What the cache shows

-- An empty balance is taken for a missing one.
def BalanceStore.shown (s : BalanceStore) (accountId assetCode : String) : Option String :=
  ((s.balances.get? (accountId, assetCode)).bind fun row => present row.balance).map normalizeBalance

def BalanceStore.Shows (s : BalanceStore) (accountId assetCode balance : String) : Prop :=
  s.shown accountId assetCode = some (normalizeBalance balance)

instance (s : BalanceStore) : Decidable (s.Shows accountId assetCode balance) :=
  inferInstanceAs (Decidable (_ = _))

namespace HorizonAccount

variable (acct : HorizonAccount)

def reported : List SnapshotBalance :=
  acct.lines.map BalanceLine.toSnapshot

-- Assets of different issuers may have the same code.

def first? (assetCode : String) : Option SnapshotBalance :=
  acct.reported.find? (·.assetCode = assetCode)

def last? (assetCode : String) : Option SnapshotBalance :=
  acct.reported.reverse.find? (·.assetCode = assetCode)

-- What the service takes for the balance of lumens.
def xlmOnChain : String :=
  ((acct.first? "XLM").map (·.balance)).getD "0"

-- The balance of an issued asset.
def balanceOf (assetCode assetIssuer : String) : String :=
  ((acct.lines.find? (·.asset = some (assetCode, assetIssuer))).map (·.balance)).getD "0"

end HorizonAccount

def CacheDeps.stableOnChain (D : CacheDeps) (acct : HorizonAccount) : String :=
  acct.balanceOf D.stableAssetCode D.stableAssetIssuer

section

variable {D : CacheDeps} {now : Time} {s s' : BalanceStore} {acct : HorizonAccount}
  {treasuryId publicKey accountId assetCode code onChainBalance : String} {assetIssuer cachedBalance : Option String}

theorem present_ne {text : String} (h : text ≠ "") : present text = some text :=
  if_neg h

theorem shown_upsertBalance {balance : String} (h : balance ≠ "") :
    (upsertBalance now accountId assetCode balance s).shown publicKey code =
      if (accountId, assetCode) = (publicKey, code) then some (normalizeBalance balance)
      else s.shown publicKey code := by
  rw [BalanceStore.shown, upsertBalance, OrderedMap.get?_set]
  split
  · simp [present_ne h]
  · rfl

-- The last entry with a code wins.
theorem shown_syncAccountBalances (ha : D.horizon publicKey = some acct) :
    (syncAccountBalances D now publicKey s).shown publicKey code =
      ((acct.last? code).map fun entry => normalizeBalance entry.balance).or (s.shown publicKey code) := by
  have h (entries : List SnapshotBalance) (hne : ∀ entry ∈ entries, entry.balance ≠ "") (s : BalanceStore) :
      (entries.foldl (fun s bal => upsertBalance now publicKey bal.assetCode bal.balance s) s).shown publicKey code =
        ((entries.reverse.find? (·.assetCode = code)).map fun entry => normalizeBalance entry.balance).or
          (s.shown publicKey code) := by
    induction entries generalizing s with
    | nil => rfl
    | cons hd tl hi =>
      have ⟨hhd, htl⟩ := List.forall_mem_cons.mp hne
      rw [List.foldl_cons, hi htl, shown_upsertBalance hhd, List.reverse_cons, List.find?_append]
      cases tl.reverse.find? (·.assetCode = code) with
      | some => rfl
      | none  => by_cases hc : hd.assetCode = code <;> simp [hc]
  simp only [syncAccountBalances, loadAccount, ha, not_true_eq_false, if_false]
  refine h _ (fun entry he => ?_) s
  have ⟨line, hl, he⟩ := List.mem_map.mp he
  have hb := acct.balances line hl
  subst he
  cases line <;> exact hb

theorem groups_syncAccountBalances : (syncAccountBalances D now publicKey s).groups = s.groups := by
  have h (entries : List SnapshotBalance) (s : BalanceStore) :
      (entries.foldl (fun s bal => upsertBalance now publicKey bal.assetCode bal.balance s) s).groups = s.groups := by
    induction entries generalizing s with
    | nil           => rfl
    | cons hd tl hi => exact hi _
  simp only [syncAccountBalances]
  split
  · rfl
  · exact h _ s

-- What has been compared is shown afterwards.
theorem compareAndUpdate_ok {shown : Option String} (hb : onChainBalance ≠ "")
    (hc : (cachedBalance.bind present).map normalizeBalance = shown)
    (hr : shown = some (normalizeBalance onChainBalance) →
      (s.balances.get? (publicKey, assetCode)).isSome = true) :
    ∃ s', compareAndUpdate now treasuryId publicKey assetCode assetIssuer onChainBalance cachedBalance s =
        .ok (decide (shown ≠ some (normalizeBalance onChainBalance)), s') ∧ s'.groups = s.groups ∧
      (∀ key, (s.balances.get? key).isSome = true → (s'.balances.get? key).isSome = true) ∧
      ∀ accountId code, s'.shown accountId code =
        if (publicKey, assetCode) = (accountId, code) ∧ shown ≠ some (normalizeBalance onChainBalance)
        then some (normalizeBalance onChainBalance) else s.shown accountId code := by
  simp only [compareAndUpdate, hc]
  have kept {row : AccountBalance} (key : String × String) (hk : (s.balances.get? key).isSome = true) :
      ((s.balances.set (publicKey, assetCode) row).get? key).isSome = true := by
    rw [OrderedMap.get?_set]
    split
    · rfl
    · exact hk
  split
  case isTrue he =>
    obtain ⟨row, hrow⟩ := Option.isSome_iff_exists.mp (hr he)
    refine ⟨{ s with balances := s.balances.set (publicKey, assetCode) { row with updatedAt := now } }, ?_, rfl,
      kept, fun accountId code => ?_⟩
    · simp [hrow, he]
    · rw [if_neg fun h => h.2 he, BalanceStore.shown, OrderedMap.get?_set]
      split
      case isTrue hk => simp [BalanceStore.shown, ← hk, hrow]
      case isFalse   => rfl
  case isFalse he =>
    have hs (accountId code : String) : (upsertBalance now publicKey assetCode onChainBalance s).shown accountId code =
        if (publicKey, assetCode) = (accountId, code) then some (normalizeBalance onChainBalance)
        else s.shown accountId code := shown_upsertBalance hb
    refine ⟨{ upsertBalance now publicKey assetCode onChainBalance s with audits := _ }, by rw [decide_eq_true he], rfl,
      kept, fun accountId code => ?_⟩
    simp only [and_iff_left he]
    exact hs accountId code

theorem find_stable : (acct.reported.find? fun b =>
    b.assetCode = code ∧ b.assetIssuer = some issuer).map (·.balance) =
      (acct.lines.find? (·.asset = some (code, issuer))).map (·.balance) := by
  rw [HorizonAccount.reported, List.find?_map, Option.map_map]
  have hp : ((fun b : SnapshotBalance => decide (b.assetCode = code ∧ b.assetIssuer = some issuer)) ∘
      BalanceLine.toSnapshot) = fun line => decide (line.asset = some (code, issuer)) := by
    funext line
    refine decide_eq_decide.mpr ?_
    cases line <;> simp [BalanceLine.toSnapshot, BalanceLine.asset]
  rw [hp]
  cases acct.lines.find? fun line => decide (line.asset = some (code, issuer)) with
  | none      => rfl
  | some line => cases line <;> rfl

theorem balance_ne (he : entry ∈ acct.reported) : entry.balance ≠ "" := by
  have ⟨line, hl, he⟩ := List.mem_map.mp he
  have hb := acct.balances line hl
  subst he
  cases line <;> exact hb

theorem xlmOnChain_ne : acct.xlmOnChain ≠ "" := by
  unfold HorizonAccount.xlmOnChain
  cases hf : acct.first? "XLM" with
  | none       => decide
  | some entry => exact balance_ne (List.mem_of_find?_eq_some hf)

theorem balanceOf_ne : acct.balanceOf code issuer ≠ "" := by
  unfold HorizonAccount.balanceOf
  cases hf : acct.lines.find? (·.asset = some (code, issuer)) with
  | none      => decide
  | some line => exact acct.balances line (List.mem_of_find?_eq_some hf)

-- The treasury of a group.
structure BalanceStore.HasTreasury (s : BalanceStore) (treasuryId publicKey : String) : Prop where
  group : ∃ group, s.groups.find? (·.id = treasuryId) = some group ∧ group.treasuryEnabled = true ∧
    group.treasuryAccountPublicKey = some publicKey
  key   : publicKey ≠ ""

theorem shown_eq : ((s.balances.get? (accountId, code)).map (·.balance) |>.bind present).map normalizeBalance =
    s.shown accountId code := by
  rw [BalanceStore.shown, Option.bind_map]
  rfl

theorem isSome_of_shown (h : s.shown accountId code = some value) :
    (s.balances.get? (accountId, code)).isSome = true := by
  cases hr : s.balances.get? (accountId, code) with
  | some     => rfl
  | none     => simp [BalanceStore.shown, hr] at h

-- The balance of the stable asset is written last. Both rows have been read before.
theorem reconcileTreasuryBalance_ok (ht : s.HasTreasury treasuryId publicKey) (ha : D.horizon publicKey = some acct) :
    ∃ r s', reconcileTreasuryBalance D now treasuryId s = .ok (r, s') ∧ s'.groups = s.groups ∧
      (r.variances = 0 ↔ s.Shows publicKey "XLM" acct.xlmOnChain ∧
        s.Shows publicKey D.stableAssetCode (D.stableOnChain acct)) ∧
      ∀ code, s'.shown publicKey code =
        if D.stableAssetCode = code ∧ ¬s.Shows publicKey D.stableAssetCode (D.stableOnChain acct)
        then some (normalizeBalance (D.stableOnChain acct))
        else if "XLM" = code ∧ ¬s.Shows publicKey "XLM" acct.xlmOnChain
        then some (normalizeBalance acct.xlmOnChain)
        else s.shown publicKey code := by
  have ⟨group, hg, hen, hkey⟩ := ht.group
  have hx : acct.xlmOnChain ≠ "" := xlmOnChain_ne
  have hu : D.stableOnChain acct ≠ "" := balanceOf_ne
  have ⟨s₁, h₁, hg₁, hk₁, hs₁⟩ : ∃ s', compareAndUpdate now treasuryId publicKey "XLM" none acct.xlmOnChain
      ((s.balances.get? (publicKey, "XLM")).map (·.balance)) s = _ ∧ _ :=
    compareAndUpdate_ok hx shown_eq isSome_of_shown
  have ⟨s₂, h₂, hg₂, _, hs₂⟩ : ∃ s', compareAndUpdate now treasuryId publicKey D.stableAssetCode
      (some D.stableAssetIssuer) (D.stableOnChain acct)
      ((s.balances.get? (publicKey, D.stableAssetCode)).map (·.balance)) s₁ = _ ∧ _ :=
    compareAndUpdate_ok hu shown_eq fun h => hk₁ _ (isSome_of_shown h)
  refine ⟨⟨2, (decide ¬s.Shows publicKey "XLM" acct.xlmOnChain).toNat +
    (decide ¬s.Shows publicKey D.stableAssetCode (D.stableOnChain acct)).toNat⟩, s₂, ?_, hg₂.trans hg₁, ?_,
    fun code => ?_⟩
  · have hpk : group.treasuryAccountPublicKey.bind present = some publicKey := by
      rw [hkey]
      exact present_ne ht.key
    have hload : loadAccount D.horizon publicKey = ⟨true, acct.reported⟩ := by
      rw [loadAccount, ha]
      rfl
    have hstable : ((acct.reported.find? fun b => b.assetCode = D.stableAssetCode ∧
        b.assetIssuer = some D.stableAssetIssuer).map (·.balance)).getD "0" = D.stableOnChain acct := by
      rw [find_stable]
      rfl
    have hxlm : ((acct.reported.find? (·.assetCode = "XLM")).map (·.balance)).getD "0" = acct.xlmOnChain := rfl
    simp only [reconcileTreasuryBalance, hg, hpk, hen, hload, hstable, hxlm, not_true_eq_false, if_false]
    simp only [bind, Except.bind, h₁, h₂]
    rfl
  · simp only [Nat.add_eq_zero_iff, Bool.toNat_eq_zero, decide_eq_false_iff_not, not_not]
  · simp only [hs₂, hs₁, Prod.mk.injEq, true_and]
    rfl

end

end Mergepay.Cache
