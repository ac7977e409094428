import Mergepay.Treasury.Cache

namespace Mergepay.Cache

inductive CacheRun
  | sync (now : Time)
  | reconcile (now : Time)
  deriving DecidableEq

def CacheDeps.run (D : CacheDeps) (treasuryId publicKey : String) (s : BalanceStore) :
    CacheRun → Except Failure BalanceStore
  | .sync now      => .ok (syncAccountBalances D now publicKey s)
  | .reconcile now => (reconcileTreasuryBalance D now treasuryId s).map (·.2)

-- The cache holds the balances of the real assets.
structure BalanceStore.Caches (s : BalanceStore) (D : CacheDeps) (publicKey : String) (acct : HorizonAccount) : Prop where
  xlm    : s.Shows publicKey "XLM" acct.nativeBalance
  stable : s.Shows publicKey D.stableAssetCode (D.stableOnChain acct)

-- After a synchronization, no variance is reported.
def Settled (D : CacheDeps) (treasuryId : String) (s : BalanceStore) : CacheRun → Prop
  | .sync _      => ∀ now, ∃ r s', reconcileTreasuryBalance D now treasuryId s = .ok (r, s') ∧ r.variances = 0
  | .reconcile _ => True

def SameBalance (value value' : String) : Prop :=
  normalizeBalance value = normalizeBalance value'

-- Other assets with the code of lumens, or with that of the stable asset, do no harm.
def Harmless (D : CacheDeps) (publicKey : String) (acct : HorizonAccount) (s : BalanceStore) : CacheRun → Prop
  | .sync _      =>
    SameBalance acct.xlmOnChain acct.nativeBalance ∧
    (∀ entry ∈ acct.last? "XLM", SameBalance entry.balance acct.nativeBalance) ∧
    match acct.last? D.stableAssetCode with
    | some entry => SameBalance entry.balance (D.stableOnChain acct)
    -- Nothing is written without an entry.
    | none       => s.Shows publicKey D.stableAssetCode (D.stableOnChain acct)
  | .reconcile _ =>
    if D.stableAssetCode ≠ "XLM" then SameBalance acct.xlmOnChain acct.nativeBalance
    -- There is a single row for both assets.
    else SameBalance acct.nativeBalance (D.stableOnChain acct) ∧
      (SameBalance acct.xlmOnChain (D.stableOnChain acct) ∨ ¬s.Shows publicKey "XLM" (D.stableOnChain acct))

section

variable {D : CacheDeps} {s s' : BalanceStore} {acct : HorizonAccount} {treasuryId publicKey : String}

theorem last_xlm : ∃ entry, acct.last? "XLM" = some entry := by
  have h : BalanceLine.native acct.nativeBalance ∈ acct.lines.filter BalanceLine.isNative := by
    rw [acct.native]
    exact List.mem_cons_self
  have hm : (⟨"XLM", none, acct.nativeBalance⟩ : SnapshotBalance) ∈ acct.reported.reverse :=
    List.mem_reverse.mpr (List.mem_map.mpr ⟨_, (List.mem_filter.mp h).1, rfl⟩)
  exact Option.isSome_iff_exists.mp (List.find?_isSome.mpr ⟨_, hm, by simp⟩)

theorem hasTreasury_of_groups (h : s.HasTreasury treasuryId publicKey) (hg : s'.groups = s.groups) :
    s'.HasTreasury treasuryId publicKey :=
  ⟨hg ▸ h.group, h.key⟩

theorem hasTreasury_run {op : CacheRun} (ht : s.HasTreasury treasuryId publicKey)
    (ha : D.horizon publicKey = some acct) : ∃ s', D.run treasuryId publicKey s op = .ok s' ∧
      s'.HasTreasury treasuryId publicKey := by
  cases op with
  | sync now      => exact ⟨_, rfl, hasTreasury_of_groups ht groups_syncAccountBalances⟩
  | reconcile now =>
    have ⟨r, s', h, hg, _⟩ : ∃ r s', reconcileTreasuryBalance D now treasuryId s = .ok (r, s') ∧ _ :=
      reconcileTreasuryBalance_ok ht ha
    exact ⟨s', by rw [CacheDeps.run, h]; rfl, hasTreasury_of_groups ht hg⟩

theorem runs_ok {ops : List CacheRun} (ht : s.HasTreasury treasuryId publicKey) (ha : D.horizon publicKey = some acct) :
    ∃ s', ops.foldlM (D.run treasuryId publicKey) s = .ok s' ∧ s'.HasTreasury treasuryId publicKey := by
  induction ops generalizing s with
  | nil           => exact ⟨s, rfl, ht⟩
  | cons op ops hi =>
    have ⟨s₁, h₁, ht₁⟩ : ∃ s₁, D.run treasuryId publicKey s op = .ok s₁ ∧ _ := hasTreasury_run ht ha
    have ⟨s₂, h₂, ht₂⟩ := hi ht₁
    exact ⟨s₂, by rw [List.foldlM_cons, h₁]; exact h₂, ht₂⟩

theorem caches_sync (ha : D.horizon publicKey = some acct) :
    (syncAccountBalances D now publicKey s).Caches D publicKey acct ↔
      (∀ entry ∈ acct.last? "XLM", SameBalance entry.balance acct.nativeBalance) ∧
      match acct.last? D.stableAssetCode with
      | some entry => SameBalance entry.balance (D.stableOnChain acct)
      | none       => s.Shows publicKey D.stableAssetCode (D.stableOnChain acct) := by
  have ⟨last, hlast⟩ : ∃ entry, acct.last? "XLM" = some entry := last_xlm
  have hx : (syncAccountBalances D now publicKey s).Shows publicKey "XLM" acct.nativeBalance ↔
      ∀ entry ∈ acct.last? "XLM", SameBalance entry.balance acct.nativeBalance := by
    simp [BalanceStore.Shows, shown_syncAccountBalances ha, hlast, SameBalance]
  have hs : (syncAccountBalances D now publicKey s).Shows publicKey D.stableAssetCode (D.stableOnChain acct) ↔
      match acct.last? D.stableAssetCode with
      | some entry => SameBalance entry.balance (D.stableOnChain acct)
      | none       => s.Shows publicKey D.stableAssetCode (D.stableOnChain acct) := by
    rw [BalanceStore.Shows, shown_syncAccountBalances ha]
    cases acct.last? D.stableAssetCode <;> simp [SameBalance, BalanceStore.Shows]
  rw [← hx, ← hs]
  exact ⟨fun h => ⟨h.xlm, h.stable⟩, fun h => ⟨h.1, h.2⟩⟩

-- Once the cache holds the balances, the service agrees if it finds the native balance.
theorem settled_sync (ht : s.HasTreasury treasuryId publicKey) (ha : D.horizon publicKey = some acct)
    (hc : s.Caches D publicKey acct) : Settled D treasuryId s (.sync now) ↔
      SameBalance acct.xlmOnChain acct.nativeBalance := by
  have hv (now : Time) : ∃ r s', reconcileTreasuryBalance D now treasuryId s = .ok (r, s') ∧
      (r.variances = 0 ↔ SameBalance acct.xlmOnChain acct.nativeBalance) := by
    have ⟨r, s', h, _, hv, _⟩ : ∃ r s', reconcileTreasuryBalance D now treasuryId s = .ok (r, s') ∧ _ :=
      reconcileTreasuryBalance_ok ht ha
    refine ⟨r, s', h, ?_⟩
    rw [hv, and_iff_left hc.stable, BalanceStore.Shows, hc.xlm, Option.some.injEq]
    exact eq_comm
  constructor
  case mp =>
    intro hs
    have ⟨r, s₁, h, hz⟩ := hs 0
    have ⟨r', s₂, h', hv⟩ := hv 0
    cases h.symm.trans h'
    exact hv.mp hz
  case mpr =>
    intro hb now
    have ⟨r, s₁, h, hv⟩ := hv now
    exact ⟨r, s₁, h, hv.mpr hb⟩

theorem caches_reconcile (ht : s.HasTreasury treasuryId publicKey) (ha : D.horizon publicKey = some acct)
    (hr : reconcileTreasuryBalance D now treasuryId s = .ok (r, s')) :
    s'.Caches D publicKey acct ↔ Harmless D publicKey acct s (.reconcile now) := by
  have ⟨r', s₁, h, _, _, hs⟩ : ∃ r s', reconcileTreasuryBalance D now treasuryId s = .ok (r, s') ∧ _ :=
    reconcileTreasuryBalance_ok ht ha
  cases hr.symm.trans h
  have hcaches : s'.Caches D publicKey acct ↔ s'.Shows publicKey "XLM" acct.nativeBalance ∧
      s'.Shows publicKey D.stableAssetCode (D.stableOnChain acct) :=
    ⟨fun h => ⟨h.xlm, h.stable⟩, fun h => ⟨h.1, h.2⟩⟩
  rw [hcaches]
  have hx := hs "XLM"
  have hu := hs D.stableAssetCode
  by_cases hc : D.stableAssetCode = "XLM"
  case pos =>
    -- Both assets share a row. It shows the stable asset, unless it has done so before.
    rw [hc] at hx ⊢
    rw [Harmless, if_neg (not_not.mpr hc)]
    by_cases hold : s.Shows publicKey "XLM" (D.stableOnChain acct)
    case pos =>
      have hx : s'.shown publicKey "XLM" = some (normalizeBalance acct.xlmOnChain) := by
        rw [hx, if_neg fun h => h.2 hold]
        split
        case isTrue     => rfl
        case isFalse hn => exact not_not.mp fun h => hn ⟨rfl, h⟩
      rw [or_iff_left (not_not.mpr hold), BalanceStore.Shows, BalanceStore.Shows, hx, Option.some.injEq,
        Option.some.injEq]
      exact ⟨fun h => ⟨h.1.symm.trans h.2, h.2⟩, fun h => ⟨h.2.trans h.1.symm, h.2⟩⟩
    case neg =>
      have hx : s'.Shows publicKey "XLM" (D.stableOnChain acct) := by
        rw [BalanceStore.Shows, hx, if_pos ⟨rfl, hold⟩]
      have hor : SameBalance acct.xlmOnChain (D.stableOnChain acct) ∨ ¬s.Shows publicKey "XLM" (D.stableOnChain acct) :=
        .inr hold
      rw [and_iff_left hor, and_iff_left hx, BalanceStore.Shows, hx, Option.some.injEq]
      exact eq_comm
  case neg =>
    have hx : s'.shown publicKey "XLM" = some (normalizeBalance acct.xlmOnChain) := by
      rw [hx, if_neg fun h => hc h.1]
      split
      case isTrue     => rfl
      case isFalse hn => exact not_not.mp fun h => hn ⟨rfl, h⟩
    have hu : s'.shown publicKey D.stableAssetCode = some (normalizeBalance (D.stableOnChain acct)) := by
      rw [hu]
      split
      case isTrue => rfl
      case isFalse hn =>
        rw [if_neg fun h => hc h.1.symm]
        exact not_not.mp fun h => hn ⟨rfl, h⟩
    have hu : s'.Shows publicKey D.stableAssetCode (D.stableOnChain acct) := hu
    rw [and_iff_left hu, BalanceStore.Shows, hx, Option.some.injEq, Harmless, if_pos hc]
    rfl

-- After any runs of the worker and of the service: the cache holds the balances of the real assets, and no
-- variance is found after a synchronization, if and only if other assets with these codes have done no harm in
-- the last run.
theorem balances_cached (ops : List CacheRun) (op : CacheRun) (ht : s.HasTreasury treasuryId publicKey)
    (ha : D.horizon publicKey = some acct) :
    ∃ s₁ s₂, ops.foldlM (D.run treasuryId publicKey) s = .ok s₁ ∧ D.run treasuryId publicKey s₁ op = .ok s₂ ∧
      (s₂.Caches D publicKey acct ∧ Settled D treasuryId s₂ op ↔ Harmless D publicKey acct s₁ op) := by
  have ⟨s₁, h₁, ht₁⟩ : ∃ s₁, ops.foldlM (D.run treasuryId publicKey) s = .ok s₁ ∧ _ := runs_ok ht ha
  have ⟨s₂, h₂, ht₂⟩ : ∃ s₂, D.run treasuryId publicKey s₁ op = .ok s₂ ∧ _ := hasTreasury_run ht₁ ha
  refine ⟨s₁, s₂, h₁, h₂, ?_⟩
  cases op with
  | sync now =>
    cases h₂
    have hc : (syncAccountBalances D now publicKey s₁).Caches D publicKey acct ↔ _ := caches_sync ha
    constructor
    case mp  => exact fun h => ⟨(settled_sync ht₂ ha h.1).mp h.2, hc.mp h.1⟩
    case mpr => exact fun h => ⟨hc.mpr h.2, (settled_sync ht₂ ha (hc.mpr h.2)).mpr h.1⟩
  | reconcile now =>
    have ⟨r, s', hr, _⟩ : ∃ r s', reconcileTreasuryBalance D now treasuryId s₁ = .ok (r, s') ∧ _ :=
      reconcileTreasuryBalance_ok ht₁ ha
    rw [CacheDeps.run, hr] at h₂
    cases h₂
    exact (and_iff_left trivial).trans (caches_reconcile ht₁ ha hr)

end

-- Lumens, and an asset that somebody has given the code of the stable asset, in front of the real one.
def sampleAccount : HorizonAccount where
  lines         := [.issued "USDC" "GOTHER" "7.0000000", .native "10.0000000", .issued "USDC" "GCIRCLE" "2.5000000"]
  nativeBalance := "10.0000000"
  native        := rfl
  trustlines    := by decide
  balances      := by decide

-- Somebody has issued lumens of their own. There is no trustline for the stable asset.
def otherAccount : HorizonAccount where
  lines         := [.native "10.0000000", .issued "XLM" "GOTHER" "5.0000000"]
  nativeBalance := "10.0000000"
  native        := rfl
  trustlines    := by decide
  balances      := by decide

def sampleDeps : CacheDeps where
  stableAssetCode   := "USDC"
  stableAssetIssuer := "GCIRCLE"
  horizon           := fun
    | "GTREASURY" => some sampleAccount
    | "GPOOL"     => some otherAccount
    | _           => none

-- A trustline of the pool has been removed.
def sampleStore : BalanceStore where
  groups   := [⟨"trip", true, some "GTREASURY"⟩, ⟨"pool", true, some "GPOOL"⟩]
  balances := [(("GPOOL", "USDC"), ⟨"3.0000000", 0⟩)]

theorem balances_cached_sample : ∃ s₁ s₂,
    [CacheRun.reconcile 1].foldlM (sampleDeps.run "trip" "GTREASURY") sampleStore = .ok s₁ ∧
    sampleDeps.run "trip" "GTREASURY" s₁ (.sync 2) = .ok s₂ ∧
    s₂.Caches sampleDeps "GTREASURY" sampleAccount ∧ Settled sampleDeps "trip" s₂ (.sync 2) := by
  have ht : sampleStore.HasTreasury "trip" "GTREASURY" := ⟨⟨_, rfl, rfl, rfl⟩, by decide⟩
  have ⟨s₁, s₂, h₁, h₂, h⟩ := balances_cached [.reconcile 1] (.sync 2) ht (D := sampleDeps) rfl
  refine ⟨s₁, s₂, h₁, h₂, h.mpr ⟨?_, ?_, ?_⟩⟩
  · rfl
  · intro entry he
    cases he
    rfl
  · rfl

-- The last entry wins, whoever has issued it, and what has been removed is kept.
theorem balances_confused : ∃ s,
    sampleDeps.run "pool" "GPOOL" sampleStore (.sync 2) = .ok s ∧
    s.shown "GPOOL" "XLM" = some "5.0000000" ∧ s.shown "GPOOL" "USDC" = some "3.0000000" ∧
    ¬s.Caches sampleDeps "GPOOL" otherAccount ∧ ¬Settled sampleDeps "pool" s (.sync 2) := by
  refine ⟨_, rfl, by decide +kernel, by decide +kernel, fun h => ?_, fun h => ?_⟩
  · exact absurd h.xlm (by decide +kernel)
  · have ⟨r, s', hr, hz⟩ := h 3
    have hv : (reconcileTreasuryBalance sampleDeps 3 "pool" (syncAccountBalances sampleDeps 2 "GPOOL" sampleStore)).toOption.map
        (·.1.variances) = some 2 := by decide +kernel
    rw [hr] at hv
    cases hz.symm.trans (Option.some.inj hv)

end Mergepay.Cache
