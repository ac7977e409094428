import Mergepay.Settlement.Affordability

namespace Mergepay.Withdrawals

open Money Preflight

structure WithdrawalRequestBody where
  amount    : String
  assetCode : String

def supportedAssetCodes : List String := ["USDC", "XLM"]

-- A copy of the conversion in the shared library
def units : String → Except Failure Int :=
  libToStroops

def isPositive (amount : String) : Bool :=
  (Money.normalizeAmount amount).isOk

-- The checks on an account before a withdrawal is created
def checkFunding (account : AccountSnapshot) (body : WithdrawalRequestBody) : Except Failure Unit :=
  if ¬isPositive body.amount then
    .error <| .badRequest "invalid_amount" "Amount must be a positive decimal"
  else if body.assetCode ∉ supportedAssetCodes then
    .error <| .badRequest "unsupported_asset" <| "Unsupported asset code \"" ++ body.assetCode ++ "\""
  else if ¬account.exist then
    .error <| .badRequest "account_unfunded" "Your Stellar account is not funded yet."
  else match account.balances.find? (·.1 = body.assetCode) with
    | none         =>
      .error <| .badRequest "no_trustline" <| "Your account has no trustline for " ++ body.assetCode
    | some balance => do
      if (← units balance.2.2) < (← units body.amount) then
        throw <| .badRequest "insufficient_balance" "Insufficient balance for this withdrawal."

-- The balance that is compared is the first one with the code.
def firstHolding (a : Account) (code : String) : Option Holding :=
  a.holdings.find? (·.assetCode = code)

section

variable {a : Account} {body : WithdrawalRequestBody} {v : ValidatedAmount}

theorem units_validated {amount : String} (h : validateAmount amount = .ok v) : units amount = .ok (v.stroops : Int) := by
  have ⟨ha, _, _, hv⟩ := validateDecimal_eq_ok_iff.mp h
  rw [units, ha.libToStroops, hv]

theorem units_amountText (n : Nat) : units (Stellar.amountText n) = .ok (n : Int) := by
  have ⟨ha, hv⟩ := isAmount_amountText n
  rw [units, ha.libToStroops, hv]

theorem find?_snapshot (a : Account) (code : String) : a.snapshot.balances.find? (·.1 = code) =
    (firstHolding a code).map fun h => (h.assetCode, h.assetIssuer, Stellar.amountText h.stroops) := by
  rw [Account.snapshot, List.find?_map]
  rfl

theorem checkFunding_eq_ok (hv : validateAmount body.amount = .ok v) (hc : body.assetCode ∈ supportedAssetCodes) :
    checkFunding a.snapshot body = .ok () ↔
    a.exist = true ∧ ∃ line, firstHolding a body.assetCode = some line ∧ v.stroops ≤ line.stroops := by
  have hp : isPositive body.amount = true := by
    rw [isPositive, Money.normalizeAmount, hv]
    rfl
  have he : a.snapshot.exist = a.exist := rfl
  simp only [checkFunding, hp, hc, he, not_true_eq_false, if_false, find?_snapshot]
  cases a.exist with
  | false => simp
  | true  =>
    cases hf : firstHolding a body.assetCode with
    | none      => simp
    | some line =>
      simp only [Option.map_some, units_amountText, units_validated hv]
      by_cases hl : line.stroops < v.stroops
      case pos => simp [bind, Except.bind, hl, Nat.not_le.mpr hl, throw, throwThe, MonadExceptOf.throw]
      case neg => simp [bind, Except.bind, hl, Nat.not_lt.mp hl, pure, Except.pure]

end

-- The preflight finds no fault with the asset of a payment. It may still miss the fee.
def AssetSuffices (a : Account) (code : String) (issuer : Option String) (amount : String) : Prop :=
  ∀ e, evaluatePreflight a.snapshot code issuer amount = .error e →
    e.reason ≠ .missingTrustline ∧ e.reason ≠ .insufficientAssetBalance

-- A withdrawal that passes its own check would pass that of a settlement in the asset of the registry.
def AsStrict (R : Registry) (a : Account) (body : WithdrawalRequestBody) : Prop :=
  checkFunding a.snapshot body = .ok () → ∃ n, toStroops body.amount = .ok n ∧
    ∀ entry, R.byCode body.assetCode = some entry →
      entry.type = .native ∧ n ≤ spendableXlmStroops a.snapshot ∨
      AssetSuffices a body.assetCode entry.issuer body.amount

-- If the first balance with the code covers an amount, then so does what can be spent of the registry's asset.
def FirstIsRight (R : Registry) (a : Account) (code : String) (n : Nat) : Prop :=
  a.exist = true → ∀ line, firstHolding a code = some line → n ≤ line.stroops →
    if code = "XLM" then n + a.reserve ≤ (a.balance .native).getD 0
    else ∃ b ∈ a.balance ⟨code, some R.stableAssetIssuer⟩, n ≤ b

variable {R : Registry} {a : Account} {body : WithdrawalRequestBody} {v : ValidatedAmount} {amount code issuer : String}

theorem assetSuffices_issued (he : a.exist = true) (hn : 0 < parseHorizonBalance amount) :
    AssetSuffices a code (some issuer) amount ↔
    ∃ b ∈ a.balance ⟨code, some issuer⟩, parseHorizonBalance amount ≤ b := by
  have hx : a.snapshot.exist = true := he
  simp only [AssetSuffices, evaluatePreflight, hx, balanceOf_snapshot, not_true_eq_false, if_false, not_le.mpr hn]
  cases a.balance ⟨code, some issuer⟩ with
  | none   => simp
  | some b =>
    by_cases hb : (b : Int) < parseHorizonBalance amount
    case pos => simp [hb]
    case neg =>
      simp only [Option.map_some, hb, if_false, Option.mem_def, Option.some.injEq, exists_eq_left', not_lt.mp hb, iff_true]
      intro e h
      split at h
      case isTrue =>
        cases h
        simp
      case isFalse => cases h

theorem spendable_of_assetSuffices (he : a.exist = true) (hn : 0 < parseHorizonBalance amount)
    (h : AssetSuffices a code none amount) : parseHorizonBalance amount ≤ spendableXlmStroops a.snapshot := by
  have hx : a.snapshot.exist = true := he
  have hf : settlementFeeStroops = 200 := rfl
  by_contra hlt
  have hlt : spendableXlmStroops a.snapshot < parseHorizonBalance amount + settlementFeeStroops := by omega
  refine (h ⟨.insufficientAssetBalance, "Not enough XLM to cover this payment, the network fee, and the account " ++
    "reserve."⟩ ?_).2 rfl
  simp only [evaluatePreflight, hx, not_true_eq_false, if_false, not_le.mpr hn, hlt, if_true]
  rfl

-- What the registry's asset has to provide
theorem registry_suffices_iff (hr : R.Regular) (hv : validateAmount body.amount = .ok v)
    (hc : body.assetCode ∈ supportedAssetCodes) (he : a.exist = true) :
    (∃ n, toStroops body.amount = .ok n ∧ ∀ entry, R.byCode body.assetCode = some entry →
      entry.type = .native ∧ n ≤ spendableXlmStroops a.snapshot ∨
      AssetSuffices a body.assetCode entry.issuer body.amount) ↔
    if body.assetCode = "XLM" then v.stroops + a.reserve ≤ (a.balance .native).getD 0
    else ∃ b ∈ a.balance ⟨body.assetCode, some R.stableAssetIssuer⟩, v.stroops ≤ b := by
  obtain ⟨hpos, ht⟩ := toStroops_of_validateAmount hv
  have hp : parseHorizonBalance body.amount = v.stroops := parseHorizonBalance_validated hv
  have hn : 0 < parseHorizonBalance body.amount := by omega
  have hs : (v.stroops : Int) ≤ spendableXlmStroops a.snapshot ↔
      v.stroops + a.reserve ≤ (a.balance .native).getD 0 := by
    rw [spendableXlmStroops_snapshot, Account.available]
    omega
  simp only [ht, Except.ok.injEq, exists_eq_left']
  simp only [supportedAssetCodes, List.mem_cons, List.not_mem_nil, or_false] at hc
  cases hc with
  | inl hc =>
    have hb : R.byCode body.assetCode = some R.usdc :=
      hr.byCode.mpr ⟨hr.mem_supportedAssets.mpr (.inr rfl), hc.symm⟩
    have hx : ¬body.assetCode = "XLM" := by rw [hc]; decide
    simp only [hb, Option.some.injEq, forall_eq', if_neg hx]
    have hi : AssetSuffices a body.assetCode (some R.stableAssetIssuer) body.amount ↔
        ∃ b ∈ a.balance ⟨body.assetCode, some R.stableAssetIssuer⟩, v.stroops ≤ b := by
      simpa only [hp, Int.ofNat_le] using assetSuffices_issued he hn
    constructor
    case mp  => exact fun h => hi.mp <| h.resolve_left fun h => by cases h.1
    case mpr => exact fun h => .inr (hi.mpr h)
  | inr hc =>
    have hb : R.byCode body.assetCode = some Registry.xlm :=
      hr.byCode.mpr ⟨hr.mem_supportedAssets.mpr (.inl rfl), hc.symm⟩
    simp only [hb, Option.some.injEq, forall_eq', if_pos hc, ← hs]
    constructor
    case mp =>
      intro h
      cases h with
      | inl h => exact h.2
      | inr h => exact hp ▸ spendable_of_assetSuffices he hn h
    case mpr => exact fun h => .inl ⟨rfl, h⟩

theorem withdrawal_as_strict_iff (hr : R.Regular) (hv : validateAmount body.amount = .ok v)
    (hc : body.assetCode ∈ supportedAssetCodes) :
    AsStrict R a body ↔ FirstIsRight R a body.assetCode v.stroops := by
  rw [AsStrict, checkFunding_eq_ok hv hc, FirstIsRight]
  constructor
  case mp =>
    intro h he line hl hle
    exact (registry_suffices_iff hr hv hc he).mp (h ⟨he, line, hl, hle⟩)
  case mpr =>
    intro h ⟨he, line, hl, hle⟩
    exact (registry_suffices_iff hr hv hc he).mpr (h he line hl hle)

-- The first of two balances is in the asset of another issuer.
def swappedAccount : Account where
  exist    := true
  holdings := [⟨"USDC", some "GOTHER", 50000000, by decide⟩, ⟨"USDC", some sampleIssuer, 10000000, by decide⟩,
    ⟨"XLM", none, 20000000, by decide⟩]
  signers  := 1

-- What is held of the registry's asset suffices all the same.
theorem withdrawal_as_strict_small : AsStrict sampleRegistry swappedAccount ⟨"1", "USDC"⟩ := by
  refine (withdrawal_as_strict_iff (v := ⟨"1", 10000000⟩) sampleRegistry_regular (by decide +kernel) (by decide)).mpr ?_
  intro _ _ _ _
  rw [if_neg (by decide)]
  exact ⟨10000000, by decide +kernel, le_rfl⟩

-- Neither the issuer nor the reserve is looked at.
theorem withdrawal_not_as_strict :
    ¬AsStrict sampleRegistry swappedAccount ⟨"5", "USDC"⟩ ∧ ¬AsStrict sampleRegistry swappedAccount ⟨"2", "XLM"⟩ := by
  constructor
  case left =>
    intro h
    have ⟨n, _, h⟩ := h (by decide +kernel)
    cases h sampleRegistry.usdc (by decide +kernel) with
    | inl h => exact nomatch h.1
    | inr h => exact (h ⟨.insufficientAssetBalance, "Not enough USDC to cover this payment."⟩ (by decide +kernel)).2 rfl
  case right =>
    intro h
    have ⟨n, hn, h⟩ := h (by decide +kernel)
    cases h Registry.xlm (by decide +kernel) with
    | inl h =>
      have ht : toStroops "2" = .ok 20000000 := by decide +kernel
      have hs : spendableXlmStroops swappedAccount.snapshot = 0 := by decide +kernel
      cases ht.symm.trans hn
      exact absurd (hs ▸ h.2) (by decide)
    | inr h =>
      exact (h ⟨.insufficientAssetBalance, "Not enough XLM to cover this payment, the network fee, and the account " ++
        "reserve."⟩ (by decide +kernel)).2 rfl

end Mergepay.Withdrawals
