import Mergepay.Withdrawals.Funding

namespace Mergepay

open Money Preflight

-- The issuer is given if and only if there is one, and then the code is that of the registry.
structure SettlementIntent.Names (p : SettlementIntent) (asset : Stellar.Asset) : Prop where
  issuer : p.assetIssuer = asset.issuer
  code   : asset.issuer ≠ none → p.assetCode = asset.code

namespace Preflight

variable {R : Registry} {p : SettlementIntent} {asset : Stellar.Asset} {code : String} {issuer : Option String} {n : Int}

theorem toAsset_native {spec : Stellar.AssetSpec} (h : Stellar.toAsset R spec = .ok asset) (hn : asset.issuer = none) :
    asset = .native := by
  rw [Stellar.toAsset] at h
  obtain ⟨v, hv, h⟩ := Except.bind_eq_ok.mp h
  split at h
  case h_1 => exact (Except.ok.inj h).symm
  case h_2 =>
    simp only [Stellar.Asset.new] at h
    split at h
    case h_1 => contradiction
    case h_2 =>
      split at h
      case isTrue  => contradiction
      case isFalse => rw [← Except.ok.inj h] at hn; contradiction

theorem lookedFor_eq_iff (h : asset.issuer = none → asset = .native) :
    lookedFor p.assetCode p.assetIssuer = asset ↔ p.Names asset := by
  rw [lookedFor]
  split
  case isTrue hi =>
    constructor
    case mp  => rintro rfl; exact ⟨hi, nofun⟩
    case mpr => exact fun hn => (h (hn.issuer ▸ hi)).symm
  case isFalse hi =>
    constructor
    case mp  => rintro rfl; exact ⟨rfl, fun _ => rfl⟩
    case mpr => exact fun hn => by rw [hn.issuer, hn.code (hn.issuer ▸ hi)]

-- An account that has an issued asset, and of the native asset only what is needed for the fee.
def narrow (asset : Stellar.Asset) (n : Nat) (h : n ≤ maxStroops) : Account where
  exist    := true
  holdings := [⟨"XLM", none, 15000200, by decide⟩, ⟨asset.code, asset.issuer, n, h⟩]
  signers  := 1

theorem narrow_affords {asset asset' : Stellar.Asset} {n : Nat} (h : n ≤ maxStroops) (hn : 0 < n)
    (ha : asset.issuer ≠ none) : (narrow asset n h).Affords asset' n ↔ asset' = asset := by
  have hv : (narrow asset n h).available = settlementFeeStroops := by
    have ht : (narrow asset n h).trustlines = 1 := by
      simp [narrow, Account.trustlines, Option.isSome_iff_ne_none.mpr ha]
    have hb : (narrow asset n h).balance .native = some 15000200 := by
      simp [narrow, Account.balance, Stellar.Asset.native]
    have hs : (narrow asset n h).signers - 1 = 0 := rfl
    rw [Account.available, Account.reserve, ht, hb, hs]
    decide
  constructor
  case mp =>
    intro hx
    by_cases hi : asset'.issuer = none
    case pos =>
      have hle := hx.native hi
      rw [hv] at hle
      exact absurd hle <| not_le.mpr <| lt_add_of_pos_left _ (Int.natCast_pos.mpr hn)
    case neg =>
      obtain ⟨⟨b, hb, _⟩, _⟩ := hx.issued hi
      simp only [Account.balance, narrow, List.find?_cons, Ne.symm hi, and_false, decide_false] at hb
      by_contra hne
      have hc : ¬(asset.code = asset'.code ∧ asset.issuer = asset'.issuer) := by
        rintro ⟨h₁, h₂⟩
        cases asset
        cases asset'
        simp_all
      simp [hc] at hb
  case mpr =>
    rintro rfl
    refine { funded := rfl, native := fun hi => absurd hi ha, issued := fun _ => ⟨⟨n, ?_, le_refl _⟩, hv.ge⟩ }
    simp [Account.balance, narrow, Ne.symm ha]

-- Two assets which the same accounts can pay.
theorem affords_inj {asset asset' : Stellar.Asset} {n : Nat} (h : n ≤ maxStroops) (hn : 0 < n)
    (ha : asset.issuer = none → asset = .native) (ha' : asset'.issuer = none → asset' = .native)
    (hp : ∀ a : Account, a.Affords asset n ↔ a.Affords asset' n) : asset = asset' := by
  by_cases hi : asset.issuer = none
  case neg => exact ((narrow_affords h hn hi).mp ((hp _).mp ((narrow_affords h hn hi).mpr rfl))).symm
  case pos =>
    by_cases hi' : asset'.issuer = none
    case pos => rw [ha hi, ha' hi']
    case neg => exact (narrow_affords h hn hi').mp ((hp _).mpr ((narrow_affords h hn hi').mpr rfl))

end Preflight

theorem preflight_decides (R : Registry) (p : SettlementIntent) (asset : Stellar.Asset)
    (h : settlementIntentSchema R p = .ok (.ok p))
    (ha : Stellar.toAsset R ⟨p.assetCode, p.assetIssuer⟩ = .ok asset) :
    ∃ n : Int, toStroops p.amount = .ok n ∧ 0 < n ∧
      ((∀ a : Account, evaluatePreflight a.snapshot p.assetCode p.assetIssuer p.amount = .ok () ↔
        a.Affords asset n) ↔ p.Names asset) ∧
      ∀ a a' : Account, a.Raised a' →
        evaluatePreflight a.snapshot p.assetCode p.assetIssuer p.amount = .ok () →
        evaluatePreflight a'.snapshot p.assetCode p.assetIssuer p.amount = .ok () := by
  have ⟨v, hv⟩ := validateAmount_of_issues (settlementIntentSchema_issues h)
  have ⟨hpos, ht⟩ := toStroops_of_validateAmount hv
  have hm : v.stroops ≤ maxStroops := (validateDecimal_ok hv).2.2.1
  have hp : parseHorizonBalance p.amount = v.stroops := parseHorizonBalance_validated hv
  have hn : 0 < parseHorizonBalance p.amount := by omega
  have hx : asset.issuer = none → asset = .native := toAsset_native ha
  have hl : (lookedFor p.assetCode p.assetIssuer).issuer = none → lookedFor p.assetCode p.assetIssuer = .native := by
    rw [lookedFor]
    split
    case isTrue     => exact fun _ => rfl
    case isFalse hi => exact fun he => absurd he hi
  simp only [evaluatePreflight_eq_ok hn, hp]
  refine ⟨v.stroops, ht, by omega, ?_, fun a a' hr hok => hr.affords hok⟩
  rw [← lookedFor_eq_iff hx]
  constructor
  case mp  => exact fun hall => affords_inj hm hpos hl hx hall
  case mpr => exact fun he a => by rw [he]

-- The asset is paid in the registry's spelling, but looked for in that of the request.
def lowerCaseIntent : SettlementIntent where
  fromPublicKey := sampleIssuer
  toPublicKey   := sampleIssuer
  assetCode     := "usdc"
  assetIssuer   := some sampleIssuer
  amount        := "5"
  memoCode      := "ABCDEFGHJK"

theorem lowerCaseIntent_accepted : settlementIntentSchema sampleRegistry lowerCaseIntent = .ok (.ok lowerCaseIntent) := by
  decide +kernel

theorem toAsset_lowerCaseIntent : Stellar.toAsset sampleRegistry ⟨lowerCaseIntent.assetCode, lowerCaseIntent.assetIssuer⟩ =
    .ok ⟨"USDC", some sampleIssuer⟩ := by
  decide +kernel

theorem preflight_misjudges :
    ¬∀ (R : Registry) (p : SettlementIntent) (asset : Stellar.Asset), settlementIntentSchema R p = .ok (.ok p) →
      Stellar.toAsset R ⟨p.assetCode, p.assetIssuer⟩ = .ok asset →
      ∃ n : Int, toStroops p.amount = .ok n ∧ ∀ a : Account,
        evaluatePreflight a.snapshot p.assetCode p.assetIssuer p.amount = .ok () ↔ a.Affords asset n := by
  intro h
  have ⟨n, hn, hx⟩ := h _ _ _ lowerCaseIntent_accepted toAsset_lowerCaseIntent
  obtain rfl : (50000000 : Int) = n := Except.ok.inj ((by decide +kernel : toStroops "5" = .ok 50000000).symm.trans hn)
  have ha : (narrow ⟨"USDC", some sampleIssuer⟩ 50000000 (by decide)).Affords ⟨"USDC", some sampleIssuer⟩ 50000000 :=
    (narrow_affords (by decide) (by decide) (by simp)).mpr rfl
  have hx := (hx _).mpr ha
  exact absurd hx (by decide +kernel)

theorem preflight_decides_sample :
    (settlementIntentSchema sampleRegistry lowerCaseIntent = .ok (.ok lowerCaseIntent) ∧
      Stellar.toAsset sampleRegistry ⟨lowerCaseIntent.assetCode, lowerCaseIntent.assetIssuer⟩ =
        .ok ⟨"USDC", some sampleIssuer⟩) ∧
    ∃ n : Int, toStroops lowerCaseIntent.amount = .ok n ∧ 0 < n :=
  have ⟨n, hn, hpos, _⟩ := preflight_decides _ _ _ lowerCaseIntent_accepted toAsset_lowerCaseIntent
  ⟨⟨lowerCaseIntent_accepted, toAsset_lowerCaseIntent⟩, n, hn, hpos⟩

end Mergepay
