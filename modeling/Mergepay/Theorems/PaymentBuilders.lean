import Mergepay.Stellar.Payments
import Mergepay.Theorems.LedgerChecks

namespace Mergepay.Stellar

open Money Text

-- The intent that is made of the same fields
def DeterministicPaymentParams.intent (params : DeterministicPaymentParams) : PaymentExpectation where
  sourcePublicKey := params.sourcePublicKey
  destination     := params.destination
  asset           := ⟨params.assetCode, params.assetIssuer⟩
  amount          := params.amount
  memoCode        := params.memoCode

-- What the builders are given, apart from the asset.
structure DeterministicPaymentParams.Valid (R : Registry) (params : DeterministicPaymentParams) : Prop where
  source      : params.sourcePublicKey ≠ "" ∧ R.isValidEd25519PublicKey params.sourcePublicKey = true
  destination : params.destination ≠ "" ∧ R.isValidEd25519PublicKey params.destination = true
  sequence    : params.sourceSequence ≠ "" ∧ params.sourceSequence.toList.all Char.isDigit = true
  memo        : GeneratedCode params.memoCode
  amount      : PlainAmount params.amount
  fee         : params.feeStroops = none
  window      : params.minTime = none ∧ params.maxTime = none

-- Both builders move the same amount of the asset of the registry with the same memo, as it is expected.
structure BuildersAgree (R : Registry) (readAmount : String → Except Failure Int) (now : Time)
    (params : DeterministicPaymentParams) (tx tx' : Transaction) (asset : Asset) (amount : Int) : Prop where
  payment       : buildPayment R readAmount now params.payment = .ok tx
  deterministic : buildDeterministicSettlementPaymentXdr R readAmount now params = .ok tx'
  registry      : toAsset R ⟨params.assetCode, params.assetIssuer⟩ = .ok asset
  moves         : tx.operations = [.payment none params.destination asset amount]
  moves'        : tx'.operations = [.payment none params.destination asset amount]
  memo          : tx.memo = tx'.memo
  accepted      : matchPaymentIntent R tx params.intent = .ok none
  accepted'     : matchPaymentIntent R tx' params.intent = .ok none

variable {R : Registry} {readAmount : String → Except Failure Int} {now : Time} {params : DeterministicPaymentParams}
  {v : ValidatedAsset} {asset : Asset}

-- The envelope of a payment in an asset
def envelope (now : Time) (params : DeterministicPaymentParams) (asset : Asset) : Transaction where
  source     := params.sourcePublicKey
  sequence   := .ofList (Nat.toDigits 10 (Decimal.digits params.sourceSequence.toList + 1))
  fee        := 200
  timeBounds := some ⟨0, (nowSeconds now).toNat + params.validitySeconds.getD 300⟩
  memo       := .text (Utf8.encode (memoText params.memoCode).toList)
  operations := [.payment none params.destination asset (Decimal.value 7 params.amount.toList)]
  signatures := []

theorem checkPaymentParams_ok (h : params.Valid R)
    (hi : ∀ i ∈ params.assetIssuer.bind present, R.isValidEd25519PublicKey i = true) :
    checkPaymentParams R params.payment = .ok () := by
  have ha : (params.assetIssuer.bind present).any (¬R.isValidEd25519PublicKey ·) = false := by
    cases hb : params.assetIssuer.bind present with
    | none   => rfl
    | some i => simp [hi i hb]
  have hs := h.source
  have hd := h.destination
  have hq := h.sequence
  simp only [checkPaymentParams, DeterministicPaymentParams.payment, ha, hs, hd, hq]
  rfl

theorem ofText_memoText {code : String} (h : GeneratedCode code) :
    Memo.ofText (memoText code) = .ok (.text (Utf8.encode (memoText code).toList)) := by
  have hb := h.byteLength
  rw [Memo.byteLength, ← toList_memoText h.isMemoCode] at hb
  exact ofText_eq_ok.mpr ⟨by rw [Utf8.length_encode, hb]; decide, rfl⟩

theorem buildPayment_envelope (h : params.Valid R)
    (hi : ∀ i ∈ params.assetIssuer.bind present, R.isValidEd25519PublicKey i = true)
    (ha : toAsset R ⟨params.assetCode, params.assetIssuer⟩ = .ok asset)
    (hr : readAmount params.amount = .ok (Decimal.value 7 params.amount.toList)) :
    buildPayment R readAmount now params.payment = .ok (envelope now params asset) := by
  have hc := checkPaymentParams_ok h hi
  have hm := ofText_memoText h.memo
  simp only [buildPayment, hc]
  simp only [DeterministicPaymentParams.payment, ha, hr, hm]
  rfl

theorem deterministic_envelope (h : params.Valid R)
    (hi : ∀ i ∈ params.assetIssuer.bind present, R.isValidEd25519PublicKey i = true)
    (ha : rawAsset R params.assetCode params.assetIssuer = .ok asset)
    (hr : readAmount params.amount = .ok (Decimal.value 7 params.amount.toList)) :
    buildDeterministicSettlementPaymentXdr R readAmount now params = .ok (envelope now params asset) := by
  have hc := checkPaymentParams_ok h hi
  have hm := ofText_memoText h.memo
  have ht : deterministicTimeBounds now params = ⟨0, (nowSeconds now).toNat + params.validitySeconds.getD 300⟩ := by
    simp [deterministicTimeBounds, h.window.1]
  simp only [buildDeterministicSettlementPaymentXdr, hc, ha, hr, hm, ht, h.fee]
  rfl

-- The envelope of the registry's asset is accepted.
theorem envelope_accepted (h : params.Valid R) (ha : toAsset R ⟨params.assetCode, params.assetIssuer⟩ = .ok asset) :
    matchPaymentIntent R (envelope now params asset) params.intent = .ok none := by
  refine matchPaymentIntent_eq_none.mpr ⟨none, asset, Decimal.value 7 params.amount.toList, ?_⟩
  constructor
  case txSource   => rfl
  case sequence   => exact nofun
  case operations => rfl
  case opSource   => exact nofun
  case fee        => exact (by decide : minFeeStroopsPerOp ≤ 200 ∧ 200 ≤ maxFeeStroopsPerOp)
  case asset      => exact ha
  case amount     => exact h.amount.normalizeAmount
  case memo       =>
    show String.ofList (Utf8.decode _) = _
    rw [Utf8.decode_encode, String.ofList_toList]
    rfl

-- What the deterministic builder makes of an asset
theorem deterministic_asset {tx : Transaction}
    (h : buildDeterministicSettlementPaymentXdr R readAmount now params = .ok tx)
    (ht : tx.operations = [.payment none params.destination asset n]) :
    rawAsset R params.assetCode params.assetIssuer = .ok asset := by
  have ⟨_, _, h⟩ := Except.bind_eq_ok.mp h
  have ⟨a, ha, h⟩ := Except.bind_eq_ok.mp h
  have ⟨_, _, h⟩ := Except.bind_eq_ok.mp h
  have ⟨_, _, h⟩ := Except.bind_eq_ok.mp h
  rw [← Except.pure_eq_ok.mp h] at ht
  simp only [List.cons.injEq, Operation.payment.injEq] at ht
  exact ht.1.2.2.1 ▸ ha

-- The assets for which the raw fields are as good as the registry.
def SpelledOut (R : Registry) (assetCode : String) (assetIssuer : Option String) : Prop :=
  trimmed (toUpperCase assetCode) = "XLM" ∨ assetCode = "USDC" ∧ assetIssuer = some R.stableAssetIssuer

theorem Asset.new_eq_ok {code : String} {issuer : Option String} (h : Asset.new R code issuer = .ok asset) :
    ∃ i, issuer.bind present = some i ∧ asset = ⟨if toUpperCase code = "XLM" then "XLM" else code, some i⟩ := by
  simp only [Asset.new] at h
  split at h
  case h_1 => contradiction
  case h_2 i hi =>
    split at h
    case isTrue  => contradiction
    case isFalse => exact ⟨i, hi, (Except.ok.inj h).symm⟩

theorem present_eq {s i : String} (h : present s = some i) : s = i := by
  simp only [present] at h
  split at h
  case isTrue  => contradiction
  case isFalse => exact Option.some.inj h

theorem validateAssetSpec_eq {code : String} {issuer : Option String}
    (hi : ∀ i ∈ issuer.bind present, R.isValidEd25519PublicKey i = true)
    (hv : R.validateAsset code issuer = .ok (.ok v)) : R.validateAssetSpec code issuer = .ok v := by
  have hg : R.getAssetConfig code issuer = .ok v := by
    rw [Registry.getAssetConfig, hv]
    rfl
  unfold Registry.validateAssetSpec
  cases hb : issuer.bind present with
  | none   => exact hg
  | some i =>
    have hk : R.validateIssuer i = .ok () := if_pos (hi i hb)
    exact Except.unit_bind_eq_ok.mpr ⟨hk, hg⟩

-- A valid pair of code and issuer is resolved by the registry, unless the issuer is not a key as it is spelled.
theorem toAsset_eq {code : String} {issuer : Option String}
    (hi : ∀ i ∈ issuer.bind present, R.isValidEd25519PublicKey i = true)
    (hv : R.validateAsset code issuer = .ok (.ok v)) : toAsset R ⟨code, issuer⟩ =
      match v.type with
      | .native => .ok .native
      | .issued => Asset.new R v.code v.issuer := by
  have hs := validateAssetSpec_eq hi hv
  simp only [toAsset, hs]
  rfl

theorem issuer_of_toAsset {code : String} {issuer : Option String} (h : toAsset R ⟨code, issuer⟩ = .ok asset) :
    ∀ i ∈ issuer.bind present, R.isValidEd25519PublicKey i = true := by
  intro i hi
  obtain ⟨_, hs, _⟩ := Except.bind_eq_ok.mp h
  simp only [Registry.validateAssetSpec, Option.mem_def.mp hi] at hs
  obtain ⟨hk, _⟩ := Except.unit_bind_eq_ok.mp hs
  by_contra hn
  rw [Registry.validateIssuer, if_neg hn] at hk
  simp only [reduceCtorEq] at hk

section Issued

variable {code : String} {issuer : Option String} (hr : R.Regular) (ha : R.Denotes code issuer R.usdc)

include ha

theorem usdc_ne_xlm : toUpperCase code ≠ "XLM" ∧ trimmed (toUpperCase code) ≠ "XLM" := by
  have hc : trimmed (toUpperCase code) = "USDC" := ha.code
  constructor
  case left =>
    intro h
    rw [h] at hc
    exact absurd hc (by decide)
  case right =>
    rw [hc]
    decide

include hr

-- The issuer of the configuration, as it is
theorem rawAsset_usdc (hi : issuer = some R.stableAssetIssuer) (hc : code = "USDC") :
    (∀ i ∈ issuer.bind present, R.isValidEd25519PublicKey i = true) ∧
    rawAsset R code issuer = Asset.new R "USDC" (some R.stableAssetIssuer) ∧
    ∃ asset, Asset.new R "USDC" (some R.stableAssetIssuer) = .ok asset := by
  subst hi hc
  have hp := hr.present_issuer
  have ⟨hk, ht⟩ := ha.issuer R.stableAssetIssuer hp
  have ht : R.stableAssetIssuer = trimmed R.stableAssetIssuer := Option.some.inj ht
  rw [← ht] at hk
  refine ⟨?_, ?_, ?_⟩
  case refine_1 => simpa [hp] using hk
  case refine_2 =>
    have hx := (usdc_ne_xlm ha).1
    rw [rawAsset, if_neg (by simp [hx, hp]), Asset.ofRaw, if_neg (by decide)]
  case refine_3 => simp [Asset.new, hp, hk]

theorem of_rawAsset_usdc (hd : rawAsset R code issuer = .ok asset)
    (ht : Asset.new R "USDC" (some R.stableAssetIssuer) = .ok asset) :
    code = "USDC" ∧ issuer = some R.stableAssetIssuer := by
  obtain ⟨i, hi, he⟩ := Asset.new_eq_ok ht
  cases hi.symm.trans hr.present_issuer
  subst he
  have hx := (usdc_ne_xlm ha).1
  simp only [rawAsset] at hd
  split at hd
  case isTrue  => simp [Asset.native, pure, Except.pure] at hd
  case isFalse =>
    simp only [Asset.ofRaw] at hd
    split at hd
    case isTrue  => contradiction
    case isFalse =>
      obtain ⟨i, hi, he⟩ := Asset.new_eq_ok hd
      rw [if_neg hx, if_neg (by decide), Asset.mk.injEq, Option.some.injEq] at he
      obtain ⟨s, hs, hi⟩ := Option.bind_eq_some_iff.mp hi
      exact ⟨he.1.symm, hs.trans <| congrArg some <| (present_eq hi).trans he.2.symm⟩

end Issued

theorem rawAsset_spelledOut {code : String} {issuer : Option String} (hr : R.Regular)
    (hv : R.validateAsset code issuer = .ok (.ok v)) :
    SpelledOut R code issuer ↔ ∃ asset, rawAsset R code issuer = .ok asset ∧ toAsset R ⟨code, issuer⟩ = .ok asset := by
  have ⟨a, ha, _, he⟩ := hr.validateAsset.mp hv
  subst he
  cases hr.mem_supportedAssets.mp ha.supported with
  | inl hx =>
    subst hx
    have hn : issuer.bind present = none :=
      Option.eq_none_iff_forall_not_mem.mpr fun i hi => nomatch (ha.issuer i hi).2
    have hi : ∀ i ∈ issuer.bind present, R.isValidEd25519PublicKey i = true := by simp [hn]
    refine iff_of_true (.inl ha.code) ⟨.native, ?_, toAsset_eq hi hv⟩
    rw [rawAsset, if_pos (.inr hn)]
    rfl
  | inr hx =>
    subst hx
    constructor
    case mp =>
      intro h
      cases h with
      | inl h => exact absurd h (usdc_ne_xlm ha).2
      | inr h =>
        have ⟨hi, hd, asset, hn⟩ := rawAsset_usdc hr ha h.2 h.1
        exact ⟨asset, hd.trans hn, (toAsset_eq hi hv).trans hn⟩
    case mpr =>
      intro ⟨asset, hd, ht⟩
      exact .inr <| of_rawAsset_usdc hr ha hd <| (toAsset_eq (issuer_of_toAsset ht) hv).symm.trans ht

theorem builders_agree_iff (hr : R.Regular) (h : params.Valid R)
    (hv : R.validateAsset params.assetCode params.assetIssuer = .ok (.ok v))
    (ha : ∀ t, PlainAmount t → readAmount t = .ok (Decimal.value 7 t.toList)) :
    (∃ tx tx' asset amount, BuildersAgree R readAmount now params tx tx' asset amount) ↔
    SpelledOut R params.assetCode params.assetIssuer := by
  rw [rawAsset_spelledOut hr hv]
  constructor
  case mp =>
    intro ⟨tx, tx', asset, amount, h⟩
    exact ⟨asset, deterministic_asset h.deterministic h.moves', h.registry⟩
  case mpr =>
    intro ⟨asset, hd, ht⟩
    have hi := issuer_of_toAsset ht
    have hr := ha _ h.amount
    exact ⟨_, _, asset, _, {
      payment       := buildPayment_envelope h hi ht hr
      deterministic := deterministic_envelope h hi hd hr
      registry      := ht
      moves         := rfl
      moves'        := rfl
      memo          := rfl
      accepted      := envelope_accepted h ht
      accepted'     := envelope_accepted h ht
    }⟩

def sampleSettlementParams (assetIssuer : Option String) : DeterministicPaymentParams where
  sourcePublicKey := sampleIssuer
  sourceSequence  := "41"
  destination     := sampleIssuer
  assetCode       := "USDC"
  assetIssuer
  amount          := "12.5"
  memoCode        := "ABCDEFGHJK"

theorem sampleSettlementParams_valid (assetIssuer : Option String) :
    (sampleSettlementParams assetIssuer).Valid sampleRegistry := by
  have hk : sampleIssuer ≠ "" ∧ sampleRegistry.isValidEd25519PublicKey sampleIssuer = true := by decide
  have hc : GeneratedCode "ABCDEFGHJK" := ⟨List.forall_iff_forall_mem.mp (by decide), by decide⟩
  have ha : PlainAmount "12.5" := ⟨by decide, by decide, by decide, by decide, by decide⟩
  have hs : "41" ≠ "" ∧ "41".toList.all Char.isDigit = true := by decide
  exact ⟨hk, hk, hs, hc, ha, rfl, rfl, rfl⟩

theorem builders_agree_iff_usdc :
    (∃ tx tx' asset amount, BuildersAgree sampleRegistry (fun t => .ok (Decimal.value 7 t.toList)) 0
      (sampleSettlementParams (some sampleIssuer)) tx tx' asset amount) ↔
    SpelledOut sampleRegistry "USDC" (some sampleIssuer) := by
  have hv : sampleRegistry.validateAsset "USDC" (some sampleIssuer) =
      .ok (.ok sampleRegistry.usdc.toValidatedAsset) := by decide +kernel
  exact builders_agree_iff sampleRegistry_regular (sampleSettlementParams_valid _) hv fun _ _ => rfl

-- Without an issuer, USDC becomes XLM.
theorem builders_disagree :
    (sampleSettlementParams none).Valid sampleRegistry ∧
    (∃ v, sampleRegistry.validateAsset "USDC" none = .ok (.ok v)) ∧
    ¬∃ tx tx' asset amount, BuildersAgree sampleRegistry (fun t => .ok (Decimal.value 7 t.toList)) 0
      (sampleSettlementParams none) tx tx' asset amount := by
  refine ⟨sampleSettlementParams_valid none, ⟨sampleRegistry.usdc.toValidatedAsset, by decide +kernel⟩, ?_⟩
  intro ⟨tx, tx', asset, amount, h⟩
  have hd : rawAsset sampleRegistry "USDC" none = .ok asset := deterministic_asset h.deterministic h.moves'
  have ht : toAsset sampleRegistry ⟨"USDC", none⟩ = .ok asset := h.registry
  have hn : rawAsset sampleRegistry "USDC" none = .ok .native := by decide
  have hu : toAsset sampleRegistry ⟨"USDC", none⟩ = .ok ⟨"USDC", some sampleIssuer⟩ := by decide +kernel
  rw [hn] at hd
  rw [hu, ← hd] at ht
  exact absurd ht (by decide)

end Mergepay.Stellar
