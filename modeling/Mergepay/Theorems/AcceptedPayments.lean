import Mergepay.Theorems.LedgerChecks

namespace Mergepay.Stellar

open Money Text

variable {R : Registry} {S : Sdk}

-- What an envelope consists of that is exactly the payment of a settlement, and nothing else.
structure IsPayment (R : Registry) (S : Sdk) (settlement : SettlementIntentRecord) (tx : Transaction) :
    Prop where
  payer     : tx.source = settlement.source
  signature : ∃ s ∈ tx.signatures, S.verify settlement.source (S.hash tx) s = true
  operation : ∃ source asset, (source = none ∨ source = some settlement.source) ∧
    R.validateAsset settlement.assetCode settlement.assetIssuer = .ok (.ok asset) ∧
    tx.operations = [.payment source settlement.destination ⟨asset.code, asset.issuer⟩
      (Decimal.value 7 settlement.amount.toList)]
  memo      : tx.memo = .text (asciiBytes (memoText settlement.shortCode))
  fee       : minFeeStroopsPerOp ≤ tx.fee ∧ tx.fee ≤ maxFeeStroopsPerOp

-- The ledger does not apply an envelope after its upper time bound, which counts seconds.
def Transaction.DeadAt (tx : Transaction) (t : Time) : Prop :=
  ∃ bounds, tx.timeBounds = some bounds ∧ (bounds.maxTime * 1000 : Int) < t

-- The expiry of an intent and of its envelopes are rounded in the same way.
theorem deadAt_of_isIntentExpired {tx : Transaction} (hb : tx.timeBounds = some bounds)
    (h : bounds.maxTime ≤ nowSeconds expiry + clockSkewToleranceSeconds)
    (ht : isIntentExpired (some expiry) t = true) : tx.DeadAt t := by
  refine ⟨bounds, hb, ?_⟩
  simp only [isIntentExpired, Option.any_some, decide_eq_true_eq] at ht
  simp only [clockSkewToleranceSeconds] at h
  have hs : nowSeconds t = t / 1000 := Int.fdiv_eq_ediv_of_nonneg t (by decide)
  omega

-- An accepted envelope is the payment that was asked for, and dies with its intent.
theorem accepted_payment {settlement : SettlementIntentRecord} {tx : Transaction}
    (hc : IsMemoCode settlement.shortCode) (ha : Decimal.accepts settlement.amount.toList = true)
    (he : settlement.expiresAt = some expiry)
    (h : validatePaymentTx R S tx (settlementPaymentIntent settlement) now = .ok ()) :
    IsPayment R S settlement tx ∧
    ∀ t, isIntentExpired settlement.expiresAt t = true → tx.DeadAt t := by
  have ⟨hb, ⟨source, asset, amount, hp⟩, hs⟩ := validatePaymentTx_ok.mp h
  have ⟨v, hv, hva⟩ := toAsset_ok hp.asset
  have hn := amount_eq_value ha hp.amount
  have hs := hs.resolve_left (by simp [settlementPaymentIntent])
  have ho : source = none ∨ source = some settlement.source := by
    cases source with
    | none   => exact .inl rfl
    | some s => exact .inr <| congrArg some <| hp.opSource s rfl
  constructor
  case left => exact {
    payer     := hp.txSource
    signature := List.any_eq_true.mp hs
    operation := ⟨source, v, ho, hv, by rw [hp.operations, hn, hva]; rfl⟩
    memo      := memo_of_valueText hc hp.memo
    fee       := hp.fee
  }
  case right =>
    intro t ht
    simp only [settlementPaymentIntent, he] at hb
    have ⟨bounds, hb, hm⟩ := assertTimeBoundsMatchIntent_ok hb
    exact deadAt_of_isIntentExpired hb hm (he ▸ ht)

-- An envelope for one XLM with the memo MP:AB2.

def sampleTransaction : Transaction := {
  source     := "payer"
  sequence   := "1"
  fee        := 100
  timeBounds := some ⟨0, 300⟩
  memo       := .text (asciiBytes "MP:AB2")
  operations := [.payment none "payee" .native 10000000]
  signatures := ["payer"]
}

def sampleSdk : Sdk := {
  fromXDR x := if x = "envelope" then some (.transaction sampleTransaction) else none
  hash _    := "hash"
  verify k _ s := k = s
}

def sampleRecord : SettlementIntentRecord := {
  shortCode   := "AB2"
  amount      := "1"
  assetCode   := "XLM"
  assetIssuer := none
  expiresAt   := some 300000
  source      := "payer"
  destination := "payee"
}

theorem validatePaymentTx_sample : validatePaymentTx sampleRegistry sampleSdk sampleTransaction
    (settlementPaymentIntent sampleRecord) 0 = .ok () := by
  rfl

theorem accepted_payment_sample : IsPayment sampleRegistry sampleSdk sampleRecord sampleTransaction ∧
    ∀ t, isIntentExpired (some 300000) t = true → sampleTransaction.DeadAt t :=
  accepted_payment ⟨List.forall_iff_forall_mem.mp (by decide), by decide⟩ (by decide) rfl
    validatePaymentTx_sample

end Mergepay.Stellar
