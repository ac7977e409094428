import Mergepay.Stellar.Intent
import Mergepay.Text.Spelling

namespace Mergepay.Stellar

open Money Text

-- The construction of envelopes

structure PaymentParams where
  sourcePublicKey : String
  sourceSequence  : String
  destination     : String
  asset           : AssetSpec
  amount          : String
  memoCode        : String
  validitySeconds : Nat := 300

-- The constructor for text memos. Here the limit counts bytes.
def Memo.ofText (value : String) : Except Failure Memo :=
  let bytes := Utf8.encode value.toList
  if bytes.length > 28 then
    .error <| .plain "Expects string, array or buffer, max 28 bytes"
  else
    .ok (.text bytes)

def checkPaymentParams (R : Registry) (params : PaymentParams) : Except Failure Unit := do
  if params.sourcePublicKey = "" ∨ ¬R.isValidEd25519PublicKey params.sourcePublicKey then
    throw <| .badRequest "invalid_source_account" "Source account must be a valid Stellar public key (G...)"
  if params.destination = "" ∨ ¬R.isValidEd25519PublicKey params.destination then
    throw <| .badRequest "invalid_destination_account" "Destination must be a valid Stellar public key (G...)"
  if params.sourceSequence = "" ∨ ¬params.sourceSequence.toList.all Char.isDigit then
    throw <| .badRequest "invalid_sequence" "Source sequence must be a valid numeric sequence string"
  if (params.asset.issuer.bind present).any (¬R.isValidEd25519PublicKey ·) then
    throw <| .badRequest "invalid_asset_issuer" "Asset issuer must be a valid Stellar public key (G...)"

-- The unsigned envelope of a payment. The SDK reads the amount by `readAmount`, and counts up the
-- sequence number.
def buildPayment (R : Registry) (readAmount : String → Except Failure Int) (now : Time) (params : PaymentParams) :
    Except Failure Transaction := do
  checkPaymentParams R params
  let asset ← toAsset R params.asset
  let amount ← readAmount params.amount
  let memo ← Memo.ofText (memoText params.memoCode)
  return {
    source     := params.sourcePublicKey
    sequence   := .ofList (Nat.toDigits 10 (Decimal.digits params.sourceSequence.toList + 1))
    fee        := 200
    timeBounds := some ⟨0, (nowSeconds now).toNat + params.validitySeconds⟩
    memo
    operations := [.payment none params.destination asset amount]
    signatures := []
  }

-- The construction of envelopes for settlements, with fixed time bounds

structure DeterministicPaymentParams where
  sourcePublicKey : String
  sourceSequence  : String
  destination     : String
  assetCode       : String
  assetIssuer     : Option String
  amount          : String
  memoCode        : String
  validitySeconds : Option Nat := none
  minTime         : Option Nat := none
  maxTime         : Option Nat := none
  feeStroops      : Option Nat := none

-- The same payment, as it is described to the other builder.
def DeterministicPaymentParams.payment (params : DeterministicPaymentParams) : PaymentParams where
  sourcePublicKey := params.sourcePublicKey
  sourceSequence  := params.sourceSequence
  destination     := params.destination
  asset           := ⟨params.assetCode, params.assetIssuer⟩
  amount          := params.amount
  memoCode        := params.memoCode
  validitySeconds := params.validitySeconds.getD 300

-- The constructor of the SDK, when it is given any code.
def Asset.ofRaw (R : Registry) (code : String) (issuer : Option String) : Except Failure Asset :=
  if ¬(1 ≤ code.toList.length ∧ code.toList.length ≤ 12 ∧ code.toList.all Char.isAlphanum) then
    .error <| .plain "Asset code is invalid (maximum alphanumeric, 12 characters at max)"
  else
    Asset.new R code issuer

def rawAsset (R : Registry) (assetCode : String) (assetIssuer : Option String) : Except Failure Asset :=
  if toUpperCase assetCode = "XLM" ∨ assetIssuer.bind present = none then
    return .native
  else
    Asset.ofRaw R assetCode assetIssuer

def deterministicTimeBounds (now : Time) (params : DeterministicPaymentParams) : TimeBounds :=
  match params.minTime, params.maxTime with
  | some minTime, some maxTime => ⟨minTime, maxTime⟩
  | _, _                       => ⟨0, (nowSeconds now).toNat + params.validitySeconds.getD 300⟩

-- The checks of the parameters are those of the other builder. A fee of zero counts as absent.
def buildDeterministicSettlementPaymentXdr (R : Registry) (readAmount : String → Except Failure Int) (now : Time)
    (params : DeterministicPaymentParams) : Except Failure Transaction := do
  checkPaymentParams R params.payment
  let asset ← rawAsset R params.assetCode params.assetIssuer
  let amount ← readAmount params.amount
  let memo ← Memo.ofText (memoText params.memoCode)
  return {
    source     := params.sourcePublicKey
    sequence   := .ofList (Nat.toDigits 10 (Decimal.digits params.sourceSequence.toList + 1))
    fee        := (params.feeStroops.filter (0 < ·)).getD 200
    timeBounds := some (deterministicTimeBounds now params)
    memo
    operations := [.payment none params.destination asset amount]
    signatures := []
  }

theorem ofText_eq_ok {value : String} {memo : Memo} : Memo.ofText value = .ok memo ↔
    (Utf8.encode value.toList).length ≤ 28 ∧ memo = .text (Utf8.encode value.toList) := by
  simp only [Memo.ofText]
  split
  case isTrue h  => exact iff_of_false nofun fun hn => absurd hn.1 (not_le.mpr h)
  case isFalse h => simp [not_lt.mp h, eq_comm]

theorem buildPayment_memo {R : Registry} {params : PaymentParams} (h : buildPayment R readAmount now params = .ok tx) :
    Memo.ofText (memoText params.memoCode) = .ok tx.memo := by
  have ⟨_, _, h⟩ := Except.bind_eq_ok.mp h
  have ⟨_, _, h⟩ := Except.bind_eq_ok.mp h
  have ⟨_, _, h⟩ := Except.bind_eq_ok.mp h
  have ⟨memo, hm, h⟩ := Except.bind_eq_ok.mp h
  rw [← Except.pure_eq_ok.mp h]
  exact hm

-- Amounts in plain notation, which has no leading zeros and not more than seven decimals

structure PlainAmount (t : String) : Prop where
  accepted  : Decimal.accepts t.toList = true
  leading   : (Decimal.split t.toList).1 = ['0'] ∨ (Decimal.split t.toList).1.head? ≠ some '0'
  scale     : (Decimal.split t.toList).2.length ≤ 7
  positive  : 0 < Decimal.value 7 t.toList
  inRange   : Decimal.value 7 t.toList < 2 ^ 63

theorem PlainAmount.normalizeAmount {t : String} (h : PlainAmount t) :
    normalizeAmount (amountText (Decimal.value 7 t.toList)) = normalizeAmount t := by
  have ⟨whole, frac, ht, hn, hw, hf⟩ := Decimal.accepts_ok h.accepted
  have hs := @Decimal.split_joined whole frac hw
  have hp : ∀ c ∈ padEnd 7 '0' frac, c.isDigit = true := fun c hc => by
    cases Decimal.mem_padEnd hc with
    | inl hc => subst hc; rfl
    | inr hc => exact hf c hc
  have hl : whole = ['0'] ∨ whole.head? ≠ some '0' := by
    have hl := h.leading
    rwa [ht, hs] at hl
  have hlt : Decimal.digits (padEnd 7 '0' frac) < 10 ^ 7 := by
    have := Decimal.digits_lt hp
    rwa [Decimal.length_padEnd] at this
  have hv : Decimal.value 7 t.toList = Decimal.digits whole * 10 ^ 7 + Decimal.digits (padEnd 7 '0' frac) := by
    rw [Decimal.value, ht, hs, Decimal.digits_dropZeros]
  have hw' : wholeDigits (Decimal.value 7 t.toList) = whole := by
    have hd : Decimal.value 7 t.toList / 10000000 = Decimal.digits whole := by omega
    rw [wholeDigits, Int.natAbs_natCast, stroopsPerUnit, hd]
    exact Decimal.toDigits_digits hn hw hl
  have hf' : fractionDigits (Decimal.value 7 t.toList) = padEnd 7 '0' frac := by
    have hd : Decimal.value 7 t.toList % 10000000 = Decimal.digits (padEnd 7 '0' frac) := by omega
    rw [fractionDigits, Int.natAbs_natCast, stroopsPerUnit, hd]
    have := Decimal.padStart_toDigits hp (by rw [Decimal.length_padEnd]; decide)
    rwa [Decimal.length_padEnd] at this
  rw [normalizeAmount_amountText, hw', hf', ← String.ofList_toList (s := t), ht,
    normalizeAmount_joined (notMem_dot hw) (notMem_dot hf)]
  simp [sign]

end Mergepay.Stellar
