import Mergepay.Stellar.Envelope
import Mergepay.Stellar.Intent

namespace Mergepay.Stellar

open Money

variable {R : Registry} {S : Sdk} {tx : Transaction} {expected : PaymentExpectation} {now : Time} {signedXdr : String}
  {requireSignature : Bool}

-- The parts of a payment, where an envelope is one
structure PaymentParts where
  source      : Option String
  destination : String
  asset       : Asset
  amount      : Int
  deriving DecidableEq

def Transaction.payment? (tx : Transaction) : Option PaymentParts :=
  match tx.operations with
  | [.payment source destination asset amount] => some ⟨source, destination, asset, amount⟩
  | _                                          => none

-- A part of an envelope is as expected, provided that the parts before it are.
def Agrees (R : Registry) (S : Sdk) (tx : Transaction) (expected : PaymentExpectation) (now : Time) :
    XdrRejectionField → Prop
  | .envelope                 => True
  | .timeBounds               =>
    (assertTimeBoundsMatchIntent tx.timeBounds expected.expiresAt expected.resource now).toBool = true
  | .payment .source          => tx.source = expected.sourcePublicKey
  | .payment .sequence        => ∀ sequence ∈ expected.sourceSequence, tx.sequence = sequence
  | .payment .operationCount  => tx.operations.length = 1
  | .payment .fee             => 100 ≤ tx.fee ∧ tx.fee ≤ expected.maxFeeStroops.getD 200
  | .payment .operationType   => tx.payment?.isSome = true
  | .payment .operationSource => ∀ p ∈ tx.payment?, ∀ source ∈ p.source, source = expected.sourcePublicKey
  | .payment .destination     => ∀ p ∈ tx.payment?, p.destination = expected.destination
  | .payment .assetIssuer     =>
    ∀ p ∈ tx.payment?, ∀ wantAsset ∈ (toAsset R expected.asset).toOption,
      p.asset.code = wantAsset.code → p.asset = wantAsset
  | .payment .asset           => ∀ p ∈ tx.payment?, (toAsset R expected.asset).toOption = some p.asset
  | .payment .amount          =>
    ∀ p ∈ tx.payment?, normalizeAmount (amountText p.amount) = normalizeAmount expected.amount
  | .payment .memo            => tx.memo.valueText = memoText expected.memoCode
  | .signature                => verifySourceSignature S tx expected.sourcePublicKey = true

instance (R : Registry) (S : Sdk) (tx : Transaction) (expected : PaymentExpectation) (t : Time)
    (field : XdrRejectionField) : Decidable (Agrees R S tx expected t field) :=
  match field with
  | .envelope                 => .isTrue trivial
  | .timeBounds               => decEq _ _
  | .payment .source          => decEq _ _
  | .payment .sequence        => inferInstanceAs <| Decidable (∀ _ ∈ _, _)
  | .payment .operationCount  => decEq _ _
  | .payment .fee             => inferInstanceAs <| Decidable (_ ∧ _)
  | .payment .operationType   => decEq _ _
  | .payment .operationSource => inferInstanceAs <| Decidable (∀ p ∈ tx.payment?, ∀ source ∈ p.source, _)
  | .payment .destination     => inferInstanceAs <| Decidable (∀ p ∈ tx.payment?, _)
  | .payment .assetIssuer     => inferInstanceAs <| Decidable (∀ p ∈ tx.payment?, ∀ wantAsset ∈ Except.toOption _, _ → _)
  | .payment .asset           => inferInstanceAs <| Decidable (∀ p ∈ tx.payment?, _)
  | .payment .amount          => inferInstanceAs <| Decidable (∀ p ∈ tx.payment?, _)
  | .payment .memo            => decEq _ _
  | .signature                => decEq _ _

-- The order in which the parts are compared
def paymentOrder : List XdrRejectionField :=
  [.payment .source, .payment .sequence, .payment .operationCount, .payment .fee, .payment .operationType,
    .payment .operationSource, .payment .destination, .payment .assetIssuer, .payment .asset, .payment .amount,
    .payment .memo]

def inspectionOrder (requireSignature : Bool) : List XdrRejectionField :=
  .timeBounds :: paymentOrder ++ if requireSignature then [.signature] else []

def firstDivergence (R : Registry) (S : Sdk) (tx : Transaction) (expected : PaymentExpectation) (t : Time)
    (order : List XdrRejectionField) : Option XdrRejectionField :=
  order.find? fun field => ¬Agrees R S tx expected t field

section

variable {field : XdrRejectionField} {order order₁ order₂ : List XdrRejectionField}

theorem firstDivergence_of_agrees (h : Agrees R S tx expected now field) :
    firstDivergence R S tx expected now (field :: order) = firstDivergence R S tx expected now order :=
  List.find?_cons_of_neg (by simpa using h)

theorem firstDivergence_of_not (h : ¬Agrees R S tx expected now field) :
    firstDivergence R S tx expected now (field :: order) = some field :=
  List.find?_cons_of_pos (by simpa using h)

theorem firstDivergence_append :
    firstDivergence R S tx expected now (order₁ ++ order₂) =
    (firstDivergence R S tx expected now order₁).or (firstDivergence R S tx expected now order₂) :=
  List.find?_append

-- The mismatch that is reported is the first divergence of an order of parts. An expected asset that is not supported
-- is not reported, but raised.
inductive Reports (R : Registry) (S : Sdk) (tx : Transaction) (expected : PaymentExpectation) (t : Time)
    (order : List XdrRejectionField) : Except Failure (Option PaymentIntentMismatch) → Prop
  | found (m : Option PaymentIntentMismatch) : m.map (.payment ·.field) = firstDivergence R S tx expected t order →
    (∀ e, toAsset R expected.asset = .error e → ∀ m' ∈ m, m'.field ≠ .asset) → Reports R S tx expected t order (.ok m)
  | raised (e : Failure) : toAsset R expected.asset = .error e →
    firstDivergence R S tx expected t order = some (.payment .asset) → Reports R S tx expected t order (.error e)

theorem Reports.mismatch {m : PaymentIntentMismatch} (hf : m.field ≠ .asset)
    (h : ¬Agrees R S tx expected now (.payment m.field)) :
    Reports R S tx expected now (.payment m.field :: order) (.ok (some m)) := by
  refine .found _ (firstDivergence_of_not h).symm fun _ _ m' hm => ?_
  cases hm
  exact hf

theorem Reports.skip {x : Except Failure (Option PaymentIntentMismatch)} (ha : Agrees R S tx expected now field)
    (h : Reports R S tx expected now order x) : Reports R S tx expected now (field :: order) x := by
  cases h with
  | found m hm hf  => exact .found m (hm.trans (firstDivergence_of_agrees ha).symm) hf
  | raised e he hf => exact .raised e he ((firstDivergence_of_agrees ha).trans hf)

theorem Reports.check {p : Prop} [Decidable p] {m : PaymentIntentMismatch}
    {x : Except Failure (Option PaymentIntentMismatch)} (hf : m.field ≠ .asset)
    (hp : p ↔ ¬Agrees R S tx expected now (.payment m.field)) (h : ¬p → Reports R S tx expected now order x) :
    Reports R S tx expected now (.payment m.field :: order) (if p then return some m else x) := by
  by_cases hc : p
  case pos =>
    rw [if_pos hc]
    exact .mismatch hf (hp.mp hc)
  case neg =>
    rw [if_neg hc]
    exact .skip (not_not.mp (mt hp.mpr hc)) (h hc)

theorem Reports.bind {a : α} {f : α → Except Failure (Option PaymentIntentMismatch)}
    (h : Reports R S tx expected now order (f a)) : Reports R S tx expected now order (Except.ok a >>= f) :=
  h

theorem any_ne_iff {o : Option String} {s : String} : o.any (· ≠ s) = true ↔ ¬∀ s' ∈ o, s' = s := by
  cases o <;> simp

-- What is compared once the envelope is known to be a payment
theorem reports_matchPayment {source : Option String} {destination : String} {asset : Asset} {amount : Int}
    (ht : tx.payment? = some ⟨source, destination, asset, amount⟩) :
    Reports R S tx expected now
      [.payment .operationSource, .payment .destination, .payment .assetIssuer, .payment .asset, .payment .amount,
        .payment .memo] (matchPayment R tx expected source destination asset amount) := by
  rw [matchPayment]
  refine .check (m := ⟨.operationSource, _⟩) (by decide) (by rw [any_ne_iff]; simp [Agrees, ht]) fun _ => ?_
  refine .check (m := ⟨.destination, _⟩) (by decide) (by simp [Agrees, ht]) fun _ => ?_
  cases ha : toAsset R expected.asset with
  | error e      =>
    have hi : Agrees R S tx expected now (.payment .assetIssuer) := by simp [Agrees, ha, Except.toOption]
    have hc : ¬Agrees R S tx expected now (.payment .asset) := by simp [Agrees, ht, ha, Except.toOption]
    exact .skip hi <| .raised e ha (firstDivergence_of_not hc)
  | ok wantAsset =>
    refine .bind ?_
    by_cases hw : asset = wantAsset
    case pos =>
      have hi : Agrees R S tx expected now (.payment .assetIssuer) := by simp [Agrees, ht, ha, hw, Except.toOption]
      have hc : Agrees R S tx expected now (.payment .asset) := by simp [Agrees, ht, ha, hw, Except.toOption]
      rw [if_neg (not_not.mpr hw)]
      refine .skip hi <| .skip hc ?_
      refine Reports.check (m := ⟨.amount, "Payment amount does not match"⟩) (by decide) (by simp [Agrees, ht])
        fun _ => ?_
      refine Reports.check (m := ⟨.memo, "Memo does not match the expense reference"⟩) (by decide) (by simp [Agrees])
        fun _ => ?_
      exact .found none rfl fun _ _ _ hm => by cases hm
    case neg =>
      rw [if_pos hw]
      refine .check (m := ⟨.assetIssuer, _⟩) (by decide) (by simp [Agrees, ht, ha, hw, Except.toOption]) fun _ => ?_
      have hc : ¬Agrees R S tx expected now (.payment .asset) := by simp [Agrees, ht, ha, Ne.symm hw, Except.toOption]
      exact .found _ (firstDivergence_of_not hc).symm fun e he => by cases ha.symm.trans he

theorem reports_matchPaymentIntent : Reports R S tx expected now paymentOrder (matchPaymentIntent R tx expected) := by
  refine .check (m := ⟨.source, _⟩) (by decide) (by simp [Agrees]) fun _ => ?_
  refine .check (m := ⟨.sequence, _⟩) (by decide) ?_ fun _ => ?_
  case refine_1 => cases hq : expected.sourceSequence <;> simp [Agrees, hq]
  split
  case h_2 _ ho =>
    refine .mismatch (m := ⟨.operationCount, _⟩) (by decide) fun h => ?_
    have ⟨op, h⟩ := List.length_eq_one_iff.mp h
    exact ho op h
  case h_1 op ho =>
    have hl : Agrees R S tx expected now (.payment .operationCount) := congrArg List.length ho
    refine .skip hl <| .check (m := ⟨.fee, "Transaction fee is outside the accepted range"⟩) (by decide) ?_ fun _ => ?_
    case refine_1 =>
      rw [Agrees, not_and_or, not_le, not_le]
      exact .rfl
    case refine_2 =>
      cases op with
      | other type source =>
        refine .mismatch (m := ⟨.operationType, _⟩) (by decide) ?_
        simp [Agrees, Transaction.payment?, ho]
      | payment source destination asset amount =>
        have ht : tx.payment? = some ⟨source, destination, asset, amount⟩ := by simp [Transaction.payment?, ho]
        have hp : Agrees R S tx expected now (.payment .operationType) := by simp [Agrees, ht]
        exact .skip hp (reports_matchPayment ht)

theorem firstDivergence_of_mismatch {m : Option PaymentIntentMismatch} (h : matchPaymentIntent R tx expected = .ok m) :
    firstDivergence R S tx expected now paymentOrder = m.map (.payment ·.field) := by
  have hr : Reports R S tx expected now _ _ := h ▸ reports_matchPaymentIntent
  cases hr with
  | found _ hm _ => exact hm.symm

theorem firstDivergence_of_unsupported {e : Failure} (h : matchPaymentIntent R tx expected = .error e) :
    firstDivergence R S tx expected now paymentOrder = some (.payment .asset) := by
  have hr : Reports R S tx expected now _ _ := h ▸ reports_matchPaymentIntent
  cases hr with
  | raised _ _ hf => exact hf

theorem toAsset_of_unsupported (S : Sdk) {e : Failure} (h : matchPaymentIntent R tx expected = .error e) :
    toAsset R expected.asset = .error e := by
  have hr : Reports R S tx expected 0 _ _ := h ▸ reports_matchPaymentIntent
  cases hr with
  | raised _ he _ => exact he

theorem fromAppError_badRequest (code : XdrRejectionCode) (message : String) (field : XdrRejectionField) :
    fromAppError (.badRequest code.text message) field = .ok (.rejected code field message) := by
  have hc : rejectionCode? (Failure.errorCode code.text) = some code := by cases code <;> decide +kernel
  rw [Failure.badRequest, fromAppError, hc, Option.getD_some]

theorem fromAppError_raises {error e : Failure} (h : fromAppError error field = .error e) :
    error = e ∧ ∀ field, fromAppError e field = .error e := by
  cases error with
  | app | provider => cases h
  | error | engine =>
    cases h
    exact ⟨rfl, fun _ => rfl⟩

theorem assertTimeBounds_error {bounds : Option TimeBounds} {expiresAt : Option Time} {resource : String}
    (h : assertTimeBoundsMatchIntent bounds expiresAt resource now = .error e) :
    ∃ code : XdrRejectionCode, ∃ message, e = .badRequest code.text message ∧
      (code = .xdrMismatch ∨ code = .intentExpired) := by
  rw [assertTimeBoundsMatchIntent] at h
  split at h
  case h_1 => exact ⟨.xdrMismatch, _, (Except.error.inj h).symm, .inl rfl⟩
  case h_2 =>
    split_ifs at h
    case pos     => exact ⟨.xdrMismatch, _, (Except.error.inj h).symm, .inl rfl⟩
    case pos     => exact ⟨.intentExpired, _, (Except.error.inj h).symm, .inr rfl⟩
    case pos     => exact ⟨.xdrMismatch, _, (Except.error.inj h).symm, .inl rfl⟩

theorem inspectTransaction_timeBounds
    (h : assertTimeBoundsMatchIntent tx.timeBounds expected.expiresAt expected.resource now = .error e) :
    ∃ code : XdrRejectionCode, ∃ message, e = .badRequest code.text message ∧
      (code = .xdrMismatch ∨ code = .intentExpired) ∧
      inspectTransaction R S tx expected requireSignature now = .ok (.rejected code .timeBounds message) := by
  obtain ⟨code, message, rfl, hc⟩ := assertTimeBounds_error h
  refine ⟨code, message, rfl, hc, ?_⟩
  rw [inspectTransaction, h]
  exact fromAppError_badRequest code message .timeBounds

theorem inspectTransaction_mismatch {m : PaymentIntentMismatch}
    (h : assertTimeBoundsMatchIntent tx.timeBounds expected.expiresAt expected.resource now = .ok ())
    (hm : matchPaymentIntent R tx expected = .ok (some m)) :
    inspectTransaction R S tx expected requireSignature now =
    .ok (.rejected .xdrMismatch (.payment m.field) m.message) := by
  rw [inspectTransaction, h, hm]

theorem inspectTransaction_unsupported {e : Failure}
    (h : assertTimeBoundsMatchIntent tx.timeBounds expected.expiresAt expected.resource now = .ok ())
    (hm : matchPaymentIntent R tx expected = .error e) :
    inspectTransaction R S tx expected requireSignature now = fromAppError e (.payment .asset) := by
  rw [inspectTransaction, h, hm]

theorem inspectTransaction_unsigned
    (h : assertTimeBoundsMatchIntent tx.timeBounds expected.expiresAt expected.resource now = .ok ())
    (hm : matchPaymentIntent R tx expected = .ok none)
    (hs : ¬verifySourceSignature S tx expected.sourcePublicKey = true) :
    inspectTransaction R S tx expected true now = .ok (.rejected .xdrUnsigned .signature
      "Transaction is not validly signed by its source account for the configured network") := by
  rw [inspectTransaction, h, hm]
  exact if_pos ⟨rfl, hs⟩

theorem inspectTransaction_accepted
    (h : assertTimeBoundsMatchIntent tx.timeBounds expected.expiresAt expected.resource now = .ok ())
    (hm : matchPaymentIntent R tx expected = .ok none)
    (hs : requireSignature = true → verifySourceSignature S tx expected.sourcePublicKey = true) :
    inspectTransaction R S tx expected requireSignature now = .ok (.accepted tx (S.hash tx) tx.source tx.sequence) := by
  rw [inspectTransaction, h, hm]
  exact if_neg fun hn => hn.2 (hs hn.1)

def XdrInspection.rejectedField : XdrInspection → Option XdrRejectionField
  | .accepted _ _ _ _   => none
  | .rejected _ field _ => some field

theorem rejectedField_fromAppError {error : Failure} {r : XdrInspection} (h : fromAppError error field = .ok r) :
    r.rejectedField = some field := by
  cases error with
  | app | provider =>
    cases h
    rfl
  | error | engine => cases h

-- What becomes of an envelope: it is accepted if all of its parts are the expected ones, else the first part that is not
-- is reported. If it is the asset that is expected, but not supported, its error is raised if it is no `AppError`.
structure Inspected (R : Registry) (S : Sdk) (tx : Transaction) (expected : PaymentExpectation)
    (requireSignature : Bool) (now : Time) (x : Except Failure XdrInspection) : Prop where
  accepted : x = .ok (.accepted tx (S.hash tx) tx.source tx.sequence) ↔
    ∀ field ∈ inspectionOrder requireSignature, Agrees R S tx expected now field
  rejected : ∀ r, x = .ok r →
    r.rejectedField = firstDivergence R S tx expected now (inspectionOrder requireSignature)
  raised   : ∀ e, x = .error e → toAsset R expected.asset = .error e ∧
    firstDivergence R S tx expected now (inspectionOrder requireSignature) = some (.payment .asset) ∧
    ∀ field, fromAppError e field = .error e

theorem firstDivergence_eq_none :
    firstDivergence R S tx expected now order = none ↔ ∀ field ∈ order, Agrees R S tx expected now field := by
  simp [firstDivergence]

theorem Inspected.ok {r : XdrInspection}
    (hf : r.rejectedField = firstDivergence R S tx expected now (inspectionOrder requireSignature))
    (hn : r.rejectedField = none → r = .accepted tx (S.hash tx) tx.source tx.sequence) :
    Inspected R S tx expected requireSignature now (.ok r) where
  accepted := by
    rw [← firstDivergence_eq_none, ← hf, Except.ok.injEq]
    exact ⟨fun h => by rw [h, XdrInspection.rejectedField], hn⟩
  rejected := fun _ h => Except.ok.inj h ▸ hf
  raised   := nofun

theorem Inspected.fromAppError {error : Failure} (he : toAsset R expected.asset = .error error)
    (hd : firstDivergence R S tx expected now (inspectionOrder requireSignature) = some (.payment .asset)) :
    Inspected R S tx expected requireSignature now (Stellar.fromAppError error (.payment .asset)) := by
  cases hx : Stellar.fromAppError error (.payment .asset) with
  | ok r    =>
    have hr := rejectedField_fromAppError hx
    exact .ok (hr.trans hd.symm) fun hn => by cases hr.symm.trans hn
  | error e =>
    obtain ⟨rfl, hn⟩ := fromAppError_raises hx
    constructor
    case accepted =>
      rw [← firstDivergence_eq_none, hd]
      exact ⟨nofun, nofun⟩
    case rejected => exact nofun
    case raised =>
      rintro e ⟨⟩
      exact ⟨he, hd, hn⟩

theorem inspected_inspectTransaction : Inspected R S tx expected requireSignature now
    (inspectTransaction R S tx expected requireSignature now) := by
  cases ht : assertTimeBoundsMatchIntent tx.timeBounds expected.expiresAt expected.resource now with
  | error e =>
    obtain ⟨_, _, _, _, hi⟩ : ∃ _ _, _ ∧ _ ∧ inspectTransaction R S tx expected requireSignature now = _ :=
      inspectTransaction_timeBounds ht
    have hn : ¬Agrees R S tx expected now .timeBounds := by simp [Agrees, ht, Except.toBool]
    rw [hi]
    exact .ok (firstDivergence_of_not hn).symm (by simp [XdrInspection.rejectedField])
  | ok _ =>
    have ht' : Agrees R S tx expected now .timeBounds := by simp [Agrees, ht, Except.toBool]
    have hd : firstDivergence R S tx expected now (inspectionOrder requireSignature) =
        (firstDivergence R S tx expected now paymentOrder).or
          (firstDivergence R S tx expected now (if requireSignature then [.signature] else [])) := by
      rw [inspectionOrder, List.cons_append, firstDivergence_of_agrees ht', firstDivergence_append]
    cases hm : matchPaymentIntent R tx expected with
    | error e =>
      rw [firstDivergence_of_unsupported hm, Option.some_or] at hd
      rw [inspectTransaction_unsupported ht hm]
      exact .fromAppError (toAsset_of_unsupported S hm) hd
    | ok m    =>
      rw [firstDivergence_of_mismatch hm] at hd
      cases m with
      | some m =>
        rw [inspectTransaction_mismatch ht hm]
        exact .ok hd.symm (by simp [XdrInspection.rejectedField])
      | none   =>
        rw [Option.map_none, Option.none_or] at hd
        by_cases hs : requireSignature = true → verifySourceSignature S tx expected.sourcePublicKey = true
        case pos =>
          rw [inspectTransaction_accepted ht hm hs]
          refine .ok ?_ fun _ => rfl
          rw [hd, XdrInspection.rejectedField, eq_comm, firstDivergence_eq_none]
          cases requireSignature <;> simp_all [Agrees]
        case neg =>
          obtain ⟨rfl, hv⟩ := Classical.not_imp.mp hs
          rw [inspectTransaction_unsigned ht hm hv]
          have hn : firstDivergence R S tx expected now [.signature] = some .signature := firstDivergence_of_not hv
          exact .ok (hd.trans hn).symm (by simp [XdrInspection.rejectedField])

-- An envelope that can be read is accepted if all of its parts are the expected ones. Otherwise the first part that
-- is not is reported.
theorem inspected_part_by_part (hp : S.fromXDR signedXdr = some (.transaction tx)) :
    Inspected R S tx expected requireSignature now
      (inspectSignedTransaction R S signedXdr expected requireSignature now) := by
  simp only [inspectSignedTransaction, parseSignedPaymentXdr, hp]
  exact inspected_inspectTransaction

-- A wallet signs a payment to eve instead of the one to ann that it has been handed.

def swappedEnvelope : Transaction := {
  source     := "GBOB"
  sequence   := "1"
  fee        := 100
  timeBounds := some ⟨0, 300⟩
  memo       := .text (asciiBytes "MP:AAAAAAAAAA")
  operations := [.payment none "GEVE" .native 20000000]
  signatures := ["GBOB"]
}

def swappingSdk : Sdk := {
  fromXDR x := if x = "envelope" then some (.transaction swappedEnvelope) else none
  hash _    := "hash"
  verify k _ s := k = s
}

def handedPayment : PaymentExpectation := {
  sourcePublicKey := "GBOB"
  destination     := "GANN"
  asset           := { code := "XLM", issuer := none }
  amount          := "2"
  memoCode        := "AAAAAAAAAA"
}

theorem inspected_swappedEnvelope :
    inspectSignedTransaction sampleRegistry swappingSdk "envelope" handedPayment true 0 =
      .ok (.rejected .xdrMismatch (.payment .destination) "Payment destination does not match") ∧
    firstDivergence sampleRegistry swappingSdk swappedEnvelope handedPayment 0 (inspectionOrder true) =
      some (.payment .destination) := by
  have hi : inspectSignedTransaction sampleRegistry swappingSdk "envelope" handedPayment true 0 =
      .ok (.rejected .xdrMismatch (.payment .destination) "Payment destination does not match") := by
    decide +kernel
  have hp : swappingSdk.fromXDR "envelope" = some (.transaction swappedEnvelope) := rfl
  have hx : Inspected sampleRegistry swappingSdk swappedEnvelope handedPayment true 0 _ := inspected_part_by_part hp
  exact ⟨hi, (hx.rejected _ hi).symm⟩

-- What the validators make of an inspection. The one of submissions has texts of its own.

def submissionError (message : String) : XdrRejectionCode → Failure
  | .xdrMalformed => .badRequest "xdr_malformed" "Malformed or unsupported signed XDR"
  | .xdrUnsigned  => .badRequest "xdr_mismatch" "Transaction signature is invalid or for the wrong network"
  | code          => .badRequest code.text message

-- The error of an expected asset that is not supported is not replaced.
def raisedAs (asset : Except Failure Asset) (field : XdrRejectionField) (reported : Failure) : Failure :=
  match asset with
  | .ok _        => reported
  | .error error => if field = .payment .asset then error else reported

def XdrInspection.submitted (asset : Except Failure Asset) : XdrInspection → Except Failure SignedXdrValidation
  | .accepted tx hash _ _        => .ok { tx, hash }
  | .rejected code field message => .error <| raisedAs asset field (submissionError message code)

def XdrInspection.read (asset : Except Failure Asset) : XdrInspection → Except Failure Transaction
  | .accepted tx _ _ _           => .ok tx
  | .rejected code field message => .error <| raisedAs asset field (.badRequest code.text message)

section

variable {asset : Except Failure Asset} {reported : Failure}

@[simp] theorem raisedAs_envelope : raisedAs asset .envelope reported = reported := by
  cases asset <;> rfl

@[simp] theorem raisedAs_signature : raisedAs asset .signature reported = reported := by
  cases asset <;> rfl

end

end

end Mergepay.Stellar
