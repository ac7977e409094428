import Mergepay.Money.Canonical
import Mergepay.Stellar.Envelope

namespace Mergepay.Stellar

open Money Text

-- The amounts that are compared as texts

theorem notMem_dot {l : List Char} (h : ∀ c ∈ l, c.isDigit = true) : '.' ∉ l :=
  fun hm => absurd (h '.' hm) (by decide)

theorem normalizeAmount_joined (hw : '.' ∉ whole) (hf : '.' ∉ frac) :
    normalizeAmount (.ofList (Decimal.joined whole frac)) =
      .ofList (whole ++ '.' :: padEnd 7 '0' frac) := by
  have dot : "." = String.ofList ['.'] := rfl
  by_cases h : frac = []
  case pos =>
    simp only [normalizeAmount, normalizeHorizonAmount, Decimal.joined, h, if_true,
      String.toList_ofList, List.splitOn_eq_singleton hw, List.headD, List.tail_cons, dot,
      ← String.ofList_append, List.append_assoc, List.singleton_append]
  case neg =>
    simp only [normalizeAmount, normalizeHorizonAmount, Decimal.joined, h, if_false,
      String.toList_ofList, List.splitOn_append_cons_self_of_not_mem hw,
      List.splitOn_eq_singleton hf, List.headD, List.tail_cons, dot, ← String.ofList_append,
      List.append_assoc, List.singleton_append]

-- The digits of an amount in front of and behind the dot.

def wholeDigits (n : Int) : List Char :=
  Nat.toDigits 10 (n.natAbs / stroopsPerUnit)

def fractionDigits (n : Int) : List Char :=
  padStart 7 '0' (Nat.toDigits 10 (n.natAbs % stroopsPerUnit))

theorem isDigit_wholeDigits : ∀ c ∈ wholeDigits n, c.isDigit = true :=
  fun _ => Decimal.isDigit_toDigits

theorem isDigit_fractionDigits : ∀ c ∈ fractionDigits n, c.isDigit = true := by
  intro c hc
  cases Decimal.mem_padStart hc with
  | inl h => subst h; rfl
  | inr h => exact Decimal.isDigit_toDigits h

theorem length_fractionDigits : (fractionDigits n).length = 7 := by
  refine Decimal.length_padStart <| (Nat.length_toDigits_le_iff (by decide) (by decide)).mpr ?_
  exact Nat.mod_lt _ (by decide)

theorem value_digits (n : Int) :
    Decimal.digits (wholeDigits n) * stroopsPerUnit + Decimal.digits (fractionDigits n) = n.natAbs := by
  rw [wholeDigits, fractionDigits, Decimal.digits_padStart]
  simp only [Decimal.digits, Nat.ofDigitChars_ten_toDigits]
  exact Nat.div_add_mod' _ _

theorem notMem_sign : '.' ∉ sign n ++ wholeDigits n := by
  intro h
  cases List.mem_append.mp h with
  | inl h =>
    simp only [sign] at h
    split at h <;> simp at h
  | inr h => exact notMem_dot isDigit_wholeDigits h

theorem normalizeAmount_amountText (n : Int) : normalizeAmount (amountText n) =
    .ofList (sign n ++ wholeDigits n ++ '.' :: fractionDigits n) := by
  have hn : fractionDigits n ≠ [] := fun h => by simpa [h] using length_fractionDigits (n := n)
  have ht : amountText n = .ofList (Decimal.joined (sign n ++ wholeDigits n) (fractionDigits n)) := by
    rw [Decimal.joined, if_neg hn]
    rfl
  have hp : padEnd 7 '0' (fractionDigits n) = fractionDigits n := by
    rw [padEnd, List.take_append_of_le_length length_fractionDigits.ge,
      List.take_of_length_le length_fractionDigits.le]
  rw [ht, normalizeAmount_joined notMem_sign (notMem_dot isDigit_fractionDigits), hp]

-- The comparison of texts is a comparison of amounts.
theorem amount_eq_value (h : Decimal.accepts t.toList = true)
    (he : normalizeAmount (amountText n) = normalizeAmount t) : n = Decimal.value 7 t.toList := by
  have ⟨whole, frac, ht, _, hw, hf⟩ := Decimal.accepts_ok h
  rw [← String.ofList_toList (s := t), ht, normalizeAmount_amountText,
    normalizeAmount_joined (notMem_dot hw) (notMem_dot hf), String.ofList_inj] at he
  have ⟨hw', _, hf'⟩ :=
    (List.append_cons_inj_of_notMem notMem_sign (notMem_dot isDigit_fractionDigits)).mp he
  have hn : ¬n < 0 := by
    intro hn
    have hm : '-' ∈ whole := by simp [← hw', sign, hn]
    exact absurd (hw '-' hm) (by decide)
  rw [sign, if_neg hn, List.nil_append] at hw'
  have hv := value_digits n
  rw [hw', hf'] at hv
  simp only [Decimal.value, ht, Decimal.split_joined hw, Decimal.digits_dropZeros]
  simp only [stroopsPerUnit] at hv
  omega

-- Memos are compared by the text of their value

def asciiBytes (text : String) : List UInt8 :=
  text.toList.map fun c => .ofNat c.toNat

-- The codes of settlements are shorter than any hash.
structure IsMemoCode (code : String) : Prop where
  chars  : ∀ c ∈ code.toList, c.isUpper = true ∨ c.isDigit = true
  length : code.toList.length ≤ 16

theorem toNat_lt_of_isAlphanum {c : Char} (h : c.isUpper = true ∨ c.isDigit = true) : c.toNat < 0x80 := by
  cases h with
  | inl h =>
    have h : 'A'.val ≤ c.val ∧ c.val ≤ 'Z'.val := of_decide_eq_true h
    exact Nat.lt_of_le_of_lt (UInt32.le_iff_toNat_le.mp h.2) (by decide)
  | inr h =>
    simp only [Char.isDigit, Bool.and_eq_true, decide_eq_true_eq] at h
    exact Nat.lt_of_le_of_lt (UInt32.le_iff_toNat_le.mp h.2) (by decide)

-- Short codes are not cut off.
theorem toList_memoText (h : IsMemoCode code) :
    (memoText code).toList = 'M' :: 'P' :: ':' :: code.toList := by
  have hl := h.length
  have ht : ("MP:" ++ code).toList = 'M' :: 'P' :: ':' :: code.toList := by simp
  have ha : ∀ c ∈ ("MP:" ++ code).toList, c.toNat < 0x80 := by
    rw [ht]
    refine List.forall_mem_cons.mpr ⟨by decide, List.forall_mem_cons.mpr ⟨by decide, ?_⟩⟩
    exact List.forall_mem_cons.mpr ⟨by decide, fun c hc => toNat_lt_of_isAlphanum (h.chars c hc)⟩
  have hu : ¬(Utf16.encode ("MP:" ++ code).toList).length > 28 := by
    rw [Utf16.encode_ascii ha, List.length_map, ht]
    simp only [List.length_cons]
    omega
  simp only [memoText]
  rw [if_neg hu, Utf16.decode_encode, String.toList_ofList, ht]

theorem toNat_memoText (h : IsMemoCode code) : ∀ c ∈ (memoText code).toList, c.toNat < 0x80 := by
  simp only [toList_memoText h, List.mem_cons]
  intro c hc
  cases hc with
  | inl h => subst h; decide
  | inr hc => cases hc with
    | inl h => subst h; decide
    | inr hc => cases hc with
      | inl h  => subst h; decide
      | inr hc => exact toNat_lt_of_isAlphanum (h.chars c hc)

-- Bytes whose text is that of a memo code are the characters of that text.
theorem decode_eq_memoText (hc : IsMemoCode code) (h : .ofList (Utf8.decode l) = memoText code) :
    l = asciiBytes (memoText code) := by
  have hd : Utf8.decode l = (memoText code).toList := by rw [← h, String.toList_ofList]
  have ha : ∀ c ∈ Utf8.decode l, c.toNat < 0x80 := fun c hm => toNat_memoText hc c (hd ▸ hm)
  rw [asciiBytes, ← hd, Utf8.decode_ascii ha, List.map_map]
  refine (List.map_id'' (fun b => ?_) l).symm
  have hb : b.toNat.isValidChar := .inl (Nat.lt_trans b.toNat_lt (by decide))
  rw [Function.comp_apply, Utf8.toNat_ofNat hb, UInt8.ofNat_toNat]

theorem length_decode_ne (hc : IsMemoCode code) (v : Vector UInt8 32) :
    .ofList (Utf8.decode v.toList) ≠ memoText code := by
  intro h
  have hl := congrArg List.length (decode_eq_memoText hc h)
  have := hc.length
  simp only [asciiBytes, List.length_map, toList_memoText hc, List.length_cons, Vector.length_toList] at hl
  omega

theorem memo_of_valueText (hc : IsMemoCode code) (h : Memo.valueText m = memoText code) :
    m = .text (asciiBytes (memoText code)) := by
  cases m with
  | none =>
    have := congrArg String.toList h
    simp [Memo.valueText, toList_memoText hc] at this
  | text value => rw [← decode_eq_memoText hc h]
  | id value =>
    have hm : 'M' ∈ Nat.toDigits 10 value := by
      rw [← String.toList_ofList (l := Nat.toDigits 10 value), ← Memo.valueText, h, toList_memoText hc]
      exact List.mem_cons_self
    exact absurd (Decimal.isDigit_toDigits hm) (by decide)
  | hash value       => exact absurd h (length_decode_ne hc value)
  | returnHash value => exact absurd h (length_decode_ne hc value)

theorem getAssetConfig_ok {R : Registry} (h : R.getAssetConfig code issuer = .ok v) :
    R.validateAsset code issuer = .ok (.ok v) := by
  rw [Registry.getAssetConfig, Except.bind_eq_ok] at h
  have ⟨outcome, ho, h⟩ := h
  cases outcome with
  | error e => simp [throw, throwThe, MonadExceptOf.throw] at h
  | ok a    => rw [ho, Except.pure_eq_ok.mp h]

theorem validateAssetSpec_ok {R : Registry} (h : R.validateAssetSpec code issuer = .ok v) :
    R.validateAsset code issuer = .ok (.ok v) := by
  simp only [Registry.validateAssetSpec] at h
  split at h
  case h_1 => exact getAssetConfig_ok (Except.unit_bind_eq_ok.mp h).2
  case h_2 => exact getAssetConfig_ok h

-- Payments are made in the assets of the registry.
theorem toAsset_ok {R : Registry} (h : toAsset R spec = .ok asset) :
    ∃ v, R.validateAsset spec.code spec.issuer = .ok (.ok v) ∧ asset = ⟨v.code, v.issuer⟩ := by
  rw [toAsset, Except.bind_eq_ok] at h
  have ⟨v, hv, h⟩ := h
  have hv : R.validateAsset spec.code spec.issuer = .ok (.ok v) := validateAssetSpec_ok hv
  refine ⟨v, hv, ?_⟩
  have ⟨a, ha, hv⟩ := Registry.mem_of_validateAsset hv
  simp only [Registry.supportedAssets, List.mem_cons, List.not_mem_nil, or_false] at ha
  cases ha with
  | inl ha =>
    subst ha; subst hv
    exact (Except.pure_eq_ok.mp h).symm
  | inr ha =>
    subst ha; subst hv
    simp only [Asset.new] at h
    split at h
    case h_1 => simp only [reduceCtorEq] at h
    case h_2 issuer hi =>
      split at h
      case isTrue => simp only [reduceCtorEq] at h
      case isFalse =>
        rw [Registry.present_bind] at hi
        simp [← Except.ok.inj h, hi, Registry.toUpperCase_usdc]

-- The payments that are accepted

variable {R : Registry} {S : Sdk}

structure Authorised (R : Registry) (expected : PaymentExpectation) (tx : Transaction)
    (source : Option String) (asset : Asset) (amount : Int) : Prop where
  txSource   : tx.source = expected.sourcePublicKey
  sequence   : ∀ s ∈ expected.sourceSequence, tx.sequence = s
  operations : tx.operations = [.payment source expected.destination asset amount]
  opSource   : ∀ s ∈ source, s = expected.sourcePublicKey
  fee        : minFeeStroopsPerOp ≤ tx.fee ∧ tx.fee ≤ expected.maxFeeStroops.getD maxFeeStroopsPerOp
  asset      : toAsset R expected.asset = .ok asset
  amount     : normalizeAmount (amountText amount) = normalizeAmount expected.amount
  memo       : tx.memo.valueText = memoText expected.memoCode

-- A check that reports a mismatch has passed if there is none in the end.
theorem check_eq_none {p : Prop} [Decidable p] {x : Except Failure (Option PaymentIntentMismatch)} :
    (if p then return some m else x) = .ok none ↔ ¬p ∧ x = .ok none := by
  by_cases h : p <;> simp [h, pure, Except.pure]

theorem matchPayment_eq_none {tx : Transaction} {expected : PaymentExpectation} :
    matchPayment R tx expected source destination asset amount = .ok none ↔
    (∀ s ∈ source, s = expected.sourcePublicKey) ∧ destination = expected.destination ∧
    toAsset R expected.asset = .ok asset ∧
    normalizeAmount (amountText amount) = normalizeAmount expected.amount ∧
    tx.memo.valueText = memoText expected.memoCode := by
  have hs : Option.any (· ≠ expected.sourcePublicKey) source = true ↔
      ¬∀ s ∈ source, s = expected.sourcePublicKey := by
    cases source <;> simp
  have ha (want : Asset) : (if asset.code = want.code
      then return some ⟨.assetIssuer, "Payment asset issuer mismatch"⟩
      else return some ⟨.asset, "Payment asset does not match"⟩ :
      Except Failure (Option PaymentIntentMismatch)) ≠ .ok none := by
    split <;> simp [pure, Except.pure]
  simp only [matchPayment, check_eq_none, Except.bind_eq_ok, hs, not_not, ne_eq]
  refine and_congr_right fun _ => and_congr_right fun _ => ?_
  constructor
  case mp =>
    intro ⟨want, hw, h⟩
    split at h
    case isTrue => exact absurd h (ha want)
    case isFalse he =>
      rw [not_not] at he
      simp only [check_eq_none, not_not] at h
      exact ⟨he ▸ hw, h.1, h.2.1⟩
  case mpr =>
    intro ⟨hw, hn, hm⟩
    refine ⟨asset, hw, ?_⟩
    simp [hn, hm, pure, Except.pure]

theorem matchPaymentIntent_eq_none {tx : Transaction} {expected : PaymentExpectation} :
    matchPaymentIntent R tx expected = .ok none ↔
    ∃ source asset amount, Authorised R expected tx source asset amount := by
  have hq : Option.any (tx.sequence ≠ ·) expected.sourceSequence = true ↔
      ¬∀ s ∈ expected.sourceSequence, tx.sequence = s := by
    cases expected.sourceSequence <;> simp
  simp only [matchPaymentIntent, check_eq_none, hq, not_not, ne_eq]
  constructor
  case mp =>
    intro ⟨txSource, sequence, h⟩
    split at h
    case h_2 => contradiction
    case h_1 op operations =>
      rw [check_eq_none, not_or, Nat.not_lt, Nat.not_lt] at h
      cases op with
      | other => exact absurd h.2 (by simp [pure, Except.pure])
      | payment source destination asset amount =>
        have ⟨opSource, hd, asset, amount, memo⟩ := matchPayment_eq_none.mp h.2
        subst hd
        exact ⟨_, _, _, {
          txSource, sequence, operations, opSource, fee := h.1, asset, amount, memo
        }⟩
  case mpr =>
    intro ⟨source, asset, amount, h⟩
    refine ⟨h.txSource, h.sequence, ?_⟩
    simp only [h.operations, check_eq_none, not_or, Nat.not_lt]
    exact ⟨h.fee, matchPayment_eq_none.mpr ⟨h.opSource, rfl, h.asset, h.amount, h.memo⟩⟩

theorem assertMatchesIntent_ok {tx : Transaction} {expected : PaymentExpectation} :
    assertMatchesIntent R tx expected = .ok () ↔
    ∃ source asset amount, Authorised R expected tx source asset amount := by
  rw [← matchPaymentIntent_eq_none, assertMatchesIntent, Except.bind_eq_ok]
  constructor
  case mp =>
    intro ⟨mismatch, h, hm⟩
    cases mismatch with
    | none => exact h
    | some => simp [xdrMismatch] at hm
  case mpr =>
    intro h
    exact ⟨none, h, rfl⟩

-- The bounds of an accepted envelope end with its request.
theorem assertTimeBoundsMatchIntent_ok (h : assertTimeBoundsMatchIntent bounds (some t) r now = .ok ()) :
    ∃ b, bounds = some b ∧ b.maxTime ≤ nowSeconds t + clockSkewToleranceSeconds := by
  simp only [assertTimeBoundsMatchIntent] at h
  split at h
  case h_1 => simp [xdrMismatch] at h
  case h_2 b hb =>
    refine ⟨b, (Option.filter_eq_some_iff.mp hb).1, ?_⟩
    by_contra hc
    have hm : b.maxTime > nowSeconds t + clockSkewToleranceSeconds := not_le.mp hc
    simp [hm, xdrMismatch] at h

-- All checks that an accepted envelope has passed.
theorem validatePaymentTx_ok {tx : Transaction} {expected : PaymentExpectation} :
    validatePaymentTx R S tx expected now = .ok () ↔
    assertTimeBoundsMatchIntent tx.timeBounds expected.expiresAt expected.resource now = .ok () ∧
    (∃ source asset amount, Authorised R expected tx source asset amount) ∧
    (expected.skipSourceSignatureCheck = true ∨
      verifySourceSignature S tx expected.sourcePublicKey = true) := by
  rw [← assertMatchesIntent_ok]
  simp only [validatePaymentTx, Except.unit_bind_eq_ok]
  cases expected.skipSourceSignatureCheck
  case true => simp [Except.pure_eq_ok]
  case false =>
    cases verifySourceSignature S tx expected.sourcePublicKey <;> simp [xdrMismatch, Except.pure_eq_ok]

end Mergepay.Stellar
