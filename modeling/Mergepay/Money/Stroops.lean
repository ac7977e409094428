import Mathlib.Tactic.IntervalCases
import Mergepay.Errors
import Mergepay.Text.Decimal

namespace Mergepay.Money

open Text

def stroopsPerUnit : Nat := 10000000
def maxStroops     : Nat := 9223372036854775807

inductive RejectionReason
  | malformed
  | zeroOrNegative
  | excessPrecision
  | outOfRange
  | whitespacePadding
  | unsupportedCode
  | nativeWithIssuer
  | issuedWithoutIssuer
  | issuerMismatch
  | invalidIssuerFormat
  deriving DecidableEq

structure ValidationError where
  reason  : RejectionReason
  message : String
  code    : String
  deriving DecidableEq

structure ValidatedAmount where
  decimal : String
  stroops : Nat
  deriving DecidableEq

def invalidAmount (reason : RejectionReason) (message : String) : Except ValidationError α :=
  .error { reason, message, code := "INVALID_AMOUNT" }

-- The common body of the two validations below, which differ in the values they call too small.
def validateDecimal (tooSmall : Nat → Bool) (smallMessage : String) (value : String) :
    Except ValidationError ValidatedAmount :=
  let trimmed := trim value.toList
  if trimmed ≠ value.toList then
    invalidAmount .whitespacePadding "Amount must not have leading or trailing whitespace"
  else if trimmed = [] then
    invalidAmount .malformed "Amount is required"
  else if ¬Decimal.accepts trimmed then
    invalidAmount .malformed <|
      "\"" ++ value ++ "\" is not a valid decimal amount (no exponents, signs, or non-digits)"
  else
    let (wholeRaw, fracRaw) := Decimal.split trimmed
    if fracRaw.length > 7 then
      invalidAmount .excessPrecision <| "Amount \"" ++ value ++ "\" exceeds 7-decimal precision"
    else
      let whole := Decimal.dropZeros wholeRaw
      let paddedFrac := padEnd 7 '0' fracRaw
      let stroops := Decimal.digits whole * stroopsPerUnit + Decimal.digits paddedFrac
      if tooSmall stroops then
        invalidAmount .zeroOrNegative smallMessage
      else if stroops > maxStroops then
        invalidAmount .outOfRange "Amount exceeds the maximum representable Stellar value"
      else
        let canonical := Decimal.joined whole (paddedFrac.rdropWhile (· = '0'))
        .ok { decimal := .ofList canonical, stroops }

def validateAmount : String → Except ValidationError ValidatedAmount :=
  validateDecimal (· ≤ 0) "Amount must be greater than zero"

def validateUnsignedAmountAllowZero : String → Except ValidationError ValidatedAmount :=
  validateDecimal (· < 0) "Amount must not be negative"

def normalizeAmount (value : String) : Except Failure String :=
  match validateAmount value with
  | .ok v    => .ok v.decimal
  | .error e => .error <| .plain e.message

-- Parses a signed decimal amount.
def toStroops (amount : String) : Except Failure Int :=
  match amount.toList with
  | '-' :: unsigned => match validateUnsignedAmountAllowZero (.ofList unsigned) with
    | .ok v    => .ok (-v.stroops)
    | .error e => .error <| .plain e.message
  | _ => match validateUnsignedAmountAllowZero amount with
    | .ok v    => .ok v.stroops
    | .error e => .error <| .plain e.message

def sign (n : Int) : List Char :=
  if n < 0 then ['-'] else []

def fromStroops (stroops : Int) : Except Failure String :=
  if stroops.natAbs > maxStroops then
    .error <| .plain "Stroop value is outside the supported Stellar range"
  else
    .ok <| .ofList <| sign stroops ++ Decimal.render 7 stroops.natAbs

-- A column of type `Decimal(20, 7)` is represented by its value in stroops. When such a column is
-- converted to text, a number below 10⁻⁶ is written in exponential notation.
def columnText (n : Int) : String :=
  .ofList <| sign n ++
    if 0 < n.natAbs ∧ n.natAbs < 10
    then Nat.toDigits 10 n.natAbs ++ ['e', '-', '7']
    else Decimal.render 7 n.natAbs

-- The way in which all balance computations read an amount from the database.
def columnStroops (n : Int) : Except Failure Int :=
  toStroops (columnText n)

-- The amounts which are readable by `columnStroops`.
def Readable (n : Int) : Prop :=
  (n = 0 ∨ 10 ≤ n.natAbs) ∧ n.natAbs ≤ maxStroops

instance : DecidablePred Readable :=
  fun _ => inferInstanceAs (Decidable (_ ∧ _))

-- The outcome of the validation on canonical notation.
theorem validateUnsignedAmountAllowZero_render (n : Nat) :
    ∃ d, validateUnsignedAmountAllowZero (.ofList (Decimal.render 7 n)) =
      if maxStroops < n
      then invalidAmount .outOfRange "Amount exceeds the maximum representable Stellar value"
      else .ok ⟨d, n⟩ := by
  have hw : trim (Decimal.render 7 n) = Decimal.render 7 n :=
    trim_eq_self fun _ => Decimal.isWhitespace_render
  have ha : Decimal.accepts (Decimal.render 7 n) = true := Decimal.accepts_render
  have hn : Decimal.render 7 n ≠ [] := fun h => by simp [h, Decimal.accepts] at ha
  have hl : ¬7 < (Decimal.split (Decimal.render 7 n)).2.length := by
    rw [Decimal.split_render, Nat.not_lt]
    exact Decimal.length_fraction_le (by decide)
  have hv : Decimal.digits (Decimal.dropZeros (Decimal.split (Decimal.render 7 n)).1) *
      stroopsPerUnit + Decimal.digits (padEnd 7 '0' (Decimal.split (Decimal.render 7 n)).2) = n :=
    Decimal.value_render (by decide)
  refine ⟨.ofList (Decimal.joined (Decimal.dropZeros (Decimal.split (Decimal.render 7 n)).1)
    ((padEnd 7 '0' (Decimal.split (Decimal.render 7 n)).2).rdropWhile (· = '0'))), ?_⟩
  simp [validateUnsignedAmountAllowZero, validateDecimal, hw, ha, hn, hl, hv]

theorem render_ne_minus : Decimal.render k n ≠ '-' :: l := by
  intro h
  have hm : '-' ∈ Decimal.render k n := h ▸ List.mem_cons_self
  rcases Decimal.mem_joined hm with h | h | h
  · contradiction
  · exact absurd (Decimal.isDigit_whole _ h) (by decide)
  · exact absurd (Decimal.isDigit_fraction _ h) (by decide)

theorem toStroops_sign_render (n : Int) :
    toStroops (.ofList (sign n ++ Decimal.render 7 n.natAbs)) =
      if maxStroops < n.natAbs
      then .error (.plain "Amount exceeds the maximum representable Stellar value")
      else .ok n := by
  have ⟨_, hv⟩ := validateUnsignedAmountAllowZero_render n.natAbs
  by_cases hn : n < 0
  case pos =>
    have hn' : -(n.natAbs : Int) = n := by omega
    simp only [toStroops, sign, hn, if_true, String.toList_ofList, List.singleton_append, hv]
    by_cases hm : maxStroops < n.natAbs <;> simp only [hm, if_true, if_false, invalidAmount, hn']
  case neg =>
    have hn' : (n.natAbs : Int) = n := by omega
    simp only [toStroops, sign, hn, if_false, List.nil_append, String.toList_ofList]
    split
    case h_1 h => exact absurd h render_ne_minus
    case h_2 =>
      rw [hv]
      by_cases hm : maxStroops < n.natAbs <;> simp only [hm, if_true, if_false, invalidAmount, hn']

theorem toStroops_fromStroops (h : fromStroops n = .ok t) : toStroops t = .ok n := by
  simp only [fromStroops] at h
  split at h
  case isTrue => contradiction
  case isFalse hn =>
    rw [← Except.ok.inj h, toStroops_sign_render, if_neg hn]

theorem fromStroops_inj (h₁ : fromStroops n₁ = .ok t) (h₂ : fromStroops n₂ = .ok t) : n₁ = n₂ :=
  Except.ok.inj <| (toStroops_fromStroops h₁).symm.trans (toStroops_fromStroops h₂)

-- Exponential notation is rejected, so the smallest amounts cannot be read back.
theorem columnStroops_tiny {n : Int} (h₀ : 0 < n.natAbs) (h₁ : n.natAbs < 10) :
    ∃ e, columnStroops n = .error e := by
  have ⟨m, hm⟩ := n.eq_nat_or_neg
  rcases hm with rfl | rfl
  all_goals
    simp only [Int.natAbs_neg, Int.natAbs_natCast] at h₀ h₁
    interval_cases m <;> exact ⟨_, rfl⟩

theorem columnStroops_eq_ok_iff {n m : Int} : columnStroops n = .ok m ↔ Readable n ∧ m = n := by
  by_cases h : 0 < n.natAbs ∧ n.natAbs < 10
  case pos =>
    have ⟨_, he⟩ := columnStroops_tiny h.1 h.2
    have hr : ¬Readable n := fun hr => by
      have := hr.1
      omega
    simp [he, hr]
  case neg =>
    have hr : Readable n ↔ ¬maxStroops < n.natAbs := by
      simp only [Readable]
      omega
    simp only [columnStroops, columnText, h, if_false, toStroops_sign_render, hr]
    split <;> simp_all [eq_comm]

theorem columnStroops_readable (h : Readable n) : columnStroops n = .ok n :=
  columnStroops_eq_ok_iff.mpr ⟨h, rfl⟩

-- What is accepted, and how it is returned.
theorem validateDecimal_eq_ok : validateDecimal p m t = .ok v ↔ Decimal.accepts t.toList = true ∧
    (Decimal.split t.toList).2.length ≤ 7 ∧ p (Decimal.value 7 t.toList) = false ∧
    Decimal.value 7 t.toList ≤ maxStroops ∧
    v = ⟨.ofList (Decimal.canonical 7 t.toList), Decimal.value 7 t.toList⟩ := by
  by_cases ha : Decimal.accepts t.toList = true
  case pos =>
    have hw : trim t.toList = t.toList := trim_eq_self fun _ => Decimal.isWhitespace_of_accepts ha
    have hn := Decimal.accepts_ne_nil ha
    have hv : Decimal.digits (Decimal.dropZeros (Decimal.split t.toList).1) * stroopsPerUnit +
        Decimal.digits (padEnd 7 '0' (Decimal.split t.toList).2) = Decimal.value 7 t.toList := rfl
    simp only [validateDecimal, hw, hn, ha, hv, ne_eq, not_true_eq_false, if_false, true_and, invalidAmount]
    by_cases hl : 7 < (Decimal.split t.toList).2.length
    case pos => simp [hl]
    case neg =>
      cases hp : p (Decimal.value 7 t.toList)
      case true => simp [hl]
      case false =>
        by_cases hm : maxStroops < Decimal.value 7 t.toList
        case pos => simp [hl, hm]
        case neg =>
          simp [hl, hm, Nat.not_lt.mp hl, Nat.not_lt.mp hm, Decimal.canonical]
          exact eq_comm
  case neg =>
    simp only [ha, Bool.false_eq_true, false_and, iff_false, validateDecimal, invalidAmount]
    split
    case isTrue => simp
    case isFalse hw =>
      rw [not_not] at hw
      rw [hw]
      split <;> simp

theorem validateDecimal_ok (h : validateDecimal p m t = .ok v) :
    Decimal.accepts t.toList = true ∧ p v.stroops = false ∧ v.stroops ≤ maxStroops ∧
    ∀ {q m'}, q v.stroops = false → validateDecimal q m' t = .ok v := by
  have ⟨ha, hl, hp, hm, hv⟩ := validateDecimal_eq_ok.mp h
  subst hv
  exact ⟨ha, hp, hm, fun hq => validateDecimal_eq_ok.mpr ⟨ha, hl, hq, hm, rfl⟩⟩

-- The canonical notation is accepted again, with the same value.
theorem validateDecimal_decimal (h : validateDecimal p m t = .ok v) :
    ∃ v', validateDecimal p m v.decimal = .ok v' ∧ v'.stroops = v.stroops := by
  have ⟨ha, _, hp, hm, hv⟩ := validateDecimal_eq_ok.mp h
  subst hv
  have hc : Decimal.value 7 (Decimal.canonical 7 t.toList) = Decimal.value 7 t.toList :=
    Decimal.value_canonical ha
  refine ⟨⟨.ofList (Decimal.canonical 7 (Decimal.canonical 7 t.toList)), Decimal.value 7 t.toList⟩,
    validateDecimal_eq_ok.mpr ?_, rfl⟩
  rw [String.toList_ofList, hc]
  exact ⟨Decimal.accepts_canonical ha, Decimal.length_canonical ha, hp, hm, rfl⟩

-- A validated amount is positive, and denotes the same value when it is parsed as a signed one.
theorem toStroops_of_validateAmount (h : validateAmount t = .ok v) :
    0 < v.stroops ∧ toStroops t = .ok v.stroops := by
  have ⟨ha, hp, _, hq⟩ := validateDecimal_ok h
  refine ⟨by simpa [Nat.pos_iff_ne_zero] using hp, ?_⟩
  unfold toStroops
  split
  case h_1 l hl =>
    rw [hl] at ha
    exact absurd ha (by simp [Decimal.accepts])
  case h_2 =>
    have hu : validateUnsignedAmountAllowZero t = .ok v := hq (by simp)
    simp [hu]

theorem toStroops_decimal (h : validateAmount t = .ok v) : toStroops v.decimal = .ok v.stroops := by
  have ⟨v', h', hs⟩ := validateDecimal_decimal h
  exact hs ▸ (toStroops_of_validateAmount h').2

-- Every amount in the range of the database has a notation.
theorem exists_validateAmount {n : Nat} (h₀ : 0 < n) (h₁ : n ≤ maxStroops) :
    ∃ t v, validateAmount t = .ok v ∧ v.stroops = n := by
  have ⟨d, hv⟩ := validateUnsignedAmountAllowZero_render n
  rw [if_neg (Nat.not_lt.mpr h₁)] at hv
  have ⟨_, _, _, hq⟩ := validateDecimal_ok hv
  exact ⟨_, ⟨d, n⟩, hq (by simpa using Nat.pos_iff_ne_zero.mp h₀), rfl⟩

end Mergepay.Money
