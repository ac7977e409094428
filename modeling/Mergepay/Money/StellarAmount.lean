import Mergepay.Data.Except
import Mergepay.Money.Codec

namespace Mergepay.Money

open Text Integer

-- Amounts are passed as decimals, or as a number of stroops.
inductive StellarAmount
  | text (amount : String)
  | bigint (stroops : Int)
  | number (stroops : Numeral)

-- The common part of the two formatting functions.
def formattedStroops (amount : StellarAmount) : Except Failure Int := do
  let stroops ← match amount with
    | .bigint n => pure n
    | .number x =>
      match safeInteger x with
      | some n => pure n
      | none   => throw <| .plain "Number amount must be a safe integer representing stroops"
    | .text t =>
      if t = "0" ∨ t = "0.0" ∨ t = "0.0000000" then
        pure 0
      else match validateAmount t with
        | .ok v    => pure (v.stroops : Int)
        | .error e => throw <| .plain e.message
  if stroops < 0 ∨ maxStroops < stroops then
    throw <| .plain "Amount out of valid Stellar range"
  return stroops

def formatStellarAmount (amount : StellarAmount) : Except Failure String := do
  return libStroopsToStellarAmount (← formattedStroops amount)

def formatStellarAmountHuman (amount : StellarAmount) : Except Failure String := do
  return libFromStroops (← formattedStroops amount)

def parseStellarAmount (amount : String) : Except Failure Int :=
  if amount = "0" ∨ amount = "0.0" ∨ amount = "0.0000000" then
    .ok 0
  else match validateAmount amount with
    | .ok v    => .ok v.stroops
    | .error e => .error <| .plain e.message

def isValidStellarAmount (amount : StellarAmount) : Bool :=
  (formatStellarAmount amount).toBool

-- Arithmetic reads its operands without validation.
def operandStroops : StellarAmount → Except Failure Int
  | .bigint n => .ok n
  | .text t   => libToStroops t
  | .number x => match ofNumeral x with
    | some n => .ok n
    | none   => .error <| .error "RangeError" <|
      "The number " ++ x.text ++ " cannot be converted to a BigInt because it is not an integer"

def addStellarAmounts (a b : StellarAmount) : Except Failure String := do
  let stroopsA ← operandStroops a
  let stroopsB ← operandStroops b
  let sum := stroopsA + stroopsB
  if sum > maxStroops then
    throw <| .plain "Sum exceeds maximum Stellar amount"
  return libFromStroops sum

def subtractStellarAmounts (a b : StellarAmount) : Except Failure String := do
  let stroopsA ← operandStroops a
  let stroopsB ← operandStroops b
  if stroopsA < stroopsB then
    throw <| .plain "Amount cannot be negative"
  return libFromStroops (stroopsA - stroopsB)

-- The number of stroops that an amount stands for. It does not exceed what the ledger can represent, and every
-- spelling of a decimal stands for the same number.
def StellarAmount.StandsFor (n : Int) : StellarAmount → Prop
  | .text t   => IsAmount t ∧ (n : ℚ) = 10 ^ 7 * denoted t ∧ n ≤ maxStroops
  | .bigint m => n = m ∧ 0 ≤ n ∧ n ≤ maxStroops
  | .number x => safeInteger x = some n ∧ 0 ≤ n

-- The integer that arithmetic finds in an operand. Of a text it takes the parts around the first dot, and every integer
-- literal will do for each of them.
def StellarAmount.Reads (n : Int) : StellarAmount → Prop
  | .text t   => ∃ whole frac w f, Decimal.Parts t.toList whole frac ∧ Literal whole w ∧
    Literal ((frac ++ List.replicate 7 '0').take 7) f ∧ n = w * 10 ^ 7 + f
  | .bigint m => n = m
  | .number x => x.value = some (n : ℚ)

section

variable {t c : String} {a b : StellarAmount} {n : Int}

theorem toBigInt_eq_ok {l : List Char} : toBigInt l = .ok n ↔ Literal l n := by
  rw [toBigInt, ← bigInt_eq_some]
  cases bigInt l <;> simp

theorem ofNumeral_eq_some {x : Numeral} : ofNumeral x = some n ↔ x.value = some (n : ℚ) := by
  rw [ofNumeral, Option.bind_eq_some_iff]
  constructor
  case mp =>
    intro ⟨q, hq, h⟩
    split at h
    case isTrue hd => rw [hq, ← Option.some.inj h, (Rat.den_eq_one_iff _).mp hd]
    case isFalse   => contradiction
  case mpr => exact fun h => ⟨n, h, by simp⟩

theorem operandStroops_eq_ok : operandStroops a = .ok n ↔ a.Reads n := by
  cases a with
  | bigint m => simp [operandStroops, StellarAmount.Reads, eq_comm]
  | number x =>
    rw [StellarAmount.Reads, ← ofNumeral_eq_some, operandStroops]
    cases ofNumeral x <;> simp
  | text t =>
    simp only [operandStroops, libToStroops, Except.bind_eq_ok, Except.pure_eq_ok, toBigInt_eq_ok,
      StellarAmount.Reads, ← Decimal.firstParts_eq]
    constructor
    case mp =>
      rintro ⟨w, hw, f, hf, hn⟩
      exact ⟨_, _, w, f, rfl, hw, hf, hn.symm⟩
    case mpr =>
      rintro ⟨whole, frac, w, f, hp, hw, hf, rfl⟩
      rw [hp]
      exact ⟨w, hw, f, hf, rfl⟩

theorem standsFor_text : StellarAmount.StandsFor n (.text t) ↔
    IsAmount t ∧ n = Decimal.value 7 t.toList ∧ Decimal.value 7 t.toList ≤ maxStroops := by
  refine and_congr_right fun ha => ?_
  have hv := ha.value_eq
  rw [← hv]
  constructor
  case mp =>
    intro ⟨hn, hm⟩
    have hn : n = Decimal.value 7 t.toList := by exact_mod_cast hn
    exact ⟨hn, by omega⟩
  case mpr =>
    rintro ⟨rfl, hm⟩
    exact ⟨by norm_cast, by omega⟩

-- Arithmetic agrees with validation on what is validated.
theorem StellarAmount.StandsFor.reads (h : a.StandsFor n) : a.Reads n := by
  cases a with
  | text t =>
    have ⟨ha, hn, _⟩ := standsFor_text.mp h
    exact operandStroops_eq_ok.mp (hn ▸ ha.libToStroops)
  | bigint m => exact h.1
  | number x =>
    have ⟨hx, _⟩ := Option.filter_eq_some_iff.mp h.1
    exact ofNumeral_eq_some.mp hx

theorem StellarAmount.Reads.unique {m : Int} (hn : a.Reads n) (hm : a.Reads m) : n = m :=
  Except.ok.inj <| (operandStroops_eq_ok.mpr hn).symm.trans <| operandStroops_eq_ok.mpr hm

theorem addStellarAmounts_eq_ok : addStellarAmounts a b = .ok c ↔
    ∃ x y, a.Reads x ∧ b.Reads y ∧ x + y ≤ maxStroops ∧ c = libFromStroops (x + y) := by
  simp only [addStellarAmounts, Except.bind_eq_ok, operandStroops_eq_ok]
  refine exists_congr fun x => ?_
  rw [← exists_and_left]
  refine exists_congr fun y => and_congr_right fun _ => and_congr_right fun _ => ?_
  by_cases h : x + y ≤ maxStroops
  case pos => simp [h, Int.not_lt.mpr h, pure, Except.pure, eq_comm]
  case neg => simp [h, Int.not_le.mp h, throw, throwThe, MonadExceptOf.throw, bind, Except.bind]

theorem subtractStellarAmounts_eq_ok : subtractStellarAmounts a b = .ok c ↔
    ∃ x y, a.Reads x ∧ b.Reads y ∧ y ≤ x ∧ c = libFromStroops (x - y) := by
  simp only [subtractStellarAmounts, Except.bind_eq_ok, operandStroops_eq_ok]
  refine exists_congr fun x => ?_
  rw [← exists_and_left]
  refine exists_congr fun y => and_congr_right fun _ => and_congr_right fun _ => ?_
  by_cases h : y ≤ x
  case pos => simp [h, Int.not_lt.mpr h, pure, Except.pure, eq_comm]
  case neg => simp [h, Int.not_le.mp h, throw, throwThe, MonadExceptOf.throw, bind, Except.bind]

theorem parseStellarAmount_eq_ok : parseStellarAmount t = .ok n ↔ StellarAmount.StandsFor n (.text t) ∧
    (n = 0 → t = "0" ∨ t = "0.0" ∨ t = "0.0000000") := by
  rw [standsFor_text]
  unfold parseStellarAmount
  split
  case isTrue h =>
    have hz : IsAmount t ∧ Decimal.value 7 t.toList = 0 := by
      rcases h with rfl | rfl | rfl <;> exact ⟨isAmount_iff.mpr ⟨by decide, by decide⟩, by decide⟩
    simp [h, hz, eq_comm]
  case isFalse h =>
    cases hv : validateAmount t with
    | ok v =>
      have ⟨ha, hp, hm, hv⟩ := validateDecimal_eq_ok_iff.mp hv
      have hp : Decimal.value 7 t.toList ≠ 0 := by simpa using hp
      simp only [hv, ha, hm, h, Except.ok.injEq, true_and, and_true, imp_false]
      omega
    | error e =>
      refine iff_of_false nofun fun ⟨⟨ha, hn, hm⟩, hz⟩ => ?_
      have hp : Decimal.value 7 t.toList ≠ 0 := fun hv => h (hz (by omega))
      have hp : decide (Decimal.value 7 t.toList ≤ 0) = false := decide_eq_false (by omega)
      cases hv.symm.trans <| validateDecimal_eq_ok_iff.mpr ⟨ha, hp, hm, rfl⟩

-- Formatting a decimal amounts to parsing it.
theorem formattedStroops_text : formattedStroops (.text t) = .ok n ↔ parseStellarAmount t = .ok n := by
  have hf : formattedStroops (.text t) = do
      let stroops ← parseStellarAmount t
      if stroops < 0 ∨ maxStroops < stroops then
        throw <| .plain "Amount out of valid Stellar range"
      return stroops := by
    unfold formattedStroops parseStellarAmount
    simp only
    split
    case isTrue  => rfl
    case isFalse => cases validateAmount t <;> rfl
  rw [hf]
  cases hp : parseStellarAmount t with
  | error e => exact iff_of_false nofun nofun
  | ok m =>
    have ⟨_, hm, hn⟩ := standsFor_text.mp (parseStellarAmount_eq_ok.mp hp).1
    have hr : ¬(m < 0 ∨ maxStroops < m) := by omega
    simp [bind, Except.bind, pure, Except.pure, hr]

theorem formattedStroops_bigint (h₀ : 0 ≤ n) (h : n ≤ maxStroops) : formattedStroops (.bigint n) = .ok n := by
  simp [formattedStroops, pure, Except.pure, bind, Except.bind, Int.not_lt.mpr h₀, Int.not_lt.mpr h]

end

end Mergepay.Money
