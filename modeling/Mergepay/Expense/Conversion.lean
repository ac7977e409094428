import Mathlib.Algebra.BigOperators.Ring.List
import Mergepay.Data.Apportionment
import Mergepay.Data.Rounding
import Mergepay.Expense.Calculation
import Mergepay.Money.Codec

namespace Mergepay

open Money Text

abbrev ConversionRounding := Rounding.Mode

def rateScale : Nat := 10000000

namespace Breakdown

def parseRate (rate : String) : Result Int :=
  if ¬Decimal.accepts rate.toList then
    fail .invalidRate <| "Rate \"" ++ rate ++ "\" is not a valid non-negative decimal"
  else
    let (whole, fraction) := Decimal.split rate.toList
    if fraction.length > 7 then
      fail .invalidRate <| "Rate \"" ++ rate ++ "\" exceeds 7-decimal precision"
    else
      let scaled := Decimal.digits whole * rateScale + Decimal.digits (padEnd 7 '0' fraction)
      if scaled ≤ 0 then
        fail .invalidRate "Rate must be greater than zero"
      else
        .ok scaled

-- The division of integers truncates.
def divideRounded (numerator denominator : Int) (rounding : ConversionRounding) : Int :=
  let quotient := numerator.tdiv denominator
  let remainder := numerator.tmod denominator
  if remainder = 0 then
    quotient
  else match rounding with
    | .down   => quotient
    | .up     => quotient + 1
    | .halfUp => if remainder * 2 ≥ denominator then quotient + 1 else quotient

def convertStroops (stroops : Int) (rate : String) (rounding : ConversionRounding) : Result Int := do
  let scaledRate ← parseRate rate
  let negative := stroops < 0
  let magnitude := if negative then -stroops else stroops
  let converted := divideRounded (magnitude * scaledRate) rateScale rounding
  assertWithinStroopRange converted .amountOverflow
    "Converted amount exceeds the maximum representable Stellar value"
  return if negative then -converted else converted

def convertAmount (amount rate : String) (rounding : ConversionRounding) : Result String := do
  let stroops ← parseAmount amount "amount" true
  liftFailure <| fromStroops (← convertStroops stroops rate rounding)

def convertAllocations (amounts : List Int) (rate : Int) : Result (List Int) := do
  if amounts = [] then
    return []
  let targetTotal := (amounts.sum * rate).tdiv rateScale
  assertWithinStroopRange targetTotal .amountOverflow
    "Converted amount exceeds the maximum representable Stellar value"
  let converted := amounts.map fun amount => (amount * rate).tdiv rateScale
  let remainders := amounts.map fun amount => (amount * rate).tmod rateScale
  return Apportionment.distribute converted remainders (targetTotal - converted.sum)

-- What a rate of `r` makes of a number of stroops, before it is rounded.
def exactly (n r : Int) : ℚ :=
  (n * r : Int) / rateScale

variable {m n d r c : Int} {rate : String} {mode : ConversionRounding}

theorem parseRate_eq_ok : parseRate rate = .ok r ↔ IsAmount rate ∧ 0 < r ∧ r = Decimal.value 7 rate.toList := by
  have hv : Decimal.digits (Decimal.split rate.toList).1 * rateScale +
      Decimal.digits (padEnd 7 '0' (Decimal.split rate.toList).2) = Decimal.value 7 rate.toList := by
    rw [Decimal.value, Decimal.digits_dropZeros]
    rfl
  simp only [parseRate, isAmount_iff, hv]
  by_cases ha : Decimal.accepts rate.toList = true
  case neg => simp [ha, fail]
  case pos =>
    by_cases hl : (Decimal.split rate.toList).2.length ≤ 7
    case neg => simp [ha, hl, Nat.not_le.mp hl, fail]
    case pos =>
      by_cases hp : Decimal.value 7 rate.toList ≤ 0
      case pos =>
        simp only [ha, hl, hp, Nat.not_lt.mpr hl, fail, not_true, if_true, if_false, true_and, reduceCtorEq, false_iff]
        omega
      case neg =>
        simp only [ha, hl, hp, Nat.not_lt.mpr hl, not_true, if_false, true_and, Except.ok.injEq]
        omega

theorem scaledRate_eq (h : parseRate rate = .ok r) : 0 < r ∧ (r : ℚ) = 10 ^ 7 * denoted rate := by
  have ⟨ha, hp, hr⟩ := parseRate_eq_ok.mp h
  refine ⟨hp, ?_⟩
  rw [hr, ← ha.value_eq]
  norm_cast

theorem divideRounded_eq (hn : 0 ≤ n) (hd : 0 < d) :
    divideRounded n d mode = Rounding.magnitude mode (n / d : ℚ) := by
  have hd' : (0 : ℚ) < d := by exact_mod_cast hd
  have hm := Int.emod_nonneg n hd.ne'
  have hlt := Int.emod_lt_of_pos n hd
  have hx : (n / d : ℚ) = (n / d : Int) + (n % d : Int) / (d : ℚ) := by
    rw [← mul_right_inj' hd'.ne', mul_add, mul_div_cancel₀ _ hd'.ne', mul_div_cancel₀ _ hd'.ne']
    exact_mod_cast (Int.mul_ediv_add_emod n d).symm
  have hm' : (0 : ℚ) ≤ (n % d : Int) := by exact_mod_cast hm
  have hlt' : (n % d : Int) / (d : ℚ) < 1 := (div_lt_one hd').mpr (by exact_mod_cast hlt)
  simp only [divideRounded, Int.tdiv_eq_ediv_of_nonneg hn, Int.tmod_eq_emod_of_nonneg hn]
  by_cases hz : n % d = 0
  case pos =>
    rw [hz, Int.cast_zero, zero_div, add_zero] at hx
    rw [hx, Rounding.magnitude_intCast, if_pos hz]
  case neg =>
    have hp : (0 : ℚ) < (n % d : Int) / (d : ℚ) := div_pos (by exact_mod_cast (lt_of_le_of_ne hm (Ne.symm hz))) hd'
    rw [if_neg hz, hx]
    cases mode with
    | down => exact (Int.floor_eq_iff.mpr ⟨by linarith, by linarith⟩).symm
    | up => exact (Int.ceil_eq_iff.mpr ⟨by push_cast; linarith, by push_cast; linarith⟩).symm
    | halfUp =>
      have hh : n % d * 2 ≥ d ↔ 1 / 2 ≤ (n % d : Int) / (d : ℚ) := by
        rw [div_le_div_iff₀ two_pos hd', one_mul]
        exact_mod_cast Iff.rfl
      rw [Rounding.magnitude, eq_comm, round_eq_iff, Set.mem_Ico]
      simp only [hh]
      split
      case isTrue h  => exact ⟨by push_cast; linarith, by push_cast; linarith⟩
      case isFalse h => exact ⟨by linarith, by linarith [not_le.mp h]⟩

theorem exactly_mono (h : 0 < r) (hn : n ≤ m) : exactly n r ≤ exactly m r := by
  have hp : (0 : ℚ) < rateScale := by norm_num [rateScale]
  refine div_le_div_of_nonneg_right ?_ hp.le
  exact_mod_cast mul_le_mul_of_nonneg_right hn h.le

theorem exactly_neg : exactly (-n) r = -exactly n r := by
  rw [exactly, exactly, neg_mul, Int.cast_neg, neg_div]

theorem exactly_add : exactly (m + n) r = exactly m r + exactly n r := by
  rw [exactly, exactly, exactly, add_mul, Int.cast_add, add_div]

theorem exactly_nonneg (h : 0 < r) (hn : 0 ≤ n) : 0 ≤ exactly n r := by
  have h₀ := exactly_mono h hn
  rwa [exactly, zero_mul, Int.cast_zero, zero_div] at h₀

theorem mul_exactly : (10 ^ 7 : ℚ) * exactly n r = (n * r : Int) := by
  have hp : (rateScale : ℚ) = 10 ^ 7 := by norm_num [rateScale]
  rw [exactly, hp, mul_div_cancel₀ _ (by norm_num)]

theorem convertStroops_eq (h : parseRate rate = .ok r) : convertStroops n rate mode =
    if (Rounding.toInt mode (exactly n r)).natAbs > maxStroops
    then fail .amountOverflow "Converted amount exceeds the maximum representable Stellar value"
    else .ok (Rounding.toInt mode (exactly n r)) := by
  have hr := (scaledRate_eq h).1
  have hm : (if n < 0 then -n else n) = |n| := by
    split
    case isTrue hn  => rw [abs_of_neg hn]
    case isFalse hn => rw [abs_of_nonneg (not_lt.mp hn)]
  have hx : ((|n| * r : Int) / (rateScale : Int) : ℚ) = |exactly n r| := by
    have hs : |(rateScale : ℚ)| = rateScale := Nat.abs_cast _
    rw [exactly, abs_div, hs, ← Int.cast_abs, abs_mul, abs_of_pos hr]
    rfl
  have hd : divideRounded (|n| * r) rateScale mode = (Rounding.toInt mode (exactly n r)).natAbs := by
    rw [divideRounded_eq (mul_nonneg (abs_nonneg n) hr.le) (by decide), hx, Rounding.natAbs_toInt]
  have hs : (if n < 0 then -((Rounding.toInt mode (exactly n r)).natAbs : Int)
      else (Rounding.toInt mode (exactly n r)).natAbs) = Rounding.toInt mode (exactly n r) := by
    split
    case isTrue hn =>
      have hx : 0 ≤ -exactly n r := exactly_neg ▸ exactly_nonneg hr (by omega)
      have : Rounding.toInt mode (exactly n r) ≤ 0 := Rounding.toInt_nonpos (neg_nonneg.mp hx)
      omega
    case isFalse hn =>
      have : 0 ≤ Rounding.toInt mode (exactly n r) := Rounding.toInt_nonneg (exactly_nonneg hr (not_lt.mp hn))
      omega
  simp only [convertStroops, h, hm, hd, bind, Except.bind, assertWithinStroopRange, Int.natAbs_natCast, pure, Except.pure]
  rw [hs]
  by_cases hg : (Rounding.toInt mode (exactly n r)).natAbs > maxStroops
  case pos => simp only [hg, if_true, fail]
  case neg => simp only [hg, if_false]

theorem convertStroops_eq_ok (h : parseRate rate = .ok r) : convertStroops n rate mode = .ok c ↔
    (Rounding.toInt mode (exactly n r)).natAbs ≤ maxStroops ∧ c = Rounding.toInt mode (exactly n r) := by
  rw [convertStroops_eq h]
  split
  case isTrue hm  => simp [fail, hm]
  case isFalse hm => simp [not_lt.mp hm, eq_comm]

-- What becomes of amounts that are converted at a scaled rate of `r`.
def allotted (amounts : List Int) (r : Int) : List Int :=
  Apportionment.apportion (amounts.map (· * r)) rateScale

section Allotted

variable {l c : List Int} {r : Int}

theorem rateScale_pos : (0 : Int) < rateScale := by decide

theorem convertAllocations_eq_ok (hl : ∀ n ∈ l, 0 ≤ n) (hr : 0 ≤ r) : convertAllocations l r = .ok c ↔
    l.sum * r / rateScale ≤ maxStroops ∧ c = allotted l r := by
  have hs : 0 ≤ l.sum * r := mul_nonneg (List.sum_nonneg hl) hr
  have hw : l.map (fun n => (n * r).tdiv rateScale) = Apportionment.wholes (l.map (· * r)) rateScale := by
    rw [Apportionment.wholes, List.map_map]
    exact List.map_congr_left fun n hn => Int.tdiv_eq_ediv_of_nonneg (mul_nonneg (hl n hn) hr)
  have hm : l.map (fun n => (n * r).tmod rateScale) = Apportionment.remainders (l.map (· * r)) rateScale := by
    rw [Apportionment.remainders, List.map_map]
    exact List.map_congr_left fun n hn => Int.tmod_eq_emod_of_nonneg (mul_nonneg (hl n hn) hr)
  have ha : Apportionment.distribute (Apportionment.wholes (l.map (· * r)) rateScale)
      (Apportionment.remainders (l.map (· * r)) rateScale)
      (l.sum * r / rateScale - (Apportionment.wholes (l.map (· * r)) rateScale).sum) = allotted l r := by
    rw [allotted, Apportionment.apportion, Apportionment.residual, List.sum_map_mul_right, List.map_id']
  have hq : 0 ≤ l.sum * r / (rateScale : Int) := Int.ediv_nonneg hs rateScale_pos.le
  simp only [convertAllocations, hw, hm, Int.tdiv_eq_ediv_of_nonneg hs, ha]
  by_cases hn : l = []
  case pos =>
    subst hn
    simp [pure, Except.pure, allotted, Apportionment.apportion, Apportionment.residual, Apportionment.wholes,
      Apportionment.distribute, eq_comm]
  case neg =>
    by_cases hg : l.sum * r / rateScale ≤ maxStroops
    case pos =>
      have hg' : ¬(l.sum * r / rateScale : Int).natAbs > maxStroops := by omega
      simp [hn, hg, hg', assertWithinStroopRange, bind, Except.bind, pure, Except.pure, eq_comm]
    case neg =>
      have hg' : (l.sum * r / rateScale : Int).natAbs > maxStroops := by omega
      simp [hn, hg, hg', assertWithinStroopRange, bind, Except.bind, fail]

theorem length_allotted (l : List Int) (r : Int) : (allotted l r).length = l.length := by
  rw [allotted, Apportionment.length_apportion rateScale_pos, List.length_map]

theorem sum_allotted (l : List Int) (r : Int) : (allotted l r).sum = l.sum * r / rateScale := by
  rw [allotted, Apportionment.sum_apportion rateScale_pos, List.sum_map_mul_right, List.map_id']

theorem allotted_rateScale (l : List Int) : allotted l rateScale = l :=
  Apportionment.apportion_mul rateScale_pos l

theorem allotted_nonneg (hl : ∀ n ∈ l, 0 ≤ n) (hr : 0 ≤ r) : ∀ c ∈ allotted l r, 0 ≤ c := by
  refine Apportionment.apportion_nonneg rateScale_pos fun m hm => ?_
  have ⟨n, hn, hm⟩ := List.mem_map.mp hm
  exact hm ▸ mul_nonneg (hl n hn) hr

end Allotted

-- The error of an integer, on the scale of rates.
theorem error_eq : ((|10 ^ 7 * c - n * r| : Int) : ℚ) = 10 ^ 7 * |(c : ℚ) - exactly n r| := by
  have hs : |(10 : ℚ) ^ 7| = 10 ^ 7 := by norm_num
  rw [Int.cast_abs, Int.cast_sub, Int.cast_mul, ← mul_exactly]
  rw [← hs, ← abs_mul, mul_sub, hs]
  norm_num

theorem exactly_of_dvd (h : (10 : Int) ^ 7 ∣ n * r) : ∃ k : Int, n * r = 10 ^ 7 * k ∧ exactly n r = k := by
  have ⟨k, hk⟩ := h
  have hx := mul_exactly (n := n) (r := r)
  rw [hk] at hx
  push_cast at hx
  exact ⟨k, hk, mul_left_cancel₀ (by norm_num) hx⟩

theorem abs_exactly (h : 0 < r) : ((|n| * r : Int) / 10 ^ 7 : ℚ) = |exactly n r| := by
  have hs : |(rateScale : ℚ)| = 10 ^ 7 := by norm_num [rateScale]
  rw [exactly, abs_div, hs, ← Int.cast_abs, abs_mul, abs_of_pos h]

end Breakdown

open Breakdown

-- The laws of the conversion between assets, for each way of rounding. Wherever two sides are compared, both of them
-- are in the range of amounts.
theorem conversion_laws (rate : String) (r : Int) (h : parseRate rate = .ok r) (m n : Int)
    (mode : ConversionRounding) :
    0 < r ∧
    convertStroops (-n) rate mode = (- ·) <$> convertStroops n rate mode ∧
    (∀ a b, m ≤ n → convertStroops m rate mode = .ok a → convertStroops n rate mode = .ok b → a ≤ b) ∧
    (0 ≤ n →
      (∀ d k, convertStroops n rate .down = .ok d → convertStroops n rate .halfUp = .ok k → d ≤ k) ∧
      (∀ k u, convertStroops n rate .halfUp = .ok k → convertStroops n rate .up = .ok u → k ≤ u) ∧
      ∀ d u, convertStroops n rate .down = .ok d → convertStroops n rate .up = .ok u → u - d ≤ 1) ∧
    (∀ c, convertStroops n rate mode = .ok c →
      (10 ^ 7 ∣ n * r → 10 ^ 7 * c = n * r) ∧
      |10 ^ 7 * c - n * r| < 10 ^ 7 ∧ (mode = .halfUp → |10 ^ 7 * c - n * r| ≤ 5 * 10 ^ 6)) ∧
    (0 ≤ m → 0 ≤ n → ∀ a b c, convertStroops m rate .down = .ok a → convertStroops n rate .down = .ok b →
      convertStroops (m + n) rate .down = .ok c → a + b ≤ c ∧ c ≤ a + b + 1) ∧
    ((∃ message, convertStroops n rate mode = .error (.expense .amountOverflow message)) ↔
      maxStroops < Rounding.magnitude mode ((|n| * r : Int) / 10 ^ 7 : ℚ)) ∧
    (Rounding.magnitude mode ((|n| * r : Int) / 10 ^ 7 : ℚ) ≤ maxStroops →
      ∃ c, convertStroops n rate mode = .ok c) := by
  have hr := (scaledRate_eq h).1
  have hx : ((|n| * r : Int) / 10 ^ 7 : ℚ) = |exactly n r| := abs_exactly hr
  have hs : ((Rounding.toInt mode (exactly n r)).natAbs : Int) = Rounding.magnitude mode |exactly n r| :=
    Rounding.natAbs_toInt
  rw [hx, ← hs]
  refine ⟨hr, ?_, ?_, fun hn => ⟨?_, ?_, ?_⟩, ?_, ?_, ?_, ?_⟩
  case refine_1 =>
    rw [convertStroops_eq h, convertStroops_eq h, exactly_neg, Rounding.toInt_neg, Int.natAbs_neg]
    split <;> rfl
  case refine_2 =>
    intro a b hm ha hb
    rw [((convertStroops_eq_ok h).mp ha).2, ((convertStroops_eq_ok h).mp hb).2]
    exact Rounding.toInt_mono <| exactly_mono hr hm
  case refine_3 =>
    intro d k hd hk
    rw [((convertStroops_eq_ok h).mp hd).2, ((convertStroops_eq_ok h).mp hk).2]
    have hn := exactly_nonneg hr hn
    rw [Rounding.toInt_of_nonneg hn, Rounding.toInt_of_nonneg hn]
    exact Rounding.down_le _ _
  case refine_4 =>
    intro k u hk hu
    rw [((convertStroops_eq_ok h).mp hk).2, ((convertStroops_eq_ok h).mp hu).2]
    have hn := exactly_nonneg hr hn
    rw [Rounding.toInt_of_nonneg hn, Rounding.toInt_of_nonneg hn]
    exact Rounding.le_up _ _
  case refine_5 =>
    intro d u hd hu
    rw [((convertStroops_eq_ok h).mp hd).2, ((convertStroops_eq_ok h).mp hu).2]
    have hn := exactly_nonneg hr hn
    rw [Rounding.toInt_of_nonneg hn, Rounding.toInt_of_nonneg hn]
    have := Rounding.up_le_down_add_one (exactly n r)
    omega
  case refine_6 =>
    intro c hc
    obtain ⟨_, rfl⟩ := (convertStroops_eq_ok h).mp hc
    refine ⟨fun hd => ?_, ?_, ?_⟩
    case refine_1 =>
      have ⟨k, hk, hx⟩ := exactly_of_dvd hd
      rw [hx, Rounding.toInt_intCast, hk]
    case refine_2 =>
      have : |(Rounding.toInt mode (exactly n r) : ℚ) - exactly n r| < 1 := Rounding.abs_toInt_sub_lt
      have he := error_eq (c := Rounding.toInt mode (exactly n r)) (n := n) (r := r)
      have : ((|10 ^ 7 * Rounding.toInt mode (exactly n r) - n * r| : Int) : ℚ) < 10 ^ 7 := by linarith
      exact_mod_cast this
    case refine_3 =>
      rintro rfl
      have := Rounding.abs_toInt_halfUp_sub_le (x := exactly n r)
      have he := error_eq (c := Rounding.toInt .halfUp (exactly n r)) (n := n) (r := r)
      have : ((|10 ^ 7 * Rounding.toInt .halfUp (exactly n r) - n * r| : Int) : ℚ) ≤ 5 * 10 ^ 6 := by linarith
      exact_mod_cast this
  case refine_7 =>
    intro hm hn a b c ha hb hc
    rw [((convertStroops_eq_ok h).mp ha).2, ((convertStroops_eq_ok h).mp hb).2, ((convertStroops_eq_ok h).mp hc).2]
    have hm := exactly_nonneg hr hm
    have hn := exactly_nonneg hr hn
    rw [exactly_add, Rounding.toInt_of_nonneg hm, Rounding.toInt_of_nonneg hn,
      Rounding.toInt_of_nonneg (add_nonneg hm hn)]
    exact ⟨Rounding.down_add_le, Rounding.down_add_le_add_one⟩
  case refine_8 =>
    rw [convertStroops_eq h, Int.ofNat_lt]
    by_cases hm : maxStroops < (Rounding.toInt mode (exactly n r)).natAbs
    case pos =>
      simp only [hm, if_true, iff_true]
      exact ⟨_, rfl⟩
    case neg => simp only [hm, if_false, reduceCtorEq, exists_false]
  case refine_9 =>
    intro hm
    exact ⟨_, (convertStroops_eq_ok h).mpr ⟨by exact_mod_cast hm, rfl⟩⟩

theorem conversion_laws_sample :
    0 < (1000000 : Int) ∧ convertStroops (-(-15)) "0.1" .halfUp = (- ·) <$> convertStroops (-15) "0.1" .halfUp :=
  have h := conversion_laws "0.1" 1000000 (by decide +kernel) 7 (-15) .halfUp
  ⟨h.1, h.2.1⟩

end Mergepay
