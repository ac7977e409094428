import Mergepay.Expense.Split
import Mergepay.Money.Codec

namespace Mergepay

open Money Text

-- The conversions between amounts and stroops. An amount is read as what it denotes, and written in the only
-- notation without needless zeros and signs. All parsers agree on validated amounts.
theorem amounts_exact (t : String) (n : Int) :
    (n.natAbs ≤ maxStroops → (∃ c, fromStroops n = .ok c ∧ toStroops c = .ok n) ∧
      toStroops (stroopsToStellarAmount n) = .ok n) ∧
    (toStroops t = .ok n → (n : ℚ) = 10 ^ 7 * denoted t ∧ ∃ c, fromStroops n = .ok c ∧ IsCanonical c ∧
      ∀ c', IsCanonical c' → denoted c' = denoted t → c' = c) ∧
    ((∃ v, validateAmount t = .ok v) ↔
      IsAmount t ∧ 0 < 10 ^ 7 * denoted t ∧ 10 ^ 7 * denoted t ≤ (maxStroops : ℚ)) ∧
    ∀ v, validateAmount t = .ok v → libToStroops t = .ok (v.stroops : Int) ∧ toStroops t = .ok (v.stroops : Int) ∧
      amountToStroops t = v.stroops ∧ fromStroops v.stroops = .ok v.decimal := by
  refine ⟨fun hn => ?_, fun h => ?_, ?_, fun v h => ?_⟩
  case refine_1 =>
    have hc := fromStroops_eq_ok.mpr ⟨hn, rfl⟩
    exact ⟨⟨_, hc, toStroops_fromStroops hc⟩, toStroops_libStroopsToStellarAmount hn⟩
  case refine_2 =>
    have ⟨hd, hn⟩ := toStroops_denoted h
    refine ⟨hd, _, fromStroops_eq_ok.mpr ⟨hn, rfl⟩, isCanonical_libFromStroops n, fun c hc he => ?_⟩
    refine hc.unique (isCanonical_libFromStroops n) ?_
    have := denoted_libFromStroops n
    rw [he]
    linarith
  case refine_3 =>
    simp only [validateAmount, validateDecimal_eq_ok_iff]
    constructor
    case mp =>
      intro ⟨_, ha, hp, hm, _⟩
      rw [← ha.value_eq]
      have hp : 0 < Decimal.value 7 t.toList := by simpa [Nat.pos_iff_ne_zero] using hp
      exact ⟨ha, by exact_mod_cast hp, by exact_mod_cast hm⟩
    case mpr =>
      intro ⟨ha, hp, hm⟩
      rw [← ha.value_eq] at hp hm
      have hp : 0 < Decimal.value 7 t.toList := by exact_mod_cast hp
      exact ⟨_, ha, decide_eq_false (by omega), by exact_mod_cast hm, rfl⟩
  case refine_4 =>
    have ⟨ha, _, hm, hv⟩ := validateDecimal_eq_ok_iff.mp h
    have hs : v.stroops = Decimal.value 7 t.toList := congrArg ValidatedAmount.stroops hv
    refine ⟨hs ▸ ha.libToStroops, (toStroops_of_validateAmount h).2, ?_, ?_⟩
    case refine_1 => rw [hs, amountToStroops, Decimal.value, Decimal.digits_dropZeros]; rfl
    case refine_2 => exact fromStroops_eq_ok.mpr ⟨hs ▸ hm, hv ▸ rfl⟩

end Mergepay
