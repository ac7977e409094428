import Mergepay.Money.Codec

namespace Mergepay

namespace Money

-- The part of a negative number of stroops which is written behind the dot.
def negativeFraction (n : Int) : Nat :=
  if n < 0 then n.natAbs % stroopsPerUnit else 0

-- The order of two numbers of stroops survives when the fractions of negative amounts are added.
def InOrder (n m : Int) : Prop :=
  (n < 0 → m < 0 → n.natAbs / stroopsPerUnit = m.natAbs / stroopsPerUnit → n = m) ∧
  (n < 0 → 0 ≤ m → n.natAbs < stroopsPerUnit → -n < m) ∧
  (m < 0 → 0 ≤ n → m.natAbs < stroopsPerUnit → -m < n)

def ComparesExactly (a b : String) : Prop :=
  ∃ x y, toStroops a = .ok x ∧ toStroops b = .ok y ∧ compareAmounts a b = .ok (x - y).sign

def AddsExactly (a b : String) : Prop :=
  ∃ x y, toStroops a = .ok x ∧ toStroops b = .ok y ∧ ∀ c, fromStroops (x + y) = .ok c → addAmounts a b = .ok c

-- A difference need not be in the range of `fromStroops`, but is always written in the same way.
def SubtractsExactly (a b : String) : Prop :=
  ∃ x y, toStroops a = .ok x ∧ toStroops b = .ok y ∧ ((∃ e, subtractAmounts a b = .error e) ↔ x < y) ∧
    (y ≤ x → subtractAmounts a b = .ok (libFromStroops (x - y)))

section Signed

variable {n m : Int}

theorem misread_eq (n : Int) : misread n = n + 2 * negativeFraction n := by
  unfold misread negativeFraction
  split <;> simp

theorem libFromStroops_inj : libFromStroops n = libFromStroops m ↔ n = m := by
  refine ⟨fun h => ?_, congrArg _⟩
  have hn := denoted_libFromStroops n
  rw [h, denoted_libFromStroops] at hn
  exact_mod_cast hn.symm

theorem sign_eq_sign : n.sign = m.sign ↔ (n < 0 ↔ m < 0) ∧ (0 < n ↔ 0 < m) := by
  rcases lt_trichotomy n 0 with hn | hn | hn <;> rcases lt_trichotomy m 0 with hm | hm | hm <;>
    simp [hn, hm, Int.sign_eq_neg_one_of_neg, Int.sign_eq_one_of_pos] <;> omega

-- Only numbers with the same whole part are compared by their fractions.
theorem misread_sub_sign : (misread n - misread m).sign = (n - m).sign ↔ InOrder n m := by
  rw [sign_eq_sign, misread_eq, misread_eq, negativeFraction, negativeFraction, InOrder]
  simp only [stroopsPerUnit]
  rcases n with n | n <;> rcases m with m | m
  all_goals simp only [Int.ofNat_eq_natCast, Int.natAbs_natCast, Int.natAbs_negSucc]
  case ofNat.ofNat =>
    have h (k : Nat) : ¬(k : Int) < 0 := by omega
    simp [h]
  case ofNat.negSucc =>
    simp
    omega
  case negSucc.ofNat =>
    simp
    omega
  case negSucc.negSucc =>
    simp
    omega

theorem compareAmounts_libFromStroops :
    compareAmounts (libFromStroops n) (libFromStroops m) = .ok (misread n - misread m).sign := by
  simp only [compareAmounts, libCompareAmounts, libToStroops_libFromStroops, bind, Except.bind, pure, Except.pure]
  refine congrArg Except.ok ?_
  rcases lt_trichotomy (misread n) (misread m) with h | h | h
  · rw [if_pos h, Int.sign_eq_neg_one_of_neg (by omega)]
  · simp [h]
  · rw [if_neg (by omega), if_pos h, Int.sign_eq_one_of_pos (by omega)]

theorem addAmounts_libFromStroops :
    addAmounts (libFromStroops n) (libFromStroops m) = .ok (libFromStroops (misread n + misread m)) := by
  simp only [addAmounts, libAddAmounts, libToStroops_libFromStroops, bind, Except.bind, pure, Except.pure]

theorem subtractAmounts_libFromStroops :
    subtractAmounts (libFromStroops n) (libFromStroops m) =
      if misread n < misread m
      then .error (.plain "Amount cannot be negative")
      else .ok (libFromStroops (misread n - misread m)) := by
  simp only [subtractAmounts, libSubtractAmounts, libToStroops_libFromStroops, bind, Except.bind, pure, Except.pure]
  by_cases h : misread n < misread m
  case pos => simp [h, throw, throwThe, MonadExceptOf.throw, Int.sub_neg_of_lt h]
  case neg =>
    have h' : ¬misread n - misread m < 0 := by omega
    simp [h, h']

end Signed

end Money

open Money

-- Amounts are added and compared by a parser that applies a sign to the whole part only. It goes wrong with the
-- fractions of negative amounts.
theorem signed_amounts_exact (n m : Int) (a b : String) (ha : fromStroops n = .ok a) (hb : fromStroops m = .ok b) :
    (ComparesExactly a b ↔ InOrder n m) ∧
    (AddsExactly a b ↔ ((n + m).natAbs ≤ maxStroops → negativeFraction n = 0 ∧ negativeFraction m = 0)) ∧
    (SubtractsExactly a b ↔ (n < m → InOrder n m) ∧ (m ≤ n → negativeFraction n = negativeFraction m)) := by
  have hx := toStroops_fromStroops ha
  have hy := toStroops_fromStroops hb
  obtain ⟨_, rfl⟩ := fromStroops_eq_ok.mp ha
  obtain ⟨_, rfl⟩ := fromStroops_eq_ok.mp hb
  have hn := misread_eq n
  have hm := misread_eq m
  refine ⟨?_, ?_, ?_⟩
  case refine_1 =>
    rw [← misread_sub_sign]
    simp [ComparesExactly, hx, hy, compareAmounts_libFromStroops]
  case refine_2 =>
    have he : misread n + misread m = n + m ↔ negativeFraction n = 0 ∧ negativeFraction m = 0 := by omega
    simp [AddsExactly, hx, hy, addAmounts_libFromStroops, fromStroops_eq_ok, libFromStroops_inj, he]
  case refine_3 =>
    have he : misread n - misread m = n - m ↔ negativeFraction n = negativeFraction m := by omega
    have ho : n < m → (misread n < misread m ↔ InOrder n m) := fun h => by
      rw [← misread_sub_sign, Int.sign_eq_neg_one_of_neg (Int.sub_neg_of_lt h), Int.sign_eq_neg_one_iff_neg]
      omega
    simp only [SubtractsExactly, hx, hy, subtractAmounts_libFromStroops, ← he]
    by_cases h : n < m
    case pos =>
      rw [← ho h]
      by_cases hl : misread n < misread m <;> simp [h, hl]
    case neg =>
      by_cases hl : misread n < misread m
      case pos =>
        have hd : misread n - misread m ≠ n - m := by omega
        simp [h, hl, hd, Int.not_lt.mp h]
      case neg => simp [h, hl, Int.not_lt.mp h, libFromStroops_inj]

-- The parser takes "-0.5" for a half.
theorem signed_amounts_misread :
    fromStroops (-5000000) = .ok "-0.5" ∧ fromStroops 3000000 = .ok "0.3" ∧
    ¬ComparesExactly "-0.5" "0.3" ∧ ¬AddsExactly "-0.5" "0.3" ∧ ¬SubtractsExactly "-0.5" "0.3" := by
  have hx : toStroops "-0.5" = .ok (-5000000) := by decide +kernel
  have hy : toStroops "0.3" = .ok 3000000 := by decide +kernel
  have hf : fromStroops (-5000000 + 3000000) = .ok "-0.2" := by decide +kernel
  have hc : compareAmounts "-0.5" "0.3" = .ok 1 := by decide +kernel
  have ha : addAmounts "-0.5" "0.3" = .ok "0.8" := by decide +kernel
  have hs : subtractAmounts "-0.5" "0.3" = .ok "0.2" := by decide +kernel
  refine ⟨by decide +kernel, by decide +kernel, ?_, ?_, ?_⟩
  case refine_1 =>
    rintro ⟨x, y, hx', hy', h⟩
    cases hx.symm.trans hx'
    cases hy.symm.trans hy'
    exact absurd (hc.symm.trans h) (by decide)
  case refine_2 =>
    rintro ⟨x, y, hx', hy', h⟩
    cases hx.symm.trans hx'
    cases hy.symm.trans hy'
    exact absurd (ha.symm.trans (h _ hf)) (by decide)
  case refine_3 =>
    rintro ⟨x, y, hx', hy', h, _⟩
    cases hx.symm.trans hx'
    cases hy.symm.trans hy'
    have ⟨_, he⟩ := h.mpr (by decide)
    cases hs.symm.trans he

theorem signed_amounts_sample :
    (ComparesExactly "-2" "-1.5" ↔ InOrder (-20000000) (-15000000)) ∧
    (AddsExactly "-2" "-1.5" ↔ (35000000 ≤ maxStroops →
      negativeFraction (-20000000) = 0 ∧ negativeFraction (-15000000) = 0)) ∧
    (SubtractsExactly "-2" "-1.5" ↔ ((-20000000 : Int) < -15000000 → InOrder (-20000000) (-15000000)) ∧
      ((-15000000 : Int) ≤ -20000000 → negativeFraction (-20000000) = negativeFraction (-15000000))) :=
  signed_amounts_exact _ _ _ _ (by decide +kernel) (by decide +kernel)

end Mergepay
