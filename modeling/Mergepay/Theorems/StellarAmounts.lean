import Mergepay.Money.StellarAmount

namespace Mergepay

namespace Money

open Text

-- All functions that validate a text accept it if it is in the language, whatever notation of zero it is.
def AcceptsLanguage (t : String) : Prop :=
  let accepted := IsAmount t ∧ 10 ^ 7 * denoted t ∈ Set.Icc 0 (maxStroops : ℚ)
  ((∃ n, parseStellarAmount t = .ok n) ↔ accepted) ∧
  ((∃ c, formatStellarAmount (.text t) = .ok c) ↔ accepted) ∧
  ((∃ c, formatStellarAmountHuman (.text t) = .ok c) ↔ accepted) ∧
  (isValidStellarAmount (.text t) = true ↔ accepted)

def AddsAccepted (a b : StellarAmount) : Prop :=
  ∀ c, addStellarAmounts a b = .ok c ↔ ∃ x y, a.StandsFor x ∧ b.StandsFor y ∧ x + y ≤ maxStroops ∧
    IsCanonical c ∧ 10 ^ 7 * denoted c = (x + y : Int)

def SubtractsAccepted (a b : StellarAmount) : Prop :=
  ∀ c, subtractStellarAmounts a b = .ok c ↔ ∃ x y, a.StandsFor x ∧ b.StandsFor y ∧ y ≤ x ∧
    IsCanonical c ∧ 10 ^ 7 * denoted c = (x - y : Int)

def StellarAmount.IsAccepted (a : StellarAmount) : Prop :=
  ∃ n, a.StandsFor n

-- A notation of zero that is not among those that the functions know.
def IsUnknownZero (t : String) : Prop :=
  IsAmount t ∧ denoted t = 0 ∧ t ≠ "0" ∧ t ≠ "0.0" ∧ t ≠ "0.0000000"

section

variable {t c : String} {a b : StellarAmount} {n : Int}

theorem canonical_iff : IsCanonical c ∧ 10 ^ 7 * denoted c = n ↔ c = libFromStroops n := by
  have hn := denoted_libFromStroops n
  constructor
  case mp => exact fun ⟨hc, hd⟩ => hc.unique (isCanonical_libFromStroops n) (by linarith)
  case mpr =>
    rintro rfl
    exact ⟨isCanonical_libFromStroops n, hn⟩

theorem denoted_nonneg (h : IsAmount t) : 0 ≤ denoted t :=
  denoted_plain h.plain ▸ Text.Decimal.denoted_nonneg _

theorem formats_iff : (∃ c, formatStellarAmount (.text t) = .ok c) ↔ ∃ n, parseStellarAmount t = .ok n := by
  simp only [formatStellarAmount, Except.bind_eq_ok, Except.pure_eq_ok, formattedStroops_text]
  exact ⟨fun ⟨_, n, hn, _⟩ => ⟨n, hn⟩, fun ⟨n, hn⟩ => ⟨_, n, hn, rfl⟩⟩

theorem formatsHuman_iff : (∃ c, formatStellarAmountHuman (.text t) = .ok c) ↔ ∃ n, parseStellarAmount t = .ok n := by
  simp only [formatStellarAmountHuman, Except.bind_eq_ok, Except.pure_eq_ok, formattedStroops_text]
  exact ⟨fun ⟨_, n, hn, _⟩ => ⟨n, hn⟩, fun ⟨n, hn⟩ => ⟨_, n, hn, rfl⟩⟩

theorem parses_iff : (∃ n, parseStellarAmount t = .ok n) ↔
    (IsAmount t ∧ 10 ^ 7 * denoted t ∈ Set.Icc 0 (maxStroops : ℚ)) ∧ ¬IsUnknownZero t := by
  simp only [parseStellarAmount_eq_ok, standsFor_text]
  constructor
  case mp =>
    rintro ⟨n, ⟨ha, rfl, hm⟩, hz⟩
    rw [IsUnknownZero, ← ha.value_eq]
    refine ⟨⟨ha, Nat.cast_nonneg _, by exact_mod_cast hm⟩, fun ⟨_, hd, hn⟩ => ?_⟩
    have hv := ha.value_eq
    rw [hd, mul_zero] at hv
    have := hz (by exact_mod_cast hv)
    tauto
  case mpr =>
    intro ⟨⟨ha, _, hm⟩, hu⟩
    rw [← ha.value_eq] at hm
    refine ⟨_, ⟨ha, rfl, by exact_mod_cast hm⟩, fun hz => ?_⟩
    have hv := ha.value_eq
    have hz : Decimal.value 7 t.toList = 0 := by exact_mod_cast hz
    rw [hz, Nat.cast_zero, eq_comm, mul_eq_zero] at hv
    have hd : denoted t = 0 := hv.resolve_left (by norm_num)
    by_contra hn
    exact hu ⟨ha, hd, by tauto⟩

theorem acceptsLanguage_iff : AcceptsLanguage t ↔ ¬IsUnknownZero t := by
  have hz : IsUnknownZero t → IsAmount t ∧ 10 ^ 7 * denoted t ∈ Set.Icc 0 (maxStroops : ℚ) :=
    fun ⟨ha, hd, _⟩ => ⟨ha, by rw [hd, mul_zero]; exact ⟨le_rfl, Nat.cast_nonneg _⟩⟩
  rw [AcceptsLanguage, isValidStellarAmount, Except.toBool_eq_true, formats_iff, formatsHuman_iff, parses_iff]
  tauto

-- What is read as a positive amount by the services is accepted.
theorem parseStellarAmount_of_toStroops (h : toStroops t = .ok n) (hn : 0 < n) : parseStellarAmount t = .ok n := by
  rcases toStroops_eq_ok.mp h with ⟨_, _, _, _, rfl⟩ | ⟨ha, hm, rfl⟩
  case inl => omega
  case inr => exact parseStellarAmount_eq_ok.mpr ⟨standsFor_text.mpr ⟨ha, rfl, hm⟩, fun hz => absurd hz hn.ne'⟩

theorem parseStellarAmount_formatStellarAmount (h₀ : 0 ≤ n) (h : n ≤ maxStroops) :
    ∃ c, formatStellarAmount (.bigint n) = .ok c ∧ parseStellarAmount c = .ok n := by
  refine ⟨libStroopsToStellarAmount n, by rw [formatStellarAmount, formattedStroops_bigint h₀ h]; rfl, ?_⟩
  rcases h₀.eq_or_lt with rfl | hn
  case inl => decide +kernel
  case inr => exact parseStellarAmount_of_toStroops (toStroops_libStroopsToStellarAmount (by omega)) hn

theorem parseStellarAmount_formatStellarAmountHuman (h₀ : 0 ≤ n) (h : n ≤ maxStroops) :
    ∃ c, formatStellarAmountHuman (.bigint n) = .ok c ∧ parseStellarAmount c = .ok n := by
  refine ⟨libFromStroops n, by rw [formatStellarAmountHuman, formattedStroops_bigint h₀ h]; rfl, ?_⟩
  rcases h₀.eq_or_lt with rfl | hn
  case inl => decide +kernel
  case inr =>
    have hc := fromStroops_eq_ok (t := libFromStroops n).mpr ⟨by omega, rfl⟩
    exact parseStellarAmount_of_toStroops (toStroops_fromStroops hc) hn

-- An operation goes wrong if it succeeds on operands that are not accepted.
theorem operation_iff {R : Int → Int → Prop} {g : Int → Int → Int} :
    (∀ c, (∃ x y, a.Reads x ∧ b.Reads y ∧ R x y ∧ c = libFromStroops (g x y)) ↔
      ∃ x y, a.StandsFor x ∧ b.StandsFor y ∧ R x y ∧ c = libFromStroops (g x y)) ↔
    a.IsAccepted ∧ b.IsAccepted ∨ ∀ x y, a.Reads x → b.Reads y → ¬R x y := by
  constructor
  case mp =>
    intro h
    by_contra hn
    push Not at hn
    obtain ⟨hi, x, y, hx, hy, hr⟩ := hn
    have ⟨x, y, ha, hb, _⟩ := (h _).mp ⟨x, y, hx, hy, hr, rfl⟩
    exact hi ⟨x, ha⟩ ⟨y, hb⟩
  case mpr =>
    intro h c
    constructor
    case mp =>
      rintro ⟨x, y, hx, hy, hr, hc⟩
      rcases h with ⟨⟨x', ha⟩, ⟨y', hb⟩⟩ | h
      case inl =>
        cases hx.unique ha.reads
        cases hy.unique hb.reads
        exact ⟨x, y, ha, hb, hr, hc⟩
      case inr => exact absurd hr (h x y hx hy)
    case mpr =>
      rintro ⟨x, y, ha, hb, hr, hc⟩
      exact ⟨x, y, ha.reads, hb.reads, hr, hc⟩

end

end Money

open Money Text

-- The helpers for amounts on the ledger. Zero has more notations than they know, and arithmetic skips the validation.
theorem stellar_amounts_accepted (t : String) (n : Int) (a b : StellarAmount) :
    (AcceptsLanguage t ↔ ¬IsUnknownZero t) ∧
    (0 ≤ n → n ≤ maxStroops →
      (∃ c, formatStellarAmount (.bigint n) = .ok c ∧ parseStellarAmount c = .ok n) ∧
      ∃ c, formatStellarAmountHuman (.bigint n) = .ok c ∧ parseStellarAmount c = .ok n) ∧
    (AddsAccepted a b ↔ a.IsAccepted ∧ b.IsAccepted ∨
      ∀ x y, a.Reads x → b.Reads y → maxStroops < x + y) ∧
    (SubtractsAccepted a b ↔ a.IsAccepted ∧ b.IsAccepted ∨
      ∀ x y, a.Reads x → b.Reads y → x < y) := by
  refine ⟨acceptsLanguage_iff, fun h₀ h => ?_, ?_, ?_⟩
  case refine_1 =>
    exact ⟨parseStellarAmount_formatStellarAmount h₀ h, parseStellarAmount_formatStellarAmountHuman h₀ h⟩
  case refine_2 =>
    simp only [AddsAccepted, addStellarAmounts_eq_ok, canonical_iff, ← Int.not_le]
    exact operation_iff
  case refine_3 =>
    simp only [SubtractsAccepted, subtractStellarAmounts_eq_ok, canonical_iff, ← Int.not_le]
    exact operation_iff

-- Zero is rejected when it is written with another number of digits. An empty text is added as if it were zero.
theorem stellar_amounts_unknown :
    ¬AcceptsLanguage "0.00" ∧ ¬AddsAccepted (.text "1") (.text "") ∧ ¬SubtractsAccepted (.text "1") (.text "") := by
  have hn : ¬StellarAmount.IsAccepted (.text "") := fun ⟨_, h⟩ => absurd (isAmount_iff.mp h.1).1 (by decide)
  have ha : addStellarAmounts (.text "1") (.text "") = .ok "1" := by decide +kernel
  have hs : subtractStellarAmounts (.text "1") (.text "") = .ok "1" := by decide +kernel
  refine ⟨?_, ?_, ?_⟩
  case refine_1 =>
    have hz : IsAmount "0.00" := isAmount_iff.mpr ⟨by decide, by decide⟩
    have hv : Decimal.value 7 "0.00".toList = 0 := by decide
    have hd := hz.value_eq
    rw [hv, Nat.cast_zero, eq_comm, mul_eq_zero] at hd
    rw [acceptsLanguage_iff, not_not]
    exact ⟨hz, hd.resolve_left (by norm_num), by decide, by decide, by decide⟩
  case refine_2 =>
    intro h
    have ⟨_, y, _, hy, _⟩ := (h _).mp ha
    exact hn ⟨y, hy⟩
  case refine_3 =>
    intro h
    have ⟨_, y, _, hy, _⟩ := (h _).mp hs
    exact hn ⟨y, hy⟩

end Mergepay
