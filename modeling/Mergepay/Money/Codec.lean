import Mergepay.Money.Stroops
import Mergepay.Text.Integer

namespace Mergepay.Money

open Text

def toBigInt (l : List Char) : Except Failure Int :=
  match Integer.bigInt l with
  | some n => .ok n
  | none   => .error <| .error "SyntaxError" <| "Cannot convert " ++ .ofList l ++ " to a BigInt"

-- The conversions of the shared library. Nothing is validated when an amount is parsed.

def libToStroops (amount : String) : Except Failure Int := do
  let (whole, frac) := Decimal.firstParts amount.toList
  let paddedFrac := padEnd 7 '0' frac
  return (← toBigInt whole) * stroopsPerUnit + (← toBigInt paddedFrac)

def libFromStroops (stroops : Int) : String :=
  .ofList <| sign stroops ++ Decimal.render 7 stroops.natAbs

def libStroopsToStellarAmount (stroops : Int) : String :=
  let magnitude := stroops.natAbs
  let whole := Nat.toDigits 10 (magnitude / stroopsPerUnit)
  let frac := padStart 7 '0' (Nat.toDigits 10 (magnitude % stroopsPerUnit))
  .ofList <| sign stroops ++ whole ++ '.' :: frac

def libCompareAmounts (a b : String) : Except Failure Int := do
  let sa ← libToStroops a
  let sb ← libToStroops b
  return if sa < sb then -1 else if sa > sb then 1 else 0

def libAddAmounts (a b : String) : Except Failure String := do
  return libFromStroops ((← libToStroops a) + (← libToStroops b))

def libSubtractAmounts (a b : String) : Except Failure String := do
  let result := (← libToStroops a) - (← libToStroops b)
  if result < 0 then
    throw <| .plain "Amount cannot be negative"
  return libFromStroops result

-- What the service makes of them.

def stroopsToStellarAmount : Int → String :=
  libStroopsToStellarAmount

def addAmounts : String → String → Except Failure String :=
  libAddAmounts

def subtractAmounts : String → String → Except Failure String :=
  libSubtractAmounts

def compareAmounts : String → String → Except Failure Int :=
  libCompareAmounts

theorem fromStroops_eq_ok : fromStroops n = .ok t ↔ n.natAbs ≤ maxStroops ∧ t = libFromStroops n := by
  simp only [fromStroops, libFromStroops]
  split
  case isTrue h  => simp [h]
  case isFalse h => simp [Nat.not_lt.mp h, eq_comm]

-- Signed notations

-- The number that is denoted by an amount.
def denoted (t : String) : ℚ :=
  match t.toList with
  | '-' :: unsigned => -Decimal.denoted unsigned
  | unsigned        => Decimal.denoted unsigned

-- Without leading and trailing zeros, and without a sign if it is zero.
def IsCanonical (t : String) : Prop :=
  match t.toList with
  | '-' :: unsigned => Decimal.IsCanonical unsigned ∧ Decimal.denoted unsigned ≠ 0
  | unsigned        => Decimal.IsCanonical unsigned

section Signed

variable {t : String} {l : List Char} {n : Int}

theorem denoted_minus (h : t.toList = '-' :: l) : denoted t = -Decimal.denoted l := by
  simp [denoted, h]

theorem isCanonical_minus (h : t.toList = '-' :: l) :
    IsCanonical t ↔ Decimal.IsCanonical l ∧ Decimal.denoted l ≠ 0 := by
  simp [IsCanonical, h]

theorem denoted_plain (h : ∀ l, t.toList ≠ '-' :: l) : denoted t = Decimal.denoted t.toList := by
  unfold denoted
  split
  case h_1 l hl => exact absurd hl (h l)
  case h_2      => rfl

theorem isCanonical_plain (h : ∀ l, t.toList ≠ '-' :: l) : IsCanonical t ↔ Decimal.IsCanonical t.toList := by
  unfold IsCanonical
  split
  case h_1 l hl => exact absurd hl (h l)
  case h_2      => rfl

-- Either there is a sign, or there is none.
theorem signed_cases (t : String) : (∃ l, t.toList = '-' :: l) ∨ ∀ l, t.toList ≠ '-' :: l := by
  by_cases h : ∃ l, t.toList = '-' :: l
  case pos => exact .inl h
  case neg => exact .inr fun l hl => h ⟨l, hl⟩

theorem IsCanonical.unique {t₁ t₂ : String} (h₁ : IsCanonical t₁) (h₂ : IsCanonical t₂)
    (h : denoted t₁ = denoted t₂) : t₁ = t₂ := by
  have hn₁ := Decimal.denoted_nonneg t₁.toList
  have hn₂ := Decimal.denoted_nonneg t₂.toList
  rcases signed_cases t₁ with ⟨l₁, hs₁⟩ | hs₁ <;> rcases signed_cases t₂ with ⟨l₂, hs₂⟩ | hs₂
  case inl.inl =>
    rw [isCanonical_minus hs₁] at h₁
    rw [isCanonical_minus hs₂] at h₂
    rw [denoted_minus hs₁, denoted_minus hs₂, neg_inj] at h
    rw [← String.toList_inj, hs₁, hs₂, h₁.1.unique h₂.1 h]
  case inl.inr =>
    have hn := Decimal.denoted_nonneg l₁
    rw [isCanonical_minus hs₁] at h₁
    rw [denoted_minus hs₁, denoted_plain hs₂] at h
    exact absurd (by linarith) h₁.2
  case inr.inl =>
    have hn := Decimal.denoted_nonneg l₂
    rw [isCanonical_minus hs₂] at h₂
    rw [denoted_plain hs₁, denoted_minus hs₂] at h
    exact absurd (by linarith) h₂.2
  case inr.inr =>
    rw [isCanonical_plain hs₁] at h₁
    rw [isCanonical_plain hs₂] at h₂
    rw [denoted_plain hs₁, denoted_plain hs₂] at h
    exact String.toList_inj.mp <| h₁.unique h₂ h

theorem toList_libFromStroops_neg (h : n < 0) :
    (libFromStroops n).toList = '-' :: Decimal.render 7 n.natAbs := by
  simp [libFromStroops, sign, h]

theorem toList_libFromStroops (h : 0 ≤ n) : (libFromStroops n).toList = Decimal.render 7 n.natAbs := by
  simp [libFromStroops, sign, Int.not_lt.mpr h]

theorem plain_libFromStroops (h : 0 ≤ n) : ∀ l, (libFromStroops n).toList ≠ '-' :: l :=
  fun _ => toList_libFromStroops h ▸ render_ne_minus

theorem denoted_libFromStroops (n : Int) : 10 ^ 7 * denoted (libFromStroops n) = n := by
  have hr : (10 : ℚ) ^ 7 * Decimal.denoted (Decimal.render 7 n.natAbs) = n.natAbs :=
    Decimal.denoted_render (by decide) _
  by_cases h : n < 0
  case pos =>
    have hn : n = -(n.natAbs : Int) := by omega
    rw [denoted_minus (toList_libFromStroops_neg h), mul_neg, hr]
    exact_mod_cast hn.symm
  case neg =>
    have hn : n = (n.natAbs : Int) := by omega
    rw [denoted_plain (plain_libFromStroops (not_lt.mp h)), toList_libFromStroops (not_lt.mp h), hr]
    conv => rhs; rw [hn]
    rfl

theorem isCanonical_libFromStroops (n : Int) : IsCanonical (libFromStroops n) := by
  by_cases h : n < 0
  case pos =>
    refine (isCanonical_minus (toList_libFromStroops_neg h)).mpr ⟨Decimal.isCanonical_render .., fun hz => ?_⟩
    have hr : (10 : ℚ) ^ 7 * Decimal.denoted (Decimal.render 7 n.natAbs) = n.natAbs :=
      Decimal.denoted_render (by decide) _
    rw [hz, mul_zero] at hr
    have hr : n.natAbs = 0 := by exact_mod_cast hr.symm
    omega
  case neg =>
    have h := not_lt.mp h
    exact (isCanonical_plain (plain_libFromStroops h)).mpr <| toList_libFromStroops h ▸ Decimal.isCanonical_render ..

end Signed

-- Parsing without validation

section Parsing

variable {t : String} {l : List Char} {n : Int}

theorem toBigInt_digits (hn : l ≠ []) (hd : ∀ c ∈ l, c.isDigit = true) :
    toBigInt l = .ok (Decimal.digits l : Int) := by
  rw [toBigInt, Integer.bigInt_digits (Integer.isDigits_iff.mpr ⟨hn, hd⟩)]

theorem toBigInt_minus (hn : l ≠ []) (hd : ∀ c ∈ l, c.isDigit = true) :
    toBigInt ('-' :: l) = .ok (-(Decimal.digits l : Int)) := by
  rw [toBigInt, Integer.bigInt_minus (Integer.isDigits_iff.mpr ⟨hn, hd⟩)]

theorem toBigInt_padEnd (hd : ∀ c ∈ l, c.isDigit = true) :
    toBigInt (padEnd 7 '0' l) = .ok (Decimal.digits (padEnd 7 '0' l) : Int) := by
  refine toBigInt_digits (fun h => ?_) fun c hc => ?_
  case refine_1 =>
    have := Decimal.length_padEnd (k := 7) (c := '0') l
    simp [h] at this
  case refine_2 =>
    rcases Decimal.mem_padEnd hc with rfl | hc
    · rfl
    · exact hd c hc

-- On an accepted notation, the parser agrees with the validation.
theorem libToStroops_of_accepts (h : Decimal.accepts t.toList = true) :
    libToStroops t = .ok (Decimal.value 7 t.toList : Int) := by
  have ⟨whole, frac, hl, hn, hw, hf⟩ := Decimal.accepts_ok h
  have hs : Decimal.split t.toList = (whole, frac) := by rw [hl, Decimal.split_joined hw]
  rw [libToStroops, Decimal.firstParts_of_accepts h, hs]
  simp only [toBigInt_digits hn hw, toBigInt_padEnd hf, Decimal.value, hs, Decimal.digits_dropZeros]
  simp [bind, Except.bind, pure, Except.pure, stroopsPerUnit]

-- What a negative amount is taken for. The sign applies to the whole part only.
def misread (n : Int) : Int :=
  if n < 0 then n + 2 * (n.natAbs % stroopsPerUnit : Nat) else n

theorem libToStroops_libFromStroops (n : Int) : libToStroops (libFromStroops n) = .ok (misread n) := by
  by_cases h : n < 0
  case neg =>
    have h := not_lt.mp h
    have ha : Decimal.accepts (libFromStroops n).toList = true := toList_libFromStroops h ▸ Decimal.accepts_render
    have hv : Decimal.value 7 (libFromStroops n).toList = n.natAbs :=
      toList_libFromStroops h ▸ Decimal.value_render (by decide)
    rw [libToStroops_of_accepts ha, hv, misread, if_neg (not_lt.mpr h), Int.natAbs_of_nonneg h]
  case pos =>
    have hw : ∀ c ∈ Nat.toDigits 10 (n.natAbs / 10 ^ 7), c.isDigit = true := Decimal.isDigit_whole
    have hf : ∀ c ∈ Decimal.fraction 7 n.natAbs, c.isDigit = true := Decimal.isDigit_fraction
    have hs : Decimal.firstParts ('-' :: Decimal.render 7 n.natAbs) =
        ('-' :: Nat.toDigits 10 (n.natAbs / 10 ^ 7), Decimal.fraction 7 n.natAbs) := by
      rw [Decimal.firstParts, Decimal.split_cons (by decide), Decimal.split_render,
        Decimal.takeWhile_eq_self (Decimal.ne_dot hf)]
    have hd : Decimal.digits (padEnd 7 '0' (Decimal.fraction 7 n.natAbs)) = n.natAbs % 10 ^ 7 := by
      rw [Decimal.padEnd_fraction (by decide), Decimal.digits_padStart]
      exact Nat.ofDigitChars_ten_toDigits
    have hq : Decimal.digits (Nat.toDigits 10 (n.natAbs / 10 ^ 7)) = n.natAbs / 10 ^ 7 :=
      Nat.ofDigitChars_ten_toDigits
    rw [libToStroops, toList_libFromStroops_neg h, hs]
    simp only [toBigInt_minus Nat.toDigits_ne_nil hw, toBigInt_padEnd hf, hd, hq, bind, Except.bind, pure, Except.pure,
      misread, if_pos h, stroopsPerUnit]
    refine congrArg Except.ok ?_
    omega

end Parsing

-- Validation

-- Digits with an optional fraction of one to seven digits.
def IsAmount (t : String) : Prop :=
  ∃ whole frac, t.toList = Decimal.joined whole frac ∧ whole ≠ [] ∧ frac.length ≤ 7 ∧
    (∀ c ∈ whole, c.isDigit = true) ∧ ∀ c ∈ frac, c.isDigit = true

section Validation

variable {t m : String} {l : List Char} {n : Int} {p : Nat → Bool} {v : ValidatedAmount}

theorem isAmount_iff : IsAmount t ↔ Decimal.accepts t.toList = true ∧ (Decimal.split t.toList).2.length ≤ 7 := by
  constructor
  case mp =>
    intro ⟨whole, frac, ht, hn, hl, hw, hf⟩
    rw [ht, Decimal.split_joined hw]
    exact ⟨Decimal.accepts_joined hn hw hf, hl⟩
  case mpr =>
    intro ⟨ha, hl⟩
    have ⟨whole, frac, ht, hn, hw, hf⟩ := Decimal.accepts_ok ha
    rw [ht, Decimal.split_joined hw] at hl
    exact ⟨whole, frac, ht, hn, hl, hw, hf⟩

theorem IsAmount.plain (h : IsAmount t) : ∀ l, t.toList ≠ '-' :: l := by
  intro l hl
  have ha := (isAmount_iff.mp h).1
  rw [hl] at ha
  exact absurd ha (by simp [Decimal.accepts])

theorem IsAmount.value_eq (h : IsAmount t) : (Decimal.value 7 t.toList : ℚ) = 10 ^ 7 * denoted t := by
  rw [denoted_plain h.plain, Decimal.value_eq (isAmount_iff.mp h).2]

theorem IsAmount.libToStroops (h : IsAmount t) : libToStroops t = .ok (Decimal.value 7 t.toList : Int) :=
  libToStroops_of_accepts (isAmount_iff.mp h).1

theorem IsAmount.canonical_eq (h : IsAmount t) :
    .ofList (Decimal.canonical 7 t.toList) = libFromStroops (Decimal.value 7 t.toList : Nat) := by
  rw [Decimal.canonical_eq_render (isAmount_iff.mp h).1 (by decide), libFromStroops, sign, if_neg (by omega),
    List.nil_append, Int.natAbs_natCast]

theorem validateDecimal_eq_ok_iff : validateDecimal p m t = .ok v ↔
    IsAmount t ∧ p (Decimal.value 7 t.toList) = false ∧ Decimal.value 7 t.toList ≤ maxStroops ∧
    v = ⟨libFromStroops (Decimal.value 7 t.toList : Nat), Decimal.value 7 t.toList⟩ := by
  rw [validateDecimal_eq_ok, isAmount_iff, and_assoc]
  refine and_congr_right fun ha => and_congr_right fun hl => ?_
  rw [(isAmount_iff.mpr ⟨ha, hl⟩).canonical_eq]

-- Which texts are read as a signed amount.
theorem toStroops_eq_ok : toStroops t = .ok n ↔
    (∃ l, t.toList = '-' :: l ∧ IsAmount (.ofList l) ∧ Decimal.value 7 l ≤ maxStroops ∧ n = -(Decimal.value 7 l : Int)) ∨
    IsAmount t ∧ Decimal.value 7 t.toList ≤ maxStroops ∧ n = Decimal.value 7 t.toList := by
  have accepted (t : String) (v : ValidatedAmount) : validateUnsignedAmountAllowZero t = .ok v ↔ _ :=
    validateDecimal_eq_ok_iff
  rcases signed_cases t with ⟨l, hl⟩ | hl
  case inl =>
    have hn : ¬IsAmount t := fun h => h.plain l hl
    have he : (∃ l', t.toList = '-' :: l' ∧ IsAmount (.ofList l') ∧ Decimal.value 7 l' ≤ maxStroops ∧
        n = -(Decimal.value 7 l' : Int)) ↔
        IsAmount (.ofList l) ∧ Decimal.value 7 l ≤ maxStroops ∧ n = -(Decimal.value 7 l : Int) := by
      simp [hl]
    rw [he, or_iff_left fun h => hn h.1]
    simp only [toStroops, hl]
    cases h : validateUnsignedAmountAllowZero (.ofList l) with
    | ok v =>
      obtain ⟨ha, _, hm, hv⟩ := (accepted _ _).mp h
      rw [String.toList_ofList] at hm hv
      simp [ha, hm, hv, eq_comm]
    | error e =>
      refine iff_of_false (by simp) ?_
      rintro ⟨ha, hm, _⟩
      rw [← String.toList_ofList (l := l)] at hm
      cases h.symm.trans <| (accepted _ _).mpr ⟨ha, by simp, hm, rfl⟩
  case inr =>
    have he : ¬∃ l', t.toList = '-' :: l' ∧ IsAmount (.ofList l') ∧ Decimal.value 7 l' ≤ maxStroops ∧
        n = -(Decimal.value 7 l' : Int) := by
      rintro ⟨l', h, _⟩
      exact hl l' h
    rw [or_iff_right he]
    unfold toStroops
    split
    case h_1 l' h => exact absurd h (hl l')
    case h_2 =>
      cases h : validateUnsignedAmountAllowZero t with
      | ok v =>
        obtain ⟨ha, _, hm, hv⟩ := (accepted _ _).mp h
        simp [ha, hm, hv, eq_comm]
      | error e =>
        refine iff_of_false (by simp) ?_
        rintro ⟨ha, hm, _⟩
        cases h.symm.trans <| (accepted _ _).mpr ⟨ha, by simp, hm, rfl⟩

-- An amount is read as what it denotes.
theorem toStroops_denoted (h : toStroops t = .ok n) : (n : ℚ) = 10 ^ 7 * denoted t ∧ n.natAbs ≤ maxStroops := by
  rcases toStroops_eq_ok.mp h with ⟨l, hl, ha, hm, rfl⟩ | ⟨ha, hm, rfl⟩
  case inl =>
    have hv : (Decimal.value 7 l : ℚ) = 10 ^ 7 * Decimal.denoted l :=
      Decimal.value_eq <| String.toList_ofList (l := l) ▸ (isAmount_iff.mp ha).2
    refine ⟨?_, by omega⟩
    rw [denoted_minus hl, mul_neg, ← hv]
    push_cast
    rfl
  case inr =>
    refine ⟨?_, by omega⟩
    rw [← ha.value_eq]
    rfl

-- All seven decimals are written.
theorem toStroops_libStroopsToStellarAmount (h : n.natAbs ≤ maxStroops) :
    toStroops (libStroopsToStellarAmount n) = .ok n := by
  have hlt : n.natAbs % stroopsPerUnit < 10 ^ 7 := Nat.mod_lt _ (by decide)
  have hlen : (padStart 7 '0' (Nat.toDigits 10 (n.natAbs % stroopsPerUnit))).length = 7 :=
    Decimal.length_padStart <| (Nat.length_toDigits_le_iff (by decide) (by decide)).mpr hlt
  have hw : ∀ c ∈ Nat.toDigits 10 (n.natAbs / stroopsPerUnit), c.isDigit = true := fun c => Decimal.isDigit_toDigits
  have hf : ∀ c ∈ padStart 7 '0' (Nat.toDigits 10 (n.natAbs % stroopsPerUnit)), c.isDigit = true := fun c hc => by
    rcases Decimal.mem_padStart hc with rfl | hc
    · rfl
    · exact Decimal.isDigit_toDigits hc
  obtain ⟨l, hl⟩ : ∃ l, l = Decimal.joined (Nat.toDigits 10 (n.natAbs / stroopsPerUnit))
    (padStart 7 '0' (Nat.toDigits 10 (n.natAbs % stroopsPerUnit))) := ⟨_, rfl⟩
  have ht : (libStroopsToStellarAmount n).toList = sign n ++ l := by
    have hn : padStart 7 '0' (Nat.toDigits 10 (n.natAbs % stroopsPerUnit)) ≠ [] := fun he => by simp [he] at hlen
    simp [libStroopsToStellarAmount, hl, Decimal.joined, hn]
  have ha : IsAmount (.ofList l) :=
    ⟨_, _, (String.toList_ofList).trans hl, Nat.toDigits_ne_nil, hlen.le, hw, hf⟩
  have hv : Decimal.value 7 l = n.natAbs := by
    have hp : padEnd 7 '0' (padStart 7 '0' (Nat.toDigits 10 (n.natAbs % stroopsPerUnit))) =
        padStart 7 '0' (Nat.toDigits 10 (n.natAbs % stroopsPerUnit)) := by
      rw [padEnd, List.take_left' hlen]
    rw [Decimal.value, hl, Decimal.split_joined hw, Decimal.digits_dropZeros, hp, Decimal.digits_padStart]
    rw [Decimal.digits, Decimal.digits, Nat.ofDigitChars_ten_toDigits, Nat.ofDigitChars_ten_toDigits]
    exact Nat.div_add_mod' ..
  refine toStroops_eq_ok.mpr ?_
  by_cases hn : n < 0
  case pos =>
    refine .inl ⟨l, ht.trans (by simp [sign, hn]), ha, hv ▸ h, ?_⟩
    omega
  case neg =>
    have ht : (libStroopsToStellarAmount n).toList = l := ht.trans (by simp [sign, hn])
    have ht' : libStroopsToStellarAmount n = .ofList l := String.toList_inj.mp (ht.trans String.toList_ofList.symm)
    refine .inr ⟨ht' ▸ ha, ht ▸ hv ▸ h, ?_⟩
    rw [ht, hv]
    omega

end Validation

end Mergepay.Money
