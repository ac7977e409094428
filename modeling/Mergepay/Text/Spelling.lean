import Mathlib.Algebra.Order.Field.Basic
import Mathlib.Algebra.Order.Field.Rat
import Mathlib.Tactic.FieldSimp
import Mathlib.Tactic.IntervalCases
import Mathlib.Tactic.Ring
import Mergepay.Text.Decimal

-- Every number has a single canonical notation
namespace Text.Decimal

-- The number that is denoted by an unsigned notation.
def denoted (l : List Char) : ℚ :=
  digits (split l).1 + digits (split l).2 / 10 ^ (split l).2.length

-- Without leading and trailing zeros.
structure IsCanonical (l : List Char) : Prop where
  accepts  : accepts l = true
  leading  : (split l).1 = ['0'] ∨ (split l).1.head? ≠ some '0'
  trailing : (split l).2.getLast? ≠ some '0'

-- The parts in front of the first dot, and between the first and the second one.

def firstParts (l : List Char) : List Char × List Char :=
  ((split l).1, (split l).2.takeWhile (· ≠ '.'))

inductive Parts : List Char → List Char → List Char → Prop
  | whole    (hw : '.' ∉ w)                : Parts w w []
  | fraction (hw : '.' ∉ w) (hf : '.' ∉ f) : Parts (w ++ '.' :: f) w f
  | further  (hw : '.' ∉ w) (hf : '.' ∉ f) : Parts (w ++ '.' :: (f ++ '.' :: rest)) w f

section Digits

variable {l l₁ l₂ : List Char} {c : Char}

theorem digits_concat (l : List Char) (c : Char) : digits (l ++ [c]) = 10 * digits l + (c.toNat - '0'.toNat) := by
  rw [digits, Nat.ofDigitChars_append, Nat.ofDigitChars_cons, Nat.ofDigitChars_nil]
  rfl

theorem toNat_of_isDigit (h : c.isDigit = true) : '0'.toNat ≤ c.toNat ∧ c.toNat ≤ '0'.toNat + 9 := by
  simp only [Char.isDigit, Bool.and_eq_true, decide_eq_true_eq] at h
  exact h

theorem digits_padEnd (h : l.length ≤ k) : digits (padEnd k '0' l) = digits l * 10 ^ (k - l.length) := by
  rw [padEnd, List.take_append, List.take_of_length_le h, List.take_replicate, Nat.min_eq_left (Nat.sub_le ..)]
  rw [digits, Nat.ofDigitChars_append, Nat.ofDigitChars_replicate_zero, Nat.mul_comm]
  rfl

theorem digits_lt (h : ∀ c ∈ l, c.isDigit = true) : digits l < 10 ^ l.length := by
  induction l using List.reverseRecOn with
  | nil => decide
  | append_singleton l c hi =>
    have ⟨hl, hc⟩ := List.forall_mem_append.mp h
    have hc := toNat_of_isDigit (hc c (by simp))
    have hi := hi hl
    rw [digits_concat, List.length_append, List.length_singleton, Nat.pow_succ]
    omega

-- Digits of a fixed length are determined by their value.
theorem digits_inj (h₁ : ∀ c ∈ l₁, c.isDigit = true) (h₂ : ∀ c ∈ l₂, c.isDigit = true)
    (hl : l₁.length = l₂.length) (hd : digits l₁ = digits l₂) : l₁ = l₂ := by
  induction l₁ using List.reverseRecOn generalizing l₂ with
  | nil => exact (List.length_eq_zero_iff.mp hl.symm).symm
  | append_singleton l₁ c hi =>
    have hn : l₂ ≠ [] := by
      rintro rfl
      simp at hl
    obtain ⟨l₂, d, rfl⟩ := (List.eq_nil_or_concat' l₂).resolve_left hn
    have ⟨h₁, hc⟩ := List.forall_mem_append.mp h₁
    have ⟨h₂, hd'⟩ := List.forall_mem_append.mp h₂
    have hc := toNat_of_isDigit (hc c (by simp))
    have hd' := toNat_of_isDigit (hd' d (by simp))
    rw [digits_concat, digits_concat] at hd
    rw [List.length_append, List.length_append] at hl
    have hcd : c = d := Char.toNat_inj.mp (by omega)
    rw [hi h₁ h₂ (by simpa using hl) (by omega), hcd]

theorem digitChar_of_isDigit (h : c.isDigit = true) : (c.toNat - '0'.toNat).digitChar = c := by
  have ⟨h₀, h₁⟩ := toNat_of_isDigit h
  have ⟨n, hn⟩ : ∃ n, c.toNat = '0'.toNat + n := ⟨c.toNat - '0'.toNat, by omega⟩
  have hlt : n < 10 := by omega
  refine Char.toNat_inj.mp ?_
  rw [hn, Nat.add_sub_cancel_left]
  interval_cases n <;> rfl

-- Digits without leading zeros are those of their value.
theorem toDigits_digits (hn : l ≠ []) (hd : ∀ c ∈ l, c.isDigit = true)
    (hl : l = ['0'] ∨ l.head? ≠ some '0') : Nat.toDigits 10 (digits l) = l := by
  induction l using List.reverseRecOn with
  | nil => contradiction
  | append_singleton l c hi =>
    have ⟨hd, hc⟩ := List.forall_mem_append.mp hd
    have hc := hc c (by simp)
    have hlt := toNat_of_isDigit hc
    have hlast : Nat.toDigits 10 (c.toNat - '0'.toNat) = [c] := by
      rw [Nat.toDigits_of_lt_base (by omega), digitChar_of_isDigit hc]
    by_cases hl' : l = []
    case pos =>
      subst hl'
      rw [digits_concat]
      simpa [digits] using hlast
    case neg =>
      have hh : l.head? ≠ some '0' := by
        rcases hl with hl | hl
        case inl => simp [List.append_eq_singleton_iff, hl'] at hl
        case inr => rwa [List.head?_append_of_ne_nil _ hl'] at hl
      have hi := hi hl' hd (.inr hh)
      have hpos : 0 < digits l := by
        refine Nat.pos_of_ne_zero fun hz => hh ?_
        rw [← hi, hz]
        rfl
      rw [digits_concat, ← Nat.toDigits_append_toDigits (by decide) hpos (by omega), hi, hlast]

theorem padStart_toDigits (hd : ∀ c ∈ l, c.isDigit = true) (hl : 0 < l.length) :
    padStart l.length '0' (Nat.toDigits 10 (digits l)) = l := by
  have hle := (Nat.length_toDigits_le_iff (by decide) hl).mpr (digits_lt hd)
  refine digits_inj (fun c hc => ?_) hd (length_padStart hle) ?_
  case refine_1 =>
    rcases mem_padStart hc with rfl | hc
    · rfl
    · exact isDigit_toDigits hc
  case refine_2 =>
    rw [digits_padStart]
    exact Nat.ofDigitChars_ten_toDigits

theorem dropZeros_leading (h : ∀ c ∈ l, c.isDigit = true) :
    dropZeros l = ['0'] ∨ (dropZeros l).head? ≠ some '0' := by
  induction l using dropZeros.induct with
  | case1 c tl hc hi =>
    rw [dropZeros, if_pos hc]
    exact hi fun c hc => h c (List.mem_cons_of_mem _ hc)
  | case2 c tl hc => exact absurd (h c (by simp)) hc
  | case3 l hl =>
    rw [dropZeros]
    case x_1 => exact hl
    cases l with
    | nil       => exact .inr (by simp)
    | cons c tl =>
      by_cases hc : c = '0'
      case neg => exact .inr fun h => hc (Option.some.inj h)
      case pos =>
        subst hc
        cases tl with
        | nil       => exact .inl rfl
        | cons c tl => exact (hl c tl rfl).elim

theorem toDigits_leading : Nat.toDigits 10 n = ['0'] ∨ (Nat.toDigits 10 n).head? ≠ some '0' := by
  have hd : ∀ c ∈ Nat.toDigits 10 n, c.isDigit = true := fun c => isDigit_toDigits
  have h := toDigits_digits (dropZeros_ne_nil Nat.toDigits_ne_nil) (fun c hc => hd c (mem_dropZeros hc))
    (dropZeros_leading hd)
  rw [digits_dropZeros, digits, Nat.ofDigitChars_ten_toDigits] at h
  exact h ▸ dropZeros_leading hd

end Digits

section Canonical

variable {l l₁ l₂ whole frac : List Char} {k : Nat}

theorem value_eq (h : (split l).2.length ≤ k) : (value k l : ℚ) = 10 ^ k * denoted l := by
  have hk : (10 : ℚ) ^ k = 10 ^ (k - (split l).2.length) * 10 ^ (split l).2.length := by
    rw [← pow_add, Nat.sub_add_cancel h]
  rw [value, denoted, digits_dropZeros, digits_padEnd h]
  push_cast
  rw [mul_add, mul_comm (10 ^ k : ℚ), add_right_inj, hk]
  field_simp

-- The notation of a number that is given by its digits.
theorem render_digits (hn : whole ≠ []) (hw : ∀ c ∈ whole, c.isDigit = true)
    (hl : whole = ['0'] ∨ whole.head? ≠ some '0') (hf : ∀ c ∈ frac, c.isDigit = true) (hk : 0 < frac.length) :
    render frac.length (digits whole * 10 ^ frac.length + digits frac) =
      joined whole (frac.rdropWhile (· = '0')) := by
  have hlt := digits_lt hf
  have hpos : 0 < 10 ^ frac.length := Nat.pos_of_ne_zero (by simp)
  rw [render, fraction, Nat.mul_comm, Nat.mul_add_div hpos, Nat.mul_add_mod, Nat.div_eq_of_lt hlt,
    Nat.mod_eq_of_lt hlt, Nat.add_zero, toDigits_digits hn hw hl, padStart_toDigits hf hk]

theorem canonical_eq_render (h : accepts l = true) (hk : 0 < k) : canonical k l = render k (value k l) := by
  have ⟨whole, frac, hl, hn, hw, hf⟩ := accepts_ok h
  subst hl
  have hp : ∀ c ∈ padEnd k '0' frac, c.isDigit = true := fun c hc => by
    rcases mem_padEnd hc with rfl | hc
    · rfl
    · exact hf c hc
  have hlen : (padEnd k '0' frac).length = k := length_padEnd frac
  have h := render_digits (dropZeros_ne_nil hn) (fun c hc => hw c (mem_dropZeros hc)) (dropZeros_leading hw) hp
    (hlen.symm ▸ hk)
  rw [hlen] at h
  rw [canonical, value, split_joined hw, h]

theorem IsCanonical.canonical_eq (h : IsCanonical l) (hk : (split l).2.length ≤ k) : canonical k l = l := by
  have ⟨whole, frac, hl, hn, hw, hf⟩ := accepts_ok h.accepts
  have hs : split l = (whole, frac) := by rw [hl, split_joined hw]
  have hlead := h.leading
  have htrail := h.trailing
  rw [hs] at hlead htrail hk
  have hd : dropZeros whole = whole := by
    unfold dropZeros
    split
    case h_1 c tl => simp at hlead
    case h_2 => rfl
  have hr : (padEnd k '0' frac).rdropWhile (· = '0') = frac := by
    have hself : frac.rdropWhile (· = '0') = frac := by
      refine List.rdropWhile_eq_self_iff.mpr fun hne => ?_
      rw [List.getLast?_eq_some_getLast hne] at htrail
      simpa using htrail
    rw [padEnd, List.take_append, List.take_of_length_le hk, List.take_replicate]
    generalize min (k - frac.length) k = n
    induction n with
    | zero      => simpa using hself
    | succ n hi => rw [List.replicate_succ', ← List.append_assoc, List.rdropWhile_concat_pos _ _ _ (by simp), hi]
  rw [canonical, hs, hd, hr, ← hl]

theorem isCanonical_render (k n : Nat) : IsCanonical (render k n) where
  accepts := accepts_render
  leading := by
    rw [split_render]
    exact toDigits_leading
  trailing := by
    rw [split_render, fraction]
    intro h
    have hne : (padStart k '0' (Nat.toDigits 10 (n % 10 ^ k))).rdropWhile (· = '0') ≠ [] := fun he => by simp [he] at h
    have hlast := List.rdropWhile_last_not _ _ hne
    rw [List.getLast?_eq_some_getLast hne, Option.some.injEq] at h
    simp [h] at hlast

-- A number has no other canonical notation.
theorem IsCanonical.unique (h₁ : IsCanonical l₁) (h₂ : IsCanonical l₂) (h : denoted l₁ = denoted l₂) : l₁ = l₂ := by
  have hk₁ : (split l₁).2.length ≤ (split l₁).2.length + (split l₂).2.length + 1 := by omega
  have hk₂ : (split l₂).2.length ≤ (split l₁).2.length + (split l₂).2.length + 1 := by omega
  have hv : value ((split l₁).2.length + (split l₂).2.length + 1) l₁ =
      value ((split l₁).2.length + (split l₂).2.length + 1) l₂ := by
    have h := congrArg (10 ^ ((split l₁).2.length + (split l₂).2.length + 1) * ·) h
    rw [← value_eq hk₁, ← value_eq hk₂] at h
    exact_mod_cast h
  have h₁ := (canonical_eq_render h₁.accepts (Nat.succ_pos _)).symm.trans (h₁.canonical_eq hk₁)
  have h₂ := (canonical_eq_render h₂.accepts (Nat.succ_pos _)).symm.trans (h₂.canonical_eq hk₂)
  exact h₁.symm.trans <| (congrArg _ hv).trans h₂

theorem denoted_nonneg (l : List Char) : 0 ≤ denoted l := by
  unfold denoted
  positivity

theorem denoted_render (hk : 0 < k) (n : Nat) : 10 ^ k * denoted (render k n) = n := by
  have hl : (split (render k n)).2.length ≤ k := split_render ▸ length_fraction_le hk
  rw [← value_eq hl, value_render hk]

end Canonical

theorem split_cons (h : c ≠ '.') (l : List Char) : split (c :: l) = (c :: (split l).1, (split l).2) := by
  simp [split, h]

-- At most one dot occurs in an accepted notation.
theorem firstParts_of_accepts (h : accepts l = true) : firstParts l = split l := by
  have ⟨whole, frac, hl, _, hw, hf⟩ := accepts_ok h
  subst hl
  rw [firstParts, split_joined hw, takeWhile_eq_self (ne_dot hf)]

section Parts

variable {l w f rest : List Char}

theorem split_of_notMem (h : '.' ∉ w) : split w = (w, []) := by
  have hw : ∀ c ∈ w, decide (c ≠ '.') = true := fun c hc => decide_eq_true fun he => h (he ▸ hc)
  rw [split, takeWhile_eq_self hw, dropWhile_eq_nil hw]
  rfl

theorem split_append (h : '.' ∉ w) : split (w ++ '.' :: rest) = (w, rest) := by
  have hw : ∀ c ∈ w, decide (c ≠ '.') = true := fun c hc => decide_eq_true fun he => h (he ▸ hc)
  rw [split, List.takeWhile_append_of_pos hw, List.dropWhile_append_of_pos hw]
  simp

theorem exists_dot (l : List Char) : '.' ∉ l ∨ ∃ w rest, '.' ∉ w ∧ l = w ++ '.' :: rest := by
  by_cases h : '.' ∈ l
  case neg => exact .inl h
  case pos =>
    have ⟨w, rest, hl, hw⟩ := List.eq_append_cons_of_mem h
    exact .inr ⟨w, rest, hw, hl⟩

theorem firstParts_eq : firstParts l = (w, f) ↔ Parts l w f := by
  have hs (f : List Char) : f.takeWhile (· ≠ '.') = (split f).1 := rfl
  rw [firstParts, hs]
  constructor
  case mp =>
    intro h
    cases h
    rcases exists_dot l with hl | ⟨w, r, hw, rfl⟩
    case inl =>
      rw [split_of_notMem hl]
      exact .whole hl
    case inr =>
      rw [split_append hw]
      rcases exists_dot r with hr | ⟨f, r, hf, rfl⟩
      case inl => exact split_of_notMem hr ▸ .fraction hw hr
      case inr => exact split_append hf ▸ .further hw hf
  case mpr =>
    intro h
    cases h with
    | whole hw =>
      rw [split_of_notMem hw]
      rfl
    | fraction hw hf => rw [split_append hw, split_of_notMem hf]
    | further hw hf  => rw [split_append hw, split_append hf]

end Parts

end Text.Decimal
