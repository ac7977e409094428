import Mathlib.Data.List.Forall2
import Mathlib.Data.Nat.Digits.Defs
import Mathlib.Tactic.IntervalCases
import Mergepay.Text.Number
import Mergepay.Text.Spelling

-- The integers that are denoted by texts and numbers in JavaScript
namespace Text.Integer

open Decimal Number

def signed (l : List Char) : Option Int :=
  let (s, l) := sign l
  if isDigits l then some (s * digits l) else none

-- White space is trimmed, and nothing else than white space denotes zero.
def bigInt (l : List Char) : Option Int :=
  match trim l with
  | []             => some 0
  | '0' :: c :: tl =>
    if c ∈ ['x', 'X'] then (radix 16 tl).map (·.num)
    else if c ∈ ['o', 'O'] then (radix 8 tl).map (·.num)
    else if c ∈ ['b', 'B'] then (radix 2 tl).map (·.num)
    else signed ('0' :: c :: tl)
  | l              => signed l

-- A number and its conversion to text. Infinite numbers and `NaN` have no value.
structure Numeral where
  value : Option Rat
  text  : String

def ofNumeral (x : Numeral) : Option Int :=
  x.value.bind fun q => if q.den = 1 then some q.num else none

def safeInteger (x : Numeral) : Option Int :=
  (ofNumeral x).filter fun n => n.natAbs ≤ 2 ^ 53 - 1

-- The digits of bases up to sixteen. Letters have two cases.
def DigitOf (b : Nat) (c : Char) (d : Nat) : Prop :=
  d < b ∧ ("0123456789abcdef".toList[d]? = some c ∨ "0123456789ABCDEF".toList[d]? = some c)

-- The notation of a number in a base.
def Digits (b : Nat) (l : List Char) (n : Nat) : Prop :=
  l ≠ [] ∧ ∃ ds, List.Forall₂ (DigitOf b) l ds ∧ n = Nat.ofDigits b ds.reverse

inductive Signed : List Char → Int → Prop
  | plain {n : Nat} (h : Digits 10 l n) : Signed l n
  | plus  {n : Nat} (h : Digits 10 l n) : Signed ('+' :: l) n
  | minus {n : Nat} (h : Digits 10 l n) : Signed ('-' :: l) (-n)

-- The letter behind a leading zero tells the base.
inductive BasePrefix (c : Char) : Nat → Prop
  | hex    (h : c = 'x' ∨ c = 'X') : BasePrefix c 16
  | octal  (h : c = 'o' ∨ c = 'O') : BasePrefix c 8
  | binary (h : c = 'b' ∨ c = 'B') : BasePrefix c 2

-- The notations of integers. There is no sign in bases other than ten.
inductive Denotes : List Char → Int → Prop
  | empty : Denotes [] 0
  | decimal (h : Signed l n) : Denotes l n
  | based {n : Nat} (hb : BasePrefix c b) (h : Digits b l n) : Denotes ('0' :: c :: l) n

-- White space around a notation is ignored.
def Literal (l : List Char) (n : Int) : Prop :=
  ∃ before m after, l = before ++ m ++ after ∧ (∀ c ∈ before ++ after, isWhitespace c = true) ∧ Denotes m n

variable {l : List Char}

theorem isDigits_iff : isDigits l = true ↔ l ≠ [] ∧ ∀ c ∈ l, c.isDigit = true := by
  simp [isDigits]

theorem signed_digits (h : isDigits l = true) : signed l = some (digits l : Int) := by
  have ⟨hn, hd⟩ := isDigits_iff.mp h
  cases l with
  | nil       => contradiction
  | cons c tl =>
    rw [signed, sign_of_isDigit (hd c List.mem_cons_self)]
    exact (if_pos h).trans (congrArg some <| Int.one_mul _)

-- Digits are read as they are.
theorem bigInt_digits (h : isDigits l = true) : bigInt l = some (digits l : Int) := by
  have ⟨hn, hd⟩ := isDigits_iff.mp h
  have ht : trim l = l := trim_eq_self fun c hc => isWhitespace_of_isDigit (hd c hc)
  unfold bigInt
  rw [ht]
  split
  case h_1 => contradiction
  case h_2 c tl =>
    have hc : c.isDigit = true := hd c (by simp)
    have ne (l : List Char) (hl : ∀ d ∈ l, Char.isDigit d = false) : c ∉ l := fun hm => by simp [hl c hm] at hc
    rw [if_neg (ne _ (by simp)), if_neg (ne _ (by simp)), if_neg (ne _ (by simp))]
    exact signed_digits h
  case h_3 => exact signed_digits h

theorem bigInt_minus (h : isDigits l = true) : bigInt ('-' :: l) = some (-(digits l : Int)) := by
  have ⟨_, hd⟩ := isDigits_iff.mp h
  have ht : trim ('-' :: l) = '-' :: l := by
    refine trim_eq_self fun c hc => ?_
    rcases List.mem_cons.mp hc with rfl | hc
    · rfl
    · exact isWhitespace_of_isDigit (hd c hc)
  rw [bigInt, ht]
  exact (if_pos h).trans (congrArg some <| Int.neg_one_mul _)

-- The notations are those that are read

section Digits

variable {ds : List Nat} {c : Char} {b d : Nat}

-- Characters with successive codes.
theorem getElem?_of_range {first n k : Nat} (h₀ : first ≤ c.toNat) (h₁ : c.toNat ≤ first + n)
    (hl : ∀ i ≤ n, l[i + k]?.map Char.toNat = some (first + i)) : l[c.toNat - first + k]? = some c := by
  have ⟨a, ha, hc⟩ := Option.map_eq_some_iff.mp <| hl (c.toNat - first) (by omega)
  rw [ha, Char.toNat_inj.mp (hc.trans <| Nat.add_sub_cancel' h₀)]

theorem digit_eq_some : digit c = some d ↔
    "0123456789abcdef".toList[d]? = some c ∨ "0123456789ABCDEF".toList[d]? = some c := by
  constructor
  case mp =>
    intro h
    rw [digit] at h
    split at h
    case isTrue hc =>
      have ⟨h₀, h₁⟩ := toNat_of_isDigit hc
      exact .inl <| Option.some.inj h ▸
        getElem?_of_range (l := "0123456789abcdef".toList) (n := 9) (k := 0) h₀ h₁ (by decide)
    case isFalse =>
      split at h
      case isTrue hc => exact .inl <| Option.some.inj h ▸ getElem?_of_range (n := 5) hc.1 hc.2 (by decide)
      case isFalse =>
        split at h
        case isTrue hc => exact .inr <| Option.some.inj h ▸ getElem?_of_range (n := 5) hc.1 hc.2 (by decide)
        case isFalse   => contradiction
  case mpr =>
    intro h
    have hd : d < 16 := by
      rcases h with h | h
      · exact (List.getElem?_eq_some_iff.mp h).1
      · exact (List.getElem?_eq_some_iff.mp h).1
    interval_cases d <;> rcases h with h | h <;> cases h <;> rfl

theorem filter_digit_eq_some : (digit c).filter (· < b) = some d ↔ DigitOf b c d := by
  rw [Option.filter_eq_some_iff, digit_eq_some, decide_eq_true_eq, and_comm, DigitOf]

theorem mapM_eq_some {α β : Type} {f : α → Option β} {l : List α} {l' : List β} :
    l.mapM f = some l' ↔ List.Forall₂ (fun a b => f a = some b) l l' := by
  induction l generalizing l' with
  | nil => simp [eq_comm]
  | cons a l hi =>
    simp only [List.mapM_cons, Option.bind_eq_bind, Option.bind_eq_some_iff, hi, Option.pure_def, Option.some.injEq,
      List.forall₂_cons_left_iff]
    constructor
    case mp  => exact fun ⟨b, hb, bs, hs, h⟩ => ⟨b, bs, hb, hs, h.symm⟩
    case mpr => exact fun ⟨b, bs, hb, hs, h⟩ => ⟨b, hb, bs, hs, h.symm⟩

theorem foldl_eq_ofDigits (ds : List Nat) : ds.foldl (fun n d => n * b + d) 0 = Nat.ofDigits b ds.reverse := by
  rw [Nat.ofDigits_eq_foldr, List.foldr_reverse]
  simp only [Nat.cast_id, Nat.add_comm, Nat.mul_comm]

theorem radix_eq_some {q : Rat} : radix b l = some q ↔ ∃ n : Nat, Digits b l n ∧ q = n := by
  have hm (ds : List Nat) : (l.mapM fun c => (digit c).filter (· < b)) = some ds ↔ List.Forall₂ (DigitOf b) l ds := by
    simp only [mapM_eq_some, filter_digit_eq_some]
  by_cases h : l = []
  case pos => simp [radix, Digits, h]
  case neg =>
    simp only [radix, h, if_false, Option.bind_eq_bind, Option.bind_eq_some_iff, hm, Option.pure_def,
      Option.some.injEq, foldl_eq_ofDigits, Digits, ne_eq, not_false_eq_true, true_and]
    constructor
    case mp  => exact fun ⟨ds, hd, hq⟩ => ⟨_, ⟨ds, hd, rfl⟩, hq.symm⟩
    case mpr =>
      rintro ⟨_, ⟨ds, hd, rfl⟩, rfl⟩
      exact ⟨ds, hd, rfl⟩

theorem radix_num_eq_some {n : Int} : (radix b l).map (·.num) = some n ↔ ∃ k : Nat, Digits b l k ∧ n = k := by
  rw [Option.map_eq_some_iff]
  constructor
  case mp =>
    rintro ⟨q, hq, rfl⟩
    obtain ⟨k, hk, rfl⟩ := radix_eq_some.mp hq
    exact ⟨k, hk, Rat.num_natCast k⟩
  case mpr =>
    rintro ⟨k, hk, rfl⟩
    exact ⟨k, radix_eq_some.mpr ⟨k, hk, rfl⟩, Rat.num_natCast k⟩

theorem digitOf_ten : DigitOf 10 c d ↔ c.isDigit = true ∧ d = c.toNat - '0'.toNat := by
  rw [DigitOf, ← digit_eq_some, digit]
  constructor
  case mp =>
    intro ⟨hd, h⟩
    by_cases hc : c.isDigit = true
    case pos =>
      rw [if_pos hc] at h
      exact ⟨hc, (Option.some.inj h).symm⟩
    case neg =>
      rw [if_neg hc] at h
      split at h
      · cases h
        omega
      · split at h
        · cases h
          omega
        · contradiction
  case mpr =>
    rintro ⟨hc, rfl⟩
    have ⟨h₀, h₁⟩ := toNat_of_isDigit hc
    exact ⟨by omega, if_pos hc⟩

theorem forall₂_digitOf_ten : List.Forall₂ (DigitOf 10) l ds ↔
    (∀ c ∈ l, c.isDigit = true) ∧ ds = l.map fun c => c.toNat - '0'.toNat := by
  induction l generalizing ds with
  | nil => simp
  | cons c l hi =>
    simp only [List.forall₂_cons_left_iff, digitOf_ten, hi, List.forall_mem_cons, List.map_cons]
    constructor
    case mp =>
      rintro ⟨_, _, ⟨hc, rfl⟩, ⟨hl, rfl⟩, rfl⟩
      exact ⟨⟨hc, hl⟩, rfl⟩
    case mpr =>
      rintro ⟨⟨hc, hl⟩, rfl⟩
      exact ⟨_, _, ⟨hc, rfl⟩, ⟨hl, rfl⟩, rfl⟩

theorem digits_ten {n : Nat} : Digits 10 l n ↔ isDigits l = true ∧ n = digits l := by
  have hd : Nat.ofDigits 10 (l.map fun c => c.toNat - '0'.toNat).reverse = digits l := by
    rw [← foldl_eq_ofDigits, List.foldl_map, digits, Nat.ofDigitChars_eq_foldl]
    simp only [Nat.mul_comm]
  rw [isDigits_iff, Digits, and_assoc]
  refine and_congr_right fun _ => ?_
  constructor
  case mp =>
    rintro ⟨ds, hs, rfl⟩
    obtain ⟨hl, rfl⟩ := forall₂_digitOf_ten.mp hs
    exact ⟨hl, hd⟩
  case mpr =>
    rintro ⟨hl, rfl⟩
    exact ⟨_, forall₂_digitOf_ten.mpr ⟨hl, rfl⟩, hd.symm⟩

theorem Digits.isDigit {n : Nat} (h : Digits 10 l n) : ∀ c ∈ l, c.isDigit = true :=
  (isDigits_iff.mp (digits_ten.mp h).1).2

end Digits

section Denotes

variable {c : Char} {b : Nat} {n : Int}

theorem signed_eq_some : signed l = some n ↔ Signed l n := by
  have hd (l : List Char) (s : Int) : (if isDigits l then some (s * digits l) else none) = some n ↔
      ∃ k : Nat, Digits 10 l k ∧ n = s * k := by
    by_cases h : isDigits l = true
    case pos => simp [digits_ten, h, eq_comm]
    case neg => simp [digits_ten, h]
  rw [signed]
  split
  rename_i s m hs
  rw [hd]
  constructor
  case mp =>
    rintro ⟨k, hk, rfl⟩
    unfold sign at hs
    split at hs <;> cases hs
    · exact Int.one_mul _ ▸ .plus hk
    · exact (Int.neg_one_mul k).symm ▸ .minus hk
    · exact Int.one_mul _ ▸ .plain hk
  case mpr =>
    intro h
    cases h with
    | plus h =>
      cases hs
      exact ⟨_, h, (Int.one_mul _).symm⟩
    | minus h =>
      cases hs
      exact ⟨_, h, (Int.neg_one_mul _).symm⟩
    | plain h =>
      cases l with
      | nil       => exact absurd rfl h.1
      | cons c tl =>
        rw [sign_of_isDigit (h.isDigit c List.mem_cons_self)] at hs
        cases hs
        exact ⟨_, h, (Int.one_mul _).symm⟩

theorem Signed.isDigit_or (h : Signed l n) : ∀ c ∈ l, c = '+' ∨ c = '-' ∨ c.isDigit = true := by
  intro c hc
  cases h with
  | plain h => exact .inr <| .inr <| h.isDigit c hc
  | plus h  => exact (List.mem_cons.mp hc).imp_right fun hc => .inr <| h.isDigit c hc
  | minus h => exact .inr <| (List.mem_cons.mp hc).imp_right <| h.isDigit c

theorem BasePrefix.unique {b' : Nat} (h : BasePrefix c b) (h' : BasePrefix c b') : b = b' := by
  rcases h with (rfl | rfl) | (rfl | rfl) | (rfl | rfl) <;> rcases h' with h | h | h <;>
    first | rfl | exact absurd h (by decide)

theorem BasePrefix.not_signed (h : BasePrefix c b) : ¬Signed ('0' :: c :: l) n := by
  intro hs
  have hc := hs.isDigit_or c (by simp)
  rcases h with (rfl | rfl) | (rfl | rfl) | (rfl | rfl) <;> exact absurd hc (by decide)

theorem denotes_based (hb : BasePrefix c b) : Denotes ('0' :: c :: l) n ↔ ∃ k : Nat, Digits b l k ∧ n = k := by
  constructor
  case mp =>
    intro h
    cases h with
    | decimal h   => exact absurd h hb.not_signed
    | based hb' h => exact ⟨_, hb'.unique hb ▸ h, rfl⟩
  case mpr =>
    rintro ⟨k, hk, rfl⟩
    exact .based hb hk

theorem DigitOf.isWhitespace {d : Nat} (h : DigitOf b c d) : isWhitespace c = false := by
  have lower : "0123456789abcdef".toList.all (!Text.isWhitespace ·) = true := by decide +kernel
  have upper : "0123456789ABCDEF".toList.all (!Text.isWhitespace ·) = true := by decide +kernel
  rcases h.2 with h | h
  · simpa using List.all_eq_true.mp lower c (List.mem_of_getElem? h)
  · simpa using List.all_eq_true.mp upper c (List.mem_of_getElem? h)

theorem Digits.isWhitespace {k : Nat} (h : Digits b l k) : ∀ c ∈ l, isWhitespace c = false := by
  obtain ⟨hn, ds, hs, hk⟩ := h
  clear hn hk
  induction hs with
  | nil          => simp
  | cons hd _ hi => exact List.forall_mem_cons.mpr ⟨hd.isWhitespace, hi⟩

theorem Denotes.isWhitespace (h : Denotes l n) : ∀ c ∈ l, isWhitespace c = false := by
  intro c hc
  cases h with
  | empty => contradiction
  | decimal h =>
    rcases h.isDigit_or c hc with rfl | rfl | hd
    · rfl
    · rfl
    · exact isWhitespace_of_isDigit hd
  | based hb h =>
    rcases List.mem_cons.mp hc with rfl | hc
    · rfl
    · rcases List.mem_cons.mp hc with rfl | hc
      · rcases hb with (rfl | rfl) | (rfl | rfl) | (rfl | rfl) <;> rfl
      · exact h.isWhitespace c hc

theorem literal_iff : Literal l n ↔ Denotes (trim l) n := by
  constructor
  case mp =>
    rintro ⟨before, m, after, rfl, hw, h⟩
    rwa [trim_append hw h.isWhitespace]
  case mpr =>
    intro h
    have ⟨before, after, hl, hw⟩ := exists_trim l
    exact ⟨before, _, after, hl, hw, h⟩

theorem bigInt_eq_some : bigInt l = some n ↔ Literal l n := by
  rw [literal_iff, bigInt]
  split
  case h_1 h =>
    rw [h, Option.some.injEq]
    constructor
    case mp  => exact fun hn => hn ▸ .empty
    case mpr =>
      intro h
      cases h with
      | empty     => rfl
      | decimal h => exact nomatch signed_eq_some.mpr h
  case h_2 c tl h =>
    rw [h]
    split
    case isTrue hc => rw [radix_num_eq_some, denotes_based (.hex (by simpa using hc))]
    case isFalse hx =>
      split
      case isTrue hc => rw [radix_num_eq_some, denotes_based (.octal (by simpa using hc))]
      case isFalse ho =>
        split
        case isTrue hc => rw [radix_num_eq_some, denotes_based (.binary (by simpa using hc))]
        case isFalse hb =>
          rw [signed_eq_some]
          refine ⟨.decimal, fun h => ?_⟩
          cases h with
          | decimal h   => exact h
          | based hp _  => cases hp <;> simp_all
  case h_3 m h₀ h₁ =>
    rw [signed_eq_some]
    refine ⟨.decimal, fun h => ?_⟩
    generalize trim l = m at h₀ h₁ h
    cases h with
    | empty     => exact absurd rfl h₀
    | decimal h => exact h
    | based _ _ => exact absurd rfl (h₁ _ _)

end Denotes

end Text.Integer
