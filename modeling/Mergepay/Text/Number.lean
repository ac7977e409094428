import Mathlib.Data.Int.Log
import Mathlib.Data.Nat.Find
import Mathlib.Data.Rat.Floor
import Mergepay.Text.Spelling

-- The finite numbers that are denoted by texts in JavaScript, and the texts into which they are converted
namespace Text.Number

-- Rounding to the nearest double-precision number, with ties to even

def roundHalfEven (q : Rat) : Int :=
  let d := q - q.floor
  if d < 1 / 2 then q.floor
  else if 1 / 2 < d then q.floor + 1
  else if q.floor % 2 = 0 then q.floor
  else q.floor + 1

-- The exponent of the last bit of the significand.
def exponent (q : Rat) : Int :=
  max (Int.log 2 |q| - 52) (-1074)

def round (q : Rat) : Option Rat :=
  let n : Rat := roundHalfEven (q / 2 ^ exponent q) * 2 ^ exponent q
  if |n| < 2 ^ 1024 then some n else none

-- Literals, with the value that is rounded

def digit (c : Char) : Option Nat :=
  if c.isDigit then some (c.toNat - '0'.toNat)
  else if 'a' ≤ c ∧ c ≤ 'f' then some (c.toNat - 'a'.toNat + 10)
  else if 'A' ≤ c ∧ c ≤ 'F' then some (c.toNat - 'A'.toNat + 10)
  else none

def radix (b : Nat) (l : List Char) : Option Rat := do
  if l = [] then none
  let digits ← l.mapM fun c => (digit c).filter (· < b)
  return (digits.foldl (fun n d => n * b + d) 0 : Nat)

def sign : List Char → Int × List Char
  | '+' :: tl => (1, tl)
  | '-' :: tl => (-1, tl)
  | l         => (1, l)

def isDigits (l : List Char) : Bool :=
  l ≠ [] && l.all Char.isDigit

-- The part behind the letter `e`, if there is one.
def power : List Char → Option Int
  | []      => some 0
  | _ :: tl =>
    let (s, l) := sign tl
    if isDigits l then some (s * Decimal.digits l) else none

def decimal (l : List Char) : Option Rat := do
  let (s, l) := sign l
  let mantissa := l.takeWhile fun c => c ≠ 'e' ∧ c ≠ 'E'
  let k ← power <| l.dropWhile fun c => c ≠ 'e' ∧ c ≠ 'E'
  let (whole, frac) := Decimal.split mantissa
  if ¬isDigits (whole ++ frac) then none
  return s * Decimal.digits (whole ++ frac) * 10 ^ (k - frac.length)

def literal (l : List Char) : Option Rat :=
  match trim l with
  | []             => some 0
  | '0' :: c :: tl =>
    if c ∈ ['x', 'X'] then radix 16 tl
    else if c ∈ ['o', 'O'] then radix 8 tl
    else if c ∈ ['b', 'B'] then radix 2 tl
    else decimal ('0' :: c :: tl)
  | l              => decimal l

-- Everything else denotes an infinite number, or none.
def number (l : List Char) : Option Rat :=
  (literal l).bind round

def render (n : Int) : List Char :=
  (if n < 0 then ['-'] else []) ++ Nat.toDigits 10 n.natAbs

theorem roundHalfEven_intCast (n : Int) : roundHalfEven n = n := by
  simp [roundHalfEven]

-- Integers of up to 53 bits are represented exactly.
theorem round_intCast {n : Int} (h : n.natAbs < 2 ^ 53) : round n = some (n : Rat) := by
  have hlog : Int.log 2 |(n : Rat)| ≤ 52 := by
    rw [← Int.cast_abs, Int.abs_eq_natAbs, Int.cast_natCast, Int.log_natCast]
    have : Nat.log 2 n.natAbs < 53 := Nat.log_lt_of_lt_pow' (by decide) h
    omega
  obtain ⟨k, hk⟩ : ∃ k : Nat, exponent n = -k :=
    ⟨(-exponent n).toNat, by unfold exponent; omega⟩
  have hq : (n : Rat) / 2 ^ exponent n = ((n * 2 ^ k : Int) : Rat) := by
    rw [hk, zpow_neg, zpow_natCast, div_inv_eq_mul]
    push_cast
    rfl
  have hn : (roundHalfEven ((n : Rat) / 2 ^ exponent n) : Rat) * 2 ^ exponent n = n := by
    rw [hq, roundHalfEven_intCast, ← hq, div_mul_cancel₀]
    exact zpow_ne_zero _ two_ne_zero
  have hb : |(n : Rat)| < 2 ^ 1024 := by
    rw [← Int.cast_abs, Int.abs_eq_natAbs]
    have hp : (2 : Rat) ^ 53 ≤ 2 ^ 1024 := pow_le_pow_right₀ (by norm_num) (by decide)
    refine lt_of_lt_of_le ?_ hp
    exact_mod_cast h
  unfold round
  rw [hn]
  exact if_pos hb

theorem isDigits_toDigits (n : Nat) : isDigits (Nat.toDigits 10 n) = true := by
  have h : Nat.toDigits 10 n ≠ [] := Nat.toDigits_ne_nil
  simp only [isDigits, h, ne_eq, not_false_eq_true, decide_true, Bool.true_and, List.all_eq_true]
  exact fun c => Decimal.isDigit_toDigits

theorem ne_of_isDigit (h : Char.isDigit c = true) (hd : Char.isDigit d = false) : c ≠ d :=
  fun he => by simp [he, hd] at h

theorem sign_of_isDigit (h : Char.isDigit c = true) : sign (c :: tl) = (1, c :: tl) := by
  have hp : c ≠ '+' := ne_of_isDigit h rfl
  have hm : c ≠ '-' := ne_of_isDigit h rfl
  unfold sign
  split
  case h_1 he => exact absurd (List.cons.inj he).1 hp
  case h_2 he => exact absurd (List.cons.inj he).1 hm
  case h_3    => rfl

theorem sign_render (n : Int) : sign (render n) = (if n < 0 then -1 else 1, Nat.toDigits 10 n.natAbs) := by
  unfold render
  split
  case isTrue  => rfl
  case isFalse =>
    rw [List.nil_append]
    cases hd : Nat.toDigits 10 n.natAbs with
    | nil       => exact absurd hd Nat.toDigits_ne_nil
    | cons c tl => exact sign_of_isDigit <| Decimal.isDigit_toDigits (hd ▸ List.mem_cons_self)

theorem mem_render (h : c ∈ render n) : c = '-' ∨ c.isDigit = true := by
  unfold render at h
  rcases List.mem_append.mp h with h | h
  · split at h
    · exact .inl <| List.mem_singleton.mp h
    · contradiction
  · exact .inr <| Decimal.isDigit_toDigits h

theorem decimal_render (n : Int) : decimal (render n) = some (n : Rat) := by
  have hd : ∀ c ∈ Nat.toDigits 10 n.natAbs, c.isDigit = true := fun c => Decimal.isDigit_toDigits
  have he : ∀ c ∈ Nat.toDigits 10 n.natAbs, decide (c ≠ 'e' ∧ c ≠ 'E') = true := by
    intro c hc
    have := hd c hc
    simpa using ⟨ne_of_isDigit this rfl, ne_of_isDigit this rfl⟩
  have hdot : ∀ c ∈ Nat.toDigits 10 n.natAbs, decide (c ≠ '.') = true := by
    intro c hc
    simpa using ne_of_isDigit (hd c hc) rfl
  have hval : Decimal.digits (Nat.toDigits 10 n.natAbs) = n.natAbs :=
    Nat.ofDigitChars_toDigits (by decide) (by decide)
  simp only [decimal, sign_render, Decimal.takeWhile_eq_self he, Decimal.dropWhile_eq_nil he, power,
    Decimal.split, Decimal.takeWhile_eq_self hdot, Decimal.dropWhile_eq_nil hdot, List.tail_nil,
    List.append_nil, isDigits_toDigits, hval]
  have hn : (((if n < 0 then -1 else 1) * (n.natAbs : Int) : Int) : Rat) = n := by
    congr 1
    split <;> omega
  simpa using hn

theorem literal_render (n : Int) : literal (render n) = some (n : Rat) := by
  have ht : trim (render n) = render n := by
    refine trim_eq_self fun c hc => ?_
    rcases mem_render hc with rfl | h
    · decide
    · exact Decimal.isWhitespace_of_isDigit h
  unfold literal
  rw [ht]
  split
  case h_1 h => simp [render, Nat.toDigits_ne_nil] at h
  case h_2 c tl h =>
    have hc : c = '-' ∨ c.isDigit = true := mem_render (n := n) (h ▸ by simp)
    have hne (l : List Char) (hl : ∀ d ∈ l, d ≠ '-' ∧ Char.isDigit d = false) : c ∉ l := by
      intro hm
      rcases hc with rfl | hc
      · exact (hl _ hm).1 rfl
      · exact ne_of_isDigit hc (hl _ hm).2 rfl
    rw [if_neg (hne _ (by simp)), if_neg (hne _ (by simp)), if_neg (hne _ (by simp)), ← h]
    exact decimal_render n
  case h_3 => exact decimal_render n

theorem number_render {n : Int} (h : n.natAbs < 2 ^ 53) : number (render n) = some (n : Rat) := by
  rw [number, literal_render, Option.bind_some, round_intCast h]

section Rounding

variable {q : Rat}

theorem roundHalfEven_neg (q : Rat) : roundHalfEven (-q) = -roundHalfEven q := by
  have h₁ : (q.floor : Rat) ≤ q := Int.floor_le q
  have h₂ : q < q.floor + 1 := Int.lt_floor_add_one q
  by_cases h : (q.floor : Rat) = q
  case pos =>
    rw [← h, ← Int.cast_neg, roundHalfEven_intCast, roundHalfEven_intCast]
  case neg =>
    have hlt : (q.floor : Rat) < q := lt_of_le_of_ne h₁ h
    have hf : (-q).floor = -q.floor - 1 :=
      (@Int.floor_eq_iff Rat _ _ _ _ _).mpr ⟨by push_cast; linarith, by push_cast; linarith⟩
    have hd : -q - ((-q).floor : Rat) = 1 - (q - q.floor) := by
      rw [hf]
      push_cast
      ring
    simp only [roundHalfEven, hd]
    simp only [hf]
    rcases lt_trichotomy (q - q.floor) (1 / 2) with hc | hc | hc
    · rw [if_neg (by linarith), if_pos (by linarith), if_pos hc]
      ring
    · rw [if_neg (by linarith), if_neg (by linarith), if_neg (by linarith : ¬_ < (1 : Rat) / 2),
        if_neg (by linarith : ¬(1 : Rat) / 2 < _)]
      split <;> split <;> omega
    · rw [if_pos (by linarith), if_neg (by linarith), if_pos hc]
      ring

theorem round_neg (q : Rat) : round (-q) = (round q).map (- ·) := by
  have he : exponent (-q) = exponent q := by rw [exponent, exponent, abs_neg]
  have hn : (roundHalfEven (-q / 2 ^ exponent (-q)) : Rat) * 2 ^ exponent (-q) =
      -(roundHalfEven (q / 2 ^ exponent q) * 2 ^ exponent q) := by
    rw [he, neg_div, roundHalfEven_neg, Int.cast_neg, neg_mul]
  simp only [round, hn, abs_neg]
  split <;> rfl

end Rounding

-- A finite number, with a single zero
structure Double where
  val   : Rat
  exact : round val = some val

theorem Double.round_abs (x : Double) : round |x.val| = some |x.val| := by
  rcases abs_choice x.val with h | h
  · rw [h, x.exact]
  · rw [h, round_neg, x.exact, Option.map_some]

-- The integer that is closest to a number which is scaled to `k` digits in front of the point
def position (q : Rat) : Int :=
  Int.log 10 q + 1

def significand (q : Rat) (k : Nat) : Nat :=
  (roundHalfEven (q * 10 ^ (k - position q))).toNat

def scaled (q : Rat) (k : Nat) : Rat :=
  significand q k * 10 ^ (position q - k)

-- With enough digits, a number is represented exactly.
theorem scaled_eq {q : Rat} {k : Nat} {m : Int} (h : 0 ≤ q) (hm : q * 10 ^ (k - position q) = m) : scaled q k = q := by
  have hp : (0 : Rat) < 10 ^ ((k : Int) - position q) := zpow_pos (by norm_num) _
  have hnn : 0 ≤ m := by
    have : (0 : Rat) ≤ m := hm ▸ mul_nonneg h hp.le
    exact_mod_cast this
  have hs : (significand q k : Rat) = q * 10 ^ ((k : Int) - position q) := by
    rw [significand, hm, roundHalfEven_intCast]
    exact_mod_cast congrArg (Int.cast (R := Rat)) (Int.toNat_of_nonneg hnn)
  rw [scaled, hs, mul_assoc, ← zpow_add₀ (by norm_num : (10 : Rat) ≠ 0), sub_add_sub_cancel, sub_self, zpow_zero, mul_one]

-- Some number of digits suffices.
theorem exists_precision (x : Double) : ∃ k, 0 < k ∧ round (scaled |x.val| k) = some |x.val| := by
  have hr := x.round_abs
  have ⟨m, e, he, hm⟩ : ∃ (m e : Int), -1074 ≤ e ∧ |x.val| = m * 2 ^ e := by
    refine ⟨roundHalfEven (|x.val| / 2 ^ exponent |x.val|), exponent |x.val|, le_max_right .., ?_⟩
    simp only [round] at hr
    split at hr
    case isTrue  => exact (Option.some.inj hr).symm
    case isFalse => contradiction
  have ⟨k, hk, hj⟩ : ∃ k : Nat, 0 < k ∧ 1074 ≤ (k : Int) - position |x.val| :=
    ⟨(max 1 (position |x.val| + 1074)).toNat, by omega, by omega⟩
  have ⟨j, hj⟩ := Int.eq_ofNat_of_zero_le (by omega : 0 ≤ (k : Int) - position |x.val|)
  have ⟨i, hi⟩ := Int.eq_ofNat_of_zero_le (by omega : 0 ≤ e + j)
  have hx : |x.val| * 10 ^ ((k : Int) - position |x.val|) = ((m * 2 ^ i * 5 ^ j : Int) : Rat) := by
    have h₂ : (2 : Rat) ^ e * 2 ^ j = 2 ^ i := by
      rw [← zpow_natCast, ← zpow_add₀ two_ne_zero, hi]
      rfl
    have h₁₀ : (10 : Rat) ^ (j : Int) = 2 ^ j * 5 ^ j := by
      rw [← mul_pow, zpow_natCast]
      norm_num
    rw [hj, hm, h₁₀, mul_assoc, ← mul_assoc (2 ^ e), h₂]
    push_cast
    ring
  exact ⟨k, hk, (congrArg round (scaled_eq (abs_nonneg _) hx)).trans hr⟩

-- The least number of digits that distinguish a number from its neighbours
def Double.precision (x : Double) : Nat :=
  Nat.find (exists_precision x)

-- The digits without trailing zeros, and the position of the point in front of which they start
def Double.shortest (x : Double) : List Char × Int :=
  let digits := Nat.toDigits 10 (significand |x.val| x.precision)
  (digits.rdropWhile (· = '0'), position |x.val| - x.precision + digits.length)

def layout (d : List Char) (n : Int) : List Char :=
  if d.length ≤ n ∧ n ≤ 21 then
    d ++ List.replicate (n - d.length).toNat '0'
  else if 0 < n ∧ n ≤ 21 then
    Decimal.joined (d.take n.toNat) (d.drop n.toNat)
  else if -6 < n ∧ n ≤ 0 then
    Decimal.joined ['0'] (List.replicate (-n).toNat '0' ++ d)
  else
    Decimal.joined (d.take 1) (d.drop 1) ++
      'e' :: (if n - 1 < 0 then '-' else '+') :: Nat.toDigits 10 (n - 1).natAbs

def Double.toText (x : Double) : List Char :=
  if x.val = 0 then ['0']
  else (if x.val < 0 then ['-'] else []) ++ layout x.shortest.1 x.shortest.2

section Notation

theorem precision_spec (x : Double) : 0 < x.precision ∧ round (scaled |x.val| x.precision) = some |x.val| :=
  Nat.find_spec (exists_precision x)

theorem isDigit_rdropWhile {l : List Char} (h : ∀ c ∈ l, c.isDigit = true) :
    ∀ c ∈ l.rdropWhile (· = '0'), c.isDigit = true :=
  fun c hc => h c <| (List.rdropWhile_prefix _ _).subset hc

-- The digits at their position denote the number that was found.
theorem shortest_value (x : Double) :
    (Decimal.digits x.shortest.1 : Rat) * 10 ^ (x.shortest.2 - x.shortest.1.length) = scaled |x.val| x.precision := by
  set l := Nat.toDigits 10 (significand |x.val| x.precision) with hl
  have hle : x.shortest.1.length ≤ l.length := (List.rdropWhile_prefix _ _).length_le
  have hd : Decimal.digits l = Decimal.digits x.shortest.1 * 10 ^ (l.length - x.shortest.1.length) := by
    rw [← Decimal.digits_padEnd hle]
    exact congrArg Decimal.digits (Decimal.padEnd_rdropWhile rfl).symm
  have hs : Decimal.digits l = significand |x.val| x.precision := Nat.ofDigitChars_toDigits (by decide) (by decide)
  have he : x.shortest.2 - x.shortest.1.length =
      (l.length - x.shortest.1.length : Nat) + (position |x.val| - x.precision) := by
    rw [Int.ofNat_sub hle]
    change position |x.val| - x.precision + l.length - _ = _
    ring
  rw [he, zpow_add₀ (by norm_num), zpow_natCast, ← mul_assoc, scaled, ← hs, hd]
  push_cast
  rfl

theorem isDigit_shortest (x : Double) : ∀ c ∈ x.shortest.1, c.isDigit = true :=
  isDigit_rdropWhile fun _ => Decimal.isDigit_toDigits

theorem shortest_ne_nil {x : Double} (h : x.val ≠ 0) : x.shortest.1 ≠ [] := by
  intro hn
  have hv := shortest_value x
  rw [hn] at hv
  have hz : scaled |x.val| x.precision = 0 := hv.symm.trans (by simp [Decimal.digits])
  have hr := (precision_spec x).2
  have h₀ : round ((0 : Int) : Rat) = some ((0 : Int) : Rat) := round_intCast (by decide)
  rw [hz, ← Int.cast_zero, h₀] at hr
  exact h (by simpa using hr.symm)

end Notation

section Reading

-- A digit is neither the point, nor the letter in front of an exponent.
def IsNotation (c : Char) : Prop :=
  c.isDigit = true ∨ c ∈ ['-', '+', '.', 'e']

instance : DecidablePred IsNotation :=
  fun _ => inferInstanceAs (Decidable (_ ∨ _))

theorem sign_digits {neg : Bool} {l : List Char} (h : ∃ c tl, l = c :: tl ∧ c.isDigit = true) :
    sign ((if neg then ['-'] else []) ++ l) = (if neg then -1 else 1, l) := by
  obtain ⟨c, tl, rfl, hc⟩ := h
  cases neg
  case false => exact sign_of_isDigit hc
  case true  => rfl

theorem mantissa_joined {whole frac tail : List Char} (hw : ∀ c ∈ whole, c.isDigit = true)
    (hf : ∀ c ∈ frac, c.isDigit = true) (ht : ∀ c ∈ tail.head?, c = 'e') :
    (Decimal.joined whole frac ++ tail).takeWhile (fun c => decide (c ≠ 'e' ∧ c ≠ 'E')) = Decimal.joined whole frac ∧
      (Decimal.joined whole frac ++ tail).dropWhile (fun c => decide (c ≠ 'e' ∧ c ≠ 'E')) = tail := by
  have hd {c : Char} (h : c.isDigit = true) : c ≠ 'e' ∧ c ≠ 'E' := ⟨ne_of_isDigit h rfl, ne_of_isDigit h rfl⟩
  have hj : ∀ c ∈ Decimal.joined whole frac, decide (c ≠ 'e' ∧ c ≠ 'E') = true := by
    intro c hc
    rcases Decimal.mem_joined hc with rfl | h | h
    · decide
    · exact decide_eq_true <| hd (hw c h)
    · exact decide_eq_true <| hd (hf c h)
  rw [List.takeWhile_append_of_pos hj, List.dropWhile_append_of_pos hj]
  cases tail with
  | nil       => exact ⟨List.append_nil _, rfl⟩
  | cons c tl =>
    obtain rfl : c = 'e' := ht c rfl
    exact ⟨List.append_nil _, rfl⟩

-- A fixed point, and an exponent that is written behind it
theorem decimal_parts {neg : Bool} {whole frac tail : List Char} (hn : whole ≠ [])
    (hw : ∀ c ∈ whole, c.isDigit = true) (hf : ∀ c ∈ frac, c.isDigit = true)
    (ht : ∀ c ∈ tail.head?, c = 'e') (hk : power tail = some k) :
    decimal ((if neg then ['-'] else []) ++ (Decimal.joined whole frac ++ tail)) =
      some ((if neg then -1 else 1) * ((Decimal.digits (whole ++ frac) : Rat) * 10 ^ (k - (frac.length : Int)))) := by
  have hh : ∃ c tl, Decimal.joined whole frac ++ tail = c :: tl ∧ c.isDigit = true := by
    match whole with
    | c :: whole =>
      have hc := hw c List.mem_cons_self
      unfold Decimal.joined
      split
      case isTrue  => exact ⟨c, _, rfl, hc⟩
      case isFalse => exact ⟨c, _, rfl, hc⟩
  have ⟨h₁, h₂⟩ := mantissa_joined hw hf ht
  have hd : isDigits (whole ++ frac) = true := by
    simp only [isDigits, ne_eq, List.append_eq_nil_iff, hn, false_and, not_false_eq_true, decide_true,
      Bool.true_and, List.all_eq_true, List.mem_append]
    exact fun c hc => hc.elim (hw c) (hf c)
  simp only [decimal, sign_digits hh, h₁, h₂, hk, Decimal.split_joined hw, hd]
  cases neg
  case false => simp
  case true  => simp

end Reading

section Layout

variable {d : List Char} {n : Int}

theorem digits_append_zeros (d : List Char) (j : Nat) :
    Decimal.digits (d ++ List.replicate j '0') = Decimal.digits d * 10 ^ j := by
  rw [Decimal.digits, Nat.ofDigitChars_append, Nat.ofDigitChars_replicate_zero, Nat.mul_comm]
  rfl

theorem digits_zeros_append (j : Nat) (d : List Char) :
    Decimal.digits (List.replicate j '0' ++ d) = Decimal.digits d := by
  rw [Decimal.digits, Nat.ofDigitChars_append, Nat.ofDigitChars_replicate_zero, Nat.mul_zero]
  rfl

theorem power_exponent (m : Int) :
    power ('e' :: (if m < 0 then '-' else '+') :: Nat.toDigits 10 m.natAbs) = some m := by
  have hd : Decimal.digits (Nat.toDigits 10 m.natAbs) = m.natAbs := Nat.ofDigitChars_toDigits (by decide) (by decide)
  by_cases hm : m < 0
  · simp only [power, if_pos hm, sign, isDigits_toDigits, if_true, hd]
    congr 1
    omega
  · simp only [power, if_neg hm, sign, isDigits_toDigits, if_true, hd]
    congr 1
    omega

-- A layout is a fixed point with an exponent, which denote the digits at their position.
theorem layout_parts (hd : d ≠ []) (h : ∀ c ∈ d, c.isDigit = true) :
    ∃ whole frac tail k, layout d n = Decimal.joined whole frac ++ tail ∧ whole ≠ [] ∧
      (∀ c ∈ whole, c.isDigit = true) ∧ (∀ c ∈ frac, c.isDigit = true) ∧ (∀ c ∈ tail.head?, c = 'e') ∧
      (∀ c ∈ tail, IsNotation c) ∧ power tail = some k ∧
      (Decimal.digits (whole ++ frac) : Rat) * 10 ^ (k - (frac.length : Int)) =
        Decimal.digits d * 10 ^ (n - (d.length : Int)) := by
  have hl : 0 < d.length := List.length_pos_iff.mpr hd
  have ht k : ∀ c ∈ d.take k, c.isDigit = true := fun c hc => h c (List.mem_of_mem_take hc)
  have hr k : ∀ c ∈ d.drop k, c.isDigit = true := fun c hc => h c (List.mem_of_mem_drop hc)
  have hz j : ∀ c ∈ List.replicate j '0', c.isDigit = true := fun c hc => by
    rw [List.eq_of_mem_replicate hc]
    rfl
  have hj {l : List Char} : l = l ++ [] := (List.append_nil l).symm
  unfold layout
  split
  case isTrue hn =>
    have ⟨j, hj'⟩ := Int.eq_ofNat_of_zero_le (by omega : 0 ≤ n - d.length)
    refine ⟨d ++ List.replicate j '0', [], [], 0, ?_, by simp [hd], ?_, nofun, nofun, nofun, rfl, ?_⟩
    · simp [hj', Decimal.joined]
    · exact List.forall_mem_append.mpr ⟨h, hz j⟩
    · simp [hj', digits_append_zeros]
  case isFalse hn =>
    split
    case isTrue hn' =>
      refine ⟨d.take n.toNat, d.drop n.toNat, [], 0, hj, ?_, ht _, hr _, nofun, nofun, rfl, ?_⟩
      · simp only [ne_eq, List.take_eq_nil_iff, hd, or_false]
        omega
      · have hk : (0 : Int) - (d.drop n.toNat).length = n - d.length := by
          rw [List.length_drop]
          omega
        rw [List.take_append_drop, hk]
    case isFalse hn' =>
      split
      case isTrue hn'' =>
        refine ⟨['0'], List.replicate (-n).toNat '0' ++ d, [], 0, hj, by simp, by simp, ?_, nofun, nofun, rfl, ?_⟩
        · exact List.forall_mem_append.mpr ⟨hz _, h⟩
        · have hk : (0 : Int) - (List.replicate (-n).toNat '0' ++ d).length = n - d.length := by
            rw [List.length_append, List.length_replicate]
            omega
          have hv : Decimal.digits (['0'] ++ (List.replicate (-n).toNat '0' ++ d)) = Decimal.digits d :=
            digits_zeros_append ((-n).toNat + 1) d
          rw [hk, hv]
      case isFalse =>
        refine ⟨d.take 1, d.drop 1, _, n - 1, rfl, by simp [hd], ht 1, hr 1, by simp, ?_, power_exponent (n - 1), ?_⟩
        · simp only [List.forall_mem_cons]
          refine ⟨.inr (by simp), ?_, fun c hc => .inl (Decimal.isDigit_toDigits hc)⟩
          split <;> exact .inr (by simp)
        · have hk : n - 1 - (d.drop 1).length = n - d.length := by
            rw [List.length_drop]
            omega
          rw [List.take_append_drop, hk]

end Layout

theorem isWhitespace_of_isNotation (h : IsNotation c) : isWhitespace c = false := by
  rcases h with h | h
  · exact Decimal.isWhitespace_of_isDigit h
  · simp only [List.mem_cons, List.not_mem_nil, or_false] at h
    rcases h with rfl | rfl | rfl | rfl <;> rfl

-- Without other letters, a literal is decimal.
theorem literal_of_isNotation {l : List Char} (hn : l ≠ []) (h : ∀ c ∈ l, IsNotation c) : literal l = decimal l := by
  have ht : trim l = l := trim_eq_self fun c hc => isWhitespace_of_isNotation (h c hc)
  unfold literal
  rw [ht]
  split
  case h_1 => contradiction
  case h_2 c tl =>
    have hc : IsNotation c := h c (by simp)
    have hne (l : List Char) (hl : ∀ d ∈ l, ¬IsNotation d) : c ∉ l := fun hm => hl c hm hc
    rw [if_neg (hne _ (by simp [IsNotation])), if_neg (hne _ (by simp [IsNotation])), if_neg (hne _ (by simp [IsNotation]))]
  case h_3 => rfl

theorem toText_of_ne {x : Double} (h : x.val ≠ 0) :
    x.toText = (if decide (x.val < 0) then ['-'] else []) ++ layout x.shortest.1 x.shortest.2 := by
  rw [Double.toText, if_neg h]
  simp only [decide_eq_true_eq]

theorem isNotation_toText (x : Double) : ∀ c ∈ x.toText, IsNotation c := by
  by_cases hx : x.val = 0
  case pos =>
    rw [Double.toText, if_pos hx]
    exact List.forall_iff_forall_mem.mp (by decide)
  case neg =>
    obtain ⟨whole, frac, tail, k, hl, -, hw, hf, -, ht, -⟩ :=
      layout_parts (n := x.shortest.2) (shortest_ne_nil hx) (isDigit_shortest x)
    rw [toText_of_ne hx, hl]
    refine List.forall_mem_append.mpr ⟨?_, List.forall_mem_append.mpr ⟨fun c hc => ?_, ht⟩⟩
    · split <;> exact List.forall_iff_forall_mem.mp (by decide)
    · rcases Decimal.mem_joined hc with rfl | h | h
      · decide
      · exact .inl (hw c h)
      · exact .inl (hf c h)

theorem toText_ne_nil (x : Double) : x.toText ≠ [] := by
  by_cases hx : x.val = 0
  case pos =>
    rw [Double.toText, if_pos hx]
    exact List.cons_ne_nil _ _
  case neg =>
    obtain ⟨whole, frac, tail, k, hl, hn, -⟩ :=
      layout_parts (n := x.shortest.2) (shortest_ne_nil hx) (isDigit_shortest x)
    have hj : Decimal.joined whole frac ≠ [] := by
      unfold Decimal.joined
      split <;> simp [hn]
    rw [toText_of_ne hx, hl]
    simp [hj]

-- The text of a number is read as the same number.
theorem number_toText (x : Double) : number x.toText = some x.val := by
  by_cases hx : x.val = 0
  case pos =>
    rw [Double.toText, if_pos hx, hx]
    exact number_render (n := 0) (by decide)
  case neg =>
    obtain ⟨whole, frac, tail, k, hl, hn, hw, hf, ht, -, hk, hv⟩ :=
      layout_parts (n := x.shortest.2) (shortest_ne_nil hx) (isDigit_shortest x)
    have hp := (precision_spec x).2
    rw [number, literal_of_isNotation (toText_ne_nil x) (isNotation_toText x), toText_of_ne hx, hl,
      decimal_parts hn hw hf ht hk, Option.bind_some, hv, shortest_value]
    by_cases hneg : x.val < 0
    case pos =>
      rw [decide_eq_true hneg, if_pos rfl, neg_one_mul, round_neg, hp, abs_of_neg hneg, Option.map_some, neg_neg]
    case neg =>
      rw [decide_eq_false hneg, if_neg Bool.false_ne_true, one_mul, hp, abs_of_nonneg (not_lt.mp hneg)]

theorem toText_injective {x y : Double} (h : x.toText = y.toText) : x = y := by
  have hv : x.val = y.val := Option.some.inj <| by rw [← number_toText, h, number_toText]
  cases x
  cases y
  congr

end Text.Number
