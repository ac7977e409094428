import Mathlib.Algebra.Group.Nat.Defs
import Mathlib.Data.List.DropRight

namespace Text

-- The white space that is stripped by JavaScript's `trim`.
def isWhitespace (c : Char) : Bool :=
  c.toNat ∈ [0x09, 0x0a, 0x0b, 0x0c, 0x0d, 0x20, 0xa0, 0x1680, 0x2028, 0x2029, 0x202f, 0x205f,
    0x3000, 0xfeff] || (0x2000 ≤ c.toNat && c.toNat ≤ 0x200a)

def trim (l : List Char) : List Char :=
  (l.dropWhile isWhitespace).rdropWhile isWhitespace

def padStart (n : Nat) (c : Char) (l : List Char) : List Char :=
  List.replicate (n - l.length) c ++ l

-- `l` occurs somewhere in `text`.
def occursIn (l text : List Char) : Bool :=
  text.tails.any (l.isPrefixOf ·)

-- Brings `l` to length `n`, by padding with or cutting off at the end.
def padEnd (n : Nat) (c : Char) (l : List Char) : List Char :=
  (l ++ List.replicate n c).take n

theorem trim_eq_self {l : List Char} (h : ∀ c ∈ l, isWhitespace c = false) : trim l = l := by
  have hd : l.dropWhile isWhitespace = l := by
    cases l
    case nil       => rfl
    case cons a tl => simp [h a]
  have hr : l.rdropWhile isWhitespace = l := by
    refine List.rdropWhile_eq_self_iff.mpr fun hl => ?_
    simp [h _ (List.getLast_mem hl)]
  rw [trim, hd, hr]

theorem trim_eq_nil {l : List Char} : trim l = [] ↔ ∀ c ∈ l, isWhitespace c = true := by
  rw [trim, List.rdropWhile_eq_nil_iff]
  constructor
  case mp =>
    intro h
    rw [← List.dropWhile_eq_nil_iff]
    by_contra hn
    have hh := List.head_dropWhile_not isWhitespace hn
    have := h _ (List.head_mem hn)
    simp [hh] at this
  case mpr => exact fun h c hc => h c ((List.dropWhile_sublist _).subset hc)

-- White space is trimmed on both sides.

theorem trim_append {l before after : List Char} (h : ∀ c ∈ before ++ after, isWhitespace c = true)
    (hl : ∀ c ∈ l, isWhitespace c = false) : trim (before ++ l ++ after) = l := by
  have ⟨hb, ha⟩ := List.forall_mem_append.mp h
  have hr : (l ++ after).rdropWhile isWhitespace = l.rdropWhile isWhitespace := by
    rw [List.rdropWhile, List.reverse_append, List.dropWhile_append_of_pos (by simpa using ha)]
    rfl
  rw [trim, List.append_assoc, List.dropWhile_append_of_pos hb]
  cases l with
  | nil       => exact trim_eq_nil.mpr ha
  | cons c tl =>
    have hc := hl c List.mem_cons_self
    rw [List.cons_append, List.dropWhile_cons_of_neg (by simp [hc]), ← List.cons_append, hr]
    refine List.rdropWhile_eq_self_iff.mpr fun hn => ?_
    simp [hl _ (List.getLast_mem hn)]

theorem exists_trim (l : List Char) : ∃ before after, l = before ++ trim l ++ after ∧
    ∀ c ∈ before ++ after, isWhitespace c = true := by
  refine ⟨l.takeWhile isWhitespace, (l.dropWhile isWhitespace).rtakeWhile isWhitespace, ?_, ?_⟩
  · rw [List.append_assoc, trim, List.rdropWhile_append_rtakeWhile, List.takeWhile_append_dropWhile]
  · exact List.forall_mem_append.mpr ⟨fun _ => List.mem_takeWhile_imp, fun _ => List.mem_rtakeWhile_imp⟩

-- The characters of a text are white space, or they remain after trimming.
theorem mem_trim {l : List Char} (h : c ∈ l) : isWhitespace c = true ∨ c ∈ trim l := by
  have ⟨before, after, hl, hw⟩ := exists_trim l
  rw [hl, List.mem_append, List.mem_append] at h
  rcases h with (h | h) | h
  · exact .inl <| hw c (List.mem_append_left _ h)
  · exact .inr h
  · exact .inl <| hw c (List.mem_append_right _ h)

-- Decimal notation of natural multiples of `10 ^ -k`.
namespace Decimal

-- The language of `^\d+(?:\.\d+)?$`.
def accepts (l : List Char) : Bool :=
  l.takeWhile Char.isDigit ≠ [] && match l.dropWhile Char.isDigit with
    | []       => true
    | hd :: tl => hd = '.' && tl ≠ [] && tl.all Char.isDigit

-- The parts in front of and behind the first dot.
def split (l : List Char) : List Char × List Char :=
  (l.takeWhile (· ≠ '.'), (l.dropWhile (· ≠ '.')).tail)

-- Removes leading zeros, but keeps the last digit.
def dropZeros : List Char → List Char
  | '0' :: c :: tl => if c.isDigit then dropZeros (c :: tl) else '0' :: c :: tl
  | l              => l

def digits (l : List Char) : Nat :=
  Nat.ofDigitChars 10 l 0

def value (k : Nat) (l : List Char) : Nat :=
  digits (dropZeros (split l).1) * 10 ^ k + digits (padEnd k '0' (split l).2)

def joined (whole frac : List Char) : List Char :=
  if frac = [] then whole else whole ++ '.' :: frac

-- The fraction digits of `n * 10 ^ -k` without trailing zeros.
def fraction (k n : Nat) : List Char :=
  (padStart k '0' (Nat.toDigits 10 (n % 10 ^ k))).rdropWhile (· = '0')

-- The canonical notation of `n * 10 ^ -k`.
def render (k n : Nat) : List Char :=
  joined (Nat.toDigits 10 (n / 10 ^ k)) (fraction k n)

theorem isDigit_toDigits {n : Nat} (h : c ∈ Nat.toDigits 10 n) : c.isDigit = true :=
  Nat.isDigit_of_mem_toDigits (by decide) (by decide) h

theorem dropWhile_eq_nil {p : Char → Bool} {l : List Char} (h : ∀ c ∈ l, p c = true) :
    l.dropWhile p = [] :=
  List.dropWhile_eq_nil_iff.mpr h

theorem takeWhile_eq_self {p : Char → Bool} {l : List Char} (h : ∀ c ∈ l, p c = true) :
    l.takeWhile p = l :=
  List.takeWhile_eq_self_iff.mpr h

section Pad

theorem length_padStart {l : List Char} (h : l.length ≤ n) : (padStart n c l).length = n := by
  simp [padStart]
  omega

theorem digits_padStart (n : Nat) (l : List Char) : digits (padStart n '0' l) = digits l := by
  simp [digits, padStart, Nat.ofDigitChars_append, Nat.ofDigitChars_replicate_zero]

theorem mem_padStart {l : List Char} (h : d ∈ padStart n c l) : d = c ∨ d ∈ l := by
  simp only [padStart, List.mem_append, List.mem_replicate] at h
  exact h.imp_left And.right

-- Trailing zeros of a fraction carry no information.
theorem padEnd_rdropWhile {l : List Char} (h : l.length = n) :
    padEnd n '0' (l.rdropWhile (· = '0')) = l := by
  induction l using List.reverseRecOn generalizing n
  case nil => simp_all [padEnd]
  case append_singleton l a hi =>
    simp only [List.length_append, List.length_singleton] at h
    subst h
    by_cases ha : a = '0'
    case neg =>
      simp [padEnd, List.rdropWhile_concat_neg, List.take_append, List.take_of_length_le, ha]
    case pos =>
      subst ha
      have hle : (l.rdropWhile (· = '0')).length ≤ l.length :=
        (List.rdropWhile_prefix _ _).length_le
      have hi := hi rfl
      simp only [padEnd, List.take_append, List.take_of_length_le hle, List.take_replicate] at hi
      rw [List.rdropWhile_concat_pos _ _ _ (by simp)]
      simp only [padEnd, List.take_append, List.take_replicate,
        List.take_of_length_le (Nat.le_succ_of_le hle)]
      have hm : min (l.length + 1 - (l.rdropWhile (· = '0')).length) (l.length + 1) =
          min (l.length - (l.rdropWhile (· = '0')).length) l.length + 1 := by omega
      rw [hm, List.replicate_succ', ← List.append_assoc, hi]

end Pad

theorem digits_dropZeros (l : List Char) : digits (dropZeros l) = digits l := by
  induction l using dropZeros.induct
  case case1 c tl hc hi => simp_all [dropZeros, digits, Nat.ofDigitChars_cons (c := '0')]
  case case2 c tl hc    => simp [dropZeros, hc]
  case case3 l h        => rw [dropZeros]; exact h

theorem isDigit_dot : Char.isDigit '.' = false :=
  rfl

section Joined

variable {whole frac : List Char}

theorem ne_dot (h : ∀ c ∈ whole, c.isDigit = true) : ∀ c ∈ whole, decide (c ≠ '.') = true := by
  intro c hc
  refine decide_eq_true fun e => ?_
  have := h c hc
  simp [e, isDigit_dot] at this

theorem split_joined (h : ∀ c ∈ whole, c.isDigit = true) :
    split (joined whole frac) = (whole, frac) := by
  have hw := ne_dot h
  by_cases hf : frac = []
  case pos =>
    simp only [joined, hf, if_true, split, takeWhile_eq_self hw, dropWhile_eq_nil hw, List.tail_nil]
  case neg =>
    simp only [joined, hf, if_false, split]
    rw [List.takeWhile_append_of_pos hw, List.dropWhile_append_of_pos hw]
    simp

theorem accepts_joined (hn : whole ≠ []) (hw : ∀ c ∈ whole, c.isDigit = true)
    (hf : ∀ c ∈ frac, c.isDigit = true) : accepts (joined whole frac) = true := by
  by_cases hz : frac = []
  case pos =>
    simp [joined, hz, accepts, takeWhile_eq_self hw, dropWhile_eq_nil hw, hn]
  case neg =>
    simp only [joined, hz, if_false, accepts]
    rw [List.takeWhile_append_of_pos hw, List.dropWhile_append_of_pos hw]
    simp_all [isDigit_dot]

-- All accepted notations are of this form.
theorem accepts_ok (h : accepts l = true) : ∃ whole frac, l = joined whole frac ∧ whole ≠ [] ∧
    (∀ c ∈ whole, c.isDigit = true) ∧ ∀ c ∈ frac, c.isDigit = true := by
  simp only [accepts, Bool.and_eq_true, decide_eq_true_eq] at h
  have hl := l.takeWhile_append_dropWhile (p := Char.isDigit)
  have hw : ∀ c ∈ l.takeWhile Char.isDigit, c.isDigit = true := fun _ => List.mem_takeWhile_imp
  have ⟨hn, h⟩ := h
  split at h
  case h_1 hd =>
    rw [hd, List.append_nil] at hl
    exact ⟨l.takeWhile Char.isDigit, [], hl.symm, hn, hw, by simp⟩
  case h_2 hd tl he =>
    simp only [Bool.and_eq_true, decide_eq_true_eq, List.all_eq_true] at h
    refine ⟨l.takeWhile Char.isDigit, tl, ?_, hn, hw, h.2⟩
    rw [joined, if_neg h.1.2, ← h.1.1, ← he, hl]

theorem accepts_ne_nil (h : accepts l = true) : l ≠ [] := by
  intro he
  simp [he, accepts] at h

end Joined

section Render

variable {k n : Nat}

theorem isDigit_whole : ∀ c ∈ Nat.toDigits 10 (n / 10 ^ k), c.isDigit = true :=
  fun _ => isDigit_toDigits

theorem isDigit_fraction : ∀ c ∈ fraction k n, c.isDigit = true := by
  intro c hc
  have hc := mem_padStart <| (List.rdropWhile_prefix _ _).subset hc
  cases hc
  case inl h => subst h; rfl
  case inr h => exact isDigit_toDigits h

theorem padEnd_fraction (hk : 0 < k) :
    padEnd k '0' (fraction k n) = padStart k '0' (Nat.toDigits 10 (n % 10 ^ k)) := by
  refine padEnd_rdropWhile <| length_padStart ?_
  have hm : n % 10 ^ k < 10 ^ k := Nat.mod_lt _ <| Nat.pos_of_ne_zero (by simp)
  exact (Nat.length_toDigits_le_iff (by decide) hk).mpr hm

theorem length_fraction_le (hk : 0 < k) : (fraction k n).length ≤ k := by
  have hm : n % 10 ^ k < 10 ^ k := Nat.mod_lt _ <| Nat.pos_of_ne_zero (by simp)
  have hl := length_padStart (c := '0') <| (Nat.length_toDigits_le_iff (by decide) hk).mpr hm
  exact (List.rdropWhile_prefix _ _).length_le.trans_eq hl

theorem accepts_render : accepts (render k n) = true :=
  accepts_joined Nat.toDigits_ne_nil isDigit_whole isDigit_fraction

theorem split_render : split (render k n) = (Nat.toDigits 10 (n / 10 ^ k), fraction k n) :=
  split_joined isDigit_whole

theorem value_render (hk : 0 < k) : value k (render k n) = n := by
  simp only [value, split_render, digits_dropZeros, padEnd_fraction hk, digits_padStart]
  simp only [digits, Nat.ofDigitChars_ten_toDigits]
  exact Nat.div_add_mod' n (10 ^ k)

end Render

theorem isWhitespace_of_isDigit (h : Char.isDigit c = true) : isWhitespace c = false := by
  simp only [Char.isDigit, Bool.and_eq_true, decide_eq_true_eq] at h
  have h₁ : 48 ≤ c.toNat := h.1
  have h₂ : c.toNat ≤ 57 := h.2
  simp only [isWhitespace, Bool.or_eq_false_iff, Bool.and_eq_false_iff, decide_eq_false_iff_not,
    List.mem_cons, List.not_mem_nil, or_false]
  omega

theorem mem_joined (h : c ∈ joined whole frac) : c = '.' ∨ c ∈ whole ∨ c ∈ frac := by
  by_cases hf : frac = []
  case pos => simp_all [joined]
  case neg => simp_all only [joined, if_false, List.mem_append, List.mem_cons]; tauto

section Canonical

theorem mem_dropZeros (h : c ∈ dropZeros l) : c ∈ l := by
  induction l using dropZeros.induct
  case case1 d tl hd hi =>
    rw [dropZeros, if_pos hd] at h
    exact List.mem_cons_of_mem _ (hi h)
  case case2 d tl hd => rwa [dropZeros, if_neg hd] at h
  case case3 l hl    => rwa [dropZeros] at h; exact hl

theorem dropZeros_ne_nil (h : l ≠ []) : dropZeros l ≠ [] := by
  induction l using dropZeros.induct
  case case1 d tl hd hi => rw [dropZeros, if_pos hd]; exact hi (by simp)
  case case2 d tl hd    => rw [dropZeros, if_neg hd]; simp
  case case3 l hl       => rw [dropZeros]; exact h; exact hl

-- The notation without leading and trailing zeros.
def canonical (k : Nat) (l : List Char) : List Char :=
  joined (dropZeros (split l).1) ((padEnd k '0' (split l).2).rdropWhile (· = '0'))

theorem length_padEnd (l : List Char) : (padEnd k c l).length = k := by
  simp [padEnd]

theorem mem_padEnd {l : List Char} (h : d ∈ padEnd k c l) : d = c ∨ d ∈ l := by
  have h := List.mem_append.mp (List.mem_of_mem_take h)
  exact h.symm.imp_left fun h => (List.mem_replicate.mp h).2

theorem canonical_joined (h : accepts l = true) : ∃ whole frac, canonical k l = joined whole frac ∧
    whole ≠ [] ∧ (∀ c ∈ whole, c.isDigit = true) ∧ (∀ c ∈ frac, c.isDigit = true) ∧
    frac.length ≤ k ∧ digits whole = digits (split l).1 ∧ padEnd k '0' frac = padEnd k '0' (split l).2 := by
  have ⟨whole, frac, hl, hn, hw, hf⟩ := accepts_ok h
  subst hl
  rw [canonical, split_joined hw]
  refine ⟨_, _, rfl, dropZeros_ne_nil hn, fun c hc => hw c (mem_dropZeros hc), fun c hc => ?_,
    (List.rdropWhile_prefix _ _).length_le.trans_eq (length_padEnd frac), digits_dropZeros whole,
    padEnd_rdropWhile (length_padEnd frac)⟩
  cases mem_padEnd ((List.rdropWhile_prefix _ _).subset hc) with
  | inl h => subst h; rfl
  | inr h => exact hf c h

theorem accepts_canonical (h : accepts l = true) : accepts (canonical k l) = true := by
  have ⟨_, _, hc, hn, hw, hf, _⟩ := canonical_joined (k := k) h
  rw [hc]
  exact accepts_joined hn hw hf

theorem length_canonical (h : accepts l = true) : (split (canonical k l)).2.length ≤ k := by
  have ⟨_, _, hc, _, hw, _, hl, _⟩ := canonical_joined (k := k) h
  rwa [hc, split_joined hw]

theorem value_canonical (h : accepts l = true) : value k (canonical k l) = value k l := by
  have ⟨_, _, hc, _, hw, _, _, hd, hp⟩ := canonical_joined (k := k) h
  simp only [value, digits_dropZeros]
  rw [hc, split_joined hw, hd, hp]

theorem isWhitespace_of_accepts (h : accepts l = true) (hc : c ∈ l) : isWhitespace c = false := by
  have ⟨whole, frac, hl, _, hw, hf⟩ := accepts_ok h
  subst hl
  rcases mem_joined hc with rfl | h | h
  · rfl
  · exact isWhitespace_of_isDigit (hw c h)
  · exact isWhitespace_of_isDigit (hf c h)

end Canonical

-- Canonical notation has no white space that could be trimmed.
theorem isWhitespace_render (h : c ∈ render k n) : isWhitespace c = false := by
  rcases mem_joined h with rfl | h | h
  · rfl
  · exact isWhitespace_of_isDigit (isDigit_whole c h)
  · exact isWhitespace_of_isDigit (isDigit_fraction c h)

end Decimal
end Text
