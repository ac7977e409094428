import Mathlib.Algebra.Order.Round
import Mathlib.Tactic.Linarith
import Mathlib.Tactic.Ring

-- Rounding to integers
namespace Rounding

inductive Mode
  | down
  | up
  | halfUp
  deriving DecidableEq

section

variable {α : Type} [Field α] [LinearOrder α] [IsStrictOrderedRing α] [FloorRing α] {mode : Mode} {x y : α}

def magnitude (mode : Mode) (x : α) : Int :=
  match mode with
  | .down   => ⌊x⌋
  | .up     => ⌈x⌉
  | .halfUp => round x

-- Negative numbers are rounded by their magnitude.
def toInt (mode : Mode) (x : α) : Int :=
  if x < 0 then -magnitude mode (-x) else magnitude mode x

@[simp]
theorem magnitude_intCast (n : Int) : magnitude mode (n : α) = n := by
  cases mode <;> simp [magnitude]

@[simp]
theorem magnitude_zero : magnitude mode (0 : α) = 0 := by
  have h : magnitude mode ((0 : Int) : α) = 0 := magnitude_intCast 0
  rwa [Int.cast_zero] at h

theorem magnitude_mono (h : x ≤ y) : magnitude mode x ≤ magnitude mode y := by
  cases mode with
  | down   => exact Int.floor_mono h
  | up     => exact Int.ceil_mono h
  | halfUp =>
    rw [magnitude, magnitude, round_eq, round_eq]
    exact Int.floor_mono <| by linarith

theorem magnitude_nonneg (h : 0 ≤ x) : 0 ≤ magnitude mode x := by
  have h₀ : magnitude mode (0 : α) = 0 := magnitude_zero
  exact h₀ ▸ magnitude_mono h

theorem abs_magnitude_sub_lt : |magnitude mode x - x| < 1 := by
  rw [abs_lt]
  cases mode with
  | down =>
    have h₀ := Int.floor_le x
    have h₁ := Int.lt_floor_add_one x
    constructor <;> simp only [magnitude] <;> linarith
  | up =>
    have h₀ := Int.le_ceil x
    have h₁ := Int.ceil_lt_add_one x
    constructor <;> simp only [magnitude] <;> linarith
  | halfUp =>
    have ⟨h₀, h₁⟩ := abs_le.mp <| abs_sub_round x
    constructor <;> simp only [magnitude] <;> linarith

theorem abs_halfUp_sub_le : |magnitude .halfUp x - x| ≤ 1 / 2 := by
  rw [abs_sub_comm]
  exact abs_sub_round x

-- Between the two integers next to a number, the modes are ordered.
theorem down_le (mode : Mode) (x : α) : magnitude .down x ≤ magnitude mode x := by
  have h : magnitude mode (⌊x⌋ : α) ≤ magnitude mode x := magnitude_mono (Int.floor_le x)
  rwa [magnitude_intCast] at h

theorem le_up (mode : Mode) (x : α) : magnitude mode x ≤ magnitude .up x := by
  have h : magnitude mode x ≤ magnitude mode (⌈x⌉ : α) := magnitude_mono (Int.le_ceil x)
  rwa [magnitude_intCast] at h

omit [IsStrictOrderedRing α] in
theorem up_le_down_add_one (x : α) : magnitude .up x ≤ magnitude .down x + 1 :=
  Int.ceil_le_floor_add_one x

omit [IsStrictOrderedRing α] in
theorem toInt_of_nonneg (h : 0 ≤ x) : toInt mode x = magnitude mode x :=
  if_neg <| not_lt.mpr h

@[simp]
theorem toInt_neg (x : α) : toInt mode (-x) = -toInt mode x := by
  rcases lt_trichotomy x 0 with h | rfl | h
  · rw [toInt, toInt, if_neg (by linarith), if_pos h, neg_neg]
  · simp [toInt]
  · rw [toInt, toInt, if_pos (by linarith), if_neg (by linarith), neg_neg]

theorem toInt_eq_neg (h : x ≤ 0) : toInt mode x = -magnitude mode (-x) := by
  have hn : toInt mode (-x) = magnitude mode (-x) := toInt_of_nonneg (by linarith)
  rw [toInt_neg] at hn
  omega

theorem toInt_intCast (n : Int) : toInt mode (n : α) = n := by
  rcases le_total 0 n with h | h
  case inl =>
    have h : (0 : α) ≤ n := by exact_mod_cast h
    rw [toInt_of_nonneg h, magnitude_intCast]
  case inr =>
    have h : (n : α) ≤ 0 := by exact_mod_cast h
    rw [toInt_eq_neg h, ← Int.cast_neg, magnitude_intCast, neg_neg]

theorem toInt_mono (h : x ≤ y) : toInt mode x ≤ toInt mode y := by
  rcases le_total 0 x with hx | hx
  case inl =>
    rw [toInt_of_nonneg hx, toInt_of_nonneg (hx.trans h)]
    exact magnitude_mono h
  case inr =>
    rw [toInt_eq_neg hx]
    rcases le_total 0 y with hy | hy
    case inl =>
      have h₀ : 0 ≤ magnitude mode (-x) := magnitude_nonneg (neg_nonneg.mpr hx)
      have h₁ : 0 ≤ magnitude mode y := magnitude_nonneg hy
      rw [toInt_of_nonneg hy]
      omega
    case inr =>
      rw [toInt_eq_neg hy]
      exact neg_le_neg <| magnitude_mono <| neg_le_neg h

theorem toInt_nonneg (h : 0 ≤ x) : 0 ≤ toInt mode x :=
  toInt_of_nonneg h ▸ magnitude_nonneg h

theorem toInt_nonpos (h : x ≤ 0) : toInt mode x ≤ 0 :=
  toInt_eq_neg h ▸ neg_nonpos.mpr (magnitude_nonneg (neg_nonneg.mpr h))

theorem natAbs_toInt : ((toInt mode x).natAbs : Int) = magnitude mode |x| := by
  rcases le_total 0 x with h | h
  case inl => rw [toInt_of_nonneg h, abs_of_nonneg h, Int.natAbs_of_nonneg (magnitude_nonneg h)]
  case inr =>
    rw [toInt_eq_neg h, abs_of_nonpos h, Int.natAbs_neg,
      Int.natAbs_of_nonneg (magnitude_nonneg (neg_nonneg.mpr h))]

theorem abs_toInt_sub (mode : Mode) (x : α) : |toInt mode x - x| = abs (magnitude mode |x| - |x|) := by
  rcases le_total 0 x with h | h
  case inl => rw [toInt_of_nonneg h, abs_of_nonneg h]
  case inr =>
    have he : ((-magnitude mode (-x) : Int) : α) - x = -(magnitude mode (-x) - -x) := by
      push_cast
      ring
    rw [toInt_eq_neg h, abs_of_nonpos h, he, abs_neg]

theorem abs_toInt_sub_lt : |toInt mode x - x| < 1 :=
  abs_toInt_sub mode x ▸ abs_magnitude_sub_lt

theorem abs_toInt_halfUp_sub_le : |toInt .halfUp x - x| ≤ 1 / 2 :=
  abs_toInt_sub .halfUp x ▸ abs_halfUp_sub_le

-- Rounding down loses less than one for each of two summands.
theorem down_add_le : magnitude .down x + magnitude .down y ≤ magnitude .down (x + y) :=
  Int.le_floor_add x y

theorem down_add_le_add_one : magnitude .down (x + y) ≤ magnitude .down x + magnitude .down y + 1 := by
  have := Int.le_floor_add_floor x y
  simp only [magnitude]
  omega

end

end Rounding
