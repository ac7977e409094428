import Mathlib.Algebra.BigOperators.Group.List.Basic
import Mathlib.Algebra.Order.BigOperators.Group.List
import Mathlib.Data.List.Forall2
import Mathlib.Data.List.Sort
import Mathlib.Tactic.Linarith
import Mathlib.Tactic.Ring

-- The method of the largest remainders
namespace Apportionment

-- Larger remainders come first, and equal ones in the order of their indices.
def Before (remainders : List Int) (i j : Nat) : Prop :=
  remainders.getD j 0 < remainders.getD i 0 ∨ remainders.getD i 0 = remainders.getD j 0 ∧ i ≤ j

instance : DecidableRel (Before remainders) :=
  fun _ _ => inferInstanceAs (Decidable (_ ∨ _))

def order (remainders : List Int) : List Nat :=
  (List.range remainders.length).insertionSort (Before remainders)

-- Adds one at each index, until nothing remains to be distributed.
def bump (amounts : List Int) (remaining : Int) : List Nat → List Int
  | []          => amounts
  | index :: tl => if remaining = 0 then amounts else bump (amounts.modify index (· + 1)) (remaining - 1) tl

def distribute (amounts remainders : List Int) (remaining : Int) : List Int :=
  if remaining > 0 then bump amounts remaining (order remainders) else amounts

section Order

variable {r : List Int} {i j : Nat}

instance : Std.Total (Before r) where
  total i j := by
    unfold Before
    omega

instance : IsTrans Nat (Before r) where
  trans i j k := by
    unfold Before
    omega

instance : Std.Antisymm (Before r) where
  antisymm i j := by
    unfold Before
    omega

theorem perm_order (r : List Int) : (order r).Perm (List.range r.length) :=
  List.perm_insertionSort ..

theorem nodup_order (r : List Int) : (order r).Nodup :=
  (perm_order r).nodup_iff.mpr List.nodup_range

theorem mem_order : i ∈ order r ↔ i < r.length :=
  (perm_order r).mem_iff.trans List.mem_range

theorem length_order (r : List Int) : (order r).length = r.length :=
  (perm_order r).length_eq.trans List.length_range

-- Whoever comes before one of the first is one of the first.
theorem mem_take_of_before (h : j ∈ (order r).take k) (hi : i < r.length) (hb : Before r i j) :
    i ∈ (order r).take k := by
  have hs : (order r).Pairwise (Before r) := List.pairwise_insertionSort ..
  have hm := mem_order.mpr hi
  rw [← List.take_append_drop k (order r)] at hs hm
  rcases List.mem_append.mp hm with hm | hm
  case inl => exact hm
  case inr => exact antisymm hb ((List.pairwise_append.mp hs).2.2 j h i hm) ▸ h

end Order

section Bump

variable {amounts l : List Int} {indices : List Nat} {k : Int}

@[simp]
theorem length_bump : (bump amounts k indices).length = amounts.length := by
  induction indices generalizing amounts k with
  | nil => rfl
  | cons i tl hi =>
    rw [bump]
    split
    · rfl
    · rw [hi, List.length_modify]

theorem getElem?_bump (h : indices.Nodup) (hk : 0 ≤ k) (i : Nat) : (bump amounts k indices)[i]? =
    amounts[i]?.map fun a => if i ∈ indices.take k.toNat then a + 1 else a := by
  induction indices generalizing amounts k with
  | nil => simp [bump]
  | cons j tl hi =>
    have ⟨hj, htl⟩ := List.nodup_cons.mp h
    rw [bump]
    split
    case isTrue hz => simp [hz]
    case isFalse hz =>
      have hk' : k.toNat = (k - 1).toNat + 1 := by omega
      rw [hi htl (by omega), hk', List.take_succ_cons, List.getElem?_modify, Option.map_eq_map,
        Option.map_map]
      refine congrArg (Option.map · _) <| funext fun a => ?_
      have hn : j ∉ tl.take (k - 1).toNat := fun hm => hj (List.mem_of_mem_take hm)
      by_cases he : j = i
      case pos =>
        subst he
        simp only [if_true, List.mem_cons, true_or, Function.comp_apply, hn, if_false]
      case neg => simp [he, Ne.symm he]

theorem sum_modify_add_one {i : Nat} (h : i < l.length) : (l.modify i (· + 1)).sum = l.sum + 1 := by
  induction l generalizing i with
  | nil => contradiction
  | cons a l hi =>
    cases i with
    | zero =>
      rw [List.modify_zero_cons, List.sum_cons, List.sum_cons]
      omega
    | succ i =>
      rw [List.modify_succ_cons, List.sum_cons, List.sum_cons, hi (Nat.lt_of_succ_lt_succ h)]
      omega

theorem sum_bump (h : ∀ i ∈ indices, i < amounts.length) (hk : 0 ≤ k) (hl : k ≤ indices.length) :
    (bump amounts k indices).sum = amounts.sum + k := by
  induction indices generalizing amounts k with
  | nil =>
    have hk : k = 0 := by simpa using le_antisymm hl hk
    simp [bump, hk]
  | cons i tl hi =>
    have ⟨h₀, htl⟩ := List.forall_mem_cons.mp h
    rw [bump]
    split
    case isTrue hz  => simp [hz]
    case isFalse hz =>
      rw [List.length_cons] at hl
      rw [hi (by simpa using htl) (by omega) (by omega), sum_modify_add_one h₀]
      omega

end Bump

-- Whole parts, and what remains of a division

def wholes (numerators : List Int) (d : Int) : List Int :=
  numerators.map (· / d)

def remainders (numerators : List Int) (d : Int) : List Int :=
  numerators.map (· % d)

-- What is lost by rounding each number down, instead of their sum.
def residual (numerators : List Int) (d : Int) : Int :=
  numerators.sum / d - (wholes numerators d).sum

def apportion (numerators : List Int) (d : Int) : List Int :=
  distribute (wholes numerators d) (remainders numerators d) (residual numerators d)

section Apportion

variable {l : List Int} {d n m x y : Int} {i j : Nat}

theorem sum_eq (l : List Int) (d : Int) : l.sum = d * (wholes l d).sum + (remainders l d).sum := by
  induction l with
  | nil => simp [wholes, remainders]
  | cons n l hi =>
    have := Int.mul_ediv_add_emod n d
    simp only [wholes, remainders, List.map_cons, List.sum_cons, mul_add] at hi ⊢
    omega

theorem residual_eq (h : 0 < d) (l : List Int) : residual l d = (remainders l d).sum / d := by
  rw [residual, sum_eq l d, Int.add_comm, Int.add_mul_ediv_left _ _ h.ne']
  omega

theorem sum_remainders_nonneg (h : 0 < d) (l : List Int) : 0 ≤ (remainders l d).sum :=
  List.sum_nonneg fun _ hr => by
    have ⟨n, _, hn⟩ := List.mem_map.mp hr
    exact hn ▸ Int.emod_nonneg n h.ne'

theorem residual_nonneg (h : 0 < d) (l : List Int) : 0 ≤ residual l d :=
  residual_eq h l ▸ Int.ediv_nonneg (sum_remainders_nonneg h l) h.le

-- Each remainder that is not zero accounts for less than one.
theorem sum_remainders_le (h : 0 < d) (l : List Int) :
    (remainders l d).sum ≤ (d - 1) * ((remainders l d).countP (0 < ·) : Nat) := by
  induction l with
  | nil => simp [remainders]
  | cons n l hi =>
    have h₀ := Int.emod_nonneg n h.ne'
    have h₁ := Int.emod_lt_of_pos n h
    simp only [remainders, List.map_cons, List.sum_cons, List.countP_cons] at hi ⊢
    by_cases hz : 0 < n % d
    case pos =>
      simp only [hz, decide_true, if_true, Nat.cast_add, Nat.cast_one, mul_add, mul_one]
      omega
    case neg =>
      simp only [hz, decide_false, Bool.false_eq_true, if_false, Nat.add_zero]
      omega

theorem residual_lt (h : 0 < d) (hn : residual l d ≠ 0) :
    residual l d < ((remainders l d).countP (0 < ·) : Nat) := by
  have h₀ := residual_nonneg h l
  have hle := sum_remainders_le h l
  have hk := residual_eq h l
  have hm := Int.mul_ediv_self_le (x := (remainders l d).sum) h.ne'
  rw [← hk] at hm
  by_contra hc
  have hc := not_lt.mp hc
  have hd : (d - 1) * ((remainders l d).countP (0 < ·) : Nat) ≤ (d - 1) * residual l d :=
    mul_le_mul_of_nonneg_left hc (by omega)
  have he : d * residual l d = (d - 1) * residual l d + residual l d := by ring
  omega

theorem length_remainders : (remainders l d).length = l.length :=
  List.length_map ..

theorem length_wholes : (wholes l d).length = l.length :=
  List.length_map ..

theorem residual_le_length (h : 0 < d) (l : List Int) : residual l d ≤ l.length := by
  by_cases hz : residual l d = 0
  case pos => omega
  case neg =>
    have hlt := residual_lt h hz
    have hle := List.countP_le_length (p := (0 < ·)) (l := remainders l d)
    rw [length_remainders] at hle
    omega

theorem residual_lt_length (h : 0 < d) (hn : l ≠ []) : residual l d < l.length := by
  by_cases hz : residual l d = 0
  case pos =>
    have := List.length_pos_iff.mpr hn
    omega
  case neg =>
    have hlt := residual_lt h hz
    have hle := List.countP_le_length (p := (0 < ·)) (l := remainders l d)
    rw [length_remainders] at hle
    omega

-- The indices to which one is added.
def favoured (l : List Int) (d : Int) : List Nat :=
  (order (remainders l d)).take (residual l d).toNat

theorem remainder_eq (h : l[i]? = some n) : (remainders l d).getD i 0 = n % d := by
  rw [List.getD_eq_getElem?_getD, remainders, List.getElem?_map, h]
  rfl

theorem lt_of_getElem? {α : Type} {l : List α} {a : α} (h : l[i]? = some a) : i < l.length :=
  (List.getElem?_eq_some_iff.mp h).1

-- The indices of the remainders that are not zero.
def positives (r : List Int) : List Nat :=
  (List.range r.length).filter fun i => 0 < r.getD i 0

theorem mem_positives {r : List Int} : i ∈ positives r ↔ i < r.length ∧ 0 < r.getD i 0 := by
  simp [positives]

theorem nodup_positives {r : List Int} : (positives r).Nodup :=
  List.nodup_range.filter _

theorem length_positives (r : List Int) : (positives r).length = r.countP (0 < ·) := by
  have hr : r = (List.range r.length).map (r.getD · 0) := List.ext_getElem (by simp) fun i hi _ => by simp [hi]
  conv => rhs; rw [hr, List.countP_map]
  exact List.countP_eq_length_filter.symm

-- There are more remainders than ones to distribute, hence nothing is added to an exact quotient.
theorem not_dvd_of_favoured (h : 0 < d) (hi : l[i]? = some n) (hf : i ∈ favoured l d) : ¬d ∣ n := by
  intro hd
  have hz : (remainders l d).getD i 0 = 0 := remainder_eq hi ▸ Int.emod_eq_zero_of_dvd hd
  have hk : residual l d ≠ 0 := by
    intro hk
    simp [favoured, hk] at hf
  have hk := residual_lt h hk
  have hsub : ∀ j ∈ i :: positives (remainders l d), j ∈ favoured l d := by
    intro j hj
    rcases List.mem_cons.mp hj with rfl | hj
    case inl => exact hf
    case inr =>
      have ⟨hlt, hp⟩ := mem_positives.mp hj
      exact mem_take_of_before hf hlt <| .inl (by omega)
  have hnodup : (i :: positives (remainders l d)).Nodup :=
    List.nodup_cons.mpr ⟨fun hi => absurd (mem_positives.mp hi).2 (by omega), nodup_positives⟩
  have hle := (List.subperm_of_subset hnodup hsub).length_le
  have ht := List.length_take_le (residual l d).toNat (order (remainders l d))
  rw [List.length_cons, length_positives] at hle
  have hle := hle.trans ht
  omega

theorem favoured_of_before (h : j ∈ favoured l d) (hi : i < l.length) (hb : Before (remainders l d) i j) :
    i ∈ favoured l d :=
  mem_take_of_before h (hi.trans_eq length_remainders.symm) hb

theorem apportion_eq (h : 0 < d) (l : List Int) :
    apportion l d = bump (wholes l d) (residual l d) (order (remainders l d)) := by
  rw [apportion, distribute]
  split
  case isTrue => rfl
  case isFalse hr =>
    have hz : residual l d = 0 := le_antisymm (not_lt.mp hr) (residual_nonneg h l)
    cases order (remainders l d) <;> simp [bump, hz]

theorem length_apportion (h : 0 < d) (l : List Int) : (apportion l d).length = l.length := by
  rw [apportion_eq h, length_bump, length_wholes]

theorem getElem?_apportion (h : 0 < d) (l : List Int) (i : Nat) :
    (apportion l d)[i]? = l[i]?.map fun n => if i ∈ favoured l d then n / d + 1 else n / d := by
  rw [apportion_eq h, getElem?_bump (nodup_order _) (residual_nonneg h l), wholes, List.getElem?_map, Option.map_map]
  rfl

theorem sum_apportion (h : 0 < d) (l : List Int) : (apportion l d).sum = l.sum / d := by
  rw [apportion_eq h, sum_bump, residual]
  · omega
  · intro i hi
    rw [length_wholes, ← length_remainders (d := d)]
    exact mem_order.mp hi
  · exact residual_nonneg h l
  · rw [length_order, length_remainders]
    exact residual_le_length h l

-- Each part is its quotient rounded down, or the next number if the quotient is not exact.
theorem apportion_cases (h : 0 < d) (hn : l[i]? = some n) (hx : (apportion l d)[i]? = some x) :
    x = n / d ∨ x = n / d + 1 ∧ ¬d ∣ n := by
  rw [getElem?_apportion h, hn, Option.map_some, Option.some_inj] at hx
  split at hx
  case isTrue hf => exact .inr ⟨hx.symm, not_dvd_of_favoured h hn hf⟩
  case isFalse   => exact .inl hx.symm

theorem apportion_nonneg (h : 0 < d) (hl : ∀ n ∈ l, 0 ≤ n) : ∀ x ∈ apportion l d, 0 ≤ x := by
  intro x hx
  have ⟨i, hi⟩ := List.mem_iff_getElem?.mp hx
  have hlt := lt_of_getElem? hi
  rw [length_apportion h] at hlt
  have hq := Int.ediv_nonneg (hl _ (List.getElem_mem hlt)) h.le
  have := apportion_cases h (List.getElem?_eq_getElem hlt) hi
  omega

theorem forall₂_apportion (h : 0 < d) (l : List Int) :
    List.Forall₂ (fun n x => x = n / d ∨ x = n / d + 1 ∧ ¬d ∣ n) l (apportion l d) := by
  refine List.forall₂_iff_get.mpr ⟨(length_apportion h l).symm, fun i h₁ h₂ => ?_⟩
  exact apportion_cases (i := i) h (List.getElem?_eq_getElem h₁) (List.getElem?_eq_getElem h₂)

theorem countP_of_forall₂ {l' : List Int} (h : List.Forall₂ (fun n x => x = n / d ∨ x = n / d + 1 ∧ ¬d ∣ n) l l') :
    (((l.zip l').countP fun p => p.2 = p.1 / d + 1 : Nat) : Int) = l'.sum - (wholes l d).sum := by
  induction h with
  | nil => rfl
  | cons hx _ hi =>
    simp only [wholes, List.zip_cons_cons, List.countP_cons, List.map_cons, List.sum_cons] at hi ⊢
    rcases hx with rfl | ⟨rfl, _⟩
    · simp
      omega
    · simp
      omega

-- As many ones are added as are lost by rounding down.
theorem countP_apportion (h : 0 < d) (l : List Int) :
    (((l.zip (apportion l d)).countP fun p => p.2 = p.1 / d + 1 : Nat) : Int) = residual l d := by
  rw [countP_of_forall₂ (forall₂_apportion h l), sum_apportion h, residual]

-- The larger part goes to the larger number, or to the first of equal ones.
theorem apportion_mono (h : 0 < d) (hn : l[i]? = some n) (hm : l[j]? = some m)
    (hx : (apportion l d)[i]? = some x) (hy : (apportion l d)[j]? = some y)
    (hlt : m < n ∨ m = n ∧ i ≤ j) : y ≤ x := by
  rw [getElem?_apportion h, hn, Option.map_some, Option.some_inj] at hx
  rw [getElem?_apportion h, hm, Option.map_some, Option.some_inj] at hy
  have hq : m / d ≤ n / d := Int.ediv_le_ediv h (by omega)
  by_cases he : m / d = n / d
  case neg =>
    split at hx <;> split at hy <;> omega
  case pos =>
    have hb : Before (remainders l d) i j := by
      have hm' := Int.mul_ediv_add_emod m d
      have hn' := Int.mul_ediv_add_emod n d
      rw [he] at hm'
      rw [Before, remainder_eq hn, remainder_eq hm]
      omega
    have hf : j ∈ favoured l d → i ∈ favoured l d := fun hj => favoured_of_before hj (lt_of_getElem? hn) hb
    split at hx <;> split at hy <;> first | omega | tauto

-- Exact quotients are kept.
theorem apportion_mul (h : 0 < d) (l : List Int) : apportion (l.map (· * d)) d = l := by
  refine List.ext_getElem? fun i => ?_
  cases hi : l[i]? with
  | none =>
    rw [List.getElem?_eq_none_iff, length_apportion h, List.length_map]
    exact List.getElem?_eq_none_iff.mp hi
  | some n =>
    have hn : (l.map (· * d))[i]? = some (n * d) := by rw [List.getElem?_map, hi, Option.map_some]
    have ⟨x, hx⟩ : ∃ x, (apportion (l.map (· * d)) d)[i]? = some x :=
      ⟨_, List.getElem?_eq_getElem (by simpa [length_apportion h] using lt_of_getElem? hi)⟩
    rcases apportion_cases h hn hx with rfl | ⟨_, hd⟩
    · rw [hx, Int.mul_ediv_cancel _ h.ne']
    · exact absurd (Int.dvd_mul_left ..) hd

end Apportion

end Apportionment
