import Mathlib.Algebra.BigOperators.Group.List.Basic
import Mathlib.Algebra.Ring.Int.Defs
import Mathlib.Data.List.Nodup

-- A finite map whose entries keep the order in which their keys were first inserted.
abbrev OrderedMap (κ α : Type) := List (κ × α)

namespace OrderedMap

variable {κ α : Type}

def keys (m : OrderedMap κ α) : List κ :=
  m.map Prod.fst

@[simp]
theorem keys_nil : keys ([] : OrderedMap κ α) = [] :=
  rfl

variable [DecidableEq κ]

def get? : OrderedMap κ α → κ → Option α
  | [], _            => none
  | (k', a) :: tl, k => if k' = k then some a else get? tl k

-- Replaces the value of a key in place, or appends a new entry.
def set : OrderedMap κ α → κ → α → OrderedMap κ α
  | [], k, a             => [(k, a)]
  | (k', a') :: tl, k, a => if k' = k then (k, a) :: tl else (k', a') :: set tl k a

@[simp]
theorem get?_nil {k : κ} : get? ([] : OrderedMap κ α) k = none :=
  rfl

theorem get?_set (m : OrderedMap κ α) (k k' : κ) (a : α) :
    (set m k a).get? k' = if k = k' then some a else m.get? k' := by
  induction m
  case nil => rfl
  case cons hd tl hi =>
    simp only [set]
    split
    case isTrue h =>
      subst h
      by_cases hk : hd.1 = k' <;> simp [get?, hk]
    case isFalse h =>
      by_cases hk : hd.1 = k'
      case pos =>
        subst hk
        simp [get?, Ne.symm h]
      case neg => simp [get?, hk, hi]

@[simp]
theorem get?_set_self (m : OrderedMap κ α) (k : κ) (a : α) : (set m k a).get? k = some a := by
  simp [get?_set]

theorem get?_set_ne (m : OrderedMap κ α) (h : k ≠ k') : (set m k a).get? k' = m.get? k' := by
  simp [get?_set, h]

theorem get?_eq_none_iff {m : OrderedMap κ α} : m.get? k = none ↔ k ∉ keys m := by
  induction m
  case nil => simp
  case cons hd tl hi =>
    by_cases h : hd.1 = k
    case pos => simp [get?, keys, h]
    case neg => simpa [get?, keys, h, Ne.symm h] using hi

theorem mem_of_get? {m : OrderedMap κ α} (h : m.get? k = some a) : (k, a) ∈ m := by
  induction m
  case nil => contradiction
  case cons hd tl hi =>
    simp only [get?] at h
    split at h
    case isTrue hk  => simp [← hk, ← Option.some.inj h]
    case isFalse hk => exact List.mem_cons_of_mem _ (hi h)

theorem get?_of_mem {m : OrderedMap κ α} (hn : (keys m).Nodup) (h : (k, a) ∈ m) : m.get? k = some a := by
  induction m
  case nil => contradiction
  case cons hd tl hi =>
    have ⟨hk, hn⟩ := List.nodup_cons.mp hn
    cases List.mem_cons.mp h with
    | inl h => subst h; simp [get?]
    | inr h =>
      have hne : hd.1 ≠ k := fun he => hk <| he ▸ List.mem_map_of_mem h
      rw [get?, if_neg hne, hi hn h]

theorem mem_set {m : OrderedMap κ α} (h : e ∈ set m k a) : e = (k, a) ∨ e ∈ m := by
  induction m
  case nil => simpa [set] using h
  case cons hd tl hi =>
    simp only [set] at h
    split at h
    case isTrue  => exact (List.mem_cons.mp h).imp_right (List.mem_cons_of_mem _)
    case isFalse =>
      rcases List.mem_cons.mp h with rfl | h
      · exact .inr List.mem_cons_self
      · exact (hi h).imp_right (List.mem_cons_of_mem _)

theorem keys_set (m : OrderedMap κ α) (k : κ) (a : α) :
    keys (set m k a) = if k ∈ keys m then keys m else keys m ++ [k] := by
  induction m
  case nil => rfl
  case cons hd tl hi =>
    by_cases h : hd.1 = k
    case pos => simp [set, keys, h]
    case neg =>
      simp only [keys] at hi
      simp only [set, keys, h, if_false, List.map_cons, hi, List.mem_cons, Ne.symm h, false_or]
      split <;> simp_all

theorem nodup_keys_set {m : OrderedMap κ α} (h : (keys m).Nodup) : (keys (set m k a)).Nodup := by
  rw [keys_set]
  split
  case isTrue     => exact h
  case isFalse hk => exact List.concat_eq_append ▸ h.concat hk

-- Maps to numbers

section Int

theorem sum_set (m : OrderedMap κ Int) (k : κ) (a : Int) :
    ((set m k a).map (·.2)).sum = (m.map (·.2)).sum + (a - (m.get? k).getD 0) := by
  induction m
  case nil => simp [set]
  case cons hd tl hi =>
    by_cases h : hd.1 = k
    case pos =>
      simp [set, get?, h]
      omega
    case neg =>
      simp only [set, get?, h, if_false, List.map_cons, List.sum_cons, hi]
      omega

end Int

-- The numbers of a map can be added in any order, and with any further keys.
theorem sum_values {M : Type} [AddCommMonoid M] {m : OrderedMap κ M} (hn : (keys m).Nodup) {l : List κ}
    (hl : l.Nodup) (h : ∀ k ∈ keys m, k ∈ l) :
    (l.map fun k => (m.get? k).getD 0).sum = (m.map (·.2)).sum := by
  induction m
  case nil => simp
  case cons hd tl hi =>
    have ⟨hk, hn⟩ := List.nodup_cons.mp hn
    have ⟨hd', h⟩ := List.forall_mem_cons.mp h
    have hk : get? tl hd.1 = none := get?_eq_none_iff.mpr hk
    have hg k : (get? (hd :: tl) k).getD 0 = (if k = hd.1 then hd.2 else 0) + (get? tl k).getD 0 := by
      by_cases he : hd.1 = k
      case pos => simp [get?, ← he, hk]
      case neg => simp [get?, he, Ne.symm he]
    have h₁ : (l.map fun k => if k = hd.1 then hd.2 else 0).sum = hd.2 := by
      rw [List.sum_map_eq_nsmul_single hd.1 _ fun k hn _ => if_neg hn, List.count_eq_one_of_mem hl hd', one_nsmul,
        if_pos rfl]
    simp only [hg]
    rw [List.sum_map_add, h₁, hi hn h, List.map_cons, List.sum_cons]

end OrderedMap
