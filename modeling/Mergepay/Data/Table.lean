import Mathlib.Algebra.BigOperators.Group.List.Basic
import Mathlib.Algebra.Order.BigOperators.Group.List
import Mathlib.Algebra.Ring.Int.Defs
import Mathlib.Data.List.Basic
import Mathlib.Data.List.Nodup

-- Tables are lists of rows. A row is named by its key `k`, and lookups return the first match.
namespace Table

section Rows

variable {α κ : Type} [DecidableEq κ] (k : α → κ)

def row? (l : List α) (i : κ) : Option α :=
  l.find? (k · = i)

-- Rewrites all rows that satisfy a condition.
def update (p : α → Bool) (f : α → α) (l : List α) : List α :=
  l.map fun a => if p a then f a else a

variable {k} {l : List α} {p : α → Bool} {f : α → α}

theorem mem_of_row? (h : row? k l i = some a) : a ∈ l :=
  List.mem_of_find?_eq_some h

theorem key_of_row? (h : row? k l i = some a) : k a = i := by
  simpa using List.find?_some h

theorem row?_isSome_of_mem (h : a ∈ l) : ∃ b, row? k l (k a) = some b :=
  Option.isSome_iff_exists.mp <| List.find?_isSome.mpr ⟨a, h, by simp⟩

-- Where keys are unique, a row is found under its own key.
theorem row?_of_mem (hn : (l.map k).Nodup) (h : a ∈ l) : row? k l (k a) = some a := by
  have ⟨b, hb⟩ := row?_isSome_of_mem (k := k) h
  have hk : k b = k a := key_of_row? hb
  exact hb.trans <| congrArg some <| List.inj_on_of_nodup_map hn (mem_of_row? hb) h hk

omit [DecidableEq κ] in
theorem length_le_one (hn : (l.map k).Nodup) (h : ∀ a ∈ l, ∀ b ∈ l, k a = k b) : l.length ≤ 1 := by
  cases l with
  | nil => exact Nat.zero_le 1
  | cons a tl => cases tl with
    | nil => exact Nat.le_refl 1
    | cons b tl =>
      have hk := h a List.mem_cons_self b (List.mem_cons_of_mem _ List.mem_cons_self)
      have ⟨hn, _⟩ := List.nodup_cons.mp hn
      exact absurd (hk ▸ List.mem_cons_self) hn

-- Where keys are unique, at most one row has a certain key.
theorem countP_filter_key (hn : (l.map k).Nodup) (h : a ∈ l) :
    (l.filter p).countP (k · = k a) = if p a then 1 else 0 := by
  induction l with
  | nil => cases h
  | cons hd tl hi =>
    have ⟨hhd, htl⟩ := List.nodup_cons.mp hn
    have other {b : α} (hb : b ∈ tl) : k hd ≠ k b :=
      fun he => hhd (List.mem_map.mpr ⟨b, hb, he.symm⟩)
    rw [List.filter_cons]
    rcases List.mem_cons.mp h with rfl | h
    case inl =>
      have hz : (tl.filter p).countP (k · = k a) = 0 :=
        List.countP_eq_zero.mpr fun b hb he => other (List.mem_filter.mp hb).1 (of_decide_eq_true he).symm
      split <;> simp [hz]
    case inr =>
      have hne : ¬k hd = k a := other h
      split
      · rw [List.countP_cons_of_neg (by simpa using hne), hi htl h]
      · exact hi htl h

theorem row?_update (hf : ∀ a, k (f a) = k a) (i : κ) :
    row? k (update p f l) i = (row? k l i).map fun a => if p a then f a else a := by
  induction l
  case nil => rfl
  case cons hd tl hi =>
    have hk : k (if p hd then f hd else hd) = k hd := by
      split
      · exact hf hd
      · rfl
    simp only [row?, update, List.map_cons, List.find?_cons, hk] at hi ⊢
    split
    · rfl
    · exact hi

theorem row?_append (h : k a ∉ l.map k) (i : κ) :
    row? k (l ++ [a]) i = if i = k a then some a else row? k l i := by
  by_cases hi : i = k a
  case pos =>
    subst hi
    have hn : l.find? (k · = k a) = none := by
      refine List.find?_eq_none.mpr fun b hb => ?_
      rw [decide_eq_true_eq]
      exact fun e => h (e ▸ List.mem_map_of_mem hb)
    simp [row?, hn]
  case neg => simp [row?, hi, Ne.symm hi]

-- Two updates of the same rows.
theorem update_update {g : α → α} (h : ∀ a, p (f a) = p a) :
    update p g (update p f l) = update p (fun a => g (f a)) l := by
  simp only [update, List.map_map]
  refine List.map_congr_left fun a _ => ?_
  cases hp : p a with
  | true  => simp [hp, h]
  | false => simp [hp]

theorem map_update {β : Type} {g : α → β} (h : ∀ a, g (f a) = g a) :
    (update p f l).map g = l.map g := by
  simp only [update, List.map_map]
  refine List.map_congr_left fun a _ => ?_
  simp only [Function.comp_apply]
  split
  · exact h a
  · rfl

theorem filter_update {q : α → Bool} (h : ∀ a, q (f a) = q a) :
    (update p f l).filter q = update p f (l.filter q) := by
  simp only [update, List.filter_map]
  refine congrArg _ <| List.filter_congr fun a _ => ?_
  simp only [Function.comp_apply]
  split
  · exact h a
  · rfl

theorem mem_update : b ∈ update p f l ↔ ∃ a ∈ l, (if p a then f a else a) = b :=
  List.mem_map

-- How the number of certain rows changes if a single row is removed or rewritten.

theorem countP_filter_ne {q : α → Bool} (hn : (l.map k).Nodup) (h : a ∈ l) :
    l.countP q = (l.filter (k · ≠ k a)).countP q + if q a then 1 else 0 := by
  induction l with
  | nil => cases h
  | cons hd tl hi =>
    have ⟨hh, ht⟩ := List.nodup_cons.mp hn
    rcases List.mem_cons.mp h with rfl | hm
    case inl =>
      have hf : tl.filter (k · ≠ k a) = tl := by
        refine List.filter_eq_self.mpr fun b hb => decide_eq_true fun he => hh ?_
        exact he ▸ List.mem_map_of_mem hb
      rw [List.countP_cons, List.filter_cons_of_neg (by simp), hf]
    case inr =>
      have hne : k hd ≠ k a := fun he => hh <| he ▸ List.mem_map_of_mem hm
      rw [List.countP_cons, List.filter_cons_of_pos (by simpa using hne), List.countP_cons, hi ht hm]
      omega

theorem countP_update {q : α → Bool} (hn : (l.map k).Nodup) (h : a ∈ l) :
    (update (k · = k a) f l).countP q + (if q a then 1 else 0) =
      l.countP q + if q (f a) then 1 else 0 := by
  induction l with
  | nil => cases h
  | cons hd tl hi =>
    have ⟨hh, ht⟩ := List.nodup_cons.mp hn
    rcases List.mem_cons.mp h with rfl | hm
    case inl =>
      have hu : update (k · = k a) f tl = tl := by
        refine (List.map_congr_left fun b hb => if_neg ?_).trans (List.map_id tl)
        exact fun he => hh <| of_decide_eq_true he ▸ List.mem_map_of_mem hb
      simp only [update, List.map_cons, decide_true, if_true, List.countP_cons] at hu ⊢
      rw [hu]
      omega
    case inr =>
      have hne : k hd ≠ k a := fun he => hh <| he ▸ List.mem_map_of_mem hm
      have hi := hi ht hm
      simp only [update, List.map_cons, hne, decide_false, List.countP_cons] at hi ⊢
      simp only [Bool.false_eq_true, if_false]
      omega

end Rows

-- Sums over columns

section Sums

variable {α κ : Type}

-- The sum of a column over all rows that satisfy a condition.
def total (v : α → Int) (p : α → Bool) (l : List α) : Int :=
  ((l.filter p).map v).sum

variable {v : α → Int} {p q : α → Bool} {l l₁ l₂ : List α} {k : α → κ}

@[simp]
theorem total_nil : total v p [] = 0 :=
  rfl

theorem total_cons : total v p (a :: l) = (if p a then v a else 0) + total v p l := by
  by_cases h : p a <;> simp [total, h]

theorem total_append : total v p (l₁ ++ l₂) = total v p l₁ + total v p l₂ := by
  simp [total]

theorem total_filter : total v p (l.filter q) = total v (fun a => p a && q a) l := by
  rw [total, List.filter_filter]
  rfl

theorem total_congr (h : ∀ a ∈ l, p a = q a) : total v p l = total v q l := by
  rw [total, total, List.filter_congr h]

-- A change of other columns does not matter.
theorem total_map {f : α → α} (hv : ∀ a, v (f a) = v a) (hp : ∀ a, p (f a) = p a) :
    total v p (l.map f) = total v p l := by
  induction l
  case nil => rfl
  case cons hd tl hi => rw [List.map_cons, total_cons, total_cons, hi, hv, hp]

theorem total_nonneg (h : ∀ a ∈ l, p a → 0 ≤ v a) : 0 ≤ total v p l := by
  refine List.sum_nonneg fun n hn => ?_
  have ⟨a, ha, hn⟩ := List.mem_map.mp hn
  have ⟨ha, hp⟩ := List.mem_filter.mp ha
  exact hn ▸ h a ha hp

-- A condition that holds for no row.
theorem total_eq_zero (h : ∀ a ∈ l, p a = false) : total v p l = 0 := by
  rw [total, List.filter_eq_nil_iff.mpr fun a ha => by simp [h a ha]]
  rfl

-- The rows that satisfy another condition can be counted on their own.
theorem total_split (q : α → Bool) :
    total v p l = total v (fun a => p a && q a) l + total v (fun a => p a && !q a) l := by
  induction l
  case nil => rfl
  case cons hd tl hi =>
    simp only [total_cons, hi]
    cases p hd <;> cases q hd <;> simp <;> omega

theorem sum_map_ite {M : Type} [AddMonoid M] {d : α → M} {P : α → Prop} [DecidablePred P] :
    (l.map fun a => if P a then d a else 0).sum = ((l.filter (P ·)).map d).sum := by
  induction l
  case nil => rfl
  case cons hd tl hi => by_cases h : P hd <;> simp [h, hi]

theorem sum_map_sub (f g : α → Int) (l : List α) :
    (l.map fun a => f a - g a).sum = (l.map f).sum - (l.map g).sum := by
  induction l
  case nil => rfl
  case cons hd tl hi =>
    simp only [List.map_cons, List.sum_cons, hi]
    omega

-- Contributions with a sign add up to the difference of two totals.
theorem sum_eq_total_sub {d : α → Int}
    (h : ∀ a ∈ l, d a = (if p a then v a else 0) - (if q a then v a else 0)) :
    (l.map d).sum = total v p l - total v q l := by
  induction l
  case nil => rfl
  case cons hd tl hi =>
    have hi := hi fun a ha => h a (List.mem_cons_of_mem _ ha)
    rw [List.map_cons, List.sum_cons, hi, h hd List.mem_cons_self, total_cons, total_cons]
    omega

-- A total is bounded by another one if each of its rows also occurs there.
theorem total_le (hn : (l₁.map k).Nodup) (hv : ∀ a ∈ l₂, q a → 0 ≤ v a)
    (h : ∀ a ∈ l₁, p a → ∃ b ∈ l₂, q b ∧ k b = k a ∧ v b = v a) : total v p l₁ ≤ total v q l₂ := by
  induction l₁ generalizing l₂
  case nil => exact total_nonneg hv
  case cons hd tl hi =>
    have ⟨hk, hn⟩ := List.nodup_cons.mp hn
    rw [total_cons]
    split
    case isFalse =>
      have hi := hi hn hv fun a ha => h a (List.mem_cons_of_mem _ ha)
      omega
    case isTrue hp =>
      have ⟨b, hb, hq, hkb, hvb⟩ := h hd List.mem_cons_self hp
      have ⟨pre, post, hl⟩ := List.append_of_mem hb
      subst hl
      -- The other rows have other keys, so that they do not need `b`.
      have hi : total v p tl ≤ total v q (pre ++ post) := by
        refine hi hn (fun a ha => hv a (by simp_all; tauto)) fun a ha hpa => ?_
        have ⟨c, hc, hqc, hkc, hvc⟩ := h a (List.mem_cons_of_mem _ ha) hpa
        have hne : c ≠ b := fun he => hk <| hkb ▸ he ▸ hkc ▸ List.mem_map_of_mem ha
        exact ⟨c, by simp_all, hqc, hkc, hvc⟩
      rw [total_append] at hi ⊢
      rw [total_cons, if_pos hq]
      omega

-- The change of a single row.
theorem sum_update {f : α → α} (hn : (l.map k).Nodup) (ha : a ∈ l)
    (hp : ∀ b ∈ l, p b = true ↔ k b = k a) (d : α → Int) :
    ((update p f l).map d).sum = (l.map d).sum + (d (f a) - d a) := by
  have rest : ∀ tl : List α, (∀ b ∈ tl, ¬p b) → update p f tl = tl := by
    intro tl h
    refine (List.map_congr_left fun b hb => ?_).trans (List.map_id tl)
    rw [if_neg (h b hb), id]
  induction l
  case nil => contradiction
  case cons hd tl hi =>
    have ⟨hk, hn⟩ := List.nodup_cons.mp hn
    rcases List.mem_cons.mp ha with rfl | ha
    case inl =>
      have hpa : p a = true := (hp a List.mem_cons_self).mpr rfl
      have htl : update p f tl = tl := rest tl fun b hb hpb =>
        hk <| (hp b (List.mem_cons_of_mem _ hb)).mp hpb ▸ List.mem_map_of_mem hb
      have hc : update p f (a :: tl) = f a :: update p f tl := by simp [update, hpa]
      rw [hc, htl, List.map_cons, List.map_cons, List.sum_cons, List.sum_cons]
      omega
    case inr =>
      have hph : ¬p hd := fun hph =>
        hk <| (hp hd List.mem_cons_self).mp hph ▸ List.mem_map_of_mem ha
      have hi := hi hn ha fun b hb => hp b (List.mem_cons_of_mem _ hb)
      have hc : update p f (hd :: tl) = hd :: update p f tl := by simp [update, hph]
      rw [hc, List.map_cons, List.map_cons, List.sum_cons, List.sum_cons, hi]
      omega

end Sums

end Table

-- Conditions on the rows of a table. A comparison with a missing value is neither true nor false, and only
-- rows for which a condition is true are selected.
abbrev Where (α : Type) :=
  α → Option Bool

namespace Where

variable {α β : Type}

-- The columns that may be missing are compared by `compare`.

def compare (column : α → Option β) (p : β → Bool) : Where α :=
  fun a => (column a).map p

def isNull (column : α → Option β) : Where α :=
  fun a => some (column a).isNone

def both : Option Bool → Option Bool → Option Bool
  | some false, _ | _, some false => some false
  | some true, some true          => some true
  | _, _                          => none

def either : Option Bool → Option Bool → Option Bool
  | some true, _ | _, some true => some true
  | some false, some false      => some false
  | _, _                        => none

def all : List (Where α) → Where α
  | [],       _ => some true
  | hd :: tl, a => both (hd a) (all tl a)

def any : List (Where α) → Where α
  | [],       _ => some false
  | hd :: tl, a => either (hd a) (any tl a)

def selects (w : Where α) (a : α) : Bool :=
  w a = some true

-- Columns that are never missing.
def holds (p : α → Bool) : Where α :=
  fun a => some (p a)

variable {a : α} {w w' : Where α} {l : List (Where α)} {column : α → Option β} {p : β → Bool}

@[simp]
theorem selects_holds {p : α → Bool} : (holds p).selects a = p a := by
  simp [selects, holds]

@[simp]
theorem selects_compare : (compare column p).selects a = (column a).any p := by
  cases h : column a <;> simp [selects, compare, h]

@[simp]
theorem selects_isNull : (isNull column).selects a = (column a).isNone := by
  cases h : column a <;> simp [selects, isNull, h]

@[simp]
theorem selects_all : (all l).selects a = l.all (·.selects a) := by
  induction l with
  | nil => rfl
  | cons hd tl hi =>
    rw [List.all_cons, ← hi]
    unfold selects
    rw [all]
    rcases hd a with _ | _ | _ <;> rcases all tl a with _ | _ | _ <;> rfl

@[simp]
theorem selects_any : (any l).selects a = l.any (·.selects a) := by
  induction l with
  | nil => rfl
  | cons hd tl hi =>
    rw [List.any_cons, ← hi]
    unfold selects
    rw [any]
    rcases hd a with _ | _ | _ <;> rcases any tl a with _ | _ | _ <;> rfl

end Where
