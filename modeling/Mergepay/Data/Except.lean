import Mathlib.Data.List.Forall2
import Mathlib.Algebra.BigOperators.Group.List.Basic
import Mathlib.Algebra.Ring.Int.Defs

namespace Except

variable {ε α β γ : Type}

theorem bind_eq_ok {x : Except ε α} {f : α → Except ε β} {b : β} :
    (x >>= f) = .ok b ↔ ∃ a, x = .ok a ∧ f a = .ok b := by
  cases x <;> simp [bind, Except.bind]

theorem unit_bind_eq_ok {x : Except ε Unit} {f : Unit → Except ε β} {b : β} :
    (x >>= f) = .ok b ↔ x = .ok () ∧ f () = .ok b := by
  cases x <;> simp [bind, Except.bind]

theorem map_eq_ok {x : Except ε α} {f : α → β} {b : β} :
    f <$> x = .ok b ↔ ∃ a, x = .ok a ∧ f a = b := by
  cases x <;> simp [Functor.map, Except.map]

theorem pure_eq_ok {a b : α} : (pure a : Except ε α) = .ok b ↔ a = b := by
  simp [pure, Except.pure]

theorem toBool_eq_true {x : Except ε α} : x.toBool = true ↔ ∃ a, x = .ok a := by
  cases x <;> simp [Except.toBool]

theorem toOption_eq_some {x : Except ε α} : x.toOption = some a ↔ x = .ok a := by
  cases x <;> simp [Except.toOption]

-- A loop that returns has kept every invariant of its body.
theorem foldlM_induction {f : β → α → Except ε β} {l : List α} {b b' : β} (P : List α → β → Prop)
    (h : l.foldlM f b = .ok b') (init : P [] b)
    (step : ∀ pre a b₁ b₂, P pre b₁ → f b₁ a = .ok b₂ → P (pre ++ [a]) b₂) : P l b' := by
  suffices hs : ∀ pre b, P pre b → l.foldlM f b = .ok b' → P (pre ++ l) b' from hs [] b init h
  clear init h
  induction l
  case nil =>
    intro pre b hp h
    simp only [List.foldlM_nil, pure_eq_ok] at h
    simpa [← h] using hp
  case cons a tl hi =>
    intro pre b hp h
    rw [List.foldlM_cons] at h
    have ⟨b₁, hb, h⟩ := bind_eq_ok.mp h
    simpa using hi (pre ++ [a]) b₁ (step pre a b b₁ hp hb) h

-- All iterations of a loop that returns have been successful.
theorem foldlM_mem {f : β → α → Except ε β} {l : List α} {b b' : β} (h : l.foldlM f b = .ok b')
    (ha : a ∈ l) : ∃ b₁ b₂, f b₁ a = .ok b₂ := by
  refine foldlM_induction (fun pre _ => ∀ a ∈ pre, ∃ b₁ b₂, f b₁ a = .ok b₂) h (by simp) ?_ a ha
  intro pre a b₁ b₂ hp hs a' ha'
  rcases List.mem_append.mp ha' with ha' | ha'
  case inl => exact hp a' ha'
  case inr => exact List.mem_singleton.mp ha' ▸ ⟨b₁, b₂, hs⟩

theorem forM_mem {f : α → Except ε Unit} {l : List α} (h : l.forM f = .ok ()) (ha : a ∈ l) : f a = .ok () := by
  induction l
  case nil => contradiction
  case cons hd tl hi =>
    have ⟨h₁, h₂⟩ := unit_bind_eq_ok.mp h
    cases ha with
    | head      => exact h₁
    | tail _ ha => exact hi h₂ ha

theorem mapM_forall₂ {f : α → Except ε β} {l : List α} {l' : List β} (h : l.mapM f = .ok l') :
    List.Forall₂ (fun a b => f a = .ok b) l l' := by
  induction l generalizing l'
  case nil =>
    simp only [List.mapM_nil, pure_eq_ok] at h
    exact h ▸ .nil
  case cons a tl hi =>
    rw [List.mapM_cons] at h
    have ⟨b, hb, h⟩ := bind_eq_ok.mp h
    have ⟨bs, hbs, h⟩ := bind_eq_ok.mp h
    rw [pure_eq_ok] at h
    exact h ▸ .cons hb (hi hbs)

theorem mapM_eq_ok {f : α → Except ε β} {l : List α} {l' : List β} :
    l.mapM f = .ok l' ↔ List.Forall₂ (fun a b => f a = .ok b) l l' := by
  refine ⟨mapM_forall₂, fun h => ?_⟩
  induction h
  case nil => rfl
  case cons hd _ hi =>
    rw [List.mapM_cons, hd, hi]
    rfl

theorem mapM_eq_map {f : α → Except ε β} {g : α → β} {l : List α} (h : ∀ a ∈ l, f a = .ok (g a)) :
    l.mapM f = .ok (l.map g) := by
  induction l
  case nil => rfl
  case cons hd tl hi =>
    have ⟨hd, htl⟩ := List.forall_mem_cons.mp h
    rw [List.mapM_cons, hd, hi htl]
    rfl

theorem mapM_mem {f : α → Except ε β} {l : List α} {l' : List β} (h : l.mapM f = .ok l')
    (ha : a ∈ l) : ∃ b, f a = .ok b := by
  replace h := mapM_forall₂ h
  induction h
  case nil => contradiction
  case cons b _ _ hd _ hi =>
    rcases List.mem_cons.mp ha with rfl | ha
    case inl => exact ⟨b, hd⟩
    case inr => exact hi ha

theorem mapM_result {f : α → Except ε β} {l : List α} {l' : List β} (h : l.mapM f = .ok l')
    (ha : a ∈ l) : ∃ b ∈ l', f a = .ok b := by
  replace h := mapM_forall₂ h
  induction h
  case nil => contradiction
  case cons b _ _ hd _ hi =>
    cases List.mem_cons.mp ha with
    | inl ha => exact ⟨b, List.mem_cons_self, ha ▸ hd⟩
    | inr ha =>
      have ⟨b, hb, hf⟩ := hi ha
      exact ⟨b, List.mem_cons_of_mem _ hb, hf⟩

-- Every result comes from an element.
theorem mem_of_mapM {f : α → Except ε β} {l : List α} {l' : List β} (h : l.mapM f = .ok l')
    (hb : b ∈ l') : ∃ a ∈ l, f a = .ok b := by
  replace h := mapM_forall₂ h
  induction h
  case nil => contradiction
  case cons a _ _ _ hd _ hi =>
    cases List.mem_cons.mp hb with
    | inl hb => exact ⟨a, List.mem_cons_self, hb ▸ hd⟩
    | inr hb =>
      have ⟨a, ha, hf⟩ := hi hb
      exact ⟨a, List.mem_cons_of_mem _ ha, hf⟩

-- If the success of an iteration does not depend on what has been accumulated, then a loop returns
-- whenever all of its iterations do.
theorem foldlM_isOk_iff {f : β → α → Except ε β} {P : α → Prop} {l : List α}
    (h : ∀ b, ∀ a ∈ l, (∃ b', f b a = .ok b') ↔ P a) (b : β) :
    (∃ b', l.foldlM f b = .ok b') ↔ ∀ a ∈ l, P a := by
  induction l generalizing b
  case nil => simp [pure_eq_ok]
  case cons hd tl hi =>
    have hi := hi fun b a ha => h b a (List.mem_cons_of_mem _ ha)
    rw [List.forall_mem_cons, ← h b hd List.mem_cons_self]
    simp only [List.foldlM_cons, bind_eq_ok]
    constructor
    case mp =>
      intro ⟨b', b₁, hb, ht⟩
      exact ⟨⟨b₁, hb⟩, (hi b₁).mp ⟨b', ht⟩⟩
    case mpr =>
      intro ⟨⟨b₁, hb⟩, ht⟩
      have ⟨b', ht⟩ := (hi b₁).mpr ht
      exact ⟨b', b₁, hb, ht⟩

theorem mapM_isOk_iff {f : α → Except ε β} {l : List α} :
    (∃ l', l.mapM f = .ok l') ↔ ∀ a ∈ l, ∃ b, f a = .ok b := by
  induction l
  case nil => simp [pure_eq_ok]
  case cons hd tl hi =>
    rw [List.forall_mem_cons, ← hi]
    simp only [List.mapM_cons, bind_eq_ok, pure_eq_ok]
    constructor
    case mp  => exact fun ⟨_, b, hb, l', ht, _⟩ => ⟨⟨b, hb⟩, l', ht⟩
    case mpr => exact fun ⟨⟨b, hb⟩, l', ht⟩ => ⟨_, b, hb, l', ht, rfl⟩

-- The sum of what an accumulating loop adds.
theorem foldlM_sum {M : Type} [AddCommMonoid M] {f : β → α → Except ε β} {l : List α} {b b' : β}
    (v : β → M) (d : α → M) (h : l.foldlM f b = .ok b')
    (step : ∀ a b₁ b₂, f b₁ a = .ok b₂ → v b₂ = v b₁ + d a) : v b' = v b + (l.map d).sum := by
  refine foldlM_induction (fun pre b₁ => v b₁ = v b + (pre.map d).sum) h (by simp) ?_
  intro pre a b₁ b₂ hp hs
  rw [step a b₁ b₂ hs, hp]
  simp [add_assoc]

-- A loop that adds up contributions returns if all of them are defined.
theorem foldlM_add_eq_ok {f : Int → α → Except ε Int} {l : List α} {n m : Int} (v : α → Int)
    (P : α → Prop) (step : ∀ n m a, a ∈ l → (f n a = .ok m ↔ P a ∧ m = n + v a)) :
    l.foldlM f n = .ok m ↔ (∀ a ∈ l, P a) ∧ m = n + (l.map v).sum := by
  induction l generalizing n
  case nil => simp [pure_eq_ok, eq_comm (a := m)]
  case cons hd tl hi =>
    have hi := fun n => hi (n := n) fun n m a ha => step n m a (List.mem_cons_of_mem _ ha)
    have hd := fun m => step n m hd List.mem_cons_self
    simp only [List.foldlM_cons, bind_eq_ok, hd, hi, List.forall_mem_cons, List.map_cons,
      List.sum_cons]
    constructor
    · rintro ⟨_, ⟨hp, rfl⟩, ht, rfl⟩
      exact ⟨⟨hp, ht⟩, by omega⟩
    · rintro ⟨⟨hp, ht⟩, rfl⟩
      exact ⟨_, ⟨hp, rfl⟩, ht, by omega⟩

-- What can be read off every result is known without them.
theorem map_of_mapM {f : α → Except ε β} {g : α → γ} {v : β → γ} {l : List α} {l' : List β} (h : l.mapM f = .ok l')
    (hv : ∀ a b, f a = .ok b → v b = g a) : l'.map v = l.map g := by
  rw [eq_comm, ← List.forall₂_eq_eq_eq, List.forall₂_map_left_iff, List.forall₂_map_right_iff]
  exact (mapM_forall₂ h).imp fun a b hb => (hv a b hb).symm

end Except
