import Mathlib.Data.List.Nodup

-- Items are attributed to keys, either by a hint that they carry, or by trying one key after another.
structure Attribution (κ ι η : Type) where
  hintOf : κ → Option η
  hint   : ι → η
  valid  : κ → ι → Bool

namespace Attribution

variable {κ ι η : Type} [DecidableEq η] (A : Attribution κ ι η) (keys : List κ)

-- Several keys may have the same hint, of which the first one is taken.
def byHint (i : ι) : Option κ :=
  keys.find? (A.hintOf · = some (A.hint i))

def byTrial (i : ι) : Option κ :=
  keys.find? (A.valid · i)

-- An item is valid for no key.
def Foreign (i : ι) : Prop :=
  ∀ k ∈ keys, A.valid k i = false

-- A key is found by the hint of an item that is valid for it.
def Named (i : ι) (k : κ) : Prop :=
  A.byHint keys i = some k ∧ A.valid k i = true

def Proven (items : List ι) (k : κ) : Prop :=
  ∃ i ∈ items, A.valid k i = true

instance (items : List ι) (k : κ) : Decidable (A.Proven items k) :=
  inferInstanceAs (Decidable (∃ i ∈ items, _))

variable {A} {keys} {i : ι} {k k' : κ}

theorem Named.mem (h : A.Named keys i k) : k ∈ keys :=
  List.mem_of_find?_eq_some h.1

theorem Named.hint (h : A.Named keys i k) : A.hintOf k = some (A.hint i) := by
  simpa using List.find?_some h.1

theorem Named.unique (h : A.Named keys i k) (h' : A.Named keys i k') : k = k' :=
  Option.some.inj (h.1.symm.trans h'.1)

theorem Named.proven {items : List ι} (h : A.Named keys i k) (hi : i ∈ items) : A.Proven items k :=
  ⟨i, hi, h.2⟩

theorem Named.not_foreign (h : A.Named keys i k) : ¬A.Foreign keys i :=
  fun hf => by cases (hf k h.mem).symm.trans h.2

omit [DecidableEq η]

theorem byTrial_eq_none_iff : A.byTrial keys i = none ↔ A.Foreign keys i := by
  simp [byTrial, Foreign]

theorem mem_of_byTrial (h : A.byTrial keys i = some k) : k ∈ keys ∧ A.valid k i = true :=
  ⟨List.mem_of_find?_eq_some h, by simpa using List.find?_some h⟩

-- If an item is valid for one key only, then this is the one that is found by trying.
theorem byTrial_eq_some_iff (hu : ∀ k ∈ keys, ∀ k' ∈ keys, A.valid k i = true → A.valid k' i = true → k = k') :
    A.byTrial keys i = some k ↔ k ∈ keys ∧ A.valid k i = true := by
  refine ⟨mem_of_byTrial, fun ⟨hk, hv⟩ => ?_⟩
  cases ht : A.byTrial keys i with
  | none    => cases (byTrial_eq_none_iff.mp ht k hk).symm.trans hv
  | some k' =>
    have ⟨hk', hv'⟩ := mem_of_byTrial ht
    rw [hu k' hk' k hk hv' hv]

end Attribution
