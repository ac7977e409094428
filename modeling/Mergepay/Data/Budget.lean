import Mathlib.Data.List.Basic

-- Attempts that are counted in order to give up after too many failures.
namespace Budget

inductive Outcome
  | answered
  | failed
  | rejected
  deriving DecidableEq

-- An attempt, along with the counter before and after it, and whether it has been the last one.
structure Attempt where
  outcome   : Outcome
  before    : Nat
  after     : Nat
  exhausted : Bool
  deriving DecidableEq

-- The number of failures in a row, if `n` of them have come before.
def streak (n : Nat) (l : List Attempt) : Nat :=
  l.foldl (fun n a => if a.outcome = .failed then n + 1 else 0) n

-- A failure is counted, and is the last one if there are too many of them then.
structure Attempt.Counts (max : Nat) (a : Attempt) : Prop where
  exhausted : a.exhausted = true ↔ a.outcome = .failed ∧ max ≤ a.before + 1
  failed    : a.outcome = .failed → a.exhausted = false → a.after = a.before + 1
  rejected  : a.outcome = .rejected → a.after = 0

-- Attempts that share a counter. There are none after the last one.
inductive Chain (max n : Nat) : List Attempt → Nat → Prop
  | nil : Chain max n [] n
  | snoc {l : List Attempt} {a : Attempt} : Chain max n l a.before → (∀ b ∈ l, b.exhausted = false) →
    a.Counts max → Chain max n (l ++ [a]) a.after

section

variable {max n m : Nat} {l l₁ l₂ : List Attempt} {a : Attempt}

theorem streak_append : streak n (l ++ [a]) = if a.outcome = .failed then streak n l + 1 else 0 := by
  simp [streak]

-- If the counter is reset by each answer, it tells the number of failures in a row.
theorem Chain.count (h : Chain max n l m) (hn : n < max) (hr : ∀ a ∈ l, a.outcome = .answered → a.after = 0)
    (he : ∀ a ∈ l, a.exhausted = false) : m = streak n l ∧ m < max := by
  induction h with
  | nil => exact ⟨rfl, hn⟩
  | @snoc l a _ hl hc hi =>
    have ⟨hr, ha⟩ := List.forall_mem_append.mp hr
    have ⟨he, hx⟩ := List.forall_mem_append.mp he
    have ha := ha a List.mem_cons_self
    have hx := hx a List.mem_cons_self
    have ⟨hs, hm⟩ := hi hr he
    rw [streak_append]
    cases ho : a.outcome with
    | answered => exact ⟨ha ho, ha ho ▸ Nat.zero_lt_of_lt hn⟩
    | rejected => exact ⟨hc.rejected ho, hc.rejected ho ▸ Nat.zero_lt_of_lt hn⟩
    | failed   =>
      have hlt : ¬max ≤ a.before + 1 := fun hle => by simp [hc.exhausted.mpr ⟨ho, hle⟩] at hx
      rw [hc.failed ho hx, if_pos rfl]
      omega

theorem Chain.split (h : Chain max n (l₁ ++ a :: l₂) m) :
    Chain max n l₁ a.before ∧ (∀ b ∈ l₁, b.exhausted = false) ∧ a.Counts max := by
  generalize hl : l₁ ++ a :: l₂ = l at h
  induction h generalizing l₂ with
  | nil => simp at hl
  | @snoc l b hl' he hc hi =>
    rcases List.eq_nil_or_concat l₂ with rfl | ⟨l₃, d, rfl⟩
    case inl =>
      obtain ⟨rfl, hb⟩ := List.append_inj' hl rfl
      cases hb
      exact ⟨hl', he, hc⟩
    case inr =>
      rw [List.concat_eq_append, ← List.cons_append, ← List.append_assoc] at hl
      exact hi (List.append_inj' hl rfl).1

-- Attempts are given up exactly at the last of too many failures in a row, and every answer lets the count
-- start again.
def Consecutive (max n : Nat) (l : List Attempt) : Prop :=
  ∀ l₁ a l₂, l = l₁ ++ a :: l₂ →
    (a.exhausted = true ↔ a.outcome = .failed ∧ streak n (l₁ ++ [a]) = max) ∧
    (a.outcome = .answered → a.after = 0)

theorem Chain.consecutive_iff (h : Chain max n l m) (hn : n < max) :
    Consecutive max n l ↔ ∀ a ∈ l, a.outcome = .answered → a.after = 0 := by
  constructor
  case mp =>
    intro hc a ha
    have ⟨l₁, l₂, hl⟩ := List.append_of_mem ha
    exact (hc l₁ a l₂ hl).2
  case mpr =>
    intro hr l₁ a l₂ hl
    subst hl
    refine ⟨?_, hr a (List.mem_append_right _ List.mem_cons_self)⟩
    have ⟨h₁, he, hc⟩ := h.split
    have ⟨hs, hm⟩ := h₁.count hn (fun b hb => hr b (List.mem_append_left _ hb)) he
    rw [hc.exhausted, streak_append]
    refine and_congr_right fun ho => ?_
    rw [if_pos ho, ← hs]
    omega

end

-- A row of a state, which holds a counter. An attempt `κ` may be impossible.
structure Counter (σ ρ κ : Type) where
  row       : σ → Option ρ
  attempt   : σ → κ → Option σ
  count     : ρ → Nat
  outcome   : κ → Outcome
  exhausted : κ → ρ → Bool

-- An attempt, along with the row before and after it.
structure Record (ρ κ : Type) where
  attempt : κ
  before  : ρ
  after   : ρ

namespace Counter

variable {σ ρ κ : Type} (C : Counter σ ρ κ)

def counted (r : Record ρ κ) : Attempt where
  outcome   := C.outcome r.attempt
  before    := C.count r.before
  after     := C.count r.after
  exhausted := C.exhausted r.attempt r.after

-- Any number of attempts, with no other writer.
inductive Run (s : σ) : List (Record ρ κ) → σ → Prop
  | nil : Run s [] s
  | snoc {l : List (Record ρ κ)} {s₁ s₂ : σ} {r : Record ρ κ} : Run s l s₁ → C.row s₁ = some r.before →
    C.attempt s₁ r.attempt = some s₂ → C.row s₂ = some r.after → Run s (l ++ [r]) s₂

-- All attempts are counted, and there are none at a row for which the last one has been made.
structure Law (max : Nat) (ended : ρ → Bool) : Prop where
  counts {s s' : σ} {r : Record ρ κ} : C.row s = some r.before → C.attempt s r.attempt = some s' →
    C.row s' = some r.after → (C.counted r).Counts max
  open_ {s s' : σ} {r : Record ρ κ} : C.row s = some r.before → C.attempt s r.attempt = some s' →
    ended r.before = false
  ended {k : κ} {row : ρ} : C.exhausted k row = true → ended row = true

variable {C} {max : Nat} {ended : ρ → Bool} {s s' : σ} {row : ρ} {l : List (Record ρ κ)}

theorem Run.chain (hl : C.Law max ended) (h : C.Run s l s') (hs : C.row s = some row) :
    ∃ row', C.row s' = some row' ∧ Chain max (C.count row) (l.map C.counted) (C.count row') ∧
      ((∃ a ∈ l.map C.counted, a.exhausted = true) → ended row' = true) := by
  induction h with
  | nil => exact ⟨row, hs, .nil, by simp⟩
  | @snoc l s₁ s₂ r _ hb hp ha hi =>
    have ⟨row', hrow, hc, he⟩ := hi
    cases hb.symm.trans hrow
    have hn (a : Attempt) (hm : a ∈ l.map C.counted) : a.exhausted = false := by
      by_contra hx
      cases (hl.open_ hb hp).symm.trans (he ⟨a, hm, eq_true_of_ne_false hx⟩)
    refine ⟨r.after, ha, ?_, ?_⟩
    · rw [List.map_append]
      exact .snoc hc hn (hl.counts hb hp ha)
    · rintro ⟨a, hm, hx⟩
      rw [List.map_append] at hm
      rcases List.mem_append.mp hm with hm | hm
      case inl => cases (hn a hm).symm.trans hx
      case inr =>
        cases List.mem_singleton.mp hm
        exact hl.ended hx

-- What holds for each attempt holds for all attempts of a run.
theorem Run.forall {P : Record ρ κ → Prop} (h : C.Run s l s')
    (hp : ∀ s s' r, C.row s = some r.before → C.attempt s r.attempt = some s' → C.row s' = some r.after → P r) :
    ∀ r ∈ l, P r := by
  induction h with
  | nil => simp
  | snoc _ hb ha hrow hi =>
    refine List.forall_mem_append.mpr ⟨hi, fun r hr => ?_⟩
    cases List.mem_singleton.mp hr
    exact hp _ _ _ hb ha hrow

-- The attempts of a run are consecutive if and only if each answer leaves the counter at zero.
theorem Run.consecutive_iff (hl : C.Law max ended) (h : C.Run s l s') (hs : C.row s = some row)
    (hn : C.count row < max) : Consecutive max (C.count row) (l.map C.counted) ↔
      ∀ r ∈ l, C.outcome r.attempt = .answered → C.count r.after = 0 := by
  have ⟨_, _, hc, _⟩ := h.chain hl hs
  rw [hc.consecutive_iff hn, List.forall_mem_map]
  rfl

-- Makes one attempt after another.
def play (C : Counter σ ρ κ) : List κ → List (Record ρ κ) → σ → Option (List (Record ρ κ) × σ)
  | [],      l, s => some (l, s)
  | k :: ks, l, s => do
    let before ← C.row s
    let s' ← C.attempt s k
    let after ← C.row s'
    C.play ks (l ++ [⟨k, before, after⟩]) s'

theorem Run.of_play {ks : List κ} {l' : List (Record ρ κ)} {s₁ : σ} (h : C.Run s l s₁)
    (hp : C.play ks l s₁ = some (l', s')) : C.Run s l' s' := by
  induction ks generalizing l s₁ with
  | nil =>
    cases hp
    exact h
  | cons k ks hi =>
    have ⟨before, hb, hp⟩ := Option.bind_eq_some_iff.mp hp
    have ⟨s₂, ha, hp⟩ := Option.bind_eq_some_iff.mp hp
    have ⟨after, hrow, hp⟩ := Option.bind_eq_some_iff.mp hp
    exact hi (.snoc h hb ha hrow) hp

theorem exists_run_of_play {p : List (Record ρ κ) → Bool} (ks : List κ)
    (h : (C.play ks [] s).any (fun (l, _) => p l) = true) : ∃ l s', C.Run s l s' ∧ p l = true := by
  have ⟨⟨l, s'⟩, hp, ha⟩ := (Option.any_eq_true ..).mp h
  exact ⟨l, s', .of_play .nil hp, ha⟩

end Counter
end Budget
