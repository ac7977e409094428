import Mathlib.Algebra.Order.BigOperators.Group.List
import Mergepay.Balance.Totality
import Mergepay.Expense.Split

namespace Mergepay

open Money Text

variable {numberText : ℚ → String} {R : Registry}

-- What the split engine returns

-- What a participant gets before the remainder is known.
def allotted (total : Int) (splitType : SplitType) (count : Nat) (s : ShareInput) : Int :=
  match splitType with
  | .equal      => total.tdiv count
  | .custom     => amountToStroops (s.amount.getD "")
  | .percentage => (total * round (s.percent.getD 0 * 1000)).tdiv 100000

-- The first participant gets what the others leave.
def shareAmounts (total : Int) (splitType : SplitType) (shares : List ShareInput) : List Int :=
  match shares with
  | []      => []
  | _ :: tl =>
    let rest := tl.map (allotted total splitType shares.length)
    (total - rest.sum) :: rest

-- The percentages as the split engine demands them.
structure PercentsAgree (shares : List ShareInput) : Prop where
  complete : ∀ s ∈ shares, s.percent.isSome = true
  total    : |(shares.map (·.percent.getD 0)).sum - 100| ≤ 1 / 1000

def render (c : String × Int) : Except Failure ComputedShare :=
  return { userId := c.1, shareAmount := ← fromStroops c.2 }

theorem render_reads (h : render c = .ok s) : s.userId = c.1 ∧ toStroops s.shareAmount = .ok c.2 := by
  have ⟨t, ht, h⟩ := Except.bind_eq_ok.mp h
  rw [← Except.pure_eq_ok.mp h]
  exact ⟨rfl, toStroops_fromStroops ht⟩

theorem fixRemainder_map (f : ShareInput → Int) (total : Int) (hd : ShareInput) (tl : List ShareInput) :
    fixRemainder ((hd :: tl).map fun s => (s.userId, f s)) total =
      (((hd :: tl).map (·.userId)).zip ((total - (tl.map f).sum) :: tl.map f)).mapM render := by
  have hs : (tl.map fun s => (s.userId, f s)).map Prod.snd = tl.map f := by
    simp [Function.comp_def]
  have hf : f hd + (total - (f hd + (tl.map f).sum)) = total - (tl.map f).sum := by omega
  have hz : (tl.map (·.userId)).zip (tl.map f) = tl.map fun s => (s.userId, f s) := by
    rw [List.zip_map']
  simp only [fixRemainder, List.map_cons, hs, List.sum_cons, hf, List.zip_cons_cons, hz]
  rfl

theorem addPercent_foldlM (shares : List ShareInput) (q : ℚ) (h : ∀ s ∈ shares, s.percent.isSome = true) :
    shares.foldlM addPercent q = .ok (q + (shares.map (·.percent.getD 0)).sum) := by
  induction shares generalizing q with
  | nil => simp [Except.pure_eq_ok]
  | cons hd tl hi =>
    have ⟨hp, ht⟩ := List.forall_mem_cons.mp h
    have ⟨p, hp⟩ := Option.isSome_iff_exists.mp hp
    rw [List.foldlM_cons, addPercent, hp, pure_bind, hi _ ht, List.map_cons, List.sum_cons, hp,
      Option.getD_some, add_assoc]

theorem addPercent_isSome {shares : List ShareInput} (h : shares.foldlM addPercent q = .ok q') :
    ∀ s ∈ shares, s.percent.isSome = true := by
  intro s hs
  have ⟨_, _, h⟩ := Except.foldlM_mem h hs
  simp only [addPercent] at h
  split at h
  case h_1 => contradiction
  case h_2 hp => simp [hp]

-- The premises under which the split engine is called.
structure Splittable (total : Int) (splitType : SplitType) (shares : List ShareInput) : Prop where
  nonempty : shares ≠ []
  positive : 0 < total
  amounts  : splitType = .custom → (∀ s ∈ shares, 0 < amountToStroops (s.amount.getD "") ∧
    customStroops s = .ok (s.userId, amountToStroops (s.amount.getD ""))) ∧
    (shares.map fun s => amountToStroops (s.amount.getD "")).sum = total

theorem computeShares_eq (ht : toStroops amount = .ok total) (h : Splittable total splitType shares)
    (hp : splitType = .percentage → PercentsAgree shares) :
    computeShares numberText amount splitType shares =
      ((shares.map (·.userId)).zip (shareAmounts total splitType shares)).mapM render := by
  have hn := h.nonempty
  have hpos : ¬total ≤ 0 := not_le.mpr h.positive
  cases shares with
  | nil => contradiction
  | cons hd tl =>
    have ok_bind {α β : Type} (a : α) (f : α → Except Failure β) : (Except.ok a >>= f) = f a := rfl
    simp only [computeShares, reduceCtorEq, if_false, ht, hpos, ok_bind]
    cases splitType with
    | equal => exact fixRemainder_map (fun _ => total.tdiv (hd :: tl).length) total hd tl
    | custom =>
      have ⟨ha, hs⟩ := h.amounts rfl
      have hm : ((hd :: tl).map fun s => (s.userId, amountToStroops (s.amount.getD ""))).map Prod.snd =
          (hd :: tl).map fun s => amountToStroops (s.amount.getD "") := by
        simp [Function.comp_def]
      have hz : (((hd :: tl).map (·.userId)).zip (shareAmounts total .custom (hd :: tl))) =
          (hd :: tl).map fun s => (s.userId, amountToStroops (s.amount.getD "")) := by
        rw [List.map_cons, List.sum_cons] at hs
        have hf : total - (tl.map fun s => amountToStroops (s.amount.getD "")).sum =
            amountToStroops (hd.amount.getD "") := by omega
        have hl : allotted total .custom (hd :: tl).length =
            fun s => amountToStroops (s.amount.getD "") := rfl
        rw [shareAmounts, hl, hf, ← List.zip_map']
        rfl
      rw [Except.mapM_eq_map fun s hm => (ha s hm).2, ok_bind, hm, hs, if_neg (not_not.mpr rfl), hz]
      rfl
    | percentage =>
      have hp := hp rfl
      rw [addPercent_foldlM _ _ hp.complete, ok_bind, if_neg (by simpa using hp.total)]
      exact fixRemainder_map (fun s => (total * round (s.percent.getD 0 * 1000)).tdiv 100000) total hd tl

theorem computeShares_agree
    (h : computeShares numberText amount .percentage shares = .ok computed) : PercentsAgree shares := by
  simp only [computeShares] at h
  split at h
  case isTrue => contradiction
  case isFalse =>
    have ⟨total', _, h⟩ := Except.bind_eq_ok.mp h
    split at h
    case isTrue => contradiction
    case isFalse =>
      have ⟨pctTotal, hf, h⟩ := Except.bind_eq_ok.mp h
      split at h
      case isTrue => contradiction
      case isFalse hd =>
        have hs := addPercent_isSome hf
        rw [addPercent_foldlM _ _ hs, zero_add, Except.ok.injEq] at hf
        exact ⟨hs, hf ▸ not_lt.mp hd⟩

-- The split engine accepts what it can split, as long as the shares are in range.
theorem computeShares_ok_iff (ht : toStroops amount = .ok total) (h : Splittable total splitType shares) :
    computeShares numberText amount splitType shares = .ok computed ↔
    (splitType = .percentage → PercentsAgree shares) ∧
    ((shares.map (·.userId)).zip (shareAmounts total splitType shares)).mapM render = .ok computed := by
  constructor
  case mp =>
    intro hc
    have hp : splitType = .percentage → PercentsAgree shares := by
      intro hs
      subst hs
      exact computeShares_agree hc
    exact ⟨hp, computeShares_eq ht h hp ▸ hc⟩
  case mpr =>
    intro ⟨hp, hm⟩
    exact (computeShares_eq ht h hp).trans hm

-- The size of the shares

theorem le_sum_map {f : ShareInput → Int} {shares : List ShareInput} (h : ∀ s ∈ shares, 0 < f s)
    (hs : s ∈ shares) : f s ≤ (shares.map f).sum := by
  refine List.single_le_sum (fun n hn => ?_) _ (List.mem_map_of_mem hs)
  have ⟨s', hs', hn⟩ := List.mem_map.mp hn
  rw [← hn]
  exact (h s' hs').le

-- A percentage in thousandths.
def milliPercent (s : ShareInput) : Int :=
  round (s.percent.getD 0 * 1000)

-- What all participants but the first one are given by their percentages.
def othersPart (total : Int) (shares : List ShareInput) : Int :=
  (shares.tail.map fun s => total * milliPercent s / 100000).sum

-- The requests whose remainder can be written as an amount.
def InRange (total : Int) (splitType : SplitType) (shares : List ShareInput) : Prop :=
  splitType = .percentage → othersPart total shares ≤ total + maxStroops

-- The requests which leave nobody with a negative share, or with one below 10⁻⁶.
def Bearable (total : Int) (splitType : SplitType) (shares : List ShareInput) : Prop :=
  match splitType with
  | .equal      => 10 * shares.length ≤ total ∨ 10 ≤ total ∧ total < shares.length
  | .custom     => ∀ s ∈ shares, 10 ≤ amountToStroops (s.amount.getD "")
  | .percentage =>
    (∀ s ∈ shares.tail, total * milliPercent s < 100000 ∨ 1000000 ≤ total * milliPercent s) ∧
    (othersPart total shares = total ∨ othersPart total shares + 10 ≤ total)

theorem sum_shareAmounts {shares : List ShareInput} (h : shares ≠ []) :
    (shareAmounts total splitType shares).sum = total := by
  cases shares with
  | nil        => contradiction
  | cons hd tl => simp [shareAmounts]

theorem length_shareAmounts (shares : List ShareInput) :
    (shareAmounts total splitType shares).length = shares.length := by
  cases shares <;> simp [shareAmounts]

def PercentsBounded (shares : List ShareInput) : Prop :=
  ∀ s ∈ shares, ∀ p ∈ s.percent, 0 ≤ p ∧ p ≤ 100

theorem milliPercent_bounds (h : ∀ p ∈ s.percent, 0 ≤ p ∧ p ≤ 100) :
    0 ≤ milliPercent s ∧ milliPercent s ≤ 100000 := by
  have hp : 0 ≤ s.percent.getD 0 ∧ s.percent.getD 0 ≤ 100 := by
    cases hs : s.percent with
    | none   => simp
    | some p => exact h p hs
  constructor
  case left  => exact Int.floor_nonneg.mpr (by linarith [hp.1])
  case right =>
    refine Int.lt_add_one_iff.mp <| Int.floor_lt.mpr ?_
    push_cast
    linarith [hp.2]

theorem allotted_percentage (ht : 0 < total) (h : ∀ p ∈ s.percent, 0 ≤ p ∧ p ≤ 100) :
    allotted total .percentage n s = total * milliPercent s / 100000 :=
  Int.tdiv_eq_ediv_of_nonneg <| mul_nonneg ht.le (milliPercent_bounds h).1

-- The first participant of an equal split gets at least what the others get.
theorem equal_bounds {total : Int} {n : Nat} (h : 0 < total) :
    (n + 1) * (total.tdiv (n + 1 : Nat)) ≤ total ∧ total < (n + 1) * (total.tdiv (n + 1 : Nat) + 1) := by
  have hd := Int.mul_ediv_add_emod total (n + 1 : Nat)
  have hm := Int.emod_lt_of_pos total (by omega : (0 : Int) < (n + 1 : Nat))
  have hn := Int.emod_nonneg total (by omega : ((n + 1 : Nat) : Int) ≠ 0)
  rw [Int.tdiv_eq_ediv_of_nonneg h.le]
  push_cast at hd hm hn ⊢
  rw [mul_add_one]
  omega

theorem shareAmounts_equal : shareAmounts total .equal (hd :: tl) =
    (total - tl.length * total.tdiv (tl.length + 1 : Nat)) ::
      List.replicate tl.length (total.tdiv (tl.length + 1 : Nat)) := by
  have hm : tl.map (allotted total .equal (hd :: tl).length) =
      List.replicate tl.length (total.tdiv (tl.length + 1 : Nat)) :=
    List.map_const' ..
  simp only [shareAmounts, hm, List.sum_replicate, nsmul_eq_mul]

theorem bearable_equal (ht : 0 < total) : (∀ a ∈ shareAmounts total .equal (hd :: tl), a = 0 ∨ 10 ≤ a) ↔
    Bearable total .equal (hd :: tl) := by
  have ⟨h₀, h₁⟩ := equal_bounds (n := tl.length) ht
  have hb : 0 ≤ total.tdiv (tl.length + 1 : Nat) := Int.tdiv_nonneg ht.le (by omega)
  rw [shareAmounts_equal, List.forall_mem_cons]
  simp only [Bearable, List.length_cons, Nat.cast_add, Nat.cast_one] at h₀ h₁ hb ⊢
  generalize total.tdiv (tl.length + 1) = b at h₀ h₁ hb ⊢
  generalize hn : (tl.length : Int) = n at h₀ h₁ ⊢
  have hl : 0 ≤ n := by omega
  have hnb : 0 ≤ n * b := mul_nonneg hl hb
  simp only [add_one_mul, mul_add_one] at h₀ h₁
  constructor
  case mp =>
    intro ⟨hf, hr⟩
    by_cases hz : b = 0
    case pos =>
      simp only [hz, mul_zero] at hf h₁
      omega
    case neg =>
      refine .inl ?_
      by_cases hn₀ : n = 0
      case pos =>
        simp only [hn₀, zero_mul] at hf ⊢
        omega
      case neg =>
        have hb := hr b <| List.mem_replicate.mpr ⟨by omega, rfl⟩
        have := mul_le_mul_of_nonneg_left (a := n) (show 10 ≤ b by omega) hl
        omega
  case mpr =>
    have hr : b = 0 ∨ 10 ≤ b → ∀ a ∈ List.replicate tl.length b, a = 0 ∨ 10 ≤ a :=
      fun h a ha => List.eq_of_mem_replicate ha ▸ h
    intro h
    cases h with
    | inl h =>
      have hb : 10 ≤ b := by
        by_contra hlt
        have := mul_le_mul_of_nonneg_left (a := n) (show b ≤ 9 by omega) hl
        omega
      exact ⟨by omega, hr (.inr hb)⟩
    | inr h =>
      have hb : b = 0 := by
        by_contra hne
        have := mul_le_mul_of_nonneg_left (a := n) (show 1 ≤ b by omega) hl
        omega
      simp only [hb, mul_zero] at h₀ ⊢
      exact ⟨by omega, hb ▸ hr (.inl hb)⟩

theorem shareAmounts_custom (h : Splittable total .custom shares) :
    shareAmounts total .custom shares = shares.map fun s => amountToStroops (s.amount.getD "") := by
  have ⟨_, hs⟩ := h.amounts rfl
  cases shares with
  | nil        => rfl
  | cons hd tl =>
    rw [List.map_cons, List.sum_cons] at hs
    have hl : allotted total .custom (hd :: tl).length = fun s => amountToStroops (s.amount.getD "") := rfl
    simp only [shareAmounts, hl, List.map_cons, List.cons.injEq, and_true]
    omega

theorem shareAmounts_percentage (ht : 0 < total) (h : PercentsBounded (hd :: tl)) :
    shareAmounts total .percentage (hd :: tl) = (total - othersPart total (hd :: tl)) ::
      tl.map fun s => total * milliPercent s / 100000 := by
  have hm : tl.map (allotted total .percentage (hd :: tl).length) =
      tl.map fun s => total * milliPercent s / 100000 :=
    List.map_congr_left fun s hs => allotted_percentage ht <| h s (List.mem_cons_of_mem _ hs)
  simp only [shareAmounts, hm, othersPart, List.tail_cons]

theorem inRange_iff (h : Splittable total splitType shares) (hp : PercentsBounded shares)
    (hm : total ≤ maxStroops) :
    (∀ a ∈ shareAmounts total splitType shares, a.natAbs ≤ maxStroops) ↔ InRange total splitType shares := by
  have ht := h.positive
  cases hs : shares with
  | nil        => exact absurd hs h.nonempty
  | cons hd tl =>
    subst hs
    cases splitType with
    | equal =>
      have ⟨h₀, h₁⟩ := equal_bounds (n := tl.length) ht
      refine iff_of_true (fun a ha => ?_) nofun
      rw [shareAmounts_equal, List.mem_cons, List.mem_replicate] at ha
      have hb : 0 ≤ total.tdiv (tl.length + 1 : Nat) := Int.tdiv_nonneg ht.le (by omega)
      have hn : 0 ≤ (tl.length : Int) * total.tdiv (tl.length + 1 : Nat) := mul_nonneg (by omega) hb
      rw [add_one_mul] at h₀
      rcases ha with ha | ⟨_, ha⟩ <;> omega
    | custom =>
      have ⟨ha, hsum⟩ := h.amounts rfl
      refine iff_of_true (fun a hm' => ?_) nofun
      rw [shareAmounts_custom h] at hm'
      have ⟨s, hs, hn⟩ := List.mem_map.mp hm'
      have hle := le_sum_map (fun s hs => (ha s hs).1) hs
      have hpos := (ha s hs).1
      rw [hsum] at hle
      omega
    | percentage =>
      have ho : 0 ≤ othersPart total (hd :: tl) := List.sum_nonneg fun a ha => by
        have ⟨s, hs, ha⟩ := List.mem_map.mp ha
        have hb := (milliPercent_bounds <| hp s (List.mem_cons_of_mem _ hs)).1
        exact ha ▸ Int.ediv_nonneg (mul_nonneg ht.le hb) (by decide)
      have hr : ∀ a ∈ tl.map (fun s => total * milliPercent s / 100000), a.natAbs ≤ maxStroops := by
        intro a ha
        have ⟨s, hs, ha⟩ := List.mem_map.mp ha
        have ⟨h₀, h₁⟩ := milliPercent_bounds <| hp s (List.mem_cons_of_mem _ hs)
        have h₀ := mul_nonneg ht.le h₀
        have h₁ := mul_le_mul_of_nonneg_left h₁ ht.le
        omega
      rw [shareAmounts_percentage ht hp, List.forall_mem_cons, and_iff_left hr]
      simp only [InRange, forall_const]
      omega

theorem bearable_iff (h : Splittable total splitType shares) (hp : PercentsBounded shares) :
    (∀ a ∈ shareAmounts total splitType shares, a = 0 ∨ 10 ≤ a) ↔ Bearable total splitType shares := by
  have ht := h.positive
  cases hs : shares with
  | nil        => exact absurd hs h.nonempty
  | cons hd tl =>
    subst hs
    cases splitType with
    | equal => exact bearable_equal ht
    | custom =>
      have ⟨ha, _⟩ := h.amounts rfl
      rw [shareAmounts_custom h, List.forall_mem_map]
      refine forall₂_congr fun s hs => ?_
      have := (ha s hs).1
      omega
    | percentage =>
      rw [shareAmounts_percentage ht hp, List.forall_mem_cons, List.forall_mem_map, and_comm]
      refine and_congr (forall₂_congr fun s hs => ?_) (by omega)
      have hb := (milliPercent_bounds <| hp s (List.mem_cons_of_mem _ hs)).1
      have := mul_nonneg ht.le hb
      omega

-- What the schema accepts

theorem amountToStroops_eq (t : String) : amountToStroops t = Decimal.value 7 t.toList := by
  simp only [amountToStroops, Decimal.value, Decimal.digits_dropZeros, stroopsPerUnit]
  rfl

theorem toStroops_shareAmount (h : isShareAmount t = true) (h₀ : 0 < amountToStroops t)
    (h₁ : amountToStroops t ≤ maxStroops) : toStroops t = .ok (amountToStroops t) := by
  simp only [isShareAmount, Bool.and_eq_true, decide_eq_true_eq] at h
  rw [amountToStroops_eq] at h₀ h₁ ⊢
  have hv : validateAmount t = .ok ⟨.ofList (Decimal.canonical 7 t.toList), Decimal.value 7 t.toList⟩ :=
    validateDecimal_eq_ok.mpr ⟨h.1, h.2, by simp; omega, by omega, rfl⟩
  exact (toStroops_of_validateAmount hv).2

theorem mem_flatMap_zipIdx_eq_nil {f : ShareInput × Nat → List Issue} {shares : List ShareInput}
    (h : shares.zipIdx.flatMap f = []) (hs : s ∈ shares) : ∃ i, f (s, i) = [] := by
  have ⟨i, hi, he⟩ := List.mem_iff_getElem.mp hs
  refine ⟨i, List.flatMap_eq_nil_iff.mp h (s, i) ?_⟩
  exact List.mk_mem_zipIdx_iff_getElem?.mpr (List.getElem?_eq_some_iff.mpr ⟨hi, he⟩)

structure WellShaped (val : CreateExpenseInput) : Prop where
  nonempty : val.shares ≠ []
  userId   : ∀ s ∈ val.shares, s.userId ≠ ""
  amount   : ∀ s ∈ val.shares, ∀ a ∈ s.amount, isShareAmount a = true
  percent  : ∀ s ∈ val.shares, ∀ p ∈ s.percent, 0 ≤ p ∧ p ≤ 100

theorem shapeIssues_eq_nil (h : shapeIssues val = []) : WellShaped val := by
  simp only [shapeIssues, List.append_eq_nil_iff] at h
  have ⟨⟨⟨⟨⟨_, _⟩, _⟩, hn⟩, hs⟩, _⟩ := h
  have hs {s} (hm : s ∈ val.shares) := mem_flatMap_zipIdx_eq_nil hs hm
  constructor
  case nonempty =>
    intro he
    simp [he] at hn
  case userId =>
    intro s hm he
    have ⟨i, hi⟩ := hs hm
    simp [shareIssues, he] at hi
  case amount =>
    intro s hm a ha
    have ⟨i, hi⟩ := hs hm
    simp only [shareIssues, List.append_eq_nil_iff] at hi
    by_contra hn
    have hi := hi.1.1.2
    simp [Option.mem_def.mp ha, hn] at hi
  case percent =>
    intro s hm p hp
    have ⟨i, hi⟩ := hs hm
    simp only [shareIssues, List.append_eq_nil_iff] at hi
    have ⟨⟨_, h₀⟩, h₁⟩ := hi
    simp only [Option.mem_def.mp hp, Option.any_some] at h₀ h₁
    constructor
    case left =>
      by_contra hn
      simp [not_le.mp hn] at h₀
    case right =>
      by_contra hn
      simp [not_le.mp hn] at h₁

-- The checks of a custom split.
theorem customIssues_eq_nil (h : customIssues val = []) :
    (∀ s ∈ val.shares, ∃ a ∈ s.amount, 0 < amountToStroops a) ∧
    (val.shares.map fun s => amountToStroops (s.amount.getD "")).sum = amountToStroops val.amount := by
  simp only [customIssues] at h
  split at h
  case isTrue => contradiction
  case isFalse ha =>
    rw [not_not, List.all_eq_true] at ha
    have ⟨hp, hs⟩ := List.append_eq_nil_iff.mp h
    constructor
    case left =>
      intro s hm
      have ⟨a, hsa, _⟩ := (Option.any_eq_true ..).mp (ha s hm)
      refine ⟨a, hsa, ?_⟩
      have ⟨i, hi⟩ := mem_flatMap_zipIdx_eq_nil hp hm
      by_contra hn
      simp [Option.mem_def.mp hsa, not_lt.mp hn] at hi
    case right =>
      by_contra hn
      simp [hn] at hs

theorem amountToStroops_decimal (h : validateAmount t = .ok v) : amountToStroops v.decimal = v.stroops := by
  have ⟨ha, _, _, _, hv⟩ := validateDecimal_eq_ok.mp h
  subst hv
  rw [amountToStroops_eq, String.toList_ofList, Decimal.value_canonical ha]

structure SchemaAccepts (R : Registry) (raw val : CreateExpenseInput) (amount : ValidatedAmount) : Prop where
  parsed     : validateAmount raw.amount = .ok amount
  input      : val = { raw with amount := amount.decimal }
  shaped     : WellShaped val
  supported  : ∃ a, R.validateAsset val.assetCode val.assetIssuer = .ok (.ok a)
  splittable : Splittable amount.stroops val.splitType val.shares

-- What the schema has checked is what the split engine relies on, except for the percentages.
theorem splittable_of_issues (ha : validateAmount t = .ok v) (hv : val.amount = v.decimal)
    (hs : WellShaped val) (hi : splitIssues numberText val = []) :
    Splittable v.stroops val.splitType val.shares where
  nonempty := hs.nonempty
  positive := by
    have := (toStroops_of_validateAmount ha).1
    omega
  amounts hc := by
    simp only [splitIssues, hc] at hi
    have ⟨hp, hsum⟩ := customIssues_eq_nil hi
    rw [hv, amountToStroops_decimal ha] at hsum
    refine ⟨fun s hm => ?_, hsum⟩
    have ⟨a, hsa, h₀⟩ := hp s hm
    have hle : amountToStroops (s.amount.getD "") ≤ v.stroops := by
      rw [← hsum]
      refine le_sum_map (fun s' hm' => ?_) hm
      have ⟨a', ha', h₀'⟩ := hp s' hm'
      rwa [Option.mem_def.mp ha']
    rw [Option.mem_def.mp hsa, Option.getD_some] at hle
    have hmax : v.stroops ≤ maxStroops := (validateDecimal_ok ha).2.2.1
    have ht := toStroops_shareAmount (hs.amount s hm a hsa) h₀ (by omega)
    simp only [customStroops, Option.mem_def.mp hsa, ht, Option.getD_some]
    exact ⟨h₀, rfl⟩

theorem refineValidatedAsset_eq_nil (h : refineValidatedAsset R code issuer = .ok []) :
    ∃ a, R.validateAsset code issuer = .ok (.ok a) := by
  have ⟨r, hr, h⟩ := Except.bind_eq_ok.mp h
  cases r with
  | ok a    => exact ⟨a, hr⟩
  | error e => simp [Except.pure_eq_ok] at h

theorem createExpenseSchema_ok (h : createExpenseSchema R numberText raw = .ok (.ok val)) :
    ∃ amount, SchemaAccepts R raw val amount := by
  simp only [createExpenseSchema] at h
  split at h
  case h_1 => simp [Except.pure_eq_ok] at h
  case h_2 amount ha =>
    split at h
    case isTrue => simp [Except.pure_eq_ok] at h
    case isFalse hs =>
      rw [not_not] at hs
      have ⟨issues, hr, h⟩ := Except.bind_eq_ok.mp h
      split at h
      case isTrue => simp [Except.pure_eq_ok] at h
      case isFalse hi =>
        rw [not_not, List.append_eq_nil_iff] at hi
        have hv := Except.ok.inj (Except.pure_eq_ok.mp h)
        subst hv
        have hs := shapeIssues_eq_nil hs
        have hr := refineValidatedAsset_eq_nil (hi.1 ▸ hr)
        exact ⟨amount, ha, rfl, hs, hr, splittable_of_issues ha rfl hs hi.2⟩

end Mergepay
