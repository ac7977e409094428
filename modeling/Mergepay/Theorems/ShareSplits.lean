import Mergepay.Expense.Shares

namespace Mergepay

open Money Balance

-- The shares of a total, in the order of the participants.
structure SplitsExactly (total : Int) (splitType : SplitType) (shares : List ShareInput)
    (computed : List ComputedShare) : Prop where
  readable : ∀ c ∈ computed, ∃ n, toStroops c.shareAmount = .ok n
  exact    : (computed.map fun c => stroops c.shareAmount).sum = total
  nonneg   : ∀ c ∈ computed, 0 ≤ stroops c.shareAmount
  users    : computed.map (·.userId) = shares.map (·.userId)
  floors   : splitType = .percentage → computed.tail.map (fun c => stroops c.shareAmount) =
    shares.tail.map fun s => ⌊(total * round (1000 * s.percent.getD 0) / 100000 : ℚ)⌋

-- The first participant has to make up for what the others get too much.
def Payable (total : Int) (splitType : SplitType) (shares : List ShareInput) : Prop :=
  match splitType with
  | .equal      => True
  | .custom     => ∀ s ∈ shares, ∀ t ∈ s.amount, 0 ≤ stroops t
  | .percentage =>
    (shares.tail.map fun s => ⌊(total * round (1000 * s.percent.getD 0) / 100000 : ℚ)⌋).sum ≤ total

section

variable {numberText : ℚ → String} {amount : String} {splitType : SplitType} {shares : List ShareInput}
  {computed : List ComputedShare} {total : Int} {l : List Int}

theorem floor_part (total : Int) (s : ShareInput) :
    ⌊(total * round (1000 * s.percent.getD 0) / 100000 : ℚ)⌋ = total * milliPercent s / 100000 := by
  have hf : ⌊((total * milliPercent s : Int) / (100000 : Int) : ℚ)⌋ = total * milliPercent s / 100000 :=
    Rat.floor_intCast_div_natCast _ 100000
  rw [← hf, milliPercent, mul_comm 1000]
  push_cast
  rfl

theorem sum_floor_part (total : Int) (shares : List ShareInput) :
    (shares.tail.map fun s => ⌊(total * round (1000 * s.percent.getD 0) / 100000 : ℚ)⌋).sum =
      othersPart total shares := by
  simp only [floor_part, othersPart]

-- Whatever amounts are rendered, they are read back.
theorem splitsExactly_iff (h : ((shares.map (·.userId)).zip l).mapM render = .ok computed)
    (hl : l.length = shares.length) (hs : l.sum = total) : SplitsExactly total splitType shares computed ↔
      (∀ n ∈ l, 0 ≤ n) ∧ (splitType = .percentage → l.tail =
        shares.tail.map fun s => ⌊(total * round (1000 * s.percent.getD 0) / 100000 : ℚ)⌋) := by
  have hu : computed.map (·.userId) = shares.map (·.userId) :=
    (Except.map_of_mapM h fun _ _ hr => (render_reads hr).1).trans <| List.map_fst_zip (by simp [hl])
  have hv : computed.map (fun c => stroops c.shareAmount) = l :=
    (Except.map_of_mapM h fun _ _ hr => stroops_eq (render_reads hr).2).trans <| List.map_snd_zip (by simp [hl])
  have hn : (∀ n ∈ l, 0 ≤ n) ↔ ∀ c ∈ computed, 0 ≤ stroops c.shareAmount := by
    rw [← hv, List.forall_mem_map]
  have ht : l.tail = computed.tail.map fun c => stroops c.shareAmount := by
    rw [← hv, List.map_tail]
  rw [hn, ht]
  constructor
  case mp  => exact fun hx => ⟨hx.nonneg, hx.floors⟩
  case mpr =>
    intro ⟨hp, hf⟩
    refine { readable := fun c hc => ?_, exact := hv ▸ hs, nonneg := hp, users := hu, floors := hf }
    have ⟨u, _, hr⟩ := Except.mem_of_mapM h hc
    exact ⟨u.2, (render_reads hr).2⟩

theorem customStroops_eq_ok {s : ShareInput} {r : String × Int} (h : customStroops s = .ok r) :
    r.1 = s.userId ∧ ∃ t ∈ s.amount, toStroops t = .ok r.2 := by
  simp only [customStroops] at h
  split at h
  case h_1 => contradiction
  case h_2 t hs =>
    obtain ⟨n, hn, h⟩ := Except.bind_eq_ok.mp h
    rw [← Except.ok.inj h]
    exact ⟨rfl, t, hs, hn⟩

-- A split has a total, unless it has no participants.
theorem computeShares_total (h : computeShares numberText amount splitType shares = .ok computed) :
    shares ≠ [] ∧ ∃ total, toStroops amount = .ok total ∧ 0 < total := by
  simp only [computeShares] at h
  split at h
  case isTrue  => contradiction
  case isFalse hn =>
    obtain ⟨total, ht, h⟩ := Except.bind_eq_ok.mp h
    split at h
    case isTrue     => contradiction
    case isFalse hp => exact ⟨hn, total, ht, not_le.mp hp⟩

-- The amounts of a custom split are those of the request.
theorem computeShares_custom (ht : toStroops amount = .ok total)
    (h : computeShares numberText amount .custom shares = .ok computed) :
    ∃ l, ((shares.map (·.userId)).zip l).mapM render = .ok computed ∧ l.sum = total ∧
      List.Forall₂ (fun s n => ∃ t ∈ s.amount, toStroops t = .ok n) shares l := by
  simp only [computeShares, ht] at h
  split at h
  case isTrue => contradiction
  case isFalse =>
    obtain ⟨_, he, h⟩ := Except.bind_eq_ok.mp h
    obtain rfl := Except.ok.inj he
    split at h
    case isTrue => contradiction
    case isFalse =>
      obtain ⟨c, hc, h⟩ := Except.bind_eq_ok.mp h
      split at h
      case isTrue => exact absurd h fun hx => by obtain ⟨_, _, hx⟩ := Except.bind_eq_ok.mp hx; contradiction
      case isFalse hs =>
        have hf := Except.mapM_forall₂ hc
        have hu : shares.map (·.userId) = c.map Prod.fst :=
          (Except.map_of_mapM hc fun _ _ hr => (customStroops_eq_ok hr).1).symm
        have hz : (c.map Prod.fst).zip (c.map Prod.snd) = c := by
          rw [List.zip_map', List.map_id']
        refine ⟨c.map Prod.snd, ?_, not_not.mp hs, ?_⟩
        · rw [hu, hz]
          exact h
        · rw [List.forall₂_map_right_iff]
          exact hf.imp fun s r hr => (customStroops_eq_ok hr).2

theorem payable_custom (h : List.Forall₂ (fun s n => ∃ t ∈ s.amount, toStroops t = .ok n) shares l) :
    (∀ n ∈ l, 0 ≤ n) ↔ Payable total .custom shares := by
  induction h with
  | nil => simp [Payable]
  | @cons s n _ _ hd _ hi =>
    have ⟨t, ht, hn⟩ := hd
    have hs : (∀ t ∈ s.amount, 0 ≤ stroops t) ↔ 0 ≤ n := by
      rw [Option.mem_def.mp ht, ← stroops_eq hn]
      simp
    simp only [Payable] at hi ⊢
    rw [List.forall_mem_cons, List.forall_mem_cons, hi, hs]

-- Only the first participant can end up with a negative amount.
theorem payable_shareAmounts (hs : splitType ≠ .custom) (ht : 0 < total) (hp : PercentsBounded (hd :: tl)) :
    (∀ n ∈ shareAmounts total splitType (hd :: tl), 0 ≤ n) ↔ Payable total splitType (hd :: tl) := by
  cases splitType with
  | custom => contradiction
  | equal  =>
    have ⟨h₀, _⟩ := equal_bounds (n := tl.length) ht
    have hb : 0 ≤ total.tdiv (tl.length + 1 : Nat) := Int.tdiv_nonneg ht.le (by omega)
    rw [shareAmounts_equal, List.forall_mem_cons]
    refine iff_of_true ⟨?_, fun n hn => ?_⟩ trivial
    · rw [add_one_mul] at h₀
      omega
    · exact List.eq_of_mem_replicate hn ▸ hb
  | percentage =>
    have hr : ∀ n ∈ tl.map (fun s => total * milliPercent s / 100000), 0 ≤ n := by
      intro n hn
      have ⟨s, hs, hn⟩ := List.mem_map.mp hn
      have hb := (milliPercent_bounds <| hp s (List.mem_cons_of_mem _ hs)).1
      exact hn ▸ Int.ediv_nonneg (mul_nonneg ht.le hb) (by decide)
    rw [shareAmounts_percentage ht hp, List.forall_mem_cons, and_iff_left hr, sub_nonneg, ← sum_floor_part]
    rfl

theorem floors_shareAmounts (ht : 0 < total) (hp : PercentsBounded (hd :: tl)) :
    (shareAmounts total .percentage (hd :: tl)).tail =
      tl.map fun s => ⌊(total * round (1000 * s.percent.getD 0) / 100000 : ℚ)⌋ := by
  rw [shareAmounts_percentage ht hp, List.tail_cons]
  exact List.map_congr_left fun s _ => (floor_part total s).symm

end

theorem shares_split_exactly (numberText : ℚ → String) (amount : String) (splitType : SplitType)
    (shares : List ShareInput) (computed : List ComputedShare)
    (h : computeShares numberText amount splitType shares = .ok computed) (hp : PercentsBounded shares) :
    ∃ total, toStroops amount = .ok total ∧ 0 < total ∧
      (SplitsExactly total splitType shares computed ↔ Payable total splitType shares) := by
  have ⟨hn, total, ht, hpos⟩ := computeShares_total h
  refine ⟨total, ht, hpos, ?_⟩
  by_cases hc : splitType = .custom
  case pos =>
    subst hc
    have ⟨l, hr, hsum, hf⟩ := computeShares_custom ht h
    have hq : (∀ n ∈ l, 0 ≤ n) ↔ Payable total .custom shares := payable_custom hf
    rw [splitsExactly_iff hr hf.length_eq.symm hsum, hq, and_iff_left nofun]
  case neg =>
    have hs : Splittable total splitType shares := ⟨hn, hpos, fun he => absurd he hc⟩
    have ⟨_, hr⟩ := (computeShares_ok_iff ht hs).mp h
    rw [splitsExactly_iff hr (length_shareAmounts shares) (sum_shareAmounts hn)]
    cases shares with
    | nil        => contradiction
    | cons hd tl =>
      rw [payable_shareAmounts hc hpos hp, and_iff_left]
      intro he
      subst he
      exact floors_shareAmounts hpos hp

-- The thousandths of 49.9375 and of 50.0625 are both rounded up.
def overdrawnShares : List ShareInput :=
  [{ userId := "a", percent := some 0 }, { userId := "b", percent := some (799 / 16) },
   { userId := "c", percent := some (801 / 16) }]

def overdrawnSplit : List ComputedShare :=
  [⟨"a", "-0.00001"⟩, ⟨"b", "0.49938"⟩, ⟨"c", "0.50063"⟩]

theorem overdrawn_computed : computeShares (fun _ => "100") "1" .percentage overdrawnShares = .ok overdrawnSplit := by
  decide +kernel

theorem overdrawn_bounded : PercentsBounded overdrawnShares := by
  simp [PercentsBounded, overdrawnShares]
  norm_num

theorem shares_split_negative :
    ¬∀ (numberText : ℚ → String) (amount : String) (splitType : SplitType) (shares : List ShareInput)
      (computed : List ComputedShare), computeShares numberText amount splitType shares = .ok computed →
      PercentsBounded shares →
      ∃ total, toStroops amount = .ok total ∧ 0 < total ∧ SplitsExactly total splitType shares computed := by
  intro h
  have ⟨_, _, _, hs⟩ := h _ _ _ _ _ overdrawn_computed overdrawn_bounded
  have hn := hs.nonneg ⟨"a", "-0.00001"⟩ List.mem_cons_self
  exact absurd hn (by decide)

theorem shares_split_exactly_sample :
    (computeShares (fun _ => "100") "1" .percentage overdrawnShares = .ok overdrawnSplit ∧
      PercentsBounded overdrawnShares) ∧
    ∃ total, toStroops "1" = .ok total ∧ 0 < total ∧
      (SplitsExactly total .percentage overdrawnShares overdrawnSplit ↔
        Payable total .percentage overdrawnShares) :=
  ⟨⟨overdrawn_computed, overdrawn_bounded⟩,
    shares_split_exactly _ "1" .percentage overdrawnShares overdrawnSplit overdrawn_computed overdrawn_bounded⟩

end Mergepay
