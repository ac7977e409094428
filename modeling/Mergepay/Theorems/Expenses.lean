import Mergepay.Expense.Calculation
import Mergepay.Expense.Create
import Mergepay.Expense.Shares
import Mergepay.Settlement.Runs

namespace Mergepay

open Money Text

variable {R : Registry} {numberText : ℚ → String} {fetchTrustlines : FetchTrustlines} {w : World}

-- What the readers of an expense rely on: the settle route takes the first share of its caller, and
-- the calculation of breakdowns goes over all expenses of a group.
structure Usable (R : Registry) (e : ExpenseWithShares) (amount : Int) : Prop where
  distinct  : (e.shares.map (·.userId)).Nodup
  reachable : ∀ s ∈ e.shares, s.userId ≠ e.payerUserId → e.shares.find? (·.userId = s.userId) = some s
  nonneg    : ∀ s ∈ e.shares, 0 ≤ s.shareAmount
  total     : (e.shares.map (·.shareAmount)).sum = amount
  counted   : ∀ accumulators, ∃ accumulators',
    Breakdown.addExpense R accumulators (e.record amount) = .ok accumulators'

-- The checks of the route which are not about the split.
structure Admitted (R : Registry) (fetchTrustlines : FetchTrustlines) (w : World) (userId groupId : String)
    (body : CreateExpenseInput) : Prop where
  active       : ∃ m, w.requireActiveMembership groupId userId = .ok m
  asset        : ∃ a, R.validateAssetSpec body.assetCode body.assetIssuer = .ok a ∧ (a.type ≠ .native →
    assertParticipantsCanHoldAsset fetchTrustlines
      (((body.shares.map (·.userId)).dedup.filterMap (w.membership groupId)).map fun m =>
        (m.userId, w.publicKey m.userId)) body.assetCode body.assetIssuer = .ok ())
  payer        : body.payerUserId.getD userId ≠ userId →
    (w.membership groupId (body.payerUserId.getD userId)).isSome = true
  participants : ∀ s ∈ body.shares, (w.membership groupId s.userId).isSome = true

-- The rows of the database

-- The database reads decimal texts in the same way as the engines.
theorem decimalColumn_eq (h : toStroops t = .ok n) : decimalColumn t = n := by
  simp only [toStroops, validateUnsignedAmountAllowZero] at h
  split at h
  case h_1 unsigned ht =>
    split at h
    case h_2 => contradiction
    case h_1 v hv =>
      obtain ⟨_, _, _, _, hv⟩ := validateDecimal_eq_ok.mp hv
      simp only [decimalColumn, ht, ← Except.ok.inj h, hv, String.toList_ofList]
  case h_2 hn =>
    split at h
    case h_2 => contradiction
    case h_1 v hv =>
      obtain ⟨_, _, _, _, hv⟩ := validateDecimal_eq_ok.mp hv
      simp only [decimalColumn]
      rw [← Except.ok.inj h, hv]

theorem render_eq_ok (h : render c = .ok s) : s.userId = c.1 ∧ decimalColumn s.shareAmount = c.2 :=
  (render_reads h).imp_right decimalColumn_eq

theorem mapM_render {l : List (String × Int)} (h : l.mapM render = .ok computed) :
    computed.map (fun c => (c.userId, decimalColumn c.shareAmount)) = l := by
  replace h := Except.mapM_forall₂ h
  induction h with
  | nil            => rfl
  | cons hd _ hi =>
    have ⟨h₁, h₂⟩ := render_eq_ok hd
    rw [List.map_cons, hi, h₁, h₂]

theorem mapM_render_isOk {l : List (String × Int)} :
    (∃ computed, l.mapM render = .ok computed) ↔ ∀ c ∈ l, c.2.natAbs ≤ maxStroops := by
  rw [Except.mapM_isOk_iff]
  refine forall₂_congr fun c _ => ?_
  simp only [render, Except.bind_eq_ok, Except.pure_eq_ok]
  rw [← Balance.fromStroops_isOk_iff]
  exact ⟨fun ⟨_, t, h, _⟩ => ⟨t, h⟩, fun ⟨t, h⟩ => ⟨_, t, h, rfl⟩⟩

-- The outcome of the route

-- The rows that are made of a request for some computed shares.
def CreateExpenseInput.rows (body : CreateExpenseInput) (userId groupId : String)
    (computed : List ComputedShare) : NewExpense := {
  id          := ""
  createdAt   := 0
  groupId
  payerUserId := body.payerUserId.getD userId
  assetCode   := body.assetCode
  assetIssuer := body.assetIssuer
  amount      := decimalColumn body.amount
  shares      := computed.map fun c => (c.userId, decimalColumn c.shareAmount)
}

theorem mapError_eq_ok {x : Except Failure α} {f : Failure → Failure} : x.mapError f = .ok a ↔ x = .ok a := by
  cases x <;> simp [Except.mapError]

theorem requirePayer_eq_ok : requirePayer w g u p = .ok () ↔ (p ≠ u → (w.membership g p).isSome = true) := by
  simp only [requirePayer]
  split
  case isTrue h  => simpa using ⟨h.1, Option.isNone_iff_eq_none.mp h.2⟩
  case isFalse h => simpa [Option.isSome_iff_ne_none] using h

theorem requireParticipants_eq_ok {l : List String} : requireParticipants w g l.dedup = .ok members ↔
    (∀ u ∈ l, (w.membership g u).isSome = true) ∧ members = l.dedup.filterMap (w.membership g) := by
  have hl : (l.dedup.filterMap (w.membership g)).length = l.dedup.length ↔
      ∀ u ∈ l, (w.membership g u).isSome = true := by
    simp only [List.filterMap_length_eq_length, List.mem_dedup]
  simp only [requireParticipants]
  split
  case isTrue h =>
    simp only [reduceCtorEq, false_iff, not_and]
    exact fun h' => absurd (hl.mpr h') h
  case isFalse h =>
    rw [Except.ok.injEq, eq_comm, iff_and_self]
    exact fun _ => hl.mp (not_not.mp h)

theorem requireTrustlines_eq_ok : requireTrustlines fetchTrustlines w a members code issuer = .ok () ↔
    (a.type ≠ .native → assertParticipantsCanHoldAsset fetchTrustlines
      (members.map fun m => (m.userId, w.publicKey m.userId)) code issuer = .ok ()) := by
  simp only [requireTrustlines]
  split
  case isTrue h  => simp [h]
  case isFalse h => simp [h]

theorem createExpenseRows_eq_ok (ha : requireAmount val.amount = .ok t)
    (hs : ∀ {computed}, computeShares numberText val.amount val.splitType val.shares = .ok computed →
      computed.map (·.userId) = val.shares.map (·.userId)) :
    createExpenseRows R numberText fetchTrustlines w userId groupId val = .ok x ↔
    Admitted R fetchTrustlines w userId groupId val ∧ ∃ computed,
      computeShares numberText val.amount val.splitType val.shares = .ok computed ∧
      x = val.rows userId groupId computed := by
  simp only [createExpenseRows, ha, Except.bind_eq_ok, mapError_eq_ok, Except.pure_eq_ok]
  constructor
  case mp =>
    intro ⟨_, _, a, hr, (), hp, computed, hc, members, hm, (), ht, m, ho, hx⟩
    rw [hs hc, requireParticipants_eq_ok] at hm
    have ⟨hps, he⟩ := hm
    subst he
    refine ⟨?_, computed, hc, hx.symm⟩
    exact {
      active       := ⟨m, ho⟩
      asset        := ⟨a, hr, requireTrustlines_eq_ok.mp ht⟩
      payer        := requirePayer_eq_ok.mp hp
      participants := fun s hs => hps _ (List.mem_map_of_mem hs)
    }
  case mpr =>
    intro ⟨h, computed, hc, hx⟩
    have ⟨m, ho⟩ := h.active
    have ⟨a, hr, ht⟩ := h.asset
    have hm : requireParticipants w groupId (computed.map (·.userId)).dedup =
        .ok ((computed.map (·.userId)).dedup.filterMap (w.membership groupId)) := by
      rw [requireParticipants_eq_ok, hs hc, List.forall_mem_map]
      exact ⟨h.participants, rfl⟩
    have ht := requireTrustlines_eq_ok.mpr ht
    rw [← hs hc] at ht
    exact ⟨t, rfl, a, hr, (), requirePayer_eq_ok.mpr h.payer, computed, hc, _, hm, (), ht, m, ho, hx.symm⟩

-- The created rows

section Created

variable {x : NewExpense} {n : String} {ids : List String} {t : Time}

theorem map_created {f : ExpenseShare → α} {g : String × Int → α} (h : ids.length = x.shares.length)
    (hf : ∀ i c, f (World.newShare n x.payerUserId i c) = g c) :
    ((x.created n ids t).shares).map f = x.shares.map g := by
  have hz {ids : List String} {l : List (String × Int)} (h : ids.length = l.length) :
      (List.zipWith (World.newShare n x.payerUserId) ids l).map f = l.map g := by
    induction l generalizing ids with
    | nil => simp
    | cons c l hi =>
      cases ids with
      | nil => simp at h
      | cons i ids =>
        have hl : ids.length = l.length := by simpa using h
        simp [hf, hi hl]
  exact hz h

-- The calculation does not look at what it has accumulated before it takes an expense.
theorem addExpense_isOk_iff (e : ExpenseRecord) :
    (∀ accumulators, ∃ accumulators', Breakdown.addExpense R accumulators e = .ok accumulators') ↔
    ∃ asset l, Breakdown.Checked R e asset l := by
  simp only [Breakdown.addExpense, Except.bind_eq_ok, Except.pure_eq_ok, Prod.exists,
    Breakdown.checkExpense_eq_ok]
  constructor
  case mp =>
    intro h
    have ⟨_, asset, l, h, _⟩ := h []
    exact ⟨asset, l, h⟩
  case mpr => exact fun ⟨asset, l, h⟩ _ => ⟨_, asset, l, h, rfl⟩

-- What is known about the rows that the route makes.
structure Made (R : Registry) (x : NewExpense) : Prop where
  payer        : trimmed x.payerUserId ≠ ""
  participants : ∀ c ∈ x.shares, trimmed c.1 ≠ ""
  asset        : ∃ v, R.validateAsset x.assetCode x.assetIssuer = .ok (.ok v)
  positive     : 0 < x.amount
  total        : (x.shares.map (·.2)).sum = x.amount
  inRange      : x.amount ≤ maxStroops ∧ ∀ c ∈ x.shares, c.2.natAbs ≤ maxStroops

theorem record_shares (h : ids.length = x.shares.length) : ((x.created n ids t).record a).shares =
    x.shares.map fun c => { userId := c.1, shareAmount := columnText c.2 } :=
  map_created h fun _ _ => rfl

theorem forall₂_columnStroops {l : List (String × Int)} :
    List.Forall₂ (fun c m => columnStroops c.2 = .ok m ∧ 0 ≤ m) l ms ↔
    (∀ c ∈ l, Readable c.2 ∧ 0 ≤ c.2) ∧ ms = l.map (·.2) := by
  induction l generalizing ms with
  | nil => simp
  | cons c l hi =>
    rw [List.forall₂_cons_left_iff, List.forall_mem_cons, List.map_cons]
    simp only [hi]
    simp only [columnStroops_eq_ok_iff]
    constructor
    case mp =>
      intro ⟨m, ms', ⟨⟨hr, hm⟩, h₀⟩, ⟨h, hl⟩, he⟩
      subst hm hl he
      exact ⟨⟨⟨hr, h₀⟩, h⟩, rfl⟩
    case mpr => exact fun ⟨⟨⟨hr, h₀⟩, h⟩, he⟩ => ⟨_, _, ⟨⟨hr, rfl⟩, h₀⟩, ⟨h, rfl⟩, he⟩

theorem sum_zero_or_le {l : List Int} (h : ∀ a ∈ l, a = 0 ∨ 10 ≤ a) : l.sum = 0 ∨ 10 ≤ l.sum := by
  induction l with
  | nil => simp
  | cons a l hi =>
    have ⟨ha, hl⟩ := List.forall_mem_cons.mp h
    have hi := hi hl
    rw [List.sum_cons]
    omega

theorem Made.usable_iff (h : Made R x) (hl : ids.length = x.shares.length) :
    Usable R (x.created n ids t) x.amount ↔
    (x.shares.map (·.1)).Nodup ∧ ∀ c ∈ x.shares, c.2 = 0 ∨ 10 ≤ c.2 := by
  have hu : (x.created n ids t).shares.map (·.userId) = x.shares.map (·.1) := map_created hl fun _ _ => rfl
  have ha : (x.created n ids t).shares.map (·.shareAmount) = x.shares.map (·.2) :=
    map_created hl fun _ _ => rfl
  constructor
  case mp =>
    intro hx
    refine ⟨hu ▸ hx.distinct, fun c hc => ?_⟩
    have ⟨_, l, hk⟩ := (addExpense_isOk_iff _).mp hx.counted
    have hp := hk.parsed
    rw [record_shares hl, List.forall₂_map_left_iff] at hp
    have ⟨⟨hr, _⟩, h₀⟩ := (forall₂_columnStroops.mp hp).1 c hc
    omega
  case mpr =>
    intro ⟨hd, hr⟩
    have h₀ : ∀ c ∈ x.shares, 0 ≤ c.2 := fun c hc => by
      have := hr c hc
      omega
    have ⟨v, hv⟩ := h.asset
    have hs : x.amount = 0 ∨ 10 ≤ x.amount := h.total ▸ sum_zero_or_le (List.forall_mem_map.mpr hr)
    have hpos := h.positive
    have ⟨hmax, hrange⟩ := h.inRange
    constructor
    case distinct  => exact hu ▸ hd
    case reachable => exact fun s hs _ => Table.row?_of_mem (hu ▸ hd) hs
    case nonneg    => exact fun s hs => List.forall_mem_map.mpr h₀ _ (ha ▸ List.mem_map_of_mem hs)
    case total     => exact ha ▸ h.total
    case counted   =>
      let asset : AssetRef := { assetCode := v.code, assetIssuer := v.issuer }
      refine (addExpense_isOk_iff _).mpr ⟨asset, x.shares.map (·.2), ?_⟩
      constructor
      case payer    => exact h.payer
      case nonempty =>
        intro he
        rw [record_shares hl, List.map_eq_nil_iff] at he
        have := h.total
        simp [he] at this
        omega
      case named    => exact record_shares hl ▸ List.forall_mem_map.mpr h.participants
      case distinct =>
        rw [record_shares hl, List.map_map]
        exact hd
      case asset    => exact Breakdown.normalizeAsset_eq_ok.mpr ⟨v, hv, rfl⟩
      case parsed   =>
        rw [record_shares hl, List.forall₂_map_left_iff]
        refine forall₂_columnStroops.mpr ⟨fun c hc => ⟨⟨?_, hrange c hc⟩, h₀ c hc⟩, rfl⟩
        have := hr c hc
        omega
      case positive => exact h.total ▸ hpos
      case total    =>
        intro a ha
        rw [← Option.some.inj ha, h.total]
        exact columnStroops_readable ⟨by omega, by omega⟩

end Created

-- The request

section

variable {raw val : CreateExpenseInput} {amount : ValidatedAmount} {userId groupId : String}

-- The shares of a request, as they are split.
def CreateExpenseInput.split (val : CreateExpenseInput) : List (String × Int) :=
  (val.shares.map (·.userId)).zip (shareAmounts (amountToStroops val.amount) val.splitType val.shares)

theorem map_fst_split (val : CreateExpenseInput) : val.split.map (·.1) = val.shares.map (·.userId) :=
  List.map_fst_zip (by simp [length_shareAmounts])

theorem map_snd_split (val : CreateExpenseInput) :
    val.split.map (·.2) = shareAmounts (amountToStroops val.amount) val.splitType val.shares :=
  List.map_snd_zip (by simp [length_shareAmounts])

theorem forall_split {p : Int → Prop} : (∀ c ∈ val.split, p c.2) ↔
    ∀ a ∈ shareAmounts (amountToStroops val.amount) val.splitType val.shares, p a := by
  rw [← map_snd_split, List.forall_mem_map]

theorem SchemaAccepts.amount_eq (h : SchemaAccepts R raw val amount) : val.amount = amount.decimal := by
  rw [h.input]

theorem SchemaAccepts.amountToStroops (h : SchemaAccepts R raw val amount) :
    amountToStroops val.amount = amount.stroops := by
  rw [h.amount_eq, amountToStroops_decimal h.parsed]

theorem SchemaAccepts.computeShares_ok (h : SchemaAccepts R raw val amount) :
    computeShares numberText val.amount val.splitType val.shares = .ok computed ↔
    (val.splitType = .percentage → PercentsAgree val.shares) ∧ val.split.mapM render = .ok computed := by
  have ht : toStroops val.amount = .ok amount.stroops := h.amount_eq ▸ toStroops_decimal h.parsed
  rw [computeShares_ok_iff ht h.splittable, CreateExpenseInput.split, h.amountToStroops]

theorem SchemaAccepts.computeShares_isOk (h : SchemaAccepts R raw val amount) :
    (∃ computed, computeShares numberText val.amount val.splitType val.shares = .ok computed) ↔
    (val.splitType = .percentage → PercentsAgree val.shares) ∧
    InRange (Mergepay.amountToStroops val.amount) val.splitType val.shares := by
  have hm : (amount.stroops : Int) ≤ maxStroops := by
    have := (validateDecimal_ok h.parsed).2.2.1
    omega
  simp only [h.computeShares_ok, exists_and_left, mapM_render_isOk]
  rw [forall_split (p := (·.natAbs ≤ maxStroops)), h.amountToStroops,
    inRange_iff h.splittable h.shaped.percent hm]

theorem isSome_membership (h : w.requireActiveMembership g u = .ok m) : (w.membership g u).isSome = true := by
  simp only [World.requireActiveMembership] at h
  split at h
  case h_1    => contradiction
  case h_2    => contradiction
  case h_3 hm => simp [hm]

theorem trimmed_of_membership (hn : ∀ m ∈ w.members, trimmed m.userId ≠ "")
    (h : (w.membership g u).isSome = true) : trimmed u ≠ "" := by
  have ⟨m, hm⟩ := Option.isSome_iff_exists.mp h
  have hu : m.groupId = g ∧ m.userId = u := by simpa using List.find?_some hm
  exact hu.2 ▸ hn m (List.mem_of_find?_eq_some hm)

theorem SchemaAccepts.made (h : SchemaAccepts R raw val amount) (hn : ∀ m ∈ w.members, trimmed m.userId ≠ "")
    (ha : Admitted R fetchTrustlines w userId groupId val)
    (hc : computeShares numberText val.amount val.splitType val.shares = .ok computed) :
    (val.rows userId groupId computed).shares = val.split ∧ Made R (val.rows userId groupId computed) := by
  have ⟨_, hr⟩ := h.computeShares_ok.mp hc
  have hs : (val.rows userId groupId computed).shares = val.split := mapM_render hr
  have hv : (val.rows userId groupId computed).amount = amount.stroops := by
    have := decimalColumn_eq (toStroops_decimal h.parsed)
    rwa [← h.amount_eq] at this
  have ht := h.splittable.positive
  refine ⟨hs, ?_⟩
  constructor
  case payer =>
    have ⟨_, hm⟩ := ha.active
    refine trimmed_of_membership hn (g := groupId) ?_
    by_cases hp : val.payerUserId.getD userId = userId
    case pos => exact (congrArg (w.membership groupId · |>.isSome) hp).trans (isSome_membership hm)
    case neg => exact ha.payer hp
  case participants =>
    rw [hs]
    intro c hc
    have hu : c.1 ∈ val.shares.map (·.userId) := map_fst_split val ▸ List.mem_map_of_mem hc
    have ⟨s, hsm, hu⟩ := List.mem_map.mp hu
    exact hu ▸ trimmed_of_membership hn (ha.participants s hsm)
  case asset    => exact h.supported
  case positive => rwa [hv]
  case total    => rw [hs, map_snd_split, sum_shareAmounts h.splittable.nonempty, hv, h.amountToStroops]
  case inRange  =>
    have := (validateDecimal_ok h.parsed).2.2.1
    rw [hs, hv]
    exact ⟨by omega, mapM_render_isOk.mp ⟨_, hr⟩⟩

theorem createExpenseRoute_eq_ok (h : createExpenseSchema R numberText raw = .ok (.ok val))
    (ha : SchemaAccepts R raw val amount) :
    createExpenseRoute R numberText fetchTrustlines w userId groupId raw = .ok x ↔
    Admitted R fetchTrustlines w userId groupId val ∧ ∃ computed,
      computeShares numberText val.amount val.splitType val.shares = .ok computed ∧
      x = val.rows userId groupId computed := by
  have ⟨v, hv, _⟩ := validateDecimal_decimal ha.parsed
  have hr : requireAmount val.amount = .ok v.decimal := by
    simp only [requireAmount, validateAmount, ha.amount_eq, hv]
  have hs {computed} (hc : computeShares numberText val.amount val.splitType val.shares = .ok computed) :
      computed.map (·.userId) = val.shares.map (·.userId) := by
    rw [← map_fst_split, ← mapM_render (ha.computeShares_ok.mp hc).2, List.map_map]
    rfl
  rw [← createExpenseRows_eq_ok hr hs]
  simp only [createExpenseRoute, h, Except.bind_eq_ok]
  constructor
  case mp =>
    intro ⟨_, _, _, hb, hx⟩
    obtain rfl := Except.ok.inj hb
    exact hx
  case mpr =>
    intro hx
    have ⟨m, hm⟩ := ((createExpenseRows_eq_ok hr hs).mp hx).1.active
    exact ⟨m, hm, _, rfl, hx⟩

-- Every accepted request is split, and gives rows that can be used, exactly if the percentages have no
-- more than the tolerance of the split engine, nobody takes part twice, and all shares are readable.
theorem accepted_expenses_usable (hn : ∀ m ∈ w.members, trimmed m.userId ≠ "")
    (h : createExpenseSchema R numberText raw = .ok (.ok val)) :
    ((∃ computed, computeShares numberText val.amount val.splitType val.shares = .ok computed) ∧
      ∀ x, createExpenseRoute R numberText fetchTrustlines w userId groupId raw = .ok x →
        ∀ id ids t, ids.length = x.shares.length → Usable R (x.created id ids t) x.amount) ↔
    (val.splitType = .percentage → PercentsAgree val.shares) ∧
    InRange (amountToStroops val.amount) val.splitType val.shares ∧
    (Admitted R fetchTrustlines w userId groupId val →
      (val.shares.map (·.userId)).Nodup ∧
      Bearable (amountToStroops val.amount) val.splitType val.shares) := by
  have ⟨amount, ha⟩ := createExpenseSchema_ok h
  rw [ha.computeShares_isOk, and_assoc]
  refine and_congr_right fun hp => and_congr_right fun hr => ?_
  have hc : ∃ computed, computeShares numberText val.amount val.splitType val.shares = .ok computed :=
    ha.computeShares_isOk.mpr ⟨hp, hr⟩
  have ⟨computed, hc⟩ := hc
  have usable_iff (hm : Admitted R fetchTrustlines w userId groupId val) {n ids t}
      (hl : ids.length = (val.rows userId groupId computed).shares.length) :
      Usable R ((val.rows userId groupId computed).created n ids t)
        (val.rows userId groupId computed).amount ↔
      (val.shares.map (·.userId)).Nodup ∧ Bearable (amountToStroops val.amount) val.splitType val.shares := by
    have ⟨hs, hx⟩ := ha.made hn hm hc
    rw [hx.usable_iff hl, hs, map_fst_split, forall_split (p := fun a => a = 0 ∨ 10 ≤ a), ha.amountToStroops,
      bearable_iff ha.splittable ha.shaped.percent]
  constructor
  case mp =>
    intro hu hm
    have hx := hu _ ((createExpenseRoute_eq_ok h ha).mpr ⟨hm, computed, hc, rfl⟩)
    exact (usable_iff hm List.length_replicate).mp <| hx "" (List.replicate _ "") 0 List.length_replicate
  case mpr =>
    intro hu x hx n ids t hl
    have ⟨hm, computed', hc', hx⟩ := (createExpenseRoute_eq_ok h ha).mp hx
    obtain rfl : computed' = computed := Except.ok.inj <| hc'.symm.trans hc
    subst hx
    exact (usable_iff hm hl).mpr (hu hm)

end

-- Ann and Bob share a dinner.
section Dinner

def dinner (splitType : SplitType) (shares : List ShareInput) : CreateExpenseInput :=
  { title := "Dinner", amount := "30", assetCode := "XLM", splitType, shares }

def noText (_ : ℚ) : String := ""

def noTrustlines : FetchTrustlines := fun _ _ _ => .ok []

def dinnerRoute := createExpenseRoute sampleDeps.toRegistry noText noTrustlines sampleWorld "ann" "g"

theorem accepted_expenses_usable_sample :
    (∃ computed, computeShares noText "30" .equal [⟨"ann", none, none⟩, ⟨"bob", none, none⟩] = .ok computed) ∧
    ∀ x, dinnerRoute (dinner .equal [⟨"ann", none, none⟩, ⟨"bob", none, none⟩]) = .ok x →
      ∀ id ids t, ids.length = x.shares.length →
        Usable sampleDeps.toRegistry (x.created id ids t) x.amount := by
  have hs : createExpenseSchema sampleDeps.toRegistry noText
      (dinner .equal [⟨"ann", none, none⟩, ⟨"bob", none, none⟩]) =
      .ok (.ok (dinner .equal [⟨"ann", none, none⟩, ⟨"bob", none, none⟩])) := by
    decide +kernel
  refine (accepted_expenses_usable (by decide +kernel) hs).mpr ⟨nofun, nofun, fun _ => ⟨by decide, .inl ?_⟩⟩
  decide

-- Percentages that add up to 100.005 are accepted by the schema, but not by the split engine. A
-- participant who is named twice is only rejected when the expense is read.
theorem accepted_expense_unusable :
    (createExpenseSchema sampleDeps.toRegistry noText
        (dinner .percentage [⟨"ann", none, some 50⟩, ⟨"bob", none, some (10001 / 200)⟩]) =
      .ok (.ok (dinner .percentage [⟨"ann", none, some 50⟩, ⟨"bob", none, some (10001 / 200)⟩])) ∧
    ¬∃ computed, computeShares noText "30" .percentage
      [⟨"ann", none, some 50⟩, ⟨"bob", none, some (10001 / 200)⟩] = .ok computed) ∧
    ∃ x, dinnerRoute (dinner .equal [⟨"bob", none, none⟩, ⟨"bob", none, none⟩]) = .ok x ∧
      ¬Usable sampleDeps.toRegistry (x.created "e" ["s", "t"] 0) x.amount := by
  constructor
  case left =>
    rw [← Except.toBool_eq_true]
    decide +kernel
  case right =>
    refine ⟨{
      id := "", createdAt := 0, groupId := "g", payerUserId := "ann", assetCode := "XLM", assetIssuer := none
      amount := 300000000, shares := [("bob", 150000000), ("bob", 150000000)]
    }, by decide +kernel, fun h => ?_⟩
    exact absurd h.distinct (by decide +kernel)

end Dinner

end Mergepay
