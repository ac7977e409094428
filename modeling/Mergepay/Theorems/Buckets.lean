import Mergepay.Balance.Totality
import Mergepay.Expense.Calculation

namespace Mergepay

open Money Text

-- The asset columns of a row.
abbrev AssetColumns := String × Option String

def Balance.AssetShareRow.columns (s : Balance.AssetShareRow) : AssetColumns :=
  (s.assetCode, s.assetIssuer)

def Balance.AssetSettlementRow.columns (st : Balance.AssetSettlementRow) : AssetColumns :=
  (st.assetCode, st.assetIssuer)

namespace AssetColumns

-- The rows of a bucket are those with the same key.
def SameBucket (p q : AssetColumns) : Prop :=
  balanceAssetKey p.1 p.2 = balanceAssetKey q.1 q.2

def SameAsset (R : Registry) (p q : AssetColumns) : Prop :=
  R.validateAsset p.1 p.2 = R.validateAsset q.1 q.2

def Accepted (R : Registry) (p : AssetColumns) : Prop :=
  ∃ v, R.validateAsset p.1 p.2 = .ok (.ok v)

-- The code is the same up to case, and the issuer is the same text. A missing issuer is an empty text.
def SameText (p q : AssetColumns) : Prop :=
  toUpperCase p.1 = toUpperCase q.1 ∧ p.2.getD "" = q.2.getD ""

-- Rows with the same code, up to case and white space, are spelled in the same way.
def Uniform (l : List AssetColumns) : Prop :=
  ∀ p ∈ l, ∀ q ∈ l, trimmed (toUpperCase p.1) = trimmed (toUpperCase q.1) → SameText p q

-- An asset is spelled as in the registry, up to the case of its code.
def Canonical (v : ValidatedAsset) (p : AssetColumns) : Prop :=
  toUpperCase p.1 = v.code ∧ p.2.getD "" = v.issuer.getD ""

variable {R : Registry} {p q : AssetColumns}

theorem Accepted.denotes (hr : R.Regular) (h : Accepted R p) :
    ∃ a, R.Denotes p.1 p.2 a ∧ R.validateAsset p.1 p.2 = .ok (.ok a.toValidatedAsset) := by
  have ⟨v, hv⟩ := h
  have ⟨a, hd, _, ha⟩ := hr.validateAsset.mp hv
  exact ⟨a, hd, ha ▸ hv⟩

-- Only white space can surround the code of an asset.
theorem Accepted.notMem_colon (hr : R.Regular) (h : Accepted R p) : ':' ∉ (toUpperCase p.1).toList := by
  have ⟨a, hd, _⟩ := h.denotes hr
  intro hc
  have hm : ':' ∈ (trimmed (toUpperCase p.1)).toList := by
    rw [trimmed, String.toList_ofList]
    exact (mem_trim hc).resolve_left (by decide)
  rw [hd.code] at hm
  cases hr.mem_supportedAssets.mp hd.supported with
  | inl h => simp [h, Registry.xlm] at hm
  | inr h => simp [h, Registry.usdc] at hm

-- The code ends at the first colon of a key.
theorem sameBucket_iff (hp : ':' ∉ (toUpperCase p.1).toList) (hq : ':' ∉ (toUpperCase q.1).toList) :
    SameBucket p q ↔ SameText p q := by
  have code {c : String} {i : Option String} (h : ':' ∉ (toUpperCase c).toList) :
      (balanceAssetKey c i).toList.takeWhile (· ≠ ':') = (toUpperCase c).toList := by
    have hn : ∀ a ∈ (toUpperCase c).toList, decide (a ≠ ':') = true :=
      fun a ha => decide_eq_true fun he => h (he ▸ ha)
    rw [balanceAssetKey, String.toList_append, String.toList_append, List.append_assoc,
      List.takeWhile_append_of_pos hn]
    simp
  constructor
  case mp =>
    intro h
    have hl := congrArg String.toList h
    have hc : toUpperCase p.1 = toUpperCase q.1 :=
      String.toList_inj.mp <| (code hp).symm.trans <| (congrArg _ hl).trans (code hq)
    rw [SameBucket, balanceAssetKey, balanceAssetKey, hc] at h
    exact ⟨hc, String.append_right_inj _ |>.mp h⟩
  case mpr =>
    rintro ⟨hc, hi⟩
    rw [SameBucket, balanceAssetKey, balanceAssetKey, hc, hi]

theorem Accepted.validateAsset_iff (hr : R.Regular) (h : Accepted R p) (hb : b ∈ R.supportedAssets) :
    R.validateAsset p.1 p.2 = .ok (.ok b.toValidatedAsset) ↔ trimmed (toUpperCase p.1) = b.code := by
  have ⟨a, hd, ha⟩ := h.denotes hr
  rw [ha, hd.code, Except.ok.injEq, Except.ok.injEq]
  constructor
  case mp  => exact fun h => congrArg (·.code) h
  case mpr =>
    intro h
    have hab : a = b := Option.some.inj <|
      (hr.byCode.mpr ⟨hd.supported, h⟩).symm.trans (hr.byCode.mpr ⟨hb, rfl⟩)
    rw [hab]

theorem sameAsset_iff (hr : R.Regular) (hp : Accepted R p) (hq : Accepted R q) :
    SameAsset R p q ↔ trimmed (toUpperCase p.1) = trimmed (toUpperCase q.1) := by
  have ⟨b, hb, hvb⟩ := hq.denotes hr
  rw [SameAsset, hvb, hp.validateAsset_iff hr hb.supported, hb.code]

-- The assets of the registry are spelled in upper case.
theorem sameBucket_canonical (hr : R.Regular) (ha : a ∈ R.supportedAssets) (hp : Accepted R p) :
    balanceAssetKey p.1 p.2 = balanceAssetKey a.code a.issuer ↔ Canonical a.toValidatedAsset p := by
  have hu : toUpperCase a.code = a.code ∧ ':' ∉ a.code.toList := by
    cases hr.mem_supportedAssets.mp ha with
    | inl h => subst h; exact ⟨Registry.toUpperCase_xlm, by simp [Registry.xlm]⟩
    | inr h => subst h; exact ⟨Registry.toUpperCase_usdc, by simp [Registry.usdc]⟩
  have hq : ':' ∉ (toUpperCase a.code).toList := by
    rw [hu.1]
    exact hu.2
  have hb : SameBucket p (a.code, a.issuer) ↔ SameText p (a.code, a.issuer) :=
    sameBucket_iff (hp.notMem_colon hr) hq
  rw [SameText, hu.1] at hb
  exact hb

end AssetColumns

open AssetColumns

variable {R : Registry} {shares : List Balance.AssetShareRow}
  {settlements : List Balance.AssetSettlementRow}

def assetColumns (shares : List Balance.AssetShareRow) (settlements : List Balance.AssetSettlementRow) :
    List AssetColumns :=
  shares.map (·.columns) ++ settlements.map (·.columns)

-- Some row that counts spells an asset as the registry does.
def CountedAs (v : ValidatedAsset) (shares : List Balance.AssetShareRow)
    (settlements : List Balance.AssetSettlementRow) : Prop :=
  (∃ s ∈ shares, s.toShareRow.Counts ∧ Canonical v s.columns) ∨
  ∃ st ∈ settlements, st.toSettlementRow.Counts ∧ Canonical v st.columns

theorem getAssetConfig_eq_ok :
    R.getAssetConfig code issuer = .ok v ↔ R.validateAsset code issuer = .ok (.ok v) := by
  rw [Registry.getAssetConfig, Except.bind_eq_ok]
  constructor
  case mp =>
    intro ⟨x, hx, h⟩
    cases x with
    | ok a    => rw [hx, Except.pure_eq_ok.mp h]
    | error e => simp [throw, throwThe, MonadExceptOf.throw] at h
  case mpr => exact fun h => ⟨_, h, rfl⟩

theorem groupPrimaryAsset_mem (h : groupPrimaryAsset R latest = .ok primary) :
    ∃ a ∈ R.supportedAssets, a.toValidatedAsset = primary :=
  Registry.mem_of_validateAsset (getAssetConfig_eq_ok.mp h)

theorem exists_filter_map {l : List α} {f : α → β} {q Q : α → Prop} [DecidablePred q] {P : β → Prop}
    (h : ∀ a ∈ l, q a ↔ Q a) : (∃ b ∈ (l.filter (q ·)).map f, P b) ↔ ∃ a ∈ l, P (f a) ∧ Q a := by
  simp only [List.mem_map, List.mem_filter, decide_eq_true_eq]
  constructor
  case mp =>
    intro ⟨_, ⟨a, ⟨ha, hq⟩, he⟩, hp⟩
    subst he
    exact ⟨a, ha, hp, (h a ha).mp hq⟩
  case mpr => exact fun ⟨a, ha, hp, hq⟩ => ⟨_, ⟨a, ⟨ha, (h a ha).mpr hq⟩, rfl⟩, hp⟩

theorem isSome_primarySheet (hr : R.Regular) (hs : ∀ p ∈ assetColumns shares settlements, Accepted R p)
    (h : Balance.computeNetBalancesByAsset R shares settlements = .ok sheets)
    (ha : a ∈ R.supportedAssets) :
    (primarySheet sheets a.toValidatedAsset).isSome = true ↔
    CountedAs a.toValidatedAsset shares settlements := by
  rw [assetColumns, List.forall_mem_append, List.forall_mem_map, List.forall_mem_map] at hs
  have hsh s (hm : s ∈ shares) :
      balanceAssetKey s.assetCode s.assetIssuer = balanceAssetKey a.code a.issuer ↔
      Canonical a.toValidatedAsset s.columns :=
    sameBucket_canonical (p := s.columns) hr ha (hs.1 s hm)
  have hst st (hm : st ∈ settlements) :
      balanceAssetKey st.assetCode st.assetIssuer = balanceAssetKey a.code a.issuer ↔
      Canonical a.toValidatedAsset st.columns :=
    sameBucket_canonical (p := st.columns) hr ha (hs.2 st hm)
  rw [primarySheet, Balance.isSome_find_iff h, CountedAs, Balance.sharesIn, Balance.settlementsIn]
  rw [exists_filter_map hsh, exists_filter_map hst]

theorem sameBucket_iff_sameAsset (hr : R.Regular) {l : List AssetColumns} (hs : ∀ p ∈ l, Accepted R p) :
    (∀ p ∈ l, ∀ q ∈ l, SameBucket p q ↔ SameAsset R p q) ↔ Uniform l := by
  refine forall₂_congr fun p hp => forall₂_congr fun q hq => ?_
  rw [sameBucket_iff ((hs p hp).notMem_colon hr) ((hs q hq).notMem_colon hr),
    sameAsset_iff hr (hs p hp) (hs q hq)]
  constructor
  case mp => exact (·.mpr)
  case mpr =>
    intro h
    refine ⟨fun ht => ?_, h⟩
    rw [ht.1]

-- The engine has one bucket for each asset, and the primary balances are found in theirs, exactly if
-- all rows of an asset are spelled in the same way, and some of the primary asset as in the registry.
theorem one_bucket_per_asset (hr : R.Regular)
    (hs : ∀ p ∈ assetColumns shares settlements, Accepted R p)
    (h : Balance.computeNetBalancesByAsset R shares settlements = .ok sheets)
    (hp : groupPrimaryAsset R latest = .ok primary) :
    ((∀ p ∈ assetColumns shares settlements, ∀ q ∈ assetColumns shares settlements,
        SameBucket p q ↔ SameAsset R p q) ∧
      ((∃ s ∈ shares, s.toShareRow.Counts ∧
          R.validateAsset s.assetCode s.assetIssuer = .ok (.ok primary)) →
        (primarySheet sheets primary).isSome = true)) ↔
    Uniform (assetColumns shares settlements) ∧
      ((∃ s ∈ shares, s.toShareRow.Counts ∧ trimmed (toUpperCase s.assetCode) = primary.code) →
        CountedAs primary shares settlements) := by
  obtain ⟨a, ha, rfl⟩ := groupPrimaryAsset_mem hp
  rw [sameBucket_iff_sameAsset hr hs, isSome_primarySheet hr hs h ha]
  refine and_congr_right fun _ => imp_congr_left <| exists_congr fun s => and_congr_right fun hm =>
    and_congr_right fun _ => ?_
  have hs : Accepted R s.columns := hs _ <| List.mem_append_left _ (List.mem_map_of_mem hm)
  exact Accepted.validateAsset_iff (p := s.columns) hr hs ha

-- Bob owes Ann ten dollars, and pays them back.
section Dollars

def dollarDebt (assetIssuer : Option String) : Balance.AssetShareRow :=
  ⟨⟨"ann", "bob", "10", false⟩, "USDC", assetIssuer⟩

def dollarPayment (assetIssuer : Option String) : Balance.AssetSettlementRow :=
  ⟨⟨"bob", "ann", "10", true⟩, "USDC", assetIssuer⟩

theorem mem_dollars (h : p ∈ assetColumns [dollarDebt i] [dollarPayment i]) : p = ("USDC", i) := by
  have hc : assetColumns [dollarDebt i] [dollarPayment i] = [("USDC", i), ("USDC", i)] := rfl
  simpa [hc] using h

theorem one_bucket_per_asset_sample : ∃ sheets,
    Balance.computeNetBalancesByAsset sampleRegistry [dollarDebt (some sampleIssuer)]
      [dollarPayment (some sampleIssuer)] = .ok sheets ∧
    (∀ p ∈ assetColumns [dollarDebt (some sampleIssuer)] [dollarPayment (some sampleIssuer)],
      ∀ q ∈ assetColumns [dollarDebt (some sampleIssuer)] [dollarPayment (some sampleIssuer)],
        SameBucket p q ↔ SameAsset sampleRegistry p q) ∧
    (primarySheet sheets sampleRegistry.usdc.toValidatedAsset).isSome = true := by
  have ⟨sheets, h⟩ := Except.toBool_eq_true.mp (by decide +kernel : (Balance.computeNetBalancesByAsset
    sampleRegistry [dollarDebt (some sampleIssuer)] [dollarPayment (some sampleIssuer)]).toBool = true)
  have hv : sampleRegistry.validateAsset "USDC" (some sampleIssuer) =
      .ok (.ok sampleRegistry.usdc.toValidatedAsset) := by decide +kernel
  have ha : ∀ p ∈ assetColumns [dollarDebt (some sampleIssuer)] [dollarPayment (some sampleIssuer)],
      Accepted sampleRegistry p := by
    intro p hp
    rw [mem_dollars hp]
    exact ⟨_, hv⟩
  have hp : groupPrimaryAsset sampleRegistry (some ("USDC", some sampleIssuer)) =
      .ok sampleRegistry.usdc.toValidatedAsset := by decide +kernel
  have hu : Uniform (assetColumns [dollarDebt (some sampleIssuer)] [dollarPayment (some sampleIssuer)]) := by
    intro p hp q hq _
    rw [mem_dollars hp, mem_dollars hq]
    exact ⟨rfl, rfl⟩
  have hd : dollarDebt (some sampleIssuer) ∈ [dollarDebt (some sampleIssuer)] := List.mem_singleton_self _
  have hc : (dollarDebt (some sampleIssuer)).toShareRow.Counts := ⟨rfl, by decide⟩
  have ⟨hb, hf⟩ := (one_bucket_per_asset sampleRegistry_regular ha h hp).mpr
    ⟨hu, fun _ => .inl ⟨_, hd, hc, by decide +kernel, rfl⟩⟩
  exact ⟨sheets, h, hb, hf ⟨_, hd, hc, hv⟩⟩

-- Without an issuer, dollars are put in another bucket, where their payment and the lookup of the
-- primary asset miss them.
theorem dollars_in_two_buckets :
    (sampleRegistry.validateAssetSpec "USDC" none).toBool = true ∧
    (sampleRegistry.validateAssetSpec "USDC" (some sampleIssuer)).toBool = true ∧
    SameAsset sampleRegistry ("USDC", none) ("USDC", some sampleIssuer) ∧
    ¬SameBucket ("USDC", none) ("USDC", some sampleIssuer) ∧
    Balance.computeNetBalancesByAsset sampleRegistry [dollarDebt none] [dollarPayment (some sampleIssuer)] =
      .ok [⟨"USDC", none, [⟨"ann", "10"⟩, ⟨"bob", "-10"⟩]⟩,
        ⟨"USDC", some sampleIssuer, [⟨"bob", "10"⟩, ⟨"ann", "-10"⟩]⟩] ∧
    loadGroupBalances sampleRegistry [dollarDebt none] [] (some ("USDC", none)) = .ok [] := by
  refine ⟨by decide +kernel, by decide +kernel, ?_, ?_, by decide +kernel, by decide +kernel⟩
  case refine_1 =>
    rw [SameAsset]
    decide +kernel
  case refine_2 =>
    rw [SameBucket]
    decide +kernel

end Dollars

end Mergepay
