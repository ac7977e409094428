import Mergepay.Data.Except
import Mergepay.Money.Asset

namespace Mergepay.Money

-- The form that the configuration demands of the issuer, and that all public keys have.
def hasKeyForm (k : String) : Bool :=
  k.toList.length = 56 && k.toList.all fun c => c.isUpper || c.isDigit

namespace Registry

structure Regular (R : Registry) : Prop where
  issuerForm : hasKeyForm R.stableAssetIssuer = true
  keyForm    : ∀ k, R.isValidEd25519PublicKey k = true → hasKeyForm k = true

variable {R : Registry} {a : SupportedAsset} {v : ValidatedAsset}

def xlm : SupportedAsset :=
  { code := "XLM", type := .native, issuer := none, name := "Stellar Lumens", network := none }

def usdc (R : Registry) : SupportedAsset :=
  { code := "USDC", type := .issued, issuer := some R.stableAssetIssuer, name := "USD Coin"
    network := some .publicNet }

theorem hasKeyForm_ne_empty (h : hasKeyForm k = true) : k ≠ "" := by
  intro he
  subst he
  simp [hasKeyForm] at h

theorem present_eq_some (h : k ≠ "") : present k = some k := by
  simp [present, h]

theorem present_bind : (present k).bind present = present k := by
  by_cases h : k = "" <;> simp [present, h]

theorem Regular.present_issuer (hr : R.Regular) :
    present R.stableAssetIssuer = some R.stableAssetIssuer :=
  present_eq_some <| hasKeyForm_ne_empty hr.issuerForm

theorem Regular.supportedAssets (hr : R.Regular) : R.supportedAssets = [xlm, R.usdc] := by
  simp only [Registry.supportedAssets, hr.present_issuer]
  rfl

theorem toUpperCase_xlm : toUpperCase "XLM" = "XLM" :=
  rfl

theorem toUpperCase_usdc : toUpperCase "USDC" = "USDC" :=
  rfl

theorem Regular.mem_supportedAssets (hr : R.Regular) :
    a ∈ R.supportedAssets ↔ a = xlm ∨ a = R.usdc := by
  simp [hr.supportedAssets]

-- The entries of the registry differ in their codes.
theorem Regular.byCode (hr : R.Regular) :
    R.byCode c = some a ↔ a ∈ R.supportedAssets ∧ a.code = c := by
  simp only [Registry.byCode, hr.mem_supportedAssets]
  constructor
  case mp =>
    intro h
    have hp := List.find?_some h
    have hm := hr.mem_supportedAssets.mp <| List.mem_of_find?_eq_some h
    refine ⟨hm, ?_⟩
    cases hm with
    | inl h => subst h; simpa [xlm, toUpperCase_xlm] using of_decide_eq_true hp
    | inr h => subst h; simpa [usdc, toUpperCase_usdc] using of_decide_eq_true hp
  case mpr =>
    intro ⟨hm, hc⟩
    cases hm with
    | inl h => subst h; subst hc; simp [hr.supportedAssets, xlm, toUpperCase_xlm]
    | inr h => subst h; subst hc; simp [hr.supportedAssets, xlm, usdc, toUpperCase_xlm, toUpperCase_usdc]

theorem length_of_hasKeyForm (h : hasKeyForm k = true) : k.toList.length = 56 := by
  simp only [hasKeyForm, Bool.and_eq_true, decide_eq_true_eq] at h
  exact h.1

-- Keys have a fixed length, so that the grouping key of a supported asset determines its parts.
theorem balanceAssetKey_inj (hk : hasKeyForm k = true) (hi : hasKeyForm i = true) :
    balanceAssetKey c (some i) = u ++ "::" ++ k ↔ toUpperCase c = u ∧ i = k := by
  constructor
  case mp =>
    intro h
    have hl := congrArg String.toList h
    simp only [balanceAssetKey, Option.getD_some, String.toList_append] at hl
    have ⟨hc, hi⟩ := List.append_inj' hl <| (length_of_hasKeyForm hi).trans (length_of_hasKeyForm hk).symm
    exact ⟨String.toList_inj.mp <| List.append_cancel_right hc, String.toList_inj.mp hi⟩
  case mpr =>
    intro ⟨hc, hi⟩
    rw [balanceAssetKey, hc, hi, Option.getD_some]

theorem balanceAssetKey_xlm_ne (hk : hasKeyForm k = true) :
    balanceAssetKey "XLM" none ≠ u ++ "::" ++ k := by
  intro h
  have := congrArg (·.toList.length) h
  simp only [balanceAssetKey, toUpperCase_xlm, Option.getD_none, String.toList_append,
    List.length_append, length_of_hasKeyForm hk] at this
  simp at this

theorem Regular.byCodeIssuer (hr : R.Regular) (hk : R.isValidEd25519PublicKey k = true) :
    R.byCodeIssuer (u ++ "::" ++ k) = some a ↔ a = R.usdc ∧ u = "USDC" ∧ k = R.stableAssetIssuer := by
  have hx : balanceAssetKey xlm.code xlm.issuer ≠ u ++ "::" ++ k := balanceAssetKey_xlm_ne (hr.keyForm k hk)
  have hu : balanceAssetKey R.usdc.code R.usdc.issuer = u ++ "::" ++ k ↔
      "USDC" = u ∧ R.stableAssetIssuer = k := by
    rw [← toUpperCase_usdc]
    exact balanceAssetKey_inj (hr.keyForm k hk) hr.issuerForm
  simp only [Registry.byCodeIssuer, hr.supportedAssets, List.find?_cons, List.find?_nil, hx, hu]
  by_cases h : "USDC" = u ∧ R.stableAssetIssuer = k
  case pos => simp [h.1.symm, h.2.symm, eq_comm]
  case neg =>
    simp [h]
    intro _ h₁ h₂
    exact h ⟨h₁.symm, h₂.symm⟩

theorem accept_eq_ok :
    R.accept a = .ok (.ok v) ↔ R.assertNetwork a = .ok () ∧ a.toValidatedAsset = v := by
  rw [accept, Except.unit_bind_eq_ok, Except.pure_eq_ok, Except.ok.injEq]

-- All validated assets are entries of the registry.
theorem mem_of_validateByCode (h : R.validateByCode code issuer = .ok (.ok v)) :
    ∃ a ∈ R.supportedAssets, a.toValidatedAsset = v := by
  rw [Registry.validateByCode] at h
  split at h
  case h_1 => simp [invalidAsset, Except.pure_eq_ok] at h
  case h_2 entry he =>
    have hm : entry ∈ R.supportedAssets := List.mem_of_find?_eq_some he
    split at h
    case h_1 => simp [invalidAsset, Except.pure_eq_ok] at h
    case h_2 => simp [invalidAsset, Except.pure_eq_ok] at h
    case h_3 =>
      split at h
      case isTrue  => simp [invalidAsset, Except.pure_eq_ok] at h
      case isFalse => exact ⟨entry, hm, (accept_eq_ok.mp h).2⟩
    case h_4 => exact ⟨entry, hm, (accept_eq_ok.mp h).2⟩

theorem mem_of_validateAsset (h : R.validateAsset code issuer = .ok (.ok v)) :
    ∃ a ∈ R.supportedAssets, a.toValidatedAsset = v := by
  simp only [Registry.validateAsset] at h
  split at h
  case isTrue => simp [invalidAsset, Except.pure_eq_ok] at h
  case isFalse =>
    split at h
    case h_1 => exact mem_of_validateByCode h
    case h_2 =>
      split at h
      case isTrue => simp [invalidAsset, Except.pure_eq_ok] at h
      case isFalse =>
        split at h
        case h_1 exact he => exact ⟨exact, List.mem_of_find?_eq_some he, (accept_eq_ok.mp h).2⟩
        case h_2 => exact mem_of_validateByCode h

-- A pair of code and issuer that stands for an asset. The issuer may be missing, and is then that of
-- the configuration.
structure Denotes (R : Registry) (code : String) (issuer : Option String) (a : SupportedAsset) : Prop where
  supported : a ∈ R.supportedAssets
  code      : trimmed (toUpperCase code) = a.code
  issuer    : ∀ i ∈ issuer.bind present,
    R.isValidEd25519PublicKey (trimmed i) = true ∧ a.issuer = some (trimmed i)

theorem Regular.validateByCode (hr : R.Regular) :
    R.validateByCode code issuer = .ok (.ok v) ↔
    ∃ a ∈ R.supportedAssets, trimmed (toUpperCase code) = a.code ∧
      (∀ i ∈ issuer, a.issuer = some (trimmed i)) ∧ R.accept a = .ok (.ok v) := by
  rw [Registry.validateByCode]
  cases h : R.byCode (trimmed (toUpperCase code)) with
  | none =>
    simp only [invalidAsset, Except.pure_eq_ok, reduceCtorEq, false_iff]
    intro ⟨a, ha, hc, _⟩
    rw [hr.byCode.mpr ⟨ha, hc.symm⟩] at h
    contradiction
  | some entry =>
    have ⟨hm, hc⟩ := hr.byCode.mp h
    have unique {a} : a ∈ R.supportedAssets ∧ trimmed (toUpperCase code) = a.code ↔ a = entry := by
      rw [eq_comm (b := a.code), ← hr.byCode, h, Option.some_inj, eq_comm]
    simp only [← and_assoc, unique]
    simp only [and_assoc, exists_eq_left]
    cases hr.mem_supportedAssets.mp hm with
    | inl h =>
      subst h
      cases issuer <;> simp [xlm, invalidAsset, Except.pure_eq_ok]
    | inr h =>
      subst h
      cases issuer with
      | none   => simp [usdc]
      | some i =>
        by_cases hi : trimmed i = R.stableAssetIssuer
        case pos => simp [usdc, hi]
        case neg => simp [usdc, hi, invalidAsset, Except.pure_eq_ok, Ne.symm hi]

theorem Regular.code_ne_empty (hr : R.Regular) (h : a ∈ R.supportedAssets) : a.code ≠ "" := by
  cases hr.mem_supportedAssets.mp h with
  | inl h => subst h; simp [xlm]
  | inr h => subst h; simp [usdc]

-- Which inputs are accepted, and as which asset.
theorem Regular.validateAsset (hr : R.Regular) : R.validateAsset code issuer = .ok (.ok v) ↔
    ∃ a, R.Denotes code issuer a ∧ R.assertNetwork a = .ok () ∧ a.toValidatedAsset = v := by
  simp only [← accept_eq_ok]
  by_cases hu : trimmed (toUpperCase code) = ""
  case pos =>
    simp only [Registry.validateAsset, hu, if_true, invalidAsset, Except.pure_eq_ok, reduceCtorEq,
      false_iff]
    intro ⟨a, h, _⟩
    exact hr.code_ne_empty h.supported <| h.code.symm.trans hu
  case neg =>
    simp only [Registry.validateAsset, hu, if_false]
    cases hi : issuer.bind present with
    | none =>
      rw [hr.validateByCode]
      constructor
      case mp =>
        intro ⟨a, supported, code, _, h⟩
        exact ⟨a, { supported, code, issuer := by simp [hi] }, h⟩
      case mpr =>
        intro ⟨a, ha, h⟩
        exact ⟨a, ha.supported, ha.code, by simp, h⟩
    | some i =>
      by_cases hk : R.isValidEd25519PublicKey (trimmed i) = true
      case neg =>
        simp only [hk, not_false_eq_true, if_true, Except.pure_eq_ok, invalidAsset, reduceCtorEq,
          false_iff]
        intro ⟨a, ha, _⟩
        exact hk (ha.issuer i hi).1
      case pos =>
        simp only [hk, not_true, if_false]
        cases he : R.byCodeIssuer (trimmed (toUpperCase code) ++ "::" ++ trimmed i) with
        | none =>
          simp only [hr.validateByCode]
          constructor
          case mp =>
            intro ⟨a, supported, code, hs, h⟩
            refine ⟨a, { supported, code, issuer := fun j hj => ?_ }, h⟩
            cases Option.mem_unique hi hj
            exact ⟨hk, hs i rfl⟩
          case mpr =>
            intro ⟨a, ha, h⟩
            refine ⟨a, ha.supported, ha.code, fun j hj => ?_, h⟩
            cases hj
            exact (ha.issuer i hi).2
        | some exact =>
          have ⟨hu, hc, hs⟩ := (hr.byCodeIssuer hk).mp he
          subst hu
          constructor
          case mp =>
            intro h
            refine ⟨R.usdc, {
              supported := hr.mem_supportedAssets.mpr (.inr rfl)
              code      := hc
              issuer    := fun j hj => ?_
            }, h⟩
            cases Option.mem_unique hi hj
            exact ⟨hk, congrArg some hs.symm⟩
          case mpr =>
            intro ⟨a, ha, h⟩
            cases hr.mem_supportedAssets.mp ha.supported with
            | inl hx =>
              subst hx
              exact absurd (ha.issuer i hi).2 (by simp [xlm])
            | inr hx =>
              subst hx
              exact h

-- An input stands for at most one asset.
theorem Regular.denotes_unique (hr : R.Regular) (h₁ : R.Denotes code issuer a₁)
    (h₂ : R.Denotes code issuer a₂) : a₁ = a₂ := by
  have h₁ := hr.byCode.mpr ⟨h₁.supported, h₁.code.symm⟩
  have h₂ := hr.byCode.mpr ⟨h₂.supported, h₂.code.symm⟩
  exact Option.some_inj.mp <| h₁.symm.trans h₂

end Registry

-- A registry with an issuer.

def sampleIssuer : String :=
  "GAAAAAAAAAAAAAAAAAAAAAAAAAAAAAAAAAAAAAAAAAAAAAAAAAAAAAAA"

def sampleRegistry : Registry := {
  stableAssetIssuer       := sampleIssuer
  stellarNetwork          := .publicNet
  isValidEd25519PublicKey := (· = sampleIssuer)
}

theorem sampleRegistry_regular : sampleRegistry.Regular := by
  refine ⟨by decide, fun k hk => ?_⟩
  rw [of_decide_eq_true hk]
  decide

end Mergepay.Money
