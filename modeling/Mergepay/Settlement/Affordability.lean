import Mergepay.Expense.Split
import Mergepay.Money.Codec
import Mergepay.Stellar.Intent

namespace Mergepay

open Money Text

-- The last gate before a transaction is built

structure SettlementIntent where
  fromPublicKey   : String
  toPublicKey     : String
  assetCode       : String
  assetIssuer     : Option String := none
  amount          : String
  memoCode        : String
  validitySeconds : Int := 300
  deriving DecidableEq

section Schema

variable (R : Registry)

def publicKeyIssues (path : List String) (value : String) : List Issue :=
  (if value = "" then [⟨path, "A Stellar public key is required"⟩] else []) ++
  (if ¬R.isValidEd25519PublicKey value then [⟨path, "Invalid Stellar account ID. Expected a valid public key " ++
    "beginning with 'G' and matching Stellar's ed25519 rules."⟩] else [])

def assetCodeIssues (value : String) : List Issue :=
  if value = "" then [⟨["assetCode"], "assetCode is required"⟩]
  else if utf16Length value > 12 then [⟨["assetCode"], "assetCode must be 12 characters or fewer"⟩]
  else []

def stellarAmountIssues (value : String) : List Issue :=
  stringIssues ["amount"] 1 40 value ++
  (if ¬(validateAmount value).isOk then [⟨["amount"], "Invalid Stellar amount"⟩] else [])

def memoCodeIssues (value : String) : List Issue :=
  stringIssues ["memoCode"] 1 16 value ++
  (if value = "" ∨ ¬value.toList.all fun c => c.isUpper || c.isDigit then
    [⟨["memoCode"], "Settlement memo code must be upper-case alphanumeric"⟩] else [])

def intentValidityIssues (value : Int) : List Issue :=
  if value < 30 then [⟨["validitySeconds"], "Number must be greater than or equal to 30"⟩]
  else if value > 300 then [⟨["validitySeconds"], "Number must be less than or equal to 300"⟩]
  else []

def intentIssues (val : SettlementIntent) : List Issue :=
  publicKeyIssues R ["fromPublicKey"] val.fromPublicKey ++ publicKeyIssues R ["toPublicKey"] val.toPublicKey ++
  assetCodeIssues val.assetCode ++ stellarAmountIssues val.amount ++ memoCodeIssues val.memoCode ++
  intentValidityIssues val.validitySeconds

-- An accepted intent is returned as it is. In particular, its asset is not replaced by that of the
-- registry.
def settlementIntentSchema (val : SettlementIntent) : Except Failure (Except (List Issue) SettlementIntent) := do
  let issues := intentIssues R val ++ (← refineValidatedAsset R val.assetCode val.assetIssuer)
  if issues ≠ [] then
    return .error issues
  return .ok val

variable {R : Registry} {val : SettlementIntent}

theorem settlementIntentSchema_issues (h : settlementIntentSchema R val = .ok (.ok val')) : intentIssues R val = [] := by
  have ⟨issues, _, h⟩ := Except.bind_eq_ok.mp h
  by_cases hn : intentIssues R val ++ issues = []
  case pos => exact (List.append_eq_nil_iff.mp hn).1
  case neg => simp [hn, Except.pure_eq_ok] at h

theorem validateAmount_of_issues (h : intentIssues R val = []) : ∃ v, validateAmount val.amount = .ok v := by
  simp only [intentIssues, List.append_eq_nil_iff] at h
  have ha := h.1.1.2
  simp only [stellarAmountIssues, List.append_eq_nil_iff] at ha
  cases hv : validateAmount val.amount with
  | ok v    => exact ⟨v, rfl⟩
  | error e => simp [hv, Except.isOk, Except.toBool] at ha

end Schema

namespace Preflight

-- Reading amounts

variable {t : String} {whole frac : List Char} {n : Nat}

theorem padEnd_trimmed (n : Nat) (l : List Char) : padEnd n '0' (l.rdropWhile (· = '0')) = padEnd n '0' l := by
  have hz : l.rtakeWhile (· = '0') = List.replicate (l.rtakeWhile (· = '0')).length '0' :=
    List.eq_replicate_of_mem fun c hc => by simpa using List.mem_rtakeWhile_imp hc
  have hl : l = l.rdropWhile (· = '0') ++ List.replicate (l.rtakeWhile (· = '0')).length '0' :=
    hz ▸ (List.rdropWhile_append_rtakeWhile (p := (· = '0')) (l := l)).symm
  generalize l.rdropWhile (· = '0') = pre at hl ⊢
  generalize (l.rtakeWhile (· = '0')).length = k at hl
  subst hl
  have hm : min (n - pre.length) (k + n) = min (n - pre.length) n := by omega
  simp only [padEnd, List.append_assoc, List.replicate_append_replicate, List.take_append, List.take_replicate, hm]

theorem rdropWhile_append_dot (pre l : List Char) :
    (pre ++ '.' :: l).rdropWhile (· = '0') = pre ++ '.' :: l.rdropWhile (· = '0') := by
  induction l using List.reverseRecOn with
  | nil => rw [List.rdropWhile_concat_neg _ _ _ (by decide)]; rfl
  | append_singleton l c hi =>
    rw [← List.cons_append, ← List.append_assoc]
    by_cases hc : c = '0'
    case pos => rw [List.rdropWhile_concat_pos _ _ _ (by simpa), List.rdropWhile_concat_pos _ _ _ (by simpa), hi]
    case neg =>
      rw [List.rdropWhile_concat_neg _ _ _ (by simpa), List.rdropWhile_concat_neg _ _ _ (by simpa), List.append_assoc]
      rfl

-- The notation that is parsed has the same digits, but no trailing zeros.
def withoutZeros (l : List Char) : List Char :=
  let trimmed := if '.' ∈ l then l.rdropWhile (· = '0') else l
  if '.' ∈ l ∧ trimmed.getLast? = some '.' then trimmed.dropLast else trimmed

theorem withoutZeros_joined (hw : ∀ c ∈ whole, c.isDigit = true) (hf : ∀ c ∈ frac, c.isDigit = true) :
    withoutZeros (Decimal.joined whole frac) = Decimal.joined whole (frac.rdropWhile (· = '0')) := by
  have dot : '.' ∉ whole := Stellar.notMem_dot hw
  by_cases hz : frac = []
  case pos => simp [withoutZeros, Decimal.joined, hz, dot]
  case neg =>
    simp only [withoutZeros, Decimal.joined, hz, if_false, List.mem_append, List.mem_cons, true_or, or_true, if_true,
      true_and, rdropWhile_append_dot]
    by_cases hr : frac.rdropWhile (· = '0') = []
    case pos => simp [hr]
    case neg =>
      cases hl : (frac.rdropWhile (· = '0')).getLast? with
      | none   => exact absurd (List.getLast?_eq_none_iff.mp hl) hr
      | some c =>
        have hc : c ≠ '.' := fun h => Stellar.notMem_dot hf <|
          (List.rdropWhile_prefix _ _).subset <| List.mem_of_getLast? (h ▸ hl)
        simp [hr, List.getLast?_cons, hl, hc]

-- Trailing zeros do not matter.
theorem parseHorizonBalance_eq (h : IsAmount t) (hm : Decimal.value 7 t.toList ≤ maxStroops) :
    parseHorizonBalance t = Decimal.value 7 t.toList := by
  obtain ⟨whole, frac, ht, hn, hl, hw, hf⟩ := h
  have hl' : (frac.rdropWhile (· = '0')).length ≤ 7 := (List.rdropWhile_prefix _ _).length_le.trans hl
  have hf' : ∀ c ∈ frac.rdropWhile (· = '0'), c.isDigit = true := fun c hc =>
    hf c ((List.rdropWhile_prefix _ _).subset hc)
  have hv : Decimal.value 7 (Decimal.joined whole (frac.rdropWhile (· = '0'))) = Decimal.value 7 t.toList := by
    simp only [ht, Decimal.value, Decimal.split_joined hw, padEnd_trimmed]
  have hs : toStroops (.ofList (withoutZeros t.toList)) = .ok (Decimal.value 7 t.toList : Int) := by
    rw [ht, withoutZeros_joined hw hf, ← ht, ← hv]
    refine toStroops_eq_ok.mpr <| .inr ⟨⟨whole, _, String.toList_ofList, hn, hl', hw, hf'⟩, ?_, ?_⟩
    · rw [String.toList_ofList, hv]
      exact hm
    · rw [String.toList_ofList]
  rw [withoutZeros] at hs
  rw [parseHorizonBalance, hs]

theorem parseHorizonBalance_validated (h : validateAmount t = .ok v) : parseHorizonBalance t = v.stroops := by
  have ⟨ha, _, hm, hv⟩ := validateDecimal_eq_ok_iff.mp h
  rw [parseHorizonBalance_eq ha hm, hv]

-- All amounts of the network are written with seven decimals.
theorem isAmount_amountText (n : Nat) : IsAmount (Stellar.amountText n) ∧
    Decimal.value 7 (Stellar.amountText n).toList = n := by
  have hl : (Stellar.fractionDigits n).length = 7 := Stellar.length_fractionDigits
  have hn : Stellar.fractionDigits n ≠ [] := fun h => by simp [h] at hl
  have ht : (Stellar.amountText n).toList =
      Decimal.joined (Stellar.wholeDigits n) (Stellar.fractionDigits n) := by
    rw [Decimal.joined, if_neg hn, Stellar.amountText, String.toList_ofList, sign, if_neg (by omega)]
    rfl
  have hp : padEnd 7 '0' (Stellar.fractionDigits n) = Stellar.fractionDigits n := by
    rw [padEnd, List.take_append_of_le_length hl.ge, List.take_of_length_le hl.le]
  refine ⟨⟨_, _, ht, Nat.toDigits_ne_nil, hl.le, Stellar.isDigit_wholeDigits, Stellar.isDigit_fractionDigits⟩, ?_⟩
  rw [ht, Decimal.value, Decimal.split_joined Stellar.isDigit_wholeDigits, Decimal.digits_dropZeros, hp]
  exact Stellar.value_digits n

theorem parseHorizonBalance_amountText (h : n ≤ maxStroops) : parseHorizonBalance (Stellar.amountText n) = n := by
  have ⟨ha, hv⟩ := isAmount_amountText n
  have hm : Decimal.value 7 (Stellar.amountText n).toList ≤ maxStroops := by rwa [hv]
  rw [parseHorizonBalance_eq ha hm, hv]

-- Accounts, with their balances as numbers

structure Holding where
  assetCode   : String
  assetIssuer : Option String
  stroops     : Nat
  inRange     : stroops ≤ maxStroops

structure Account where
  exist    : Bool
  holdings : List Holding
  signers  : Nat

-- What is reported about an account.
def Account.snapshot (a : Account) : AccountSnapshot where
  exist    := a.exist
  balances := a.holdings.map fun h => (h.assetCode, h.assetIssuer, Stellar.amountText h.stroops)
  signers  := a.signers

def Account.balance (a : Account) (asset : Stellar.Asset) : Option Nat :=
  (a.holdings.find? fun h => h.assetCode = asset.code ∧ h.assetIssuer = asset.issuer).map (·.stroops)

def Account.trustlines (a : Account) : Nat :=
  a.holdings.countP (·.assetIssuer.isSome)

-- What has to remain of the native asset.
def Account.reserve (a : Account) : Int :=
  (2 + a.trustlines + (a.signers - 1 : Nat)) * baseReserveStroops

def Account.available (a : Account) : Int :=
  (a.balance .native).getD 0 - a.reserve

structure Account.Affords (a : Account) (asset : Stellar.Asset) (amount : Int) : Prop where
  funded : a.exist = true
  native : asset.issuer = none → amount + settlementFeeStroops ≤ a.available
  issued : asset.issuer ≠ none → (∃ n ∈ a.balance asset, amount ≤ n) ∧ settlementFeeStroops ≤ a.available

-- Nothing but balances differs, and none of them is lower.
structure Account.Raised (a a' : Account) : Prop where
  exist    : a'.exist = a.exist
  signers  : a'.signers = a.signers
  holdings : List.Forall₂ (fun h h' => h'.assetCode = h.assetCode ∧ h'.assetIssuer = h.assetIssuer ∧
    h.stroops ≤ h'.stroops) a.holdings a'.holdings

variable {a a' : Account} {asset : Stellar.Asset} {code : String} {issuer : Option String} {amount : String}

theorem balanceOf_snapshot (a : Account) (code : String) (issuer : Option String) :
    balanceOf a.snapshot code issuer = (a.balance ⟨code, issuer⟩).map (Nat.cast : Nat → Int) := by
  rw [balanceOf, Account.snapshot, Account.balance, List.find?_map, Option.map_map, Option.map_map]
  refine Option.map_congr fun h _ => ?_
  rw [Function.comp_apply, Function.comp_apply]
  exact parseHorizonBalance_amountText h.inRange

theorem minimumBalanceStroops_snapshot (a : Account) : minimumBalanceStroops a.snapshot = a.reserve := by
  rw [minimumBalanceStroops, Account.snapshot, List.countP_map]
  rfl

theorem spendableXlmStroops_snapshot (a : Account) : spendableXlmStroops a.snapshot = max 0 a.available := by
  have hb : (balanceOf a.snapshot "XLM" none).getD 0 = ((a.balance .native).getD 0 : Nat) := by
    rw [balanceOf_snapshot, ← Stellar.Asset.native]
    cases a.balance .native <;> rfl
  rw [spendableXlmStroops, hb, minimumBalanceStroops_snapshot, Account.available]

-- The asset that is looked for, which goes by the spelling of the request.
def lookedFor (code : String) (issuer : Option String) : Stellar.Asset :=
  if issuer = none then .native else ⟨code, issuer⟩

theorem evaluatePreflight_native (hn : 0 < parseHorizonBalance amount) :
    evaluatePreflight a.snapshot code none amount = .ok () ↔
      a.exist = true ∧ parseHorizonBalance amount + settlementFeeStroops ≤ a.available := by
  have hf : settlementFeeStroops = 200 := rfl
  have he : a.snapshot.exist = a.exist := rfl
  simp only [evaluatePreflight, spendableXlmStroops_snapshot, he, not_le.mpr hn, if_false]
  cases a.exist with
  | false => simp
  | true  =>
    by_cases hs : max 0 a.available < parseHorizonBalance amount + settlementFeeStroops
    case pos => simp [hs]; omega
    case neg => simp [hs]; omega

theorem evaluatePreflight_issued {i : String} (hn : 0 < parseHorizonBalance amount) :
    evaluatePreflight a.snapshot code (some i) amount = .ok () ↔
      a.exist = true ∧ (∃ n ∈ a.balance ⟨code, some i⟩, parseHorizonBalance amount ≤ n) ∧
      settlementFeeStroops ≤ a.available := by
  have hf : settlementFeeStroops = 200 := rfl
  have he : a.snapshot.exist = a.exist := rfl
  simp only [evaluatePreflight, spendableXlmStroops_snapshot, balanceOf_snapshot, he, not_le.mpr hn, if_false]
  cases a.exist with
  | false => simp
  | true  =>
    cases a.balance ⟨code, some i⟩ with
    | none   => simp
    | some n =>
      by_cases hb : (n : Int) < parseHorizonBalance amount
      case pos => simp [hb]
      case neg =>
        by_cases hs : max 0 a.available < settlementFeeStroops
        case pos => simp [hb, hs]; omega
        case neg => simp [hb, hs]; omega

theorem evaluatePreflight_eq_ok (hn : 0 < parseHorizonBalance amount) :
    evaluatePreflight a.snapshot code issuer amount = .ok () ↔
      a.Affords (lookedFor code issuer) (parseHorizonBalance amount) := by
  cases issuer with
  | none =>
    rw [evaluatePreflight_native hn]
    constructor
    case mp  => exact fun ⟨funded, h⟩ => { funded, native := fun _ => h, issued := fun h => absurd rfl h }
    case mpr => exact fun h => ⟨h.funded, h.native rfl⟩
  | some i =>
    rw [evaluatePreflight_issued hn]
    constructor
    case mp  => exact fun ⟨funded, h⟩ => { funded, native := nofun, issued := fun _ => h }
    case mpr => exact fun h => ⟨h.funded, h.issued nofun⟩

-- Raised balances

theorem Account.Raised.balance (h : a.Raised a') (hn : n ∈ a.balance asset) : ∃ n' ∈ a'.balance asset, n ≤ n' := by
  simp only [Account.balance] at hn ⊢
  have hh := h.holdings
  generalize a.holdings = l at hh hn
  generalize a'.holdings = l' at hh
  induction hh with
  | nil => contradiction
  | @cons x y l l' hd _ hi =>
    by_cases hx : x.assetCode = asset.code ∧ x.assetIssuer = asset.issuer
    case pos =>
      have hy : y.assetCode = asset.code ∧ y.assetIssuer = asset.issuer := ⟨hd.1.trans hx.1, hd.2.1.trans hx.2⟩
      simp [hx] at hn
      simp [hy, ← hn, hd.2.2]
    case neg =>
      have hy : ¬(y.assetCode = asset.code ∧ y.assetIssuer = asset.issuer) := by rwa [hd.1, hd.2.1]
      simp only [List.find?_cons, hx, hy, decide_false] at hn ⊢
      exact hi hn

theorem Account.Raised.reserve (h : a.Raised a') : a'.reserve = a.reserve := by
  have ht : a'.trustlines = a.trustlines := by
    have hh := h.holdings
    simp only [Account.trustlines]
    generalize a.holdings = l at hh
    generalize a'.holdings = l' at hh
    induction hh with
    | nil            => rfl
    | cons hd _ hi => rw [List.countP_cons, List.countP_cons, hi, hd.2.1]
  rw [Account.reserve, Account.reserve, ht, h.signers]

theorem Account.Raised.available (h : a.Raised a') : a.available ≤ a'.available := by
  rw [Account.available, Account.available, h.reserve]
  cases hb : a.balance .native with
  | none   => simp
  | some n =>
    have ⟨n', hn, hle⟩ := h.balance hb
    rw [Option.mem_def.mp hn]
    simp only [Option.getD_some]
    omega

theorem Account.Raised.affords {amount : Int} (h : a.Raised a') (ha : a.Affords asset amount) :
    a'.Affords asset amount where
  funded := h.exist.trans ha.funded
  native := fun hn => (ha.native hn).trans h.available
  issued := by
    intro hn
    have ⟨⟨n, hb, hle⟩, hf⟩ := ha.issued hn
    have ⟨n', hb', hle'⟩ := h.balance hb
    exact ⟨⟨n', hb', by omega⟩, hf.trans h.available⟩

end Preflight
end Mergepay
