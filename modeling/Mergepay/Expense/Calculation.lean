import Mergepay.Balance.Engine
import Mergepay.Money.Canonical

namespace Mergepay

open Money Text

inductive ExpenseCalculationErrorCode
  | invalidAmount
  | invalidRate
  | invalidPercent
  | invalidParticipants
  | duplicateParticipant
  | invalidSplit
  | inconsistentExpense
  | missingRate
  | unsupportedAsset
  | amountOverflow
  deriving DecidableEq

-- An error of the calculation, or one that passes through it.
inductive CalculationFailure
  | expense (code : ExpenseCalculationErrorCode) (message : String)
  | other (e : Failure)
  deriving DecidableEq

structure AssetRef where
  assetCode   : String
  assetIssuer : Option String
  deriving DecidableEq

-- Decimal columns are given by their text.
structure ExpenseShareRecord where
  userId      : String
  shareAmount : String
  deriving DecidableEq

structure ExpenseRecord where
  id          : Option String := none
  payerUserId : String
  amount      : Option String := none
  assetCode   : String
  assetIssuer : Option String := none
  shares      : List ExpenseShareRecord
  deriving DecidableEq

structure ParticipantAmounts where
  userId : String
  paid   : String
  owed   : String
  net    : String
  deriving DecidableEq

structure AssetExpenseBreakdown where
  assetCode    : String
  assetIssuer  : Option String
  total        : String
  expenseCount : Nat
  participants : List ParticipantAmounts
  deriving DecidableEq

-- The users seen so far are those in `order`.
structure AssetAccumulator where
  asset        : AssetRef
  paid         : OrderedMap String Int := []
  owed         : OrderedMap String Int := []
  order        : List String := []
  expenseCount : Nat := 0

namespace Breakdown

abbrev Result := Except CalculationFailure

def fail (code : ExpenseCalculationErrorCode) (message : String) : Result α :=
  .error (.expense code message)

def liftFailure (x : Except Failure α) : Result α :=
  x.mapError .other

def parseAmount (raw field : String) (allowZero : Bool) : Result Int :=
  match toStroops raw with
  | .error e    => fail .invalidAmount <| field ++ ": " ++ e.message
  | .ok stroops =>
    if stroops < 0 then
      fail .invalidAmount <| field ++ " must not be negative"
    else if ¬allowZero ∧ stroops = 0 then
      fail .invalidAmount <| field ++ " must be greater than zero"
    else
      .ok stroops

def assertWithinStroopRange (amount : Int) (code : ExpenseCalculationErrorCode) (message : String) :
    Result Unit :=
  if amount.natAbs > maxStroops then fail code message else .ok ()

-- The name of an expense in messages.
def ExpenseRecord.name (e : ExpenseRecord) : String :=
  match e.id.bind present with
  | some id => "Expense \"" ++ id ++ "\""
  | none    => "Expense"

def assertNoDuplicateShares (name : String) (shares : List ExpenseShareRecord) : Result Unit :=
  go [] shares
where
  go (seen : List String) : List ExpenseShareRecord → Result Unit
    | []          => .ok ()
    | share :: tl =>
      if trimmed share.userId = "" then
        fail .invalidParticipants "Every expense share requires a non-empty userId"
      else if share.userId ∈ seen then
        fail .duplicateParticipant <| name ++ " has more than one share for user \"" ++
          share.userId ++ "\""
      else
        go (share.userId :: seen) tl

section

variable (R : Registry)

def normalizeAsset (assetCode : String) (assetIssuer : Option String) : Result AssetRef :=
  if trimmed assetCode = "" then
    fail .unsupportedAsset "Asset code is required"
  else match R.validateAsset assetCode assetIssuer with
    | .ok (.ok v)    => .ok { assetCode := v.code, assetIssuer := v.issuer }
    | .ok (.error e) => fail .unsupportedAsset e.message
    | .error e       => fail .unsupportedAsset e.message

end

def touch (accumulator : AssetAccumulator) (userId : String) : AssetAccumulator :=
  if userId ∈ accumulator.order then accumulator else
    { accumulator with order := accumulator.order ++ [userId] }

def addAmount (map : OrderedMap String Int) (userId : String) (amount : Int) : OrderedMap String Int :=
  map.set userId ((map.get? userId).getD 0 + amount)

def addShare (accumulator : AssetAccumulator) (share : String × Int) : AssetAccumulator :=
  let accumulator := touch accumulator share.1
  { accumulator with owed := addAmount accumulator.owed share.1 share.2 }

abbrev Accumulators := OrderedMap String AssetAccumulator

-- A declared amount must be that of the shares.
def checkTotal (e : ExpenseRecord) (shareTotal : Int) : Result Unit := do
  match e.amount with
  | none        => return
  | some amount =>
    let field := "amount for expense" ++ (e.id.bind present).elim "" fun id => " \"" ++ id ++ "\""
    let declared ← parseAmount amount field false
    if declared ≠ shareTotal then
      fail .inconsistentExpense <| ExpenseRecord.name e ++ " amount " ++
        (← liftFailure (fromStroops declared)) ++ " does not equal the sum of its shares " ++
        (← liftFailure (fromStroops shareTotal))

-- The checks of an expense, which do not depend on the other ones. Returns its asset and the amounts
-- of its shares.
def checkExpense (R : Registry) (e : ExpenseRecord) : Result (AssetRef × List Int) := do
  if trimmed e.payerUserId = "" then
    fail .invalidParticipants "Every expense requires a non-empty payerUserId"
  if e.shares = [] then
    fail .invalidParticipants <| ExpenseRecord.name e ++ " has no shares"
  assertNoDuplicateShares (ExpenseRecord.name e) e.shares
  let asset ← normalizeAsset R e.assetCode e.assetIssuer
  let shareStroops ← e.shares.mapM fun share =>
    parseAmount share.shareAmount ("share amount for \"" ++ share.userId ++ "\"") true
  let shareTotal := shareStroops.sum
  if shareTotal ≤ 0 then
    fail .invalidAmount <| ExpenseRecord.name e ++ " must be greater than zero"
  checkTotal e shareTotal
  return (asset, shareStroops)

def accumulate (accumulators : Accumulators) (e : ExpenseRecord) (asset : AssetRef)
    (shareStroops : List Int) : Accumulators :=
  let key := balanceAssetKey asset.assetCode asset.assetIssuer
  let accumulator := touch ((accumulators.get? key).getD { asset }) e.payerUserId
  let accumulator := { accumulator with
    paid         := addAmount accumulator.paid e.payerUserId shareStroops.sum
    expenseCount := accumulator.expenseCount + 1
  }
  accumulators.set key <| ((e.shares.map (·.userId)).zip shareStroops).foldl addShare accumulator

-- The iteration of the loop over all expenses.
def addExpense (R : Registry) (accumulators : Accumulators) (e : ExpenseRecord) :
    Result Accumulators := do
  let (asset, shareStroops) ← checkExpense R e
  return accumulate accumulators e asset shareStroops

def AssetAccumulator.participant (accumulator : AssetAccumulator) (userId : String) :
    Result ParticipantAmounts := do
  let paid := (accumulator.paid.get? userId).getD 0
  let owed := (accumulator.owed.get? userId).getD 0
  assertWithinStroopRange paid .amountOverflow <|
    "Paid total for \"" ++ userId ++ "\" exceeds the maximum representable Stellar value"
  assertWithinStroopRange owed .amountOverflow <|
    "Owed total for \"" ++ userId ++ "\" exceeds the maximum representable Stellar value"
  return {
    userId
    paid := ← liftFailure (fromStroops paid)
    owed := ← liftFailure (fromStroops owed)
    net  := ← liftFailure (fromStroops (paid - owed))
  }

def AssetAccumulator.breakdown (accumulator : AssetAccumulator) : Result AssetExpenseBreakdown := do
  let participants ← accumulator.order.mapM (AssetAccumulator.participant accumulator)
  let total := (accumulator.owed.map (·.2)).sum
  assertWithinStroopRange total .amountOverflow
    "Expense total exceeds the maximum representable Stellar value"
  return {
    assetCode    := accumulator.asset.assetCode
    assetIssuer  := accumulator.asset.assetIssuer
    total        := ← liftFailure (fromStroops total)
    expenseCount := accumulator.expenseCount
    participants
  }

end Breakdown

open Breakdown

-- The part of the result for each asset
def calculateGroupExpenseBreakdown (R : Registry) (expenses : List ExpenseRecord) :
    Result (List AssetExpenseBreakdown) := do
  let accumulators ← expenses.foldlM (addExpense R) []
  accumulators.mapM fun e => AssetAccumulator.breakdown e.2

variable {R : Registry}

-- Texts of white space

theorem trimmed_eq_empty {s : String} : trimmed s = "" ↔ ∀ c ∈ s.toList, isWhitespace c = true := by
  rw [trimmed, ← trim_eq_nil, ← String.toList_inj, String.toList_ofList]
  rfl

theorem trimmed_toUpperCase (h : trimmed s = "") : trimmed (toUpperCase s) = "" := by
  rw [trimmed_eq_empty] at h ⊢
  intro c hc
  rw [toUpperCase, String.toList_ofList, List.mem_map] at hc
  obtain ⟨c', hc', hc⟩ := hc
  have hw := h c' hc'
  have hu : c'.toUpper = c' := by
    refine dif_neg ?_
    rintro ⟨h₀, h₁⟩
    have h₀ : 97 ≤ c'.toNat := h₀
    have h₁ : c'.toNat ≤ 122 := h₁
    simp only [isWhitespace, Bool.or_eq_true, Bool.and_eq_true, decide_eq_true_eq, List.mem_cons,
      List.not_mem_nil, or_false] at hw
    omega
  split at hc
  case h_1 => exact absurd hw (by decide)
  case h_2 => exact absurd hw (by decide)
  case h_3 => rwa [← hc, hu]

namespace Breakdown

theorem parseAmount_eq_ok : parseAmount t field z = .ok n ↔
    toStroops t = .ok n ∧ 0 ≤ n ∧ (z = false → n ≠ 0) := by
  simp only [parseAmount, fail]
  cases toStroops t with
  | error e => simp
  | ok m =>
    by_cases h : m < 0
    case pos =>
      simp only [h, if_true, reduceCtorEq, Except.ok.injEq, false_iff]
      omega
    case neg =>
      cases z <;> by_cases hz : m = 0 <;> simp [h, hz] <;> omega

theorem assertNoDuplicateShares_go : assertNoDuplicateShares.go n seen shares = .ok () ↔
    (∀ s ∈ shares, trimmed s.userId ≠ "" ∧ s.userId ∉ seen) ∧ (shares.map (·.userId)).Nodup := by
  induction shares generalizing seen with
  | nil => simp [assertNoDuplicateShares.go]
  | cons hd tl hi =>
    rw [assertNoDuplicateShares.go]
    by_cases h₀ : trimmed hd.userId = ""
    case pos => simp [h₀, fail]
    case neg =>
      by_cases h₁ : hd.userId ∈ seen
      case pos => simp [h₀, h₁, fail]
      case neg =>
        simp only [h₀, h₁, if_false, hi]
        rw [List.forall_mem_cons, List.map_cons, List.nodup_cons]
        simp only [h₀, h₁, List.mem_cons, not_or, List.mem_map, not_exists, not_and, ne_eq, not_false_eq_true,
          and_self, true_and]
        constructor
        case mp =>
          intro ⟨h, hn⟩
          exact ⟨fun s hs => ⟨(h s hs).1, (h s hs).2.2⟩, fun s hs => (h s hs).2.1, hn⟩
        case mpr =>
          intro ⟨h, hd, hn⟩
          exact ⟨fun s hs => ⟨(h s hs).1, hd s hs, (h s hs).2⟩, hn⟩

theorem assertNoDuplicateShares_eq_ok : assertNoDuplicateShares n shares = .ok () ↔
    (∀ s ∈ shares, trimmed s.userId ≠ "") ∧ (shares.map (·.userId)).Nodup := by
  simp [assertNoDuplicateShares, assertNoDuplicateShares_go]

theorem normalizeAsset_eq_ok : normalizeAsset R code issuer = .ok asset ↔
    ∃ v, R.validateAsset code issuer = .ok (.ok v) ∧
      asset = { assetCode := v.code, assetIssuer := v.issuer } := by
  simp only [normalizeAsset, fail]
  split
  case isTrue h =>
    have hu := trimmed_toUpperCase h
    simp [Registry.validateAsset, hu, Registry.invalidAsset, Except.pure_eq_ok]
  case isFalse =>
    split
    case h_1 v hv => simp [hv, eq_comm]
    case h_2 hv   => simp [hv]
    case h_3 hv   => simp [hv]

-- What the calculation demands of an expense.
structure Checked (R : Registry) (e : ExpenseRecord) (asset : AssetRef) (shareStroops : List Int) : Prop where
  payer    : trimmed e.payerUserId ≠ ""
  nonempty : e.shares ≠ []
  named    : ∀ s ∈ e.shares, trimmed s.userId ≠ ""
  distinct : (e.shares.map (·.userId)).Nodup
  asset    : normalizeAsset R e.assetCode e.assetIssuer = .ok asset
  parsed   : List.Forall₂ (fun s n => toStroops s.shareAmount = .ok n ∧ 0 ≤ n) e.shares shareStroops
  positive : 0 < shareStroops.sum
  total    : ∀ a ∈ e.amount, toStroops a = .ok shareStroops.sum

theorem fail_bind_eq_ok {f : α → Result β} : (fail code m >>= f) = .ok b ↔ False := by
  simp [fail, bind, Except.bind]

theorem ite_eq_ok {c : Prop} [Decidable c] {x y : Result α} (h : ∀ a, x = .ok a ↔ False) :
    (if c then x else y) = .ok a ↔ ¬c ∧ y = .ok a := by
  split
  case isTrue hc  => simp [h, hc]
  case isFalse hc => simp [hc]

theorem checkTotal_eq_ok (h : 0 < total) :
    checkTotal e total = .ok () ↔ ∀ a ∈ e.amount, toStroops a = .ok total := by
  simp only [checkTotal]
  cases e.amount with
  | none        => simp [Except.pure_eq_ok]
  | some amount =>
    simp only [Option.mem_def, Option.some_inj, forall_eq', Except.bind_eq_ok, parseAmount_eq_ok]
    constructor
    case mp =>
      intro ⟨n, ⟨ht, _⟩, h⟩
      split at h
      case isTrue =>
        have ⟨_, _, h⟩ := Except.bind_eq_ok.mp h
        have ⟨_, _, h⟩ := Except.bind_eq_ok.mp h
        contradiction
      case isFalse hn => exact not_not.mp hn ▸ ht
    case mpr =>
      intro ht
      refine ⟨total, ⟨ht, h.le, fun _ => h.ne'⟩, ?_⟩
      rw [if_neg (not_not.mpr rfl)]
      rfl

theorem mapM_parseAmount {field : ExpenseShareRecord → String} :
    shares.mapM (fun s => parseAmount s.shareAmount (field s) true) = .ok l ↔
    List.Forall₂ (fun s n => toStroops s.shareAmount = .ok n ∧ 0 ≤ n) shares l := by
  simp [Except.mapM_eq_ok, parseAmount_eq_ok]

theorem checkExpense_eq_ok : checkExpense R e = .ok (asset, l) ↔ Checked R e asset l := by
  have hd {α : Type} {code m} {f : Unit → Result α} a : (fail code m >>= f) = .ok a ↔ False := fail_bind_eq_ok
  simp only [checkExpense, ite_eq_ok hd, Except.bind_eq_ok, Except.pure_eq_ok, mapM_parseAmount, not_le]
  constructor
  case mp =>
    intro ⟨payer, nonempty, (), hn, _, asset, _, parsed, positive, (), ht, h⟩
    obtain ⟨h₁, h₂⟩ := Prod.mk.inj h
    subst h₁ h₂
    have ⟨named, distinct⟩ := assertNoDuplicateShares_eq_ok.mp hn
    have total := (checkTotal_eq_ok positive).mp ht
    exact { payer, nonempty, named, distinct, asset, parsed, positive, total }
  case mpr =>
    intro h
    have hn := assertNoDuplicateShares_eq_ok (n := ExpenseRecord.name e).mpr ⟨h.named, h.distinct⟩
    have ht := (checkTotal_eq_ok h.positive).mpr h.total
    exact ⟨h.payer, h.nonempty, (), hn, asset, h.asset, l, h.parsed, h.positive, (), ht, rfl⟩

end Breakdown

end Mergepay
