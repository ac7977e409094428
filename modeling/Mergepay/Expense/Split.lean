import Mathlib.Algebra.Order.Floor.Ring
import Mathlib.Data.Rat.Floor
import Mergepay.Money.Canonical

namespace Mergepay

open Money Text

inductive SplitType
  | equal
  | custom
  | percentage
  deriving DecidableEq

structure ShareInput where
  userId  : String
  amount  : Option String := none
  percent : Option ℚ := none
  deriving DecidableEq

structure CreateExpenseInput where
  title       : String
  description : Option String := none
  amount      : String
  assetCode   : String
  assetIssuer : Option String := none
  splitType   : SplitType
  shares      : List ShareInput
  payerUserId : Option String := none
  memo        : Option String := none
  deriving DecidableEq

-- What a schema has to say against a request.
structure Issue where
  path    : List String
  message : String
  deriving DecidableEq

-- The length in UTF-16 code units.
def utf16Length (s : String) : Nat :=
  (s.toList.map fun c => if c.toNat < 0x10000 then 1 else 2).sum

-- The schema of the request

-- The language of `^\d+(?:\.\d{1,7})?$`.
def isShareAmount (s : String) : Bool :=
  Decimal.accepts s.toList && (Decimal.split s.toList).2.length ≤ 7

def amountToStroops (amount : String) : Int :=
  let (whole, frac) := Decimal.split amount.toList
  Decimal.digits whole * stroopsPerUnit + Decimal.digits (padEnd 7 '0' frac)

def fromStroopsBigInt (stroops : Int) : String :=
  .ofList <| sign stroops ++ Decimal.render 7 stroops.natAbs

section Schema

def stringIssues (path : List String) (lo hi : Nat) (s : String) : List Issue :=
  if utf16Length s < lo then
    [⟨path, "String must contain at least " ++ toString lo ++ " character(s)"⟩]
  else if utf16Length s > hi then
    [⟨path, "String must contain at most " ++ toString hi ++ " character(s)"⟩]
  else
    []

def shareIssues (i : Nat) (s : ShareInput) : List Issue :=
  (if s.userId = "" then
    [⟨["shares", toString i, "userId"], "String must contain at least 1 character(s)"⟩] else []) ++
  (if s.amount.any (¬isShareAmount ·) then
    [⟨["shares", toString i, "amount"], "Amount must have at most 7 decimal places"⟩] else []) ++
  (if s.percent.any (· < 0) then
    [⟨["shares", toString i, "percent"], "Number must be greater than or equal to 0"⟩] else []) ++
  (if s.percent.any (100 < ·) then
    [⟨["shares", toString i, "percent"], "Number must be less than or equal to 100"⟩] else [])

-- The issues with the shape of a request.
def shapeIssues (val : CreateExpenseInput) : List Issue :=
  stringIssues ["title"] 1 80 val.title ++
  (val.description.elim [] (stringIssues ["description"] 0 500)) ++
  stringIssues ["assetCode"] 1 12 val.assetCode ++
  (if val.shares = [] then [⟨["shares"], "Array must contain at least 1 element(s)"⟩] else []) ++
  (val.shares.zipIdx.flatMap fun (s, i) => shareIssues i s) ++
  (val.memo.elim [] (stringIssues ["memo"] 0 24))

def customIssues (val : CreateExpenseInput) : List Issue :=
  if ¬val.shares.all (·.amount.any (· ≠ "")) then
    [⟨["shares"], "Every share in a custom split must include an amount"⟩]
  else
    let amounts := val.shares.map fun s => amountToStroops (s.amount.getD "")
    let totalStroops := amountToStroops val.amount
    let shareSum := amounts.sum
    (val.shares.zipIdx.flatMap fun (s, i) =>
      if amountToStroops (s.amount.getD "") ≤ 0 then
        [⟨["shares", toString i, "amount"], "Share amount for \"" ++ s.userId ++
          "\" must be greater than zero"⟩]
      else []) ++
    (if shareSum ≠ totalStroops then
      [⟨["shares"], "Custom split amounts must sum to the total expense amount (" ++ val.amount ++
        "), but got " ++ fromStroopsBigInt shareSum⟩]
    else [])

-- Numbers are converted to text by `numberText`.
def percentageIssues (numberText : ℚ → String) (val : CreateExpenseInput) : List Issue :=
  let total := (val.shares.map (·.percent.getD 0)).sum
  if |total - 100| ≥ 1 / 100 then
    [⟨["shares"], "Percentage shares must sum to 100%, but got " ++ numberText total ++ "%"⟩]
  else []

def splitIssues (numberText : ℚ → String) (val : CreateExpenseInput) : List Issue :=
  match val.splitType with
  | .equal      => []
  | .custom     => customIssues val
  | .percentage => percentageIssues numberText val

def refineValidatedAsset (R : Registry) (code : String) (issuer : Option String) :
    Except Failure (List Issue) := do
  match ← R.validateAsset code issuer with
  | .ok _    => return []
  | .error e =>
    let path := if e.reason ∈ [.nativeWithIssuer, .issuerMismatch, .invalidIssuerFormat]
      then "assetIssuer" else "assetCode"
    return [⟨[path], e.message⟩]

-- A request is returned with its amount in canonical notation. If there are issues with its shape, then
-- those that the refinements would add to them are left out.
def createExpenseSchema (R : Registry) (numberText : ℚ → String) (raw : CreateExpenseInput) :
    Except Failure (Except (List Issue) CreateExpenseInput) := do
  match validateAmount raw.amount with
  | .error e => return .error <| shapeIssues raw ++ [⟨["amount"], e.message⟩]
  | .ok amount =>
    let val := { raw with amount := amount.decimal }
    if shapeIssues val ≠ [] then
      return .error (shapeIssues val)
    let issues := (← refineValidatedAsset R val.assetCode val.assetIssuer) ++ splitIssues numberText val
    if issues ≠ [] then
      return .error issues
    return .ok val

end Schema

-- The split engine

structure ComputedShare where
  userId      : String
  shareAmount : String
  deriving DecidableEq

def fixRemainder (computed : List (String × Int)) (total : Int) : Except Failure (List ComputedShare) :=
  let sum := (computed.map Prod.snd).sum
  let remainder := total - sum
  let computed := match computed with
    | []                => []
    | (userId, n) :: tl => (userId, n + remainder) :: tl
  computed.mapM fun c => return { userId := c.1, shareAmount := ← fromStroops c.2 }

def customStroops (s : ShareInput) : Except Failure (String × Int) :=
  match s.amount with
  | none        => .error <| .engine .invalidSplitSum
      "Custom split requires an amount for every participant"
  | some amount => return (s.userId, ← toStroops amount)

-- Rounds halves up.
def round (q : ℚ) : Int :=
  ⌊q + 1 / 2⌋

def percentStroops (total : Int) (s : ShareInput) : String × Int :=
  let pctMilli := round (s.percent.getD 0 * 1000)
  (s.userId, (total * pctMilli).tdiv 100000)

def addPercent (pctTotal : ℚ) (s : ShareInput) : Except Failure ℚ :=
  match s.percent with
  | none         => .error <| .engine .invalidSplitPercent
      "Percentage split requires a percent for every participant"
  | some percent => return pctTotal + percent

def computeShares (numberText : ℚ → String) (amount : String) (splitType : SplitType)
    (shares : List ShareInput) : Except Failure (List ComputedShare) := do
  if shares = [] then
    throw <| .engine .invalidSplitParticipant "At least one participant required"
  let total ← toStroops amount
  if total ≤ 0 then
    throw <| .engine .invalidSplitAmount "Amount must be greater than zero"
  match splitType with
  | .custom =>
    let computed ← shares.mapM customStroops
    let sum := (computed.map Prod.snd).sum
    if sum ≠ total then
      throw <| .engine .invalidSplitSum <| "Custom amounts must sum to " ++ amount ++ " (got " ++
        (← fromStroops sum) ++ ")"
    computed.mapM fun c => return { userId := c.1, shareAmount := ← fromStroops c.2 }
  | .percentage =>
    let pctTotal ← shares.foldlM addPercent 0
    if |pctTotal - 100| > 1 / 1000 then
      throw <| .engine .invalidSplitPercent <| "Percentages must sum to 100 (got " ++
        numberText pctTotal ++ ")"
    fixRemainder (shares.map (percentStroops total)) total
  | .equal =>
    let base := total.tdiv shares.length
    fixRemainder (shares.map fun s => (s.userId, base)) total

end Mergepay
