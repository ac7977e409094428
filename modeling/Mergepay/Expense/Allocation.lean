import Mergepay.Data.Apportionment
import Mergepay.Expense.Calculation
import Mergepay.Text.Integer

namespace Mergepay

open Money Text Integer

inductive ExpenseSplitMode
  | equal
  | percentage
  | custom
  deriving DecidableEq

inductive PercentInput
  | text (percent : String)
  | number (percent : Numeral)

structure SplitParticipant where
  userId  : String
  percent : Option PercentInput := none
  amount  : Option String := none

structure ExpenseSplitShare where
  userId  : String
  amount  : String
  percent : Option String := none
  deriving DecidableEq

structure ExpenseSplitResult where
  amount           : String
  splitType        : ExpenseSplitMode
  shares           : List ExpenseSplitShare
  remainderStroops : String
  deriving DecidableEq

def percentScale : Nat := 1000000
def percentTotal : Nat := 100 * percentScale

-- `String(percent)`
def PercentInput.toText : PercentInput → String
  | .text percent   => percent
  | .number percent => percent.text

namespace Breakdown

def parsePercent (percent : Option PercentInput) (userId : String) : Result Int := do
  let raw ← match percent with
    | none => fail .invalidPercent <|
      "Percentage split requires a percent for every participant (missing for \"" ++ userId ++ "\")"
    | some (.number { value := none, .. }) =>
      fail .invalidPercent <| "Percent for \"" ++ userId ++ "\" must be a finite number"
    | some percent => .ok percent.toText
  if ¬Decimal.accepts raw.toList then
    fail .invalidPercent <|
      "Percent \"" ++ raw ++ "\" for \"" ++ userId ++ "\" is not a valid non-negative decimal"
  let (whole, fraction) := Decimal.split raw.toList
  if fraction.length > 6 then
    fail .invalidPercent <| "Percent \"" ++ raw ++ "\" for \"" ++ userId ++ "\" exceeds 6-decimal precision"
  return Decimal.digits whole * percentScale + Decimal.digits (padEnd 6 '0' fraction)

-- Percentages are not negative.
def formatPercent (value : Int) : String :=
  .ofList <| Decimal.render 6 value.toNat

def assertParticipants (participants : List SplitParticipant) : Result Unit :=
  if participants = [] then
    fail .invalidParticipants "At least one participant is required"
  else
    go [] participants
where
  go (seen : List String) : List SplitParticipant → Result Unit
    | []                => .ok ()
    | participant :: tl =>
      if trimmed participant.userId = "" then
        fail .invalidParticipants "Every participant requires a non-empty userId"
      else if participant.userId ∈ seen then
        fail .duplicateParticipant <| "Participant \"" ++ participant.userId ++ "\" appears more than once"
      else
        go (participant.userId :: seen) tl

-- The amounts, and what had to be distributed because it does not divide evenly.
def allocateByWeights (total : Int) (weights : List Int) : Result (List Int × Int) := do
  let weightSum := weights.sum
  if weightSum ≤ 0 then
    fail .invalidSplit "Split weights must sum to a positive value"
  if ∃ weight ∈ weights, weight < 0 then
    fail .invalidSplit "Split weights must not be negative"
  let amounts := weights.map fun weight => (total * weight).tdiv weightSum
  let remainders := weights.map fun weight => (total * weight).tmod weightSum
  let distributed := total - amounts.sum
  return (Apportionment.distribute amounts remainders distributed, distributed)

-- The weights of all splits but the custom one.
def splitWeights (splitType : ExpenseSplitMode) (participants : List SplitParticipant) : Result (List Int) := do
  if splitType = .percentage then
    let weights ← participants.mapM fun participant => parsePercent participant.percent participant.userId
    let percentSum := weights.sum
    if percentSum ≠ percentTotal then
      fail .invalidPercent <| "Percentages must sum to exactly 100 (got " ++ formatPercent percentSum ++ ")"
    return weights
  else
    return participants.map fun _ => 1

def customAmount (participant : SplitParticipant) : Result Int :=
  match participant.amount with
  | none => fail .invalidSplit <| "Custom split requires an amount for every participant (missing for \"" ++
    participant.userId ++ "\")"
  | some amount => parseAmount amount ("amount for \"" ++ participant.userId ++ "\"") true

def splitShare (splitType : ExpenseSplitMode) (participant : SplitParticipant) (amount : Int) :
    Result ExpenseSplitShare := do
  return {
    userId  := participant.userId
    amount  := ← liftFailure (fromStroops amount)
    percent := if splitType = .percentage then participant.percent.map (·.toText) else none
  }

end Breakdown

open Breakdown

def splitExpense (amount : String) (splitType : ExpenseSplitMode) (participants : List SplitParticipant) :
    Result ExpenseSplitResult := do
  let total ← parseAmount amount "amount" false
  assertParticipants participants
  if splitType = .custom then
    let amounts ← participants.mapM customAmount
    let sum := amounts.sum
    if sum ≠ total then
      fail .invalidSplit <| "Custom amounts must sum to " ++ (← liftFailure (fromStroops total)) ++
        " (got " ++ (← liftFailure (fromStroops sum)) ++ ")"
    return {
      amount := ← liftFailure (fromStroops total)
      splitType
      shares := ← (participants.zip amounts).mapM fun p => splitShare splitType p.1 p.2
      remainderStroops := "0"
    }
  let weights ← splitWeights splitType participants
  let (amounts, remainderStroops) ← allocateByWeights total weights
  return {
    amount := ← liftFailure (fromStroops total)
    splitType
    shares := ← (participants.zip amounts).mapM fun p => splitShare splitType p.1 p.2
    remainderStroops := .ofList (Number.render remainderStroops)
  }

end Mergepay
