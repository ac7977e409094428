import Mergepay.Expense.Conservation

namespace Mergepay

open Money Breakdown Balance

def AssetExpenseBreakdown.key (b : AssetExpenseBreakdown) : String :=
  balanceAssetKey b.assetCode b.assetIssuer

-- What the participants of an asset are credited with in the normalized view.
structure AssetConversion where
  factor : Int
  paid   : List Int
  owed   : List Int

-- The total of an asset in the normalized view.
def AssetConversion.total (target : AssetRef) (b : AssetExpenseBreakdown) (c : AssetConversion) : Int :=
  if b.key = AssetRef.key target then stroops b.total else stroops b.total * c.factor / rateScale

namespace Breakdown

section

variable {R : Registry} {options : GroupBreakdownOptions} {expenses : List ExpenseRecord} {target : AssetRef}
  {rates : Rates} {accumulators accumulators' sorted : Accumulators} {assets : List AssetExpenseBreakdown}
  {r : NormalizedExpenseBreakdown} {a : AssetAccumulator} {b : AssetExpenseBreakdown}

end

end Breakdown

end Mergepay
