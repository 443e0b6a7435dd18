import TrendLadder.Market.Account
import TrendLadder.Settings.Basic

/-!
# Price levels

The entry of a trade lies beyond the closing price, the stop behind the entry and the target
beyond it, in multiples of the stop distance.
-/

namespace TrendLadder

/-- The prices of a trade. -/
structure PriceLevels where
  entry : Float
  stopLoss : Float
  takeProfit : Float
deriving DecidableEq

/-- The prices of a trade at a closing price. -/
def priceLevels (direction : Direction) (closing point : Float) (pricing : PricingSettings)
    (rewardRatio : Float) : PriceLevels :=
  let sign := direction.sign
  let entry := closing + sign * pricing.entryOffsetPoints * point
  let stopLoss := entry - sign * pricing.stopLossPoints * point
  ⟨entry, stopLoss, entry + sign * (entry - stopLoss).abs * rewardRatio⟩

end TrendLadder
