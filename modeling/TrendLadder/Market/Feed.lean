import TrendLadder.Document.Csv
import TrendLadder.Market.Candle
import TrendLadder.Number.Literal

/-!
# Candle files

A candle file is a table with a row for each candle. Rows that do not hold a candle are skipped.
-/

namespace TrendLadder

/-- The candle of a row. -/
def Candle.ofRow (row : Csv.Row) : Option Candle := do
  return {
    timestamp := ← row.field? "timestamp" Timestamp.read
    opening := ← row.field? "open" Literal.float?
    high := ← row.field? "high" Literal.float?
    low := ← row.field? "low" Literal.float?
    closing := ← row.field? "close" Literal.float?
    tickVolume := ← row.field? "tick_volume" (Literal.nat? 64)
    spread := ← row.field? "spread" (Literal.nat? 32) }

/-- The candles of a file. -/
def Candle.ofFile (content : String) : List Candle := (Csv.rows content).filterMap Candle.ofRow

end TrendLadder
