import TrendLadder.Market.Candle
import TrendLadder.Proofs.Number.Distance

/-!
# Sane candles

The prices of a sane candle are finite (`isFinite_prices`), so its wicks are numbers, though a range
that overflows may make them infinite.
-/

namespace TrendLadder

namespace Candle

variable {c : Candle}

theorem isFinite_prices (sane : c.isSane = true) :
    c.opening.isFinite = true ∧ c.high.isFinite = true ∧ c.low.isFinite = true ∧
      c.closing.isFinite = true := by
  unfold isSane isVoid at sane
  simp only [Bool.and_eq_true, Bool.not_not] at sane
  obtain ⟨⟨⟨⟨⟨⟨⟨⟨opening, high⟩, low⟩, closing⟩, -⟩, -⟩, -⟩, -⟩, -⟩ := sane
  exact ⟨opening, high, low, closing⟩

theorem isFinite_high (sane : c.isSane = true) : c.high.isFinite = true :=
  (isFinite_prices sane).2.1

theorem isFinite_low (sane : c.isSane = true) : c.low.isFinite = true :=
  (isFinite_prices sane).2.2.1

theorem low_le_high (sane : c.isSane = true) : c.low ≤ c.high := by
  unfold isSane at sane
  simp only [Bool.and_eq_true, decide_eq_true_iff] at sane
  exact sane.1.1.1.1.2

theorem not_isNaN_upperWick (sane : c.isSane = true) : ¬c.upperWick.isNaN = true := by
  obtain ⟨opening, high, -, closing⟩ := isFinite_prices sane
  refine not_isNaN_sub high ?_
  rcases maxNum_eq_or c.opening c.closing with same | same <;> rw [same]
  · exact not_isNaN_of_isFinite opening
  · exact not_isNaN_of_isFinite closing

theorem not_isNaN_lowerWick (sane : c.isSane = true) : ¬c.lowerWick.isNaN = true := by
  obtain ⟨opening, -, low, closing⟩ := isFinite_prices sane
  have lower := not_isNaN_of_isFinite low
  unfold lowerWick
  rcases minNum_eq_or c.opening c.closing with same | same <;> rw [same]
  · exact not_isNaN_sub opening lower
  · exact not_isNaN_sub closing lower

end Candle

end TrendLadder
