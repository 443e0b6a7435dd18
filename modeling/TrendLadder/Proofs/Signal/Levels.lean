import TrendLadder.Ledger.Position
import TrendLadder.Proofs.Mirror.Market
import TrendLadder.Proofs.Number.Distance
import TrendLadder.Proofs.Settings.Reals
import TrendLadder.Signal.Levels

/-!
# The sides of price levels

The stop of a trade lies a distance behind the entry and the target a multiple of that distance
beyond it (`PriceLevels.Spans`). Neither is ever on the wrong side of the entry, and both are on the
right one exactly if they differ from an entry that is finite (`Spans.hasSides_iff`). A distance of
the rounding unit is enough for that (`Spans.hasSides`); a smaller one may be rounded away.
-/

namespace TrendLadder

/-! ## Directions -/

namespace Direction

variable {d : Direction} {x y z : Float}

/-- The price at a distance from another one, in the direction of a trade. -/
def advance (d : Direction) (price distance : Float) : Float :=
  match d with
  | .buy => price + distance
  | .sell => price - distance

theorem sign_mul (d : Direction) (x : Float) :
    d.sign * x = match d with | .buy => x | .sell => -x := by
  cases d with
  | buy => exact float_one_mul x
  | sell =>
    show -1.0 * x = -x
    rw [float_neg_mul, float_one_mul]

theorem add_sign_mul (d : Direction) (x y z : Float) :
    x + d.sign * y * z = d.advance x (y * z) := by
  rw [sign_mul]
  cases d with
  | buy => rfl
  | sell =>
    show x + -y * z = x - y * z
    rw [float_neg_mul, float_sub_eq_add_neg]

theorem sub_sign_mul (d : Direction) (x y z : Float) :
    x - d.sign * y * z = d.opposite.advance x (y * z) := by
  rw [sign_mul]
  cases d with
  | buy => rfl
  | sell =>
    show x - -y * z = x + y * z
    rw [float_neg_mul, float_sub_eq_add_neg, float_neg_neg]

/-- A distance that is not negative does not lead against the direction. -/
theorem not_beyond_advance (h : ¬y < 0.0) : ¬d.Beyond (d.advance x y) x := by
  cases d with
  | buy => exact float_add_not_lt h
  | sell => exact float_not_lt_sub h

theorem beyond_advance (finite : x.isFinite = true) (h : Clears y x) :
    d.Beyond x (d.advance x y) := by
  cases d with
  | buy => exact float_lt_add finite h
  | sell => exact float_sub_lt finite h

theorem not_isNaN_advance (finite : x.isFinite = true) (number : ¬y.isNaN = true) :
    ¬(d.advance x y).isNaN = true := by
  cases d with
  | buy => exact not_isNaN_add finite number
  | sell => exact not_isNaN_sub finite number

theorem beyond_of_not_beyond (hx : ¬x.isNaN = true) (hy : ¬y.isNaN = true) (h : ¬d.Beyond y x)
    (ne : (x == y) = false) : d.Beyond x y := by
  cases d with
  | buy => exact float_lt_of_not_lt hx hy h ne
  | sell => exact float_lt_of_not_lt hy hx h (float_bne_comm ne)

theorem Beyond.bne (h : d.Beyond x y) : (x == y) = false ∧ (y == x) = false := by
  cases d with
  | buy => exact float_bne_of_lt h
  | sell => exact (float_bne_of_lt h).symm

theorem Beyond.isFinite (h : d.Beyond x y) (h2 : d.Beyond y z) : y.isFinite = true := by
  cases d with
  | buy => exact isFinite_of_between h h2
  | sell => exact isFinite_of_between h2 h

theorem mul_sign_lt_zero_iff : (x - y) * d.sign < 0.0 ↔ d.Beyond x y := by
  rw [float_mul_comm, sign_mul]
  cases d with
  | buy => exact float_sub_lt_zero_iff
  | sell => exact float_neg_lt_zero.trans float_zero_lt_sub_iff

theorem zero_lt_mul_sign_iff : 0.0 < (x - y) * d.sign ↔ d.Beyond y x := by
  rw [float_mul_comm, sign_mul]
  cases d with
  | buy => exact float_zero_lt_sub_iff
  | sell => exact float_zero_lt_neg.trans float_sub_lt_zero_iff

end Direction

/-! ## Levels -/

namespace PriceLevels

/-- The stop lies a distance behind the entry, and the target the multiple of the distance from
entry to stop beyond it. -/
structure Spans (l : PriceLevels) (d : Direction) (distance ratio : Float) : Prop where
  stopLoss : l.stopLoss = d.opposite.advance l.entry distance
  takeProfit : l.takeProfit = d.advance l.entry ((l.entry - l.stopLoss).abs * ratio)

/-- The stop is behind the entry and the target beyond it. -/
def HasSides (l : PriceLevels) (d : Direction) : Prop :=
  d.Beyond l.stopLoss l.entry ∧ d.Beyond l.entry l.takeProfit

theorem spans_priceLevels (d : Direction) (closing point : Float) (s : PricingSettings)
    (ratio : Float) :
    (priceLevels d closing point s ratio).Spans d (s.stopLossPoints * point) ratio where
  stopLoss := d.sub_sign_mul _ _ _
  takeProfit := d.add_sign_mul _ _ _

namespace Spans

variable {l : PriceLevels} {d : Direction} {distance ratio : Float}

/-- A stop at a distance that is not negative is not beyond the entry. -/
theorem not_beyond_stopLoss (h : l.Spans d distance ratio) (nonneg : ¬distance < 0.0) :
    ¬d.Beyond l.entry l.stopLoss := by
  rw [h.stopLoss, ← Direction.beyond_opposite]
  exact Direction.not_beyond_advance nonneg

/-- The target is not behind the entry. -/
theorem not_beyond_takeProfit (h : l.Spans d distance ratio) (positive : 0.0 < ratio) :
    ¬d.Beyond l.takeProfit l.entry := by
  rw [h.takeProfit]
  exact Direction.not_beyond_advance
    (float_mul_not_lt_zero (float_abs_not_lt_zero _) (float_lt_asymm positive))

/-- **The levels are on their sides if they differ from an entry that is finite**, and only then. -/
theorem hasSides_iff (h : l.Spans d distance ratio) (nonneg : ¬distance < 0.0)
    (number : ¬distance.isNaN = true) (positive : isPositive ratio = true) :
    l.HasSides d ↔ l.entry.isFinite = true ∧ (l.stopLoss == l.entry) = false ∧
      (l.takeProfit == l.entry) = false := by
  constructor
  · rintro ⟨stop, target⟩
    exact ⟨stop.isFinite target, stop.bne.1, target.bne.2⟩
  · rintro ⟨finite, stop, target⟩
    have entryNumber := not_isNaN_of_isFinite finite
    have stopNumber : ¬l.stopLoss.isNaN = true := by
      rw [h.stopLoss]
      exact Direction.not_isNaN_advance finite number
    have gap : ¬(l.entry - l.stopLoss).isNaN = true := not_isNaN_sub finite stopNumber
    have targetNumber : ¬l.takeProfit.isNaN = true := by
      rw [h.takeProfit]
      exact Direction.not_isNaN_advance finite (not_isNaN_mul (not_isNaN_abs gap)
        (isFinite_of_isPositive positive) (lt_of_isPositive positive))
    have behind := h.not_beyond_stopLoss nonneg
    have ahead := h.not_beyond_takeProfit (lt_of_isPositive positive)
    exact ⟨Direction.beyond_of_not_beyond stopNumber entryNumber behind stop,
      Direction.beyond_of_not_beyond entryNumber targetNumber ahead (float_bne_comm target)⟩

/-- Distances of the rounding unit keep the levels on their sides. -/
theorem hasSides (h : l.Spans d distance ratio) (finite : l.entry.isFinite = true)
    (stop : Clears distance l.entry)
    (target : Clears ((l.entry - l.stopLoss).abs * ratio) l.entry) : l.HasSides d := by
  constructor
  · rw [h.stopLoss, ← Direction.beyond_opposite]
    exact Direction.beyond_advance finite stop
  · rw [h.takeProfit]
    exact Direction.beyond_advance finite target

end Spans

end PriceLevels

end TrendLadder
