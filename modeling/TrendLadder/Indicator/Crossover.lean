import TrendLadder.Indicator.Average

/-!
# Moving-average crossover

The fast and the slow average of the closing prices, and whether the fast one has moved from
strictly below the slow one to strictly above it between the last two bars, or the other way.
-/

namespace TrendLadder

/-- The direction of a cross. -/
inductive Cross where
  | bullish
  | bearish
deriving DecidableEq, Repr

/-- The averages after one bar, and the cross that the bar made. -/
structure CrossoverReading where
  fast : Option Float
  slow : Option Float
  cross : Option Cross
deriving DecidableEq

/-- The cross between two bars, from the averages before and after. -/
def crossOf (fastBefore slowBefore fast slow : Float) : Option Cross :=
  if fastBefore < slowBefore ∧ slow < fast then some .bullish
  else if slowBefore < fastBefore ∧ fast < slow then some .bearish
  else none

/-- The latest closing prices and the two averages over them. -/
structure CrossoverDetector where
  closings : Recent Float
  fast : AverageSeries
  slow : AverageSeries
deriving DecidableEq

namespace CrossoverDetector

/-- No prices yet. -/
def new (settings : CrossoverSettings) (capacity : Nat) : CrossoverDetector where
  closings := .empty capacity
  fast := .empty settings.fast capacity
  slow := .empty settings.slow capacity

def fits (capacity : Nat) : Bool := bufferFits priceBytes capacity && AverageSeries.fits capacity

/-- The closing prices needed before a cross can be seen. -/
def warmup (d : CrossoverDetector) : Nat :=
  max d.fast.settings.window d.slow.settings.window + 1

/-- The cross that the latest bar made. -/
def crossover (d : CrossoverDetector) : Except InsufficientHistory (Option Cross) :=
  match d.fast.previous, d.slow.previous, d.fast.latest, d.slow.latest with
  | some fastBefore, some slowBefore, some fast, some slow =>
    .ok (crossOf fastBefore slowBefore fast slow)
  | _, _, _, _ => .error ⟨d.warmup, d.closings.size⟩

def update (d : CrossoverDetector) (closing : Float) : CrossoverReading × CrossoverDetector :=
  let closings := d.closings.push closing
  let fast := d.fast.update closings.items
  let slow := d.slow.update closings.items
  let next : CrossoverDetector := ⟨closings, fast.2, slow.2⟩
  (⟨fast.1.toOption, slow.1.toOption, next.crossover.toOption.join⟩, next)

def reset (d : CrossoverDetector) : CrossoverDetector :=
  ⟨d.closings.clear, d.fast.clear, d.slow.clear⟩

end CrossoverDetector

end TrendLadder
