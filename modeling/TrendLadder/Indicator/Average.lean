import TrendLadder.Number.Word
import TrendLadder.Recent
import TrendLadder.Settings.Basic

/-!
# Moving averages

`average` is the moving average of a list of closing prices, oldest first, over the window that the
settings give, and `movingAverage?` is the same with positions that are machine words. No word holds
the length of every window; where one does, the two agree. `AverageSeries` keeps the latest values
of one average, with a window within its capacity.
-/

namespace TrendLadder

/-- More prices or candles are needed than there are. -/
structure InsufficientHistory where
  needed : Nat
  available : Nat
deriving DecidableEq, Repr

def InsufficientHistory.message (e : InsufficientHistory) : String :=
  "insufficient history: need " ++ e.needed.repr ++ ", have " ++ e.available.repr

namespace AverageSettings

/-- The part of a list of prices that the average is taken over. -/
def select (s : AverageSettings) (closings : List Float) : List Float :=
  (closings.drop (closings.length - s.shift - s.period)).take s.period

end AverageSettings

/-- The arithmetic mean of `period` prices. -/
def simpleMean (period : Nat) (prices : List Float) : Float :=
  prices.foldl (· + ·) (-0.0) / period.toFloat

/-- The weight of the newest price in an exponential mean. -/
def smoothing (period : Nat) : Float := 2.0 / (period.toFloat + 1.0)

/-- The exponential mean: the oldest price, moved toward each later one in turn. -/
def exponentialMean (period : Nat) (oldest : Float) (later : List Float) : Float :=
  let alpha := smoothing period
  later.foldl (fun mean price => alpha * price + (1.0 - alpha) * mean) oldest

/-- The mean of the prices in a window of `period`. -/
def windowMean (method : AverageMethod) (period : Nat) (prices : List Float) : Float :=
  match method, prices with
  | .simple, prices => simpleMean period prices
  | .exponential, oldest :: later => exponentialMean period oldest later
  | .exponential, [] => 0.0

/-- The moving average of closing prices. -/
def average (closings : List Float) (s : AverageSettings) : Except InsufficientHistory Float :=
  if s.period = 0 ∨ closings.length < s.window then .error ⟨s.window, closings.length⟩
  else .ok (windowMean s.method s.period (s.select closings))

/-! ## Positions -/

/-- The part of a list between two positions; none if they are out of order or out of range. -/
def slice? {α : Type} (l : List α) (first last : Nat) : Option (List α) :=
  if first ≤ last ∧ last ≤ l.length then some ((l.drop first).take (last - first)) else none

/-- The mean of the prices in a window of `period` by their positions; none if one is out of
range. -/
def meanAt? (method : AverageMethod) (period : Nat) (window : List Float) : Option Float :=
  match method with
  | .simple => some (simpleMean period window)
  | .exponential => do
    let oldest ← window[0]?
    let later ← slice? window 1 window.length
    return exponentialMean period oldest later

/-- The moving average by the positions of its window; none if the program stops, over a position
that is out of range or a number that no word holds. -/
def movingAverage? (o : Overflow) (closings : List Float) (s : AverageSettings) :
    Option (Except InsufficientHistory Float) := do
  let needed ← o.add? s.period s.shift
  if s.period = 0 ∨ closings.length < needed then return .error ⟨needed, closings.length⟩
  let last ← o.sub? closings.length s.shift
  let first ← o.sub? last s.period
  let window ← slice? closings first last
  let mean ← meanAt? s.method s.period window
  return .ok mean

/-! ## Series -/

/-- The bytes that a price takes in a buffer. -/
def priceBytes : Nat := 8

/-- The latest values of a moving average. -/
structure AverageSeries where
  settings : AverageSettings
  recent : Recent Float
deriving DecidableEq

namespace AverageSeries

/-- No values yet; there is room for at least two. -/
def empty (settings : AverageSettings) (capacity : Nat) : AverageSeries :=
  ⟨settings, .empty (max capacity 2)⟩

def fits (capacity : Nat) : Bool := bufferFits priceBytes (max capacity 2)

/-- Takes the average of all closing prices so far and keeps it if there is one. -/
def update (s : AverageSeries) (closings : List Float) :
    Except InsufficientHistory Float × AverageSeries :=
  match average closings s.settings with
  | .ok x => (.ok x, { s with recent := s.recent.push x })
  | .error e => (.error e, s)

def latest (s : AverageSeries) : Option Float := s.recent.latest

/-- The value one bar before the latest. -/
def previous (s : AverageSeries) : Option Float := s.recent.previous

def clear (s : AverageSeries) : AverageSeries := { s with recent := s.recent.clear }

end AverageSeries

end TrendLadder
