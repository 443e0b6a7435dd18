import TrendLadder.Settings.Faults

/-!
# Progression ladder

The ladder holds a level into a table of lots and a table of reward-to-risk ratios. A loss moves
one level up, as far as there is one, a win returns to the bottom and a breakeven holds the
level. While the ladder is paused, every lot size is zero.
-/

namespace TrendLadder

/-- How a trade ended. -/
inductive TradeOutcome where
  | win
  | loss
  | breakeven
deriving DecidableEq, Repr

/-- The outcome of a profit; what is neither positive nor negative is a breakeven. -/
def TradeOutcome.ofProfit (profit : Float) : TradeOutcome :=
  if 0.0 < profit then .win else if profit < 0.0 then .loss else .breakeven

/-- The levels before and after an outcome. -/
structure LevelTransition where
  before : Nat
  after : Nat
deriving DecidableEq, Repr

def LevelTransition.changed (t : LevelTransition) : Bool := t.before ≠ t.after

/-- A level that the ladder does not have. -/
structure LevelRefusal where
  requested : Nat
  size : Nat
deriving DecidableEq, Repr

def LevelRefusal.message (e : LevelRefusal) : String :=
  "level " ++ e.requested.repr ++ " is outside 1..=" ++ e.size.repr

/-- The state of the ladder. Levels count from zero. -/
structure Ladder where
  level : Nat
  lots : List Float
  rewardRatios : List Float
  paused : Bool
  /-- The level that the last skip chose, until the next outcome. -/
  pendingSkip : Option Nat
deriving DecidableEq

namespace Ladder

/-- The bottom of a ladder. -/
def start (s : LadderSettings) : Ladder := ⟨0, s.lots, s.rewardRatios, false, none⟩

/-- A ladder for valid tables. -/
def new (s : LadderSettings) : Except SettingsError Ladder := s.validate.map fun _ => start s

/-- The number of levels. -/
def size (l : Ladder) : Nat := l.lots.length

/-- The nearest level that the ladder has. -/
def clamp (l : Ladder) (level : Nat) : Nat := min level (l.size - 1)

/-- The lots of a level, zero while paused. -/
def lotsAt (l : Ladder) (level : Nat) : Float :=
  if l.paused then 0.0 else l.lots[l.clamp level]?.getD 0.0

/-- The reward-to-risk ratio of a level, paused or not. -/
def rewardRatioAt (l : Ladder) (level : Nat) : Float := l.rewardRatios[l.clamp level]?.getD 0.0

def lotSize (l : Ladder) : Float := l.lotsAt l.level

def rewardRatio (l : Ladder) : Float := l.rewardRatioAt l.level

/-- Stops new exposure. -/
def pause (l : Ladder) : Ladder := { l with paused := true }

/-- Allows new exposure. -/
def resume (l : Ladder) : Ladder := { l with paused := false }

/-- Jumps to a level counted from one, if the ladder has it. -/
def skipTo (l : Ladder) (level : Nat) : Except LevelRefusal Ladder :=
  if level = 0 ∨ l.size < level then .error ⟨level, l.size⟩
  else .ok { l with level := level - 1, pendingSkip := some (level - 1) }

/-- One level up, as far as there is one. -/
def advance (l : Ladder) : Ladder := { l with level := l.clamp (l.level + 1), pendingSkip := none }

/-- Back to the bottom. -/
def reset (l : Ladder) : Ladder := { l with level := 0, pendingSkip := none }

def hold (l : Ladder) : Ladder := { l with pendingSkip := none }

/-- The ladder after an outcome. -/
def applyOutcome (l : Ladder) : TradeOutcome → Ladder
  | .loss => l.advance
  | .win => l.reset
  | .breakeven => l.hold

/-- The move from one ladder to the next. -/
def transition (old new : Ladder) : LevelTransition := ⟨old.level, new.level⟩

/-! ## What the operations keep -/

@[simp] theorem lots_applyOutcome (l : Ladder) (o : TradeOutcome) :
    (l.applyOutcome o).lots = l.lots := by
  cases o <;> rfl

@[simp] theorem rewardRatios_applyOutcome (l : Ladder) (o : TradeOutcome) :
    (l.applyOutcome o).rewardRatios = l.rewardRatios := by
  cases o <;> rfl

@[simp] theorem paused_applyOutcome (l : Ladder) (o : TradeOutcome) :
    (l.applyOutcome o).paused = l.paused := by
  cases o <;> rfl

@[simp] theorem pendingSkip_applyOutcome (l : Ladder) (o : TradeOutcome) :
    (l.applyOutcome o).pendingSkip = none := by
  cases o <;> rfl

/-- A skip succeeds on the levels from one to the size. -/
theorem skipTo_eq_ok {l l2 : Ladder} {level : Nat} :
    l.skipTo level = .ok l2 ↔ 1 ≤ level ∧ level ≤ l.size ∧
      l2 = { l with level := level - 1, pendingSkip := some (level - 1) } := by
  unfold skipTo
  split
  · next h => exact ⟨nofun, fun h2 => absurd h2.1 (by omega)⟩
  · next h =>
    rw [Except.ok.injEq]
    exact ⟨fun h2 => ⟨by omega, by omega, h2.symm⟩, fun h2 => h2.2.2.symm⟩

/-- Every lot size of a paused ladder is zero. -/
theorem lotsAt_of_paused {l : Ladder} (h : l.paused = true) (level : Nat) :
    l.lotsAt level = 0.0 := by
  rw [lotsAt, if_pos h]

end Ladder

end TrendLadder
