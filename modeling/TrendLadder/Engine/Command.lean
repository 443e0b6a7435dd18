import TrendLadder.Ladder
import TrendLadder.Pattern

/-!
# Operator commands

What an operator can tell the engine, and what became of it. A refused command changes nothing.
-/

namespace TrendLadder

/-- An action of the operator. -/
inductive Command where
  | pause
  | resume
  /-- Jump to a level of the ladder, counted from one. -/
  | skipToLevel (level : Nat)
  /-- Move the lower bound of the body of a golden candle. -/
  | adjustMinSize (size : Float)
  /-- Let the signal of the next evaluation pass. -/
  | ignoreAlert
deriving DecidableEq

/-- Why a command was refused. -/
inductive CommandError where
  | levelOutOfRange (refusal : LevelRefusal)
  | invalidSize (size : Float) (reason : SizeRefusal)
deriving DecidableEq

def CommandError.message : CommandError → String
  | .levelOutOfRange refusal => refusal.message
  | .invalidSize size reason =>
    "minimum candle size " ++ Number.text size ++ " is invalid: " ++ reason.message

/-- What became of a command. -/
inductive CommandStatus where
  | applied
  /-- Valid, but already in effect. -/
  | unchanged
  | rejected (error : CommandError)
deriving DecidableEq

def CommandStatus.isRejected : CommandStatus → Bool
  | .rejected _ => true
  | _ => false

/-- A command with its status. -/
structure CommandOutcome where
  command : Command
  status : CommandStatus
deriving DecidableEq

end TrendLadder
