import TrendLadder.Document.Json.Writer
import TrendLadder.Engine.Codec
import TrendLadder.Market.Feed
import TrendLadder.Replay
import TrendLadder.Settings.File

/-!
# Command line

Three commands: one prints the standard settings as a file, one checks a settings file, and one
replays a candle file and prints a report for every candle. A command is a function of its
arguments and of the files that it names.
-/

namespace TrendLadder

/-- What a command is asked to do. -/
inductive Invocation where
  /-- Print the standard settings. -/
  | init
  /-- Check a settings file. -/
  | validate (config : String)
  /-- Replay a candle file, under standard settings where no settings file is given. -/
  | replay (candles : String) (config : Option String) (market : ReplaySettings)
      (signalsOnly : Bool)
deriving DecidableEq

/-- What a command prints and the code with which it ends. -/
structure Outcome where
  exitCode : Nat
  output : String
  errors : String
deriving DecidableEq, Repr

/-- Why a command failed, with the causes of that, each the cause of the one before. -/
structure Failure where
  summary : String
  causes : List String
deriving DecidableEq, Repr

/-- The contents of the files that can be read, by their names. -/
abbrev Files := String → Option String

/-! ## Arguments -/

/-- An option of the command line: its name and the text after the equals sign. -/
structure Argument where
  name : String
  value : Option String
deriving DecidableEq, Repr

namespace Argument

/-- Splits an argument at the first equals sign. -/
def split (s : List Char) : Argument :=
  let name := String.ofList (s.takeWhile (· ≠ '='))
  match s.dropWhile (· ≠ '=') with
  | [] => ⟨name, none⟩
  | _ :: value => ⟨name, some (String.ofList value)⟩

/-- Adds an option that is not among the others. -/
def add (a : Argument) (others : List Argument) : Option (List Argument) :=
  if (others.map Argument.name).contains a.name then none else some (a :: others)

/-- The options of a command: those in `flags` stand alone, those in `valued` have a value behind
an equals sign or in the next argument. No option occurs twice. -/
def readAll (valued flags : List String) : List String → Option (List Argument)
  | [] => some []
  | arg :: args =>
    match split arg.toList with
    | ⟨name, some value⟩ =>
      if valued.contains name then (readAll valued flags args).bind (add ⟨name, value⟩) else none
    | ⟨name, none⟩ =>
      if flags.contains name then (readAll valued flags args).bind (add ⟨name, none⟩)
      else if valued.contains name then
        match args with
        | value :: rest =>
          if value.startsWith "-" then none
          else (readAll valued flags rest).bind (add ⟨name, value⟩)
        | [] => none
      else none

/-- The value of an option. -/
def value? (args : List Argument) (name : String) : Option String :=
  (args.find? (·.name = name)).bind Argument.value

/-- The number that an option holds, or the one to take where it is left out. -/
def number (args : List Argument) (name : String) (absent : Float) : Option Float :=
  match value? args name with
  | some content => Literal.float? content
  | none => some absent

end Argument

namespace Invocation

open Argument

/-- The invocation that checks a settings file. -/
def validateArgs (args : List String) : Option Invocation := do
  let args ← readAll ["--config"] [] args
  return .validate (← value? args "--config")

/-- The invocation that replays a candle file. -/
def replayArgs (args : List String) : Option Invocation := do
  let args ← readAll ["--candles", "--config", "--balance", "--point", "--contract-size"]
    ["--signals-only"] args
  let candles ← value? args "--candles"
  let market : ReplaySettings := {
    balance := ← number args "--balance" ReplaySettings.standard.balance
    point := ← number args "--point" ReplaySettings.standard.point
    contractSize := ← number args "--contract-size" ReplaySettings.standard.contractSize }
  return .replay candles (value? args "--config") market
    (args.any (·.name = "--signals-only"))

/-- The invocation that a list of arguments asks for. -/
def ofArgs? : List String → Option Invocation
  | ["init"] => some .init
  | "validate" :: args => validateArgs args
  | "replay" :: args => replayArgs args
  | _ => none

/-- The names of the files that an invocation reads. -/
def fileNames : Invocation → List String
  | .init => []
  | .validate config => [config]
  | .replay candles config _ _ => candles :: config.toList

end Invocation

/-! ## Failures -/

namespace Failure

/-- What the system says of a file that it does not have. -/
def noSuchFile : String := "No such file or directory (os error 2)"

/-- A number with blanks in front of it, five characters wide. -/
def padded (n : Nat) : String := "".pushn ' ' (5 - n.repr.length) ++ n.repr

/-- The causes under their heading; several are numbered. -/
def causeLines : List String → List String
  | [] => []
  | [cause] => ["", "Caused by:", "    " ++ cause]
  | causes => "" :: "Caused by:" :: causes.mapIdx fun n cause => padded n ++ ": " ++ cause

def text (f : Failure) : String :=
  "\n".intercalate (("Error: " ++ f.summary) :: causeLines f.causes) ++ "\n"

end Failure

/-! ## Commands -/

/-- The settings of a file. -/
def loadSettings (files : Files) (name : String) : Except Failure Settings :=
  match files name with
  | none =>
    .error ⟨"invalid config " ++ name, ["read config file: " ++ name ++ ": " ++ Failure.noSuchFile]⟩
  | some content =>
    (Settings.ofToml content).mapError fun e => ⟨"invalid config " ++ name, [e.message]⟩

/-- What is printed for valid settings. -/
def summary (name : String) (s : Settings) : String :=
  let table (xs : List Float) : String := "[" ++ ", ".intercalate (xs.map Number.listed) ++ "]"
  "OK  " ++ name ++ "\n  fingerprint: " ++ s.fingerprint ++ "\n  ladder: " ++
    s.ladder.lots.length.repr ++ " levels, lots " ++ table s.ladder.lots ++ ", R:R " ++
    table s.ladder.rewardRatios ++ "\n"

/-- A failed condition on a number of the command line. -/
def requirePositive (name : String) (x : Float) : Except Failure Unit :=
  if 0.0 < x then .ok ()
  else .error ⟨name ++ " must be > 0 (got " ++ Number.text x ++ ")", []⟩

/-- The reports of a replay; none if the program stops. A file that cannot be opened fails twice, as
a table and as a file. -/
def replayReports (files : Files) (candles : String) (config : Option String)
    (market : ReplaySettings) : ExceptT Failure Option (List TickReport) := do
  requirePositive "--balance" market.balance
  requirePositive "--point" market.point
  let settings ← ExceptT.mk (some (config.elim (.ok .standard) (loadSettings files)))
  let engine ← ExceptT.adapt (fun e => ⟨e.message, []⟩) (Engine.build? settings)
  let some content := files candles
    | throw ⟨"open " ++ candles, [Failure.noSuchFile, Failure.noSuchFile]⟩
  match Candle.ofFile content with
  | [] => throw ⟨"no candles read from " ++ candles, []⟩
  | cs => return ((Replay.start market engine).run market cs).1

/-- The reports to print. -/
def selectReports (signalsOnly : Bool) (reports : List TickReport) : List TickReport :=
  reports.filter fun r => !signalsOnly || r.isEventful

/-- The lines of reports. -/
def reportLines (reports : List TickReport) : String :=
  String.join (reports.map fun r => Json.write r.encode ++ "\n")

/-- What an invocation prints, or why it fails; none if the program stops. -/
def Invocation.output (files : Files) : Invocation → ExceptT Failure Option String
  | .init => .mk (some ((Settings.toToml .standard).mapError fun e => ⟨e.message, []⟩))
  | .validate config => .mk (some ((loadSettings files config).map (summary config)))
  | .replay candles config market signalsOnly => do
    let reports ← replayReports files candles config market
    return reportLines (selectReports signalsOnly reports)

/-- Runs an invocation. A program that stops over a buffer has printed nothing. -/
def Invocation.run (files : Files) (i : Invocation) : Outcome :=
  match (i.output files).run with
  | some (.ok output) => ⟨0, output, ""⟩
  | some (.error failure) => ⟨1, "", failure.text⟩
  | none => ⟨101, "", "capacity overflow\n"⟩

/-- The commands and their options. -/
def usage : String :=
  "usage: init\n" ++
  "       validate --config FILE\n" ++
  "       replay --candles FILE [--config FILE] [--balance X] [--point X] [--contract-size X]" ++
  " [--signals-only]\n"

/-- Runs the command that the arguments ask for. -/
def runCommand (files : Files) (args : List String) : Outcome :=
  match Invocation.ofArgs? args with
  | some i => i.run files
  | none => ⟨2, "", usage⟩

end TrendLadder
