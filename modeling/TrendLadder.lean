import TrendLadder.Main
import TrendLadder.Proofs.Engine.Alert
import TrendLadder.Proofs.Engine.Archive
import TrendLadder.Proofs.Engine.Commands
import TrendLadder.Proofs.Engine.Confidence
import TrendLadder.Proofs.Engine.Entry
import TrendLadder.Proofs.Engine.Exits
import TrendLadder.Proofs.Engine.Indicators
import TrendLadder.Proofs.Engine.Journal
import TrendLadder.Proofs.Engine.Noninterference
import TrendLadder.Proofs.Engine.Opening
import TrendLadder.Proofs.Engine.OpeningBar
import TrendLadder.Proofs.Engine.Rejection
import TrendLadder.Proofs.Engine.Restart
import TrendLadder.Proofs.Engine.Risk
import TrendLadder.Proofs.Engine.Sides
import TrendLadder.Proofs.Engine.Signal
import TrendLadder.Proofs.Engine.Status
import TrendLadder.Proofs.Engine.Terms
import TrendLadder.Proofs.Engine.Warmup
import TrendLadder.Proofs.Indicator.Crossover
import TrendLadder.Proofs.Indicator.Level
import TrendLadder.Proofs.Indicator.Rising
import TrendLadder.Proofs.Ladder
import TrendLadder.Proofs.Ledger.Lifecycle
import TrendLadder.Proofs.Mirror.Engine
import TrendLadder.Proofs.Replay
import TrendLadder.Proofs.Settings.File
import TrendLadder.Proofs.Settings.Overlay
import TrendLadder.Proofs.Signal.Compose
import TrendLadder.Proofs.Wire
import TrendLadder.Proofs.Pattern.Checks
import TrendLadder.Proofs.Engine.Admission
import TrendLadder.Proofs.Ledger.Atomic
import TrendLadder.Proofs.Replay.Spent
