import TrendLadder.Document.Toml.Reader
import TrendLadder.Document.Toml.Writer
import TrendLadder.Settings.Codec
import TrendLadder.Settings.Faults

/-!
# Settings files

Settings are kept in TOML files. Reading one validates what it holds; writing can fail only on
an integer that the format cannot hold.
-/

namespace TrendLadder.Settings

/-- The valid settings of a file. -/
def ofToml (content : String) : Except SettingsError Settings :=
  match (Toml.read content).bind decode with
  | none => .error .notADocument
  | some s => s.validate.map fun _ => s

/-- The text of a file that holds the settings. -/
def toToml (s : Settings) : Except SettingsError String :=
  (Toml.write s.encode).elim (.error .notADocument) .ok

end TrendLadder.Settings
