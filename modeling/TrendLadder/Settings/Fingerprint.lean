import TrendLadder.Digest.Blake3
import TrendLadder.Document.Json.Writer
import TrendLadder.Settings.Codec

/-!
# Fingerprints

The fingerprint of settings is the digest of their canonical text. Stored state can be keyed by
it: identical settings have the same fingerprint.
-/

namespace TrendLadder.Settings

/-- The canonical text: the document form without blanks. -/
def canonical (s : Settings) : String := Json.write s.encode

/-- The digest of the canonical text. -/
def fingerprint (s : Settings) : String := Blake3.hex s.canonical

end TrendLadder.Settings
