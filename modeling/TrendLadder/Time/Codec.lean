import TrendLadder.Document.Value
import TrendLadder.Time.Timestamp

/-!
# Timestamps in documents

A timestamp is the text that `Timestamp.write` gives it.
-/

namespace TrendLadder.Timestamp

def encode (t : Timestamp) : Value := .text t.write

def decode (v : Value) : Option Timestamp := v.text?.bind read

end TrendLadder.Timestamp
