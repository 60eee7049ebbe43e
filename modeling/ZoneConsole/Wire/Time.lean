import ZoneConsole.Codec
import ZoneConsole.Timestamp.Reader
import ZoneConsole.Timestamp.Writer

/-!
# Timestamps in messages

A timestamp is written as a text. A text that is none is a complaint in the
words of the reader of timestamps.
-/

namespace ZoneConsole.Timestamp

/-- Timestamps as texts. -/
def codec : Codec Timestamp where
  encode t := .str t.write
  decode
    | .str s =>
      match read s.toList with
      | .ok t => .ok t
      | .error f => complain (.malformed f.message)
    | r => r.wrongType "an RFC 3339 formatted date and time string"

end ZoneConsole.Timestamp
