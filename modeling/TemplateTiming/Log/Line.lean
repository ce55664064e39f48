import TemplateTiming.Log.Event
import TemplateTiming.Report

/-! The lines of a log. A text line shows the time, the level and the message, with the controls escaped that
could steer a terminal; a JSON line holds the same as an object. The time always has six digits behind the
second. -/

namespace TemplateTiming.Log

/-- A point in time to the microsecond, rounded down. -/
def stamp (t : Instant) : List Char :=
  (Date.ofDays (t.second / 86400)).text ++ ['T'] ++ Instant.clockText (t.second % 86400).toNat 0 ++ ['.']
    ++ Decimal.padded 6 (t.nano % 1000000000 / 1000) ++ ['Z']

/-- The level, to a width of five. -/
def levelText (l : LogLevel) : List Char :=
  List.replicate (5 - l.name.toList.length) ' ' ++ l.name.toList

/-- A character of a message in a text line. -/
def escapeControl (c : Char) : List Char :=
  if c = '\x07' ∨ c = '\x08' ∨ c = '\x0c' ∨ c = '\x1b' ∨ c = '\x7f' then
    ['\\', 'x', Quoted.hexDigit false (c.toNat / 16), Quoted.hexDigit false (c.toNat % 16)]
  else if 0x80 ≤ c.toNat ∧ c.toNat ≤ 0x9F then
    ['\\', 'u', Char.ofNat 0x7B] ++ Quoted.hexDigits c.toNat ++ [Char.ofNat 0x7D]
  else [c]

/-- The message of an event as a line shows it. -/
def shownMessage (format : ReportFormat) (e : LogEvent) : List Char :=
  match format with
  | .text => e.message.toList.flatMap escapeControl
  | .json => e.message.toList

def line (format : ReportFormat) (t : Instant) (e : LogEvent) : String :=
  match format with
  | .text => String.ofList (stamp t ++ [' '] ++ levelText e.level ++ [' '] ++ shownMessage format e)
  | .json =>
    let fields := Json.writeObject [("message".toList, Json.writeString (shownMessage format e))]
    String.ofList (Json.writeObject [("timestamp".toList, Json.writeString (stamp t)),
      ("level".toList, Json.writeString e.level.name.toList), ("fields".toList, fields)])

end TemplateTiming.Log
