import SignedFirmware.Bytes
import SignedFirmware.Calendar

/-!
# Messages

What a program says about what it does, apart from its results. A message has a level, and a filter
says which levels are wanted and how messages are laid out as lines.
-/

namespace SignedFirmware.Log

/-! ## Levels -/

/-- How important a message is. -/
inductive Level where
  | trace
  | debug
  | info
  | warn
  | error
  deriving DecidableEq, Repr, Inhabited

namespace Level

/-- All levels, the least important first. -/
def all : List Level := [.trace, .debug, .info, .warn, .error]

/-- The name on the command line. -/
def name : Level → String
  | .trace => "trace"
  | .debug => "debug"
  | .info => "info"
  | .warn => "warn"
  | .error => "error"

/-- The name in front of messages. -/
def label : Level → String
  | .trace => "TRACE"
  | .debug => "DEBUG"
  | .info => "INFO"
  | .warn => "WARN"
  | .error => "ERROR"

/-- The place in the order of importance. -/
def rank : Level → Nat
  | .trace => 0
  | .debug => 1
  | .info => 2
  | .warn => 3
  | .error => 4

end Level

structure Entry where
  level : Level
  text : String
  deriving DecidableEq, Repr

/-! ## Layouts -/

/-- How messages are laid out. -/
inductive Layout where
  /-- Level and text. -/
  | short
  /-- Also the time. -/
  | medium
  /-- Also which program the message comes from. -/
  | long
  /-- One object a line. -/
  | json
  deriving DecidableEq, Repr, Inhabited

/-- A number with zeros in front, up to the given width. -/
def zeroPadded (width n : Nat) : String :=
  let digits := Nat.toDigits 10 n
  String.ofList (List.replicate (width - digits.length) '0' ++ digits)

/-- A reading of the clock to the microsecond. -/
def timeText (now : Instant) : String :=
  match DateTime.ofUnix? now.seconds with
  | none => ""
  | some t =>
    let date := "-".intercalate [zeroPadded 4 t.year, zeroPadded 2 t.month, zeroPadded 2 t.day]
    let time := ":".intercalate ([t.hour, t.minute, t.second].map (zeroPadded 2))
    s!"{date}T{time}.{zeroPadded 6 (now.nanoseconds / 1000 % 1000000)}Z"

/-- One character of a quoted text within an object. -/
def objectChar (c : Char) : List Char :=
  if c = '"' ∨ c = '\\' then ['\\', c]
  else if c.toNat < 0x20 then "\\u00".toList ++ Bytes.toHexChars [UInt8.ofNat c.toNat]
  else [c]

/-- A quoted text within an object. -/
def objectText (s : String) : String := "\"" ++ String.ofList (s.toList.flatMap objectChar) ++ "\""

namespace Layout

/-- The name on the command line. -/
def name : Layout → String
  | .short => "short"
  | .medium => "medium"
  | .long => "long"
  | .json => "json"

def all : List Layout := [.short, .medium, .long, .json]

/-- A message as a line. Levels take up five characters, so that texts begin in one column. -/
def line (l : Layout) (now : Instant) (e : Entry) : String :=
  let label := e.level.label
  let level := String.ofList (List.replicate (5 - label.length) ' ') ++ label
  match l with
  | .short => s!"{level} {e.text}"
  | .medium => s!"{timeText now} {level} {e.text}"
  | .long => s!"{timeText now} {level} fwpkcs7: {e.text}"
  | .json =>
    "\x7b\"timestamp\":" ++ objectText (timeText now) ++ ",\"level\":" ++ objectText label ++
      ",\"fields\":\x7b\"message\":" ++ objectText e.text ++ "\x7d\x7d"

end Layout

/-! ## Filters -/

/-- Which messages are wanted, and how they are laid out. -/
structure Filter where
  least : Level
  layout : Layout
  deriving DecidableEq, Repr

/-- Whether a message is wanted. -/
def Filter.passes (f : Filter) (e : Entry) : Bool := f.least.rank ≤ e.level.rank

end SignedFirmware.Log
