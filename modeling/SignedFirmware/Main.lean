import SignedFirmware.Command.Program
import Std.Time.DateTime.Timestamp

/-!
# Running the program on a machine

The surroundings of the program on a real machine, and its entry point. Nothing is decided here.
-/

namespace SignedFirmware

/-- A machine, with the messages that are wanted on it. -/
abbrev Machine := StateT (Option Log.Filter) IO

namespace Machine

/-- The result of reading something, or why it does not read. -/
def attempt {α : Type} (action : IO α) : IO (Except ReadFailure α) := do
  try
    let a ← action
    pure (.ok a)
  catch e =>
    match e with
    | .noFileOrDirectory .. => pure (.error .missing)
    | _ => pure (.error .unreadable)

def readBytes (path : String) : IO (Except ReadFailure Bytes) := attempt do
  let data ← IO.FS.readBinFile path
  pure data.toList

/-- The size of a file. What is there but does not read has no bytes. -/
def sizeOf (path : String) : IO (Option Nat) := do
  match ← readBytes path with
  | .ok data => pure (some data.length)
  | .error .missing => pure none
  | .error .unreadable => pure (some 0)

def writeBytes (path : String) (data : Bytes) : IO Bool := do
  try
    IO.FS.writeBinFile path ⟨data.toArray⟩
    pure true
  catch _ => pure false

def clock : IO Instant := do
  let now ← Std.Time.Timestamp.now
  pure ⟨now.toNanosecondsSinceUnixEpoch.val.toNat⟩

instance : Host Machine where
  size path := sizeOf path
  read path := readBytes path
  write path data := writeBytes path data
  lookup name := IO.getEnv name
  now := clock
  random n := do
    let drawn ← IO.getRandomBytes (USize.ofNat n)
    pure drawn.toList
  print text := IO.println text
  report text := IO.eprintln text
  overflow := pure .wraps
  wanted := get
  want filter := set (some filter)

end Machine

end SignedFirmware

/-- Runs the program with the words of a command line. -/
def main (words : List String) : IO UInt32 := do
  let program : SignedFirmware.Machine SignedFirmware.Command.Ending :=
    SignedFirmware.Command.program words
  let (ending, _) ← program.run none
  pure (UInt32.ofNat ending.status)
