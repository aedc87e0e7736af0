import SignedFirmware.Log

/-!
# The surroundings of a program

What the commands of this library need from the outside: files, variables, a clock, random bytes,
and two places to write lines to. Commands are written for any surroundings, so that the same
command runs on a real system and on a model of one.
-/

namespace SignedFirmware

/-- Why a file was not read. -/
inductive ReadFailure where
  | missing
  /-- There is something, but it does not read. -/
  | unreadable
  deriving DecidableEq, Repr

/-- What becomes of a product that does not fit into 64 bits. That is settled when the program is
built. -/
inductive Overflow where
  /-- Only the low bits are kept, as in a build without overflow checks. -/
  | wraps
  /-- The program breaks off, as in a build with overflow checks. -/
  | breaksOff
  deriving DecidableEq, Repr

/-- The surroundings of a program. -/
class Host (m : Type → Type) where
  /-- The size of a file, or of whatever has that name. -/
  size : String → m (Option Nat)
  read : String → m (Except ReadFailure Bytes)
  /-- Makes a file hold some bytes. The result says whether that went well. -/
  write : String → Bytes → m Bool
  /-- The value of a variable of the environment, if it is set to some text. -/
  lookup : String → m (Option String)
  now : m Instant
  /-- The given number of random bytes. -/
  random : Nat → m Bytes
  /-- Writes a line of results. -/
  print : String → m Unit
  /-- Writes a line about what happens. -/
  report : String → m Unit
  /-- How the program was built. -/
  overflow : m Overflow
  /-- The messages that are wanted, if any are. -/
  wanted : m (Option Log.Filter)
  /-- Asks for messages from now on. -/
  want : Log.Filter → m Unit

/-- A program that may fail has the surroundings of one that does not. -/
instance {ε : Type} {m : Type → Type} [Monad m] [Host m] : Host (ExceptT ε m) where
  size path := ExceptT.lift (Host.size path)
  read path := ExceptT.lift (Host.read path)
  write path data := ExceptT.lift (Host.write path data)
  lookup name := ExceptT.lift (Host.lookup name)
  now := ExceptT.lift Host.now
  random n := ExceptT.lift (Host.random n)
  print text := ExceptT.lift (Host.print text)
  report text := ExceptT.lift (Host.report text)
  overflow := ExceptT.lift Host.overflow
  wanted := ExceptT.lift Host.wanted
  want filter := ExceptT.lift (Host.want filter)

/-- Writes those messages that are wanted. They are only put together if any are. -/
def narrate {m : Type → Type} [Monad m] [Host m] (entries : Unit → List Log.Entry) : m Unit := do
  match ← Host.wanted with
  | none => pure ()
  | some filter =>
    let now ← Host.now
    ((entries ()).filter filter.passes).forM fun e ↦ Host.report (filter.layout.line now e)

end SignedFirmware
