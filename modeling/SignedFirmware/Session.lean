import SignedFirmware.Host

/-!
# Model surroundings

Surroundings for a program that are a value: a directory of files without others in it, variables, a
clock that stands still, and random bytes that repeat. A command run in a session yields what it
would leave behind.
-/

namespace SignedFirmware

/-- Model surroundings, with what a program has written so far. -/
structure Session where
  files : List (String × Bytes) := []
  environment : List (String × String) := []
  clock : Instant := ⟨0⟩
  /-- The bytes that are drawn, over and over. -/
  randomness : UInt8 := 0
  overflow : Overflow := .wraps
  /-- The messages that are wanted, if any are. -/
  filter : Option Log.Filter := none
  /-- The lines of results, the latest first. -/
  printed : List String := []
  /-- The lines about what happened, the latest first. -/
  reported : List String := []

namespace Session

/-- What a path leads to. -/
inductive Place where
  /-- A file of the directory, which may or may not be there. -/
  | file (name : String)
  /-- The directory. -/
  | directory
  /-- Nothing, for a directory on the way is not there. -/
  | nowhere
  deriving DecidableEq, Repr

/-- The most bytes that the name of a file may have. -/
def maxNameSize : Nat := 255

/-- What a path leads to. -/
def place (path : String) : Place :=
  let parts := path.splitOn "/"
  match parts.filter fun part ↦ part != "" && part != "." with
  | [] => if path = "" then .nowhere else .directory
  | [name] =>
    if path.startsWith "/" ∨ parts.getLast? ≠ some name ∨ maxNameSize < name.utf8ByteSize ∨
        name.contains '\x00' then .nowhere
    else if name = ".." then .directory
    else .file name
  | _ => .nowhere

def directorySize : Nat := 4096

/-- The size of what a path leads to. -/
def size (s : Session) (path : String) : Option Nat :=
  match place path with
  | .file name => (s.files.lookup name).map List.length
  | .directory => some directorySize
  | .nowhere => none

def read (s : Session) (path : String) : Except ReadFailure Bytes :=
  match place path with
  | .file name =>
    match s.files.lookup name with
    | some data => .ok data
    | none => .error .missing
  | .directory => .error .unreadable
  | .nowhere => .error .missing

/-- Makes a file hold some bytes, if the path leads to a file. -/
def write (s : Session) (path : String) (data : Bytes) : Bool × Session :=
  match place path with
  | .file name =>
    let files :=
      if s.files.any (·.1 == name) then
        s.files.map fun (n, old) ↦ (n, if n == name then data else old)
      else s.files ++ [(name, data)]
    (true, { s with files })
  | _ => (false, s)

instance : Host (StateM Session) where
  size path := do return (← get).size path
  read path := do return (← get).read path
  write path data := modifyGet fun s ↦ s.write path data
  lookup name := do return (← get).environment.lookup name
  now := do return (← get).clock
  random n := do return List.replicate n (← get).randomness
  print text := modify fun s ↦ { s with printed := text :: s.printed }
  report text := modify fun s ↦ { s with reported := text :: s.reported }
  overflow := do return (← get).overflow
  wanted := do return (← get).filter
  want filter := modify fun s ↦ { s with filter := some filter }

/-- Lines, the latest of which comes first, as one text. -/
def joinLines (lines : List String) : String := String.join (lines.reverse.map (· ++ "\n"))

/-- The results that were written. -/
def output (s : Session) : String := joinLines s.printed

/-- What was written about what happened. -/
def reports (s : Session) : String := joinLines s.reported

/-- The files that are not as they were. -/
def changedSince (s before : Session) : List (String × Bytes) :=
  s.files.filter fun (name, data) ↦ before.files.lookup name != some data

end Session

end SignedFirmware
