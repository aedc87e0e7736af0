/-!
# Command lines

A command line is read against a description of the program: a tree of commands, each with its
options. An option has a long name and perhaps a letter, and takes one value or none. A value stands
behind an equals sign, right behind the letter, or as the next word, unless that looks like an
option.

Words are looked at one after the other, and the first one that does not fit decides what is wrong
with the line. A value is only checked when the option after it is seen, so a word that fits nowhere
is reported before a bad value in front of it. What a command line lacks is noticed last.
-/

namespace SignedFirmware.Command

/-! ## Descriptions -/

/-- What an option takes. -/
inductive OptionKind where
  /-- Nothing. -/
  | flag
  /-- A path, which is not empty. -/
  | path
  /-- Any text. -/
  | text
  /-- A natural number below 2^64. -/
  | number
  /-- One of the given words. -/
  | choice (words : List String)
  deriving DecidableEq, Repr

/-- An option. -/
structure OptionSpec where
  name : String
  kind : OptionKind
  letter : Option Char := none
  isRequired : Bool := false
  isRepeatable : Bool := false
  /-- Of the options of one group, at most one may be given. -/
  group : Option String := none
  /-- Another option that has to be given with this one. -/
  companion : Option String := none
  deriving DecidableEq, Repr

/-- A command with its options and the commands below it. -/
inductive CommandSpec where
  | mk (name : String) (options : List OptionSpec) (hasVersion : Bool)
      (subcommands : List CommandSpec)

namespace CommandSpec

def name : CommandSpec → String
  | .mk name .. => name

def options : CommandSpec → List OptionSpec
  | .mk _ options .. => options

/-- Whether the version can be asked for. -/
def hasVersion : CommandSpec → Bool
  | .mk _ _ hasVersion _ => hasVersion

def subcommands : CommandSpec → List CommandSpec
  | .mk _ _ _ subcommands => subcommands

def find? (c : CommandSpec) (name : String) : Option CommandSpec :=
  c.subcommands.find? fun sub ↦ sub.name == name

end CommandSpec

/-! ## Results -/

/-- Why a command line is not carried out. -/
inductive UsageError where
  | missingRequiredArgument
  | unknownArgument
  | invalidSubcommand
  | missingSubcommand
  | invalidValue
  | tooManyValues
  | argumentConflict
  | valueValidation
  | displayHelp
  | displayVersion
  | displayHelpOnMissingArgumentOrSubcommand
  deriving DecidableEq, Repr

def UsageError.message : UsageError → String
  | .missingRequiredArgument => "a required option is missing"
  | .unknownArgument => "there is no such option, or a word too many"
  | .invalidSubcommand => "there is no such command"
  | .missingSubcommand => "a command is missing"
  | .invalidValue => "an option has no value or a wrong one"
  | .tooManyValues => "an option has a value but takes none"
  | .argumentConflict => "an option is given twice, or with one that it excludes"
  | .valueValidation => "the value of an option is no number"
  | .displayHelp | .displayVersion | .displayHelpOnMissingArgumentOrSubcommand =>
    "a command is missing"

/-- The options given to a command, with their values. A flag has the empty value. -/
abbrev Given := List (String × String)

/-- The names of the commands of a command line from the outermost to the innermost, and the
options given to each, the outermost first. -/
structure Matches where
  commands : List String
  given : List Given
  deriving DecidableEq, Repr

namespace Matches

/-- All values of an option, in order, of the innermost command that it was given to. -/
def values (m : Matches) (option : String) : List String :=
  let lists := m.given.map fun g ↦ (g.filter (·.1 == option)).map Prod.snd
  ((lists.reverse.find? (!·.isEmpty)).getD [])

def value? (m : Matches) (option : String) : Option String := (m.values option).head?

def has (m : Matches) (option : String) : Bool := !(m.values option).isEmpty

end Matches

/-! ## Values -/

/-- Numbers are below this. -/
def numberLimit : Nat := 0x10000000000000000

/-- A natural number in decimal digits, perhaps with a plus sign. -/
def number? (s : String) : Option Nat :=
  let digits := match s.toList with
    | '+' :: rest => rest
    | digits => digits
  if digits = [] ∨ digits.any (fun c ↦ !c.isDigit) then none
  else
    let n := digits.foldl (fun n c ↦ 10 * n + (c.toNat - '0'.toNat)) 0
    if n < numberLimit then some n else none

def checkValue (kind : OptionKind) (v : String) : Except UsageError Unit :=
  match kind with
  | .flag | .text => .ok ()
  | .path => if v = "" then .error .invalidValue else .ok ()
  | .number => if (number? v).isSome then .ok () else .error .valueValidation
  | .choice words => if words.contains v then .ok () else .error .invalidValue

/-! ## Reading -/

/-- How far the words of one command have been read. -/
structure Progress where
  given : Given := []
  /-- An option whose value has not been checked, or not even been seen. -/
  pending : Option (OptionSpec × Option String) := none
  /-- Whether two dashes ended the options. -/
  isClosed : Bool := false

namespace Progress

/-- Takes down an option with its value. An option that takes none has the empty value. -/
def give (p : Progress) (o : OptionSpec) (v : Option String) : Except UsageError Progress := do
  let v ← match v with
    | some v => pure v
    | none => if o.kind = .flag then pure "" else throw .invalidValue
  -- that an option is given twice is told before what is wrong with its value
  if !o.isRepeatable && p.given.any (·.1 == o.name) then throw .argumentConflict
  checkValue o.kind v
  pure { p with given := p.given ++ [(o.name, v)] }

/-- Takes down the option that is still pending. -/
def settle (p : Progress) : Except UsageError Progress :=
  match p.pending with
  | none => .ok p
  | some (o, v) => give { p with pending := none } o v

/-- Whether the next word is the value of an option. -/
def isWaiting (p : Progress) : Bool :=
  match p.pending with
  | some (_, none) => true
  | _ => false

/-- Meets an option, which may have its value with it. -/
def meet (p : Progress) (o : OptionSpec) (v : Option String) : Except UsageError Progress := do
  let p ← p.settle
  match v with
  | some _ => p.give o v
  | none => if o.kind = .flag then p.give o none else pure { p with pending := some (o, none) }

end Progress

/-- Asking for help or for the version, which settles everything. -/
def answer (p : Progress) (e : UsageError) : Except UsageError Progress := do
  let _ ← p.settle
  throw e

/-- Reads a word that starts with two dashes, without these. -/
def readLong (c : CommandSpec) (p : Progress) (w : List Char) : Except UsageError Progress :=
  let name := String.ofList (w.takeWhile (· != '='))
  let value := match w.dropWhile (· != '=') with
    | [] => none
    | _ :: value => some (String.ofList value)
  match c.options.find? (·.name == name) with
  | some o =>
    if o.kind = .flag ∧ value.isSome then .error .tooManyValues else p.meet o value
  | none =>
    if name = "help" ∨ name = "version" ∧ c.hasVersion then
      if value.isSome then .error .tooManyValues
      else answer p (if name = "help" then .displayHelp else .displayVersion)
    else .error .unknownArgument

/-- Reads the letters of a word that starts with one dash, without this. -/
def readLetters (c : CommandSpec) (p : Progress) : List Char → Except UsageError Progress
  | [] => .ok p
  | letter :: rest =>
    match c.options.find? (·.letter == some letter) with
    | some o =>
      if o.kind = .flag then do
        let p ← p.meet o none
        readLetters c p rest
      else
        match rest with
        | [] => p.meet o none
        | '=' :: value => p.meet o (some (String.ofList value))
        | value => p.meet o (some (String.ofList value))
    | none =>
      if letter = 'h' then answer p .displayHelp
      else if letter = 'V' ∧ c.hasVersion then answer p .displayVersion
      else .error .unknownArgument

/-- The answer to a word that is neither an option nor a value. -/
def unexpected (c : CommandSpec) (p : Progress) (w : String) : UsageError :=
  if c.subcommands.isEmpty then .unknownArgument
  else if p.isClosed ∧ (w = "help" ∨ (c.find? w).isSome) then .unknownArgument
  else .invalidSubcommand

/-- The answer to a request for help on a command, which is named by the words after it. -/
def help (c : CommandSpec) : List String → UsageError
  | [] => .displayHelp
  | w :: rest =>
    match c.find? w with
    | some sub => help sub rest
    | none =>
      if w = "help" ∧ !c.subcommands.isEmpty ∧ rest = [] then .displayHelp else .invalidSubcommand

/-- Whether two options may not be given together. -/
def areRivals (a b : OptionSpec) : Bool := a.name != b.name && a.group.isSome && a.group == b.group

/-- Checks that no two options of a group were given, and that all options were given that are
required or belong to others. -/
def checkGiven (c : CommandSpec) (given : Given) : Except UsageError Unit :=
  let has (name : String) : Bool := given.any (·.1 == name)
  let options := c.options.filter fun o ↦ has o.name
  if options.any fun a ↦ options.any (areRivals a) then .error .argumentConflict
  else if c.options.any (fun o ↦ o.isRequired && !has o.name) ∨
      options.any (fun o ↦ o.companion.any fun name ↦ !has name) then
    .error .missingRequiredArgument
  else .ok ()

/-- Ends the reading of a command, given what was read of the command below it. -/
def finish (c : CommandSpec) (p : Progress) (inner : Option Matches) :
    Except UsageError Matches := do
  let p ← p.settle
  if inner.isNone && !c.subcommands.isEmpty then
    throw (if p.given.isEmpty then .displayHelpOnMissingArgumentOrSubcommand
      else .missingSubcommand)
  checkGiven c p.given
  match inner with
  | none => pure ⟨[], [p.given]⟩
  | some m => pure ⟨m.commands, p.given :: m.given⟩

/-- Reads the words of a command. -/
def readWords (c : CommandSpec) (p : Progress) : List String → Except UsageError Matches
  | [] => finish c p none
  | w :: rest =>
    if p.isClosed then .error (unexpected c p w)
    else
      match w.toList with
      -- two dashes alone end the options
      | '-' :: '-' :: [] => readWords c { p with isClosed := true } rest
      | '-' :: '-' :: long => do
        let p ← readLong c p long
        readWords c p rest
      | '-' :: x :: letters => do
        let p ← readLetters c p (x :: letters)
        readWords c p rest
      -- one dash alone is a word like any other
      | _ =>
        if p.isWaiting then
          readWords c { p with pending := p.pending.map fun (o, _) ↦ (o, some w) } rest
        else
          match c.find? w with
          | some sub => do
            let m ← readWords sub {} rest
            finish c p (some { m with commands := sub.name :: m.commands })
          | none =>
            if w = "help" ∧ !c.subcommands.isEmpty then .error (help c rest)
            else .error (unexpected c p w)

/-- Reads a command line without the name of the program. -/
def readCommandLine (c : CommandSpec) (words : List String) : Except UsageError Matches :=
  readWords c {} words

end SignedFirmware.Command
