import SignedFirmware.Command.Invocation

/-!
# Help

The overview of the program's commands and their options, put together from the description that
command lines are read against.
-/

namespace SignedFirmware.Command

/-- What stands behind an option that takes a value. -/
def OptionKind.placeholder : OptionKind → String
  | .flag => ""
  | .path => " <FILE>"
  | .text => " <TEXT>"
  | .number => " <NUMBER>"
  | .choice words => " <" ++ "|".intercalate words ++ ">"

/-- An option as it is written, in brackets if it may be left out. -/
def OptionSpec.usage (o : OptionSpec) : String :=
  let letter := match o.letter with
    | none => ""
    | some c => s!"-{c}, "
  let text := s!"{letter}--{o.name}{o.kind.placeholder}"
  let text := if o.isRequired then text else s!"[{text}]"
  if o.isRepeatable then text ++ "..." else text

/-- The lines about a command, which other words stand in front of, and about those below it.
Options that were shown for a command above are not shown again. -/
def CommandSpec.usageLines (front : String) (shown : List OptionSpec) : CommandSpec → List String
  | .mk name options _ subcommands =>
    let words := front ++ name
    let own := options.filter (!shown.contains ·)
    words :: (own.map fun o ↦ s!"    {o.usage}") ++ below (words ++ " ") (shown ++ own) subcommands
where
  below (front : String) (shown : List OptionSpec) : List CommandSpec → List String
    | [] => []
    | c :: rest => usageLines front shown c ++ below front shown rest

def helpText : String := "\n".intercalate (programSpec.usageLines "" [])

end SignedFirmware.Command
