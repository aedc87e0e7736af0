import SignedFirmware.Command.Help
import SignedFirmware.Command.Run

/-!
# The program

A run of the program from the words of its command line to the status that it ends with. Results go
to one place; messages, and complaints about the command line, to another.
-/

namespace SignedFirmware.Command

/-- How a run of the program ends. -/
inductive Ending where
  | success
  | failure
  /-- The command line could not be carried out. -/
  | misuse
  | crash
  deriving DecidableEq, Repr

/-- The status that tells an ending to whoever ran the program. -/
def Ending.status : Ending → Nat
  | .success => 0
  | .failure => 1
  | .misuse => 2
  | .crash => 101

variable {m : Type → Type} [Monad m] [Host m]

/-- Answers a command line that is not carried out. -/
def answerUsage : UsageError → m Ending
  | .displayHelp => do
    Host.print helpText
    pure .success
  | .displayVersion => do
    Host.print versionLine
    pure .success
  | .displayHelpOnMissingArgumentOrSubcommand => do
    Host.report helpText
    pure .misuse
  | e => do
    Host.report s!"error: {e.message}"
    pure .misuse

/-- Does what a command line asks for, and reports the failure if there is one. -/
def carryOut (i : Invocation) : m Ending := do
  Host.want i.filter
  match ← (run i : ExceptT Failure m Unit).run with
  | .ok () => pure .success
  | .error f =>
    if f.isCrash then do
      Host.report f.message
      pure .crash
    else do
      narrate fun _ ↦ [⟨.error, f.report⟩]
      pure .failure

def program (words : List String) : m Ending :=
  match Invocation.ofWords words with
  | .error e => answerUsage e
  | .ok i => carryOut i

end SignedFirmware.Command
