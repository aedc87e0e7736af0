import SignedFirmware.Blob.Error
import SignedFirmware.Host
import SignedFirmware.Toml.Document

/-!
# Configuration

A configuration file sets the policy of verifications and the largest input file. Every setting has
a default, so that an empty file changes nothing. Settings that do not exist are an error, as are
values of the wrong kind.
-/

namespace SignedFirmware

namespace Config

structure Verify where
  partialChain : Bool := true
  checkTime : Bool := false
  purpose : Trust.Purpose := .any
  maxDepth : Nat := 100
  deriving DecidableEq, Repr

structure Limits where
  /-- The largest input file. -/
  maxInputSize : Nat := Blob.maxInputSize
  deriving DecidableEq, Repr

end Config

structure Config where
  verify : Config.Verify := {}
  limits : Config.Limits := {}
  deriving DecidableEq, Repr

namespace Config

/-- The file that is read if none is named. -/
def defaultPath : String := "fwpkcs7.toml"

/-- Why there is no configuration. -/
inductive Error where
  /-- The file does not read, or is no text. -/
  | read (path : String)
  /-- The text is no configuration. -/
  | parse (path : String)
  /-- A chain would have no room for the certificate of the signer. -/
  | noDepth
  deriving DecidableEq, Repr

def Error.message : Error → String
  | .read path => s!"Failed to read config: {Text.quoted path}"
  | .parse path => s!"Failed to parse config: {Text.quoted path}"
  | .noDepth => "max_depth must be at least 1"

/-! ## Reading values -/

open Toml (Value Entries)

/-- The values of the settings with the given names. They stand in a table under their names, or in
an array in their order, with more behind them that does not matter. -/
def settings? (names : List String) : Value → Option (List (Option Value))
  | .table _ es =>
    if es.all fun (key, _) ↦ names.contains key then some (names.map fun name ↦ es.lookup name)
    else none
  | .array items => some (names.zipIdx.map fun (_, i) ↦ items[i]?)
  | .tables items => some (names.zipIdx.map fun (_, i) ↦ (items[i]?).map (Value.table .header))
  | _ => none

/-- The value of a setting that may be absent. -/
def valueOr {α : Type} (otherwise : α) (decode : Value → Option α) : Option Value → Option α
  | none => some otherwise
  | some v => decode v

def flag? : Value → Option Bool
  | .boolean b => some b
  | _ => none

def count? : Value → Option Nat
  | .integer (.ofNat n) => some n
  | _ => none

def purposes : List (String × Trust.Purpose) :=
  [("any", .any), ("smime_sign", .smimeSign), ("code_signing", .codeSigning)]

def isEmpty : Value → Bool
  | .table _ [] | .array [] | .tables [] => true
  | _ => false

/-- Reads a purpose: its name, or a table with nothing but its name and an empty value. -/
def purpose? : Value → Option Trust.Purpose
  | .string name => purposes.lookup name
  | .table _ [(name, v)] => if isEmpty v then purposes.lookup name else none
  | _ => none

def verify? (v : Value) : Option Verify := do
  match ← settings? ["partial_chain", "check_time", "purpose", "max_depth"] v with
  | [partialChain, checkTime, purpose, maxDepth] =>
    let partialChain ← valueOr true flag? partialChain
    let checkTime ← valueOr false flag? checkTime
    let purpose ← valueOr .any purpose? purpose
    let maxDepth ← valueOr 100 count? maxDepth
    pure { partialChain, checkTime, purpose, maxDepth }
  | _ => none

def limits? (v : Value) : Option Limits := do
  match ← settings? ["max_input_size"] v with
  | [maxInputSize] =>
    let maxInputSize ← valueOr Blob.maxInputSize count? maxInputSize
    pure { maxInputSize }
  | _ => none

def ofEntries? (es : Entries) : Option Config := do
  match ← settings? ["verify", "limits"] (.table .header es) with
  | [verify, limits] =>
    let verify ← valueOr {} verify? verify
    let limits ← valueOr {} limits? limits
    pure { verify, limits }
  | _ => none

/-! ## Reading files -/

/-- The configuration that a text holds. -/
def parse (path text : String) : Except Error Config :=
  match (Toml.parse? text).bind ofEntries? with
  | none => .error (.parse path)
  | some c => if c.verify.maxDepth = 0 then .error .noDepth else .ok c

/-- The configuration in a file. If none is named, there need not be one. -/
def load {m : Type → Type} [Monad m] [Host m] (path : Option String) :
    m (Except Error Config) := do
  let file := path.getD defaultPath
  match ← Host.read file with
  | .error .missing =>
    -- only the default file may be missing
    if path.isNone then
      narrate fun _ ↦ [⟨.debug, s!"No config at {Text.quoted file}, using defaults"⟩]
      pure (.ok {})
    else pure (.error (.read file))
  | .error .unreadable => pure (.error (.read file))
  | .ok data =>
    match Bytes.toText? data with
    | none => pure (.error (.read file))
    | some text =>
      narrate fun _ ↦ [⟨.debug, s!"Loading config from {Text.quoted file}"⟩]
      pure (parse file text)

/-! ## Using settings -/

def policy (c : Config) : Trust.Policy :=
  { partialChain := c.verify.partialChain
    ignoreTime := !c.verify.checkTime
    purpose := c.verify.purpose
    maxDepth := c.verify.maxDepth }

/-- The largest input file, within what the library accepts. -/
def maxInputSize (c : Config) : Nat := min c.limits.maxInputSize Blob.maxInputSize

end Config

end SignedFirmware
