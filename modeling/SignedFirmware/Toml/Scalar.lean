import SignedFirmware.Calendar
import SignedFirmware.Text.Parser
import SignedFirmware.Toml.Value

/-!
# Words of configuration files

What stands on a line of a configuration file: blanks and comments, the four kinds of strings, keys,
and the values without others inside.
-/

namespace SignedFirmware.Toml

open Text Text.Parser

/-! ## Blanks -/

/-- Whether a character is a blank within a line. -/
def isSpace (c : Char) : Bool := c == ' ' || c == '\t'

/-- Whether a character may stand in a comment or a string: no control characters but the tab. -/
def isVisible (c : Char) : Bool := c == '\t' || (0x20 ≤ c.toNat && c.toNat ≠ 0x7f)

/-- Blanks within a line. -/
def spaces : Parser Unit := do
  let _ ← takeWhile isSpace

def newline : Parser Unit := char '\n' <|> word "\r\n"

/-- A comment, up to the end of the line. -/
def comment : Parser Unit := do
  char '#'
  let _ ← takeWhile isVisible

/-- Blanks, ends of lines and comments. -/
def anyBlanks : Parser Unit := do
  let _ ← many do
    let run ← takeWhile isSpace
    if run.isEmpty then comment <|> newline

/-! ## Strings -/

/-- The character that a number of hexadecimal digits stands for. -/
def ofHex? (digits : List Char) : Option Char :=
  let value (c : Char) : Nat := if c.isDigit then c.toNat - 48 else c.toLower.toNat - 87
  let n := digits.foldl (fun n c ↦ 16 * n + value c) 0
  if h : n.isValidChar then some (Char.ofNatAux n h) else none

def isHexDigit (c : Char) : Bool := c.isDigit || ('a' ≤ c.toLower && c.toLower ≤ 'f')

/-- What stands behind a backslash. -/
def escape : Parser Char := do
  let c ← satisfy fun _ ↦ true
  match c with
  | 'b' => pure '\x08'
  | 't' => pure '\t'
  | 'n' => pure '\n'
  | 'f' => pure '\x0c'
  | 'r' => pure '\r'
  | '"' => pure '"'
  | '\\' => pure '\\'
  | 'u' => do
    let digits ← exactly 4 isHexDigit
    ofOption (ofHex? digits)
  | 'U' => do
    let digits ← exactly 8 isHexDigit
    ofOption (ofHex? digits)
  | _ => failure

/-- Plain characters of a string with escapes, at least one. -/
def plainRun : Parser (List Char) := do
  let run ← takeWhile fun c ↦ isVisible c && c != '"' && c != '\\'
  if run.isEmpty then failure else pure run

/-- An escape as characters. -/
def escapeRun : Parser (List Char) := do
  char '\\'
  let c ← escape
  pure [c]

/-- A string on one line, with escapes. -/
def basicString : Parser String := do
  char '"'
  let parts ← many (plainRun <|> escapeRun)
  char '"'
  pure (String.ofList parts.flatten)

/-- A string on one line, without escapes. -/
def literalString : Parser String := do
  char '\''
  let run ← takeWhile fun c ↦ isVisible c && c != '\''
  char '\''
  pure (String.ofList run)

/-- The end of a line within a string. -/
def newlineRun : Parser (List Char) := do
  newline
  pure ['\n']

/-- A backslash at the end of a line, which swallows all blanks up to the next word. -/
def foldedLine : Parser (List Char) := do
  char '\\'
  spaces
  newline
  let _ ← many do
    let run ← takeWhile isSpace
    if run.isEmpty then newline
  pure []

/-- Up to two quotes within a string that three quotes end. -/
def looseQuotes (quote : Char) : Parser (List Char) := fun s ↦
  let n := (s.takeWhile (· == quote)).length
  if n = 1 ∨ n = 2 then some (List.replicate n quote, s.drop n) else none

/-- The end of a string that three quotes end. Up to two more belong to the string. -/
def closingQuotes (quote : Char) : Parser (List Char) := fun s ↦
  let n := (s.takeWhile (· == quote)).length
  if 3 ≤ n ∧ n ≤ 5 then some (List.replicate (n - 3) quote, s.drop n) else none

/-- The rest of a string on several lines. An end of line right behind the opening quotes does not
count. -/
def longString (quote : Char) (part : Parser (List Char)) : Parser String := do
  let _ ← optional newline
  let parts ← many (part <|> newlineRun <|> looseQuotes quote)
  let last ← closingQuotes quote
  pure (String.ofList (parts.flatten ++ last))

/-- Plain characters of a string without escapes, at least one. -/
def literalRun : Parser (List Char) := do
  let run ← takeWhile fun c ↦ isVisible c && c != '\''
  if run.isEmpty then failure else pure run

/-- A string of any kind. Three quotes are never an empty string and a quote. -/
def anyString : Parser String := fun s ↦
  if "\"\"\"".toList.isPrefixOf s then
    longString '"' (plainRun <|> escapeRun <|> foldedLine) (s.drop 3)
  else if "'''".toList.isPrefixOf s then longString '\'' literalRun (s.drop 3)
  else (basicString <|> literalString) s

/-! ## Keys -/

/-- Whether a character may stand in a key without quotes. -/
def isBareKey (c : Char) : Bool := c.isAlphanum || c == '_' || c == '-'

def keyPart : Parser String := do
  let bare ← takeWhile isBareKey
  if bare.isEmpty then basicString <|> literalString else pure (String.ofList bare)

/-- The most parts that a key may have, and the depth to which values may be nested. -/
def maxNesting : Nat := 79

/-- A key, by the path and the last part. -/
def key : Parser (List String × String) := do
  let parts ← separated (do spaces; let k ← keyPart; spaces; pure k) (char '.')
  match parts.getLast? with
  | some last => if parts.length ≤ maxNesting then pure (parts.dropLast, last) else failure
  | none => failure

/-! ## Numbers -/

/-- Digits, between which underscores may stand one at a time. -/
def digits (isDigit : Char → Bool) : Parser (List Char) := do
  let groups ← separated (do
    let group ← takeWhile isDigit
    if group.isEmpty then failure else pure group) (char '_')
  pure groups.flatten

/-- A sign, if there is one. -/
def sign : Parser Bool := (char '-' *> pure true) <|> (char '+' *> pure false) <|> pure false

/-- The value of digits. -/
def ofDigits (base : Nat) (ds : List Char) : Nat :=
  let value (c : Char) : Nat := if c.isDigit then c.toNat - 48 else c.toLower.toNat - 87
  ds.foldl (fun n c ↦ base * n + value c) 0

/-- Integers are numbers below this, and not below its negative. -/
def integerLimit : Int := 0x8000000000000000

/-- An integer that 64 bits with a sign can hold. -/
def checked (n : Int) : Parser Value :=
  if -integerLimit ≤ n ∧ n < integerLimit then pure (.integer n) else failure

/-- A decimal number without needless zeros. -/
def decimal : Parser (Bool × List Char) := do
  let negative ← sign
  let ds ← digits Char.isDigit
  if ds.length = 1 ∨ ds.head? ≠ some '0' then pure (negative, ds) else failure

def decimalInteger : Parser Value := do
  let (negative, ds) ← decimal
  let n := ofDigits 10 ds
  checked (if negative then -n else n)

/-- An integer to another base, behind a mark for the base. -/
def basedInteger (mark : String) (base : Nat) (isDigit : Char → Bool) : Parser Value := do
  word mark
  let ds ← digits isDigit
  checked (ofDigits base ds)

def exponent : Parser Unit := do
  let _ ← satisfy fun c ↦ c == 'e' || c == 'E'
  let _ ← sign
  let _ ← digits Char.isDigit

/-- The places behind a point, and an exponent if there is one. -/
def fraction : Parser Unit := do
  char '.'
  let _ ← digits Char.isDigit
  let _ ← optional exponent

/-- A number with a point or an exponent, or one that is none. -/
def float : Parser Value :=
  (do
    let _ ← decimal
    fraction <|> exponent
    pure .float) <|>
  (do
    let _ ← sign
    word "inf" <|> word "nan"
    pure .float)

/-! ## Dates and times -/

/-- A number of a fixed number of digits within a range. -/
def field (width low high : Nat) : Parser Nat := do
  let ds ← exactly width Char.isDigit
  let n := ofDigits 10 ds
  if low ≤ n ∧ n ≤ high then pure n else failure

def date : Parser Unit := do
  let year ← field 4 0 9999
  char '-'
  let month ← field 2 1 12
  char '-'
  let _ ← field 2 1 (DateTime.daysInMonth year month)

def time : Parser Unit := do
  let _ ← field 2 0 23
  char ':'
  let _ ← field 2 0 59
  char ':'
  let _ ← field 2 0 60
  let _ ← optional do
    char '.'
    let ds ← takeWhile Char.isDigit
    if ds.isEmpty then failure else pure ()

/-- The distance from universal time. -/
def offset : Parser Unit :=
  (do
    let _ ← satisfy fun c ↦ c == 'Z' || c == 'z') <|>
  (do
    let _ ← satisfy fun c ↦ c == '+' || c == '-'
    let _ ← field 2 0 23
    char ':'
    let _ ← field 2 0 59)

/-- A date, a time, or both. -/
def dateTime : Parser Value :=
  (do
    date
    let _ ← optional do
      let _ ← satisfy fun c ↦ c == 'T' || c == 't' || c == ' '
      time
      let _ ← optional offset
    pure .dateTime) <|>
  (do
    time
    pure .dateTime)

/-- A value without others inside. -/
def scalar : Parser Value :=
  Value.string <$> anyString
    <|> (word "true" *> pure (.boolean true))
    <|> (word "false" *> pure (.boolean false))
    <|> dateTime
    <|> float
    <|> basedInteger "0x" 16 isHexDigit
    <|> basedInteger "0o" 8 (fun c ↦ '0' ≤ c && c ≤ '7')
    <|> basedInteger "0b" 2 (fun c ↦ c == '0' || c == '1')
    <|> decimalInteger

end SignedFirmware.Toml
