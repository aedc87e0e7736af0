import SignedFirmware.Text.Hidden

/-!
# Quoted text

Messages show names of files and variables between double quotes. A quote of either kind and a
backslash get a backslash, tab, line feed, carriage return and the zero character have a letter of
their own, and any other character that cannot be shown is given by its number in hexadecimal.
-/

namespace SignedFirmware.Text

/-- Whether a character of a quoted text is shown by its number. -/
def isNumbered (c : Char) : Bool :=
  if c.toNat < 0x80 then decide (c.toNat < 0x20 ∨ c.toNat = 0x7f) else isHidden c

/-- One character of a quoted text. -/
def quoteChar (c : Char) : List Char :=
  match c with
  | '\x00' => ['\\', '0']
  | '\t' => ['\\', 't']
  | '\r' => ['\\', 'r']
  | '\n' => ['\\', 'n']
  | '"' => ['\\', '"']
  | '\'' => ['\\', '\'']
  | '\\' => ['\\', '\\']
  | c =>
    if isNumbered c then "\\u\x7b".toList ++ Nat.toDigits 16 c.toNat ++ ['\x7d'] else [c]

/-- A text between quotes. -/
def quoted (s : String) : String := "\"" ++ String.ofList (s.toList.flatMap quoteChar) ++ "\""

end SignedFirmware.Text
