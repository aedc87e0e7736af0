import SignedFirmware.Toml.Scalar

/-!
# Configuration files

A configuration file is a sequence of lines: headers, which say into which table the following lines
go, and values under their keys. `Toml.parse?` reads a file into one table.
-/

namespace SignedFirmware.Toml

open Text Text.Parser

/-! ## Values -/

/-- A table with the given values under their keys. -/
def ofPairs? (pairs : List ((List String × String) × Value)) : Option Entries :=
  (pairs.foldlM (fun es ((path, last), v) ↦ do
    let (_, es) ← Entries.insert path last v .header es
    pure es) [])

/-- Values between brackets. Line ends and comments may stand between them, and a comma behind the
last one. -/
def array (item : Parser Value) : Parser Value := do
  char '['
  let items ← optional do
    let items ← separated (do
      anyBlanks
      let v ← item
      anyBlanks
      pure v) (char ',')
    let _ ← optional (char ',')
    pure items
  anyBlanks
  char ']'
  pure (.array (items.getD []))

/-- Values under their keys between braces, on one line. -/
def inlineTable (item : Parser Value) : Parser Value := do
  char '\x7b'
  spaces
  let pairs ← optional (separated (do
    let k ← key
    char '='
    spaces
    let v ← item
    spaces
    pure (k, v)) (char ','))
  char '\x7d'
  let es ← ofOption (ofPairs? (pairs.getD []))
  pure (.table .closed es)

/-- A value, with others inside down to the given depth. -/
def value : Nat → Parser Value
  | 0 => scalar
  | depth + 1 => array (value depth) <|> inlineTable (value depth) <|> scalar

/-! ## Lines -/

/-- What a line says. -/
inductive Line where
  | blank
  /-- A value under a key. -/
  | pair (path : List String) (last : String) (v : Value)
  /-- The header of a table. -/
  | header (path : List String) (last : String)
  /-- The header of one of several tables. -/
  | arrayHeader (path : List String) (last : String)

def pair : Parser Line := do
  let (path, last) ← key
  char '='
  spaces
  let v ← value maxNesting
  pure (.pair path last v)

def header : Parser Line :=
  (do
    word "[["
    let (path, last) ← key
    word "]]"
    pure (.arrayHeader path last)) <|>
  (do
    char '['
    let (path, last) ← key
    char ']'
    pure (.header path last))

def line : Parser Line := do
  spaces
  let l ← header <|> pair <|> pure .blank
  spaces
  let _ ← optional comment
  pure l

/-- All lines of a file. A byte order mark may stand in front. -/
def lines : Parser (List Line) := do
  let _ ← optional (char '\ufeff')
  separated line newline

/-! ## Files -/

/-- A file in the making: the outer table, and the path of the table that the lines go into. -/
structure Draft where
  entries : Entries
  path : List String

/-- Changes the outer table of a file. -/
def Draft.modify (d : Draft) (path : List String)
    (change : TableKind → Entries → Option (TableKind × Entries)) : Option Entries :=
  (Entries.modify false change path .header d.entries).map Prod.snd

/-- Adds a line to a file. -/
def Draft.add (d : Draft) : Line → Option Draft
  | .blank => some d
  | .pair path last v =>
    (d.modify d.path (Entries.insert path last v)).map fun es ↦ ⟨es, d.path⟩
  | .header path last =>
    (d.modify path (Entries.openTable last)).map fun es ↦ ⟨es, path ++ [last]⟩
  | .arrayHeader path last =>
    (d.modify path (Entries.appendTable last)).map fun es ↦ ⟨es, path ++ [last]⟩

/-- The outer table of a file. -/
def parse? (text : String) : Option Entries := do
  let ls ← lines.run text.toList
  let d ← ls.foldlM Draft.add ⟨[], []⟩
  pure d.entries

end SignedFirmware.Toml
