/-!
# Values of configuration files

A configuration file is a table of values by key, and values may be tables again. How a table came
about decides what may still be put into it: a header opens a table once, and a dotted key goes only
through tables that other dotted keys made.
-/

namespace SignedFirmware.Toml

/-- How a table came about. -/
inductive TableKind where
  /-- By a header of its own. -/
  | header
  /-- By the header of a table inside it. -/
  | implied
  /-- By a dotted key. -/
  | dotted
  /-- Between braces. Nothing can be added any more. -/
  | closed
  deriving DecidableEq, Repr

/-- A value. Numbers with a point, dates and times are known to be such, but not kept. -/
inductive Value where
  | string (text : String)
  | integer (n : Int)
  | boolean (b : Bool)
  | float
  | dateTime
  | array (items : List Value)
  | table (kind : TableKind) (entries : List (String × Value))
  /-- Tables whose headers are in double brackets. -/
  | tables (items : List (List (String × Value)))
  deriving Repr

/-- The entries of a table: keys with values, in order. -/
abbrev Entries := List (String × Value)

namespace Entries

/-- Puts a value under a key, in place of the one that is there. -/
def set (es : Entries) (key : String) (v : Value) : Entries :=
  if es.any (·.1 == key) then es.map fun (k, old) ↦ (k, if k == key then v else old)
  else es ++ [(key, v)]

/-- Changes the table at the end of a path. Tables on the way that are not there yet are made. A
path of a dotted key does not go through tables with a header, and no path goes through a closed
table. -/
def modify (isDotted : Bool) (change : TableKind → Entries → Option (TableKind × Entries)) :
    List String → TableKind → Entries → Option (TableKind × Entries)
  | [], kind, es => change kind es
  | key :: path, kind, es => do
    let descend (kind : TableKind) (es : Entries) : Option (TableKind × Entries) :=
      modify isDotted change path kind es
    let v ←
      match es.lookup key with
      | none => do
        let (k, inner) ← descend (if isDotted then .dotted else .implied) []
        pure (Value.table k inner)
      | some (.table k inner) =>
        if k = .closed ∨ isDotted ∧ k = .header then none
        else do
          let (k, inner) ← descend k inner
          pure (Value.table k inner)
      | some (.tables items) =>
        -- a path goes on in the latest of several tables
        match items.getLast? with
        | none => none
        | some last => do
          let (_, inner) ← descend .header last
          pure (Value.tables (items.dropLast ++ [inner]))
      | some _ => none
    pure (kind, set es key v)

/-- Adds a value at the end of a dotted key, given as the path and the last part. -/
def insert (path : List String) (key : String) (v : Value) (kind : TableKind) (es : Entries) :
    Option (TableKind × Entries) :=
  let change (kind : TableKind) (es : Entries) : Option (TableKind × Entries) :=
    if decide (kind = .dotted) = path.isEmpty ∨ es.any (·.1 == key) then none
    else some (kind, es ++ [(key, v)])
  modify true change path kind es

/-- Opens a table by its header. It may be there because of a header of a table inside it. -/
def openTable (key : String) (kind : TableKind) (es : Entries) : Option (TableKind × Entries) :=
  match es.lookup key with
  | none => some (kind, es ++ [(key, .table .header [])])
  | some (.table .implied inner) => some (kind, set es key (.table .header inner))
  | some _ => none

/-- Adds a table by a header in double brackets. -/
def appendTable (key : String) (kind : TableKind) (es : Entries) : Option (TableKind × Entries) :=
  match es.lookup key with
  | none => some (kind, es ++ [(key, .tables [[]])])
  | some (.tables items) => some (kind, set es key (.tables (items ++ [[]])))
  | some _ => none

end Entries

end SignedFirmware.Toml
