/-!
# Readers of text

A reader takes characters off the front of a text, or fails. Readers are put together by `do`, and
by `<|>` where a text may have one of several forms; the first form that fits is taken. A repeated
reader goes on as long as it takes something.
-/

namespace SignedFirmware.Text

/-- A reader of text: what it reads, and the characters left for the next one. -/
abbrev Parser := StateT (List Char) Option

namespace Parser

/-- A character that passes a test. -/
def satisfy (p : Char → Bool) : Parser Char := fun
  | [] => none
  | c :: rest => if p c then some (c, rest) else none

def char (c : Char) : Parser Unit := do
  let _ ← satisfy (· == c)

def word (w : String) : Parser Unit := fun s ↦
  if w.toList.isPrefixOf s then some ((), s.drop w.toList.length) else none

/-- All characters up to the first that fails a test. -/
def takeWhile (p : Char → Bool) : Parser (List Char) := fun s ↦ some (s.takeWhile p, s.dropWhile p)

/-- A given number of characters that pass a test. -/
def exactly (n : Nat) (p : Char → Bool) : Parser (List Char) := fun s ↦
  if (s.take n).length = n ∧ (s.take n).all p then some (s.take n, s.drop n) else none

/-- Goes on with the value, if there is one. -/
def ofOption {α : Type} (a : Option α) : Parser α := fun s ↦ a.map (·, s)

/-- A reader over and over, as long as it fits and takes something. -/
def many {α : Type} (p : Parser α) (s : List Char) : Option (List α × List Char) :=
  match p s with
  | none => some ([], s)
  | some (a, rest) =>
    if _h : rest.length < s.length then
      match many p rest with
      | some (as, rest) => some (a :: as, rest)
      | none => none
    else some ([], s)
termination_by s.length

/-- Items with separators between them, at least one. -/
def separated {α : Type} (item : Parser α) (separator : Parser Unit) : Parser (List α) := do
  let first ← item
  let more ← many do
    separator
    item
  pure (first :: more)

/-- Reads a whole text. -/
def run {α : Type} (p : Parser α) (s : List Char) : Option α :=
  match p s with
  | some (a, []) => some a
  | _ => none

end Parser

end SignedFirmware.Text
