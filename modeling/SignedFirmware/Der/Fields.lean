import SignedFirmware.Der.Element

/-!
# Structures made of fields

A structure is a sequence whose elements are its fields in a fixed order. A reader of fields is a
state machine on the elements that are left. Fields may be absent: a plain optional field is there
if the next element has its tag, and a field `[n]` is looked for past the fields `[m]` with
`m < n`, which are given up on the way. A structure is read completely: elements that no field
took are an error.
-/

namespace SignedFirmware.Der

/-- A reader of fields: what it reads, and the elements left for the next one. -/
abbrev Fields := StateT (List Element) Option

/-- Reads an element as a value. -/
abbrev Decoder (α : Type) := Element → Option α

namespace Fields

/-- The next field, which has to be there. -/
def next : Fields Element := fun
  | [] => none
  | e :: rest => some (e, rest)

/-- The next field as a value. -/
def field {α : Type} (decode : Decoder α) : Fields α := do
  let e ← next
  decode e

/-- The next field if its tag is one of those that `accepts`. -/
def optional {α : Type} (accepts : Tag → Bool) (decode : Decoder α) : Fields (Option α) := fun
  | [] => some (none, [])
  | e :: rest => if accepts e.tag then (decode e).map (some ·, rest) else some (none, e :: rest)

/-- Whether an element is given up while `[n]` is looked for. -/
def isBefore (n : UInt8) (e : Element) : Bool := e.tag.isContext && decide (e.tag.number < n)

/-- The field `[n]`, if it is there. -/
def context (n : UInt8) : Fields (Option Element) := fun es ↦
  -- what is given up here is lost to the fields that are read later, too
  match es.dropWhile (isBefore n) with
  | [] => some (none, [])
  | e :: rest =>
    if e.tag.isContext && e.tag.number == n then some (some e, rest) else some (none, e :: rest)

/-- The field `[n]`, if it is there, as a value that stands inside it as an element. -/
def explicit {α : Type} (n : UInt8) (decode : Decoder α) : Fields (Option α) := do
  match ← context n with
  | none => pure none
  | some e =>
    if e.tag.isConstructed then
      match elements? e.content with
      | some [inner] => some <$> (decode inner : Option α)
      | _ => failure
    else
      failure

/-- The field `[n]`, if it is there, as a value that it stands for under the given tag. The field
says in its own tag whether its content is made of elements, and has to agree with the given one. -/
def implicit {α : Type} (n : UInt8) (tag : Tag) (decode : Decoder α) : Fields (Option α) := do
  match ← context n with
  | none => pure none
  | some e =>
    if e.tag.isConstructed = tag.isConstructed then some <$> (decode ⟨tag, e.content⟩ : Option α)
    else failure

/-- The value of fields that are the given elements, all of them. -/
def complete {α : Type} (fields : Fields α) (es : List Element) : Option α :=
  match fields es with
  | some (a, []) => some a
  | _ => none

end Fields

def sequence {α : Type} (fields : Fields α) : Decoder α := fun e ↦
  if e.tag = Tag.sequence then (elements? e.content).bind fields.complete else none

/-- Reads a sequence of any number of values of one kind. -/
def sequenceOf {α : Type} (decode : Decoder α) : Decoder (List α) := fun e ↦
  if e.tag = Tag.sequence then (elements? e.content).bind (·.mapM decode) else none

/-- Reads a value at the front of a byte string. What follows it is not looked at, but the byte
string as a whole may be no longer than the longest content. -/
def readFront? {α : Type} (decode : Decoder α) (data : Bytes) : Option (α × Bytes) :=
  if data.length ≤ maxLength then do
    let (e, rest) ← Element.read? data
    let a ← decode e
    pure (a, rest)
  else none

/-- Reads a value that is a whole byte string, which may be no longer than the longest content. -/
def readAll? {α : Type} (decode : Decoder α) (data : Bytes) : Option α :=
  if data.length ≤ maxLength then (Element.ofBytes? data).bind decode else none

end SignedFirmware.Der
