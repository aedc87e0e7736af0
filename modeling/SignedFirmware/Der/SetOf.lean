import SignedFirmware.Der.Element

/-!
# Sets and the order of their members

The members of a set stand in the order of their encodings. A reader accepts them in any order and
sorts them; two members that compare as equal are an error.

The order looks at the header first, that is at the tag and then at the length, and after that at
the value, field by field in the same manner. Where a field may be absent, an absent one comes
before everything, also before another absent one, so that the comparison is no order in the strict
sense. Sorting is therefore pinned down as insertion from the left, each member compared with those
before it from right to left.
-/

namespace SignedFirmware.Der

/-- Compares byte strings by their first difference; a prefix comes first. -/
def compareBytes : Bytes → Bytes → Ordering
  | [], [] => .eq
  | [], _ :: _ => .lt
  | _ :: _, [] => .gt
  | x :: xs, y :: ys => (compare x.toNat y.toNat).then (compareBytes xs ys)

/-- Compares tag and length of two elements. -/
def compareHeader (a b : Element) : Ordering :=
  (compare a.tag.toNat b.tag.toNat).then (compare a.content.length b.content.length)

/-- Compares two elements whose content is plain. -/
def comparePlain (a b : Element) : Ordering :=
  (compareHeader a b).then (compareBytes a.content b.content)

/-- Compares optional fields: an absent one comes before everything. -/
def compareOptional {α : Type} (cmp : α → α → Ordering) : Option α → Option α → Ordering
  | some a, some b => cmp a b
  | some _, none => .gt
  | none, _ => .lt

/-- Compares the members of two sets or sequences by the first difference, then their number. -/
def compareMembers {α : Type} (cmp : α → α → Ordering) : List α → List α → Ordering
  | [], [] => .eq
  | [], _ :: _ => .lt
  | _ :: _, [] => .gt
  | x :: xs, y :: ys => (cmp x y).then (compareMembers cmp xs ys)

/-- The number of octets of a sequence with one number for each byte: a byte below 128 takes three
octets, any other four. -/
def numberSequenceSize (b : Bytes) : Nat :=
  b.foldl (fun n x ↦ n + if x < 0x80 then 3 else 4) 0

/-- Compares two byte strings as sequences of numbers, one for each byte: the length of the sequence
comes first, then the numbers. -/
def compareNumberSequences (a b : Bytes) : Ordering :=
  (compare (numberSequenceSize a) (numberSequenceSize b)).then (compareBytes a b)

/-- Compares elements by their header and then by their whole encodings, taken as sequences of
numbers. This is the order of values that have more than one form. -/
def compareChoice (a b : Element) : Ordering :=
  (compareHeader a b).then (compareNumberSequences a.encode b.encode)

/-! ## Sorting -/

/-- Puts a member into its place among those before it, which stand in reverse order. An equal one
on the way is an error. -/
def insertReversed {α : Type} (cmp : α → α → Ordering) (x : α) : List α → Option (List α)
  | [] => some [x]
  | y :: ys =>
    match cmp y x with
    | .lt => some (x :: y :: ys)
    | .eq => none
    | .gt => (insertReversed cmp x ys).map (y :: ·)

/-- Sorts the members of a set. -/
def sortSet? {α : Type} (cmp : α → α → Ordering) (xs : List α) : Option (List α) :=
  -- in reverse, a new member meets the greatest of the others first
  (xs.foldlM (fun sorted x ↦ insertReversed cmp x sorted) []).map List.reverse

end SignedFirmware.Der
