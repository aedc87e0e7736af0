import SignedFirmware.Bytes

/-!
# Elements of the distinguished encoding

All structured data here is a nest of elements: a tag octet, the length of the content, and the
content. The encoding is distinguished, so every element has one spelling: lengths use as few
octets as they can, and a reader that meets any other spelling refuses it. `Element.read?` takes
one element off the front of a byte string, `Element.encode` spells one, and `elements?` cuts a
whole byte string into elements.
-/

namespace SignedFirmware.Der

/-! ## Tags -/

/-- A tag octet: its class in the two highest bits, then whether the content is itself made of
elements, then a number. -/
abbrev Tag := UInt8

namespace Tag

def boolean : Tag := 0x01
def integer : Tag := 0x02
def bitString : Tag := 0x03
def octetString : Tag := 0x04
def null : Tag := 0x05
def oid : Tag := 0x06
def utf8String : Tag := 0x0c
/-- Text in a small part of ASCII. -/
def printableString : Tag := 0x13
def teletexString : Tag := 0x14
/-- Text in ASCII. -/
def ia5String : Tag := 0x16
/-- A time with a year of two digits. -/
def utcTime : Tag := 0x17
/-- A time with a year of four digits. -/
def generalizedTime : Tag := 0x18
/-- Elements in a given order. -/
def sequence : Tag := 0x30
/-- Elements in the order of their encodings. -/
def set : Tag := 0x31

/-- The tag `[n]` with elements inside. -/
def context (n : UInt8) : Tag := 0xa0 ||| n

/-- The tag `[n]` with plain content. -/
def contextPlain (n : UInt8) : Tag := 0x80 ||| n

def number (t : Tag) : UInt8 := t &&& 0x1f

/-- Whether the content is made of elements. -/
def isConstructed (t : Tag) : Bool := t &&& 0x20 != 0

/-- Whether the tag is one of the tags `[n]`. -/
def isContext (t : Tag) : Bool := t &&& 0xc0 == 0x80

/-- The universal tags with plain content: besides those above, reals, enumerated values, and
numeric, videotex, visible and two-byte text. -/
def universal : List Tag :=
  [0x01, 0x02, 0x03, 0x04, 0x05, 0x06, 0x09, 0x0a, 0x0c, 0x12, 0x13, 0x14, 0x15, 0x16, 0x17, 0x18,
    0x1a, 0x1e, 0x30, 0x31]

/-- Whether a tag may occur: a universal tag from the list, or one of the other classes with a
number that fits into the octet. -/
def isKnown (t : Tag) : Bool := universal.contains t || (0x40 ≤ t && number t != 0x1f)

end Tag

/-! ## Lengths -/

/-- The longest content that an element may have. -/
def maxLength : Nat := 0x0fffffff

/-- The spelling of a length: itself below 128, else the number of its octets and these. -/
def lengthBytes (n : Nat) : Bytes :=
  if n < 0x80 then [UInt8.ofNat n]
  else UInt8.ofNat (0x80 + (Bytes.ofNat n).length) :: Bytes.ofNat n

/-- Takes a length off the front. A length of more than 127 is followed by one to four octets, and
they have to be the spelling of what they say. -/
def readLength? : Bytes → Option (Nat × Bytes)
  | [] => none
  | first :: rest =>
    if first < 0x80 then some (first.toNat, rest)
    else if 0x81 ≤ first ∧ first ≤ 0x84 then
      let octets := rest.take (first.toNat - 0x80)
      let n := Bytes.toNat octets
      if n ≤ maxLength ∧ lengthBytes n = first :: octets then
        some (n, rest.drop (first.toNat - 0x80))
      else
        none
    else none

theorem length_lt_of_readLength? {data rest : Bytes} {n : Nat}
    (h : readLength? data = some (n, rest)) : rest.length < data.length := by
  unfold readLength? at h
  split at h
  · simp at h
  · rename_i first tail
    split at h
    · simp only [Option.some.injEq, Prod.mk.injEq] at h
      obtain ⟨-, rfl⟩ := h
      simp
    · simp only [Option.ite_none_right_eq_some, Option.some.injEq, Prod.mk.injEq] at h
      obtain ⟨-, -, -, rfl⟩ := h
      simp only [List.length_drop, List.length_cons]
      omega

/-! ## Elements -/

/-- A tag and the content under it. -/
structure Element where
  tag : Tag
  content : Bytes
  deriving DecidableEq, Repr, Inhabited

namespace Element

/-- The spelling of an element. -/
def encode (e : Element) : Bytes := e.tag :: (lengthBytes e.content.length ++ e.content)

/-- The spelling of an element, unless it is longer than the content of an element may be. Writers
stop there. -/
def encode? (e : Element) : Option Bytes :=
  if e.encode.length ≤ maxLength then some e.encode else none

/-- Takes one element off the front. What is inside the content is not looked at. -/
def read? : Bytes → Option (Element × Bytes)
  | [] => none
  | tag :: rest =>
    if Tag.isKnown tag then
      match readLength? rest with
      | none => none
      | some (n, rest) =>
        let content := rest.take n
        if content.length = n then some (⟨tag, content⟩, rest.drop n) else none
    else none

theorem length_lt_of_read? {data rest : Bytes} {e : Element}
    (h : read? data = some (e, rest)) : rest.length < data.length := by
  unfold read? at h
  split at h
  · simp at h
  · split at h
    · split at h
      · simp at h
      · rename_i hn
        have := length_lt_of_readLength? hn
        simp only [Option.ite_none_right_eq_some, Option.some.injEq, Prod.mk.injEq] at h
        obtain ⟨-, -, rfl⟩ := h
        simp only [List.length_drop, List.length_cons]
        omega
    · simp at h

/-- The one element that a byte string spells. -/
def ofBytes? (data : Bytes) : Option Element :=
  match read? data with
  | some (e, []) => some e
  | _ => none

end Element

/-- The elements that a byte string spells one after the other. -/
def elements? (data : Bytes) : Option (List Element) :=
  if data = [] then some []
  else
    match _h : Element.read? data with
    | none => none
    | some (e, rest) => (elements? rest).map (e :: ·)
termination_by data.length
decreasing_by exact Element.length_lt_of_read? _h

/-- An element made of elements. -/
def Element.ofElements (tag : Tag) (es : List Element) : Element := ⟨tag, es.flatMap Element.encode⟩

end SignedFirmware.Der
