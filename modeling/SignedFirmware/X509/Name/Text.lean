import SignedFirmware.X509.Name

/-!
# Names as text

A name is shown with its innermost part first, the parts joined by commas and the attributes of one
part by plus signs. An attribute whose type has a short name and whose value is text is shown as
`KEY=text`, with escapes; any other as its identifier and the encoding of its value in hexadecimal.

`Name.parse?` reads such texts. It is more generous than the writer: keys may have any letter case
and their long form, and escapes may stand where none is needed.
-/

namespace SignedFirmware.X509

namespace NameAttribute

/-- The attribute types with a name: the identifier, the name that is shown, and the names that are
read besides it. -/
def keys : List (Oid × String × List String) :=
  let directory (n : UInt8) : Oid := ⟨[0x55, 0x04, n]⟩
  [(directory 3, "CN", ["commonName"]),
    (directory 4, "SN", ["surname"]),
    (directory 5, "SERIALNUMBER", []),
    (directory 6, "C", ["countryName"]),
    (directory 7, "L", ["localityName"]),
    (directory 8, "ST", ["stateOrProvinceName"]),
    (directory 9, "STREET", ["streetAddress"]),
    (directory 10, "O", ["organizationName"]),
    (directory 11, "OU", ["organizationalUnitName"]),
    (directory 12, "TITLE", []),
    (directory 15, "BUSINESSCATEGORY", []),
    (directory 17, "POSTALCODE", []),
    (directory 42, "GIVENNAME", []),
    (directory 46, "DNQUALIFIER", []),
    (directory 65, "PSEUDONYM", []),
    (⟨[0x09, 0x92, 0x26, 0x89, 0x93, 0xf2, 0x2c, 0x64, 0x01, 0x01]⟩, "UID", ["userId"]),
    (⟨[0x09, 0x92, 0x26, 0x89, 0x93, 0xf2, 0x2c, 0x64, 0x01, 0x19]⟩, "DC", ["domainComponent"]),
    (⟨[0x2a, 0x86, 0x48, 0x86, 0xf7, 0x0d, 0x01, 0x09, 0x01]⟩, "EMAIL", ["emailAddress"])]

/-! ## Writing -/

/-- Whether a byte may stand in a printable string. -/
def isPrintable (x : UInt8) : Bool :=
  (0x41 ≤ x && x ≤ 0x5a) || (0x61 ≤ x && x ≤ 0x7a) || (0x30 ≤ x && x ≤ 0x39) ||
    (Bytes.ofString " '()+,-./:=?").contains x

/-- The text of a value, if it is well-formed text of a kind that is shown as text. -/
def text? (value : Der.Element) : Option String :=
  if value.tag = Der.Tag.printableString then
    if value.content.all isPrintable then Bytes.toText? value.content else none
  else if value.tag = Der.Tag.utf8String then Bytes.toText? value.content
  else if value.tag = Der.Tag.ia5String ∨ value.tag = Der.Tag.teletexString then
    if value.content.all (· < 0x80) then Bytes.toText? value.content else none
  else none

/-- Characters that always get a backslash. -/
def isSpecial (c : Char) : Bool := ['"', '+', ',', ';', '<', '>', '\\'].contains c

/-- One character of a value. -/
def escape (isFirst isLast : Bool) (c : Char) : List Char :=
  if c = '#' ∧ isFirst then ['\\', '#']
  else if c = ' ' ∧ (isFirst ∨ isLast) then ['\\', ' ']
  else if isSpecial c then ['\\', c]
  else if c.toNat < 0x20 ∨ c.toNat = 0x7f then
    '\\' :: Bytes.toHexChars [UInt8.ofNat c.toNat]
  else [c]

/-- The characters of a value after the first one. -/
def escapeTail : List Char → List Char
  | [] => []
  | [c] => escape false true c
  | c :: d :: rest => escape false false c ++ escapeTail (d :: rest)

/-- The characters of a value. -/
def escapeText : List Char → List Char
  | [] => []
  | c :: rest => escape true rest.isEmpty c ++ escapeTail rest

def toText (a : NameAttribute) : String :=
  match keys.lookup a.type, text? a.value with
  | some (key, _), some text => key ++ "=" ++ String.ofList (escapeText text.toList)
  | _, _ => a.type.toDotted ++ "=#" ++ Bytes.toHex a.value.encode

/-! ## Reading -/

/-- Whether two words are alike up to the case of ASCII letters. -/
def sameWord (a b : String) : Bool := a.map Char.toLower == b.map Char.toLower

/-- The type with the given key, or the type whose identifier the key is. -/
def typeOfKey? (key : String) : Option Oid :=
  match keys.find? fun (_, short, long) ↦ sameWord short key || long.any (sameWord · key) with
  | some (oid, _) => some oid
  | none => Oid.parse? key

/-- The tag of a text value of the given type: printable for a country or a serial number, ASCII for
a domain component, UTF-8 for all others. What the text holds is not checked. -/
def textTag (type : Oid) : Der.Tag :=
  if type = ⟨[0x55, 0x04, 0x06]⟩ ∨ type = ⟨[0x55, 0x04, 0x05]⟩ then Der.Tag.printableString
  else if type = ⟨[0x09, 0x92, 0x26, 0x89, 0x93, 0xf2, 0x2c, 0x64, 0x01, 0x19]⟩ then
    Der.Tag.ia5String
  else Der.Tag.utf8String

/-- Characters that may stand behind a backslash. -/
def isEscapable (c : Char) : Bool := isSpecial c || c == ' ' || c == '#' || c == '='

/-- Undoes the escapes of a text. A backslash or half an escape at the end is dropped. -/
def unescape? : List Char → Option Bytes
  | [] => some []
  | '\\' :: rest =>
    match rest with
    | [] => some []
    | c :: rest =>
      match Bytes.hexValue? c with
      | some high =>
        match rest with
        | [] => some []
        | d :: rest => do
          let low ← Bytes.hexValue? d
          let more ← unescape? rest
          pure (UInt8.ofNat (16 * high + low) :: more)
      | none =>
        if isEscapable c then (unescape? rest).map (String.utf8EncodeChar c ++ ·) else none
  | c :: rest => (unescape? rest).map (String.utf8EncodeChar c ++ ·)

/-- The bytes of pairs of hexadecimal digits. -/
def hexPairs? : List Char → Option Bytes
  | [] => some []
  | [_] => none
  | c :: d :: rest => do
    let high ← Bytes.hexValue? c
    let low ← Bytes.hexValue? d
    let more ← hexPairs? rest
    pure (UInt8.ofNat (16 * high + low) :: more)

/-- Reads an attribute. The key goes up to the first equals sign. -/
def parse? (s : List Char) : Option NameAttribute :=
  match s.dropWhile (· != '=') with
  | [] => none
  | _ :: value => do
    let type ← typeOfKey? (String.ofList (s.takeWhile (· != '=')))
    match value with
    | '#' :: hex =>
      let content ← hexPairs? hex
      let element ← Der.Element.ofBytes? content
      pure ⟨type, element⟩
    | _ =>
      let content ← unescape? value
      pure ⟨type, ⟨textTag type, content⟩⟩

end NameAttribute

namespace Name

def toText (n : Name) : String :=
  ",".intercalate (n.parts.reverse.map fun part ↦ "+".intercalate (part.map NameAttribute.toText))

instance : ToString Name := ⟨toText⟩

/-- The text cut at a separator. One with a backslash before it does not count, unless there is
another backslash before that. `before` holds the two characters in front of the text. -/
def splitUnescaped (separator : Char) (before : Char × Char) : List Char → List (List Char)
  | [] => [[]]
  | c :: rest =>
    let more := splitUnescaped separator (before.2, c) rest
    if c = separator ∧ (before.2 ≠ '\\' ∨ before.1 = '\\') then [] :: more
    else match more with
      | [] => [[c]]
      | part :: parts => (c :: part) :: parts

def parseRelative? (s : List Char) : Option RelativeName := do
  let attributes ← (splitUnescaped '+' ('\x00', '\x00') s).mapM NameAttribute.parse?
  Der.sortSet? NameAttribute.compare attributes

def parse? (s : String) : Option Name := do
  let parts ← (splitUnescaped ',' ('\x00', '\x00') s.toList).mapM parseRelative?
  pure ⟨parts.reverse⟩

end Name

end SignedFirmware.X509
