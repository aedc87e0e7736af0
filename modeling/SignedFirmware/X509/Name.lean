import SignedFirmware.Der.SetOf
import SignedFirmware.Der.Value

/-!
# Distinguished names

A name is a sequence of relative names, each a set of attributes: a type, given by an identifier,
and a value of any kind. Names are compared by structure, so that two spellings of one text are
different names.
-/

namespace SignedFirmware.X509

/-- One attribute of a name. -/
structure NameAttribute where
  type : Oid
  /-- The value, of any kind. -/
  value : Der.Element
  deriving DecidableEq, Repr

namespace NameAttribute

def ofElement? : Der.Decoder NameAttribute := Der.sequence do
  let type ← Der.Fields.field Der.oid?
  let value ← Der.Fields.next
  pure ⟨type, value⟩

def toElement (a : NameAttribute) : Der.Element :=
  .ofElements Der.Tag.sequence [Der.ofOid a.type, a.value]

def compare (a b : NameAttribute) : Ordering :=
  ((Der.compareHeader a.toElement b.toElement).then
    (Der.comparePlain (Der.ofOid a.type) (Der.ofOid b.type))).then
    (Der.comparePlain a.value b.value)

end NameAttribute

/-- A relative name: attributes in the order of a set. -/
abbrev RelativeName := List NameAttribute

/-- A distinguished name: relative names from the outermost to the innermost. -/
structure Name where
  parts : List RelativeName
  deriving DecidableEq, Repr

namespace Name

/-- Reads a relative name. -/
def relative? : Der.Decoder RelativeName := fun e ↦
  if e.tag = Der.Tag.set then do
    let members ← Der.elements? e.content
    let attributes ← members.mapM NameAttribute.ofElement?
    Der.sortSet? NameAttribute.compare attributes
  else none

def relativeElement (part : RelativeName) : Der.Element :=
  .ofElements Der.Tag.set (part.map NameAttribute.toElement)

def ofElement? : Der.Decoder Name := fun e ↦ do
  let parts ← Der.sequenceOf relative? e
  pure ⟨parts⟩

def toElement (n : Name) : Der.Element :=
  .ofElements Der.Tag.sequence (n.parts.map relativeElement)

end Name

end SignedFirmware.X509
