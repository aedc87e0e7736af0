import SignedFirmware.Der.SetOf
import SignedFirmware.Der.Value

/-!
# Attributes of a signer

A signer may sign attributes in place of the content. Each has a type and a set of values of any
kind. Two types matter: the digest of the content, which ties the attributes to what was signed,
and the type of the content.
-/

namespace SignedFirmware.Cms

structure Attribute where
  /-- What the attribute says. -/
  type : Oid
  /-- The values, in the order of a set. -/
  values : List Der.Element
  deriving DecidableEq, Repr

/-- Reads the members of a set and sorts them. -/
def setOf? {α : Type} (decode : Der.Decoder α) (cmp : α → α → Ordering) : Der.Decoder (List α) :=
  fun e ↦
    if e.tag = Der.Tag.set then do
      let members ← Der.elements? e.content
      let values ← members.mapM decode
      Der.sortSet? cmp values
    else none

namespace Attribute

def contentType : Oid := ⟨[0x2a, 0x86, 0x48, 0x86, 0xf7, 0x0d, 0x01, 0x09, 0x03]⟩

def messageDigest : Oid := ⟨[0x2a, 0x86, 0x48, 0x86, 0xf7, 0x0d, 0x01, 0x09, 0x04]⟩

def ofElement? : Der.Decoder Attribute := Der.sequence do
  let type ← Der.Fields.field Der.oid?
  let values ← Der.Fields.field (setOf? some Der.comparePlain)
  pure ⟨type, values⟩

def valuesElement (a : Attribute) : Der.Element := .ofElements Der.Tag.set a.values

def toElement (a : Attribute) : Der.Element :=
  .ofElements Der.Tag.sequence [Der.ofOid a.type, a.valuesElement]

def compare (a b : Attribute) : Ordering :=
  (((Der.compareHeader a.toElement b.toElement).then
    (Der.comparePlain (Der.ofOid a.type) (Der.ofOid b.type))).then
    (Der.compareHeader a.valuesElement b.valuesElement)).then
    (Der.compareMembers Der.comparePlain a.values b.values)

def setOf? : Der.Decoder (List Attribute) := Cms.setOf? ofElement? compare

/-- The element for a set of attributes. It is what a signature over attributes covers. -/
def setElement (attributes : List Attribute) : Der.Element :=
  .ofElements Der.Tag.set (attributes.map toElement)

def compareSets (a b : List Attribute) : Ordering :=
  (Der.compareHeader (setElement a) (setElement b)).then (Der.compareMembers compare a b)

end Attribute

end SignedFirmware.Cms
