import SignedFirmware.Der.SetOf
import SignedFirmware.Der.Value

/-!
# Algorithm identifiers

An algorithm is named by an object identifier and may carry one element of parameters.
-/

namespace SignedFirmware.X509

/-- An algorithm and its parameters. -/
structure AlgorithmId where
  oid : Oid
  /-- The parameters, of any kind. -/
  parameters : Option Der.Element
  deriving DecidableEq, Repr

namespace AlgorithmId

def ofElement? : Der.Decoder AlgorithmId := Der.sequence do
  let oid ← Der.Fields.field Der.oid?
  let parameters ← Der.Fields.optional (fun _ ↦ true) some
  pure ⟨oid, parameters⟩

def toElement (a : AlgorithmId) : Der.Element :=
  .ofElements Der.Tag.sequence (Der.ofOid a.oid :: a.parameters.toList)

def compare (a b : AlgorithmId) : Ordering :=
  ((Der.compareHeader a.toElement b.toElement).then
    (Der.comparePlain (Der.ofOid a.oid) (Der.ofOid b.oid))).then
    (Der.compareOptional Der.comparePlain a.parameters b.parameters)

/-- An algorithm whose parameters are the explicit nothing. -/
def withNull (oid : Oid) : AlgorithmId := ⟨oid, some Der.null⟩

end AlgorithmId

end SignedFirmware.X509
