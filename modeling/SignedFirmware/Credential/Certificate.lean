import SignedFirmware.Credential.Error
import SignedFirmware.Pem.Text
import SignedFirmware.X509.Certificate

/-!
# Certificates in files

A certificate file holds the certificate either as it is or as labelled text. Labelled text is read
strictly, so a file is first laid out anew: tools differ in how they break lines and in what they
put around the text, and none of that should matter.
-/

namespace SignedFirmware.Credential

def certificateLabel : String := "CERTIFICATE"

/-- The line that begins a certificate. -/
def beginTag : Bytes := Pem.openingLine certificateLabel

/-- The line that ends a certificate. -/
def endTag : Bytes := Pem.closingLine certificateLabel

/-- Lays out lines anew. `inside` says whether a certificate has begun, and `digits` holds what came
between the tags so far. White space at the end of a line goes, and so do empty lines and all that
stands outside the tags. A certificate that has not ended at the end is an error. -/
def layOutLines (inside : Bool) (digits : Bytes) : List Bytes → Option (List Bytes)
  | [] => if inside then none else some []
  | line :: rest =>
    let line := Bytes.trimEnd line
    if line = [] then layOutLines inside digits rest
    -- white space in front of a line is kept, so an indented tag is none
    else if beginTag.isPrefixOf line then (layOutLines true digits rest).map (line :: ·)
    else if endTag.isPrefixOf line then
      (layOutLines false [] rest).map (Bytes.chunks Pem.lineWidth digits ++ line :: ·)
    else if inside then layOutLines inside (digits ++ line) rest
    else layOutLines inside digits rest

def layOut (text : Bytes) : Except Error Bytes :=
  match layOutLines false [] (Bytes.lines text) with
  | some ls => .ok (Pem.unlines ls)
  | none => .error .unfinishedPem

/-- Reads a certificate as it is. Bytes after its end are not looked at. -/
def parseCertificateBytes (data : Bytes) : Except Error X509.Certificate :=
  match X509.Certificate.decode? data with
  | some c => .ok c
  | none => .error .loadCertificate

/-- Reads a certificate from labelled text, once that is laid out. All of the body is decoded, also
what stands behind the certificate, and nothing else is looked at there. A decoder that goes along
with the reader of the certificate is assumed to refuse the same bodies. -/
def parseCertificateText (text : Bytes) : Except Error X509.Certificate :=
  match (Pem.parse? certificateLabel text).bind X509.Certificate.decode? with
  | some c => .ok c
  | none => .error .loadCertificate

/-- Whether a file holds labelled text: behind white space, it begins like an opening line. -/
def isText (data : Bytes) : Bool := (Bytes.ofString "-----BEGIN").isPrefixOf (Bytes.trimStart data)

/-- Reads a certificate in either form. -/
def parseCertificate (data : Bytes) : Except Error X509.Certificate :=
  if isText data then layOut data >>= parseCertificateText else parseCertificateBytes data

def certificateText (c : X509.Certificate) : Bytes := Pem.render certificateLabel c.encode

end SignedFirmware.Credential
