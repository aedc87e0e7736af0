import SignedFirmware.Proofs.Command.Run
import SignedFirmware.Proofs.Credential.Layout

/-!
# Certificates survive their files

A certificate is written as labelled text and read by way of a new layout. The text that is written
is already laid out (`layOut_certificateText`), and base64 and labelled text are read as the bytes
that they were written for. So what is read from the file are the bytes of the certificate, whatever
their number leaves modulo three or modulo the bytes of a line.
-/

namespace SignedFirmware.Credential

open X509 (Certificate)

variable {path name : String} {c : Certificate}

/-- If a path leads to a file, bytes are written there and are read afterwards. -/
theorem read_after_writeFile (hplace : Session.place path = .file name) (s : Session)
    (data : Bytes) :
    s.outcome (writeFile path data) = .ok () ∧
      (s.after (writeFile path data)).read path = .ok data := by
  obtain ⟨hwritten, hread⟩ := Session.read_write hplace s data
  have hout : s.outcome (Host.write path data : ExceptT Error (StateM Session) Bool) = .ok true :=
    congrArg Except.ok hwritten
  constructor
  · rw [writeFile, Session.outcome_bind, hout]
    rfl
  · rw [writeFile, Session.after_bind, hout]
    exact hread

/-- If a path does not lead to a file, nothing is written. -/
theorem writeFile_of_not_file (hplace : ∀ name, Session.place path ≠ .file name) (s : Session)
    (data : Bytes) :
    s.outcome (writeFile path data) = .error (.unwritable path) ∧
      s.after (writeFile path data) = s := by
  have hwrite : s.write path data = (false, s) := by
    rw [Session.write]
    split
    · rename_i name hname
      exact absurd hname (hplace name)
    · rfl
  have hout : s.outcome (Host.write path data : ExceptT Error (StateM Session) Bool) = .ok false :=
    congrArg Except.ok (congrArg Prod.fst hwrite)
  have hafter : s.after (Host.write path data : ExceptT Error (StateM Session) Bool) = s :=
    congrArg Prod.snd hwrite
  constructor
  · rw [writeFile, Session.outcome_bind, hout]
    rfl
  · rw [writeFile, Session.after_bind, hout]
    exact hafter

/-- **Certificates survive their files.** For a certificate whose bytes are read as itself, the text
that is written is left as it is by a new layout. Wherever it is written to, it is what the file
then holds, and the certificate is read from it, whatever the session and its files were before. -/
theorem certificate_survives (h : Certificate.decode? c.encode = some c) :
    layOut (certificateText c) = .ok (certificateText c) ∧
    ∀ (s : Session) {path name : String}, Session.place path = .file name →
      s.outcome (writeCertificate path c) = .ok () ∧
      (s.after (writeCertificate path c)).read path = .ok (certificateText c) ∧
      (s.after (writeCertificate path c)).outcome (readCertificate path) = .ok c := by
  refine ⟨layOut_certificateText c, fun s path name hplace ↦ ?_⟩
  obtain ⟨hwritten, hread⟩ := read_after_writeFile hplace s (certificateText c)
  refine ⟨hwritten, hread, ?_⟩
  -- reading does not depend on the lines that a session has written
  have hsame : (s.after (writeCertificate path c)).surroundings.read path =
      .ok (certificateText c) := hread
  rw [(finds_readCertificate path).outcome_eq, hsame]
  exact parseCertificate_certificateText h

/-- A file with something else in it is written over with the sample certificate. -/
theorem certificate_survives_overwritten :
    let s : Session := { files := [("leaf.pem", [0])] }
    Certificate.decode? Trust.Chain.sampleLeaf.encode = some Trust.Chain.sampleLeaf ∧
      Session.place "leaf.pem" = .file "leaf.pem" ∧
      (s.after (writeCertificate "leaf.pem" Trust.Chain.sampleLeaf)).outcome
        (readCertificate "leaf.pem") = .ok Trust.Chain.sampleLeaf := by
  intro s
  have hdecode :
      Certificate.decode? Trust.Chain.sampleLeaf.encode = some Trust.Chain.sampleLeaf := by
    decide +kernel
  have hplace : Session.place "leaf.pem" = .file "leaf.pem" :=
    Session.place_of_isFileName (by decide)
  obtain ⟨-, hsurvives⟩ := certificate_survives hdecode
  exact ⟨hdecode, hplace, (hsurvives s hplace).2.2⟩

end SignedFirmware.Credential
