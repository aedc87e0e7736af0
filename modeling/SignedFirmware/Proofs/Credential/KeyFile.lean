import SignedFirmware.Credential.File
import SignedFirmware.Proofs.Bytes.Text
import SignedFirmware.Proofs.Except
import SignedFirmware.Proofs.List
import SignedFirmware.Proofs.Pem.Parts
import SignedFirmware.Proofs.Rsa.Signature
import SignedFirmware.Proofs.Session

/-!
# Which key files need a passphrase

A key file is taken for an encrypted one if it holds a certain word anywhere (`isEncrypted_iff`). In
a text that is read as a key without encryption, the tags do not hold the word, and neither does it
go across a tag or an end of line. The preamble may hold it, though, and so may the characters of a
line (`infix_preamble_or_body`). Then a passphrase is asked for, and the key is not read with any,
for the label is not that of an encrypted key.
-/

namespace SignedFirmware.Credential

variable {s : Session} {path text : String} {data : Bytes} {k : Rsa.PrivateKey}

/-! ## The word -/

/-- The word that makes a file count as encrypted. -/
def encryptionWord : Bytes := Bytes.ofString "ENCRYPTED"

theorem containsWord_iff {w data : Bytes} : containsWord w data = true ↔ w <:+: data := by
  induction data with
  | nil => rw [containsWord, List.isEmpty_iff, List.infix_nil]
  | cons x data ih =>
    rw [containsWord, Bool.or_eq_true, List.isPrefixOf_iff_prefix, ih, List.infix_cons_iff]

theorem isEncrypted_iff : isEncrypted data = true ↔ encryptionWord <:+: data := containsWord_iff

/-- Around the tags of a key, only the preamble and the lines of characters can hold the word. -/
theorem infix_preamble_or_body {preamble : Bytes} {p : Pem.Parts}
    (h : encryptionWord <:+: preamble ++ Pem.openingLine Key.label ++ p.tail Key.label) :
    encryptionWord <:+: preamble ∨ encryptionWord <:+: p.body := by
  have hfeed : 10 ∉ encryptionWord := by decide +kernel
  have hreturn : 13 ∉ encryptionWord := by decide +kernel
  have hdash : 45 ∉ encryptionWord := by decide +kernel
  have hopening : Pem.openingLine Key.label = 45 :: (Pem.openingLine Key.label).tail := by
    decide +kernel
  have hopeningFree : ¬encryptionWord <:+: (Pem.openingLine Key.label).tail := by decide +kernel
  have hclosingFree : ¬encryptionWord <:+: Pem.closingLine Key.label := by decide +kernel
  have hparts : preamble ++ Pem.openingLine Key.label ++ p.tail Key.label =
      preamble ++ Pem.openingLine Key.label ++ p.openingEnd ++
        (p.body ++ p.bodyEnd ++ (Pem.closingLine Key.label ++ p.closingEnd)) := by
    simp only [Pem.Parts.tail, List.append_assoc]
  rw [hparts, p.isLineEnd_opening.infix_iff hfeed hreturn,
    p.isLineEnd_body.infix_iff hfeed hreturn] at h
  rcases h with hfront | hbody | hback
  · -- whatever the preamble ends with, the word does not go on into the dashes
    rw [hopening, infix_append_cons_iff hdash] at hfront
    exact .inl (hfront.resolve_right hopeningFree)
  · exact .inr hbody
  · rcases p.isLineEnd_closing with hnone | hend
    · rw [hnone, List.append_nil] at hback
      exact absurd hback hclosingFree
    · rw [← List.append_nil (_ ++ _), hend.infix_iff hfeed hreturn] at hback
      have hempty : ¬encryptionWord <:+: [] := by decide +kernel
      exact absurd (hback.resolve_right hempty) hclosingFree

/-! ## Reading a key file -/

/-- The text in what was read from a file. -/
def textInFile (path : String) : Except ReadFailure Bytes → Except Error String
  | .error _ => .error (.unreadable path)
  | .ok data =>
    match Bytes.toText? data with
    | some text => .ok text
    | none => .error (.unreadable path)

theorem finds_readText (path : String) :
    Finds (readText path : ExceptT Error (StateM Session) String) fun s ↦
      textInFile path (s.read path) := by
  refine (Finds.read path).bind (g := fun result _ ↦ textInFile path result) fun result ↦ ?_
  fun_cases textInFile path result with
  | case1 => exact .settled (.error _)
  | case2 data text htext =>
    simp only [htext]
    exact .settled (.ok text)
  | case3 data htext =>
    simp only [htext]
    exact .settled (.error _)

/-- The passphrase that a source gives in a session. -/
def PassphraseSource.passphraseIn (s : Session) : PassphraseSource → Except Error String
  | .absent => .ok ""
  | .fromVariable name =>
    match s.environment.lookup name with
    | some value => .ok value
    | none => .error (.unsetVariable name)
  | .fromFile path => (textInFile path (s.read path)).map trimLineEnds

theorem finds_acquire (source : PassphraseSource) :
    Finds (source.acquire : ExceptT Error (StateM Session) String) fun s ↦
      source.passphraseIn s := by
  cases source with
  | absent => exact .settled (.ok "")
  | fromVariable name =>
    refine ((Finds.lookup name).bind (g := fun value _ ↦ match value with
      | some value => .ok value
      | none => .error (.unsetVariable name)) fun value ↦ ?_).congr fun s ↦ rfl
    cases value with
    | none => exact .settled (.error _)
    | some value => exact .settled (.ok value)
  | fromFile path =>
    refine ((finds_readText path).bind fun text ↦
      .settled (.ok (trimLineEnds text))).congr fun s ↦ ?_
    rw [PassphraseSource.passphraseIn]
    cases textInFile path (s.read path) <;> rfl

/-- The key in the bytes of a text. -/
def keyIn (data : Bytes) (source : PassphraseSource) (s : Session) : Except Error Rsa.PrivateKey :=
  if isEncrypted data then
    source.passphraseIn s >>= fun passphrase ↦ parseEncryptedKey passphrase data
  else parseKey data

theorem finds_readKey (path : String) (source : PassphraseSource) :
    Finds (readKey path source : ExceptT Error (StateM Session) Rsa.PrivateKey) fun s ↦
      textInFile path (s.read path) >>= fun text ↦ keyIn (Bytes.ofString text) source s := by
  refine (finds_readText path).bind (g := fun text s ↦ keyIn (Bytes.ofString text) source s)
    fun text ↦ ?_
  simp only [keyIn]
  by_cases hword : isEncrypted (Bytes.ofString text) = true
  · simp only [if_pos hword]
    exact (finds_acquire source).bind fun passphrase ↦ .settled _
  · simp only [if_neg hword]
    exact .settled _

theorem outcome_readKey (h : s.read path = .ok (Bytes.ofString text)) (source : PassphraseSource) :
    s.outcome (readKey path source) = keyIn (Bytes.ofString text) source s := by
  have hfile : s.surroundings.read path = .ok (Bytes.ofString text) := h
  rw [(finds_readKey path source).outcome_eq, hfile, textInFile, Bytes.toText?_ofString]
  cases source <;> rfl

/-- Without the word, the source of a passphrase is not asked. -/
theorem readKey_of_not_infix (hread : s.read path = .ok (Bytes.ofString text))
    (hkey : Key.ofPem? (Bytes.ofString text) = some k)
    (hword : ¬encryptionWord <:+: Bytes.ofString text) (source : PassphraseSource) :
    s.outcome (readKey path source) = .ok k := by
  rw [outcome_readKey hread source, keyIn, if_neg (mt isEncrypted_iff.1 hword), parseKey, hkey]

/-- A text that is read as a key without encryption is not read as an encrypted one. -/
theorem parseEncryptedKey_of_ofPem? (hkey : Key.ofPem? data = some k) (passphrase : String) :
    parseEncryptedKey passphrase data = .error .loadEncryptedKey := by
  obtain ⟨bytes, hbytes, -⟩ := Option.bind_eq_some_iff.1 hkey
  have hother : Pem.parse? Key.encryptedLabel data = none :=
    Pem.parse?_eq_none_of_label hbytes (by decide +kernel) (by decide +kernel)
  rw [parseEncryptedKey, Key.ofEncryptedPem?, hother]
  rfl

/-- What a file gives that would be read as a key without encryption. Without the word in it, the
key is read whatever the source of a passphrase is, for it is not asked. With the word, which then
stands in the preamble or in the lines of characters, the source is asked first, and whatever it
gives, the key is not read. -/
theorem readKey_of_unencrypted (hread : s.read path = .ok (Bytes.ofString text))
    (hkey : Key.ofPem? (Bytes.ofString text) = some k) (source : PassphraseSource) :
    (¬encryptionWord <:+: Bytes.ofString text → s.outcome (readKey path source) = .ok k) ∧
    (encryptionWord <:+: Bytes.ofString text →
      (∃ (preamble : Bytes) (p : Pem.Parts),
        Bytes.ofString text = preamble ++ Pem.openingLine Key.label ++ p.tail Key.label ∧
        (encryptionWord <:+: preamble ∨ encryptionWord <:+: p.body)) ∧
      s.outcome (readKey path source) =
        s.outcome source.acquire >>= fun _ ↦ .error .loadEncryptedKey) := by
  refine ⟨fun hword ↦ readKey_of_not_infix hread hkey hword source, fun hword ↦ ⟨?_, ?_⟩⟩
  · obtain ⟨bytes, hbytes, -⟩ := Option.bind_eq_some_iff.1 hkey
    obtain ⟨p, hp⟩ := Pem.exists_parts_of_parse? hbytes
    obtain ⟨preamble, hpreamble⟩ := Pem.dropPreamble?_eq_some hp
    rw [← List.append_assoc] at hpreamble
    exact ⟨preamble, p, hpreamble, infix_preamble_or_body (hpreamble ▸ hword)⟩
  · rw [outcome_readKey hread source, keyIn, if_pos (isEncrypted_iff.2 hword),
      (finds_acquire source).outcome_eq]
    simp only [parseEncryptedKey_of_ofPem? hkey]
    cases source <;> rfl

/-! ## Two keys -/

/-- The text that is written for a key without a passphrase. -/
def plainText (k : Rsa.PrivateKey) : String := Bytes.ofAscii ((Key.toPem? k).getD [])

/-- A session with a key file `k.pem`. -/
def sessionWith (text : String) : Session := { files := [("k.pem", Bytes.ofString text)] }

theorem ofString_plainText (k : Rsa.PrivateKey) :
    Bytes.ofString (plainText k) = (Key.toPem? k).getD [] := by
  refine Bytes.ofString_ofAscii fun x hx ↦ ?_
  rw [Key.toPem?] at hx
  cases hbytes : Key.toBytes? k with
  | none =>
    rw [hbytes] at hx
    cases hx
  | some bytes =>
    rw [hbytes] at hx
    exact Pem.lt_of_mem_render (by decide +kernel) hx

theorem read_sessionWith (text : String) :
    (sessionWith text).read "k.pem" = .ok (Bytes.ofString text) :=
  Session.read_of_lookup (by decide) rfl

theorem ofPem?_sampleKey :
    Key.ofPem? (Bytes.ofString (plainText Rsa.sampleKey)) = some Rsa.sampleKey := by
  rw [ofString_plainText]
  decide +kernel

theorem not_infix_sampleKey : ¬encryptionWord <:+: Bytes.ofString (plainText Rsa.sampleKey) := by
  rw [ofString_plainText]
  decide +kernel

/-- An ordinary key is read, although the variable for a passphrase is not set. -/
theorem readKey_of_unencrypted_sampleKey :
    let s := sessionWith (plainText Rsa.sampleKey)
    s.read "k.pem" = .ok (Bytes.ofString (plainText Rsa.sampleKey)) ∧
    Key.ofPem? (Bytes.ofString (plainText Rsa.sampleKey)) = some Rsa.sampleKey ∧
    s.outcome (readKey "k.pem" (.fromVariable "PASS")) = .ok Rsa.sampleKey := by
  have hread := read_sessionWith (plainText Rsa.sampleKey)
  exact ⟨hread, ofPem?_sampleKey,
    (readKey_of_unencrypted hread ofPem?_sampleKey (.fromVariable "PASS")).1 not_infix_sampleKey⟩

/-- A key of 512 bits. Its modulus begins with the bits for which base64 writes the word, and they
stand where a character begins: the first line of characters ends with `ENCRYPTEDAAAAAA`. -/
def unluckyKey : Rsa.PrivateKey :=
  let p := 2 ^ 256 - 587
  let q := 0xfc43424583d31030 * 2 ^ 192 + 0x255
  { modulus := p * q
    exponent := 3
    privateExponent := (2 * ((p - 1) * (q - 1)) + 1) / 3
    firstFactor := p
    secondFactor := q }

/-- Not every key is read back from the text that is written for it. -/
theorem readKey_unluckyKey :
    Key.toPem? unluckyKey = some (Bytes.ofString (plainText unluckyKey)) ∧
    Key.ofPem? (Bytes.ofString (plainText unluckyKey)) = some unluckyKey ∧
    (sessionWith (plainText unluckyKey)).outcome (readKey "k.pem" .absent) =
      .error .loadEncryptedKey := by
  have hkey : Key.ofPem? (Bytes.ofString (plainText unluckyKey)) = some unluckyKey := by
    rw [ofString_plainText]
    decide +kernel
  have hword : isEncrypted (Bytes.ofString (plainText unluckyKey)) = true := by
    rw [ofString_plainText]
    decide +kernel
  refine ⟨?_, hkey, ?_⟩
  · rw [ofString_plainText]
    decide +kernel
  · rw [outcome_readKey (read_sessionWith _), keyIn, if_pos hword]
    exact Checked.bind_eq_error_iff.2 (.inr ⟨"", rfl, parseEncryptedKey_of_ofPem? hkey ""⟩)

end SignedFirmware.Credential
