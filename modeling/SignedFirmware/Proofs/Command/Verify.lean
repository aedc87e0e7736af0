import SignedFirmware.Proofs.Command.Run
import SignedFirmware.Proofs.Credential.File
import SignedFirmware.Proofs.Trust.Forms

/-!
# The command that verifies

The command does not call `Trust.verifyBlob`. It goes through the same steps in another order, with
its own limits, and it may take the content from the blob. It writes the trusted certificate that it
read and reads that again, so that only the certificate counts and not the file that it came in
(`finds_verify`). What it accepts is what `Trust.verifyBlob` accepts (`verify_agrees`).
-/

namespace SignedFirmware

/-! ## Trusted certificates -/

theorem Trust.Store.ofBytes_encode {t : X509.Certificate}
    (h : X509.Certificate.decode? t.encode = some t) : ofBytes t.encode = .ok ⟨[t]⟩ := by
  rw [ofBytes, Blob.readCertificate_encode h]
  rfl

namespace Command

variable {s : Session} {path : String} {limit : Nat} {data : Bytes}

theorem inputInFile_of_read (h : s.read path = .ok data) (hsize : data.length ≤ limit) :
    inputInFile path limit (s.size path) (s.read path) = .ok data := by
  rw [Session.size_of_read h, h, inputInFile, if_neg (Nat.not_lt.2 hsize)]
  rfl

/-- The content that a blob is checked over in a session. -/
def contentIn (c : Config) (d : Cms.SignedData) (content : Option String) (s : Session) :
    Except Failure Bytes :=
  match content, d.embeddedContent with
  | some path, _ => inputInFile path c.maxInputSize (s.size path) (s.read path)
  | none, some octets => .ok octets
  | none, none => .error .detached

theorem finds_contentOf (c : Config) (d : Cms.SignedData) (content : Option String) :
    Finds (contentOf c d content : ExceptT Failure (StateM Session) Bytes)
      fun s ↦ contentIn c d content s := by
  simp only [contentOf, contentIn]
  cases content with
  | some path => exact finds_readInput path c.maxInputSize
  | none =>
    cases d.embeddedContent with
    | some octets => exact .settled (.ok octets)
    | none => exact .settled (.error Failure.detached)

theorem contentIn_none_eq_ok_iff {c : Config} {d : Cms.SignedData} {octets : Bytes} :
    contentIn c d none s = .ok octets ↔ d.embeddedContent = some octets := by
  rw [contentIn.eq_def]
  cases d.embeddedContent <;> simp

/-- What the command goes on to do with its blob and the trusted certificate. -/
def verdict (c : Config) (input trusted : String) (content : Option String) (data : Bytes)
    (t : X509.Certificate) (s : Session) : Except Failure Unit := do
  let d ← (Blob.read data).mapError (.blob input)
  let store ← (Trust.Store.ofBytes t.encode).mapError (.trustedCertificate trusted)
  let octets ← contentIn c d content s
  (Trust.verify ⟨store, c.policy, s.clock⟩ d octets).mapError (.verification input)

theorem finds_verify (c : Config) (input trusted : String) (content : Option String) :
    Finds (verify c input trusted content : ExceptT Failure (StateM Session) Unit) fun s ↦
      inputInFile input c.maxInputSize (s.size input) (s.read input) >>= fun data ↦
        (Credential.certificateInFile trusted (s.read trusted)).mapError (.certificate trusted) >>=
          fun t ↦ verdict c input trusted content data t s := by
  refine (finds_readInput _ _).bind fun data ↦ ?_
  refine (finds_readCertificate _).bind fun t ↦ .narrated _ ?_
  refine (Finds.orFail _ _).bind fun d ↦ ?_
  refine (Finds.orFail _ _).bind fun store ↦ ?_
  refine (finds_contentOf _ _ _).bind fun octets ↦ ?_
  refine Finds.now.bind (g := fun now _ ↦
    (Trust.verify ⟨store, c.policy, now⟩ d octets).mapError (Failure.verification input))
      fun now ↦ .narrated _ ?_
  refine ((Finds.orFail _ _).bind fun _ ↦ finds_status _).congr fun _ ↦ ?_
  exact bind_pure_unit

variable {i : Invocation} {c : Config} {input trusted trusted' : String} {content : Option String}
  {file : Bytes} {t : X509.Certificate}

/-- The trusted certificate is accepted again when it is read the second time, so the name of its
file is not needed for a message. -/
theorem verdict_congr (h : X509.Certificate.decode? t.encode = some t) :
    verdict c input trusted content data t s = verdict c input trusted' content data t s := by
  rw [verdict, verdict, Trust.Store.ofBytes_encode h]
  rfl

theorem verdict_eq_ok_iff (h : X509.Certificate.decode? t.encode = some t) :
    verdict c input trusted content data t s = .ok () ↔
      ∃ d octets, Blob.read data = .ok d ∧ contentIn c d content s = .ok octets ∧
        Trust.verify ⟨⟨[t]⟩, c.policy, s.clock⟩ d octets = .ok () := by
  simp only [verdict, Trust.Store.ofBytes_encode h, Checked.bind_eq_ok_iff,
    Checked.mapError_eq_ok_iff]
  constructor
  · rintro ⟨d, hread, _, hstore, octets, hoctets, hverify⟩
    cases hstore
    exact ⟨d, octets, hread, hoctets, hverify⟩
  · rintro ⟨d, octets, hread, hoctets, hverify⟩
    exact ⟨d, hread, _, rfl, octets, hoctets, hverify⟩

theorem finds_run (haction : i.action = .verify input trusted content) :
    Finds (run i) fun s ↦
      (Config.inFile i.config (s.read (i.config.getD Config.defaultPath))).mapError .config >>=
        fun c ↦ inputInFile input c.maxInputSize (s.size input) (s.read input) >>= fun data ↦
          (Credential.certificateInFile trusted (s.read trusted)).mapError
            (.certificate trusted) >>= fun t ↦ verdict c input trusted content data t s := by
  rw [run, haction]
  exact (finds_loadConfig i.config).bind fun c ↦ finds_verify c input trusted content

/-- Whatever comes of it, a verification leaves all files as they are. -/
theorem files_after_verify (haction : i.action = .verify input trusted content) :
    (s.after (run i)).files = s.files := by
  have hkept := (finds_run haction).surroundings_after s
  exact (Session.mk.inj hkept).1

/-- A run of the command, once its configuration is loaded and its blob is read. -/
theorem outcome_verify (haction : i.action = .verify input trusted content)
    (hconfig : s.outcome (loadConfig i.config) = .ok c) (hinput : s.read input = .ok data)
    (hsize : data.length ≤ c.maxInputSize) :
    s.outcome (run i) =
      (Credential.certificateInFile trusted (s.read trusted)).mapError (.certificate trusted) >>=
        fun t ↦ verdict c input trusted content data t s := by
  have hload := (finds_loadConfig i.config).outcome_eq s
  have hdata := inputInFile_of_read hinput hsize
  rw [(finds_run haction).outcome_eq s, ← hload, hconfig]
  -- the files and the clock are in the surroundings as they are in the session
  change inputInFile input c.maxInputSize (s.size input) (s.read input) >>= _ = _
  rw [hdata]
  rfl

/-- The command succeeds if and only if the trusted file holds a certificate with which the blob is
accepted over its content. -/
theorem outcome_verify_eq_ok_iff (haction : i.action = .verify input trusted content)
    (hconfig : s.outcome (loadConfig i.config) = .ok c) (hinput : s.read input = .ok data)
    (hsize : data.length ≤ c.maxInputSize) (hfile : s.read trusted = .ok file) :
    s.outcome (run i) = .ok () ↔
      ∃ t d octets, Credential.parseCertificate file = .ok t ∧ Blob.read data = .ok d ∧
        contentIn c d content s = .ok octets ∧
          Trust.verify ⟨⟨[t]⟩, c.policy, s.clock⟩ d octets = .ok () := by
  rw [outcome_verify haction hconfig hinput hsize, hfile, Credential.certificateInFile,
    Checked.bind_eq_ok_iff]
  constructor
  · rintro ⟨t, hparse, hverdict⟩
    have hparse := Checked.mapError_eq_ok_iff.1 hparse
    obtain ⟨d, octets, hread, hoctets, hverify⟩ :=
      (verdict_eq_ok_iff (Credential.decode?_encode_of_parseCertificate hparse)).1 hverdict
    exact ⟨t, d, octets, hparse, hread, hoctets, hverify⟩
  · rintro ⟨t, d, octets, hparse, hread, hoctets, hverify⟩
    refine ⟨t, Checked.mapError_eq_ok_iff.2 hparse, ?_⟩
    exact (verdict_eq_ok_iff (Credential.decode?_encode_of_parseCertificate hparse)).2
      ⟨d, octets, hread, hoctets, hverify⟩

/-- Only the certificate in the trusted file matters. -/
theorem outcome_verify_congr (haction : i.action = .verify input trusted content)
    (hconfig : s.outcome (loadConfig i.config) = .ok c) (hinput : s.read input = .ok data)
    (hsize : data.length ≤ c.maxInputSize) {file' : Bytes} (hfile : s.read trusted = .ok file)
    (hfile' : s.read trusted' = .ok file') (hparse : Credential.parseCertificate file = .ok t)
    (hparse' : Credential.parseCertificate file' = .ok t) :
    s.outcome (run { i with action := .verify input trusted' content }) = s.outcome (run i) := by
  rw [outcome_verify (i := { i with action := .verify input trusted' content }) rfl hconfig hinput
    hsize, outcome_verify haction hconfig hinput hsize, hfile, hfile', Credential.certificateInFile,
    Credential.certificateInFile, hparse, hparse']
  exact verdict_congr (Credential.decode?_encode_of_parseCertificate hparse)

/-- A file with so much behind the certificate that there is no length for it is not read. -/
theorem outcome_verify_of_long (haction : i.action = .verify input trusted content)
    (hconfig : s.outcome (loadConfig i.config) = .ok c) (hinput : s.read input = .ok data)
    (hsize : data.length ≤ c.maxInputSize) (hparse : Credential.parseCertificate file = .ok t)
    {rest : Bytes} (hfile : s.read trusted = .ok (t.encode ++ rest))
    (hlong : Der.maxLength < (t.encode ++ rest).length) :
    s.outcome (run i) = .error (.certificate trusted .loadCertificate) := by
  rw [outcome_verify haction hconfig hinput hsize, hfile, Credential.certificateInFile,
    Credential.parseCertificate_encode_append hparse, if_neg (Nat.not_le.2 hlong)]
  rfl

/-- **The command and the library agree.** Let the configuration be loaded and the blob be within
its limit. Over a content file within the limit, the command succeeds if and only if the trusted
file holds a certificate with whose encoding `Trust.verifyBlob` accepts the blob. Without one, it
succeeds if and only if `Trust.verifyBlob` accepts the blob over the content inside it. It ends the
same, be it in failure, with any other file that holds the certificate; among them is its encoding
with anything behind that, up to the longest input that has a length. Past that, the file is
refused. -/
theorem verify_agrees (haction : i.action = .verify input trusted content)
    (hconfig : s.outcome (loadConfig i.config) = .ok c) (hinput : s.read input = .ok data)
    (hsize : data.length ≤ c.maxInputSize) (hfile : s.read trusted = .ok file) :
    (∀ path octets, content = some path → s.read path = .ok octets →
      octets.length ≤ c.maxInputSize →
      (s.outcome (run i) = .ok () ↔
        ∃ t, Credential.parseCertificate file = .ok t ∧
          Trust.verifyBlob data t.encode octets c.policy s.clock = .ok ())) ∧
    (content = none →
      (s.outcome (run i) = .ok () ↔
        ∃ t d octets, Credential.parseCertificate file = .ok t ∧ Blob.read data = .ok d ∧
          d.embeddedContent = some octets ∧
            Trust.verifyBlob data t.encode octets c.policy s.clock = .ok ())) ∧
    ∀ t, Credential.parseCertificate file = .ok t →
      ∀ trusted' file', s.read trusted' = .ok file' →
        (Credential.parseCertificate file' = .ok t ∨
            (∃ rest, file' = t.encode ++ rest ∧ file'.length ≤ 2 ^ 28 - 1) →
          s.outcome (run { i with action := .verify input trusted' content }) =
            s.outcome (run i)) ∧
        ((∃ rest, file' = t.encode ++ rest ∧ 2 ^ 28 - 1 < file'.length) →
          s.outcome (run { i with action := .verify input trusted' content }) =
            .error (.certificate trusted' .loadCertificate)) := by
  have haccepted : ∀ t octets, Credential.parseCertificate file = .ok t →
      octets.length ≤ Blob.maxInputSize →
      (Trust.verifyBlob data t.encode octets c.policy s.clock = .ok () ↔
        ∃ d, Blob.read data = .ok d ∧
          Trust.verify ⟨⟨[t]⟩, c.policy, s.clock⟩ d octets = .ok ()) := by
    intro t octets hparse hlength
    have hstored :=
      Blob.readCertificate_encode (Credential.decode?_encode_of_parseCertificate hparse)
    rw [Trust.verifyBlob_eq_ok_iff hstored, and_iff_right hlength]
  rw [outcome_verify_eq_ok_iff haction hconfig hinput hsize hfile]
  refine ⟨?_, ?_, ?_⟩
  · rintro path octets rfl hpath hlength
    have hcontent : ∀ d, contentIn c d (some path) s = .ok octets := fun d ↦
      inputInFile_of_read hpath hlength
    have hlimit : octets.length ≤ Blob.maxInputSize := hlength.trans (Nat.min_le_right _ _)
    constructor
    · rintro ⟨t, d, found, hparse, hread, hfound, hverify⟩
      obtain rfl : octets = found := Except.ok.inj ((hcontent d).symm.trans hfound)
      exact ⟨t, hparse, (haccepted t octets hparse hlimit).2 ⟨d, hread, hverify⟩⟩
    · rintro ⟨t, hparse, hverify⟩
      obtain ⟨d, hread, hverify⟩ := (haccepted t octets hparse hlimit).1 hverify
      exact ⟨t, d, octets, hparse, hread, hcontent d, hverify⟩
  · rintro rfl
    simp only [contentIn_none_eq_ok_iff]
    refine exists_congr fun t ↦ exists_congr fun d ↦ exists_congr fun octets ↦ ?_
    refine and_congr_right fun hparse ↦ and_congr_right fun hread ↦ and_congr_right fun hoctets ↦ ?_
    -- the library has a limit for content, but what was inside an element is far below that
    have hlimit : octets.length ≤ Blob.maxInputSize :=
      (Blob.length_embeddedContent_le hread hoctets).trans (by decide)
    rw [haccepted t octets hparse hlimit]
    simp [hread]
  · intro t hparse trusted' file' hfile'
    constructor
    · intro hforms
      have hparse' : Credential.parseCertificate file' = .ok t := by
        obtain hparse' | ⟨rest, rfl, hlength⟩ := hforms
        · exact hparse'
        · rw [Credential.parseCertificate_encode_append hparse]
          exact if_pos hlength
      exact outcome_verify_congr haction hconfig hinput hsize hfile hfile' hparse hparse'
    · rintro ⟨rest, rfl, hlong⟩
      exact outcome_verify_of_long rfl hconfig hinput hsize hparse hfile' hlong

/-! ## A run -/

open Trust.Chain (sampleLeaf)

/-- A blob with "fw" inside it, over which a signature was made. -/
def sampleEmbedded : Cms.SignedData :=
  { Trust.sampleAlone with
    content := ⟨Cms.EncapsulatedContent.data, some (Der.ofOctets [0x66, 0x77])⟩ }

/-- A directory with the blob, with the content apart, and with the certificate in three files: as
it is, as text, and with something behind it. -/
def sampleSession (padding : Bytes) : Session where
  files :=
    [("fw.p7", sampleEmbedded.encode), ("fw.bin", [0x66, 0x77]), ("leaf.der", sampleLeaf.encode),
      ("leaf.pem", Credential.certificateText sampleLeaf),
      ("padded.der", sampleLeaf.encode ++ padding)]

/-- The command that verifies the blob. -/
def sampleInvocation (trusted : String) (content : Option String) : Invocation where
  filter := ⟨.info, .short⟩
  config := none
  action := .verify "fw.p7" trusted content

theorem read_sampleEmbedded : Blob.read sampleEmbedded.encode = .ok sampleEmbedded := by
  decide +kernel

theorem embeddedContent_sampleEmbedded : sampleEmbedded.embeddedContent = some [0x66, 0x77] := rfl

theorem parseCertificate_sampleLeaf :
    Credential.parseCertificate sampleLeaf.encode = .ok sampleLeaf := by
  decide +kernel

theorem verify_sampleEmbedded :
    Trust.verify ⟨⟨[sampleLeaf]⟩, ({} : Config).policy, ⟨0⟩⟩ sampleEmbedded [0x66, 0x77] =
      .ok () := by
  decide +kernel

theorem length_sampleEmbedded : sampleEmbedded.encode.length ≤ ({} : Config).maxInputSize := by
  decide +kernel

section

variable (padding : Bytes)

theorem loadConfig_sampleSession : (sampleSession padding).outcome (loadConfig none) = .ok {} :=
  loadConfig_of_missing (Session.read_of_missing (by decide) rfl)

theorem read_blob_sampleSession :
    (sampleSession padding).read "fw.p7" = .ok sampleEmbedded.encode :=
  Session.read_of_lookup (by decide) rfl

theorem read_leaf_sampleSession :
    (sampleSession padding).read "leaf.der" = .ok sampleLeaf.encode :=
  Session.read_of_lookup (by decide) rfl

theorem read_padded_sampleSession :
    (sampleSession padding).read "padded.der" = .ok (sampleLeaf.encode ++ padding) :=
  Session.read_of_lookup (by decide) rfl

end

/-- The command accepts the blob over the content inside it and over the same content in a file,
with each of the three files that hold the certificate. -/
theorem verify_agrees_sampleSession :
    (sampleSession [0]).outcome (loadConfig none) = .ok {} ∧
      (sampleSession [0]).read "fw.p7" = .ok sampleEmbedded.encode ∧
      sampleEmbedded.encode.length ≤ ({} : Config).maxInputSize ∧
      (sampleSession [0]).read "leaf.der" = .ok sampleLeaf.encode ∧
      ∀ content ∈ [none, some "fw.bin"], ∀ trusted ∈ ["leaf.der", "leaf.pem", "padded.der"],
        (sampleSession [0]).outcome (run (sampleInvocation trusted content)) = .ok () := by
  have hcontent : (sampleSession [0]).read "fw.bin" = .ok [0x66, 0x77] :=
    Session.read_of_lookup (by decide) rfl
  have hverify : Trust.verifyBlob sampleEmbedded.encode sampleLeaf.encode [0x66, 0x77]
      ({} : Config).policy (sampleSession [0]).clock = .ok () := by
    have hstored := Blob.readCertificate_encode
      (Credential.decode?_encode_of_parseCertificate parseCertificate_sampleLeaf)
    exact (Trust.verifyBlob_eq_ok_iff hstored).2
      ⟨by decide, _, read_sampleEmbedded, verify_sampleEmbedded⟩
  have htext : (sampleSession [0]).read "leaf.pem" =
      .ok (Credential.certificateText sampleLeaf) :=
    Session.read_of_lookup (by decide) rfl
  have hparse : Credential.parseCertificate (Credential.certificateText sampleLeaf) =
      .ok sampleLeaf := by
    decide +kernel
  have hshort : (sampleLeaf.encode ++ [0]).length ≤ 2 ^ 28 - 1 := by decide +kernel
  refine ⟨loadConfig_sampleSession _, read_blob_sampleSession _, length_sampleEmbedded,
    read_leaf_sampleSession _, fun content hmem ↦ ?_⟩
  obtain ⟨hover, hinside, hsame⟩ := verify_agrees (i := sampleInvocation "leaf.der" content) rfl
    (loadConfig_sampleSession [0]) (read_blob_sampleSession [0]) length_sampleEmbedded
    (read_leaf_sampleSession [0])
  have hfirst :
      (sampleSession [0]).outcome (run (sampleInvocation "leaf.der" content)) = .ok () := by
    simp only [List.mem_cons, List.not_mem_nil, or_false] at hmem
    obtain rfl | rfl := hmem
    · exact (hinside rfl).2 ⟨_, _, _, parseCertificate_sampleLeaf, read_sampleEmbedded,
        embeddedContent_sampleEmbedded, hverify⟩
    · exact (hover _ _ rfl hcontent (by decide)).2 ⟨_, parseCertificate_sampleLeaf, hverify⟩
  -- the other files hold the same certificate, so the command ends as it does with the first one
  have hsame := hsame sampleLeaf parseCertificate_sampleLeaf
  simp only [List.forall_mem_cons, List.not_mem_nil, false_imp_iff, implies_true, and_true]
  exact ⟨hfirst, ((hsame _ _ htext).1 (.inl hparse)).trans hfirst,
    ((hsame _ _ (read_padded_sampleSession [0])).1 (.inr ⟨_, rfl, hshort⟩)).trans hfirst⟩

/-- Of the files with the certificate, the one with something behind it is not read if that leaves
no length for it. -/
theorem outcome_sampleInvocation (padding : Bytes)
    (hlong : Der.maxLength < (sampleLeaf.encode ++ padding).length) :
    (sampleSession padding).outcome (run (sampleInvocation "leaf.der" none)) = .ok () ∧
      (sampleSession padding).outcome (run (sampleInvocation "padded.der" none)) =
        .error (.certificate "padded.der" .loadCertificate) := by
  have hconfig := loadConfig_sampleSession padding
  have hblob := read_blob_sampleSession padding
  constructor
  · have hiff := outcome_verify_eq_ok_iff (i := sampleInvocation "leaf.der" none) rfl hconfig hblob
      length_sampleEmbedded (read_leaf_sampleSession padding)
    refine hiff.2 ⟨sampleLeaf, sampleEmbedded, [0x66, 0x77], parseCertificate_sampleLeaf,
      read_sampleEmbedded, ?_, verify_sampleEmbedded⟩
    exact contentIn_none_eq_ok_iff.2 embeddedContent_sampleEmbedded
  · exact outcome_verify_of_long (i := sampleInvocation "padded.der" none) rfl hconfig hblob
      length_sampleEmbedded parseCertificate_sampleLeaf (read_padded_sampleSession padding) hlong

/-- With so many zeros behind it, within the limit for input files, the certificate is not read. -/
theorem verify_ne_of_long_padding :
    let padding := List.replicate (2 ^ 28) 0
    Credential.parseCertificate sampleLeaf.encode = .ok sampleLeaf ∧
      (sampleSession padding).read "leaf.der" = .ok sampleLeaf.encode ∧
      (sampleSession padding).read "padded.der" = .ok (sampleLeaf.encode ++ padding) ∧
      (sampleSession padding).outcome (loadConfig none) = .ok {} ∧
      (sampleLeaf.encode ++ padding).length ≤ ({} : Config).maxInputSize ∧
      (sampleSession padding).outcome (run (sampleInvocation "leaf.der" none)) = .ok () ∧
      (sampleSession padding).outcome (run (sampleInvocation "padded.der" none)) =
        .error (.certificate "padded.der" .loadCertificate) := by
  intro padding
  have hlength : (sampleLeaf.encode ++ padding).length = sampleLeaf.encode.length + 2 ^ 28 := by
    rw [List.length_append, List.length_replicate]
  have hshort : sampleLeaf.encode.length ≤ 2 ^ 28 := by decide +kernel
  have hlimit : (sampleLeaf.encode ++ padding).length ≤ ({} : Config).maxInputSize := by
    rw [hlength]
    exact (Nat.add_le_add_right hshort _).trans (by decide)
  have hlong : Der.maxLength < (sampleLeaf.encode ++ padding).length := by
    rw [hlength, Der.maxLength]
    omega
  obtain ⟨haccepted, hrefused⟩ := outcome_sampleInvocation padding hlong
  exact ⟨parseCertificate_sampleLeaf, read_leaf_sampleSession padding,
    read_padded_sampleSession padding, loadConfig_sampleSession padding, hlimit, haccepted,
    hrefused⟩

end Command

end SignedFirmware
