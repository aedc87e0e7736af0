import SignedFirmware.Blob.Read
import SignedFirmware.Proofs.Cms.SignedData
import SignedFirmware.Proofs.Envelope
import SignedFirmware.Proofs.Except
import SignedFirmware.Proofs.X509.Certificate

/-!
# What the reader of blobs accepts

A test at fixed positions stands in front of the reader of the outer structure, and bare input gets
a header whose lengths have exactly two bytes. Between them they settle which inputs get through.
Wrapped input has to begin with the very header that `Envelope.wrap` would have made, and may go on
after the content info. Bare input has to be one encoding of signed data from end to end, of a size
that fits the header. No input is both, and none that looks wrapped gets through with another outer
length.
-/

namespace SignedFirmware.Blob

open Cms (ContentInfo SignedData)
open Der (Element)

/-! ## Encodings -/

theorem encoded_eq_ok_iff {part : String} {e : Element} {bytes : Bytes} :
    encoded part e = .ok bytes ↔ e.encode.length ≤ Der.maxLength ∧ e.encode = bytes := by
  rw [← Element.encode?_eq_some_iff, encoded]
  cases e.encode? <;> simp

/-! ## The only signer -/

theorem singleSigner_eq_ok_iff {d : SignedData} {signer : Cms.SignerInfo} :
    d.singleSigner = .ok signer ↔ d.signers = [signer] := by
  rw [SignedData.singleSigner]
  split
  · rename_i found hfound
    rw [hfound, Except.ok.injEq, List.singleton_inj]
  · rename_i hmany
    simp only [reduceCtorEq, false_iff]
    exact hmany signer

theorem singleSigner_eq_error_iff {d : SignedData} {e : Error} :
    d.singleSigner = .error e ↔ d.signers.length ≠ 1 ∧ e = .notOneSigner d.signers.length := by
  rw [SignedData.singleSigner, ne_eq, List.length_eq_one_iff]
  split
  · rename_i found hfound
    simp [hfound]
  · rename_i hmany
    simp only [Except.error.injEq, not_exists]
    constructor
    · rintro rfl
      exact ⟨hmany, rfl⟩
    · rintro ⟨-, rfl⟩
      rfl

/-! ## The outer structure -/

theorem contentInfo_of_ofElement? {e : Element} {info : ContentInfo}
    (h : ContentInfo.ofElement? e = some info) :
    e = info.toElement ∧ info.content.Fits := by
  obtain ⟨es, rfl, -, hfields⟩ := Der.sequence_eq_some_iff.1 h
  obtain ⟨type, mid, htype, hrest⟩ := Der.Fields.bind_eq_some_iff.1 hfields
  obtain ⟨o, rfl, hoid⟩ := Der.Fields.field_eq_some_iff.1 htype
  obtain ⟨found, rest, hfound, hend⟩ := Der.Fields.bind_eq_some_iff.1 hrest
  obtain ⟨rfl, -⟩ := Der.oid?_eq_some_iff.1 hoid
  cases found with
  | none => cases hend
  | some inner =>
    cases hend
    obtain ⟨rfl, hinner⟩ := Der.Fields.explicit_zero_eq_some_iff.1 hfound
    exact ⟨rfl, hinner⟩

theorem ofElement?_contentInfo {inner : Element}
    (hfits : (ContentInfo.toElement ⟨ContentInfo.signedData, inner⟩).Fits) (hinner : inner.Fits) :
    ContentInfo.ofElement? (ContentInfo.toElement ⟨ContentInfo.signedData, inner⟩) =
      some ⟨ContentInfo.signedData, inner⟩ := by
  have hoid : Der.oid? (Der.ofOid ContentInfo.signedData) = some ContentInfo.signedData := by
    decide
  have hheld : Der.Fields.explicit 0 some [ContentInfo.held inner] = some (some inner, []) :=
    Der.Fields.explicit_zero_eq_some_iff.2 ⟨rfl, hinner⟩
  have hknown : ∀ e ∈ [Der.ofOid ContentInfo.signedData, ContentInfo.held inner],
      Der.Tag.isKnown e.tag = true := by
    simp [ContentInfo.held]
  refine (Der.sequence_ofElements hfits hknown _).trans (Der.Fields.complete_eq_some_iff.2 ?_)
  refine Der.Fields.bind_eq_some (Der.Fields.field_eq_some hoid _) ?_
  exact Der.Fields.bind_eq_some hheld rfl

theorem readContentInfo?_eq_some_iff {data rest : Bytes} {inner : Element} :
    readContentInfo? data = some (⟨ContentInfo.signedData, inner⟩, rest) ↔
      data.length ≤ Der.maxLength ∧ inner.Fits ∧
        (ContentInfo.toElement ⟨ContentInfo.signedData, inner⟩).Fits ∧
        data = ContentInfo.encode ⟨ContentInfo.signedData, inner⟩ ++ rest := by
  rw [readContentInfo?, Der.readFront?_eq_some_iff]
  constructor
  · rintro ⟨hdata, e, hfits, hread, hdecode⟩
    obtain ⟨rfl, hinner⟩ := contentInfo_of_ofElement? hdecode
    exact ⟨hdata, hinner, hfits, hread⟩
  · rintro ⟨hdata, hinner, hfits, hread⟩
    exact ⟨hdata, _, hfits, hread, ofElement?_contentInfo hfits hinner⟩

theorem fits_contentInfo {inner : Element} (hlow : 0x100 ≤ inner.encode.length)
    (hhigh : inner.encode.length ≤ 65520) :
    (ContentInfo.toElement ⟨ContentInfo.signedData, inner⟩).Fits := by
  refine ⟨Der.Tag.isKnown_sequence, ?_⟩
  rw [ContentInfo.length_content, Der.lengthBytes_two hlow (by omega), List.length_cons,
    Bytes.length_ofNatBE, Der.maxLength]
  omega

/-- A header names the type of what is behind it. -/
theorem type_of_readContentInfo?_header {size : Nat} {data rest : Bytes} {info : ContentInfo}
    (h : readContentInfo? (Envelope.header size ++ data) = some (info, rest)) :
    info.type = ContentInfo.signedData := by
  obtain ⟨-, e, hfits, hdata, hdecode⟩ := Der.readFront?_eq_some_iff.1 h
  obtain ⟨rfl, -⟩ := contentInfo_of_ofElement? hdecode
  have hcontent : info.toElement.content = (Der.ofOid info.type).encode ++
      (ContentInfo.held info.content).encode := by
    simp [ContentInfo.toElement, ContentInfo.held, Element.ofElements]
  have hlength : (Der.ofOid info.type).content.length ≤ Der.maxLength := by
    have hshort := hfits.short
    rw [hcontent, List.length_append] at hshort
    have := (Der.ofOid info.type).length_content_lt
    omega
  have hform := Der.lengthBytes_form hfits.short
  have hencode : info.toElement.encode =
      0x30 :: (Der.lengthBytes info.toElement.content.length ++ info.toElement.content) := rfl
  rw [Envelope.header_append_eq, hencode] at hdata
  simp only [List.cons_append, List.append_assoc] at hdata
  have hbehind := (List.cons.inj hdata).2
  generalize Der.lengthBytes _ = outer at hform hbehind
  -- the header spells the outer length with two bytes, and so the type begins where it does there
  cases hform with
  | short hhigh =>
    have hbyte := congrArg UInt8.toNat (List.cons.inj hbehind).1
    rw [UInt8.toNat_ofNat_of_lt' (lt_of_lt_of_le hhigh (by decide))] at hbyte
    exact absurd hhigh (hbyte ▸ by decide)
  | two =>
    obtain ⟨-, htail⟩ := List.append_inj (List.cons.inj hbehind).2 (by simp)
    rw [hcontent, List.append_assoc] at htail
    have hoid := (Element.encode_append_inj (by decide) hlength htail).1
    exact congrArg Oid.mk (congrArg Element.content hoid).symm
  | _ => simp at hbehind

/-- Bare input is all that stands behind its own header, and has to be a single element there. -/
theorem readContentInfo?_header_eq_some_iff {data rest : Bytes} {info : ContentInfo}
    (hsize : data.length ≤ 65516) :
    readContentInfo? (Envelope.header data.length ++ data) = some (info, rest) ↔
      0x100 ≤ data.length ∧ rest = [] ∧ info.type = ContentInfo.signedData ∧ info.content.Fits ∧
        data = info.content.encode := by
  constructor
  · intro h
    obtain ⟨type, inner⟩ := info
    obtain rfl : type = ContentInfo.signedData := type_of_readContentInfo?_header h
    obtain ⟨-, hinner, hfits, hdata⟩ := readContentInfo?_eq_some_iff.1 h
    have hwrapped := Envelope.isWrapped_header data.length data
    rw [hdata, Envelope.isWrapped_contentInfo hfits] at hwrapped
    rw [Envelope.encode_contentInfo hwrapped.1 hwrapped.2, List.append_assoc] at hdata
    obtain ⟨hlength, hbytes⟩ := Envelope.header_append_inj (by omega) (by omega) hdata
    -- the sizes agree, so nothing is left over behind the element
    obtain ⟨hsame, hnil⟩ := List.append_inj ((List.append_nil data).trans hbytes) hlength
    exact ⟨hlength ▸ hwrapped.1, hnil.symm, rfl, hinner, hsame⟩
  · obtain ⟨type, inner⟩ := info
    rintro ⟨hlow, rfl, rfl, hinner, rfl⟩
    dsimp only at hlow hsize hinner
    have hmax : (Envelope.header inner.encode.length ++ inner.encode).length ≤ Der.maxLength := by
      rw [List.length_append, Envelope.length_header, Envelope.headerSize, Der.maxLength]
      omega
    refine readContentInfo?_eq_some_iff.2 ⟨hmax, hinner, fits_contentInfo hlow (by omega), ?_⟩
    rw [Envelope.encode_contentInfo hlow (by omega), List.append_nil]

/-! ## The two ways in -/

/-- A byte string is one encoding of signed data, from end to end. -/
def Reads (data : Bytes) (d : SignedData) : Prop :=
  Der.readAll? SignedData.ofElement? data = some d

theorem reads_iff {data : Bytes} {d : SignedData} :
    Reads data d ↔ data.length ≤ Der.maxLength ∧
      ∃ inner : Element, inner.Fits ∧ data = inner.encode ∧ SignedData.ofElement? inner = some d :=
  Der.readAll?_eq_some_iff

/-- A wrapped form opens to some signed data. -/
def Opens (bytes : Bytes) (d : SignedData) : Prop :=
  ∃ info rest, readContentInfo? bytes = some (info, rest) ∧ openContentInfo info = .ok d

theorem openContentInfo_eq_ok_iff {info : ContentInfo} {d : SignedData} :
    openContentInfo info = .ok d ↔
      info.type = ContentInfo.signedData ∧ SignedData.ofElement? info.content = some d := by
  rw [openContentInfo]
  by_cases htype : info.type = ContentInfo.signedData
  · rw [if_pos htype]
    cases SignedData.ofElement? info.content <;> simp [htype]
  · simp [htype]

theorem checkSize_eq_ok_iff {data : Bytes} {u : Unit} :
    checkSize data = .ok u ↔ data.length ≤ maxInputSize := by
  rw [checkSize]
  split <;> simp_all

theorem checkInput_eq_ok_iff {data : Bytes} {u : Unit} :
    checkInput data = .ok u ↔ data ≠ [] ∧ data.length ≤ maxInputSize := by
  rw [checkInput, ← checkSize_eq_ok_iff (u := u)]
  split <;> simp_all

theorem read_eq_ok_iff_opens {data : Bytes} {d : SignedData} :
    read data = .ok d ↔ data ≠ [] ∧ data.length ≤ maxInputSize ∧
      ∃ e, Envelope.normalize data = .ok e ∧ Opens e.bytes d := by
  rw [read, Checked.bind_eq_ok_iff]
  simp only [Checked.bind_eq_ok_iff, checkInput_eq_ok_iff, normalize, Checked.mapError_eq_ok_iff,
    exists_const, and_assoc, Opens]
  refine and_congr_right fun _ ↦ and_congr_right fun _ ↦ exists_congr fun e ↦
    and_congr_right fun _ ↦ ?_
  cases readContentInfo? e.bytes with
  | none => simp
  | some found => simp [Prod.ext_iff]

/-- The content inside a blob is no longer than the content of any element. -/
theorem length_embeddedContent_le {data content : Bytes} {d : SignedData} (h : read data = .ok d)
    (hcontent : d.embeddedContent = some content) : content.length ≤ Der.maxLength := by
  obtain ⟨-, -, _, -, info, _, -, hopen⟩ := read_eq_ok_iff_opens.1 h
  obtain ⟨-, hread⟩ := openContentInfo_eq_ok_iff.1 hopen
  obtain ⟨x, hx, rfl⟩ := Option.map_eq_some_iff.1 hcontent
  exact (SignedData.fits_content_of_ofElement? hread hx).short

/-- What looks wrapped opens if and only if it begins with the header of what is behind it. -/
theorem opens_iff_of_isWrapped {bytes : Bytes} {d : SignedData}
    (hwrapped : Envelope.isWrapped bytes = true) (hmax : bytes.length ≤ Der.maxLength) :
    Opens bytes d ↔ ∃ bare rest : Bytes, 0x100 ≤ bare.length ∧ bare.length ≤ 65520 ∧
      bytes = Envelope.header bare.length ++ bare ++ rest ∧ Reads bare d := by
  constructor
  · rintro ⟨⟨type, inner⟩, rest, hread, hopen⟩
    obtain ⟨rfl, hinner⟩ := openContentInfo_eq_ok_iff.1 hopen
    obtain ⟨-, hfits, houter, rfl⟩ := readContentInfo?_eq_some_iff.1 hread
    obtain ⟨hlow, hhigh⟩ := (Envelope.isWrapped_contentInfo houter rest).1 hwrapped
    refine ⟨inner.encode, rest, hlow, hhigh, ?_, reads_iff.2 ⟨?_, inner, hfits, rfl, hinner⟩⟩
    · rw [Envelope.encode_contentInfo hlow hhigh]
    · exact hhigh.trans (by decide)
  · rintro ⟨bare, rest, hlow, hhigh, rfl, hreads⟩
    obtain ⟨-, inner, hfits, rfl, hinner⟩ := reads_iff.1 hreads
    refine ⟨⟨ContentInfo.signedData, inner⟩, rest, ?_, openContentInfo_eq_ok_iff.2 ⟨rfl, hinner⟩⟩
    refine readContentInfo?_eq_some_iff.2 ⟨hmax, hfits, fits_contentInfo hlow hhigh, ?_⟩
    rw [Envelope.encode_contentInfo hlow hhigh]

/-- Bare input opens behind its own header if and only if it is one encoding of signed data. -/
theorem opens_header_iff {data : Bytes} {d : SignedData} (hsize : data.length ≤ 65516) :
    Opens (Envelope.header data.length ++ data) d ↔ 0x100 ≤ data.length ∧ Reads data d := by
  rw [reads_iff]
  constructor
  · rintro ⟨info, rest, hread, hopen⟩
    obtain ⟨hlow, -, -, hfits, hdata⟩ := (readContentInfo?_header_eq_some_iff hsize).1 hread
    exact ⟨hlow, hsize.trans (by decide), _, hfits, hdata, (openContentInfo_eq_ok_iff.1 hopen).2⟩
  · rintro ⟨hlow, -, inner, hfits, hdata, hinner⟩
    exact ⟨⟨ContentInfo.signedData, inner⟩, [],
      (readContentInfo?_header_eq_some_iff hsize).2 ⟨hlow, rfl, rfl, hfits, hdata⟩,
      openContentInfo_eq_ok_iff.2 ⟨rfl, hinner⟩⟩

theorem isWrapped_of_reads {data : Bytes} {d : SignedData} (h : Reads data d) :
    Envelope.isWrapped data = false := by
  obtain ⟨-, inner, hfits, rfl, hinner⟩ := reads_iff.1 h
  exact Envelope.isWrapped_signedData hfits hinner

/-- What looks wrapped is read if and only if it begins with the header of what is behind it. -/
theorem read_eq_ok_iff_of_isWrapped {data : Bytes} {d : SignedData}
    (hwrapped : Envelope.isWrapped data = true) (hmax : data.length ≤ Der.maxLength) :
    read data = .ok d ↔ ∃ bare rest : Bytes, 0x100 ≤ bare.length ∧ bare.length ≤ 65520 ∧
      data = Envelope.header bare.length ++ bare ++ rest ∧ Reads bare d := by
  have hinput : data.length ≤ maxInputSize := hmax.trans (by decide)
  have hnil : data ≠ [] := fun h ↦ by
    rw [h] at hwrapped
    exact absurd hwrapped (by decide)
  rw [read_eq_ok_iff_opens, ← opens_iff_of_isWrapped hwrapped hmax]
  simp [Envelope.normalize_of_isWrapped hwrapped, hnil, hinput]

/-- Bare input is read if and only if it is one encoding of signed data of the right size. -/
theorem read_eq_ok_iff_of_bare {data : Bytes} {d : SignedData}
    (hbare : Envelope.isWrapped data = false) :
    read data = .ok d ↔ 0x100 ≤ data.length ∧ data.length ≤ 65516 ∧ Reads data d := by
  rw [read_eq_ok_iff_opens]
  simp only [Envelope.normalize_of_bare hbare]
  constructor
  · rintro ⟨-, -, _, ⟨-, hhigh, rfl⟩, hopens⟩
    obtain ⟨hlow, hreads⟩ := (opens_header_iff hhigh).1 hopens
    exact ⟨hlow, hhigh, hreads⟩
  · rintro ⟨hlow, hhigh, hreads⟩
    refine ⟨List.ne_nil_of_length_pos (by omega), hhigh.trans (by decide), _, ⟨?_, hhigh, rfl⟩,
      (opens_header_iff hhigh).2 ⟨hlow, hreads⟩⟩
    rw [Envelope.detectSize]
    omega

theorem read_eq_ok_iff {data : Bytes} (hmax : data.length ≤ Der.maxLength) {d : SignedData} :
    read data = .ok d ↔
      (∃ bare rest : Bytes, 0x100 ≤ bare.length ∧ bare.length ≤ 65520 ∧
        data = Envelope.header bare.length ++ bare ++ rest ∧ Reads bare d) ∨
      (0x100 ≤ data.length ∧ data.length ≤ 65516 ∧ Reads data d) := by
  cases hwrapped : Envelope.isWrapped data with
  | true =>
    have hbare : ¬Reads data d := fun h ↦ by
      rw [isWrapped_of_reads h] at hwrapped
      exact Bool.false_ne_true hwrapped
    simp [read_eq_ok_iff_of_isWrapped hwrapped hmax, hbare]
  | false =>
    have hno : ¬∃ bare rest : Bytes, 0x100 ≤ bare.length ∧ bare.length ≤ 65520 ∧
        data = Envelope.header bare.length ++ bare ++ rest ∧ Reads bare d := by
      rintro ⟨bare, rest, -, -, rfl, -⟩
      rw [List.append_assoc, Envelope.isWrapped_header] at hwrapped
      exact Bool.false_ne_true hwrapped.symm
    simp only [read_eq_ok_iff_of_bare hwrapped, hno, false_or]

/-- Bare input that is read has a wrapped form, and this is read in the same way whatever is behind
it. -/
theorem read_wrapped_append {data : Bytes} {d : SignedData}
    (hbare : Envelope.isWrapped data = false) (h : read data = .ok d) :
    ∃ wrapped, Envelope.wrap data = .ok wrapped ∧
      ∀ padding, (wrapped ++ padding).length ≤ Der.maxLength →
        read (wrapped ++ padding) = .ok d := by
  obtain ⟨hlow, hhigh, hreads⟩ := (read_eq_ok_iff_of_bare hbare).1 h
  refine ⟨Envelope.header data.length ++ data, if_pos hhigh, fun padding hmax ↦ ?_⟩
  exact (read_eq_ok_iff hmax).2 (.inl ⟨data, padding, hlow, by omega, rfl, hreads⟩)

theorem readCertificate_eq_ok_iff {data : Bytes} {c : X509.Certificate} :
    readCertificate data = .ok c ↔
      data ≠ [] ∧ data.length ≤ maxInputSize ∧ X509.Certificate.decode? data = some c := by
  rw [readCertificate, Checked.bind_eq_ok_iff]
  simp only [checkInput_eq_ok_iff, exists_const, and_assoc]
  refine and_congr_right fun _ ↦ and_congr_right fun _ ↦ ?_
  cases X509.Certificate.decode? data <;> simp

theorem readCertificate_encode {c : X509.Certificate}
    (h : X509.Certificate.decode? c.encode = some c) : readCertificate c.encode = .ok c := by
  refine readCertificate_eq_ok_iff.2 ⟨Element.encode_ne_nil _, ?_, h⟩
  have hsize : c.encode.length ≤ Der.maxLength := by
    by_contra hlong
    rw [X509.Certificate.decode?_eq_none_of_long (Nat.not_le.1 hlong)] at h
    cases h
  exact hsize.trans (by decide)

theorem readCertificate_append {data padding : Bytes} {c : X509.Certificate}
    (h : readCertificate data = .ok c) (hmax : (data ++ padding).length ≤ Der.maxLength) :
    readCertificate (data ++ padding) = .ok c := by
  obtain ⟨hnil, -, hread⟩ := readCertificate_eq_ok_iff.1 h
  refine readCertificate_eq_ok_iff.2 ⟨List.append_ne_nil_of_left_ne_nil hnil padding, ?_,
    X509.Certificate.decode?_append hread hmax⟩
  exact hmax.trans (by decide)

/-- **The input language of the reader.** Accepted input is a header for the size of one encoding of
signed data, that encoding, and any padding; or it is such an encoding alone. Signed data is never
taken for wrapped, and input that looks wrapped is only accepted with an outer length of two
bytes. -/
theorem accepted_inputs {data : Bytes} (hmax : data.length ≤ 2 ^ 28 - 1) (d : SignedData) :
    (read data = .ok d ↔
      (∃ bare rest : Bytes, 256 ≤ bare.length ∧ bare.length ≤ 65520 ∧
        data = [0x30, 0x82] ++ Bytes.ofNatBE 2 (bare.length + 15) ++ [0x06, 0x09] ++
          Envelope.signedDataOid ++ [0xa0, 0x82] ++ Bytes.ofNatBE 2 bare.length ++ bare ++ rest ∧
        Der.readAll? SignedData.ofElement? bare = some d) ∨
      (256 ≤ data.length ∧ data.length ≤ 65516 ∧
        Der.readAll? SignedData.ofElement? data = some d)) ∧
    (Der.readAll? SignedData.ofElement? data = some d → Envelope.isWrapped data = false) ∧
    (Envelope.isWrapped data = true → data.take 2 ≠ [0x30, 0x82] → read data ≠ .ok d) := by
  have hmax : data.length ≤ Der.maxLength := hmax
  refine ⟨read_eq_ok_iff hmax, isWrapped_of_reads, fun hwrapped hfront hread ↦ ?_⟩
  rcases (read_eq_ok_iff hmax).1 hread with ⟨bare, rest, -, -, rfl, -⟩ | ⟨-, -, hreads⟩
  · exact hfront rfl
  · rw [isWrapped_of_reads hreads] at hwrapped
    exact Bool.false_ne_true hwrapped

/-- Signed data without signers, over 256 octets of content. -/
def sampleData : SignedData :=
  { version := 1
    digestAlgorithms := []
    content := ⟨Cms.EncapsulatedContent.data, some (Der.ofOctets (List.replicate 256 0x2a))⟩
    certificates := none
    revocations := none
    signers := [] }

/-- Its wrapped form is read in spite of two bytes of padding. -/
theorem accepted_inputs_padded :
    (Envelope.header sampleData.encode.length ++ sampleData.encode ++ [0, 0]).length ≤ 2 ^ 28 - 1 ∧
      read (Envelope.header sampleData.encode.length ++ sampleData.encode ++ [0, 0]) =
        .ok sampleData :=
  have hmax : (Envelope.header sampleData.encode.length ++ sampleData.encode ++ [0, 0]).length ≤
      2 ^ 28 - 1 := by decide +kernel
  ⟨hmax, (accepted_inputs hmax sampleData).1.2 (.inl ⟨sampleData.encode, [0, 0],
    by decide +kernel, by decide +kernel, by decide +kernel, by decide +kernel⟩)⟩

end SignedFirmware.Blob
