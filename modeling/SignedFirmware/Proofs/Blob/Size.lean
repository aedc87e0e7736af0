import SignedFirmware.Proofs.Blob.Draft
import SignedFirmware.Proofs.Rsa.Signature

/-!
# New blobs that are not read

The writer spells the lengths of the outer structure with as many bytes as they take. The reader
knows this structure only by lengths of two bytes. It takes any other for a bare one, gives it
another header or finds that there is no room for one, and does not find signed data behind it. So
of the wrapped blobs that are made, those are read whose signed data has from 256 to 65520 bytes
(`Draft.read_build_iff`). Up to 65516 bytes, the fixed header that bare blobs get is the one that is
made here (`Draft.wrap_eq_build_iff`).
-/

namespace SignedFirmware.Blob

open Cms (ContentInfo SignedData)
open Der (Element)
open X509 (AlgorithmId Certificate)

/-! ## Content infos -/

/-- A content info is not signed data, as it begins with an identifier and not with a number. -/
theorem not_reads_contentInfo {inner : Element} {d : SignedData} :
    ¬Reads (ContentInfo.encode ⟨ContentInfo.signedData, inner⟩) d := by
  intro h
  obtain ⟨hlength, e, hfits, hencode, hread⟩ := reads_iff.1 h
  obtain ⟨es, rfl, -, hfields⟩ := Der.sequence_eq_some_iff.1 hread
  obtain ⟨first, mid, version, rfl, hversion, -⟩ := Der.Fields.exists_of_field_bind hfields
  obtain ⟨x, rfl, -⟩ := Der.eq_of_natBelow? (by decide) hversion
  have houter : (ContentInfo.toElement ⟨ContentInfo.signedData, inner⟩).content.length ≤
      Der.maxLength := (Element.length_content_lt _).le.trans hlength
  have hsame := Der.ofElements_encode_inj houter hfits.short hencode
  have htag : Der.Tag.oid = Der.Tag.integer := congrArg Element.tag (List.cons.inj hsame).1
  exact absurd htag (by decide)

/-- A content info alone is read if and only if both its lengths have exactly two bytes and what it
holds is signed data. -/
theorem read_contentInfo_eq_ok_iff {inner : Element} {d : SignedData}
    (hmax : (ContentInfo.encode ⟨ContentInfo.signedData, inner⟩).length ≤ Der.maxLength) :
    read (ContentInfo.encode ⟨ContentInfo.signedData, inner⟩) = .ok d ↔
      0x100 ≤ inner.encode.length ∧ inner.encode.length ≤ 65520 ∧ Reads inner.encode d := by
  have hfits : (ContentInfo.toElement ⟨ContentInfo.signedData, inner⟩).Fits :=
    ⟨Der.Tag.isKnown_sequence, (Element.length_content_lt _).le.trans hmax⟩
  rw [read_eq_ok_iff hmax]
  constructor
  · rintro (⟨bare, rest, hlow, hhigh, hdata, hreads⟩ | ⟨-, -, hreads⟩)
    · have hwrapped := Envelope.isWrapped_header bare.length (bare ++ rest)
      rw [← List.append_assoc, ← hdata, ← List.append_nil (ContentInfo.encode _),
        Envelope.isWrapped_contentInfo hfits] at hwrapped
      rw [Envelope.encode_contentInfo hwrapped.1 hwrapped.2, List.append_assoc] at hdata
      obtain ⟨hlength, hbytes⟩ := Envelope.header_append_inj (by omega) (by omega) hdata
      -- the two sizes agree, so nothing is left over behind the bare structure
      obtain ⟨hsame, -⟩ := List.append_inj (hbytes.symm.trans (List.append_nil _).symm) hlength.symm
      rw [← hsame]
      exact ⟨hlow, hhigh, hreads⟩
    · exact absurd hreads not_reads_contentInfo
  · rintro ⟨hlow, hhigh, hreads⟩
    refine .inl ⟨inner.encode, [], hlow, hhigh, ?_, hreads⟩
    rw [Envelope.encode_contentInfo hlow hhigh, List.append_nil]

/-- A content info that looks bare and has no room for another header is refused as too large. -/
theorem read_contentInfo_of_large {inner : Element}
    (hmax : (ContentInfo.encode ⟨ContentInfo.signedData, inner⟩).length ≤ Der.maxLength)
    (hlarge : 65520 < inner.encode.length) :
    read (ContentInfo.encode ⟨ContentInfo.signedData, inner⟩) =
      .error (.envelope
        (.tooLarge (ContentInfo.encode ⟨ContentInfo.signedData, inner⟩).length)) := by
  have hfits : (ContentInfo.toElement ⟨ContentInfo.signedData, inner⟩).Fits :=
    ⟨Der.Tag.isKnown_sequence, (Element.length_content_lt _).le.trans hmax⟩
  have hbare : Envelope.isWrapped (ContentInfo.encode ⟨ContentInfo.signedData, inner⟩) = false := by
    rw [Bool.eq_false_iff, ← List.append_nil (ContentInfo.encode _), ne_eq,
      Envelope.isWrapped_contentInfo hfits]
    omega
  have hlength : inner.encode.length <
      (ContentInfo.encode ⟨ContentInfo.signedData, inner⟩).length := by
    have := ContentInfo.length_content inner
    have := Element.length_content_lt (ContentInfo.toElement ⟨ContentInfo.signedData, inner⟩)
    rw [ContentInfo.encode]
    omega
  have hinput : checkInput (ContentInfo.encode ⟨ContentInfo.signedData, inner⟩) = .ok () :=
    checkInput_eq_ok_iff.2 ⟨Element.encode_ne_nil _, hmax.trans (by decide)⟩
  have hroom : Envelope.maxBareSize <
      (ContentInfo.encode ⟨ContentInfo.signedData, inner⟩).length := by
    rw [Envelope.maxBareSize, Envelope.headerSize]
    omega
  rw [read, hinput, normalize, Envelope.normalize_of_large hbare hroom]
  rfl

/-! ## New blobs -/

/-- **Which new blobs are read.** A wrapped blob that was made is read as its signed data if that
has from 256 to 65520 bytes, and as nothing else ever. If it has more, the error says so. -/
theorem Draft.read_build_iff {d : Draft} {wrapped : Bytes} (h : d.build = .ok wrapped)
    (hcerts : ∀ c ∈ d.certificates, c.Readable) :
    ∃ data, d.signedData = .ok data ∧
      (∀ found, read wrapped = .ok found ↔
        found = data ∧ 256 ≤ data.encode.length ∧ data.encode.length ≤ 65520) ∧
      (65520 < data.encode.length →
        read wrapped = .error (.envelope (.tooLarge wrapped.length))) := by
  obtain ⟨data, hdata, hlength, rfl, hmax⟩ := build_eq_ok_iff.1 h
  have hreads : Reads data.encode data := reads_of_signedData hdata hlength hcerts
  refine ⟨data, hdata, fun found ↦ ?_, read_contentInfo_of_large hmax⟩
  rw [ContentInfo.ofSignedData, read_contentInfo_eq_ok_iff hmax]
  constructor
  · rintro ⟨hlow, hhigh, hfound⟩
    exact ⟨Option.some.inj (hfound.symm.trans hreads), hlow, hhigh⟩
  · rintro ⟨rfl, hlow, hhigh⟩
    exact ⟨hlow, hhigh, hreads⟩

/-- A certificate with as little in it as possible. -/
def smallCertificate : Certificate :=
  let algorithm : AlgorithmId := ⟨⟨[0x2a, 0x03, 0x04]⟩, none⟩
  { tbs :=
      { version := .v1
        serial := [1]
        signature := algorithm
        issuer := ⟨[]⟩
        validity := ⟨⟨.utc, ⟨2024, 1, 1, 0, 0, 0⟩⟩, ⟨.utc, ⟨2024, 12, 31, 23, 59, 59⟩⟩⟩
        subject := ⟨[]⟩
        publicKey := ⟨algorithm, ⟨0, []⟩⟩
        issuerUniqueId := none
        subjectUniqueId := none
        extensions := none }
    signatureAlgorithm := algorithm
    signature := ⟨0, []⟩ }

theorem readable_smallCertificate : smallCertificate.Readable :=
  ⟨smallCertificate.toElement, by decide +kernel⟩

/-- Its owner signs some content. -/
def smallDraft (content : Bytes) (detached : Bool) : Draft where
  content
  detached
  signers := [⟨Rsa.sampleKey, smallCertificate, .sha256, false⟩]
  extra := []

theorem readable_smallDraft (content : Bytes) (detached : Bool) :
    ∀ c ∈ (smallDraft content detached).certificates, c.Readable := by
  intro c hc
  obtain ⟨_, hs, rfl⟩ | hextra := Draft.mem_certificates.1 hc
  · obtain rfl := List.mem_singleton.1 hs
    exact readable_smallCertificate
  · cases hextra

/-- With 40 bytes of content inside, the signed data is just large enough. -/
theorem Draft.read_build_iff_embedded :
    ∃ wrapped data, (smallDraft (List.replicate 40 0x2a) false).build = .ok wrapped ∧
      (∀ c ∈ (smallDraft (List.replicate 40 0x2a) false).certificates, c.Readable) ∧
      data.encode.length = 258 ∧ read wrapped = .ok data := by
  have hbuild : (smallDraft (List.replicate 40 0x2a) false).build.isOk = true := by decide +kernel
  have hsize : (smallDraft (List.replicate 40 0x2a) false).signedData.map (·.encode.length) =
      .ok 258 := by decide +kernel
  obtain ⟨wrapped, hwrapped⟩ := Checked.isOk_iff.1 hbuild
  obtain ⟨data, hdata, hlength⟩ := Checked.map_eq_ok_iff.1 hsize
  obtain ⟨data', hdata', hread, -⟩ :=
    Draft.read_build_iff hwrapped (readable_smallDraft (List.replicate 40 0x2a) false)
  obtain rfl : data = data' := Except.ok.inj (hdata.symm.trans hdata')
  refine ⟨wrapped, data, hwrapped, readable_smallDraft _ _, hlength, ?_⟩
  exact (hread data).2 ⟨rfl, by omega, by omega⟩

/-- Without content, it is too small: what is made is not read. -/
theorem Draft.read_build_of_small :
    (smallDraft [0x66, 0x77] true).signers ≠ [] ∧
      (smallDraft [0x66, 0x77] true).build.map List.length = .ok 231 ∧
      ((smallDraft [0x66, 0x77] true).build >>= read) = .error .contentInfo := by
  decide +kernel

/-! ## The fixed header -/

/-- **Where the fixed header is the encoding.** The header in front of the bare form of a new blob
makes its wrapped form if and only if the bare form has from 256 to 65516 bytes. -/
theorem Draft.wrap_eq_build_iff {d : Draft} {bare wrapped : Bytes}
    (hbare : d.buildBare = .ok bare) (hwrapped : d.build = .ok wrapped) :
    Envelope.wrap bare = .ok wrapped ↔ 256 ≤ bare.length ∧ bare.length ≤ 65516 := by
  obtain ⟨data, hdata, rfl, -⟩ := buildBare_eq_ok_iff.1 hbare
  obtain ⟨data', hdata', -, rfl, hmax⟩ := build_eq_ok_iff.1 hwrapped
  obtain rfl : data' = data := Except.ok.inj (hdata'.symm.trans hdata)
  have hfits : (ContentInfo.toElement ⟨ContentInfo.signedData, data'.toElement⟩).Fits :=
    ⟨Der.Tag.isKnown_sequence, (Element.length_content_lt _).le.trans hmax⟩
  exact Envelope.wrap_encode_eq_ok_iff hfits

/-- With 40 bytes of content inside, the header is the one of the encoding. Without content, the
bare form has 214 bytes, and the encoding takes fewer bytes for the lengths. -/
theorem Draft.wrap_eq_build_iff_small :
    (∃ bare wrapped, (smallDraft (List.replicate 40 0x2a) false).buildBare = .ok bare ∧
      (smallDraft (List.replicate 40 0x2a) false).build = .ok wrapped ∧
      Envelope.wrap bare = .ok wrapped) ∧
    ∃ bare wrapped, (smallDraft [0x66, 0x77] true).buildBare = .ok bare ∧
      (smallDraft [0x66, 0x77] true).build = .ok wrapped ∧
      Envelope.wrap bare ≠ .ok wrapped := by
  have hlarge :
      (smallDraft (List.replicate 40 0x2a) false).buildBare.map List.length = .ok 258 := by
    decide +kernel
  have hlarge' : (smallDraft (List.replicate 40 0x2a) false).build.isOk = true := by decide +kernel
  have hsmall : (smallDraft [0x66, 0x77] true).buildBare.map List.length = .ok 214 := by
    decide +kernel
  have hsmall' : (smallDraft [0x66, 0x77] true).build.isOk = true := by decide +kernel
  obtain ⟨bare, hbare, hlength⟩ := Checked.map_eq_ok_iff.1 hlarge
  obtain ⟨wrapped, hwrapped⟩ := Checked.isOk_iff.1 hlarge'
  obtain ⟨bare', hbare', hlength'⟩ := Checked.map_eq_ok_iff.1 hsmall
  obtain ⟨wrapped', hwrapped'⟩ := Checked.isOk_iff.1 hsmall'
  refine ⟨⟨bare, wrapped, hbare, hwrapped, ?_⟩, bare', wrapped', hbare', hwrapped', fun h ↦ ?_⟩
  · exact (Draft.wrap_eq_build_iff hbare hwrapped).2 ⟨by omega, by omega⟩
  · have hlow := ((Draft.wrap_eq_build_iff hbare' hwrapped').1 h).1
    omega

end SignedFirmware.Blob
