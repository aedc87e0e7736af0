import SignedFirmware.Cms.SignedData
import SignedFirmware.Proofs.Der.Value

/-!
# Telling wrapped from bare by fixed positions

`Envelope.isWrapped` looks at the bytes from the fifth to the seventeenth and at nothing else. What
it makes of an encoding depends on how many bytes the outer length takes: only behind a length of
exactly two bytes can an object identifier start at the fifth byte. So the proofs here go through
the forms of that length, one after the other.

The outcome is that the fixed positions never mislead. A content info with signed data is taken for
wrapped if and only if it begins with the header that `wrap` would put there
(`isWrapped_contentInfo`), and signed data itself never is (`isWrapped_signedData`).
-/

namespace SignedFirmware

open Der (Element)

namespace Cms.ContentInfo

/-- The element `[0]` that holds a value of any kind. -/
def held (inner : Element) : Element := .ofElements (Der.Tag.context 0) [inner]

theorem held_encode (inner : Element) :
    (held inner).encode = 0xa0 :: (Der.lengthBytes inner.encode.length ++ inner.encode) := by
  simp [held, Element.ofElements, Element.encode, Der.Tag.context]

/-- The content octets of a content info with signed data. -/
theorem content_toElement (inner : Element) :
    (toElement ⟨signedData, inner⟩).content =
      [0x06, 0x09] ++ Envelope.signedDataOid ++ (held inner).encode := by
  have hoid : (Der.ofOid signedData).encode = [0x06, 0x09] ++ Envelope.signedDataOid := by
    decide
  simp only [toElement, Element.ofElements, List.flatMap_cons, List.flatMap_nil, List.append_nil,
    hoid, held]

theorem encode_eq (inner : Element) :
    encode ⟨signedData, inner⟩ =
      0x30 :: (Der.lengthBytes (toElement ⟨signedData, inner⟩).content.length ++
        ([0x06, 0x09] ++ Envelope.signedDataOid ++
          0xa0 :: (Der.lengthBytes inner.encode.length ++ inner.encode))) := by
  rw [← held_encode, ← content_toElement]
  rfl

theorem length_content (inner : Element) :
    (toElement ⟨signedData, inner⟩).content.length =
      12 + (Der.lengthBytes inner.encode.length).length + inner.encode.length := by
  rw [content_toElement, held_encode]
  simp [Envelope.signedDataOid]
  omega

end Cms.ContentInfo

namespace Envelope

open Cms (ContentInfo SignedData)

/-! ## The header -/

theorem isWrapped_header (size : Nat) (data : Bytes) : isWrapped (header size ++ data) = true := by
  simp [isWrapped, header, Bytes.ofNatBE, signedDataOid, detectSize]

/-- A header is the front of a sequence that begins with the identifier of signed data. -/
theorem header_append_eq (size : Nat) (data : Bytes) :
    header size ++ data =
      0x30 :: 0x82 :: (Bytes.ofNatBE 2 (size + (headerSize - 4)) ++
        ((Der.ofOid ContentInfo.signedData).encode ++
          ([0xa0, 0x82] ++ Bytes.ofNatBE 2 size ++ data))) := by
  have hoid : (Der.ofOid ContentInfo.signedData).encode = [0x06, 0x09] ++ signedDataOid := by
    decide
  simp [header, hoid]

/-- Bytes behind those that are looked at make no difference. -/
theorem isWrapped_of_front {cut data : Bytes} (hfront : cut <+: data)
    (hsize : detectSize ≤ cut.length) : isWrapped cut = isWrapped data := by
  obtain ⟨rest, rfl⟩ := hfront
  rw [detectSize] at hsize
  rw [isWrapped, isWrapped, List.drop_append_of_le_length (by omega),
    List.take_append_of_le_length (by rw [List.length_drop]; omega)]
  simp [detectSize, hsize, Nat.le_add_right_of_le hsize]

/-- A header gives the size that it was made for away. -/
theorem header_append_inj {m n : Nat} {a b : Bytes} (hm : m < 0x10000) (hn : n < 0x10000)
    (h : header m ++ a = header n ++ b) : m = n ∧ a = b := by
  obtain ⟨hheader, htail⟩ := List.append_inj h (by simp)
  refine ⟨Bytes.ofNatBE_inj (w := 2) hm hn ?_, htail⟩
  exact (List.append_inj' hheader (by simp)).2

theorem normalize_of_isWrapped {data : Bytes} (h : isWrapped data = true) :
    normalize data = .ok ⟨true, data⟩ := by
  have hsize : detectSize ≤ data.length := by
    rw [isWrapped, Bool.and_eq_true, decide_eq_true_iff] at h
    exact h.1
  rw [normalize, if_neg (Nat.not_lt.2 hsize), if_pos h]

theorem normalize_of_bare {data : Bytes} {e : Envelope} (h : isWrapped data = false) :
    normalize data = .ok e ↔
      detectSize ≤ data.length ∧ data.length ≤ maxBareSize ∧
        e = ⟨false, header data.length ++ data⟩ := by
  rw [normalize, wrap, h, if_neg Bool.false_ne_true]
  by_cases hlow : data.length < detectSize
  · simp [hlow, Nat.not_le.2 hlow]
  · by_cases hhigh : data.length ≤ maxBareSize
    · simp [hlow, hhigh, Except.map, Nat.not_lt.1 hlow, eq_comm]
    · simp [hlow, hhigh, Except.map]

theorem normalize_of_large {data : Bytes} (h : isWrapped data = false)
    (hlarge : maxBareSize < data.length) : normalize data = .error (.tooLarge data.length) := by
  have hsize : ¬data.length < detectSize := Nat.not_lt.2 (le_trans (by decide) hlarge.le)
  rw [normalize, wrap, if_neg hsize, h, if_neg Bool.false_ne_true, if_neg (Nat.not_le.2 hlarge)]
  rfl

/-! ## Encodings at the fixed positions -/

/-- Behind a header there is the content info that holds the bare structure. -/
theorem encode_contentInfo {inner : Element} (hlow : 0x100 ≤ inner.encode.length)
    (hhigh : inner.encode.length ≤ 65520) :
    ContentInfo.encode ⟨ContentInfo.signedData, inner⟩ =
      header inner.encode.length ++ inner.encode := by
  have hinner := Der.lengthBytes_two hlow (by omega)
  have hsize : (ContentInfo.toElement ⟨ContentInfo.signedData, inner⟩).content.length
      = inner.encode.length + (headerSize - 4) := by
    rw [ContentInfo.length_content, hinner, List.length_cons, Bytes.length_ofNatBE, headerSize]
    omega
  have houter := Der.lengthBytes_two (n := inner.encode.length + (headerSize - 4)) (by omega)
    (by rw [headerSize]; omega)
  rw [ContentInfo.encode_eq, hsize, hinner, houter]
  simp [header]

/-- A content info with signed data looks wrapped if and only if both its lengths have exactly two
bytes. -/
theorem isWrapped_contentInfo {inner : Element}
    (hfits : (ContentInfo.toElement ⟨ContentInfo.signedData, inner⟩).Fits) (rest : Bytes) :
    isWrapped (ContentInfo.encode ⟨ContentInfo.signedData, inner⟩ ++ rest) = true ↔
      0x100 ≤ inner.encode.length ∧ inner.encode.length ≤ 65520 := by
  have hsize := ContentInfo.length_content inner
  have hmax := hfits.short
  rw [ContentInfo.encode_eq]
  set n := (ContentInfo.toElement ⟨ContentInfo.signedData, inner⟩).content.length
  set m := inner.encode.length
  have hm := Der.lengthBytes_form (n := m) (by omega)
  have hn := Der.lengthBytes_form hmax
  generalize Der.lengthBytes n = outer at hn
  generalize Der.lengthBytes m = middle at hm hsize
  have hmiddle : m < 0x10000 → middle.length ≤ 3 := by
    cases hm <;> simp <;> omega
  cases hn with
  | short => simp [isWrapped, signedDataOid]; omega
  | one => simp [isWrapped, signedDataOid]; omega
  | three => simp [isWrapped, signedDataOid]; omega
  | four => simp [isWrapped, signedDataOid]; omega
  | two hlow hhigh =>
    -- now the last byte that is looked at is the first one of the inner length
    cases hm with
    | short hm =>
      have hbyte : UInt8.ofNat m ≠ 0x82 := fun h ↦ by
        have hnat := congrArg UInt8.toNat h
        rw [UInt8.toNat_ofNat_of_lt' (by omega), UInt8.toNat_ofNat] at hnat
        omega
      simp [isWrapped, signedDataOid, Bytes.ofNatBE, hbyte]
      omega
    | one => simp [isWrapped, signedDataOid, Bytes.ofNatBE]; omega
    | two =>
      simp only [List.length_cons, Bytes.length_ofNatBE] at hsize
      simp [isWrapped, signedDataOid, detectSize, Bytes.ofNatBE]
      omega
    | three => simp at hsize; omega
    | four => simp at hsize; omega

/-- The fixed header agrees with the encoding of a content info exactly where both lengths have two
bytes and the header can hold them. -/
theorem wrap_encode_eq_ok_iff {inner : Element}
    (hfits : (ContentInfo.toElement ⟨ContentInfo.signedData, inner⟩).Fits) :
    wrap inner.encode = .ok (ContentInfo.encode ⟨ContentInfo.signedData, inner⟩) ↔
      0x100 ≤ inner.encode.length ∧ inner.encode.length ≤ maxBareSize := by
  rw [wrap]
  by_cases hhigh : inner.encode.length ≤ maxBareSize
  · rw [if_pos hhigh]
    constructor
    · intro h
      -- what begins with a header looks wrapped, and so does the content info if it is the same
      have hwrapped := isWrapped_header inner.encode.length inner.encode
      rw [Except.ok.inj h, ← List.append_nil (ContentInfo.encode _),
        isWrapped_contentInfo hfits] at hwrapped
      exact ⟨hwrapped.1, hhigh⟩
    · rintro ⟨hlow, -⟩
      rw [encode_contentInfo hlow (hhigh.trans (by decide))]
  · simp [hhigh]

/-- Signed data begins with its version, and so it never looks wrapped. -/
theorem isWrapped_signedData {inner : Element} {d : SignedData} (hfits : inner.Fits)
    (h : SignedData.ofElement? inner = some d) : isWrapped inner.encode = false := by
  obtain ⟨es, rfl, -, hfields⟩ := Der.sequence_eq_some_iff.1 h
  obtain ⟨version, mid, hversion, -⟩ := Der.Fields.bind_eq_some_iff.1 hfields
  obtain ⟨e, rfl, hnat⟩ := Der.Fields.field_eq_some_iff.1 hversion
  obtain ⟨x, rfl, hx⟩ := Der.eq_of_natBelow? (by decide) hnat
  have hbyte : x ≠ 0x06 := fun h ↦ by
    rw [h] at hx
    exact absurd hx (by decide)
  have hlength : Der.lengthBytes 1 = [0x01] := by decide
  have hform := Der.lengthBytes_form hfits.short
  rw [Element.encode]
  generalize Der.lengthBytes _ = outer at hform
  cases hform <;>
    simp [Element.ofElements, Element.encode, hlength, isWrapped, signedDataOid, Bytes.ofNatBE,
      Der.Tag.integer, hbyte]

end Envelope

end SignedFirmware
