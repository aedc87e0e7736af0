import SignedFirmware.Der.Element
import SignedFirmware.Proofs.Bytes

/-!
# Reading and writing elements undo each other

The encoding is distinguished, so a reader can say exactly what it read: `read?` takes an element
off the front of a byte string if and only if the byte string begins with the spelling of that
element, and the element is one that has a spelling. The second condition is `Element.Fits`: the tag
may occur, and the content is not too long.

All three readers (of a length, of one element, of many) come as an equivalence, `…_eq_some_iff`,
which serves both to evaluate a reader on what a writer made and to invert a reader that succeeded.
-/

namespace SignedFirmware.Der

/-! ## Lengths -/

theorem lengthBytes_of_lt {n : Nat} (h : n < 0x80) : lengthBytes n = [UInt8.ofNat n] := if_pos h

theorem lengthBytes_of_le {n : Nat} (h : 0x80 ≤ n) :
    lengthBytes n = UInt8.ofNat (0x80 + (Bytes.ofNat n).length) :: Bytes.ofNat n :=
  if_neg (by omega)

/-- A length of two bytes is spelled with exactly these. -/
theorem lengthBytes_two {n : Nat} (hlow : 0x100 ≤ n) (hhigh : n < 0x10000) :
    lengthBytes n = 0x82 :: Bytes.ofNatBE 2 n := by
  have hform : Bytes.ofNat n = Bytes.ofNatBE 2 n := Bytes.ofNat_eq_ofNatBE (w := 1) hlow hhigh
  rw [lengthBytes_of_le (by omega), hform, Bytes.length_ofNatBE]
  rfl

theorem length_ofNat_le_four {n : Nat} (h : n ≤ maxLength) : (Bytes.ofNat n).length ≤ 4 :=
  Bytes.length_ofNat_le_iff.2 (lt_of_le_of_lt h (by decide))

theorem length_ofNat_pos {n : Nat} (h : 0x80 ≤ n) : 0 < (Bytes.ofNat n).length :=
  Bytes.lt_length_ofNat_iff.2 (by omega)

theorem length_lengthBytes_mono {m n : Nat} (h : m ≤ n) :
    (lengthBytes m).length ≤ (lengthBytes n).length := by
  by_cases hn : n < 0x80
  · rw [lengthBytes_of_lt hn, lengthBytes_of_lt (h.trans_lt hn)]
    rfl
  rw [lengthBytes_of_le (Nat.le_of_not_lt hn), List.length_cons]
  by_cases hm : m < 0x80
  · rw [lengthBytes_of_lt hm, List.length_singleton]
    exact Nat.succ_le_succ (Nat.zero_le _)
  · rw [lengthBytes_of_le (Nat.le_of_not_lt hm), List.length_cons]
    exact Nat.succ_le_succ (Bytes.length_ofNat_mono h)

theorem length_lengthBytes_le {n : Nat} (h : n ≤ maxLength) : (lengthBytes n).length ≤ 5 := by
  by_cases hn : n < 0x80
  · rw [lengthBytes_of_lt hn, List.length_singleton]
    decide
  · rw [lengthBytes_of_le (Nat.le_of_not_lt hn), List.length_cons]
    exact Nat.succ_le_succ (length_ofNat_le_four h)

/-- The forms of a length: itself, or its number of bytes and these. -/
inductive LengthForm (n : Nat) : Bytes → Prop where
  | short (hhigh : n < 0x80) : LengthForm n [UInt8.ofNat n]
  | one (a : UInt8) (hlow : 0x80 ≤ n) (hhigh : n < 0x100) : LengthForm n [0x81, a]
  | two (hlow : 0x100 ≤ n) (hhigh : n < 0x10000) : LengthForm n (0x82 :: Bytes.ofNatBE 2 n)
  | three (a b c : UInt8) (hlow : 0x10000 ≤ n) : LengthForm n [0x83, a, b, c]
  | four (a b c d : UInt8) (hlow : 0x10000 ≤ n) : LengthForm n [0x84, a, b, c, d]

theorem lengthBytes_form {n : Nat} (h : n ≤ maxLength) : LengthForm n (lengthBytes n) := by
  by_cases hshort : n < 0x80
  · rw [lengthBytes_of_lt hshort]
    exact .short hshort
  by_cases htwo : 0x100 ≤ n ∧ n < 0x10000
  · rw [lengthBytes_two htwo.1 htwo.2]
    exact .two htwo.1 htwo.2
  have hmax := length_ofNat_le_four h
  have hlow := length_ofNat_pos (Nat.le_of_not_lt hshort)
  have hone := Bytes.length_ofNat_le_iff (n := n) (w := 1)
  have hmore := Bytes.lt_length_ofNat_iff (n := n) (w := 2)
  have hsome := Bytes.length_ofNat_le_iff (n := n) (w := 2)
  rw [lengthBytes_of_le (Nat.le_of_not_lt hshort)]
  -- two octets are out, so the number of octets tells the form
  match hform : Bytes.ofNat n with
  | [] =>
    rw [hform] at hlow
    exact absurd hlow (Nat.lt_irrefl 0)
  | [a] =>
    simp only [hform, List.length_cons, List.length_nil, Nat.reducePow] at hone
    exact .one a (by omega) (by omega)
  | [a, b] =>
    simp only [hform, List.length_cons, List.length_nil, Nat.reducePow] at hone hsome
    omega
  | [a, b, c] =>
    simp only [hform, List.length_cons, List.length_nil, Nat.reducePow] at hmore
    exact .three a b c (by omega)
  | [a, b, c, d] =>
    simp only [hform, List.length_cons, List.length_nil, Nat.reducePow] at hmore
    exact .four a b c d (by omega)
  | a :: b :: c :: d :: e :: rest =>
    simp only [hform, List.length_cons] at hmax
    omega

theorem readLength?_lengthBytes {n : Nat} (h : n ≤ maxLength) (rest : Bytes) :
    readLength? (lengthBytes n ++ rest) = some (n, rest) := by
  by_cases hn : n < 0x80
  · have hbyte : (UInt8.ofNat n).toNat = n := by rw [UInt8.toNat_ofNat']; omega
    rw [lengthBytes_of_lt hn, List.singleton_append, readLength?, hbyte,
      if_pos (UInt8.lt_iff_toNat_lt.2 (by rw [hbyte]; exact hn))]
  · have hlow := length_ofNat_pos (Nat.le_of_not_lt hn)
    have hhigh := length_ofNat_le_four h
    have hform := lengthBytes_of_le (Nat.le_of_not_lt hn)
    set k := (Bytes.ofNat n).length with hk
    have hfirst : (UInt8.ofNat (0x80 + k)).toNat = 0x80 + k := by
      rw [UInt8.toNat_ofNat']; omega
    have htake : (Bytes.ofNat n ++ rest).take k = Bytes.ofNat n := List.take_left' hk.symm
    have hdrop : (Bytes.ofNat n ++ rest).drop k = rest := List.drop_left' hk.symm
    have hlong : ¬UInt8.ofNat (0x80 + k) < 0x80 := by
      rw [UInt8.lt_iff_toNat_lt, hfirst]
      exact Nat.not_lt.2 (Nat.le_add_right _ _)
    have hrange : 0x81 ≤ UInt8.ofNat (0x80 + k) ∧ UInt8.ofNat (0x80 + k) ≤ 0x84 := by
      rw [UInt8.le_iff_toNat_le, UInt8.le_iff_toNat_le, hfirst]
      exact ⟨Nat.add_le_add_left hlow 0x80, Nat.add_le_add_left hhigh 0x80⟩
    rw [hform, List.cons_append, readLength?, if_neg hlong, if_pos hrange, hfirst,
      Nat.add_sub_cancel_left, htake, hdrop]
    dsimp only
    rw [Bytes.toNat_ofNat, if_pos ⟨h, hform⟩]

/-- A length that was read stands at the front in its one spelling. -/
theorem eq_lengthBytes_of_readLength? {data rest : Bytes} {n : Nat}
    (h : readLength? data = some (n, rest)) : n ≤ maxLength ∧ data = lengthBytes n ++ rest := by
  cases data with
  | nil => simp [readLength?] at h
  | cons first tail =>
    rw [readLength?] at h
    by_cases hshort : first < 0x80
    · rw [if_pos hshort, Option.some.injEq, Prod.mk.injEq] at h
      obtain ⟨rfl, rfl⟩ := h
      have hlt : first.toNat < 0x80 := UInt8.lt_iff_toNat_lt.1 hshort
      rw [lengthBytes_of_lt hlt, UInt8.ofNat_toNat]
      exact ⟨hlt.le.trans (by decide), rfl⟩
    · rw [if_neg hshort] at h
      simp only [Option.ite_none_right_eq_some, Option.some.injEq, Prod.mk.injEq] at h
      obtain ⟨-, ⟨hmax, hform⟩, hn, rfl⟩ := h
      rw [hn] at hmax hform
      rw [hform, List.cons_append, List.take_append_drop]
      exact ⟨hmax, rfl⟩

/-! ## Tags -/

namespace Tag

@[simp] theorem isKnown_integer : isKnown integer = true := by decide

@[simp] theorem isKnown_bitString : isKnown bitString = true := by decide

@[simp] theorem isKnown_octetString : isKnown octetString = true := by decide

@[simp] theorem isKnown_oid : isKnown oid = true := by decide

@[simp] theorem isKnown_sequence : isKnown sequence = true := by decide

@[simp] theorem isKnown_set : isKnown set = true := by decide

@[simp] theorem isKnown_context_zero : isKnown (context 0) = true := by decide

@[simp] theorem isKnown_context_one : isKnown (context 1) = true := by decide

end Tag

/-! ## One element -/

namespace Element

/-- An element that has a spelling: its tag may occur, and its content is not too long. -/
structure Fits (e : Element) : Prop where
  known : Tag.isKnown e.tag = true
  short : e.content.length ≤ maxLength

instance (e : Element) : Decidable e.Fits :=
  decidable_of_iff (Tag.isKnown e.tag = true ∧ e.content.length ≤ maxLength)
    ⟨fun h ↦ ⟨h.1, h.2⟩, fun h ↦ ⟨h.known, h.short⟩⟩

theorem encode_ne_nil (e : Element) : e.encode ≠ [] := List.cons_ne_nil _ _

theorem length_encode (e : Element) :
    e.encode.length = 1 + (lengthBytes e.content.length).length + e.content.length := by
  rw [encode, List.length_cons, List.length_append]
  omega

theorem length_encode_congr {e f : Element} (h : e.content.length = f.content.length) :
    e.encode.length = f.encode.length := by
  rw [length_encode, length_encode, h]

theorem length_encode_mono {e f : Element} (h : e.content.length ≤ f.content.length) :
    e.encode.length ≤ f.encode.length := by
  have hlength := length_lengthBytes_mono h
  rw [length_encode, length_encode]
  omega

theorem length_content_lt (e : Element) : e.content.length < e.encode.length := by
  rw [length_encode]
  omega

theorem encode?_eq_some_iff {bytes : Bytes} {e : Element} :
    e.encode? = some bytes ↔ e.encode.length ≤ maxLength ∧ e.encode = bytes := by
  rw [encode?, Option.ite_none_right_eq_some, Option.some.injEq]

theorem read?_eq_some_iff {data rest : Bytes} {e : Element} :
    read? data = some (e, rest) ↔ e.Fits ∧ data = e.encode ++ rest := by
  constructor
  · intro h
    cases data with
    | nil => simp [read?] at h
    | cons tag tail =>
      rw [read?] at h
      split at h
      · rename_i hknown
        split at h
        · simp at h
        · rename_i n body hlength
          obtain ⟨hmax, rfl⟩ := eq_lengthBytes_of_readLength? hlength
          rw [Option.ite_none_right_eq_some, Option.some.injEq, Prod.mk.injEq] at h
          obtain ⟨hsize, rfl, rfl⟩ := h
          refine ⟨⟨hknown, hsize.trans_le hmax⟩, ?_⟩
          rw [encode, hsize, List.cons_append, List.append_assoc, List.take_append_drop]
      · simp at h
  · rintro ⟨hfits, rfl⟩
    rw [encode, List.cons_append, List.append_assoc, read?, if_pos hfits.known,
      readLength?_lengthBytes hfits.short]
    simp

theorem read?_encode_append {e : Element} (h : e.Fits) (rest : Bytes) :
    read? (e.encode ++ rest) = some (e, rest) :=
  read?_eq_some_iff.2 ⟨h, rfl⟩

/-- The spelling of an element is never the front of that of another one. The lengths are enough for
that, so it holds of all tags. -/
theorem encode_append_inj {a b : Element} {x y : Bytes} (ha : a.content.length ≤ maxLength)
    (hb : b.content.length ≤ maxLength) (h : a.encode ++ x = b.encode ++ y) : a = b ∧ x = y := by
  obtain ⟨s, c⟩ := a
  obtain ⟨t, d⟩ := b
  simp only [encode, List.cons_append, List.append_assoc, List.cons.injEq] at h
  obtain ⟨rfl, hrest⟩ := h
  have hread := readLength?_lengthBytes ha (c ++ x)
  rw [hrest, readLength?_lengthBytes hb, Option.some.injEq, Prod.mk.injEq] at hread
  obtain ⟨hlength, hcontent⟩ := hread
  obtain ⟨rfl, rfl⟩ := List.append_inj hcontent hlength
  exact ⟨rfl, rfl⟩

/-- No element stands at the front of a spelling that was cut off. -/
theorem read?_eq_none_of_cut {e : Element} {cut : Bytes} (he : e.content.length ≤ maxLength)
    (hfront : cut <+: e.encode) (hne : cut ≠ e.encode) : read? cut = none := by
  rw [Option.eq_none_iff_forall_ne_some]
  rintro ⟨f, rest⟩ hread
  obtain ⟨hf, rfl⟩ := read?_eq_some_iff.1 hread
  obtain ⟨more, hmore⟩ := hfront
  rw [List.append_assoc, ← List.append_nil e.encode] at hmore
  obtain ⟨rfl, hnil⟩ := encode_append_inj hf.short he hmore
  rw [(List.append_eq_nil_iff.1 hnil).1, List.append_nil] at hne
  exact hne rfl

theorem encode_inj {a b : Element} (ha : a.content.length ≤ maxLength)
    (hb : b.content.length ≤ maxLength) : a.encode = b.encode ↔ a = b := by
  refine ⟨fun h ↦ ?_, fun h ↦ h ▸ rfl⟩
  rw [← List.append_nil a.encode, ← List.append_nil b.encode] at h
  exact (encode_append_inj ha hb h).1

theorem ofBytes?_eq_some_iff {data : Bytes} {e : Element} :
    ofBytes? data = some e ↔ e.Fits ∧ data = e.encode := by
  have hread : ofBytes? data = some e ↔ read? data = some (e, []) := by
    rw [ofBytes?]
    split
    · rename_i hdata
      rw [hdata]
      simp
    · rename_i hdata
      simp only [reduceCtorEq, false_iff]
      exact hdata e
  rw [hread, read?_eq_some_iff, List.append_nil]

end Element

/-! ## Many elements -/

open Element

theorem elements?_nil : elements? [] = some [] := by
  rw [elements?, if_pos rfl]

theorem elements?_encode_append {e : Element} (h : e.Fits) (rest : Bytes) :
    elements? (e.encode ++ rest) = (elements? rest).map (e :: ·) := by
  rw [elements?, if_neg (by simp [encode_ne_nil])]
  split
  · rename_i hread
    rw [read?_encode_append h] at hread
    simp at hread
  · rename_i hread
    rw [read?_encode_append h, Option.some.injEq, Prod.mk.injEq] at hread
    rw [hread.1, hread.2]

theorem elements?_eq_some_iff {data : Bytes} {es : List Element} :
    elements? data = some es ↔ (∀ e ∈ es, e.Fits) ∧ data = es.flatMap encode := by
  constructor
  · intro h
    fun_induction elements? data generalizing es with
    | case1 =>
      cases h
      simp
    | case2 => simp at h
    | case3 data hne e rest hread ih =>
      obtain ⟨more, hmore, rfl⟩ := Option.map_eq_some_iff.1 h
      obtain ⟨hfits, rfl⟩ := read?_eq_some_iff.1 hread
      obtain ⟨hall, rfl⟩ := ih hmore
      exact ⟨List.forall_mem_cons.2 ⟨hfits, hall⟩, (List.flatMap_cons ..).symm⟩
  · rintro ⟨hall, rfl⟩
    induction es with
    | nil => exact elements?_nil
    | cons e es ih =>
      obtain ⟨he, hes⟩ := List.forall_mem_cons.1 hall
      rw [List.flatMap_cons, elements?_encode_append he, ih hes, Option.map_some]

/-! ## Elements made of elements -/

@[simp] theorem ofElements_tag (tag : Tag) (es : List Element) :
    (ofElements tag es).tag = tag := rfl

theorem length_encode_le_of_mem {e : Element} {es : List Element} (h : e ∈ es) :
    e.encode.length ≤ (es.flatMap encode).length := by
  rw [List.flatMap_def]
  exact (List.sublist_flatten_of_mem (List.mem_map_of_mem h)).length_le

theorem length_content_le_of_mem {e : Element} {es : List Element} (h : e ∈ es) :
    e.content.length ≤ (es.flatMap encode).length :=
  e.length_content_lt.le.trans (length_encode_le_of_mem h)

/-- The elements inside an element that fits do so too, if their tags may occur. -/
theorem Element.Fits.of_mem {tag : Tag} {es : List Element} (h : (ofElements tag es).Fits)
    (hknown : ∀ e ∈ es, Tag.isKnown e.tag = true) : ∀ e ∈ es, e.Fits := fun e he ↦
  ⟨hknown e he, (length_content_le_of_mem he).trans h.short⟩

/-- What is spelled by several elements in a row is spelled by no others. -/
theorem eq_of_flatMap_encode_eq {es fs : List Element}
    (hlength : (es.flatMap encode).length ≤ maxLength)
    (h : es.flatMap encode = fs.flatMap encode) : es = fs := by
  induction es generalizing fs with
  | nil =>
    cases fs with
    | nil => rfl
    | cons f fs => simp [encode_ne_nil] at h
  | cons e es ih =>
    cases fs with
    | nil => simp [encode_ne_nil] at h
    | cons f fs =>
      have he : e.content.length ≤ maxLength :=
        (length_content_le_of_mem List.mem_cons_self).trans hlength
      have hf : f.content.length ≤ maxLength :=
        (length_content_le_of_mem List.mem_cons_self).trans (h ▸ hlength)
      rw [List.flatMap_cons, List.flatMap_cons] at h
      obtain ⟨rfl, hrest⟩ := encode_append_inj he hf h
      rw [List.flatMap_cons, List.length_append] at hlength
      rw [ih (by omega) hrest]

/-- What is spelled by an element made of elements tells which these are. -/
theorem ofElements_encode_inj {tag : Tag} {es fs : List Element}
    (hes : (ofElements tag es).content.length ≤ maxLength)
    (hfs : (ofElements tag fs).content.length ≤ maxLength)
    (h : (ofElements tag es).encode = (ofElements tag fs).encode) : es = fs := by
  rw [← List.append_nil (encode _), ← List.append_nil (encode (ofElements tag fs))] at h
  have hsame : ofElements tag es = ofElements tag fs := (encode_append_inj hes hfs h).1
  exact eq_of_flatMap_encode_eq hes (congrArg Element.content hsame)

theorem elements?_content {tag : Tag} {es : List Element} (h : (ofElements tag es).Fits)
    (hknown : ∀ e ∈ es, Tag.isKnown e.tag = true) :
    elements? (ofElements tag es).content = some es :=
  elements?_eq_some_iff.2 ⟨h.of_mem hknown, rfl⟩

end SignedFirmware.Der
