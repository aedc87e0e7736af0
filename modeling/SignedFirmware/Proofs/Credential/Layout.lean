import SignedFirmware.Proofs.Credential.File
import SignedFirmware.Proofs.Pem.Text
import SignedFirmware.Proofs.Trust.Chain

/-!
# The layout of labelled text does not matter

Tools write the same characters in lines of any length, with ends of lines of one or two bytes, with
empty lines in between and with other text behind the closing line. A `Layout` is a text put
together in such a way, so what is said of all layouts is said of all of these texts. `layOutLines`
is a loop over lines with two states; each line that a layout can hold takes one known step of it
(`layOutLines_begin`, `layOutLines_row`, `layOutLines_end`, `layOutLines_outside`). What a whole
layout is laid out as follows by induction on its lines, and depends on its characters alone.
-/

namespace SignedFirmware.Credential

open X509 (Certificate)

variable {digits line margin : Bytes} {inside : Bool} {rest : List Bytes} {c : Certificate}

/-! ## Lines and what is behind them -/

/-- White space that may stand at the end of a line. -/
def IsMargin (b : Bytes) : Prop := ∀ x ∈ b, Bytes.isBlank x = true ∧ x ≠ 10

instance (b : Bytes) : Decidable (IsMargin b) := List.decidableBAll _ b

/-- A line between the tags: characters, and white space behind them. A line without characters is a
blank line. -/
structure Row where
  characters : Bytes
  margin : Bytes
  isCharacter : ∀ x ∈ characters, Pem.Base64.IsCharacter x
  isMargin : IsMargin margin

/-- A line of characters alone. -/
def Row.bare (characters : Bytes) (h : ∀ x ∈ characters, Pem.Base64.IsCharacter x) : Row :=
  ⟨characters, [], h, fun _ hx ↦ nomatch hx⟩

def Row.bytes (r : Row) : Bytes := r.characters ++ r.margin

/-- A text with a certificate: the tags with white space behind them, lines in between, and lines
behind that do not begin with a tag. -/
structure Layout where
  /-- White space behind the opening tag. -/
  beginMargin : Bytes
  rows : List Row
  /-- White space behind the closing tag. -/
  endMargin : Bytes
  /-- The lines behind the closing tag. -/
  after : List Bytes
  isMargin_begin : IsMargin beginMargin
  isMargin_end : IsMargin endMargin
  oneLine : ∀ line ∈ after, 10 ∉ line
  noTag : ∀ line ∈ after, ¬beginTag <+: line ∧ ¬endTag <+: line

namespace Layout

/-- The characters of all lines, without a break. -/
def characters (l : Layout) : Bytes := l.rows.flatMap Row.characters

def lines (l : Layout) : List Bytes :=
  (beginTag ++ l.beginMargin) :: l.rows.map Row.bytes ++ (endTag ++ l.endMargin) :: l.after

/-- The text, with a line feed between any two lines. -/
def text (l : Layout) : Bytes := [10].intercalate l.lines

end Layout

/-! ## What a line does -/

theorem IsMargin.not_mem (h : IsMargin margin) : 10 ∉ margin := fun hmem ↦ (h 10 hmem).2 rfl

theorem IsMargin.trimEnd_append (h : IsMargin margin) {b : Bytes}
    (hb : ∀ x ∈ b.getLast?, Bytes.isBlank x = false) : Bytes.trimEnd (b ++ margin) = b :=
  Bytes.trimEnd_append hb fun x hx ↦ (h x hx).1

theorem Row.trimEnd_bytes (r : Row) : Bytes.trimEnd r.bytes = r.characters :=
  r.isMargin.trimEnd_append fun x hx ↦
    (r.isCharacter x (List.mem_of_getLast? hx)).isBlank_eq_false

/-- Characters do not begin like a tag, which begins with a dash. -/
theorem Row.not_prefix (r : Row) :
    ¬beginTag <+: r.characters ∧ ¬endTag <+: r.characters := by
  have hdash : ¬Pem.Base64.IsCharacter 45 := by decide
  have hbegin : 45 ∈ beginTag := by decide +kernel
  have hend : 45 ∈ endTag := by decide +kernel
  exact ⟨fun h ↦ hdash (r.isCharacter 45 (h.subset hbegin)),
    fun h ↦ hdash (r.isCharacter 45 (h.subset hend))⟩

theorem layOutLines_begin (h : IsMargin margin) :
    layOutLines inside digits ((beginTag ++ margin) :: rest) =
      (layOutLines true digits rest).map (beginTag :: ·) := by
  have htrim : Bytes.trimEnd (beginTag ++ margin) = beginTag := h.trimEnd_append (by decide +kernel)
  have hne : beginTag ≠ [] := by decide +kernel
  have htag : beginTag.isPrefixOf beginTag = true := by decide +kernel
  rw [layOutLines, htrim, if_neg hne, if_pos htag]

theorem layOutLines_end (h : IsMargin margin) :
    layOutLines inside digits ((endTag ++ margin) :: rest) =
      (layOutLines false [] rest).map (Bytes.chunks Pem.lineWidth digits ++ endTag :: ·) := by
  have htrim : Bytes.trimEnd (endTag ++ margin) = endTag := h.trimEnd_append (by decide +kernel)
  have hne : endTag ≠ [] := by decide +kernel
  have hother : ¬beginTag.isPrefixOf endTag = true := by decide +kernel
  have htag : endTag.isPrefixOf endTag = true := by decide +kernel
  rw [layOutLines, htrim, if_neg hne, if_neg hother, if_pos htag]

/-- A line between the tags adds its characters, if it has any. -/
theorem layOutLines_row (r : Row) :
    layOutLines true digits (r.bytes :: rest) = layOutLines true (digits ++ r.characters) rest := by
  rw [layOutLines, r.trimEnd_bytes]
  by_cases hblank : r.characters = []
  · rw [if_pos hblank, hblank, List.append_nil]
  · obtain ⟨hbegin, hend⟩ := r.not_prefix
    rw [if_neg hblank, if_neg (mt List.isPrefixOf_iff_prefix.1 hbegin),
      if_neg (mt List.isPrefixOf_iff_prefix.1 hend), if_pos rfl]

/-- A line outside the tags does nothing. -/
theorem layOutLines_outside (hline : ¬beginTag <+: line ∧ ¬endTag <+: line) :
    layOutLines false digits (line :: rest) = layOutLines false digits rest := by
  -- no tag begins the line without its white space either
  have htrim : ∀ {tag : Bytes}, ¬tag <+: line → ¬tag.isPrefixOf (Bytes.trimEnd line) = true :=
    fun h ↦ mt (fun htag ↦ (List.isPrefixOf_iff_prefix.1 htag).trans (Bytes.trimEnd_prefix line)) h
  rw [layOutLines, if_neg (htrim hline.1), if_neg (htrim hline.2), if_neg Bool.false_ne_true,
    ite_self]

/-- What begins with the opening tag is taken for text. -/
theorem isText_of_begins {text : Bytes} (h : beginTag <+: text) : isText text = true := by
  obtain ⟨more, rfl⟩ := h
  obtain ⟨tail, htail⟩ : ∃ tail, beginTag = 45 :: tail := ⟨beginTag.tail, by decide +kernel⟩
  have hbegin : Bytes.ofString "-----BEGIN" <+: beginTag := by decide +kernel
  have htrim : Bytes.trimStart (beginTag ++ more) = beginTag ++ more := by
    rw [htail, Bytes.trimStart, List.cons_append, List.dropWhile_cons_of_neg (by decide)]
  rw [isText, htrim, List.isPrefixOf_iff_prefix]
  exact hbegin.trans (List.prefix_append beginTag more)

/-! ## Whole texts -/

theorem layOutLines_rows (rows : List Row) (digits : Bytes) (rest : List Bytes) :
    layOutLines true digits (rows.map Row.bytes ++ rest) =
      layOutLines true (digits ++ rows.flatMap Row.characters) rest := by
  induction rows generalizing digits with
  | nil => rw [List.map_nil, List.nil_append, List.flatMap_nil, List.append_nil]
  | cons r rows ih =>
    rw [List.map_cons, List.cons_append, layOutLines_row, ih, List.flatMap_cons, List.append_assoc]

theorem layOutLines_after {after : List Bytes}
    (h : ∀ line ∈ after, ¬beginTag <+: line ∧ ¬endTag <+: line) :
    layOutLines false digits after = some [] := by
  induction after with
  | nil => rfl
  | cons line after ih =>
    rw [List.forall_mem_cons] at h
    rw [layOutLines_outside h.1, ih h.2]

namespace Layout

theorem layOutLines_lines (l : Layout) :
    layOutLines false [] l.lines =
      some ([beginTag] ++ Bytes.chunks Pem.lineWidth l.characters ++ [endTag]) := by
  rw [lines, List.cons_append, layOutLines_begin l.isMargin_begin, layOutLines_rows,
    layOutLines_end l.isMargin_end, layOutLines_after l.noTag]
  simp [characters]

theorem lines_text (l : Layout) : Bytes.lines l.text = l.lines := by
  apply Bytes.lines_intercalate
  · have hbegin : 10 ∉ beginTag := by decide +kernel
    have hend : 10 ∉ endTag := by decide +kernel
    have hrow : ∀ r : Row, 10 ∉ r.bytes := by
      intro r h
      rcases List.mem_append.1 h with h | h
      · exact absurd (r.isCharacter 10 h) (by decide)
      · exact r.isMargin.not_mem h
    simp only [lines, List.mem_append, List.mem_cons, List.mem_map]
    rintro _ ((rfl | ⟨r, -, rfl⟩) | rfl | h)
    · simp [hbegin, l.isMargin_begin.not_mem]
    · exact hrow r
    · simp [hend, l.isMargin_end.not_mem]
    · exact l.oneLine _ h
  · rw [lines, List.cons_append]
    exact List.cons_ne_nil _ _

theorem layOut_text (l : Layout) :
    layOut l.text =
      .ok (Pem.unlines ([beginTag] ++ Bytes.chunks Pem.lineWidth l.characters ++ [endTag])) := by
  rw [layOut, lines_text, layOutLines_lines]

theorem isText_text (l : Layout) : isText l.text = true := by
  apply isText_of_begins
  rw [text, lines, List.cons_append, List.intercalate_cons_of_ne_nil (by simp), List.append_assoc,
    List.append_assoc]
  exact List.prefix_append beginTag _

/-- What a layout is read as depends on its characters alone. -/
theorem parseCertificate_text (l : Layout) :
    parseCertificate l.text =
      parseCertificateText
        (Pem.unlines ([beginTag] ++ Bytes.chunks Pem.lineWidth l.characters ++ [endTag])) := by
  rw [parseCertificate, if_pos l.isText_text, layOut_text]
  rfl

/-! ## The layout that is written -/

/-- The layout with nothing but full lines, the last of which may be shorter. -/
def plain (data : Bytes) : Layout where
  beginMargin := []
  rows := (Bytes.chunks Pem.lineWidth (Pem.Base64.encode data)).pmap Row.bare fun _ hpiece _ hx ↦
    Pem.Base64.isCharacter_of_mem_encode ((Bytes.cut_chunks (by decide) _).mem hpiece hx)
  endMargin := []
  after := [[]]
  isMargin_begin := by decide
  isMargin_end := by decide
  oneLine := by decide
  noTag := by decide +kernel

theorem characters_plain (data : Bytes) : (plain data).characters = Pem.Base64.encode data := by
  have hcut := Bytes.cut_chunks (n := Pem.lineWidth) (by decide) (Pem.Base64.encode data)
  conv_rhs => rw [← hcut.flatten_eq]
  simp [characters, plain, List.flatMap_def, List.map_pmap, Row.bare]

theorem text_plain (data : Bytes) : (plain data).text = Pem.render certificateLabel data := by
  rw [Pem.render, Pem.unlines_eq_intercalate, text, lines]
  simp [plain, Row.bytes, beginTag, endTag, List.map_pmap, Row.bare]

end Layout

/-- The text of a certificate is laid out already. -/
theorem layOut_certificateText (c : Certificate) :
    layOut (certificateText c) = .ok (certificateText c) := by
  have htext := (Layout.plain c.encode).layOut_text
  rwa [Layout.text_plain, Layout.characters_plain] at htext

/-- The text of a certificate is read as the certificate that its bytes are read as. -/
theorem parseCertificate_certificateText (h : Certificate.decode? c.encode = some c) :
    parseCertificate (certificateText c) = .ok c := by
  have htext : isText (certificateText c) = true := by
    rw [certificateText, ← Layout.text_plain]
    exact Layout.isText_text _
  have hne : c.encode ≠ [] := by
    obtain ⟨more, hmore⟩ : ∃ more, c.encode = 0x30 :: more := ⟨_, rfl⟩
    rw [hmore]
    exact List.cons_ne_nil _ _
  rw [parseCertificate, if_pos htext, layOut_certificateText, Checked.bind_eq_ok_iff]
  exact ⟨_, rfl, parseCertificateText_eq_ok_iff.2 ⟨_, Pem.parse?_render certificateLabel hne, h⟩⟩

/-! ## All layouts -/

/-- **Layout does not matter.** Whatever the lines, their ends and the text behind the closing line
are, a text is laid out as the opening line, its characters in full lines, the last of which may be
shorter, and the closing line, with one line feed after each. So two texts with the same characters
are read as the same certificate, or fail in the same way. -/
theorem layout_immaterial (l : Layout) :
    (∃ pieces, Bytes.Cut Pem.lineWidth l.characters pieces ∧
      layOut l.text = .ok (Pem.unlines ([beginTag] ++ pieces ++ [endTag]))) ∧
    ∀ l' : Layout, l'.characters = l.characters →
      parseCertificate l'.text = parseCertificate l.text := by
  refine ⟨⟨_, Bytes.cut_chunks (by decide) _, l.layOut_text⟩, fun l' h ↦ ?_⟩
  rw [l'.parseCertificate_text, l.parseCertificate_text, h]

/-- The sample certificate in one line, between blank lines, with carriage returns and a tab. -/
def sampleLayout : Layout where
  beginMargin := [13]
  rows :=
    [⟨[], [9, 13], nofun, by decide⟩,
      ⟨Pem.Base64.encode Trust.Chain.sampleLeaf.encode, [32, 13],
        fun _ ↦ Pem.Base64.isCharacter_of_mem_encode, by decide⟩,
      .bare [] nofun]
  endMargin := []
  after := [Bytes.ofString "-----BEGIN X509 CRL-----", []]
  isMargin_begin := by decide
  isMargin_end := by decide
  oneLine := by decide +kernel
  noTag := by decide +kernel

/-- It is read as the text with full lines is. -/
theorem layout_immaterial_oneLine :
    let full := Layout.plain Trust.Chain.sampleLeaf.encode
    (sampleLayout.characters = full.characters ∧ sampleLayout.text ≠ full.text) ∧
      parseCertificate sampleLayout.text = .ok Trust.Chain.sampleLeaf := by
  intro full
  have hcharacters : sampleLayout.characters = full.characters := by
    rw [Layout.characters_plain]
    exact List.append_nil _
  have hne : sampleLayout.text ≠ Pem.render certificateLabel Trust.Chain.sampleLeaf.encode := by
    decide +kernel
  have hfull : parseCertificate (Pem.render certificateLabel Trust.Chain.sampleLeaf.encode) =
      .ok Trust.Chain.sampleLeaf :=
    parseCertificate_certificateText (by decide +kernel)
  rw [← Layout.text_plain] at hne hfull
  exact ⟨⟨hcharacters, hne⟩, ((layout_immaterial full).2 sampleLayout hcharacters).trans hfull⟩

end SignedFirmware.Credential
